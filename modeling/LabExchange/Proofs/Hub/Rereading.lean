import LabExchange.Proofs.Hub.ReadEntries

/-!
# Reading once and for all

The reader of snapshots takes many more texts than the writer makes. Whatever it has made of a text
lies where writing loses nothing: its version is not too new, its numbers are finite, its further
fields have names of their own and are no deeper than a text may have them. So what has been read
is read in the same way ever after.
-/
namespace LabExchange

namespace Snapshot

variable {text : String} {s : Snapshot} {skipped : List Nat}

theorem version_le_of_ofText (h : ofText text = .ok (s, skipped)) : s.version ≤ currentVersion := by
  unfold ofText at h
  split at h
  · exact absurd h (by nofun)
  · split at h
    · exact absurd h (by nofun)
    · next hversion =>
      obtain ⟨rfl, -⟩ := Prod.mk.inj (Except.ok.inj h)
      exact Nat.not_lt.mp hversion

/-- A snapshot that has been read from any text is written as a text that is read as that snapshot,
with no entry skipped, if the doubles in it are read as they are written. -/
theorem ofText_text_of_ofText (h : ofText text = .ok (s, skipped))
    (hdoubles : ∀ e ∈ s.entries, e.toJson.DoublesReadBack) : ofText s.text = .ok (s, []) := by
  have hversion := version_le_of_ofText h
  have hread := of_ofText h
  have hroom : ∀ e ∈ s.entries, e.toJson.depth ≤ entryRoom := fun e he =>
    Entry.isShallow_iff.mp (hread e he).2
  exact ofText_text_of_le hversion (doublesReadBack_of_le hversion hdoubles)
    (fun e he => (hread e he).1) hroom

/-- A text that no snapshot is written as. It has an array in place of an entry and in place of a
complex number, data before a kind, unknown and repeated keys, integers for doubles, an entry
without a number, timestamps in other forms, and an entry that does not read. -/
def irregularText : String :=
  "\x7b\"note\":0,\"entries\":[[\"a\",\"matrices\",\"grid\"," ++
    "\x7b\"unit\":1,\"data\":[[3]],\"kind\":\"matrix\"\x7d," ++
    "\x7b\"name\":\"M\",\"unit\":\"m\",\"timestamp\":\"2024-02-29 12:00:00+01:00\"," ++
    "\"unit\":[1.5,7],\"description\":\"\"\x7d],\x7b\"id\":\"b\"\x7d,\x7b\"id\":\"c\"," ++
    "\"category\":\"complex\",\"source_tab\":\"plane\",\"sequence\":4," ++
    "\"payload\":[\"complex\",[0,-2]],\"metadata\":\x7b\"name\":\"z\",\"description\":\"\"," ++
    "\"timestamp\":\"2024-02-29t12:00:00z\"\x7d\x7d]," ++
    "\"note\":null,\"saved_at\":\"2024-02-29T12:00:00.0Z\",\"version\":0\x7d"

/-- What is read from that text, without the entry in the middle, is what is read ever after. -/
theorem ofText_text_of_ofText_irregular : ∃ s, ofText irregularText = .ok (s, [1]) ∧
    s.entries.map (fun e => (e.id.text, e.sequence)) = [("a", 0), ("c", 4)] ∧
    ofText s.text = .ok (s, []) := by
  have hlook : (envelope? irregularText.toList).map (fun envelope =>
      (skipped envelope.entries,
        (envelope.entries.filterMap Entry.ofTree?).map fun e => (e.id.text, e.sequence),
        decide (envelope.version ≤ currentVersion ∧
          ∀ e ∈ envelope.entries.filterMap Entry.ofTree?, ∀ n ∈ e.toJson.numbers, n.ReadsBack))) =
      some ([1], [("a", 0), ("c", 4)], true) := by
    unfold irregularText
    simp only [String.toList_append]
    decide +kernel
  obtain ⟨envelope, henvelope, hseen⟩ := Option.map_eq_some_iff.mp hlook
  simp only [Prod.mk.injEq, decide_eq_true_eq] at hseen
  obtain ⟨hskipped, hentries, hversion, hnumbers⟩ := hseen
  have hread := ofText_of_envelope? henvelope hversion
  have hdoubles : ∀ e ∈ envelope.entries.filterMap Entry.ofTree?, e.toJson.DoublesReadBack :=
    fun e he x finite hx => hnumbers e he _ hx
  exact ⟨_, hskipped ▸ hread, hentries, ofText_text_of_ofText hread hdoubles⟩

end Snapshot
end LabExchange
