import LabExchange.Proofs.Hub.Merging
import LabExchange.Proofs.Hub.Numbering
import LabExchange.Proofs.Hub.ReadEntries
import Mathlib.Order.Bounds.Basic

/-!
# Loading

A hub takes in exactly the good elements of a file: those that read as an entry by themselves, have
a payload of their category, and an id that is new to the hub and to the elements taken in before.
Of every other element nothing is left, not even its id. What comes of a text is told from what
encloses the entries in it, element by element.
-/
namespace LabExchange

namespace Store

variable {s t : Store} {elements : List Json} {places : List Nat} {e : Entry}

/-! ## Good elements -/

/-- The entry that an element is read as, if it reads by itself. -/
def entryAt? (elements : List Json) (i : Nat) : Option Entry := elements[i]?.bind Entry.ofTree?

/-- An element is good if it reads, its payload is of its category, and its id has neither been
issued before nor come in from one of the places before it. -/
def IsGood (s : Store) (elements : List Json) (places : List Nat) (i : Nat) : Prop :=
  ∃ e, entryAt? elements i = some e ∧ e.payload.category = e.category ∧ e.id ∉ s.issued ∧
    ∀ k ∈ places, k < i → ∀ f, entryAt? elements k = some f → f.id ≠ e.id

theorem lt_of_entryAt? {i : Nat} (h : entryAt? elements i = some e) : i < elements.length := by
  obtain ⟨j, hj, -⟩ := Option.bind_eq_some_iff.mp h
  exact (List.getElem?_eq_some_iff.mp hj).1

theorem mem_filterMap_of_entryAt? {i : Nat} (h : entryAt? elements i = some e) :
    e ∈ elements.filterMap Entry.ofTree? := by
  obtain ⟨j, hj, he⟩ := Option.bind_eq_some_iff.mp h
  exact List.mem_filterMap.mpr ⟨j, List.mem_of_getElem? hj, he⟩

theorem entryAt?_append_of_lt {i : Nat} (h : i < elements.length) (later : List Json) :
    entryAt? (elements ++ later) i = entryAt? elements i := by
  rw [entryAt?, List.getElem?_append_left h, entryAt?]

theorem entryAt?_append_length (elements : List Json) (j : Json) (later : List Json) :
    entryAt? (elements ++ j :: later) elements.length = Entry.ofTree? j := by
  simp [entryAt?]

/-- An entry can be restored after others exactly if it fits and its id is new to all of them. -/
theorem isSome_restore?_takeAll {l : List Entry} : ((s.takeAll l).restore? e).isSome ↔
    e.payload.category = e.category ∧ e.id ∉ s.issued ∧ ∀ f ∈ l, f.id ≠ e.id := by
  rw [Option.isSome_iff_exists]
  simp [restore?_eq_some]

/-! ## The places of what is taken in -/

/-- The places of the elements that are taken in when they are restored one after the other. -/
structure Takes (s : Store) (elements : List Json) (places : List Nat) : Prop where
  increasing : places.Pairwise (· < ·)
  good : ∀ i, i ∈ places ↔ s.IsGood elements places i
  welcome : s.welcome (elements.filterMap Entry.ofTree?) = places.filterMap (entryAt? elements)

namespace Takes

theorem lt_length (h : s.Takes elements places) {i : Nat} (hi : i ∈ places) :
    i < elements.length := by
  obtain ⟨e, he, -⟩ := (h.good i).mp hi
  exact lt_of_entryAt? he

theorem of_mem (h : s.Takes elements places) {i : Nat} (hi : i ∈ places)
    (he : entryAt? elements i = some e) : e.payload.category = e.category ∧ e.id ∉ s.issued := by
  obtain ⟨f, hf, hfits, hfresh, -⟩ := (h.good i).mp hi
  obtain rfl : e = f := Option.some.inj (he.symm.trans hf)
  exact ⟨hfits, hfresh⟩

/-- Further elements change nothing at the places before them. -/
theorem filterMap_append (h : s.Takes elements places) (later : List Json) :
    places.filterMap (entryAt? (elements ++ later)) = places.filterMap (entryAt? elements) :=
  List.filterMap_congr fun _ hi => entryAt?_append_of_lt (h.lt_length hi) later

theorem welcome_concat (h : s.Takes elements places) (j : Json) :
    s.welcome ((elements ++ [j]).filterMap Entry.ofTree?) =
      places.filterMap (entryAt? (elements ++ [j])) ++
        (s.takeAll (places.filterMap (entryAt? elements))).welcome (Entry.ofTree? j).toList := by
  rw [List.filterMap_append, welcome_append, h.welcome, h.filterMap_append]
  cases hj : Entry.ofTree? j <;> simp [hj]

end Takes

/-- Whether an element is good does not depend on those that come after it. -/
theorem isGood_append_of_lt {places' : List Nat} {i : Nat} (hi : i < elements.length)
    (hplaces : ∀ k < i, k ∈ places' ↔ k ∈ places) (later : List Json) :
    s.IsGood (elements ++ later) places' i ↔ s.IsGood elements places i := by
  have hsame : ∀ k ≤ i, entryAt? (elements ++ later) k = entryAt? elements k := fun k hk =>
    entryAt?_append_of_lt (Nat.lt_of_le_of_lt hk hi) later
  have hearlier : ∀ e : Entry,
      (∀ k ∈ places', k < i → ∀ f, entryAt? (elements ++ later) k = some f → f.id ≠ e.id) ↔
        ∀ k ∈ places, k < i → ∀ f, entryAt? elements k = some f → f.id ≠ e.id := by
    intro e
    constructor
    · intro h k hk hki
      rw [← hsame k hki.le]
      exact h k ((hplaces k hki).mpr hk) hki
    · intro h k hk hki
      rw [hsame k hki.le]
      exact h k ((hplaces k hki).mp hk) hki
  simp only [IsGood, hsame i le_rfl, hearlier]

/-- The element after those that have been looked at is good exactly if its entry is restored after
what was taken in. -/
theorem Takes.isGood_length (h : s.Takes elements places) {places' : List Nat}
    (hplaces : ∀ k < elements.length, k ∈ places' ↔ k ∈ places) (j : Json) (later : List Json) :
    s.IsGood (elements ++ j :: later) places' elements.length ↔ ∃ e, Entry.ofTree? j = some e ∧
      ((s.takeAll (places.filterMap (entryAt? elements))).restore? e).isSome := by
  have htaken : ∀ e : Entry,
      (∀ k ∈ places', k < elements.length → ∀ f, entryAt? (elements ++ j :: later) k = some f →
        f.id ≠ e.id) ↔ ∀ f ∈ places.filterMap (entryAt? elements), f.id ≠ e.id := by
    intro e
    constructor
    · intro hall f hf
      obtain ⟨k, hk, hkf⟩ := List.mem_filterMap.mp hf
      have hlt := h.lt_length hk
      rw [← entryAt?_append_of_lt hlt (j :: later)] at hkf
      exact hall k ((hplaces k hlt).mpr hk) hlt f hkf
    · intro hall k hk hlt f hkf
      rw [entryAt?_append_of_lt hlt] at hkf
      exact hall f (List.mem_filterMap.mpr ⟨k, (hplaces k hlt).mp hk, hkf⟩)
  simp only [IsGood, entryAt?_append_length, htaken, isSome_restore?_takeAll]

/-- What decides the places of all elements, the last one among them. -/
theorem Takes.good_concat (h : s.Takes elements places) {places' : List Nat} (j : Json)
    (hplaces : ∀ k < elements.length, k ∈ places' ↔ k ∈ places)
    (hlast : elements.length ∈ places' ↔ s.IsGood (elements ++ [j]) places' elements.length)
    (hnone : ∀ i ∈ places', i ≤ elements.length) (i : Nat) :
    i ∈ places' ↔ s.IsGood (elements ++ [j]) places' i := by
  rcases Nat.lt_trichotomy i elements.length with hlt | rfl | hgt
  · rw [isGood_append_of_lt hlt fun k hk => hplaces k (hk.trans hlt), ← h.good, hplaces i hlt]
  · exact hlast
  · refine iff_of_false (fun hi => absurd (hnone i hi) (Nat.not_le.mpr hgt)) ?_
    rintro ⟨e, he, -⟩
    have hlt := lt_of_entryAt? he
    rw [List.length_append, List.length_singleton] at hlt
    omega

/-- A good element at the end adds its place. -/
theorem Takes.concat_good (h : s.Takes elements places) {j : Json}
    (hgood : s.IsGood (elements ++ [j]) places elements.length) :
    s.Takes (elements ++ [j]) (places ++ [elements.length]) := by
  have hplaces : ∀ k < elements.length, k ∈ places ++ [elements.length] ↔ k ∈ places := by
    intro k hk
    simp [hk.ne]
  refine ⟨?_, h.good_concat j hplaces ?_ ?_, ?_⟩
  · exact List.pairwise_append.mpr ⟨h.increasing, List.pairwise_singleton _ _, fun i hi k hk =>
      List.mem_singleton.mp hk ▸ h.lt_length hi⟩
  · refine iff_of_true (by simp) ?_
    rwa [h.isGood_length hplaces, ← h.isGood_length fun _ _ => Iff.rfl]
  · intro i hi
    rcases List.mem_append.mp hi with hold | hnew
    · exact (h.lt_length hold).le
    · exact (List.mem_singleton.mp hnew).le
  · obtain ⟨e, he, hsome⟩ := (h.isGood_length (fun _ _ => Iff.rfl) j []).mp hgood
    obtain ⟨t, ht⟩ := Option.isSome_iff_exists.mp hsome
    rw [h.welcome_concat, he, List.filterMap_append]
    simp [Store.welcome, ht, entryAt?_append_length, he]

/-- Any other element at the end leaves the places. -/
theorem Takes.concat_other (h : s.Takes elements places) {j : Json}
    (hother : ¬s.IsGood (elements ++ [j]) places elements.length) :
    s.Takes (elements ++ [j]) places := by
  have hnot : elements.length ∉ places := fun hmem => absurd (h.lt_length hmem) (lt_irrefl _)
  refine ⟨h.increasing, h.good_concat j (fun _ _ => Iff.rfl) (iff_of_false hnot hother) ?_, ?_⟩
  · exact fun i hi => (h.lt_length hi).le
  · rw [h.welcome_concat]
    cases he : Entry.ofTree? j with
    | none => simp [Store.welcome]
    | some e =>
      have hnone := mt (h.isGood_length (fun _ _ => Iff.rfl) j []).mpr hother
      simp only [not_exists, not_and, Option.not_isSome_iff_eq_none] at hnone
      simp [Store.welcome, hnone e he]

/-- Every list of elements has its places. -/
theorem exists_takes (s : Store) (elements : List Json) : ∃ places, s.Takes elements places := by
  induction elements using List.reverseRecOn with
  | nil =>
    refine ⟨[], .nil, fun i => iff_of_false List.not_mem_nil ?_, rfl⟩
    rintro ⟨e, he, -⟩
    exact absurd (lt_of_entryAt? he) (Nat.not_lt_zero i)
  | append_singleton elements j ih =>
    obtain ⟨places, h⟩ := ih
    by_cases hgood : s.IsGood (elements ++ [j]) places elements.length
    · exact ⟨_, h.concat_good hgood⟩
    · exact ⟨_, h.concat_other hgood⟩

/-! ## What is left of the elements -/

/-- The counter comes to the least number that is not below it and above all that came in, as far as
there is a number. -/
theorem nextSequence_takeAll_isLeast (s : Store) (l : List Entry) :
    ∃ least, IsLeast {n | s.nextSequence.toNat ≤ n ∧ ∀ e ∈ l, e.sequence.toNat < n} least ∧
      (s.takeAll l).nextSequence.toNat = min least (UInt64.size - 1) := by
  induction l using List.reverseRecOn with
  | nil =>
    have hlt := s.nextSequence.toNat_lt_size
    refine ⟨s.nextSequence.toNat, ⟨⟨Nat.le_refl _, List.forall_mem_nil _⟩, fun n hn => hn.1⟩, ?_⟩
    change s.nextSequence.toNat = _
    omega
  | append_singleton l e ih =>
    obtain ⟨least, ⟨⟨hold, habove⟩, hleast⟩, hnext⟩ := ih
    refine ⟨max least (e.sequence.toNat + 1), ⟨⟨by omega, ?_⟩, ?_⟩, ?_⟩
    · refine List.forall_mem_append.mpr ⟨fun f hf => ?_, ?_⟩
      · have hf := habove f hf
        omega
      · exact List.forall_mem_singleton.mpr (by omega)
    · rintro n ⟨hn, hall⟩
      obtain ⟨hl, he⟩ := List.forall_mem_append.mp hall
      exact Nat.max_le.mpr ⟨hleast ⟨hn, hl⟩, he e (List.mem_singleton_self e)⟩
    · rw [takeAll_append]
      change ((s.takeAll l).takeIn e).nextSequence.toNat = _
      rw [nextSequence_takeIn, hnext, toNat_after_eq]
      exact (Nat.min_max_distrib_right _ _ _).symm

/-- Without an element that is not good just the same is taken in. -/
theorem Takes.welcome_eraseIdx (h : s.Takes elements places) {i : Nat} (hi : i ∉ places) :
    s.welcome ((elements.eraseIdx i).filterMap Entry.ofTree?) =
      s.welcome (elements.filterMap Entry.ofTree?) := by
  rcases Nat.lt_or_ge i elements.length with hlt | hge
  · obtain ⟨before, j, later, rfl, rfl⟩ : ∃ before j later,
        elements = before ++ j :: later ∧ before.length = i :=
      ⟨_, _, _, (List.take_append_drop i elements).symm.trans
        (by rw [List.drop_eq_getElem_cons hlt]), by simp [hlt.le]⟩
    have herase : (before ++ j :: later).eraseIdx before.length = before ++ later := by
      simp [List.eraseIdx_append_of_length_le]
    rw [herase, List.filterMap_append, List.filterMap_append, welcome_append, welcome_append]
    cases hj : Entry.ofTree? j with
    | none => rw [List.filterMap_cons_none hj]
    | some e =>
      -- If an earlier place brought the id, then so do the elements before this one by themselves,
      -- though it may be from another place.
      have hnone : (s.takeAll (s.welcome (before.filterMap Entry.ofTree?))).restore? e = none := by
        rw [← Option.not_isSome_iff_eq_none, isSome_restore?_takeAll]
        rintro ⟨hfits, hfresh, hnew⟩
        refine hi ((h.good _).mpr ⟨e, by rw [entryAt?_append_length, hj], hfits, hfresh, ?_⟩)
        intro k hk hlt f hf hid
        obtain ⟨hffits, hffresh⟩ := h.of_mem hk hf
        rw [entryAt?_append_of_lt hlt] at hf
        obtain ⟨g, hg, hsame⟩ := exists_mem_welcome (mem_filterMap_of_entryAt? hf) hffits hffresh
        exact hnew g hg (hsame.trans hid)
      rw [List.filterMap_cons_some hj, Store.welcome, hnone]
  · rw [List.eraseIdx_of_length_le hge]

/-- What loading the elements of a file comes to: those that are good, at some places, are taken in
one after the other. They alone would have come to the same, and so would all elements without any
one of the others. -/
structure Loads (s : Store) (elements : List Json) (places : List Nat) (s' : Store) : Prop where
  increasing : places.Pairwise (· < ·)
  good : ∀ i, i ∈ places ↔ s.IsGood elements places i
  entries : ∀ c, s'.entries c =
    s.entries c ++ (places.filterMap (entryAt? elements)).filter (·.category = c)
  issued : ∀ id, id ∈ s'.issued ↔
    id ∈ s.issued ∨ ∃ i ∈ places, ∃ e, entryAt? elements i = some e ∧ e.id = id
  nextSequence : ∃ least, IsLeast {n | s.nextSequence.toNat ≤ n ∧
      ∀ i ∈ places, ∀ e, entryAt? elements i = some e → e.sequence.toNat < n} least ∧
    s'.nextSequence.toNat = min least (UInt64.size - 1)
  alone : s.restoreEntries (places.filterMap (entryAt? elements)) = (s', places.length, [])
  others : ∀ i, i ∉ places → ∃ log,
    s.restoreEntries ((elements.eraseIdx i).filterMap Entry.ofTree?) = (s', places.length, log)
  /-- An id that only entries of other categories than their payloads' carry is still free. -/
  unspoilt : ∀ e : Entry, e.payload.category = e.category → e.id ∉ s.issued →
    (∀ i f, entryAt? elements i = some f → f.id = e.id → f.payload.category ≠ f.category) →
    s'.restore? e = some (s'.takeIn e)

theorem Takes.length_eq (h : s.Takes elements places) :
    (places.filterMap (entryAt? elements)).length = places.length := by
  rw [List.length_filterMap_eq_countP, List.countP_eq_length]
  intro i hi
  obtain ⟨e, he, -⟩ := (h.good i).mp hi
  rw [he]
  rfl

theorem Takes.restoreEntries_eq (h : s.Takes elements places) {l : List Entry}
    (hl : s.welcome l = s.welcome (elements.filterMap Entry.ofTree?)) : ∃ log,
      s.restoreEntries l =
        (s.takeAll (places.filterMap (entryAt? elements)), places.length, log) := by
  obtain ⟨hstore, hcount⟩ := restoreEntries_eq_welcome s l
  rw [hl, h.welcome] at hstore hcount
  exact ⟨_, Prod.ext hstore (Prod.ext (hcount.trans h.length_eq) rfl)⟩

theorem Takes.loads (h : s.Takes elements places) :
    s.Loads elements places (s.takeAll (places.filterMap (entryAt? elements))) where
  increasing := h.increasing
  good := h.good
  entries := entries_takeAll s _
  issued id := by
    rw [mem_issued_takeAll, List.mem_map]
    refine or_congr_right ⟨?_, ?_⟩
    · rintro ⟨e, he, hid⟩
      obtain ⟨i, hi, hie⟩ := List.mem_filterMap.mp he
      exact ⟨i, hi, e, hie, hid⟩
    · rintro ⟨i, hi, e, hie, hid⟩
      exact ⟨e, List.mem_filterMap.mpr ⟨i, hi, hie⟩, hid⟩
  nextSequence := by
    obtain ⟨least, hleast, hnext⟩ := nextSequence_takeAll_isLeast s
      (places.filterMap (entryAt? elements))
    have habove : ∀ n, (∀ e ∈ places.filterMap (entryAt? elements), e.sequence.toNat < n) ↔
        ∀ i ∈ places, ∀ e, entryAt? elements i = some e → e.sequence.toNat < n := fun n =>
      ⟨fun h i hi e hie => h e (List.mem_filterMap.mpr ⟨i, hi, hie⟩), fun h e he => by
        obtain ⟨i, hi, hie⟩ := List.mem_filterMap.mp he
        exact h i hi e hie⟩
    simp only [habove] at hleast
    exact ⟨least, hleast, hnext⟩
  alone := by
    rw [← h.length_eq, ← h.welcome]
    exact restoreEntries_eq_takeAll (fun e he => (of_mem_welcome he).2.1) (nodup_welcome s _)
      fun e he => (of_mem_welcome he).2.2
  others i hi := h.restoreEntries_eq (h.welcome_eraseIdx hi)
  unspoilt e hfits hfresh honly := by
    refine restore?_eq_some.mpr ⟨hfits, ?_, rfl⟩
    rw [mem_issued_takeAll]
    rintro (hold | hnew)
    · exact hfresh hold
    · obtain ⟨f, hf, hid⟩ := List.mem_map.mp hnew
      obtain ⟨i, hi, hif⟩ := List.mem_filterMap.mp hf
      exact honly i f hif hid (h.of_mem hi hif).1

/-- What a restoration of all that reads in a list of elements comes to. -/
theorem exists_loads (s : Store) (elements : List Json) : ∃ places s' log,
    s.restoreEntries (elements.filterMap Entry.ofTree?) = (s', places.length, log) ∧
      s.Loads elements places s' := by
  obtain ⟨places, h⟩ := exists_takes s elements
  obtain ⟨log, hlog⟩ := h.restoreEntries_eq rfl
  exact ⟨places, _, log, hlog, h.loads⟩

end Store

/-! ## Texts -/

namespace Snapshot

variable {text : String} {elements : List Json}

/-- What encloses the entries in a text reads, and its version is not too new; these are the
elements in it. -/
def Opens (text : String) (elements : List Json) : Prop :=
  ∃ envelope, Json.read Envelope.ofTree? text = .ok envelope ∧ envelope.version ≤ currentVersion ∧
    envelope.entries = elements

/-- What is read from a text that opens has all entries that read by themselves. -/
theorem Opens.parse_eq (h : Opens text elements) : ∃ snapshot log,
    parse text = .ok (snapshot, log) ∧ snapshot.entries = elements.filterMap Entry.ofTree? := by
  obtain ⟨envelope, hread, hversion, rfl⟩ := h
  have htext : ofText text = .ok (⟨envelope.version, envelope.savedAt,
      envelope.entries.filterMap Entry.ofTree?⟩, skipped envelope.entries) := by
    rw [ofText, hread]
    exact if_neg (Nat.not_lt.mpr hversion)
  exact ⟨_, _, by rw [parse, htext], rfl⟩

theorem exists_parse_eq_error (h : ∀ elements, ¬Opens text elements) :
    ∃ failure, parse text = .error failure := by
  have herror : ∃ e, ofText text = .error e := by
    unfold ofText
    split
    · exact ⟨_, rfl⟩
    · next envelope hread =>
      have hnewer : currentVersion < envelope.version :=
        Nat.lt_of_not_le fun hle => h envelope.entries ⟨envelope, hread, hle, rfl⟩
      exact ⟨_, if_pos hnewer⟩
  obtain ⟨e, he⟩ := herror
  exact ⟨_, by rw [parse, he]⟩

end Snapshot

namespace World

variable {σ : Type} {w : World σ} {hub : Nat} {h : Hub σ} {supply : Supply} {patience : Nat}
  {text : String}

theorem restore_of_restoreEntries {s s' : Store} {snapshot : Snapshot} {n : Nat}
    {log : List LogLine} (h : s.restoreEntries snapshot.entries = (s', n, log)) :
    ∃ lines, s.restore snapshot = ⟨s', lines, none, n⟩ := ⟨_, by rw [Store.restore, h]⟩

/-- A restoration is answered at once, and the hub has the store that it leaves. -/
theorem reply_restore (hhub : w.hub? hub = some h) {snapshot : Snapshot} {s : Store} {n : Nat}
    {lines : List LogLine} (hrestore : h.store.restore snapshot = ⟨s, lines, none, n⟩) :
    ∃ w', w.reply supply patience (.store hub (.restore snapshot)) = .done (some n) w' ∧
      w'.store? hub = some s := by
  have heffect : h.store.answer (.restore snapshot) = ⟨s, lines, none, n⟩ := hrestore
  have hreply : w.storeReply hub h (.restore snapshot) =
      .done (some n) ((w.setHub hub { h with store := s }).addLog lines) := by
    rw [storeReply, heffect]
  exact ⟨_, (withHub_of_hub? hhub _).trans hreply, store?_of_hub? (hub?_setStore hhub s)⟩

theorem reply_load_eq (hhub : w.hub? hub = some h) (path : String) :
    w.reply supply patience (.load hub path) =
      .done (some (w.load hub h path).1) (w.load hub h path).2 := withHub_of_hub? hhub _

/-- A file is loaded as its text is read and restored. -/
theorem reply_load (hhub : w.hub? hub = some h) {path : String}
    (hfile : w.files.read path = .ok text) {snapshot : Snapshot} {log lines : List LogLine}
    {s : Store} {n : Nat} (hparse : Snapshot.parse text = .ok (snapshot, log))
    (hrestore : h.store.restore snapshot = ⟨s, lines, none, n⟩) :
    ∃ w', w.reply supply patience (.load hub path) = .done (some (.ok n)) w' ∧
      w'.store? hub = some s := by
  have hload : w.load hub h path =
      (.ok n, (w.setHub hub { h with store := s }).addLog (log ++ lines)) := by
    simp only [load, Snapshot.readFile, hfile, hparse, hrestore]
  rw [reply_load_eq hhub, hload]
  exact ⟨_, rfl, store?_of_hub? (hub?_setStore hhub s)⟩

/-- A file whose text is not read is not loaded. -/
theorem reply_load_of_error (hhub : w.hub? hub = some h) {path : String}
    (hfile : w.files.read path = .ok text) {failure : Failure}
    (hparse : Snapshot.parse text = .error failure) : ∃ failure,
      w.reply supply patience (.load hub path) = .done (some (.error failure)) w := by
  have hload : w.load hub h path =
      (.error (.text s!"Invalid snapshot {path}" :: failure), w) := by
    simp only [load, Snapshot.readFile, hfile, hparse]
  rw [reply_load_eq hhub, hload]
  exact ⟨_, rfl⟩

/-- Of a text exactly the good elements are taken in, whether it is read and restored or loaded from
a file; and if it does not open, neither can be done, and nothing changes. -/
theorem load_takes_good (hhub : w.hub? hub = some h) (text : String) :
    (∀ elements, Snapshot.Opens text elements → ∃ places s',
      h.store.Loads elements places s' ∧
      (∃ snapshot w₁ w₂,
        w.reply supply patience (.parse text) = .done (.ok snapshot) w₁ ∧
        w₁.reply supply patience (.store hub (.restore snapshot)) = .done (some places.length) w₂ ∧
        w₂.store? hub = some s') ∧
      ∀ path, w.files.read path = .ok text → ∃ w',
        w.reply supply patience (.load hub path) = .done (some (.ok places.length)) w' ∧
        w'.store? hub = some s') ∧
    ((∀ elements, ¬Snapshot.Opens text elements) → ∃ failure,
      w.reply supply patience (.parse text) = .done (.error failure) w ∧
      ∀ path, w.files.read path = .ok text → ∃ failure,
        w.reply supply patience (.load hub path) = .done (some (.error failure)) w) := by
  constructor
  · intro elements hopens
    obtain ⟨snapshot, log, hparse, hentries⟩ := hopens.parse_eq
    obtain ⟨places, s', lines, hrestore, hloads⟩ := h.store.exists_loads elements
    rw [← hentries] at hrestore
    obtain ⟨lines, hrestore⟩ := restore_of_restoreEntries hrestore
    refine ⟨places, s', hloads, ?_, fun path hfile => reply_load hhub hfile hparse hrestore⟩
    have hlogged : (w.addLog log).hub? hub = some h := hhub
    obtain ⟨w₂, hreply, hstore⟩ := reply_restore hlogged hrestore
    exact ⟨snapshot, w.addLog log, w₂, by rw [reply, hparse], hreply, hstore⟩
  · intro hclosed
    obtain ⟨failure, hparse⟩ := Snapshot.exists_parse_eq_error hclosed
    exact ⟨failure, by rw [reply, hparse], fun path hfile => reply_load_of_error hhub hfile hparse⟩

/-- Five elements: an entry of another category than its payload's, something that is no entry, two
entries with the id of the first one, and one with an id of its own. -/
def mixedText : String :=
  let entry (id category expression : String) :=
    "\x7b\"id\":\"" ++ id ++ "\",\"category\":\"" ++ category ++ "\",\"source_tab\":\"plot\"," ++
      "\"payload\":\x7b\"kind\":\"function\",\"data\":\"" ++ expression ++ "\"\x7d," ++
      "\"metadata\":\x7b\"name\":\"f\",\"description\":\"\"," ++
      "\"timestamp\":\"2024-02-29T12:00:00Z\"\x7d\x7d"
  "\x7b\"version\":1,\"saved_at\":\"2024-02-29T12:00:00Z\",\"entries\":[" ++
    entry "a" "scalars" "1" ++ ",0," ++ entry "a" "functions" "x" ++ "," ++
    entry "a" "functions" "x^2" ++ "," ++ entry "b" "functions" "x^3" ++ "]\x7d"

/-- The id of the entry that an element is read as, and whether its payload is of its category. -/
def glance (j : Json) : Option (String × Bool) :=
  (Entry.ofTree? j).map fun e => (e.id.text, e.payload.category = e.category)

theorem opens_mixedText : ∃ elements, Snapshot.Opens mixedText elements ∧ elements.map glance =
    [some ("a", false), none, some ("a", true), some ("a", true), some ("b", true)] := by
  have hlook : (Snapshot.envelope? mixedText.toList).map (fun envelope =>
      (decide (envelope.version ≤ Snapshot.currentVersion), envelope.entries.map glance)) =
      some (true,
        [some ("a", false), none, some ("a", true), some ("a", true), some ("b", true)]) := by
    unfold mixedText
    simp only [String.toList_append]
    decide +kernel
  obtain ⟨envelope, henvelope, hseen⟩ := Option.map_eq_some_iff.mp hlook
  simp only [Prod.mk.injEq, decide_eq_true_eq] at hseen
  refine ⟨envelope.entries, ⟨envelope, ?_, hseen.1, rfl⟩, hseen.2⟩
  rw [Json.read, Draft.ofText?, ← Snapshot.envelope?, henvelope]

theorem glance_of_entryAt? {elements : List Json} {i : Nat} {e : Entry}
    (h : Store.entryAt? elements i = some e) : (elements.map glance)[i]? =
      some (some (e.id.text, decide (e.payload.category = e.category))) := by
  obtain ⟨j, hj, he⟩ := Option.bind_eq_some_iff.mp h
  rw [List.getElem?_map, hj, Option.map_some, glance, he, Option.map_some]

/-- Of those elements the third one alone is good where the last id has been issued. -/
theorem places_mixedText {s s' : Store} {elements : List Json} {places : List Nat}
    (hissued : s.issued = [⟨"b"⟩]) (hglance : elements.map glance =
      [some ("a", false), none, some ("a", true), some ("a", true), some ("b", true)])
    (hloads : s.Loads elements places s') : places = [2] := by
  have hseen : ∀ {i : Nat} {e : Entry}, Store.entryAt? elements i = some e →
      e.payload.category = e.category →
      i = 2 ∧ e.id = ⟨"a"⟩ ∨ i = 3 ∧ e.id = ⟨"a"⟩ ∨ i = 4 ∧ e.id = ⟨"b"⟩ := by
    rintro i ⟨⟨text⟩, _, _, _, _, _⟩ he hfits
    have hi := glance_of_entryAt? he
    rw [hglance, decide_eq_true hfits] at hi
    rcases i with _ | _ | _ | _ | _ | i <;> simp_all
  have hthird : 2 ∈ places := by
    obtain ⟨j, hj, hread⟩ : ∃ j, elements[2]? = some j ∧ glance j = some ("a", true) := by
      have hsecond := congrArg (·[2]?) hglance
      simpa using hsecond
    obtain ⟨e, he, hpair⟩ := Option.map_eq_some_iff.mp hread
    obtain ⟨hid, hfits⟩ := Prod.mk.inj hpair
    refine (hloads.good 2).mpr ⟨e, by rw [Store.entryAt?, hj, Option.bind_some, he],
      of_decide_eq_true hfits, ?_, fun k hk hlt => ?_⟩
    · rw [hissued, List.mem_singleton]
      exact fun heq => absurd (hid.symm.trans (congrArg EntryId.text heq)) (by decide)
    · obtain ⟨g, hg, hgfits, -⟩ := (hloads.good k).mp hk
      have hplace := hseen hg hgfits
      omega
  have honly : ∀ i ∈ places, i = 2 := by
    intro i hi
    obtain ⟨e, he, hfits, hfresh, hnew⟩ := (hloads.good i).mp hi
    obtain ⟨g, hg, hgfits, -⟩ := (hloads.good 2).mp hthird
    rcases hseen he hfits with ⟨rfl, -⟩ | ⟨rfl, hid⟩ | ⟨rfl, hid⟩
    · rfl
    · have hgid : g.id = ⟨"a"⟩ := by simpa using hseen hg hgfits
      exact absurd (hgid.trans hid.symm) (hnew 2 hthird (by decide) g hg)
    · exact absurd (by simp [hissued, hid]) hfresh
  refine List.perm_singleton.mp ((List.perm_ext_iff_of_nodup ?_ (by decide)).mpr fun i => ?_)
  · exact hloads.increasing.imp Nat.ne_of_lt
  · exact ⟨fun hi => List.mem_singleton.mpr (honly i hi), fun hi =>
      List.mem_singleton.mp hi ▸ hthird⟩

/-- The element of the wrong category has not spoilt the id for the one after it. -/
theorem load_takes_good_mixed : ∃ elements s' snapshot w₁ w₂,
    Snapshot.Opens mixedText elements ∧ elements.map glance =
      [some ("a", false), none, some ("a", true), some ("a", true), some ("b", true)] ∧
    (hubWithNumber 7).store.Loads elements [2] s' ∧
    (worldWithNumber 7).reply standingSupply 1 (.parse mixedText) = .done (.ok snapshot) w₁ ∧
    w₁.reply standingSupply 1 (.store 0 (.restore snapshot)) = .done (some (1 : Nat)) w₂ ∧
    w₂.store? 0 = some s' := by
  have hhub : (worldWithNumber 7).hub? 0 = some (hubWithNumber 7) := rfl
  obtain ⟨elements, hopens, hglance⟩ := opens_mixedText
  obtain ⟨places, s', hloads, ⟨snapshot, w₁, w₂, hparse, hrestore, hstore⟩, -⟩ :=
    (load_takes_good hhub mixedText).1 elements hopens
  obtain rfl := places_mixedText rfl hglance hloads
  exact ⟨elements, s', snapshot, w₁, w₂, hopens, hglance, hloads, hparse, hrestore, hstore⟩

end World
end LabExchange
