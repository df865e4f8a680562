import LabExchange.Proofs.Hub.Numbering
import LabExchange.Proofs.Hub.ReadEntries

/-!
# What JSON can carry

A number that JSON cannot hold is written as null, and a further field under a name that the hub
keeps for itself repeats a key. An export brings no entry of which either is true, and neither does
a snapshot that has been read from a text. A restoration itself looks at neither, so a snapshot made
in any other way can bring them.
-/
namespace LabExchange

/-! ## Nulls and keys -/

namespace Tree

variable {δ : Type}

mutual

/-- Whether a null stands anywhere in a tree. -/
def hasNull : Tree δ → Bool
  | null => true
  | array items => itemsHaveNull items
  | object members => membersHaveNull members
  | _ => false

def itemsHaveNull : List (Tree δ) → Bool
  | [] => false
  | item :: rest => hasNull item || itemsHaveNull rest

def membersHaveNull : List (String × Tree δ) → Bool
  | [] => false
  | (_, item) :: rest => hasNull item || membersHaveNull rest

end

/-- The keys of an object, as often as they are written. -/
def keys : Tree δ → List String
  | object members => members.map Prod.fst
  | _ => []

theorem itemsHaveNull_eq (items : List (Tree δ)) : itemsHaveNull items = items.any hasNull := by
  induction items with
  | nil => rfl
  | cons item rest ih => rw [itemsHaveNull, ih, List.any_cons]

end Tree

namespace Json

@[simp] theorem hasNull_ofDouble (x : Double) : (ofDouble x).hasNull = !x.isFinite := by
  rw [ofDouble, Number.ofDouble?]
  by_cases h : x.isFinite = true
  · rw [dif_pos h, h]
    rfl
  · rw [dif_neg h, Bool.eq_false_iff.mpr h]
    rfl

/-- A list is free of null if each of its items is. -/
theorem hasNull_ofList {α : Type} {encode : α → Json} {isFine : α → Bool}
    (h : ∀ a, (encode a).hasNull = !isFine a) (l : List α) :
    (ofList encode l).hasNull = !l.all isFine := by
  rw [ofList, Tree.hasNull, Tree.itemsHaveNull_eq, List.any_map, List.not_all_eq_any_not]
  exact congrArg l.any (funext h)

@[simp] theorem hasNull_ofRow (row : List Double) :
    (ofList ofDouble row).hasNull = !row.all Double.isFinite :=
  hasNull_ofList hasNull_ofDouble row

@[simp] theorem hasNull_ofRows (rows : List (List Double)) :
    (ofRows rows).hasNull = !rows.all fun row => row.all Double.isFinite :=
  hasNull_ofList hasNull_ofRow rows

end Json

@[simp] theorem ComplexValue.hasNull_toJson (z : ComplexValue) :
    z.toJson.hasNull = !z.isFinite := by
  simp [toJson, isFinite, Tree.hasNull, Tree.membersHaveNull]

@[simp] theorem Dataset.hasNull_toJson (d : Dataset) : d.toJson.hasNull = !d.isFinite := by
  simp only [toJson, isFinite, Tree.hasNull, Tree.membersHaveNull, Json.hasNull_ofRows,
    List.all_append, Bool.or_false, Bool.not_and]

@[simp] theorem Payload.hasNull_dataJson (p : Payload) : p.dataJson.hasNull = !p.isFinite := by
  cases p with
  | matrix rows => exact Json.hasNull_ofRows rows
  | array values => exact Json.hasNull_ofRow values
  | scalar value => exact Json.hasNull_ofDouble value
  | function expression => rfl
  | complex value => exact value.hasNull_toJson
  | dataset value => exact value.hasNull_toJson
  | vector values => exact Json.hasNull_ofRow values

/-- Null is written in place of a number exactly if JSON cannot hold one of the payload. -/
@[simp] theorem Payload.hasNull_toJson (p : Payload) : p.toJson.hasNull = !p.isFinite := by
  rw [← p.hasNull_dataJson]
  simp [toJson, Tree.hasNull, Tree.membersHaveNull]

/-- A key is written twice exactly if a further field has a name that the hub keeps. -/
theorem Metadata.nodup_keys_toJson {m : Metadata} : m.toJson.keys.Nodup ↔ m.IsUnreserved := by
  constructor
  · intro h field hfield hreserved
    have happend : (reservedNames ++ m.extra.members.map Prod.fst).Nodup := by
      simpa [toJson, Tree.keys, reservedNames] using h
    exact List.disjoint_of_nodup_append happend hreserved (List.mem_map_of_mem hfield)
  · exact nodup_members

/-- An entry can be written and read exactly if its document has no null in place of a number and
no key of its metadata twice. -/
theorem Entry.isWritable_iff {e : Entry} :
    e.IsWritable ↔ e.payload.toJson.hasNull = false ∧ e.metadata.toJson.keys.Nodup := by
  rw [Payload.hasNull_toJson, Metadata.nodup_keys_toJson, Bool.not_eq_false']
  exact ⟨fun h => ⟨h.finite, h.unreserved⟩, fun h => ⟨h.1, h.2⟩⟩

/-! ## Where an entry comes from -/

/-- The snapshot has been read from a text, with or without entries that were skipped. -/
def Snapshot.IsRead (s : Snapshot) : Prop := ∃ text skipped, ofText text = .ok (s, skipped)

theorem Snapshot.IsRead.isWritable {s : Snapshot} (h : s.IsRead) {e : Entry} (he : e ∈ s.entries) :
    e.IsWritable := by
  obtain ⟨text, skipped, htext⟩ := h
  exact (of_ofText htext e he).1

namespace Store

variable {s : Store} {calls : List Call} {e : Entry}

/-- Within a run of calls a snapshot has been restored, and the entry was taken in from it. -/
def Brought (s : Store) (calls : List Call) (e : Entry) : Prop :=
  ∃ earlier snapshot, earlier ++ [.request (.restore snapshot)] <+: calls ∧
    e ∈ (s.afterCalls earlier).welcome snapshot.entries

theorem Brought.concat (h : s.Brought calls e) (k : Call) : s.Brought (calls ++ [k]) e := by
  obtain ⟨earlier, snapshot, hprefix, he⟩ := h
  exact ⟨earlier, snapshot, hprefix.trans (List.prefix_append calls [k]), he⟩

theorem Brought.held (h : s.Brought calls e) : s.Held calls e := by
  obtain ⟨earlier, snapshot, hprefix, he⟩ := h
  have hstore : (s.afterCalls (earlier ++ [.request (.restore snapshot)])) =
      (s.afterCalls earlier).takeAll ((s.afterCalls earlier).welcome snapshot.entries) := by
    rw [afterCalls_concat]
    exact (restoreEntries_eq_welcome _ snapshot.entries).1
  exact ⟨_, hprefix, by rw [hstore, mem_toList_takeAll]; exact .inr he⟩

/-- An entry that cannot be written and read has been there exactly if a restoration brought it. -/
theorem held_iff_brought (h : ¬e.IsWritable) : empty.Held calls e ↔ empty.Brought calls e := by
  refine ⟨fun hheld => ?_, Brought.held⟩
  induction calls using List.reverseRecOn with
  | nil => exact absurd hheld not_held_nil
  | append_singleton calls k ih =>
    rcases held_concat_iff.mp hheld with hearlier | hnow
    · exact (ih hearlier).concat k
    · rcases mem_toList_call hnow with hold | hwritable | ⟨snapshot, rfl, hwelcome⟩
      · exact (ih (held_of_mem hold)).concat k
      · exact absurd hwritable h
      · exact ⟨calls, snapshot, List.prefix_refl _, hwelcome⟩

/-- Whether all entries that have been in a hub can be carried by JSON is decided by its
restorations alone: what it holds otherwise is finite and repeats no key, and so is all that is
restored from snapshots that have been read. -/
theorem held_isWritable_iff (calls : List Call) :
    ((∀ e, empty.Held calls e → e.IsWritable) ↔ ∀ e, empty.Brought calls e → e.IsWritable) ∧
    ((∀ snapshot, .request (.restore snapshot) ∈ calls → snapshot.IsRead) →
      ∀ e, empty.Held calls e → e.IsWritable) ∧
    ∀ e : Entry, e.IsWritable ↔
      e.payload.toJson.hasNull = false ∧ e.metadata.toJson.keys.Nodup := by
  have hbrought : (∀ e, empty.Brought calls e → e.IsWritable) →
      ∀ e, empty.Held calls e → e.IsWritable := by
    intro h e hheld
    by_contra hbad
    exact hbad (h e ((held_iff_brought hbad).mp hheld))
  refine ⟨⟨fun h e he => h e he.held, hbrought⟩, fun hread => hbrought ?_, fun e =>
    Entry.isWritable_iff⟩
  rintro e ⟨earlier, snapshot, hprefix, he⟩
  have hmem : Call.request (.restore snapshot) ∈ calls :=
    hprefix.subset (List.mem_append_right earlier (List.mem_singleton_self _))
  exact (hread snapshot hmem).isWritable (of_mem_welcome he).1

/-- The text of a snapshot of one square function. -/
def squareText : String :=
  "\x7b\"version\":1,\"saved_at\":\"2024-02-29T12:00:00Z\",\"entries\":[\x7b\"id\":\"b\"," ++
    "\"category\":\"functions\",\"source_tab\":\"plot\",\"sequence\":7," ++
    "\"payload\":\x7b\"kind\":\"function\",\"data\":\"x^2\"\x7d," ++
    "\"metadata\":\x7b\"name\":\"Square\",\"description\":\"\"," ++
    "\"timestamp\":\"2024-02-29T12:00:00Z\"\x7d\x7d]\x7d"

theorem isRead_squareText : (Snapshot.ofEntries [World.numberedEntry 7] .noon).IsRead := by
  refine ⟨squareText, [], Snapshot.ofText_of_outline rfl ?_⟩
  unfold squareText
  simp only [String.toList_append]
  decide +kernel

/-- A restoration of that text, and an export. -/
def readCalls : List Call :=
  [.request (.restore (.ofEntries [World.numberedEntry 7] .noon)),
    .exportData World.squareExport ⟨"c"⟩ .noon]

/-- Both entries that the run leaves behind can be written and read. -/
theorem held_isWritable_readCalls :
    (∀ snapshot, .request (.restore snapshot) ∈ readCalls → snapshot.IsRead) ∧
      (empty.afterCalls readCalls).toList.length = 2 ∧
      ∀ e ∈ (empty.afterCalls readCalls).toList, e.IsWritable := by
  have hread : ∀ snapshot, .request (.restore snapshot) ∈ readCalls → snapshot.IsRead := by
    intro snapshot hmem
    obtain rfl : snapshot = .ofEntries [World.numberedEntry 7] .noon := by
      simpa [readCalls] using hmem
    exact isRead_squareText
  exact ⟨hread, rfl, fun e he => (held_isWritable_iff readCalls).2.1 hread e (held_of_mem he)⟩

/-- An entry whose number is none. -/
def undefinedEntry : Entry :=
  ⟨⟨"n"⟩, .scalars, "plot", .scalar .nan, ⟨"Undefined", "", .noon, .empty⟩, 0⟩

/-- An entry that has its name once more among the further fields. -/
def twiceNamedEntry : Entry :=
  ⟨⟨"m"⟩, .functions, "plot", .function "x^2",
    ⟨"Square", "", .noon, Fields.empty.insert "name" ⟨.string "Root", trivial⟩⟩, 0⟩

/-- A restoration of both. -/
def uncheckedCalls : List Call :=
  [.request (.restore ⟨1, .noon, [undefinedEntry, twiceNamedEntry]⟩)]

/-- A new hub takes both in, and so the document of the one has a null in place of its number, and
that of the other has a key twice. -/
theorem restored_unchecked :
    (empty.afterCalls uncheckedCalls).toList = [undefinedEntry, twiceNamedEntry] ∧
      undefinedEntry.payload.isFinite = false ∧
      undefinedEntry.payload.toJson =
        .object [("kind", .string "scalar"), ("data", .null)] ∧
      "name" ∈ twiceNamedEntry.metadata.extra.members.map Prod.fst ∧
      twiceNamedEntry.metadata.toJson.keys = ["name", "description", "timestamp", "name"] ∧
      ∀ e ∈ (empty.afterCalls uncheckedCalls).toList, ¬e.IsWritable := by
  have hlist : (empty.afterCalls uncheckedCalls).toList = [undefinedEntry, twiceNamedEntry] := rfl
  have hkeys : twiceNamedEntry.metadata.toJson.keys =
      ["name", "description", "timestamp", "name"] := rfl
  refine ⟨hlist, rfl, rfl, by decide, hkeys, fun e he hwritable => ?_⟩
  rw [hlist, List.mem_pair] at he
  rw [Entry.isWritable_iff] at hwritable
  rcases he with rfl | rfl
  · exact absurd hwritable.1 (by decide)
  · rw [hkeys] at hwritable
    exact absurd hwritable.2 (by decide)

end Store
end LabExchange
