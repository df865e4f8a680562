import LabExchange.Entry
import LabExchange.Proofs.Json.Sorting
import LabExchange.Proofs.Time.ReadingBack

/-!
# Decoding what an entry was encoded as

An entry is decoded from its sorted document if its payload is finite and none of its further
fields has a name that the hub keeps for itself. Every export leaves such entries behind.
-/
namespace LabExchange

/-! ## Lists and doubles -/

namespace Json

variable {α : Type}

@[simp] theorem normal_ofList (encode : α → Json) (l : List α) :
    normal (ofList encode l) = .array (l.map fun a => normal (encode a)) := by
  rw [ofList, normal, normalItems_eq, List.map_map]
  rfl

theorem asList?_normal_ofList {encode : α → Json} {decode? : Json → Option α} {l : List α}
    (h : ∀ a ∈ l, decode? (normal (encode a)) = some a) :
    (normal (ofList encode l)).asList? decode? = some l := by
  rw [normal_ofList, Tree.asList?]
  induction l with
  | nil => rfl
  | cons a l ih =>
    obtain ⟨ha, hl⟩ := List.forall_mem_cons.mp h
    simp [ha, ih hl]

theorem asDouble?_normal_ofDouble {x : Double} (h : x.isFinite = true) :
    (normal (ofDouble x)).asDouble? = some x := by
  rw [ofDouble, Number.ofDouble?, dif_pos h]
  rfl

theorem asRow?_normal {row : List Double} (h : row.all Double.isFinite = true) :
    (normal (ofList ofDouble row)).asList? Tree.asDouble? = some row :=
  asList?_normal_ofList fun x hx => asDouble?_normal_ofDouble (List.all_eq_true.mp h x hx)

theorem asRows?_normal_ofRows {rows : List (List Double)}
    (h : (rows.all fun row => row.all Double.isFinite) = true) :
    (normal (ofRows rows)).asRows? = some rows :=
  asList?_normal_ofList fun row hrow => asRow?_normal (List.all_eq_true.mp h row hrow)

end Json

open Json (normal)

/-! ## Payloads -/

theorem ComplexValue.ofTree?_normal {z : ComplexValue} (h : z.isFinite = true) :
    ofTree? (normal z.toJson) = some z := by
  obtain ⟨hre, him⟩ := Bool.and_eq_true_iff.mp h
  have hfields : (normal z.toJson).fields? ["re", "im"] 0 = _ :=
    Tree.fields?_normal_record _ 0 (by simp)
  simp [ofTree?, hfields, Json.asDouble?_normal_ofDouble hre, Json.asDouble?_normal_ofDouble him]

theorem Dataset.ofTree?_normal {d : Dataset} (h : d.isFinite = true) :
    ofTree? (normal d.toJson) = some d := by
  rw [isFinite, List.all_append, Bool.and_eq_true_iff] at h
  have hfields : (normal d.toJson).fields? ["inputs", "outputs"] 0 = _ :=
    Tree.fields?_normal_record _ 0 (by simp)
  simp [ofTree?, hfields, Json.asRows?_normal_ofRows h.1, Json.asRows?_normal_ofRows h.2]

namespace Payload

theorem ofKind?_normal {p : Payload} (h : p.isFinite = true) :
    ofKind? p.kind (normal p.dataJson) = some p := by
  cases p with
  | matrix rows => exact congrArg (Option.map matrix) (Json.asRows?_normal_ofRows h)
  | array values => exact congrArg (Option.map array) (Json.asRow?_normal h)
  | scalar value => exact congrArg (Option.map scalar) (Json.asDouble?_normal_ofDouble h)
  | function expression => rfl
  | complex value => exact congrArg (Option.map complex) (ComplexValue.ofTree?_normal h)
  | dataset value => exact congrArg (Option.map dataset) (Dataset.ofTree?_normal h)
  | vector values => exact congrArg (Option.map vector) (Json.asRow?_normal h)

theorem ofTree?_normal {p : Payload} (h : p.isFinite = true) :
    ofTree? (normal p.toJson) = some p := by
  have hfields : (normal p.toJson).fields? ["kind", "data"] 0 = _ :=
    Tree.fields?_normal_record _ 0 (by simp)
  have hvalue : ((normal p.dataJson).value?).isNone = false := by
    rw [Tree.value?_eq]
    rfl
  simp only [ofTree?, hfields, List.map_cons, List.map_nil, hvalue, Bool.and_false,
    Bool.false_eq_true, if_false]
  exact ofKind?_normal h

end Payload

/-! ## Metadata -/

@[simp] theorem Timestamp.ofTree?_normal (t : Timestamp) : ofTree? (normal t.toJson) = some t := by
  simp [toJson, normal, ofTree?, Tree.asString?, Timestamp.read?_text]

theorem Value.ofTree?_eq {j : Json} (h : j.Sorted) : ofTree? j = some ⟨j, h⟩ := by
  have hj : j.value? = some j := by rw [Tree.value?_eq, Json.normal_eq_self h]
  unfold ofTree?
  split
  · next json hjson =>
    obtain rfl := Option.some.inj (hj.symm.trans hjson)
    rfl
  · next hnone => simp [hj] at hnone

namespace Fields

theorem eq_of_members {a b : Fields} (h : a.members = b.members) : a = b := by
  cases a
  cases b
  cases h
  rfl

theorem members_ofMembers (l : List (String × Value)) :
    (ofMembers l).members = Tree.sorted (l.map fun m => (m.1, m.2.json)) := by
  suffices ∀ fields : Fields,
      (l.foldl (fun fields member => fields.insert member.1 member.2) fields).members =
        (l.map fun m => (m.1, m.2.json)).foldl (fun done member => Tree.put member.1 member.2 done)
          fields.members from this empty
  induction l with
  | nil => exact fun fields => rfl
  | cons m l ih => exact fun fields => ih (fields.insert m.1 m.2)

end Fields

namespace Metadata

/-- No further field has a name that the hub keeps for itself. -/
def IsUnreserved (m : Metadata) : Prop := ∀ field ∈ m.extra.members, field.1 ∉ reservedNames

theorem exists_extra? {members : List (String × Json)} (h : ∀ m ∈ members, m.2.Sorted) :
    ∃ l, extra? members = some l ∧
      l.map (fun m => (m.1, m.2.json)) = members.filter fun m => !reservedNames.contains m.1 := by
  induction members with
  | nil => exact ⟨[], rfl, rfl⟩
  | cons member rest ih =>
    obtain ⟨hmember, hrest⟩ := List.forall_mem_cons.mp h
    obtain ⟨l, hl, hmap⟩ := ih hrest
    by_cases hreserved : reservedNames.contains member.1 = true
    · refine ⟨l, ?_, ?_⟩
      · rw [extra?, if_pos hreserved, hl]
      · rw [hmap, List.filter_cons_of_neg (by simpa using hreserved)]
    · refine ⟨(member.1, ⟨member.2, hmember⟩) :: l, ?_, ?_⟩
      · rw [extra?, if_neg hreserved, Value.ofTree?_eq hmember, Option.bind_some, hl]
        rfl
      · rw [List.map_cons, hmap, List.filter_cons_of_pos (by simpa using hreserved)]

/-- The three fixed fields. -/
def fixedMembers (m : Metadata) : List (String × Json) :=
  [("name", .string m.name), ("description", .string m.description),
    ("timestamp", m.timestamp.toJson)]

theorem nodup_members {m : Metadata} (h : m.IsUnreserved) :
    ((m.fixedMembers ++ m.extra.members).map Prod.fst).Nodup := by
  rw [List.map_append, List.nodup_append']
  refine ⟨by simp [fixedMembers], m.extra.sorted.1.nodup, fun name hfixed hextra => ?_⟩
  obtain ⟨field, hfield, rfl⟩ := List.mem_map.mp hextra
  exact h field hfield hfixed

/-- The further fields are what is left of the sorted document without the fixed ones. -/
theorem filter_sorted {m : Metadata} (h : m.IsUnreserved) :
    (Tree.sorted (Json.normalMembers (m.fixedMembers ++ m.extra.members))).filter
      (fun member => !reservedNames.contains member.1) = m.extra.members := by
  have hperm := (Json.normal_object_perm (nodup_members h)).filter
    fun member => !reservedNames.contains member.1
  refine Tree.KeysIncrease.eq_of_perm (List.Pairwise.filter _ (Tree.keysIncrease_sorted _))
    m.extra.sorted.1 (hperm.trans ?_)
  have hextra : (m.extra.members.map fun member => (member.1, normal member.2)) =
      m.extra.members := by
    rw [← Json.normalMembers_eq, Json.normalMembers_eq_self m.extra.sorted.2]
  have hkept : m.extra.members.filter (fun member => !reservedNames.contains member.1) =
      m.extra.members :=
    List.filter_eq_self.mpr fun field hfield => by simpa using h field hfield
  rw [List.map_append, List.filter_append, hextra, hkept]
  exact .refl _

theorem ofTree?_normal {m : Metadata} (h : m.IsUnreserved) :
    ofTree? (normal m.toJson) = some m := by
  have hobject : normal m.toJson =
      .object (Tree.sorted (Json.normalMembers (m.fixedMembers ++ m.extra.members))) := rfl
  have hfields : (normal m.toJson).fields? reservedNames 0 =
      some [some (.string m.name), some (.string m.description), some m.timestamp.toJson] :=
    Tree.fields?_normal m.fixedMembers m.extra.members 0 (nodup_members h)
  have hsorted := (hobject ▸ Json.sorted_normal m.toJson).2
  have hfilter := filter_sorted h
  rw [hobject] at hfields ⊢
  generalize Tree.sorted (Json.normalMembers (m.fixedMembers ++ m.extra.members)) = members
    at hfields hsorted hfilter ⊢
  obtain ⟨l, hl, hmap⟩ := exists_extra? (Tree.membersAreSorted_iff.mp hsorted)
  have hextra : Fields.ofMembers l = m.extra := by
    refine Fields.eq_of_members ?_
    rw [Fields.members_ofMembers, hmap, hfilter, Tree.sorted_eq_self m.extra.sorted.1]
  have htimestamp : Timestamp.ofTree? m.timestamp.toJson = some m.timestamp :=
    m.timestamp.ofTree?_normal
  simp [ofTree?, hfields, Tree.asString?, htimestamp, hl, hextra]

end Metadata

/-! ## Entries -/

@[simp] theorem Category.ofTree?_normal (c : Category) : ofTree? (normal c.toJson) = some c :=
  ofName?_name c

theorem Tree.asNat?_natCast {δ : Type} {n bound : Nat} {h : Number.IntRange n} (hn : n < bound) :
    (number (.integer n h) : Tree δ).asNat? bound = some n := by
  have hbound : (0 : Int) ≤ n ∧ (n : Int) < bound := by omega
  simp only [asNat?, Number.toNat?, if_pos hbound, Int.toNat_natCast]

namespace Json

theorem ofNat_of_lt {n : Nat} (hn : n < UInt64.size) :
    ∃ h, ofNat n = .number (.integer n h) := by
  change n < 18446744073709551616 at hn
  have hrange : Number.IntRange n := ⟨by omega, by omega⟩
  exact ⟨hrange, by rw [ofNat, ofInt, dif_pos hrange]⟩

theorem ofNat_word (n : UInt64) : ∃ h, ofNat n.toNat = .number (.integer n.toNat h) :=
  ofNat_of_lt n.toNat_lt_size

theorem asNat?_normal_ofNat {n : Nat} (hn : n < UInt64.size) :
    (normal (ofNat n)).asNat? UInt64.size = some n := by
  obtain ⟨hrange, heq⟩ := ofNat_of_lt hn
  rw [heq, normal, Tree.asNat?_natCast hn]

theorem asWord?_normal_ofNat (n : UInt64) : (normal (ofNat n.toNat)).asWord? = some n := by
  rw [Tree.asWord?, asNat?_normal_ofNat n.toNat_lt_size, Option.map_some, UInt64.ofNat_toNat]

end Json

namespace Entry

/-- An entry that can be written and read: no number in it is infinite or undefined, and no
further field has a name that the hub keeps for itself. -/
structure IsWritable (e : Entry) : Prop where
  finite : e.payload.isFinite = true
  unreserved : e.metadata.IsUnreserved

theorem ofTree?_normal {e : Entry} (h : e.IsWritable) : ofTree? (normal e.toJson) = some e := by
  have hfields : (normal e.toJson).fields?
      ["id", "category", "source_tab", "payload", "metadata", "sequence"] 1 = _ :=
    Tree.fields?_normal_record _ 1 (by simp)
  simp only [List.map_cons, List.map_nil] at hfields
  simp [ofTree?, hfields, EntryId.ofTree?, EntryId.toJson, normal, Tree.asString?,
    Payload.ofTree?_normal h.finite, Metadata.ofTree?_normal h.unreserved, Json.asWord?_normal_ofNat]

end Entry
end LabExchange
