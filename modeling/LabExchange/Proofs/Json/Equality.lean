import LabExchange.Json.Value

/-!
# Equal values

Two documents are equal as values if they are the same once the zeros among their doubles have lost
their signs. So equality of values is an equivalence, an integer is never equal to a double, and
everything but a zero is equal to itself alone.
-/
namespace LabExchange

namespace Double

/-- The double, without its sign if it is a zero. -/
def unsignedZero : Double → Double
  | finite negative m e fits => finite (negative && m != 0) m e fits
  | d => d

theorem isFinite_unsignedZero (d : Double) : d.unsignedZero.isFinite = d.isFinite := by
  cases d <;> rfl

/-- Finite doubles are numerically equal if only their signs at zero tell them apart. -/
theorem same_iff {a b : Double} (ha : a.isFinite) (hb : b.isFinite) :
    a.same b = true ↔ a.unsignedZero = b.unsignedZero := by
  cases a with
  | nan | infinite => cases ha
  | finite s m e hm =>
    cases b with
    | nan | infinite => cases hb
    | finite t n f hn =>
      simp only [same, unsignedZero, Bool.and_eq_true, Bool.or_eq_true, beq_iff_eq,
        finite.injEq]
      constructor
      · rintro ⟨⟨rfl, rfl⟩, rfl | rfl⟩ <;> simp
      · rintro ⟨hsign, rfl, rfl⟩
        refine ⟨⟨rfl, rfl⟩, Decidable.or_iff_not_imp_right.mpr fun hzero => ?_⟩
        rwa [bne_iff_ne.mpr hzero, Bool.and_true, Bool.and_true] at hsign

end Double

namespace Number

/-- The number, without its sign if it is a zero among the doubles. -/
def unsignedZero : Number → Number
  | integer value inRange => integer value inRange
  | double value finite =>
    double value.unsignedZero (value.isFinite_unsignedZero.trans finite)

theorem same_iff (a b : Number) : a.same b = true ↔ a.unsignedZero = b.unsignedZero := by
  cases a with
  | integer v hv => cases b <;> simp [same, unsignedZero]
  | double v hv =>
    cases b with
    | integer => simp [same, unsignedZero]
    | double w hw => simpa [same, unsignedZero] using Double.same_iff hv hw

end Number

namespace Tree

variable {δ : Type}

mutual

/-- The tree in which no zero among the doubles has a sign. -/
def unsignedZeros : Tree δ → Tree δ
  | number n => number n.unsignedZero
  | array items => array (unsignedItems items)
  | object members => object (unsignedMembers members)
  | null => null
  | bool b => bool b
  | string s => string s
  | defect reason => defect reason

def unsignedItems : List (Tree δ) → List (Tree δ)
  | [] => []
  | item :: rest => unsignedZeros item :: unsignedItems rest

def unsignedMembers : List (String × Tree δ) → List (String × Tree δ)
  | [] => []
  | (key, item) :: rest => (key, unsignedZeros item) :: unsignedMembers rest

end

end Tree

namespace Json

open LabExchange.Tree (same sameItems sameMembers unsignedZeros unsignedItems unsignedMembers)

/-- Two documents are equal as values. -/
def Equals (a b : Json) : Prop := a.unsignedZeros = b.unsignedZeros

mutual

theorem same_iff (a b : Json) : same a b = true ↔ a.Equals b := by
  cases a with
  | array items =>
    cases b with
    | array items' =>
      rw [same, Equals, unsignedZeros, unsignedZeros, Tree.array.injEq]
      exact sameItems_iff items items'
    | _ => simp [same, Equals, unsignedZeros]
  | object members =>
    cases b with
    | object members' =>
      rw [same, Equals, unsignedZeros, unsignedZeros, Tree.object.injEq]
      exact sameMembers_iff members members'
    | _ => simp [same, Equals, unsignedZeros]
  | number n =>
    cases b with
    | number n' =>
      rw [same, Equals, unsignedZeros, unsignedZeros, Tree.number.injEq]
      exact n.same_iff n'
    | _ => simp [same, Equals, unsignedZeros]
  | null | bool | string => cases b <;> simp [same, Equals, unsignedZeros]
  | defect reason => exact reason.elim

theorem sameItems_iff (items items' : List Json) :
    sameItems items items' = true ↔ unsignedItems items = unsignedItems items' := by
  match items, items' with
  | [], [] => exact iff_of_true rfl rfl
  | [], _ :: _ | _ :: _, [] => simp [sameItems, unsignedItems]
  | a :: rest, b :: rest' =>
    rw [sameItems, Bool.and_eq_true, same_iff a b, sameItems_iff rest rest', unsignedItems,
      unsignedItems, List.cons.injEq, Equals]

theorem sameMembers_iff (members members' : List (String × Json)) :
    sameMembers members members' = true ↔ unsignedMembers members = unsignedMembers members' := by
  match members, members' with
  | [], [] => exact iff_of_true rfl rfl
  | [], _ :: _ | _ :: _, [] => simp [sameMembers, unsignedMembers]
  | (key, a) :: rest, (key', b) :: rest' =>
    rw [sameMembers, Bool.and_eq_true, Bool.and_eq_true, beq_iff_eq, same_iff a b,
      sameMembers_iff rest rest', unsignedMembers, unsignedMembers, List.cons.injEq,
      Prod.mk.injEq, Equals]

end

end Json
end LabExchange
