import LabExchange.Proofs.Hub.Loading

/-!
# Rising numbers

A store gives every new entry a number above those of all entries that it has ever taken in, also of
those that are gone. It remembers none of them. All it has is its counter, which stands at the least
number above theirs, or at the last number there is; and from there on nothing is inserted any more.
-/
namespace LabExchange

namespace Store

variable {s : Store} {operations : List Operation}

/-! ## What a run takes in -/

/-- The entry that an operation takes in: a new one that is stored, or one from elsewhere that is
restored. -/
def intake? (s : Store) : Operation → Option Entry
  | .insert id now tab c payload metadata =>
    match s.insert id now tab c payload metadata with
    | .stored e _ => some e
    | .refused _ | .taken | .exhausted _ => none
  | .restore e => (s.restore? e).map fun _ => e
  | .remove .. | .clear _ | .clearAll => none

/-- The entries that a run of operations takes in, whether or not they are still there at its
end. -/
def intakes (s : Store) : List Operation → List Entry
  | [] => []
  | o :: rest => (s.intake? o).toList ++ (s.carryOut o).intakes rest

theorem intakes_concat (s : Store) (operations : List Operation) (o : Operation) :
    s.intakes (operations ++ [o]) =
      s.intakes operations ++ ((operations.foldl carryOut s).intake? o).toList := by
  induction operations generalizing s with
  | nil => simp [intakes]
  | cons p rest ih => simp [intakes, ih]

/-- An operation takes an entry in, or it brings none and leaves the counter. -/
theorem carryOut_cases (s : Store) (o : Operation) :
    (∃ e, s.intake? o = some e ∧ s.carryOut o = s.takeIn e) ∨
      s.intake? o = none ∧ (s.carryOut o).toList ⊆ s.toList ∧
        (s.carryOut o).nextSequence = s.nextSequence := by
  cases o with
  | insert id now tab c payload metadata =>
    cases h : s.insert id now tab c payload metadata with
    | stored e s' =>
      obtain ⟨-, rfl, -⟩ := insert_eq_stored h
      exact .inl ⟨e, by simp [intake?, h], by simp [carryOut, h]⟩
    | exhausted s' =>
      obtain ⟨rfl, -⟩ := insert_eq_exhausted h
      refine .inr ⟨by simp [intake?, h], ?_⟩
      simp only [carryOut, h]
      exact ⟨List.Subset.refl s.toList, rfl⟩
    | refused | taken =>
      exact .inr ⟨by simp [intake?, h], by simp [carryOut, h], by simp [carryOut, h]⟩
  | restore e =>
    cases h : s.restore? e with
    | some s' =>
      obtain ⟨-, -, rfl⟩ := restore?_eq_some.mp h
      exact .inl ⟨e, by simp [intake?, h], by simp [carryOut, h]⟩
    | none => exact .inr ⟨by simp [intake?, h], by simp [carryOut, h], by simp [carryOut, h]⟩
  | remove c id =>
    refine .inr ⟨rfl, ?_⟩
    cases h : s.remove? c id with
    | some r =>
      obtain ⟨-, hstore⟩ := remove?_eq_some.mp h
      simp only [carryOut, h, Option.map_some, Option.getD_some, ← hstore]
      exact ⟨(toList_withLists_sublist (sublist_set List.eraseP_sublist)).subset, rfl⟩
    | none => simp [carryOut, h]
  | clear c =>
    exact .inr ⟨rfl, (toList_withLists_sublist (sublist_set (List.nil_sublist _))).subset, rfl⟩
  | clearAll =>
    refine .inr ⟨rfl, (toList_withLists_sublist fun c => ?_).subset, rfl⟩
    rw [PerCategory.get_ofFn]
    exact List.nil_sublist _

/-- The counter comes to where it had come if everything had been taken in at once. -/
theorem nextSequence_foldl_carryOut (s : Store) (operations : List Operation) :
    (operations.foldl carryOut s).nextSequence =
      (s.takeAll (s.intakes operations)).nextSequence := by
  induction operations using List.reverseRecOn with
  | nil => rfl
  | append_singleton operations o ih =>
    rw [List.foldl_concat, intakes_concat, takeAll_append]
    rcases carryOut_cases (operations.foldl carryOut s) o with ⟨e, he, hstore⟩ | ⟨he, -, hnext⟩
    · rw [he, hstore]
      exact congrArg (max · (after e.sequence)) ih
    · rw [he, hnext]
      exact ih

theorem toList_foldl_carryOut_subset (operations : List Operation) :
    (operations.foldl carryOut empty).toList ⊆ empty.intakes operations := by
  induction operations using List.reverseRecOn with
  | nil => simp
  | append_singleton operations o ih =>
    rw [List.foldl_concat, intakes_concat]
    intro e he
    rcases carryOut_cases (operations.foldl carryOut empty) o with
      ⟨f, hf, hstore⟩ | ⟨-, hsubset, -⟩
    · rw [hstore, mem_toList_takeIn] at he
      rw [hf, Option.toList_some, List.mem_append, List.mem_singleton]
      exact he.symm.imp_left (ih ·)
    · exact List.mem_append_left _ (ih (hsubset he))

theorem nextSequence_le_foldl_carryOut (s : Store) (operations : List Operation) :
    s.nextSequence ≤ (operations.foldl carryOut s).nextSequence := by
  rw [nextSequence_foldl_carryOut, UInt64.le_iff_toNat_le]
  exact (le_nextSequence_takeAll s _).1

/-! ## What comes of an accepted export -/

/-- An export has some result, whatever ids are drawn for it, as soon as one of them is new. -/
def Export.Yields (x : Export) (s : Store) (result : ExportResult → Prop) : Prop :=
  ∀ (ids : Nat → EntryId) (now : Timestamp) (drawn : Nat), (∃ n, drawn ≤ n ∧ ids n ∉ s.issued) →
    ∃ patience r total, s.exportDrawing x ids now patience drawn = some (r, total) ∧ result r

/-- An accepted export is stored if there is a number for it, and otherwise panics. -/
theorem Export.yields {x : Export} (h : x.draws = true) (s : Store) :
    x.Yields s fun r => s.nextSequence.toNat + 1 ≠ UInt64.size ∧ (∃ effect, r = .stored effect) ∨
      s.nextSequence.toNat + 1 = UInt64.size ∧ ∃ id, r = .exhausted (s.issue id) := by
  intro ids now drawn hfresh
  obtain ⟨patience, n, hn, hdrawing⟩ := exists_exportDrawing_eq h now hfresh
  have hvalid := ofValid_exportData (s := s) h (ids n) now
  refine ⟨patience, _, _, hdrawing, ?_⟩
  generalize s.exportData x (ids n) now = r at hvalid
  cases hvalid with
  | redraw issued => exact absurd issued hn
  | exhausted fresh full => exact .inr ⟨full, _, rfl⟩
  | stored fresh room => exact .inl ⟨room, _, rfl⟩

theorem Export.Yields.mono {x : Export} {p q : ExportResult → Prop} (h : x.Yields s p)
    (hpq : ∀ r, p r → q r) : x.Yields s q := by
  intro ids now drawn hfresh
  obtain ⟨patience, r, total, hdrawing, hr⟩ := h ids now drawn hfresh
  exact ⟨patience, r, total, hdrawing, hpq r hr⟩

/-! ## The numbers -/

/-- How a store goes on to number what comes, after it has taken in some entries. -/
structure NumbersRise (s : Store) (seen : List Entry) : Prop where
  /-- Whatever is still there has been taken in. -/
  stored : s.toList ⊆ seen
  /-- The counter stands at the least number above all that have been taken in, as far as there is
  such a number. -/
  counter : ∃ least, IsLeast {n | ∀ e ∈ seen, e.sequence.toNat < n} least ∧
    s.nextSequence.toNat = min least (UInt64.size - 1)
  above_or_last : (∀ e ∈ seen, e.sequence < s.nextSequence) ∨
    s.nextSequence.toNat + 1 = UInt64.size
  /-- What is inserted has a greater number than all that have been taken in, and the counter goes
  on to the number after it. -/
  inserted : ∀ {id now tab c payload metadata e s'},
    s.insert id now tab c payload metadata = .stored e s' →
      (∀ f ∈ seen, f.sequence < e.sequence) ∧ s'.nextSequence.toNat = e.sequence.toNat + 1
  /-- No operation makes the counter fall. -/
  rises : ∀ later : List Operation, s.nextSequence ≤ (later.foldl carryOut s).nextSequence
  /-- Up to the last number what is accepted is stored. -/
  stores : s.nextSequence.toNat + 1 ≠ UInt64.size → ∀ x : Export, x.draws = true →
    x.Yields s fun r => ∃ effect, r = .stored effect
  /-- From the last number on what is accepted panics, whatever has happened in between. -/
  panics : s.nextSequence.toNat + 1 = UInt64.size →
    ∀ (later : List Operation) (x : Export), x.draws = true →
      x.Yields (later.foldl carryOut s) fun r =>
        ∃ id, r = .exhausted ((later.foldl carryOut s).issue id)

/-- Where there is a number left, the counter is above all that it has passed. -/
theorem above_or_last_of_isLeast {seen : List Entry} {least : Nat}
    (hleast : IsLeast {n | ∀ e ∈ seen, e.sequence.toNat < n} least)
    (hnext : s.nextSequence.toNat = min least (UInt64.size - 1)) :
    (∀ e ∈ seen, e.sequence < s.nextSequence) ∨ s.nextSequence.toNat + 1 = UInt64.size := by
  have hlt := s.nextSequence.toNat_lt_size
  by_cases hfull : s.nextSequence.toNat + 1 = UInt64.size
  · exact .inr hfull
  · refine .inl fun e he => ?_
    have habove := hleast.1 e he
    rw [UInt64.lt_iff_toNat_lt]
    omega

theorem nextSequence_takeIn_newEntry (hroom : s.nextSequence.toNat + 1 ≠ UInt64.size) (id : EntryId)
    (now : Timestamp) (tab : String) (c : Category) (p : Payload) (m : Option ExportMetadata) :
    (s.takeIn (s.newEntry id now tab c p m)).nextSequence.toNat = s.nextSequence.toNat + 1 := by
  have hlt := s.nextSequence.toNat_lt_size
  rw [nextSequence_takeIn]
  change max s.nextSequence.toNat (after s.nextSequence).toNat = _
  rw [toNat_after_eq]
  omega

/-- Whatever is done to a store that began empty, the numbers rise past all that it has taken in. -/
theorem numbersRise_of_operations (operations : List Operation) :
    (operations.foldl carryOut empty).NumbersRise (empty.intakes operations) := by
  have hsubset := toList_foldl_carryOut_subset operations
  obtain ⟨least, hleast, hnext⟩ := nextSequence_takeAll_isLeast empty (empty.intakes operations)
  rw [← nextSequence_foldl_carryOut] at hnext
  generalize operations.foldl carryOut empty = s at hsubset hnext
  generalize empty.intakes operations = seen at hsubset hleast
  have hzero : empty.nextSequence.toNat = 0 := rfl
  have hcounter : IsLeast {n | ∀ e ∈ seen, e.sequence.toNat < n} least := by
    simpa [hzero] using hleast
  have habove := above_or_last_of_isLeast hcounter hnext
  refine ⟨hsubset, ⟨least, hcounter, hnext⟩, habove, fun hinsert => ?_,
    s.nextSequence_le_foldl_carryOut, fun hroom x hx => ?_, fun hfull later x hx => ?_⟩
  · obtain ⟨rfl, rfl, -, -, -, hroom⟩ := insert_eq_stored hinsert
    exact ⟨habove.resolve_right hroom, nextSequence_takeIn_newEntry hroom _ _ _ _ _ _⟩
  · exact (Export.yields hx s).mono fun r hr => (hr.resolve_right fun h => hroom h.1).2
  · -- The counter cannot fall, and there is no number that it could go on to.
    have hrises := UInt64.le_iff_toNat_le.mp (s.nextSequence_le_foldl_carryOut later)
    have hlt := (later.foldl carryOut s).nextSequence.toNat_lt_size
    refine (Export.yields hx _).mono fun r hr => (hr.resolve_left fun h => ?_).2
    exact h.1 (by omega)

/-- A run that comes to the last number: an entry is restored whose number leaves one other, this
goes to a new entry, and both are cleared. -/
def lastNumbersRun : List Operation :=
  [.restore (World.numberedEntry 18446744073709551613),
    .insert ⟨"a"⟩ .noon "plot" .functions (.function "x^2") none, .clearAll]

/-- Of the two entries nothing is left but their numbers in the counter, and no other is given. -/
theorem numbersRise_of_operations_lastNumbers :
    (empty.intakes lastNumbersRun).map (·.sequence) =
        [18446744073709551613, 18446744073709551614] ∧
      (lastNumbersRun.foldl carryOut empty).toList = [] ∧
      (lastNumbersRun.foldl carryOut empty).nextSequence.toNat + 1 = UInt64.size ∧
      World.squareExport.draws = true ∧
      World.squareExport.Yields (lastNumbersRun.foldl carryOut empty) fun r =>
        ∃ id, r = .exhausted ((lastNumbersRun.foldl carryOut empty).issue id) :=
  ⟨rfl, rfl, rfl, rfl,
    (numbersRise_of_operations lastNumbersRun).panics rfl [] World.squareExport rfl⟩

end Store
end LabExchange
