import LabExchange.Text.Lowercase
import Mathlib.Data.List.Infix

/-!
# Lower case of a part

What a character becomes in lower case depends on its neighbours only if it is a capital sigma,
which is final where it ends a word. So a part of a text is lower-cased as it would be by itself
exactly if each sigma in it ends a word in both or in neither, and there are parts for which this is
so in every text. Nothing here looks into the tables of characters but at the letters a and b.
-/
namespace LabExchange.Text

/-! ## Pieces -/

/-- Whether a capital sigma between two pieces of text ends a word. -/
def endsWord (before after : List Char) : Bool :=
  letterFollows before.reverse && !letterFollows after

/-- What a character becomes between two pieces of text. -/
def lowerHere (before : List Char) (c : Char) (after : List Char) : List Char :=
  if c = 'Σ' then [if endsWord before after then 'ς' else 'σ'] else lowerChar c

/-- What a piece of text becomes between two others. -/
def lowerBetween (before after : List Char) : List Char → List Char
  | [] => []
  | c :: rest => lowerHere before c (rest ++ after) ++ lowerBetween (before ++ [c]) after rest

/-- A text is lower-cased piece by piece. -/
theorem lowerAfter_append (before text after : List Char) :
    lowerAfter before.reverse (text ++ after) =
      lowerBetween before after text ++ lowerAfter (before ++ text).reverse after := by
  induction text generalizing before with
  | nil => simp [lowerBetween]
  | cons c rest ih =>
    have hrest := ih (before ++ [c])
    rw [List.reverse_append, List.append_assoc] at hrest
    have hcons : lowerAfter before.reverse (c :: (rest ++ after)) =
        lowerHere before c (rest ++ after) ++ lowerAfter (c :: before.reverse) (rest ++ after) :=
      rfl
    rw [List.cons_append, hcons, lowerBetween, List.append_assoc]
    exact congrArg _ hrest

theorem lower_eq (text : String) : lower text = lowerBetween [] [] text.toList := by
  have h := lowerAfter_append [] text.toList []
  rwa [List.append_nil, lowerAfter, List.append_nil] at h

/-- What a text becomes in three pieces. -/
theorem lower_eq_append {text : String} {before part after : List Char}
    (h : text.toList = before ++ part ++ after) :
    lower text = lowerBetween [] (part ++ after) before ++ lowerBetween before after part ++
      lowerBetween (before ++ part) [] after := by
  have hbefore := lowerAfter_append [] before (part ++ after)
  have hpart := lowerAfter_append before part after
  have hafter := lowerAfter_append (before ++ part) after []
  rw [List.append_nil, lowerAfter, List.append_nil] at hafter
  rw [List.nil_append, hpart, hafter] at hbefore
  rw [lower, h, List.append_assoc, List.append_assoc]
  exact hbefore

/-! ## A part by itself and in its place -/

/-- Each capital sigma of a part ends a word in the whole text exactly if it does by itself. -/
def KeepsSigmas (before part after : List Char) : Prop :=
  ∀ u v, part = u ++ 'Σ' :: v → endsWord (before ++ u) (v ++ after) = endsWord u v

theorem length_lowerHere (before before' after after' : List Char) (c : Char) :
    (lowerHere before c after).length = (lowerHere before' c after').length := by
  unfold lowerHere
  split <;> rfl

theorem lowerHere_eq_iff {before before' after after' : List Char} {c : Char} :
    lowerHere before c after = lowerHere before' c after' ↔
      (c = 'Σ' → endsWord before after = endsWord before' after') := by
  unfold lowerHere
  by_cases hc : c = 'Σ'
  · cases endsWord before after <;> cases endsWord before' after' <;> simp [hc]
  · simp [hc]

theorem length_lowerBetween (before before' after after' text : List Char) :
    (lowerBetween before after text).length = (lowerBetween before' after' text).length := by
  induction text generalizing before before' with
  | nil => rfl
  | cons c rest ih =>
    rw [lowerBetween, lowerBetween, List.length_append, List.length_append,
      length_lowerHere before before' (rest ++ after) (rest ++ after') c,
      ih (before ++ [c]) (before' ++ [c])]

/-- A piece becomes the same between any texts that agree on where its sigmas end a word. -/
theorem lowerBetween_eq_iff {before before' after after' text : List Char} :
    lowerBetween before after text = lowerBetween before' after' text ↔
      ∀ u v, text = u ++ 'Σ' :: v →
        endsWord (before ++ u) (v ++ after) = endsWord (before' ++ u) (v ++ after') := by
  induction text generalizing before before' with
  | nil => simp [lowerBetween]
  | cons c rest ih =>
    have hlength := length_lowerHere before before' (rest ++ after) (rest ++ after') c
    -- What the first character becomes has the same length on both sides.
    have hsplit : lowerBetween before after (c :: rest) = lowerBetween before' after' (c :: rest) ↔
        lowerHere before c (rest ++ after) = lowerHere before' c (rest ++ after') ∧
          lowerBetween (before ++ [c]) after rest = lowerBetween (before' ++ [c]) after' rest :=
      ⟨fun h => List.append_inj h hlength, fun h => congrArg₂ _ h.1 h.2⟩
    rw [hsplit, lowerHere_eq_iff, ih]
    constructor
    · rintro ⟨hhere, hrest⟩ u v heq
      cases u with
      | nil =>
        obtain ⟨rfl, rfl⟩ := List.cons.inj heq
        simpa using hhere rfl
      | cons d u =>
        obtain ⟨rfl, rfl⟩ := List.cons.inj heq
        simpa [List.append_assoc] using hrest u v rfl
    · intro h
      refine ⟨?_, ?_⟩
      · rintro rfl
        simpa using h [] rest rfl
      · rintro u v rfl
        simpa [List.append_assoc] using h (c :: u) v rfl

/-- A part is lower-cased in its place as by itself exactly if its sigmas stay as they are. -/
theorem lowerBetween_eq_lower_iff {before after : List Char} {text : String} :
    lowerBetween before after text.toList = lower text ↔
      KeepsSigmas before text.toList after := by
  rw [lower_eq, lowerBetween_eq_iff]
  simp only [List.nil_append, List.append_nil, KeepsSigmas]

/-! ## Loose sigmas -/

/-- What can be passed over at the front of a text makes no difference to what comes next. -/
theorem letterFollows_append (front rest : List Char) :
    letterFollows (front ++ rest) =
      if front.all isCaseIgnorable then letterFollows rest else letterFollows front := by
  induction front with
  | nil => rfl
  | cons c front ih =>
    by_cases hc : isCaseIgnorable c = true
    · simpa [letterFollows, List.dropWhile_cons, hc] using ih
    · simp [letterFollows, hc]

theorem letterFollows_of_all {text : List Char} (h : text.all isCaseIgnorable = true) :
    letterFollows text = false := by
  have hnone := letterFollows_append text []
  rw [List.append_nil, if_pos h] at hnone
  exact hnone

/-- A capital sigma stands so that it ends a word or not depending on what stands around the text:
with nothing after it but what is passed over, or with nothing before it but that. -/
def HasLooseSigma (text : List Char) : Prop :=
  ∃ u v, text = u ++ 'Σ' :: v ∧
    ((letterFollows u.reverse = true ∧ v.all isCaseIgnorable = true) ∨
      (u.all isCaseIgnorable = true ∧ letterFollows v = false))

/-- A text without a loose sigma keeps its sigmas everywhere. -/
theorem keepsSigmas_of_not_hasLooseSigma {text : List Char} (h : ¬HasLooseSigma text)
    (before after : List Char) : KeepsSigmas before text after := by
  intro u v heq
  have hafter : letterFollows u.reverse = true → ¬v.all isCaseIgnorable = true :=
    fun hu hv => h ⟨u, v, heq, .inl ⟨hu, hv⟩⟩
  have hbefore : u.all isCaseIgnorable = true → letterFollows v = true :=
    fun hu => Bool.of_not_eq_false fun hv => h ⟨u, v, heq, .inr ⟨hu, hv⟩⟩
  rw [endsWord, endsWord, List.reverse_append, letterFollows_append, letterFollows_append,
    List.all_reverse]
  by_cases hu : u.all isCaseIgnorable = true
  · have hv : ¬v.all isCaseIgnorable = true := fun hv =>
      Bool.false_ne_true ((letterFollows_of_all hv).symm.trans (hbefore hu))
    rw [if_pos hu, if_neg hv, hbefore hu, Bool.not_true, Bool.and_false, Bool.and_false]
  · rw [if_neg hu]
    cases hletter : letterFollows u.reverse with
    | false => rfl
    | true => rw [if_neg (hafter hletter)]

/-- A small letter that is not passed over. -/
structure IsPlain (x : Char) : Prop where
  ne_sigma : x ≠ 'Σ'
  lower : lowerChar x = [x]
  cased : isCased x = true
  not_ignorable : ¬isCaseIgnorable x = true

/-- There is a plain letter other than any given one. -/
theorem exists_isPlain (o : Option Char) : ∃ x, IsPlain x ∧ o ≠ some x := by
  have ha : IsPlain 'a' := ⟨by decide, by decide, by decide, by decide +kernel⟩
  have hb : IsPlain 'b' := ⟨by decide, by decide, by decide, by decide +kernel⟩
  by_cases h : o = some 'a'
  · exact ⟨'b', hb, by rw [h]; decide⟩
  · exact ⟨'a', ha, h⟩

namespace IsPlain

variable {x : Char} (hx : IsPlain x)
include hx

theorem letterFollows_cons (rest : List Char) : letterFollows (x :: rest) = true := by
  simp [letterFollows, hx.not_ignorable, hx.cased]

theorem lowerBetween_eq (before after : List Char) : lowerBetween before after [x] = [x] := by
  rw [lowerBetween, lowerHere, if_neg hx.ne_sigma, hx.lower]
  rfl

end IsPlain

/-- A loose sigma changes beside a plain letter, on one side or the other. -/
theorem HasLooseSigma.not_keepsSigmas {text : List Char} (h : HasLooseSigma text) :
    (∀ x, IsPlain x → ¬KeepsSigmas [] text [x]) ∨ ∀ x, IsPlain x → ¬KeepsSigmas [x] text [] := by
  obtain ⟨u, v, heq, ⟨hu, hv⟩ | ⟨hu, hv⟩⟩ := h
  · refine .inl fun x hx hkeeps => ?_
    have hends : endsWord u v = true := by rw [endsWord, hu, letterFollows_of_all hv]; rfl
    have hnot : endsWord ([] ++ u) (v ++ [x]) = false := by
      rw [endsWord, letterFollows_append, if_pos hv, hx.letterFollows_cons, Bool.not_true,
        Bool.and_false]
    exact Bool.false_ne_true (hnot.symm.trans ((hkeeps u v heq).trans hends))
  · refine .inr fun x hx hkeeps => ?_
    have hnot : endsWord u v = false := by
      rw [endsWord, letterFollows_of_all (List.all_reverse.trans hu), Bool.false_and]
    have hends : endsWord ([x] ++ u) (v ++ []) = true := by
      rw [endsWord, List.append_nil, List.reverse_append, letterFollows_append, List.all_reverse,
        if_pos hu, hv, List.reverse_singleton, hx.letterFollows_cons]
      rfl
    exact Bool.false_ne_true (hnot.symm.trans ((hkeeps u v heq).symm.trans hends))

/-! ## Texts in texts -/

theorem occursIn_iff {pattern text : List Char} :
    occursIn pattern text = true ↔ pattern <:+: text := by
  induction text with
  | nil => simp [occursIn]
  | cons c rest ih =>
    rw [occursIn, Bool.or_eq_true, List.isPrefixOf_iff_prefix, ih, List.infix_cons_iff]

theorem eq_of_infix_cons {x : Char} {part rest : List Char} (h : part <:+: x :: rest)
    (hlength : part.length = rest.length) (hhead : part.head? ≠ some x) : part = rest := by
  rcases List.infix_cons_iff.mp h with hprefix | hinfix
  · rcases List.prefix_cons_iff.mp hprefix with rfl | ⟨tail, rfl, -⟩
    · exact (List.eq_nil_of_length_eq_zero hlength.symm).symm
    · exact absurd rfl hhead
  · exact hinfix.eq_of_length hlength

theorem eq_of_infix_concat {x : Char} {part rest : List Char} (h : part <:+: rest ++ [x])
    (hlength : part.length = rest.length) (hlast : part.getLast? ≠ some x) : part = rest := by
  rcases List.infix_concat_iff.mp h with hsuffix | hinfix
  · rcases List.suffix_concat_iff.mp hsuffix with rfl | ⟨front, rfl, -⟩
    · exact (List.eq_nil_of_length_eq_zero hlength.symm).symm
    · exact absurd List.getLast?_concat hlast
  · exact hinfix.eq_of_length hlength

variable {text name : String}

/-- A text that stands in another with its sigmas kept stands in it also with case left aside. -/
theorem occursIgnoringCase_of_keepsSigmas {before after : List Char}
    (hname : name.toList = before ++ text.toList ++ after)
    (hkeeps : KeepsSigmas before text.toList after) : occursIgnoringCase text name = true := by
  rw [occursIgnoringCase, occursIn_iff, lower_eq_append hname, lowerBetween_eq_lower_iff.mpr hkeeps]
  exact ⟨_, _, rfl⟩

/-- For a text with a loose sigma there is another in which it stands, but not with case left
aside. -/
theorem HasLooseSigma.exists_missed (h : HasLooseSigma text.toList) :
    ∃ name : String, text.toList <:+: name.toList ∧ ¬occursIgnoringCase text name = true := by
  simp only [occursIgnoringCase, occursIn_iff]
  -- The added letter is not the one at that end of the text, or the text could stand beside itself.
  rcases h.not_keepsSigmas with hafter | hbefore
  · obtain ⟨x, hx, hlast⟩ := exists_isPlain (lower text).getLast?
    refine ⟨.ofList (text.toList ++ [x]), ⟨[], [x], by simp⟩, fun hinfix => hafter x hx ?_⟩
    have hname : (String.ofList (text.toList ++ [x])).toList = [] ++ text.toList ++ [x] := by simp
    have hlower : lower (.ofList (text.toList ++ [x])) =
        lowerBetween [] [x] text.toList ++ [x] := by
      rw [lower_eq_append hname, hx.lowerBetween_eq]
      rfl
    have hlength : (lower text).length = (lowerBetween [] [x] text.toList).length := by
      rw [lower_eq]
      exact length_lowerBetween ..
    rw [hlower] at hinfix
    exact lowerBetween_eq_lower_iff.mp (eq_of_infix_concat hinfix hlength hlast).symm
  · obtain ⟨x, hx, hhead⟩ := exists_isPlain (lower text).head?
    refine ⟨.ofList (x :: text.toList), ⟨[x], [], by simp⟩, fun hinfix => hbefore x hx ?_⟩
    have hname : (String.ofList (x :: text.toList)).toList = [x] ++ text.toList ++ [] := by simp
    have hlower : lower (.ofList (x :: text.toList)) = x :: lowerBetween [x] [] text.toList := by
      rw [lower_eq_append hname, hx.lowerBetween_eq]
      simp [lowerBetween]
    have hlength : (lower text).length = (lowerBetween [x] [] text.toList).length := by
      rw [lower_eq]
      exact length_lowerBetween ..
    rw [hlower] at hinfix
    exact lowerBetween_eq_lower_iff.mp (eq_of_infix_cons hinfix hlength hhead).symm

end LabExchange.Text
