import LabExchange.Log.Filter
import LabExchange.Path
import Mathlib.Data.String.Basic

/-!
# Splitting texts

A text that is split at a character is its list of characters split there. So the names of a path
and the directives of a filter can be computed.
-/
namespace LabExchange

namespace Text

open String

/-- What has been read of the part that is being read stands in the middle. -/
theorem splitOnAux_singleton (c : Char) (before part rest : List Char) (parts : List String) :
    splitOnAux (ofList (before ++ part ++ rest)) (singleton c) ⟨utf8Len before⟩
        ⟨utf8Len before + utf8Len part⟩ 0 parts =
      parts.reverse ++ (List.splitOnPPrepend (· == c) rest part.reverse).map ofList := by
  have hseparator : Pos.Raw.get (singleton c) 0 = c := get_of_valid [] [c]
  have hnext : Pos.Raw.next (singleton c) 0 = ⟨c.utf8Size⟩ := by simpa using next_of_valid [] c []
  have hend : Pos.Raw.atEnd (singleton c) ⟨c.utf8Size⟩ = true := by
    simpa using (atEnd_of_valid [c] []).mpr rfl
  induction rest generalizing before part parts with
  | nil =>
    have hstop : Pos.Raw.atEnd (ofList (before ++ part ++ []))
        ⟨utf8Len before + utf8Len part⟩ = true := by
      simpa using (atEnd_of_valid (before ++ part) []).mpr rfl
    have hpart := extract_of_valid before part []
    rw [splitOnAux, if_pos hstop, hpart]
    simp [List.splitOnPPrepend]
  | cons d rest ih =>
    have hgo : ¬Pos.Raw.atEnd (ofList (before ++ part ++ d :: rest))
        ⟨utf8Len before + utf8Len part⟩ = true := by
      rw [← utf8Len_append]
      exact mt (atEnd_of_valid (before ++ part) (d :: rest)).mp (by nofun)
    have hget : Pos.Raw.get (ofList (before ++ part ++ d :: rest))
        ⟨utf8Len before + utf8Len part⟩ = d := by
      rw [← utf8Len_append]
      exact get_of_valid (before ++ part) (d :: rest)
    have hmove : Pos.Raw.next (ofList (before ++ part ++ d :: rest))
        ⟨utf8Len before + utf8Len part⟩ = ⟨utf8Len before + utf8Len part + d.utf8Size⟩ := by
      rw [← utf8Len_append]
      exact next_of_valid (before ++ part) d rest
    rw [splitOnAux, if_neg hgo, hget, hseparator, List.splitOnPPrepend_cons_eq_if]
    by_cases hd : d = c
    · subst hd
      have hback : Pos.Raw.unoffsetBy ⟨utf8Len before + utf8Len part + d.utf8Size⟩ ⟨d.utf8Size⟩ =
          (⟨utf8Len before + utf8Len part⟩ : Pos.Raw) := by
        ext
        simp
      have hpart := extract_of_valid before part (d :: rest)
      have h := ih (before ++ part ++ [d]) [] (ofList part :: parts)
      rw [if_pos (beq_self_eq_true d), if_pos (beq_self_eq_true d)]
      simp only [hmove, hnext, hend, if_true, hback, hpart]
      simpa [Nat.add_assoc, -ofList_append] using h
    · have hback : Pos.Raw.unoffsetBy ⟨utf8Len before + utf8Len part⟩ 0 =
          (⟨utf8Len before + utf8Len part⟩ : Pos.Raw) := by
        ext
        simp
      have h := ih before (part ++ [d]) parts
      rw [if_neg (by simpa using hd), if_neg (by simpa using hd), hback, hmove]
      simpa [Nat.add_assoc, -ofList_append] using h

/-- Splitting at a character. -/
theorem splitOn_singleton (s : String) (c : Char) :
    s.splitOn (singleton c) = (List.splitOnPPrepend (· == c) s.toList []).map ofList := by
  have hne : (singleton c == "") = false := by
    simp [← String.toList_inj]
  have h := splitOnAux_singleton c [] [] s.toList []
  rw [splitOn, if_neg (by simp [hne])]
  simpa using h

end Text

theorem Path.names_eq (path : String) : names path =
    ((List.splitOnPPrepend (· == '/') path.toList []).map String.ofList).filter (· ≠ "") :=
  congrArg _ (Text.splitOn_singleton path '/')

theorem LogFilter.ofText_eq (text : String) : ofText text =
    ((((List.splitOnPPrepend (· == ',') text.toList []).map String.ofList).filter (· != "")).mapM
      fun s => LogDirective.ofText s.toList).map .mk :=
  congrArg (fun l => ((l.filter (· != "")).mapM fun s => LogDirective.ofText s.toList).map mk)
    (Text.splitOn_singleton text ',')

end LabExchange
