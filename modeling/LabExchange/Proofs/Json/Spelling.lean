import LabExchange.Proofs.Json.Parsing

/-!
# How numbers and strings are spelled

The ways to write a number or a string, each with the parts that it has. A character of a string
may be written as it stands, behind a backslash or by its number, and a string may be well-formed
without denoting a text. However a number or a string is written, it is read as what it denotes.
-/
namespace LabExchange

/-! ## Numbers -/

namespace Literal

/-- At least one digit and nothing else. -/
structure AreDigits (text : List Char) : Prop where
  nonempty : text ≠ []
  digits : ∀ c ∈ text, c.isDigit = true

/-- A fraction, which may be absent. -/
inductive SpellsFraction : Option (List Char) → List Char → Prop
  | absent : SpellsFraction none []
  | digits {digits : List Char} (h : AreDigits digits) :
      SpellsFraction (some digits) ('.' :: digits)

/-- An exponent, which may be absent. -/
inductive SpellsExponent : Option Int → List Char → Prop
  | absent : SpellsExponent none []
  | plain {e : Char} {digits : List Char} (he : e = 'e' ∨ e = 'E') (h : AreDigits digits) :
      SpellsExponent (some (value digits)) (e :: digits)
  | plus {e : Char} {digits : List Char} (he : e = 'e' ∨ e = 'E') (h : AreDigits digits) :
      SpellsExponent (some (value digits)) (e :: '+' :: digits)
  | minus {e : Char} {digits : List Char} (he : e = 'e' ∨ e = 'E') (h : AreDigits digits) :
      SpellsExponent (some (-value digits)) (e :: '-' :: digits)

/-- A text is a number with some parts: an optional minus sign, digits that begin with a zero only
if they are a zero, and an optional fraction and exponent. -/
inductive Spells : Literal → List Char → Prop
  | intro {negative : Bool} {whole point power : List Char} {fraction : Option (List Char)}
      {exponent : Option Int} (hwhole : AreDigits whole)
      (hzero : whole.head? = some '0' → whole = ['0']) (hfraction : SpellsFraction fraction point)
      (hexponent : SpellsExponent exponent power) :
      Spells ⟨negative, whole, fraction, exponent⟩
        ((if negative then ['-'] else []) ++ (whole ++ (point ++ power)))

variable {negative : Bool} {whole digits rest point power : List Char}
  {fraction : Option (List Char)} {exponent : Option Int} {l : Literal} {text : List Char}

/-- No digit comes next. -/
def EndsDigits (rest : List Char) : Prop := ∀ c ∈ rest.head?, c.isDigit = false

theorem takeWhile_digits (h : ∀ c ∈ digits, c.isDigit = true) (hrest : EndsDigits rest) :
    (digits ++ rest).takeWhile Char.isDigit = digits ∧
      (digits ++ rest).dropWhile Char.isDigit = rest := by
  rw [List.takeWhile_append_of_pos h, List.dropWhile_append_of_pos h]
  cases rest with
  | nil => simp
  | cons c rest => simp [hrest c rfl]

theorem AreDigits.exponent? (h : AreDigits digits) : exponent? digits = some (value digits) := by
  have hall : digits.all Char.isDigit = true := List.all_eq_true.mpr h.digits
  have hempty : digits.isEmpty = false := by simpa using h.nonempty
  unfold Literal.exponent?
  split
  · exact absurd (h.digits '+' List.mem_cons_self) (by decide)
  · exact absurd (h.digits '-' List.mem_cons_self) (by decide)
  · simp [hempty, hall]

theorem SpellsExponent.exponentPart? (h : SpellsExponent exponent power) :
    exponentPart? negative whole fraction power =
      some ⟨negative, whole, fraction, exponent⟩ := by
  have hsigned : ∀ {digits : List Char}, AreDigits digits →
      (digits.isEmpty || !digits.all Char.isDigit) = false := by
    intro digits h
    simpa [h.nonempty] using h.digits
  cases h with
  | absent => rfl
  | plain he h => rw [Literal.exponentPart?, if_pos he, h.exponent?]; rfl
  | plus he h => simp [Literal.exponentPart?, he, Literal.exponent?, hsigned h]
  | minus he h => simp [Literal.exponentPart?, he, Literal.exponent?, hsigned h]

theorem SpellsExponent.endsDigits (h : SpellsExponent exponent power) : EndsDigits power := by
  have hmark : ∀ {e : Char}, e = 'e' ∨ e = 'E' → e.isDigit = false := by
    rintro e (rfl | rfl) <;> rfl
  cases h with
  | absent => exact nofun
  | plain he | plus he | minus he => simpa [EndsDigits] using hmark he

theorem SpellsExponent.ne_point (h : SpellsExponent exponent power) (digits : List Char) :
    power ≠ '.' :: digits := by
  cases h with
  | absent => exact nofun
  | plain he | plus he | minus he => rcases he with rfl | rfl <;> simp

theorem SpellsFraction.tail? (h : SpellsFraction fraction point)
    (hexponent : SpellsExponent exponent power) :
    tail? negative whole (point ++ power) = some ⟨negative, whole, fraction, exponent⟩ := by
  cases h with
  | absent => rw [List.nil_append, tail?_other hexponent.ne_point, hexponent.exponentPart?]
  | digits h =>
    obtain ⟨htake, hdrop⟩ := takeWhile_digits h.digits hexponent.endsDigits
    rw [List.cons_append, tail?_point, htake, hdrop, if_neg h.nonempty, hexponent.exponentPart?]

theorem SpellsFraction.endsDigits (h : SpellsFraction fraction point)
    (hexponent : SpellsExponent exponent power) : EndsDigits (point ++ power) := by
  cases h with
  | absent => exact hexponent.endsDigits
  | digits h => simp [EndsDigits]

/-- A text that is a number is read as one with the same parts. -/
theorem Spells.read? (h : Spells l text) : read? text = some l := by
  cases h with
  | @intro negative whole point power fraction exponent hwhole hzero hfraction hexponent =>
    have hunsigned : unsigned? negative (whole ++ (point ++ power)) =
        some ⟨negative, whole, fraction, exponent⟩ := by
      obtain ⟨htake, hdrop⟩ :=
        takeWhile_digits hwhole.digits (hfraction.endsDigits hexponent)
      have hlength : whole.head? = some '0' → whole.length = 1 := fun h => by rw [hzero h]; rfl
      simp only [unsigned?, htake, hdrop]
      rw [if_neg (by simpa [hwhole.nonempty] using hlength), hfraction.tail? hexponent]
    cases negative with
    | true => exact hunsigned
    | false =>
      obtain ⟨c, rest, rfl⟩ := List.exists_cons_of_ne_nil hwhole.nonempty
      have hminus : c ≠ '-' := by
        rintro rfl
        exact absurd (hwhole.digits '-' List.mem_cons_self) (by decide)
      exact (read?_cons hminus _).trans hunsigned

end Literal

/-! ## Strings -/

namespace Piece

/-- The text that some pieces stand for: a pair of surrogates for one character, and every other
piece for one by itself. -/
inductive Denotes : List Piece → List Char → Prop
  | nil : Denotes [] []
  | char {pieces : List Piece} {text : List Char} (c : Char) (h : Denotes pieces text) :
      Denotes (.char c :: pieces) (c :: text)
  | unit {pieces : List Piece} {text : List Char} {u : Nat} (hu : u < 0xD800 ∨ 0xE000 ≤ u)
      (h : Denotes pieces text) : Denotes (.unit u :: pieces) (Char.ofNat u :: text)
  | pair {pieces : List Piece} {text : List Char} {high low : Nat}
      (hhigh : 0xD800 ≤ high ∧ high < 0xDC00) (hlow : 0xDC00 ≤ low ∧ low < 0xE000)
      (h : Denotes pieces text) :
      Denotes (.unit high :: .unit low :: pieces)
        (Char.ofNat (0x10000 + (high - 0xD800) * 0x400 + (low - 0xDC00)) :: text)

/-- What may stand behind a backslash, and the character that is meant by it. -/
def shortEscapes : List (Char × Char) :=
  [('"', '"'), ('\\', '\\'), ('/', '/'), ('b', '\x08'), ('f', '\x0c'), ('n', '\n'), ('r', '\r'),
    ('t', '\t')]

/-- How pieces are written between the quotes of a string. -/
inductive Spells : List Piece → List Char → Prop
  | nil : Spells [] []
  | plain {pieces : List Piece} {text : List Char} {c : Char} (hquote : c ≠ '"')
      (hbackslash : c ≠ '\\') (hcontrol : 0x20 ≤ c.toNat) (h : Spells pieces text) :
      Spells (.char c :: pieces) (c :: text)
  | short {pieces : List Piece} {text : List Char} {e c : Char} (he : (e, c) ∈ shortEscapes)
      (h : Spells pieces text) : Spells (.char c :: pieces) ('\\' :: e :: text)
  | unit {pieces : List Piece} {text : List Char} {a b c d : Char} {i j k l : Nat}
      (ha : Text.hexDigit? a = some i) (hb : Text.hexDigit? b = some j)
      (hc : Text.hexDigit? c = some k) (hd : Text.hexDigit? d = some l) (h : Spells pieces text) :
      Spells (.unit (i * 4096 + j * 256 + k * 16 + l) :: pieces)
        ('\\' :: 'u' :: a :: b :: c :: d :: text)

variable {pieces : List Piece} {text : List Char}

theorem isHigh_iff {u : Nat} : isHigh u = true ↔ 0xD800 ≤ u ∧ u < 0xDC00 := by
  simp [isHigh]

theorem isLow_iff {u : Nat} : isLow u = true ↔ 0xDC00 ≤ u ∧ u < 0xE000 := by
  simp [isLow]

theorem Denotes.join (h : Denotes pieces text) : join pieces = some text := by
  induction h with
  | nil => rfl
  | char c h ih => rw [standsFor_char, ih]; rfl
  | unit hu h ih => rw [standsFor_unit hu, ih]; rfl
  | pair hhigh hlow h ih =>
    simp only [Piece.join, isHigh_iff.mpr hhigh, isLow_iff.mpr hlow, if_true, ih]
    rfl

/-- Pieces are joined to the text that they stand for. -/
theorem denotes_of_join (h : join pieces = some text) : Denotes pieces text := by
  fun_induction join pieces generalizing text with
  | case1 =>
    obtain rfl := Option.some.inj h
    exact .nil
  | case2 c rest ih =>
    obtain ⟨text, hrest, rfl⟩ := Option.map_eq_some_iff.mp h
    exact .char c (ih hrest)
  | case3 high low rest hhigh hlow ih =>
    obtain ⟨text, hrest, rfl⟩ := Option.map_eq_some_iff.mp h
    exact .pair (isHigh_iff.mp hhigh) (isLow_iff.mp hlow) (ih hrest)
  | case4 | case5 => cases h
  | case6 high low rest hhigh hlow ih =>
    obtain ⟨text, hrest, rfl⟩ := Option.map_eq_some_iff.mp h
    rw [isHigh_iff] at hhigh
    rw [isLow_iff] at hlow
    exact .unit (by omega) (ih hrest)
  | case7 => cases h
  | case8 u rest hnext hsurrogate ih =>
    obtain ⟨text, hrest, rfl⟩ := Option.map_eq_some_iff.mp h
    rw [Bool.or_eq_true, isHigh_iff, isLow_iff] at hsurrogate
    exact .unit (by omega) (ih hrest)

/-- What stands between the quotes of a string is read piece by piece. -/
theorem Spells.tokens? (h : Spells pieces text) (read : List Piece) (before : List Token)
    (rest : List Char) :
    Scan.tokens? ⟨.string read, before⟩ (text ++ rest) =
      Scan.tokens? ⟨.string (pieces.reverse ++ read), before⟩ rest := by
  induction h generalizing read with
  | nil => rfl
  | plain hquote hbackslash hcontrol h ih =>
    rw [List.cons_append, Scan.tokens?_cons]
    simp [Scan.step, hquote, hbackslash, Nat.not_lt.mpr hcontrol, ih]
  | @short pieces text e c he h ih =>
    have hescaped : Scan.escaped read e = some (.string (.char c :: read)) := by
      simp only [shortEscapes, List.mem_cons, Prod.mk.injEq, List.not_mem_nil, or_false] at he
      rcases he with ⟨rfl, rfl⟩ | ⟨rfl, rfl⟩ | ⟨rfl, rfl⟩ | ⟨rfl, rfl⟩ | ⟨rfl, rfl⟩ | ⟨rfl, rfl⟩ |
        ⟨rfl, rfl⟩ | ⟨rfl, rfl⟩ <;> rfl
    have hopen : Scan.tokens? ⟨.string read, before⟩ ('\\' :: e :: (text ++ rest)) =
        Scan.tokens? ⟨.escape read, before⟩ (e :: (text ++ rest)) := rfl
    rw [List.cons_append, List.cons_append, hopen, Scan.tokens?_cons]
    simp [Scan.step, hescaped, ih]
  | @unit pieces text a b c d i j k l ha hb hc hd h ih =>
    have hopen : Scan.tokens? ⟨.string read, before⟩
        ('\\' :: 'u' :: a :: b :: c :: d :: (text ++ rest)) =
          Scan.tokens? ⟨.hex read 4 0, before⟩ (a :: b :: c :: d :: (text ++ rest)) := rfl
    have hunit : (((0 * 16 + i) * 16 + j) * 16 + k) * 16 + l =
        i * 4096 + j * 256 + k * 16 + l := by omega
    rw [← hunit]
    simp only [List.cons_append]
    rw [hopen]
    simp [Scan.tokens?_cons, Scan.step, ha, hb, hc, hd, ih]

/-- Characters that need no backslash are spelled as they stand. -/
theorem spells_plain (h : ∀ c ∈ text, c ≠ '"' ∧ c ≠ '\\' ∧ 0x20 ≤ c.toNat) :
    Spells (text.map .char) text := by
  induction text with
  | nil => exact .nil
  | cons c text ih =>
    obtain ⟨⟨hquote, hbackslash, hcontrol⟩, htext⟩ := List.forall_mem_cons.mp h
    exact .plain hquote hbackslash hcontrol (ih htext)

theorem denotes_chars (text : List Char) : Denotes (text.map .char) text := by
  induction text with
  | nil => exact .nil
  | cons c text ih => exact .char c ih

end Piece

/-- A text in quotes, with the string that it denotes if it denotes one. -/
inductive SpellsString : Option String → List Char → Prop
  | text {pieces : List Piece} {text : List Char} {s : String} (h : Piece.Spells pieces text)
      (hs : Piece.Denotes pieces s.toList) : SpellsString (some s) ('"' :: (text ++ ['"']))
  | nothing {pieces : List Piece} {text : List Char} (h : Piece.Spells pieces text)
      (hnothing : ∀ denoted, ¬Piece.Denotes pieces denoted) :
      SpellsString none ('"' :: (text ++ ['"']))

theorem SpellsString.tokens? {name : Option String} {text : List Char}
    (h : SpellsString name text) (before : List Token) (rest : List Char) :
    Scan.tokens? ⟨.between, before⟩ (text ++ rest) =
      Scan.tokens? ⟨.between, .string name :: before⟩ rest := by
  have hquoted : ∀ {pieces : List Piece} {text : List Char}, Piece.Spells pieces text →
      Scan.tokens? ⟨.between, before⟩ ('"' :: (text ++ ['"']) ++ rest) =
        Scan.tokens? ⟨.between, Scan.stringToken pieces :: before⟩ rest := by
    intro pieces text h
    have hopen : Scan.tokens? ⟨.between, before⟩ ('"' :: (text ++ ['"']) ++ rest) =
        Scan.tokens? ⟨.string [], before⟩ (text ++ '"' :: rest) := by
      rw [List.cons_append, List.append_assoc]
      rfl
    rw [hopen, h.tokens?, Scan.tokens?_cons]
    simp [Scan.step]
  cases h with
  | text h hs =>
    rw [hquoted h, Scan.stringToken, hs.join, Option.map_some, String.ofList_toList]
  | @nothing pieces text h hnothing =>
    have hjoin : Piece.join pieces = none :=
      Option.eq_none_iff_forall_ne_some.mpr fun denoted h => hnothing denoted
        (Piece.denotes_of_join h)
    rw [hquoted h, Scan.stringToken, hjoin, Option.map_none]

end LabExchange
