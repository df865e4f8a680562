import LabExchange.Json.Writer
import LabExchange.Proofs.Json.NumberTexts

/-!
# Scanning what has been written

The text of a document is cut into the tokens of that document again, in every layout whose gaps
are blank, if its numbers read back. A token that has no end of its own, a word or a number, needs
something after it that cannot belong to it, and in a document a comma, a bracket or a gap does.
-/
namespace LabExchange

/-! ## Strings -/

namespace Piece

/-- A piece that stands for one character, whatever follows it. -/
def StandsFor (p : Piece) (c : Char) : Prop := ∀ rest, join (p :: rest) = (join rest).map (c :: ·)

theorem standsFor_char (c : Char) : (char c).StandsFor c := fun _ => rfl

/-- A unit that is no surrogate stands for its character. -/
theorem standsFor_unit {u : Nat} (h : u < 0xD800 ∨ 0xE000 ≤ u) :
    (unit u).StandsFor (Char.ofNat u) := by
  have hhigh : isHigh u = false := by simp [isHigh]; omega
  have hlow : isLow u = false := by simp [isLow]; omega
  intro rest
  cases rest with
  | nil => simp [join, hhigh, hlow]
  | cons p rest => cases p <;> simp [join, hhigh, hlow]

end Piece

namespace Scan

variable {before : List Token} {text rest : List Char}

/-- The tokens of a text that is read from a given state to its end. -/
def tokens? (s : Scan) (text : List Char) : Option (List Token) := (run s text).bind finish

theorem tokens?_cons (s : Scan) (c : Char) (text : List Char) :
    s.tokens? (c :: text) = (s.step c).bind (·.tokens? text) := by
  simp only [tokens?, run, List.foldlM_cons, Option.bind_eq_bind, Option.bind_assoc]

/-- A character of a string is read back from what is written for it. -/
theorem exists_piece (c : Char) : ∃ p : Piece, p.StandsFor c ∧ ∀ read before rest,
    tokens? ⟨.string read, before⟩ (Json.escape c ++ rest) =
      tokens? ⟨.string (p :: read), before⟩ rest := by
  by_cases hshort : c ∈ ['"', '\\', '\x08', '\x0c', '\n', '\r', '\t']
  · refine ⟨.char c, Piece.standsFor_char c, fun read before rest => ?_⟩
    simp only [List.mem_cons, List.not_mem_nil, or_false] at hshort
    rcases hshort with rfl | rfl | rfl | rfl | rfl | rfl | rfl <;> rfl
  · simp only [List.mem_cons, List.not_mem_nil, or_false, not_or] at hshort
    obtain ⟨hquote, hslash, hb, hf, hn, hr, ht⟩ := hshort
    simp only [Json.escape, if_neg hquote, if_neg hslash, if_neg hb, if_neg hf, if_neg hn,
      if_neg hr, if_neg ht]
    by_cases hcontrol : c.toNat < 0x20
    · refine ⟨.unit c.toNat, ?_, fun read before rest => ?_⟩
      · simpa using Piece.standsFor_unit (u := c.toNat) (.inl (by omega))
      · have hhigh : ∀ n < 32, Text.hexDigit? (n / 16).digitChar = some (n / 16) := by decide
        have hlow : ∀ n < 32, Text.hexDigit? (n % 16).digitChar = some (n % 16) := by decide
        have hunit : c.toNat / 16 * 16 + c.toNat % 16 = c.toNat := by omega
        simp only [if_pos hcontrol]
        change tokens? ⟨.hex read 2 0, before⟩ (_ :: _ :: rest) = _
        simp [tokens?_cons, step, hhigh _ hcontrol, hlow _ hcontrol, hunit]
    · refine ⟨.char c, Piece.standsFor_char c, fun read before rest => ?_⟩
      simp [tokens?_cons, step, hquote, hslash, hcontrol]

theorem tokens?_escaped (text : List Char) : ∃ pieces : List Piece,
    Piece.join pieces = some text ∧ ∀ read before rest,
      tokens? ⟨.string read, before⟩ (text.flatMap Json.escape ++ rest) =
        tokens? ⟨.string (pieces.reverse ++ read), before⟩ rest := by
  induction text with
  | nil => exact ⟨[], rfl, fun read before rest => rfl⟩
  | cons c text ih =>
    obtain ⟨p, hp, hread⟩ := exists_piece c
    obtain ⟨pieces, hpieces, hrest⟩ := ih
    refine ⟨p :: pieces, by rw [hp, hpieces]; rfl, fun read before rest => ?_⟩
    rw [List.flatMap_cons, List.append_assoc, hread, hrest]
    simp

/-- A quoted text is one token with that text. -/
theorem tokens?_quote (text : List Char) :
    tokens? ⟨.between, before⟩ (Json.quote text ++ rest) =
      tokens? ⟨.between, .string (some (String.ofList text)) :: before⟩ rest := by
  obtain ⟨pieces, hjoin, hread⟩ := tokens?_escaped text
  have hopen : tokens? ⟨.between, before⟩ (Json.quote text ++ rest) =
      tokens? ⟨.string [], before⟩ (text.flatMap Json.escape ++ ('"' :: rest)) := by
    simp only [Json.quote, List.cons_append, List.append_assoc, List.nil_append]
    rfl
  rw [hopen, hread]
  simp [tokens?_cons, step, stringToken, hjoin]

/-! ## Words and numbers -/

/-- What may stand after a word or a number: the end of the text, or a character that belongs to
neither. -/
def Ends : List Char → Prop
  | [] => True
  | c :: _ => isNumberChar c = false ∧ c.isLower = false

theorem tokens?_word (read : List Char) {t : Token} (ht : wordToken? read.reverse = some t)
    (hrest : Ends rest) :
    tokens? ⟨.word read, before⟩ rest = tokens? ⟨.between, t :: before⟩ rest := by
  cases rest with
  | nil => simp [tokens?, run, finish, settle, ht]
  | cons c rest => simp [tokens?_cons, step, settle, hrest.2, ht]

theorem tokens?_number {read : List Char} {t : Token} (ht : numberToken? read.reverse = some t)
    (hrest : Ends rest) :
    tokens? ⟨.number read, before⟩ rest = tokens? ⟨.between, t :: before⟩ rest := by
  cases rest with
  | nil => simp [tokens?, run, finish, settle, ht]
  | cons c rest => simp [tokens?_cons, step, settle, hrest.1, ht]

theorem tokens?_numberChars {read : List Char} (h : ∀ c ∈ text, isNumberChar c = true) :
    tokens? ⟨.number read, before⟩ (text ++ rest) =
      tokens? ⟨.number (text.reverse ++ read), before⟩ rest := by
  induction text generalizing read with
  | nil => rfl
  | cons c text ih =>
    obtain ⟨hc, htext⟩ := List.forall_mem_cons.mp h
    rw [List.cons_append, tokens?_cons]
    simp only [step, hc, if_true, Option.bind_some, ih htext]
    simp

theorem start_number {c : Char} (h : c.isDigit = true ∨ c = '-') :
    start before c = some ⟨.number [c], before⟩ := by
  have hne : ∀ d : Char, (d.isDigit || d == '-') = false → c ≠ d := by
    rintro d hd rfl
    simp_all
  have hblank : isBlank c = false := by
    simp [isBlank, hne ' ' rfl, hne '\t' rfl, hne '\n' rfl, hne '\r' rfl]
  simp [start, hblank, hne '[' rfl, hne ']' rfl, hne '{' rfl, hne '}' rfl, hne ',' rfl,
    hne ':' rfl, hne '"' rfl, h]

/-- A number is one token with its value, if it has one. -/
theorem tokens?_literal {l : Literal} (h : Literal.read? text = some l) (hrest : Ends rest) :
    tokens? ⟨.between, before⟩ (text ++ rest) =
      tokens? ⟨.between, .number (Number.ofLiteral? l) :: before⟩ rest := by
  obtain ⟨c, later, rfl, hc, hlater⟩ := Literal.isNumberChar_of_read? h
  have htoken : numberToken? (later.reverse ++ [c]).reverse =
      some (.number (Number.ofLiteral? l)) := by
    simp [numberToken?, h]
  rw [List.cons_append, tokens?_cons]
  simp only [step, start_number hc, Option.bind_some]
  rw [tokens?_numberChars hlater, tokens?_number htoken hrest]

/-- A number that reads back is one token with that number. -/
theorem tokens?_numberText {n : Number} (h : n.ReadsBack) (hrest : Ends rest) :
    tokens? ⟨.between, before⟩ (n.text ++ rest) =
      tokens? ⟨.between, .number (some n) :: before⟩ rest := by
  obtain ⟨l, hread, hvalue⟩ := h
  rw [tokens?_literal hread hrest, hvalue]

/-- Blank space between tokens is passed over. -/
theorem tokens?_blank (h : ∀ c ∈ text, isBlank c = true) :
    tokens? ⟨.between, before⟩ (text ++ rest) = tokens? ⟨.between, before⟩ rest := by
  induction text with
  | nil => rfl
  | cons c text ih =>
    obtain ⟨hc, htext⟩ := List.forall_mem_cons.mp h
    rw [List.cons_append, tokens?_cons]
    simp only [step, start, hc, if_true, Option.bind_some, ih htext]

theorem ends_blank (h : ∀ c ∈ text, isBlank c = true) (hrest : Ends rest) :
    Ends (text ++ rest) := by
  cases text with
  | nil => exact hrest
  | cons c text =>
    have hc := (List.forall_mem_cons.mp h).1
    simp only [isBlank, Bool.or_eq_true, beq_iff_eq] at hc
    rcases hc with ((rfl | rfl) | rfl) | rfl <;> exact ⟨rfl, rfl⟩

end Scan

/-! ## Documents -/

namespace Tree

variable {δ : Type}

mutual

/-- The numbers in a tree, from left to right. -/
def numbers : Tree δ → List Number
  | number n => [n]
  | array items => itemNumbers items
  | object members => memberNumbers members
  | _ => []

def itemNumbers : List (Tree δ) → List Number
  | [] => []
  | item :: rest => numbers item ++ itemNumbers rest

def memberNumbers : List (String × Tree δ) → List Number
  | [] => []
  | (_, item) :: rest => numbers item ++ memberNumbers rest

end

end Tree

namespace Json

open LabExchange.Tree (numbers itemNumbers memberNumbers)

mutual

/-- The tokens of a document. -/
def tokens : Json → List Token
  | .null => [.null]
  | .bool b => [.bool b]
  | .number n => [.number (some n)]
  | .string s => [.string (some s)]
  | .array [] => [.openArray, .closeArray]
  | .array (item :: rest) => .openArray :: tokens item ++ itemTokens rest ++ [.closeArray]
  | .object [] => [.openObject, .closeObject]
  | .object ((key, item) :: rest) =>
    .openObject :: .string (some key) :: .colon :: tokens item ++ memberTokens rest ++
      [.closeObject]

/-- The tokens of the items after the first one. -/
def itemTokens : List Json → List Token
  | [] => []
  | item :: rest => .comma :: tokens item ++ itemTokens rest

def memberTokens : List (String × Json) → List Token
  | [] => []
  | (key, item) :: rest =>
    .comma :: .string (some key) :: .colon :: tokens item ++ memberTokens rest

end

/-- A layout that has nothing but blank space where it has anything. -/
structure Layout.IsBlank (layout : Layout) : Prop where
  newline : ∀ depth, ∀ c ∈ layout.newline depth, Scan.isBlank c = true
  afterColon : ∀ c ∈ layout.afterColon, Scan.isBlank c = true

theorem Layout.isBlank_pretty : pretty.IsBlank where
  newline depth := List.forall_mem_cons.mpr ⟨rfl, fun c hc => by
    rw [List.eq_of_mem_replicate hc]
    rfl⟩
  afterColon := by simp [pretty, Scan.isBlank]

theorem Layout.isBlank_compact : compact.IsBlank := ⟨nofun, nofun⟩

section Writing

variable {layout : Layout} {depth : Nat} {before : List Token} {rest : List Char}

open Scan (tokens? Ends)

theorem ends_writeItems {items : List Json} (hrest : Ends rest) :
    Ends (writeItems layout depth items ++ rest) := by
  cases items with
  | nil => exact hrest
  | cons item items => exact ⟨rfl, rfl⟩

theorem ends_writeMembers {members : List (String × Json)} (hrest : Ends rest) :
    Ends (writeMembers layout depth members ++ rest) := by
  cases members with
  | nil => exact hrest
  | cons member members => exact ⟨rfl, rfl⟩

variable (hlayout : layout.IsBlank)

include hlayout

/-- A key and its colon are two tokens, and what stands behind them is read from there. -/
theorem tokens?_key (key : String) :
    tokens? ⟨.between, before⟩ (quote key.toList ++ ':' :: (layout.afterColon ++ rest)) =
      tokens? ⟨.between, .colon :: .string (some key) :: before⟩ rest := by
  rw [Scan.tokens?_quote, String.ofList_toList]
  exact Scan.tokens?_blank hlayout.afterColon

/-- The bracket that closes an array or object, behind its last item. -/
theorem tokens?_close {c : Char} {t : Token}
    (hc : ∀ before, Scan.start before c = some ⟨.between, t :: before⟩) :
    tokens? ⟨.between, before⟩ (layout.newline depth ++ c :: rest) =
      tokens? ⟨.between, t :: before⟩ rest := by
  rw [Scan.tokens?_blank (hlayout.newline depth), Scan.tokens?_cons]
  simp only [Scan.step, hc, Option.bind_some]

mutual

/-- What is written for a document is cut into its tokens. -/
theorem tokens?_write (j : Json) (depth : Nat) (before : List Token) {rest : List Char}
    (h : ∀ n ∈ numbers j, n.ReadsBack) (hrest : Ends rest) :
    tokens? ⟨.between, before⟩ (write layout depth j ++ rest) =
      tokens? ⟨.between, (tokens j).reverse ++ before⟩ rest := by
  cases j with
  | null => exact Scan.tokens?_word ['l', 'l', 'u', 'n'] rfl hrest
  | bool b =>
    cases b with
    | true => exact Scan.tokens?_word ['e', 'u', 'r', 't'] rfl hrest
    | false => exact Scan.tokens?_word ['e', 's', 'l', 'a', 'f'] rfl hrest
  | number n => exact Scan.tokens?_numberText (h n List.mem_cons_self) hrest
  | string s =>
    simp only [write, tokens, Scan.tokens?_quote, String.ofList_toList]
    rfl
  | array items =>
    match items with
    | [] => rfl
    | item :: items =>
      obtain ⟨hitem, hitems⟩ := List.forall_mem_append.mp h
      have hclose : Ends (layout.newline depth ++ ']' :: rest) :=
        Scan.ends_blank (hlayout.newline depth) ⟨rfl, rfl⟩
      simp only [write, List.cons_append, List.append_assoc, List.nil_append]
      change tokens? ⟨.between, .openArray :: before⟩ _ = _
      rw [Scan.tokens?_blank (hlayout.newline _),
        tokens?_write item _ _ hitem (ends_writeItems hclose),
        tokens?_writeItems items _ _ hitems hclose, tokens?_close hlayout fun _ => rfl]
      simp [tokens]
  | object members =>
    match members with
    | [] => rfl
    | (key, item) :: members =>
      obtain ⟨hitem, hmembers⟩ := List.forall_mem_append.mp h
      have hclose : Ends (layout.newline depth ++ '}' :: rest) :=
        Scan.ends_blank (hlayout.newline depth) ⟨rfl, rfl⟩
      simp only [write, List.cons_append, List.append_assoc, List.nil_append]
      change tokens? ⟨.between, .openObject :: before⟩ _ = _
      rw [Scan.tokens?_blank (hlayout.newline _), tokens?_key hlayout,
        tokens?_write item _ _ hitem (ends_writeMembers hclose),
        tokens?_writeMembers members _ _ hmembers hclose, tokens?_close hlayout fun _ => rfl]
      simp [tokens]
  | defect reason => exact reason.elim

theorem tokens?_writeItems (items : List Json) (depth : Nat) (before : List Token)
    {rest : List Char} (h : ∀ n ∈ itemNumbers items, n.ReadsBack) (hrest : Ends rest) :
    tokens? ⟨.between, before⟩ (writeItems layout depth items ++ rest) =
      tokens? ⟨.between, (itemTokens items).reverse ++ before⟩ rest := by
  match items with
  | [] => rfl
  | item :: items =>
    obtain ⟨hitem, hitems⟩ := List.forall_mem_append.mp h
    simp only [writeItems, List.cons_append, List.append_assoc]
    change tokens? ⟨.between, .comma :: before⟩ _ = _
    rw [Scan.tokens?_blank (hlayout.newline _),
      tokens?_write item _ _ hitem (ends_writeItems hrest),
      tokens?_writeItems items _ _ hitems hrest]
    simp [itemTokens]

theorem tokens?_writeMembers (members : List (String × Json)) (depth : Nat) (before : List Token)
    {rest : List Char} (h : ∀ n ∈ memberNumbers members, n.ReadsBack) (hrest : Ends rest) :
    tokens? ⟨.between, before⟩ (writeMembers layout depth members ++ rest) =
      tokens? ⟨.between, (memberTokens members).reverse ++ before⟩ rest := by
  match members with
  | [] => rfl
  | (key, item) :: members =>
    obtain ⟨hitem, hmembers⟩ := List.forall_mem_append.mp h
    simp only [writeMembers, List.cons_append, List.append_assoc]
    change tokens? ⟨.between, .comma :: before⟩ _ = _
    rw [Scan.tokens?_blank (hlayout.newline _), tokens?_key hlayout,
      tokens?_write item _ _ hitem (ends_writeMembers hrest),
      tokens?_writeMembers members _ _ hmembers hrest]
    simp [memberTokens]

end

/-- The text of a document whose numbers read back has the tokens of the document. -/
theorem ofText?_write {j : Json} (h : ∀ n ∈ numbers j, n.ReadsBack) :
    Token.ofText? (write layout depth j) = some (tokens j) := by
  have hread : tokens? ⟨.between, []⟩ (write layout depth j ++ []) = _ :=
    tokens?_write hlayout j depth [] h trivial
  rw [List.append_nil, List.append_nil] at hread
  exact hread.trans (congrArg some (List.reverse_reverse _))

end Writing

end Json
end LabExchange
