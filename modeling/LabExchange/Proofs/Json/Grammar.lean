import LabExchange.Proofs.Json.Parsing
import LabExchange.Proofs.Json.Spelling

/-!
# The grammar of documents

Each rule of the grammar of JSON with what a text says by it. Blank space may stand around every
value and every name, no comma stands before a closing bracket, and a value that is well-formed
but denotes nothing is a defect. Every text that follows the grammar is read as what it says: it
is cut into tokens, and these are folded into what the rules give.
-/
namespace LabExchange
namespace Draft

/-- Blank space between tokens. -/
def IsGap (text : List Char) : Prop := ∀ c ∈ text, c ∈ [' ', '\t', '\n', '\r']

/-- What a number says. -/
def ofNumber : Option Number → Draft
  | some n => .number n
  | none => .defect .tooLarge

/-- What a string says. -/
def ofString : Option String → Draft
  | some s => .string s
  | none => .defect .loneSurrogate

/-- The name of a member, with the blank space around it. -/
inductive SpellsName : Option String → List Char → Prop
  | intro {before quoted after : List Char} {name : Option String} (hbefore : IsGap before)
      (h : SpellsString name quoted) (hafter : IsGap after) :
      SpellsName name (before ++ (quoted ++ after))

mutual

/-- A text follows the grammar and says what a draft holds. -/
inductive Says : List Char → Draft → Prop
  | null : Says ['n', 'u', 'l', 'l'] .null
  | true : Says ['t', 'r', 'u', 'e'] (.bool true)
  | false : Says ['f', 'a', 'l', 's', 'e'] (.bool false)
  | number {l : Literal} {text : List Char} (h : l.Spells text) :
      Says text (ofNumber (Number.ofLiteral? l))
  | string {name : Option String} {text : List Char} (h : SpellsString name text) :
      Says text (ofString name)
  | emptyArray {gap : List Char} (hgap : IsGap gap) : Says ('[' :: (gap ++ [']'])) (.array [])
  | array {text : List Char} {items : List Draft} (h : SaysItems text items) :
      Says ('[' :: (text ++ [']'])) (.array items)
  | emptyObject {gap : List Char} (hgap : IsGap gap) : Says ('{' :: (gap ++ ['}'])) (.object [])
  | object {text : List Char} {members : List (String × Draft)}
      (h : SaysMembers text (members.map fun m => (some m.1, m.2))) :
      Says ('{' :: (text ++ ['}'])) (.object members)
  | nameless {text : List Char} {members : List (Option String × Draft)} {item : Draft}
      (h : SaysMembers text members) (hname : (none, item) ∈ members) :
      Says ('{' :: (text ++ ['}'])) (.defect .loneSurrogate)
  | spaced {before text after : List Char} {d : Draft} (hbefore : IsGap before) (h : Says text d)
      (hafter : IsGap after) : Says (before ++ (text ++ after)) d

/-- The items of an array that is not empty. -/
inductive SaysItems : List Char → List Draft → Prop
  | last {text : List Char} {d : Draft} (h : Says text d) : SaysItems text [d]
  | cons {text later : List Char} {d : Draft} {items : List Draft} (h : Says text d)
      (hlater : SaysItems later items) : SaysItems (text ++ ',' :: later) (d :: items)

/-- The members of an object that is not empty. -/
inductive SaysMembers : List Char → List (Option String × Draft) → Prop
  | last {key text : List Char} {name : Option String} {d : Draft} (hkey : SpellsName name key)
      (h : Says text d) : SaysMembers (key ++ ':' :: text) [(name, d)]
  | cons {key text later : List Char} {name : Option String} {d : Draft}
      {members : List (Option String × Draft)} (hkey : SpellsName name key) (h : Says text d)
      (hlater : SaysMembers later members) :
      SaysMembers (key ++ ':' :: (text ++ ',' :: later)) ((name, d) :: members)

end

end Draft

/-! ## From texts to tokens -/

namespace Scan

/-- A text is cut into some tokens wherever it ends a word or a number. -/
def Scans (text : List Char) (tokens : List Token) : Prop := ∀ before rest, Ends rest →
  tokens? ⟨.between, before⟩ (text ++ rest) = tokens? ⟨.between, tokens.reverse ++ before⟩ rest

/-- A text that ends the word or number before it. -/
def Breaks (text : List Char) : Prop := ∀ rest, Ends rest → Ends (text ++ rest)

variable {text later gap : List Char} {tokens more : List Token}

theorem isBlank_of_isGap (h : Draft.IsGap gap) : ∀ c ∈ gap, isBlank c = true := by
  intro c hc
  simpa [isBlank, or_assoc] using h c hc

theorem scans_gap (h : Draft.IsGap gap) : Scans gap [] :=
  fun _ _ _ => tokens?_blank (isBlank_of_isGap h)

theorem breaks_gap (h : Draft.IsGap gap) : Breaks gap :=
  fun _ hrest => ends_blank (isBlank_of_isGap h) hrest

/-- A character that is a token by itself. -/
structure Marks (c : Char) (t : Token) : Prop where
  start : ∀ before, start before c = some ⟨.between, t :: before⟩
  ends : ∀ rest, Ends (c :: rest)

theorem marks_comma : Marks ',' .comma := ⟨fun _ => rfl, fun _ => ⟨rfl, rfl⟩⟩

theorem marks_colon : Marks ':' .colon := ⟨fun _ => rfl, fun _ => ⟨rfl, rfl⟩⟩

theorem marks_openArray : Marks '[' .openArray := ⟨fun _ => rfl, fun _ => ⟨rfl, rfl⟩⟩

theorem marks_closeArray : Marks ']' .closeArray := ⟨fun _ => rfl, fun _ => ⟨rfl, rfl⟩⟩

theorem marks_openObject : Marks '{' .openObject := ⟨fun _ => rfl, fun _ => ⟨rfl, rfl⟩⟩

theorem marks_closeObject : Marks '}' .closeObject := ⟨fun _ => rfl, fun _ => ⟨rfl, rfl⟩⟩

theorem Marks.scans_cons {c : Char} {t : Token} (hc : Marks c t) (h : Scans text tokens) :
    Scans (c :: text) (t :: tokens) := by
  intro before rest hrest
  rw [List.cons_append, tokens?_cons]
  simp [step, hc.start, h _ _ hrest]

theorem Marks.breaks_cons {c : Char} {t : Token} (hc : Marks c t) : Breaks (c :: text) :=
  fun _ _ => hc.ends _

theorem Scans.append (h : Scans text tokens) (hlater : Scans later more) (hbreaks : Breaks later) :
    Scans (text ++ later) (tokens ++ more) := by
  intro before rest hrest
  rw [List.append_assoc, h _ _ (hbreaks rest hrest), hlater _ _ hrest]
  simp

/-- A text between two brackets. -/
theorem Scans.between {opening closing : Char} {first last : Token} (h : Scans text tokens)
    (hopening : Marks opening first) (hclosing : Marks closing last) :
    Scans (opening :: (text ++ [closing])) (first :: (tokens ++ [last])) :=
  hopening.scans_cons (h.append (hclosing.scans_cons fun _ _ _ => rfl) hclosing.breaks_cons)

/-- Two texts with a comma or a colon between them. -/
theorem Scans.append_cons {c : Char} {t : Token} (h : Scans text tokens) (hc : Marks c t)
    (hlater : Scans later more) : Scans (text ++ c :: later) (tokens ++ t :: more) :=
  h.append (hc.scans_cons hlater) hc.breaks_cons

/-- A text with blank space around it. -/
theorem Scans.spaced {after : List Char} (h : Scans text tokens) (hgap : Draft.IsGap gap)
    (hafter : Draft.IsGap after) : Scans (gap ++ (text ++ after)) tokens := by
  intro before rest hrest
  have hblank := isBlank_of_isGap hgap
  have htext := h.append (scans_gap hafter) (breaks_gap hafter)
  rw [List.append_nil] at htext
  rw [List.append_assoc, tokens?_blank hblank, htext before rest hrest]

theorem scans_name {name : Option String} (h : Draft.SpellsName name text) :
    Scans text [.string name] := by
  cases h with
  | intro hbefore h hafter =>
    exact Scans.spaced (fun before rest _ => h.tokens? before rest) hbefore hafter

end Scan

/-! ## From tokens to trees -/

namespace Reading

/-- Some tokens are read as a value wherever a value may stand. They begin with one that closes
nothing, so that they can be the first item of an array as well. -/
structure ReadsValue (tokens : List Token) (d : Draft) : Prop where
  opens : ∃ t later, tokens = t :: later ∧ t ≠ .closeArray
  run : ∀ frames rest, run (.value frames) (tokens ++ rest) = run (.next d frames) rest

/-- Some tokens are read as items of an array, up to its end. -/
structure ReadsItems (tokens : List Token) (items : List Draft) : Prop where
  opens : ∃ t later, tokens = t :: later ∧ t ≠ .closeArray
  run : ∀ before frames rest,
    run (.value (.items before :: frames)) (tokens ++ .closeArray :: rest) =
      run (.next (.array (before.reverse ++ items)) frames) rest

/-- Some tokens are read as members of an object, up to its end. -/
structure ReadsMembers (tokens : List Token) (members : List (Option String × Draft)) : Prop where
  opens : ∃ name later, tokens = .string name :: later
  run : ∀ before frames rest,
    run (.key before frames) (tokens ++ .closeObject :: rest) =
      run (.next (close (members.reverse ++ before)) frames) rest

variable {tokens later : List Token} {d : Draft} {items : List Draft} {name : Option String}
  {members : List (Option String × Draft)}

theorem readsValue_leaf {t : Token} (h : leaf? t = some d) : ReadsValue [t] d where
  opens := ⟨t, [], rfl, by rintro rfl; cases h⟩
  run frames rest := by
    cases t with
    | openArray | closeArray | openObject | closeObject | comma | colon => cases h
    | null | bool | number | string =>
      simp only [LabExchange.Reading.run, List.cons_append, List.nil_append, List.foldlM_cons,
        step, beginValue, h, Option.map_some, Option.bind_eq_bind, Option.bind_some]

theorem readsValue_emptyArray : ReadsValue [.openArray, .closeArray] (.array []) :=
  ⟨⟨_, _, rfl, nofun⟩, fun _ _ => rfl⟩

theorem readsValue_emptyObject : ReadsValue [.openObject, .closeObject] (.object []) :=
  ⟨⟨_, _, rfl, nofun⟩, fun _ _ => rfl⟩

theorem ReadsItems.array (h : ReadsItems tokens items) :
    ReadsValue (.openArray :: (tokens ++ [.closeArray])) (.array items) where
  opens := ⟨_, _, rfl, nofun⟩
  run frames rest := by
    obtain ⟨t, later, rfl, ht⟩ := h.opens
    have hrun := h.run [] frames rest
    rw [List.cons_append, ← run_item ht] at hrun
    rw [List.cons_append, List.append_assoc]
    exact hrun

theorem ReadsMembers.object (h : ReadsMembers tokens members) :
    ReadsValue (.openObject :: (tokens ++ [.closeObject])) (close members.reverse) where
  opens := ⟨_, _, rfl, nofun⟩
  run frames rest := by
    obtain ⟨name, later, rfl⟩ := h.opens
    have hrun := h.run [] frames rest
    rw [List.append_nil] at hrun
    rw [List.cons_append, List.append_assoc]
    exact hrun

theorem ReadsValue.lastItem (h : ReadsValue tokens d) : ReadsItems tokens [d] where
  opens := h.opens
  run before frames rest := by
    rw [h.run, ← List.reverse_cons]
    rfl

theorem ReadsValue.consItem (h : ReadsValue tokens d) (hlater : ReadsItems later items) :
    ReadsItems (tokens ++ .comma :: later) (d :: items) where
  opens := by
    obtain ⟨t, more, rfl, ht⟩ := h.opens
    exact ⟨t, _, rfl, ht⟩
  run before frames rest := by
    have hnext := hlater.run (d :: before) frames rest
    rw [List.reverse_cons, List.append_assoc] at hnext
    rw [List.append_assoc, h.run]
    exact hnext

theorem ReadsValue.lastMember (h : ReadsValue tokens d) (name : Option String) :
    ReadsMembers (.string name :: .colon :: tokens) [(name, d)] where
  opens := ⟨_, _, rfl⟩
  run before frames rest := by
    have hvalue := h.run (.member before name :: frames) (.closeObject :: rest)
    exact hvalue

theorem ReadsValue.consMember (h : ReadsValue tokens d) (name : Option String)
    (hlater : ReadsMembers later members) :
    ReadsMembers (.string name :: .colon :: (tokens ++ .comma :: later)) ((name, d) :: members)
    where
  opens := ⟨_, _, rfl⟩
  run before frames rest := by
    have hnext := hlater.run ((name, d) :: before) frames rest
    have hvalue := h.run (.member before name :: frames)
      (.comma :: (later ++ .closeObject :: rest))
    rw [List.reverse_cons, List.append_assoc]
    rw [List.cons_append, List.cons_append, List.append_assoc]
    exact hvalue.trans hnext

/-- An object with a name that has no text has no value. -/
theorem close_nameless (h : (none, d) ∈ members) :
    close members.reverse = .defect .loneSurrogate := by
  have hnames : ∀ pick : Option String × Draft → Option (String × Draft),
      pick (none, d) = none → members.mapM pick = none := by
    intro pick hpick
    induction members with
    | nil => cases h
    | cons member members ih =>
      rcases List.mem_cons.mp h with rfl | h
      · simp [hpick]
      · simp [ih h]
  rw [close, List.reverse_reverse, hnames _ rfl]

theorem ReadsMembers.named {members : List (String × Draft)}
    (h : ReadsMembers tokens (members.map fun m => (some m.1, m.2))) :
    ReadsValue (.openObject :: (tokens ++ [.closeObject])) (.object members) :=
  close_named members ▸ h.object

theorem ReadsMembers.nameless (h : ReadsMembers tokens members) (hname : (none, d) ∈ members) :
    ReadsValue (.openObject :: (tokens ++ [.closeObject])) (.defect .loneSurrogate) :=
  close_nameless hname ▸ h.object

end Reading

/-! ## From texts to trees -/

namespace Draft

open Scan (Scans)
open Reading (ReadsValue ReadsItems ReadsMembers)

mutual

/-- A text that follows the grammar is cut into tokens that are read as what it says. -/
theorem Says.exists_tokens {text : List Char} {d : Draft} (h : Says text d) :
    ∃ tokens, Scans text tokens ∧ ReadsValue tokens d := by
  match h with
  | .null =>
    exact ⟨[.null], fun _ _ => Scan.tokens?_word ['l', 'l', 'u', 'n'] rfl,
      Reading.readsValue_leaf rfl⟩
  | .true =>
    exact ⟨[.bool true], fun _ _ => Scan.tokens?_word ['e', 'u', 'r', 't'] rfl,
      Reading.readsValue_leaf rfl⟩
  | .false =>
    exact ⟨[.bool false], fun _ _ => Scan.tokens?_word ['e', 's', 'l', 'a', 'f'] rfl,
      Reading.readsValue_leaf rfl⟩
  | @Says.number l _ h =>
    refine ⟨[.number (Number.ofLiteral? l)], fun _ _ => Scan.tokens?_literal h.read?, ?_⟩
    exact Reading.readsValue_leaf (by cases Number.ofLiteral? l <;> rfl)
  | @Says.string name _ h =>
    refine ⟨[.string name], fun before rest _ => h.tokens? before rest, ?_⟩
    exact Reading.readsValue_leaf (by cases name <;> rfl)
  | .emptyArray hgap =>
    exact ⟨_, (Scan.scans_gap hgap).between Scan.marks_openArray Scan.marks_closeArray,
      Reading.readsValue_emptyArray⟩
  | .array h =>
    obtain ⟨tokens, hscans, hreads⟩ := h.exists_tokens
    exact ⟨_, hscans.between Scan.marks_openArray Scan.marks_closeArray, hreads.array⟩
  | .emptyObject hgap =>
    exact ⟨_, (Scan.scans_gap hgap).between Scan.marks_openObject Scan.marks_closeObject,
      Reading.readsValue_emptyObject⟩
  | .object h =>
    obtain ⟨tokens, hscans, hreads⟩ := h.exists_tokens
    exact ⟨_, hscans.between Scan.marks_openObject Scan.marks_closeObject, hreads.named⟩
  | .nameless h hname =>
    obtain ⟨tokens, hscans, hreads⟩ := h.exists_tokens
    exact ⟨_, hscans.between Scan.marks_openObject Scan.marks_closeObject, hreads.nameless hname⟩
  | .spaced hbefore h hafter =>
    obtain ⟨tokens, hscans, hreads⟩ := h.exists_tokens
    exact ⟨tokens, hscans.spaced hbefore hafter, hreads⟩

theorem SaysItems.exists_tokens {text : List Char} {items : List Draft}
    (h : SaysItems text items) : ∃ tokens, Scans text tokens ∧ ReadsItems tokens items := by
  match h with
  | .last h =>
    obtain ⟨tokens, hscans, hreads⟩ := h.exists_tokens
    exact ⟨tokens, hscans, hreads.lastItem⟩
  | .cons h hlater =>
    obtain ⟨tokens, hscans, hreads⟩ := h.exists_tokens
    obtain ⟨later, hlaterScans, hlaterReads⟩ := hlater.exists_tokens
    exact ⟨_, hscans.append_cons Scan.marks_comma hlaterScans, hreads.consItem hlaterReads⟩

theorem SaysMembers.exists_tokens {text : List Char} {members : List (Option String × Draft)}
    (h : SaysMembers text members) : ∃ tokens, Scans text tokens ∧ ReadsMembers tokens members := by
  match h with
  | .last hkey h =>
    obtain ⟨tokens, hscans, hreads⟩ := h.exists_tokens
    exact ⟨_, (Scan.scans_name hkey).append_cons Scan.marks_colon hscans, hreads.lastMember _⟩
  | .cons hkey h hlater =>
    obtain ⟨tokens, hscans, hreads⟩ := h.exists_tokens
    obtain ⟨later, hlaterScans, hlaterReads⟩ := hlater.exists_tokens
    have hmembers := hscans.append_cons Scan.marks_comma hlaterScans
    exact ⟨_, (Scan.scans_name hkey).append_cons Scan.marks_colon hmembers,
      hreads.consMember _ hlaterReads⟩

end

/-- A text that follows the grammar is read as what it says, as far as it is not too deep. -/
theorem Says.ofText?_eq {text : String} {d : Draft} (h : Says text.toList d) :
    ofText? text = some (d.prune maxDepth) := by
  obtain ⟨tokens, hscans, hreads⟩ := h.exists_tokens
  have htokens : Token.ofText? text.toList = some tokens := by
    have hread := hscans [] [] trivial
    rw [List.append_nil, List.append_nil] at hread
    exact hread.trans (congrArg some (List.reverse_reverse _))
  have htree : ofTokens? tokens = some d := by
    have hread := hreads.run [] []
    rw [List.append_nil] at hread
    rw [ofTokens?, show tokens.foldlM Reading.step (.value []) = _ from hread]
    rfl
  rw [ofText?, htokens, Option.bind_some, htree, Option.map_some]

end Draft
end LabExchange
