import LabExchange.Json.Reader
import LabExchange.Json.Value
import LabExchange.Proofs.Json.Scanning

/-!
# Reading back what has been written

The tokens of a document are folded into the document again, whatever arrays and objects are open
around it. So the text of a document whose numbers read back is read as that document, except that
what lies too deep is marked as such. A document has a value after that if and only if it is not
deeper than there is room for.
-/
namespace LabExchange

/-! ## From tokens to trees -/

namespace Json

mutual

/-- A document as a draft without defects. -/
def draft : Json → Draft
  | .null => .null
  | .bool b => .bool b
  | .number n => .number n
  | .string s => .string s
  | .array items => .array (itemDrafts items)
  | .object members => .object (memberDrafts members)

def itemDrafts : List Json → List Draft
  | [] => []
  | item :: rest => draft item :: itemDrafts rest

def memberDrafts : List (String × Json) → List (String × Draft)
  | [] => []
  | (key, item) :: rest => (key, draft item) :: memberDrafts rest

end

end Json

namespace Reading

/-- Members that have been read, last first. -/
def named (members : List (String × Draft)) : List (Option String × Draft) :=
  (members.map fun m => (some m.1, m.2)).reverse

@[simp] theorem named_concat (members : List (String × Draft)) (key : String) (tree : Draft) :
    named (members ++ [(key, tree)]) = (some key, tree) :: named members := by
  simp [named]

@[simp] theorem close_named (members : List (String × Draft)) :
    close (named members) = .object members := by
  have hnames : ∀ pick : Option String × Draft → Option (String × Draft),
      (∀ key tree, pick (some key, tree) = some (key, tree)) →
        (members.map fun m => (some m.1, m.2)).mapM pick = some members := by
    intro pick hpick
    induction members with
    | nil => rfl
    | cons member members ih => simp [ih, hpick]
  simp only [close, named, List.reverse_reverse]
  rw [hnames _ fun _ _ => rfl]

/-- Reads tokens one after the other. -/
def run (r : Reading) (tokens : List Token) : Option Reading := tokens.foldlM step r

/-- The first item of an array is read as any value is, unless there is none. -/
theorem run_item {t : Token} (ht : t ≠ .closeArray) (frames : List Frame) (tokens : List Token) :
    run (.item frames) (t :: tokens) = run (.value (.items [] :: frames)) (t :: tokens) := by
  cases t <;> first | rfl | contradiction

end Reading

namespace Json

open Reading (run named)

/-- The tokens of a document begin with one that closes nothing. -/
theorem exists_tokens_eq (j : Json) : ∃ t rest, tokens j = t :: rest ∧ t ≠ .closeArray := by
  cases j with
  | array items => cases items <;> exact ⟨_, _, rfl, nofun⟩
  | object members => cases members <;> exact ⟨_, _, rfl, nofun⟩
  | bool | null | number | string => exact ⟨_, _, rfl, nofun⟩
  | defect reason => exact reason.elim

mutual

/-- The tokens of a document are read as the document. -/
theorem run_tokens (j : Json) (frames : List Frame) (rest : List Token) :
    run (.value frames) (tokens j ++ rest) = run (.next (draft j) frames) rest := by
  cases j with
  | null | bool | number | string => rfl
  | array items =>
    match items with
    | [] => rfl
    | item :: items =>
      obtain ⟨t, later, hitem, ht⟩ := exists_tokens_eq item
      have hopen : run (.value frames) (tokens (.array (item :: items)) ++ rest) =
          run (.item frames) (tokens item ++ (itemTokens items ++ .closeArray :: rest)) := by
        simp only [tokens, List.cons_append, List.append_assoc, List.nil_append]
        rfl
      rw [hopen, hitem, List.cons_append, Reading.run_item ht, ← List.cons_append, ← hitem,
        run_tokens item, run_itemTokens items]
      rfl
  | object members =>
    match members with
    | [] => rfl
    | (key, item) :: members =>
      have hopen : run (.value frames) (tokens (.object ((key, item) :: members)) ++ rest) =
          run (.value (.member (named []) (some key) :: frames))
            (tokens item ++ (memberTokens members ++ .closeObject :: rest)) := by
        simp only [tokens, List.cons_append, List.append_assoc, List.nil_append]
        rfl
      rw [hopen, run_tokens item, run_memberTokens members]
      rfl
  | defect reason => exact reason.elim

theorem run_itemTokens (items : List Json) (item : Draft) (before : List Draft)
    (frames : List Frame) (rest : List Token) :
    run (.next item (.items before :: frames)) (itemTokens items ++ .closeArray :: rest) =
      run (.next (.array ((item :: before).reverse ++ itemDrafts items)) frames) rest := by
  match items with
  | [] =>
    rw [itemDrafts, List.append_nil]
    rfl
  | next :: items =>
    have hcomma : run (.next item (.items before :: frames))
        (itemTokens (next :: items) ++ .closeArray :: rest) =
          run (.value (.items (item :: before) :: frames))
            (tokens next ++ (itemTokens items ++ .closeArray :: rest)) := by
      simp only [itemTokens, List.cons_append, List.append_assoc]
      rfl
    rw [hcomma, run_tokens next, run_itemTokens items]
    simp [itemDrafts]

theorem run_memberTokens (members : List (String × Json)) (key : String) (item : Draft)
    (before : List (String × Draft)) (frames : List Frame) (rest : List Token) :
    run (.next item (.member (named before) (some key) :: frames))
        (memberTokens members ++ .closeObject :: rest) =
      run (.next (.object (before ++ (key, item) :: memberDrafts members)) frames) rest := by
  match members with
  | [] =>
    have hclose := Reading.close_named (before ++ [(key, item)])
    rw [Reading.named_concat] at hclose
    rw [memberDrafts, ← hclose]
    rfl
  | (next, value) :: members =>
    have hcomma : run (.next item (.member (named before) (some key) :: frames))
        (memberTokens ((next, value) :: members) ++ .closeObject :: rest) =
          run (.value (.member (named (before ++ [(key, item)])) (some next) :: frames))
            (tokens value ++ (memberTokens members ++ .closeObject :: rest)) := by
      rw [Reading.named_concat]
      simp only [memberTokens, List.cons_append, List.append_assoc]
      rfl
    rw [hcomma, run_tokens value, run_memberTokens members]
    simp [memberDrafts]

end

@[simp] theorem ofTokens?_tokens (j : Json) : Draft.ofTokens? (tokens j) = some (draft j) := by
  have hread := run_tokens j [] []
  rw [List.append_nil] at hread
  simp only [Draft.ofTokens?]
  rw [show (tokens j).foldlM Reading.step (.value []) = _ from hread]
  rfl

/-- The text of a document, however it is laid out, is read as that document, as far as it is not
too deep. -/
theorem draftOfText?_write {layout : Layout} (hlayout : layout.IsBlank) {j : Json}
    (h : ∀ n ∈ j.numbers, n.ReadsBack) :
    Draft.ofText? (String.ofList (write layout 0 j)) =
      some ((draft j).prune Draft.maxDepth) := by
  have htokens : Token.ofText? (write layout 0 j) = _ := ofText?_write hlayout h
  simp only [Draft.ofText?, String.toList_ofList, htokens, Option.bind_some, ofTokens?_tokens,
    Option.map_some]

theorem draftOfText?_pretty {j : Json} (h : ∀ n ∈ j.numbers, n.ReadsBack) :
    Draft.ofText? (pretty j) = some ((draft j).prune Draft.maxDepth) :=
  draftOfText?_write Layout.isBlank_pretty h

end Json

/-! ## Depth -/

namespace Tree

variable {δ : Type}

mutual

/-- How many arrays and objects lie inside each other. -/
def depth : Tree δ → Nat
  | array items => itemDepth items + 1
  | object members => memberDepth members + 1
  | _ => 0

def itemDepth : List (Tree δ) → Nat
  | [] => 0
  | item :: rest => max (depth item) (itemDepth rest)

def memberDepth : List (String × Tree δ) → Nat
  | [] => 0
  | (_, item) :: rest => max (depth item) (memberDepth rest)

end

theorem itemDepth_le {items : List (Tree δ)} {room : Nat} :
    itemDepth items ≤ room ↔ ∀ t ∈ items, t.depth ≤ room := by
  induction items with
  | nil => simp [itemDepth]
  | cons item rest ih => rw [itemDepth, Nat.max_le, ih, List.forall_mem_cons]

theorem memberDepth_le {members : List (String × Tree δ)} {room : Nat} :
    memberDepth members ≤ room ↔ ∀ m ∈ members, m.2.depth ≤ room := by
  induction members with
  | nil => simp [memberDepth]
  | cons member rest ih => rw [memberDepth, Nat.max_le, ih, List.forall_mem_cons]

mutual

/-- Nothing is cut off that has room enough. -/
theorem prune_eq_self {t : Draft} {room : Nat} (h : t.depth ≤ room) : t.prune room = t := by
  cases t with
  | null | bool | number | string | defect => rfl
  | array items =>
    rw [depth] at h
    rw [prune, if_neg (by omega), pruneItems_eq_self (by omega)]
  | object members =>
    rw [depth] at h
    rw [prune, if_neg (by omega), pruneMembers_eq_self (by omega)]

theorem pruneItems_eq_self {items : List Draft} {room : Nat} (h : itemDepth items ≤ room) :
    pruneItems room items = items := by
  match items with
  | [] => rfl
  | item :: rest =>
    rw [itemDepth] at h
    rw [pruneItems, prune_eq_self (by omega), pruneItems_eq_self (by omega)]

theorem pruneMembers_eq_self {members : List (String × Draft)} {room : Nat}
    (h : memberDepth members ≤ room) : pruneMembers room members = members := by
  match members with
  | [] => rfl
  | (key, item) :: rest =>
    rw [memberDepth] at h
    rw [pruneMembers, prune_eq_self (by omega), pruneMembers_eq_self (by omega)]

end

mutual

/-- What is deeper than there is room for has no value. -/
theorem value?_prune_eq_none {t : Draft} {room : Nat} (h : room < t.depth) :
    (t.prune room).value? = none := by
  cases t with
  | null | bool | number | string | defect => simp [depth] at h
  | array items =>
    rw [depth] at h
    rw [prune]
    split
    · rfl
    · rw [value?, values?_pruneItems_eq_none (by omega)]
      rfl
  | object members =>
    rw [depth] at h
    rw [prune]
    split
    · rfl
    · rw [value?, memberValues?_pruneMembers_eq_none (by omega)]
      rfl

theorem values?_pruneItems_eq_none {items : List Draft} {room : Nat} (h : room < itemDepth items) :
    values? (pruneItems room items) = none := by
  match items with
  | [] => simp [itemDepth] at h
  | item :: rest =>
    have hdeep : room < item.depth ∨ room < itemDepth rest := by
      rw [itemDepth] at h
      omega
    rw [pruneItems, values?]
    rcases hdeep with h | h
    · rw [value?_prune_eq_none h]
      rfl
    · simp [values?_pruneItems_eq_none h]

theorem memberValues?_pruneMembers_eq_none {members : List (String × Draft)} {room : Nat}
    (h : room < memberDepth members) : memberValues? (pruneMembers room members) = none := by
  match members with
  | [] => simp [memberDepth] at h
  | (key, item) :: rest =>
    have hdeep : room < item.depth ∨ room < memberDepth rest := by
      rw [memberDepth] at h
      omega
    rw [pruneMembers, memberValues?]
    rcases hdeep with h | h
    · rw [value?_prune_eq_none h]
      rfl
    · simp [memberValues?_pruneMembers_eq_none h]

end

end Tree

/-! ## Values -/

namespace Json

mutual

/-- The document with the members of every object sorted. -/
def normal : Json → Json
  | .null => .null
  | .bool b => .bool b
  | .number n => .number n
  | .string s => .string s
  | .array items => .array (normalItems items)
  | .object members => .object (Tree.sorted (normalMembers members))

def normalItems : List Json → List Json
  | [] => []
  | item :: rest => normal item :: normalItems rest

def normalMembers : List (String × Json) → List (String × Json)
  | [] => []
  | (key, item) :: rest => (key, normal item) :: normalMembers rest

end

mutual

@[simp] theorem value?_draft (j : Json) : (draft j).value? = some (normal j) := by
  cases j with
  | null | bool | number | string => rfl
  | array items => rw [draft, Tree.value?, values?_itemDrafts items]; rfl
  | object members => rw [draft, Tree.value?, memberValues?_memberDrafts members]; rfl
  | defect reason => exact reason.elim

theorem values?_itemDrafts (items : List Json) :
    Tree.values? (itemDrafts items) = some (normalItems items) := by
  match items with
  | [] => rfl
  | item :: rest => rw [itemDrafts, Tree.values?, value?_draft item, values?_itemDrafts rest]; rfl

theorem memberValues?_memberDrafts (members : List (String × Json)) :
    Tree.memberValues? (memberDrafts members) = some (normalMembers members) := by
  match members with
  | [] => rfl
  | (key, item) :: rest =>
    rw [memberDrafts, Tree.memberValues?, value?_draft item, memberValues?_memberDrafts rest]; rfl

end

mutual

@[simp] theorem depth_draft (j : Json) : (draft j).depth = j.depth := by
  cases j with
  | null | bool | number | string => rfl
  | array items => rw [draft, Tree.depth, Tree.depth, itemDepth_itemDrafts items]
  | object members => rw [draft, Tree.depth, Tree.depth, memberDepth_memberDrafts members]
  | defect reason => exact reason.elim

theorem itemDepth_itemDrafts (items : List Json) :
    Tree.itemDepth (itemDrafts items) = Tree.itemDepth items := by
  match items with
  | [] => rfl
  | item :: rest =>
    rw [itemDrafts, Tree.itemDepth, Tree.itemDepth, depth_draft item, itemDepth_itemDrafts rest]

theorem memberDepth_memberDrafts (members : List (String × Json)) :
    Tree.memberDepth (memberDrafts members) = Tree.memberDepth members := by
  match members with
  | [] => rfl
  | (key, item) :: rest =>
    rw [memberDrafts, Tree.memberDepth, Tree.memberDepth, depth_draft item,
      memberDepth_memberDrafts rest]

end

/-- A document has a value when it has been written and read if it is not too deep, and then it is
the sorted document. -/
theorem ofText?_write_eq {layout : Layout} (hlayout : layout.IsBlank) {j : Json}
    (h : ∀ n ∈ j.numbers, n.ReadsBack) :
    ofText? (String.ofList (write layout 0 j)) =
      if j.depth ≤ Draft.maxDepth then some (normal j) else none := by
  rw [ofText?, draftOfText?_write hlayout h, Option.bind_some]
  split
  · next hdepth => rw [Tree.prune_eq_self (by rwa [depth_draft]), value?_draft]
  · next hdepth => rw [Tree.value?_prune_eq_none (by rwa [depth_draft, ← not_le])]

theorem ofText?_pretty_eq {j : Json} (h : ∀ n ∈ j.numbers, n.ReadsBack) :
    ofText? (pretty j) = if j.depth ≤ Draft.maxDepth then some (normal j) else none :=
  ofText?_write_eq Layout.isBlank_pretty h

theorem ofText?_compact_eq {j : Json} (h : ∀ n ∈ j.numbers, n.ReadsBack) :
    ofText? (compact j) = if j.depth ≤ Draft.maxDepth then some (normal j) else none :=
  ofText?_write_eq Layout.isBlank_compact h

end Json
end LabExchange
