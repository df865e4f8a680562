import LabExchange.Proofs.Hub.FlatList
import LabExchange.Proofs.Hub.Merging

/-!
# Queries as narrowed listings

A query sifts the entries before it sorts them. As the sort leaves ties in order, this comes to the
same as sifting the listing of all entries, and each criterion can be put to an entry by itself.
-/
namespace LabExchange

/-! ## Sorting -/

/-- A listing falls into the entries that another one may not stand before and those that it may.
Given before all of them, it comes to stand between the two. -/
theorem newestFirst_cons (e : Entry) (l : List Entry) :
    newestFirst l = (newestFirst l).filter (!e.isNewer ·) ++ (newestFirst l).filter e.isNewer ∧
      newestFirst (e :: l) =
        (newestFirst l).filter (!e.isNewer ·) ++ e :: (newestFirst l).filter e.isNewer := by
  obtain ⟨ahead, behind, hcons, hl, hahead⟩ :=
    List.mergeSort_cons Entry.isNewer_trans Entry.isNewer_total e l
  have hsorted := List.pairwise_mergeSort Entry.isNewer_trans Entry.isNewer_total (e :: l)
  rw [hcons] at hsorted
  have hbehind : ∀ f ∈ behind, e.isNewer f = true :=
    (List.pairwise_cons.mp (List.pairwise_append.mp hsorted).2.1).1
  have hnot : ∀ f ∈ ahead, ¬e.isNewer f = true := by simpa using hahead
  have hnot' : ∀ f ∈ behind, ¬(!e.isNewer f) = true := by simpa using hbehind
  have hfirst : (newestFirst l).filter (!e.isNewer ·) = ahead := by
    rw [newestFirst, hl, List.filter_append, List.filter_eq_self.mpr hahead,
      List.filter_eq_nil_iff.mpr hnot', List.append_nil]
  have hsecond : (newestFirst l).filter e.isNewer = behind := by
    rw [newestFirst, hl, List.filter_append, List.filter_eq_nil_iff.mpr hnot,
      List.filter_eq_self.mpr hbehind, List.nil_append]
  rw [hfirst, hsecond]
  exact ⟨hl, hcons⟩

/-- It makes no difference whether entries are sifted before they are sorted or after. -/
theorem newestFirst_filter (p : Entry → Bool) (l : List Entry) :
    newestFirst (l.filter p) = (newestFirst l).filter p := by
  induction l with
  | nil => simp [newestFirst]
  | cons e l ih =>
    obtain ⟨hl, hcons⟩ := newestFirst_cons e l
    by_cases he : p e = true
    · have hswap : ∀ q : Entry → Bool,
          ((newestFirst l).filter p).filter q = ((newestFirst l).filter q).filter p := by
        intro q
        rw [List.filter_filter, List.filter_filter]
        exact List.filter_congr fun f _ => Bool.and_comm _ _
      rw [List.filter_cons_of_pos he, (newestFirst_cons e _).2, ih, hswap, hswap, hcons,
        List.filter_append, List.filter_cons_of_pos he]
    · rw [List.filter_cons_of_neg he, ih, hcons, List.filter_append, List.filter_cons_of_neg he,
        ← List.filter_append, ← hl]

/-- Of two entries in a listing the first one stands higher, or they tie and it was given first. -/
theorem pairwise_newestFirst_stable (l : List Entry) :
    (newestFirst l).Pairwise fun a b =>
      ¬IsAhead b.rank a.rank ∨ a.rank = b.rank ∧ [a, b].Sublist l := by
  induction l with
  | nil => simp [newestFirst]
  | cons e l ih =>
    obtain ⟨hl, hcons⟩ := newestFirst_cons e l
    have hold : (newestFirst l).Pairwise fun a b =>
        ¬IsAhead b.rank a.rank ∨ a.rank = b.rank ∧ [a, b].Sublist (e :: l) :=
      ih.imp (Or.imp_right (And.imp_right (List.Sublist.cons e)))
    rw [hl] at hold
    rw [hcons]
    obtain ⟨hahead, hbehind, hacross⟩ := List.pairwise_append.mp hold
    refine List.pairwise_append.mpr ⟨hahead, List.pairwise_cons.mpr ⟨fun f hf => ?_, hbehind⟩,
      fun a ha => List.forall_mem_cons.mpr ⟨.inl ?_, hacross a ha⟩⟩
    · obtain ⟨hf, hnewer⟩ := List.mem_filter.mp hf
      by_cases hback : IsAhead f.rank e.rank
      · refine .inr ⟨isAhead_antisymm (Entry.isNewer_iff.mp hnewer) hback, ?_⟩
        exact (List.singleton_sublist.mpr (mem_newestFirst.mp hf)).cons_cons e
      · exact .inl hback
    · have hnot := (List.mem_filter.mp ha).2
      rw [Bool.not_eq_true', ← Bool.not_eq_true, Entry.isNewer_iff] at hnot
      exact hnot

/-- Something of one rank does not stand behind something of another exactly if it is later, or of
the same time and has the higher number. -/
theorem not_isAhead_iff {p q : Timestamp × UInt64} :
    ¬IsAhead q p ↔ q.1.key < p.1.key ∨ p.1 = q.1 ∧ q.2 < p.2 := by
  rw [IsAhead, not_or, not_and, Int.not_lt, UInt64.not_le]
  constructor
  · rintro ⟨hle, hlt⟩
    rcases Int.lt_or_eq_of_le hle with h | h
    · exact .inl h
    · exact .inr ⟨Timestamp.key_inj.mp h.symm, hlt h.symm⟩
  · rintro (h | ⟨h, hlt⟩)
    · exact ⟨Int.le_of_lt h, fun heq => absurd heq (Int.ne_of_gt h)⟩
    · exact ⟨Int.le_of_eq (congrArg Timestamp.key h).symm, fun _ => hlt⟩

/-! ## The order of a listing -/

/-- Two items that stand in two lists put together stand both in one of them, or one in each. -/
theorem pair_sublist_append {α : Type} {l l' : List α} {x y : α} (h : [x, y].Sublist (l ++ l')) :
    [x, y].Sublist l ∨ [x, y].Sublist l' ∨ x ∈ l ∧ y ∈ l' := by
  obtain ⟨front, back, heq, hfront, hback⟩ := List.sublist_append_iff.mp h
  rcases front with _ | ⟨z, _ | ⟨w, rest⟩⟩
  · obtain rfl : [x, y] = back := heq
    exact .inr (.inl hback)
  · obtain ⟨rfl, rfl⟩ : x = z ∧ [y] = back := by simpa using heq
    exact .inr (.inr ⟨List.singleton_sublist.mp hfront, List.singleton_sublist.mp hback⟩)
  · obtain ⟨rfl, rfl, rfl, rfl⟩ : x = z ∧ y = w ∧ rest = [] ∧ back = [] := by simpa using heq
    exact .inl hfront

/-- Of two items that stand in lists put together, the first one is in an earlier list or before
the other one in the same. -/
theorem pair_sublist_flatMap {α β : Type} {g : α → List β} {l : List α} {x y : β}
    (h : [x, y].Sublist (l.flatMap g)) :
    (∃ a ∈ l, [x, y].Sublist (g a)) ∨ ∃ a b, [a, b].Sublist l ∧ x ∈ g a ∧ y ∈ g b := by
  induction l with
  | nil => cases h
  | cons a l ih =>
    rw [List.flatMap_cons] at h
    rcases pair_sublist_append h with hown | hrest | ⟨hx, hrest⟩
    · exact .inl ⟨a, List.mem_cons_self, hown⟩
    · rcases ih hrest with ⟨b, hb, hsub⟩ | ⟨b, c, hsub, hx, hy⟩
      · exact .inl ⟨b, List.mem_cons_of_mem a hb, hsub⟩
      · exact .inr ⟨b, c, hsub.cons a, hx, hy⟩
    · obtain ⟨b, hb, hy⟩ := List.mem_flatMap.mp hrest
      exact .inr ⟨a, b, (List.singleton_sublist.mpr hb).cons_cons a, hx, hy⟩

/-- The order of a listing: the latest first, of those the highest number, and in a tie the order
of the categories and then that in which the entries came. -/
inductive FlatHub.Precedes (f : FlatHub) (a b : Entry) : Prop
  | later (time : b.metadata.timestamp.key < a.metadata.timestamp.key)
  | higher (time : a.metadata.timestamp = b.metadata.timestamp) (number : b.sequence < a.sequence)
  | category (tie : a.rank = b.rank) (category : a.category.index < b.category.index)
  | earlier (tie : a.rank = b.rank) (category : a.category = b.category)
      (came : [a, b].Sublist f.entries)

theorem Category.index_lt {c d : Category} (h : [c, d].Sublist all) : c.index < d.index := by
  have hall : all.Pairwise fun c d => c.index < d.index := by decide
  exact List.rel_of_pairwise_cons (hall.sublist h) (List.mem_singleton_self d)

namespace Store

variable {s : Store} {f : FlatHub}

/-- In the whole of a filing, entries are in the order of their categories, and in each in that in
which they came. -/
theorem IsFilingOf.precedes_of_tie (h : s.IsFilingOf f) {a b : Entry} (htie : a.rank = b.rank)
    (hsub : [a, b].Sublist s.toList) : f.Precedes a b := by
  rcases pair_sublist_flatMap hsub with ⟨c, -, hown⟩ | ⟨c, d, hcd, ha, hb⟩
  · have ha := h.category_eq (hown.subset List.mem_cons_self)
    have hb := h.category_eq (hown.subset (List.mem_cons_of_mem a (List.mem_singleton_self b)))
    have hlist : s.lists.get c = f.own c := h.entries c
    rw [hlist] at hown
    exact .earlier htie (ha.trans hb.symm) (hown.trans List.filter_sublist)
  · refine .category htie ?_
    rw [h.category_eq ha, h.category_eq hb]
    exact Category.index_lt hcd

theorem IsFilingOf.pairwise_precedes (h : s.IsFilingOf f) :
    (newestFirst s.toList).Pairwise f.Precedes := by
  refine (pairwise_newestFirst_stable s.toList).imp fun hstands => ?_
  rcases hstands with hahead | ⟨htie, hsub⟩
  · rcases not_isAhead_iff.mp hahead with htime | ⟨htime, hnumber⟩
    · exact .later htime
    · exact .higher htime hnumber
  · exact h.precedes_of_tie htie hsub

end Store

/-! ## Criteria -/

/-- One criterion of a filter. -/
inductive Criterion where
  | category (c : Category)
  | sourceTab (tab : String)
  | nameContains (text : String)
  | since (t : Timestamp)
  | rows (n : Nat)
  | cols (n : Nat)
  | field (key : String) (wanted : Value)

namespace Criterion

/-- The filter that has this criterion alone. -/
def filter : Criterion → EntryFilter
  | category c => .ofCategory c
  | sourceTab tab => .ofSourceTab tab
  | nameContains text => .ofName text
  | since t => { EntryFilter.any with since := some t }
  | rows n => { EntryFilter.any with rows := some n }
  | cols n => { EntryFilter.any with cols := some n }
  | field key wanted => { EntryFilter.any with fields := [(key, wanted)] }

/-- What the criterion asks of an entry. -/
def IsMetBy (e : Entry) : Criterion → Prop
  | category c => e.category = c
  | sourceTab tab => e.sourceTab = tab
  | nameContains text => Text.occursIgnoringCase text e.metadata.name = true
  | since t => t.key ≤ e.metadata.timestamp.key
  | rows n => ∃ cols, e.payload.dimensions = some (n, cols)
  | cols n => ∃ rows, e.payload.dimensions = some (rows, n)
  | field key wanted => ∃ stored, e.metadata.extra.get? key = some stored ∧
      EntryFilter.fieldMatches stored wanted.json = true

end Criterion

namespace EntryFilter

/-- The criteria of a filter that are set. -/
def criteria (f : EntryFilter) : List Criterion :=
  (f.category.map Criterion.category).toList ++ (f.sourceTab.map Criterion.sourceTab).toList ++
    (f.nameContains.map Criterion.nameContains).toList ++ (f.since.map Criterion.since).toList ++
    ((f.rows.map Criterion.rows).toList ++ (f.cols.map Criterion.cols).toList) ++
    f.fields.map fun field => .field field.1 field.2

variable {e : Entry}

theorem all_iff {α : Type} {o : Option α} {p : α → Bool} {g : α → Criterion}
    (h : ∀ a, p a = true ↔ (g a).IsMetBy e) :
    o.all p = true ↔ ∀ c ∈ (o.map g).toList, c.IsMetBy e := by
  cases o <;> simp [h]

/-- Rows and columns are looked up once, but each is a criterion of its own. -/
theorem shapeMatches_iff {rows cols : Option Nat} :
    shapeMatches rows cols e = true ↔
      (∀ c ∈ (rows.map Criterion.rows).toList, c.IsMetBy e) ∧
        ∀ c ∈ (cols.map Criterion.cols).toList, c.IsMetBy e := by
  cases h : e.payload.dimensions with
  | none => cases rows <;> cases cols <;> simp [shapeMatches, Criterion.IsMetBy, h]
  | some shape =>
    obtain ⟨r, c⟩ := shape
    have hrows : rows.all (· == r) = true ↔
        ∀ c ∈ (rows.map Criterion.rows).toList, c.IsMetBy e :=
      all_iff fun n => by simpa [Criterion.IsMetBy, h] using eq_comm
    have hcols : cols.all (· == c) = true ↔
        ∀ c ∈ (cols.map Criterion.cols).toList, c.IsMetBy e :=
      all_iff fun n => by simpa [Criterion.IsMetBy, h] using eq_comm
    rw [← hrows, ← hcols, ← Bool.and_eq_true, shapeMatches, h]
    cases rows <;> cases cols <;> simp

theorem hasFields_iff {fields : List (String × Value)} :
    hasFields fields e = true ↔
      ∀ c ∈ fields.map fun field => Criterion.field field.1 field.2, c.IsMetBy e := by
  rw [hasFields, List.all_eq_true, List.forall_mem_map]
  refine forall₂_congr fun field _ => ?_
  cases h : e.metadata.extra.get? field.1 <;> simp [Criterion.IsMetBy, h]

/-- An entry is accepted exactly if it meets each criterion that is set. -/
theorem accepts_iff {f : EntryFilter} : f.accepts e = true ↔ ∀ c ∈ f.criteria, c.IsMetBy e := by
  have hcategory : ∀ c : Category, (c == e.category) = true ↔ (Criterion.category c).IsMetBy e :=
    fun c => beq_iff_eq.trans eq_comm
  have htab : ∀ tab : String, (tab == e.sourceTab) = true ↔ (Criterion.sourceTab tab).IsMetBy e :=
    fun tab => beq_iff_eq.trans eq_comm
  have hname : ∀ text : String, Text.occursIgnoringCase text e.metadata.name = true ↔
      (Criterion.nameContains text).IsMetBy e := fun text => Iff.rfl
  have hsince : ∀ t : Timestamp, decide (t.key ≤ e.metadata.timestamp.key) = true ↔
      (Criterion.since t).IsMetBy e := fun t => decide_eq_true_iff
  simp only [accepts, criteria, Bool.and_eq_true, List.forall_mem_append]
  exact and_congr (and_congr (and_congr (and_congr (and_congr (all_iff hcategory) (all_iff htab))
    (all_iff hname)) (all_iff hsince)) shapeMatches_iff) hasFields_iff

/-- A filter with one criterion accepts what meets it. -/
theorem accepts_filter_iff {c : Criterion} : c.filter.accepts e = true ↔ c.IsMetBy e := by
  have hcriteria : c.filter.criteria = [c] := by cases c <;> rfl
  rw [accepts_iff, hcriteria, List.forall_mem_singleton]

/-- A filter accepts what each of its criteria accepts as a filter by itself. -/
theorem accepts_eq_all (f : EntryFilter) (e : Entry) :
    f.accepts e = f.criteria.all (·.filter.accepts e) := by
  rw [Bool.eq_iff_iff, accepts_iff, List.all_eq_true]
  exact forall₂_congr fun c _ => accepts_filter_iff.symm

end EntryFilter

/-! ## Queries -/

namespace Store

variable {s : Store} {f : FlatHub}

/-- The entries that a filter accepts are listed as in the listing of all, without the others. -/
theorem query_eq_filter (s : Store) (filter : EntryFilter) :
    s.query filter = ((newestFirst s.toList).filter filter.accepts).map .ofEntry := by
  rw [query, newestFirst_filter]

/-- All listings of a hub are cut from one list of its entries. -/
structure ListsBy (s : Store) (f : FlatHub) (l : List Entry) : Prop where
  /-- Each entry stands in it once. -/
  perm : l.Perm s.toList
  nodup : (l.map (·.id)).Nodup
  ordered : l.Pairwise f.Precedes
  listAll : (s.answer .listAll).answer = l.map .ofEntry
  /-- A query keeps what each of its criteria by itself accepts. -/
  query : ∀ filter : EntryFilter, (s.answer (.query filter)).answer =
    (l.filter fun e => filter.criteria.all (·.filter.accepts e)).map .ofEntry
  search : ∀ text, (s.answer (.search text)).answer =
    (l.filter (Criterion.nameContains text).filter.accepts).map .ofEntry
  listBySource : ∀ tab, (s.answer (.listBySource tab)).answer =
    (l.filter (Criterion.sourceTab tab).filter.accepts).map .ofEntry

/-- The same by ids: those of a query are the ids of the listing of all without those of the entries
that are not accepted. -/
theorem ListsBy.ids {l : List Entry} (h : s.ListsBy f l) :
    s.listAll.map (·.id) = l.map (·.id) ∧ ∀ filter : EntryFilter,
      (s.query filter).map (·.id) = (l.filter filter.accepts).map (·.id) := by
  have hall : s.listAll = l.map .ofEntry := h.listAll
  have hquery : ∀ filter : EntryFilter, s.query filter =
      (l.filter fun e => filter.criteria.all (·.filter.accepts e)).map .ofEntry := h.query
  refine ⟨?_, fun filter => ?_⟩
  · rw [hall, List.map_map]
    rfl
  · have haccepts : filter.accepts = fun e => filter.criteria.all (·.filter.accepts e) :=
      funext filter.accepts_eq_all
    rw [hquery, haccepts, List.map_map]
    rfl

/-- A row leads to its entry: under its category and id the entry is found of which it is the
row. -/
theorem IsSound.find?_of_mem_listAll (hs : s.IsSound) {row : EntrySummary}
    (hrow : row ∈ s.listAll) :
    ∃ e, s.find? row.category row.id = some e ∧ EntrySummary.ofEntry e = row := by
  obtain ⟨e, he, rfl⟩ := List.mem_map.mp hrow
  have hmem : e ∈ s.toList := mem_newestFirst.mp he
  obtain ⟨c, hc⟩ := mem_toList.mp hmem
  obtain rfl := hs.filed c e hc
  refine ⟨e, ?_, rfl⟩
  change (s.entries e.category).find? (·.id == e.id) = some e
  exact (find?_id_eq_some (hs.entries_nodup _)).mpr ⟨hc, rfl⟩

end Store

/-- In every hub that has come from a new one, the listing of all entries has each of them once, the
newest first, and in a tie by category and then as they came. A query leaves only those in it that
meet each of its criteria, and what a criterion asks has nothing to do with the others. -/
theorem exists_listsBy (calls : List Call) :
    (∃ l, (Store.empty.afterCalls calls).ListsBy (FlatHub.empty.afterCalls calls) l) ∧
      ∀ (c : Criterion) (e : Entry), c.filter.accepts e = true ↔ c.IsMetBy e := by
  have hfiling := Store.IsFilingOf.empty.afterCalls .empty calls
  have hsound := Store.isSound_afterCalls calls
  have hperm := newestFirst_perm (Store.empty.afterCalls calls).toList
  refine ⟨⟨_, hperm, ?_, hfiling.pairwise_precedes, rfl, fun filter => ?_,
    fun text => Store.query_eq_filter _ _, fun tab => Store.query_eq_filter _ _⟩,
    fun c e => EntryFilter.accepts_filter_iff⟩
  · exact (hperm.map _).nodup_iff.mpr hsound.ids_nodup
  · have haccepts : filter.accepts = fun e => filter.criteria.all (·.filter.accepts e) :=
      funext filter.accepts_eq_all
    rw [← haccepts]
    exact Store.query_eq_filter _ filter

end LabExchange
