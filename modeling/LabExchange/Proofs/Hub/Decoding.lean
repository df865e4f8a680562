import LabExchange.Event
import LabExchange.Proofs.Hub.ReadEntries

/-!
# Decoding undoes encoding

What is encoded comes back from its generic value, in which the members of every object are sorted
and the last one of each name counts. Entries do so exactly if JSON can hold their payload and no
further field stands in the way of a fixed one; summaries and counts do if their numbers are words
of 64 bits; errors, scopes, kinds and categories always do.
-/
namespace LabExchange

open Json (normal)

/-- Something has a generic value, and is decoded from that as what was encoded. -/
def ComesBack {α : Type} (encode : α → Json) (decode? : Json → Option α) (a : α) : Prop :=
  ∃ value, Value.ofTree? (encode a) = some value ∧ decode? value.json = some a

/-- The generic value of a document is the sorted document. -/
theorem Value.ofTree?_normal (j : Json) :
    ofTree? j = some ⟨normal j, Json.sorted_normal j⟩ := by
  unfold ofTree?
  split
  · next json hjson =>
    obtain rfl := Option.some.inj ((Tree.value?_eq j).symm.trans hjson)
    rfl
  · next hnone => simp at hnone

theorem comesBack_iff {α : Type} {encode : α → Json} {decode? : Json → Option α} {a : α} :
    ComesBack encode decode? a ↔ decode? (normal (encode a)) = some a := by
  rw [ComesBack, Value.ofTree?_normal]
  constructor
  · rintro ⟨value, hvalue, hdecode⟩
    obtain rfl := Option.some.inj hvalue
    exact hdecode
  · exact fun hdecode => ⟨_, rfl, hdecode⟩

/-! ## Names and variants -/

@[simp] theorem EventKind.ofName?_name (k : EventKind) : ofName? k.name = some k := by
  cases k <;> rfl

@[simp] theorem EventKind.ofTree?_normal (k : EventKind) : ofTree? (normal k.toJson) = some k :=
  k.ofName?_name

theorem Tree.variant?_normal (name : String) (content : Json) :
    (normal (.object [(name, content)])).variant? = some (name, some (normal content)) := rfl

theorem Tree.fields?_of_mem {δ : Type} {members : List (String × Tree δ)} {name : String}
    {t : Tree δ} (hnodup : (members.map Prod.fst).Nodup) (h : (name, t) ∈ members) :
    (object members).fields? [name] 0 = some [some t] := by
  simp [fields?, field?_of_mem hnodup h]

@[simp] theorem ClearScope.ofTree?_normal (scope : ClearScope) :
    ofTree? (normal scope.toJson) = some scope := by
  cases scope with
  | category c =>
    rw [toJson, ofTree?, Tree.variant?_normal]
    exact congrArg (Option.map category) c.ofTree?_normal
  | all => rfl

@[simp] theorem HubError.ofTree?_normal (e : HubError) :
    ofTree? false (normal e.toJson) = some e := by
  cases e with
  | unknownCategory name => rfl
  | payloadMismatch category payload =>
    let members := [("category", category.toJson), ("payload", payload.toJson)]
    have hfields : (normal (.object members)).fields? ["category", "payload"] 0 = _ :=
      Tree.fields?_normal_record members 0 (by simp [members])
    have hobject : normal (.object members) =
        .object (Tree.sorted (Json.normalMembers members)) := rfl
    rw [hobject] at hfields
    rw [toJson, ofTree?, Tree.variant?_normal, hobject]
    simp only [code, hfields, members, List.map_cons, List.map_nil, Category.ofTree?_normal]
    rfl
  | nonFiniteValue category =>
    rw [toJson, ofTree?, Tree.variant?_normal]
    exact congrArg (Option.map nonFiniteValue) category.ofTree?_normal

/-! ## Summaries -/

theorem Number.lt_of_toNat? {bound n : Nat} {number : Number} (h : number.toNat? bound = some n) :
    n < bound := by
  cases number with
  | integer value inRange =>
    simp only [toNat?, Option.ite_none_right_eq_some, Option.some.injEq] at h
    omega
  | double value finite => cases h

theorem Tree.lt_of_asNat? {δ : Type} {t : Tree δ} {bound n : Nat} (h : t.asNat? bound = some n) :
    n < bound := by
  cases t with
  | number value => exact value.lt_of_toNat? h
  | _ => cases h

theorem Tree.of_mem_asOption? {δ α : Type} {some? : Tree δ → Option α} {t : Tree δ} {o : Option α}
    (h : t.asOption? some? = some o) : ∀ a ∈ o, some? t = some a := by
  unfold asOption? at h
  split at h
  · obtain rfl := Option.some.inj h
    nofun
  · obtain ⟨a, ha, rfl⟩ := Option.map_eq_some_iff.mp h
    exact fun b hb => Option.some.inj hb ▸ ha

namespace EntrySummary

/-- The dimensions, if there are any, are words of 64 bits. -/
def IsSized (s : EntrySummary) : Prop :=
  ∀ d ∈ s.dimensions, d.1 < UInt64.size ∧ d.2 < UInt64.size

theorem normal_dimensionsJson (d : Nat × Nat) :
    normal (dimensionsJson d) = .array [normal (Json.ofNat d.1), normal (Json.ofNat d.2)] := by
  rw [dimensionsJson, normal, Json.normalItems_eq, List.map_cons, List.map_singleton]

theorem asOption?_dimensions {s : EntrySummary} (h : s.IsSized) :
    (normal (Json.ofOption dimensionsJson s.dimensions)).asOption? dimensions? =
      some s.dimensions := by
  cases hd : s.dimensions with
  | none => rfl
  | some d =>
    obtain ⟨hrows, hcols⟩ := h d hd
    simp only [Json.ofOption, normal_dimensionsJson, Tree.asOption?, dimensions?,
      Json.asNat?_normal_ofNat hrows, Json.asNat?_normal_ofNat hcols]
    rfl

theorem ofTree?_normal {s : EntrySummary} (h : s.IsSized) :
    ofTree? (normal s.toJson) = some s := by
  have hfields : (normal s.toJson).fields? ["id", "category", "name", "source_tab", "timestamp",
      "description", "dimensions"] 0 = _ := Tree.fields?_normal_record _ 0 (by simp)
  simp only [List.map_cons, List.map_nil] at hfields
  simp [ofTree?, hfields, asOption?_dimensions h, EntryId.ofTree?, EntryId.toJson, normal,
    Tree.asString?]

theorem isSized_of_dimensions? {δ : Type} {t : Tree δ} {d : Nat × Nat}
    (h : dimensions? t = some d) : d.1 < UInt64.size ∧ d.2 < UInt64.size := by
  unfold dimensions? at h
  split at h
  · obtain ⟨rows, hrows, h⟩ := Option.bind_eq_some_iff.mp h
    obtain ⟨cols, hcols, h⟩ := Option.bind_eq_some_iff.mp h
    obtain rfl := Option.some.inj h
    exact ⟨Tree.lt_of_asNat? hrows, Tree.lt_of_asNat? hcols⟩
  · cases h

theorem isSized_of_ofTree? {δ : Type} {t : Tree δ} {s : EntrySummary} (h : ofTree? t = some s) :
    s.IsSized := by
  unfold ofTree? at h
  split at h
  · simp only [bind, Option.bind_eq_some_iff, pure, Option.some.injEq] at h
    obtain ⟨_, -, _, -, _, -, _, -, _, -, _, -, dimensions, hdimensions, rfl⟩ := h
    exact fun d hd => isSized_of_dimensions? (Tree.of_mem_asOption? hdimensions d hd)
  · cases h

end EntrySummary

/-! ## Counts -/

namespace CategoryCounts

/-- The numbers are words of 64 bits. -/
structure IsSized (counts : CategoryCounts) : Prop where
  byCategory : ∀ c, ∀ n ∈ counts.byCategory.get c, n < UInt64.size
  total : counts.total < UInt64.size

/-- The members for the categories that are not left out. -/
def members (counts : CategoryCounts) : List (String × Json) :=
  Category.all.filterMap fun c => (counts.byCategory.get c).map fun n => (c.name, Json.ofNat n)

theorem mem_members {counts : CategoryCounts} {m : String × Json} :
    m ∈ counts.members ↔ ∃ c, ∃ n ∈ counts.byCategory.get c, (c.name, Json.ofNat n) = m := by
  simp only [members, List.mem_filterMap, Category.mem_all, true_and, Option.map_eq_some_iff,
    Option.mem_def]

theorem name_ne_total (c : Category) : c.name ≠ "total" := by cases c <;> decide

/-- Every category stands for itself, and the total is none of them. -/
theorem nodup_members (counts : CategoryCounts) :
    ((counts.members ++ [("total", Json.ofNat counts.total)]).map Prod.fst).Nodup := by
  have hnames : (counts.members.map Prod.fst).Nodup := by
    refine List.pairwise_map.mpr (List.pairwise_filterMap.mpr (Category.nodup_all.imp ?_))
    intro c d hcd m hm m' hm'
    obtain ⟨n, -, rfl⟩ := Option.map_eq_some_iff.mp hm
    obtain ⟨n', -, rfl⟩ := Option.map_eq_some_iff.mp hm'
    exact fun hname => hcd (Category.name_inj.mp hname)
  rw [List.map_append, List.nodup_append']
  refine ⟨hnames, List.nodup_singleton _, fun name hname htotal => ?_⟩
  obtain ⟨m, hm, rfl⟩ := List.mem_map.mp hname
  obtain ⟨c, n, -, rfl⟩ := mem_members.mp hm
  exact name_ne_total c (List.mem_singleton.mp htotal)

variable {δ : Type} {members : List (String × Tree δ)}

theorem byCategory?_total (done : PerCategory (Option Nat)) (t : Tree δ) :
    byCategory? done (("total", t) :: members) = byCategory? done members := by
  rw [byCategory?, if_pos rfl]

theorem byCategory?_name (done : PerCategory (Option Nat)) (c : Category) (t : Tree δ) :
    byCategory? done ((c.name, t) :: members) =
      (t.asNat? UInt64.size).bind fun n => byCategory? (done.set c (some n)) members := by
  rw [byCategory?, if_neg (name_ne_total c), Category.ofName?_name]
  rfl

/-- Counts under the names of different categories are taken over, and the others stay. -/
theorem exists_byCategory? (hkeys : (members.map Prod.fst).Nodup)
    (hmembers : ∀ m ∈ members, m.1 = "total" ∨
      ∃ c n, Category.name c = m.1 ∧ m.2.asNat? UInt64.size = some n)
    (done : PerCategory (Option Nat)) :
    ∃ counts, byCategory? done members = some counts ∧
      (∀ c t n, (c.name, t) ∈ members → t.asNat? UInt64.size = some n →
        counts.get c = some n) ∧
      ∀ c, c.name ∉ members.map Prod.fst → counts.get c = done.get c := by
  induction members generalizing done with
  | nil => exact ⟨done, rfl, by simp, fun _ _ => rfl⟩
  | cons member rest ih =>
    obtain ⟨hmember, hrest⟩ := List.forall_mem_cons.mp hmembers
    rw [List.map_cons, List.nodup_cons] at hkeys
    obtain ⟨name, u⟩ := member
    rcases hmember with rfl | ⟨d, k, rfl, hk⟩
    · obtain ⟨counts, hcounts, hgiven, hleft⟩ := ih hkeys.2 hrest done
      refine ⟨counts, by rw [byCategory?_total, hcounts], fun c t n hmem hn => ?_,
        fun c hc => hleft c fun hmem => hc (List.mem_cons_of_mem _ hmem)⟩
      rcases List.mem_cons.mp hmem with hhead | hmem
      · exact absurd (Prod.mk.inj hhead).1 (name_ne_total c)
      · exact hgiven c t n hmem hn
    · obtain ⟨counts, hcounts, hgiven, hleft⟩ := ih hkeys.2 hrest (done.set d (some k))
      refine ⟨counts, ?_, fun c t n hmem hn => ?_, fun c hc => ?_⟩
      · rw [byCategory?_name, hk, Option.bind_some, hcounts]
      · rcases List.mem_cons.mp hmem with hhead | hmem
        · obtain ⟨hname, rfl⟩ := Prod.mk.inj hhead
          obtain rfl := Category.name_inj.mp hname
          rw [hleft c hkeys.1, PerCategory.get_set, if_pos rfl, ← hk, hn]
        · exact hgiven c t n hmem hn
      · rw [List.map_cons, List.mem_cons, not_or] at hc
        rw [hleft c hc.2, PerCategory.get_set, if_neg fun h => hc.1 (congrArg Category.name h)]

/-- The members of the sorted document. -/
def sortedMembers (counts : CategoryCounts) : List (String × Json) :=
  Tree.sorted (Json.normalMembers (counts.members ++ [("total", Json.ofNat counts.total)]))

theorem normal_toJson (counts : CategoryCounts) :
    normal counts.toJson = .object counts.sortedMembers := rfl

theorem nodup_sortedMembers (counts : CategoryCounts) :
    (counts.sortedMembers.map Prod.fst).Nodup := (Tree.keysIncrease_sorted _).nodup

theorem mem_sortedMembers {counts : CategoryCounts} {name : String} {t : Json} :
    (name, t) ∈ counts.sortedMembers ↔
      (∃ c, ∃ n ∈ counts.byCategory.get c, c.name = name ∧ normal (Json.ofNat n) = t) ∨
        "total" = name ∧ normal (Json.ofNat counts.total) = t := by
  simp only [sortedMembers, (Json.normal_object_perm counts.nodup_members).mem_iff,
    List.map_append, List.mem_append, List.map_singleton, List.mem_singleton, List.mem_map,
    mem_members, Prod.mk.injEq]
  -- the numbers must stay closed, since a bound of theirs is too large to count up to
  generalize Json.ofNat = f, normal = g
  refine or_congr ⟨?_, ?_⟩ ?_
  · rintro ⟨_, ⟨c, n, hn, rfl⟩, hname, ht⟩
    exact ⟨c, n, hn, hname, ht⟩
  · rintro ⟨c, n, hn, hname, ht⟩
    exact ⟨(c.name, f n), ⟨c, n, hn, rfl⟩, hname, ht⟩
  · exact and_congr eq_comm eq_comm

/-- The counts of the categories come back, and a category that was left out stays out. -/
theorem byCategory?_sortedMembers {counts : CategoryCounts} (h : counts.IsSized) :
    byCategory? (.ofFn fun _ => none) counts.sortedMembers = some counts.byCategory := by
  have hread : ∀ m ∈ counts.sortedMembers, m.1 = "total" ∨
      ∃ c n, Category.name c = m.1 ∧ m.2.asNat? UInt64.size = some n := by
    rintro ⟨name, t⟩ hm
    rcases mem_sortedMembers.mp hm with ⟨c, n, hn, hname, ht⟩ | ⟨hname, -⟩
    · have hnat := Json.asNat?_normal_ofNat (h.byCategory c n hn)
      rw [ht] at hnat
      exact .inr ⟨c, n, hname, hnat⟩
    · exact .inl hname.symm
  obtain ⟨byCategory, hdecoded, hgiven, hleft⟩ :=
    exists_byCategory? counts.nodup_sortedMembers hread (.ofFn fun _ => none)
  have hsame : byCategory = counts.byCategory := by
    refine PerCategory.ext_get fun c => ?_
    cases hc : counts.byCategory.get c with
    | some n =>
      have hmember := mem_sortedMembers.mpr (.inl ⟨c, n, hc, rfl, rfl⟩)
      exact hgiven c _ n hmember (Json.asNat?_normal_ofNat (h.byCategory c n hc))
    | none =>
      have hout : c.name ∉ counts.sortedMembers.map Prod.fst := by
        intro hname
        obtain ⟨⟨name, t⟩, hm, hname⟩ := List.mem_map.mp hname
        rcases mem_sortedMembers.mp hm with ⟨d, n, hn, hd, -⟩ | ⟨htotal, -⟩
        · obtain rfl := Category.name_inj.mp (hd.trans hname)
          cases hc.symm.trans hn
        · exact name_ne_total c (htotal.trans hname).symm
      rw [hleft c hout, PerCategory.get_ofFn]
  rw [hdecoded, hsame]

theorem ofTree?_normal {counts : CategoryCounts} (h : counts.IsSized) :
    ofTree? (normal counts.toJson) = some counts := by
  have hmember : ("total", normal (Json.ofNat counts.total)) ∈ counts.sortedMembers :=
    mem_sortedMembers.mpr (.inr ⟨Eq.refl _, Eq.refl _⟩)
  have htotal := Tree.fields?_of_mem counts.nodup_sortedMembers hmember
  simp only [normal_toJson, ofTree?, htotal, byCategory?_sortedMembers h,
    Json.asNat?_normal_ofNat h.total]
  rfl

theorem isSized_of_byCategory? {done counts : PerCategory (Option Nat)}
    (h : byCategory? done members = some counts)
    (hdone : ∀ c, ∀ n ∈ done.get c, n < UInt64.size) :
    ∀ c, ∀ n ∈ counts.get c, n < UInt64.size := by
  induction members generalizing done with
  | nil =>
    obtain rfl := Option.some.inj h
    exact hdone
  | cons member rest ih =>
    obtain ⟨name, t⟩ := member
    unfold byCategory? at h
    split at h
    · exact ih h hdone
    · obtain ⟨d, -, h⟩ := Option.bind_eq_some_iff.mp h
      obtain ⟨k, hk, h⟩ := Option.bind_eq_some_iff.mp h
      refine ih h fun c n hn => ?_
      rw [PerCategory.get_set] at hn
      split at hn
      · exact Option.some.inj hn ▸ Tree.lt_of_asNat? hk
      · exact hdone c n hn

theorem isSized_of_ofTree? {t : Tree δ} {counts : CategoryCounts} (h : ofTree? t = some counts) :
    counts.IsSized := by
  unfold ofTree? at h
  split at h
  · obtain ⟨byCategory, hcounts, h⟩ := Option.bind_eq_some_iff.mp h
    obtain ⟨total, htotal, h⟩ := Option.bind_eq_some_iff.mp h
    obtain rfl := Option.some.inj h
    refine ⟨isSized_of_byCategory? hcounts fun c n hn => ?_, Tree.lt_of_asNat? htotal⟩
    rw [PerCategory.get_ofFn] at hn
    cases hn
  · cases h

end CategoryCounts

/-! ## Every stored type -/

/-- Of the stored types only three have values that do not come back: an entry needs finite numbers
and further fields apart from the fixed ones, and the numbers of a summary or of counts must be
words of the machine. -/
theorem comesBack_stored :
    (∀ e : Entry, ComesBack Entry.toJson Entry.ofTree? e ↔
      e.payload.isFinite = true ∧ ∀ field ∈ e.metadata.extra.members, field.1 ∉ reservedNames) ∧
    (∀ s : EntrySummary, ComesBack EntrySummary.toJson EntrySummary.ofTree? s ↔ s.IsSized) ∧
    (∀ n : CategoryCounts, ComesBack CategoryCounts.toJson CategoryCounts.ofTree? n ↔ n.IsSized) ∧
    (∀ e : HubError, ComesBack HubError.toJson (HubError.ofTree? false) e) ∧
    (∀ scope : ClearScope, ComesBack ClearScope.toJson ClearScope.ofTree? scope) ∧
    (∀ k : EventKind, ComesBack EventKind.toJson EventKind.ofTree? k) ∧
    ∀ c : Category, ComesBack Category.toJson Category.ofTree? c := by
  simp only [comesBack_iff]
  refine ⟨fun e => ?_, fun s => ?_, fun n => ?_, HubError.ofTree?_normal,
    ClearScope.ofTree?_normal, EventKind.ofTree?_normal, Category.ofTree?_normal⟩
  · constructor
    · intro hback
      have hwritable := (Entry.of_ofTree? hback).1
      exact ⟨hwritable.finite, hwritable.unreserved⟩
    · exact fun ⟨hfinite, hunreserved⟩ => Entry.ofTree?_normal ⟨hfinite, hunreserved⟩
  · exact ⟨EntrySummary.isSized_of_ofTree?, EntrySummary.ofTree?_normal⟩
  · exact ⟨CategoryCounts.isSized_of_ofTree?, CategoryCounts.ofTree?_normal⟩

end LabExchange
