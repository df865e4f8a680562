import LabExchange.Proofs.Hub.Saving

/-!
# Entries that have been read

An entry that has been read can be written again: its numbers are finite, none of its further fields
has a name that the hub keeps for itself, and if the text of a snapshot was read, then no field is
deeper than a text of a snapshot may have it.
-/
namespace LabExchange

/-- What a list has been decoded as has been decoded item by item. -/
theorem exists_of_mem_mapM {α β : Type} {f : α → Option β} {l : List α} {l' : List β} {b : β}
    (h : l.mapM f = some l') (hb : b ∈ l') : ∃ a ∈ l, f a = some b := by
  induction l generalizing l' with
  | nil =>
    obtain rfl := Option.some.inj h
    exact absurd hb List.not_mem_nil
  | cons a rest ih =>
    simp only [List.mapM_cons, bind, Option.bind_eq_some_iff, pure, Option.some.injEq] at h
    obtain ⟨first, hfirst, others, hothers, rfl⟩ := h
    rcases List.mem_cons.mp hb with rfl | hmem
    · exact ⟨a, List.mem_cons_self, hfirst⟩
    · obtain ⟨a', ha', heq⟩ := ih hothers hmem
      exact ⟨a', List.mem_cons_of_mem _ ha', heq⟩

/-! ## How deep what has been read is -/

namespace Tree

variable {δ : Type} {room : Nat}

theorem mem_sorted {α : Type} {members : List (String × α)} {m : String × α}
    (h : m ∈ sorted members) : m ∈ members := by
  suffices ∀ done : List (String × α),
      m ∈ members.foldl (fun done member => put member.1 member.2 done) done →
        m ∈ done ∨ m ∈ members from (this [] h).resolve_left List.not_mem_nil
  clear h
  induction members with
  | nil => exact fun done h => .inl h
  | cons member rest ih =>
    intro done h
    rcases ih _ h with hput | hrest
    · rcases mem_put hput with rfl | hdone
      · exact .inr List.mem_cons_self
      · exact .inl hdone
    · exact .inr (List.mem_cons_of_mem _ hrest)

mutual

theorem depth_prune_le (t : Draft) (room : Nat) : (t.prune room).depth ≤ room := by
  cases t with
  | null | bool | number | string | defect => simp [prune, depth]
  | array items =>
    rw [prune]
    split
    · simp [depth]
    · have h := itemDepth_pruneItems_le items (room - 1)
      rw [depth]
      omega
  | object members =>
    rw [prune]
    split
    · simp [depth]
    · have h := memberDepth_pruneMembers_le members (room - 1)
      rw [depth]
      omega

theorem itemDepth_pruneItems_le (items : List Draft) (room : Nat) :
    itemDepth (pruneItems room items) ≤ room := by
  match items with
  | [] => simp [pruneItems, itemDepth]
  | item :: rest =>
    rw [pruneItems, itemDepth]
    exact Nat.max_le.mpr ⟨depth_prune_le item room, itemDepth_pruneItems_le rest room⟩

theorem memberDepth_pruneMembers_le (members : List (String × Draft)) (room : Nat) :
    memberDepth (pruneMembers room members) ≤ room := by
  match members with
  | [] => simp [pruneMembers, memberDepth]
  | (key, item) :: rest =>
    rw [pruneMembers, memberDepth]
    exact Nat.max_le.mpr ⟨depth_prune_le item room, memberDepth_pruneMembers_le rest room⟩

end

mutual

/-- The sorted document of a tree is not deeper than the tree. -/
theorem depth_of_value? {t : Tree δ} {j : Json} (h : value? t = some j) : j.depth ≤ t.depth := by
  cases t with
  | null | bool | number | string =>
    simp only [value?, Option.some.injEq] at h
    subst h
    simp [depth]
  | array items =>
    simp only [value?, Option.map_eq_some_iff] at h
    obtain ⟨values, h, rfl⟩ := h
    rw [depth, depth]
    exact Nat.add_le_add_right (itemDepth_of_values? h) 1
  | object members =>
    simp only [value?, Option.map_eq_some_iff] at h
    obtain ⟨values, h, rfl⟩ := h
    rw [depth, depth]
    refine Nat.add_le_add_right (memberDepth_le.mpr fun m hm => ?_) 1
    exact (memberDepth_le.mp (memberDepth_of_memberValues? h) m (mem_sorted hm))
  | defect => simp [value?] at h

theorem itemDepth_of_values? {items : List (Tree δ)} {values : List Json}
    (h : values? items = some values) : itemDepth values ≤ itemDepth items := by
  match items with
  | [] =>
    simp only [values?, Option.some.injEq] at h
    subst h
    exact Nat.le_refl _
  | item :: rest =>
    simp only [values?, Option.bind_eq_some_iff, Option.map_eq_some_iff] at h
    obtain ⟨value, hvalue, values, hvalues, rfl⟩ := h
    have hitem := depth_of_value? hvalue
    have hrest := itemDepth_of_values? hvalues
    rw [itemDepth, itemDepth]
    omega

theorem memberDepth_of_memberValues? {members : List (String × Tree δ)}
    {values : List (String × Json)} (h : memberValues? members = some values) :
    memberDepth values ≤ memberDepth members := by
  match members with
  | [] =>
    simp only [memberValues?, Option.some.injEq] at h
    subst h
    exact Nat.le_refl _
  | (key, item) :: rest =>
    simp only [memberValues?, Option.bind_eq_some_iff, Option.map_eq_some_iff] at h
    obtain ⟨value, hvalue, values, hvalues, rfl⟩ := h
    have hitem := depth_of_value? hvalue
    have hrest := memberDepth_of_memberValues? hvalues
    rw [memberDepth, memberDepth]
    omega

end

/-- A field of a record lies one level down. -/
theorem depth_of_fields? {t u : Tree δ} {names : List String} {optional : Nat}
    {fields : List (Option (Tree δ))} (h : t.fields? names optional = some fields)
    (hu : some u ∈ fields) (ht : t.depth ≤ room + 1) : u.depth ≤ room := by
  cases t with
  | null | bool | number | string | defect => simp [fields?] at h
  | array items =>
    simp only [fields?, Option.ite_none_right_eq_some, Option.some.injEq] at h
    obtain ⟨-, rfl⟩ := h
    rw [depth_array_le] at ht
    rcases List.mem_append.mp hu with hitem | hmissing
    · obtain ⟨item, hitem, heq⟩ := List.mem_map.mp hitem
      exact Option.some.inj heq ▸ ht item hitem
    · cases List.eq_of_mem_replicate hmissing
  | object members =>
    rw [depth_object_le] at ht
    obtain ⟨name, -, hname⟩ := exists_of_mem_mapM h hu
    unfold field? at hname
    split at hname
    · cases hname
    · next member hmembers =>
      obtain rfl := Option.some.inj (Option.some.inj hname)
      have hmember : member ∈ members.filter (·.1 == name) := hmembers ▸ List.mem_cons_self
      exact ht member (List.mem_filter.mp hmember).1
    · cases hname

/-- The item of an array lies one level down, and so does its document. -/
theorem depth_of_asList? {t : Tree δ} {items : List Json} (h : t.asList? value? = some items)
    (ht : t.depth ≤ room + 1) : ∀ j ∈ items, j.depth ≤ room := by
  cases t with
  | array drafts =>
    intro j hj
    obtain ⟨u, hu, hvalue⟩ := exists_of_mem_mapM h hj
    exact Nat.le_trans (depth_of_value? hvalue) (depth_array_le.mp ht u hu)
  | _ => exact absurd h (by nofun)

end Tree

namespace Snapshot

/-- No entry of a snapshot that has been read is too deep. -/
theorem depth_of_envelope {t : Draft} {envelope : Envelope} (h : Envelope.ofTree? t = some envelope)
    (ht : t.depth ≤ Draft.maxDepth) : ∀ j ∈ envelope.entries, j.depth ≤ entryRoom := by
  unfold Envelope.ofTree? at h
  split at h
  · next version savedAt entries hfields =>
    cases entries with
    | none =>
      simp only [bind, Option.bind_eq_some_iff, pure, Option.some.injEq] at h
      obtain ⟨_, rfl, _, -, _, -, rfl⟩ := h
      nofun
    | some entries =>
      simp only [bind, Option.bind_eq_some_iff, pure, Option.some.injEq] at h
      obtain ⟨_, hitems, _, -, _, -, rfl⟩ := h
      exact Tree.depth_of_asList? hitems (Tree.depth_of_fields? hfields (by simp) ht)
  · exact absurd h (by nofun)

end Snapshot

/-! ## Numbers that have been read -/

theorem Double.isFinite_getD_ofInt (value : Int) :
    ((Double.ofInt value).getD default).isFinite = true := by
  cases h : Double.ofInt value with
  | none => rfl
  | some x =>
    rw [Double.ofInt, Double.ofRatio, Double.assemble] at h
    simp only [Option.dite_none_right_eq_some, Option.some.injEq] at h
    obtain ⟨hfits, rfl⟩ := h
    rfl

theorem Number.isFinite_toDouble (n : Number) : n.toDouble.isFinite = true := by
  cases n with
  | integer value inRange => exact Double.isFinite_getD_ofInt value
  | double value finite => exact finite

namespace Tree

variable {δ : Type} {t : Tree δ}

theorem isFinite_of_asDouble? {x : Double} (h : t.asDouble? = some x) : x.isFinite = true := by
  cases t with
  | number n => exact Option.some.inj h ▸ n.isFinite_toDouble
  | _ => exact absurd h (by nofun)

theorem forall_of_asList? {α : Type} {item? : Tree δ → Option α} {l : List α} {P : α → Prop}
    (h : t.asList? item? = some l) (hitem : ∀ u a, item? u = some a → P a) : ∀ a ∈ l, P a := by
  cases t with
  | array items =>
    intro a ha
    obtain ⟨u, -, hu⟩ := exists_of_mem_mapM h ha
    exact hitem u a hu
  | _ => exact absurd h (by nofun)

theorem allFinite_of_asList? {row : List Double} (h : t.asList? asDouble? = some row) :
    row.all Double.isFinite = true :=
  List.all_eq_true.mpr (forall_of_asList? h fun _ _ => isFinite_of_asDouble?)

theorem allFinite_of_asRows? {rows : List (List Double)} (h : t.asRows? = some rows) :
    (rows.all fun row => row.all Double.isFinite) = true :=
  List.all_eq_true.mpr (forall_of_asList? h fun _ _ => allFinite_of_asList?)

end Tree

theorem ComplexValue.isFinite_of_ofTree? {δ : Type} {t : Tree δ} {z : ComplexValue}
    (h : ofTree? t = some z) : z.isFinite = true := by
  unfold ofTree? at h
  split at h
  · obtain ⟨re, hre, h⟩ := Option.bind_eq_some_iff.mp h
    obtain ⟨im, him, h⟩ := Option.bind_eq_some_iff.mp h
    obtain rfl := Option.some.inj h
    exact Bool.and_eq_true_iff.mpr
      ⟨Tree.isFinite_of_asDouble? hre, Tree.isFinite_of_asDouble? him⟩
  · exact absurd h (by nofun)

theorem Dataset.isFinite_of_ofTree? {δ : Type} {t : Tree δ} {d : Dataset}
    (h : ofTree? t = some d) : d.isFinite = true := by
  unfold ofTree? at h
  split at h
  · obtain ⟨inputs, hinputs, h⟩ := Option.bind_eq_some_iff.mp h
    obtain ⟨outputs, houtputs, h⟩ := Option.bind_eq_some_iff.mp h
    obtain rfl := Option.some.inj h
    rw [isFinite, List.all_append, Tree.allFinite_of_asRows? hinputs,
      Tree.allFinite_of_asRows? houtputs, Bool.and_self]
  · cases h

theorem Payload.isFinite_of_ofKind? {δ : Type} {kind : String} {t : Tree δ} {p : Payload}
    (h : ofKind? kind t = some p) : p.isFinite = true := by
  unfold ofKind? at h
  split at h
  · obtain ⟨rows, hrows, rfl⟩ := Option.map_eq_some_iff.mp h
    exact Tree.allFinite_of_asRows? hrows
  · obtain ⟨values, hvalues, rfl⟩ := Option.map_eq_some_iff.mp h
    exact Tree.allFinite_of_asList? hvalues
  · obtain ⟨value, hvalue, rfl⟩ := Option.map_eq_some_iff.mp h
    exact Tree.isFinite_of_asDouble? hvalue
  · obtain ⟨expression, -, rfl⟩ := Option.map_eq_some_iff.mp h
    rfl
  · obtain ⟨value, hvalue, rfl⟩ := Option.map_eq_some_iff.mp h
    exact ComplexValue.isFinite_of_ofTree? hvalue
  · obtain ⟨value, hvalue, rfl⟩ := Option.map_eq_some_iff.mp h
    exact Dataset.isFinite_of_ofTree? hvalue
  · obtain ⟨values, hvalues, rfl⟩ := Option.map_eq_some_iff.mp h
    exact Tree.allFinite_of_asList? hvalues
  · exact absurd h (by nofun)

theorem Payload.isFinite_of_ofTree? {δ : Type} {t : Tree δ} {p : Payload}
    (h : ofTree? t = some p) : p.isFinite = true := by
  unfold ofTree? at h
  split at h
  · split at h
    · exact absurd h (by nofun)
    · obtain ⟨kind, -, h⟩ := Option.bind_eq_some_iff.mp h
      exact isFinite_of_ofKind? h
  · exact absurd h (by nofun)

/-! ## Fields that have been read -/

namespace Metadata

variable {δ : Type} {t : Tree δ} {m : Metadata}

/-- A further field is the value of a member whose name is not reserved. -/
theorem mem_of_extra? {members : List (String × Tree δ)} {l : List (String × Value)}
    (h : extra? members = some l) : ∀ field ∈ l, field.1 ∉ reservedNames ∧
      ∃ u, (field.1, u) ∈ members ∧ u.value? = some field.2.json := by
  induction members generalizing l with
  | nil =>
    obtain rfl := Option.some.inj h
    exact List.forall_mem_nil _
  | cons member rest ih =>
    have hlater : ∀ {others : List (String × Value)}, extra? rest = some others →
        ∀ field ∈ others, field.1 ∉ reservedNames ∧
          ∃ u, (field.1, u) ∈ member :: rest ∧ u.value? = some field.2.json := by
      intro others hothers field hfield
      obtain ⟨hname, u, hu, hvalue⟩ := ih hothers field hfield
      exact ⟨hname, u, List.mem_cons_of_mem _ hu, hvalue⟩
    obtain ⟨name, u⟩ := member
    unfold extra? at h
    split at h
    · exact hlater h
    · next hname =>
      obtain ⟨value, hvalue, h⟩ := Option.bind_eq_some_iff.mp h
      obtain ⟨others, hothers, rfl⟩ := Option.map_eq_some_iff.mp h
      refine List.forall_mem_cons.mpr
        ⟨⟨by simpa using hname, u, List.mem_cons_self, ?_⟩, hlater hothers⟩
      unfold Value.ofTree? at hvalue
      split at hvalue
      · next json hjson => rw [hjson, ← Option.some.inj hvalue]
      · cases hvalue

theorem mem_of_ofTree? (h : ofTree? t = some m) : ∀ field ∈ m.extra.members,
    field.1 ∉ reservedNames ∧ ∀ room, t.depth ≤ room + 1 → field.2.depth ≤ room := by
  unfold ofTree? at h
  split at h
  · next members name description timestamp hfields =>
    obtain ⟨_, -, h⟩ := Option.bind_eq_some_iff.mp h
    obtain ⟨_, -, h⟩ := Option.bind_eq_some_iff.mp h
    obtain ⟨_, -, h⟩ := Option.bind_eq_some_iff.mp h
    obtain ⟨l, hl, h⟩ := Option.bind_eq_some_iff.mp h
    obtain rfl := Option.some.inj h
    intro field hfield
    rw [Fields.members_ofMembers] at hfield
    obtain ⟨named, hnamed, rfl⟩ := List.mem_map.mp (Tree.mem_sorted hfield)
    obtain ⟨hname, u, hu, hvalue⟩ := mem_of_extra? hl named hnamed
    exact ⟨hname, fun room hroom =>
      Nat.le_trans (Tree.depth_of_value? hvalue) (Tree.depth_object_le.mp hroom _ hu)⟩
  · exact absurd h (by nofun)

end Metadata

/-! ## Entries -/

theorem Entry.of_ofTree? {j : Json} {e : Entry} (h : ofTree? j = some e) :
    e.IsWritable ∧ (j.depth ≤ Snapshot.entryRoom → e.IsShallow) := by
  unfold ofTree? at h
  split at h
  · next id category tab payload metadata sequence hfields =>
    obtain ⟨_, _, _, p, hpayload, m, hmetadata, _, rfl⟩ : ∃ i c t p,
        Payload.ofTree? payload = some p ∧ ∃ m, Metadata.ofTree? metadata = some m ∧
          ∃ n, (⟨i, c, t, p, m, n⟩ : Entry) = e := by
      cases sequence
      all_goals
        simp only [bind, Option.bind_eq_some_iff, pure, Option.some.injEq] at h
        obtain ⟨n, -, i, -, c, -, t, -, p, hpayload, m, hmetadata, heq⟩ := h
        exact ⟨i, c, t, p, hpayload, m, hmetadata, n, heq⟩
    have hfield := Metadata.mem_of_ofTree? hmetadata
    refine ⟨⟨Payload.isFinite_of_ofTree? hpayload, fun field hmem => (hfield field hmem).1⟩, ?_⟩
    intro hdepth field hmem
    exact (hfield field hmem).2 _ (Tree.depth_of_fields? hfields (by simp) hdepth)
  · exact absurd h (by nofun)

/-- What has been read from a text can be written again. -/
theorem Snapshot.of_ofText {text : String} {s : Snapshot} {skipped : List Nat}
    (h : ofText text = .ok (s, skipped)) : ∀ e ∈ s.entries, e.IsWritable ∧ e.IsShallow := by
  unfold ofText at h
  split at h
  · exact absurd h (by nofun)
  · next envelope hread =>
    split at h
    · exact absurd h (by nofun)
    · obtain ⟨rfl, -⟩ := Prod.mk.inj (Except.ok.inj h)
      intro e he
      obtain ⟨j, hj, he⟩ := List.mem_filterMap.mp he
      obtain ⟨hwritable, hshallow⟩ := Entry.of_ofTree? he
      refine ⟨hwritable, hshallow ?_⟩
      unfold Json.read at hread
      split at hread
      · next hdecoded =>
        obtain rfl := Except.ok.inj hread
        obtain ⟨draft, hdraft, henvelope⟩ := Option.bind_eq_some_iff.mp hdecoded
        obtain ⟨tree, -, rfl⟩ := Option.map_eq_some_iff.mp hdraft
        exact depth_of_envelope henvelope (Tree.depth_prune_le tree _) j hj
      · exact absurd hread (by nofun)

/-- A restoration brings entries of the snapshot only. -/
theorem Store.mem_of_restoreEntries {s : Store} {l : List Entry} {e : Entry}
    (h : e ∈ (s.restoreEntries l).1.toList) : e ∈ s.toList ∨ e ∈ l := by
  induction l generalizing s with
  | nil => exact .inl h
  | cons f rest ih =>
    rw [(restoreEntries_cons s f rest).1] at h
    rcases ih h with hstore | hrest
    · cases hf : s.restore? f with
      | none =>
        rw [hf] at hstore
        exact .inl hstore
      | some s' =>
        obtain ⟨-, -, rfl⟩ := restore?_eq_some.mp hf
        rw [hf] at hstore
        rcases mem_toList_takeIn.mp hstore with rfl | hold
        · exact .inr List.mem_cons_self
        · exact .inl hold
    · exact .inr (List.mem_cons_of_mem _ hrest)

/-! ## The numbers in an entry -/

namespace Tree

variable {δ : Type} {n : Number}

theorem mem_itemNumbers {items : List (Tree δ)} :
    n ∈ itemNumbers items ↔ ∃ t ∈ items, n ∈ t.numbers := by
  induction items with
  | nil => simp [itemNumbers]
  | cons item rest ih => simp [itemNumbers, ih]

theorem mem_memberNumbers {members : List (String × Tree δ)} :
    n ∈ memberNumbers members ↔ ∃ m ∈ members, n ∈ m.2.numbers := by
  induction members with
  | nil => simp [memberNumbers]
  | cons member rest ih => simp [memberNumbers, ih]

end Tree

/-- The numbers of an entry are those of its payload and of its further fields, and its own. -/
theorem Entry.mem_numbers_toJson {e : Entry} {n : Number} (h : n ∈ e.toJson.numbers) :
    n ∈ e.payload.toJson.numbers ∨ (∃ field ∈ e.metadata.extra.members, n ∈ field.2.numbers) ∨
      ∃ value inRange, n = .integer value inRange := by
  obtain ⟨hrange, hsequence⟩ := Json.ofNat_word e.sequence
  simp only [toJson, Metadata.toJson, EntryId.toJson, Category.toJson, Timestamp.toJson,
    Tree.numbers, Tree.memberNumbers, hsequence, Tree.mem_memberNumbers, List.nil_append,
    List.append_nil, List.mem_append, List.cons_append, List.mem_cons, List.not_mem_nil,
    or_false] at h
  rcases h with hpayload | hfield | rfl
  · exact .inl hpayload
  · exact .inr (.inl hfield)
  · exact .inr (.inr ⟨_, _, rfl⟩)

/-- Besides its entries only the version of a snapshot is a number. -/
theorem Snapshot.doublesReadBack_of_le {s : Snapshot} (hversion : s.version ≤ currentVersion)
    (h : ∀ e ∈ s.entries, e.toJson.DoublesReadBack) : s.toJson.DoublesReadBack := by
  obtain ⟨_, hnumber⟩ : ∃ h, Json.ofNat s.version = .number (.integer s.version h) :=
    Json.ofNat_of_lt (Nat.lt_of_le_of_lt hversion (by decide))
  intro x finite hx
  simp only [toJson, hnumber, Timestamp.toJson, Json.ofList, Tree.numbers, Tree.memberNumbers,
    Tree.mem_itemNumbers, List.nil_append, List.append_nil, List.mem_cons, List.mem_map,
    List.cons_append, reduceCtorEq, false_or] at hx
  obtain ⟨_, ⟨e, he, rfl⟩, hmem⟩ := hx
  exact h e he x finite hmem

theorem Snapshot.doublesReadBack {entries : List Entry} {now : Timestamp}
    (h : ∀ e ∈ entries, e.toJson.DoublesReadBack) :
    (ofEntries entries now).toJson.DoublesReadBack :=
  doublesReadBack_of_le (Nat.le_refl _) h

/-! ## Reading a given text -/

/-- What an entry says apart from its further fields, and whether it has none. -/
structure Entry.Outline where
  id : EntryId
  category : Category
  sourceTab : String
  payload : Payload
  name : String
  description : String
  timestamp : Timestamp
  bare : Bool
  sequence : UInt64
  deriving DecidableEq

def Entry.outline (e : Entry) : Outline :=
  ⟨e.id, e.category, e.sourceTab, e.payload, e.metadata.name, e.metadata.description,
    e.metadata.timestamp, e.metadata.extra.members.isEmpty, e.sequence⟩

theorem Entry.eq_of_outline {e f : Entry} (h : e.outline = f.outline)
    (hbare : f.outline.bare = true) : e = f := by
  obtain ⟨_, _, _, _, ⟨_, _, _, _, _⟩, _⟩ := e
  obtain ⟨_, _, _, _, ⟨_, _, _, _, _⟩, _⟩ := f
  obtain rfl : _ = [] := List.isEmpty_iff.mp hbare
  simp only [outline, Outline.mk.injEq, List.isEmpty_nil, List.isEmpty_iff] at h
  obtain ⟨rfl, rfl, rfl, rfl, rfl, rfl, rfl, rfl, rfl⟩ := h
  rfl

/-- What encloses the entries in a text of some characters. -/
def Snapshot.envelope? (chars : List Char) : Option Envelope :=
  (((Token.ofText? chars).bind Draft.ofTokens?).map (Tree.prune Draft.maxDepth)).bind
    Envelope.ofTree?

theorem Snapshot.ofText_of_envelope? {text : String} {envelope : Envelope}
    (h : envelope? text.toList = some envelope) (hversion : envelope.version ≤ currentVersion) :
    ofText text = .ok (⟨envelope.version, envelope.savedAt,
      envelope.entries.filterMap Entry.ofTree?⟩, skipped envelope.entries) := by
  have hread : Json.read Envelope.ofTree? text = .ok envelope := by
    rw [Json.read, Draft.ofText?, ← envelope?, h]
  rw [ofText, hread]
  exact if_neg (Nat.not_lt.mpr hversion)

theorem Snapshot.exists_ofText_eq_error {text : String} (h : envelope? text.toList = none) :
    ∃ e, ofText text = .error e := by
  have hread : ∃ e, Json.read Envelope.ofTree? text = .error e := by
    rw [Json.read, Draft.ofText?, ← envelope?, h]
    exact ⟨_, rfl⟩
  obtain ⟨e, he⟩ := hread
  exact ⟨_, by rw [ofText, he]⟩

/-- A text is read as one bare entry if the outline of that shows. -/
theorem Snapshot.ofText_of_outline {text : String} {e : Entry} {now : Timestamp}
    (hbare : e.outline.bare = true) (h : (envelope? text.toList).map (fun envelope =>
      (envelope.version, envelope.savedAt, (envelope.entries.filterMap Entry.ofTree?).map
        Entry.outline, skipped envelope.entries)) = some (currentVersion, now, [e.outline], [])) :
    ofText text = .ok (ofEntries [e] now, []) := by
  obtain ⟨envelope, henvelope, houtline⟩ := Option.map_eq_some_iff.mp h
  simp only [Prod.mk.injEq, List.map_eq_singleton_iff] at houtline
  obtain ⟨hversion, rfl, ⟨f, hf, hfe⟩, hskipped⟩ := houtline
  rw [ofText_of_envelope? henvelope hversion.le, hf, Entry.eq_of_outline hfe hbare, hversion,
    hskipped]
  rfl

end LabExchange
