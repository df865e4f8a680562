import LabExchange.Proofs.Hub.EntryDocuments
import LabExchange.Proofs.Hub.Restoring
import LabExchange.Snapshot

/-!
# Saving and loading

The text of a snapshot is read as that snapshot, with no entry skipped, if all its entries are such
as an export leaves behind and none of their further fields is too deep. One field that is too deep
makes the whole text unreadable, because what encloses the entries is read with them.
-/
namespace LabExchange

/-! ## How deep a snapshot is -/

namespace Tree

variable {δ : Type} {room : Nat}

theorem depth_array_le {items : List (Tree δ)} :
    (array items).depth ≤ room + 1 ↔ ∀ t ∈ items, t.depth ≤ room := by
  rw [depth, Nat.add_le_add_iff_right, itemDepth_le]

theorem depth_object_le {members : List (String × Tree δ)} :
    (object members).depth ≤ room + 1 ↔ ∀ m ∈ members, m.2.depth ≤ room := by
  rw [depth, Nat.add_le_add_iff_right, memberDepth_le]

end Tree

namespace Json

theorem depth_ofList_le {α : Type} {encode : α → Json} {l : List α} {room : Nat} :
    (ofList encode l).depth ≤ room + 1 ↔ ∀ a ∈ l, (encode a).depth ≤ room := by
  rw [ofList, Tree.depth_array_le, List.forall_mem_map]

@[simp] theorem depth_ofDouble (x : Double) : (ofDouble x).depth = 0 := by
  unfold ofDouble
  split <;> rfl

@[simp] theorem depth_ofNat_word (n : UInt64) : (ofNat n.toNat).depth = 0 := by
  obtain ⟨h, heq⟩ := ofNat_word n
  rw [heq]
  rfl

theorem depth_ofRow_le (row : List Double) : (ofList ofDouble row).depth ≤ 1 :=
  depth_ofList_le.mpr fun x _ => (depth_ofDouble x).le

theorem depth_ofRows_le (rows : List (List Double)) : (ofRows rows).depth ≤ 2 :=
  depth_ofList_le.mpr fun row _ => depth_ofRow_le row

end Json

theorem ComplexValue.depth_toJson_le (z : ComplexValue) : z.toJson.depth ≤ 1 :=
  Tree.depth_object_le.mpr (by simp)

theorem Dataset.depth_toJson_le (d : Dataset) : d.toJson.depth ≤ 3 :=
  Tree.depth_object_le.mpr (by simp [Json.depth_ofRows_le])

theorem Payload.depth_dataJson_le (p : Payload) : p.dataJson.depth ≤ 3 := by
  cases p with
  | matrix rows => exact (Json.depth_ofRows_le rows).trans (by decide)
  | array values => exact (Json.depth_ofRow_le values).trans (by decide)
  | scalar value => exact (Json.depth_ofDouble value).le.trans (by decide)
  | function expression => exact Nat.zero_le 3
  | complex value => exact value.depth_toJson_le.trans (by decide)
  | dataset value => exact value.depth_toJson_le
  | vector values => exact (Json.depth_ofRow_le values).trans (by decide)

theorem Payload.depth_toJson_le (p : Payload) : p.toJson.depth ≤ 4 :=
  Tree.depth_object_le.mpr (by simp [Tree.depth, p.depth_dataJson_le])

theorem Metadata.depth_toJson_le {m : Metadata} {room : Nat} :
    m.toJson.depth ≤ room + 1 ↔ ∀ field ∈ m.extra.members, field.2.depth ≤ room := by
  rw [toJson, Tree.depth_object_le, List.forall_mem_append]
  simp [Tree.depth, Timestamp.toJson]

/-- Besides its further fields nothing in an entry is deep. -/
theorem Entry.depth_toJson_le {e : Entry} {room : Nat} (hroom : 3 ≤ room) :
    e.toJson.depth ≤ room + 2 ↔ ∀ field ∈ e.metadata.extra.members, field.2.depth ≤ room := by
  have hpayload : e.payload.toJson.depth ≤ room + 1 := e.payload.depth_toJson_le.trans (by omega)
  rw [toJson, Tree.depth_object_le]
  simp [Tree.depth, EntryId.toJson, Category.toJson, hpayload, Metadata.depth_toJson_le]

theorem Snapshot.depth_toJson_le {entries : List Entry} {now : Timestamp} {room : Nat} :
    (ofEntries entries now).toJson.depth ≤ room + 2 ↔ ∀ e ∈ entries, e.toJson.depth ≤ room := by
  have hversion : (Json.ofNat currentVersion).depth = 0 := Json.depth_ofNat_word 1
  rw [toJson, Tree.depth_object_le]
  simp [ofEntries, Tree.depth, Timestamp.toJson, hversion, Json.depth_ofList_le]

/-! ## The text of a snapshot -/

/-- Every double in a document is read from its text as the double that was written. -/
def Json.DoublesReadBack (j : Json) : Prop :=
  ∀ x finite, Number.double x finite ∈ j.numbers → (Number.double x finite).ReadsBack

theorem Json.DoublesReadBack.numbers {j : Json} (h : j.DoublesReadBack) :
    ∀ n ∈ j.numbers, n.ReadsBack := by
  intro n hn
  cases n with
  | integer value inRange => exact Number.readsBack_integer value inRange
  | double x finite => exact h x finite hn

theorem Tree.mapM_value? {δ : Type} (items : List (Tree δ)) :
    items.mapM Tree.value? = Tree.values? items := by
  induction items with
  | nil => rfl
  | cons item rest ih =>
    rw [List.mapM_cons, ih, Tree.values?]
    cases item.value? <;> cases Tree.values? rest <;> rfl

namespace Snapshot

variable {entries : List Entry} {now : Timestamp}

/-- How deep an entry may be; the snapshot and the list of its entries lie around it. -/
def entryRoom : Nat := Draft.maxDepth - 2

/-- The entries of a snapshot as its text has them. -/
def entryDrafts (entries : List Entry) : List Draft := Json.itemDrafts (entries.map Entry.toJson)

/-- What encloses the entries always reads; only in an entry can there be a defect. -/
theorem envelope_draft {s : Snapshot} (hversion : s.version ≤ currentVersion) :
    Envelope.ofTree? ((Json.draft s.toJson).prune Draft.maxDepth) =
      (Tree.values? (Tree.pruneItems entryRoom (entryDrafts s.entries))).map fun values =>
        ⟨s.version, s.savedAt, values⟩ := by
  have hsize : s.version < UInt32.size := Nat.lt_of_le_of_lt hversion (by decide)
  obtain ⟨hrange, hnumber⟩ : ∃ h, Json.ofNat s.version = .number (.integer s.version h) :=
    Json.ofNat_of_lt (Nat.lt_trans hsize (by decide))
  have hdraft : (Json.draft s.toJson).prune Draft.maxDepth =
      .object [("version", .number (.integer s.version hrange)),
        ("saved_at", .string (String.ofList s.savedAt.text)),
        ("entries", .array (Tree.pruneItems entryRoom (entryDrafts s.entries)))] := by
    simp [toJson, hnumber, Timestamp.toJson, Json.ofList, Json.draft, Json.memberDrafts,
      Tree.prune, Tree.pruneMembers, Draft.maxDepth, entryRoom, entryDrafts]
  have htimestamp : Timestamp.ofTree? (.string (String.ofList s.savedAt.text) : Draft) =
      some s.savedAt := by
    simp [Timestamp.ofTree?, Tree.asString?, Timestamp.read?_text]
  have hread : (.number (.integer s.version hrange) : Draft).asNat? UInt32.size =
      some s.version := Tree.asNat?_natCast hsize
  rw [hdraft]
  cases hvalues : Tree.values? (Tree.pruneItems entryRoom (entryDrafts s.entries)) <;>
    simp [Envelope.ofTree?, Tree.fields?, Tree.field?, hread, htimestamp, Tree.asList?,
      Tree.mapM_value?, hvalues]

/-- What encloses the entries in the text of a snapshot. -/
theorem envelope_text {s : Snapshot} (hversion : s.version ≤ currentVersion)
    (hdoubles : s.toJson.DoublesReadBack) :
    (Draft.ofText? s.text).bind Envelope.ofTree? =
      (Tree.values? (Tree.pruneItems entryRoom (entryDrafts s.entries))).map fun values =>
        ⟨s.version, s.savedAt, values⟩ := by
  rw [text, Json.draftOfText?_pretty hdoubles.numbers, Option.bind_some, envelope_draft hversion]

theorem entryDrafts_depth_le :
    Tree.itemDepth (entryDrafts entries) ≤ entryRoom ↔
      ∀ e ∈ entries, e.toJson.depth ≤ entryRoom := by
  rw [entryDrafts, Json.itemDepth_itemDrafts, Tree.itemDepth_le, List.forall_mem_map]

theorem skipped_eq_nil {values : List Json} (h : ∀ j ∈ values, (Entry.ofTree? j).isSome) :
    skipped values = [] := by
  refine List.filterMap_eq_nil_iff.mpr fun (j, i) hmem => if_neg ?_
  have hsome := h j (List.fst_mem_of_mem_zipIdx hmem)
  simp [Option.isNone_iff_eq_none, Option.isSome_iff_ne_none.mp hsome]

/-- A snapshot comes back from its text as it was. -/
theorem ofText_text_of_le {s : Snapshot} (hversion : s.version ≤ currentVersion)
    (hdoubles : s.toJson.DoublesReadBack) (hwritable : ∀ e ∈ s.entries, e.IsWritable)
    (hroom : ∀ e ∈ s.entries, e.toJson.depth ≤ entryRoom) :
    ofText s.text = .ok (s, []) := by
  have hvalues : Tree.values? (Tree.pruneItems entryRoom (entryDrafts s.entries)) =
      some (s.entries.map fun e => Json.normal e.toJson) := by
    rw [Tree.pruneItems_eq_self (entryDrafts_depth_le.mpr hroom), entryDrafts,
      Json.values?_itemDrafts, Json.normalItems_eq, List.map_map]
    rfl
  have hdecoded : (s.entries.map fun e => Json.normal e.toJson).filterMap Entry.ofTree? =
      s.entries := by
    rw [List.filterMap_map]
    exact (List.filterMap_congr fun e he => Entry.ofTree?_normal (hwritable e he)).trans
      List.filterMap_some
  have hskipped : skipped (s.entries.map fun e => Json.normal e.toJson) = [] := by
    refine skipped_eq_nil (List.forall_mem_map.mpr fun e he => ?_)
    rw [Entry.ofTree?_normal (hwritable e he)]
    rfl
  have hread : Json.read Envelope.ofTree? s.text =
      .ok ⟨s.version, s.savedAt, s.entries.map fun e => Json.normal e.toJson⟩ := by
    rw [Json.read, envelope_text hversion hdoubles, hvalues, Option.map_some]
  have hnewer : ¬currentVersion < s.version := Nat.not_lt.mpr hversion
  rw [ofText, hread]
  simp only [if_neg hnewer, hdecoded, hskipped]

theorem ofText_text (hdoubles : (ofEntries entries now).toJson.DoublesReadBack)
    (hwritable : ∀ e ∈ entries, e.IsWritable)
    (hroom : ∀ e ∈ entries, e.toJson.depth ≤ entryRoom) :
    ofText (ofEntries entries now).text = .ok (ofEntries entries now, []) :=
  ofText_text_of_le (Nat.le_refl _) hdoubles hwritable hroom

/-- One entry that is too deep makes the whole text unreadable. -/
theorem ofText_text_of_deep (hdoubles : (ofEntries entries now).toJson.DoublesReadBack)
    (hdeep : ∃ e ∈ entries, entryRoom < e.toJson.depth) :
    ofText (ofEntries entries now).text = .error (.unreadable .malformed) := by
  have hentries : ¬∀ e ∈ entries, e.toJson.depth ≤ entryRoom := by
    obtain ⟨e, he, hroom⟩ := hdeep
    exact fun h => absurd (h e he) (by omega)
  have hvalues : Tree.values? (Tree.pruneItems entryRoom (entryDrafts entries)) = none :=
    Tree.values?_pruneItems_eq_none (by rwa [← Nat.not_le, entryDrafts_depth_le])
  have hnone : Json.ofText? (ofEntries entries now).text = none := by
    rw [text, Json.ofText?_pretty_eq hdoubles.numbers, if_neg]
    exact fun hdepth => hentries (depth_toJson_le.mp hdepth)
  have henvelope : (Draft.ofText? (ofEntries entries now).text).bind Envelope.ofTree? = none := by
    rw [envelope_text (Nat.le_refl _) hdoubles]
    exact congrArg (Option.map _) hvalues
  rw [ofText, Json.read, henvelope]
  simp only [hnone, Option.isNone_none, if_true]

end Snapshot

/-! ## What exports leave behind -/

namespace Store

/-- Every entry can be written and read, were it not for its depth. -/
def IsWritable (s : Store) : Prop := ∀ e ∈ s.toList, e.IsWritable

theorem isWritable_newEntry (s : Store) (id : EntryId) (now : Timestamp) (tab : String)
    (c : Category) {p : Payload} (hp : p.isFinite = true) (m : Option ExportMetadata) :
    (s.newEntry id now tab c p m).IsWritable where
  finite := hp
  unreserved field hfield := by
    simpa using (List.mem_filter.mp hfield).2

/-- What a call leaves behind stood there before, or it can be written and read, or the call is a
restoration that took it in. -/
theorem mem_toList_call {s : Store} {k : Call} {e : Entry} (h : e ∈ (s.call k).2.toList) :
    e ∈ s.toList ∨ e.IsWritable ∨
      ∃ snapshot, k = .request (.restore snapshot) ∧ e ∈ s.welcome snapshot.entries := by
  rcases call_cases s k with ⟨snapshot, hrestore, hstore⟩ | ⟨x, id, now, c, -, hfinite, -, hstore⟩ |
    ⟨hthins, -⟩
  · rw [hstore, mem_toList_takeAll] at h
    exact h.imp_right fun hwelcome => .inr ⟨snapshot, hrestore, hwelcome⟩
  · rw [hstore, mem_toList_takeIn] at h
    rcases h with rfl | hold
    · exact .inr (.inl (isWritable_newEntry s id now x.tab c hfinite x.metadata))
    · exact .inl hold
  · exact .inl ((toList_sublist hthins).subset h)

/-- No call but a restoration brings an entry that cannot be written. -/
theorem IsWritable.call {s : Store} (hs : s.IsWritable) {k : Call}
    (hk : ∀ snapshot, k ≠ .request (.restore snapshot)) : (s.call k).2.IsWritable := by
  intro e he
  rcases mem_toList_call he with hold | hwritable | ⟨snapshot, hrestore, -⟩
  · exact hs e hold
  · exact hwritable
  · exact absurd hrestore (hk snapshot)

theorem IsWritable.afterCalls {s : Store} (hs : s.IsWritable) {calls : List Call}
    (hcalls : ∀ snapshot, Call.request (.restore snapshot) ∉ calls) :
    (s.afterCalls calls).IsWritable := by
  induction calls generalizing s with
  | nil => exact hs
  | cons k rest ih =>
    refine ih (hs.call fun snapshot hk => ?_) fun snapshot hmem => ?_
    · exact hcalls snapshot (hk ▸ List.mem_cons_self)
    · exact hcalls snapshot (List.mem_cons_of_mem _ hmem)

end Store

/-! ## Saving a hub -/

/-- How deep a further field may be; its entry and the metadata lie around it too. -/
def Snapshot.fieldRoom : Nat := entryRoom - 2

/-- No further field of the entry is too deep. -/
def Entry.IsShallow (e : Entry) : Prop :=
  ∀ field ∈ e.metadata.extra.members, field.2.depth ≤ Snapshot.fieldRoom

theorem Entry.isShallow_iff {e : Entry} :
    e.IsShallow ↔ e.toJson.depth ≤ Snapshot.entryRoom := (depth_toJson_le (by decide)).symm

namespace Store

/-- What is saved at a time and loaded into a new hub is all there again: the text reads without an
entry that is skipped, and every category has its list back. -/
def Survives (s : Store) (now : Timestamp) : Prop :=
  ∃ loaded, Snapshot.ofText (Snapshot.ofEntries s.toList now).text = .ok (loaded, []) ∧
    ∀ c, (empty.restore loaded).store.entries c = s.entries c

/-- A hub that has come from a new one by any calls but restorations survives saving and loading
exactly if no further field of an entry is too deep; otherwise nothing of it can be read. -/
theorem survives_iff {s : Store} {calls : List Call} (hs : s = empty.afterCalls calls)
    (hcalls : ∀ snapshot, Call.request (.restore snapshot) ∉ calls) (now : Timestamp)
    (hdoubles : (Snapshot.ofEntries s.toList now).toJson.DoublesReadBack) :
    (s.Survives now ↔ ∀ e ∈ s.toList, e.IsShallow) ∧
      (Snapshot.ofText (Snapshot.ofEntries s.toList now).text = .error (.unreadable .malformed) ↔
        ∃ e ∈ s.toList, ¬e.IsShallow) := by
  have hsound : s.IsSound := hs ▸ IsSound.empty.steps (steps_afterCalls empty calls)
  have hwritable : s.IsWritable := by
    have hempty : empty.IsWritable := by simp [IsWritable]
    exact hs ▸ hempty.afterCalls hcalls
  by_cases hshallow : ∀ e ∈ s.toList, e.IsShallow
  · have htext := Snapshot.ofText_text hdoubles hwritable fun e he =>
      Entry.isShallow_iff.mp (hshallow e he)
    refine ⟨iff_of_true ⟨_, htext, hsound.entries_restart now⟩ hshallow, iff_of_false ?_ ?_⟩
    · rw [htext]
      nofun
    · rintro ⟨e, he, hdeep⟩
      exact hdeep (hshallow e he)
  · have hdeep : ∃ e ∈ s.toList, ¬e.IsShallow := by simpa using hshallow
    have htext := Snapshot.ofText_text_of_deep hdoubles (hdeep.imp fun e he =>
      ⟨he.1, Nat.lt_of_not_le (mt Entry.isShallow_iff.mpr he.2)⟩)
    refine ⟨iff_of_false ?_ hshallow, iff_of_true htext hdeep⟩
    rintro ⟨loaded, hloaded, -⟩
    simp [htext] at hloaded

end Store

/-! ## The deepest field -/

namespace Json

/-- Arrays inside each other. -/
def nested : Nat → Json
  | 0 => .null
  | n + 1 => .array [nested n]

theorem sorted_nested (n : Nat) : (nested n).Sorted := by
  induction n with
  | zero => trivial
  | succ n ih => exact ⟨ih, trivial⟩

@[simp] theorem depth_nested (n : Nat) : (nested n).depth = n := by
  induction n with
  | zero => rfl
  | succ n ih => simp [nested, Tree.depth, Tree.itemDepth, ih]

@[simp] theorem numbers_nested (n : Nat) : (nested n).numbers = [] := by
  induction n with
  | zero => rfl
  | succ n ih => simp [nested, Tree.numbers, Tree.itemNumbers, ih]

end Json

/-- The double of one half. -/
def Double.half : Double := .finite false (Nat.pow 2 52) 1021 (by decide)

theorem Number.readsBack_half (finite : Double.half.isFinite) :
    (double .half finite).ReadsBack := by
  have htext : Double.half.text? = some ['0', '.', '5'] := by decide +kernel
  have hquotient : (Double.ofInt 5).getD default / Double.powerOfTen 1 = .half := by
    decide +kernel
  have hpower : ((Double.ofInt 5).getD default).timesPower (-1) = some .half := by
    rw [Double.timesPower]
    simp only [Int.natAbs_neg, Int.natAbs_one, Double.largestTen, hquotient]
    rfl
  have hdouble : Literal.toDouble? ⟨false, ['0'], some ['5'], none⟩ = some .half := by
    have hwhole : Literal.append 0 0 ['0'] = (0, 1) := by decide
    have hfraction : Literal.append 0 0 ['5'] = (5, 1) := by decide
    simp [Literal.toDouble?, hwhole, hfraction, hpower]
  refine ⟨⟨false, ['0'], some ['5'], none⟩, by rw [Number.text, htext]; rfl, ?_⟩
  simp [Number.ofLiteral?, hdouble, Number.ofDouble?, finite]

namespace Store

/-- An export of one half with a field of arrays inside each other. -/
def nestedExport (n : Nat) : Export :=
  ⟨"plot", "scalars", .scalar .half,
    some (ExportMetadata.new.putExtra "deep" ⟨Json.nested n, Json.sorted_nested n⟩)⟩

/-- That export, and another one whose entry is removed again. -/
def nestedCalls (n : Nat) : List Call :=
  [.exportData (nestedExport n) ⟨"a"⟩ .noon,
    .exportData ⟨"plot", "functions", .function "x^2", none⟩ ⟨"b"⟩ .noon,
    .request (.remove "functions" ⟨"b"⟩)]

/-- The entry that is left. -/
def nestedEntry (n : Nat) : Entry :=
  empty.newEntry ⟨"a"⟩ .noon "plot" .scalars (.scalar .half) (nestedExport n).metadata

theorem toList_nestedCalls (n : Nat) :
    (empty.afterCalls (nestedCalls n)).toList = [nestedEntry n] := rfl

theorem restore_not_mem_nestedCalls (n : Nat) (snapshot : Snapshot) :
    Call.request (.restore snapshot) ∉ nestedCalls n := by simp [nestedCalls]

theorem doublesReadBack_nestedCalls (n : Nat) :
    (Snapshot.ofEntries (empty.afterCalls (nestedCalls n)).toList
      .noon).toJson.DoublesReadBack := by
  obtain ⟨_, hversion⟩ : ∃ h, Json.ofNat Snapshot.currentVersion = .number (.integer 1 h) :=
    Json.ofNat_word 1
  obtain ⟨_, hsequence⟩ := Json.ofNat_word (nestedEntry n).sequence
  have hpayload : (nestedEntry n).payload.toJson.numbers = [.double .half rfl] := rfl
  have hextra : (nestedEntry n).metadata.extra.members = [("deep", Json.nested n)] := rfl
  intro x finite hx
  rw [toList_nestedCalls] at hx
  simp [Snapshot.ofEntries, Snapshot.toJson, Json.ofList, Entry.toJson, Metadata.toJson,
    EntryId.toJson, Category.toJson, Timestamp.toJson, Tree.numbers, Tree.itemNumbers,
    Tree.memberNumbers, hversion, hsequence, hpayload, hextra] at hx
  rw [hx]
  exact Number.readsBack_half rfl

/-- A field that is as deep as it may be. -/
theorem survives_iff_deepest : (empty.afterCalls (nestedCalls 123)).Survives .noon := by
  refine (survives_iff rfl (restore_not_mem_nestedCalls 123) .noon
    (doublesReadBack_nestedCalls 123)).1.mpr fun e he => ?_
  rw [toList_nestedCalls, List.mem_singleton] at he
  subst he
  intro field hfield
  obtain rfl := List.mem_singleton.mp hfield
  exact (Json.depth_nested 123).le

/-- One array more, and nothing of what export has accepted can be loaded. -/
theorem lost_nestedCalls :
    (∀ snapshot, Call.request (.restore snapshot) ∉ nestedCalls 124) ∧
      (empty.afterCalls (nestedCalls 124)).toList = [nestedEntry 124] ∧
      (Snapshot.ofEntries [nestedEntry 124] .noon).toJson.DoublesReadBack ∧
      Snapshot.ofText (Snapshot.ofEntries [nestedEntry 124] .noon).text =
        .error (.unreadable .malformed) ∧
      ¬(empty.afterCalls (nestedCalls 124)).Survives .noon := by
  have hdoubles := doublesReadBack_nestedCalls 124
  rw [toList_nestedCalls] at hdoubles
  have hdeep : Snapshot.entryRoom < (nestedEntry 124).toJson.depth := by
    refine Nat.lt_of_not_le fun hroom => ?_
    have hfield := Entry.isShallow_iff.mpr hroom ("deep", Json.nested 124) List.mem_cons_self
    rw [Json.depth_nested] at hfield
    exact absurd hfield (by decide)
  have htext := Snapshot.ofText_text_of_deep hdoubles ⟨_, List.mem_singleton_self _, hdeep⟩
  refine ⟨restore_not_mem_nestedCalls 124, toList_nestedCalls 124, hdoubles, htext, ?_⟩
  rintro ⟨loaded, hloaded, -⟩
  rw [toList_nestedCalls] at hloaded
  simp [htext] at hloaded

end Store
end LabExchange
