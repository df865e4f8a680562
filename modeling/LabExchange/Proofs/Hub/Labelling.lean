import LabExchange.Proofs.Hub.Mutations
import LabExchange.Proofs.Hub.Numbering
import LabExchange.Proofs.Json.Sorting

/-!
# Labels of exported entries

A producer sets the metadata of an export by name, by field or straight in the map of further
fields. However it goes about this, the entry has what was written last under each key, and for the
keys of the hub what the hub makes of it.
-/
namespace LabExchange

/-! ## Further fields -/

namespace Fields

@[simp] theorem get?_insert (fields : Fields) (key : String) (value : Value) (other : String) :
    (fields.insert key value).get? other =
      if key = other then some value.json else fields.get? other :=
  Tree.find?_put key value.json fields.members other

@[simp] theorem get?_dropNames (fields : Fields) (names : List String) (key : String) :
    (fields.dropNames names).get? key = if key ∈ names then none else fields.get? key := by
  change Tree.find? key (fields.members.filter fun m => !names.contains m.1) =
    if key ∈ names then none else Tree.find? key fields.members
  induction fields.members with
  | nil => rw [List.filter_nil, Tree.find?, List.find?_nil, Option.map_none, ite_self]
  | cons member rest ih =>
    obtain ⟨k, v⟩ := member
    by_cases hk : k ∈ names
    · rw [List.filter_cons_of_neg (by simpa using hk), ih, Tree.find?_cons]
      by_cases heq : k = key
      · rw [if_pos (heq ▸ hk), if_pos (heq ▸ hk)]
      · rw [if_neg heq]
    · rw [List.filter_cons_of_pos (by simpa using hk), Tree.find?_cons, Tree.find?_cons, ih]
      by_cases heq : k = key
      · rw [if_pos heq, if_neg (heq ▸ hk), if_pos heq]
      · rw [if_neg heq, if_neg heq]

theorem nodup_keys (fields : Fields) : (fields.members.map Prod.fst).Nodup :=
  Tree.KeysIncrease.nodup fields.sorted.1

theorem mem_members_iff {fields : Fields} {key : String} {json : Json} :
    (key, json) ∈ fields.members ↔ fields.get? key = some json :=
  (Tree.find?_eq_some_iff fields.nodup_keys).symm

end Fields

/-! ## Writes -/

/-- The hub keeps the field under a key itself. -/
def IsOwnKey (key : String) : Prop := key = "name" ∨ key = "description" ∨ key = "timestamp"

instance (key : String) : Decidable (IsOwnKey key) := inferInstanceAs (Decidable (_ ∨ _))

@[simp] theorem mem_reservedNames {key : String} : key ∈ reservedNames ↔ IsOwnKey key := by
  simp [reservedNames, IsOwnKey]

/-- One step in setting the metadata of an export. -/
inductive Edit where
  | name (text : String)
  | description (text : String)
  | field (key : String) (value : Value)
  /-- Straight among the further fields. -/
  | extra (key : String) (value : Value)

namespace Edit

def apply (m : ExportMetadata) : Edit → ExportMetadata
  | name text => m.withName text
  | description text => m.withDescription text
  | field key value => m.withField key value
  | extra key value => m.putExtra key value

/-- What an edit writes, and under which key. The time cannot be written, and nothing of the hub's
own by way of the further fields. -/
def write? : Edit → Option (String × Json)
  | name text => some ("name", .string text)
  | description text => some ("description", .string text)
  | field key value => if key = "timestamp" then none else some (key, value.json)
  | extra key value => if IsOwnKey key then none else some (key, value.json)

/-- The metadata that edits lead to. They begin with no more than a name. -/
def built (start : Option String) (edits : List Edit) : ExportMetadata :=
  edits.foldl apply (match start with | none => .new | some text => .named text)

/-- All that is written, beginning with that name. -/
def writes (start : Option String) (edits : List Edit) : List (String × Json) :=
  (match start with | none => [] | some text => [("name", .string text)]) ++ edits.filterMap write?

end Edit

/-- What was written last under a key. -/
def lastWritten (writes : List (String × Json)) (key : String) : Option Json :=
  ((writes.filter (·.1 = key)).getLast?).map Prod.snd

@[simp] theorem lastWritten_concat (writes : List (String × Json)) (key : String) (json : Json)
    (other : String) :
    lastWritten (writes ++ [(key, json)]) other =
      if key = other then some json else lastWritten writes other := by
  by_cases h : key = other <;> simp [lastWritten, List.filter_append, h]

/-- A document as a label: a string as it is, anything else as its compact text. -/
def labelText : Json → String
  | .string text => text
  | json => Json.compact json

theorem textOf_eq (value : Value) : ExportMetadata.textOf value = labelText value.json := rfl

/-- A value that is not a string can be read back from its label. -/
theorem ofText?_textOf {value : Value} (hstring : ∀ text, value.json ≠ .string text)
    (hnumbers : ∀ n ∈ value.json.numbers, n.ReadsBack)
    (hdepth : value.json.depth ≤ Draft.maxDepth) :
    Json.ofText? (ExportMetadata.textOf value) = some value.json := by
  have hlabel : ExportMetadata.textOf value = Json.compact value.json := by
    rw [textOf_eq, labelText]
    exact hstring
  rw [hlabel, Json.ofText?_compact_eq hnumbers, if_pos hdepth, Json.normal_eq_self value.sorted]

namespace ExportMetadata

/-- The metadata of an export has what was written last. -/
structure Holds (m : ExportMetadata) (writes : List (String × Json)) : Prop where
  name : m.name = (lastWritten writes "name").map labelText
  description : m.description = (lastWritten writes "description").map labelText
  extra : ∀ key, ¬IsOwnKey key → m.extra.get? key = lastWritten writes key

variable {m : ExportMetadata} {writes : List (String × Json)}

theorem Holds.withName (h : m.Holds writes) {json : Json} {text : String}
    (htext : labelText json = text) : (m.withName text).Holds (writes ++ [("name", json)]) where
  name := by rw [lastWritten_concat, if_pos rfl, Option.map_some, htext]; rfl
  description := by rw [lastWritten_concat, if_neg (by decide)]; exact h.description
  extra key hkey := by
    rw [lastWritten_concat, if_neg fun heq => hkey (.inl heq.symm)]
    exact h.extra key hkey

theorem Holds.withDescription (h : m.Holds writes) {json : Json} {text : String}
    (htext : labelText json = text) :
    (m.withDescription text).Holds (writes ++ [("description", json)]) where
  name := by rw [lastWritten_concat, if_neg (by decide)]; exact h.name
  description := by rw [lastWritten_concat, if_pos rfl, Option.map_some, htext]; rfl
  extra key hkey := by
    rw [lastWritten_concat, if_neg fun heq => hkey (.inr (.inl heq.symm))]
    exact h.extra key hkey

theorem Holds.putExtra (h : m.Holds writes) {key : String} (hkey : ¬IsOwnKey key) (value : Value) :
    (m.putExtra key value).Holds (writes ++ [(key, value.json)]) where
  name := by rw [lastWritten_concat, if_neg fun heq => hkey (.inl heq)]; exact h.name
  description := by
    rw [lastWritten_concat, if_neg fun heq => hkey (.inr (.inl heq))]
    exact h.description
  extra other hother := by
    rw [lastWritten_concat, ← h.extra other hother]
    exact m.extra.get?_insert key value other

/-- What goes among the further fields under a key of the hub is not looked at. -/
theorem Holds.putExtra_own (h : m.Holds writes) {key : String} (hkey : IsOwnKey key)
    (value : Value) : (m.putExtra key value).Holds writes where
  name := h.name
  description := h.description
  extra other hother := by
    have hne : key ≠ other := fun heq => hother (heq ▸ hkey)
    have hget := m.extra.get?_insert key value other
    rw [if_neg hne] at hget
    exact hget.trans (h.extra other hother)

theorem Holds.apply (h : m.Holds writes) (edit : Edit) :
    (edit.apply m).Holds (writes ++ edit.write?.toList) := by
  cases edit with
  | name text => exact h.withName rfl
  | description text => exact h.withDescription rfl
  | field key value =>
    -- A field under a key of the hub is one of the typed setters, or nothing.
    by_cases hname : key = "name"
    · subst hname
      exact h.withName (textOf_eq value).symm
    by_cases hdescription : key = "description"
    · subst hdescription
      exact h.withDescription (textOf_eq value).symm
    by_cases htime : key = "timestamp"
    · subst htime
      simpa [Edit.apply, Edit.write?, withField] using h
    · have hkey : ¬IsOwnKey key := by simp [IsOwnKey, hname, hdescription, htime]
      have happly : (Edit.field key value).apply m = m.putExtra key value := by
        simp only [Edit.apply, withField, hname, hdescription, htime, if_false]
        rfl
      rw [happly, Edit.write?, if_neg htime]
      exact h.putExtra hkey value
  | extra key value =>
    by_cases hkey : IsOwnKey key
    · rw [Edit.write?, if_pos hkey, Option.toList_none, List.append_nil]
      exact h.putExtra_own hkey value
    · rw [Edit.write?, if_neg hkey]
      exact h.putExtra hkey value

theorem holds_built (start : Option String) (edits : List Edit) :
    (Edit.built start edits).Holds (Edit.writes start edits) := by
  induction edits using List.reverseRecOn with
  | nil =>
    cases start with
    | none => exact ⟨rfl, rfl, fun _ _ => rfl⟩
    | some text =>
      have hnew : new.Holds [] := ⟨rfl, rfl, fun _ _ => rfl⟩
      exact hnew.withName (show labelText (.string text) = text from rfl)
  | append_singleton edits edit ih =>
    have hwrites : Edit.writes start (edits ++ [edit]) =
        Edit.writes start edits ++ edit.write?.toList := by
      cases h : edit.write? <;> simp [Edit.writes, h]
    have hbuilt : Edit.built start (edits ++ [edit]) = edit.apply (Edit.built start edits) := by
      simp [Edit.built]
    rw [hwrites, hbuilt]
    exact ih.apply edit

end ExportMetadata

/-! ## The labels of an entry -/

namespace Entry

/-- The metadata of an entry is that of its export, and what was not written is made up. -/
structure IsLabelledBy (e : Entry) (writes : List (String × Json)) (tab : String)
    (now : Timestamp) : Prop where
  timestamp : e.metadata.timestamp = now
  name : e.metadata.name = ((lastWritten writes "name").map labelText).getD
    (e.category.name ++ "_" ++ String.ofList (e.id.text.toList.take 6))
  description : e.metadata.description =
    ((lastWritten writes "description").map labelText).getD ("Exported from " ++ tab)
  extra : ∀ key, e.metadata.extra.get? key =
    if IsOwnKey key then none else lastWritten writes key
  /-- There are no other further fields, and none stands twice. -/
  members : ∀ key json, (key, json) ∈ e.metadata.extra.members ↔
    ¬IsOwnKey key ∧ lastWritten writes key = some json
  nodup : (e.metadata.extra.members.map Prod.fst).Nodup

end Entry

theorem ExportMetadata.Holds.get?_dropNames {m : ExportMetadata} {writes : List (String × Json)}
    (h : m.Holds writes) (key : String) : (m.extra.dropNames reservedNames).get? key =
      if IsOwnKey key then none else lastWritten writes key := by
  simp only [Fields.get?_dropNames, mem_reservedNames]
  split
  · rfl
  · next hkey => exact h.extra key hkey

theorem Store.isLabelledBy_newEntry (s : Store) (id : EntryId) (now : Timestamp) (tab : String)
    (c : Category) (p : Payload) {m : ExportMetadata} {writes : List (String × Json)}
    (h : m.Holds writes) : (s.newEntry id now tab c p (some m)).IsLabelledBy writes tab now where
  timestamp := rfl
  name := h.name ▸ rfl
  description := h.description ▸ rfl
  extra := h.get?_dropNames
  members key json := by
    have hmem : (key, json) ∈ (m.extra.dropNames reservedNames).members ↔ _ :=
      Fields.mem_members_iff
    rw [h.get?_dropNames] at hmem
    refine hmem.trans ?_
    by_cases hkey : IsOwnKey key <;> simp [hkey]
  nodup := Fields.nodup_keys _

namespace World

variable {σ : Type} {w : World σ} {hub : Nat} {h : Hub σ} {supply : Supply} {patience : Nat}
  {x : Store.Export} {id : EntryId}

/-- An export that succeeds stores an entry with what was written last under each key of its
metadata. The time is always that of the export, and none of the keys of the hub is among the
further fields. -/
theorem isLabelledBy_of_export {start : Option String} {edits : List Edit}
    (hhub : w.hub? hub = some h) (hbuilt : x.metadata = some (Edit.built start edits))
    (hgives : (w.reply supply patience (.exportData hub x)).Gives (some (.ok id))) :
    ∃ e, e.id = id ∧ e.category.name = x.category ∧
      ((w.reply supply patience (.exportData hub x)).world w).store? hub =
        some (h.store.takeIn e) ∧
      e.IsLabelledBy (Edit.writes start edits) x.tab (supply.time w.drawnTimes) := by
  obtain ⟨c, hcategory, hstore⟩ := exists_newEntry_of_export hhub hgives
  refine ⟨_, rfl, hcategory, hstore, ?_⟩
  rw [hbuilt]
  exact h.store.isLabelledBy_newEntry _ _ _ _ _ (ExportMetadata.holds_built start edits)

/-- Steps of all kinds, also under keys of the hub. -/
def mixedEdits : List Edit :=
  [.field "unit" ⟨.string "m", trivial⟩, .field "name" ⟨.bool true, trivial⟩,
    .field "timestamp" ⟨.null, trivial⟩, .extra "unit" ⟨.string "cm", trivial⟩,
    .extra "description" ⟨.string "none", trivial⟩]

def mixedExport : Store.Export :=
  ⟨"plot", "functions", .function "x^2", some (Edit.built (some "Square") mixedEdits)⟩

theorem isLabelledBy_of_export_mixed : ∃ e : Entry,
    ((worldWithNumber 0).reply standingSupply 1 (.exportData 0 mixedExport)).Gives
      (some (.ok e.id)) ∧
    e.metadata.timestamp = .noon ∧ e.metadata.name = "true" ∧
    e.metadata.description = "Exported from plot" ∧
    e.metadata.extra.get? "unit" = some (.string "cm") ∧
    e.metadata.extra.get? "description" = none := by
  have hhub : (worldWithNumber 0).hub? 0 = some (hubWithNumber 0) := rfl
  have hgives : ((worldWithNumber 0).reply standingSupply 1 (.exportData 0 mixedExport)).Gives
      (some (.ok ⟨"a"⟩)) := ⟨⟨0, 0⟩, rfl⟩
  obtain ⟨e, hid, -, -, hlabels⟩ := isLabelledBy_of_export hhub rfl hgives
  have hname : lastWritten (Edit.writes (some "Square") mixedEdits) "name" =
      some (.bool true) := rfl
  have hdescription :
      lastWritten (Edit.writes (some "Square") mixedEdits) "description" = none := rfl
  have hunit : lastWritten (Edit.writes (some "Square") mixedEdits) "unit" =
      some (.string "cm") := rfl
  refine ⟨e, hid ▸ hgives, hlabels.timestamp, ?_, ?_, ?_, ?_⟩
  · rw [hlabels.name, hname, Option.map_some, Option.getD_some]
    decide
  · rw [hlabels.description, hdescription]
    rfl
  · rw [hlabels.extra, hunit]
    rfl
  · rw [hlabels.extra]
    rfl

end World
end LabExchange
