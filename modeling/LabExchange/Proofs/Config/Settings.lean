import LabExchange.Config
import LabExchange.Proofs.Files.Standing
import LabExchange.Proofs.Json.Grammar
import LabExchange.Proofs.Json.Sorting
import LabExchange.Proofs.Text.Splitting

/-!
# Settings that are kept in a file

Settings that have been written to a file are read back from it, whatever stands in their texts.
A file may also give only some of the settings, in any order, in any spelling and with anything
else between them: those are in force, and the others have their defaults.
-/
namespace LabExchange

/-- One of the settings, with its value. -/
inductive Setting where
  | snapshotFile (file : Option String)
  | restoreOnStart (restore : Bool)
  | saveOnExit (save : Bool)
  | logFilter (filter : String)
  deriving DecidableEq

namespace Setting

/-- The name of a setting in a file. -/
def name : Setting → String
  | snapshotFile _ => "snapshot_file"
  | restoreOnStart _ => "restore_on_start"
  | saveOnExit _ => "save_on_exit"
  | logFilter _ => "log_filter"

/-- The value of a setting in a file. -/
def draft : Setting → Draft
  | snapshotFile none => .null
  | snapshotFile (some file) => .string file
  | restoreOnStart restore => .bool restore
  | saveOnExit save => .bool save
  | logFilter filter => .string filter

/-- The value of a setting is a leaf, which is never too deep. -/
theorem prune_draft (s : Setting) (room : Nat) : s.draft.prune room = s.draft := by
  cases s with
  | snapshotFile file => cases file <;> rfl
  | restoreOnStart | saveOnExit | logFilter => rfl

/-- A setting is known by its name and its value. -/
theorem eq_of_draft_eq {s t : Setting} (hname : s.name = t.name) (hdraft : s.draft = t.draft) :
    s = t := by
  cases s with
  | snapshotFile file =>
    cases t with
    | snapshotFile other => cases file <;> cases other <;> simp_all [draft]
    | restoreOnStart | saveOnExit | logFilter => simp [name] at hname
  | restoreOnStart restore =>
    cases t with
    | restoreOnStart other => simpa [draft] using hdraft
    | snapshotFile | saveOnExit | logFilter => simp [name] at hname
  | saveOnExit save =>
    cases t with
    | saveOnExit other => simpa [draft] using hdraft
    | snapshotFile | restoreOnStart | logFilter => simp [name] at hname
  | logFilter filter =>
    cases t with
    | logFilter other => simpa [draft] using hdraft
    | snapshotFile | restoreOnStart | saveOnExit => simp [name] at hname

end Setting

/-- Members that give settings: each one at most once, and with a value of its type. What stands
under other names may be anything. -/
structure GivesSettings (members : List (String × Draft)) : Prop where
  once : ∀ s : Setting, (members.map Prod.fst).count s.name ≤ 1
  typed : ∀ (s : Setting) (d : Draft), (s.name, d) ∈ members →
    ∃ t : Setting, t.name = s.name ∧ t.draft = d

namespace HubConfig

/-- All settings with their values. -/
def settings (c : HubConfig) : List Setting :=
  [.snapshotFile c.snapshotFile, .restoreOnStart c.restoreOnStart, .saveOnExit c.saveOnExit,
    .logFilter c.logFilter]

/-- A setting that members bring into force: they give it, or it is a default and they give no
other one. -/
def InForce (members : List (String × Draft)) (s : Setting) : Prop :=
  (s.name, s.draft) ∈ members ∨ s ∈ default.settings ∧ s.name ∉ members.map Prod.fst

end HubConfig

namespace Tree

variable {α β : Type} {name : String} {members : List (String × α)}

theorem find?_map (f : α → β) (name : String) (members : List (String × α)) :
    find? name (members.map fun m => (m.1, f m.2)) = (find? name members).map f := by
  induction members with
  | nil => rfl
  | cons member rest ih =>
    rw [List.map_cons, find?_cons, find?_cons, ih]
    split <;> rfl

theorem pruneMembers_eq_map (room : Nat) (members : List (String × Draft)) :
    pruneMembers room members = members.map fun m => (m.1, m.2.prune room) := by
  induction members with
  | nil => rfl
  | cons member rest ih => rw [pruneMembers, ih]; rfl

/-- Cutting off what is too deep leaves a field that does not stand twice in its place. -/
theorem field?_pruneMembers {members : List (String × Draft)}
    (h : (members.map Prod.fst).count name ≤ 1) (room : Nat) :
    field? name (pruneMembers room members) = some ((find? name members).map (·.prune room)) := by
  rw [pruneMembers_eq_map, ← find?_map]
  exact field?_eq_find? (by rwa [List.map_map])

end Tree

namespace GivesSettings

open HubConfig (InForce)

variable {members : List (String × Draft)} {s t : Setting}

/-- The field of a kind of settings is decoded as the one of that kind that is in force. -/
theorem exists_decoded {α : Type} (h : GivesSettings members) (room : Nat) (make : α → Setting)
    (decode? : Draft → Option α) (standard : α) {name : String}
    (hname : ∀ a, (make a).name = name) (hkind : ∀ t : Setting, t.name = name → ∃ a, t = make a)
    (hdecode : ∀ a, decode? (make a).draft = some a)
    (hstandard : make standard ∈ HubConfig.default.settings) :
    ∃ field a, Tree.field? name (Tree.pruneMembers room members) = some field ∧
      (field.map decode?).getD (some standard) = some a ∧ InForce members (make a) := by
  have honce := h.once (make standard)
  rw [hname] at honce
  rw [Tree.field?_pruneMembers honce]
  cases hfind : Tree.find? name members with
  | none =>
    have hmissing := Tree.find?_eq_none_iff.mp hfind
    exact ⟨none, standard, rfl, rfl, .inr ⟨hstandard, by rwa [hname]⟩⟩
  | some d =>
    have hgiven := (Tree.find?_eq_some_iff_of_count honce).mp hfind
    obtain ⟨t, htname, rfl⟩ := h.typed (make standard) d (by rwa [hname])
    obtain ⟨a, rfl⟩ := hkind t (htname.trans (hname standard))
    refine ⟨some (make a).draft, a, ?_, ?_, .inl ?_⟩
    · rw [Option.map_some, Setting.prune_draft]
    · rw [Option.map_some, Option.getD_some, hdecode]
    · rwa [hname]

/-- Only one setting of each kind is in force. -/
theorem eq_of_inForce (h : GivesSettings members) (hs : InForce members s)
    (ht : InForce members t) (hname : s.name = t.name) : s = t := by
  have hgiven : ∀ {u : Setting}, (u.name, u.draft) ∈ members → u.name ∈ members.map Prod.fst :=
    fun hu => List.mem_map_of_mem hu
  rcases hs with hs | ⟨hs, hsmissing⟩ <;> rcases ht with ht | ⟨ht, htmissing⟩
  · rw [← Tree.find?_eq_some_iff_of_count (h.once _)] at hs ht
    rw [hname, ht] at hs
    exact Setting.eq_of_draft_eq hname (Option.some.inj hs).symm
  · exact absurd (hname ▸ hgiven hs) htmissing
  · exact absurd (hname ▸ hgiven ht) hsmissing
  · have hdefaults : ∀ u ∈ HubConfig.default.settings, ∀ v ∈ HubConfig.default.settings,
        u.name = v.name → u = v := by decide
    exact hdefaults s hs t ht hname

/-- Members that give settings are decoded as the settings that they bring into force. -/
theorem exists_ofTree? (h : GivesSettings members) (room : Nat) :
    ∃ c, HubConfig.ofTree? (.object (Tree.pruneMembers room members)) = some c ∧
      ∀ s, s ∈ c.settings ↔ InForce members s := by
  obtain ⟨fileField, file, hfileField, hfile, hinFile⟩ :=
    h.exists_decoded room .snapshotFile (·.asOption? Tree.asString?) none (fun _ => rfl)
      (fun t ht => by cases t <;> simp_all [Setting.name]) (by rintro (_ | file) <;> rfl)
      (by decide)
  obtain ⟨restoreField, restore, hrestoreField, hrestore, hinRestore⟩ :=
    h.exists_decoded room .restoreOnStart Tree.asBool? true (fun _ => rfl)
      (fun t ht => by cases t <;> simp_all [Setting.name]) (fun _ => rfl) (by decide)
  obtain ⟨saveField, save, hsaveField, hsave, hinSave⟩ :=
    h.exists_decoded room .saveOnExit Tree.asBool? true (fun _ => rfl)
      (fun t ht => by cases t <;> simp_all [Setting.name]) (fun _ => rfl) (by decide)
  obtain ⟨filterField, filter, hfilterField, hfilter, hinFilter⟩ :=
    h.exists_decoded room .logFilter Tree.asString? HubConfig.default.logFilter (fun _ => rfl)
      (fun t ht => by cases t <;> simp_all [Setting.name]) (fun _ => rfl) (by decide)
  have hin : ∀ s ∈ (⟨file, restore, save, filter⟩ : HubConfig).settings, InForce members s := by
    simpa [HubConfig.settings] using ⟨hinFile, hinRestore, hinSave, hinFilter⟩
  refine ⟨⟨file, restore, save, filter⟩, ?_, fun s => ⟨hin s, fun hs => ?_⟩⟩
  · simp [HubConfig.ofTree?, Tree.fields?, hfileField, hrestoreField, hsaveField, hfilterField,
      hfile, hrestore, hsave, hfilter]
  · obtain ⟨t, ht, hname⟩ : ∃ t ∈ (⟨file, restore, save, filter⟩ : HubConfig).settings,
        s.name = t.name := by
      cases s <;> simp [HubConfig.settings, Setting.name]
    rwa [h.eq_of_inForce hs (hin t ht) hname]

end GivesSettings

namespace HubConfig

/-- Settings are read as they are written. -/
theorem read_pretty (c : HubConfig) : Json.read ofTree? (Json.pretty c.toJson) = .ok c := by
  have hnumbers : ∀ n ∈ c.toJson.numbers, n.ReadsBack := by
    rcases c with ⟨_ | file, restore, save, filter⟩ <;>
      simp [toJson, Json.ofOption, Tree.numbers, Tree.memberNumbers]
  have hdepth : (Json.draft c.toJson).depth = 1 := by
    rcases c with ⟨_ | file, restore, save, filter⟩ <;> rfl
  have hdecode : ofTree? (Json.draft c.toJson) = some c := by
    rcases c with ⟨_ | file, restore, save, filter⟩ <;> rfl
  have hroom : (Json.draft c.toJson).depth ≤ Draft.maxDepth := by
    rw [hdepth]
    decide
  simp only [Json.read, Json.draftOfText?_pretty hnumbers, Tree.prune_eq_self hroom,
    Option.bind_some, hdecode]

variable {files files' : Files} {path text : String} {c : HubConfig}
  {members : List (String × Draft)}

theorem load_of_read (hread : files.read path = .ok text) (h : Json.read ofTree? text = .ok c) :
    load files path = .ok (c, []) := by
  simp only [load, Files.exists?_of_read hread, hread, h, Bool.not_true, Bool.false_eq_true,
    if_false]

/-- Settings that have been saved are in the file. -/
theorem read_of_save (h : save files path c = (.ok (), files')) :
    files'.read path = .ok (Json.pretty c.toJson) := by
  unfold save at h
  split at h
  · cases h
  · split at h
    · cases h
    · next hwrite =>
      obtain ⟨-, rfl⟩ := Prod.mk.inj h
      exact Files.read_of_write hwrite

/-- A text that gives settings is read as what it brings into force. -/
theorem exists_read (htext : Draft.Says text.toList (.object members))
    (h : GivesSettings members) :
    ∃ c, Json.read ofTree? text = .ok c ∧ ∀ s, s ∈ c.settings ↔ InForce members s := by
  obtain ⟨c, hdecode, hsettings⟩ := h.exists_ofTree? (Draft.maxDepth - 1)
  refine ⟨c, ?_, hsettings⟩
  have hprune : Tree.prune Draft.maxDepth (.object members) =
      .object (Tree.pruneMembers (Draft.maxDepth - 1) members) := by
    rw [Tree.prune, if_neg (by decide)]
  simp only [Json.read, htext.ofText?_eq, hprune, Option.bind_some, hdecode]

/-- Settings that have been saved are loaded again as they were. A file that gives some of the
settings, each one at most once and with a value of its type, is loaded with just these in force
and with the defaults of the others, in whatever order and spelling they stand and whatever else
stands beside them. -/
theorem load_gives_settings :
    (∀ files path c files', save files path c = (.ok (), files') →
      load files' path = .ok (c, [])) ∧
    ∀ files path text members, files.read path = .ok text →
      Draft.Says text.toList (.object members) → GivesSettings members →
      ∃ c, load files path = .ok (c, []) ∧ ∀ s, s ∈ c.settings ↔ InForce members s := by
  refine ⟨fun files path c files' h => load_of_read (read_of_save h) (read_pretty c), ?_⟩
  intro files path text members hread htext hgives
  obtain ⟨c, hc, hsettings⟩ := exists_read htext hgives
  exact ⟨c, load_of_read hread hc, hsettings⟩

/-! ## A file of somebody else -/

/-- A file with two of the settings and with something else between them. A name is spelled with
an escape, and what is between them has no value. -/
def mixedText : String :=
  " \x7b \"\\u0073ave_on_exit\" :false,\"theme\":[\"\\ud800\"], \"snapshot_file\":\"a\\\\b\"\x7d"

/-- What it says. -/
def mixedMembers : List (String × Draft) :=
  [("save_on_exit", .bool false), ("theme", .array [.defect .loneSurrogate]),
    ("snapshot_file", .string "a\\b")]

open Draft in
theorem says_mixedText : Says mixedText.toList (.object mixedMembers) := by
  have hgap : IsGap [' '] := by simp [IsGap]
  have hnone : IsGap [] := by simp [IsGap]
  have hsave : SpellsString (some "save_on_exit")
      ('"' :: ('\\' :: 'u' :: '0' :: '0' :: '7' :: '3' :: "ave_on_exit".toList ++ ['"'])) := by
    have hs : "save_on_exit".toList = Char.ofNat 0x73 :: "ave_on_exit".toList := by
      decide +kernel
    refine .text (.unit rfl rfl rfl rfl (Piece.spells_plain (by simp))) ?_
    rw [hs]
    exact .unit (by decide) (Piece.denotes_chars _)
  have htheme : SpellsString (some "theme") ('"' :: ("theme".toList ++ ['"'])) :=
    .text (Piece.spells_plain (by simp)) (Piece.denotes_chars _)
  have hfile : SpellsString (some "snapshot_file") ('"' :: ("snapshot_file".toList ++ ['"'])) :=
    .text (Piece.spells_plain (by simp)) (Piece.denotes_chars _)
  have hpath : SpellsString (some "a\\b") ['"', 'a', '\\', '\\', 'b', '"'] := by
    have hs : "a\\b".toList = ['a', '\\', 'b'] := by decide +kernel
    have hspells : Piece.Spells [.char 'a', .char '\\', .char 'b'] ['a', '\\', '\\', 'b'] :=
      .plain (by decide) (by decide) (by decide) (.short (by decide)
        (.plain (by decide) (by decide) (by decide) .nil))
    exact .text hspells (hs ▸ Piece.denotes_chars ['a', '\\', 'b'])
  have hlone : SpellsString none ['"', '\\', 'u', 'd', '8', '0', '0', '"'] := by
    refine .nothing (.unit rfl rfl rfl rfl .nil) fun denoted h => ?_
    cases h with
    | unit hu => exact absurd hu (by decide)
  have hmembers : SaysMembers _ (mixedMembers.map fun m => (some m.1, m.2)) :=
    .cons (.intro hgap hsave hgap) .false
      (.cons (.intro hnone htheme hnone) (.array (.last (.string hlone)))
        (.last (.intro hgap hfile hnone) (.string hpath)))
  convert Says.spaced hgap (Says.object hmembers) hnone using 1
  decide +kernel

theorem givesSettings_mixed : GivesSettings mixedMembers where
  once s := List.nodup_iff_count_le_one.mp (by decide) s.name
  typed s d h := by
    simp only [mixedMembers, List.mem_cons, Prod.mk.injEq, List.not_mem_nil, or_false] at h
    rcases h with ⟨hname, rfl⟩ | ⟨hname, rfl⟩ | ⟨hname, rfl⟩
    · exact ⟨.saveOnExit false, hname.symm, rfl⟩
    · cases s <;> simp [Setting.name] at hname
    · exact ⟨.snapshotFile (some "a\\b"), hname.symm, rfl⟩

theorem names_config : Path.names "config.json" = [] ++ ["config.json"] := by
  rw [Path.names_eq]
  decide +kernel

/-- A directory with one file. -/
def shelf (text : String) : Files :=
  ⟨["work"], .directory [("work", .directory [("config.json", .file text)])]⟩

theorem read_shelf (text : String) : (shelf text).read "config.json" = .ok text := by
  refine Files.read_of_walk ["work", "config.json"] (by decide +kernel) (by decide +kernel)
    names_config ?_ rfl
  rw [Files.start, if_neg (by decide +kernel)]
  rfl

theorem exists_save_shelf (text : String) (c : HubConfig) :
    ∃ files, save (shelf text) "config.json" c = (.ok (), files) := by
  have hbeginning : Path.beginning "config.json" = ("", "config.json") := by decide +kernel
  have hparent : Path.parent? "config.json" = some "" := by
    have hsplit : "config.json".splitOn "/" = _ := Text.splitOn_singleton "config.json" '/'
    simp only [Path.parent?, hbeginning, hsplit]
    decide +kernel
  obtain ⟨files, hwrite⟩ := Files.exists_write_of_read names_config (by decide) (read_shelf text)
    (Json.pretty c.toJson)
  exact ⟨files, by simp only [save, makeDirectoryOf, hparent, Files.makeDirectory, if_true, hwrite]⟩

/-- Settings with quotes, a control character and one beyond the first 65536 in their texts. -/
def oddConfig : HubConfig := ⟨some "a\"b\\c.json", false, true, "\x01\n😀"⟩

theorem load_gives_settings_odd :
    (∃ files, save (shelf mixedText) "config.json" oddConfig = (.ok (), files) ∧
      load files "config.json" = .ok (oddConfig, [])) ∧
    (shelf mixedText).read "config.json" = .ok mixedText ∧
    Draft.Says mixedText.toList (.object mixedMembers) ∧ GivesSettings mixedMembers ∧
    ∃ c, load (shelf mixedText) "config.json" = .ok (c, []) ∧
      ∀ s, s ∈ c.settings ↔ InForce mixedMembers s := by
  obtain ⟨files, hsave⟩ := exists_save_shelf mixedText oddConfig
  exact ⟨⟨files, hsave, load_gives_settings.1 _ _ _ _ hsave⟩, read_shelf mixedText,
    says_mixedText, givesSettings_mixed,
    load_gives_settings.2 _ _ _ _ (read_shelf mixedText) says_mixedText givesSettings_mixed⟩

end HubConfig
end LabExchange
