import LabExchange.Proofs.CommandLine.Keeping
import LabExchange.Proofs.Config.Settings
import LabExchange.Proofs.Hub.ReadEntries
import LabExchange.Proofs.Hub.Refusals
import LabExchange.Proofs.Text.Splitting

/-!
# What a run spares

What a run is not asked to remove is still there after it, in the old order, if the run restores
the snapshot whenever it saves. A run that saves without having restored loses all of it.
-/
namespace LabExchange

/-- What a new hub restores from a snapshot, category by category. -/
def Snapshot.restored (s : Snapshot) (c : Category) : List Entry :=
  (Store.empty.restore s).store.entries c

/-- Entries of one category under different ids are all restored. -/
theorem Snapshot.restored_ofEntries {entries : List Entry} {now : Timestamp} {d : Category}
    (hfiled : ∀ e ∈ entries, e.payload.category = d ∧ e.category = d)
    (hids : (entries.map (·.id)).Nodup) (c : Category) :
    (ofEntries entries now).restored c = if c = d then entries else [] := by
  have hfits : ∀ e ∈ entries, e.payload.category = e.category := fun e he =>
    (hfiled e he).1.trans (hfiled e he).2.symm
  have h : Store.empty.restoreEntries entries = _ :=
    Store.restoreEntries_eq_takeAll hfits hids fun e _ => List.not_mem_nil
  have hstore : (Store.empty.restore (ofEntries entries now)).store = Store.empty.takeAll entries :=
    congrArg Prod.fst h
  rw [restored, hstore, Store.entries_takeAll, Store.entries_empty, List.nil_append]
  split
  · next hc => exact List.filter_eq_self.mpr fun e he => by simp [(hfiled e he).2, hc]
  · next hc => exact List.filter_eq_nil_iff.mpr fun e he => by simp [(hfiled e he).2, Ne.symm hc]

namespace CommandLine

variable {around : Surroundings} {files : Files} {text : String} {t : Task}

/-! ## Sparing -/

/-- What a command spares of the entries that a new hub restores from a snapshot. -/
def Command.spared (command : Command) (old : Snapshot) (c : Category) : List Entry :=
  (old.restored c).filter (!command.names ·)

/-- A text holds entries: a new hub restores them from it in their order. -/
def Holds (text : String) (entries : Category → List Entry) : Prop :=
  ∃ s skipped, Snapshot.ofText text = .ok (s, skipped) ∧ ∀ c, (entries c).Sublist (s.restored c)

/-- A text in place of another one after a command: the other one itself if it does not read, and
otherwise a text with all entries but those that the command names. It holds them if the doubles
in them are read as they are written. -/
structure Command.Spares (command : Command) (text text' : String) : Prop where
  unreadable : ∀ e, Snapshot.ofText text = .error e → text' = text
  written : ∀ old skipped, Snapshot.ofText text = .ok (old, skipped) →
    text' = text ∨ ∃ new : Snapshot, text' = new.text ∧ ∀ c, command.spared old c <+: new.restored c
  held : ∀ old skipped, Snapshot.ofText text = .ok (old, skipped) →
    (∀ c, ∀ e ∈ command.spared old c, e.toJson.DoublesReadBack) →
      Holds text' (command.spared old)

theorem Command.spares_self (command : Command) (text : String) : command.Spares text text where
  unreadable _ _ := rfl
  written _ _ _ := .inl rfl
  held old skipped hreads _ := ⟨old, skipped, hreads, fun _ => List.filter_sublist⟩

theorem isSound_restored (old : Snapshot) : (Store.empty.restore old).store.IsSound :=
  Store.IsSound.empty.steps (Store.steps_restoreEntries .empty old.entries)

theorem Command.spares_of_leaves {command : Command} {old : Snapshot} {skipped : List Nat}
    (hreads : Snapshot.ofText text = .ok (old, skipped)) {s : Store}
    (h : command.Leaves (Store.empty.restore old).store s) (now : Timestamp) :
    command.Spares text (Snapshot.ofEntries s.toList now).text := by
  have hrestored : (Snapshot.ofEntries s.toList now).restored = s.entries :=
    funext fun c => h.sound.entries_restart now c
  have hfit : ∀ e ∈ s.toList, e.IsWritable ∧ e.IsShallow := by
    intro e he
    rcases h.origin e he with ⟨c, hold⟩ | hsample
    · have hmem := Store.mem_toList.mpr ⟨c, List.mem_of_mem_filter hold⟩
      rcases Store.mem_of_restoreEntries hmem with hempty | hentry
      · simp at hempty
      · exact Snapshot.of_ofText hreads e hentry
    · exact ⟨hsample.fits.1, hsample.fits.2.1⟩
  refine ⟨fun e herror => ?_, fun old' skipped' hold => .inr ⟨_, rfl, fun c => ?_⟩,
    fun old' skipped' hold hdoubles => ?_⟩
  · simp [hreads] at herror
  · obtain ⟨rfl, -⟩ := Prod.mk.inj (Except.ok.inj (hreads.symm.trans hold))
    rw [hrestored]
    exact h.kept c
  · obtain ⟨rfl, -⟩ := Prod.mk.inj (Except.ok.inj (hreads.symm.trans hold))
    have hback : ∀ e ∈ s.toList, e.toJson.DoublesReadBack := by
      intro e he
      rcases h.origin e he with ⟨c, hold⟩ | hsample
      · exact hdoubles c e hold
      · exact hsample.fits.2.2
    refine ⟨_, [], Snapshot.ofText_text (Snapshot.doublesReadBack hback)
      (fun e he => (hfit e he).1) (fun e he => Entry.isShallow_iff.mp (hfit e he).2), fun c => ?_⟩
    rw [hrestored]
    exact (h.kept c).sublist

/-- A task that restores whenever it saves spares what it is not asked to remove. -/
theorem spares_of_runWith {lines : List LogLine} {drawnIds drawnTimes : Nat} {result : Result}
    {path : String}
    (hload : loadConfig files (t.options.config.or (HubConfig.defaultPath? around.home)) =
      .ok (t.config, lines))
    (hpath : t.path? around.home = some path) (hread : files.read path = .ok text)
    (hown : files.locate path ∉ ownPlaces around.home files)
    (hrestores : t.saves = true → t.config.restoreOnStart = true)
    (hrun : runWith around files t.options t.command drawnIds drawnTimes = some result) :
    ∃ text', result.files.read path = .ok text' ∧ t.command.Spares text text' := by
  rcases read_runWith hload hpath hread hown hrun with
    hsame | ⟨hsaves, first, last, now, hbegins, hcommand, hnew⟩
  · exact ⟨text, hsame, t.command.spares_self text⟩
  · generalize hfirst : first.store = store at hbegins
    cases hbegins with
    | anew unwanted => exact absurd (hrestores hsaves) (by simp [unwanted])
    | @restored old skipped wanted reads =>
      have hleaves := leaves_of_runCommand (hfirst ▸ isSound_restored old) hcommand
      exact ⟨_, hnew, Command.spares_of_leaves reads (hfirst ▸ hleaves) now⟩

/-! ## A desk -/

/-- A snapshot and a log where a run looks for them, and settings. -/
def desk (config : HubConfig) (hub log : String) : Files :=
  let inDirectory (name : String) (node : FileNode) := FileNode.directory [(name, node)]
  ⟨["work"], .directory
    [("work", .directory [("config.json", .file (Json.pretty config.toJson)),
      ("hub.json", .file hub)]),
    ("home", [".local", "share", "mathlab", "logs"].foldr inDirectory
      (.directory [("mathlab.log", .file log)]))]⟩

def deskSurroundings : Surroundings :=
  ⟨some "/home", none, Machine.countingSupply, 1, fun _ => ""⟩

section Desk

variable (config : HubConfig) (hub log : String)

theorem names_hub : Path.names "hub.json" = [] ++ ["hub.json"] := by
  rw [Path.names_eq]
  decide +kernel

theorem names_logPath : Path.names (logPath "/home") =
    ["home", ".local", "share", "mathlab", "logs"] ++ ["mathlab.log"] := by
  rw [Path.names_eq]
  decide +kernel

theorem names_crashPath : Path.names (crashPath "/home") =
    ["home", ".local", "share", "mathlab", "logs", "crash.log"] := by
  rw [Path.names_eq]
  decide +kernel

theorem read_config :
    (desk config hub log).read "config.json" = .ok (Json.pretty config.toJson) := by
  refine Files.read_of_walk ["work", "config.json"] (by decide +kernel)
    (by decide +kernel) HubConfig.names_config ?_ rfl
  rw [Files.start, if_neg (by decide +kernel)]
  rfl

theorem read_hub : (desk config hub log).read "hub.json" = .ok hub := by
  refine Files.read_of_walk ["work", "hub.json"] (by decide +kernel)
    (by decide +kernel) names_hub ?_ rfl
  rw [Files.start, if_neg (by decide +kernel)]
  rfl

theorem read_log : (desk config hub log).read (logPath "/home") = .ok log := by
  refine Files.read_of_walk
    ["home", ".local", "share", "mathlab", "logs", "mathlab.log"] (by decide +kernel)
    (by decide +kernel) names_logPath ?_ rfl
  rw [Files.start, if_pos (by decide +kernel)]
  rfl

theorem hub_not_mem_ownPlaces :
    (desk config hub log).locate "hub.json" ∉ ownPlaces (some "/home") (desk config hub log) := by
  have hrelative : Path.isAbsolute "hub.json" = false := by decide +kernel
  have hlog : Path.isAbsolute (logPath "/home") = true := by decide +kernel
  have hcrash : Path.isAbsolute (crashPath "/home") = true := by decide +kernel
  have hcurrent : (desk config hub log).current = ["work"] := rfl
  simp only [ownPlaces, Files.locate, Files.start, hrelative, hlog, hcrash, hcurrent, names_hub,
    names_logPath, names_crashPath]
  decide

/-- The directory of the snapshot is the one that the run starts from. -/
theorem makeDirectory_hub (files : Files) :
    files.makeDirectory (Snapshot.directoryOf "hub.json") = (.ok (), files) := by
  have hbeginning : Path.beginning "hub.json" = ("", "hub.json") := by decide +kernel
  have hdirectory : Snapshot.directoryOf "hub.json" = "." := by
    have hsplit : "hub.json".splitOn "/" = _ := Text.splitOn_singleton "hub.json" '/'
    simp only [Snapshot.directoryOf, Path.parent?, hbeginning, hsplit]
    decide +kernel
  have hnames : Path.names "." = ["."] := by
    rw [Path.names_eq]
    decide +kernel
  have hfault : Files.fault? "." = none := by decide +kernel
  rw [hdirectory, Files.makeDirectory, if_neg (by decide), hfault, hnames]
  rfl

theorem ofArguments?_desk {arguments : List String} {snapshot : Option String} {noSave : Bool}
    {command : Command} (harguments : Invocation.ofArguments arguments =
      .run ⟨some "config.json", snapshot, noSave⟩ command) :
    Task.ofArguments? (some "/home") (desk config hub log) arguments =
      some ⟨⟨some "config.json", snapshot, noSave⟩, command, config⟩ := by
  have hload : HubConfig.load (desk config hub log) "config.json" = .ok (config, []) := by
    simp only [HubConfig.load, Files.exists?_of_read (read_config config hub log), read_config,
      HubConfig.read_pretty]
    rfl
  simp only [Task.ofArguments?, harguments, Option.some_or, loadConfig, hload]

end Desk

/-- The square function, exported under an id. -/
def squareEntry (id : String) : Entry :=
  Store.empty.newEntry ⟨id⟩ .noon "plot" .functions (.function "x^2") none

theorem fits_squareEntry (id : String) : (squareEntry id).IsWritable ∧ (squareEntry id).IsShallow ∧
    (squareEntry id).toJson.DoublesReadBack :=
  fits_newEntry ⟨"plot", "functions", .function "x^2", none⟩ rfl
    (List.forall_mem_nil _) (List.forall_mem_nil _) .empty ⟨id⟩ .noon

theorem restored_squares {ids : List String} (hids : ids.Nodup) :
    ∀ c, (Snapshot.ofEntries (ids.map squareEntry) .noon).restored c =
      if c = .functions then ids.map squareEntry else [] := by
  refine Snapshot.restored_ofEntries (fun e he => ?_) ?_
  · obtain ⟨id, -, rfl⟩ := List.mem_map.mp he
    exact ⟨rfl, rfl⟩
  · rw [List.map_map]
    exact hids.map fun a b h => EntryId.mk.inj h

theorem ofText_squares (ids : List String) :
    Snapshot.ofText (Snapshot.ofEntries (ids.map squareEntry) .noon).text =
      .ok (.ofEntries (ids.map squareEntry) .noon, []) := by
  have hfits : ∀ e ∈ ids.map squareEntry,
      e.IsWritable ∧ e.IsShallow ∧ e.toJson.DoublesReadBack := by
    intro e he
    obtain ⟨id, -, rfl⟩ := List.mem_map.mp he
    exact fits_squareEntry id
  exact Snapshot.ofText_text (Snapshot.doublesReadBack fun e he => (hfits e he).2.2)
    (fun e he => (hfits e he).1) fun e he => Entry.isShallow_iff.mp (hfits e he).2.1

theorem neverSpent_desk : NeverSpent deskSurroundings.supply :=
  neverSpent_of_injective fun n m h => by
    by_contra hne
    exact Machine.countingSupply_ne hne h

/-! ## Runs -/

/-- A run ends if the ids never run out. One that does not come to carry out a command touches
nothing. One that does, and restores the snapshot if it saves, spares what the command is not asked
to remove, provided that the snapshot is not one of the files that the run keeps for itself. -/
theorem run_spares_unnamed (around : Surroundings) (files : Files) (arguments : List String)
    (drawnIds drawnTimes : Nat) :
    (NeverSpent around.supply → ∃ patience result,
        run (around.withPatience patience) files arguments drawnIds drawnTimes = some result) ∧
      ∀ result, run around files arguments drawnIds drawnTimes = some result →
        (Task.ofArguments? around.home files arguments = none → result.files = files) ∧
        ∀ t path text, Task.ofArguments? around.home files arguments = some t →
          t.path? around.home = some path → files.read path = .ok text →
          files.locate path ∉ ownPlaces around.home files →
          (t.saves = true → t.config.restoreOnStart = true) →
          ∃ text', result.files.read path = .ok text' ∧ t.command.Spares text text' := by
  refine ⟨fun hids => ?_, fun result hrun => ⟨fun hnone =>
    files_of_ofArguments?_eq_none hnone hrun,
    fun t path text htask hpath hread hown hrestores => ?_⟩⟩
  · unfold run
    cases Invocation.ofArguments arguments with
    | refused => exact ⟨0, _, rfl⟩
    | version => exact ⟨0, _, rfl⟩
    | run options command => exact exists_runWith hids files options command drawnIds drawnTimes
  · obtain ⟨harguments, lines, hload⟩ := Task.ofArguments?_eq_some htask
    rw [run, harguments] at hrun
    exact spares_of_runWith hload hpath hread hown hrestores hrun

/-- The run that removes one of two entries ends, and the other one is still there. -/
theorem run_spares_unnamed_remove : ∃ patience result text',
    run (deskSurroundings.withPatience patience)
        (desk .default (Snapshot.ofEntries (["a", "b"].map squareEntry) .noon).text "")
        ["--config", "config.json", "--snapshot", "hub.json", "remove", "functions", "a"] 0 0 =
      some result ∧
    result.files.read "hub.json" = .ok text' ∧
      Holds text' fun c => if c = .functions then [squareEntry "b"] else [] := by
  let hub := Snapshot.ofEntries (["a", "b"].map squareEntry) .noon
  let arguments :=
    ["--config", "config.json", "--snapshot", "hub.json", "remove", "functions", "a"]
  have harguments : Invocation.ofArguments arguments =
    .run ⟨some "config.json", some "hub.json", false⟩ (.remove "functions" "a") := by decide +kernel
  have htask := ofArguments?_desk .default hub.text "" harguments
  let files := desk .default hub.text ""
  obtain ⟨patience, result, hrun⟩ :=
    (run_spares_unnamed deskSurroundings files arguments 0 0).1 neverSpent_desk
  obtain ⟨-, hsaved⟩ :=
    (run_spares_unnamed (deskSurroundings.withPatience patience) files arguments 0 0).2 result hrun
  obtain ⟨text', hread, hspares⟩ := hsaved _ "hub.json" hub.text htask rfl
    (read_hub .default hub.text "") (hub_not_mem_ownPlaces .default hub.text "") fun _ => rfl
  have hrestored := restored_squares (show ["a", "b"].Nodup by decide)
  have hdoubles : ∀ c, ∀ e ∈ Command.spared (.remove "functions" "a") hub c,
      e.toJson.DoublesReadBack := by
    intro c e he
    have hmem := List.mem_of_mem_filter he
    rw [hrestored] at hmem
    split at hmem
    · obtain ⟨id, -, rfl⟩ := List.mem_map.mp hmem
      exact (fits_squareEntry id).2.2
    · exact absurd hmem List.not_mem_nil
  obtain ⟨new, skipped, hreads, hholds⟩ :=
    hspares.held hub [] (ofText_squares ["a", "b"]) hdoubles
  refine ⟨patience, result, text', hrun, hread, new, skipped, hreads, fun c => ?_⟩
  by_cases hc : c = .functions
  · have hspared := hholds c
    rw [Command.spared, hrestored, if_pos hc] at hspared
    simp only [if_pos hc]
    exact hspared
  · simp only [if_neg hc, List.nil_sublist]

/-- A text in place of another one that holds, unchanged, all that a command does not name. One
that does not read stays. -/
structure Command.Keeps (command : Command) (text text' : String) : Prop where
  unreadable : ∀ e, Snapshot.ofText text = .error e → text' = text
  held : ∀ old skipped, Snapshot.ofText text = .ok (old, skipped) →
    Holds text' (command.spared old)

/-- A run from a desk after which a path no longer leads to a text that keeps what it should. -/
def Loses (files : Files) (arguments : List String) (path : String) (command : Command) : Prop :=
  ∃ result text text', run deskSurroundings files arguments 0 0 = some result ∧
    files.read path = .ok text ∧ result.files.read path = .ok text' ∧ ¬command.Keeps text text'

/-- Settings under which entries are saved, but not restored. -/
def forgetful : HubConfig := { HubConfig.default with restoreOnStart := false }

/-- Two doubles whose texts are each read as the other one. -/
def drifting : Double := .finite false 8195638656616211 1101 (by decide)

def drifted : Double := .finite false 8195638656616210 1101 (by decide)

/-- A text with the first one. -/
def driftingText : String :=
  "\x7b\"version\":1,\"saved_at\":\"2024-02-29T12:00:00Z\",\"entries\":[\x7b\"id\":\"a\"," ++
    "\"category\":\"scalars\",\"source_tab\":\"plot\",\"sequence\":0," ++
    "\"payload\":\x7b\"kind\":\"scalar\",\"data\":1.1e24\x7d,\"metadata\":\x7b\"name\":\"far\"," ++
    "\"description\":\"\",\"timestamp\":\"2024-02-29T12:00:00Z\"\x7d\x7d]\x7d"

/-- The entry in it, as it is read. -/
def driftedEntry : Entry :=
  ⟨⟨"a"⟩, .scalars, "plot", .scalar drifted, ⟨"far", "", .noon, .empty⟩, 0⟩

theorem ofText_driftingText :
    Snapshot.ofText driftingText = .ok (.ofEntries [driftedEntry] .noon, []) := by
  refine Snapshot.ofText_of_outline rfl ?_
  unfold driftingText
  simp only [String.toList_append]
  decide +kernel

/-- The entry is not read as it is written. -/
theorem ofText_drifted : ∃ new skipped,
    Snapshot.ofText (Snapshot.ofEntries [driftedEntry] .noon).text = .ok (new, skipped) ∧
      driftedEntry ∉ new.entries := by
  have hread : (Snapshot.envelope? (Json.write .pretty 0
      (Snapshot.ofEntries [driftedEntry] .noon).toJson)).map (fun envelope =>
        (envelope.version, (envelope.entries.filterMap Entry.ofTree?).map (·.payload))) =
      some (Snapshot.currentVersion, [.scalar drifting]) := by decide +kernel
  obtain ⟨envelope, henvelope, houtcome⟩ := Option.map_eq_some_iff.mp hread
  obtain ⟨hversion, hpayloads⟩ := Prod.mk.inj houtcome
  rw [← String.toList_ofList (l := Json.write _ _ _)] at henvelope
  refine ⟨_, _, Snapshot.ofText_of_envelope? henvelope hversion.le, fun hmem => ?_⟩
  have hpayload := List.mem_map_of_mem (f := (·.payload)) hmem
  rw [hpayloads, List.mem_singleton] at hpayload
  exact absurd hpayload (by decide)

theorem restored_drifted : ∀ c, (Snapshot.ofEntries [driftedEntry] .noon).restored c =
    if c = .scalars then [driftedEntry] else [] :=
  Snapshot.restored_ofEntries (fun e he => by rw [List.mem_singleton.mp he]; exact ⟨rfl, rfl⟩)
    (List.nodup_singleton _)

/-- Arguments that ask for the removal of an entry that is not there. -/
def fruitless : List String :=
  ["--config", "config.json", "--snapshot", "hub.json", "remove", "functions", "nope"]

def fruitlessTask (config : HubConfig) : Task :=
  ⟨⟨some "config.json", some "hub.json", false⟩, .remove "functions" "nope", config⟩

theorem ofRun_default : LogFilter.ofRun none HubConfig.default.logFilter = .ok .standard := by
  change LogFilter.inForce HubConfig.default.logFilter = .ok .standard
  rw [LogFilter.inForce, LogFilter.ofText_eq]
  decide +kernel

/-- Nothing is removed, and everything is saved that the run began with. -/
theorem exists_run_fruitless (config : HubConfig) (hub : String) {store : Store}
    (hsaves : config.saveOnExit = true) (hfilter : config.logFilter = HubConfig.default.logFilter)
    (hbegins : (fruitlessTask config).Begins hub store) (hstore : store.IsSound) :
    ∃ result, run deskSurroundings (desk config hub "") fruitless 0 0 = some result ∧
      result.files.read "hub.json" = .ok (Snapshot.ofEntries
        (store.toList.filter (!(fruitlessTask config).command.names ·)) .noon).text := by
  have harguments : Invocation.ofArguments fruitless =
      .run ⟨some "config.json", some "hub.json", false⟩ (.remove "functions" "nope") := by
    decide +kernel
  have htask : Task.ofArguments? deskSurroundings.home (desk config hub "") fruitless =
    some (fruitlessTask config) := ofArguments?_desk config hub "" harguments
  have hsavesTask : (fruitlessTask config).saves = true := by
    rw [Task.saves, fruitlessTask, hsaves]
    rfl
  have hpath : (fruitlessTask config).path? deskSurroundings.home = some "hub.json" := rfl
  have hpoints : Files.isPoints "hub.json" = false := by decide
  have hfilterTask : LogFilter.ofRun none (fruitlessTask config).config.logFilter =
    .ok .standard := hfilter ▸ ofRun_default
  obtain ⟨result, drawn, hrun, hread⟩ := exists_run_saving 0 0 htask (by nofun) hsavesTask
    hfilterTask hpath (read_hub config hub "") (hub_not_mem_ownPlaces config hub "") names_hub
    hpoints (fun files _ => ⟨files, makeDirectory_hub files⟩) hbegins
  rw [(Command.thins_thin hstore _).toList_eq] at hread
  exact ⟨result, hrun, hread⟩

/-- What has not been restored is overwritten. -/
theorem loses_forgetful :
    Loses (desk forgetful (Snapshot.ofEntries (["a"].map squareEntry) .noon).text "") fruitless
      "hub.json" (.remove "functions" "nope") := by
  obtain ⟨result, hrun, hread⟩ := exists_run_fruitless forgetful
    (Snapshot.ofEntries (["a"].map squareEntry) .noon).text rfl rfl (.anew rfl) Store.IsSound.empty
  refine ⟨result, _, _, hrun, read_hub _ _ _, hread, fun hkeeps => ?_⟩
  obtain ⟨new, skipped, hnew, hholds⟩ := hkeeps.held _ _ (ofText_squares ["a"])
  obtain ⟨rfl, -⟩ := Prod.mk.inj (Except.ok.inj ((ofText_squares []).symm.trans hnew))
  have hfunctions := hholds .functions
  rw [Command.spared, restored_squares (List.nodup_singleton _),
    restored_squares List.nodup_nil] at hfunctions
  exact absurd hfunctions.length_le (by decide)

/-- The entry that was restored is written, and then read as another one. -/
theorem loses_drifting :
    Loses (desk .default driftingText "") fruitless "hub.json" (.remove "functions" "nope") := by
  have hsound := isSound_restored (.ofEntries [driftedEntry] .noon)
  have hlist : (Store.empty.restore (.ofEntries [driftedEntry] .noon)).store.toList =
      [driftedEntry] := by
    have hentries : (Store.empty.restore (.ofEntries [driftedEntry] .noon)).store.entries = _ :=
      funext restored_drifted
    rw [Store.toList_eq, hentries]
    rfl
  obtain ⟨result, hrun, hread⟩ := exists_run_fruitless .default driftingText rfl rfl
    (.restored rfl ofText_driftingText) hsound
  rw [hlist] at hread
  refine ⟨result, _, _, hrun, read_hub _ _ _, hread, fun hkeeps => ?_⟩
  obtain ⟨new, skipped, hnew, hmissing⟩ := ofText_drifted
  obtain ⟨s, _, hs, hholds⟩ := hkeeps.held _ _ ofText_driftingText
  obtain ⟨rfl, -⟩ := Prod.mk.inj (Except.ok.inj (hnew.symm.trans hs))
  have hmem : driftedEntry ∈ new.restored .scalars := by
    refine (hholds .scalars).subset ?_
    rw [Command.spared, restored_drifted]
    exact List.mem_singleton_self _
  rcases Store.mem_of_restoreEntries (Store.mem_toList.mpr ⟨_, hmem⟩) with hempty | hentry
  · simp at hempty
  · exact hmissing hentry

/-- Arguments under which the snapshot is the log. -/
def logAsSnapshot : List String :=
  ["--config", "config.json", "--snapshot", "/home/.local/share/mathlab/logs/mathlab.log", "counts"]

/-- The log grows before it is found not to be a snapshot. -/
theorem loses_ownLog :
    Loses (desk .default "" "") logAsSnapshot (logPath "/home") .counts := by
  have harguments : Invocation.ofArguments logAsSnapshot =
      .run ⟨some "config.json", some (logPath "/home"), false⟩ .counts := by
    decide +kernel
  have htask : Task.ofArguments? deskSurroundings.home (desk .default "" "") logAsSnapshot =
    some ⟨⟨some "config.json", some (logPath "/home"), false⟩, .counts, .default⟩ :=
      ofArguments?_desk .default "" "" harguments
  have hpoints : Files.isPoints "mathlab.log" = false := by decide
  have hempty : Snapshot.envelope? "".toList = none := by decide +kernel
  have hlogged : Snapshot.envelope? ("" ++ openingText "/home" .standard .noon).toList = none := by
    decide +kernel
  obtain ⟨e, hunreadable⟩ := Snapshot.exists_ofText_eq_error hempty
  obtain ⟨e', hfails⟩ := Snapshot.exists_ofText_eq_error hlogged
  obtain ⟨result, hrun, hread⟩ := exists_run_ownLog rfl 0 0 htask ofRun_default rfl
    (read_log .default "" "") names_logPath hpoints rfl hfails
  refine ⟨result, _, _, hrun, read_log _ _ _, hread, fun hkeeps => ?_⟩
  have hsame := hkeeps.unreadable e hunreadable
  exact absurd hsame (by decide +kernel)

/-- Lost is what has not been restored, a double that is not read as it is written, and a text that
is also the log. -/
theorem run_loses_unnamed :
    Loses (desk forgetful (Snapshot.ofEntries (["a"].map squareEntry) .noon).text "") fruitless
        "hub.json" (.remove "functions" "nope") ∧
      Loses (desk .default driftingText "") fruitless "hub.json" (.remove "functions" "nope") ∧
      Loses (desk .default "" "") logAsSnapshot (logPath "/home") .counts :=
  ⟨loses_forgetful, loses_drifting, loses_ownLog⟩

end CommandLine
end LabExchange
