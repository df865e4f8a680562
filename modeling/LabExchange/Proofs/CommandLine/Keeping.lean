import LabExchange.Proofs.CommandLine.Commands
import LabExchange.Proofs.Files.Standing

/-!
# What a run does to files

A run writes to its log, to the file with the accounts of panics and, if its command may have
changed something, to the file of the snapshot. That one holds in the end what it held before or
what the command has left of the entries, unless it is one of the other two.
-/
namespace LabExchange

open Files (Persist)

/-- A snapshot is put in the place of its path, or all files stay as they are. -/
theorem Snapshot.writeFile_cases (files : Files) (path : String) (s : Snapshot) :
    (∃ failure files', s.writeFile files path = (.error failure, files') ∧
        Persist [] files files') ∨
      ∃ lines made files', s.writeFile files path = (.ok lines, files') ∧
        Persist [] files made ∧ made.Places path s.text files' := by
  have hmade := Files.persist_makeDirectory files (directoryOf path)
  simp only [writeFile]
  generalize files.makeDirectory (directoryOf path) = result at hmade ⊢
  rcases result with ⟨e | _, made⟩
  · exact .inl ⟨_, made, rfl, hmade⟩
  · cases hreplace : made.replace path s.text with
    | error e => exact .inl ⟨_, made, by simp only [hreplace]; rfl, hmade⟩
    | ok files' =>
      exact .inr ⟨_, made, files', by simp only [hreplace]; rfl, hmade,
        Files.places_of_replace hreplace⟩

/-- A file that can be read can be replaced, if its directory is there. -/
theorem Snapshot.exists_writeFile {files made : Files} {path name text : String}
    {above : List String} (hnames : Path.names path = above ++ [name])
    (hpoints : Files.isPoints name = false) (hread : files.read path = .ok text)
    (hmade : files.makeDirectory (directoryOf path) = (.ok (), made)) (s : Snapshot) :
    ∃ lines files', s.writeFile files path = (.ok lines, files') := by
  have hpersist := Files.persist_makeDirectory files (directoryOf path)
  rw [hmade] at hpersist
  obtain ⟨files', hreplace⟩ := Files.exists_replace_of_read hnames hpoints
    (hpersist.read List.not_mem_nil hread) s.text
  exact ⟨_, files', by simp only [writeFile, hmade, hreplace]; rfl⟩

namespace CommandLine

/-! ## The files that a run keeps for itself -/

/-- The places of the log file and of the accounts of panics, if there is a home directory. -/
def ownPlaces (home : Option String) (files : Files) : List Location :=
  match home with
  | none => []
  | some home => [files.locate (logPath home), files.locate (crashPath home)]

theorem ownPlaces_of_persist {but : List Location} {home : Option String} {files files' : Files}
    (h : Persist but files files') : ownPlaces home files' = ownPlaces home files := by
  cases home with
  | none => rfl
  | some home => simp only [ownPlaces, h.locate]

namespace RunLog

variable {log : RunLog} {places : List Location} {files : Files}

/-- The log writes nowhere else. -/
def WritesIn (log : RunLog) (places : List Location) : Prop := ∀ place ∈ log.place, place ∈ places

theorem WritesIn.persist_write (h : log.WritesIn places) (now : Timestamp) (lines : List LogLine)
    (files : Files) : Persist places files (log.write now lines files) := by
  unfold write
  split
  · exact .refl places files
  · next place hplace =>
    exact (Files.persist_appendAt files place _).mono (by simpa using h place hplace)

theorem WritesIn.afterReplacing (h : log.WritesIn places) (files : Files) (path : String) :
    (log.afterReplacing files path).WritesIn places := by
  unfold RunLog.afterReplacing
  split
  · nofun
  · exact h

/-- Opening a log touches no file but its own, and to that it keeps. It fails by its filter only. -/
theorem opened_cases (home : String) (filter : Except LogFilterError LogFilter) (files : Files) :
    ∃ result files' notice, opened home filter files = (result, files', notice) ∧
      Persist (ownPlaces home files) files files' ∧
        (∀ log, result = .ok log → log.WritesIn (ownPlaces home files)) ∧
        ∀ e, result = .error e → filter = .error e := by
  have hmade := (Files.persist_makeDirectory files (logDirectory home)).mono
    (List.nil_subset (ownPlaces home files))
  simp only [opened]
  generalize (files.makeDirectory (logDirectory home)).2 = made at hmade ⊢
  cases hwrite : made.write (logPath home) ((made.read (logPath home)).toOption.getD "") with
  | error e =>
    refine ⟨_, made, _, rfl, hmade, fun log hlog => ?_, nofun⟩
    obtain rfl := Except.ok.inj hlog
    nofun
  | ok files' =>
    have hplaces := Files.places_of_write hwrite
    have hown : made.locate (logPath home) ∈ ownPlaces home files := by
      rw [hmade.locate]
      exact List.mem_cons_self
    have hpersist := hplaces.persist.mono (by simpa using hown)
    refine ⟨_, files', _, rfl, hmade.trans hpersist, fun log hlog place hplace => ?_, ?_⟩
    · cases filter with
      | error e => simp [Except.map] at hlog
      | ok filter =>
        simp only [Except.map, Except.ok.injEq] at hlog
        obtain rfl := hlog
        cases hresolve : files'.resolve (logPath home) with
        | error e => simp [hresolve, Except.toOption] at hplace
        | ok found =>
          obtain rfl : found = place := by simpa [hresolve, Except.toOption] using hplace
          rw [← Files.locate_of_resolve hresolve, hpersist.locate]
          exact hown
    · cases filter with
      | error e => exact fun e' he => congrArg _ (Except.error.inj he)
      | ok filter => nofun

theorem ofRun_cases (home : Option String) (filter : Except LogFilterError LogFilter)
    (files : Files) :
    ∃ result files' notice, ofRun home filter files = (result, files', notice) ∧
      Persist (ownPlaces home files) files files' ∧
        (∀ log, result = .ok log → log.WritesIn (ownPlaces home files)) ∧
        ∀ e, result = .error e → filter = .error e := by
  cases home with
  | none =>
    refine ⟨_, files, _, rfl, .refl _ files, fun log hlog => ?_, nofun⟩
    obtain rfl := Except.ok.inj hlog
    nofun
  | some home => exact opened_cases home filter files

/-- A log file that is there is opened as it is. -/
theorem opened_of_read {home name text : String} {above : List String}
    (hnames : Path.names (logPath home) = above ++ [name]) (hpoints : Files.isPoints name = false)
    (hread : files.read (logPath home) = .ok text) (filter : LogFilter) :
    ∃ files', opened home (.ok filter) files =
        (.ok ⟨some (files.locate (logPath home)), filter⟩, files', "") ∧
      Persist (ownPlaces home files) files files' ∧ files'.read (logPath home) = .ok text := by
  have hmade := Files.persist_makeDirectory files (logDirectory home)
  simp only [opened]
  generalize (files.makeDirectory (logDirectory home)).2 = made at hmade ⊢
  have hkept := hmade.read List.not_mem_nil hread
  obtain ⟨files', hwrite⟩ := Files.exists_write_of_read hnames hpoints hkept text
  have hplaces := Files.places_of_write hwrite
  have hopened := hplaces.read hkept
  have hplace : files'.resolve (logPath home) = .ok (files.locate (logPath home)) := by
    rw [(Files.read_eq_ok.mp hopened).1, hplaces.persist.locate, hmade.locate]
  refine ⟨files', ?_, ?_, hopened⟩
  · simp only [hkept, Except.toOption, Option.getD_some, hwrite, hplace, Except.map]
  · refine (hmade.mono (List.nil_subset _)).trans (hplaces.persist.mono ?_)
    rw [hmade.locate]
    simp [ownPlaces]

theorem read_write {path text : String} (hplace : log.place = some (files.locate path))
    (hread : files.read path = .ok text) (now : Timestamp) (lines : List LogLine) :
    (log.write now lines files).read path =
      .ok (text ++ String.join (lines.map (log.records now))) := by
  rw [write, hplace]
  exact (Files.places_appendAt hread _).read hread

end RunLog

theorem persist_noteCrash (home : String) (now : Timestamp) (message : String) (files : Files) :
    Persist (ownPlaces home files) files (noteCrash home now message files) := by
  have hmade := (Files.persist_makeDirectory files (logDirectory home)).mono
    (List.nil_subset (ownPlaces home files))
  simp only [noteCrash]
  generalize (files.makeDirectory (logDirectory home)).2 = made at hmade ⊢
  generalize (made.read (crashPath home)).toOption.getD "" ++ _ ++ _ ++ _ = account
  cases hwrite : made.write (crashPath home) account with
  | error e => exact hmade
  | ok files' =>
    refine hmade.trans ((Files.places_of_write hwrite).persist.mono ?_)
    rw [hmade.locate]
    simp [ownPlaces]

/-! ## Tasks -/

/-- A command with its options and the settings under which it is carried out. -/
structure Task where
  options : Options
  command : Command
  config : HubConfig

namespace Task

/-- What arguments ask for, unless they are refused or the settings do not load. -/
def ofArguments? (home : Option String) (files : Files) (arguments : List String) : Option Task :=
  match Invocation.ofArguments arguments with
  | .run options command =>
    match loadConfig files (options.config.or (HubConfig.defaultPath? home)) with
    | .ok (config, _) => some ⟨options, command, config⟩
    | .error _ => none
  | .version | .refused => none

/-- The path of the snapshot, if there is a place for one. -/
def path? (home : Option String) (t : Task) : Option String :=
  t.options.snapshot.or (t.config.snapshotPath? home)

/-- Whether the snapshot is written in the end. -/
def saves (t : Task) : Bool := t.command.mutates && t.config.saveOnExit && !t.options.noSave

/-- The stores that a task may begin with if there is a text where the snapshot is. -/
inductive Begins (t : Task) (text : String) : Store → Prop where
  | restored {old : Snapshot} {skipped : List Nat} (wanted : t.config.restoreOnStart = true)
      (reads : Snapshot.ofText text = .ok (old, skipped)) :
      Begins t text (Store.empty.restore old).store
  | anew (unwanted : t.config.restoreOnStart = false) : Begins t text .empty

end Task

variable {around : Surroundings} {files : Files} {path text : String} {t : Task} {s : Session}

theorem begins_of_restoreSession {drawnIds drawnTimes : Nat} (hread : files.read path = .ok text)
    (h : restoreSession t.config files (some path) drawnIds drawnTimes = .ok s) :
    t.Begins text s.store := by
  have hexists := Files.exists?_of_read hread
  cases hwanted : t.config.restoreOnStart with
  | false =>
    simp only [restoreSession, Option.filter_some, hwanted, Bool.false_and, Bool.false_eq_true,
      if_false] at h
    obtain rfl := Except.ok.inj h
    exact .anew hwanted
  | true =>
    simp only [restoreSession, Option.filter_some, hwanted, hexists, Bool.and_self, if_true,
      Snapshot.readFile, hread, Snapshot.parse] at h
    cases hreads : Snapshot.ofText text with
    | error e => simp [hreads] at h
    | ok result =>
      simp only [hreads] at h
      obtain rfl := Except.ok.inj h
      exact .restored hwanted hreads

theorem exists_restoreSession {store : Store} (hbegins : t.Begins text store)
    (hread : files.read path = .ok text) (drawnIds drawnTimes : Nat) :
    ∃ s, restoreSession t.config files (some path) drawnIds drawnTimes = .ok s ∧
      s.store = store := by
  cases hbegins with
  | anew unwanted =>
    exact ⟨_, by simp only [restoreSession, Option.filter_some, unwanted, Bool.false_and,
      Bool.false_eq_true, if_false]; rfl, rfl⟩
  | restored wanted reads =>
    exact ⟨_, by simp only [restoreSession, Option.filter_some, wanted,
      Files.exists?_of_read hread, Bool.and_self, if_true, Snapshot.readFile, hread,
      Snapshot.parse, reads]; rfl, rfl⟩

/-- At its end a run saves the entries. If it does not, or cannot, the file of the snapshot stays as
it is. -/
theorem read_finish {log : RunLog} {places : List Location} (hlog : log.WritesIn places)
    (hplaces : files.locate path ∉ places) (hread : files.read path = .ok text) (notice : String)
    {saved : Snapshot}
    (hsaved : saved = .ofEntries s.store.toList (around.supply.time s.drawnTimes)) :
    ((finish around t.config t.options t.command log files (some path) notice s).files.read path =
        .ok text ∧ (t.saves = true → ∃ written failure files', Persist places files written ∧
          saved.writeFile written path = (.error failure, files'))) ∨
      t.saves = true ∧
        (finish around t.config t.options t.command log files (some path) notice s).files.read
          path = .ok saved.text := by
  have hwritten := hlog.persist_write (around.supply.time s.drawnTimes) s.log files
  have hcondition : (t.command.mutates && t.config.saveOnExit && !t.options.noSave) = t.saves := rfl
  simp only [finish, ← hsaved, Option.filter_some, hcondition]
  generalize log.write (around.supply.time s.drawnTimes) s.log files = written at hwritten ⊢
  have hkept := hwritten.read hplaces hread
  rw [← hwritten.locate] at hplaces
  cases hsaves : t.saves with
  | false =>
    simp only [Bool.false_eq_true, if_false]
    exact .inl ⟨hkept, nofun⟩
  | true =>
    simp only [if_true]
    rcases saved.writeFile_cases written path with
      ⟨failure, made, heq, hmade⟩ | ⟨lines, made, replaced, heq, hmade, hplaced⟩
    · simp only [heq]
      refine .inl ⟨(hlog.persist_write _ _ _).read ?_ (hmade.read List.not_mem_nil hkept),
        fun _ => ⟨written, failure, made, hwritten, heq⟩⟩
      rwa [hmade.locate]
    · simp only [heq]
      refine .inr ⟨trivial, ((hlog.afterReplacing replaced path).persist_write _ _ _).read ?_
        (hplaced.read (hmade.read List.not_mem_nil hkept))⟩
      rwa [hplaced.persist.locate, hmade.locate]

/-- What a task comes to once its log is open. -/
def Task.carryOut (around : Surroundings) (t : Task) (log : RunLog) (begun : Files)
    (notice : String) (drawnIds drawnTimes : Nat) : Option Result :=
  match restoreSession t.config begun (t.path? around.home) drawnIds drawnTimes with
  | .error failure =>
    some ⟨1, "", notice ++ failureText around failure, begun, drawnIds, drawnTimes⟩
  | .ok s => (runCommand around s t.command).map fun
    | .finished s =>
      finish around t.config t.options t.command log begun (t.path? around.home) notice s
    | .panicked s =>
      abort around Store.overflowMessage
        (log.write (around.supply.time s.drawnTimes) s.log begun) notice s

/-- Before it restores the snapshot, a run writes to its own files only. It gets no further if the
filter of its log is not one. -/
theorem runWith_cases {lines : List LogLine}
    (hload : loadConfig files (t.options.config.or (HubConfig.defaultPath? around.home)) =
      .ok (t.config, lines)) (drawnIds drawnTimes : Nat) :
    (∃ e opened notice s, LogFilter.ofRun around.logFilter t.config.logFilter = .error e ∧
      Persist (ownPlaces around.home files) files opened ∧
      runWith around files t.options t.command drawnIds drawnTimes =
        some (abort around e.message opened notice s)) ∨
    ∃ log begun notice, log.WritesIn (ownPlaces around.home files) ∧
      Persist (ownPlaces around.home files) files begun ∧
      runWith around files t.options t.command drawnIds drawnTimes =
        t.carryOut around log begun notice drawnIds drawnTimes := by
  obtain ⟨opening, opened, notice, hopened, hpersist, hlogs, hfails⟩ :=
    RunLog.ofRun_cases around.home (LogFilter.ofRun around.logFilter t.config.logFilter) files
  cases opening with
  | error e =>
    exact .inl ⟨e, opened, notice, _, hfails e rfl, hpersist, by
      simp only [runWith, hload, hopened]; rfl⟩
  | ok log =>
    refine .inr ⟨log, _, notice, hlogs log rfl, hpersist.trans ((hlogs log rfl).persist_write
      (around.supply.time drawnTimes) ((around.home.map openingLines).getD []) opened), ?_⟩
    simp only [runWith, hload, hopened]
    rfl

theorem persist_abort {begun : Files}
    (hbegun : Persist (ownPlaces around.home files) files begun) (message notice : String)
    (s : Session) : Persist (ownPlaces around.home files) files
      (abort around message begun notice s).files := by
  refine hbegun.trans ?_
  rw [← ownPlaces_of_persist hbegun]
  unfold abort
  cases around.home with
  | none => exact .refl _ _
  | some home => exact persist_noteCrash _ _ _ _

/-- At the end of a run the file of the snapshot is as it was, or the entries that the command has
left have been saved. -/
theorem read_runWith {lines : List LogLine} {drawnIds drawnTimes : Nat} {result : Result}
    (hload : loadConfig files (t.options.config.or (HubConfig.defaultPath? around.home)) =
      .ok (t.config, lines))
    (hpath : t.path? around.home = some path) (hread : files.read path = .ok text)
    (hown : files.locate path ∉ ownPlaces around.home files)
    (hrun : runWith around files t.options t.command drawnIds drawnTimes = some result) :
    result.files.read path = .ok text ∨
      t.saves = true ∧ ∃ first last now, t.Begins text first.store ∧
        runCommand around first t.command = some (.finished last) ∧
        result.files.read path = .ok (Snapshot.ofEntries last.store.toList now).text := by
  rcases runWith_cases hload drawnIds drawnTimes with
    ⟨e, opened, notice, s, -, hopened, hends⟩ | ⟨log, begun, notice, hlog, hbegun, hgoes⟩
  · obtain rfl := Option.some.inj (hrun.symm.trans hends)
    exact .inl ((persist_abort hopened _ _ _).read hown hread)
  · rw [hgoes, Task.carryOut, hpath] at hrun
    have hkept := hbegun.read hown hread
    cases hrestore : restoreSession t.config begun (some path) drawnIds drawnTimes with
    | error failure =>
      rw [hrestore] at hrun
      obtain rfl := Option.some.inj hrun
      exact .inl hkept
    | ok first =>
      rw [hrestore] at hrun
      obtain ⟨ending, hcommand, rfl⟩ := Option.map_eq_some_iff.mp hrun
      cases ending with
      | finished last =>
        rw [← hbegun.locate] at hown
        refine (read_finish hlog hown hkept notice rfl).imp And.left fun ⟨hsaves, hnew⟩ => ?_
        exact ⟨hsaves, first, last, _, begins_of_restoreSession hkept hrestore, hcommand, hnew⟩
      | panicked last =>
        have hended := hbegun.trans
          (hlog.persist_write (around.supply.time last.drawnTimes) last.log begun)
        exact .inl ((persist_abort hended _ _ _).read hown hread)

/-! ## Runs -/

theorem Task.ofArguments?_eq_some {arguments : List String}
    (h : Task.ofArguments? around.home files arguments = some t) :
    Invocation.ofArguments arguments = .run t.options t.command ∧
      ∃ lines, loadConfig files (t.options.config.or (HubConfig.defaultPath? around.home)) =
        .ok (t.config, lines) := by
  unfold ofArguments? at h
  split at h
  · next options command harguments =>
    split at h
    · next config lines hload =>
      obtain rfl := Option.some.inj h
      exact ⟨harguments, lines, hload⟩
    · exact absurd h (by nofun)
  · exact absurd h (by nofun)
  · exact absurd h (by nofun)

/-- A run that does not come to carry out a command touches nothing. -/
theorem files_of_ofArguments?_eq_none {arguments : List String} {drawnIds drawnTimes : Nat}
    {result : Result} (h : Task.ofArguments? around.home files arguments = none)
    (hrun : run around files arguments drawnIds drawnTimes = some result) :
    result.files = files := by
  unfold Task.ofArguments? at h
  unfold run at hrun
  cases hinvocation : Invocation.ofArguments arguments with
  | refused =>
    rw [hinvocation] at hrun
    exact Option.some.inj hrun ▸ rfl
  | version =>
    rw [hinvocation] at hrun
    exact Option.some.inj hrun ▸ rfl
  | run options command =>
    rw [hinvocation] at hrun h
    cases hload : loadConfig files
      (options.config.or (HubConfig.defaultPath? around.home)) with
    | error failure =>
      simp only [runWith, hload] at hrun
      exact Option.some.inj hrun ▸ rfl
    | ok loaded => simp [hload] at h

theorem exists_runWith (hids : NeverSpent around.supply) (files : Files) (options : Options)
    (command : Command) (drawnIds drawnTimes : Nat) : ∃ patience result,
      runWith (around.withPatience patience) files options command drawnIds drawnTimes =
        some result := by
  cases hload : loadConfig files (options.config.or (HubConfig.defaultPath? around.home)) with
  | error failure => exact ⟨0, _, by simp only [runWith, Surroundings.withPatience, hload]; rfl⟩
  | ok loaded =>
    obtain ⟨opening, opened, notice, hopened, -⟩ :=
      RunLog.ofRun_cases around.home (LogFilter.ofRun around.logFilter loaded.1.logFilter) files
    cases opening with
    | error e =>
      exact ⟨0, _, by simp only [runWith, Surroundings.withPatience, hload, hopened]; rfl⟩
    | ok log =>
      cases hrestore : restoreSession loaded.1
        (log.write (around.supply.time drawnTimes) ((around.home.map openingLines).getD []) opened)
        (options.snapshot.or (loaded.1.snapshotPath? around.home)) drawnIds drawnTimes with
      | error failure =>
        exact ⟨0, _, by
          simp only [runWith, Surroundings.withPatience, hload, hopened, hrestore]; rfl⟩
      | ok session =>
        obtain ⟨patience, ending, hcommand⟩ := exists_runCommand hids session command
        refine ⟨patience, ?_⟩
        simp only [runWith, Surroundings.withPatience, hload, hopened, hrestore]
        exact ⟨_, congrArg (Option.map _) hcommand⟩

/-- A run that saves, and can, leaves nothing in the file but what the command has left of the
entries that the run began with. -/
theorem exists_run_saving {arguments above : List String} {name : String}
    (drawnIds drawnTimes : Nat)
    (htask : Task.ofArguments? around.home files arguments = some t) (hdemo : t.command ≠ .demo)
    (hsaves : t.saves = true) {filter : LogFilter}
    (hfilter : LogFilter.ofRun around.logFilter t.config.logFilter = .ok filter)
    (hpath : t.path? around.home = some path) (hread : files.read path = .ok text)
    (hown : files.locate path ∉ ownPlaces around.home files)
    (hnames : Path.names path = above ++ [name]) (hpoints : Files.isPoints name = false)
    (hdirectory : ∀ files', Persist (ownPlaces around.home files) files files' →
      ∃ made, files'.makeDirectory (Snapshot.directoryOf path) = (.ok (), made))
    {store : Store} (hbegins : t.Begins text store) :
    ∃ result drawn, run around files arguments drawnIds drawnTimes = some result ∧
      result.files.read path = .ok (Snapshot.ofEntries
        (t.command.thin store).toList (around.supply.time drawn)).text := by
  obtain ⟨harguments, lines, hload⟩ := Task.ofArguments?_eq_some htask
  rcases runWith_cases hload drawnIds drawnTimes with
    ⟨e, _, _, _, hfails, -⟩ | ⟨log, begun, notice, hlog, hbegun, hgoes⟩
  · simp [hfails] at hfilter
  · have hkept := hbegun.read hown hread
    obtain ⟨s, hrestore, rfl⟩ := exists_restoreSession hbegins hkept drawnIds drawnTimes
    obtain ⟨last, hcommand, hstore⟩ := exists_runCommand_eq around s hdemo
    simp only [Task.carryOut, hpath, hrestore, hcommand, Option.map_some] at hgoes
    refine ⟨_, last.drawnTimes, by rw [run, harguments]; exact hgoes, ?_⟩
    have hownThen := hbegun.locate _ ▸ hown
    rcases read_finish (s := last) hlog hownThen hkept notice rfl with ⟨-, hfailed⟩ | ⟨-, hnew⟩
    · obtain ⟨written, failure, files', hwritten, hfailure⟩ := hfailed hsaves
      obtain ⟨made, hmade⟩ := hdirectory written (hbegun.trans hwritten)
      obtain ⟨_, _, hsuccess⟩ := Snapshot.exists_writeFile hnames hpoints
        (hwritten.read hownThen hkept) hmade _
      exact absurd (congrArg Prod.fst (hfailure.symm.trans hsuccess)) (by nofun)
    · rw [← hstore]
      exact hnew

/-- What a run writes into its log before it looks for the snapshot. -/
def openingText (home : String) (filter : LogFilter) (now : Timestamp) : String :=
  String.join ((openingLines home).map (RunLog.records ⟨none, filter⟩ now))

/-- A run whose snapshot is its own log adds to that before it reads it. -/
theorem exists_run_ownLog {home name : String} {arguments above : List String}
    (hhome : around.home = some home) (drawnIds drawnTimes : Nat)
    (htask : Task.ofArguments? around.home files arguments = some t) {filter : LogFilter}
    (hfilter : LogFilter.ofRun around.logFilter t.config.logFilter = .ok filter)
    (hown : t.path? around.home = some (logPath home))
    (hread : files.read (logPath home) = .ok text)
    (hnames : Path.names (logPath home) = above ++ [name])
    (hpoints : Files.isPoints name = false) (hwanted : t.config.restoreOnStart = true) {e}
    (hfails : Snapshot.ofText (text ++ openingText home filter
      (around.supply.time drawnTimes)) = .error e) :
    ∃ result, run around files arguments drawnIds drawnTimes = some result ∧
      result.files.read (logPath home) =
        .ok (text ++ openingText home filter (around.supply.time drawnTimes)) := by
  obtain ⟨harguments, lines, hload⟩ := Task.ofArguments?_eq_some htask
  obtain ⟨opened, hopened, hpersist, hkept⟩ := RunLog.opened_of_read hnames hpoints hread filter
  have hlogged : (RunLog.write ⟨some (files.locate (logPath home)), filter⟩
      (around.supply.time drawnTimes) (openingLines home) opened).read (logPath home) =
      .ok (text ++ openingText home filter (around.supply.time drawnTimes)) :=
    RunLog.read_write (congrArg some (hpersist.locate _).symm) hkept _ _
  generalize hwrite : RunLog.write _ _ _ opened = written at hlogged
  obtain ⟨failure, hrestore⟩ : ∃ failure, restoreSession t.config written (some (logPath home))
      drawnIds drawnTimes = .error failure :=
    ⟨_, by simp only [restoreSession, Option.filter_some, hwanted, Files.exists?_of_read hlogged,
      Bool.and_self, if_true, Snapshot.readFile, hlogged, Snapshot.parse, hfails]; rfl⟩
  refine ⟨⟨1, "", "" ++ failureText around failure, written, drawnIds, drawnTimes⟩, ?_, hlogged⟩
  rw [← hown, Task.path?] at hrestore
  rw [hhome] at hload hrestore
  simp only [run, harguments, runWith, hhome, hload, RunLog.ofRun, hfilter, hopened,
    Option.map_some, Option.getD_some, hwrite, hrestore]

end CommandLine
end LabExchange
