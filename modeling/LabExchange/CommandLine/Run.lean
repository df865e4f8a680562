import LabExchange.CommandLine.Arguments
import LabExchange.CommandLine.RunLog
import LabExchange.Hub.Request
import LabExchange.Notification

/-!
# Running the command line

A run loads the configuration and the snapshot, carries out one command, shows the notifications
about what was refused, and saves the snapshot if the command may have changed something. What it
does is logged. All of it is a function from files to files.
-/
namespace LabExchange.CommandLine

/-- What a run prints and leaves behind. -/
structure Result where
  status : Nat
  stdout : String
  stderr : String
  files : Files
  drawnIds : Nat
  drawnTimes : Nat

/-- The surroundings of a run: the home directory and the filter for the log, if there are any, and
the ids and moments that are drawn in it. -/
structure Surroundings where
  home : Option String
  /-- The filter that goes before the one of the settings. -/
  logFilter : Option String
  supply : Supply
  /-- How many ids may be drawn for one export. -/
  patience : Nat
  /-- The wording of an error in a JSON text. -/
  jsonWording : ReadError → String

/-- A command that is being carried out. -/
structure Session where
  store : Store
  notifications : NotificationManager
  stdout : String
  /-- What has been reported, and is not yet in the log file. -/
  log : List LogLine
  drawnIds : Nat
  drawnTimes : Nat

/-- How a command ends: it goes through, or an export finds the sequence numbers used up. -/
inductive Ending where
  | finished (session : Session)
  | panicked (session : Session)

namespace Session

/-- The session at the start of a run, before which some ids and moments have been drawn. -/
def empty (drawnIds drawnTimes : Nat) : Session := ⟨.empty, .empty, "", [], drawnIds, drawnTimes⟩

def print (s : Session) (line : String) : Session := { s with stdout := s.stdout ++ line ++ "\n" }

/-- Takes over what a request has done. Its event goes to no handler, since there are none. -/
def after {α : Type} (s : Session) (effect : Effect α) : Session :=
  { s with
    store := effect.store
    log := s.log ++ effect.log ++ effect.event.toList.map fun event => event.dispatchLine 0 }

/-- Notes a refused request, or goes on with what it gave. -/
def report {α : Type} (s : Session) (result : Except HubError α) (source : String)
    (next : α → Session → Session) : Session :=
  let id := toString s.notifications.notifications.length
  let (value, notifications, log) := s.notifications.report result source id s.drawnTimes
  let s := { s with notifications := notifications, log := s.log ++ log }
  match value with
  | some a => next a s
  | none => s

end Session

/-- A text filled up with spaces to a width in characters. -/
def filled (width : Nat) (text : String) : String :=
  text ++ String.ofList (List.replicate (width - text.length) ' ')

/-- The line of a listing for an entry. -/
def summaryLine (s : EntrySummary) : String :=
  let dimensions := match s.dimensions with
    | some (rows, cols) => s!"{rows}x{cols}"
    | none => ""
  " ".intercalate [s.category.name, filled 24 s.name, filled 6 dimensions, filled 12 s.sourceTab,
    String.ofList s.timestamp.listingText] ++ "  " ++ s.id.text

def printSummaries (s : Session) (summaries : List EntrySummary) : Session :=
  if summaries.isEmpty then s.print "(no entries)"
  else summaries.foldl (fun s summary => s.print (summaryLine summary)) s

/-- The double nearest to `digits * 10 ^ -places`. -/
def decimal (digits : Int) (places : Nat) : Double :=
  ((Decimal.mk (digits < 0) digits.natAbs (-places)).toDouble?).getD default

/-- Tables of whole numbers as doubles. -/
def wholes (rows : List (List Int)) : List (List Double) := rows.map (·.map (decimal · 0))

/-- The number of qubits of the sample gate. -/
def qubitCount : Value := ⟨.number (.integer 1 (by decide)), trivial⟩

/-- What a short session across the tabs exports. -/
def demoExports : List Store.Export :=
  let half := decimal 7071067811865476 16
  [⟨"matrices", "matrices", .matrix (wholes [[1, 2], [3, 4]]), some (.named "Matrix A")⟩,
    ⟨"quantum", "matrices",
      .matrix [[half, half], [half, decimal (-7071067811865476) 16]],
      some ((ExportMetadata.named "Hadamard").withField "qubits" qubitCount)⟩,
    ⟨"complex", "complex", .complex ⟨decimal 0 0, decimal 1 0⟩, some (.named "i")⟩,
    ⟨"calculus", "functions", .function "sin(x) * exp(-x / 4)", some (.named "Damped sine")⟩,
    ⟨"statistics", "arrays", .array ([21, 24, 19, 28, 22].map (decimal · 1)), none⟩,
    ⟨"statistics", "scalars", .scalar (decimal 228 2), some (.named "Sample mean")⟩,
    ⟨"neural", "datasets",
      .dataset ⟨wholes [[0, 0], [0, 1], [1, 0], [1, 1]], wholes [[0], [1], [1], [0]]⟩,
      some (.named "XOR")⟩]

/-- Carries out exports one after the other, with a line about each. -/
def runExports (around : Surroundings) (s : Session) : List Store.Export → Option Ending
  | [] => some (.finished s)
  | x :: rest =>
    match s.store.exportDrawing x around.supply.id (around.supply.time s.drawnTimes)
      around.patience s.drawnIds with
    | some (.refused e, _) =>
      let s := s.report (.error e : Except HubError EntryId) x.tab fun _ s => s
      runExports around s rest
    | some (.exhausted store, drawn) =>
      some (.panicked { s with store := store, drawnIds := drawn, drawnTimes := s.drawnTimes + 1 })
    | some (.stored effect, drawn) =>
      let s := { s.after effect with drawnIds := drawn, drawnTimes := s.drawnTimes + 1 }
      let singular := x.payload.category.singular
      runExports around (s.print s!"{x.tab} exported {singular} {effect.answer.text}") rest
    | _ => none

/-- Carries out a command on the entries that have been restored. -/
def runCommand (around : Surroundings) (s : Session) : Command → Option Ending
  | .counts =>
    let counts := CategoryCounts.ofStore s.store
    let s := Category.all.foldl (fun s c => s.print s!"{c.name} {counts.get c}") s
    let label := filled 10 "total"
    some (.finished (s.print s!"{label} {counts.total}"))
  | .list none => some (.finished (printSummaries s s.store.listAll))
  | .list (some category) =>
    let effect := s.store.answer (.list category)
    some (.finished ((s.after effect).report effect.answer "cli" fun summaries s =>
      printSummaries s summaries))
  | .search text => some (.finished (printSummaries s (s.store.query (.ofName text))))
  | .showEntry category id =>
    let effect := s.store.answer (.getEntry category ⟨id⟩)
    some (.finished ((s.after effect).report effect.answer "cli" fun entry s => match entry with
      | some e => s.print (Json.pretty e.toJson)
      | none => s.print s!"No entry {id} in {category}"))
  | .remove category id =>
    let effect := s.store.answer (.remove category ⟨id⟩)
    some (.finished ((s.after effect).report effect.answer "cli" fun removed s =>
      s.print (if removed then s!"Removed {id}" else s!"No entry {id} in {category}")))
  | .clear none => some (.finished (s.after (s.store.answer .clearAll)))
  | .clear (some category) =>
    let effect := s.store.answer (.clear category)
    some (.finished ((s.after effect).report effect.answer "cli" fun _ s => s))
  | .demo => runExports around s demoExports

/-- The text of a cause. -/
def causeText (around : Surroundings) : Cause → String
  | .text message => message
  | .json e => around.jsonWording e
  | .file e => e.message

/-- A text whose lines after the first one are set in by a margin, empty ones as well. -/
def hanging (margin : Nat) (text : String) : String :=
  String.ofList (text.toList.flatMap fun c =>
    if c = '\n' then '\n' :: List.replicate margin ' ' else [c])

/-- The account of a failure: the outermost cause, then the others below one another, numbered if
there are several. The lines of a cause stand below its first one. -/
def failureText (around : Surroundings) (failure : Failure) : String :=
  match failure.map (causeText around) with
  | [] => "Error: \n"
  | [message] => s!"Error: {message}\n"
  | [message, cause] => s!"Error: {message}\n\nCaused by:\n    " ++ hanging 4 cause ++ "\n"
  | message :: causes =>
    s!"Error: {message}\n\nCaused by:\n" ++
      String.join (causes.zipIdx.map fun (cause, i) => s!"    {i}: " ++ hanging 7 cause ++ "\n")

/-- The lines about the notifications, with the advice for each. -/
def noticeText (m : NotificationManager) : String :=
  String.join (m.active.map fun n =>
    s!"{n.kind.icon} {n.message}\n" ++
      String.join (n.errors.map fun e => match e.details with
        | some details => s!"  {details}\n"
        | none => ""))

/-- The settings in a file, and the defaults if there is no place for one. -/
def loadConfig (files : Files) : Option String → Except Failure (HubConfig × List LogLine)
  | some path => HubConfig.load files path
  | none => .ok (default, [])

/-- What is reported when a run begins. -/
def openingLines (home : String) : List LogLine :=
  let path := logPath home
  [.remark .info .program s!"Logging initialized to: \"{path}\"",
    .remark .info .program "mathlab starting"]

/-- The session before the command, restored from the snapshot if that is wanted and there. -/
def restoreSession (config : HubConfig) (files : Files) (path : Option String)
    (drawnIds drawnTimes : Nat) : Except Failure Session :=
  let empty := Session.empty drawnIds drawnTimes
  match path.filter fun path => config.restoreOnStart && files.exists? path with
  | none => .ok empty
  | some path => match Snapshot.readFile files path with
    | .error failure => .error (.text s!"Could not restore hub from {path}" :: failure)
    | .ok (snapshot, skipped) =>
      let effect := Store.empty.restore snapshot
      let restored : LogLine :=
        .remark .info .program s!"Restored {effect.answer} entries from \"{path}\""
      .ok { empty with store := effect.store, log := skipped ++ effect.log ++ [restored] }

/-- Ends a run after its command: the notices, then the saving of the snapshot. -/
def finish (around : Surroundings) (config : HubConfig) (options : Options) (command : Command)
    (log : RunLog) (files : Files) (path : Option String) (notice : String) (s : Session) :
    Result :=
  let now := around.supply.time s.drawnTimes
  let files := log.write now s.log files
  let notices := notice ++ noticeText s.notifications
  let status := if s.notifications.hasErrors then 1 else 0
  match path.filter fun _ => command.mutates && config.saveOnExit && !options.noSave with
  | none => ⟨status, s.stdout, notices, files, s.drawnIds, s.drawnTimes⟩
  | some path =>
    let snapshot := Snapshot.ofEntries s.store.toList now
    let drawnTimes := s.drawnTimes + 1
    match snapshot.writeFile files path with
    | (.error failure, files) =>
      let account := ": ".intercalate (failure.map (causeText around))
      let files :=
        log.write now [.report .error .program s!"Failed to save hub snapshot: {account}"] files
      ⟨1, s.stdout, notices ++ failureText around failure, files, s.drawnIds, drawnTimes⟩
    | (.ok lines, files) =>
      let log := log.afterReplacing files path
      let files := log.write now (lines ++ [snapshot.savedLine path]) files
      ⟨status, s.stdout, notices, files, s.drawnIds, drawnTimes⟩

/-- Ends a run by a panic: nothing is saved. -/
def abort (around : Surroundings) (message : String) (files : Files) (notice : String)
    (s : Session) : Result :=
  let account := "\n" ++ panicText message ++ "\n"
  let (files, noted) := match around.home with
    | none => (files, "")
    | some home =>
      let path := crashPath home
      (noteCrash home (around.supply.time s.drawnTimes) message files,
        s!"Crash log written to: \"{path}\"\n")
  ⟨101, s.stdout, notice ++ account ++ noted, files, s.drawnIds, s.drawnTimes⟩

/-- Carries out a command with its options. There is no result if no unissued id is drawn. -/
def runWith (around : Surroundings) (files : Files) (options : Options) (command : Command)
    (drawnIds drawnTimes : Nat) : Option Result :=
  let failed (files : Files) (notice : String) (failure : Failure) : Result :=
    ⟨1, "", notice ++ failureText around failure, files, drawnIds, drawnTimes⟩
  match loadConfig files (options.config.or (HubConfig.defaultPath? around.home)) with
  | .error failure => some (failed files "" failure)
  | .ok (config, _) =>
    let filter := LogFilter.ofRun around.logFilter config.logFilter
    match RunLog.ofRun around.home filter files with
    | (.error e, files, notice) =>
      some (abort around e.message files notice (.empty drawnIds drawnTimes))
    | (.ok log, files, notice) =>
      let now := around.supply.time drawnTimes
      let files := log.write now ((around.home.map openingLines).getD []) files
      let path := options.snapshot.or (config.snapshotPath? around.home)
      match restoreSession config files path drawnIds drawnTimes with
      | .error failure => some (failed files notice failure)
      | .ok session =>
        (runCommand around session command).map fun
          | .finished s => finish around config options command log files path notice s
          | .panicked s =>
            let files := log.write (around.supply.time s.drawnTimes) s.log files
            abort around Store.overflowMessage files notice s

/-- The paths that a run looks at, as far as the configuration is among the files. -/
def watched (home : Option String) (files : Files) (arguments : List String) : List String :=
  match Invocation.ofArguments arguments with
  | .run options _ =>
    let config := options.config.or (HubConfig.defaultPath? home)
    let settings := match loadConfig files config with
      | .ok (settings, _) => settings
      | .error _ => default
    [config, options.snapshot.or (settings.snapshotPath? home), home.map logPath,
      home.map crashPath].reduceOption
  | .version | .refused => []

def usage : String :=
  "Usage: mathlab [--config <CONFIG>] [--snapshot <SNAPSHOT>] [--no-save] <COMMAND>\n"

/-- Carries out a list of arguments. Arguments that are refused change nothing. -/
def run (around : Surroundings) (files : Files) (arguments : List String)
    (drawnIds drawnTimes : Nat) : Option Result :=
  match Invocation.ofArguments arguments with
  | .refused => some ⟨2, "", usage, files, drawnIds, drawnTimes⟩
  | .version => some ⟨0, "mathlab 0.1.0\n", "", files, drawnIds, drawnTimes⟩
  | .run options command => runWith around files options command drawnIds drawnTimes

end LabExchange.CommandLine
