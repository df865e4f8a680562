import LabExchange.Config
import LabExchange.Log.Filter
import LabExchange.Time.Writer

/-!
# The log of a run

A run appends to a log file what its parts report, as far as a filter lets it through. The file is
opened once. What is reported after something else has been put in its place is lost with it.

A run that ends in a panic leaves an account of it in a file beside the log.
-/
namespace LabExchange.CommandLine

def logDirectory (home : String) : String := Path.join (HubConfig.dataDirectory home) "logs"

def logPath (home : String) : String := Path.join (logDirectory home) "mathlab.log"

def crashPath (home : String) : String := Path.join (logDirectory home) "crash.log"

structure RunLog where
  /-- Where the log file stands, if it could be opened and is still there. -/
  place : Option Location
  filter : LogFilter

namespace RunLog

/-- Makes sure that there is a log file, or says why there is none. Only if there is one the filter
is looked at, and there may be none. -/
def opened (home : String) (filter : Except LogFilterError LogFilter) (files : Files) :
    Except LogFilterError RunLog × Files × String :=
  let path := logPath home
  let files := (files.makeDirectory (logDirectory home)).2
  match files.write path ((files.read path).toOption.getD "") with
  | .ok files =>
    let place := (files.resolve path).toOption
    (filter.map fun filter => ⟨place, filter⟩, files, "")
  | .error e =>
    (.ok ⟨none, .standard⟩, files, s!"Failed to open log file \"{path}\": {e.message}\n")

/-- The log of a run, for which there must be a home directory. -/
def ofRun (home : Option String) (filter : Except LogFilterError LogFilter) (files : Files) :
    Except LogFilterError RunLog × Files × String :=
  match home with
  | none => (.ok ⟨none, .standard⟩, files, "No home directory found, logging disabled\n")
  | some home => opened home filter files

/-- A report of a line as it stands in the log file. -/
def record (now : Timestamp) (line : LogLine) : String :=
  let level := String.ofList (List.replicate (5 - line.level.name.length) ' ') ++ line.level.name
  String.ofList now.text ++ s!" {level} {line.source.name}: {line.text}\n"

/-- What a line leaves in the log file: a record for each of its reports that the filter takes. -/
def records (log : RunLog) (now : Timestamp) (line : LogLine) : String :=
  String.join ((line.reports.filter (log.filter.takes line)).map fun _ => record now line)

/-- Appends the records of lines. -/
def write (log : RunLog) (now : Timestamp) (lines : List LogLine) (files : Files) : Files :=
  match log.place with
  | none => files
  | some place =>
    files.appendAt place (String.join (lines.map (log.records now)))

/-- The log after a file has been put in the place of a path. -/
def afterReplacing (log : RunLog) (files : Files) (path : String) : RunLog :=
  if (files.resolve path).toOption = log.place then { log with place := none } else log

end RunLog

/-- The account of a panic. -/
def panicText (message : String) : String :=
  s!"Math Lab crashed!\nDetails: {message}\n"

/-- Appends the account of a panic to the file for them, if that can be done. -/
def noteCrash (home : String) (now : Timestamp) (message : String) (files : Files) : Files :=
  let path := crashPath home
  let files := (files.makeDirectory (logDirectory home)).2
  let old := (files.read path).toOption.getD ""
  let title := "\n=== CRASH at " ++ String.ofList now.listingText ++ " ===\n"
  (files.write path (old ++ title ++ panicText message ++ "\n")).toOption.getD files

end LabExchange.CommandLine
