/-!
# Log lines

What the parts of the program report about their work, from the finest level of detail to the
coarsest.
-/
namespace LabExchange

inductive LogLevel where
  | trace
  | debug
  | info
  | warn
  | error
  deriving DecidableEq, Repr

namespace LogLevel

def name : LogLevel → String
  | trace => "TRACE"
  | debug => "DEBUG"
  | info => "INFO"
  | warn => "WARN"
  | error => "ERROR"

/-- How much detail a log must take to hold the lines of a level. -/
def detail : LogLevel → Nat
  | trace => 5
  | debug => 4
  | info => 3
  | warn => 2
  | error => 1

end LogLevel

/-- The part of the program that a line comes from. -/
inductive LogSource where
  | program
  | config
  | hub
  | events
  | panel
  | snapshot
  | notifications
  deriving DecidableEq, Repr

/-- The name of a part. It begins with the names of the parts that it belongs to. -/
def LogSource.name : LogSource → String
  | program => "mathlab"
  | config => "mathlab::app::config"
  | hub => "mathlab::app::data_hub"
  | events => "mathlab::app::data_hub::events"
  | panel => "mathlab::app::data_hub::panel"
  | snapshot => "mathlab::app::data_hub::snapshot"
  | notifications => "mathlab::app::notifications"

structure LogLine where
  level : LogLevel
  source : LogSource
  text : String
  /-- Whether the line is reported together with its place in the program, and then once more
  without it. -/
  placed : Bool
  deriving DecidableEq, Repr

namespace LogLine

/-- A line that is reported with its place and without it. -/
def report (level : LogLevel) (source : LogSource) (text : String) : LogLine :=
  ⟨level, source, text, true⟩

/-- A line that is reported once, without its place. -/
def remark (level : LogLevel) (source : LogSource) (text : String) : LogLine :=
  ⟨level, source, text, false⟩

/-- The fields of a place in the program. -/
def placeFields : List String := ["log.target", "log.module_path", "log.file", "log.line"]

/-- The fields of the reports of a line, in the order in which they are made. -/
def reports (line : LogLine) : List (List String) :=
  if line.placed then ["message" :: placeFields, ["message"]] else [["message"]]

def render (line : LogLine) : String := line.level.name ++ " " ++ line.text

end LogLine

end LabExchange
