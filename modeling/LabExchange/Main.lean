import Std.Time.DateTime
import LabExchange.CommandLine.Run

/-!
# The program

The command line on the files of the machine: what a run may look at is read beforehand, and what
it has changed is written afterwards. All decisions are those of `CommandLine.run`.
-/
namespace LabExchange.CommandLine

/-- The ids that are drawn for one run, and how many of them for one export at most. -/
def idsPerRun : Nat := 64

def idsPerExport : Nat := 8

/-- Two hexadecimal digits for each byte. -/
def hexText (bytes : List UInt8) : String :=
  String.ofList (bytes.flatMap fun b =>
    [(b.toNat / 16).digitChar, (b.toNat % 16).digitChar])

def randomId : IO EntryId := do
  return ⟨hexText (← IO.getRandomBytes 16).toList⟩

/-- The present moment, if its year is in range. -/
def present? : IO (Option Timestamp) := do
  let now := Std.Time.PlainDateTime.ofWallTime ((← Std.Time.Timestamp.now).toWallTime .zero)
  return do
    let date ← Date.ofParts? now.year.toInt now.month.val.toNat now.day.val.toNat
    Timestamp.ofParts? date now.hour.val.toNat now.minute.val.toNat now.second.val.toNat
      now.nanosecond.val.toNat

/-- The path of a place of the machine. -/
def machinePath (place : Location) := System.mkFilePath ("" :: place)

/-- What stands at a place of the machine; a directory is taken without what it holds. -/
def look (place : Location) : IO (Option FileNode) := do
  let path := machinePath place
  if !(← path.pathExists) then return none
  if ← path.isDir then return some .empty
  return some (.file (← IO.FS.readFile path))

/-- Adds what stands at the places that a walk along names may come to. -/
def gather (files : Files) (place : Location) : List String → IO Files
  | [] => return files
  | name :: rest => do
    let place :=
      if name = "." then place else if name = ".." then place.dropLast else place ++ [name]
    if (files.at? place).isSome then gather files place rest
    else match ← look place with
      | some node => gather (files.put place node) place rest
      | none => gather files place rest

def gatherPath (files : Files) (path : String) : IO Files :=
  gather files (files.start path) (Path.names path)

/-- Writes what differs. A directory comes before what it holds, and a file is written beside its
place first. -/
def store (before after : Files) : IO Unit := do
  for (place, content) in after.root.toList do
    match before.at? place, content with
    | some (.directory _), none => pure ()
    | _, none => IO.FS.createDirAll (machinePath place)
    | old, some content =>
      let unchanged := match old with
        | some (.file old) => old == content
        | _ => false
      if !unchanged then
        let draft := machinePath (place.dropLast ++ ["." ++ place.getLastD "" ++ ".new"])
        IO.FS.writeFile draft content
        IO.FS.rename draft (machinePath place)

def wording : ReadError → String
  | .malformed => "the text is not JSON"
  | .mismatched => "the JSON text has not the expected form"

def runOnMachine (arguments : List String) : IO UInt32 := do
  let home := (← IO.getEnv "HOME").filter fun home => !home.isEmpty
  let filter ← IO.getEnv "RUST_LOG"
  let current := (← IO.currentDir).toString
  let some now ← present? | throw (IO.userError "the clock is out of range")
  let ids ← (List.range idsPerRun).mapM fun _ => randomId
  let supply : Supply := ⟨fun k => ids.getD k ⟨""⟩, fun _ => now⟩
  let files ← gatherPath ⟨Path.names current, .empty⟩ current
  let files ← (watched home files arguments).foldlM gatherPath files
  let files ← (watched home files arguments).foldlM gatherPath files
  match run ⟨home, filter, supply, idsPerExport, wording⟩ files arguments 0 0 with
  | none => throw (IO.userError "no unused id was drawn")
  | some result =>
    store files result.files
    IO.print result.stdout
    IO.eprint result.stderr
    return UInt32.ofNat result.status

end LabExchange.CommandLine

def main (arguments : List String) : IO UInt32 := LabExchange.CommandLine.runOnMachine arguments
