import LabExchange.Files
import LabExchange.Log
import LabExchange.Snapshot

/-!
# Snapshot files

Snapshots are written through a temporary file beside their place, so that the file there is
either the old one or the new one.
-/
namespace LabExchange

def SnapshotError.failure : SnapshotError → Failure
  | unreadable e => [.text "Failed to parse hub snapshot", .json e]
  | newerVersion v =>
    [.text s!"Unsupported snapshot version {v} (this build reads up to {Snapshot.currentVersion})"]

namespace Snapshot

/-- Reads a text, with a warning for every entry that is skipped. -/
def parse (text : String) : Except Failure (Snapshot × List LogLine) :=
  match ofText text with
  | .error e => .error e.failure
  | .ok (snapshot, skipped) =>
    .ok (snapshot, skipped.map fun i =>
      .report .warn .snapshot s!"Skipped unreadable snapshot entry {i}")

/-- Reads a file. -/
def readFile (files : Files) (path : String) : Except Failure (Snapshot × List LogLine) :=
  match files.read path with
  | .error e => .error [.text s!"Failed to read snapshot {path}", .file e]
  | .ok text => match parse text with
    | .error failure => .error (.text s!"Invalid snapshot {path}" :: failure)
    | .ok result => .ok result

/-- The directory in which the temporary file of a path is made. -/
def directoryOf (path : String) : String :=
  match Path.parent? path with
  | some directory => if directory = "" then "." else directory
  | none => "."

/-- Writes a file in place of what stood there, unless that is a directory. The second line of
the account is the step that puts the temporary file in place. Directories that have been made
stay also after a failure. -/
def writeFile (files : Files) (path : String) (s : Snapshot) :
    Except Failure (List LogLine) × Files :=
  let directory := directoryOf path
  match files.makeDirectory directory with
  | (.error e, files) =>
    (.error [.text s!"Failed to create snapshot directory {directory}", .file e], files)
  | (.ok (), files) => match files.replace path s.text with
    | .error e =>
      (.error [.text s!"Failed to replace snapshot {path}",
        .text s!"failed to persist temporary file: {e.message}", .file e], files)
    | .ok files =>
      (.ok [.report .debug .snapshot
        s!"Wrote snapshot with {s.entries.length} entries to {path}"], files)

/-- The line about entries that have been saved. -/
def savedLine (path : String) (s : Snapshot) : LogLine :=
  .report .info .hub s!"Saved {s.entries.length} hub entries to {path}"

end Snapshot
end LabExchange
