import LabExchange.Files
import LabExchange.Json.Writer
import LabExchange.Log

/-!
# Configuration

The settings of the application, kept in a file. Every setting has a default, so that a missing
file and one with only some settings both load.
-/
namespace LabExchange

structure HubConfig where
  /-- Where the snapshot is; none stands for the data directory of the platform. -/
  snapshotFile : Option String
  restoreOnStart : Bool
  saveOnExit : Bool
  logFilter : String
  deriving DecidableEq, Repr

namespace HubConfig

def default : HubConfig := ⟨none, true, true, "mathlab=info"⟩

instance : Inhabited HubConfig := ⟨default⟩

/-- The configuration directory of a home directory. -/
def configDirectory (home : String) : String := home ++ "/.config/mathlab"

/-- The data directory of a home directory. -/
def dataDirectory (home : String) : String := home ++ "/.local/share/mathlab"

/-- Where the settings are, if there is a home directory. -/
def defaultPath? (home : Option String) : Option String :=
  home.map fun home => Path.join (configDirectory home) "config.json"

/-- Where the snapshot is, if anywhere. -/
def snapshotPath? (home : Option String) (c : HubConfig) : Option String :=
  c.snapshotFile.or (home.map fun home => Path.join (dataDirectory home) "hub_snapshot.json")

def toJson (c : HubConfig) : Json :=
  .object [("snapshot_file", Json.ofOption .string c.snapshotFile),
    ("restore_on_start", .bool c.restoreOnStart), ("save_on_exit", .bool c.saveOnExit),
    ("log_filter", .string c.logFilter)]

/-- Decodes settings. Those that are missing have their defaults. -/
def ofTree? {δ : Type} (t : Tree δ) : Option HubConfig :=
  match t.fields? ["snapshot_file", "restore_on_start", "save_on_exit", "log_filter"] 4 with
  | some [file, restore, save, filter] => do
    let file ← (file.map (·.asOption? Tree.asString?)).getD (some none)
    let restore ← (restore.map Tree.asBool?).getD (some true)
    let save ← (save.map Tree.asBool?).getD (some true)
    let filter ← (filter.map Tree.asString?).getD (some default.logFilter)
    return ⟨file, restore, save, filter⟩
  | _ => none

/-- Reads a file; a missing one gives the defaults. -/
def load (files : Files) (path : String) : Except Failure (HubConfig × List LogLine) :=
  if !files.exists? path then
    .ok (default, [.report .debug .config s!"No config at {path}, using defaults"])
  else match files.read path with
    | .error e => .error [.text s!"Failed to read config {path}", .file e]
    | .ok text => match Json.read ofTree? text with
      | .error e => .error [.text s!"Failed to parse config {path}", .json e]
      | .ok config => .ok (config, [])

/-- Makes the directory of a path, if it has one. -/
def makeDirectoryOf (files : Files) (path : String) : Except Failure Unit × Files :=
  match Path.parent? path with
  | none => (.ok (), files)
  | some directory => match files.makeDirectory directory with
    | (.error e, files) => (.error [.text s!"Failed to create {directory}", .file e], files)
    | (.ok (), files) => (.ok (), files)

/-- Writes a file, and makes its directory if need be. -/
def save (files : Files) (path : String) (c : HubConfig) : Except Failure Unit × Files :=
  match makeDirectoryOf files path with
  | (.error failure, files) => (.error failure, files)
  | (.ok (), files) => match files.write path (Json.pretty c.toJson) with
    | .error e => (.error [.text s!"Failed to write config {path}", .file e], files)
    | .ok files => (.ok (), files)

end HubConfig
end LabExchange
