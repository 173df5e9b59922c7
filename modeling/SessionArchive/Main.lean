import SessionArchive.CommandLine
import SessionArchive.Store.Archive
import Std.Time.DateTime.Timestamp

/-!
# The program

Reads what a command line may need into a `Disk` (the settings, the database, and the directories
above it), runs it, and writes the database back. No other program is run, so a scope comes from the
options, the environment and the working directory.
-/

set_option autoImplicit false

namespace SessionArchive.Program

/-- The environment variables that matter. -/
def variableNames : List String :=
  ["HOME", "USER", "USERNAME", "TETHER_DB", "TETHER_TEST_DB", "TETHER_CONFIG", "TETHER_HOST",
   "TETHER_ORG", "TETHER_PROJECT", "TETHER_BRANCH", "RUST_LOG", "CLICOLOR_FORCE", "NO_COLOR"]

/-- The variables that are set. -/
def environment : IO (List (String × String)) :=
  variableNames.filterMapM fun name => do
    return (← IO.getEnv name).map fun value => (name, value)

/-- The home directory of the account that the process runs under. -/
def accountHome : IO (Option String) := do
  try
    let status ← IO.FS.readFile "/proc/self/status"
    let accounts ← IO.FS.readFile "/etc/passwd"
    return (Text.splitOn '\n' status.toList).findSome? fun line =>
      match Text.splitOn '\t' line with
      | ['U', 'i', 'd', ':'] :: user :: _ =>
        Surroundings.accountHome? accounts (String.ofList user)
      | _ => none
  catch _ => return none

/-- The surroundings of the process. -/
def surroundings : IO Surroundings := do
  let names := (Text.splitOn '/' (← IO.currentDir).toString.toList).filter (!·.isEmpty)
  let around : Surroundings := ⟨← environment, names.getLast?.map String.ofList, ⟨none, none⟩⟩
  return around.withAccountHome (← accountHome)

/-- The path of the database of a command line. -/
def databasePath? (around : Surroundings) (arguments : List String) : Option String :=
  match CommandLine.parse around.environment arguments with
  | .ok invocation => around.databasePath? invocation.options.database
  | .error _ => none

/-- The text by which the system knows a path. -/
def systemPath (path : DiskPath) : String :=
  match path with
  | "/" :: rest => "/" ++ "/".intercalate rest
  | path => "/".intercalate path

/-- The entry that the bytes of a file are. -/
def entryOf (bytes : ByteArray) : DiskEntry :=
  match (String.fromUTF8? bytes).bind Store.Database.ofText? with
  | some content => .database content
  | none => .file bytes.toList

/-- What a path leads to. -/
def readEntry (path : DiskPath) : IO (Option DiskEntry) := do
  try
    return some (entryOf (← IO.FS.readBinFile (systemPath path)))
  catch
    | .noFileOrDirectory _ _ _ => return none
    | .inappropriateType _ _ _ => return some .directory
    | _ => return none

/-- The disk as far as paths lead. -/
def readDisk (paths : List String) : IO Disk := do
  let mut disk := Disk.empty
  for path in paths do
    for stage in (DiskPath.stages (DiskPath.ofText path)).filter (!·.isEmpty) do
      if let some entry ← readEntry stage then
        disk := disk.insert stage entry
  return disk

/-- Writes the database at a path to its file. -/
def writeDatabase (disk : Disk) (path : String) : IO Unit := do
  let place := DiskPath.ofText path
  if let some (.database content) := disk.get? place then
    if place.length > 1 then IO.FS.createDirAll (systemPath place.dropLast)
    IO.FS.writeFile (systemPath place) content.toText

/-- Runs a command line. -/
def run (arguments : List String) : IO UInt32 := do
  let around ← surroundings
  let database := databasePath? around arguments
  let disk ← readDisk (around.settingsPath?.toList ++ database.toList)
  let now := Int64.ofInt (← Std.Time.Timestamp.now).toSecondsSinceUnixEpoch.val
  let (reply, disk) := CommandLine.run arguments around disk now
  database.forM (writeDatabase disk)
  (← IO.getStdout).putStr reply.out
  (← IO.getStderr).putStr reply.err
  return UInt32.ofNat reply.status

end SessionArchive.Program

/-- Runs the program. -/
def main (arguments : List String) : IO UInt32 := SessionArchive.Program.run arguments
