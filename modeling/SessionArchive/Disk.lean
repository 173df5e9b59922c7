import SessionArchive.Settings
import SessionArchive.Store
import SessionArchive.Surroundings

/-!
# The disk

A `Disk` holds directories, files and databases by path. `openStore` opens a database, which makes
its file and the directories above it, and `loadSettings` reads the settings file, if there is one.
A store that is held by a file shares it with other handles: `refresh` takes over what the file
holds, `update` puts back what the handle holds.
-/

set_option autoImplicit false

namespace SessionArchive

open Store (Database)

/-- What a path leads to. -/
inductive DiskEntry where
  | directory
  | file (bytes : List UInt8)
  | database (content : Database)

/-- A path, as the names on the way from the working directory; an absolute path starts with a
slash as a name of its own, and one out of the working directory with two points for each directory
above it. -/
abbrev DiskPath := List String

/-- What goes wrong on a disk. -/
inductive DiskFault where
  | fileExists
  | notDirectory
  | isDirectory
  | notText
deriving Repr, DecidableEq

/-- The wording of a fault. -/
def DiskFault.message : DiskFault → String
  | .fileExists => "File exists (os error 17)"
  | .notDirectory => "Not a directory (os error 20)"
  | .isDirectory => "Is a directory (os error 21)"
  | .notText => "stream did not contain valid UTF-8"

namespace DiskPath

/-- The root, and the working directory with those above it. -/
def IsTop (path : DiskPath) : Prop := path = ["/"] ∨ ∀ name ∈ path, name = ".."

instance (path : DiskPath) : Decidable path.IsTop :=
  inferInstanceAs (Decidable (path = ["/"] ∨ ∀ name ∈ path, name = ".."))

/-- The directory above. The root has none but itself. -/
def above (path : DiskPath) : DiskPath :=
  if path = ["/"] then path
  -- out of the working directory the way up is part of the path
  else if ∀ name ∈ path, name = ".." then path ++ [".."]
  else path.dropLast

/-- The path one name further, where a name may stand for the same directory or the one above. -/
def step (path : DiskPath) (name : List Char) : DiskPath :=
  if name = [] ∨ name = ['.'] then path
  else if name = ['.', '.'] then path.above
  else path ++ [String.ofList name]

/-- The path that a text means. -/
def ofText (text : String) : DiskPath :=
  (Text.splitOn '/' text.toList).foldl step (if text.startsWith "/" then ["/"] else [])

/-- The paths on the way to a path, the start and the path itself included. -/
def stages : DiskPath → List DiskPath
  | [] => [[]]
  | name :: rest => [] :: (stages rest).map (name :: ·)

end DiskPath

/-- Everything on a disk, by path. The root, the working directory and those above it are always
there. -/
structure Disk where
  entries : List (DiskPath × DiskEntry)

namespace Disk

/-- A disk that holds nothing. -/
def empty : Disk := ⟨[]⟩

/-- What a path leads to. -/
def get? (disk : Disk) (path : DiskPath) : Option DiskEntry :=
  if path.IsTop then some .directory else disk.entries.lookup path

/-- The disk with another entry at a path. -/
def insert (disk : Disk) (path : DiskPath) (entry : DiskEntry) : Disk :=
  ⟨(path, entry) :: disk.entries.filter fun e => e.1 != path⟩

/-- The disk without an entry and what is below it. -/
def remove (disk : Disk) (path : DiskPath) : Disk :=
  ⟨disk.entries.filter fun e => !path.isPrefixOf e.1⟩

/-- Makes one directory, unless it is there. -/
def makeDirectory (disk : Disk) (path : DiskPath) : Except DiskFault Disk :=
  match disk.get? path with
  | none => .ok (disk.insert path .directory)
  | some .directory => .ok disk
  | some _ => .error .fileExists

/-- Makes a directory and those above it. A file in the place of the directory itself and one in
the place of a directory above it are different faults. -/
def makeDirectories (disk : Disk) (path : DiskPath) : Except DiskFault Disk :=
  -- the directories above come first
  match (DiskPath.stages path.dropLast).foldlM makeDirectory disk with
  | Except.ok disk => disk.makeDirectory path
  | Except.error _ => .error .notDirectory

/-- Writes a file, and makes the directories above it. -/
def write (disk : Disk) (path : DiskPath) (bytes : List UInt8) : Except DiskFault Disk :=
  (disk.makeDirectories path.dropLast).map fun disk => disk.insert path (.file bytes)

/-- The text of an entry. -/
def textOf : DiskEntry → Except DiskFault String
  | .directory => .error .isDirectory
  | .file bytes => (Text.Utf8.decode? bytes).mapError fun _ => .notText
  | .database _ => .error .notText

/-! ## Settings -/

/-- The settings of a text, as the settings file holds it. -/
def settingsOfText (text : String) : Except Failure Settings :=
  (Settings.decode text).mapError fun fault =>
    .configuration s!"Failed to parse config file: {fault.message text.toList}"

/-- The settings in the settings file; the default ones if it is not there. -/
def loadSettings (disk : Disk) (surroundings : Surroundings) : Except Failure Settings :=
  match surroundings.settingsPath? with
  | none => .error (.configuration "Could not determine home directory")
  | some path =>
    match disk.get? (DiskPath.ofText path) with
    | none => .ok {}
    | some entry =>
      match textOf entry with
      | .ok text => settingsOfText text
      | .error fault =>
        .error (.configuration s!"Failed to read config file {path}: {fault.message}")

/-! ## Stores -/

/-- The content of the database that an entry holds once it is opened. A file of at most one byte
counts as empty. -/
def databaseOf (path : String) (now : Int64) : Option DiskEntry → Except Failure Database
  | none => .ok (Database.new now)
  | some .directory =>
    .error (.initialization path "connect" s!"unable to open database file: {path}")
  | some (.file bytes) =>
    if bytes.length ≤ 1 then .ok (Database.new now)
    else .error (.initialization path "pragmas" "file is not a database")
  | some (.database content) => .ok (content.applySchema now)

/-- Opens the database at a path. The empty path is a database that no file holds, and so is the
one called `:memory:`; any other is the name of a file, and no address even where it looks like
one. -/
def openStore (disk : Disk) (path : String) (now : Int64) : Except Failure Store × Disk :=
  if path = "" ∨ path = ":memory:" then (.ok ⟨some path, some (Database.new now)⟩, disk)
  else
    let place := DiskPath.ofText path
    match disk.makeDirectories place.dropLast with
    | .error fault => (.error (.initialization path "directory" fault.message), disk)
    | .ok disk =>
      match databaseOf path now (disk.get? place) with
      | .error failure => (.error failure, disk)
      | .ok content => (.ok ⟨some path, some content⟩, disk.insert place (.database content))

/-- The content of the file of an open store, if it is a database. -/
def contentOf? (disk : Disk) (store : Store) : Option (DiskPath × Database) :=
  match store.path, store.database with
  | some path, some _ =>
    -- a database that no file holds has none, though a file may have its name
    if path = "" ∨ path = ":memory:" then none
    else
      match disk.get? (DiskPath.ofText path) with
      | some (.database content) => some (DiskPath.ofText path, content)
      | _ => none
  | _, _ => none

/-- The handle with what its file holds. -/
def refresh (disk : Disk) (store : Store) : Store :=
  match disk.contentOf? store with
  | some (_, content) => { store with database := some content }
  | none => store

/-- The disk with what a handle holds in its file. -/
def update (disk : Disk) (store : Store) : Disk :=
  match disk.contentOf? store, store.database with
  | some (place, _), some content => disk.insert place (.database content)
  | _, _ => disk

end Disk

end SessionArchive
