import SessionArchive.Scope.Remote
import SessionArchive.Text.Utf8

/-!
# Surroundings

What a command finds around it: environment variables, the directory in which it runs and what the
version control system says there. They decide where the database and the settings are
(`databasePath?`, `settingsPath?`) and which scope is meant (`detectScope`).
-/

set_option autoImplicit false

namespace SessionArchive

/-- What another program printed, and its exit status. -/
structure ProgramOutput where
  status : Nat
  bytes : List UInt8
deriving Repr, DecidableEq

/-- What the version control system prints for the current branch and for the address of the remote
called `origin`; `none` where it cannot be run. -/
structure VersionControl where
  branch : Option ProgramOutput
  remote : Option ProgramOutput
deriving Repr, DecidableEq

/-- What a command finds around it. `directory` is the last part of the path of the working
directory; the root has none. -/
structure Surroundings where
  environment : List (String × String)
  directory : Option String
  versionControl : VersionControl
deriving Repr, DecidableEq

/-- The parts of a scope that are given rather than detected. -/
structure ScopeOverrides where
  host : Option String := none
  org : Option String := none
  project : Option String := none
  branch : Option String := none
deriving Repr, DecidableEq

/-- The text that a program printed, white space around it left aside; `none` if it failed or
printed nothing else. -/
def ProgramOutput.answer? (output : ProgramOutput) : Option String :=
  if output.status = 0 then
    let text := Text.trimString (Text.Utf8.decodeLossy output.bytes)
    if text = "" then none else some text
  else none

namespace VersionControl

/-- The current branch, or `HEAD` where there is none. -/
def currentBranch? (versionControl : VersionControl) : Option String :=
  versionControl.branch.bind ProgramOutput.answer?

/-- The address of the remote. -/
def remoteAddress? (versionControl : VersionControl) : Option String :=
  versionControl.remote.bind ProgramOutput.answer?

end VersionControl

namespace Surroundings

/-- The value of an environment variable. -/
def get? (surroundings : Surroundings) (name : String) : Option String :=
  surroundings.environment.lookup name

/-! ## Where files are -/

/-- A path inside a directory. -/
def inside (directory name : String) : String :=
  if directory.toList.getLast? = some '/' then directory ++ name else s!"{directory}/{name}"

/-- The directory of the program inside the home directory. -/
def homeDirectory? (surroundings : Surroundings) : Option String :=
  match surroundings.get? "HOME" with
  | none => none
  | some home => if home = "" then none else some (inside home ".tether")

/-- The home directory of a user by number in a list of the accounts, a line for each. -/
def accountHome? (accounts : String) (user : String) : Option String :=
  (Text.splitOn '\n' accounts.toList).findSome? fun line =>
    match Text.splitOn ':' line with
    | [_, _, number, _, _, home, _] =>
      if String.ofList number = user then some (String.ofList home) else none
    | _ => none

/-- The surroundings with the home directory of the account in the place of one that is not set or
is empty. -/
def withAccountHome (surroundings : Surroundings) (home : Option String) : Surroundings :=
  match home with
  | none => surroundings
  | some home =>
    if (surroundings.get? "HOME").getD "" = "" then
      { surroundings with environment := ("HOME", home) :: surroundings.environment }
    else surroundings

/-- The home directory is the one that is set, and else that of the account. -/
theorem homeDirectory?_withAccountHome (surroundings : Surroundings) (home : Option String) :
    (surroundings.withAccountHome home).homeDirectory? =
      surroundings.homeDirectory?.or
        ((home.filter (· ≠ "")).map fun home => inside home ".tether") := by
  cases home with
  | none => simp [withAccountHome]
  | some home =>
    rw [withAccountHome]
    split
    · -- without a home directory of its own the first variable is that of the account
      rename_i hunset
      have hnone : surroundings.homeDirectory? = none := by
        rw [homeDirectory?]
        cases hset : surroundings.get? "HOME" with
        | none => rfl
        | some given => simpa [hset] using hunset
      rw [hnone, Option.none_or, homeDirectory?, get?, List.lookup_cons_self]
      by_cases hhome : home = "" <;> simp [Option.filter, hhome]
    · rename_i hset
      have hsome : surroundings.homeDirectory?.isSome := by
        cases hgiven : surroundings.get? "HOME" with
        | none => simp [hgiven] at hset
        | some given => simp_all [homeDirectory?]
      rw [Option.or_of_isSome hsome]

/-- Whether a database of its own is used for tests: a variable is set to anything but nothing, `0`
and `false`, which may be in capitals. No character outside ASCII has a letter of that word as its
small form. -/
def isTestMode (surroundings : Surroundings) : Bool :=
  match surroundings.get? "TETHER_TEST_DB" with
  | none => false
  | some value => value ≠ "" && value ≠ "0" && value.toLower ≠ "false"

/-- The path of the database: the given one, else the one in the home directory. -/
def databasePath? (surroundings : Surroundings) (given : Option String) : Option String :=
  match given with
  | some path => some path
  | none =>
    let part := if surroundings.isTestMode then "test" else "data"
    surroundings.homeDirectory?.map fun home => inside (inside home part) "tether.db"

/-- The path of the settings: the one that a variable names unless it is blank, else the one in the
home directory. -/
def settingsPath? (surroundings : Surroundings) : Option String :=
  let default := surroundings.homeDirectory?.map fun home => inside home "config.json"
  match surroundings.get? "TETHER_CONFIG" with
  | some path => if Text.trimString path = "" then default else some path
  | none => default

/-! ## Which scope is meant -/

/-- The branch: the given one, else the current one, else `main`. -/
def detectBranch (surroundings : Surroundings) (given : Option String) : String :=
  match given with
  | some branch => branch
  | none =>
    match surroundings.versionControl.currentBranch? with
    | some branch => if branch = "HEAD" then "main" else branch
    | none => "main"

/-- The scope of a directory that has no usable remote. -/
def localScope (surroundings : Surroundings) (branch : String) : Scope :=
  { host := "local"
    org := ((surroundings.get? "USER").or (surroundings.get? "USERNAME")).getD "unknown"
    project := surroundings.directory.getD "workspace"
    branch }

/-- The scope of the remote on a branch, or that of the directory. -/
def detectedScope (surroundings : Surroundings) (branch : String) : Scope :=
  (surroundings.versionControl.remoteAddress?.bind fun address =>
    Scope.ofRemote? address branch).getD (surroundings.localScope branch)

/-- The scope that is meant: the given parts, and the detected ones where none is given. -/
def detectScope (surroundings : Surroundings) (given : ScopeOverrides) : Scope :=
  let branch := surroundings.detectBranch given.branch
  let detected := surroundings.detectedScope branch
  { host := given.host.getD detected.host
    org := given.org.getD detected.org
    project := given.project.getD detected.project
    branch }

end Surroundings

end SessionArchive
