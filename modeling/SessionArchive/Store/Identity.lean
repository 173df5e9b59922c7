import SessionArchive.Store.Write

/-!
# Identity of repositories and branches

A repository is known by host, organization and project, a branch by its repository and name. To
resolve a key is to take the id of the row that has it, or to insert that row; to find it never
inserts. Ids stay with their key until the row is deleted and are never used again.
-/

set_option autoImplicit false

namespace SessionArchive.Store

/-! ## Resolving -/

namespace Write

/-- The id of a repository, which is inserted if it is not there. -/
def resolveRepository (host org project : String) : Write RowId := do
  require .repositories
  match (← get).findRepository? host org project with
  | some repository => pure repository.id
  | none => insertRepository (some host) org project

/-- The id of a branch, which is inserted if it is not there. -/
def resolveBranch (repositoryId : RowId) (name : String) : Write RowId := do
  require .branches
  match (← get).findBranch? repositoryId name with
  | some branch => pure branch.id
  | none => insertBranch repositoryId name

/-- The id of the branch of a scope. -/
def resolveScope (scope : Scope) : Write RowId := do
  let repositoryId ← resolveRepository scope.host scope.org scope.project
  resolveBranch repositoryId scope.branch

end Write

/-! ## Reading -/

namespace Database

/-- Fails where one of a list of tables is missing, naming the first. -/
def requireAll (db : Database) : List TableName → Except Failure Unit
  | [] => .ok ()
  | table :: rest =>
    if db.missing.contains table then .error (.database (.noTable table.name))
    else db.requireAll rest

/-- Reads under the name of an operation and the key that it reads. -/
def read {α : Type} (db : Database) (operation key : String)
    (query : Database → Except Failure α) : Except Failure α :=
  (query db).mapError (Failure.whileReading operation key)

/-- The repository with a key, if it is there. -/
def getRepository (db : Database) (host org project : String) :
    Except Failure (Option Repository) :=
  db.read "get_repository" s!"{host}/{org}/{project}" fun db => do
    db.requireAll [.repositories]
    .ok (db.findRepository? host org project)

/-- The branch with a key, if it is there. -/
def getBranch (db : Database) (repositoryId : RowId) (name : String) :
    Except Failure (Option Branch) :=
  db.read "get_branch" s!"{name} in repository {repositoryId}" fun db => do
    db.requireAll [.branches]
    .ok (db.findBranch? repositoryId name)

/-- The branch of a scope, if it is there. -/
def findScope (db : Database) (scope : Scope) : Except Failure (Option Branch) := do
  match ← db.getRepository scope.host scope.org scope.project with
  | none => .ok none
  | some repository => db.getBranch repository.id scope.branch

/-- Whether a repository comes no later than another: by host, then organization, then project. -/
def repositoryLe (a b : Repository) : Bool :=
  a.host < b.host || (a.host == b.host &&
    (a.org < b.org || (a.org == b.org && a.project ≤ b.project)))

/-- All repositories in order. -/
def listRepositories (db : Database) : Except Failure (List Repository) :=
  db.read "list_repositories" "all repositories" fun db => do
    db.requireAll [.repositories]
    .ok (db.repositories.rows.mergeSort repositoryLe)

/-- The branches of a repository, in order of their names. -/
def listBranches (db : Database) (repositoryId : RowId) : Except Failure (List Branch) :=
  db.read "list_branches" s!"repository {repositoryId}" fun db => do
    db.requireAll [.branches]
    .ok ((db.branches.rows.filter fun b => b.repositoryId == repositoryId).mergeSort
      fun a b => a.name ≤ b.name)

end Database

end SessionArchive.Store
