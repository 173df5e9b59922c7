import SessionArchive.Json.Record
import SessionArchive.Json.Words

/-!
# Scopes, repositories and branches

Everything that is stored belongs to a branch of a repository. A `Scope` names such a branch by
host, organization, project and branch; `Repository` and `Branch` are the stored rows, which carry
the ids that the rest of the store refers to.
-/

set_option autoImplicit false

namespace SessionArchive

open Json (Reader Field)

/-- The number of a stored row. -/
abbrev RowId := Int

/-- A branch of a repository, named in full; the parts of a nested group are joined by slashes. -/
structure Scope where
  host : String
  org : String
  project : String
  branch : String
deriving Repr, DecidableEq, Inhabited

namespace Scope

/-- The name of the repository, without the branch. -/
def repositoryPath (scope : Scope) : String := s!"{scope.host}/{scope.org}/{scope.project}"

/-- The full name, `host/org/project@branch`. -/
def display (scope : Scope) : String := s!"{scope.repositoryPath}@{scope.branch}"

/-- The members of a scope's JSON object. -/
def members (scope : Scope) : List (String × Json) :=
  [("host", .string scope.host), ("org", .string scope.org), ("project", .string scope.project),
   ("branch", .string scope.branch)]

/-- A scope as JSON. -/
def toJson (scope : Scope) : Json := .object scope.members

/-- How a scope is described where one is expected. -/
def description : String := "struct Scope"

/-- The fields of a scope, for any source of strings. -/
abbrev fields {R : Type → Type} (string : R String) : List (Field R) :=
  [.required "host" string, .required "org" string, .required "project" string,
   .required "branch" string]

/-- The scope with the given fields. -/
def build {R : Type → Type} {string : R String} : Json.Values (fields string) → Scope :=
  fun (host, org, project, branch, ()) => ⟨host, org, project, branch⟩

/-- Reads a scope. -/
def read : Reader Scope := Json.readRecord description (fields Json.readString) build

end Scope

/-- A stored repository. -/
structure Repository where
  id : RowId
  host : String
  org : String
  project : String
deriving Repr, DecidableEq

namespace Repository

/-- A repository as JSON. -/
def toJson (repository : Repository) : Json :=
  .object [("id", .int repository.id), ("host", .string repository.host),
    ("org", .string repository.org), ("project", .string repository.project)]

/-- The fields of a repository. -/
abbrev fields : List (Field Reader) :=
  [.required "id" Json.readSigned, .required "host" Json.readString,
   .required "org" Json.readString, .required "project" Json.readString]

/-- Reads a repository. -/
def read : Reader Repository :=
  Json.readRecord "struct Repository" fields fun (id, host, org, project, ()) =>
    ⟨id, host, org, project⟩

end Repository

/-- A stored branch of a repository. -/
structure Branch where
  id : RowId
  repositoryId : RowId
  name : String
deriving Repr, DecidableEq

namespace Branch

/-- A branch as JSON. -/
def toJson (branch : Branch) : Json :=
  .object [("id", .int branch.id), ("repository_id", .int branch.repositoryId),
    ("name", .string branch.name)]

/-- The fields of a branch. -/
abbrev fields : List (Field Reader) :=
  [.required "id" Json.readSigned, .required "repository_id" Json.readSigned,
   .required "name" Json.readString]

/-- Reads a branch. -/
def read : Reader Branch :=
  Json.readRecord "struct Branch" fields fun (id, repositoryId, name, ()) =>
    ⟨id, repositoryId, name⟩

end Branch

end SessionArchive
