import SessionArchive.Scope
import SessionArchive.Text.Blank
import SessionArchive.Text.Split

/-!
# Remote addresses

The address of a remote repository names its host, and in its path the organization and the
project. Two forms are understood: `scheme://[user@]host[:port]/path` and `[user@]host:path`. The
last segment of the path is the project and the others, joined by slashes, the organization.
-/

set_option autoImplicit false

namespace SessionArchive.Scope

/-- The two parts of an address that matter. -/
structure Remote where
  host : List Char
  path : List Char
deriving Repr, DecidableEq

namespace Remote

/-- An address without white space around it, slashes at its end, and then one `.git`. -/
def stripped (address : List Char) : List Char :=
  Text.dropEnding ['.', 'g', 'i', 't'] (Text.dropEndWhile (· == '/') (Text.trim address))

/-- The host of an authority: what follows the user, without the port. -/
def hostOfAuthority (authority : List Char) : List Char :=
  Text.beforeFirst ':' (Text.afterLast '@' authority)

/-- The parts of an address after its scheme. -/
def ofSchemeSpecific? (rest : List Char) : Option Remote :=
  (Text.cutAt? '/' rest).map fun (authority, path) => ⟨hostOfAuthority authority, path⟩

/-- The parts of an address without a scheme. -/
def ofShorthand? (address : List Char) : Option Remote :=
  match Text.cutAt? ':' address with
  | none => none
  | some (authority, path) =>
    if authority.contains '/' then none else some ⟨Text.afterLast '@' authority, path⟩

/-- The parts of an address. -/
def ofAddress? (address : List Char) : Option Remote :=
  match Text.cutAtText? [':', '/', '/'] address with
  | some (_, rest) => ofSchemeSpecific? rest
  | none => ofShorthand? address

/-- The segments of the path that are not empty. -/
def segments (remote : Remote) : List (List Char) :=
  (Text.splitOn '/' remote.path).filter (!·.isEmpty)

end Remote

/-- The scope of a branch of the repository at an address; `none` without a host, or with fewer
than two segments in the path. -/
def ofRemote? (address branch : String) : Option Scope :=
  match Remote.ofAddress? (Remote.stripped address.toList) with
  | none => none
  | some remote =>
    match remote.segments.getLast? with
    | none => none
    | some project =>
      let groups := remote.segments.dropLast
      if remote.host.isEmpty || groups.isEmpty then none
      else some ⟨String.ofList remote.host, String.ofList (Text.joinWith ['/'] groups),
        String.ofList project, branch⟩

end SessionArchive.Scope
