import SessionArchive.Text.Utf8

/-!
# Faults of the tables

Why a statement on the tables fails: a table that is missing, a constraint that a row violates, a
row that is rejected, or a stored value of the wrong kind. A match that no snippet can be cut around
is a fault of its own, which ends a search for good.
-/

set_option autoImplicit false

namespace SessionArchive.Store

/-- The kinds of stored values. -/
inductive CellKind where
  | null
  | integer
  | real
  | text
  | blob
deriving Repr, DecidableEq

/-- The name of a kind. -/
def CellKind.name : CellKind → String
  | .null => "Null"
  | .integer => "Integer"
  | .real => "Real"
  | .text => "Text"
  | .blob => "Blob"

/-- Why a statement fails. -/
inductive Fault where
  | noRows
  | noTable (name : String)
  | foreignKey
  | notNull (column : String)
  | notUnique (columns : List String)
  | rejected
  | wrongKind (kind : CellKind) (index : Nat) (column : String)
  | brokenText (index : Nat) (fault : Text.Utf8.Fault)
  | noSnippet (start stop : Nat)
deriving Repr, DecidableEq

/-- The wording of a fault. -/
def Fault.message : Fault → String
  | .noRows => "Query returned no rows"
  | .noTable name => s!"no such table: {name}"
  | .foreignKey => "FOREIGN KEY constraint failed"
  | .notNull column => s!"NOT NULL constraint failed: {column}"
  | .notUnique columns => "UNIQUE constraint failed: " ++ ", ".intercalate columns
  | .rejected => "rejected"
  | .wrongKind kind index column =>
    s!"Invalid column type {kind.name} at index: {index}, name: {column}"
  | .brokenText index fault =>
    s!"Conversion error from type Text at index: {index}, {fault.message}"
  | .noSnippet start stop => s!"no snippet from byte {start} to byte {stop}"

end SessionArchive.Store
