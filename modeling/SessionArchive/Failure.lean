import SessionArchive.Json.Printer
import SessionArchive.Pattern.Fault
import SessionArchive.Store.Fault

/-!
# Failures

Everything that an operation can fail with, as causes. Each failure has a wording, a code, an exit
status that its code decides, sometimes a hint, and a form as JSON for programs that read the
output.
-/

set_option autoImplicit false

namespace SessionArchive

/-- Why an operation failed. -/
inductive Failure where
  | initialization (path stage source : String)
  | storeClosed
  | transaction (operation : String) (source : Store.Fault)
  | query (operation key : String) (source : Store.Fault)
  | sessionNotFound (id : String)
  | repositoryNotFound (id : String)
  | branchNotFound (id : String)
  | invalidPattern (pattern : String) (source : Pattern.Fault)
  | corruptMessage (sessionId : String) (sequence : Int) (reason : String)
  | database (source : Store.Fault)
  | io (text : String)
  | json (text : String)
  | invalidArgument (text : String)
  | configuration (text : String)
  | other (text : String)
deriving Repr, DecidableEq

/-- The codes of failures. -/
inductive Failure.Code where
  | initializationFailed
  | storeClosed
  | transactionFailed
  | databaseError
  | sessionNotFound
  | repositoryNotFound
  | branchNotFound
  | invalidPattern
  | invalidArgument
  | corruptData
  | configError
  | ioError
  | jsonError
  | internalError
deriving Repr, DecidableEq

namespace Failure.Code

/-- The name of a code. -/
def name : Code → String
  | .initializationFailed => "INITIALIZATION_FAILED"
  | .storeClosed => "STORE_CLOSED"
  | .transactionFailed => "TRANSACTION_FAILED"
  | .databaseError => "DATABASE_ERROR"
  | .sessionNotFound => "SESSION_NOT_FOUND"
  | .repositoryNotFound => "REPOSITORY_NOT_FOUND"
  | .branchNotFound => "BRANCH_NOT_FOUND"
  | .invalidPattern => "INVALID_PATTERN"
  | .invalidArgument => "INVALID_ARGUMENT"
  | .corruptData => "CORRUPT_DATA"
  | .configError => "CONFIG_ERROR"
  | .ioError => "IO_ERROR"
  | .jsonError => "JSON_ERROR"
  | .internalError => "INTERNAL_ERROR"

/-- The exit status of a code, one for each group of codes. -/
def exitStatus : Code → Nat
  | .internalError => 1
  | .initializationFailed => 2
  | .storeClosed => 2
  | .transactionFailed => 2
  | .databaseError => 2
  | .sessionNotFound => 3
  | .repositoryNotFound => 3
  | .branchNotFound => 3
  | .invalidPattern => 4
  | .invalidArgument => 4
  | .corruptData => 6
  | .configError => 7
  | .ioError => 8
  | .jsonError => 8

/-- Whether the same operation may succeed when it is tried again, with corrected input where the
input was at fault. -/
def isRetryable : Code → Bool
  | .invalidPattern => true
  | .invalidArgument => true
  | .transactionFailed => true
  | _ => false

end Failure.Code

namespace Failure

/-- The code of a failure. -/
def code : Failure → Code
  | .initialization _ _ _ => .initializationFailed
  | .storeClosed => .storeClosed
  | .transaction _ _ => .transactionFailed
  | .query _ _ _ => .databaseError
  | .database _ => .databaseError
  | .sessionNotFound _ => .sessionNotFound
  | .repositoryNotFound _ => .repositoryNotFound
  | .branchNotFound _ => .branchNotFound
  | .invalidPattern _ _ => .invalidPattern
  | .corruptMessage _ _ _ => .corruptData
  | .invalidArgument _ => .invalidArgument
  | .configuration _ => .configError
  | .io _ => .ioError
  | .json _ => .jsonError
  | .other _ => .internalError

/-- A failure of the tables as a write reports it, which was rolled back. -/
def rolledBack (operation : String) : Failure → Failure
  | .database source => .transaction operation source
  | failure => failure

/-- A failure of the tables as a read reports it, with what was read. -/
def whileReading (operation key : String) : Failure → Failure
  | .database source => .query operation key source
  | failure => failure

/-- The exit status of a failure. -/
def exitStatus (failure : Failure) : Nat := failure.code.exitStatus

/-- Whether a failure says that something looked up is not there. -/
def isNotFound : Failure → Bool
  | .sessionNotFound _ => true
  | .repositoryNotFound _ => true
  | .branchNotFound _ => true
  | _ => false

/-- The wording of a failure. -/
def message : Failure → String
  | .initialization path stage source =>
    s!"Failed to initialize store at {path} ({stage}): {source}"
  | .storeClosed => "Store is closed"
  | .transaction operation source => s!"Transaction `{operation}` rolled back: {source.message}"
  | .query operation key source => s!"Query `{operation}` failed for {key}: {source.message}"
  | .sessionNotFound id => s!"Session not found: {id}"
  | .repositoryNotFound id => s!"Repository not found: {id}"
  | .branchNotFound id => s!"Branch not found: {id}"
  | .invalidPattern pattern source =>
    s!"Invalid search pattern `{pattern}`: {source.message pattern}"
  | .corruptMessage sessionId sequence reason =>
    s!"Corrupt message {sequence} in session {sessionId}: {reason}"
  | .database source => s!"Database error: {source.message}"
  | .io text => s!"IO error: {text}"
  | .json text => s!"JSON error: {text}"
  | .invalidArgument text => s!"Invalid argument: {text}"
  | .configuration text => s!"Configuration error: {text}"
  | .other text => text

/-- What to do about a failure, where there is something to do. -/
def hint : Failure → Option String
  | .initialization path _ _ => some <|
    s!"Check that {path} is writable, or point `--db` / TETHER_DB at another location."
  | .sessionNotFound id => some <|
    s!"No session with ID '{id}'. Use `tether session list --all` to see stored sessions."
  | .repositoryNotFound id => some <|
    s!"No repository with ID '{id}'. Use `tether repo list` to see known repositories."
  | .branchNotFound id => some <|
    s!"No branch with ID '{id}'. Use `tether repo branches <repository-id>` to list branches."
  | .invalidPattern _ _ => some <|
    "Patterns use Rust regex syntax; escape metacharacters such as `(`, `[` or `*` " ++
      "to match them literally."
  | .corruptMessage sessionId _ _ => some <|
    s!"Stored transcript for '{sessionId}' cannot be decoded. " ++
      s!"Delete it with `tether session delete {sessionId}` if it is not recoverable."
  | .transaction _ _ => some "No changes were written; the operation can be retried."
  | .storeClosed => none
  | .query _ _ _ => none
  | .database _ => none
  | .io _ => none
  | .json _ => none
  | .invalidArgument _ => none
  | .configuration _ => none
  | .other _ => none

/-- A failure as JSON. -/
def toJson (failure : Failure) : Json :=
  let hint := match failure.hint with
    | some text => [("hint", Json.string text)]
    | none => []
  .object [("error", .object ([("code", .string failure.code.name),
    ("exit_code", .nat failure.exitStatus)] ++ hint ++
    [("message", .string failure.message), ("retryable", .bool failure.code.isRetryable)]))]

end Failure

end SessionArchive
