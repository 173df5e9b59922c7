import SessionArchive.Message
import SessionArchive.Scope

/-!
# Sessions

A session is one conversation: its messages in order, and what a listing shows of it.
`SessionSummary` is a row of such a listing, with the members of the scope beside its own, and
`LoadedSession` a session together with the scope under which it was saved.
-/

set_option autoImplicit false

namespace SessionArchive

open Json (Reader Field)

/-- A conversation with its transcript. -/
structure Session where
  id : String
  createdAt : Int64
  lastUpdated : Int64
  firstPrompt : String
  provider : String
  model : String
  workingDir : String
  messages : List Message

namespace Session

/-- A session without messages. -/
def new (id provider model workingDir : String) (now : Int64) : Session :=
  ⟨id, now, now, "", provider, model, workingDir, []⟩

/-- Adds a message at the end. The first text of a user becomes the title. -/
def push (session : Session) (message : Message) : Session :=
  { session with
    firstPrompt :=
      if session.firstPrompt = "" ∧ message.role = .user then message.plainText
      else session.firstPrompt
    messages := session.messages ++ [message] }

/-- Keeps the last `count` messages. -/
def keepLast (session : Session) (count : Nat) : Session :=
  { session with messages := session.messages.drop (session.messages.length - count) }

/-- A session as JSON. -/
def toJson (session : Session) : Json :=
  .object [("id", .string session.id), ("created_at", .int session.createdAt.toInt),
    ("last_updated", .int session.lastUpdated.toInt),
    ("first_prompt", .string session.firstPrompt), ("provider", .string session.provider),
    ("model", .string session.model), ("working_dir", .string session.workingDir),
    ("messages", .array (session.messages.map Message.toJson))]

/-- The fields of a session. -/
abbrev fields : List (Field Reader) :=
  [.required "id" Json.readString, .required "created_at" Json.readInt64,
   .required "last_updated" Json.readInt64, .required "first_prompt" Json.readString,
   .required "provider" Json.readString, .required "model" Json.readString,
   .required "working_dir" Json.readString,
   .required "messages" (Json.readList Message.read)]

/-- Reads a session. -/
def read : Reader Session :=
  Json.readRecord "struct Session" fields
    fun (id, createdAt, lastUpdated, firstPrompt, provider, model, workingDir, messages, ()) =>
      ⟨id, createdAt, lastUpdated, firstPrompt, provider, model, workingDir, messages⟩

end Session

/-- A session with the scope under which it was saved. -/
structure LoadedSession where
  scope : Scope
  session : Session

/-- A loaded session as JSON. -/
def LoadedSession.toJson (loaded : LoadedSession) : Json :=
  .object [("scope", loaded.scope.toJson), ("session", loaded.session.toJson)]

/-- A session as a listing shows it. -/
structure SessionSummary where
  id : String
  scope : Scope
  createdAt : Int64
  lastUpdated : Int64
  firstPrompt : String
  provider : String
  model : String
  workingDir : String
  messageCount : Nat
deriving Repr, DecidableEq

namespace SessionSummary

/-- A summary as JSON. -/
def toJson (summary : SessionSummary) : Json :=
  .object (("id", .string summary.id) :: summary.scope.members ++
    [("created_at", .int summary.createdAt.toInt),
     ("last_updated", .int summary.lastUpdated.toInt),
     ("first_prompt", .string summary.firstPrompt), ("provider", .string summary.provider),
     ("model", .string summary.model), ("working_dir", .string summary.workingDir),
     ("message_count", .nat summary.messageCount)])

/-- The fields of a summary, without its scope. -/
abbrev fields : List (Field Reader) :=
  [.required "id" Json.readString, .required "created_at" Json.readInt64,
   .required "last_updated" Json.readInt64, .required "first_prompt" Json.readString,
   .required "provider" Json.readString, .required "model" Json.readString,
   .required "working_dir" Json.readString, .required "message_count" Json.readCount]

/-- The summary with a scope and the given fields. -/
def build (scope : Scope) : Json.Values fields → SessionSummary :=
  fun (id, createdAt, lastUpdated, firstPrompt, provider, model, workingDir, messageCount, ()) =>
    ⟨id, scope, createdAt, lastUpdated, firstPrompt, provider, model, workingDir, messageCount⟩

/-- Reads a summary from the inside of an object; the scope is looked for among the other members
once all are read. -/
def readInside : Reader SessionSummary := fun depth cs => do
  let ((slots, others), rest) ←
    Json.Slots.keepMembers fields depth (cs.length + 1) true (Json.Slots.empty fields) cs
  let (values, rest) ← Json.Slots.finishAt fields slots rest
  match Json.pickFields (Scope.fields Json.pickString) others with
  | .ok scope => .ok (build (Scope.build scope) values, rest)
  | .error cause => Json.failUnplaced cause rest

/-- Reads a summary. -/
def read : Reader SessionSummary := fun depth cs =>
  match Json.skipBlanks cs with
  | [] => Json.failNext .valueCutOff []
  | '{' :: rest => Json.enter Json.closeObject readInside depth ('{' :: rest)
  | cs => Json.refuse "struct SessionSummary" cs

end SessionSummary

end SessionArchive
