import SessionArchive.Pattern
import SessionArchive.Store.Sessions

/-!
# Searching messages

A search runs a matcher over the stored text of every message, the latest first, and yields for each
match where it is, who said it and a snippet: the match with some characters around it. It stops at
the limit, so what lies beyond is not read.
-/

set_option autoImplicit false

namespace SessionArchive.Store

open Json (Reader Field)

/-! ## Snippets -/

/-- The last elements of a list. -/
def lastOf {α : Type} (count : Nat) (xs : List α) : List α := xs.drop (xs.length - count)

/-- The part of a text from `radius` characters before one byte offset to `radius` characters after
another. `none` where an offset is beyond the text or inside a character, or where the part would
end before it starts. -/
def snippet? (text : List Char) (start stop radius : Nat) : Option (List Char) :=
  match Text.Utf8.split? start text, Text.Utf8.split? stop text with
  | some (before, _), some (_, after) =>
    -- `radius` counts characters, the offsets bytes
    let first := start - Text.Utf8.size (lastOf radius before)
    let last := stop + Text.Utf8.size (after.take radius)
    if last < first then none
    else
      (Text.Utf8.split? first text).bind fun (_, rest) =>
        (Text.Utf8.split? (last - first) rest).map Prod.fst
  | _, _ => none

/-- The number of characters shown on either side of a match. -/
def snippetRadius : Nat := 100

/-! ## Hits -/

/-- A message that matches. -/
structure SearchHit where
  sessionId : String
  sequence : Int64
  role : String
  snippet : String
  createdAt : Int64
deriving Repr, DecidableEq

namespace SearchHit

/-- A hit as JSON. -/
def toJson (hit : SearchHit) : Json :=
  .object [("session_id", .string hit.sessionId), ("sequence", .int hit.sequence.toInt),
    ("role", .string hit.role), ("snippet", .string hit.snippet),
    ("created_at", .int hit.createdAt.toInt)]

/-- The fields of a hit. -/
abbrev fields : List (Field Reader) :=
  [.required "session_id" Json.readString, .required "sequence" Json.readInt64,
   .required "role" Json.readString, .required "snippet" Json.readString,
   .required "created_at" Json.readInt64]

/-- Reads a hit. -/
def read : Reader SearchHit :=
  Json.readRecord "struct SearchHit" fields
    fun (sessionId, sequence, role, snippet, createdAt, ()) =>
      ⟨sessionId, sequence, role, snippet, createdAt⟩

end SearchHit

/-- Finds the first match in a text, from one byte offset to another. -/
abbrev Matcher := String → Option (Nat × Nat)

/-- Reads a text as a pattern, or tells why it is none. -/
abbrev Engine := String → Except Pattern.Fault Matcher

/-- The engine of the patterns. -/
def patternEngine : Engine := fun text => (Pattern.compile text).map Pattern.find

/-- The hit of a message whose content matches. Offsets that no snippet lies between end the search,
before the time of the message is read. -/
def hitOf (row : MessageRow) (content : String) (span : Nat × Nat) : Except Fault SearchHit := do
  let sequence ← row.sequence.toInt 1 "sequence"
  let role ← row.role.toText 2 "role"
  match snippet? content.toList span.1 span.2 snippetRadius with
  | none => .error (.noSnippet span.1 span.2)
  | some snippet =>
    let createdAt ← row.createdAt.toInt 4 "created_at"
    .ok ⟨row.sessionId, Int64.ofInt sequence, role, String.ofList snippet, Int64.ofInt createdAt⟩

/-- The hit of a message, if its content matches. -/
def scanRow (find : Matcher) (row : MessageRow) : Except Fault (Option SearchHit) := do
  let content ← row.content.toText 3 "content"
  match find content with
  | none => .ok none
  | some span => (hitOf row content span).map some

/-- The hits in a list of messages, no more than `wanted` if that is given, and the number of
messages that were looked at. -/
def scan (find : Matcher) (wanted : Option Nat) :
    List MessageRow → Except Fault (List SearchHit × Nat)
  | [] => .ok ([], 0)
  | row :: rest => do
    match ← scanRow find row with
    | none =>
      let (hits, scanned) ← scan find wanted rest
      .ok (hits, scanned + 1)
    | some hit =>
      match wanted with
      -- the hit that is the last one wanted ends the search
      | some (more + 2) =>
        let (hits, scanned) ← scan find (some (more + 1)) rest
        .ok (hit :: hits, scanned + 1)
      | some _ => .ok ([hit], 1)
      | none =>
        let (hits, scanned) ← scan find none rest
        .ok (hit :: hits, scanned + 1)

/-- Whether a message comes no later in a search than another: by time, then by id, the greater
first. -/
def searchLe (a b : MessageRow) : Bool :=
  b.createdAt.isBefore a.createdAt || (!a.createdAt.isBefore b.createdAt && b.id ≤ a.id)

namespace Database

/-- All messages in the order of a search. -/
def searchOrder (db : Database) : List MessageRow := db.messages.rows.mergeSort searchLe

/-- The messages that a matcher finds something in, and the number that were looked at. A limit of
zero is none. `pattern` is what the matcher looks for. -/
def searchMessages (db : Database) (pattern : String) (find : Matcher) (limit : Nat) :
    Except Failure (List SearchHit × Nat) :=
  db.read "search_messages" pattern fun db => do
    db.requireAll [.messages]
    (scan find (if limit = 0 then none else some limit) db.searchOrder).mapError Failure.database

end Database

end SessionArchive.Store
