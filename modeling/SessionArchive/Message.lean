import SessionArchive.Json.Record
import SessionArchive.Json.Words

/-!
# Messages

A message has a role and a list of parts, each of one of five kinds. The input of a tool call is any
JSON value in canonical form. A message is stored as the JSON text `Message.encode`, and
`Message.read` takes any text that means a message: members in any order, a record as an array, a
role as the key of an object, the tag of a part anywhere among its members.
-/

set_option autoImplicit false

namespace SessionArchive

open Json (Reader Field Picker)

/-! ## Roles -/

/-- Who authored a message. -/
inductive Role where
  | user
  | assistant
  | system
  | tool
deriving Repr, DecidableEq

namespace Role

/-- The name of a role. -/
def name : Role → String
  | .user => "user"
  | .assistant => "assistant"
  | .system => "system"
  | .tool => "tool"

/-- The roles by name. -/
def names : List (String × Role) :=
  [("user", .user), ("assistant", .assistant), ("system", .system), ("tool", .tool)]

/-- The role with a name. -/
def ofName? (name : String) : Option Role := names.lookup name

/-- A role's name as JSON. -/
def toJson (role : Role) : Json := .string role.name

/-- Reads a role. -/
def read : Reader Role := Json.readName names

end Role

/-! ## Parts -/

/-- The input of a tool call: a value whose objects have each key once, in order, and whose integers
fit in 64 bits. -/
structure ToolInput where
  value : Json
  canonical : value.isCanonical = true

/-- The canonical form of a value whose integers fit in 64 bits. -/
def ToolInput.ofJson? (value : Json) : Option ToolInput :=
  if h : value.fits = true then some ⟨value.canonicalize, Json.isCanonical_canonicalize h⟩
  else none

instance : Inhabited ToolInput := ⟨⟨.null, rfl⟩⟩

/-- One piece of a message. -/
inductive Part where
  | text (text : String)
  | reasoning (text : String)
  | toolCall (id name : String) (input : ToolInput)
  | toolResult (callId output : String) (isError : Bool)
  | image (mediaType data : String)

namespace Part

/-- The five kinds of parts. -/
inductive Kind where
  | text
  | reasoning
  | toolCall
  | toolResult
  | image
deriving Repr, DecidableEq

/-- The kinds by the tag that marks them. -/
def kinds : List (String × Kind) :=
  [("text", .text), ("reasoning", .reasoning), ("tool_call", .toolCall),
   ("tool_result", .toolResult), ("image", .image)]

/-- The key under which a part carries its tag. -/
def tagKey : String := "type"

/-- The members of a part's JSON object. -/
def members : Part → List (String × Json)
  | .text content => [("type", .string "text"), ("text", .string content)]
  | .reasoning content => [("type", .string "reasoning"), ("text", .string content)]
  | .toolCall id name input =>
    [("type", .string "tool_call"), ("id", .string id), ("name", .string name),
     ("input", input.value)]
  | .toolResult callId output isError =>
    [("type", .string "tool_result"), ("call_id", .string callId), ("output", .string output),
     ("is_error", .bool isError)]
  | .image mediaType data =>
    [("type", .string "image"), ("media_type", .string mediaType), ("data", .string data)]

/-- A part as JSON. -/
def toJson (part : Part) : Json := .object part.members

/-- Any value as the input of a tool call. -/
def pickInput : Picker ToolInput := fun value =>
  match ToolInput.ofJson? value with
  | some input => .ok input
  | none => .error .numberOutOfRange

/-- The fields of a text. -/
abbrev textFields : List (Field Picker) := [.required "text" Json.pickString]

/-- The fields of a tool call. -/
abbrev toolCallFields : List (Field Picker) :=
  [.required "id" Json.pickString, .required "name" Json.pickString, .required "input" pickInput]

/-- The fields of a tool's result. -/
abbrev toolResultFields : List (Field Picker) :=
  [.required "call_id" Json.pickString, .required "output" Json.pickString,
   .optional "is_error" Json.pickBool false]

/-- The fields of an image. -/
abbrev imageFields : List (Field Picker) :=
  [.required "media_type" Json.pickString, .required "data" Json.pickString]

/-- Takes a part of a known kind from the members or items beside its tag. -/
def pickBody : Kind → Picker Part
  | .text =>
    Json.pickRecord "struct variant Part::Text" textFields fun (content, ()) => .text content
  | .reasoning =>
    Json.pickRecord "struct variant Part::Reasoning" textFields fun (content, ()) =>
      .reasoning content
  | .toolCall =>
    Json.pickRecord "struct variant Part::ToolCall" toolCallFields fun (id, name, input, ()) =>
      .toolCall id name input
  | .toolResult =>
    Json.pickRecord "struct variant Part::ToolResult" toolResultFields
      fun (callId, output, isError, ()) => .toolResult callId output isError
  | .image =>
    Json.pickRecord "struct variant Part::Image" imageFields fun (mediaType, data, ()) =>
      .image mediaType data

/-- Reads the tag of a part. -/
def readKind : Reader Kind := Json.namedValue kinds

/-- The tag of a part, as the only field that is known before the kind is. -/
abbrev tagFields : List (Field Reader) := [.required tagKey readKind]

/-- Reads a part from the inside of an object: its tag and the object of its other members. -/
def readTagged : Reader (Kind × Json) := fun depth cs => do
  let ((tag, others), rest) ←
    Json.Slots.keepMembers tagFields depth (cs.length + 1) true (Json.Slots.empty tagFields) cs
  let ((kind, ()), rest) ← Json.Slots.finishAt tagFields tag rest
  .ok ((kind, .object others), rest)

/-- Reads a part from the inside of an array: its tag and the array of the other items. -/
def readTagFirst : Reader (Kind × Json) := fun depth cs => do
  let (more, rest) ← Json.nextItem true cs
  if more then
    let (kind, rest) ← readKind depth rest
    let (values, rest) ← Json.items (Json.anyValue depth) (rest.length + 1) false rest
    .ok ((kind, .array values), rest)
  else Json.failUnplaced (.missingMember tagKey) rest

/-- How a part is described where one is expected. -/
def description : String := "internally tagged enum Part"

/-- Reads the tag of a part and what stands beside it. -/
def readParts : Reader (Kind × Json) := fun depth cs =>
  match Json.skipBlanks cs with
  | [] => Json.failNext .valueCutOff []
  | '[' :: rest => Json.enter Json.closeArray readTagFirst depth ('[' :: rest)
  | '{' :: rest => Json.enter Json.closeObject readTagged depth ('{' :: rest)
  | cs => Json.refuse description cs

/-- Reads a part. What stands beside the tag is looked at once it is all read. -/
def read : Reader Part := fun depth cs => do
  let ((kind, body), rest) ← readParts depth cs
  match pickBody kind body with
  | .ok part => .ok (part, rest)
  | .error cause => Json.failUnplaced cause rest

end Part

/-! ## Messages -/

/-- One turn of a session. -/
structure Message where
  role : Role
  parts : List Part
  createdAt : Int64

namespace Message

/-- A message of one text. -/
def ofText (role : Role) (text : String) (createdAt : Int64) : Message :=
  ⟨role, [.text text], createdAt⟩

/-- The text of a part that is a text. -/
def partText? : Part → Option String
  | .text text => some text
  | .reasoning _ => none
  | .toolCall _ _ _ => none
  | .toolResult _ _ _ => none
  | .image _ _ => none

/-- The texts of a message, one line break between them. -/
def plainText (message : Message) : String :=
  "\n".intercalate (message.parts.filterMap partText?)

/-- A message as JSON. -/
def toJson (message : Message) : Json :=
  .object [("role", message.role.toJson), ("parts", .array (message.parts.map Part.toJson)),
    ("created_at", .int message.createdAt.toInt)]

/-- The fields of a message. -/
abbrev fields : List (Field Reader) :=
  [.required "role" Role.read, .required "parts" (Json.readList Part.read),
   .optional "created_at" Json.readInt64 (0 : Int64)]

/-- Reads a message. -/
def read : Reader Message :=
  Json.readRecord "struct Message" fields fun (role, parts, createdAt, ()) =>
    ⟨role, parts, createdAt⟩

/-- The text under which a message is stored. -/
def encode (message : Message) : String := message.toJson.toCompact

/-- The message that a text means. -/
def decode (text : String) : Except Json.Fault Message := Json.read read text.toList

end Message

end SessionArchive
