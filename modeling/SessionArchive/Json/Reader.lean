import SessionArchive.Json.Skip

/-!
# Reading values from JSON text

A `Reader` takes a value of a Lean type from the front of a text. It is given the number of arrays
and objects that may still be entered, which bounds the nesting of what is built; `read` starts with
`greatestDepth`. A fault found inside a container without a place of its own is placed where the
container ends, or where looking for its end stops.
-/

set_option autoImplicit false

namespace SessionArchive.Json

/-- Takes a value from the front of a text, entering no more than a number of containers. -/
abbrev Reader (α : Type) := Nat → Scan α

/-- How many arrays and objects may be nested in what is built. -/
def greatestDepth : Nat := 127

/-! ## Containers -/

/-- Whether an item comes next in an array; the text is left at the item or at the end. -/
def nextItem (first : Bool) : Scan Bool := fun cs =>
  match skipBlanks cs with
  | [] => failNext .arrayCutOff []
  | c :: rest =>
    if c = ']' then .ok (false, c :: rest)
    else if first then .ok (true, c :: rest)
    else if c = ',' then
      match skipBlanks rest with
      | [] => failNext .valueCutOff []
      | d :: rest => if d = ']' then failNext .trailingComma (d :: rest) else .ok (true, d :: rest)
    else failNext .expectedItemEnd (c :: rest)

/-- The key that comes next in an object, if any. -/
def nextKey (first : Bool) : Scan (Option String) := fun cs =>
  match skipBlanks cs with
  | [] => failNext .objectCutOff []
  | c :: rest =>
    if c = '}' then .ok (none, c :: rest)
    else if first then
      if c = '"' then (stringAfterQuote rest).map fun (key, rest) => (some key, rest)
      else failNext .keyNotString (c :: rest)
    else if c = ',' then
      match skipBlanks rest with
      | [] => failNext .valueCutOff []
      | d :: rest =>
        if d = '"' then (stringAfterQuote rest).map fun (key, rest) => (some key, rest)
        else if d = '}' then failNext .trailingComma (d :: rest)
        else failNext .keyNotString (d :: rest)
    else failNext .expectedMemberEnd (c :: rest)

/-- The end of an array. -/
def closeArray : Scan Unit := fun cs =>
  match skipBlanks cs with
  | [] => failNext .arrayCutOff []
  | c :: rest =>
    -- a comma means that there are more items than were wanted
    if c = ']' then .ok ((), rest)
    else if c = ',' then
      match skipBlanks rest with
      | ']' :: rest => failNext .trailingComma (']' :: rest)
      | rest => failNext .trailingText rest
    else failNext .trailingText (c :: rest)

/-- The end of an object. -/
def closeObject : Scan Unit := fun cs =>
  match skipBlanks cs with
  | [] => failNext .objectCutOff []
  | c :: rest =>
    if c = '}' then .ok ((), rest)
    else if c = ',' then failNext .trailingComma (c :: rest)
    else failNext .trailingText (c :: rest)

/-- Places a fault that has no place where looking for an end stops. -/
def Fault.placeAfter (close : Scan Unit) (fault : Fault) : Fault :=
  match fault.mark with
  | some _ => fault
  | none =>
    match close fault.rest with
    | .ok (_, rest) => { fault with rest, mark := some 0 }
    | .error stop => { fault with rest := stop.rest, mark := some 0 }

/-- What stands between an opening bracket and its end. -/
def enclosed {α : Type} (close : Scan Unit) (inner : Scan α) : Scan α := fun cs =>
  match inner cs with
  | .ok (value, rest) => (close rest).map fun (_, rest) => (value, rest)
  | .error fault => .error (fault.placeAfter close)

/-- Enters a container whose bracket comes next. -/
def enter {α : Type} (close : Scan Unit) (inner : Reader α) : Reader α
  | 0, cs => failNext .tooDeep cs
  | depth + 1, cs => enclosed close (inner depth) (cs.drop 1)

/-- The items of an array up to its end, each read by one reader. -/
def items {α : Type} (item : Scan α) : Nat → Bool → Scan (List α)
  | 0, _, cs => failNext .arrayCutOff cs
  | steps + 1, first, cs => do
    let (more, rest) ← nextItem first cs
    if more then
      let (value, rest) ← item rest
      let (values, rest) ← items item steps false rest
      .ok (value :: values, rest)
    else .ok ([], rest)

/-- The members of an object up to its end, each value read by one reader. -/
def members {α : Type} (value : Scan α) : Nat → Bool → Scan (List (String × α))
  | 0, _, cs => failNext .objectCutOff cs
  | steps + 1, first, cs => do
    let (key, rest) ← nextKey first cs
    match key with
    -- a key that stands twice is kept twice
    | none => .ok ([], rest)
    | some key =>
      let (_, rest) ← colon rest
      let (v, rest) ← value rest
      let (others, rest) ← members value steps false rest
      .ok ((key, v) :: others, rest)

/-! ## Any value -/

/-- A value that is neither an array nor an object, of which some character comes next. -/
def scalar : Scan Json
  | [] => failNext .valueCutOff []
  | 'n' :: rest => (word ['u', 'l', 'l'] rest).map fun (_, rest) => (.null, rest)
  | 't' :: rest => (word ['r', 'u', 'e'] rest).map fun (_, rest) => (.bool true, rest)
  | 'f' :: rest => (word ['a', 'l', 's', 'e'] rest).map fun (_, rest) => (.bool false, rest)
  | '"' :: rest => (stringAfterQuote rest).map fun (s, rest) => (.string s, rest)
  | c :: rest =>
    if c = '-' ∨ Text.isDigit c then
      (numeral (c :: rest)).map fun (n, rest) => (.number n, rest)
    else failNext .expectedValue (c :: rest)

/-- Any value, with the members of its objects as they stand. -/
def anyValue : Reader Json
  | 0, cs =>
    match skipBlanks cs with
    | '[' :: rest => failNext .tooDeep ('[' :: rest)
    | '{' :: rest => failNext .tooDeep ('{' :: rest)
    | cs => scalar cs
  | depth + 1, cs =>
    match skipBlanks cs with
    | '[' :: rest =>
      (enclosed closeArray (items (anyValue depth) (rest.length + 1) true) rest).map
        fun (values, rest) => (.array values, rest)
    | '{' :: rest =>
      (enclosed closeObject (members (anyValue depth) (rest.length + 1) true) rest).map
        fun (values, rest) => (.object values, rest)
    | cs => scalar cs

/-! ## Values of one kind -/

/-- Fails because the value that comes next is not of the kind expected. -/
def refuse {α : Type} (expected : String) : Scan α
  | '[' :: rest => failAt (.wrongKind .array expected) ('[' :: rest)
  | '{' :: rest => failAt (.wrongKind .object expected) ('{' :: rest)
  | [] => failNext .expectedValue []
  | cs => do
    let (value, rest) ← scalar cs
    failAt (.wrongKind value.found expected) rest

/-- Whether a value that comes next begins like a number. -/
def beginsNumber (c : Char) : Bool := c == '-' || Text.isDigit c

/-- An integer between two bounds, the second excluded; `expected` names the kind. -/
def readInteger (expected : String) (low high : Int) : Reader Int := fun _ cs =>
  match skipBlanks cs with
  | [] => failNext .valueCutOff []
  | c :: rest =>
    if beginsNumber c then do
      let (n, rest) ← numeral (c :: rest)
      match n with
      -- a number outside the bounds is the wrong value, one with a point the wrong kind
      | .integer i =>
        if low ≤ i ∧ i < high then .ok (i, rest)
        else failAt (.wrongValue (.number n) expected) rest
      | .float _ => failAt (.wrongKind (.number n) expected) rest
    else refuse expected (c :: rest)

/-- A truth value. -/
def readBool : Reader Bool := fun _ cs =>
  match skipBlanks cs with
  | [] => failNext .valueCutOff []
  | 't' :: rest => (word ['r', 'u', 'e'] rest).map fun (_, rest) => (true, rest)
  | 'f' :: rest => (word ['a', 'l', 's', 'e'] rest).map fun (_, rest) => (false, rest)
  | cs => refuse "a boolean" cs

/-- A string; `expected` names what it stands for. -/
def readStringAs (expected : String) : Reader String := fun _ cs =>
  match skipBlanks cs with
  | [] => failNext .valueCutOff []
  | '"' :: rest => stringAfterQuote rest
  | cs => refuse expected cs

/-- A string. -/
def readString : Reader String := readStringAs "a string"

/-- A list of values. -/
def readList {α : Type} (item : Reader α) : Reader (List α) := fun depth cs =>
  match skipBlanks cs with
  | [] => failNext .valueCutOff []
  | '[' :: rest =>
    enter closeArray (fun depth cs => items (item depth) (cs.length + 1) true cs) depth
      ('[' :: rest)
  | cs => refuse "a sequence" cs

/-- The value that a name stands for. -/
def namedValue {α : Type} (names : List (String × α)) : Reader α := fun depth cs => do
  let (name, rest) ← readStringAs "variant identifier" depth cs
  match names.lookup name with
  | some value => .ok (value, rest)
  | none => failAt (.unknownName name (names.map Prod.fst)) rest

/-- A null. -/
def readNull : Reader Unit := fun _ cs =>
  match skipBlanks cs with
  | [] => failNext .valueCutOff []
  | 'n' :: rest => word ['u', 'l', 'l'] rest
  | cs => refuse "unit" cs

/-- One of a list of named values, as its name alone or as the only key of an object that holds
null. -/
def readName {α : Type} (names : List (String × α)) : Reader α := fun depth cs =>
  match skipBlanks cs with
  | [] => failNext .valueCutOff []
  | '"' :: rest => namedValue names depth ('"' :: rest)
  | '{' :: rest =>
    match depth with
    | 0 => failNext .tooDeep ('{' :: rest)
    | depth + 1 => do
      let (value, rest) ← namedValue names depth rest
      let (_, rest) ← colon rest
      let (_, rest) ← readNull depth rest
      -- the object holds this key alone
      match skipBlanks rest with
      | [] => failAt .objectCutOff []
      | '}' :: rest => .ok (value, rest)
      | rest => failAt .expectedValue rest
  | cs => failNext .expectedValue cs

/-! ## Whole texts -/

/-- Reads a whole text as one value. -/
def read {α : Type} (reader : Reader α) (text : List Char) : Except Fault α := do
  let (value, rest) ← reader greatestDepth text
  match skipBlanks rest with
  | [] => .ok value
  | rest => failNext .trailingText rest

end SessionArchive.Json
