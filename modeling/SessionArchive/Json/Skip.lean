import SessionArchive.Json.Scan

/-!
# Passing over a value

The value of an unknown member is passed over without being built. It may nest to any depth, its
numbers may be of any size, and half characters in its strings are let through; apart from that it
has to be well formed.
-/

set_option autoImplicit false

namespace SessionArchive.Json

/-! ## Numbers -/

/-- Passes over the digits of an exponent after its letter. -/
def skipExponent : Scan Unit := fun cs =>
  let cs := match cs with
    | '+' :: rest => rest
    | '-' :: rest => rest
    | _ => cs
  match cs with
  | [] => failAt .invalidNumber []
  | c :: rest =>
    if Text.isDigit c then .ok ((), rest.dropWhile Text.isDigit)
    else failNext .invalidNumber (c :: rest)

/-- Passes over an exponent if one follows. -/
def skipScale : Scan Unit
  | [] => .ok ((), [])
  | c :: rest => if c = 'e' ∨ c = 'E' then skipExponent rest else .ok ((), c :: rest)

/-- Passes over what follows the digits before the point. -/
def skipFraction : Scan Unit
  | '.' :: rest =>
    match rest with
    | [] => failNext .invalidNumber []
    | c :: _ =>
      if Text.isDigit c then skipScale (rest.dropWhile Text.isDigit)
      else failNext .invalidNumber rest
  | cs => skipScale cs

/-- Passes over a number without its sign. -/
def skipUnsigned : Scan Unit
  | [] => failAt .invalidNumber []
  | c :: rest =>
    if c = '0' then
      match rest with
      | d :: _ => if Text.isDigit d then failNext .invalidNumber rest else skipFraction rest
      | [] => .ok ((), [])
    else if Text.isDigit c then skipFraction (rest.dropWhile Text.isDigit)
    else failNext .invalidNumber (c :: rest)

/-! ## Strings -/

/-- Passes over what follows a backslash. -/
def skipEscape : Scan Unit
  | [] => failAt .stringCutOff []
  | c :: rest =>
    if c = 'u' then (fourDigits rest).map fun (_, rest) => ((), rest)
    else if (escapeLetter? c).isSome then .ok ((), rest)
    else failNext .invalidEscape (c :: rest)

/-- Passes over a string up to its closing quote. -/
def skipStringBody : Nat → Scan Unit
  | 0, _ => failAt .stringCutOff []
  | _ + 1, [] => failAt .stringCutOff []
  | steps + 1, c :: rest =>
    if c = '"' then .ok ((), rest)
    else if c = '\\' then do
      let (_, rest) ← skipEscape rest
      skipStringBody steps rest
    else if c.toNat < 0x20 then failAt .controlCharacter (c :: rest)
    else skipStringBody steps rest

/-- Passes over a string after its opening quote. -/
def skipString : Scan Unit := fun cs => skipStringBody cs.length cs

/-! ## Values -/

/-- Passes over the colon between a key and its value. -/
def colon : Scan Unit := fun cs =>
  match skipBlanks cs with
  | [] => failNext .objectCutOff []
  | ':' :: rest => .ok ((), rest)
  | rest => failNext .expectedColon rest

/-- Passes over items up to the end of an array, where an item comes next. -/
def skipItems (skip : Scan Unit) : Nat → Scan Unit
  | 0, cs => failNext .valueCutOff cs
  | steps + 1, cs => do
    let (_, rest) ← skip cs
    match skipBlanks rest with
    | [] => failNext .arrayCutOff []
    | ',' :: rest => skipItems skip steps rest
    | ']' :: rest => .ok ((), rest)
    | rest => failNext .expectedItemEnd rest

/-- Passes over members up to the end of an object, where a key comes next. -/
def skipMembers (skip : Scan Unit) : Nat → Scan Unit
  | 0, cs => failNext .objectCutOff cs
  | steps + 1, cs =>
    match skipBlanks cs with
    | [] => failNext .objectCutOff []
    | '"' :: rest => do
      let (_, rest) ← skipString rest
      let (_, rest) ← colon rest
      let (_, rest) ← skip rest
      match skipBlanks rest with
      | [] => failNext .objectCutOff []
      | ',' :: rest => skipMembers skip steps rest
      | '}' :: rest => .ok ((), rest)
      | rest => failNext .expectedMemberEnd rest
    | rest => failNext .keyNotString rest

/-- Passes over what an array or an object holds, behind the bracket that opens it. -/
def skipInside (close : Char) (cutOff : Cause) (inside : Scan Unit) : Scan Unit := fun cs =>
  match skipBlanks cs with
  | [] => failNext cutOff []
  | c :: rest => if c = close then .ok ((), rest) else inside (c :: rest)

/-- Passes over a value; the number of characters bounds the depth. -/
def skipNested : Nat → Scan Unit
  | 0, cs => failNext .valueCutOff cs
  | depth + 1, cs =>
    match skipBlanks cs with
    | [] => failNext .valueCutOff []
    | 'n' :: rest => word ['u', 'l', 'l'] rest
    | 't' :: rest => word ['r', 'u', 'e'] rest
    | 'f' :: rest => word ['a', 'l', 's', 'e'] rest
    | '-' :: rest => skipUnsigned rest
    | '"' :: rest => skipString rest
    | '[' :: rest =>
      skipInside ']' .arrayCutOff (fun cs => skipItems (skipNested depth) cs.length cs) rest
    | '{' :: rest =>
      skipInside '}' .objectCutOff (fun cs => skipMembers (skipNested depth) cs.length cs) rest
    | c :: rest =>
      if Text.isDigit c then skipUnsigned (c :: rest) else failNext .expectedValue (c :: rest)

/-- Passes over a value. -/
def skipValue : Scan Unit := fun cs => skipNested cs.length cs

end SessionArchive.Json
