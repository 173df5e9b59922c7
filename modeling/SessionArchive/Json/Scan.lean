import SessionArchive.Json.Fault

/-!
# Words, numbers and strings of JSON text

A `Scan` takes what it reads from the front of a text and hands on the rest, or fails with a
`Fault`. This module scans what stands between the brackets: blanks, the three words, numbers and
strings. Numbers keep as many digits as fit in 64 bits; further digits only move the point.
-/

set_option autoImplicit false

namespace SessionArchive.Json

/-- Takes a value from the front of a text. -/
abbrev Scan (α : Type) := List Char → Except Fault (α × List Char)

/-- Fails at the place that was reached. -/
def failAt {α : Type} (cause : Cause) (rest : List Char) : Except Fault α :=
  .error ⟨cause, rest, some 0⟩

/-- Fails at the character that comes next. -/
def failNext {α : Type} (cause : Cause) (rest : List Char) : Except Fault α :=
  .error ⟨cause, rest, some 1⟩

/-- Fails without a place; the container around it supplies one. -/
def failUnplaced {α : Type} (cause : Cause) (rest : List Char) : Except Fault α :=
  .error ⟨cause, rest, none⟩

/-! ## Blanks and words -/

/-- The four blank characters of JSON. -/
def isBlank (c : Char) : Bool := c == ' ' || c == '\n' || c == '\t' || c == '\r'

/-- Passes over blanks. -/
def skipBlanks (cs : List Char) : List Char := cs.dropWhile isBlank

/-- Takes the letters of a word. -/
def word : List Char → Scan Unit
  | [], cs => .ok ((), cs)
  | _ :: _, [] => failAt .valueCutOff []
  | w :: ws, c :: rest => if c = w then word ws rest else failNext .expectedWord (c :: rest)

/-! ## Numbers -/

/-- The greatest significand that is kept. -/
def greatestSignificand : Nat := 0xFFFFFFFFFFFFFFFF

/-- Adds digits to a significand for as long as it can be kept, and hands on the rest. -/
def gatherDigits (significand : Nat) : List Char → Nat × List Char
  | [] => (significand, [])
  | c :: rest =>
    match Text.decimalDigit? c with
    | none => (significand, c :: rest)
    | some d =>
      -- the digit that does not fit is left for the rest, as are those behind it
      if significand * 10 + d ≤ greatestSignificand then
        gatherDigits (significand * 10 + d) rest
      else (significand, c :: rest)

/-- The number with a significand and a power of ten, read up to `rest`. -/
def floatOf (negative : Bool) (significand : Nat) (exponent : Int) : Scan Numeral := fun rest =>
  match Number.Binary64.ofScientific? negative significand exponent with
  | some x => .ok (.float x, rest)
  | none => failAt .numberOutOfRange rest

/-- The greatest exponent that is told apart from greater ones. -/
def greatestExponent : Nat := 0x7FFFFFFF

/-- Adds digits to an exponent; stops after the digit that makes it too great. -/
def gatherExponent (exponent : Nat) : List Char → Nat × List Char
  | [] => (exponent, [])
  | c :: rest =>
    match Text.decimalDigit? c with
    | none => (exponent, c :: rest)
    | some d =>
      if exponent * 10 + d ≤ greatestExponent then gatherExponent (exponent * 10 + d) rest
      else (exponent * 10 + d, rest)

/-- What follows the letter of an exponent. -/
def exponentPart (negative : Bool) (significand : Nat) (point : Int) : Scan Numeral := fun cs =>
  let (down, cs) := match cs with
    | '+' :: rest => (false, rest)
    | '-' :: rest => (true, rest)
    | _ => (false, cs)
  match cs with
  | [] => failAt .valueCutOff []
  | c :: _ =>
    if Text.isDigit c then
      let (exponent, rest) := gatherExponent 0 cs
      if exponent ≤ greatestExponent then
        floatOf negative significand (point + if down then -(exponent : Int) else exponent) rest
      -- with an exponent that great a number is zero or beyond all numbers
      else if significand ≠ 0 ∧ !down then failAt .numberOutOfRange rest
      else .ok (.float (Number.Binary64.zero negative), rest.dropWhile Text.isDigit)
    else failNext .invalidNumber cs

/-- What follows the digits of a number that is no integer: an exponent, or nothing. -/
def afterDigits (negative : Bool) (significand : Nat) (point : Int) : Scan Numeral
  | [] => floatOf negative significand point []
  | c :: rest =>
    if c = 'e' ∨ c = 'E' then exponentPart negative significand point rest
    else floatOf negative significand point (c :: rest)

/-- What follows the point of a number. -/
def fractionPart (negative : Bool) (significand : Nat) (point : Int) : Scan Numeral := fun cs =>
  match cs with
  | [] => failNext .valueCutOff []
  | c :: _ =>
    if Text.isDigit c then
      let (significand, rest) := gatherDigits significand cs
      afterDigits negative significand (point - ((cs.length - rest.length : Nat) : Int))
        (rest.dropWhile Text.isDigit)
    else failNext .invalidNumber cs

/-- An integer with a sign: zero with a minus sign, and what does not fit in 64 bits, are floats. -/
def signedNumeral (negative : Bool) (significand : Nat) : Numeral :=
  if negative then
    if significand = 0 ∨ 0x8000000000000000 < significand then
      .float ((Number.Binary64.round true significand 1).getD (Number.Binary64.zero true))
    else .integer (-significand)
  else .integer significand

/-- What follows the digits before the point; `dropped` of them did not fit in the significand. -/
def afterInteger (negative : Bool) (significand dropped : Nat) : Scan Numeral
  | '.' :: rest => fractionPart negative significand dropped rest
  | cs =>
    match cs, dropped with
    | 'e' :: rest, _ => exponentPart negative significand dropped rest
    | 'E' :: rest, _ => exponentPart negative significand dropped rest
    | _, 0 => .ok (signedNumeral negative significand, cs)
    | _, _ => floatOf negative significand dropped cs

/-- A number without its sign. -/
def unsignedNumber (negative : Bool) : Scan Numeral
  | [] => failAt .valueCutOff []
  | c :: rest =>
    if c = '0' then
      match rest with
      | d :: _ =>
        if Text.isDigit d then failNext .invalidNumber rest else afterInteger negative 0 0 rest
      | [] => afterInteger negative 0 0 []
    else if Text.isDigit c then
      let (significand, rest) := gatherDigits 0 (c :: rest)
      afterInteger negative significand (rest.takeWhile Text.isDigit).length
        (rest.dropWhile Text.isDigit)
    else failNext .invalidNumber (c :: rest)

/-- A number. -/
def numeral : Scan Numeral
  | '-' :: rest => unsignedNumber true rest
  | cs => unsignedNumber false cs

/-! ## Strings -/

/-- Four hexadecimal digits. -/
def fourDigits : Scan Nat
  | a :: b :: c :: d :: rest =>
    match Text.ofHex? [a, b, c, d] with
    | some n => .ok (n, rest)
    | none => .error ⟨.invalidEscape, a :: b :: c :: d :: rest, some 4⟩
  | cs =>
    if Text.Utf8.size cs < 4 then failAt .stringCutOff [] else .error ⟨.invalidEscape, cs, some 4⟩

/-- Whether a number is the first half of a character beyond sixteen bits. -/
def isHighSurrogate (n : Nat) : Bool := 0xD800 ≤ n && n ≤ 0xDBFF

/-- Whether a number is the second half of a character beyond sixteen bits. -/
def isLowSurrogate (n : Nat) : Bool := 0xDC00 ≤ n && n ≤ 0xDFFF

/-- The character of two halves. -/
def joinSurrogates (high low : Nat) : Char :=
  Char.ofNat ((high - 0xD800) * 0x400 + (low - 0xDC00) + 0x10000)

/-- The character that four digits stand for, with four more where they are only its first half. -/
def codeEscape : Scan Char := fun cs => do
  let (high, rest) ← fourDigits cs
  if isLowSurrogate high then failAt .loneSurrogate rest
  else if isHighSurrogate high then
    match rest with
    | [] => failAt .stringCutOff []
    | ['\\'] => failAt .stringCutOff []
    | '\\' :: 'u' :: more => do
      let (low, rest) ← fourDigits more
      if isLowSurrogate low then .ok (joinSurrogates high low, rest)
      else failAt .loneSurrogate rest
    | '\\' :: other => failNext .escapeCutOff other
    | other => failNext .escapeCutOff other
  else .ok (Char.ofNat high, rest)

/-- What a backslash and a letter stand for. -/
def escapeLetter? : Char → Option Char
  | '"' => some '"'
  | '\\' => some '\\'
  | '/' => some '/'
  | 'b' => some '\x08'
  | 'f' => some '\x0c'
  | 'n' => some '\n'
  | 'r' => some '\r'
  | 't' => some '\t'
  | _ => none

/-- What follows a backslash. -/
def escape : Scan Char
  | [] => failAt .stringCutOff []
  | c :: rest =>
    if c = 'u' then codeEscape rest
    else match escapeLetter? c with
      | some d => .ok (d, rest)
      | none => failNext .invalidEscape (c :: rest)

/-- The characters of a string up to its closing quote; the number of characters that are left
bounds the number of steps. -/
def stringBody : Nat → Scan (List Char)
  | 0, _ => failAt .stringCutOff []
  | _ + 1, [] => failAt .stringCutOff []
  | steps + 1, c :: rest =>
    if c = '"' then .ok ([], rest)
    else if c = '\\' then do
      let (d, rest) ← escape rest
      let (ds, rest) ← stringBody steps rest
      .ok (d :: ds, rest)
    else if c.toNat < 0x20 then failNext .controlCharacter (c :: rest)
    else do
      let (ds, rest) ← stringBody steps rest
      .ok (c :: ds, rest)

/-- A string after its opening quote. -/
def stringAfterQuote : Scan String := fun cs =>
  (stringBody cs.length cs).map fun (ds, rest) => (String.ofList ds, rest)

end SessionArchive.Json
