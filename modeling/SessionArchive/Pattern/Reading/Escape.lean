import SessionArchive.Pattern.Reading.Cursor

/-!
# Escapes

What follows a backslash in a pattern: a character that has a meaning of its own, a control
character, a code point in hexadecimal digits, a class, a property of characters or a condition.
-/

set_option autoImplicit false

namespace SessionArchive.Pattern

/-! ## Which characters may be escaped -/

/-- Whether a character has a meaning of its own in patterns. -/
def isMeta (c : Char) : Bool :=
  ['\\', '.', '+', '*', '?', '(', ')', '|', '[', ']', '{', '}', '^', '$', '#', '&', '-',
    '~'].contains c

/-- Whether a character stands for itself after a backslash: every character of ASCII does but
letters, digits and angle brackets. -/
def isEscapable (c : Char) : Bool :=
  isMeta c || (c.toNat < 0x80 && !c.isAlphanum && c != '<' && c != '>')

/-! ## Code points -/

/-- The character of a code point. -/
def charOfCode? (n : Nat) : Option Char := if n.isValidChar then some (Char.ofNat n) else none

/-- Whether a character is a hexadecimal digit. -/
def isHexDigit (c : Char) : Bool := (Text.hexDigit? c).isSome

/-- A given number of hexadecimal digits. -/
def readHexDigits : Nat → Cursor → Except Fault (List Char × Cursor)
  | 0, c => .ok ([], c)
  | n + 1, c =>
    match c.rest with
    | [] => refuse .escapeCutOff (.at c.place)
    | d :: _ =>
      if isHexDigit d then do
        let (more, last) ← readHexDigits n c.step
        .ok (d :: more, last)
      else refuse .invalidHexDigit c.charSpan

/-- The literal with the digits of a code point, or the fault of their span. -/
def literalOfHex (digits : List Char) (span digitSpan : Span) (asByte : Bool) (c : Cursor) :
    Except Fault (Ast × Cursor) :=
  match (Text.ofHex? digits).bind charOfCode? with
  | some d => .ok (.literal ⟨span, d, asByte⟩, c)
  | none => refuse .invalidHex digitSpan

/-- Hexadecimal digits up to the closing brace, after the opening one. -/
def readBracedDigits : Nat → Cursor → Except Fault (List Char × Cursor)
  | 0, c => .ok ([], c)
  | n + 1, c =>
    match c.rest with
    | [] => .ok ([], c)
    | d :: _ =>
      if d = '}' then .ok ([], c)
      else if isHexDigit d then do
        let (more, last) ← readBracedDigits n c.step
        .ok (d :: more, last)
      else refuse .invalidHexDigit c.charSpan

/-- A code point after its letter, which takes `count` digits or digits in braces. -/
def readCode (start : Place) (count : Nat) (c : Cursor) : Except Fault (Ast × Cursor) := do
  let c := c.step
  match c.rest with
  | [] => refuse .escapeCutOff (.at c.place)
  | '{' :: _ =>
    let brace := c.place
    let (digits, stop) ← readBracedDigits c.rest.length c.step
    if stop.atEnd then refuse .escapeCutOff ⟨brace, stop.place⟩
    else
      let last := stop.step
      if digits.isEmpty then refuse .emptyHex ⟨brace, last.place⟩
      else
        literalOfHex digits ⟨start, last.place⟩ ⟨c.bump.place, stop.place⟩ false last
  | _ =>
    let (digits, last) ← readHexDigits count c
    literalOfHex digits ⟨start, last.place⟩ ⟨c.place, last.place⟩ (count == 2) last

/-! ## Properties -/

/-- The query that the text between the braces of a property means. -/
def queryOfText (text : List Char) : PropertyQuery :=
  -- the signs are tried in this order, wherever they stand
  let valued := (Text.cutAtText? ['!', '='] text).or
    ((Text.cutAt? ':' text).or (Text.cutAt? '=' text))
  match valued with
  | some (name, value) => .value (String.ofList name) (String.ofList value)
  | none => .name (String.ofList text)

/-- A property after its letter. -/
def readProperty (start : Place) (negated : Bool) (c : Cursor) : Except Fault (Ast × Cursor) :=
  let c := c.step
  match c.rest with
  | [] => refuse .escapeCutOff (.at c.place)
  | '{' :: _ =>
    let (text, stop) := c.step.gather (· ≠ '}')
    if stop.atEnd then refuse .escapeCutOff (.at stop.place)
    else .ok (.property ⟨start, stop.bump.place⟩ (queryOfText text) negated, stop.bump)
  | d :: _ =>
    if d = '\\' then refuse .invalidProperty c.charSpan
    else
      let last := c.step
      .ok (.property ⟨start, last.place⟩ (.name (String.ofList [d])) negated, last)

/-! ## Conditions -/

/-- The conditions with a name in braces. -/
def boundaryNames : List (String × Assertion) :=
  [("start", .wordStart), ("end", .wordEnd), ("start-half", .wordStartHalf),
   ("end-half", .wordEndHalf)]

/-- Whether a character may stand in the name of a condition. -/
def isBoundaryChar (c : Char) : Bool := c.isAlpha || c == '-'

/-- The named condition in braces after a word boundary, where the brace comes next; `none` where
the brace begins a count instead. -/
def readBoundary (start : Place) (c : Cursor) : Except Fault (Option Assertion × Cursor) :=
  let inside := c.step
  match inside.rest with
  | [] => refuse .boundaryCutOff ⟨start, inside.place⟩
  | d :: _ =>
    if isBoundaryChar d then
      let (name, stop) := inside.gather isBoundaryChar
      if stop.head? = some '}' then
        match boundaryNames.lookup (String.ofList name) with
        | some kind => .ok (some kind, stop.bump)
        | none => refuse .unknownBoundary ⟨inside.place, stop.place⟩
      else refuse .unclosedBoundary ⟨c.place, stop.place⟩
    else .ok (none, c)

/-! ## All escapes -/

/-- The control characters with a letter of their own. -/
def controlLetters : List (Char × Char) :=
  [('a', '\x07'), ('f', '\x0c'), ('t', '\t'), ('n', '\n'), ('r', '\r'), ('v', '\x0b')]

/-- The conditions with a letter of their own. -/
def assertionLetters : List (Char × Assertion) :=
  [('A', .textStart), ('z', .textEnd), ('B', .notWordBoundary), ('<', .wordStart),
   ('>', .wordEnd)]

/-- The classes by letter, with whether they are negated. -/
def perlLetters : List (Char × PerlKind × Bool) :=
  [('d', .digit, false), ('D', .digit, true), ('s', .space, false), ('S', .space, true),
   ('w', .word, false), ('W', .word, true)]

/-- The number of digits of a code point by its letter. -/
def codeLetters : List (Char × Nat) := [('x', 2), ('u', 4), ('U', 8)]

/-- An escape of one letter, after the letter. -/
def readLetter (start : Place) (d : Char) (last : Cursor) : Except Fault (Ast × Cursor) :=
  let span : Span := ⟨start, last.place⟩
  if isEscapable d then .ok (.literal ⟨span, d, false⟩, last)
  else match controlLetters.lookup d with
    | some e => .ok (.literal ⟨span, e, false⟩, last)
    | none =>
      match assertionLetters.lookup d with
      | some kind => .ok (.assertion span kind, last)
      | none =>
        if d = 'b' then
          if last.head? = some '{' then do
            let (kind, stop) ← readBoundary start last
            match kind with
            | some kind => .ok (.assertion ⟨start, stop.place⟩ kind, stop)
            | none => .ok (.assertion span .wordBoundary, last)
          else .ok (.assertion span .wordBoundary, last)
        else refuse .unknownEscape span

/-- An escape, where the backslash comes next. -/
def readEscape (c : Cursor) : Except Fault (Ast × Cursor) :=
  let start := c.place
  let c := c.bump
  match c.rest with
  | [] => refuse .escapeCutOff ⟨start, c.place⟩
  | d :: _ =>
    -- a digit would repeat a group, which cannot be matched in one pass
    if Text.isDigit d then refuse .backreference ⟨start, c.bump.place⟩
    else match codeLetters.lookup d with
      | some count => readCode start count c
      | none =>
        if d = 'p' ∨ d = 'P' then readProperty start (d = 'P') c
        else match perlLetters.lookup d with
          | some (kind, negated) => .ok (.perl ⟨start, c.bump.place⟩ kind negated, c.bump)
          | none => readLetter start d c.bump

end SessionArchive.Pattern
