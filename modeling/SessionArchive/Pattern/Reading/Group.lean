import SessionArchive.Pattern.Reading.Cursor
import SessionArchive.Unicode.Property

/-!
# Groups, flags and counts

What opens a group: flags, the name of a group, or nothing; and how often the node before is
repeated.
-/

set_option autoImplicit false

namespace SessionArchive.Pattern

/-! ## Flags -/

/-- The flags by letter. -/
def flagLetters : List (Char × Flag) :=
  [('i', .caseInsensitive), ('m', .multiLine), ('s', .dotMatchesNewLine), ('U', .swapGreed),
   ('u', .unicode), ('R', .crlf), ('x', .ignoreWhitespace)]

/-- The flags read so far, latest first and each with its span; the minus sign, once there was one;
and the span of a minus sign that no flag follows yet. -/
structure FlagsSoFar where
  flags : List (Flag × Bool × Span)
  minus : Option Span
  dangling : Option Span

/-- Adds the flag or minus sign that comes next. -/
def FlagsSoFar.add (soFar : FlagsSoFar) (d : Char) (span : Span) : Except Fault FlagsSoFar :=
  if d = '-' then
    match soFar.minus with
    | some earlier => refuseTwice .repeatedNegation span earlier
    | none => .ok { soFar with minus := some span, dangling := some span }
  else
    match flagLetters.lookup d with
    | none => refuse .unknownFlag span
    | some flag =>
      match soFar.flags.lookup flag with
      | some (_, earlier) => refuseTwice .repeatedFlag span earlier
      | none => .ok
        { soFar with flags := (flag, soFar.minus.isNone, span) :: soFar.flags, dangling := none }

/-- The changes that were read, in order. -/
def FlagsSoFar.changes (soFar : FlagsSoFar) : FlagChanges :=
  soFar.flags.reverse.map fun (flag, on, _) => (flag, on)

/-- Flags up to a colon or a closing parenthesis. -/
def readFlagsFrom : Nat → FlagsSoFar → Cursor → Except Fault (FlagChanges × Cursor)
  | 0, _, c => refuse .flagsCutOff (.at c.place)
  | n + 1, soFar, c =>
    match c.rest with
    | [] => refuse .flagsCutOff (.at c.place)
    | d :: _ =>
      if d = ':' ∨ d = ')' then
        match soFar.dangling with
        | some span => refuse .danglingNegation span
        | none => .ok (soFar.changes, c)
      else do
        let soFar ← soFar.add d c.charSpan
        readFlagsFrom n soFar c.bump

/-! ## Names -/

/-- Whether a character may stand in the name of a group, first in it or later. -/
def isNameChar (first : Bool) (c : Char) : Bool :=
  c == '_' || Unicode.alphabetic.contains c ||
    (!first && (c == '.' || c == '[' || c == ']' ||
      (Unicode.ofCategories ["Nd", "Nl", "No"]).contains c))

/-- The characters of a name up to the closing angle bracket. -/
def readNameFrom : Nat → Bool → Cursor → Except Fault (List Char × Cursor)
  | 0, _, c => .ok ([], c)
  | n + 1, first, c =>
    match c.rest with
    | [] => .ok ([], c)
    | d :: _ =>
      if d = '>' then .ok ([], c)
      else if isNameChar first d then do
        let (more, last) ← readNameFrom n false c.bump
        .ok (d :: more, last)
      else refuse .invalidName c.charSpan

/-- The names of the groups so far, with their spans. -/
abbrev GroupNames := List (String × Span)

/-- A name after its opening angle bracket, which no other group may have. -/
def readName (names : GroupNames) (c : Cursor) : Except Fault (GroupNames × Cursor) := do
  if c.atEnd then refuse .nameCutOff (.at c.place)
  else
    let (name, stop) ← readNameFrom c.rest.length true c
    if stop.atEnd then refuse .nameCutOff (.at stop.place)
    else if name.isEmpty then refuse .emptyName (.at c.place)
    else
      let span : Span := ⟨c.place, stop.place⟩
      match names.lookup (String.ofList name) with
      | some earlier => refuseTwice .repeatedName span earlier
      | none => .ok ((String.ofList name, span) :: names, stop.bump)

/-! ## What opens a group -/

/-- What a parenthesis opens: a change of flags for the rest of the group around it, or a group. -/
inductive Opening where
  | flags (changes : FlagChanges)
  | group (changes : FlagChanges) (names : GroupNames)

/-- The beginnings of conditions on what stands around a place, which are not understood. -/
def lookArounds : List (List Char) := [['?', '='], ['?', '!'], ['?', '<', '='], ['?', '<', '!']]

/-- What an opening parenthesis, which comes next, opens. -/
def readOpening (names : GroupNames) (c : Cursor) : Except Fault (Opening × Cursor) := do
  let span := c.charSpan
  let c := c.step
  match lookArounds.findSome? fun run => c.after? run with
  | some stop => refuse .lookAround ⟨span.start, stop.place⟩
  | none =>
    match (c.after? ['?', 'P', '<']).or (c.after? ['?', '<']) with
    | some inside =>
      let (names, c) ← readName names inside
      .ok (.group [] names, c)
    | none =>
      match c.after? ['?'] with
      | none => .ok (.group [] names, c)
      | some inside =>
        if inside.atEnd then refuse .unclosedGroup span
        else
          let (changes, stop) ← readFlagsFrom inside.rest.length ⟨[], none, none⟩ inside
          -- a colon leads to a group of its own, a closing parenthesis to the rest of this one
          if stop.head? = some ':' then .ok (.group changes names, stop.bump)
          else if changes.isEmpty then refuse .nothingToRepeat (.at c.place)
          else .ok (.flags changes, stop.bump)

/-! ## Counts -/

/-- How often something is repeated. -/
structure Count where
  least : Nat
  most : Option Nat

/-- The greatest number in a count. -/
def greatestCount : Nat := 0xFFFFFFFF

/-- A decimal number in a count, with blanks around it. The fault is kept for when it matters. -/
def readDecimal (c : Cursor) : Except Fault Nat × Cursor :=
  let (_, c) := c.gather Text.isBlank
  let (digits, stop) := c.gather Text.isDigit
  let (_, last) := stop.gather Text.isBlank
  let span : Span := ⟨c.place, stop.place⟩
  let number :=
    if digits.isEmpty then refuse .emptyCount span
    else match Text.ofDecimal? digits with
      | some n => if n ≤ greatestCount then .ok n else refuse .invalidDecimal span
      | none => refuse .invalidDecimal span
  (number, last)

/-- A count after its opening brace, up to the closing one. -/
def readCount (start : Place) (c : Cursor) : Except Fault (Count × Cursor) := do
  let (least, c) := readDecimal c
  if c.atEnd then refuse .unclosedCount ⟨start, c.place⟩
  else if c.head? = some ',' then
    let c := c.step
    if c.atEnd then refuse .unclosedCount ⟨start, c.place⟩
    else
      let least ← least
      if c.head? = some '}' then .ok (⟨least, none⟩, c)
      else
        let (most, c) := readDecimal c
        let most ← most
        .ok (⟨least, some most⟩, c)
  else
    let least ← least
    .ok (⟨least, some least⟩, c)

/-- Whether the most is no less than the least. -/
def Count.isOrdered (count : Count) : Bool :=
  match count.most with
  | none => true
  | some most => count.least ≤ most

end SessionArchive.Pattern
