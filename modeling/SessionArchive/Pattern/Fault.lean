import SessionArchive.Text.Digits
import SessionArchive.Text.Split

/-!
# Faults in patterns

Why a pattern is refused. A `Fault` has a reason and the span of the pattern that it is about, or
two spans where something stands twice. `Fault.message` shows the pattern with the spans marked
under it; a pattern of several lines is shown with line numbers.
-/

set_option autoImplicit false

namespace SessionArchive.Pattern

/-- A place in a pattern, between characters; lines and columns count from one. -/
structure Place where
  line : Nat
  column : Nat
deriving Repr, DecidableEq

/-- The beginning of a pattern. -/
def Place.start : Place := ⟨1, 1⟩

/-- The place after a character. -/
def Place.after (p : Place) (c : Char) : Place :=
  if c = '\n' then ⟨p.line + 1, 1⟩ else ⟨p.line, p.column + 1⟩

/-- Whether a place comes before another. -/
def Place.isBefore (p q : Place) : Bool :=
  p.line < q.line || (p.line == q.line && p.column < q.column)

/-- The part of a pattern between two places. -/
structure Span where
  start : Place
  stop : Place
deriving Repr, DecidableEq

/-- The span without characters at a place. -/
def Span.at (p : Place) : Span := ⟨p, p⟩

/-- Whether a span comes before another, or starts with it and ends no later. -/
def Span.precedes (s t : Span) : Bool :=
  s.start.isBefore t.start || (s.start == t.start && !t.stop.isBefore s.stop)

/-- The greatest nesting of groups, repetitions, alternatives and classes. -/
def greatestNesting : Nat := 250

/-- The greatest size of a compiled pattern, in bytes. -/
def greatestSize : Nat := 10 * 1024 * 1024

/-- Why a pattern is refused. -/
inductive Reason where
  | escapeInClass
  | reversedRange
  | rangeNotLiteral
  | unclosedClass
  | emptyDecimal
  | invalidDecimal
  | emptyHex
  | invalidHex
  | invalidHexDigit
  | escapeCutOff
  | unknownEscape
  | danglingNegation
  | repeatedFlag
  | repeatedNegation
  | flagsCutOff
  | unknownFlag
  | repeatedName
  | emptyName
  | invalidName
  | nameCutOff
  | unclosedGroup
  | unopenedGroup
  | nestedTooDeeply
  | reversedCount
  | emptyCount
  | unclosedCount
  | nothingToRepeat
  | unclosedBoundary
  | unknownBoundary
  | boundaryCutOff
  | invalidProperty
  | backreference
  | lookAround
  | unicodeOff
  | brokenText
  | unknownProperty
  | unknownPropertyValue
deriving Repr, DecidableEq

/-- The wording of a reason. -/
def Reason.message : Reason → String
  | .escapeInClass => "invalid escape sequence found in character class"
  | .reversedRange => "invalid character class range, the start must be <= the end"
  | .rangeNotLiteral => "invalid range boundary, must be a literal"
  | .unclosedClass => "unclosed character class"
  | .emptyDecimal => "decimal literal empty"
  | .invalidDecimal => "decimal literal invalid"
  | .emptyHex => "hexadecimal literal empty"
  | .invalidHex => "hexadecimal literal is not a Unicode scalar value"
  | .invalidHexDigit => "invalid hexadecimal digit"
  | .escapeCutOff => "incomplete escape sequence, reached end of pattern prematurely"
  | .unknownEscape => "unrecognized escape sequence"
  | .danglingNegation => "dangling flag negation operator"
  | .repeatedFlag => "duplicate flag"
  | .repeatedNegation => "flag negation operator repeated"
  | .flagsCutOff => "expected flag but got end of regex"
  | .unknownFlag => "unrecognized flag"
  | .repeatedName => "duplicate capture group name"
  | .emptyName => "empty capture group name"
  | .invalidName => "invalid capture group character"
  | .nameCutOff => "unclosed capture group name"
  | .unclosedGroup => "unclosed group"
  | .unopenedGroup => "unopened group"
  | .nestedTooDeeply =>
    s!"exceed the maximum number of nested parentheses/brackets ({greatestNesting})"
  | .reversedCount => "invalid repetition count range, the start must be <= the end"
  | .emptyCount => "repetition quantifier expects a valid decimal"
  | .unclosedCount => "unclosed counted repetition"
  | .nothingToRepeat => "repetition operator missing expression"
  | .unclosedBoundary =>
    "special word boundary assertion is either unclosed or contains an invalid character"
  | .unknownBoundary => "unrecognized special word boundary assertion, " ++
    "valid choices are: start, end, start-half or end-half"
  | .boundaryCutOff => "found either the beginning of a special word boundary or a bounded " ++
    "repetition on a \\b with an opening brace, but no closing brace"
  | .invalidProperty => "invalid Unicode character class"
  | .backreference => "backreferences are not supported"
  | .lookAround => "look-around, including look-ahead and look-behind, is not supported"
  | .unicodeOff => "Unicode not allowed here"
  | .brokenText => "pattern can match invalid UTF-8"
  | .unknownProperty => "Unicode property not found"
  | .unknownPropertyValue => "Unicode property value not found"

/-- Why a pattern is refused, and where: for something that stands twice, `earlier` is where it
stands first. A pattern that is well formed may still be too big to compile. -/
inductive Fault where
  | malformed (reason : Reason) (span : Span) (earlier : Option Span)
  | tooBig
deriving Repr, DecidableEq

/-- Refuses a pattern because of a part of it. -/
def refuse {α : Type} (reason : Reason) (span : Span) : Except Fault α :=
  .error (.malformed reason span none)

/-- Refuses a pattern because of something that stands twice in it. -/
def refuseTwice {α : Type} (reason : Reason) (span earlier : Span) : Except Fault α :=
  .error (.malformed reason span (some earlier))

/-! ## Showing spans under a pattern -/

/-- Carets under the spans of one line, from the column that was reached on. -/
def carets (reached : Nat) : List Span → List Char
  | [] => []
  | s :: rest =>
    let gap := s.start.column - 1 - reached
    let width := max 1 (s.stop.column - s.start.column)
    List.replicate gap ' ' ++ List.replicate width '^' ++ carets (reached + gap + width) rest

/-- The lines of a pattern, each with the spans that lie on it marked below. -/
def notate (width : Nat) (spans : List Span) (number : Nat) :
    List (List Char) → List (List Char)
  | [] => []
  | line :: rest =>
    let label :=
      if width = 0 then "    ".toList
      else
        let digits := Text.decimal number
        List.replicate (width - digits.length) ' ' ++ digits ++ [':', ' ']
    let own := spans.filter fun s => s.start.line == s.stop.line && s.start.line == number
    let notes := if own.isEmpty then [] else [List.replicate label.length ' ' ++ carets 0 own]
    (label ++ line) :: notes ++ notate width spans (number + 1) rest

/-- The spans of a fault in the order in which they stand. -/
def orderedSpans (span : Span) : Option Span → List Span
  | none => [span]
  | some other => if other.precedes span then [other, span] else [span, other]

/-- A note about a span of several lines. -/
def spanNote (s : Span) : String :=
  s!"on line {s.start.line} (column {s.start.column}) through line {s.stop.line} " ++
    s!"(column {s.stop.column - 1})"

/-- The wording of a fault of a pattern. -/
def Fault.message (pattern : String) : Fault → String
  | .tooBig => s!"Compiled regex exceeds size limit of {greatestSize} bytes."
  | .malformed reason span earlier =>
    let text := pattern.toList
    let lines := Text.lines text
    let spans := orderedSpans span earlier
    let severalLines := text.contains '\n'
    let count := lines.length + if text.getLast? = some '\n' then 1 else 0
    let width := if count ≤ 1 then 0 else (Text.decimal count).length
    let shown := (notate width spans 1 lines).flatMap fun line => line ++ ['\n']
    let divider := List.replicate 79 '~' ++ ['\n']
    let notes := (spans.filter fun s => s.start.line != s.stop.line).map spanNote
    let noteText := if notes.isEmpty then "" else "\n".intercalate notes ++ "\n"
    "regex parse error:\n" ++
      (if severalLines then String.ofList (divider ++ shown ++ divider) ++ noteText
      else String.ofList shown) ++
      "error: " ++ reason.message

end SessionArchive.Pattern
