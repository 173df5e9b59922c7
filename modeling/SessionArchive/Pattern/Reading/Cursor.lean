import SessionArchive.Pattern.Syntax
import SessionArchive.Text.Blank

/-!
# The cursor on a pattern

A `Cursor` is the part of a pattern that is still to be read, and its place. Where white space is
ignored, `step` also passes over blanks and comments, which run from a hash to the end of the line.
-/

set_option autoImplicit false

namespace SessionArchive.Pattern

/-- The rest of a pattern, its place, and whether white space is ignored. -/
structure Cursor where
  rest : List Char
  place : Place
  spaced : Bool
deriving Repr

namespace Cursor

/-- The cursor at the beginning of a pattern. -/
def ofText (text : List Char) : Cursor := ⟨text, .start, false⟩

/-- Whether nothing is left. -/
def atEnd (c : Cursor) : Bool := c.rest.isEmpty

/-- The character that comes next. -/
def head? (c : Cursor) : Option Char := c.rest.head?

/-- Passes over one character. -/
def bump (c : Cursor) : Cursor :=
  match c.rest with
  | [] => c
  | d :: rest => { c with rest, place := c.place.after d }

/-- Passes over a number of characters. -/
def bumps : Nat → Cursor → Cursor
  | 0, c => c
  | n + 1, c => bumps n c.bump

/-- The span of the character that comes next. -/
def charSpan (c : Cursor) : Span := ⟨c.place, c.bump.place⟩

/-- Passes over blanks and comments. -/
def passBlanks (inComment : Bool) : List Char → Place → List Char × Place
  | [], p => ([], p)
  | d :: rest, p =>
    if inComment then passBlanks (d ≠ '\n') rest (p.after d)
    else if Text.isBlank d then passBlanks false rest (p.after d)
    else if d = '#' then passBlanks true rest (p.after d)
    else (d :: rest, p)

/-- Passes over blanks and comments where white space is ignored. -/
def skipSpace (c : Cursor) : Cursor :=
  if c.spaced then
    let (rest, place) := passBlanks false c.rest c.place
    { c with rest, place }
  else c

/-- Passes over one character and the white space that is ignored after it. -/
def step (c : Cursor) : Cursor := c.bump.skipSpace

/-- The character after the next one. -/
def second? (c : Cursor) : Option Char := c.rest.tail.head?

/-- The character after the next one and the white space that is ignored after it. A hash counts as
white space itself, but ends no line. -/
def secondPastSpace? (c : Cursor) : Option Char :=
  if c.spaced then
    let after := c.rest.tail
    let found := match after.dropWhile Text.isBlank with
      | '#' :: more => more.dropWhile Text.isBlank
      | other => other
    found.head?.or after.head?
  else c.second?

/-- The cursor after a run of characters, if they come next. -/
def after? (run : List Char) (c : Cursor) : Option Cursor :=
  if run.isPrefixOf c.rest then some (bumps run.length c) else none

/-- The characters up to the first one for which `p` fails. The first argument bounds their
number. -/
def gatherFrom (p : Char → Bool) : Nat → Cursor → List Char × Cursor
  | 0, c => ([], c)
  | n + 1, c =>
    match c.rest with
    | [] => ([], c)
    | d :: _ =>
      if p d then
        let (more, last) := gatherFrom p n c.step
        (d :: more, last)
      else ([], c)

/-- The characters up to the first one for which `p` fails, without the white space that is
ignored. -/
def gather (p : Char → Bool) (c : Cursor) : List Char × Cursor := gatherFrom p c.rest.length c

end Cursor

end SessionArchive.Pattern
