import SessionArchive.Pattern.Reading.Escape

/-!
# Classes in brackets

A class lists characters, ranges, named classes and nested classes, with operators between lists.
The classes that are still open are kept in a list, innermost first, each with what was collected
around it and with the operator that waits for its right side.
-/

set_option autoImplicit false

namespace SessionArchive.Pattern

/-- The parts collected so far, latest first, and their span. -/
structure ClassItems where
  span : Span
  items : List ClassSet

/-- Adds a part. -/
def ClassItems.push (union : ClassItems) (item : ClassSet) : ClassItems :=
  ⟨⟨if union.items.isEmpty then item.span.start else union.span.start, item.span.stop⟩,
   item :: union.items⟩

/-- The parts as one part. -/
def ClassItems.toSet (union : ClassItems) : ClassSet :=
  match union.items with
  | [] => .empty union.span
  | [item] => item
  | items => .union union.span items.reverse

/-- A class that is still open: what was collected around it, the span of its opening, whether it is
negated, and an operator with its left side. -/
structure OpenClass where
  outer : ClassItems
  span : Span
  negated : Bool
  pending : Option (SetOp × ClassSet)

/-- Completes the waiting operator with its right side. -/
def OpenClass.complete (frame : OpenClass) (rhs : ClassSet) : ClassSet :=
  match frame.pending with
  | none => rhs
  | some (op, lhs) => .binary ⟨lhs.span.start, rhs.span.stop⟩ op lhs rhs

/-! ## The opening -/

/-- Hyphens at the beginning of a class, which stand for themselves. -/
def readHyphens (start : Place) : Nat → ClassItems → Cursor → Except Fault (ClassItems × Cursor)
  | 0, items, c => .ok (items, c)
  | n + 1, items, c =>
    if c.head? = some '-' then
      let next := c.step
      if next.atEnd then refuse .unclosedClass (.at start)
      else readHyphens start n (items.push (.literal ⟨c.charSpan, '-', false⟩)) next
    else .ok (items, c)

/-- The opening bracket of a class with the negation, and the hyphens and the closing bracket that
stand for themselves right after it. -/
def openClass (outer : ClassItems) (c : Cursor) :
    Except Fault ((OpenClass × ClassItems) × Cursor) := do
  let start := c.place
  let c := c.step
  if c.atEnd then refuse .unclosedClass ⟨start, c.place⟩
  else
    let negated := c.head? == some '^'
    let c := if negated then c.step else c
    if c.atEnd then refuse .unclosedClass ⟨start, c.place⟩
    else
      let (items, c) ← readHyphens start c.rest.length ⟨.at c.place, []⟩ c
      -- a closing bracket at the very front stands for itself
      if items.items.isEmpty && c.head? == some ']' then
        let items := items.push (.literal ⟨c.charSpan, ']', false⟩)
        let c := c.step
        if c.atEnd then refuse .unclosedClass ⟨start, c.place⟩
        else .ok ((⟨outer, ⟨start, c.place⟩, negated, none⟩, items), c)
      else .ok ((⟨outer, ⟨start, c.place⟩, negated, none⟩, items), c)

/-- The fault of a class that is not closed: the innermost one is named. -/
def unclosed {α : Type} (frames : List OpenClass) (c : Cursor) : Except Fault α :=
  refuse .unclosedClass ((frames.head?.map OpenClass.span).getD (.at c.place))

/-! ## The parts -/

/-- The names of classes of ASCII characters. -/
def asciiNames : List String :=
  ["alnum", "alpha", "ascii", "blank", "cntrl", "digit", "graph", "lower", "print", "punct",
   "space", "upper", "word", "xdigit"]

/-- A class by name, between `[:` and `:]`; `none` where there is none. -/
def namedClass? (c : Cursor) : Option (ClassSet × Cursor) :=
  match c.rest with
  | '[' :: ':' :: rest =>
    let (negated, inside) := match rest with
      | '^' :: inside => (true, inside)
      | _ => (false, rest)
    let name := inside.takeWhile (· ≠ ':')
    match inside.drop name.length with
    | ':' :: ']' :: _ =>
      if asciiNames.contains (String.ofList name) then
        let last := c.bumps (2 + (if negated then 1 else 0) + name.length + 2)
        some (.named ⟨c.place, last.place⟩ (String.ofList name) negated, last)
      else none
    | _ => none
  | _ => none

/-- A character or an escape in a class. -/
def readClassItem (c : Cursor) : Except Fault (Ast × Cursor) :=
  match c.rest with
  | [] => refuse .unclosedClass (.at c.place)
  | '\\' :: _ => readEscape c
  | d :: _ => .ok (.literal ⟨c.charSpan, d, false⟩, c.bump)

/-- An item of a class on its own. -/
def classSetOf : Ast → Except Fault ClassSet
  | .literal l => .ok (.literal l)
  | .perl span kind negated => .ok (.perl span kind negated)
  | .property span query negated => .ok (.property span query negated)
  | other => refuse .escapeInClass other.span

/-- An item of a class as the end of a range. -/
def rangeEndOf : Ast → Except Fault Literal
  | .literal l => .ok l
  | other => refuse .rangeNotLiteral other.span

/-- A character, an escape or a range in a class. -/
def readClassRange (frames : List OpenClass) (c : Cursor) : Except Fault (ClassSet × Cursor) := do
  let (low, c) ← readClassItem c
  let c := c.skipSpace
  if c.atEnd then unclosed frames c
  -- a hyphen at the end of the class or before another one begins no range
  else if c.head? != some '-' || c.secondPastSpace? == some ']' ||
      c.secondPastSpace? == some '-' then
    let item ← classSetOf low
    .ok (item, c)
  else
    let c := c.step
    if c.atEnd then unclosed frames c
    else
      let (high, c) ← readClassItem c
      let span : Span := ⟨low.span.start, high.span.stop⟩
      let lowEnd ← rangeEndOf low
      let highEnd ← rangeEndOf high
      if lowEnd.char ≤ highEnd.char then .ok (.range span lowEnd highEnd, c)
      else refuse .reversedRange span

/-- The operator that comes next, two equal characters. -/
def setOp? (c : Cursor) : Option SetOp :=
  match c.rest with
  | '&' :: '&' :: _ => some .intersection
  | '-' :: '-' :: _ => some .difference
  | '~' :: '~' :: _ => some .symmetricDifference
  | _ => none

/-- Reads parts up to the end of the outermost class. The first argument bounds their number. -/
def readClassFrom : Nat → Cursor → ClassItems → List OpenClass → Except Fault (Ast × Cursor)
  | 0, c, _, frames => unclosed frames c
  | n + 1, c, items, frames =>
    let c := c.skipSpace
    match c.rest with
    | [] => unclosed frames c
    | d :: _ =>
      match frames with
      | [] => do
        let ((frame, items), c) ← openClass items c
        readClassFrom n c items [frame]
      | frame :: outer =>
        if d = '[' then
          match namedClass? c with
          | some (item, c) => readClassFrom n c (items.push item) frames
          | none => do
            let ((inner, items), c) ← openClass items c
            readClassFrom n c items (inner :: frames)
        else if d = ']' then
          let inside := frame.complete items.toSet
          let c := c.bump
          let span : Span := ⟨frame.span.start, c.place⟩
          match outer with
          | [] => .ok (.bracketed span frame.negated inside, c)
          | _ :: _ =>
            readClassFrom n c (frame.outer.push (.bracketed span frame.negated inside)) outer
        else
          match setOp? c with
          | some op =>
            -- operators group to the left
            let lhs := frame.complete items.toSet
            let c := c.bumps 2
            readClassFrom n c ⟨.at c.place, []⟩ ({ frame with pending := some (op, lhs) } :: outer)
          | none => do
            let (item, c) ← readClassRange frames c
            readClassFrom n c (items.push item) frames

/-- A class, where its opening bracket comes next. -/
def readClass (c : Cursor) : Except Fault (Ast × Cursor) :=
  readClassFrom (c.rest.length + 1) c ⟨.at c.place, []⟩ []

end SessionArchive.Pattern
