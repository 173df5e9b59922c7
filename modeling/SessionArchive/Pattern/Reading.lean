import SessionArchive.Pattern.Reading.Bracket
import SessionArchive.Pattern.Reading.Group

/-!
# Reading patterns

A pattern is read from left to right. A `Level` is what was read of the group that is being read:
the parts of the current branch and the branches before it. The groups that are still open are kept
in a list, innermost first, each with the level around it.
-/

set_option autoImplicit false

namespace SessionArchive.Pattern

/-- What was read of a group: where the current branch starts, its parts, latest first, and the
branches before it with where the first starts, latest first. -/
structure Level where
  start : Place
  parts : List Ast
  branches : Option (Place × List Ast)

namespace Level

/-- A level of which nothing was read. -/
def empty (start : Place) : Level := ⟨start, [], none⟩

/-- Adds a part to the current branch. -/
def push (level : Level) (part : Ast) : Level := { level with parts := part :: level.parts }

/-- The current branch as one node. -/
def branch (level : Level) (stop : Place) : Ast :=
  match level.parts with
  | [] => .empty ⟨level.start, stop⟩
  -- a single part stands for itself
  | [part] => part
  | parts => .concat ⟨level.start, stop⟩ parts.reverse

/-- Ends the current branch and begins another. -/
def nextBranch (level : Level) (stop start : Place) : Level :=
  let (first, earlier) := level.branches.getD (level.start, [])
  ⟨start, [], some (first, level.branch stop :: earlier)⟩

/-- The whole level as one node. -/
def finish (level : Level) (stop : Place) : Ast :=
  match level.branches with
  | none => level.branch stop
  | some (first, earlier) => .alternation ⟨first, stop⟩ (level.branch stop :: earlier).reverse

end Level

/-- A group that is still open: the level around it, the span of its parenthesis, its changes of
flags, and whether white space was ignored around it. -/
structure OpenGroup where
  outer : Level
  span : Span
  changes : FlagChanges
  spaced : Bool

/-- The state of reading a pattern. -/
structure Progress where
  level : Level
  groups : List OpenGroup
  names : GroupNames

/-- Whether a node can be repeated. -/
def isRepeatable : Ast → Bool
  | .empty _ => false
  | .flags _ _ => false
  | _ => true

/-- Takes the node that a repetition applies to. -/
def takeOperand (level : Level) (c : Cursor) : Except Fault (Ast × Level) :=
  match level.parts with
  | [] => refuse .nothingToRepeat (.at c.place)
  | part :: parts =>
    if isRepeatable part then .ok (part, { level with parts })
    else refuse .nothingToRepeat (.at c.place)

/-- A repetition of the last node of a level. -/
def repeated (operand : Ast) (level : Level) (count : Count) (greedy : Bool) (stop : Place) :
    Level :=
  level.push (.repetition ⟨operand.span.start, stop⟩ count.least count.most greedy operand)

/-- A repetition by one of the signs `?`, `*` and `+`. -/
def readSign (count : Count) (level : Level) (c : Cursor) : Except Fault (Level × Cursor) := do
  let (operand, level) ← takeOperand level c
  let c := c.bump
  let lazy := c.head? == some '?'
  let c := if lazy then c.bump else c
  .ok (repeated operand level count (!lazy) c.place, c)

/-- A repetition by a count in braces. -/
def readBraces (level : Level) (c : Cursor) : Except Fault (Level × Cursor) := do
  let start := c.place
  let (operand, level) ← takeOperand level c
  let c := c.step
  if c.atEnd then refuse .unclosedCount ⟨start, c.place⟩
  else
    let (count, c) ← readCount start c
    if c.head? = some '}' then
      let c := c.step
      let lazy := c.head? == some '?'
      let c := if lazy then c.bump else c
      -- a question mark behind the count prefers fewer
      if count.isOrdered then .ok (repeated operand level count (!lazy) c.place, c)
      else refuse .reversedCount ⟨start, c.place⟩
    else refuse .unclosedCount ⟨start, c.place⟩

/-- A node that is a single character, an escape, a dot or an anchor. -/
def readPrimitive (d : Char) (c : Cursor) : Except Fault (Ast × Cursor) :=
  if d = '\\' then readEscape c
  else if d = '.' then .ok (.dot c.charSpan, c.bump)
  else if d = '^' then .ok (.assertion c.charSpan .lineStart, c.bump)
  else if d = '$' then .ok (.assertion c.charSpan .lineEnd, c.bump)
  else .ok (.literal ⟨c.charSpan, d, false⟩, c.bump)

/-- Opens a group, or changes flags. -/
def openGroup (progress : Progress) (c : Cursor) : Except Fault (Progress × Cursor) := do
  let span := c.charSpan
  let (opening, next) ← readOpening progress.names c
  match opening with
  | .flags changes =>
    let spaced := (changes.lookup .ignoreWhitespace).getD c.spaced
    .ok ({ progress with level := progress.level.push (.flags ⟨span.start, next.place⟩ changes) },
      { next with spaced })
  | .group changes names =>
    let spaced := (changes.lookup .ignoreWhitespace).getD c.spaced
    .ok (⟨.empty next.place, ⟨progress.level, span, changes, c.spaced⟩ :: progress.groups, names⟩,
      { next with spaced })

/-- Closes the innermost group. -/
def closeGroup (progress : Progress) (c : Cursor) : Except Fault (Progress × Cursor) :=
  match progress.groups with
  | [] => refuse .unopenedGroup c.charSpan
  | frame :: groups =>
    let body := progress.level.finish c.place
    -- a change to how white space is read ends with the group
    let c := { c with spaced := frame.spaced }.bump
    .ok ({ progress with
      level := frame.outer.push (.group ⟨frame.span.start, c.place⟩ frame.changes body),
      groups }, c)

/-- Reads what comes next. -/
def readNext (progress : Progress) (d : Char) (c : Cursor) : Except Fault (Progress × Cursor) := do
  let level := progress.level
  if d = '(' then openGroup progress c
  else if d = ')' then closeGroup progress c
  else if d = '|' then
    .ok ({ progress with level := level.nextBranch c.place c.bump.place }, c.bump)
  else if d = '[' then
    let (node, c) ← readClass c
    .ok ({ progress with level := level.push node }, c)
  else if d = '?' then
    let (level, c) ← readSign ⟨0, some 1⟩ level c
    .ok ({ progress with level }, c)
  else if d = '*' then
    let (level, c) ← readSign ⟨0, none⟩ level c
    .ok ({ progress with level }, c)
  else if d = '+' then
    let (level, c) ← readSign ⟨1, none⟩ level c
    .ok ({ progress with level }, c)
  else if d = '{' then
    let (level, c) ← readBraces level c
    .ok ({ progress with level }, c)
  else
    let (node, c) ← readPrimitive d c
    .ok ({ progress with level := level.push node }, c)

/-- Reads to the end of a pattern. The first argument bounds the number of steps. -/
def readFrom : Nat → Progress → Cursor → Except Fault Ast
  | 0, progress, c => .ok (progress.level.finish c.place)
  | n + 1, progress, c =>
    let c := c.skipSpace
    match c.rest with
    | [] =>
      match progress.groups with
      | [] => .ok (progress.level.finish c.place)
      | frame :: _ => refuse .unclosedGroup frame.span
    | d :: _ => do
      let (progress, c) ← readNext progress d c
      readFrom n progress c

/-- The syntax tree of a pattern. -/
def read (pattern : String) : Except Fault Ast := do
  let text := pattern.toList
  let tree ← readFrom (text.length + 1) ⟨.empty .start, [], []⟩ (.ofText text)
  tree.checkNesting 0
  .ok tree

end SessionArchive.Pattern
