import SessionArchive.Pattern.Fault

/-!
# Syntax trees of patterns

What a pattern says, before the flags in force and the tables of characters are applied. Every node
carries the span that a fault about it names. `Ast.checkNesting` refuses trees that nest too deeply.
-/

set_option autoImplicit false

namespace SessionArchive.Pattern

/-- A literal character; `asByte` for the form with exactly two hexadecimal digits, which names a
byte where Unicode is off. -/
structure Literal where
  span : Span
  char : Char
  asByte : Bool
deriving Repr

/-- The classes with a letter of their own. -/
inductive PerlKind where
  | digit
  | space
  | word
deriving Repr, DecidableEq

/-- How a property is named: by one name, or by a name and a value. -/
inductive PropertyQuery where
  | name (name : String)
  | value (name value : String)
deriving Repr, DecidableEq

/-- The operators between the parts of a class. -/
inductive SetOp where
  | intersection
  | difference
  | symmetricDifference
deriving Repr, DecidableEq

/-- What stands in a class. -/
inductive ClassSet where
  | empty (span : Span)
  | literal (literal : Literal)
  | range (span : Span) (low high : Literal)
  | named (span : Span) (name : String) (negated : Bool)
  | property (span : Span) (query : PropertyQuery) (negated : Bool)
  | perl (span : Span) (kind : PerlKind) (negated : Bool)
  | bracketed (span : Span) (negated : Bool) (inside : ClassSet)
  | union (span : Span) (items : List ClassSet)
  | binary (span : Span) (op : SetOp) (lhs rhs : ClassSet)
deriving Repr

/-- The span of a part of a class. -/
def ClassSet.span : ClassSet → Span
  | .empty span => span
  | .literal l => l.span
  | .range span _ _ => span
  | .named span _ _ => span
  | .property span _ _ => span
  | .perl span _ _ => span
  | .bracketed span _ _ => span
  | .union span _ => span
  | .binary span _ _ _ => span

/-- Conditions on a place in the text. -/
inductive Assertion where
  | lineStart
  | lineEnd
  | textStart
  | textEnd
  | wordBoundary
  | notWordBoundary
  | wordStart
  | wordEnd
  | wordStartHalf
  | wordEndHalf
deriving Repr, DecidableEq

/-- The flags of a pattern. -/
inductive Flag where
  | caseInsensitive
  | multiLine
  | dotMatchesNewLine
  | swapGreed
  | unicode
  | crlf
  | ignoreWhitespace
deriving Repr, DecidableEq

/-- Flags that are switched on or off, in order. -/
abbrev FlagChanges := List (Flag × Bool)

/-- What a pattern says. -/
inductive Ast where
  | empty (span : Span)
  | flags (span : Span) (changes : FlagChanges)
  | literal (literal : Literal)
  | dot (span : Span)
  | assertion (span : Span) (kind : Assertion)
  | property (span : Span) (query : PropertyQuery) (negated : Bool)
  | perl (span : Span) (kind : PerlKind) (negated : Bool)
  | bracketed (span : Span) (negated : Bool) (inside : ClassSet)
  | repetition (span : Span) (least : Nat) (most : Option Nat) (greedy : Bool) (body : Ast)
  | group (span : Span) (changes : FlagChanges) (body : Ast)
  | alternation (span : Span) (branches : List Ast)
  | concat (span : Span) (parts : List Ast)
deriving Repr

/-- The span of a node. -/
def Ast.span : Ast → Span
  | .empty span => span
  | .flags span _ => span
  | .literal l => l.span
  | .dot span => span
  | .assertion span _ => span
  | .property span _ _ => span
  | .perl span _ _ => span
  | .bracketed span _ _ => span
  | .repetition span _ _ _ _ => span
  | .group span _ _ => span
  | .alternation span _ => span
  | .concat span _ => span

/-- Refuses to go deeper than the greatest nesting. -/
def deeper (depth : Nat) (span : Span) : Except Fault Unit :=
  if depth < greatestNesting then .ok ()
  else refuse .nestedTooDeeply span

mutual

/-- Refuses a part of a class that nests too deeply below `depth` levels. -/
def ClassSet.checkNesting (depth : Nat) : ClassSet → Except Fault Unit
  | .bracketed span _ inside => do
    deeper depth span
    inside.checkNesting (depth + 1)
  | .union span items => do
    deeper depth span
    ClassSet.checkAllNesting (depth + 1) items
  | .binary span _ lhs rhs => do
    deeper depth span
    lhs.checkNesting (depth + 1)
    rhs.checkNesting (depth + 1)
  | .empty _ => .ok ()
  | .literal _ => .ok ()
  | .range _ _ _ => .ok ()
  | .named _ _ _ => .ok ()
  | .property _ _ _ => .ok ()
  | .perl _ _ _ => .ok ()

/-- `ClassSet.checkNesting` for each part of a list. -/
def ClassSet.checkAllNesting (depth : Nat) : List ClassSet → Except Fault Unit
  | [] => .ok ()
  | item :: rest => do
    item.checkNesting depth
    ClassSet.checkAllNesting depth rest

end

mutual

/-- Refuses a tree that nests too deeply below `depth` levels. -/
def Ast.checkNesting (depth : Nat) : Ast → Except Fault Unit
  | .bracketed span _ inside => do
    deeper depth span
    inside.checkNesting (depth + 1)
  | .repetition span _ _ _ body => do
    deeper depth span
    body.checkNesting (depth + 1)
  | .group span _ body => do
    deeper depth span
    body.checkNesting (depth + 1)
  | .alternation span branches => do
    deeper depth span
    Ast.checkAllNesting (depth + 1) branches
  | .concat span parts => do
    deeper depth span
    Ast.checkAllNesting (depth + 1) parts
  | .empty _ => .ok ()
  | .flags _ _ => .ok ()
  | .literal _ => .ok ()
  | .dot _ => .ok ()
  | .assertion _ _ => .ok ()
  | .property _ _ _ => .ok ()
  | .perl _ _ _ => .ok ()

/-- `Ast.checkNesting` for each node of a list. -/
def Ast.checkAllNesting (depth : Nat) : List Ast → Except Fault Unit
  | [] => .ok ()
  | node :: rest => do
    node.checkNesting depth
    Ast.checkAllNesting depth rest

end

end SessionArchive.Pattern
