import SessionArchive.Pattern.Expression
import SessionArchive.Unicode.CaseFolding
import SessionArchive.Unicode.Script

/-!
# The meaning of a syntax tree

Turns a syntax tree into an expression, under the flags in force. A change of flags lasts to the end
of the group around it. Where Unicode is off, classes are sets of ASCII characters, and what could
only match a part of a character is refused.
-/

set_option autoImplicit false

namespace SessionArchive.Pattern

open Unicode (CharSet)

/-! ## Flags in force -/

/-- The flags in force. -/
structure Flags where
  caseInsensitive : Bool
  multiLine : Bool
  dotMatchesNewLine : Bool
  swapGreed : Bool
  unicode : Bool
  crlf : Bool

/-- The flags at the beginning of a pattern. -/
def Flags.initial : Flags := ⟨false, false, false, false, true, false⟩

/-- Switches one flag. -/
def Flags.switch (flags : Flags) : Flag × Bool → Flags
  | (.caseInsensitive, on) => { flags with caseInsensitive := on }
  | (.multiLine, on) => { flags with multiLine := on }
  | (.dotMatchesNewLine, on) => { flags with dotMatchesNewLine := on }
  | (.swapGreed, on) => { flags with swapGreed := on }
  | (.unicode, on) => { flags with unicode := on }
  | (.crlf, on) => { flags with crlf := on }
  | (.ignoreWhitespace, _) => flags

/-- Switches flags in order. -/
def Flags.apply (flags : Flags) (changes : FlagChanges) : Flags := changes.foldl Flags.switch flags

/-! ## Sets of characters -/

/-- The characters of ASCII in ranges. -/
def asciiSet (ranges : List (Char × Char)) : CharSet :=
  CharSet.ofRanges (ranges.map fun (low, high) => (low.toNat, high.toNat))

/-- A class by letter among the characters of ASCII. -/
def asciiPerl : PerlKind → CharSet
  | .digit => asciiSet [('0', '9')]
  | .space => asciiSet [('\t', '\r'), (' ', ' ')]
  | .word => asciiSet [('0', '9'), ('A', 'Z'), ('_', '_'), ('a', 'z')]

/-- A class by letter. -/
def unicodePerl : PerlKind → CharSet
  | .digit => Unicode.digit
  | .space => Unicode.space
  | .word => Unicode.word

/-- The classes of ASCII characters by name. -/
def asciiClasses : List (String × CharSet) :=
  [("alnum", asciiSet [('0', '9'), ('A', 'Z'), ('a', 'z')]),
   ("alpha", asciiSet [('A', 'Z'), ('a', 'z')]),
   ("ascii", asciiSet [('\x00', '\x7f')]),
   ("blank", asciiSet [('\t', '\t'), (' ', ' ')]),
   ("cntrl", asciiSet [('\x00', '\x1f'), ('\x7f', '\x7f')]),
   ("digit", asciiSet [('0', '9')]),
   ("graph", asciiSet [('!', '~')]),
   ("lower", asciiSet [('a', 'z')]),
   ("print", asciiSet [(' ', '~')]),
   ("punct", asciiSet [('!', '/'), (':', '@'), ('[', '\x60'), ('\x7b', '~')]),
   ("space", asciiSet [('\t', '\r'), (' ', ' ')]),
   ("upper", asciiSet [('A', 'Z')]),
   ("word", asciiSet [('0', '9'), ('A', 'Z'), ('_', '_'), ('a', 'z')]),
   ("xdigit", asciiSet [('0', '9'), ('A', 'F'), ('a', 'f')])]

/-- A set with the other case of its letters of ASCII. -/
def closeUnderAsciiCase (s : CharSet) : CharSet :=
  let lower := s.inter (CharSet.range 0x61 0x7A)
  let upper := s.inter (CharSet.range 0x41 0x5A)
  CharSet.ofRanges (s.ranges ++ lower.ranges.map (fun r => (r.1 - 0x20, r.2 - 0x20)) ++
    upper.ranges.map fun r => (r.1 + 0x20, r.2 + 0x20))

/-- A set with the case variants of its members. -/
def Flags.close (flags : Flags) (s : CharSet) : CharSet :=
  if flags.unicode then Unicode.closeUnderCase s else closeUnderAsciiCase s

/-- Refuses a set with members beyond ASCII where Unicode is off. -/
def Flags.admit (flags : Flags) (span : Span) (s : CharSet) : Except Fault CharSet :=
  if !flags.unicode && s.exceedsAscii then refuse .brokenText span else .ok s

/-- A set with its case variants where case is ignored, and then negated. -/
def Flags.foldAndNegate (flags : Flags) (span : Span) (negated : Bool) (s : CharSet) :
    Except Fault CharSet :=
  let s := if flags.caseInsensitive then flags.close s else s
  flags.admit span (if negated then s.complement else s)

/-! ## Properties -/

/-- A name of a property or value without what does not count: case, blanks, hyphens, underscores,
characters beyond ASCII, and `is` at its beginning. -/
def plainName (name : String) : String :=
  let cs := name.toList
  let (isForm, body) := match cs with
    | a :: b :: rest =>
      if (a == 'i' || a == 'I') && (b == 's' || b == 'S') then (true, rest) else (false, cs)
    | _ => (false, cs)
  let plain := (body.filter fun c =>
    c != ' ' && c != '_' && c != '-' && c.toNat < 0x80).map Char.toLower
  -- `isc` is a name of its own, not the name `c` with a prefix
  if isForm && plain == ['c'] then "isc" else String.ofList plain

/-- Properties that have names of their own but are no sets of characters. -/
def valuedProperties : List String :=
  ["age", "bidiclass", "bc", "bidimirroringglyph", "bmg", "bidipairedbracket", "bpb",
   "bidipairedbrackettype", "bpt", "block", "blk", "canonicalcombiningclass", "ccc",
   "casefolding", "cf", "decompositionmapping", "dm", "decompositiontype", "dt",
   "eastasianwidth", "ea", "generalcategory", "gc", "graphemeclusterbreak", "gcb",
   "hangulsyllabletype", "hst", "indicpositionalcategory", "inpc", "indicsyllabiccategory",
   "insc", "isc", "isocomment", "joininggroup", "jg", "joiningtype", "jt", "linebreak", "lb",
   "lowercasemapping", "lc", "name", "na", "namealias", "nfcquickcheck", "nfcqc",
   "nfdquickcheck", "nfdqc", "nfkcquickcheck", "nfkcqc", "nfkdquickcheck", "nfkdqc",
   "numerictype", "nt", "numericvalue", "nv", "script", "sc", "scriptextensions", "scx",
   "sentencebreak", "sb", "simplecasefolding", "scf", "simplelowercasemapping", "slc",
   "simpletitlecasemapping", "stc", "simpleuppercasemapping", "suc", "titlecasemapping", "tc",
   "unicode1name", "na1", "uppercasemapping", "uc", "verticalorientation", "vo", "wordbreak",
   "wb"]

/-- Names that stand for a category although a property has them too. -/
def categoryFirst : List String := ["cf", "sc", "lc"]

/-- The set of a name on its own: a property, a category or a script. -/
def namedSet (name : String) : Except Reason CharSet :=
  let found :=
    if categoryFirst.contains name then none
    else match Unicode.propertySet? name with
      | some s => some (.ok s)
      | none => if valuedProperties.contains name then some (.error .unknownProperty) else none
  found.getD (match (Unicode.categorySet? name).or (Unicode.scriptSet? name) with
    | some s => .ok s
    | none => .error .unknownProperty)

/-- The set of a value of a property. There are sets for categories, scripts and the extensions of
scripts; the values of any other property are unknown. -/
def valuedSet (name value : String) : Except Reason CharSet :=
  let found :=
    if ["gc", "generalcategory"].contains name then Unicode.categorySet? value
    else if ["sc", "script"].contains name then Unicode.scriptSet? value
    else if ["scx", "scriptextensions"].contains name then Unicode.scriptExtensionsSet? value
    else none
  match found with
  | some s => .ok s
  | none =>
    .error (if valuedProperties.contains name || (Unicode.propertySet? name).isSome then
      .unknownPropertyValue else .unknownProperty)

/-- The set of a query. -/
def PropertyQuery.set : PropertyQuery → Except Reason CharSet
  | .name label => namedSet (plainName label)
  | .value label content => valuedSet (plainName label) (plainName content)

/-! ## Classes -/

/-- The set of a property. -/
def Flags.property (flags : Flags) (span : Span) (query : PropertyQuery) (negated : Bool) :
    Except Fault CharSet :=
  if flags.unicode then
    match query.set with
    | .ok s => flags.foldAndNegate span negated s
    | .error reason => refuse reason span
  else refuse .unicodeOff span

/-- The set of a class by letter. -/
def Flags.perl (flags : Flags) (span : Span) (kind : PerlKind) (negated : Bool) :
    Except Fault CharSet :=
  let s := if flags.unicode then unicodePerl kind else asciiPerl kind
  flags.admit span (if negated then s.complement else s)

/-- The character of a literal; two hexadecimal digits name a byte where Unicode is off, which has
to be in ASCII. -/
def Flags.character (flags : Flags) (l : Literal) : Except Fault Char :=
  if !flags.unicode && l.asByte && 0x7F < l.char.toNat then refuse .brokenText l.span
  else .ok l.char

/-- The character of a literal in a class, which has to be in ASCII where Unicode is off. -/
def Flags.member (flags : Flags) (l : Literal) : Except Fault Char := do
  let c ← flags.character l
  if !flags.unicode && 0x7F < c.toNat then refuse .unicodeOff l.span else .ok c

/-- The set of an operator. -/
def SetOp.apply (op : SetOp) (s t : CharSet) : CharSet :=
  match op with
  | .intersection => s.inter t
  | .difference => s.diff t
  | .symmetricDifference => s.symmDiff t

mutual

/-- The set of a part of a class. -/
def ClassSet.meaning (flags : Flags) : ClassSet → Except Fault CharSet
  | .empty _ => .ok CharSet.empty
  | .literal l => (flags.member l).map fun c => CharSet.range c.toNat c.toNat
  | .range _ low high => do
    let low ← flags.member low
    let high ← flags.member high
    .ok (CharSet.range low.toNat high.toNat)
  | .named span name negated =>
    flags.foldAndNegate span negated ((asciiClasses.lookup name).getD CharSet.empty)
  | .property span query negated => flags.property span query negated
  | .perl span kind negated => flags.perl span kind negated
  | .bracketed span negated inside => do
    let s ← inside.meaning flags
    flags.foldAndNegate span negated s
  | .union _ items => (ClassSet.meanings flags items).map CharSet.unions
  | .binary _ op lhs rhs => do
    let s ← lhs.meaning flags
    let t ← rhs.meaning flags
    -- both sides take in the other case before they are combined
    if flags.caseInsensitive then .ok (op.apply (flags.close s) (flags.close t))
    else .ok (op.apply s t)

/-- The sets of the parts of a class. -/
def ClassSet.meanings (flags : Flags) : List ClassSet → Except Fault (List CharSet)
  | [] => .ok []
  | item :: rest => do
    let s ← item.meaning flags
    let sets ← ClassSet.meanings flags rest
    .ok (s :: sets)

end

/-! ## Trees -/

/-- The expression of one character. -/
def Flags.literal (flags : Flags) (l : Literal) : Except Fault Expression := do
  let c ← flags.character l
  let s := CharSet.range c.toNat c.toNat
  .ok (.set (if flags.caseInsensitive then flags.close s else s))

/-- The expression of the dot. -/
def Flags.dot (flags : Flags) (span : Span) : Except Fault Expression :=
  if !flags.unicode then refuse .brokenText span
  else if flags.dotMatchesNewLine then .ok (.set CharSet.all)
  else if flags.crlf then
    .ok (.set (CharSet.ofRanges [(0x0A, 0x0A), (0x0D, 0x0D)]).complement)
  else .ok (.set (CharSet.range 0x0A 0x0A).complement)

/-- The condition of an assertion. -/
def Flags.look (flags : Flags) : Assertion → Look
  | .lineStart =>
    if flags.multiLine then (if flags.crlf then .lineStartCrlf else .lineStart) else .textStart
  | .lineEnd =>
    if flags.multiLine then (if flags.crlf then .lineEndCrlf else .lineEnd) else .textEnd
  | .textStart => .textStart
  | .textEnd => .textEnd
  | .wordBoundary => .wordBoundary word
  | .notWordBoundary => .notWordBoundary word
  | .wordStart => .wordStart word
  | .wordEnd => .wordEnd word
  | .wordStartHalf => .wordStartHalf word
  | .wordEndHalf => .wordEndHalf word
where
  /-- The characters of words. -/
  word : CharSet := if flags.unicode then unicodePerl .word else asciiPerl .word

mutual

/-- The expression of a tree, and the flags in force after it. -/
def Ast.meaning (flags : Flags) : Ast → Except Fault (Expression × Flags)
  | .empty _ => .ok (.empty, flags)
  | .flags _ changes => .ok (.empty, flags.apply changes)
  | .literal l => (flags.literal l).map fun e => (e, flags)
  | .dot span => (flags.dot span).map fun e => (e, flags)
  | .assertion _ kind => .ok (.look (flags.look kind), flags)
  | .property span query negated =>
    (flags.property span query negated).map fun s => (.set s, flags)
  | .perl span kind negated => (flags.perl span kind negated).map fun s => (.set s, flags)
  | .bracketed span negated inside => do
    let s ← inside.meaning flags
    let s ← flags.foldAndNegate span negated s
    .ok (.set s, flags)
  | .repetition _ least most greedy body => do
    -- greed is decided by the flags in force behind the body
    let (e, after) ← body.meaning flags
    .ok (.repetition least most (greedy != after.swapGreed) e, after)
  | .group _ changes body => do
    -- what changes inside the group is undone behind it
    let (e, _) ← body.meaning (flags.apply changes)
    .ok (e, flags)
  | .alternation _ branches => Ast.choice flags branches
  | .concat _ parts => Ast.sequence flags parts

/-- The choice between branches. -/
def Ast.choice (flags : Flags) : List Ast → Except Fault (Expression × Flags)
  | [] => .ok (.empty, flags)
  | [branch] => branch.meaning flags
  | branch :: rest => do
    let (e, flags) ← branch.meaning flags
    let (others, flags) ← Ast.choice flags rest
    .ok (.choice e others, flags)

/-- Parts one after another. -/
def Ast.sequence (flags : Flags) : List Ast → Except Fault (Expression × Flags)
  | [] => .ok (.empty, flags)
  | part :: rest => do
    let (e, flags) ← part.meaning flags
    let (others, flags) ← Ast.sequence flags rest
    .ok (.sequence e others, flags)

end

end SessionArchive.Pattern
