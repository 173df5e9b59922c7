import SessionArchive.Text.Digits
import SessionArchive.Text.Split

/-!
# Sets of code points

A `CharSet` is a list of closed ranges that ascend and do not touch. `ofRanges` brings any list of
ranges into that form; the Boolean operations are defined from joining two lists and from the gaps
of one. `ofText` reads the notation in which the tables of the Unicode modules are written.
-/

set_option autoImplicit false

namespace SessionArchive.Unicode

/-- The words of a table, which blanks and line feeds separate. -/
def words (table : String) : List (List Char) :=
  (Text.splitOn ' ' (table.toList.map fun c => if c = '\n' then ' ' else c)).filter (!·.isEmpty)

/-- A set of code points, given by closed ranges that ascend and do not touch. -/
structure CharSet where
  ranges : List (Nat × Nat)
deriving Repr, DecidableEq

namespace CharSet

/-- The greatest code point. -/
def maxCode : Nat := 0x10FFFF

/-- Joins ranges that overlap or touch, where the first range and the list ascend by lower end. -/
def joinFrom (r : Nat × Nat) : List (Nat × Nat) → List (Nat × Nat)
  | [] => [r]
  | s :: rest =>
    -- ranges that touch become one
    if s.1 ≤ r.2 + 1 then joinFrom (r.1, max r.2 s.2) rest else r :: joinFrom s rest

/-- The set of the code points in some range of a list. -/
def ofRanges (ranges : List (Nat × Nat)) : CharSet :=
  match (ranges.filter fun r => r.1 ≤ r.2).mergeSort (fun r s => r.1 ≤ s.1) with
  | [] => ⟨[]⟩
  | r :: rest => ⟨joinFrom r rest⟩

/-- The empty set. -/
def empty : CharSet := ⟨[]⟩

/-- Every code point. -/
def all : CharSet := ⟨[(0, maxCode)]⟩

/-- The code points from `low` to `high`. -/
def range (low high : Nat) : CharSet := if low ≤ high then ⟨[(low, high)]⟩ else ⟨[]⟩

/-- Whether a list of ascending ranges holds a number. -/
def holds (n : Nat) : List (Nat × Nat) → Bool
  | [] => false
  | r :: rest => if n < r.1 then false else if n ≤ r.2 then true else holds n rest

/-- Whether a character belongs to a set. -/
def contains (s : CharSet) (c : Char) : Bool := holds c.toNat s.ranges

/-- The ranges between the given ones, from `next` on. -/
def gaps (next : Nat) : List (Nat × Nat) → List (Nat × Nat)
  | [] => if next ≤ maxCode then [(next, maxCode)] else []
  | r :: rest =>
    if next < r.1 then (next, r.1 - 1) :: gaps (r.2 + 1) rest else gaps (r.2 + 1) rest

/-- The code points outside a set. -/
def complement (s : CharSet) : CharSet := ⟨gaps 0 s.ranges⟩

/-- The code points of either set. -/
def union (s t : CharSet) : CharSet := ofRanges (s.ranges ++ t.ranges)

/-- The code points of both sets. -/
def inter (s t : CharSet) : CharSet := (s.complement.union t.complement).complement

/-- The code points of the first set outside the second. -/
def diff (s t : CharSet) : CharSet := s.inter t.complement

/-- The code points of exactly one of two sets. -/
def symmDiff (s t : CharSet) : CharSet := (s.diff t).union (t.diff s)

/-- The union of a list of sets. -/
def unions (sets : List CharSet) : CharSet := ofRanges (sets.flatMap CharSet.ranges)

/-- Whether some code point above ASCII belongs to a set. -/
def exceedsAscii (s : CharSet) : Bool := s.ranges.any fun r => 0x7F < r.2

/-- Reads one range: a hexadecimal number, or two with a hyphen between them. -/
def rangeOfText (cs : List Char) : Nat × Nat :=
  match Text.cutAt? '-' cs with
  | some (low, high) => ((Text.ofHex? low).getD 1, (Text.ofHex? high).getD 0)
  | none => ((Text.ofHex? cs).getD 1, (Text.ofHex? cs).getD 0)

/-- Reads a list of ranges separated by blanks, such as `41-5a 61-7a aa`. -/
def ofText (s : String) : CharSet :=
  ofRanges ((words s).map rangeOfText)

end CharSet

/-- Consecutive runs of code points from zero on, each written as a label of letters and a decimal
length, such as `Cc32 Zs1 Po3`. -/
def runsOfText (s : String) : List (String × Nat × Nat) :=
  let tokens := (words s).map fun token =>
    (String.ofList (token.takeWhile Char.isAlpha),
      (Text.ofDecimal? (token.dropWhile Char.isAlpha)).getD 0)
  (tokens.foldl (fun (start, runs) (label, length) =>
    (start + length, (label, start, start + length - 1) :: runs)) (0, [])).2.reverse

end SessionArchive.Unicode
