import SessionArchive.Number.Binary64
import SessionArchive.Text.Digits

/-!
# Shortest decimals

The shortest decimal that reads back as a given double-precision number, and of those the nearest.
`shortest` tries one digit, then two, and so on: if any decimal with `n` digits lies in the interval
of reals that round to the number, so does one of the number's two neighbours on that grid.
How the digits are laid out is one record of choices, `jsonStyle`.
-/

set_option autoImplicit false

namespace SessionArchive.Number

/-- The reals that round to a number: the least and the greatest as fractions, and whether these
two belong to them. -/
structure Interval where
  low : Nat × Nat
  high : Nat × Nat
  closed : Bool

/-- The interval of reals that round to a positive number. Below a power of two the gap to the next
smaller number is half as wide. -/
def Binary64.interval (x : Binary64) : Interval :=
  let m := x.significand
  let low :=
    if m = 0x10000000000000 ∧ x.exponent > Binary64.leastExponent then
      scale 2 (4 * m - 1) 1 (x.exponent - 2)
    else scale 2 (2 * m - 1) 1 (x.exponent - 1)
  ⟨low, scale 2 (2 * m + 1) 1 (x.exponent - 1), m % 2 == 0⟩

/-- Whether a fraction lies in an interval. -/
def Interval.contains (i : Interval) (q : Nat × Nat) : Bool :=
  -- each end is compared crosswise with the fraction
  let above := i.low.1 * q.2
  let value := q.1 * i.low.2
  let below := i.high.1 * q.2
  let upper := q.1 * i.high.2
  if i.closed then above ≤ value && upper ≤ below else above < value && upper < below

/-- The decimal exponent of the leading digit of a positive fraction. -/
def leadingDigit (num den : Nat) : Int :=
  -- the quotient can fall short of the power that the two lengths suggest
  let guess := ((Text.decimal num).length : Int) - (Text.decimal den).length
  let (n, d) := scale 10 num den (-guess)
  if n < d then guess - 1 else guess

/-- A decimal: its digits as a number, and the power of ten that they count. -/
structure Decimal where
  digits : Nat
  exponent : Int
deriving Repr, DecidableEq

/-- The decimal on the grid of `10 ^ k` that lies in the interval and is nearest to `num / den`,
if one of the two neighbours on that grid does; of two equally near ones the even one. -/
def onGrid (i : Interval) (num den : Nat) (k : Int) : Option Decimal :=
  let (n, d) := scale 10 num den (-k)
  let a := n / d
  let r := n % d
  -- the neighbours of the fraction are `a` and `a + 1` units
  let lowerIn := i.contains (scale 10 a 1 k)
  let upperIn := i.contains (scale 10 (a + 1) 1 k)
  if lowerIn && upperIn then
    some ⟨if d < 2 * r ∨ (d = 2 * r ∧ a % 2 = 1) then a + 1 else a, k⟩
  else if lowerIn then some ⟨a, k⟩
  else if upperIn then some ⟨a + 1, k⟩
  else none

/-- The first grid with a hit, of those with `count` digits and more. -/
def shortestFrom (i : Interval) (num den : Nat) (lead : Int) (count : Nat) : Nat → Decimal
  | 0 => ⟨(scale 10 num den (-(lead - 16))).1 / (scale 10 num den (-(lead - 16))).2, lead - 16⟩
  | more + 1 =>
    match onGrid i num den (lead - count + 1) with
    | some d => d
    | none => shortestFrom i num den lead (count + 1) more

/-- Moves the trailing zeros of the digits into the exponent. -/
def Decimal.strip (d : Decimal) : Nat → Decimal
  | 0 => d
  | fuel + 1 =>
    if d.digits ≠ 0 ∧ d.digits % 10 = 0 then
      Decimal.strip ⟨d.digits / 10, d.exponent + 1⟩ fuel
    else d

/-- The shortest decimal of a positive number; seventeen digits always suffice. -/
def shortest (x : Binary64) : Decimal :=
  let (num, den) := x.magnitude
  (shortestFrom x.interval num den (leadingDigit num den) 1 17).strip 20

/-- How a decimal is laid out: the positions of the point within which it is written in full, and
the sign of a positive exponent. -/
structure DecimalStyle where
  leastPoint : Int
  greatestPoint : Int
  positiveExponentSign : List Char

/-- Numbers from `0.00001` up to sixteen digits before the point are written in full, with at least
one digit after the point; the others with an exponent, which always has a sign. -/
def jsonStyle : DecimalStyle := ⟨-4, 16, ['+']⟩

/-- The text of a decimal. -/
def DecimalStyle.write (style : DecimalStyle) (d : Decimal) : List Char :=
  let digits := Text.decimal d.digits
  -- the number of digits before the point, which may be none or fewer
  let point : Int := digits.length + d.exponent
  if point < style.leastPoint ∨ style.greatestPoint < point then
    let exponent := point - 1
    let mantissa := match digits with
      | [] => []
      | [c] => [c]
      | c :: rest => c :: '.' :: rest
    let sign := if exponent < 0 then ['-'] else style.positiveExponentSign
    mantissa ++ 'e' :: sign ++ Text.decimal exponent.natAbs
  else if point ≤ 0 then
    '0' :: '.' :: List.replicate point.natAbs '0' ++ digits
  else if d.exponent < 0 then
    digits.take point.toNat ++ '.' :: digits.drop point.toNat
  else digits ++ List.replicate d.exponent.toNat '0' ++ ['.', '0']

/-- The text of a number in a style. -/
def Binary64.write (style : DecimalStyle) (x : Binary64) : List Char :=
  (if x.negative then ['-'] else []) ++
    if x.isZero then ['0', '.', '0'] else style.write (shortest x)

end SessionArchive.Number
