/-!
# Double-precision numbers

Finite binary numbers of 53 bits as exact data. `round` takes a fraction to the nearest of them, a
tie to the even significand; products and quotients are rounded from their exact values, so no
machine arithmetic is involved. `ofScientific?` reads a decimal with at most one rounding of the
digits and one of the power of ten.
-/

set_option autoImplicit false

namespace SessionArchive.Number

/-- A finite double-precision number: its absolute value is `significand · 2 ^ exponent`. The
significand has 53 bits, or fewer at the least exponent. -/
structure Binary64 where
  negative : Bool
  significand : Nat
  exponent : Int
deriving Repr, DecidableEq

/-- The fraction `num / den · base ^ e` as a fraction of natural numbers. -/
def scale (base num den : Nat) (e : Int) : Nat × Nat :=
  match e with
  | .ofNat k => (num * Nat.pow base k, den)
  | .negSucc k => (num, den * Nat.pow base (k + 1))

namespace Binary64

/-- The least exponent. -/
def leastExponent : Int := -1074

/-- The greatest exponent. -/
def greatestExponent : Int := 971

/-- Whether the parts are those of a double-precision number. -/
def isRepresentable (x : Binary64) : Bool :=
  x.significand < 0x20000000000000 && leastExponent ≤ x.exponent && x.exponent ≤ greatestExponent &&
    (0x10000000000000 ≤ x.significand || x.exponent == leastExponent)

/-- The number zero, with a sign. -/
def zero (negative : Bool) : Binary64 := ⟨negative, 0, leastExponent⟩

/-- The quotient rounded to the nearest number, a tie to the even one. -/
def roundDiv (num den : Nat) : Nat :=
  let q := num / den
  let r := num % den
  if den < 2 * r ∨ (den = 2 * r ∧ q % 2 = 1) then q + 1 else q

/-- The binary exponent of the leading bit of a positive fraction. -/
def leadingBit (num den : Nat) : Int :=
  -- the quotient can fall short of the power that the two lengths suggest
  let guess := (Nat.log2 num : Int) - Nat.log2 den
  let (n, d) := scale 2 num den (-guess)
  if n < d then guess - 1 else guess

/-- The number nearest to `num / den`, with the given sign; `none` beyond the finite numbers. -/
def round (negative : Bool) (num den : Nat) : Option Binary64 :=
  if num = 0 then some (zero negative)
  else
    -- the last of 53 bits, or of as many as there are at the least exponent
    let e := max (leadingBit num den - 52) leastExponent
    let (n, d) := scale 2 num den (-e)
    let m := roundDiv n d
    -- rounding up may carry into a bit more
    let (m, e) := if m = 0x20000000000000 then (0x10000000000000, e + 1) else (m, e)
    if e > greatestExponent then none else some ⟨negative, m, e⟩

/-- The absolute value as a fraction. -/
def magnitude (x : Binary64) : Nat × Nat := scale 2 x.significand 1 x.exponent

/-- The power of ten, rounded. -/
def powerOfTen (k : Nat) : Option Binary64 := round false (Nat.pow 10 k) 1

/-- The product of two numbers, rounded, with the sign of the first. -/
def mul (x y : Binary64) : Option Binary64 :=
  let (a, b) := x.magnitude
  let (c, d) := y.magnitude
  round x.negative (a * c) (b * d)

/-- The quotient of two numbers, rounded, with the sign of the first. -/
def div (x y : Binary64) : Option Binary64 :=
  let (a, b) := x.magnitude
  let (c, d) := y.magnitude
  round x.negative (a * d) (b * c)

/-- Whether a number is zero, of either sign. -/
def isZero (x : Binary64) : Bool := x.significand == 0

/-- The greatest power of ten among the numbers. -/
def greatestPower : Nat := 308

/-- A number divided by the greatest power of ten a number of times, until it is zero. -/
def shrink (x : Binary64) : Nat → Option Binary64
  | 0 => some x
  | steps + 1 =>
    if x.isZero then some x
    else ((powerOfTen greatestPower).bind x.div).bind fun y => shrink y steps

/-- The number that a significand below `2 ^ 64` and a power of ten denote: the significand is
rounded first, then its product or quotient with the power. `none` beyond the finite numbers. -/
def ofScientific? (negative : Bool) (significand : Nat) (exponent : Int) : Option Binary64 :=
  (round negative significand 1).bind fun x =>
    match exponent with
    | .ofNat k =>
      if k ≤ greatestPower then (powerOfTen k).bind x.mul
      else if x.isZero then some x else none
    | .negSucc k =>
      -- the power may be greater than any number, so it is divided off in steps
      (shrink x (k / greatestPower)).bind fun y =>
        (powerOfTen (k % greatestPower + 1)).bind y.div

end Binary64

end SessionArchive.Number
