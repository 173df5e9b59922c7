import SessionArchive.Proofs.Json.Compact
import SessionArchive.Proofs.Number.Shortest

/-!
# Reading a printed double

The text of a double is the layout of its shortest decimal, and the scanner of numbers takes the
digits and the power of ten back out of each layout (`denotes_write`). As the decimal reads
back as a double, every number that fits is legible (`Numeral.legible_of_fits`), and so is every
value that fits (`legible_of_fits`).
-/

set_option autoImplicit false

namespace SessionArchive.Json

open Number (Binary64 Decimal DecimalStyle jsonStyle shortest IsNear)

/-! ## Fractions and exponents -/

/-- Digits after a point go on with the significand and move the point. -/
theorem fractionPart_digits (negative : Bool) (n : Nat) (point : Int) {ds rest : List Char}
    (hdigit : ∀ c ∈ ds, Text.isDigit c = true) (hempty : ds ≠ [])
    (hle : Text.decimalValue n ds ≤ greatestSignificand)
    (hrest : ∀ c ∈ rest.head?, Text.isDigit c = false) :
    fractionPart negative n point (ds ++ rest) =
      afterDigits negative (Text.decimalValue n ds) (point - ds.length) rest := by
  have hgather := gatherDigits_append n ds rest hdigit hle
  rw [gatherDigits_of_not_digit _ hrest] at hgather
  cases ds with
  | nil => exact absurd rfl hempty
  | cons c ds =>
    have hmoved : (c :: ds ++ rest).length - rest.length = (c :: ds).length := by
      rw [List.length_append]
      omega
    rw [List.cons_append] at hgather hmoved ⊢
    rw [fractionPart.eq_def]
    simp only [if_pos (hdigit c List.mem_cons_self), hgather, (takeWhile_of_not_digit hrest).2,
      hmoved]

theorem afterDigits_of_stops (negative : Bool) (n : Nat) (point : Int) {rest : List Char}
    (h : Stops rest) : afterDigits negative n point rest = floatOf negative n point rest := by
  cases rest with
  | nil => rfl
  | cons c rest =>
    rcases h with ⟨-, -, he, hE⟩
    rw [afterDigits, if_neg]
    rintro (rfl | rfl)
    · exact he rfl
    · exact hE rfl

theorem gatherExponent_append (n : Nat) (ds rest : List Char)
    (hdigit : ∀ c ∈ ds, Text.isDigit c = true) (hle : Text.decimalValue n ds ≤ greatestExponent)
    (hrest : ∀ c ∈ rest.head?, Text.isDigit c = false) :
    gatherExponent n (ds ++ rest) = (Text.decimalValue n ds, rest) := by
  induction ds generalizing n with
  | nil =>
    cases rest with
    | nil => rfl
    | cons c rest =>
      rw [List.nil_append, gatherExponent, Text.decimalDigit?_eq_none (hrest c rfl)]
      rfl
  | cons c ds ih =>
    rw [Text.decimalValue_cons] at hle ⊢
    have hc := Text.decimalDigit?_of_isDigit (hdigit c List.mem_cons_self)
    have hfits := Nat.le_trans (Text.le_decimalValue _ ds) hle
    rw [List.cons_append, gatherExponent, hc]
    simp only [if_pos hfits]
    exact ih _ (fun d hd => hdigit d (List.mem_cons_of_mem c hd)) hle

/-- A printed exponent counts on from where the point is. -/
theorem exponentPart_printed (negative : Bool) (n : Nat) (point exponent : Int)
    {rest : List Char} (hle : exponent.natAbs ≤ greatestExponent)
    (hrest : ∀ c ∈ rest.head?, Text.isDigit c = false) :
    exponentPart negative n point
        ((if exponent < 0 then ['-'] else ['+']) ++ Text.decimal exponent.natAbs ++ rest) =
      floatOf negative n (point + exponent) rest := by
  have hdigit := Text.isDigit_of_mem_decimal exponent.natAbs
  have hgather := gatherExponent_append 0 (Text.decimal exponent.natAbs) rest hdigit
    (by rwa [Text.decimalValue_decimal]) hrest
  rw [Text.decimalValue_decimal] at hgather
  cases hds : Text.decimal exponent.natAbs with
  | nil => exact absurd hds (Text.decimal_ne_nil _)
  | cons c ds =>
    rw [hds] at hdigit hgather
    have hc := hdigit c List.mem_cons_self
    rw [List.cons_append] at hgather
    -- the sign says whether the digits count down or up
    split
    · have hdown : -(exponent.natAbs : Int) = exponent := by omega
      simp only [exponentPart, List.cons_append, List.nil_append, if_pos hc, hgather, if_pos hle,
        if_true, hdown]
    · have hup : (exponent.natAbs : Int) = exponent := by omega
      simp only [exponentPart, List.cons_append, List.nil_append, if_pos hc, hgather, if_pos hle,
        Bool.false_eq_true, if_false, hup]

/-! ## Layouts -/

/-- A text is read as a significand and a power of ten, whatever follows. -/
def Denotes (negative : Bool) (cs : List Char) (significand : Nat) (exponent : Int) : Prop :=
  ∀ rest, Stops rest →
    unsignedNumber negative (cs ++ rest) = floatOf negative significand exponent rest

section Layouts

variable (negative : Bool) {n : Nat}

/-- One digit, the others after a point, and an exponent. -/
theorem denotes_scientific (hn : n ≠ 0) (hle : n ≤ greatestSignificand) {c : Char}
    {ds : List Char} (hds : Text.decimal n = c :: ds) (exponent : Int)
    (hexponent : exponent.natAbs ≤ greatestExponent) :
    Denotes negative
      (c :: (if ds = [] then [] else '.' :: ds) ++ 'e' ::
        ((if exponent < 0 then ['-'] else ['+']) ++ Text.decimal exponent.natAbs))
      n (exponent - ds.length) := by
  intro rest hrest
  rw [List.append_assoc, List.cons_append (a := 'e')]
  have hdigit := Text.isDigit_of_mem_decimal n
  have hhead := Text.head_decimal_ne_zero hn
  have hvalue := Text.decimalValue_decimal n
  rw [hds] at hdigit hhead hvalue
  have hfirst : ∀ d ∈ [c], Text.isDigit d = true := by
    intro d hd
    rw [List.mem_singleton] at hd
    exact hd ▸ hdigit c List.mem_cons_self
  have hfirstLe : Text.decimalValue 0 [c] ≤ n := by
    rw [← List.singleton_append, Text.decimalValue_append] at hvalue
    exact hvalue ▸ Text.le_decimalValue _ ds
  by_cases hone : ds = []
  · -- a single digit stands without a point
    subst hone
    rw [if_pos rfl, unsignedNumber_digits negative hfirst (by simp) hhead (by omega)
      (by simp [show Text.isDigit 'e' = false by decide]), hvalue]
    show exponentPart negative n 0 _ = _
    rw [exponentPart_printed negative n 0 exponent hexponent hrest.head_not_digit]
    simp
  · -- the digits after the point move it to the left, which the exponent makes up for
    rw [if_neg hone]
    show unsignedNumber negative ([c] ++ '.' :: (ds ++ 'e' :: _)) = _
    rw [unsignedNumber_digits negative hfirst (by simp) hhead (by omega)
      (by simp [show Text.isDigit '.' = false by decide])]
    show fractionPart negative _ 0 _ = _
    rw [← List.singleton_append, Text.decimalValue_append] at hvalue
    rw [fractionPart_digits negative _ 0 (fun d hd => hdigit d (List.mem_cons_of_mem c hd)) hone
      (by omega) (by simp [show Text.isDigit 'e' = false by decide]), hvalue, afterDigits,
      if_pos (Or.inl rfl), exponentPart_printed negative n _ exponent hexponent
        hrest.head_not_digit]
    congr 1
    omega

/-- A zero, a point, zeros and the digits. -/
theorem denotes_below_one (hle : n ≤ greatestSignificand) (zeros : Nat) :
    Denotes negative ('0' :: '.' :: (List.replicate zeros '0' ++ Text.decimal n)) n
      (-((zeros + (Text.decimal n).length : Nat) : Int)) := by
  intro rest hrest
  -- the zeros leave the significand as it is and only move the point
  have hvalue : Text.decimalValue 0 (List.replicate zeros '0' ++ Text.decimal n) = n := by
    rw [Text.decimalValue_append, Text.decimalValue_replicate_zero, Nat.zero_mul,
      Text.decimalValue_decimal]
  have hdigit : ∀ c ∈ List.replicate zeros '0' ++ Text.decimal n, Text.isDigit c = true := by
    intro c hc
    rcases List.mem_append.1 hc with hzero | hmem
    · exact Text.isDigit_of_mem_replicate_zero c hzero
    · exact Text.isDigit_of_mem_decimal n c hmem
  show fractionPart negative 0 0 (List.replicate zeros '0' ++ Text.decimal n ++ rest) = _
  rw [fractionPart_digits negative 0 0 hdigit (by simp [Text.decimal_ne_nil]) (by omega)
    hrest.head_not_digit, hvalue, afterDigits_of_stops negative n _ hrest]
  simp

/-- A point among the digits. -/
theorem denotes_pointed (hn : n ≠ 0) (hle : n ≤ greatestSignificand) (point : Nat)
    (hpoint : 0 < point) (hlt : point < (Text.decimal n).length) :
    Denotes negative ((Text.decimal n).take point ++ '.' :: (Text.decimal n).drop point) n
      (-(((Text.decimal n).length - point : Nat) : Int)) := by
  intro rest hrest
  rw [List.append_assoc, List.cons_append]
  have hdigit := Text.isDigit_of_mem_decimal n
  have hvalue := Text.decimalValue_decimal n
  -- the digits before the point are a number, which those behind it go on with
  rw [← List.take_append_drop point (Text.decimal n), Text.decimalValue_append] at hvalue
  have hfrontLe := Text.le_decimalValue (Text.decimalValue 0 ((Text.decimal n).take point))
    ((Text.decimal n).drop point)
  have hhead : ((Text.decimal n).take point).head? ≠ some '0' := by
    rw [List.head?_take, if_neg (by omega)]
    exact Text.head_decimal_ne_zero hn
  have hfront : (Text.decimal n).take point ≠ [] := by
    rw [ne_eq, List.take_eq_nil_iff, not_or]
    exact ⟨by omega, Text.decimal_ne_nil n⟩
  have hback : (Text.decimal n).drop point ≠ [] := by
    rw [ne_eq, List.drop_eq_nil_iff]
    omega
  rw [unsignedNumber_digits negative (fun c hc => hdigit c (List.mem_of_mem_take hc)) hfront hhead
    (by omega) (by simp [show Text.isDigit '.' = false by decide])]
  show fractionPart negative _ 0 _ = _
  rw [fractionPart_digits negative _ 0 (fun c hc => hdigit c (List.mem_of_mem_drop hc)) hback
    (by omega) hrest.head_not_digit, hvalue, afterDigits_of_stops negative n _ hrest,
    List.length_drop]
  simp

/-- The digits, zeros, and a zero after the point. -/
theorem denotes_whole (hn : n ≠ 0) {zeros : Nat}
    (hle : n * 10 ^ (zeros + 1) ≤ greatestSignificand) :
    Denotes negative (Text.decimal n ++ List.replicate zeros '0' ++ ['.', '0'])
      (n * 10 ^ (zeros + 1)) (-1) := by
  intro rest hrest
  rw [List.append_assoc]
  have hvalue : Text.decimalValue 0 (Text.decimal n ++ List.replicate zeros '0') =
      n * 10 ^ zeros := by
    rw [Text.decimalValue_append, Text.decimalValue_decimal, Text.decimalValue_replicate_zero]
  -- the zero after the point is one more digit of the significand
  have hlast : Text.decimalValue (n * 10 ^ zeros) (List.replicate 1 '0') =
      n * 10 ^ (zeros + 1) := by
    rw [Text.decimalValue_replicate_zero, Nat.pow_one, Nat.pow_succ, Nat.mul_assoc]
  have hdigit : ∀ c ∈ Text.decimal n ++ List.replicate zeros '0', Text.isDigit c = true := by
    intro c hc
    rcases List.mem_append.1 hc with hmem | hzero
    · exact Text.isDigit_of_mem_decimal n c hmem
    · exact Text.isDigit_of_mem_replicate_zero c hzero
  have hhead : (Text.decimal n ++ List.replicate zeros '0').head? ≠ some '0' := by
    rw [List.head?_append_of_ne_nil _ (Text.decimal_ne_nil n)]
    exact Text.head_decimal_ne_zero hn
  have hfrontLe : n * 10 ^ zeros ≤ greatestSignificand :=
    (Nat.mul_le_mul_left n (Nat.pow_le_pow_right (by omega) (by omega))).trans hle
  rw [unsignedNumber_digits negative hdigit (by simp [Text.decimal_ne_nil]) hhead (by omega)
    (by simp [show Text.isDigit '.' = false by decide]), hvalue]
  show fractionPart negative _ 0 (List.replicate 1 '0' ++ rest) = _
  rw [fractionPart_digits negative _ 0 Text.isDigit_of_mem_replicate_zero (by simp) (by omega)
    hrest.head_not_digit, hlast, afterDigits_of_stops negative _ _ hrest]
  rfl

end Layouts

/-- With at most sixteen digits before the point there is room for one more. -/
theorem digits_mul_lt {n zeros : Nat} (h : (Text.decimal n).length + zeros ≤ 16) :
    n * 10 ^ (zeros + 1) < 10 ^ 17 := by
  calc n * 10 ^ (zeros + 1) < 10 ^ (Text.decimal n).length * 10 ^ (zeros + 1) :=
        Nat.mul_lt_mul_of_pos_right (Text.lt_ten_pow_length_decimal n) (Nat.pow_pos (by omega))
    _ = 10 ^ ((Text.decimal n).length + (zeros + 1)) := (Nat.pow_add ..).symm
    _ ≤ 10 ^ 17 := Nat.pow_le_pow_right (by omega) (by omega)

/-- The text of a decimal is read as its digits and its power of ten, or as a decimal with one
place after the point. -/
theorem denotes_write (negative : Bool) {d : Decimal} (hpos : 0 < d.digits)
    (hle : d.digits ≤ 10 ^ 17) (hleast : -400 ≤ d.exponent) (hgreatest : d.exponent ≤ 400) :
    Denotes negative (jsonStyle.write d) d.digits d.exponent ∨
      ∃ significand < 2 ^ 64, Denotes negative (jsonStyle.write d) significand (-1) := by
  have hne : d.digits ≠ 0 := Nat.pos_iff_ne_zero.mp hpos
  have hfits : d.digits ≤ greatestSignificand := by
    simp only [greatestSignificand]
    omega
  have hlength := Text.length_decimal_pos d.digits
  have hlengthLe : (Text.decimal d.digits).length ≤ 18 :=
    Text.length_decimal_le (by omega) (by omega)
  unfold DecimalStyle.write jsonStyle
  dsimp only
  -- the place of the point among the digits decides between the four layouts
  split
  · left
    cases hds : Text.decimal d.digits with
    | nil => exact absurd hds (Text.decimal_ne_nil _)
    | cons c ds =>
      rw [hds, List.length_cons] at hlength hlengthLe
      have hdenotes := denotes_scientific negative hne hfits hds
        (((c :: ds).length : Int) + d.exponent - 1)
        (by unfold greatestExponent; rw [List.length_cons]; omega)
      have hback : ((c :: ds).length : Int) + d.exponent - 1 - ds.length = d.exponent := by
        rw [List.length_cons]
        omega
      rw [hback] at hdenotes
      cases ds <;> simpa using hdenotes
  · split
    · left
      have hdenotes := denotes_below_one negative hfits
        (((Text.decimal d.digits).length : Int) + d.exponent).natAbs
      have hback : -(((((Text.decimal d.digits).length : Int) + d.exponent).natAbs +
          (Text.decimal d.digits).length : Nat) : Int) = d.exponent := by omega
      rw [hback] at hdenotes
      exact hdenotes
    · split
      · left
        have hdenotes := denotes_pointed negative hne hfits
          (((Text.decimal d.digits).length : Int) + d.exponent).toNat (by omega) (by omega)
        have hback : -(((Text.decimal d.digits).length -
            (((Text.decimal d.digits).length : Int) + d.exponent).toNat : Nat) : Int) =
              d.exponent := by omega
        rw [hback] at hdenotes
        exact hdenotes
      · -- a whole number is written with a zero after its point, which it keeps when read
        right
        have hsmall : d.digits * 10 ^ (d.exponent.toNat + 1) < 10 ^ 17 := digits_mul_lt (by omega)
        refine ⟨d.digits * 10 ^ (d.exponent.toNat + 1), by omega, ?_⟩
        exact denotes_whole negative hne (by unfold greatestSignificand; omega)

/-! ## Doubles -/

/-- The text of zero, without its sign. -/
theorem denotes_zero (negative : Bool) : Denotes negative ['0', '.', '0'] 0 (-1) := by
  intro rest hrest
  show fractionPart negative 0 0 (List.replicate 1 '0' ++ rest) = _
  rw [fractionPart_digits negative 0 0 Text.isDigit_of_mem_replicate_zero (by simp)
    (by rw [Text.decimalValue_replicate_zero]; omega) hrest.head_not_digit,
    Text.decimalValue_replicate_zero, afterDigits_of_stops _ _ _ hrest]
  rfl

theorem Denotes.unsignedNumber_eq {negative : Bool} {cs : List Char} {significand : Nat}
    {exponent : Int} (h : Denotes negative cs significand exponent) {y : Binary64}
    (hy : Binary64.ofScientific? negative significand exponent = some y) {rest : List Char}
    (hrest : Stops rest) : unsignedNumber negative (cs ++ rest) = .ok (.float y, rest) := by
  rw [h rest hrest, floatOf, hy]

/-- The text of a number without its sign. -/
theorem exists_unsignedNumber {x : Binary64} (hx : x.isRepresentable = true) :
    ∃ y : Binary64, y.isRepresentable = true ∧ ∀ rest, Stops rest →
      unsignedNumber x.negative
          ((if x.isZero then ['0', '.', '0'] else jsonStyle.write (shortest x)) ++ rest) =
        .ok (.float y, rest) := by
  by_cases hzero : x.isZero = true
  · rw [if_pos hzero]
    obtain ⟨y, hy, hrepresentable⟩ :=
      Binary64.exists_ofScientific?_negSucc x.negative (Nat.two_pow_pos 64) 0
    exact ⟨y, hrepresentable, fun rest hrest =>
      (denotes_zero x.negative).unsignedNumber_eq hy hrest⟩
  · rw [if_neg hzero]
    have hpos : 0 < x.significand := by
      rw [Binary64.isZero, beq_iff_eq] at hzero
      omega
    have hnear := Number.shortest_isNear hpos (Number.leastExponent_le hx)
    -- a whole number is read with a power of its own, every other one as its shortest decimal
    rcases denotes_write x.negative hnear.pos hnear.digits_le hnear.exponent_ge
      ((hnear.exponent_le hx).trans (by decide)) with hdenotes | ⟨significand, hlt, hdenotes⟩
    · obtain ⟨y, hy, hrepresentable⟩ := Number.exists_ofScientific?_shortest hx hpos x.negative
      exact ⟨y, hrepresentable, fun rest hrest => hdenotes.unsignedNumber_eq hy hrest⟩
    · obtain ⟨y, hy, hrepresentable⟩ :=
        Binary64.exists_ofScientific?_negSucc x.negative hlt 0
      exact ⟨y, hrepresentable, fun rest hrest => hdenotes.unsignedNumber_eq hy hrest⟩

/-- What reads as a number without a sign begins with a digit. -/
theorem isDigit_of_unsignedNumber {negative : Bool} {cs : List Char}
    {result : Numeral × List Char} (h : unsignedNumber negative cs = .ok result) :
    ∃ c ds, cs = c :: ds ∧ Text.isDigit c = true := by
  cases cs with
  | nil => cases h
  | cons c ds =>
    refine ⟨c, ds, rfl, ?_⟩
    rw [unsignedNumber.eq_def] at h
    dsimp only at h
    split at h
    · rename_i hzero
      rw [hzero]
      decide
    · split at h
      · assumption
      · cases h

theorem Numeral.legible_float {x : Binary64} (hx : x.isRepresentable = true) :
    (Numeral.float x).Legible := by
  obtain ⟨y, hy, hread⟩ := exists_unsignedNumber hx
  obtain ⟨c, ds, hcs, hc⟩ := isDigit_of_unsignedNumber (hread [] trivial)
  rw [List.append_nil] at hcs
  have htext : (Numeral.float x).text = (if x.negative then ['-'] else []) ++ c :: ds := by
    rw [← hcs]
    rfl
  have hreads : Reads numeral (Numeral.float x).text (.float y) := by
    intro rest hrest
    have hunsigned := hread rest hrest
    rw [hcs] at hunsigned
    rw [htext]
    cases hsign : x.negative with
    | true =>
      -- the sign is taken off before the number
      rw [hsign] at hunsigned
      exact hunsigned
    | false =>
      rw [hsign] at hunsigned
      show numeral (c :: (ds ++ rest)) = _
      rw [numeral_of_isDigit hc]
      exact hunsigned
  refine (legible_of_reads ?_ hreads hy).1
  rw [htext]
  cases x.negative with
  | true => exact ⟨'-', c :: ds, rfl, Or.inl rfl⟩
  | false => exact ⟨c, ds, rfl, Or.inr hc⟩

/-- Every number that fits reads back from its text. -/
theorem Numeral.legible_of_fits {n : Numeral} (h : n.fits = true) : n.Legible := by
  cases n with
  | integer i => exact (reads_integer h).1
  | float x => exact legible_float h

/-- Every value whose numbers fit reads back from its text, up to the nesting that is allowed. -/
theorem legible_of_fits {v : Json} (h : v.fits = true) : v.Legible := by
  intro n hn
  exact Numeral.legible_of_fits ((fits_iff v).1 h n hn)

end SessionArchive.Json
