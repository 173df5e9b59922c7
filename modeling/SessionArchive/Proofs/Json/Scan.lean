import SessionArchive.Json.Scan
import SessionArchive.Proofs.Except
import SessionArchive.Proofs.Text.Digits

/-!
# Scanning what was printed

Strings and integers read back from their printed text, whatever follows. A string ends at its
quote (`stringAfterQuote_quoted`). A number ends where the text cannot carry it on, which is what
`Stops` says of the rest (`numeral_signedDecimal`).
-/

set_option autoImplicit false

namespace SessionArchive.Json

/-! ## Strings -/

/-- The two hexadecimal digits of a control character, padded to four. -/
theorem padZero_hexadecimal : ∀ n, n < 0x20 →
    ∃ a b, Text.padZero 4 (Text.hexadecimal n) = ['0', '0', a, b] ∧
      Text.ofHex? ['0', '0', a, b] = some n := by
  intro n hn
  by_cases h : n < 16
  · refine ⟨'0', Text.digitChar n, ?_, ?_⟩
    · rw [Text.hexadecimal, if_pos h]
      rfl
    · revert n
      decide
  · refine ⟨Text.digitChar (n / 16), Text.digitChar (n % 16), ?_, ?_⟩
    · rw [Text.hexadecimal, if_neg h, Text.hexadecimal, if_pos (by omega)]
      rfl
    · clear h
      revert n
      decide

/-- The code of a control character is read back as the character. -/
theorem codeEscape_control {n : Nat} (hn : n < 0x20) (rest : List Char) :
    codeEscape (Text.padZero 4 (Text.hexadecimal n) ++ rest) = .ok (Char.ofNat n, rest) := by
  obtain ⟨a, b, htext, hval⟩ := padZero_hexadecimal n hn
  -- below the surrogates no second code is looked for
  have hlow : isLowSurrogate n = false := by
    simp only [isLowSurrogate, Bool.and_eq_false_iff, decide_eq_false_iff_not]
    omega
  have hhigh : isHighSurrogate n = false := by
    simp only [isHighSurrogate, Bool.and_eq_false_iff, decide_eq_false_iff_not]
    omega
  have hfour : fourDigits (['0', '0', a, b] ++ rest) = .ok (n, rest) := by
    simp only [List.cons_append, List.nil_append, fourDigits, hval]
  rw [htext, codeEscape, hfour]
  simp only [bind, Except.bind, hlow, hhigh]
  rfl

theorem stringBody_letter (steps : Nat) (rest : List Char) {letter c : Char} (hu : letter ≠ 'u')
    (hletter : escapeLetter? letter = some c) :
    stringBody (steps + 1) ('\\' :: letter :: rest) =
      (stringBody steps rest).map fun (ds, rest) => (c :: ds, rest) := by
  rw [stringBody, if_neg (by decide), if_pos rfl, escape, if_neg hu, hletter]
  simp only [ok_bind]
  cases stringBody steps rest <;> rfl

theorem stringBody_codeEscape (steps : Nat) {cs rest : List Char} {c : Char}
    (h : codeEscape cs = .ok (c, rest)) :
    stringBody (steps + 1) ('\\' :: 'u' :: cs) =
      (stringBody steps rest).map fun (ds, rest) => (c :: ds, rest) := by
  rw [stringBody, if_neg (by decide), if_pos rfl, escape, if_pos rfl, h]
  simp only [ok_bind]
  cases stringBody steps rest <;> rfl

theorem stringBody_code (steps : Nat) (rest : List Char) {c : Char} (hc : c.toNat < 0x20) :
    stringBody (steps + 1)
        ('\\' :: 'u' :: (Text.padZero 4 (Text.hexadecimal c.toNat) ++ rest)) =
      (stringBody steps rest).map fun (ds, rest) => (c :: ds, rest) := by
  have hcode := codeEscape_control hc rest
  rw [Char.ofNat_toNat] at hcode
  exact stringBody_codeEscape steps hcode

/-- The characters that are printed as a letter behind a backslash, each behind its letter. -/
def printedLetters : List (Char × Char) :=
  [('"', '"'), ('\\', '\\'), ('b', '\x08'), ('f', '\x0c'), ('n', '\n'), ('r', '\r'), ('t', '\t')]

/-- How a character of a string is printed: as a letter, as a code, or as itself. -/
inductive Printed (c : Char) : List Char → Prop
  | letter {letter : Char} (h : (letter, c) ∈ printedLetters) : Printed c ['\\', letter]
  | code (h : c.toNat < 0x20) :
      Printed c ('\\' :: 'u' :: Text.padZero 4 (Text.hexadecimal c.toNat))
  | itself (hcontrol : 0x20 ≤ c.toNat) (hquote : c ≠ '"') (hslash : c ≠ '\\') : Printed c [c]

theorem printed_escaped (c : Char) : Printed c (escaped c) := by
  rw [escaped]
  iterate 7
    split
    · next hletter =>
      subst hletter
      exact .letter (by decide)
  split
  · next hcontrol => exact .code hcontrol
  · rename_i hquote hslash _ _ _ _ _ hcontrol
    exact .itself (Nat.le_of_not_lt hcontrol) hquote hslash

/-- One step of a string reads one printed character. -/
theorem Printed.read {c : Char} {text : List Char} (h : Printed c text) (steps : Nat)
    (rest : List Char) :
    stringBody (steps + 1) (text ++ rest) =
      (stringBody steps rest).map fun (ds, rest) => (c :: ds, rest) := by
  cases h with
  | letter h =>
    have hletters : ∀ p ∈ printedLetters, p.1 ≠ 'u' ∧ escapeLetter? p.1 = some p.2 := by decide
    obtain ⟨hu, hletter⟩ := hletters _ h
    exact stringBody_letter steps rest hu hletter
  | code h => exact stringBody_code steps rest h
  | itself hcontrol hquote hslash =>
    rw [List.singleton_append, stringBody, if_neg hquote, if_neg hslash,
      if_neg (Nat.not_lt.mpr hcontrol)]
    cases stringBody steps rest <;> rfl

theorem Printed.ne_nil {c : Char} {text : List Char} (h : Printed c text) : text ≠ [] := by
  cases h <;> exact List.cons_ne_nil _ _

theorem stringBody_flatMap_escaped (cs : List Char) (steps : Nat) (rest : List Char)
    (h : cs.length < steps) :
    stringBody steps (cs.flatMap escaped ++ '"' :: rest) = .ok (cs, rest) := by
  induction cs generalizing steps with
  | nil =>
    obtain ⟨n, rfl⟩ : ∃ n, steps = n + 1 := ⟨steps - 1, by omega⟩
    simp [stringBody]
  | cons c cs ih =>
    obtain ⟨n, rfl⟩ : ∃ n, steps = n + 1 := ⟨steps - 1, by omega⟩
    rw [List.flatMap_cons, List.append_assoc, (printed_escaped c).read,
      ih n (Nat.lt_of_succ_lt_succ (by simpa using h))]
    rfl

theorem length_le_length_flatMap_escaped (cs : List Char) :
    cs.length ≤ (cs.flatMap escaped).length := by
  induction cs with
  | nil => exact Nat.le_refl 0
  | cons c cs ih =>
    have hc := List.length_pos_iff.mpr (printed_escaped c).ne_nil
    rw [List.flatMap_cons, List.length_append, List.length_cons]
    omega

/-- A printed string reads back from after its opening quote. -/
theorem stringAfterQuote_quoted (s : String) (rest : List Char) :
    stringAfterQuote (s.toList.flatMap escaped ++ '"' :: rest) = .ok (s, rest) := by
  have h := length_le_length_flatMap_escaped s.toList
  rw [stringAfterQuote, stringBody_flatMap_escaped s.toList _ rest (by
    rw [List.length_append, List.length_cons]; omega)]
  simp [Except.map]

/-! ## Numbers -/

/-- A text whose beginning carries on no number: no digit, point or letter of an exponent. -/
def Stops : List Char → Prop
  | [] => True
  | c :: _ => Text.isDigit c = false ∧ c ≠ '.' ∧ c ≠ 'e' ∧ c ≠ 'E'

theorem stops_cons {c : Char} {rest : List Char} (h : c = ',' ∨ c = ']' ∨ c = '}') :
    Stops (c :: rest) := by
  rcases h with rfl | rfl | rfl <;> exact ⟨by decide, by decide, by decide, by decide⟩

theorem gatherDigits_append (n : Nat) (ds rest : List Char)
    (hd : ∀ c ∈ ds, Text.isDigit c = true) (hle : Text.decimalValue n ds ≤ greatestSignificand) :
    gatherDigits n (ds ++ rest) = gatherDigits (Text.decimalValue n ds) rest := by
  induction ds generalizing n with
  | nil => rfl
  | cons c ds ih =>
    rw [Text.decimalValue_cons] at hle ⊢
    have hc := Text.decimalDigit?_of_isDigit (hd c List.mem_cons_self)
    have hfits := Nat.le_trans (Text.le_decimalValue _ ds) hle
    rw [List.cons_append, gatherDigits, hc]
    simp only [if_pos hfits]
    exact ih _ (fun d hd' => hd d (List.mem_cons_of_mem c hd')) hle

theorem gatherDigits_of_not_digit (n : Nat) {rest : List Char}
    (h : ∀ c ∈ rest.head?, Text.isDigit c = false) : gatherDigits n rest = (n, rest) := by
  cases rest with
  | nil => rfl
  | cons c rest => rw [gatherDigits, Text.decimalDigit?_eq_none (h c rfl)]

theorem Stops.head_not_digit {rest : List Char} (h : Stops rest) :
    ∀ c ∈ rest.head?, Text.isDigit c = false := by
  intro c hc
  cases rest with
  | nil => simp at hc
  | cons d rest =>
    rw [List.head?_cons, Option.mem_some_iff] at hc
    exact hc ▸ h.1

theorem takeWhile_of_not_digit {rest : List Char}
    (h : ∀ c ∈ rest.head?, Text.isDigit c = false) :
    rest.takeWhile Text.isDigit = [] ∧ rest.dropWhile Text.isDigit = rest := by
  cases rest with
  | nil => exact ⟨rfl, rfl⟩
  | cons c rest => simp [h c rfl]

theorem afterInteger_of_stops (negative : Bool) (n : Nat) {rest : List Char} (h : Stops rest) :
    afterInteger negative n 0 rest = .ok (signedNumeral negative n, rest) := by
  cases rest with
  | nil => rfl
  | cons c rest =>
    rcases h with ⟨-, hpoint, he, hE⟩
    simp only [afterInteger]
    split
    · next heq => exact absurd (List.cons.inj heq).1 hpoint
    · split
      · next heq => exact absurd (List.cons.inj heq).1 he
      · next heq => exact absurd (List.cons.inj heq).1 hE
      · rfl
      · next hzero => exact (hzero rfl).elim

/-- Digits before anything else are an integer part, unless a zero leads them. -/
theorem unsignedNumber_digits (negative : Bool) {ds rest : List Char}
    (hdigit : ∀ c ∈ ds, Text.isDigit c = true) (hempty : ds ≠ []) (hhead : ds.head? ≠ some '0')
    (hle : Text.decimalValue 0 ds ≤ greatestSignificand)
    (hrest : ∀ c ∈ rest.head?, Text.isDigit c = false) :
    unsignedNumber negative (ds ++ rest) =
      afterInteger negative (Text.decimalValue 0 ds) 0 rest := by
  have hgather := gatherDigits_append 0 ds rest hdigit hle
  rw [gatherDigits_of_not_digit _ hrest] at hgather
  cases ds with
  | nil => exact absurd rfl hempty
  | cons c ds =>
    have hc : ¬ c = '0' := fun heq => hhead (by rw [heq]; rfl)
    rw [List.cons_append] at hgather ⊢
    rw [unsignedNumber.eq_def]
    simp only [if_neg hc, if_pos (hdigit c List.mem_cons_self), hgather,
      takeWhile_of_not_digit hrest, List.length_nil]

/-- The digits of a number read back as that number. -/
theorem unsignedNumber_decimal (negative : Bool) (n : Nat) {rest : List Char}
    (hn : n ≤ greatestSignificand) (h : Stops rest) :
    unsignedNumber negative (Text.decimal n ++ rest) =
      .ok (signedNumeral negative n, rest) := by
  by_cases hz : n = 0
  · subst hz
    rw [Text.decimal_of_lt (by omega)]
    -- a zero leads no other digits
    cases rest with
    | nil => rfl
    | cons d rest =>
      show (if Text.isDigit d = true then _ else afterInteger negative 0 0 (d :: rest)) = _
      rw [h.1, if_neg (by decide)]
      exact afterInteger_of_stops negative 0 h
  · rw [unsignedNumber_digits negative (Text.isDigit_of_mem_decimal n) (Text.decimal_ne_nil n)
      (Text.head_decimal_ne_zero hz) (by rwa [Text.decimalValue_decimal]) h.head_not_digit,
      Text.decimalValue_decimal]
    exact afterInteger_of_stops negative n h

/-- What begins with a digit has no sign. -/
theorem numeral_of_isDigit {c : Char} {cs : List Char} (hc : Text.isDigit c = true) :
    numeral (c :: cs) = unsignedNumber false (c :: cs) := by
  simp only [numeral]
  split
  · next heq =>
    rw [(List.cons.inj heq).1] at hc
    exact absurd hc (by decide)
  · rfl

/-- A printed integer of 64 bits reads back as itself. -/
theorem numeral_signedDecimal {n : Int} {rest : List Char}
    (hfits : (Numeral.integer n).fits = true) (h : Stops rest) :
    numeral (Text.signedDecimal n ++ rest) = .ok (.integer n, rest) := by
  simp only [Numeral.fits, Bool.and_eq_true, decide_eq_true_eq] at hfits
  cases n with
  | ofNat n =>
    have hn : n ≤ greatestSignificand := by
      have hlt := hfits.2
      simp only [Int.ofNat_eq_natCast] at hlt
      simp only [greatestSignificand]
      omega
    have hread := unsignedNumber_decimal false n hn h
    have hdigit := Text.isDigit_of_mem_decimal n
    show numeral (Text.decimal n ++ rest) = _
    cases hds : Text.decimal n with
    | nil => exact absurd hds (Text.decimal_ne_nil n)
    | cons c ds =>
      rw [hds] at hread hdigit
      rw [List.cons_append, numeral_of_isDigit (hdigit c List.mem_cons_self)]
      exact hread
  | negSucc n =>
    -- the smallest integer is one further from zero than the greatest
    have hn : n + 1 ≤ 2 ^ 63 := by omega
    show unsignedNumber true (Text.decimal (n + 1) ++ rest) = _
    rw [unsignedNumber_decimal true (n + 1) (by simp only [greatestSignificand]; omega) h,
      signedNumeral, if_pos rfl, if_neg (by omega)]
    rfl

end SessionArchive.Json
