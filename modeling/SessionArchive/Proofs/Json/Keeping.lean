import SessionArchive.Proofs.Json.Taking
import SessionArchive.Proofs.Json.Yield

/-!
# Readers that keep to a text

A reader may refuse a JSON text that another one takes: the value may be of another kind, nest too
deep, be too great a number or hold half a character. But no reader stops inside of it or goes on
behind it (`KeepsTo`), so that what follows is looked at all the same. Numbers and strings that are
read end where passing over them ends; arrays and objects end at their brackets.
-/

set_option autoImplicit false

namespace SessionArchive.Json

variable {α β : Type} {reader : Scan α} {text : List Char}

/-- A reader takes from the front of any text that begins with a given one and then stops no more
and no less than that, if it takes anything. -/
def KeepsTo (reader : Scan α) (text : List Char) : Prop :=
  ∀ rest, Stops rest → Gives (reader (text ++ rest)) fun found => Resumes found.2 rest

/-- A value is what a reader yields from some text that begins with a given one and then stops. -/
def FoundIn (reader : Scan α) (text : List Char) (value : α) : Prop :=
  ∃ rest left, Stops rest ∧ reader (text ++ rest) = .ok (value, left)

/-- What is read from a text is found there. -/
theorem KeepsTo.gives (h : KeepsTo reader text) {rest : List Char} (hrest : Stops rest) :
    Gives (reader (text ++ rest)) fun found => FoundIn reader text found.1 ∧ Resumes found.2 rest :=
  fun found hfound => ⟨⟨rest, found.2, hrest, hfound⟩, h rest hrest found hfound⟩

/-- What is taken from a text is all that is found there. -/
theorem Takes.eq_of_foundIn {value other : α} (h : Takes reader text value)
    (hother : FoundIn reader text other) : other = value := by
  obtain ⟨rest, left, hrest, hfound⟩ := hother
  obtain ⟨end_, -, hread⟩ := h rest hrest
  exact congrArg Prod.fst (Except.ok.inj (hfound.symm.trans hread))

/-- Where nothing is found a reader fails. -/
theorem fails_of_not_foundIn (h : ∀ value, ¬FoundIn reader text value) : Fails reader text := by
  intro rest hrest
  cases hread : reader (text ++ rest) with
  | error fault => exact ⟨fault, rfl⟩
  | ok found => exact absurd ⟨rest, found.2, hrest, hread⟩ (h found.1)

/-- A text on which a reader fails is not read as a whole. -/
theorem read_of_fails {reader : Reader α} {text : List Char}
    (h : Fails (reader greatestDepth) text) : ∃ fault, read reader text = .error fault := by
  obtain ⟨fault, hfault⟩ := h [] trivial
  rw [List.append_nil] at hfault
  exact ⟨fault, by rw [read, hfault, error_bind]⟩

theorem KeepsTo.padded {core cs : List Char} (h : KeepsTo reader core)
    (hblanks : PassesBlanks reader) (hpadded : IsPadded core cs) : KeepsTo reader cs := by
  obtain ⟨hbefore, hafter⟩ := hpadded
  intro rest hrest
  have hresumes := hafter.resumes hrest
  rw [hblanks.padded hbefore]
  exact (h _ hresumes.stops).mono fun found hleft => hleft.trans hresumes

theorem FoundIn.core {core cs : List Char} {value : α} (h : FoundIn reader cs value)
    (hblanks : PassesBlanks reader) (hpadded : IsPadded core cs) : FoundIn reader core value := by
  obtain ⟨hbefore, hafter⟩ := hpadded
  obtain ⟨rest, left, hrest, hread⟩ := h
  rw [hblanks.padded hbefore] at hread
  exact ⟨_, left, (hafter.resumes hrest).stops, hread⟩

/-! ## Numbers -/

theorem dropWhile_gatherDigits (n : Nat) (cs : List Char) :
    (gatherDigits n cs).2.dropWhile Text.isDigit = cs.dropWhile Text.isDigit := by
  induction cs generalizing n with
  | nil => rfl
  | cons c cs ih =>
    cases hc : Text.isDigit c with
    | false => simp only [gatherDigits, Text.decimalDigit?_eq_none hc]
    | true =>
      simp only [gatherDigits, Text.decimalDigit?_of_isDigit hc]
      split
      · rw [ih, List.dropWhile_cons_of_pos hc]
      · rfl

/-- The digits of an exponent are gathered to their end, unless it gets too great. -/
theorem gatherExponent_snd (n : Nat) (cs : List Char) :
    (gatherExponent n cs).2.dropWhile Text.isDigit = cs.dropWhile Text.isDigit ∧
      ((gatherExponent n cs).1 ≤ greatestExponent →
        (gatherExponent n cs).2 = cs.dropWhile Text.isDigit) := by
  induction cs generalizing n with
  | nil => exact ⟨rfl, fun _ => rfl⟩
  | cons c cs ih =>
    cases hc : Text.isDigit c with
    | false =>
      simp only [gatherExponent, Text.decimalDigit?_eq_none hc]
      exact ⟨trivial, fun _ => (List.dropWhile_cons_of_neg (by simp [hc])).symm⟩
    | true =>
      simp only [gatherExponent, Text.decimalDigit?_of_isDigit hc, List.dropWhile_cons_of_pos hc]
      split
      · exact ih _
      · next hgreat => exact ⟨rfl, fun hle => absurd hle hgreat⟩

theorem gives_floatOf (negative : Bool) (significand : Nat) (exponent : Int) (rest : List Char) :
    Gives (floatOf negative significand exponent rest) fun found => found.2 = rest := by
  rw [floatOf]
  split
  · exact Gives.ok rfl
  · exact Gives.error _ _

/-- An exponent without its sign is read as far as its digits go. -/
theorem gives_exponentDigits (negative : Bool) (significand : Nat) (point : Int) (down : Bool)
    (ds : List Char) :
    Gives
      (match ds with
      | [] => failAt .valueCutOff []
      | c :: _ =>
        if Text.isDigit c then
          let (exponent, rest) := gatherExponent 0 ds
          if exponent ≤ greatestExponent then
            floatOf negative significand (point + if down then -(exponent : Int) else exponent) rest
          else if significand ≠ 0 ∧ !down then failAt .numberOutOfRange rest
          else .ok (.float (Number.Binary64.zero negative), rest.dropWhile Text.isDigit)
        else failNext .invalidNumber ds)
      fun found => (match ds with
        | [] => failAt .invalidNumber []
        | c :: rest =>
          if Text.isDigit c then .ok ((), rest.dropWhile Text.isDigit)
          else failNext .invalidNumber (c :: rest)) = Except.ok ((), found.2) := by
  cases ds with
  | nil => exact Gives.error _ _
  | cons c ds =>
    cases hc : Text.isDigit c with
    | false =>
      simp only [hc, Bool.false_eq_true, if_false]
      exact Gives.error _ _
    | true =>
      obtain ⟨hdrop, hall⟩ := gatherExponent_snd 0 (c :: ds)
      rw [List.dropWhile_cons_of_pos hc] at hdrop hall
      simp only [hc, if_true]
      generalize gatherExponent 0 (c :: ds) = gathered at hdrop hall ⊢
      split
      · next hle =>
        rw [← hall hle]
        exact (gives_floatOf _ _ _ _).mono fun found hleft => hleft ▸ rfl
      · split
        · exact Gives.error _ _
        · exact Gives.ok (hdrop ▸ rfl)

/-- An exponent that is read ends where passing over it ends. -/
theorem gives_exponentPart (negative : Bool) (significand : Nat) (point : Int) (cs : List Char) :
    Gives (exponentPart negative significand point cs)
      fun found => skipExponent cs = .ok ((), found.2) := by
  have hdigits := gives_exponentDigits negative significand point
  rw [exponentPart.eq_def, skipExponent.eq_def]
  cases cs with
  | nil => exact hdigits false []
  | cons c rest =>
    by_cases hplus : c = '+'
    · subst hplus
      exact hdigits false rest
    by_cases hminus : c = '-'
    · subst hminus
      exact hdigits true rest
    · simpa [hplus, hminus] using hdigits false (c :: rest)

theorem gives_afterDigits (negative : Bool) (significand : Nat) (point : Int) (cs : List Char) :
    Gives (afterDigits negative significand point cs)
      fun found => skipScale cs = .ok ((), found.2) := by
  cases cs with
  | nil =>
    rw [afterDigits]
    intro found hfound
    rw [gives_floatOf _ _ _ _ found hfound, skipScale]
  | cons c rest =>
    rw [afterDigits, skipScale]
    split
    · exact gives_exponentPart _ _ _ _
    · intro found hfound
      rw [gives_floatOf _ _ _ _ found hfound]

theorem gives_fractionPart (negative : Bool) (significand : Nat) (point : Int) (cs : List Char) :
    Gives (fractionPart negative significand point cs)
      fun found => skipFraction ('.' :: cs) = .ok ((), found.2) := by
  cases cs with
  | nil => exact Gives.error _ _
  | cons c cs =>
    cases hc : Text.isDigit c with
    | false =>
      simp only [fractionPart, hc, Bool.false_eq_true, if_false]
      exact Gives.error _ _
    | true =>
      have hafter := gives_afterDigits negative (gatherDigits significand (c :: cs)).1
        (point - (((c :: cs).length - (gatherDigits significand (c :: cs)).2.length : Nat) : Int))
        ((gatherDigits significand (c :: cs)).2.dropWhile Text.isDigit)
      rw [dropWhile_gatherDigits] at hafter
      simp only [fractionPart, skipFraction, hc, if_true, dropWhile_gatherDigits]
      exact hafter

theorem skipScale_of_ne {cs : List Char} (hlower : ∀ rest, cs = 'e' :: rest → False)
    (hupper : ∀ rest, cs = 'E' :: rest → False) : skipScale cs = .ok ((), cs) := by
  cases cs with
  | nil => rfl
  | cons c rest =>
    rw [skipScale, if_neg]
    rintro (rfl | rfl)
    · exact hlower rest rfl
    · exact hupper rest rfl

theorem gives_afterInteger (negative : Bool) (significand dropped : Nat) (cs : List Char) :
    Gives (afterInteger negative significand dropped cs)
      fun found => skipFraction cs = .ok ((), found.2) := by
  rw [afterInteger.eq_def]
  split
  · exact gives_fractionPart _ _ _ _
  · next hpoint =>
    -- without a point, passing over goes on at the exponent too
    have hscale : skipFraction cs = skipScale cs := by
      refine skipFraction_eq_skipScale fun hhead => ?_
      obtain ⟨rest, rfl⟩ := List.head?_eq_some_iff.mp hhead
      exact hpoint rest rfl
    rw [hscale]
    split
    · exact gives_exponentPart _ _ _ _
    · exact gives_exponentPart _ _ _ _
    · next hlower hupper =>
      rw [skipScale_of_ne hlower hupper]
      exact Gives.ok rfl
    · next hlower hupper _ =>
      rw [skipScale_of_ne hlower hupper]
      exact (gives_floatOf _ _ _ _).mono fun found hleft => hleft ▸ rfl

theorem gives_unsignedNumber (negative : Bool) (cs : List Char) :
    Gives (unsignedNumber negative cs) fun found => skipUnsigned cs = .ok ((), found.2) := by
  cases cs with
  | nil => exact Gives.error _ _
  | cons c rest =>
    rw [unsignedNumber.eq_def, skipUnsigned.eq_def]
    dsimp only
    by_cases hzero : c = '0'
    · -- no digit may come behind a zero
      simp only [if_pos hzero]
      cases rest with
      | nil => exact gives_afterInteger negative 0 0 []
      | cons d rest =>
        dsimp only
        split
        · exact Gives.error _ _
        · exact gives_afterInteger negative 0 0 (d :: rest)
    · simp only [if_neg hzero]
      split
      · next hc =>
        have hdrop := dropWhile_gatherDigits 0 (c :: rest)
        rw [List.dropWhile_cons_of_pos hc] at hdrop
        rw [← hdrop]
        exact gives_afterInteger _ _ _ _
      · exact Gives.error _ _

/-- A number is read to its end, if it can be. -/
theorem keepsTo_numeral {text : List Char} (h : IsNumber text) :
    KeepsTo numeral text := by
  intro rest hrest found hfound
  -- the number is passed over to where its text ends, and reading ends there as well
  have hleft : found.2 = rest := by
    cases h with
    | positive h =>
      obtain ⟨c, ds, rfl, hc⟩ := h.begins
      have hskip := h.skip hrest
      rw [List.cons_append] at hfound hskip
      rw [numeral_of_isDigit hc] at hfound
      rw [gives_unsignedNumber false _ found hfound] at hskip
      exact (Prod.mk.inj (Except.ok.inj hskip)).2
    | negative h =>
      have hskip := h.skip hrest
      have hread := gives_unsignedNumber true _ found hfound
      exact (Prod.mk.inj (Except.ok.inj (hread.symm.trans hskip))).2
  exact .of_eq hleft hrest

/-! ## Strings and keys -/

theorem skipStringBody_fourDigits {cs left : List Char} {n : Nat}
    (h : fourDigits cs = .ok (n, left)) (steps : Nat) :
    skipStringBody (steps + 1) ('\\' :: 'u' :: cs) = skipStringBody steps left := by
  rw [skipStringBody, if_neg (by decide), if_pos rfl, skipEscape, if_pos rfl, h]
  rfl

/-- A character by its code is passed over in one step, or in two where each half has its own. -/
theorem gives_codeEscape (cs : List Char) :
    Gives (codeEscape cs) fun found => ∃ n, ∀ steps,
      skipStringBody (steps + n + 1) ('\\' :: 'u' :: cs) = skipStringBody steps found.2 := by
  rw [codeEscape]
  cases hfirst : fourDigits cs with
  | error fault => exact Gives.error _ _
  | ok found =>
    obtain ⟨high, after⟩ := found
    simp only [ok_bind]
    -- the low half of a pair is refused, and the high half asks for a low one behind it
    split
    · exact Gives.error _ _
    split
    · split
      · exact Gives.error _ _
      · exact Gives.error _ _
      · next more =>
        cases hsecond : fourDigits more with
        | error fault => exact Gives.error _ _
        | ok found =>
          obtain ⟨low, left⟩ := found
          simp only [ok_bind]
          split
          · refine Gives.ok ⟨1, fun steps => ?_⟩
            rw [skipStringBody_fourDigits hfirst, skipStringBody_fourDigits hsecond]
          · exact Gives.error _ _
      · exact Gives.error _ _
      · exact Gives.error _ _
    · exact Gives.ok ⟨0, fun steps => skipStringBody_fourDigits hfirst steps⟩

theorem gives_escape (cs : List Char) :
    Gives (escape cs) fun found => ∃ n, ∀ steps,
      skipStringBody (steps + n + 1) ('\\' :: cs) = skipStringBody steps found.2 := by
  cases cs with
  | nil => exact Gives.error _ _
  | cons c rest =>
    rw [escape]
    by_cases hcode : c = 'u'
    · rw [if_pos hcode, hcode]
      exact gives_codeEscape rest
    · rw [if_neg hcode]
      cases hletter : escapeLetter? c with
      | none => exact Gives.error _ _
      | some d =>
        refine Gives.ok ⟨0, fun steps => ?_⟩
        rw [Nat.add_zero, skipStringBody, if_neg (by decide), if_pos rfl, skipEscape,
          if_neg hcode, hletter]
        rfl

/-- A string that is read ends where passing over it ends, given steps enough. -/
theorem gives_stringBody (steps : Nat) (cs : List Char) :
    Gives (stringBody steps cs) fun found => ∃ n, ∀ more,
      skipStringBody (more + n) cs = .ok ((), found.2) := by
  -- the steps that passing over needs add up over the characters
  induction steps generalizing cs with
  | zero => exact Gives.error _ _
  | succ steps ih =>
    cases cs with
    | nil => exact Gives.error _ _
    | cons c rest =>
      rw [stringBody]
      by_cases hquote : c = '"'
      · rw [if_pos hquote]
        exact Gives.ok ⟨1, fun more => by rw [skipStringBody, if_pos hquote]⟩
      · rw [if_neg hquote]
        by_cases hslash : c = '\\'
        · rw [if_pos hslash, hslash]
          refine (gives_escape rest).bind ?_
          rintro ⟨d, rest'⟩ ⟨n, hskip⟩
          refine (ih rest').bind ?_
          rintro ⟨ds, left⟩ ⟨m, hrest⟩
          refine Gives.ok ⟨m + n + 1, fun more => ?_⟩
          rw [← Nat.add_assoc, ← Nat.add_assoc, hskip, hrest]
        · rw [if_neg hslash]
          split
          · exact Gives.error _ _
          · next hcontrol =>
            refine (ih rest).bind ?_
            rintro ⟨ds, left⟩ ⟨m, hrest⟩
            refine Gives.ok ⟨m + 1, fun more => ?_⟩
            rw [← Nat.add_assoc, skipStringBody, if_neg hquote, if_neg hslash, if_neg hcontrol,
              hrest]

/-- A string is read to its end, if it can be. -/
theorem IsString.keepsTo {text : List Char} (h : IsString text) :
    ∃ body, text = '"' :: body ∧
      ∀ rest, Gives (stringAfterQuote (body ++ rest)) fun found => found.2 = rest := by
  obtain @⟨pieces, h⟩ := h
  refine ⟨pieces.flatten ++ ['"'], rfl, fun rest => ?_⟩
  rw [List.append_assoc, List.singleton_append, stringAfterQuote]
  refine (gives_stringBody _ _).map fun found hskip => ?_
  obtain ⟨n, hskip⟩ := hskip
  have hpass := skipStringBody_pieces h (pieces.length + 1 + n) (by omega) rest
  rw [hskip] at hpass
  exact (Prod.mk.inj (Except.ok.inj hpass)).2

/-- A text holds a key that has a property, if it can be read, a colon and the text of a value. -/
def HoldsKey (text : List Char) (p : String → Prop) (valueText : List Char) : Prop :=
  ∃ body, skipBlanks text = '"' :: body ∧ ∀ more, Gives (stringAfterQuote (body ++ more))
    fun found => p found.1 ∧ colon found.2 = .ok ((), valueText ++ more)

theorem MemberText.holdsKey {text : List Char} {key : String} {valueText : List Char}
    (h : MemberText text key valueText) : HoldsKey text (key = ·) valueText := by
  obtain ⟨after, ⟨body, hskip, hread⟩, hcolon⟩ := h
  refine ⟨body, hskip, fun more => ?_⟩
  rw [hread]
  exact Gives.ok ⟨rfl, colon_append hcolon more⟩

theorem IsKey.holdsKey {key : List Char} (h : IsKey key) (valueText : List Char) :
    HoldsKey (key ++ ':' :: valueText) (fun _ => True) valueText := by
  obtain @⟨before, core, after, hbefore, hstring, hafter⟩ := h
  obtain ⟨body, rfl, hread⟩ := hstring.keepsTo
  refine ⟨body ++ (after ++ ':' :: valueText), ?_, fun more => ?_⟩
  · rw [List.append_assoc, List.append_assoc, hbefore.skip, List.cons_append]
    exact skipBlanks_cons _ (by decide)
  · rw [List.append_assoc]
    refine (hread _).mono fun found hleft => ⟨trivial, ?_⟩
    rw [hleft]
    exact colon_append ((hafter.skip _).trans (skipBlanks_cons valueText (by decide))) more

theorem HoldsKey.nextKey {text valueText : List Char} {p : String → Prop}
    (h : HoldsKey text p valueText) (first : Bool) (ts : List (List Char)) (close : List Char) :
    Gives (nextKey first (joined first (text :: ts) ++ close)) fun found =>
      ∃ key, found.1 = some key ∧ p key ∧
        colon found.2 = .ok ((), valueText ++ (joined false ts ++ close)) := by
  obtain ⟨body, hskip, hread⟩ := h
  have hmore := skipBlanks_append hskip (joined false ts ++ close)
  have hkey := hread (joined false ts ++ close)
  cases first with
  | true =>
    rw [joined_true_cons, List.append_assoc, Json.nextKey, hmore]
    simp only [if_neg (show ¬ '"' = '}' by decide), if_true]
    exact hkey.map fun found hfound => ⟨found.1, rfl, hfound⟩
  | false =>
    rw [joined_false_cons, List.append_assoc, List.cons_append, Json.nextKey,
      skipBlanks_cons _ (by decide)]
    simp only [hmore, reduceCtorEq, if_neg (show ¬ ',' = '}' by decide), if_true, if_false]
    exact hkey.map fun found hfound => ⟨found.1, rfl, hfound⟩

/-! ## What a text begins with -/

/-- To keep to a text is to keep to what stands between the blanks around it. -/
theorem IsText.keepsTo {cs : List Char} (h : IsText cs) (hblanks : PassesBlanks reader)
    (hcore : ∀ core, IsCore core → KeepsTo reader core) : KeepsTo reader cs := by
  obtain ⟨core, hvalue, hpadded⟩ := h.core
  exact (hcore core hvalue).padded hblanks hpadded

theorem not_isNumber {c : Char} {cs : List Char} (hminus : c ≠ '-')
    (hdigit : Text.isDigit c = false) : ¬IsNumber (c :: cs) := by
  intro h
  obtain ⟨d, ds, heq, hd⟩ := h.begins
  obtain ⟨rfl, -⟩ := List.cons.inj heq
  rcases hd with rfl | hd
  · exact hminus rfl
  · exact absurd hd (by simp [hdigit])

theorem isString_of_isCore {cs : List Char} (h : IsCore ('"' :: cs)) : IsString ('"' :: cs) := by
  cases h with
  | string h => exact h
  | number h => exact absurd h (not_isNumber (by decide) (by decide))

theorem isNumber_of_isCore {c : Char} {cs : List Char} (h : IsCore (c :: cs))
    (hc : beginsNumber c = true) : IsNumber (c :: cs) := by
  cases h with
  | number h => exact h
  | string h =>
    cases h
    exact absurd hc (by decide)
  | _ => exact absurd hc (by decide)

theorem eq_null_of_isCore {cs : List Char} (h : IsCore ('n' :: cs)) : cs = ['u', 'l', 'l'] := by
  generalize htext : 'n' :: cs = text at h
  cases h with
  | null => exact (List.cons.inj htext).2
  | number h => exact absurd (htext ▸ h) (not_isNumber (by decide) (by decide))
  | string h =>
    cases h
    cases htext
  | _ => cases htext

theorem items_of_isCore {cs : List Char} (h : IsCore ('[' :: cs)) :
    ∃ items blanks, (∀ item ∈ items, IsText item) ∧ AreBlanks blanks ∧
      cs = joined true items ++ blanks ++ [']'] := by
  cases h with
  | array hitems hblanks => exact ⟨_, _, hitems, hblanks, rfl⟩
  | number h => exact absurd h (not_isNumber (by decide) (by decide))
  | string h => cases h

theorem members_of_isCore {cs : List Char} (h : IsCore ('{' :: cs)) :
    ∃ (members : List (List Char × List Char)) (blanks : List Char),
      (∀ m ∈ members, IsKey m.1 ∧ IsText m.2) ∧ AreBlanks blanks ∧
      cs = joined true (members.map fun m => m.1 ++ ':' :: m.2) ++ blanks ++ ['}'] := by
  cases h with
  | object hkeys hvalues hblanks =>
    exact ⟨_, _, fun m hm => ⟨hkeys m hm, hvalues m hm⟩, hblanks, rfl⟩
  | number h => exact absurd h (not_isNumber (by decide) (by decide))
  | string h => cases h

/-! ## Values of one kind -/

theorem keepsTo_readStringAs {t : List Char} (h : IsText t) (expected : String) (depth : Nat) :
    KeepsTo (readStringAs expected depth) t := by
  refine h.keepsTo (passesBlanks_readStringAs expected depth) fun core hcore rest hrest => ?_
  obtain ⟨c, cs, rfl, hblank, -⟩ := begins_of_isCore hcore
  rw [List.cons_append, readStringAs, skipBlanks_cons _ hblank]
  split
  · exact Gives.error _ _
  · next heq =>
    obtain ⟨rfl, rfl⟩ := List.cons.inj heq
    obtain ⟨body, hbody, hread⟩ := (isString_of_isCore hcore).keepsTo
    rw [(List.cons.inj hbody).2]
    exact (hread rest).mono fun _ hleft => .of_eq hleft hrest
  · exact gives_refuse _ _ _

theorem keepsTo_namedValue {t : List Char} (h : IsText t) (names : List (String × α))
    (depth : Nat) : KeepsTo (namedValue names depth) t := by
  intro rest hrest
  refine (keepsTo_readStringAs h _ depth rest hrest).bind ?_
  rintro ⟨name, left⟩ hleft
  dsimp only
  split
  · exact Gives.ok hleft
  · exact Gives.error _ _

theorem keepsTo_readNull {t : List Char} (h : IsText t) (depth : Nat) :
    KeepsTo (readNull depth) t := by
  have hblanks : PassesBlanks (readNull depth) := by
    intro cs
    simp only [readNull, skipBlanks_skipBlanks]
  refine h.keepsTo hblanks fun core hcore rest hrest => ?_
  obtain ⟨c, cs, rfl, hblank, -⟩ := begins_of_isCore hcore
  rw [List.cons_append, readNull, skipBlanks_cons _ hblank]
  split
  · exact Gives.error _ _
  · next heq =>
    obtain ⟨rfl, rfl⟩ := List.cons.inj heq
    rw [eq_null_of_isCore hcore]
    exact Gives.ok (.refl hrest)
  · exact gives_refuse _ _ _

theorem keepsTo_readInteger {t : List Char} (h : IsText t) (expected : String) (low high : Int)
    (depth : Nat) : KeepsTo (readInteger expected low high depth) t := by
  refine h.keepsTo (passesBlanks_readInteger expected low high depth)
    fun core hcore rest hrest => ?_
  obtain ⟨c, cs, rfl, hblank, -⟩ := begins_of_isCore hcore
  rw [List.cons_append, readInteger, skipBlanks_cons _ hblank]
  dsimp only
  split
  · next hc =>
    have hnumber := keepsTo_numeral (isNumber_of_isCore hcore hc) rest hrest
    refine hnumber.bind ?_
    rintro ⟨n, left⟩ hleft
    dsimp only
    split
    · split
      · exact Gives.ok hleft
      · exact Gives.error _ _
    · exact Gives.error _ _
  · exact gives_refuse _ _ _

/-! ## Containers -/

/-- What is read of items does not depend on the blanks before them. -/
theorem gives_items_congr {item : Scan α} {steps : Nat} {first : Bool} {cs ds : List Char}
    {p : List α × List Char → Prop} (hskip : skipBlanks cs = skipBlanks ds)
    (h : Gives (items item steps first ds) p) : Gives (items item steps first cs) p := by
  cases steps with
  | zero => exact Gives.error _ _
  | succ n => rwa [items_congr item n.succ_pos first hskip]

/-- Items are read up to the bracket behind them, each from its text. -/
theorem gives_items {item : Scan α} {texts : List (List Char)} (hblanks : PassesBlanks item)
    (htexts : ∀ t ∈ texts, IsText t ∧ KeepsTo item t) (steps : Nat) (first : Bool)
    {close rest : List Char} (hclose : Closes ']' close rest) :
    Gives (items item steps first (joined first texts ++ close)) fun found =>
      List.Forall₂ (FoundIn item) texts found.1 ∧ found.2 = ']' :: rest := by
  induction steps generalizing texts first with
  | zero => exact Gives.error _ _
  | succ n ih =>
    cases texts with
    | nil =>
      show Gives (items item (n + 1) first close) _
      rw [items, nextItem_close first hclose]
      exact Gives.ok ⟨.nil, rfl⟩
    | cons t ts =>
      obtain ⟨⟨htext, hitem⟩, hmore⟩ := List.forall_mem_cons.mp htexts
      have hfirst := hitem.gives (stops_joined ts (hclose.stops (.inl rfl)))
      rw [items, nextItem_joined first _ close htext.beginsItem]
      simp only [ok_bind, if_true, hblanks.item htext.beginsItem]
      refine hfirst.bind ?_
      rintro ⟨value, left⟩ hfound
      have hrest := gives_items_congr hfound.2.skip (ih hmore false)
      exact hrest.bind fun _ hvalues => Gives.ok ⟨.cons hfound.1 hvalues.1, hvalues.2⟩

theorem gives_members_congr {value : Scan α} {steps : Nat} {first : Bool} {cs ds : List Char}
    {p : List (String × α) × List Char → Prop} (hskip : skipBlanks cs = skipBlanks ds)
    (h : Gives (members value steps first ds) p) : Gives (members value steps first cs) p := by
  cases steps with
  | zero => exact Gives.error _ _
  | succ n => rwa [members_congr value n.succ_pos first hskip]

/-- Members are read up to the brace behind them, each from its text. -/
theorem gives_members {ι : Type} {key : ι → String → Prop} {valueText : ι → List Char}
    {value : Scan α} {written : List ι} {texts : List (List Char)}
    (htexts : List.Forall₂ (fun i text => HoldsKey text (key i) (valueText i)) written texts)
    (hvalues : ∀ i ∈ written, KeepsTo value (valueText i)) (steps : Nat) (first : Bool)
    {close rest : List Char} (hclose : Closes '}' close rest) :
    Gives (members value steps first (joined first texts ++ close)) fun found =>
      List.Forall₂ (fun i m => key i m.1 ∧ FoundIn value (valueText i) m.2) written found.1 ∧
        found.2 = '}' :: rest := by
  induction steps generalizing written texts first with
  | zero => exact Gives.error _ _
  | succ n ih =>
    cases htexts with
    | nil =>
      show Gives (members value (n + 1) first close) _
      rw [members, nextKey_close first hclose]
      exact Gives.ok ⟨.nil, rfl⟩
    | @cons i text written texts hkey htexts =>
      obtain ⟨hvalue, hmore⟩ := List.forall_mem_cons.mp hvalues
      rw [members]
      refine (hkey.nextKey first texts close).bind ?_
      rintro ⟨_, after⟩ ⟨k, rfl, hk, hcolon⟩
      simp only [hcolon, ok_bind]
      refine (hvalue.gives (stops_joined texts (hclose.stops (.inr rfl)))).bind ?_
      rintro ⟨v, left⟩ ⟨hfound, hleft⟩
      have hrest := gives_members_congr hleft.skip (ih htexts hmore false)
      exact hrest.bind fun _ hothers => Gives.ok ⟨.cons ⟨hk, hfound⟩ hothers.1, hothers.2⟩

/-- What stands between brackets is read with the closing one. -/
theorem gives_enclosed {close : Scan Unit} {inner : Scan α} {p : α → Prop} {cs rest : List Char}
    {bracket : Char} (hclose : close (bracket :: rest) = .ok ((), rest))
    (h : Gives (inner cs) fun found => p found.1 ∧ found.2 = bracket :: rest) :
    Gives (enclosed close inner cs) fun found => p found.1 ∧ found.2 = rest := by
  rw [enclosed]
  cases hinner : inner cs with
  | error fault => exact Gives.error _ _
  | ok found =>
    obtain ⟨hvalue, hleft⟩ := h found hinner
    simp only [hleft, hclose, map_ok]
    exact Gives.ok ⟨hvalue, rfl⟩

/-- Behind its bracket a container is read with the closing one, if it may be entered. -/
theorem gives_enter {close : Scan Unit} {inner : Reader α} {p : α → Prop} {cs rest : List Char}
    {bracket : Char} (hclose : close (bracket :: rest) = .ok ((), rest))
    (h : ∀ d, Gives (inner d cs) fun found => p found.1 ∧ found.2 = bracket :: rest)
    (opening : Char) (depth : Nat) :
    Gives (enter close inner depth (opening :: cs)) fun found => p found.1 ∧ found.2 = rest := by
  cases depth with
  | zero => exact Gives.error _ _
  | succ d => exact gives_enclosed hclose (h d)

theorem gives_enter_left {close : Scan Unit} {inner : Reader α} {cs rest : List Char}
    {bracket : Char} (hclose : close (bracket :: rest) = .ok ((), rest))
    (h : ∀ d, Gives (inner d cs) fun found => found.2 = bracket :: rest)
    (opening : Char) (depth : Nat) :
    Gives (enter close inner depth (opening :: cs)) fun found => found.2 = rest := by
  have hinner : ∀ d, Gives (inner d cs) fun found => True ∧ found.2 = bracket :: rest := fun d =>
    (h d).mono fun _ hleft => ⟨trivial, hleft⟩
  exact (gives_enter (p := fun _ => True) hclose hinner opening depth).mono fun _ hfound => hfound.2

/-- The keys of an object that stand before colons are held by its members. -/
theorem holdsKeys {written : List (List Char × List Char)} (hkeys : ∀ m ∈ written, IsKey m.1) :
    List.Forall₂ (fun m text => HoldsKey text (fun _ => True) m.2) written
      (written.map fun m => m.1 ++ ':' :: m.2) := by
  rw [List.forall₂_map_right_iff, List.forall₂_same]
  exact fun m hm => (hkeys m hm).holdsKey m.2

/-! ## Any value -/

theorem keepsTo_anyValue {t : List Char} (h : IsText t) (depth : Nat) :
    KeepsTo (anyValue depth) t := by
  -- what an array or object holds is read with one container less
  induction depth using Nat.strong_induction_on generalizing t with
  | _ depth ih =>
    refine h.keepsTo (passesBlanks_anyValue depth) fun core hcore rest hrest => ?_
    cases hcore with
    | null => cases depth <;> exact Gives.ok (.refl hrest)
    | true => cases depth <;> exact Gives.ok (.refl hrest)
    | false => cases depth <;> exact Gives.ok (.refl hrest)
    | number h =>
      have hread := keepsTo_numeral h rest hrest
      obtain ⟨c, cs, rfl, hc⟩ := h.begins
      rw [List.cons_append] at hread ⊢
      rw [anyValue_of_begins depth _ hc]
      exact hread.map fun _ => id
    | string h =>
      obtain ⟨body, rfl, hread⟩ := h.keepsTo
      rw [List.cons_append, anyValue_scalar depth _ (by decide) (by decide) (by decide), scalar]
      exact (hread rest).map fun _ hleft => .of_eq hleft hrest
    | @array items blanks hitems hblanks =>
      cases depth with
      | zero => exact Gives.error _ _
      | succ d =>
        have hall : ∀ t ∈ items, IsText t ∧ KeepsTo (anyValue d) t := fun t ht =>
          ⟨hitems t ht, ih d d.lt_succ_self (hitems t ht)⟩
        simp only [List.append_assoc, List.cons_append, List.nil_append]
        rw [anyValue, skipBlanks_cons _ (by decide)]
        have hread := fun steps => gives_enclosed (closeArray_bracket rest)
          (gives_items (passesBlanks_anyValue d) hall steps true (hblanks.closes (.inl rfl) rest))
        exact (hread _).map fun _ hfound => .of_eq hfound.2 hrest
    | @object written blanks hkeys hvalues hblanks =>
      cases depth with
      | zero => exact Gives.error _ _
      | succ d =>
        have hall : ∀ m ∈ written, KeepsTo (anyValue d) m.2 := fun m hm =>
          ih d d.lt_succ_self (hvalues m hm)
        simp only [List.append_assoc, List.cons_append, List.nil_append]
        rw [anyValue, skipBlanks_cons _ (by decide)]
        have hread := fun steps => gives_enclosed (closeObject_bracket rest)
          (gives_members (holdsKeys hkeys) hall steps true (hblanks.closes (.inr rfl) rest))
        exact (hread _).map fun _ hfound => .of_eq hfound.2 hrest

/-! ## Names and lists -/

theorem IsKey.isText {key : List Char} (h : IsKey key) : IsText key := by
  obtain ⟨hbefore, hstring, hafter⟩ := h
  exact .padded hbefore (.string hstring) hafter

theorem stops_colon (rest : List Char) : Stops (':' :: rest) :=
  ⟨by decide, by decide, by decide, by decide⟩

/-- At the end of an object there is no name. -/
theorem gives_namedValue_brace {cs rest : List Char} (h : Closes '}' cs rest)
    (names : List (String × α)) (depth : Nat) :
    Gives (namedValue names depth cs) fun _ => False := by
  have hrefused : Gives (readStringAs "variant identifier" depth cs) fun _ => False := by
    rw [readStringAs, h]
    exact gives_refuse _ _ _
  exact hrefused.bind fun _ => False.elim

/-- A name stands in quotes, or as the only key of an object. -/
theorem keepsTo_readName {t : List Char} (h : IsText t) (names : List (String × α))
    (depth : Nat) : KeepsTo (readName names depth) t := by
  refine h.keepsTo (passesBlanks_readName names depth) fun core hcore rest hrest => ?_
  obtain ⟨c, cs, rfl, hblank, -⟩ := begins_of_isCore hcore
  rw [List.cons_append, readName, skipBlanks_cons _ hblank]
  split
  · exact Gives.error _ _
  · next heq =>
    obtain ⟨rfl, rfl⟩ := List.cons.inj heq
    exact keepsTo_namedValue (.string (isString_of_isCore hcore)) names depth rest hrest
  · next heq =>
    obtain ⟨rfl, rfl⟩ := List.cons.inj heq
    obtain ⟨members, blanks, hmembers, hblanks, rfl⟩ := members_of_isCore hcore
    have hclose := hblanks.closes (.inr (rfl : '}' = '}')) rest
    rw [List.append_assoc, List.append_assoc, List.singleton_append]
    split
    · exact Gives.error _ _
    · next d =>
      cases members with
      -- an object without a member has no name to give
      | nil => exact (gives_namedValue_brace hclose names d).bind fun _ => False.elim
      | cons m ms =>
        obtain ⟨⟨hkey, hvalue⟩, -⟩ := List.forall_mem_cons.mp hmembers
        have hstops := stops_joined (ms.map fun m => m.1 ++ ':' :: m.2) (hclose.stops (.inr rfl))
        rw [List.map_cons, joined_true_cons, List.append_assoc, List.append_assoc,
          List.cons_append]
        refine (keepsTo_namedValue hkey.isText names d _ (stops_colon _)).bind ?_
        rintro ⟨value, left⟩ hleft
        have hcolon := colon_of_skip (hleft.skip.trans (skipBlanks_cons _ (by decide)))
        simp only [hcolon, ok_bind]
        refine (keepsTo_readNull hvalue d _ hstops).bind ?_
        rintro ⟨_, left⟩ hleft
        dsimp only
        rw [hleft.skip]
        cases ms with
        | nil =>
          have hend : skipBlanks (joined false [] ++ (blanks ++ '}' :: rest)) = '}' :: rest :=
            hclose
          simp only [List.map_nil, hend]
          exact Gives.ok (.refl hrest)
        -- behind the only key comes the end of the object
        | cons n ms => exact Gives.error _ _
  · exact Gives.error _ _

/-- Behind the bracket of a list come its items. -/
theorem gives_readList {item : Reader α} {texts : List (List Char)}
    (hblanks : ∀ depth, PassesBlanks (item depth))
    (htexts : ∀ t ∈ texts, IsText t ∧ ∀ depth, KeepsTo (item depth) t) {blanks : List Char}
    (hend : AreBlanks blanks) (depth : Nat) (rest : List Char) :
    Gives (readList item depth ('[' :: (joined true texts ++ blanks ++ [']']) ++ rest)) fun found =>
      (∃ d, List.Forall₂ (FoundIn (item d)) texts found.1) ∧ found.2 = rest := by
  simp only [List.append_assoc, List.cons_append, List.nil_append]
  rw [readList, skipBlanks_cons _ (by decide)]
  refine gives_enter (p := fun values => ∃ d, List.Forall₂ (FoundIn (item d)) texts values)
    (closeArray_bracket rest) (fun d => ?_) '[' depth
  have hall : ∀ t ∈ texts, IsText t ∧ KeepsTo (item d) t := fun t ht =>
    ⟨(htexts t ht).1, (htexts t ht).2 d⟩
  refine (gives_items (hblanks d) hall _ true (hend.closes (.inl rfl) rest)).mono ?_
  exact fun found hfound => ⟨⟨d, hfound.1⟩, hfound.2⟩

theorem keepsTo_readList {item : Reader α} (hblanks : ∀ depth, PassesBlanks (item depth))
    (hitem : ∀ t, IsText t → ∀ depth, KeepsTo (item depth) t) {t : List Char} (h : IsText t)
    (depth : Nat) : KeepsTo (readList item depth) t := by
  refine h.keepsTo (passesBlanks_readList item depth) fun core hcore rest hrest => ?_
  obtain ⟨c, cs, rfl, hblank, -⟩ := begins_of_isCore hcore
  by_cases hc : c = '['
  · subst hc
    obtain ⟨texts, blanks, htexts, hend, rfl⟩ := items_of_isCore hcore
    have hall : ∀ t ∈ texts, IsText t ∧ ∀ depth, KeepsTo (item depth) t := fun t ht =>
      ⟨htexts t ht, hitem t (htexts t ht)⟩
    have hread := gives_readList hblanks hall hend depth rest
    exact hread.mono fun _ hfound => .of_eq hfound.2 hrest
  · rw [List.cons_append, readList, skipBlanks_cons _ hblank]
    split
    · exact Gives.error _ _
    · next heq => exact absurd (List.cons.inj heq).1 hc
    · exact gives_refuse _ _ _

/-- The values of a list that is read from an array are found in the texts of its items. -/
theorem FoundIn.items {item : Reader α} (hblanks : ∀ depth, PassesBlanks (item depth))
    (hitem : ∀ t, IsText t → ∀ depth, KeepsTo (item depth) t) {texts : List (List Char)}
    (htexts : ∀ t ∈ texts, IsText t) {t : List Char} (harray : IsArrayOf texts t) {depth : Nat}
    {values : List α} (h : FoundIn (readList item depth) t values) :
    ∃ d, List.Forall₂ (FoundIn (item d)) texts values := by
  obtain ⟨hend, hpadded⟩ := harray
  obtain ⟨rest, left, -, hread⟩ := h.core (passesBlanks_readList item depth) hpadded
  have hall : ∀ t ∈ texts, IsText t ∧ ∀ depth, KeepsTo (item depth) t := fun t ht =>
    ⟨htexts t ht, hitem t (htexts t ht)⟩
  exact (gives_readList hblanks hall hend depth rest _ hread).1

end SessionArchive.Json
