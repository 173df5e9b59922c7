import SessionArchive.Json.Skip
import SessionArchive.Proofs.Json.Meaning

/-!
# Passing over a text

Blanks around a text change nothing for a reader that passes over blanks (`Takes.padded`). A value
that no field wants is passed over without being built, and every JSON text is: however deep it
nests, whatever its numbers are and whatever half characters stand in its strings
(`takes_skipValue`).
-/

set_option autoImplicit false

namespace SessionArchive.Json

variable {α : Type} {reader : Scan α} {value : α}

/-! ## Blanks around a text -/

theorem AreBlanks.skip {blanks : List Char} (h : AreBlanks blanks) (cs : List Char) :
    skipBlanks (blanks ++ cs) = skipBlanks cs :=
  List.dropWhile_append_of_pos h

theorem stops_of_isBlank {c : Char} (h : isBlank c = true) (cs : List Char) : Stops (c :: cs) := by
  simp only [isBlank, Bool.or_eq_true, beq_iff_eq] at h
  rcases h with ((rfl | rfl) | rfl) | rfl <;> exact ⟨by decide, by decide, by decide, by decide⟩

theorem AreBlanks.resumes {blanks rest : List Char} (h : AreBlanks blanks) (hrest : Stops rest) :
    Resumes (blanks ++ rest) rest := by
  refine ⟨?_, h.skip rest⟩
  cases blanks with
  | nil => exact hrest
  | cons c blanks => exact stops_of_isBlank (h c List.mem_cons_self) _

/-- Blanks before a bracket do not keep it from closing. -/
theorem AreBlanks.closes {blanks : List Char} (h : AreBlanks blanks) {bracket : Char}
    (hb : bracket = ']' ∨ bracket = '}') (rest : List Char) :
    Closes bracket (blanks ++ bracket :: rest) rest :=
  (h.skip _).trans (closes_self rest hb)

/-- A reader passes over blanks before what it reads. -/
def PassesBlanks (reader : Scan α) : Prop := ∀ cs, reader (skipBlanks cs) = reader cs

theorem PassesBlanks.congr (h : PassesBlanks reader) {cs ds : List Char}
    (heq : skipBlanks cs = skipBlanks ds) : reader cs = reader ds := by
  rw [← h cs, heq, h ds]

theorem passesBlanks_skipNested (depth : Nat) : PassesBlanks (skipNested (depth + 1)) := by
  intro cs
  rw [skipNested, skipNested, skipBlanks_skipBlanks]

/-- Blanks before the first of some members are passed over once more. -/
theorem skipMembers_skipBlanks (skip : Scan Unit) (steps : Nat) (cs : List Char) :
    skipMembers skip (steps + 1) (skipBlanks cs) = skipMembers skip (steps + 1) cs := by
  rw [skipMembers, skipMembers, skipBlanks_skipBlanks]

/-- Blanks around a text are passed over before it and left behind it. -/
theorem PassesBlanks.padded (h : PassesBlanks reader) {before after : List Char}
    (hbefore : AreBlanks before) (core rest : List Char) :
    reader (before ++ core ++ after ++ rest) = reader (core ++ (after ++ rest)) := by
  rw [List.append_assoc, List.append_assoc]
  exact h.congr (hbefore.skip _)

/-- It does not matter whether the blanks before an item were passed over. -/
theorem PassesBlanks.item (h : PassesBlanks reader) {text : List Char} (hbegins : BeginsItem text)
    (rest : List Char) : reader (skipBlanks text ++ rest) = reader (text ++ rest) := by
  obtain ⟨c, cs, hskip, -⟩ := hbegins
  rw [hskip, List.cons_append, ← skipBlanks_append hskip rest, h]

/-- Blanks around a text are passed over with it. -/
theorem Takes.padded {core cs : List Char} (h : Takes reader core value)
    (hblanks : PassesBlanks reader) (hpadded : IsPadded core cs) : Takes reader cs value := by
  obtain @⟨before, after, hbefore, hafter⟩ := hpadded
  intro rest hrest
  have hresumes := hafter.resumes hrest
  obtain ⟨left, hleft, hread⟩ := h _ hresumes.stops
  refine ⟨left, hleft.trans hresumes, ?_⟩
  rw [hblanks.padded hbefore, hread]

theorem Takes.skip {text : List Char} (h : Takes reader text value)
    (hblanks : PassesBlanks reader) (hbegins : BeginsItem text) :
    Takes reader (skipBlanks text) value := by
  intro rest hrest
  obtain ⟨left, hleft, hread⟩ := h rest hrest
  refine ⟨left, hleft, ?_⟩
  rw [hblanks.item hbegins, hread]

/-! ## Texts without blanks around them -/

/-- The text of one value without blanks around it. -/
inductive IsCore : List Char → Prop
  | null : IsCore ['n', 'u', 'l', 'l']
  | true : IsCore ['t', 'r', 'u', 'e']
  | false : IsCore ['f', 'a', 'l', 's', 'e']
  | number {cs : List Char} (h : IsNumber cs) : IsCore cs
  | string {cs : List Char} (h : IsString cs) : IsCore cs
  | array {items : List (List Char)} {blanks : List Char} (hitems : ∀ item ∈ items, IsText item)
      (hblanks : AreBlanks blanks) : IsCore ('[' :: (joined true items ++ blanks ++ [']']))
  | object {members : List (List Char × List Char)} {blanks : List Char}
      (hkeys : ∀ m ∈ members, IsKey m.1) (hvalues : ∀ m ∈ members, IsText m.2)
      (hblanks : AreBlanks blanks) :
      IsCore ('{' :: (joined true (members.map fun m => m.1 ++ ':' :: m.2) ++ blanks ++ ['}']))

theorem IsText.core {cs : List Char} (h : IsText cs) : ∃ core, IsCore core ∧ IsPadded core cs := by
  induction h with
  | null => exact ⟨_, .null, isPadded_self _⟩
  | true => exact ⟨_, .true, isPadded_self _⟩
  | false => exact ⟨_, .false, isPadded_self _⟩
  | number h => exact ⟨_, .number h, isPadded_self _⟩
  | string h => exact ⟨_, .string h, isPadded_self _⟩
  | array hitems hblanks => exact ⟨_, .array hitems hblanks, isPadded_self _⟩
  | object hkeys hvalues hblanks => exact ⟨_, .object hkeys hvalues hblanks, isPadded_self _⟩
  | padded hbefore _ hafter ih =>
    obtain ⟨core, hcore, hpadded⟩ := ih
    exact ⟨core, hcore, hpadded.padded hbefore hafter⟩

theorem IsWhole.begins {cs : List Char} (h : IsWhole cs) :
    ∃ c ds, cs = c :: ds ∧ Text.isDigit c = true ∧ ∀ d ∈ ds, Text.isDigit d = true := by
  obtain ⟨⟨hne, hall⟩, -⟩ := h
  cases cs with
  | nil => exact absurd rfl hne
  | cons c ds =>
    obtain ⟨hc, hds⟩ := List.forall_mem_cons.mp hall
    exact ⟨c, ds, rfl, hc, hds⟩

theorem IsUnsigned.begins {cs : List Char} (h : IsUnsigned cs) :
    ∃ c ds, cs = c :: ds ∧ Text.isDigit c = true := by
  obtain ⟨hwhole, -, -⟩ := h
  obtain ⟨c, ds, rfl, hc, -⟩ := hwhole.begins
  exact ⟨c, _, rfl, hc⟩

theorem IsNumber.begins {cs : List Char} (h : IsNumber cs) :
    ∃ c ds, cs = c :: ds ∧ (c = '-' ∨ Text.isDigit c = true) := by
  cases h with
  | positive h =>
    obtain ⟨c, ds, htext, hc⟩ := h.begins
    exact ⟨c, ds, htext, .inr hc⟩
  | negative h => exact ⟨'-', _, rfl, .inl rfl⟩

theorem begins_of_isCore {core : List Char} (h : IsCore core) :
    ∃ c cs, core = c :: cs ∧ isBlank c = false ∧ c ≠ ']' := by
  cases h with
  | null => exact ⟨_, _, rfl, by decide, by decide⟩
  | true => exact ⟨_, _, rfl, by decide, by decide⟩
  | false => exact ⟨_, _, rfl, by decide, by decide⟩
  | number h =>
    obtain ⟨c, cs, htext, hc⟩ := h.begins
    obtain ⟨hblank, -, hbracket, -⟩ := plain_of_begins hc
    exact ⟨c, cs, htext, hblank, hbracket⟩
  | string h =>
    obtain ⟨h⟩ := h
    exact ⟨_, _, rfl, by decide, by decide⟩
  | array _ _ => exact ⟨_, _, rfl, by decide, by decide⟩
  | object _ _ _ => exact ⟨_, _, rfl, by decide, by decide⟩

theorem IsText.beginsItem {cs : List Char} (h : IsText cs) : BeginsItem cs := by
  obtain ⟨core, hcore, hpadded⟩ := h.core
  obtain @⟨before, after, hbefore, -⟩ := hpadded
  obtain ⟨c, ds, rfl, hblank, hbracket⟩ := begins_of_isCore hcore
  refine ⟨c, ds ++ after, ?_, hbracket⟩
  rw [List.append_assoc, hbefore.skip, List.cons_append]
  exact skipBlanks_cons _ hblank

theorem IsText.ne_nil {cs : List Char} (h : IsText cs) : cs ≠ [] := h.beginsItem.ne_nil

/-! ## Numbers -/

theorem dropWhile_digits {ds rest : List Char} (hds : ∀ d ∈ ds, Text.isDigit d = true)
    (hrest : ∀ c ∈ rest.head?, Text.isDigit c = false) :
    (ds ++ rest).dropWhile Text.isDigit = rest :=
  (List.dropWhile_append_of_pos hds).trans (takeWhile_of_not_digit hrest).2

theorem skipExponent_digits {sign ds rest : List Char}
    (hsign : sign = [] ∨ sign = ['+'] ∨ sign = ['-']) (hds : IsDigits ds) (hrest : Stops rest) :
    skipExponent (sign ++ ds ++ rest) = .ok ((), rest) := by
  obtain ⟨hne, hall⟩ := hds
  cases ds with
  | nil => exact absurd rfl hne
  | cons d ds =>
    obtain ⟨hd, hds⟩ := List.forall_mem_cons.mp hall
    have hskip : (if Text.isDigit d = true then
        (.ok ((), (ds ++ rest).dropWhile Text.isDigit) : Except Fault (Unit × List Char))
        else failNext .invalidNumber (d :: (ds ++ rest))) = .ok ((), rest) := by
      rw [if_pos hd, dropWhile_digits hds hrest.head_not_digit]
    -- where no sign stands in front, the first digit is not taken for one
    rcases hsign with rfl | rfl | rfl
    · rw [List.nil_append, List.cons_append, skipExponent, hskip]
      · rintro more heq
        exact absurd hd ((List.cons.inj heq).1 ▸ by decide)
      · rintro more heq
        exact absurd hd ((List.cons.inj heq).1 ▸ by decide)
    · exact hskip
    · exact hskip

theorem skipScale_of_stops {rest : List Char} (h : Stops rest) :
    skipScale rest = .ok ((), rest) := by
  cases rest with
  | nil => rfl
  | cons c rest =>
    obtain ⟨-, -, he, hE⟩ := h
    rw [skipScale, if_neg (not_or.mpr ⟨he, hE⟩)]

theorem IsExponent.skip {exponent rest : List Char} (h : IsExponent exponent)
    (hrest : Stops rest) : skipScale (exponent ++ rest) = .ok ((), rest) := by
  cases h with
  | absent => exact skipScale_of_stops hrest
  | digits hmark hsign hds =>
    rw [List.cons_append, skipScale, if_pos hmark]
    exact skipExponent_digits hsign hds hrest

/-- What follows the digits before an exponent is no digit. -/
theorem IsExponent.head_not_digit {exponent rest : List Char} (h : IsExponent exponent)
    (hrest : Stops rest) : ∀ c ∈ (exponent ++ rest).head?, Text.isDigit c = false := by
  cases h with
  | absent => exact hrest.head_not_digit
  | digits hmark _ _ =>
    rintro c ⟨⟩
    rcases hmark with rfl | rfl <;> decide

/-- What follows the digits before a point is no digit. -/
theorem IsFraction.head_not_digit {fraction exponent rest : List Char} (h : IsFraction fraction)
    (hexponent : IsExponent exponent) (hrest : Stops rest) :
    ∀ c ∈ (fraction ++ (exponent ++ rest)).head?, Text.isDigit c = false := by
  cases h with
  | absent => exact hexponent.head_not_digit hrest
  | digits _ =>
    rintro c ⟨⟩
    decide

/-- Without a point there may still be an exponent. -/
theorem skipFraction_eq_skipScale {cs : List Char} (h : cs.head? ≠ some '.') :
    skipFraction cs = skipScale cs := by
  cases cs with
  | nil => rfl
  | cons c cs =>
    rw [skipFraction.eq_def]
    split
    · next heq => exact absurd (congrArg some (List.cons.inj heq).1) h
    · rfl

theorem IsExponent.head_ne_point {exponent rest : List Char} (h : IsExponent exponent)
    (hrest : Stops rest) : (exponent ++ rest).head? ≠ some '.' := by
  cases h with
  | absent =>
    cases rest with
    | nil => exact nofun
    | cons c rest => exact fun heq => hrest.2.1 (Option.some.inj heq)
  | digits hmark _ _ => rcases hmark with rfl | rfl <;> simp

theorem IsFraction.skip {fraction exponent rest : List Char} (h : IsFraction fraction)
    (hexponent : IsExponent exponent) (hrest : Stops rest) :
    skipFraction (fraction ++ (exponent ++ rest)) = .ok ((), rest) := by
  have hskip := hexponent.skip hrest
  cases h with
  | absent =>
    rw [List.nil_append, skipFraction_eq_skipScale (hexponent.head_ne_point hrest), hskip]
  | @digits ds hds =>
    obtain ⟨hne, hall⟩ := hds
    cases ds with
    | nil => exact absurd rfl hne
    | cons d ds =>
      have hd := hall d List.mem_cons_self
      have hdrop := dropWhile_digits hall (hexponent.head_not_digit hrest)
      rw [List.cons_append] at hdrop
      rw [List.cons_append, List.cons_append, skipFraction]
      simp only [if_pos hd, hdrop, hskip]

theorem IsUnsigned.skip {cs rest : List Char} (h : IsUnsigned cs) (hrest : Stops rest) :
    skipUnsigned (cs ++ rest) = .ok ((), rest) := by
  obtain @⟨whole, fraction, exponent, hwhole, hfraction, hexponent⟩ := h
  have hskip := hfraction.skip hexponent hrest
  have hhead := hfraction.head_not_digit hexponent hrest
  obtain ⟨c, ds, rfl, hc, hds⟩ := hwhole.begins
  rw [List.append_assoc, List.append_assoc, List.cons_append, skipUnsigned.eq_def]
  dsimp only
  by_cases hzero : c = '0'
  · -- a zero stands alone before the point
    have halone : ds = [] := (List.cons.inj (hwhole.2 (congrArg some hzero))).2
    rw [if_pos hzero, halone, List.nil_append]
    generalize fraction ++ (exponent ++ rest) = after at hskip hhead
    cases after with
    | nil => exact hskip
    | cons d after => simp only [hhead d rfl, Bool.false_eq_true, if_false, hskip]
  · rw [if_neg hzero, if_pos hc, dropWhile_digits hds hhead, hskip]

/-! ## Strings -/

/-- Digits that each have a value have one together. -/
theorem exists_ofHex? {ds : List Char} (h : ∀ d ∈ ds, (Text.hexDigit? d).isSome = true) :
    ∃ n, Text.ofHex? ds = some n := by
  suffices hvalues : ∃ values, ds.mapM Text.hexDigit? = some values by
    obtain ⟨values, hvalues⟩ := hvalues
    exact ⟨_, congrArg _ hvalues⟩
  induction ds with
  | nil => exact ⟨[], rfl⟩
  | cons d ds ih =>
    obtain ⟨hd, hds⟩ := List.forall_mem_cons.mp h
    obtain ⟨value, hvalue⟩ := Option.isSome_iff_exists.mp hd
    obtain ⟨values, hvalues⟩ := ih hds
    exact ⟨value :: values, by rw [List.mapM_cons, hvalue, hvalues]; rfl⟩

theorem fourDigits_of_ofHex? {ds : List Char} {n : Nat} (hlength : ds.length = 4)
    (h : Text.ofHex? ds = some n) (rest : List Char) : fourDigits (ds ++ rest) = .ok (n, rest) := by
  match ds, hlength with
  | [a, b, c, d], _ =>
    show fourDigits (a :: b :: c :: d :: rest) = _
    rw [fourDigits, h]

theorem IsCharacter.skip {piece : List Char} (h : IsCharacter piece) (steps : Nat)
    (cs : List Char) : skipStringBody (steps + 1) (piece ++ cs) = skipStringBody steps cs := by
  cases h with
  | plain hcontrol hquote hslash =>
    rw [List.singleton_append, skipStringBody, if_neg hquote, if_neg hslash,
      if_neg (Nat.not_lt.mpr hcontrol)]
  | @letter c h =>
    have hletter : c ≠ 'u' ∧ (escapeLetter? c).isSome = true := by
      simp only [List.mem_cons, List.not_mem_nil, or_false] at h
      rcases h with rfl | rfl | rfl | rfl | rfl | rfl | rfl | rfl <;> exact ⟨by decide, rfl⟩
    show skipStringBody (steps + 1) ('\\' :: c :: cs) = _
    rw [skipStringBody, if_neg (by decide), if_pos rfl, skipEscape, if_neg hletter.1,
      if_pos hletter.2]
    rfl
  | @code ds hlength h =>
    obtain ⟨n, hn⟩ := exists_ofHex? h
    have hfour := fourDigits_of_ofHex? hlength hn cs
    show skipStringBody (steps + 1) ('\\' :: 'u' :: (ds ++ cs)) = _
    rw [skipStringBody, if_neg (by decide), if_pos rfl, skipEscape, if_pos rfl, hfour]
    rfl

theorem IsCharacter.ne_nil {piece : List Char} (h : IsCharacter piece) : piece ≠ [] := by
  cases h <;> exact List.cons_ne_nil _ _

theorem skipStringBody_pieces {pieces : List (List Char)}
    (h : ∀ piece ∈ pieces, IsCharacter piece) (steps : Nat) (hsteps : pieces.length < steps)
    (rest : List Char) :
    skipStringBody steps (pieces.flatten ++ '"' :: rest) = .ok ((), rest) := by
  induction pieces generalizing steps with
  | nil =>
    obtain ⟨n, rfl⟩ : ∃ n, steps = n + 1 := ⟨steps - 1, by omega⟩
    rfl
  | cons piece pieces ih =>
    obtain ⟨n, rfl⟩ : ∃ n, steps = n + 1 := ⟨steps - 1, by omega⟩
    obtain ⟨hpiece, hpieces⟩ := List.forall_mem_cons.mp h
    rw [List.flatten_cons, List.append_assoc, hpiece.skip]
    exact ih hpieces n (Nat.lt_of_succ_lt_succ hsteps)

theorem length_le_length_flatten {pieces : List (List Char)} (h : ∀ piece ∈ pieces, piece ≠ []) :
    pieces.length ≤ pieces.flatten.length := by
  induction pieces with
  | nil => exact Nat.le_refl 0
  | cons piece pieces ih =>
    obtain ⟨hpiece, hpieces⟩ := List.forall_mem_cons.mp h
    have hone := List.length_pos_iff.mpr hpiece
    have hrest := ih hpieces
    rw [List.length_cons, List.flatten_cons, List.length_append]
    omega

theorem IsString.skip {cs : List Char} (h : IsString cs) :
    ∃ body, cs = '"' :: body ∧ ∀ rest, skipString (body ++ rest) = .ok ((), rest) := by
  obtain @⟨pieces, h⟩ := h
  refine ⟨pieces.flatten ++ ['"'], rfl, fun rest => ?_⟩
  have hlength := length_le_length_flatten fun piece hpiece => (h piece hpiece).ne_nil
  rw [List.append_assoc, List.singleton_append, skipString]
  refine skipStringBody_pieces h _ ?_ rest
  rw [List.length_append, List.length_cons]
  omega

theorem IsKey.skip {cs : List Char} (h : IsKey cs) :
    ∃ body, ∃ after, AreBlanks after ∧ (∀ more, skipBlanks (cs ++ more) = '"' :: (body ++ more)) ∧
      ∀ more, skipString (body ++ more) = .ok ((), after ++ more) := by
  obtain @⟨before, core, after, hbefore, hstring, hafter⟩ := h
  obtain ⟨body, rfl, hskip⟩ := hstring.skip
  refine ⟨body ++ after, after, hafter, fun more => ?_, fun more => ?_⟩
  · rw [List.append_assoc, List.append_assoc, hbefore.skip, List.cons_append,
      skipBlanks_cons _ (by decide), List.append_assoc]
  · rw [List.append_assoc, hskip]

/-! ## Values -/

theorem length_le_length_joined_of_mem {ts : List (List Char)} {t : List Char} (h : t ∈ ts)
    (first : Bool) : t.length ≤ (joined first ts).length := by
  induction ts generalizing first with
  | nil => exact absurd h List.not_mem_nil
  | cons u ts ih =>
    rcases List.mem_cons.mp h with rfl | h
    · cases first with
      | true => rw [joined_true_cons, List.length_append]; omega
      | false => rw [joined_false_cons, List.length_append, List.length_cons]; omega
    · have hrest := ih h false
      cases first with
      | true => rw [joined_true_cons, List.length_append]; omega
      | false => rw [joined_false_cons, List.length_append]; omega

/-- Items that are each passed over are passed over one after the other, where one comes next. -/
theorem skipItems_joined {skip : Scan Unit} {t : List Char} {ts : List (List Char)} {steps : Nat}
    {close rest : List Char} (hsteps : ts.length < steps)
    (hitems : ∀ item ∈ t :: ts, Takes skip item ()) (hclose : Closes ']' close rest) :
    skipItems skip steps (t ++ (joined false ts ++ close)) = .ok ((), rest) := by
  -- on the items behind the one that comes next
  induction ts generalizing t steps with
  | nil =>
    obtain ⟨n, rfl⟩ : ∃ n, steps = n + 1 := ⟨steps - 1, by omega⟩
    obtain ⟨left, hleft, hskip⟩ :=
      hitems t List.mem_cons_self _ (stops_joined [] (hclose.stops (.inl rfl)))
    have hend : skipBlanks left = ']' :: rest := hleft.skip.trans hclose
    rw [skipItems, hskip]
    simp only [ok_bind, hend]
  | cons u ts ih =>
    obtain ⟨n, rfl⟩ : ∃ n, steps = n + 1 := ⟨steps - 1, by omega⟩
    obtain ⟨hitem, hmore⟩ := List.forall_mem_cons.mp hitems
    obtain ⟨left, hleft, hskip⟩ := hitem _ (stops_joined (u :: ts) (hclose.stops (.inl rfl)))
    have hcomma : skipBlanks left = ',' :: (u ++ (joined false ts ++ close)) := by
      rw [hleft.skip, joined_false_cons, List.append_assoc]
      exact skipBlanks_cons _ (by decide)
    rw [skipItems, hskip]
    simp only [ok_bind, hcomma]
    exact ih (Nat.lt_of_succ_lt_succ hsteps) hmore

/-- Members whose values are each passed over are passed over one after the other, where one comes
next. -/
theorem skipMembers_joined {skip : Scan Unit} {m : List Char × List Char}
    {ms : List (List Char × List Char)} {steps : Nat} {close rest : List Char}
    (hsteps : ms.length < steps) (hkeys : ∀ n ∈ m :: ms, IsKey n.1)
    (hvalues : ∀ n ∈ m :: ms, Takes skip n.2 ()) (hclose : Closes '}' close rest) :
    skipMembers skip steps
        (m.1 ++ ':' :: m.2 ++ (joined false (ms.map fun n => n.1 ++ ':' :: n.2) ++ close)) =
      .ok ((), rest) := by
  -- on the members behind the one that comes next, as for items
  induction ms generalizing m steps with
  | nil =>
    obtain ⟨n, rfl⟩ : ∃ n, steps = n + 1 := ⟨steps - 1, by omega⟩
    obtain ⟨body, after, hafter, hquote, hkey⟩ := (hkeys m List.mem_cons_self).skip
    obtain ⟨left, hleft, hskip⟩ :=
      hvalues m List.mem_cons_self _ (stops_joined [] (hclose.stops (.inr rfl)))
    have hend : skipBlanks left = '}' :: rest := hleft.skip.trans hclose
    have hcolon := colon_append ((hafter.skip _).trans (skipBlanks_cons m.2 (by decide)))
    simp only [List.append_assoc, List.cons_append] at hcolon ⊢
    rw [skipMembers, hquote]
    simp only [hkey, ok_bind, hcolon]
    rw [List.map_nil, hskip]
    simp only [ok_bind, hend]
  | cons o ms ih =>
    obtain ⟨n, rfl⟩ : ∃ n, steps = n + 1 := ⟨steps - 1, by omega⟩
    obtain ⟨hfirst, hmorekeys⟩ := List.forall_mem_cons.mp hkeys
    obtain ⟨hvalue, hmore⟩ := List.forall_mem_cons.mp hvalues
    obtain ⟨body, after, hafter, hquote, hkey⟩ := hfirst.skip
    obtain ⟨left, hleft, hskip⟩ := hvalue _
      (stops_joined ((o :: ms).map fun n => n.1 ++ ':' :: n.2) (hclose.stops (.inr rfl)))
    have hcomma : skipBlanks left = ',' :: (o.1 ++ ':' :: o.2 ++
        (joined false (ms.map fun n => n.1 ++ ':' :: n.2) ++ close)) := by
      rw [hleft.skip, List.map_cons, joined_false_cons, List.append_assoc]
      exact skipBlanks_cons _ (by decide)
    have hrest := ih (Nat.lt_of_succ_lt_succ hsteps) hmorekeys hmore
    have hcolon := colon_append ((hafter.skip _).trans (skipBlanks_cons m.2 (by decide)))
    simp only [List.append_assoc, List.cons_append] at hcolon hcomma hrest ⊢
    rw [skipMembers, hquote]
    simp only [hkey, ok_bind, hcolon]
    rw [hskip]
    simp only [ok_bind, hcomma, hrest]

theorem skipNested_digit (depth : Nat) {c : Char} (cs : List Char) (hc : Text.isDigit c = true) :
    skipNested (depth + 1) (c :: cs) = skipUnsigned (c :: cs) := by
  rw [skipNested, skipBlanks_cons cs (not_blank_of_isDigit hc)]
  split
  · next heq => cases heq
  iterate 7
    · next heq => exact absurd hc ((List.cons.inj heq).1 ▸ by decide)
  · next heq =>
    obtain ⟨rfl, rfl⟩ := List.cons.inj heq
    rw [if_pos hc]

theorem IsNumber.skip {cs rest : List Char} (h : IsNumber cs) (depth : Nat) (hrest : Stops rest) :
    skipNested (depth + 1) (cs ++ rest) = .ok ((), rest) := by
  cases h with
  | positive h =>
    have hskip := h.skip hrest
    obtain ⟨c, ds, rfl, hc⟩ := h.begins
    rw [List.cons_append] at hskip ⊢
    rw [skipNested_digit depth _ hc, hskip]
  | negative h =>
    rw [List.cons_append, skipNested, skipBlanks_cons _ (by decide)]
    exact h.skip hrest

theorem skipInside_of_closes {close : Char} {cutOff : Cause} {inside : Scan Unit}
    {cs rest : List Char} (h : Closes close cs rest) :
    skipInside close cutOff inside cs = .ok ((), rest) := by
  have hclose : skipBlanks cs = close :: rest := h
  simp only [skipInside, hclose, if_true]

/-- Behind a bracket that opens comes what is inside, unless it closes at once. -/
theorem skipInside_of_ne {close : Char} {cutOff : Cause} {inside : Scan Unit} {cs ds : List Char}
    {c : Char} (h : skipBlanks cs = c :: ds) (hc : c ≠ close) :
    skipInside close cutOff inside cs = inside (c :: ds) := by
  simp only [skipInside, h, if_neg hc]

theorem skipNested_array {depth : Nat} {items : List (List Char)} {close rest : List Char}
    (hitems : ∀ item ∈ items, IsText item ∧ Takes (skipNested (depth + 1)) item ())
    (hclose : Closes ']' close rest) :
    skipNested (depth + 2) ('[' :: (joined true items ++ close)) = .ok ((), rest) := by
  rw [skipNested, skipBlanks_cons _ (by decide)]
  cases items with
  | nil => exact skipInside_of_closes hclose
  | cons t ts =>
    obtain ⟨⟨htext, hfirst⟩, hmore⟩ := List.forall_mem_cons.mp hitems
    -- the bracket looks at the first character of an item, so the blanks in front of it are gone
    have hskipped := hfirst.skip (passesBlanks_skipNested depth) htext.beginsItem
    obtain ⟨c, cs, hskip, hbracket⟩ := htext.beginsItem
    have hnext := skipBlanks_append hskip (joined false ts ++ close)
    have hlength := length_le_length_joined false ts fun t ht => (hmore t ht).1.ne_nil
    have hall : ∀ item ∈ skipBlanks t :: ts, Takes (skipNested (depth + 1)) item () :=
      List.forall_mem_cons.mpr ⟨hskipped, fun item hitem => (hmore item hitem).2⟩
    have hsteps : ts.length < (c :: (cs ++ (joined false ts ++ close))).length := by
      simp only [List.length_cons, List.length_append]
      omega
    have hread := skipItems_joined hsteps hall hclose
    rw [hskip, List.cons_append] at hread
    rw [joined_true_cons, List.append_assoc]
    exact (skipInside_of_ne hnext hbracket).trans hread

theorem skipNested_object {depth : Nat} {members : List (List Char × List Char)}
    {close rest : List Char} (hkeys : ∀ m ∈ members, IsKey m.1)
    (hvalues : ∀ m ∈ members, Takes (skipNested depth) m.2 ()) (hclose : Closes '}' close rest) :
    skipNested (depth + 1)
        ('{' :: (joined true (members.map fun m => m.1 ++ ':' :: m.2) ++ close)) =
      .ok ((), rest) := by
  rw [skipNested, skipBlanks_cons _ (by decide)]
  cases members with
  | nil => exact skipInside_of_closes hclose
  | cons m ms =>
    obtain ⟨body, after, hafter, hquote, hkey⟩ := (hkeys m List.mem_cons_self).skip
    have hne : ∀ t ∈ ms.map fun n => n.1 ++ ':' :: n.2, t ≠ [] := by
      rw [List.forall_mem_map]
      intro n _
      simp
    have hlength := length_le_length_joined false _ hne
    rw [List.length_map] at hlength
    -- a key begins with its quote, behind which the members are passed over
    have hbegins := hquote
      (':' :: m.2 ++ (joined false (ms.map fun n => n.1 ++ ':' :: n.2) ++ close))
    have hnext : skipBlanks (joined true ((m :: ms).map fun n => n.1 ++ ':' :: n.2) ++ close) =
        '"' :: (body ++ (':' :: m.2 ++
          (joined false (ms.map fun n => n.1 ++ ':' :: n.2) ++ close))) := by
      rw [List.map_cons, joined_true_cons, List.append_assoc, List.append_assoc, hbegins]
    refine (skipInside_of_ne hnext (by decide)).trans ?_
    rw [List.length_cons, ← hbegins, skipMembers_skipBlanks]
    have hsteps : ms.length < (body ++ (':' :: m.2 ++
        (joined false (ms.map fun n => n.1 ++ ':' :: n.2) ++ close))).length + 1 := by
      simp only [List.length_append]
      omega
    have hread := skipMembers_joined hsteps hkeys hvalues hclose
    rwa [List.append_assoc] at hread

/-- A text is passed over if as many arrays and objects may be entered as it has characters. -/
theorem takes_skipNested {cs : List Char} (h : IsText cs) (depth : Nat)
    (hdepth : cs.length ≤ depth) :
    Takes (skipNested depth) cs () := by
  induction depth generalizing cs with
  | zero => exact absurd (List.length_eq_zero_iff.mp (Nat.le_zero.mp hdepth)) h.ne_nil
  | succ n ih =>
    obtain ⟨core, hcore, hpadded⟩ := h.core
    refine Takes.padded ?_ (passesBlanks_skipNested n) hpadded
    have hlength : core.length ≤ n + 1 := by
      obtain ⟨hbefore, hafter⟩ := hpadded
      simp only [List.length_append] at hdepth
      omega
    intro rest hrest
    refine ⟨rest, .refl hrest, ?_⟩
    cases hcore with
    | null => rfl
    | true => rfl
    | false => rfl
    | number h => exact h.skip n hrest
    | string h =>
      obtain ⟨body, rfl, hskip⟩ := h.skip
      rw [List.cons_append, skipNested, skipBlanks_cons _ (by decide)]
      exact hskip rest
    | @array items blanks hitems hblanks =>
      have hclose := hblanks.closes (.inl (rfl : ']' = ']')) rest
      -- the brackets are not an item's, so that one less is enough for it
      simp only [List.length_cons, List.length_append] at hlength
      have hall : ∀ item ∈ items, IsText item ∧ Takes (skipNested n) item () := by
        intro item hitem
        have hle := length_le_length_joined_of_mem hitem true
        exact ⟨hitems item hitem, ih (hitems item hitem) (by omega)⟩
      obtain ⟨d, rfl⟩ : ∃ d, n = d + 1 := ⟨n - 1, by omega⟩
      have hread := skipNested_array hall hclose
      simpa only [List.append_assoc, List.cons_append, List.nil_append] using hread
    | @object members blanks hkeys hvalues hblanks =>
      have hclose := hblanks.closes (.inr (rfl : '}' = '}')) rest
      simp only [List.length_cons, List.length_append] at hlength
      have hall : ∀ m ∈ members, Takes (skipNested n) m.2 () := by
        intro m hm
        have hle := length_le_length_joined_of_mem
          (List.mem_map_of_mem (f := fun m => m.1 ++ ':' :: m.2) hm) true
        simp only [List.length_append, List.length_cons] at hle
        exact ih (hvalues m hm) (by omega)
      have hread := skipNested_object hkeys hall hclose
      simpa only [List.append_assoc, List.cons_append, List.nil_append] using hread

/-- Every JSON text is passed over. -/
theorem takes_skipValue {cs : List Char} (h : IsText cs) : Takes skipValue cs () := by
  intro rest hrest
  have hlength : cs.length ≤ (cs ++ rest).length := by
    rw [List.length_append]
    omega
  exact takes_skipNested h _ hlength rest hrest

end SessionArchive.Json
