import SessionArchive.Proofs.Json.Grammar

/-!
# Texts of a value

`IsTextOf` says which texts mean a value: blanks may stand between the parts, a character of a
string may stand for itself or be escaped, and the members of an object come in any order. Each
production is that of `IsText` with the value added (`IsTextOf.isText`). A value without
floating-point numbers is meant by both of its printed forms (`isTextOf_compact`,
`isTextOf_indented`).
-/

set_option autoImplicit false

namespace SessionArchive.Json

/-! ## What texts mean -/

/-- A text with blanks around it. -/
inductive IsPadded (core : List Char) : List Char → Prop
  | mk {before after : List Char} (hbefore : AreBlanks before) (hafter : AreBlanks after) :
      IsPadded core (before ++ core ++ after)

/-- What stands for a character between quotes: the character itself, a letter, its code, or the
codes of its two halves. -/
inductive IsCharacterOf : Char → List Char → Prop
  | plain {c : Char} (hcontrol : 0x20 ≤ c.toNat) (hquote : c ≠ '"') (hslash : c ≠ '\\') :
      IsCharacterOf c [c]
  | letter {letter c : Char}
      (h : (letter, c) ∈ [('"', '"'), ('\\', '\\'), ('/', '/'), ('b', '\x08'), ('f', '\x0c'),
        ('n', '\n'), ('r', '\r'), ('t', '\t')]) :
      IsCharacterOf c ['\\', letter]
  | code {ds : List Char} {n : Nat} (hlength : ds.length = 4) (hvalue : Text.ofHex? ds = some n)
      (hhigh : isHighSurrogate n = false) (hlow : isLowSurrogate n = false) :
      IsCharacterOf (Char.ofNat n) ('\\' :: 'u' :: ds)
  | halves {ds es : List Char} {high low : Nat} (hlength : ds.length = 4 ∧ es.length = 4)
      (hvalues : Text.ofHex? ds = some high ∧ Text.ofHex? es = some low)
      (hhigh : isHighSurrogate high = true) (hlow : isLowSurrogate low = true) :
      IsCharacterOf (joinSurrogates high low) ('\\' :: 'u' :: (ds ++ '\\' :: 'u' :: es))

/-- The text of a string with its quotes. -/
inductive IsStringOf (s : String) : List Char → Prop
  | mk {pieces : List (List Char)} (h : List.Forall₂ IsCharacterOf s.toList pieces) :
      IsStringOf s ('"' :: pieces.flatten ++ ['"'])

/-- The text of a key with blanks around it. -/
inductive IsKeyOf (key : String) : List Char → Prop
  | mk {core cs : List Char} (hcore : IsStringOf key core) (h : IsPadded core cs) : IsKeyOf key cs

/-- The text of an array whose items have given texts. -/
inductive IsArrayOf (items : List (List Char)) : List Char → Prop
  | mk {blanks cs : List Char} (hblanks : AreBlanks blanks)
      (h : IsPadded ('[' :: (joined true items ++ blanks ++ [']'])) cs) : IsArrayOf items cs

/-- The text of an object, given its keys and the texts of their values as they follow one
another. -/
inductive IsObjectOf : List (String × List Char) → List Char → Prop
  | mk {members : List (List Char × String × List Char)} {blanks cs : List Char}
      (hkeys : ∀ m ∈ members, IsKeyOf m.2.1 m.1) (hblanks : AreBlanks blanks)
      (h : IsPadded
        ('{' :: (joined true (members.map fun m => m.1 ++ ':' :: m.2.2) ++ blanks ++ ['}'])) cs) :
      IsObjectOf (members.map Prod.snd) cs

/-- The text of a value, with blanks around it. The members of an object may be in any order. -/
inductive IsTextOf : Json → List Char → Prop
  | null {cs : List Char} (h : IsPadded ['n', 'u', 'l', 'l'] cs) : IsTextOf .null cs
  | true {cs : List Char} (h : IsPadded ['t', 'r', 'u', 'e'] cs) : IsTextOf (.bool true) cs
  | false {cs : List Char} (h : IsPadded ['f', 'a', 'l', 's', 'e'] cs) :
      IsTextOf (.bool false) cs
  | integer {n : Int} {cs : List Char} (h : IsPadded (Text.signedDecimal n) cs) :
      IsTextOf (.number (.integer n)) cs
  | string {s : String} {core cs : List Char} (hcore : IsStringOf s core) (h : IsPadded core cs) :
      IsTextOf (.string s) cs
  | array {items : List (Json × List Char)} {cs : List Char}
      (hitems : ∀ item ∈ items, IsTextOf item.1 item.2) (h : IsArrayOf (items.map Prod.snd) cs) :
      IsTextOf (.array (items.map Prod.fst)) cs
  | object {members : List (String × Json)} {written : List (String × Json × List Char)}
      {cs : List Char} (hvalues : ∀ m ∈ written, IsTextOf m.2.1 m.2.2)
      (horder : members.Perm (written.map fun m => (m.1, m.2.1)))
      (h : IsObjectOf (written.map fun m => (m.1, m.2.2)) cs) : IsTextOf (.object members) cs

/-! ## Blanks around a text -/

theorem areBlanks_append {before after : List Char} (hbefore : AreBlanks before)
    (hafter : AreBlanks after) : AreBlanks (before ++ after) := by
  intro c hc
  rcases List.mem_append.mp hc with hc | hc
  · exact hbefore c hc
  · exact hafter c hc

theorem isPadded_self (core : List Char) : IsPadded core core := by
  have hself : IsPadded core ([] ++ core ++ []) := .mk areBlanks_nil areBlanks_nil
  rwa [List.nil_append, List.append_nil] at hself

theorem IsPadded.padded {core cs before after : List Char} (h : IsPadded core cs)
    (hbefore : AreBlanks before) (hafter : AreBlanks after) :
    IsPadded core (before ++ cs ++ after) := by
  obtain @⟨first, last, hfirst, hlast⟩ := h
  have hpadded : IsPadded core (before ++ first ++ core ++ (last ++ after)) :=
    .mk (areBlanks_append hbefore hfirst) (areBlanks_append hlast hafter)
  simpa only [List.append_assoc] using hpadded

theorem IsKeyOf.padded {key : String} {cs before after : List Char} (h : IsKeyOf key cs)
    (hbefore : AreBlanks before) (hafter : AreBlanks after) :
    IsKeyOf key (before ++ cs ++ after) := by
  obtain ⟨hcore, hpadded⟩ := h
  exact .mk hcore (hpadded.padded hbefore hafter)

theorem IsTextOf.padded {v : Json} {cs before after : List Char} (h : IsTextOf v cs)
    (hbefore : AreBlanks before) (hafter : AreBlanks after) :
    IsTextOf v (before ++ cs ++ after) := by
  cases h with
  | null h => exact .null (h.padded hbefore hafter)
  | true h => exact .true (h.padded hbefore hafter)
  | false h => exact .false (h.padded hbefore hafter)
  | integer h => exact .integer (h.padded hbefore hafter)
  | string hcore h => exact .string hcore (h.padded hbefore hafter)
  | array hitems h =>
    obtain ⟨hblanks, hpadded⟩ := h
    exact .array hitems (.mk hblanks (hpadded.padded hbefore hafter))
  | object hvalues horder h =>
    generalize hmembers : List.map _ _ = members at h
    obtain ⟨hkeys, hblanks, hpadded⟩ := h
    refine .object hvalues horder ?_
    rw [hmembers]
    exact .mk hkeys hblanks (hpadded.padded hbefore hafter)

/-- The text of an array holds a text of each of its items. -/
theorem IsTextOf.items {values : List Json} {t : List Char} (h : IsTextOf (.array values) t) :
    ∃ texts, List.Forall₂ IsTextOf values texts ∧ IsArrayOf texts t := by
  cases h with
  | array hitems h =>
    refine ⟨_, ?_, h⟩
    rw [List.forall₂_map_left_iff, List.forall₂_map_right_iff, List.forall₂_same]
    exact hitems

/-! ## Every meaningful text is well formed -/

theorem IsText.of_isPadded {core cs : List Char} (hcore : IsText core) (h : IsPadded core cs) :
    IsText cs := by
  obtain ⟨hbefore, hafter⟩ := h
  exact .padded hbefore hcore hafter

/-- A list of digits that has a value as a whole is one of digits that each have one. -/
theorem isSome_hexDigit?_of_ofHex? {ds : List Char} {n : Nat} (h : Text.ofHex? ds = some n) :
    ∀ d ∈ ds, (Text.hexDigit? d).isSome = true := by
  induction ds generalizing n with
  | nil => exact List.forall_mem_nil _
  | cons d ds ih =>
    simp only [Text.ofHex?, List.mapM_cons, Option.map_eq_some_iff, Option.bind_eq_bind,
      Option.bind_eq_some_iff, Option.pure_def, Option.some.injEq] at h
    obtain ⟨-, ⟨first, hfirst, rest, hrest, -⟩, -⟩ := h
    refine List.forall_mem_cons.mpr ⟨by rw [hfirst]; rfl, ?_⟩
    exact ih (n := Text.ofDigits 16 rest) (by rw [Text.ofHex?, hrest, Option.map_some])

theorem IsCharacterOf.pieces {c : Char} {piece : List Char} (h : IsCharacterOf c piece) :
    ∃ pieces : List (List Char), pieces.flatten = piece ∧ ∀ p ∈ pieces, IsCharacter p := by
  cases h with
  | plain hcontrol hquote hslash =>
    exact ⟨[[c]], rfl, List.forall_mem_singleton.mpr (.plain hcontrol hquote hslash)⟩
  | @letter l _ h =>
    refine ⟨[['\\', l]], rfl, List.forall_mem_singleton.mpr (.letter ?_)⟩
    exact List.mem_map_of_mem (f := Prod.fst) h
  | @code ds n hlength hvalue _ _ =>
    refine ⟨['\\' :: 'u' :: ds], List.append_nil _, List.forall_mem_singleton.mpr ?_⟩
    exact .code hlength (isSome_hexDigit?_of_ofHex? hvalue)
  | @halves ds es high low hlength hvalues _ _ =>
    -- the two codes are two pieces of the grammar
    refine ⟨['\\' :: 'u' :: ds, '\\' :: 'u' :: es], by simp, ?_⟩
    simp only [List.forall_mem_cons, List.not_mem_nil, false_implies, implies_true, and_true]
    exact ⟨.code hlength.1 (isSome_hexDigit?_of_ofHex? hvalues.1),
      .code hlength.2 (isSome_hexDigit?_of_ofHex? hvalues.2)⟩

theorem exists_pieces {cs : List Char} {pieces : List (List Char)}
    (h : List.Forall₂ IsCharacterOf cs pieces) :
    ∃ finer : List (List Char), finer.flatten = pieces.flatten ∧ ∀ p ∈ finer, IsCharacter p := by
  induction h with
  | nil => exact ⟨[], rfl, List.forall_mem_nil _⟩
  | cons hfirst _ ih =>
    obtain ⟨first, hflat, hall⟩ := hfirst.pieces
    obtain ⟨rest, hflats, halls⟩ := ih
    refine ⟨first ++ rest, by rw [List.flatten_append, hflat, hflats, List.flatten_cons], ?_⟩
    exact List.forall_mem_append.mpr ⟨hall, halls⟩

theorem IsStringOf.isString {s : String} {cs : List Char} (h : IsStringOf s cs) : IsString cs := by
  obtain ⟨h⟩ := h
  obtain ⟨finer, hflat, hall⟩ := exists_pieces h
  rw [← hflat]
  exact .mk hall

theorem IsKeyOf.isKey {key : String} {cs : List Char} (h : IsKeyOf key cs) : IsKey cs := by
  obtain ⟨hcore, hpadded⟩ := h
  obtain ⟨hbefore, hafter⟩ := hpadded
  exact .mk hbefore hcore.isString hafter

theorem IsArrayOf.isText {items : List (List Char)} {cs : List Char}
    (hitems : ∀ item ∈ items, IsText item) (h : IsArrayOf items cs) : IsText cs := by
  obtain ⟨hblanks, hpadded⟩ := h
  exact (IsText.array hitems hblanks).of_isPadded hpadded

theorem IsObjectOf.isText {members : List (String × List Char)} {cs : List Char}
    (hvalues : ∀ m ∈ members, IsText m.2) (h : IsObjectOf members cs) : IsText cs := by
  obtain @⟨members, blanks, cs, hkeys, hblanks, hpadded⟩ := h
  have htexts : ∀ m ∈ members.map fun m => (m.1, m.2.2), IsKey m.1 ∧ IsText m.2 := by
    intro text htext
    obtain ⟨m, hm, rfl⟩ := List.mem_map.mp htext
    exact ⟨(hkeys m hm).isKey, hvalues m.2 (List.mem_map_of_mem hm)⟩
  have hobject := IsText.object (fun m hm => (htexts m hm).1) (fun m hm => (htexts m hm).2) hblanks
  rw [List.map_map] at hobject
  exact hobject.of_isPadded hpadded

/-- A text that means a value is a JSON text. -/
theorem IsTextOf.isText {v : Json} {cs : List Char} (h : IsTextOf v cs) : IsText cs := by
  induction h with
  | null h => exact IsText.null.of_isPadded h
  | true h => exact IsText.true.of_isPadded h
  | false h => exact IsText.false.of_isPadded h
  | @integer n _ h => exact (IsText.number (isNumber_integer n)).of_isPadded h
  | string hcore h => exact (IsText.string hcore.isString).of_isPadded h
  | array _ h ih =>
    refine h.isText fun text htext => ?_
    obtain ⟨item, hitem, rfl⟩ := List.mem_map.mp htext
    exact ih item hitem
  | object _ _ h ih =>
    refine h.isText fun text htext => ?_
    obtain ⟨m, hm, rfl⟩ := List.mem_map.mp htext
    exact ih m hm

/-! ## The printed forms -/

/-- A character as it is printed stands for that character. -/
theorem Printed.isCharacterOf {c : Char} {text : List Char} (h : Printed c text) :
    IsCharacterOf c text := by
  cases h with
  | letter h =>
    have hletters : ∀ p ∈ printedLetters,
        p ∈ [('"', '"'), ('\\', '\\'), ('/', '/'), ('b', '\x08'), ('f', '\x0c'), ('n', '\n'),
          ('r', '\r'), ('t', '\t')] := by decide
    exact .letter (hletters _ h)
  | code h =>
    obtain ⟨a, b, htext, hvalue⟩ := padZero_hexadecimal c.toNat h
    have hcode := @IsCharacterOf.code ['0', '0', a, b] _ rfl hvalue
      (by simp only [isHighSurrogate, Bool.and_eq_false_iff, decide_eq_false_iff_not]; omega)
      (by simp only [isLowSurrogate, Bool.and_eq_false_iff, decide_eq_false_iff_not]; omega)
    rw [htext]
    rwa [Char.ofNat_toNat] at hcode
  | itself hcontrol hquote hslash => exact .plain hcontrol hquote hslash

theorem isStringOf_quoted (s : String) : IsStringOf s (quoted s) := by
  rw [quoted, List.flatMap_def]
  refine .mk ?_
  generalize s.toList = cs
  induction cs with
  | nil => exact .nil
  | cons c cs ih => exact .cons (printed_escaped c).isCharacterOf ih

theorem isKeyOf_quoted (key : String) : IsKeyOf key (quoted key) :=
  .mk (isStringOf_quoted key) (isPadded_self _)

/-- An integer as a number is all that a value without floating-point numbers can be. -/
theorem isTextOf_number {n : Numeral} (h : (number n).Integral) :
    IsTextOf (number n) n.text := by
  cases n with
  | integer i => exact .integer (isPadded_self _)
  | float x => exact absurd (h _ List.mem_cons_self) Bool.false_ne_true

/-- Keys are printed as they are, with a colon and the text of their value behind them. -/
theorem isObjectOf_quoted (members : List (String × List Char)) :
    IsObjectOf members
      ('{' :: (joined true (members.map fun m => quoted m.1 ++ ':' :: m.2) ++ ['}'])) := by
  have hkeys : ∀ m ∈ members.map fun m => (quoted m.1, m), IsKeyOf m.2.1 m.1 := by
    rw [List.forall_mem_map]
    exact fun m _ => isKeyOf_quoted m.1
  have hobject := IsObjectOf.mk hkeys areBlanks_nil (isPadded_self _)
  simpa only [List.map_map, Function.comp_def, List.map_id', List.append_nil] using hobject

/-- The compact text of a value means the value. -/
theorem isTextOf_compact (v : Json) (h : v.Integral) : IsTextOf v v.compact := by
  induction v using ofParts with
  | null => exact .null (isPadded_self _)
  | bool b =>
    cases b with
    | true => exact .true (isPadded_self _)
    | false => exact .false (isPadded_self _)
  | number n => exact isTextOf_number h
  | string s => exact .string (isStringOf_quoted s) (isPadded_self _)
  | array items ih =>
    rw [integral_array] at h
    have hitems : ∀ item ∈ items.map fun v => (v, v.compact), IsTextOf item.1 item.2 := by
      intro item hitem
      obtain ⟨v, hv, rfl⟩ := List.mem_map.mp hitem
      exact ih v hv (h v hv)
    have harray := IsTextOf.array hitems (.mk areBlanks_nil (isPadded_self _))
    rw [List.append_nil] at harray
    simpa only [List.map_map, Function.comp_def, List.map_id', compact_array] using harray
  | object members ih =>
    rw [integral_object] at h
    have hvalues : ∀ m ∈ members.map fun m => (m.1, m.2, m.2.compact), IsTextOf m.2.1 m.2.2 := by
      intro text htext
      obtain ⟨m, hm, rfl⟩ := List.mem_map.mp htext
      exact ih m hm (h m hm)
    have hobject := isObjectOf_quoted (members.map fun m => (m.1, m.2.compact))
    rw [List.map_map] at hobject
    rw [compact_object]
    refine .object hvalues ?_ ?_
    · simp only [List.map_map, Function.comp_def, Prod.mk.eta, List.map_id']
      exact List.Perm.refl _
    · rw [List.map_map]
      exact hobject

/-- The text of a value on many lines means the value, at whatever level it stands. -/
theorem isTextOf_indented (v : Json) (h : v.Integral) (level : Nat) :
    IsTextOf v (v.indented level) := by
  induction v using ofParts generalizing level with
  | null => exact .null (isPadded_self _)
  | bool b =>
    cases b with
    | true => exact .true (isPadded_self _)
    | false => exact .false (isPadded_self _)
  | number n => exact isTextOf_number h
  | string s => exact .string (isStringOf_quoted s) (isPadded_self _)
  | array items ih =>
    rw [integral_array] at h
    -- a line of its own puts nothing but blanks before an item
    have hitems : ∀ item ∈ items.map fun v => (v, itemLine (level + 1) v),
        IsTextOf item.1 item.2 := by
      intro item hitem
      obtain ⟨v, hv, rfl⟩ := List.mem_map.mp hitem
      have hline := (ih v hv (h v hv) (level + 1)).padded
        (areBlanks_lineAt (level + 1)) areBlanks_nil
      rwa [List.append_nil] at hline
    have harray := IsTextOf.array hitems
      (.mk (areBlanks_lastLine level items.isEmpty) (isPadded_self _))
    simpa only [List.map_map, Function.comp_def, List.map_id', indented_array] using harray
  | object members ih =>
    rw [integral_object] at h
    have hvalues : ∀ m ∈ members.map fun m => (m.1, m.2, ' ' :: m.2.indented (level + 1)),
        IsTextOf m.2.1 m.2.2 := by
      intro text htext
      obtain ⟨m, hm, rfl⟩ := List.mem_map.mp htext
      have hvalue := (ih m hm (h m hm) (level + 1)).padded areBlanks_space areBlanks_nil
      rwa [List.append_nil] at hvalue
    have hkeys : ∀ m ∈ members.map fun m =>
        (keyLine (level + 1) m.1, m.1, ' ' :: m.2.indented (level + 1)), IsKeyOf m.2.1 m.1 := by
      intro text htext
      obtain ⟨m, -, rfl⟩ := List.mem_map.mp htext
      have hkey := (isKeyOf_quoted m.1).padded (areBlanks_lineAt (level + 1)) areBlanks_nil
      rwa [List.append_nil] at hkey
    have hobject := IsObjectOf.mk hkeys (areBlanks_lastLine level members.isEmpty)
      (isPadded_self _)
    simp only [List.map_map, Function.comp_def] at hobject
    rw [indented_object]
    refine .object hvalues ?_ ?_
    · simp only [List.map_map, Function.comp_def, Prod.mk.eta, List.map_id']
      exact List.Perm.refl _
    · rw [List.map_map]
      exact hobject

end SessionArchive.Json
