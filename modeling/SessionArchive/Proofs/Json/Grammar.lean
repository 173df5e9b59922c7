import SessionArchive.Proofs.Json.Float

/-!
# The grammar of JSON texts

`IsText` is what a text has to be to hold one JSON value and nothing else but blanks, with no limit
on how deep arrays and objects nest. Both printed forms of a value are such texts
(`isText_compact`, `isText_indented`) if its numbers are printed as numbers, which integers of any
size and all doubles are (`isNumber_integer`, `isNumber_float`). The compact form is a single line
(`break_not_mem_compact`).
-/

set_option autoImplicit false

namespace SessionArchive.Json

open Number (Binary64 Decimal DecimalStyle jsonStyle shortest)

/-! ## The grammar -/

/-- One or more digits. -/
def IsDigits (cs : List Char) : Prop := cs ≠ [] ∧ ∀ c ∈ cs, Text.isDigit c = true

/-- Digits of which the first is a zero only where it stands alone. -/
def IsWhole (cs : List Char) : Prop := IsDigits cs ∧ (cs.head? = some '0' → cs = ['0'])

/-- A point and digits, or nothing. -/
inductive IsFraction : List Char → Prop
  | absent : IsFraction []
  | digits {ds : List Char} (h : IsDigits ds) : IsFraction ('.' :: ds)

/-- A mark, a sign if there is one, and digits, or nothing. -/
inductive IsExponent : List Char → Prop
  | absent : IsExponent []
  | digits {mark : Char} {sign ds : List Char} (hmark : mark = 'e' ∨ mark = 'E')
      (hsign : sign = [] ∨ sign = ['+'] ∨ sign = ['-']) (h : IsDigits ds) :
      IsExponent (mark :: (sign ++ ds))

/-- A number without a sign. -/
inductive IsUnsigned : List Char → Prop
  | mk {whole fraction exponent : List Char} (hwhole : IsWhole whole)
      (hfraction : IsFraction fraction) (hexponent : IsExponent exponent) :
      IsUnsigned (whole ++ fraction ++ exponent)

/-- A number. -/
inductive IsNumber : List Char → Prop
  | positive {cs : List Char} (h : IsUnsigned cs) : IsNumber cs
  | negative {cs : List Char} (h : IsUnsigned cs) : IsNumber ('-' :: cs)

/-- What stands for one character between quotes: the character itself, a letter or a code. -/
inductive IsCharacter : List Char → Prop
  | plain {c : Char} (hcontrol : 0x20 ≤ c.toNat) (hquote : c ≠ '"') (hslash : c ≠ '\\') :
      IsCharacter [c]
  | letter {c : Char} (h : c ∈ ['"', '\\', '/', 'b', 'f', 'n', 'r', 't']) : IsCharacter ['\\', c]
  | code {ds : List Char} (hlength : ds.length = 4)
      (h : ∀ d ∈ ds, (Text.hexDigit? d).isSome = true) : IsCharacter ('\\' :: 'u' :: ds)

/-- A string with its quotes. -/
inductive IsString : List Char → Prop
  | mk {pieces : List (List Char)} (h : ∀ piece ∈ pieces, IsCharacter piece) :
      IsString ('"' :: pieces.flatten ++ ['"'])

/-- Blanks, or nothing. -/
def AreBlanks (cs : List Char) : Prop := ∀ c ∈ cs, isBlank c = true

/-- A string with blanks around it. -/
inductive IsKey : List Char → Prop
  | mk {before cs after : List Char} (hbefore : AreBlanks before) (h : IsString cs)
      (hafter : AreBlanks after) : IsKey (before ++ cs ++ after)

/-- The text of one value, with blanks around it. -/
inductive IsText : List Char → Prop
  | null : IsText ['n', 'u', 'l', 'l']
  | true : IsText ['t', 'r', 'u', 'e']
  | false : IsText ['f', 'a', 'l', 's', 'e']
  | number {cs : List Char} (h : IsNumber cs) : IsText cs
  | string {cs : List Char} (h : IsString cs) : IsText cs
  | array {items : List (List Char)} {blanks : List Char} (hitems : ∀ item ∈ items, IsText item)
      (hblanks : AreBlanks blanks) : IsText ('[' :: (joined true items ++ blanks ++ [']']))
  | object {members : List (List Char × List Char)} {blanks : List Char}
      (hkeys : ∀ m ∈ members, IsKey m.1) (hvalues : ∀ m ∈ members, IsText m.2)
      (hblanks : AreBlanks blanks) :
      IsText ('{' :: (joined true (members.map fun m => m.1 ++ ':' :: m.2) ++ blanks ++ ['}']))
  | padded {before cs after : List Char} (hbefore : AreBlanks before) (h : IsText cs)
      (hafter : AreBlanks after) : IsText (before ++ cs ++ after)

theorem areBlanks_nil : AreBlanks [] := List.forall_mem_nil _

theorem areBlanks_space : AreBlanks [' '] := List.forall_mem_singleton.mpr (by decide)

/-! ## Numbers -/

theorem isDigits_decimal (n : Nat) : IsDigits (Text.decimal n) :=
  ⟨Text.decimal_ne_nil n, Text.isDigit_of_mem_decimal n⟩

theorem decimal_zero : Text.decimal 0 = ['0'] := Text.decimal_of_lt (by decide)

theorem isWhole_decimal (n : Nat) : IsWhole (Text.decimal n) := by
  refine ⟨isDigits_decimal n, ?_⟩
  intro hhead
  by_cases hzero : n = 0
  · rw [hzero, decimal_zero]
  · exact absurd hhead (Text.head_decimal_ne_zero hzero)

/-- A number without point and exponent. -/
theorem IsWhole.isUnsigned {cs : List Char} (h : IsWhole cs) : IsUnsigned cs := by
  have hnumber := IsUnsigned.mk h .absent .absent
  rwa [List.append_nil, List.append_nil] at hnumber

/-- A number without exponent. -/
theorem IsWhole.isUnsigned_pointed {cs ds : List Char} (h : IsWhole cs) (hds : IsDigits ds) :
    IsUnsigned (cs ++ '.' :: ds) := by
  have hnumber := IsUnsigned.mk h (.digits hds) .absent
  rwa [List.append_nil] at hnumber

theorem isNumber_integer (n : Int) : IsNumber (Numeral.integer n).text := by
  cases n with
  | ofNat n => exact .positive (isWhole_decimal n).isUnsigned
  | negSucc n => exact .negative (isWhole_decimal (n + 1)).isUnsigned

/-- One digit, the others after a point, and an exponent. -/
theorem isUnsigned_scientific (digits : List Char) {sign : List Char}
    (hsign : sign = [] ∨ sign = ['+'] ∨ sign = ['-']) (exponent : Nat) :
    IsDigits digits →
      IsUnsigned ((match digits with
        | [] => []
        | [c] => [c]
        | c :: rest => c :: '.' :: rest) ++ 'e' :: sign ++ Text.decimal exponent) := by
  rintro ⟨hne, hall⟩
  have hexponent : IsExponent ('e' :: (sign ++ Text.decimal exponent)) :=
    .digits (.inl rfl) hsign (isDigits_decimal exponent)
  cases digits with
  | nil => exact absurd rfl hne
  | cons c rest =>
    have hfirst : IsWhole [c] := by
      refine ⟨⟨List.cons_ne_nil _ _, ?_⟩, ?_⟩
      · intro d hd
        rw [List.mem_singleton.mp hd]
        exact hall c List.mem_cons_self
      · intro hhead
        rw [Option.some.inj hhead]
    -- a single digit has no point behind it
    cases rest with
    | nil =>
      have hnumber := IsUnsigned.mk hfirst .absent hexponent
      simpa using hnumber
    | cons d more =>
      have hmore : IsDigits (d :: more) :=
        ⟨List.cons_ne_nil _ _, fun e he => hall e (List.mem_cons_of_mem _ he)⟩
      have hnumber := IsUnsigned.mk hfirst (.digits hmore) hexponent
      simpa using hnumber

/-- The digits of a decimal are laid out as a number wherever its point is. -/
theorem isUnsigned_write {d : Decimal} (hpos : 0 < d.digits) :
    IsUnsigned (jsonStyle.write d) := by
  have hdigits := isDigits_decimal d.digits
  have hhead := Text.head_decimal_ne_zero (Nat.pos_iff_ne_zero.mp hpos)
  have hzero := isWhole_decimal 0
  have hlast := isDigits_decimal 0
  rw [decimal_zero] at hzero hlast
  unfold DecimalStyle.write jsonStyle
  dsimp only
  split
  · refine isUnsigned_scientific _ ?_ _ hdigits
    split
    · exact .inr (.inr rfl)
    · exact .inr (.inl rfl)
  · split
    · -- a zero before the point
      have hzeros : IsDigits (List.replicate
          (((Text.decimal d.digits).length : Int) + d.exponent).natAbs '0' ++
            Text.decimal d.digits) := by
        refine ⟨fun hnil => hdigits.1 (List.append_eq_nil_iff.mp hnil).2, fun c hc => ?_⟩
        rcases List.mem_append.mp hc with hc | hc
        · exact Text.isDigit_of_mem_replicate_zero c hc
        · exact hdigits.2 c hc
      exact hzero.isUnsigned_pointed hzeros
    · split
      · -- the point is among the digits
        rename_i hpoint hnegative
        refine IsWhole.isUnsigned_pointed ⟨⟨?_, ?_⟩, ?_⟩ ⟨?_, ?_⟩
        · intro hnil
          rcases List.take_eq_nil_iff.mp hnil with hzero | hnil
          · omega
          · exact hdigits.1 hnil
        · exact fun c hc => hdigits.2 c (List.mem_of_mem_take hc)
        · intro hfirst
          rw [List.head?_take, if_neg (by omega)] at hfirst
          exact absurd hfirst hhead
        · intro hnil
          have hlength := List.drop_eq_nil_iff.mp hnil
          omega
        · exact fun c hc => hdigits.2 c (List.mem_of_mem_drop hc)
      · -- zeros fill up the digits to the point
        have hwhole : IsWhole
            (Text.decimal d.digits ++ List.replicate d.exponent.toNat '0') := by
          refine ⟨⟨fun hnil => hdigits.1 (List.append_eq_nil_iff.mp hnil).1, fun c hc => ?_⟩, ?_⟩
          · rcases List.mem_append.mp hc with hc | hc
            · exact hdigits.2 c hc
            · exact Text.isDigit_of_mem_replicate_zero c hc
          · intro hfirst
            rw [List.head?_append_of_ne_nil _ hdigits.1] at hfirst
            exact absurd hfirst hhead
        exact hwhole.isUnsigned_pointed hlast

theorem isNumber_float {x : Binary64} (hx : x.isRepresentable = true) :
    IsNumber (Numeral.float x).text := by
  have hunsigned : IsUnsigned
      (if x.isZero then ['0', '.', '0'] else jsonStyle.write (shortest x)) := by
    by_cases hzero : x.isZero = true
    · have hnumber := (isWhole_decimal 0).isUnsigned_pointed (isDigits_decimal 0)
      rw [decimal_zero] at hnumber
      rw [if_pos hzero]
      exact hnumber
    · rw [if_neg hzero]
      have hpos : 0 < x.significand := by
        rw [Binary64.isZero, beq_iff_eq] at hzero
        omega
      exact isUnsigned_write (Number.shortest_isNear hpos (Number.leastExponent_le hx)).pos
  simp only [Numeral.text, Binary64.write]
  cases x.negative with
  | true => exact .negative hunsigned
  | false => exact .positive hunsigned

/-! ## Strings -/

theorem Printed.isCharacter {c : Char} {text : List Char} (h : Printed c text) :
    IsCharacter text := by
  cases h with
  | letter h =>
    have hletters : ∀ p ∈ printedLetters,
        p.1 ∈ ['"', '\\', '/', 'b', 'f', 'n', 'r', 't'] := by decide
    exact .letter (hletters _ h)
  | code h =>
    obtain ⟨a, b, htext, hvalue⟩ := padZero_hexadecimal c.toNat h
    rw [htext]
    refine .code rfl ?_
    intro d hd
    -- digits that have a value together have one each
    cases ha : Text.hexDigit? a with
    | none => simp [Text.ofHex?, ha] at hvalue
    | some first =>
      cases hb : Text.hexDigit? b with
      | none => simp [Text.ofHex?, ha, hb] at hvalue
      | some second =>
        simp only [List.mem_cons, List.not_mem_nil, or_false] at hd
        rcases hd with rfl | rfl | rfl | rfl
        · decide
        · decide
        · rw [ha]
          rfl
        · rw [hb]
          rfl
  | itself hcontrol hquote hslash => exact .plain hcontrol hquote hslash

theorem isString_quoted (s : String) : IsString (quoted s) := by
  rw [quoted, List.flatMap_def]
  refine .mk ?_
  intro piece hpiece
  obtain ⟨c, -, rfl⟩ := List.mem_map.mp hpiece
  exact (printed_escaped c).isCharacter

theorem isKey_quoted (s : String) : IsKey (quoted s) := by
  have hkey := IsKey.mk areBlanks_nil (isString_quoted s) areBlanks_nil
  rwa [List.nil_append, List.append_nil] at hkey

/-! ## Values whose numbers are printed as numbers -/

/-- Every number of a value is printed as one. -/
def Printable (v : Json) : Prop := ∀ n ∈ v.numbers, IsNumber n.text

@[simp]
theorem printable_null : (null).Printable := List.forall_mem_nil _

@[simp]
theorem printable_bool (b : Bool) : (bool b).Printable := List.forall_mem_nil _

@[simp]
theorem printable_string (s : String) : (string s).Printable := List.forall_mem_nil _

@[simp]
theorem printable_int (n : Int) : (int n).Printable := by
  intro m hm
  rw [List.mem_singleton.mp hm]
  exact isNumber_integer n

@[simp]
theorem printable_nat (n : Nat) : (nat n).Printable := printable_int n

@[simp]
theorem printable_array {items : List Json} :
    (array items).Printable ↔ ∀ v ∈ items, v.Printable := forall_numbers_array

@[simp]
theorem printable_object {members : List (String × Json)} :
    (object members).Printable ↔ ∀ m ∈ members, m.2.Printable := forall_numbers_object

theorem printable_of_fits {v : Json} (h : v.fits = true) : v.Printable := by
  intro n hn
  cases n with
  | integer i => exact isNumber_integer i
  | float x => exact isNumber_float ((fits_iff v).mp h _ hn)

/-- The canonical form has no other numbers than the value. -/
theorem printable_canonicalize (v : Json) (h : v.Printable) : v.canonicalize.Printable := by
  induction v using ofParts with
  | null => exact h
  | bool b => exact h
  | number n => exact h
  | string s => exact h
  | array items ih =>
    rw [printable_array] at h
    rw [canonicalize, canonicalizeItems_eq_map, printable_array, List.forall_mem_map]
    intro v hv
    exact ih v hv (h v hv)
  | object members ih =>
    rw [printable_object] at h
    rw [canonicalize, canonicalizeMembers_eq_map, printable_object]
    intro m hm
    obtain ⟨n, hn, rfl⟩ := List.mem_map.mp (mem_sortMembers hm)
    exact ih n hn (h n hn)

/-! ## On one line -/

/-- The one-line text of a value is a JSON text. -/
theorem isText_compact (v : Json) (h : v.Printable) : IsText v.compact := by
  induction v using ofParts with
  | null => exact .null
  | bool b =>
    cases b with
    | true => exact .true
    | false => exact .false
  | number n => exact .number (h n List.mem_cons_self)
  | string s => exact .string (isString_quoted s)
  | array items ih =>
    rw [printable_array] at h
    have hitems : ∀ text ∈ items.map compact, IsText text := by
      intro text htext
      obtain ⟨v, hv, rfl⟩ := List.mem_map.mp htext
      exact ih v hv (h v hv)
    have harray := IsText.array hitems areBlanks_nil
    rwa [List.append_nil, ← compact_array] at harray
  | object members ih =>
    rw [printable_object] at h
    -- keys and values are texts of their own, with no blanks between them
    have hkeys : ∀ m ∈ members.map fun m => (quoted m.1, m.2.compact), IsKey m.1 := by
      intro text htext
      obtain ⟨m, -, rfl⟩ := List.mem_map.mp htext
      exact isKey_quoted m.1
    have hvalues : ∀ m ∈ members.map fun m => (quoted m.1, m.2.compact), IsText m.2 := by
      intro text htext
      obtain ⟨m, hm, rfl⟩ := List.mem_map.mp htext
      exact ih m hm (h m hm)
    have hobject := IsText.object hkeys hvalues areBlanks_nil
    rw [List.append_nil, List.map_map] at hobject
    rw [compact_object]
    exact hobject

theorem IsDigits.break_not_mem {cs : List Char} (h : IsDigits cs) : '\n' ∉ cs := by
  intro hmem
  exact absurd (h.2 _ hmem) (by decide)

theorem IsUnsigned.break_not_mem {cs : List Char} (h : IsUnsigned cs) : '\n' ∉ cs := by
  obtain ⟨hwhole, hfraction, hexponent⟩ := h
  simp only [List.mem_append, not_or]
  refine ⟨⟨hwhole.1.break_not_mem, ?_⟩, ?_⟩
  · cases hfraction with
    | absent => exact List.not_mem_nil
    | digits hds => simpa using hds.break_not_mem
  · cases hexponent with
    | absent => exact List.not_mem_nil
    | digits hmark hsign hds =>
      have hds := hds.break_not_mem
      rcases hmark with rfl | rfl
      · rcases hsign with rfl | rfl | rfl <;> simpa using hds
      · rcases hsign with rfl | rfl | rfl <;> simpa using hds

theorem IsNumber.break_not_mem {cs : List Char} (h : IsNumber cs) : '\n' ∉ cs := by
  cases h with
  | positive h => exact h.break_not_mem
  | negative h => simpa using h.break_not_mem

theorem IsCharacter.break_not_mem {cs : List Char} (h : IsCharacter cs) : '\n' ∉ cs := by
  cases h with
  | @plain c hcontrol _ _ =>
    -- a line break is a control character, which stands in no string as it is
    intro hmem
    rw [← List.mem_singleton.mp hmem] at hcontrol
    exact absurd hcontrol (by decide)
  | @letter c h =>
    intro hmem
    have hbreak : '\n' = c := by simpa using hmem
    rw [← hbreak] at h
    exact absurd h (by decide)
  | @code ds hlength h =>
    intro hmem
    have hbreak : '\n' ∈ ds := by simpa using hmem
    exact absurd (h _ hbreak) (by decide)

theorem IsString.break_not_mem {cs : List Char} (h : IsString cs) : '\n' ∉ cs := by
  cases h with
  | @mk pieces h =>
    intro hmem
    have hbreak : ∃ piece ∈ pieces, '\n' ∈ piece := by simpa using hmem
    obtain ⟨piece, hpiece, hbreak⟩ := hbreak
    exact (h piece hpiece).break_not_mem hbreak

/-- What is joined with commas holds no character that no part holds, but for the commas. -/
theorem not_mem_joined {c : Char} (hc : c ≠ ',') {texts : List (List Char)}
    (h : ∀ text ∈ texts, c ∉ text) (first : Bool) : c ∉ joined first texts := by
  induction texts generalizing first with
  | nil => cases first <;> exact List.not_mem_nil
  | cons text rest ih =>
    obtain ⟨htext, hrest⟩ := List.forall_mem_cons.mp h
    have hjoined := ih hrest false
    cases first with
    | true =>
      rw [joined_true_cons, List.mem_append, not_or]
      exact ⟨htext, hjoined⟩
    | false =>
      rw [joined_false_cons, List.cons_append, List.mem_cons, List.mem_append, not_or, not_or]
      exact ⟨hc, htext, hjoined⟩

/-- The one-line text of a value has no line break, not even in its strings. -/
theorem break_not_mem_compact (v : Json) (h : v.Printable) : '\n' ∉ v.compact := by
  induction v using ofParts with
  | null => decide
  | bool b => cases b <;> decide
  | number n => exact (h n List.mem_cons_self).break_not_mem
  | string s => exact (isString_quoted s).break_not_mem
  | array items ih =>
    rw [printable_array] at h
    have hitems : ∀ text ∈ items.map compact, '\n' ∉ text := by
      intro text htext
      obtain ⟨v, hv, rfl⟩ := List.mem_map.mp htext
      exact ih v hv (h v hv)
    have hjoined := not_mem_joined (by decide) hitems true
    rw [compact_array]
    simpa using hjoined
  | object members ih =>
    rw [printable_object] at h
    have hmembers : ∀ text ∈ members.map memberText, '\n' ∉ text := by
      intro text htext
      obtain ⟨m, hm, rfl⟩ := List.mem_map.mp htext
      have hkey := (isString_quoted m.1).break_not_mem
      have hvalue := ih m hm (h m hm)
      rw [memberText]
      simp [hkey, hvalue]
    have hjoined := not_mem_joined (by decide) hmembers true
    rw [compact_object]
    simpa using hjoined

/-! ## On many lines -/

theorem areBlanks_lineAt (level : Nat) : AreBlanks (lineAt level) := by
  intro c hc
  rcases List.mem_cons.mp hc with rfl | hc
  · decide
  · rw [List.eq_of_mem_replicate hc]
    decide

/-- An item on a line of its own. -/
def itemLine (level : Nat) (v : Json) : List Char := lineAt level ++ indented level v

/-- A key on a line of its own. -/
def keyLine (level : Nat) (key : String) : List Char := lineAt level ++ quoted key

/-- A member on a line of its own. -/
def memberLine (level : Nat) (m : String × Json) : List Char :=
  keyLine level m.1 ++ ':' :: ' ' :: indented level m.2

theorem indentedItems_eq (level : Nat) (items : List Json) :
    indentedItems level items =
      joined false (items.map (itemLine (level + 1))) ++ lineAt level ++ [']'] := by
  induction items with
  | nil => rfl
  | cons v items ih =>
    rw [indentedItems, ih, List.map_cons, joined_false_cons, itemLine]
    simp only [List.append_assoc, List.cons_append]

theorem indentedMembers_eq (level : Nat) (members : List (String × Json)) :
    indentedMembers level members =
      joined false (members.map (memberLine (level + 1))) ++ lineAt level ++ ['}'] := by
  induction members with
  | nil => rfl
  | cons m members ih =>
    rw [indentedMembers, ih, List.map_cons, joined_false_cons, memberLine, keyLine]
    simp only [List.append_assoc, List.cons_append]

/-- The end of a container stands on a line of its own, unless it is empty. -/
def lastLine (level : Nat) (isEmpty : Bool) : List Char := if isEmpty then [] else lineAt level

theorem areBlanks_lastLine (level : Nat) (isEmpty : Bool) :
    AreBlanks (lastLine level isEmpty) := by
  cases isEmpty with
  | true => exact areBlanks_nil
  | false => exact areBlanks_lineAt level

theorem indented_array (level : Nat) (items : List Json) :
    (array items).indented level =
      '[' :: (joined true (items.map (itemLine (level + 1))) ++
        lastLine level items.isEmpty ++ [']']) := by
  cases items with
  | nil => rfl
  | cons v items =>
    rw [indented, indentedItems_eq, List.map_cons, joined_true_cons, itemLine]
    simp only [List.append_assoc, List.cons_append, lastLine, List.isEmpty_cons,
      Bool.false_eq_true, if_false]

theorem indented_object (level : Nat) (members : List (String × Json)) :
    (object members).indented level =
      '{' :: (joined true (members.map (memberLine (level + 1))) ++
        lastLine level members.isEmpty ++ ['}']) := by
  cases members with
  | nil => rfl
  | cons m members =>
    rw [indented, indentedMembers_eq, List.map_cons, joined_true_cons, memberLine, keyLine]
    simp only [List.append_assoc, List.cons_append, lastLine, List.isEmpty_cons,
      Bool.false_eq_true, if_false]

/-- The text of a value on many lines is a JSON text, at whatever level it stands. -/
theorem isText_indented (v : Json) (h : v.Printable) (level : Nat) :
    IsText (v.indented level) := by
  induction v using ofParts generalizing level with
  | null => exact .null
  | bool b =>
    cases b with
    | true => exact .true
    | false => exact .false
  | number n => exact .number (h n List.mem_cons_self)
  | string s => exact .string (isString_quoted s)
  | array items ih =>
    rw [printable_array] at h
    -- an item stands on a line of its own, behind blanks only
    have hitems : ∀ text ∈ items.map (itemLine (level + 1)), IsText text := by
      intro text htext
      obtain ⟨v, hv, rfl⟩ := List.mem_map.mp htext
      have hline := IsText.padded (areBlanks_lineAt (level + 1)) (ih v hv (h v hv) (level + 1))
        areBlanks_nil
      rwa [List.append_nil] at hline
    rw [indented_array]
    exact .array hitems (areBlanks_lastLine level _)
  | object members ih =>
    rw [printable_object] at h
    let texts := members.map fun m =>
      (keyLine (level + 1) m.1, ' ' :: m.2.indented (level + 1))
    have hkeys : ∀ m ∈ texts, IsKey m.1 := by
      intro text htext
      obtain ⟨m, -, rfl⟩ := List.mem_map.mp htext
      have hkey := IsKey.mk (areBlanks_lineAt (level + 1)) (isString_quoted m.1) areBlanks_nil
      rwa [List.append_nil] at hkey
    have hvalues : ∀ m ∈ texts, IsText m.2 := by
      intro text htext
      obtain ⟨m, hm, rfl⟩ := List.mem_map.mp htext
      have hvalue := IsText.padded areBlanks_space (ih m hm (h m hm) (level + 1)) areBlanks_nil
      rwa [List.append_nil] at hvalue
    have hobject := IsText.object hkeys hvalues (areBlanks_lastLine level members.isEmpty)
    rw [List.map_map] at hobject
    rw [indented_object]
    exact hobject

end SessionArchive.Json
