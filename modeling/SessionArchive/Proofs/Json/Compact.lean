import SessionArchive.Json.Printer
import SessionArchive.Proofs.Json.Containers
import SessionArchive.Proofs.Json.Value

/-!
# Reading the compact text of a value

The compact text of a value is read back by `anyValue` up to its nesting and no deeper: with as
many containers allowed as the value nests it yields the value (`reads_compact`), with fewer it
fails (`fails_compact`). Only numbers may change on the way, from printed decimals to the doubles
nearest to what they say; `reread` applies that change, and leaves a value of integers alone
(`reread_of_integral`).
-/

set_option autoImplicit false

namespace SessionArchive.Json

/-! ## Numbers -/

/-- The number that the text of a number is read as. -/
def Numeral.reread (n : Numeral) : Numeral :=
  match numeral n.text with
  | .ok (m, _) => m
  | .error _ => n

/-- The text of a number begins like one, is read to its end, and yields a number that fits. -/
structure Numeral.Legible (n : Numeral) : Prop where
  begins : ∃ c cs, n.text = c :: cs ∧ (c = '-' ∨ Text.isDigit c = true)
  reads : Reads numeral n.text n.reread
  fits : n.reread.fits = true

theorem Numeral.legible_of_reads {n m : Numeral}
    (begins : ∃ c cs, n.text = c :: cs ∧ (c = '-' ∨ Text.isDigit c = true))
    (reads : Reads numeral n.text m) (fits : m.fits = true) : n.Legible ∧ n.reread = m := by
  have hself := reads [] trivial
  rw [List.append_nil] at hself
  have hreread : n.reread = m := by rw [Numeral.reread, hself]
  exact ⟨⟨begins, hreread ▸ reads, hreread ▸ fits⟩, hreread⟩

theorem Numeral.begins_integer (n : Int) :
    ∃ c cs, (Numeral.integer n).text = c :: cs ∧ (c = '-' ∨ Text.isDigit c = true) := by
  cases n with
  | ofNat n =>
    cases hds : Text.decimal n with
    | nil => exact absurd hds (Text.decimal_ne_nil n)
    | cons c cs =>
      exact ⟨c, cs, hds, Or.inr (Text.isDigit_of_mem_decimal n c (by simp [hds]))⟩
  | negSucc n => exact ⟨'-', Text.decimal (n + 1), rfl, Or.inl rfl⟩

theorem Numeral.reads_integer {n : Int} (h : (Numeral.integer n).fits = true) :
    (Numeral.integer n).Legible ∧ (Numeral.integer n).reread = .integer n :=
  Numeral.legible_of_reads (Numeral.begins_integer n)
    (fun _ hrest => numeral_signedDecimal h hrest) h

/-! ## Values -/

mutual

/-- The value that the text of a value is read as: each number becomes what its text says. -/
def reread : Json → Json
  | .array items => .array (rereadItems items)
  | .object members => .object (rereadMembers members)
  | .number n => .number n.reread
  | .null => .null
  | .bool b => .bool b
  | .string s => .string s

/-- `reread` of each value of a list. -/
def rereadItems : List Json → List Json
  | [] => []
  | v :: rest => reread v :: rereadItems rest

/-- `reread` of the value of each member. -/
def rereadMembers : List (String × Json) → List (String × Json)
  | [] => []
  | (k, v) :: rest => (k, reread v) :: rereadMembers rest

end

theorem rereadItems_eq_map (items : List Json) : rereadItems items = items.map reread := by
  induction items with
  | nil => rfl
  | cons v items ih => rw [rereadItems, ih, List.map_cons]

theorem rereadMembers_eq_map (members : List (String × Json)) :
    rereadMembers members = members.map fun m => (m.1, m.2.reread) := by
  induction members with
  | nil => rfl
  | cons m members ih => rw [rereadMembers, ih, List.map_cons]

/-- Every number of a value reads back from its text. -/
def Legible (v : Json) : Prop := ∀ n ∈ v.numbers, n.Legible

/-- The numbers of an array are those of its items. -/
theorem forall_numbers_array {p : Numeral → Prop} {items : List Json} :
    (∀ n ∈ (array items).numbers, p n) ↔ ∀ v ∈ items, ∀ n ∈ v.numbers, p n := by
  constructor
  · intro h v hv n hn
    exact h n (mem_numbersOfItems.mpr ⟨v, hv, hn⟩)
  · intro h n hn
    obtain ⟨v, hv, hn⟩ := mem_numbersOfItems.mp hn
    exact h v hv n hn

theorem forall_numbers_object {p : Numeral → Prop} {members : List (String × Json)} :
    (∀ n ∈ (object members).numbers, p n) ↔ ∀ m ∈ members, ∀ n ∈ m.2.numbers, p n := by
  constructor
  · intro h m hm n hn
    exact h n (mem_numbersOfMembers.mpr ⟨m, hm, hn⟩)
  · intro h n hn
    obtain ⟨m, hm, hn⟩ := mem_numbersOfMembers.mp hn
    exact h m hm n hn

theorem Legible.item {items : List Json} (h : (array items).Legible) :
    ∀ v ∈ items, v.Legible := forall_numbers_array.mp h

theorem Legible.member {members : List (String × Json)} (h : (object members).Legible) :
    ∀ m ∈ members, m.2.Legible := forall_numbers_object.mp h

/-- Whether a number is an integer. -/
def Numeral.isInteger : Numeral → Bool
  | .integer _ => true
  | .float _ => false

/-- No number of a value is a floating-point number. -/
def Integral (v : Json) : Prop := ∀ n ∈ v.numbers, n.isInteger = true

instance (v : Json) : Decidable v.Integral :=
  inferInstanceAs (Decidable (∀ n ∈ v.numbers, n.isInteger = true))

@[simp]
theorem integral_null : (null).Integral := List.forall_mem_nil _

@[simp]
theorem integral_bool (b : Bool) : (bool b).Integral := List.forall_mem_nil _

@[simp]
theorem integral_string (s : String) : (string s).Integral := List.forall_mem_nil _

@[simp]
theorem integral_int (n : Int) : (int n).Integral := List.forall_mem_singleton.mpr rfl

@[simp]
theorem integral_nat (n : Nat) : (nat n).Integral := integral_int n

@[simp]
theorem integral_array {items : List Json} :
    (array items).Integral ↔ ∀ v ∈ items, v.Integral := forall_numbers_array

@[simp]
theorem integral_object {members : List (String × Json)} :
    (object members).Integral ↔ ∀ m ∈ members, m.2.Integral := forall_numbers_object

theorem Numeral.reads_of_isInteger {n : Numeral} (h : n.isInteger = true)
    (hfits : n.fits = true) : n.Legible ∧ n.reread = n := by
  cases n with
  | integer i => exact reads_integer hfits
  | float x => cases h

theorem legible_of_integral {v : Json} (hint : v.Integral) (hfits : v.fits = true) :
    v.Legible := by
  intro n hn
  exact (Numeral.reads_of_isInteger (hint n hn) ((fits_iff v).1 hfits n hn)).1

/-- What a legible value is read as fits again. -/
theorem fits_reread (v : Json) (h : v.Legible) : v.reread.fits = true := by
  induction v using ofParts with
  | null => rfl
  | bool b => rfl
  | number n => exact (h n List.mem_cons_self).fits
  | string s => rfl
  | array items ih =>
    rw [reread, rereadItems_eq_map, Json.fits, allFit_iff, List.forall_mem_map]
    intro v hv
    exact ih v hv (h.item v hv)
  | object members ih =>
    rw [reread, rereadMembers_eq_map, Json.fits, membersFit_iff, List.forall_mem_map]
    intro m hm
    exact ih m hm (h.member m hm)

/-- A value of integers is read as itself. -/
theorem reread_of_integral (v : Json) (hint : v.Integral) (hfits : v.fits = true) :
    v.reread = v := by
  induction v using ofParts with
  | null => rfl
  | bool b => rfl
  | number n =>
    -- only fractions and integers out of range are read as something else
    rw [reread, (Numeral.reads_of_isInteger (hint n List.mem_cons_self) hfits).2]
  | string s => rfl
  | array items ih =>
    rw [fits, allFit_iff] at hfits
    rw [reread, rereadItems_eq_map]
    congr 1
    refine (List.map_congr_left fun v hv => ?_).trans (List.map_id items)
    exact ih v hv (fun n hn => hint n (mem_numbersOfItems.2 ⟨v, hv, hn⟩)) (hfits v hv)
  | object members ih =>
    rw [fits, membersFit_iff] at hfits
    rw [reread, rereadMembers_eq_map]
    congr 1
    refine (List.map_congr_left fun m hm => ?_).trans (List.map_id members)
    rw [ih m hm (fun n hn => hint n (mem_numbersOfMembers.2 ⟨m, hm, hn⟩)) (hfits m hm), id]

/-! ## The compact text -/

/-- The text of a member: its key, a colon and its value. -/
def memberText (m : String × Json) : List Char := quoted m.1 ++ ':' :: m.2.compact

theorem keyText_memberText (m : String × Json) :
    KeyText (memberText m) m.1 (':' :: m.2.compact) :=
  keyText_quoted m.1 (':' :: m.2.compact)

theorem compactItems_eq (items : List Json) :
    compactItems items = joined false (items.map compact) ++ [']'] := by
  induction items with
  | nil => rfl
  | cons v items ih => rw [compactItems, ih, List.map_cons, joined_false_cons, List.append_assoc]

theorem compact_array (items : List Json) :
    (array items).compact = '[' :: (joined true (items.map compact) ++ [']']) := by
  cases items with
  | nil => rfl
  | cons v items =>
    rw [compact, compactItems_eq, List.map_cons, joined_true_cons, List.append_assoc]
    rfl

theorem compactMembers_eq (members : List (String × Json)) :
    compactMembers members = joined false (members.map memberText) ++ ['}'] := by
  induction members with
  | nil => rfl
  | cons m members ih =>
    rw [compactMembers, ih, List.map_cons, joined_false_cons, memberText]
    simp only [List.append_assoc, List.cons_append]

theorem compact_object (members : List (String × Json)) :
    (object members).compact = '{' :: (joined true (members.map memberText) ++ ['}']) := by
  cases members with
  | nil => rfl
  | cons m members =>
    rw [compact, compactMembers_eq, List.map_cons, joined_true_cons, memberText]
    simp only [List.append_assoc, List.cons_append]

theorem not_blank_of_isDigit {c : Char} (h : Text.isDigit c = true) : isBlank c = false := by
  simp only [isBlank, Bool.or_eq_false_iff, beq_eq_false_iff_ne, ne_eq]
  refine ⟨⟨⟨?_, ?_⟩, ?_⟩, ?_⟩ <;>
  · rintro rfl
    exact absurd h (by decide)

/-- What begins a number is no blank and no bracket. -/
theorem plain_of_begins {c : Char} (h : c = '-' ∨ Text.isDigit c = true) :
    isBlank c = false ∧ c ≠ '[' ∧ c ≠ ']' ∧ c ≠ '{' := by
  rcases h with rfl | h
  · exact ⟨by decide, by decide, by decide, by decide⟩
  · refine ⟨not_blank_of_isDigit h, ?_, ?_, ?_⟩ <;>
    · rintro rfl
      exact absurd h (by decide)

/-- The text of a value begins with a character that is no blank and ends no array. -/
theorem begins_compact {v : Json} (h : v.Legible) :
    ∃ c cs, v.compact = c :: cs ∧ isBlank c = false ∧ c ≠ ']' := by
  cases v with
  | null => exact ⟨_, _, rfl, by decide, by decide⟩
  | bool b => cases b <;> exact ⟨_, _, rfl, by decide, by decide⟩
  | number n =>
    obtain ⟨c, cs, htext, hc⟩ := (h n List.mem_cons_self).begins
    obtain ⟨hblank, -, hbracket, -⟩ := plain_of_begins hc
    exact ⟨c, cs, htext, hblank, hbracket⟩
  | string s => exact ⟨_, _, rfl, by decide, by decide⟩
  | array items => exact ⟨_, _, compact_array items, by decide, by decide⟩
  | object members => exact ⟨_, _, compact_object members, by decide, by decide⟩

theorem skipBlanks_compact {v : Json} (h : v.Legible) : skipBlanks v.compact = v.compact := by
  obtain ⟨c, cs, htext, hc, -⟩ := begins_compact h
  rw [htext, skipBlanks_cons cs hc]

theorem beginsItem_compact {v : Json} (h : v.Legible) : BeginsItem v.compact := by
  obtain ⟨c, cs, htext, hc, hend⟩ := begins_compact h
  exact ⟨c, cs, by rw [htext, skipBlanks_cons cs hc], hend⟩

/-! ## Reading it -/

/-- What begins with neither a bracket nor a blank is read as a scalar. -/
theorem anyValue_scalar (depth : Nat) {c : Char} (cs : List Char) (hblank : isBlank c = false)
    (harray : c ≠ '[') (hobject : c ≠ '{') : anyValue depth (c :: cs) = scalar (c :: cs) := by
  cases depth <;>
  · rw [anyValue, skipBlanks_cons cs hblank]
    split
    · next heq => exact absurd (List.cons.inj heq).1 harray
    · next heq => exact absurd (List.cons.inj heq).1 hobject
    · rfl

theorem anyValue_string (depth : Nat) (s : String) (rest : List Char) :
    anyValue depth (quoted s ++ rest) = .ok (.string s, rest) := by
  rw [quoted, List.append_assoc, List.cons_append,
    anyValue_scalar depth _ (by decide) (by decide) (by decide), scalar, List.singleton_append,
    stringAfterQuote_quoted]
  rfl

/-- No quote and none of the three words begins with a sign or a digit. -/
theorem scalar_of_begins {c : Char} (cs : List Char) (hc : c = '-' ∨ Text.isDigit c = true) :
    scalar (c :: cs) = (numeral (c :: cs)).map fun (n, rest) => (.number n, rest) := by
  rw [scalar.eq_def]
  split
  · next heq => cases heq
  iterate 4
    · next heq => exact absurd hc ((List.cons.inj heq).1 ▸ by decide)
  · next heq =>
    obtain ⟨rfl, rfl⟩ := List.cons.inj heq
    rw [if_pos hc]

/-- What begins like a number is read as one. -/
theorem anyValue_of_begins (depth : Nat) {c : Char} (cs : List Char)
    (hc : c = '-' ∨ Text.isDigit c = true) :
    anyValue depth (c :: cs) = (numeral (c :: cs)).map fun (n, rest) => (.number n, rest) := by
  obtain ⟨hblank, harray, -, hobject⟩ := plain_of_begins hc
  rw [anyValue_scalar depth cs hblank harray hobject, scalar_of_begins cs hc]

theorem reads_number (depth : Nat) {n : Numeral} (h : n.Legible) :
    Reads (anyValue depth) n.text (.number n.reread) := by
  intro rest hrest
  have hread := h.reads rest hrest
  rcases h.begins with ⟨c, cs, htext, hc⟩
  rw [htext, List.cons_append] at hread ⊢
  rw [anyValue_of_begins depth _ hc, hread, map_ok]

/-- What stands between brackets is read where it reads and its end follows. -/
theorem enclosed_of_ok {α : Type} {close : Scan Unit} {inner : Scan α} {cs rest after : List Char}
    {value : α} (hinner : inner cs = .ok (value, rest)) (hclose : close rest = .ok ((), after)) :
    enclosed close inner cs = .ok (value, after) := by
  rw [enclosed, hinner]
  simp only [hclose, map_ok]

theorem enclosed_of_error {α : Type} (close : Scan Unit) {inner : Scan α} {cs : List Char}
    (hinner : ∃ fault, inner cs = .error fault) :
    ∃ fault, enclosed close inner cs = .error fault := by
  rcases hinner with ⟨fault, h⟩
  exact ⟨_, by rw [enclosed, h]⟩

theorem closeArray_bracket (rest : List Char) : closeArray (']' :: rest) = .ok ((), rest) := rfl

theorem closeObject_bracket (rest : List Char) : closeObject ('}' :: rest) = .ok ((), rest) := rfl

/-- An array is read with one more container than its items are. -/
theorem reads_array {depth : Nat} {items : List Json} (h : (array items).Legible)
    (hitems : ∀ v ∈ items, Reads (anyValue depth) v.compact v.reread) :
    Reads (anyValue (depth + 1)) (array items).compact (array items).reread := by
  intro rest _
  have hpieces : ∀ p ∈ items.map fun v => (v.compact, v.reread),
      BeginsItem p.1 ∧ Reads (anyValue depth) (skipBlanks p.1) p.2 := by
    intro p hp
    obtain ⟨v, hv, rfl⟩ := List.mem_map.1 hp
    refine ⟨beginsItem_compact (h.item v hv), ?_⟩
    show Reads _ (skipBlanks v.compact) v.reread
    rw [skipBlanks_compact (h.item v hv)]
    exact hitems v hv
  have hread := items_to_bracket (anyValue depth) _ hpieces rest
  simp only [List.map_map, Function.comp_def] at hread
  rw [compact_array, List.cons_append, List.append_assoc, anyValue,
    skipBlanks_cons _ (by decide)]
  simp only [List.singleton_append]
  rw [enclosed_of_ok hread (closeArray_bracket rest), reread, rereadItems_eq_map]
  rfl

/-- An object is read with one more container than the values of its members are. -/
theorem reads_object {depth : Nat} {members : List (String × Json)}
    (hmembers : ∀ m ∈ members, Reads (anyValue depth) m.2.compact m.2.reread) :
    Reads (anyValue (depth + 1)) (object members).compact (object members).reread := by
  intro rest _
  have hpieces : ∀ p ∈ members.map fun m => (memberText m, m.1, m.2.reread),
      ∃ text, MemberText p.1 p.2.1 text ∧ Reads (anyValue depth) text p.2.2 := by
    intro p hp
    obtain ⟨m, hm, rfl⟩ := List.mem_map.1 hp
    exact ⟨m.2.compact, memberText_quoted m.1 m.2.compact, hmembers m hm⟩
  have hread := members_to_bracket (anyValue depth) _ hpieces rest
  simp only [List.map_map, Function.comp_def] at hread
  rw [compact_object, List.cons_append, List.append_assoc, anyValue,
    skipBlanks_cons _ (by decide)]
  simp only [List.singleton_append]
  rw [enclosed_of_ok hread (closeObject_bracket rest), reread, rereadMembers_eq_map]
  rfl

/-- The compact text of a value reads back with as many containers as the value nests. -/
theorem reads_compact (v : Json) (depth : Nat) (hdepth : v.depth ≤ depth) (h : v.Legible) :
    Reads (anyValue depth) v.compact v.reread := by
  induction v using ofParts generalizing depth with
  | null => exact fun rest _ => by cases depth <;> rfl
  | bool b => exact fun rest _ => by cases depth <;> cases b <;> rfl
  | number n => exact reads_number depth (h n List.mem_cons_self)
  | string s => exact fun rest _ => anyValue_string depth s rest
  | array items ih =>
    obtain ⟨n, rfl⟩ : ∃ n, depth = n + 1 := ⟨depth - 1, by rw [Json.depth] at hdepth; omega⟩
    have hitems := depthItems_le.1 (Nat.le_of_succ_le_succ hdepth)
    exact reads_array h fun v hv => ih v hv n (hitems v hv) (h.item v hv)
  | object members ih =>
    obtain ⟨n, rfl⟩ : ∃ n, depth = n + 1 := ⟨depth - 1, by rw [Json.depth] at hdepth; omega⟩
    have hmembers := depthMembers_le.1 (Nat.le_of_succ_le_succ hdepth)
    exact reads_object fun m hm => ih m hm n (hmembers m hm) (h.member m hm)

/-- An array is refused where an item is refused: the items before it are read or refused first. -/
theorem fails_array {depth : Nat} {items : List Json} (h : (array items).Legible)
    (hitems : ∀ v ∈ items, (∃ w, Reads (anyValue depth) v.compact w) ∨
      Fails (anyValue depth) v.compact)
    (hdeep : ∃ v ∈ items, Fails (anyValue depth) v.compact) :
    Fails (anyValue (depth + 1)) (array items).compact := by
  intro rest _
  rw [compact_array, List.cons_append, List.append_assoc]
  have hitem : ∀ v ∈ items, skipBlanks v.compact = v.compact := fun v hv =>
    skipBlanks_compact (h.item v hv)
  rcases hdeep with ⟨deep, hmem, hfails⟩
  have htexts : ∀ t ∈ items.map compact, BeginsItem t ∧
      ((∃ w, Reads (anyValue depth) (skipBlanks t) w) ∨
        Fails (anyValue depth) (skipBlanks t)) := by
    intro t ht
    obtain ⟨v, hv, rfl⟩ := List.mem_map.1 ht
    refine ⟨beginsItem_compact (h.item v hv), ?_⟩
    rw [hitem v hv]
    exact hitems v hv
  have hfail := items_joined_error (anyValue depth) true (items.map compact)
    ((joined true (items.map compact) ++ ']' :: rest).length + 1)
    ((closes_self rest (Or.inl rfl)).stops (Or.inl rfl)) htexts
    ⟨deep.compact, List.mem_map_of_mem hmem, by rwa [hitem deep hmem]⟩
  obtain ⟨fault, hfault⟩ := enclosed_of_error closeArray hfail
  refine ⟨fault, ?_⟩
  rw [anyValue, skipBlanks_cons _ (by decide)]
  simp only [List.singleton_append, hfault, map_error]

/-- An object is refused where the value of a member is refused. -/
theorem fails_object {depth : Nat} {members : List (String × Json)}
    (hmembers : ∀ m ∈ members, (∃ w, Reads (anyValue depth) m.2.compact w) ∨
      Fails (anyValue depth) m.2.compact)
    (hdeep : ∃ m ∈ members, Fails (anyValue depth) m.2.compact) :
    Fails (anyValue (depth + 1)) (object members).compact := by
  intro rest _
  rw [compact_object, List.cons_append, List.append_assoc]
  rcases hdeep with ⟨deep, hmem, hfails⟩
  have hpieces : ∀ p ∈ members.map fun m => (memberText m, m.1, m.2.compact),
      MemberText p.1 p.2.1 p.2.2 ∧
        ((∃ w, Reads (anyValue depth) p.2.2 w) ∨ Fails (anyValue depth) p.2.2) := by
    intro p hp
    obtain ⟨m, hm, rfl⟩ := List.mem_map.1 hp
    exact ⟨memberText_quoted m.1 m.2.compact, hmembers m hm⟩
  have hfail := members_joined_error (anyValue depth) true
    (members.map fun m => (memberText m, m.1, m.2.compact))
    ((joined true (members.map memberText) ++ '}' :: rest).length + 1)
    ((closes_self rest (Or.inr rfl)).stops (Or.inr rfl)) hpieces
    ⟨(memberText deep, deep.1, deep.2.compact), List.mem_map_of_mem hmem, hfails⟩
  simp only [List.map_map, Function.comp_def] at hfail
  obtain ⟨fault, hfault⟩ := enclosed_of_error closeObject hfail
  refine ⟨fault, ?_⟩
  rw [anyValue, skipBlanks_cons _ (by decide)]
  simp only [List.singleton_append, hfault, map_error]

/-- The compact text of a value is refused with fewer containers than the value nests. -/
theorem fails_compact (v : Json) (depth : Nat) (hdepth : depth < v.depth) (h : v.Legible) :
    Fails (anyValue depth) v.compact := by
  induction v using ofParts generalizing depth with
  | null => exact absurd hdepth (Nat.not_lt_zero _)
  | bool b => exact absurd hdepth (Nat.not_lt_zero _)
  | number n => exact absurd hdepth (Nat.not_lt_zero _)
  | string s => exact absurd hdepth (Nat.not_lt_zero _)
  | array items ih =>
    cases depth with
    | zero =>
      -- no container is allowed, whatever it holds
      intro rest _
      rw [compact_array, List.cons_append]
      exact ⟨_, rfl⟩
    | succ n =>
      -- an item nests too deep by itself, and those before it are read or refused
      obtain ⟨deep, hmem, hdeep⟩ := exists_of_lt_depthItems (Nat.lt_of_succ_lt_succ hdepth)
      refine fails_array h (fun v hv => ?_) ⟨deep, hmem, ih deep hmem n hdeep (h.item deep hmem)⟩
      rcases Nat.lt_or_ge n v.depth with hlt | hle
      · exact Or.inr (ih v hv n hlt (h.item v hv))
      · exact Or.inl ⟨_, reads_compact v n hle (h.item v hv)⟩
  | object members ih =>
    cases depth with
    | zero =>
      intro rest _
      rw [compact_object, List.cons_append]
      exact ⟨_, rfl⟩
    | succ n =>
      obtain ⟨deep, hmem, hdeep⟩ := exists_of_lt_depthMembers (Nat.lt_of_succ_lt_succ hdepth)
      refine fails_object (fun m hm => ?_)
        ⟨deep, hmem, ih deep hmem n hdeep (h.member deep hmem)⟩
      rcases Nat.lt_or_ge n m.2.depth with hlt | hle
      · exact Or.inr (ih m hm n hlt (h.member m hm))
      · exact Or.inl ⟨_, reads_compact m.2 n hle (h.member m hm)⟩

end SessionArchive.Json
