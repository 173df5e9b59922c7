import SessionArchive.Json.Record
import SessionArchive.Json.Words
import SessionArchive.Proofs.Json.Compact

/-!
# Reading records

`Fills` says that a member's value is read into the slot of its key, and `Filling` that a list of
members turns one filling of the slots into another. A record reads from an object whose members
fill its slots (`reads_record`), and fails where one of them does (`fails_record`). The readers of
strings, words and lists read what is printed for them.
-/

set_option autoImplicit false

namespace SessionArchive.Json

variable {α : Type}

/-! ## Values of one kind -/

theorem Closes.append {bracket : Char} {close : List Char} (h : Closes bracket close [])
    (rest : List Char) : Closes bracket (close ++ rest) rest := by
  rw [Closes, skipBlanks_append h, List.nil_append]

theorem reads_integer (expected : String) (low high : Int) (depth : Nat) {n : Int}
    (hfits : (Numeral.integer n).fits = true) (hlow : low ≤ n) (hhigh : n < high) :
    Reads (readInteger expected low high depth) (Text.signedDecimal n) n := by
  intro rest hrest
  have hread := numeral_signedDecimal hfits hrest
  obtain ⟨c, cs, htext, hc⟩ := Numeral.begins_integer n
  rw [Numeral.text] at htext
  rw [htext, List.cons_append] at hread ⊢
  have hnumber : beginsNumber c = true := by
    rcases hc with rfl | hc
    · decide
    · rw [beginsNumber, hc, Bool.or_true]
  rw [readInteger, skipBlanks_cons _ (plain_of_begins hc).1]
  simp only [hnumber, if_true, hread, ok_bind, if_pos (And.intro hlow hhigh)]

theorem reads_int64 (depth : Nat) (n : Int64) :
    Reads (readInt64 depth) (Text.signedDecimal n.toInt) n := by
  intro rest hrest
  have hlow := Int64.le_toInt n
  have hhigh := Int64.toInt_lt n
  have hfits : (Numeral.integer n.toInt).fits = true := by
    simp only [Numeral.fits, Bool.and_eq_true, decide_eq_true_eq]
    omega
  rw [readInt64, readSigned, reads_integer _ _ _ depth hfits (by omega) (by omega) rest hrest]
  simp only [map_ok, Int64.ofInt_toInt]

/-- An array of items that each read is read as their list. -/
theorem reads_list (item : Reader α) (depth : Nat) (pieces : List (List Char × α))
    (hpieces : ∀ p ∈ pieces, BeginsItem p.1 ∧ Reads (item depth) (skipBlanks p.1) p.2) :
    Reads (readList item (depth + 1)) ('[' :: (joined true (pieces.map Prod.fst) ++ [']']))
      (pieces.map Prod.snd) := by
  intro rest _
  have hread := items_to_bracket (item depth) pieces hpieces rest
  rw [List.cons_append, List.append_assoc, readList, skipBlanks_cons _ (by decide)]
  simp only [enter, List.drop_succ_cons, List.drop_zero, List.singleton_append]
  exact enclosed_of_ok hread (closeArray_bracket rest)

/-- An array fails where one item fails and each item before it reads. -/
theorem fails_list (item : Reader α) (depth : Nat) (texts : List (List Char))
    (htexts : ∀ t ∈ texts, BeginsItem t ∧
      ((∃ value, Reads (item depth) (skipBlanks t) value) ∨ Fails (item depth) (skipBlanks t)))
    (hfails : ∃ t ∈ texts, Fails (item depth) (skipBlanks t)) :
    Fails (readList item (depth + 1)) ('[' :: (joined true texts ++ [']'])) := by
  intro rest _
  have hfail := items_joined_error (item depth) true texts
    ((joined true texts ++ ']' :: rest).length + 1)
    ((closes_self rest (Or.inl rfl)).stops (Or.inl rfl)) htexts hfails
  rw [List.cons_append, List.append_assoc, readList, skipBlanks_cons _ (by decide)]
  simp only [enter, List.drop_succ_cons, List.drop_zero, List.singleton_append]
  exact enclosed_of_error closeArray hfail

/-! ## Slots -/

/-- There is a slot for the keys of the fields, and for no others. -/
theorem Slots.putKnown_eq_none_iff {R F : Type → Type} {map : {α β : Type} → (α → β) → F α → F β}
    {repeated : {α : Type} → String → F α} {value : (f : Field R) → F f.type} {key : String}
    {fields : List (Field R)} {slots : Slots fields} :
    Slots.putKnown map repeated value key fields slots = none ↔ key ∉ fields.map Field.name := by
  induction fields with
  | nil => exact iff_of_true rfl List.not_mem_nil
  | cons f fs ih =>
    obtain ⟨slot, slots⟩ := slots
    rw [List.map_cons, List.mem_cons, not_or]
    by_cases hname : f.name = key
    · cases slot <;> simp [Slots.putKnown, hname]
    · simp only [Slots.putKnown, if_neg hname, Option.map_eq_none_iff, ih]
      exact (and_iff_right (Ne.symm hname)).symm

/-- A member with a key is read into its slot, from the text that follows the key. -/
inductive Fills (key : String) (depth : Nat) (after : List Char) :
    (fields : List (Field Reader)) → Slots fields → Slots fields → Prop where
  | here {f : Field Reader} {fs : List (Field Reader)} {slots : Slots fs} {text : List Char}
      {value : f.type} (name : f.name = key) (colon : skipBlanks after = ':' :: text)
      (reads : Reads (f.read depth) text value) :
      Fills key depth after (f :: fs) (none, slots) (some value, slots)
  | there {f : Field Reader} {fs : List (Field Reader)} {slot : Option f.type}
      {slots slots' : Slots fs} (name : f.name ≠ key)
      (later : Fills key depth after fs slots slots') :
      Fills key depth after (f :: fs) (slot, slots) (slot, slots')

theorem Fills.readKnown {key : String} {depth : Nat} {after : List Char}
    {fields : List (Field Reader)} {slots slots' : Slots fields}
    (h : Fills key depth after fields slots slots') :
    ∃ scan, Slots.readKnown key depth fields slots = some scan ∧ Reads scan after slots' := by
  induction h with
  | here name colon reads =>
    -- the key names this slot: its reader runs behind the colon
    refine ⟨_, if_pos name, fun rest hrest => ?_⟩
    simp only [mapScan, Field.readValue, colon_append colon, ok_bind, reads rest hrest, map_ok]
  | there name later ih =>
    -- the key names a later slot, and this one is carried along
    rcases ih with ⟨scan, hscan, hreads⟩
    refine ⟨_, (if_neg name).trans (congrArg _ hscan), fun rest hrest => ?_⟩
    simp only [mapScan, hreads rest hrest, map_ok]

theorem Fills.reads {key : String} {depth : Nat} {after : List Char}
    {fields : List (Field Reader)} {slots slots' : Slots fields}
    (h : Fills key depth after fields slots slots') :
    Reads (Slots.readMember fields key depth slots) after slots' := by
  rcases h.readKnown with ⟨scan, hscan, hreads⟩
  intro rest hrest
  rw [Slots.readMember, hscan]
  exact hreads rest hrest

/-- A member with a key fails to be read into its slot, from the text that follows the key. -/
inductive Refuses (key : String) (depth : Nat) (after : List Char) :
    (fields : List (Field Reader)) → Slots fields → Prop where
  | here {f : Field Reader} {fs : List (Field Reader)} {slots : Slots fs} {text : List Char}
      (name : f.name = key) (colon : skipBlanks after = ':' :: text)
      (fails : Fails (f.read depth) text) : Refuses key depth after (f :: fs) (none, slots)
  | there {f : Field Reader} {fs : List (Field Reader)} {slot : Option f.type} {slots : Slots fs}
      (name : f.name ≠ key) (later : Refuses key depth after fs slots) :
      Refuses key depth after (f :: fs) (slot, slots)

theorem Refuses.readKnown {key : String} {depth : Nat} {after : List Char}
    {fields : List (Field Reader)} {slots : Slots fields}
    (h : Refuses key depth after fields slots) :
    ∃ scan, Slots.readKnown key depth fields slots = some scan ∧ Fails scan after := by
  induction h with
  | here name colon fails =>
    refine ⟨_, if_pos name, fun rest hrest => ?_⟩
    obtain ⟨fault, hfault⟩ := fails rest hrest
    exact ⟨fault, by
      simp only [mapScan, Field.readValue, colon_append colon, ok_bind, hfault, map_error]⟩
  | there name later ih =>
    rcases ih with ⟨scan, hscan, hfails⟩
    refine ⟨_, (if_neg name).trans (congrArg _ hscan), fun rest hrest => ?_⟩
    obtain ⟨fault, hfault⟩ := hfails rest hrest
    exact ⟨fault, by simp only [mapScan, hfault, map_error]⟩

theorem Refuses.fails {key : String} {depth : Nat} {after : List Char}
    {fields : List (Field Reader)} {slots : Slots fields}
    (h : Refuses key depth after fields slots) :
    Fails (Slots.readMember fields key depth slots) after := by
  rcases h.readKnown with ⟨scan, hscan, hfails⟩
  intro rest hrest
  rw [Slots.readMember, hscan]
  exact hfails rest hrest

/-- Members are read one after the other, from one filling of the slots to another. -/
inductive Filling (fields : List (Field Reader)) (depth : Nat) :
    Slots fields → List (List Char) → Slots fields → Prop where
  | nil (slots : Slots fields) : Filling fields depth slots [] slots
  | cons {slots slots' slots'' : Slots fields} {text after : List Char} {key : String}
      {texts : List (List Char)} (begins : KeyText text key after)
      (member : Reads (Slots.readMember fields key depth slots) after slots')
      (later : Filling fields depth slots' texts slots'') :
      Filling fields depth slots (text :: texts) slots''

theorem Filling.ne_nil {fields : List (Field Reader)} {depth : Nat} {slots slots' : Slots fields}
    {texts : List (List Char)} (h : Filling fields depth slots texts slots') :
    ∀ t ∈ texts, t ≠ [] := by
  induction h with
  | nil => simp
  | cons begins member later ih => exact List.forall_mem_cons.2 ⟨begins.ne_nil, ih⟩

theorem readMembers_joined {fields : List (Field Reader)} {depth : Nat}
    {slots slots' : Slots fields} {texts : List (List Char)} (first : Bool) (steps : Nat)
    {close rest : List Char} (h : Filling fields depth slots texts slots')
    (hsteps : texts.length < steps) (hclose : Closes '}' close rest) :
    Slots.readMembers fields depth steps first slots (joined first texts ++ close) =
      .ok (slots', '}' :: rest) := by
  induction h generalizing first steps with
  | nil slots =>
    obtain ⟨n, rfl⟩ : ∃ n, steps = n + 1 := ⟨steps - 1, by omega⟩
    show Slots.readMembers fields depth (n + 1) first slots close = _
    rw [Slots.readMembers, nextKey_close first hclose]
    rfl
  | cons begins member later ih =>
    -- the member is read with its slots, and the rest goes on from the slots it leaves
    obtain ⟨n, rfl⟩ : ∃ n, steps = n + 1 := ⟨steps - 1, by omega⟩
    rw [Slots.readMembers, nextKey_joined first _ close begins]
    simp only [ok_bind]
    rw [member _ (stops_joined _ (hclose.stops (Or.inr rfl)))]
    simp only [ok_bind]
    exact ih false n (Nat.lt_of_succ_lt_succ hsteps)

/-- Members fail where one fails after others that are read. -/
theorem readMembers_joined_error {fields : List (Field Reader)} {depth : Nat}
    {slots slots' : Slots fields} {texts : List (List Char)} (first : Bool) (steps : Nat)
    {text after : List Char} {key : String} (more : List (List Char)) {close : List Char}
    (h : Filling fields depth slots texts slots') (begins : KeyText text key after)
    (hfails : Fails (Slots.readMember fields key depth slots') after) (hclose : Stops close) :
    ∃ fault, Slots.readMembers fields depth steps first slots
      (joined first (texts ++ text :: more) ++ close) = .error fault := by
  induction h generalizing first steps with
  | nil slots =>
    -- the member that fails is the next one
    cases steps with
    | zero => exact ⟨_, rfl⟩
    | succ n =>
      obtain ⟨fault, hfault⟩ := hfails _ (stops_joined more hclose)
      refine ⟨fault, ?_⟩
      rw [List.nil_append, Slots.readMembers, nextKey_joined first _ close begins]
      simp only [ok_bind, hfault, error_bind]
  | cons hbegins member later ih =>
    cases steps with
    | zero => exact ⟨_, rfl⟩
    | succ n =>
      obtain ⟨fault, hfault⟩ := ih false n hfails
      refine ⟨fault, ?_⟩
      rw [List.cons_append, Slots.readMembers, nextKey_joined first _ close hbegins]
      simp only [ok_bind]
      rw [member _ (stops_joined _ hclose)]
      simp only [ok_bind, hfault]

/-- An object whose members fill the slots is read as the record that they make up. -/
theorem reads_record {description : String} {fields : List (Field Reader)}
    {build : Values fields → α} {depth : Nat} {texts : List (List Char)} {close : List Char}
    {slots : Slots fields} {values : Values fields}
    (h : Filling fields depth (Slots.empty fields) texts slots)
    (hfinish : Slots.finish fields slots = .ok values) (hclose : Closes '}' close []) :
    Reads (readRecord description fields build (depth + 1)) ('{' :: (joined true texts ++ close))
      (build values) := by
  intro rest _
  have hsteps := length_lt_steps texts h.ne_nil (close ++ rest)
  have hread := readMembers_joined true _ h hsteps (hclose.append rest)
  have hfields : readFields fields depth (joined true texts ++ (close ++ rest)) =
      .ok (values, '}' :: rest) := by
    simp only [readFields, hread, ok_bind, Slots.finishAt, hfinish]
  rw [List.cons_append, List.append_assoc, readRecord, skipBlanks_cons _ (by decide)]
  simp only [enter, List.drop_succ_cons, List.drop_zero,
    enclosed_of_ok hfields (closeObject_bracket rest), map_ok]

/-- An object is refused where the value of one member fails after others that are read. -/
theorem fails_record {description : String} {fields : List (Field Reader)}
    {build : Values fields → α} {depth : Nat} {texts : List (List Char)} {text after : List Char}
    {key : String} (more : List (List Char)) {slots : Slots fields}
    (h : Filling fields depth (Slots.empty fields) texts slots) (begins : KeyText text key after)
    (hfails : Fails (Slots.readMember fields key depth slots) after) :
    Fails (readRecord description fields build (depth + 1))
      ('{' :: (joined true (texts ++ text :: more) ++ ['}'])) := by
  intro rest _
  obtain ⟨fault, hread⟩ := readMembers_joined_error true
    ((joined true (texts ++ text :: more) ++ '}' :: rest).length + 1) more h begins hfails
    ((closes_self rest (Or.inr rfl)).stops (Or.inr rfl))
  have hfields : ∃ fault, readFields fields depth
      (joined true (texts ++ text :: more) ++ '}' :: rest) = .error fault :=
    ⟨fault, by simp only [readFields, hread, error_bind]⟩
  obtain ⟨fault, hfault⟩ := enclosed_of_error closeObject hfields
  refine ⟨fault, ?_⟩
  rw [List.cons_append, List.append_assoc, readRecord, skipBlanks_cons _ (by decide)]
  simp only [enter, List.drop_succ_cons, List.drop_zero, List.singleton_append, hfault, map_error]

/-! ## Texts that hold no record -/

theorem refuse_error (expected : String) (cs : List Char) :
    ∃ fault, (refuse expected : Scan α) cs = .error fault := by
  rw [refuse.eq_def]
  split
  · exact ⟨_, rfl⟩
  · exact ⟨_, rfl⟩
  · exact ⟨_, rfl⟩
  · cases scalar cs with
    | ok found => exact ⟨_, rfl⟩
    | error fault => exact ⟨fault, rfl⟩

/-- A container of which there is no more than the bracket is cut off. -/
theorem enter_bracket_error (close : Scan Unit) {inner : Reader α} {stop : Fault}
    (hstop : close [] = .error stop)
    (hinner : ∀ depth value rest, inner depth [] = .ok (value, rest) → rest = []) (depth : Nat)
    (bracket : Char) : ∃ fault, enter close inner depth [bracket] = .error fault := by
  cases depth with
  | zero => exact ⟨_, rfl⟩
  | succ depth =>
    rw [enter, List.drop_succ_cons, List.drop_zero, enclosed]
    cases hread : inner depth [] with
    | ok found =>
      obtain ⟨value, rest⟩ := found
      rw [hinner depth value rest hread]
      exact ⟨stop, by simp only [hstop, map_error]⟩
    | error fault => exact ⟨_, rfl⟩

/-- From the end of a text no items are read. -/
theorem readItems_nil {expected : String} {depth : Nat} {fields : List (Field Reader)}
    {values : Values fields} {rest : List Char}
    (h : Values.readItems expected depth fields 0 [] = .ok (values, rest)) : rest = [] := by
  cases fields with
  | nil =>
    cases h
    rfl
  | cons f fs => cases h

/-- A record takes two characters at least. -/
theorem readRecord_error_of_length_le {description : String} {fields : List (Field Reader)}
    {build : Values fields → α} {depth : Nat} {cs : List Char} (h : cs.length ≤ 1) :
    ∃ fault, readRecord description fields build depth cs = .error fault := by
  have hlength : (skipBlanks cs).length ≤ 1 := (List.dropWhile_suffix _).length_le.trans h
  rw [readRecord.eq_def]
  dsimp only
  split
  · exact ⟨_, rfl⟩
  · rename_i rest hbracket
    rw [hbracket, List.length_cons] at hlength
    obtain rfl : rest = [] := List.length_eq_zero_iff.mp (by omega)
    obtain ⟨fault, hfault⟩ := enter_bracket_error closeArray rfl
      (fun _ _ _ hread => readItems_nil hread) depth '['
    exact ⟨fault, by rw [hfault, map_error]⟩
  · rename_i rest hbracket
    rw [hbracket, List.length_cons] at hlength
    obtain rfl : rest = [] := List.length_eq_zero_iff.mp (by omega)
    have hfields : ∀ depth values rest, readFields fields depth [] = .ok (values, rest) →
        rest = [] := by
      intro depth values rest hread
      -- not even a key comes next
      cases hread
    obtain ⟨fault, hfault⟩ := enter_bracket_error closeObject rfl hfields depth '{'
    exact ⟨fault, by rw [hfault, map_error]⟩
  · exact refuse_error description _

end SessionArchive.Json
