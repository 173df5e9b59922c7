import Mathlib.Data.List.Duplicate
import SessionArchive.Proofs.Json.Arrangement
import SessionArchive.Proofs.Json.Keeping

/-!
# Records whose members repeat a key

`Slots.Fills` follows the members of an object into the slots of a record. A slot takes one value at
most, so that no key of a field stands twice among members that were all followed
(`Slots.Fills.not_duplicate`). Whatever is read as a record, from text or from a value, fills its
slots so (`FoundIn.fills`, `gives_pickMembers`), and what repeats the key of a field is refused
wherever the two members stand and whatever they hold (`gives_pickFields_of_duplicate`).
-/

set_option autoImplicit false

namespace SessionArchive.Json

variable {α β : Type} {R : Type → Type}

/-! ## Slots that are filled -/

/-- The slot with a key holds a value. -/
inductive Slots.IsFull (key : String) : (fields : List (Field R)) → Slots fields → Prop
  | here {f : Field R} {fs : List (Field R)} {value : f.type} {slots : Slots fs}
      (name : f.name = key) : IsFull key (f :: fs) (some value, slots)
  | there {f : Field R} {fs : List (Field R)} {slot : Option f.type} {slots : Slots fs}
      (name : f.name ≠ key) (later : IsFull key fs slots) : IsFull key (f :: fs) (slot, slots)

/-- The members of an object one after the other: each is put into the slot that has its key, or
there is no such slot. -/
inductive Slots.Fills (p : β → (f : Field R) → f.type → Prop) {fields : List (Field R)} :
    List (String × β) → Slots fields → Slots fields → Prop
  | done {slots : Slots fields} : Fills p [] slots slots
  | known {key : String} {b : β} {members : List (String × β)} {slots slots' last : Slots fields}
      (first : Slots.Puts (p b) key fields slots slots') (rest : Fills p members slots' last) :
      Fills p ((key, b) :: members) slots last
  | unknown {key : String} {b : β} {members : List (String × β)} {slots last : Slots fields}
      (further : key ∉ fields.map Field.name) (rest : Fills p members slots last) :
      Fills p ((key, b) :: members) slots last

section Fills

variable {fields : List (Field R)} {slots slots' : Slots fields} {key : String}

theorem Slots.IsFull.mem (h : Slots.IsFull key fields slots) : key ∈ fields.map Field.name := by
  induction h with
  | here name => exact List.mem_map.mpr ⟨_, List.mem_cons_self, name⟩
  | there name later ih => exact List.mem_cons_of_mem _ ih

section Puts

variable {p : (f : Field R) → f.type → Prop}

theorem Slots.Puts.not_isFull (h : Slots.Puts p key fields slots slots') :
    ¬Slots.IsFull key fields slots := by
  intro hfull
  induction h with
  | here name _ =>
    cases hfull with
    | there hother _ => exact hother name
  | there name later ih =>
    cases hfull with
    | here hname => exact name hname
    | there _ hlater => exact ih hlater

theorem Slots.Puts.isFull (h : Slots.Puts p key fields slots slots') :
    Slots.IsFull key fields slots' := by
  induction h with
  | here name _ => exact .here name
  | there name later ih => exact .there name ih

/-- A slot that is filled stays so. -/
theorem Slots.Puts.isFull_mono (h : Slots.Puts p key fields slots slots') {other : String}
    (hfull : Slots.IsFull other fields slots) : Slots.IsFull other fields slots' := by
  induction h with
  | here name _ =>
    cases hfull with
    | there hother hlater => exact .there hother hlater
  | there name later ih =>
    cases hfull with
    | here hname => exact .here hname
    | there hother hlater => exact .there hother (ih hlater)

theorem Slots.Puts.exists_value (h : Slots.Puts p key fields slots slots') :
    ∃ f ∈ fields, f.name = key ∧ ∃ value, p f value := by
  induction h with
  | here name hvalue => exact ⟨_, List.mem_cons_self, name, _, hvalue⟩
  | there name later ih =>
    obtain ⟨f, hf, hfound⟩ := ih
    exact ⟨f, List.mem_cons_of_mem _ hf, hfound⟩

end Puts

variable {p : β → (f : Field R) → f.type → Prop} {members : List (String × β)}

/-- No member goes into a slot that is filled already. -/
theorem Slots.Fills.not_mem (h : Slots.Fills p members slots slots')
    (hfull : Slots.IsFull key fields slots) : key ∉ members.map Prod.fst := by
  induction h with
  | done => exact List.not_mem_nil
  | known first rest ih =>
    rw [List.map_cons, List.mem_cons, not_or]
    refine ⟨?_, ih (first.isFull_mono hfull)⟩
    rintro rfl
    exact first.not_isFull hfull
  | unknown further rest ih =>
    rw [List.map_cons, List.mem_cons, not_or]
    refine ⟨?_, ih hfull⟩
    rintro rfl
    exact further hfull.mem

/-- Among members that were all followed no key of a field stands twice. -/
theorem Slots.Fills.not_duplicate (h : Slots.Fills p members slots slots')
    (hkey : key ∈ fields.map Field.name) : ¬List.Duplicate key (members.map Prod.fst) := by
  intro hduplicate
  induction h with
  | done => cases hduplicate
  | known first rest ih =>
    cases hduplicate with
    | cons_mem hmem => exact rest.not_mem first.isFull hmem
    | cons_duplicate hlater => exact ih hlater
  | unknown further rest ih =>
    cases hduplicate with
    | cons_mem hmem => exact further hkey
    | cons_duplicate hlater => exact ih hlater

/-- A member with the key of a field was put into its slot. -/
theorem Slots.Fills.exists_value (h : Slots.Fills p members slots slots') {b : β}
    (hmem : (key, b) ∈ members) (hkey : key ∈ fields.map Field.name) :
    ∃ f ∈ fields, f.name = key ∧ ∃ value, p b f value := by
  induction h with
  | done => exact absurd hmem List.not_mem_nil
  | known first rest ih =>
    rcases List.mem_cons.mp hmem with heq | hlater
    · obtain ⟨rfl, rfl⟩ := Prod.mk.inj heq
      exact first.exists_value
    · exact ih hlater
  | unknown further rest ih =>
    rcases List.mem_cons.mp hmem with heq | hlater
    · obtain ⟨rfl, rfl⟩ := Prod.mk.inj heq
      exact absurd hkey further
    · exact ih hlater

end Fills

/-! ## Records from text -/

/-- A field's value is found in a text. -/
def Field.FindsIn (depth : Nat) (text : List Char) (f : Field Reader) (value : f.type) : Prop :=
  FoundIn (f.read depth) text value

section Text

variable {depth : Nat} {key : String} {fields : List (Field Reader)} {slots : Slots fields}

/-- A member that is read into its slot is read to its end. -/
theorem Slots.gives_readKnown {after text rest : List Char} {scan : Scan (Slots fields)}
    (hvalue : ∀ f ∈ fields, f.name = key → KeepsTo (f.read depth) text)
    (hcolon : skipBlanks after = ':' :: text) (hrest : Stops rest)
    (hscan : Slots.readKnown key depth fields slots = some scan) :
    Gives (scan (after ++ rest)) fun found =>
      Slots.Puts (Field.FindsIn depth text) key fields slots found.1 ∧
        Resumes found.2 rest := by
  induction fields with
  | nil => cases hscan
  | cons f fs ih =>
    obtain ⟨slot, slots⟩ := slots
    obtain ⟨hfirst, hlater⟩ := List.forall_mem_cons.mp hvalue
    simp only [Slots.readKnown, Slots.putKnown] at hscan
    split at hscan
    · next hname =>
      cases slot with
      -- a slot that is filled already does not take a second value
      | some old =>
        cases hscan
        exact Gives.error _ _
      | none =>
        cases hscan
        simp only [mapScan, Field.readValue, colon_append hcolon, ok_bind]
        exact ((hfirst hname).gives hrest).map fun found hfound =>
          ⟨.here hname hfound.1, hfound.2⟩
    · next hname =>
      obtain ⟨later, hknown, rfl⟩ := Option.map_eq_some_iff.mp hscan
      exact (ih hlater hknown).map fun found hfound => ⟨.there hname hfound.1, hfound.2⟩

theorem Slots.gives_readMembers_congr {steps : Nat} {first : Bool} {cs ds : List Char}
    {p : Slots fields × List Char → Prop} (hskip : skipBlanks cs = skipBlanks ds)
    (h : Gives (Slots.readMembers fields depth steps first slots ds) p) :
    Gives (Slots.readMembers fields depth steps first slots cs) p := by
  cases steps with
  | zero => exact Gives.error _ _
  | succ n => rwa [Slots.readMembers_congr fields depth n.succ_pos first slots hskip]

/-- Members are followed into their slots up to the brace behind them. -/
theorem Slots.gives_readMembers {members : List (String × List Char)} {texts : List (List Char)}
    (htexts : List.Forall₂ (fun (m : String × List Char) text => MemberText text m.1 m.2)
      members texts)
    (hvalues : ∀ m ∈ members, IsText m.2 ∧
      ∀ f ∈ fields, f.name = m.1 → KeepsTo (f.read depth) m.2) (steps : Nat) (first : Bool)
    {close rest : List Char} (hclose : Closes '}' close rest) :
    Gives (Slots.readMembers fields depth steps first slots (joined first texts ++ close))
      fun found => Slots.Fills (Field.FindsIn depth) members slots found.1 ∧
        found.2 = '}' :: rest := by
  induction steps generalizing slots members texts first with
  | zero => exact Gives.error _ _
  | succ n ih =>
    cases htexts with
    | nil =>
      show Gives (Slots.readMembers fields depth (n + 1) first slots close) _
      rw [Slots.readMembers, nextKey_close first hclose]
      exact Gives.ok ⟨.done, rfl⟩
    | @cons m text members texts hmember htexts =>
      have hstops := stops_joined texts (hclose.stops (.inr rfl))
      obtain ⟨after, hkey, hcolon⟩ := hmember
      obtain ⟨⟨htext, hvalue⟩, hothers⟩ := List.forall_mem_cons.mp hvalues
      rw [Slots.readMembers, nextKey_joined first _ close hkey]
      simp only [ok_bind, Slots.readMember]
      cases hknown : Slots.readKnown m.1 depth fields slots with
      -- a field wants this member
      | some scan =>
        refine (Slots.gives_readKnown hvalue hcolon hstops hknown).bind ?_
        rintro ⟨slots', left⟩ ⟨hputs, hleft⟩
        refine (Slots.gives_readMembers_congr hleft.skip (ih htexts hothers false)).mono ?_
        exact fun found hfound => ⟨.known hputs hfound.1, hfound.2⟩
      | none =>
        -- no field has this name, and the value is passed over
        obtain ⟨left, hleft, hskip⟩ := takes_skipValue htext _ hstops
        simp only [colon_append hcolon, ok_bind, hskip]
        refine (Slots.gives_readMembers_congr hleft.skip (ih htexts hothers false)).mono ?_
        exact fun found hfound =>
          ⟨.unknown (Slots.putKnown_eq_none_iff.mp hknown) hfound.1, hfound.2⟩

/-- A record that is found in the text of an object had its slots filled by the members. -/
theorem FoundIn.fills {description : String} {build : Values fields → α} {a : α}
    {members : List (String × List Char)} {t : List Char}
    (hvalues : ∀ m ∈ members, IsText m.2 ∧
      ∀ f ∈ fields, f.name = m.1 → ∀ depth, KeepsTo (f.read depth) m.2)
    (hobject : IsObjectOf members t)
    (h : FoundIn (readRecord description fields build depth) t a) :
    ∃ (d : Nat) (slots : Slots fields),
      Slots.Fills (Field.FindsIn d) members (Slots.empty fields) slots := by
  obtain ⟨texts, blanks, htexts, hend, hpadded⟩ := hobject.texts
  obtain ⟨rest, left, -, hread⟩ :=
    h.core (passesBlanks_readRecord description fields build depth) hpadded
  let filled := ∃ (d : Nat) (slots : Slots fields),
    Slots.Fills (Field.FindsIn d) members (Slots.empty fields) slots
  have hfields : ∀ d, Gives (readFields fields d (joined true texts ++ (blanks ++ '}' :: rest)))
      fun found => filled ∧ found.2 = '}' :: rest := by
    intro d
    have hall : ∀ m ∈ members, IsText m.2 ∧
        ∀ f ∈ fields, f.name = m.1 → KeepsTo (f.read d) m.2 := fun m hm =>
      ⟨(hvalues m hm).1, fun f hf hname => (hvalues m hm).2 f hf hname d⟩
    refine (Slots.gives_readMembers htexts hall _ true (hend.closes (.inr rfl) rest)).bind ?_
    rintro ⟨slots, left⟩ ⟨hfills, hleft⟩
    simp only [Slots.finishAt]
    -- a field that no member filled may have no default; then nothing is read
    split
    · exact Gives.ok ⟨⟨d, slots, hfills⟩, hleft⟩
    · exact Gives.error _ _
  have hentered := gives_enter (p := fun _ => filled) (closeObject_bracket rest) hfields '{' depth
  simp only [List.append_assoc, List.cons_append, List.nil_append] at hread
  rw [readRecord, skipBlanks_cons _ (by decide)] at hread
  obtain ⟨found, hfound, -⟩ := map_eq_ok_iff.mp hread
  exact (hentered found hfound).1

end Text

/-! ## Records from values -/

section Value

variable {key : String} {fields : List (Field Picker)} {slots : Slots fields}

theorem Slots.gives_pickKnown {v : Json} {result : Except Cause (Slots fields)}
    (h : Slots.pickKnown key v fields slots = some result) :
    Gives result fun slots' => Slots.Puts (fun f => f.Picks v) key fields slots slots' := by
  induction fields with
  | nil => cases h
  | cons f fs ih =>
    obtain ⟨slot, slots⟩ := slots
    simp only [Slots.pickKnown, Slots.putKnown] at h
    split at h
    · next hname =>
      cases slot with
      | some old =>
        cases h
        exact Gives.error _ _
      | none =>
        cases h
        have hpicks : Gives (f.read v) (f.Picks v) := fun _ hvalue => hvalue
        exact hpicks.map fun value hvalue => .here hname hvalue
    · next hname =>
      obtain ⟨later, hknown, rfl⟩ := Option.map_eq_some_iff.mp h
      exact (ih hknown).map fun slots' hputs => .there hname hputs

theorem gives_pickMembers (members : List (String × Json)) (slots : Slots fields) :
    Gives (Slots.pickMembers fields members slots)
      (Slots.Fills (fun v f => f.Picks v) members slots) := by
  induction members generalizing slots with
  | nil => exact Gives.ok .done
  | cons m members ih =>
    rw [Slots.pickMembers]
    cases hknown : Slots.pickKnown m.1 m.2 fields slots with
    | some result =>
      refine Gives.bind (Slots.gives_pickKnown hknown) fun slots' hputs => ?_
      exact (ih slots').mono fun last hfills => .known hputs hfills
    | none =>
      exact (ih slots).mono fun last hfills =>
        .unknown (Slots.putKnown_eq_none_iff.mp hknown) hfills

/-- Members that repeat the key of a field make up no record. -/
theorem gives_pickFields_of_duplicate {members : List (String × Json)}
    (hkey : key ∈ fields.map Field.name)
    (hduplicate : List.Duplicate key (members.map Prod.fst)) :
    Gives (pickFields fields members) fun _ => False :=
  Gives.bind (gives_pickMembers members (Slots.empty fields)) fun _ hfills =>
    absurd hduplicate (hfills.not_duplicate hkey)

end Value

end SessionArchive.Json
