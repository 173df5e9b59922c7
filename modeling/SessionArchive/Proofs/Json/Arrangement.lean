import SessionArchive.Proofs.Json.Taking

/-!
# Objects in any arrangement

An `Entry` is a member that an object should have: its key, what its value has to be, and whether
it may be left out. `Arranges` says that the members of an object are given entries in some order,
with other members among them, and `IsArrangement` says it of a text. A record is read from every
arrangement of its fields (`takes_arrangement`, `pickFields_arrangement`): while members are read,
each field either holds its value, or waits for the one member that brings it, or will have its
default (`Slots.Await`).
-/

set_option autoImplicit false

namespace SessionArchive.Json

variable {α β γ : Type}

/-! ## Entries -/

/-- A member that an object should have. -/
structure Entry (β : Type) where
  /-- The key of the member. -/
  key : String
  /-- What its value has to be. -/
  holds : β → Prop
  /-- Whether the member may be left out. -/
  silent : Prop

/-- The members with a key. -/
def withKey (key : String) (members : List (String × β)) : List (String × β) :=
  members.filter fun m => m.1 == key

/-- An entry is met by members: one of them brings it, or none does and it may be left out. -/
inductive Entry.IsMet (e : Entry β) (members : List (String × β)) : Prop
  | named {b : β} (once : withKey e.key members = [(e.key, b)]) (holds : e.holds b)
  | silent (absent : withKey e.key members = []) (h : e.silent)

/-- Members are given entries in some order, and others. -/
structure Arranges (entries : List (Entry β)) (other : β → Prop)
    (members : List (String × β)) : Prop where
  known : ∀ e ∈ entries, e.IsMet members
  further : ∀ m ∈ members, m.1 ∉ entries.map Entry.key → other m.2

/-- The text of an object whose members are given entries in some order, and others. -/
inductive IsArrangement (entries : List (Entry (List Char))) (other : List Char → Prop)
    (t : List Char) : Prop
  | mk {members : List (String × List Char)} (h : IsObjectOf members t)
      (harranges : Arranges entries other members)

theorem Entry.IsMet.holds_of_mem {e : Entry β} {members : List (String × β)} (h : e.IsMet members)
    {m : String × β} (hm : m ∈ members) (hkey : m.1 = e.key) : e.holds m.2 := by
  have hmem : m ∈ withKey e.key members := List.mem_filter.mpr ⟨hm, by simpa using hkey⟩
  cases h with
  | named once holds =>
    rw [once] at hmem
    rwa [List.mem_singleton.mp hmem]
  | silent absent h =>
    rw [absent] at hmem
    exact absurd hmem List.not_mem_nil

/-- An entry asks for no less than another one with its key. -/
structure Entry.Implies (e e' : Entry β) : Prop where
  key : e.key = e'.key
  holds : ∀ b, e.holds b → e'.holds b
  silent : e.silent → e'.silent

theorem Entry.IsMet.imp {e e' : Entry β} {members : List (String × β)} (h : e.IsMet members)
    (himp : e.Implies e') : e'.IsMet members := by
  cases h with
  | named once holds => exact .named (himp.key ▸ once) (himp.holds _ holds)
  | silent absent h => exact .silent (himp.key ▸ absent) (himp.silent h)

theorem Entry.keys_eq {entries entries' : List (Entry β)}
    (h : List.Forall₂ Entry.Implies entries entries') :
    entries.map Entry.key = entries'.map Entry.key := by
  induction h with
  | nil => rfl
  | cons hfirst _ ih => rw [List.map_cons, List.map_cons, hfirst.key, ih]

theorem Entry.forall_isMet {entries entries' : List (Entry β)} {members : List (String × β)}
    (h : List.Forall₂ Entry.Implies entries entries') (hmet : ∀ e ∈ entries, e.IsMet members) :
    ∀ e ∈ entries', e.IsMet members := by
  induction h with
  | nil => exact List.forall_mem_nil _
  | cons hfirst _ ih =>
    obtain ⟨hentry, hentries⟩ := List.forall_mem_cons.mp hmet
    exact List.forall_mem_cons.mpr ⟨hentry.imp hfirst, ih hentries⟩

/-- An arrangement of entries is one of entries that ask for no more. -/
theorem IsArrangement.imp {entries entries' : List (Entry (List Char))}
    {other other' : List Char → Prop} {t : List Char} (h : IsArrangement entries other t)
    (hentries : List.Forall₂ Entry.Implies entries entries')
    (hother : ∀ t, other t → other' t) : IsArrangement entries' other' t := by
  obtain ⟨hobject, harranges⟩ := h
  refine ⟨hobject, Entry.forall_isMet hentries harranges.known, fun m hm hkey => ?_⟩
  rw [← Entry.keys_eq hentries] at hkey
  exact hother m.2 (harranges.further m hm hkey)

/-- A text that arranges texts is a text. -/
theorem IsArrangement.isText {entries : List (Entry (List Char))} {other : List Char → Prop}
    {t : List Char} (h : IsArrangement entries other t)
    (hentries : ∀ e ∈ entries, ∀ t, e.holds t → IsText t) (hother : ∀ t, other t → IsText t) :
    IsText t := by
  obtain ⟨hobject, harranges⟩ := h
  refine hobject.isText fun m hm => ?_
  by_cases hkey : m.1 ∈ entries.map Entry.key
  · obtain ⟨e, he, hname⟩ := List.mem_map.mp hkey
    exact hentries e he _ ((harranges.known e he).holds_of_mem hm hname.symm)
  · exact hother _ (harranges.further m hm hkey)

theorem withKey_cons_of_eq {key : String} {m : String × β} (h : m.1 = key)
    (members : List (String × β)) : withKey key (m :: members) = m :: withKey key members :=
  List.filter_cons_of_pos (by simpa using h)

theorem withKey_cons_of_ne {key : String} {m : String × β} (h : m.1 ≠ key)
    (members : List (String × β)) : withKey key (m :: members) = withKey key members :=
  List.filter_cons_of_neg (by simpa using h)

theorem withKey_eq_nil_iff {key : String} {members : List (String × β)} :
    withKey key members = [] ↔ ∀ m ∈ members, m.1 ≠ key := by
  simp [withKey, List.filter_eq_nil_iff]

/-- Where keys are distinct, a member is the only one with its key. -/
theorem withKey_of_mem {key : String} {b : β} {members : List (String × β)}
    (hnodup : (members.map Prod.fst).Nodup) (h : (key, b) ∈ members) :
    withKey key members = [(key, b)] := by
  induction members with
  | nil => exact absurd h List.not_mem_nil
  | cons m members ih =>
    rw [List.map_cons, List.nodup_cons] at hnodup
    obtain ⟨hnew, hrest⟩ := hnodup
    rcases List.mem_cons.mp h with rfl | h
    · have hnone : withKey key members = [] := by
        rw [withKey_eq_nil_iff]
        intro n hn heq
        exact hnew (List.mem_map.mpr ⟨n, hn, heq⟩)
      exact (withKey_cons_of_eq rfl members).trans (congrArg _ hnone)
    · have hne : m.1 ≠ key := fun heq => hnew (List.mem_map.mpr ⟨(key, b), h, heq.symm⟩)
      rw [withKey_cons_of_ne hne, ih hrest h]

/-! ## Members that become other members -/

/-- Each member of one list becomes the member of another with the same key. -/
def Become (r : β → γ → Prop) (members : List (String × β)) (others : List (String × γ)) : Prop :=
  List.Forall₂ (fun m o => m.1 = o.1 ∧ r m.2 o.2) members others

theorem Become.keys {r : β → γ → Prop} {members : List (String × β)}
    {others : List (String × γ)} (h : Become r members others) :
    members.map Prod.fst = others.map Prod.fst := by
  induction h with
  | nil => rfl
  | cons hfirst _ ih => rw [List.map_cons, List.map_cons, hfirst.1, ih]

theorem Become.withKey {r : β → γ → Prop} {members : List (String × β)}
    {others : List (String × γ)} (h : Become r members others) (key : String) :
    Become r (withKey key members) (Json.withKey key others) := by
  induction h with
  | nil => exact .nil
  | @cons m o members others hfirst _ ih =>
    by_cases hkey : m.1 = key
    · rw [withKey_cons_of_eq hkey, withKey_cons_of_eq (hfirst.1.symm.trans hkey)]
      exact .cons hfirst ih
    · have hother : o.1 ≠ key := fun heq => hkey (hfirst.1.trans heq)
      rw [withKey_cons_of_ne hkey, withKey_cons_of_ne hother]
      exact ih

/-- An entry that is met by members is met by what they become. -/
theorem Entry.IsMet.become {r : β → γ → Prop} {members : List (String × β)}
    {others : List (String × γ)} {e : Entry β} {e' : Entry γ} (h : e.IsMet members)
    (hbecome : Become r members others) (hkey : e.key = e'.key)
    (hholds : ∀ b c, e.holds b → r b c → e'.holds c) (hsilent : e.silent → e'.silent) :
    e'.IsMet others := by
  have hsame := hbecome.withKey e.key
  rw [hkey] at hsame
  cases h with
  | named once holds =>
    rw [hkey] at once
    rw [once] at hsame
    cases hothers : Json.withKey e'.key others with
    | nil =>
      rw [hothers] at hsame
      cases hsame
    | cons o rest =>
      rw [hothers] at hsame
      obtain ⟨⟨hname, hr⟩, hnone⟩ := List.forall₂_cons.mp hsame
      rw [List.forall₂_nil_left_iff.mp hnone] at hothers
      exact .named (hothers.trans (congrArg (fun k => [(k, o.2)]) hname.symm))
        (hholds _ _ holds hr)
  | silent absent h =>
    rw [hkey] at absent
    rw [absent] at hsame
    exact .silent (List.forall₂_nil_left_iff.mp hsame) (hsilent h)

/-- Members that were taken out by their keys do not matter to other keys. -/
theorem withKey_filter {key : String} {members : List (String × β)} {p : String → Bool}
    (h : p key = true) : withKey key (members.filter fun m => p m.1) = withKey key members := by
  rw [withKey, withKey, List.filter_filter]
  refine List.filter_congr fun m _ => ?_
  by_cases hkey : m.1 = key
  · simp [hkey, h]
  · simp [hkey]

theorem Entry.IsMet.filter {e : Entry β} {members : List (String × β)} (h : e.IsMet members)
    {p : String → Bool} (hkey : p e.key = true) :
    e.IsMet (members.filter fun m => p m.1) := by
  have hsame : withKey e.key (members.filter fun m => p m.1) = withKey e.key members :=
    withKey_filter hkey
  cases h with
  | named once holds => exact .named (hsame.trans once) holds
  | silent absent h => exact .silent (hsame.trans absent) h

/-! ## Slots that wait for their members -/

section Await

variable {R : Type → Type} {reads : (f : Field R) → β → f.type → Prop}

/-- What a slot holds or waits for while members are still to come: it holds the value, or one
member brings it, or none does and the value is the default. -/
inductive Field.Awaits (reads : (f : Field R) → β → f.type → Prop) (members : List (String × β))
    (f : Field R) (value : f.type) : Option f.type → Prop
  | met (absent : withKey f.name members = []) : f.Awaits reads members value (some value)
  | due {b : β} (once : withKey f.name members = [(f.name, b)]) (h : reads f b value) :
      f.Awaits reads members value none
  | silent (absent : withKey f.name members = []) (h : f.default = some value) :
      f.Awaits reads members value none

/-- Each slot of a record holds its value or waits for it. -/
def Slots.Await (reads : (f : Field R) → β → f.type → Prop) (members : List (String × β)) :
    (fields : List (Field R)) → Values fields → Slots fields → Prop
  | [], _, _ => True
  | f :: fs, (value, values), (slot, slots) =>
    f.Awaits reads members value slot ∧ Slots.Await reads members fs values slots

/-- A member is put into the slot that has its key. -/
inductive Slots.Puts (p : (f : Field R) → f.type → Prop) (key : String) :
    (fields : List (Field R)) → Slots fields → Slots fields → Prop
  | here {f : Field R} {fs : List (Field R)} {slots : Slots fs} {value : f.type}
      (name : f.name = key) (h : p f value) : Puts p key (f :: fs) (none, slots) (some value, slots)
  | there {f : Field R} {fs : List (Field R)} {slot : Option f.type} {slots slots' : Slots fs}
      (name : f.name ≠ key) (later : Puts p key fs slots slots') :
      Puts p key (f :: fs) (slot, slots) (slot, slots')

theorem Field.Awaits.of_ne {f : Field R} {value : f.type} {slot : Option f.type}
    {m : String × β} {members : List (String × β)}
    (h : f.Awaits reads (m :: members) value slot) (hne : m.1 ≠ f.name) :
    f.Awaits reads members value slot := by
  have hsame := withKey_cons_of_ne hne members
  cases h with
  | met absent => exact .met (hsame.symm.trans absent)
  | due once h => exact .due (hsame.symm.trans once) h
  | silent absent h => exact .silent (hsame.symm.trans absent) h

/-- A slot whose member comes next is empty and takes it. -/
theorem Field.Awaits.of_eq {f : Field R} {value : f.type} {slot : Option f.type} {key : String}
    {b : β} {members : List (String × β)} (h : f.Awaits reads ((key, b) :: members) value slot)
    (heq : f.name = key) :
    slot = none ∧ reads f b value ∧ f.Awaits reads members value (some value) := by
  have hfirst := withKey_cons_of_eq (m := (key, b)) heq.symm members
  cases h with
  | met absent => exact absurd (hfirst.symm.trans absent) (List.cons_ne_nil _ _)
  | silent absent h => exact absurd (hfirst.symm.trans absent) (List.cons_ne_nil _ _)
  | due once h =>
    obtain ⟨hmember, habsent⟩ := List.cons.inj (hfirst.symm.trans once)
    obtain ⟨-, rfl⟩ := Prod.mk.inj hmember
    exact ⟨rfl, h, .met habsent⟩

/-- A member that no field wants leaves every slot as it was. -/
theorem Slots.Await.of_not_mem {m : String × β} {members : List (String × β)}
    {fields : List (Field R)} {values : Values fields} {slots : Slots fields}
    (h : Slots.Await reads (m :: members) fields values slots)
    (hkey : m.1 ∉ fields.map Field.name) : Slots.Await reads members fields values slots := by
  induction fields with
  | nil => trivial
  | cons f fs ih =>
    rw [List.map_cons, List.mem_cons, not_or] at hkey
    exact ⟨h.1.of_ne hkey.1, ih h.2 hkey.2⟩

/-- A member that a field wants is put into its slot, and the others go on waiting. -/
theorem Slots.Await.exists_puts {key : String} {b : β} {members : List (String × β)}
    {fields : List (Field R)} {values : Values fields} {slots : Slots fields}
    (hnodup : (fields.map Field.name).Nodup)
    (h : Slots.Await reads ((key, b) :: members) fields values slots)
    (hkey : key ∈ fields.map Field.name) :
    ∃ slots', Slots.Puts (fun f value => reads f b value) key fields slots slots' ∧
      Slots.Await reads members fields values slots' := by
  induction fields with
  | nil => exact absurd hkey List.not_mem_nil
  | cons f fs ih =>
    obtain ⟨value, values⟩ := values
    obtain ⟨slot, slots⟩ := slots
    rw [List.map_cons, List.nodup_cons] at hnodup
    obtain ⟨hnew, hrest⟩ := hnodup
    by_cases heq : f.name = key
    · -- no other field has this name, so what the others wait for does not change
      obtain ⟨rfl, hreads, hmet⟩ := h.1.of_eq heq
      exact ⟨(some value, slots), .here heq hreads, hmet, h.2.of_not_mem (heq ▸ hnew)⟩
    · have hlater : key ∈ fs.map Field.name :=
        (List.mem_cons.mp hkey).resolve_left fun hsame => heq hsame.symm
      obtain ⟨slots', hputs, hawait⟩ := ih hrest h.2 hlater
      exact ⟨(slot, slots'), .there heq hputs, h.1.of_ne fun hsame => heq hsame.symm, hawait⟩

/-- Once all members are read, a slot holds its value or has it as its default. -/
theorem Field.Awaits.finish {f : Field R} {value : f.type} {slot : Option f.type}
    (h : f.Awaits reads ([] : List (String × β)) value slot) :
    slot.or f.default = some value := by
  cases h with
  | met _ => rfl
  | due once _ => cases once
  | silent _ h => exact h

/-- Once all members are read, the slots make up the record. -/
theorem Slots.Await.finish {fields : List (Field R)} {values : Values fields}
    {slots : Slots fields} (h : Slots.Await reads [] fields values slots) :
    Slots.finish fields slots = .ok values := by
  induction fields with
  | nil => rfl
  | cons f fs ih =>
    obtain ⟨value, values⟩ := values
    obtain ⟨slot, slots⟩ := slots
    obtain ⟨hslot, hslots⟩ := h
    rw [Slots.finish, hslot.finish]
    simp only [ih hslots, map_ok]

/-- A field reads what an entry holds as a value, and has that value where the entry is left out. -/
structure Field.Answers (reads : (f : Field R) → β → f.type → Prop) (f : Field R) (value : f.type)
    (e : Entry β) : Prop where
  key : e.key = f.name
  holds : ∀ b, e.holds b → reads f b value
  silent : e.silent → f.default = some value

/-- Each field of a record answers to an entry. -/
def Values.Answer (reads : (f : Field R) → β → f.type → Prop) :
    (fields : List (Field R)) → Values fields → List (Entry β) → Prop
  | [], _, [] => True
  | f :: fs, (value, values), e :: es => f.Answers reads value e ∧ Values.Answer reads fs values es
  | _, _, _ => False

theorem Values.Answer.keys {fields : List (Field R)} {values : Values fields}
    {entries : List (Entry β)} (h : Values.Answer reads fields values entries) :
    entries.map Entry.key = fields.map Field.name := by
  induction fields generalizing entries with
  | nil =>
    cases entries with
    | nil => rfl
    | cons e es => exact h.elim
  | cons f fs ih =>
    cases entries with
    | nil => exact h.elim
    | cons e es =>
      obtain ⟨hfirst, hrest⟩ := h
      rw [List.map_cons, List.map_cons, hfirst.key, ih hrest]

/-- Before any member is read, every field waits for its entry. -/
theorem Values.Answer.await {fields : List (Field R)} {values : Values fields}
    {entries : List (Entry β)} {members : List (String × β)}
    (h : Values.Answer reads fields values entries) (hmet : ∀ e ∈ entries, e.IsMet members) :
    Slots.Await reads members fields values (Slots.empty fields) := by
  induction fields generalizing entries with
  | nil => trivial
  | cons f fs ih =>
    cases entries with
    | nil => exact h.elim
    | cons e es =>
      obtain ⟨hfirst, hrest⟩ := h
      obtain ⟨hentry, hentries⟩ := List.forall_mem_cons.mp hmet
      refine ⟨?_, ih hrest hentries⟩
      cases hentry with
      | named once holds =>
        rw [hfirst.key] at once
        exact .due once (hfirst.holds _ holds)
      | silent absent hsilent =>
        rw [hfirst.key] at absent
        exact .silent absent (hfirst.silent hsilent)

end Await

/-! ## Records from text -/

/-- A field takes a value from a text. -/
def Field.TakesAt (depth : Nat) (f : Field Reader) (text : List Char) (value : f.type) : Prop :=
  Takes (f.read depth) text value

theorem Slots.Puts.readKnown {key : String} {depth : Nat} {after text : List Char}
    {fields : List (Field Reader)} {slots slots' : Slots fields}
    (h : Slots.Puts (fun f value => f.TakesAt depth text value) key fields slots slots')
    (hcolon : skipBlanks after = ':' :: text) :
    ∃ scan, Slots.readKnown key depth fields slots = some scan ∧ Takes scan after slots' := by
  induction h with
  | here name htakes =>
    refine ⟨_, if_pos name, fun rest hrest => ?_⟩
    obtain ⟨left, hleft, hread⟩ := htakes rest hrest
    refine ⟨left, hleft, ?_⟩
    simp only [mapScan, Field.readValue, colon_append hcolon, ok_bind, hread, map_ok]
  | there name later ih =>
    obtain ⟨scan, hscan, htakes⟩ := ih
    refine ⟨_, (if_neg name).trans (congrArg _ hscan), fun rest hrest => ?_⟩
    obtain ⟨left, hleft, hread⟩ := htakes rest hrest
    refine ⟨left, hleft, ?_⟩
    simp only [mapScan, hread, map_ok]

/-- A member is read into its slot, or passed over if no field wants it. -/
theorem Slots.Await.readMember {depth : Nat} {m : String × List Char}
    {members : List (String × List Char)} {fields : List (Field Reader)} {values : Values fields}
    {slots : Slots fields} (hnodup : (fields.map Field.name).Nodup)
    (h : Slots.Await (Field.TakesAt depth) (m :: members) fields values slots)
    (hfurther : m.1 ∉ fields.map Field.name → IsText m.2) {after : List Char}
    (hcolon : skipBlanks after = ':' :: m.2) :
    ∃ slots', Takes (Slots.readMember fields m.1 depth slots) after slots' ∧
      Slots.Await (Field.TakesAt depth) members fields values slots' := by
  by_cases hkey : m.1 ∈ fields.map Field.name
  · obtain ⟨slots', hputs, hawait⟩ := h.exists_puts hnodup hkey
    obtain ⟨scan, hscan, htakes⟩ := hputs.readKnown hcolon
    refine ⟨slots', fun rest hrest => ?_, hawait⟩
    rw [Slots.readMember, hscan]
    exact htakes rest hrest
  · refine ⟨slots, fun rest hrest => ?_, h.of_not_mem hkey⟩
    obtain ⟨left, hleft, hskip⟩ := takes_skipValue (hfurther hkey) rest hrest
    refine ⟨left, hleft, ?_⟩
    have hknown : Slots.readKnown m.1 depth fields slots = none :=
      Slots.putKnown_eq_none_iff.mpr hkey
    simp only [Slots.readMember, hknown, colon_append hcolon, ok_bind, hskip]

theorem Slots.readMembers_congr (fields : List (Field Reader)) (depth : Nat) {steps : Nat}
    (hsteps : 0 < steps) (first : Bool) (slots : Slots fields) {cs ds : List Char}
    (h : skipBlanks cs = skipBlanks ds) :
    Slots.readMembers fields depth steps first slots cs =
      Slots.readMembers fields depth steps first slots ds := by
  obtain ⟨n, rfl⟩ : ∃ n, steps = n + 1 := ⟨steps - 1, by omega⟩
  rw [Slots.readMembers, Slots.readMembers, nextKey_congr first h]

/-- The members of an object are read one after the other, until no slot waits any more. -/
theorem Slots.Await.readMembers {depth : Nat} {members : List (String × List Char)}
    {texts : List (List Char)} {fields : List (Field Reader)} {values : Values fields}
    {slots : Slots fields} (hnodup : (fields.map Field.name).Nodup)
    (htexts : List.Forall₂ (fun (m : String × List Char) text => MemberText text m.1 m.2)
      members texts)
    (hfurther : ∀ m ∈ members, m.1 ∉ fields.map Field.name → IsText m.2)
    (h : Slots.Await (Field.TakesAt depth) members fields values slots) (first : Bool)
    {steps : Nat} (hsteps : texts.length < steps) {close rest : List Char}
    (hclose : Closes '}' close rest) :
    ∃ slots', Slots.readMembers fields depth steps first slots (joined first texts ++ close) =
        .ok (slots', '}' :: rest) ∧
      Slots.Await (Field.TakesAt depth) [] fields values slots' := by
  -- on the members, while the slots fill and the steps run down
  induction htexts generalizing slots first steps with
  | nil =>
    obtain ⟨n, rfl⟩ : ∃ n, steps = n + 1 := ⟨steps - 1, by omega⟩
    refine ⟨slots, ?_, h⟩
    show Slots.readMembers fields depth (n + 1) first slots close = _
    rw [Slots.readMembers, nextKey_close first hclose]
    rfl
  | @cons m text members texts hmember _ ih =>
    obtain ⟨n, rfl⟩ : ∃ n, steps = n + 1 := ⟨steps - 1, by omega⟩
    have hmore : texts.length < n := Nat.lt_of_succ_lt_succ hsteps
    obtain ⟨after, hkey, hcolon⟩ := hmember
    obtain ⟨hfirst, hothers⟩ := List.forall_mem_cons.mp hfurther
    obtain ⟨slots', htakes, hawait⟩ := h.readMember hnodup hfirst hcolon
    obtain ⟨left, hleft, hread⟩ := htakes _ (stops_joined texts (hclose.stops (.inr rfl)))
    obtain ⟨slots'', hrest, hend⟩ := ih hothers hawait false hmore
    refine ⟨slots'', ?_, hend⟩
    rw [Slots.readMembers, nextKey_joined first _ close hkey]
    simp only [ok_bind, hread]
    rw [Slots.readMembers_congr fields depth (by omega) false slots' hleft.skip, hrest]

theorem Slots.keepMembers_congr (fields : List (Field Reader)) (depth : Nat) {steps : Nat}
    (hsteps : 0 < steps) (first : Bool) (slots : Slots fields) {cs ds : List Char}
    (h : skipBlanks cs = skipBlanks ds) :
    Slots.keepMembers fields depth steps first slots cs =
      Slots.keepMembers fields depth steps first slots ds := by
  obtain ⟨n, rfl⟩ : ∃ n, steps = n + 1 := ⟨steps - 1, by omega⟩
  rw [Slots.keepMembers, Slots.keepMembers, nextKey_congr first h]

/-- The members that fields wait for go into their slots, and the others are kept as they are
read. -/
theorem Slots.Await.keepMembers {depth : Nat} {members : List (String × List Char)}
    {texts : List (List Char)} {fields : List (Field Reader)} {values : Values fields}
    {slots : Slots fields} (hnodup : (fields.map Field.name).Nodup)
    (htexts : List.Forall₂ (fun (m : String × List Char) text => MemberText text m.1 m.2)
      members texts)
    (hothers : ∀ m ∈ members, m.1 ∉ fields.map Field.name → ∃ w, Takes (anyValue depth) m.2 w)
    (h : Slots.Await (Field.TakesAt depth) members fields values slots) (first : Bool)
    {steps : Nat} (hsteps : texts.length < steps) {close rest : List Char}
    (hclose : Closes '}' close rest) :
    ∃ slots' others,
      Slots.keepMembers fields depth steps first slots (joined first texts ++ close) =
        .ok ((slots', others), '}' :: rest) ∧
      Slots.Await (Field.TakesAt depth) [] fields values slots' ∧
      Become (Takes (anyValue depth))
        (members.filter fun m => !(fields.map Field.name).contains m.1) others := by
  -- on the members, while the slots fill and the steps run down
  induction htexts generalizing slots first steps with
  | nil =>
    obtain ⟨n, rfl⟩ : ∃ n, steps = n + 1 := ⟨steps - 1, by omega⟩
    refine ⟨slots, [], ?_, h, .nil⟩
    show Slots.keepMembers fields depth (n + 1) first slots close = _
    rw [Slots.keepMembers, nextKey_close first hclose]
    rfl
  | @cons m text members texts hmember _ ih =>
    obtain ⟨n, rfl⟩ : ∃ n, steps = n + 1 := ⟨steps - 1, by omega⟩
    have hmore : texts.length < n := Nat.lt_of_succ_lt_succ hsteps
    have hstops := stops_joined texts (hclose.stops (.inr rfl))
    obtain ⟨after, hkey, hcolon⟩ := hmember
    obtain ⟨hother, hothers⟩ := List.forall_mem_cons.mp hothers
    rw [Slots.keepMembers, nextKey_joined first _ close hkey]
    simp only [ok_bind]
    by_cases hmem : m.1 ∈ fields.map Field.name
    · obtain ⟨slots', hputs, hawait⟩ := h.exists_puts hnodup hmem
      obtain ⟨scan, hscan, htakes⟩ := hputs.readKnown hcolon
      obtain ⟨left, hleft, hread⟩ := htakes _ hstops
      obtain ⟨slots'', others, hrest, hend, hbecome⟩ := ih hothers hawait false hmore
      refine ⟨slots'', others, ?_, hend, ?_⟩
      · simp only [hscan, hread, ok_bind]
        rw [Slots.keepMembers_congr fields depth (by omega) false slots' hleft.skip, hrest]
      · rwa [List.filter_cons_of_neg (by simpa using hmem)]
    · have hknown : Slots.readKnown m.1 depth fields slots = none :=
        Slots.putKnown_eq_none_iff.mpr hmem
      obtain ⟨w, htakes⟩ := hother hmem
      obtain ⟨left, hleft, hread⟩ := htakes _ hstops
      obtain ⟨slots', others, hrest, hend, hbecome⟩ := ih hothers (h.of_not_mem hmem) false hmore
      refine ⟨slots', (m.1, w) :: others, ?_, hend, ?_⟩
      · simp only [hknown, colon_append hcolon, ok_bind, hread]
        rw [Slots.keepMembers_congr fields depth (by omega) false slots hleft.skip, hrest]
        rfl
      · rw [List.filter_cons_of_pos (by simpa using hmem)]
        exact .cons ⟨rfl, htakes⟩ hbecome

theorem memberTexts_ne_nil {members : List (String × List Char)} {texts : List (List Char)}
    (h : List.Forall₂ (fun (m : String × List Char) text => MemberText text m.1 m.2)
      members texts) : ∀ text ∈ texts, text ≠ [] := by
  induction h with
  | nil => exact List.forall_mem_nil _
  | cons hmember _ ih => exact List.forall_mem_cons.mpr ⟨hmember.ne_nil, ih⟩

theorem passesBlanks_readRecord (description : String) (fields : List (Field Reader))
    (build : Values fields → α) (depth : Nat) :
    PassesBlanks (readRecord description fields build depth) := by
  intro cs
  simp only [readRecord, skipBlanks_skipBlanks]

/-- A record is read from the text of an object whose members bring what its fields wait for. -/
theorem takes_record {description : String} {fields : List (Field Reader)}
    {build : Values fields → α} {depth : Nat} {values : Values fields}
    {members : List (String × List Char)} {t : List Char}
    (hnodup : (fields.map Field.name).Nodup)
    (hfurther : ∀ m ∈ members, m.1 ∉ fields.map Field.name → IsText m.2)
    (h : Slots.Await (Field.TakesAt depth) members fields values (Slots.empty fields))
    (hobject : IsObjectOf members t) :
    Takes (readRecord description fields build (depth + 1)) t (build values) := by
  refine hobject.takes (passesBlanks_readRecord description fields build (depth + 1)) ?_
  intro texts close rest htexts hclose
  have hsteps := length_lt_steps texts (memberTexts_ne_nil htexts) close
  obtain ⟨slots, hread, hawait⟩ := h.readMembers hnodup htexts hfurther true hsteps hclose
  have hfields : readFields fields depth (joined true texts ++ close) =
      .ok (values, '}' :: rest) := by
    simp only [readFields, hread, ok_bind, Slots.finishAt, hawait.finish]
  rw [readRecord, skipBlanks_cons _ (by decide)]
  simp only [enter, List.drop_succ_cons, List.drop_zero,
    enclosed_of_ok hfields (closeObject_bracket rest), map_ok]

/-- A record is read from every arrangement of its fields. -/
theorem takes_arrangement {description : String} {fields : List (Field Reader)}
    {build : Values fields → α} {depth : Nat} {values : Values fields}
    {entries : List (Entry (List Char))} {other : List Char → Prop} {t : List Char}
    (hnodup : (fields.map Field.name).Nodup) (hother : ∀ t, other t → IsText t)
    (hanswer : Values.Answer (Field.TakesAt depth) fields values entries)
    (h : IsArrangement entries other t) :
    Takes (readRecord description fields build (depth + 1)) t (build values) := by
  obtain ⟨hobject, harranges⟩ := h
  refine takes_record hnodup ?_ (hanswer.await harranges.known) hobject
  intro m hm hkey
  rw [← hanswer.keys] at hkey
  exact hother m.2 (harranges.further m hm hkey)

/-! ## Records from values -/

/-- A field takes a value from a value that was read before. -/
def Field.Picks (f : Field Picker) (v : Json) (value : f.type) : Prop := f.read v = .ok value

theorem Slots.Puts.pickKnown {key : String} {v : Json} {fields : List (Field Picker)}
    {slots slots' : Slots fields}
    (h : Slots.Puts (fun f value => f.Picks v value) key fields slots slots') :
    Slots.pickKnown key v fields slots = some (.ok slots') := by
  induction h with
  | here name hpicks =>
    refine (if_pos name).trans ?_
    rw [Field.Picks] at hpicks
    simp only [hpicks, map_ok]
  | there name later ih => exact (if_neg name).trans (congrArg _ ih)

theorem Slots.Await.pickMembers {members : List (String × Json)} {fields : List (Field Picker)}
    {values : Values fields} {slots : Slots fields} (hnodup : (fields.map Field.name).Nodup)
    (h : Slots.Await Field.Picks members fields values slots) :
    ∃ slots', Slots.pickMembers fields members slots = .ok slots' ∧
      Slots.Await Field.Picks [] fields values slots' := by
  induction members generalizing slots with
  | nil => exact ⟨slots, rfl, h⟩
  | cons m members ih =>
    obtain ⟨key, v⟩ := m
    by_cases hkey : key ∈ fields.map Field.name
    · obtain ⟨slots', hputs, hawait⟩ := h.exists_puts hnodup hkey
      obtain ⟨slots'', hpick, hend⟩ := ih hawait
      refine ⟨slots'', ?_, hend⟩
      rw [Slots.pickMembers, hputs.pickKnown]
      exact hpick
    · obtain ⟨slots'', hpick, hend⟩ := ih (h.of_not_mem hkey)
      refine ⟨slots'', ?_, hend⟩
      have hknown : Slots.pickKnown key v fields slots = none :=
        Slots.putKnown_eq_none_iff.mpr hkey
      rw [Slots.pickMembers, hknown]
      exact hpick

/-- A record is taken from every arrangement of its fields. -/
theorem pickFields_arrangement {members : List (String × Json)} {fields : List (Field Picker)}
    {values : Values fields} {entries : List (Entry Json)}
    (hnodup : (fields.map Field.name).Nodup)
    (hanswer : Values.Answer Field.Picks fields values entries)
    (h : ∀ e ∈ entries, e.IsMet members) : pickFields fields members = .ok values := by
  obtain ⟨slots, hpick, hawait⟩ := (hanswer.await h).pickMembers hnodup
  rw [pickFields, hpick]
  exact hawait.finish

/-! ## Any text of an object -/

/-- The entries of an object's text, none of which may be left out. -/
def entriesOf (members : List (String × Json)) : List (Entry (List Char)) :=
  members.map fun m => ⟨m.1, IsTextOf m.2, False⟩

/-- Any text of an object whose keys are distinct is an arrangement of its members, without
others. -/
theorem IsTextOf.isArrangement {members : List (String × Json)} {t : List Char}
    (h : IsTextOf (.object members) t) (hnodup : (members.map Prod.fst).Nodup) :
    IsArrangement (entriesOf members) (fun _ => False) t := by
  cases h with
  | @object _ written _ hvalues horder hobject =>
    have hkeys : ((written.map fun m => (m.1, m.2.2)).map Prod.fst).Nodup := by
      have hsame := (horder.map Prod.fst).nodup_iff.mp hnodup
      rwa [List.map_map] at hsame ⊢
    refine ⟨hobject, ?_, ?_⟩
    · intro e he
      obtain ⟨m, hm, rfl⟩ := List.mem_map.mp he
      obtain ⟨w, hw, rfl⟩ := List.mem_map.mp (horder.mem_iff.mp hm)
      exact .named (withKey_of_mem hkeys (List.mem_map_of_mem hw)) (hvalues w hw)
    · intro m hm hkey
      obtain ⟨w, hw, rfl⟩ := List.mem_map.mp hm
      refine hkey ?_
      have hmem := horder.mem_iff.mpr (List.mem_map_of_mem (f := fun m => (m.1, m.2.1)) hw)
      rw [entriesOf, List.map_map]
      exact List.mem_map_of_mem (f := Prod.fst) hmem

end SessionArchive.Json
