import SessionArchive.Json.Record
import SessionArchive.Proofs.Except

/-!
# What a reader yields

`Yields scan p` says that whatever a scan takes from the front of a text, if it takes anything, has
a property. Lists, members and records have what their items, values and fields have: each value of
a record was read by its field or is the default of it (`yields_readRecord`, `gives_pickRecord`).
-/

set_option autoImplicit false

namespace SessionArchive.Json

variable {α : Type}

/-- What a scan takes from the front of any text has a property. -/
def Yields (scan : Scan α) (p : α → Prop) : Prop := ∀ cs, Gives (scan cs) fun found => p found.1

theorem Yields.mono {scan : Scan α} {p q : α → Prop} (h : Yields scan p) (hpq : ∀ a, p a → q a) :
    Yields scan q := fun cs found hfound => hpq found.1 (h cs found hfound)

/-- Any scan yields what it yields. -/
theorem yields_found (scan : Scan α) : Yields scan fun a => ∃ cs rest, scan cs = .ok (a, rest) :=
  fun cs found hfound => ⟨cs, found.2, hfound⟩

theorem gives_true {ε : Type} (result : Except ε α) : Gives result fun _ => True :=
  fun _ _ => trivial

/-! ## Containers -/

theorem yields_enclosed {close : Scan Unit} {inner : Scan α} {p : α → Prop}
    (h : Yields inner p) : Yields (enclosed close inner) p := by
  intro cs
  rw [enclosed]
  cases hinner : inner cs with
  | error fault => exact Gives.error _ _
  | ok found => exact (gives_true _).map fun _ _ => h cs found hinner

/-- Entering a container takes one off the number of those that may be entered. -/
theorem yields_enter {close : Scan Unit} {inner : Reader α} {p : α → Prop} {depth : Nat}
    (h : ∀ d, depth = d + 1 → Yields (inner d) p) : Yields (enter close inner depth) p := by
  intro cs
  cases depth with
  | zero => exact Gives.error _ _
  | succ d => exact yields_enclosed (h d rfl) _

theorem yields_items {item : Scan α} {p : α → Prop} (h : Yields item p) (steps : Nat)
    (first : Bool) : Yields (items item steps first) fun values => ∀ v ∈ values, p v := by
  induction steps generalizing first with
  | zero => exact fun cs => Gives.error _ _
  | succ steps ih =>
    intro cs
    rw [items]
    refine (gives_true _).bind fun (more, rest) _ => ?_
    cases more with
    | false => exact Gives.ok (List.forall_mem_nil _)
    | true =>
      refine (h rest).bind fun (value, rest) hvalue => ?_
      exact (ih false rest).bind fun (values, rest) hvalues =>
        Gives.ok (List.forall_mem_cons.mpr ⟨hvalue, hvalues⟩)

theorem yields_members {value : Scan α} {p : α → Prop} (h : Yields value p) (steps : Nat)
    (first : Bool) : Yields (members value steps first) fun found => ∀ m ∈ found, p m.2 := by
  induction steps generalizing first with
  | zero => exact fun cs => Gives.error _ _
  | succ steps ih =>
    intro cs
    rw [members]
    refine (gives_true _).bind fun (key, rest) _ => ?_
    cases key with
    | none => exact Gives.ok (List.forall_mem_nil _)
    | some key =>
      refine (gives_true _).bind fun (_, rest) _ => ?_
      refine (h rest).bind fun (v, rest) hv => ?_
      exact (ih false rest).bind fun (others, rest) hothers =>
        Gives.ok (List.forall_mem_cons.mpr ⟨hv, hothers⟩)

theorem gives_refuse (expected : String) (cs : List Char) (p : α × List Char → Prop) :
    Gives (refuse expected cs : Except Fault (α × List Char)) p := by
  rw [refuse.eq_def]
  split
  · exact Gives.error _ _
  · exact Gives.error _ _
  · exact Gives.error _ _
  · exact (gives_true _).bind fun _ _ => Gives.error _ _

theorem yields_readList {item : Reader α} {depth : Nat} {p : α → Prop}
    (h : ∀ d, depth = d + 1 → Yields (item d) p) :
    Yields (readList item depth) fun values =>
      (∃ d, depth = d + 1) ∧ ∀ v ∈ values, p v := by
  intro cs
  rw [readList]
  split
  · exact Gives.error _ _
  · have hitems : ∀ d, depth = d + 1 →
        Yields (fun cs => items (item d) (cs.length + 1) true cs) fun values =>
          (∃ d, depth = d + 1) ∧ ∀ v ∈ values, p v := by
      intro d hd cs found hfound
      exact ⟨⟨d, hd⟩, yields_items (h d hd) _ _ cs found hfound⟩
    exact yields_enter hitems _
  · exact gives_refuse _ _ _

/-! ## Fields -/

section Fields

variable {R : Type → Type}

/-- Each value of a record stands to its field in a relation. -/
def Values.All (p : (f : Field R) → f.type → Prop) :
    (fields : List (Field R)) → Values fields → Prop
  | [], _ => True
  | f :: fs, (value, values) => p f value ∧ Values.All p fs values

/-- Each field that was met stands to its value in a relation. -/
def Slots.All (p : (f : Field R) → f.type → Prop) : (fields : List (Field R)) → Slots fields → Prop
  | [], _ => True
  | f :: fs, (slot, slots) => (∀ value, slot = some value → p f value) ∧ Slots.All p fs slots

variable {p : (f : Field R) → f.type → Prop}

theorem Slots.all_empty (fields : List (Field R)) : Slots.All p fields (Slots.empty fields) := by
  induction fields with
  | nil => trivial
  | cons f fs ih => exact ⟨nofun, ih⟩

/-- A finished record holds what was met, and defaults elsewhere. -/
theorem Slots.All.finish {fields : List (Field R)} {slots : Slots fields}
    (h : Slots.All p fields slots) :
    Gives (Slots.finish fields slots)
      (Values.All (fun f value => p f value ∨ f.default = some value) fields) := by
  induction fields with
  | nil => exact fun _ _ => trivial
  | cons f fs ih =>
    obtain ⟨slot, slots⟩ := slots
    rw [Slots.finish]
    cases hslot : slot.or f.default with
    | none => exact Gives.error _ _
    | some value =>
      refine (ih h.2).map fun values hvalues => ⟨?_, hvalues⟩
      rcases Option.or_eq_some_iff.mp hslot with hmet | ⟨-, hdefault⟩
      · exact .inl (h.1 value hmet)
      · exact .inr hdefault

end Fields

/-! ## Records from text -/

/-- A field reads a value from some text. -/
def Field.ReadsAt (depth : Nat) (f : Field Reader) (value : f.type) : Prop :=
  ∃ cs rest, f.read depth cs = .ok (value, rest)

variable {depth : Nat}

theorem Slots.All.readKnown {key : String} {fields : List (Field Reader)} {slots : Slots fields}
    (h : Slots.All (Field.ReadsAt depth) fields slots) {scan : Scan (Slots fields)}
    (hscan : Slots.readKnown key depth fields slots = some scan) :
    Yields scan (Slots.All (Field.ReadsAt depth) fields) := by
  induction fields with
  | nil => cases hscan
  | cons f fs ih =>
    obtain ⟨slot, slots⟩ := slots
    simp only [Slots.readKnown, Slots.putKnown] at hscan
    split at hscan
    · cases slot with
      | some old =>
        cases hscan
        exact fun cs => Gives.error _ _
      | none =>
        -- the key names this slot, which takes what its reader yields
        cases hscan
        intro cs
        have hread : Gives (f.readValue depth cs) fun found => f.ReadsAt depth found.1 :=
          (gives_true _).bind fun (_, rest) _ => yields_found (f.read depth) rest
        refine hread.map fun found hvalue => ⟨?_, h.2⟩
        rintro _ ⟨⟩
        exact hvalue
    · obtain ⟨later, hlater, rfl⟩ := Option.map_eq_some_iff.mp hscan
      exact fun cs => (ih h.2 hlater cs).map fun _ hslots => ⟨h.1, hslots⟩

theorem Slots.All.readMember {fields : List (Field Reader)} {slots : Slots fields}
    (h : Slots.All (Field.ReadsAt depth) fields slots) (key : String) :
    Yields (Slots.readMember fields key depth slots)
      (Slots.All (Field.ReadsAt depth) fields) := by
  intro cs
  rw [Slots.readMember]
  cases hknown : Slots.readKnown key depth fields slots with
  | some scan => exact h.readKnown hknown cs
  | none =>
    -- the value of an unknown key is passed over
    exact (gives_true _).bind fun _ _ => (gives_true _).bind fun _ _ => Gives.ok h

theorem Slots.All.readMembers {fields : List (Field Reader)} {slots : Slots fields}
    (h : Slots.All (Field.ReadsAt depth) fields slots) (steps : Nat) (first : Bool) :
    Yields (Slots.readMembers fields depth steps first slots)
      (Slots.All (Field.ReadsAt depth) fields) := by
  induction steps generalizing first slots with
  | zero => exact fun cs => Gives.error _ _
  | succ steps ih =>
    intro cs
    rw [Slots.readMembers]
    refine (gives_true _).bind fun (key, rest) _ => ?_
    cases key with
    | none => exact Gives.ok h
    | some key =>
      exact (h.readMember key rest).bind fun (slots, rest) hslots => ih hslots false rest

/-- A value of a record that is read was read by its field or is the default. -/
def Field.Comes (depth : Nat) (f : Field Reader) (value : f.type) : Prop :=
  f.ReadsAt depth value ∨ f.default = some value

theorem yields_readFields (fields : List (Field Reader)) :
    Yields (readFields fields depth) (Values.All (Field.Comes depth) fields) := by
  intro cs
  have hempty : Slots.All (Field.ReadsAt depth) fields _ := Slots.all_empty fields
  have hslots := hempty.readMembers (cs.length + 1) true cs
  refine hslots.bind fun (slots, rest) hslots => ?_
  simp only [Slots.finishAt]
  cases hfinish : Slots.finish fields slots with
  | error cause => exact Gives.error _ _
  | ok values => exact Gives.ok (hslots.finish values hfinish)

theorem yields_readItems (expected : String) (fields : List (Field Reader)) (count : Nat) :
    Yields (Values.readItems expected depth fields count)
      (Values.All (Field.Comes depth) fields) := by
  induction fields generalizing count with
  | nil => exact fun cs => Gives.ok trivial
  | cons f fs ih =>
    intro cs
    rw [Values.readItems]
    refine (gives_true _).bind fun (more, rest) _ => ?_
    cases more with
    | true =>
      refine (yields_found (f.read depth) rest).bind fun (value, rest) hvalue => ?_
      exact (ih (count + 1) rest).bind fun (values, rest) hvalues =>
        Gives.ok ⟨.inl hvalue, hvalues⟩
    | false =>
      -- the array ends before this field
      cases hdefault : f.default with
      | none => exact Gives.error _ _
      | some value =>
        exact (ih (count + 1) rest).bind fun (values, rest) hvalues =>
          Gives.ok ⟨.inr hdefault, hvalues⟩

/-- What is built from the values in a container was read one level further in. -/
theorem gives_built {close : Scan Unit} {fields : List (Field Reader)}
    {inner : Reader (Values fields)} (build : Values fields → α)
    (h : ∀ d, Yields (inner d) (Values.All (Field.Comes d) fields)) (depth : Nat)
    (cs : List Char) :
    Gives ((enter close inner depth cs).map fun (values, rest) => (build values, rest))
      fun found => ∃ d values, depth = d + 1 ∧ Values.All (Field.Comes d) fields values ∧
        found.1 = build values := by
  have hentered : Yields (enter close inner depth) fun values =>
      ∃ d, depth = d + 1 ∧ Values.All (Field.Comes d) fields values :=
    yields_enter fun d hd => (h d).mono fun _ hvalues => ⟨d, hd, hvalues⟩
  exact (hentered cs).map fun (values, _) ⟨d, hd, hvalues⟩ => ⟨d, values, hd, hvalues, rfl⟩

/-- A record is built from values that were read one level further in, or are defaults. -/
theorem yields_readRecord (description : String) (fields : List (Field Reader))
    (build : Values fields → α) (depth : Nat) :
    Yields (readRecord description fields build depth) fun a =>
      ∃ d values, depth = d + 1 ∧ Values.All (Field.Comes d) fields values ∧ a = build values := by
  intro cs
  rw [readRecord.eq_def]
  dsimp only
  split
  · exact Gives.error _ _
  · exact gives_built build (fun d => yields_readItems _ fields 0) depth _
  · exact gives_built build (fun d => yields_readFields fields) depth _
  · exact gives_refuse _ _ _

/-! ## Records from values -/

/-- The values right inside an array or an object. -/
def inside : Json → List Json
  | .array items => items
  | .object members => members.map Prod.snd
  | _ => []

/-- A value of a record that is taken from another value was taken by its field from inside that
value, or is the default. -/
def Field.TakenFrom (body : Json) (f : Field Picker) (value : f.type) : Prop :=
  ∃ taken ∈ body.inside, f.read taken = .ok value

variable {body : Json}

theorem Slots.All.pickKnown {key : String} {taken : Json} {fields : List (Field Picker)}
    {slots : Slots fields} (h : Slots.All (Field.TakenFrom body) fields slots)
    (htaken : taken ∈ body.inside) {result : Except Cause (Slots fields)}
    (hresult : Slots.pickKnown key taken fields slots = some result) :
    Gives result (Slots.All (Field.TakenFrom body) fields) := by
  induction fields with
  | nil => cases hresult
  | cons f fs ih =>
    obtain ⟨slot, slots⟩ := slots
    simp only [Slots.pickKnown, Slots.putKnown] at hresult
    split at hresult
    · cases slot with
      | some old =>
        cases hresult
        exact Gives.error _ _
      | none =>
        -- the key names this slot
        cases hresult
        have hread : Gives (f.read taken) fun value => f.read taken = .ok value := fun _ h => h
        refine hread.map fun value hvalue => ⟨?_, h.2⟩
        rintro _ ⟨⟩
        exact ⟨taken, htaken, hvalue⟩
    · obtain ⟨later, hlater, rfl⟩ := Option.map_eq_some_iff.mp hresult
      exact (ih h.2 hlater).map fun _ hslots => ⟨h.1, hslots⟩

theorem Slots.All.pickMembers {fields : List (Field Picker)} {members : List (String × Json)}
    (hmembers : ∀ m ∈ members, m.2 ∈ body.inside) {slots : Slots fields}
    (h : Slots.All (Field.TakenFrom body) fields slots) :
    Gives (Slots.pickMembers fields members slots)
      (Slots.All (Field.TakenFrom body) fields) := by
  induction members generalizing slots with
  | nil => exact Gives.ok h
  | cons m members ih =>
    obtain ⟨hfirst, hrest⟩ := List.forall_mem_cons.mp hmembers
    rw [Slots.pickMembers]
    cases hknown : Slots.pickKnown m.1 m.2 fields slots with
    | none => exact ih hrest h
    | some result => exact (h.pickKnown hfirst hknown).bind fun _ => ih hrest

theorem gives_pickItems (expected : String) {fields : List (Field Picker)} {items : List Json}
    (hitems : ∀ v ∈ items, v ∈ body.inside) (count : Nat) :
    Gives (Values.pickItems expected fields count items) fun found =>
      Values.All (fun f value => f.TakenFrom body value ∨ f.default = some value) fields
        found.1 := by
  induction fields generalizing items count with
  | nil => exact Gives.ok trivial
  | cons f fs ih =>
    cases items with
    | nil =>
      rw [Values.pickItems]
      cases hdefault : f.default with
      | none => exact Gives.error _ _
      | some value => exact (ih hitems (count + 1)).map fun _ hvalues => ⟨.inr hdefault, hvalues⟩
    | cons item items =>
      obtain ⟨hfirst, hrest⟩ := List.forall_mem_cons.mp hitems
      have hread : Gives (f.read item) fun value => f.read item = .ok value := fun _ h => h
      rw [Values.pickItems]
      refine hread.bind fun value hvalue => ?_
      exact (ih hrest (count + 1)).bind fun (values, rest) hvalues =>
        Gives.ok ⟨.inl ⟨item, hfirst, hvalue⟩, hvalues⟩

/-- A record is built from values that were taken from inside an array or an object, or are
defaults. -/
theorem gives_pickRecord (description : String) (fields : List (Field Picker))
    (build : Values fields → α) (body : Json) :
    Gives (pickRecord description fields build body) fun a =>
      0 < body.depth ∧ ∃ values, a = build values ∧
        Values.All (fun f value => f.TakenFrom body value ∨ f.default = some value) fields
          values := by
  cases body with
  | object members =>
    have hmembers : ∀ m ∈ members, m.2 ∈ (Json.object members).inside := fun m hm =>
      List.mem_map_of_mem hm
    have hslots := (Slots.all_empty fields).pickMembers hmembers
    refine Gives.map (Gives.bind hslots fun slots hslots => hslots.finish) ?_
    exact fun values hvalues => ⟨Nat.succ_pos _, values, rfl, hvalues⟩
  | array items =>
    have hitems : ∀ v ∈ items, v ∈ (Json.array items).inside := fun _ hv => hv
    refine (gives_pickItems (expectedRecord description fields.length) hitems 0).bind ?_
    rintro ⟨values, rest⟩ hvalues
    cases rest with
    | nil => exact Gives.ok ⟨Nat.succ_pos _, values, rfl, hvalues⟩
    | cons item rest => exact Gives.error _ _
  | null => exact Gives.error _ _
  | bool b => exact Gives.error _ _
  | number n => exact Gives.error _ _
  | string s => exact Gives.error _ _

end SessionArchive.Json
