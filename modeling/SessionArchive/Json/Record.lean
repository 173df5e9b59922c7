import SessionArchive.Json.Reader

/-!
# Records

A record is read from an object, whose keys name the fields in any order, or from an array with the
fields in order. A list of `Field`s says how; `Slots` holds the fields met so far and `Values` the
finished record. Unknown keys are passed over or kept, a known key may stand only once, and a field
with a default may be left out. The same lists serve for reading from text and from a value that was
read before: only the type of a field's reader differs.
-/

set_option autoImplicit false

namespace SessionArchive.Json

/-- A field of a record: its type, its name, how it is read, and its value when it is left out. -/
structure Field (R : Type → Type) where
  type : Type
  name : String
  read : R type
  default : Option type

/-- A field that must be there. -/
abbrev Field.required {R : Type → Type} {α : Type} (name : String) (read : R α) : Field R :=
  ⟨α, name, read, none⟩

/-- A field that may be left out. -/
abbrev Field.optional {R : Type → Type} {α : Type} (name : String) (read : R α) (default : α) :
    Field R :=
  ⟨α, name, read, some default⟩

/-- The fields of a record that were met so far. -/
abbrev Slots {R : Type → Type} : List (Field R) → Type
  | [] => Unit
  | f :: fs => Option f.type × Slots fs

/-- The values of all fields of a record. -/
abbrev Values {R : Type → Type} : List (Field R) → Type
  | [] => Unit
  | f :: fs => f.type × Values fs

/-- No field met yet. -/
def Slots.empty {R : Type → Type} : (fields : List (Field R)) → Slots fields
  | [] => ()
  | _ :: fs => (none, Slots.empty fs)

/-- The values of all fields, or the first field that is missing. -/
def Slots.finish {R : Type → Type} :
    (fields : List (Field R)) → Slots fields → Except Cause (Values fields)
  | [], _ => .ok ()
  | f :: fs, (slot, slots) =>
    match slot.or f.default with
    | some value => (Slots.finish fs slots).map fun values => (value, values)
    | none => .error (.missingMember f.name)

/-- What expects a record of so many fields. -/
def expectedRecord (description : String) (count : Nat) : String :=
  s!"{description} with {count} element" ++ if count = 1 then "" else "s"

/-- Puts the value of a known key into its slot; `none` for an unknown key. A slot that holds a
value is not given a second one. -/
def Slots.putKnown {R F : Type → Type} (map : {α β : Type} → (α → β) → F α → F β)
    (repeated : {α : Type} → String → F α) (value : (f : Field R) → F f.type) (key : String) :
    (fields : List (Field R)) → Slots fields → Option (F (Slots fields))
  | [], _ => none
  | f :: fs, (slot, slots) =>
    if f.name = key then
      match slot with
      | some _ => some (repeated f.name)
      | none => some (map (fun v => (some v, slots)) (value f))
    else
      (Slots.putKnown map repeated value key fs slots).map (map fun slots => (slot, slots))

/-! ## From text -/

/-- Changes what is read. -/
def mapScan {α β : Type} (f : α → β) (scan : Scan α) : Scan β := fun cs =>
  (scan cs).map fun (a, rest) => (f a, rest)

/-- Reads the value of a field behind its key. -/
def Field.readValue (depth : Nat) (f : Field Reader) : Scan f.type := fun cs => do
  let (_, rest) ← colon cs
  f.read depth rest

/-- Reads the value of a known key into its slot; `none` for an unknown key. That a key is repeated
is found before the colon is looked for. -/
def Slots.readKnown (key : String) (depth : Nat) (fields : List (Field Reader)) :
    Slots fields → Option (Scan (Slots fields)) :=
  Slots.putKnown mapScan (fun name => failUnplaced (.repeatedMember name)) (Field.readValue depth)
    key fields

/-- Reads the value of a key, whether the record knows it or not. -/
def Slots.readMember (fields : List (Field Reader)) (key : String) (depth : Nat)
    (slots : Slots fields) : Scan (Slots fields) := fun cs =>
  match Slots.readKnown key depth fields slots with
  | some scan => scan cs
  | none => do
    let (_, rest) ← colon cs
    let (_, rest) ← skipValue rest
    .ok (slots, rest)

/-- Reads members into their slots up to the end of the object. -/
def Slots.readMembers (fields : List (Field Reader)) (depth : Nat) :
    Nat → Bool → Slots fields → Scan (Slots fields)
  | 0, _, _, cs => failNext .objectCutOff cs
  | steps + 1, first, slots, cs => do
    let (key, rest) ← nextKey first cs
    match key with
    | none => .ok (slots, rest)
    | some key =>
      let (slots, rest) ← Slots.readMember fields key depth slots rest
      Slots.readMembers fields depth steps false slots rest

/-- Reads members up to the end of the object: the known ones into their slots, the others as they
stand. -/
def Slots.keepMembers (fields : List (Field Reader)) (depth : Nat) :
    Nat → Bool → Slots fields → Scan (Slots fields × List (String × Json))
  | 0, _, _, cs => failNext .objectCutOff cs
  | steps + 1, first, slots, cs => do
    let (key, rest) ← nextKey first cs
    match key with
    | none => .ok ((slots, []), rest)
    | some key =>
      match Slots.readKnown key depth fields slots with
      | some scan =>
        let (slots, rest) ← scan rest
        Slots.keepMembers fields depth steps false slots rest
      | none =>
        let (_, rest) ← colon rest
        let (value, rest) ← anyValue depth rest
        let ((slots, others), rest) ← Slots.keepMembers fields depth steps false slots rest
        .ok ((slots, (key, value) :: others), rest)

/-- Reads the fields of a record in order from the items of an array; `count` items stand before. -/
def Values.readItems (expected : String) (depth : Nat) :
    (fields : List (Field Reader)) → Nat → Scan (Values fields)
  | [], _, cs => .ok ((), cs)
  | f :: fs, count, cs => do
    let (more, rest) ← nextItem (count == 0) cs
    if more then
      let (value, rest) ← f.read depth rest
      let (values, rest) ← Values.readItems expected depth fs (count + 1) rest
      .ok ((value, values), rest)
    else
      match f.default with
      | some value =>
        let (values, rest) ← Values.readItems expected depth fs (count + 1) rest
        .ok ((value, values), rest)
      | none => failUnplaced (.wrongLength count expected) rest

/-- The finished record, where the object that holds it ends. -/
def Slots.finishAt {R : Type → Type} (fields : List (Field R)) (slots : Slots fields) :
    Scan (Values fields) := fun rest =>
  match Slots.finish fields slots with
  | .ok values => .ok (values, rest)
  | .error cause => failUnplaced cause rest

/-- The fields of a record from the inside of an object. -/
def readFields (fields : List (Field Reader)) : Reader (Values fields) := fun depth cs => do
  let (slots, rest) ←
    Slots.readMembers fields depth (cs.length + 1) true (Slots.empty fields) cs
  Slots.finishAt fields slots rest

/-- Reads a record from an object or an array. -/
def readRecord {α : Type} (description : String) (fields : List (Field Reader))
    (build : Values fields → α) : Reader α := fun depth cs =>
  match skipBlanks cs with
  | [] => failNext .valueCutOff []
  | '[' :: rest =>
    (enter closeArray (fun depth cs =>
      Values.readItems (expectedRecord description fields.length) depth fields 0 cs) depth
        ('[' :: rest)).map fun (values, rest) => (build values, rest)
  | '{' :: rest =>
    (enter closeObject (readFields fields) depth ('{' :: rest)).map
      fun (values, rest) => (build values, rest)
  | cs => refuse description cs

/-! ## From a value -/

/-- Takes a value of a Lean type from a value that was read before. -/
abbrev Picker (α : Type) := Json → Except Cause α

/-- Takes the value of a known key into its slot; `none` for an unknown key. -/
def Slots.pickKnown (key : String) (value : Json) (fields : List (Field Picker)) :
    Slots fields → Option (Except Cause (Slots fields)) :=
  Slots.putKnown Except.map (fun name => .error (.repeatedMember name))
    (fun f : Field Picker => f.read value) key fields

/-- Takes members into their slots; unknown keys are passed over. -/
def Slots.pickMembers (fields : List (Field Picker)) :
    List (String × Json) → Slots fields → Except Cause (Slots fields)
  | [], slots => .ok slots
  | (key, value) :: rest, slots =>
    match Slots.pickKnown key value fields slots with
    | some result => result.bind (Slots.pickMembers fields rest)
    | none => Slots.pickMembers fields rest slots

/-- The record that members make up. -/
def pickFields (fields : List (Field Picker)) (members : List (String × Json)) :
    Except Cause (Values fields) :=
  (Slots.pickMembers fields members (Slots.empty fields)).bind (Slots.finish fields)

/-- The fields of a record in order from the items of an array, with the items left over; `count`
items stand before. -/
def Values.pickItems (expected : String) :
    (fields : List (Field Picker)) → Nat → List Json → Except Cause (Values fields × List Json)
  | [], _, items => .ok ((), items)
  | f :: fs, count, [] =>
    match f.default with
    | some value =>
      (Values.pickItems expected fs (count + 1) []).map fun (values, rest) =>
        ((value, values), rest)
    | none => .error (.wrongLength count expected)
  | f :: fs, count, item :: items => do
    let value ← f.read item
    let (values, rest) ← Values.pickItems expected fs (count + 1) items
    .ok ((value, values), rest)

/-- Takes a record from an object or an array. -/
def pickRecord {α : Type} (description : String) (fields : List (Field Picker))
    (build : Values fields → α) : Picker α
  | .object members => (pickFields fields members).map build
  | .array items => do
    let (values, rest) ← Values.pickItems (expectedRecord description fields.length) fields 0 items
    match rest with
    | [] => .ok (build values)
    | _ :: _ =>
      let count := items.length - rest.length
      .error (.wrongLength items.length
        (s!"{count} element" ++ (if count = 1 then "" else "s") ++ " in sequence"))
  | other => .error (.wrongKind other.found description)

/-- A string. -/
def pickString : Picker String
  | .string s => .ok s
  | other => .error (.wrongKind other.found "a string")

/-- A truth value. -/
def pickBool : Picker Bool
  | .bool b => .ok b
  | other => .error (.wrongKind other.found "a boolean")

end SessionArchive.Json
