import SessionArchive.Number.Binary64

/-!
# JSON values

The tree of a JSON text. An object keeps its members as written; `canonicalize` orders them by key
and keeps the last of several members with one key, all the way down. `isCanonical` says that a
value is already in that form and that its numbers fit in 64 bits, signed or unsigned, which is
what reading a text yields (`isCanonical_canonicalize`).
-/

set_option autoImplicit false

namespace SessionArchive

open Number (Binary64)

/-- A JSON number: an integer, or a double-precision number. -/
inductive Json.Numeral where
  | integer (n : Int)
  | float (x : Binary64)
deriving Repr, DecidableEq

/-- A JSON value. -/
inductive Json where
  | null
  | bool (b : Bool)
  | number (n : Json.Numeral)
  | string (s : String)
  | array (items : List Json)
  | object (members : List (String × Json))
deriving Repr, Inhabited

namespace Json

/-- An integer as a value. -/
def int (n : Int) : Json := .number (.integer n)

/-- A natural number as a value. -/
def nat (n : Nat) : Json := .number (.integer n)

/-! ## The canonical form -/

/-- Puts a member among members that ascend by key, in place of one with the same key. -/
def insertMember (key : String) (value : Json) : List (String × Json) → List (String × Json)
  | [] => [(key, value)]
  | (k, v) :: rest =>
    if key < k then (key, value) :: (k, v) :: rest
    else if key = k then (key, value) :: rest
    else (k, v) :: insertMember key value rest

/-- The members ordered by key, the last one of each key. -/
def sortMembers (members : List (String × Json)) : List (String × Json) :=
  members.foldl (fun sorted member => insertMember member.1 member.2 sorted) []

mutual

/-- The value with the members of every object ordered by key, the last one of each key. -/
def canonicalize : Json → Json
  | .array items => .array (canonicalizeItems items)
  | .object members => .object (sortMembers (canonicalizeMembers members))
  | .null => .null
  | .bool b => .bool b
  | .number n => .number n
  | .string s => .string s

/-- `canonicalize` of each value of a list. -/
def canonicalizeItems : List Json → List Json
  | [] => []
  | v :: rest => canonicalize v :: canonicalizeItems rest

/-- `canonicalize` of the value of each member. -/
def canonicalizeMembers : List (String × Json) → List (String × Json)
  | [] => []
  | (k, v) :: rest => (k, canonicalize v) :: canonicalizeMembers rest

end

/-- Whether the keys of a list of members ascend strictly. -/
def ascending : List (String × Json) → Bool
  | [] => true
  | [_] => true
  | a :: b :: rest => a.1 < b.1 && ascending (b :: rest)

/-- Whether a numeral is a double-precision number or an integer of 64 bits, signed or unsigned. -/
def Numeral.fits : Numeral → Bool
  | .integer n => -0x8000000000000000 ≤ n && n ≤ 0xFFFFFFFFFFFFFFFF
  | .float x => x.isRepresentable

mutual

/-- Whether every object's keys ascend strictly and every number fits in 64 bits. -/
def isCanonical : Json → Bool
  | .array items => allCanonical items
  | .object members => ascending members && membersCanonical members
  | .number n => n.fits
  | .null => true
  | .bool _ => true
  | .string _ => true

/-- `isCanonical` of each value of a list. -/
def allCanonical : List Json → Bool
  | [] => true
  | v :: rest => isCanonical v && allCanonical rest

/-- `isCanonical` of the value of each member. -/
def membersCanonical : List (String × Json) → Bool
  | [] => true
  | (_, v) :: rest => isCanonical v && membersCanonical rest

end

mutual

/-- Whether every number of a value fits in 64 bits, as in every value that was read. -/
def fits : Json → Bool
  | .array items => allFit items
  | .object members => membersFit members
  | .number n => n.fits
  | .null => true
  | .bool _ => true
  | .string _ => true

/-- `fits` of each value of a list. -/
def allFit : List Json → Bool
  | [] => true
  | v :: rest => fits v && allFit rest

/-- `fits` of the value of each member. -/
def membersFit : List (String × Json) → Bool
  | [] => true
  | (_, v) :: rest => fits v && membersFit rest

end

/-! ## Canonical values from any values -/

/-- Keys ascend from a member on when they do after it and the next key is greater. -/
theorem ascending_cons {k : String} {v : Json} {members : List (String × Json)}
    (hlater : ascending members = true) (hnext : ∀ m ∈ members.head?, k < m.1) :
    ascending ((k, v) :: members) = true := by
  cases members with
  | nil => rfl
  | cons m rest =>
    have hlt : k < m.1 := hnext m rfl
    simp [ascending, hlt, hlater]

/-- The keys after a member ascend when they do from it on. -/
theorem ascending_tail {m : String × Json} {members : List (String × Json)}
    (h : ascending (m :: members) = true) : ascending members = true := by
  cases members with
  | nil => rfl
  | cons n rest =>
    simp only [ascending, Bool.and_eq_true] at h
    exact h.2

/-- The key after a member is greater when keys ascend. -/
theorem lt_head_of_ascending {m n : String × Json} {members : List (String × Json)}
    (h : ascending (m :: members) = true) (hnext : n ∈ members.head?) : m.1 < n.1 := by
  cases members with
  | nil => cases hnext
  | cons o rest =>
    cases hnext
    simp only [ascending, Bool.and_eq_true, decide_eq_true_eq] at h
    exact h.1

/-- The first key after an insertion is the inserted one or the first one before it. -/
theorem head_insertMember {key : String} {value : Json} {members : List (String × Json)}
    {m : String × Json} (hfirst : m ∈ (insertMember key value members).head?) :
    m.1 = key ∨ m ∈ members.head? := by
  cases members with
  | nil =>
    cases hfirst
    exact .inl rfl
  | cons n rest =>
    obtain ⟨k, v⟩ := n
    simp only [insertMember] at hfirst
    split at hfirst
    · cases hfirst
      exact .inl rfl
    · split at hfirst
      · cases hfirst
        exact .inl rfl
      · exact .inr hfirst

/-- Inserting keeps the keys ascending. -/
theorem ascending_insertMember {key : String} {value : Json} {members : List (String × Json)}
    (h : ascending members = true) : ascending (insertMember key value members) = true := by
  induction members with
  | nil => rfl
  | cons n rest ih =>
    obtain ⟨k, v⟩ := n
    simp only [insertMember]
    split
    · rename_i hbelow
      refine ascending_cons h ?_
      rintro m ⟨⟩
      exact hbelow
    · rename_i hnotBelow
      split
      · rename_i hsame
        refine ascending_cons (ascending_tail h) ?_
        intro m hm
        rw [hsame]
        exact lt_head_of_ascending h hm
      · rename_i hother
        have hlt : k < key :=
          String.not_le.mp fun hle =>
            hother (String.le_antisymm hle (String.not_lt.mp hnotBelow))
        refine ascending_cons (ih (ascending_tail h)) ?_
        intro m hm
        rcases head_insertMember hm with rfl | hold
        · exact hlt
        · exact lt_head_of_ascending h hold

/-- Inserting a canonical value among canonical ones leaves them canonical. -/
theorem membersCanonical_insertMember {key : String} {value : Json}
    {members : List (String × Json)} (hvalue : isCanonical value = true)
    (hmembers : membersCanonical members = true) :
    membersCanonical (insertMember key value members) = true := by
  induction members with
  | nil => simp [insertMember, membersCanonical, hvalue]
  | cons n rest ih =>
    obtain ⟨k, v⟩ := n
    simp only [membersCanonical, Bool.and_eq_true] at hmembers
    simp only [insertMember]
    split
    · simp [membersCanonical, hvalue, hmembers]
    · split
      · simp [membersCanonical, hvalue, hmembers]
      · simp [membersCanonical, hmembers, ih hmembers.2]

theorem foldl_insertMember_canonical {members sorted : List (String × Json)}
    (hmembers : membersCanonical members = true) (hascending : ascending sorted = true)
    (hsorted : membersCanonical sorted = true) :
    let result := members.foldl (fun sorted member => insertMember member.1 member.2 sorted) sorted
    ascending result = true ∧ membersCanonical result = true := by
  -- the members put in so far ascend and are canonical, whatever comes next
  induction members generalizing sorted with
  | nil => exact ⟨hascending, hsorted⟩
  | cons n rest ih =>
    obtain ⟨k, v⟩ := n
    simp only [membersCanonical, Bool.and_eq_true] at hmembers
    exact ih hmembers.2 (ascending_insertMember hascending)
      (membersCanonical_insertMember hmembers.1 hsorted)

/-- Sorting canonical members yields ascending keys and keeps the members canonical. -/
theorem sortMembers_canonical {members : List (String × Json)}
    (h : membersCanonical members = true) :
    ascending (sortMembers members) = true ∧ membersCanonical (sortMembers members) = true :=
  foldl_insertMember_canonical h rfl rfl

mutual

/-- A value whose integers fit is canonical once canonicalized. -/
theorem isCanonical_canonicalize : ∀ {v : Json}, fits v = true → isCanonical (canonicalize v) = true
  | .array items, h => by
    simp only [fits] at h
    simp only [canonicalize, isCanonical]
    exact allCanonical_canonicalizeItems h
  | .object members, h => by
    simp only [fits] at h
    simp only [canonicalize, isCanonical, Bool.and_eq_true]
    exact sortMembers_canonical (membersCanonical_canonicalizeMembers h)
  | .number n, h => by simpa only [canonicalize, isCanonical, fits] using h
  | .null, _ => rfl
  | .bool _, _ => rfl
  | .string _, _ => rfl

/-- `isCanonical_canonicalize` for each value of a list. -/
theorem allCanonical_canonicalizeItems :
    ∀ {items : List Json}, allFit items = true → allCanonical (canonicalizeItems items) = true
  | [], _ => rfl
  | v :: rest, h => by
    simp only [allFit, Bool.and_eq_true] at h
    simp only [canonicalizeItems, allCanonical, Bool.and_eq_true]
    exact ⟨isCanonical_canonicalize h.1, allCanonical_canonicalizeItems h.2⟩

/-- `isCanonical_canonicalize` for the value of each member. -/
theorem membersCanonical_canonicalizeMembers :
    ∀ {members : List (String × Json)}, membersFit members = true →
      membersCanonical (canonicalizeMembers members) = true
  | [], _ => rfl
  | (k, v) :: rest, h => by
    simp only [membersFit, Bool.and_eq_true] at h
    simp only [canonicalizeMembers, membersCanonical, Bool.and_eq_true]
    exact ⟨isCanonical_canonicalize h.1, membersCanonical_canonicalizeMembers h.2⟩

end

/-! ## Measures -/

mutual

/-- The number of arrays and objects nested in one another, counting the value itself. -/
def depth : Json → Nat
  | .array items => depthItems items + 1
  | .object members => depthMembers members + 1
  | .null => 0
  | .bool _ => 0
  | .number _ => 0
  | .string _ => 0

/-- The greatest `depth` in a list. -/
def depthItems : List Json → Nat
  | [] => 0
  | v :: rest => max (depth v) (depthItems rest)

/-- The greatest `depth` of the value of a member. -/
def depthMembers : List (String × Json) → Nat
  | [] => 0
  | (_, v) :: rest => max (depth v) (depthMembers rest)

end

end Json

end SessionArchive
