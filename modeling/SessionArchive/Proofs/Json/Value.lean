import SessionArchive.Json.Printer
import SessionArchive.Json.Scan

/-!
# Values and the numbers in them

`Json.ofParts` is the induction over a value: items and the values of members come before what holds
them. `numbers` lists the numbers of a value; whether integers fit, and what printing and reading do
to a value, depends on these alone. A value in canonical form is its own canonical form
(`canonicalize_of_isCanonical`).
-/

set_option autoImplicit false

namespace SessionArchive.Json

mutual

/-- Induction over a value: items and the values of members come before what holds them. -/
theorem ofParts {motive : Json → Prop} (null : motive .null) (bool : ∀ b, motive (.bool b))
    (number : ∀ n, motive (.number n)) (string : ∀ s, motive (.string s))
    (array : ∀ items, (∀ v ∈ items, motive v) → motive (.array items))
    (object : ∀ members, (∀ m ∈ members, motive m.2) → motive (.object members)) :
    ∀ v, motive v
  | .null => null
  | .bool b => bool b
  | .number n => number n
  | .string s => string s
  | .array items => array items (ofItems null bool number string array object items)
  | .object members => object members (ofMembers null bool number string array object members)

/-- The items of an array, each by `ofParts`. -/
theorem ofItems {motive : Json → Prop} (null : motive .null) (bool : ∀ b, motive (.bool b))
    (number : ∀ n, motive (.number n)) (string : ∀ s, motive (.string s))
    (array : ∀ items, (∀ v ∈ items, motive v) → motive (.array items))
    (object : ∀ members, (∀ m ∈ members, motive m.2) → motive (.object members)) :
    ∀ items : List Json, ∀ v ∈ items, motive v
  | [] => List.forall_mem_nil _
  | v :: items =>
    List.forall_mem_cons.2 ⟨ofParts null bool number string array object v,
      ofItems null bool number string array object items⟩

/-- The values of the members of an object, each by `ofParts`. -/
theorem ofMembers {motive : Json → Prop} (null : motive .null) (bool : ∀ b, motive (.bool b))
    (number : ∀ n, motive (.number n)) (string : ∀ s, motive (.string s))
    (array : ∀ items, (∀ v ∈ items, motive v) → motive (.array items))
    (object : ∀ members, (∀ m ∈ members, motive m.2) → motive (.object members)) :
    ∀ members : List (String × Json), ∀ m ∈ members, motive m.2
  | [] => List.forall_mem_nil _
  | (_, v) :: members =>
    List.forall_mem_cons.2 ⟨ofParts null bool number string array object v,
      ofMembers null bool number string array object members⟩

end

/-! ## Measures and tests over lists -/

theorem depthItems_le {items : List Json} {d : Nat} :
    depthItems items ≤ d ↔ ∀ v ∈ items, v.depth ≤ d := by
  induction items with
  | nil => simp [depthItems]
  | cons v items ih =>
    rw [depthItems, Nat.max_le, ih, List.forall_mem_cons]

theorem depthMembers_le {members : List (String × Json)} {d : Nat} :
    depthMembers members ≤ d ↔ ∀ m ∈ members, m.2.depth ≤ d := by
  induction members with
  | nil => simp [depthMembers]
  | cons m members ih =>
    rw [depthMembers, Nat.max_le, ih, List.forall_mem_cons]

theorem exists_of_lt_depthItems {items : List Json} {d : Nat} (h : d < depthItems items) :
    ∃ v ∈ items, d < v.depth := by
  have hle := mt depthItems_le.2 (Nat.not_le.2 h)
  simp only [Classical.not_forall, Nat.not_le] at hle
  rcases hle with ⟨v, hv, hd⟩
  exact ⟨v, hv, hd⟩

theorem exists_of_lt_depthMembers {members : List (String × Json)} {d : Nat}
    (h : d < depthMembers members) : ∃ m ∈ members, d < m.2.depth := by
  have hle := mt depthMembers_le.2 (Nat.not_le.2 h)
  simp only [Classical.not_forall, Nat.not_le] at hle
  rcases hle with ⟨m, hm, hd⟩
  exact ⟨m, hm, hd⟩

theorem allFit_iff {items : List Json} :
    allFit items = true ↔ ∀ v ∈ items, v.fits = true := by
  induction items with
  | nil => simp [allFit]
  | cons v items ih => rw [allFit, Bool.and_eq_true, ih, List.forall_mem_cons]

theorem membersFit_iff {members : List (String × Json)} :
    membersFit members = true ↔ ∀ m ∈ members, m.2.fits = true := by
  induction members with
  | nil => simp [membersFit]
  | cons m members ih => rw [membersFit, Bool.and_eq_true, ih, List.forall_mem_cons]

theorem allCanonical_iff {items : List Json} :
    allCanonical items = true ↔ ∀ v ∈ items, v.isCanonical = true := by
  induction items with
  | nil => simp [allCanonical]
  | cons v items ih => rw [allCanonical, Bool.and_eq_true, ih, List.forall_mem_cons]

theorem membersCanonical_iff {members : List (String × Json)} :
    membersCanonical members = true ↔ ∀ m ∈ members, m.2.isCanonical = true := by
  induction members with
  | nil => simp [membersCanonical]
  | cons m members ih => rw [membersCanonical, Bool.and_eq_true, ih, List.forall_mem_cons]

theorem canonicalizeItems_eq_map (items : List Json) :
    canonicalizeItems items = items.map canonicalize := by
  induction items with
  | nil => rfl
  | cons v items ih => rw [canonicalizeItems, ih, List.map_cons]

theorem canonicalizeMembers_eq_map (members : List (String × Json)) :
    canonicalizeMembers members = members.map fun m => (m.1, m.2.canonicalize) := by
  induction members with
  | nil => rfl
  | cons m members ih => rw [canonicalizeMembers, ih, List.map_cons]

/-! ## Numbers -/

mutual

/-- The numbers in a value, in the order of its text. -/
def numbers : Json → List Numeral
  | .array items => numbersOfItems items
  | .object members => numbersOfMembers members
  | .number n => [n]
  | .null => []
  | .bool _ => []
  | .string _ => []

/-- The `numbers` of each value of a list. -/
def numbersOfItems : List Json → List Numeral
  | [] => []
  | v :: rest => numbers v ++ numbersOfItems rest

/-- The `numbers` of the value of each member. -/
def numbersOfMembers : List (String × Json) → List Numeral
  | [] => []
  | (_, v) :: rest => numbers v ++ numbersOfMembers rest

end

theorem mem_numbersOfItems {items : List Json} {n : Numeral} :
    n ∈ numbersOfItems items ↔ ∃ v ∈ items, n ∈ v.numbers := by
  induction items with
  | nil => simp [numbersOfItems]
  | cons v items ih => simp [numbersOfItems, ih]

theorem mem_numbersOfMembers {members : List (String × Json)} {n : Numeral} :
    n ∈ numbersOfMembers members ↔ ∃ m ∈ members, n ∈ m.2.numbers := by
  induction members with
  | nil => simp [numbersOfMembers]
  | cons m members ih => simp [numbersOfMembers, ih]

/-- The integers of a value fit when each of its numbers does. -/
theorem fits_iff (v : Json) : v.fits = true ↔ ∀ n ∈ v.numbers, n.fits = true := by
  induction v using ofParts with
  | null => simp [fits, numbers]
  | bool b => simp [fits, numbers]
  | number n => simp [fits, numbers]
  | string s => simp [fits, numbers]
  | array items ih =>
    rw [fits, allFit_iff, numbers]
    constructor
    · intro h n hn
      obtain ⟨v, hv, hn⟩ := mem_numbersOfItems.1 hn
      exact (ih v hv).1 (h v hv) n hn
    · intro h v hv
      exact (ih v hv).2 fun n hn => h n (mem_numbersOfItems.2 ⟨v, hv, hn⟩)
  | object members ih =>
    rw [fits, membersFit_iff, numbers]
    constructor
    · intro h n hn
      obtain ⟨m, hm, hn⟩ := mem_numbersOfMembers.1 hn
      exact (ih m hm).1 (h m hm) n hn
    · intro h m hm
      exact (ih m hm).2 fun n hn => h n (mem_numbersOfMembers.2 ⟨m, hm, hn⟩)

/-! ## Canonical values -/

theorem fits_of_isCanonical (v : Json) (h : v.isCanonical = true) : v.fits = true := by
  induction v using ofParts with
  | null => rfl
  | bool b => rfl
  | number n => exact h
  | string s => rfl
  | array items ih =>
    rw [isCanonical, allCanonical_iff] at h
    rw [fits, allFit_iff]
    intro v hv
    exact ih v hv (h v hv)
  | object members ih =>
    rw [isCanonical, Bool.and_eq_true, membersCanonical_iff] at h
    rw [fits, membersFit_iff]
    intro m hm
    exact ih m hm (h.2 m hm)

theorem mem_insertMember {k : String} {v : Json} {members : List (String × Json)}
    {m : String × Json} (h : m ∈ insertMember k v members) : m = (k, v) ∨ m ∈ members := by
  induction members with
  | nil => exact .inl (List.mem_singleton.mp h)
  | cons n rest ih =>
    rw [insertMember] at h
    split at h
    · exact List.mem_cons.mp h
    · split at h
      · rcases List.mem_cons.mp h with rfl | h
        · exact .inl rfl
        · exact .inr (List.mem_cons_of_mem _ h)
      · rcases List.mem_cons.mp h with rfl | h
        · exact .inr List.mem_cons_self
        · exact (ih h).imp_right (List.mem_cons_of_mem _)

theorem mem_foldl_insertMember {todo done : List (String × Json)} {m : String × Json}
    (h : m ∈ todo.foldl (fun sorted member => insertMember member.1 member.2 sorted) done) :
    m ∈ todo ∨ m ∈ done := by
  induction todo generalizing done with
  | nil => exact .inr h
  | cons n rest ih =>
    rcases ih h with hrest | hdone
    · exact .inl (List.mem_cons_of_mem _ hrest)
    · rcases mem_insertMember hdone with rfl | hdone
      · exact .inl List.mem_cons_self
      · exact .inr hdone

/-- Sorting brings in no member. -/
theorem mem_sortMembers {members : List (String × Json)} {m : String × Json}
    (h : m ∈ sortMembers members) : m ∈ members := by
  simpa using mem_foldl_insertMember h

/-- A key beyond all others goes to the end. -/
theorem insertMember_append {k : String} {v : Json} {members : List (String × Json)}
    (h : ∀ m ∈ members, m.1 < k) : insertMember k v members = members ++ [(k, v)] := by
  induction members with
  | nil => rfl
  | cons m members ih =>
    rcases m with ⟨l, w⟩
    have hlt : l < k := h (l, w) List.mem_cons_self
    -- the new key is neither below the first one nor equal to it
    rw [insertMember, if_neg (String.lt_asymm hlt),
      if_neg (fun heq : k = l => String.lt_irrefl l (heq ▸ hlt)),
      ih fun m hm => h m (List.mem_cons_of_mem _ hm), List.cons_append]

theorem lt_of_ascending {m : String × Json} {members : List (String × Json)}
    (h : ascending (m :: members) = true) : ∀ n ∈ members, m.1 < n.1 := by
  induction members generalizing m with
  | nil => simp
  | cons o members ih =>
    intro n hn
    have hlt : m.1 < o.1 := lt_head_of_ascending h rfl
    rcases List.mem_cons.1 hn with rfl | hn
    · exact hlt
    · exact String.lt_trans hlt (ih (ascending_tail h) n hn)

/-- Members in ascending order, all beyond those that are sorted already, are appended. -/
theorem foldl_insertMember {done todo : List (String × Json)} (hascending : ascending todo = true)
    (hlt : ∀ m ∈ done, ∀ n ∈ todo, m.1 < n.1) :
    todo.foldl (fun sorted member => insertMember member.1 member.2 sorted) done =
      done ++ todo := by
  induction todo generalizing done with
  | nil => simp
  | cons n todo ih =>
    have hnext : ∀ m ∈ done ++ [n], ∀ o ∈ todo, m.1 < o.1 := by
      intro m hm o ho
      rcases List.mem_append.1 hm with hm | hm
      · exact hlt m hm o (List.mem_cons_of_mem n ho)
      · rw [List.mem_singleton.1 hm]
        exact lt_of_ascending hascending o ho
    rw [List.foldl_cons, insertMember_append fun m hm => hlt m hm n List.mem_cons_self,
      ih (ascending_tail hascending) hnext, List.append_assoc, List.singleton_append]

/-- Members in ascending order of their keys are in order already. -/
theorem sortMembers_of_ascending {members : List (String × Json)}
    (h : ascending members = true) : sortMembers members = members :=
  foldl_insertMember h (by simp)

/-- A new key is put somewhere among the others. -/
theorem insertMember_perm {k : String} {v : Json} {members : List (String × Json)}
    (h : ∀ m ∈ members, m.1 ≠ k) : (insertMember k v members).Perm ((k, v) :: members) := by
  induction members with
  | nil => exact List.Perm.refl _
  | cons m members ih =>
    obtain ⟨hm, hmembers⟩ := List.forall_mem_cons.mp h
    rw [insertMember]
    split
    · exact List.Perm.refl _
    · rw [if_neg (Ne.symm hm)]
      exact ((ih hmembers).cons m).trans (List.Perm.swap _ _ _)

theorem foldl_insertMember_perm {done todo : List (String × Json)}
    (h : ((todo ++ done).map Prod.fst).Nodup) :
    (todo.foldl (fun sorted member => insertMember member.1 member.2 sorted) done).Perm
      (todo ++ done) := by
  induction todo generalizing done with
  | nil => exact List.Perm.refl _
  | cons n todo ih =>
    rw [List.cons_append, List.map_cons, List.nodup_cons] at h
    obtain ⟨hnew, hrest⟩ := h
    have hinsert : (insertMember n.1 n.2 done).Perm (n :: done) := by
      refine insertMember_perm fun m hm heq => hnew ?_
      rw [← heq]
      exact List.mem_map_of_mem (List.mem_append_right _ hm)
    have hmiddle : (todo ++ insertMember n.1 n.2 done).Perm (n :: (todo ++ done)) :=
      (hinsert.append_left todo).trans List.perm_middle
    refine (ih ?_).trans hmiddle
    rw [(hmiddle.map Prod.fst).nodup_iff, List.map_cons, List.nodup_cons]
    exact ⟨hnew, hrest⟩

theorem ascending_foldl_insertMember {done todo : List (String × Json)}
    (h : ascending done = true) :
    ascending (todo.foldl (fun sorted member => insertMember member.1 member.2 sorted) done) =
      true := by
  induction todo generalizing done with
  | nil => exact h
  | cons n todo ih => exact ih (ascending_insertMember h)

theorem pairwise_of_ascending {members : List (String × Json)} (h : ascending members = true) :
    members.Pairwise fun m n => m.1 < n.1 := by
  induction members with
  | nil => exact .nil
  | cons m members ih => exact .cons (lt_of_ascending h) (ih (ascending_tail h))

/-- The keys of members in ascending order are distinct. -/
theorem nodup_of_ascending {members : List (String × Json)} (h : ascending members = true) :
    (members.map Prod.fst).Nodup := by
  rw [List.Nodup, List.pairwise_map]
  refine (pairwise_of_ascending h).imp ?_
  intro m n hlt heq
  rw [heq] at hlt
  exact String.lt_irrefl _ hlt

/-- Members in ascending order are what sorting makes of them in any order. -/
theorem sortMembers_of_perm {written members : List (String × Json)} (hperm : members.Perm written)
    (h : ascending members = true) : sortMembers written = members := by
  have hkeys : ((written ++ []).map Prod.fst).Nodup := by
    rw [List.append_nil, ← (hperm.map Prod.fst).nodup_iff]
    exact nodup_of_ascending h
  have hsorted := foldl_insertMember_perm hkeys
  rw [List.append_nil] at hsorted
  have hascending : ascending (sortMembers written) = true := ascending_foldl_insertMember rfl
  refine List.Perm.eq_of_pairwise (fun m n _ _ hmn hnm => ?_) (pairwise_of_ascending hascending)
    (pairwise_of_ascending h) (hsorted.trans hperm.symm)
  exact absurd (String.lt_trans hmn hnm) (String.lt_irrefl m.1)

/-- A canonical value is its own canonical form. -/
theorem canonicalize_of_isCanonical (v : Json) (h : v.isCanonical = true) :
    v.canonicalize = v := by
  induction v using ofParts with
  | null => rfl
  | bool b => rfl
  | number n => rfl
  | string s => rfl
  | array items ih =>
    rw [isCanonical, allCanonical_iff] at h
    rw [canonicalize, canonicalizeItems_eq_map]
    congr 1
    exact (List.map_congr_left fun v hv => ih v hv (h v hv)).trans (List.map_id items)
  | object members ih =>
    rw [isCanonical, Bool.and_eq_true, membersCanonical_iff] at h
    rw [canonicalize, canonicalizeMembers_eq_map]
    have hsame : (members.map fun m => (m.1, m.2.canonicalize)) = members :=
      (List.map_congr_left fun m hm => by rw [ih m hm (h.2 m hm), id]).trans
        (List.map_id members)
    -- no value changes, so the keys are as they were
    rw [hsame, sortMembers_of_ascending h.1]

end SessionArchive.Json
