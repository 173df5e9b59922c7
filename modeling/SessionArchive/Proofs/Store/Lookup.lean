import SessionArchive.Proofs.Except
import SessionArchive.Proofs.Store.Sound

/-!
# Looking rows up

What the look-ups by key answer when the tables satisfy the invariant: the one row that has the key,
or nothing when no row has it. A scope is looked up through its repository, and the scope of a
branch is read off the two rows again.
-/

set_option autoImplicit false

namespace SessionArchive.Store

theorem find?_eq_of_unique {α : Type} {p : α → Bool} {l : List α} {a : α} (ha : a ∈ l)
    (hp : p a = true) (hunique : ∀ b ∈ l, p b = true → b = a) : l.find? p = some a := by
  obtain ⟨b, hb⟩ := Option.isSome_iff_exists.mp (List.find?_isSome.mpr ⟨a, ha, hp⟩)
  rw [hb, hunique b (List.mem_of_find?_eq_some hb) (List.find?_some hb)]

namespace Database

variable {db : Database}

theorem requireAll_of_present {tables : List TableName} (h : ∀ table ∈ tables, table ∉ db.missing) :
    db.requireAll tables = .ok () := by
  induction tables with
  | nil => rfl
  | cons table rest ih =>
    obtain ⟨hfirst, hrest⟩ := List.forall_mem_cons.mp h
    simp [Database.requireAll, hfirst, ih hrest]

theorem Intact.requireAll (h : db.Intact) (tables : List TableName) :
    db.requireAll tables = .ok () :=
  requireAll_of_present fun table _ => by simp [h.missing]

/-! ## Keys -/

theorem Sound.repository_eq_of_key (h : db.Sound) {r s : Repository}
    (hr : r ∈ db.repositories.rows) (hs : s ∈ db.repositories.rows)
    (hkey : r.host = s.host ∧ r.org = s.org ∧ r.project = s.project) : r = s := by
  refine eq_of_pairwise_not (fun a b hab => ?_) h.repositoryKeys hr hs hkey
  exact ⟨hab.1.symm, hab.2.1.symm, hab.2.2.symm⟩

theorem Sound.branch_eq_of_key (h : db.Sound) {b c : Branch} (hb : b ∈ db.branches.rows)
    (hc : c ∈ db.branches.rows) (hkey : b.repositoryId = c.repositoryId ∧ b.name = c.name) :
    b = c := by
  refine eq_of_pairwise_not (fun a b hab => ?_) h.branchKeys hb hc hkey
  exact ⟨hab.1.symm, hab.2.symm⟩

theorem Sound.findRepository?_eq_some_iff (h : db.Sound) {host org project : String}
    {r : Repository} :
    db.findRepository? host org project = some r ↔
      r ∈ db.repositories.rows ∧ r.host = host ∧ r.org = org ∧ r.project = project := by
  constructor
  · intro hfind
    refine ⟨List.mem_of_find?_eq_some hfind, ?_⟩
    have hkey := List.find?_some hfind
    simpa [and_assoc] using hkey
  · rintro ⟨hr, rfl, rfl, rfl⟩
    refine find?_eq_of_unique hr (by simp) fun s hs hkey => ?_
    exact h.repository_eq_of_key hs hr (by simpa [and_assoc] using hkey)

theorem Sound.findBranch?_eq_some_iff (h : db.Sound) {repositoryId : RowId} {name : String}
    {b : Branch} :
    db.findBranch? repositoryId name = some b ↔
      b ∈ db.branches.rows ∧ b.repositoryId = repositoryId ∧ b.name = name := by
  constructor
  · intro hfind
    refine ⟨List.mem_of_find?_eq_some hfind, ?_⟩
    have hkey := List.find?_some hfind
    simpa using hkey
  · rintro ⟨hb, rfl, rfl⟩
    refine find?_eq_of_unique hb (by simp) fun c hc hkey => ?_
    exact h.branch_eq_of_key hc hb (by simpa using hkey)

/-- No branch belongs to a repository that is not there. -/
theorem Sound.findBranch?_eq_none (h : db.Sound) {repositoryId : RowId}
    (habsent : ∀ r ∈ db.repositories.rows, r.id ≠ repositoryId) (name : String) :
    db.findBranch? repositoryId name = none := by
  apply List.find?_eq_none.mpr
  intro b hb hmatch
  obtain ⟨r, hr, howner⟩ := h.branchOwner b hb
  simp only [Bool.and_eq_true, beq_iff_eq] at hmatch
  exact habsent r hr (howner.trans hmatch.1)

/-! ## Scopes -/

/-- The branch of a scope. -/
def findScope? (db : Database) (scope : Scope) : Option Branch :=
  (db.findRepository? scope.host scope.org scope.project).bind fun repository =>
    db.findBranch? repository.id scope.branch

theorem Intact.getRepository_eq (h : db.Intact) (host org project : String) :
    db.getRepository host org project = .ok (db.findRepository? host org project) := by
  simp only [getRepository, read, h.requireAll, ok_bind, mapError_ok]

theorem Intact.getBranch_eq (h : db.Intact) (repositoryId : RowId) (name : String) :
    db.getBranch repositoryId name = .ok (db.findBranch? repositoryId name) := by
  simp only [getBranch, read, h.requireAll, ok_bind, mapError_ok]

theorem Intact.findScope_eq (h : db.Intact) (scope : Scope) :
    db.findScope scope = .ok (db.findScope? scope) := by
  simp only [findScope, h.getRepository_eq, ok_bind, findScope?]
  cases db.findRepository? scope.host scope.org scope.project with
  | none => rfl
  | some repository => exact h.getBranch_eq repository.id scope.branch

/-- A branch has a scope if it is there and the scope is what its row and its repository's say. -/
theorem Sound.findScope?_eq_some_iff (h : db.Sound) {scope : Scope} {b : Branch} :
    db.findScope? scope = some b ↔
      b ∈ db.branches.rows ∧ ∃ r ∈ db.repositories.rows, r.id = b.repositoryId ∧
        scope = ⟨r.host, r.org, r.project, b.name⟩ := by
  simp only [findScope?, Option.bind_eq_some_iff, h.findRepository?_eq_some_iff,
    h.findBranch?_eq_some_iff]
  constructor
  · rintro ⟨r, ⟨hr, hhost, horg, hproject⟩, hb, howner, hname⟩
    refine ⟨hb, r, hr, howner.symm, ?_⟩
    rw [hhost, horg, hproject, hname]
  · rintro ⟨hb, r, hr, howner, rfl⟩
    exact ⟨r, ⟨hr, rfl, rfl, rfl⟩, hb, howner.symm, rfl⟩

/-- Repositories and branches have ids of their own, none beyond the last one that was handed
out. -/
structure Keyed (db : Database) : Prop where
  repositoryIds : db.repositories.Numbered Repository.id
  branchIds : db.branches.Numbered Branch.id

theorem Sound.keyed (h : db.Sound) : db.Keyed := ⟨h.repositoryIds, h.branchIds⟩

/-- The scope of a branch is read off its row and the row of its repository. -/
theorem Keyed.scopeOf?_eq (h : db.Keyed) {branch : Branch} {repository : Repository}
    (hbranch : branch ∈ db.branches.rows) (hrepository : repository ∈ db.repositories.rows)
    (howner : repository.id = branch.repositoryId) :
    db.scopeOf? branch.id =
      some ⟨repository.host, repository.org, repository.project, branch.name⟩ := by
  have hfindBranch : db.branches.rows.find? (fun b => b.id == branch.id) = some branch :=
    find?_eq_of_unique hbranch (beq_self_eq_true _) fun b hb hid =>
      h.branchIds.eq_of_id hb hbranch (beq_iff_eq.mp hid)
  have hfindRepository : db.repositories.rows.find? (fun r => r.id == branch.repositoryId) =
      some repository := by
    rw [← howner]
    exact find?_eq_of_unique hrepository (beq_self_eq_true _) fun r hr hid =>
      h.repositoryIds.eq_of_id hr hrepository (beq_iff_eq.mp hid)
  simp [scopeOf?, hfindBranch, hfindRepository]

theorem Sound.scopeOf?_eq (h : db.Sound) {branch : Branch} {repository : Repository}
    (hbranch : branch ∈ db.branches.rows) (hrepository : repository ∈ db.repositories.rows)
    (howner : repository.id = branch.repositoryId) :
    db.scopeOf? branch.id =
      some ⟨repository.host, repository.org, repository.project, branch.name⟩ :=
  h.keyed.scopeOf?_eq hbranch hrepository howner

end Database

end SessionArchive.Store
