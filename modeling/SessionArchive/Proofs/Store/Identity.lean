import SessionArchive.Proofs.Store.Lifetime
import SessionArchive.Proofs.Store.Lookup

/-!
# Identity of repositories and branches

A key is resolved to the id of the row that has it, or to that of a new row whose id is beyond all
that there ever were: this is `Table.Resolved`. `Store.identity_play` says that after every run of
operations repositories, branches and scopes are resolved so, that look-ups find what resolving
would and make nothing, and that an id stays with its key for as long as the row is not deleted.
-/

set_option autoImplicit false

namespace SessionArchive

/-- What a repository is known by. -/
def Repository.key (r : Repository) : String × String × String := (r.host, r.org, r.project)

/-- What a branch is known by. -/
def Branch.key (b : Branch) : RowId × String := (b.repositoryId, b.name)

namespace Store

/-! ## Resolving a key in a table -/

/-- How a key is resolved. Either there is a row with the key, which a look-up finds, and the table
stays as it is; or no row has the key, a look-up finds none, and one row is added, whose id is the
next one, beyond those of all rows that there ever were. -/
inductive Table.Resolved {α κ : Type} (id : α → RowId) (key : α → κ) (ever : α → Prop)
    (before : Table α) : Option α → α → Table α → Prop
  | there {row : α} (hrow : row ∈ before.rows) : Resolved id key ever before (some row) row before
  | made {row : α} (hnext : id row = before.lastId + 1)
      (hkey : ∀ other ∈ before.rows, key other ≠ key row)
      (hid : ∀ other, ever other → id other < id row) :
      Resolved id key ever before none row ⟨before.rows ++ [row], id row⟩

namespace Table.Resolved

variable {α κ : Type} {id : α → RowId} {key : α → κ} {ever : α → Prop} {before after : Table α}
  {found : Option α} {row : α}

theorem mem (h : before.Resolved id key ever found row after) : row ∈ after.rows := by
  cases h with
  | there hrow => exact hrow
  | made hnext hkey hid => exact List.mem_append_right _ (List.mem_singleton_self row)

/-- The id that a key is resolved to is that of another row only if the keys are equal. -/
theorem id_eq_iff (h : before.Resolved id key ever found row after)
    (hkeys : ∀ a ∈ before.rows, ∀ b ∈ before.rows, id a = id b ↔ key a = key b)
    (hever : ∀ a ∈ before.rows, ever a) {other : α} (hother : other ∈ before.rows) :
    id other = id row ↔ key other = key row := by
  cases h with
  | there hrow => exact hkeys other hother row hrow
  | made hnext hkey hid =>
    constructor
    · intro heq
      exact absurd heq (Int.ne_of_lt (hid other (hever other hother)))
    · intro heq
      exact absurd heq (hkey other hother)

/-- From one table two keys are resolved to one id if they are equal, and also if neither is there:
either of them would be given the next id. -/
theorem id_eq_iff_of_same {other : α} {found' : Option α} {after' : Table α}
    (h : before.Resolved id key ever found row after)
    (h' : before.Resolved id key ever found' other after')
    (hkeys : ∀ a ∈ before.rows, ∀ b ∈ before.rows, id a = id b ↔ key a = key b)
    (hever : ∀ a ∈ before.rows, ever a) :
    id row = id other ↔ key row = key other ∨ found = none ∧ found' = none := by
  cases h with
  | there hrow =>
    have hfound : ¬(some row = none ∧ found' = none) := fun hnone => nomatch hnone.1
    rw [h'.id_eq_iff hkeys hever hrow, or_iff_left hfound]
  | made hnext hkey hid =>
    cases h' with
    | there hrow =>
      have hne : key row ≠ key other := (hkey other hrow).symm
      simp only [hne, false_or, reduceCtorEq, and_false, iff_false]
      exact (Int.ne_of_lt (hid other (hever other hrow))).symm
    | made hnext' hkey' hid' => simp only [hnext, hnext', and_self, or_true]

end Table.Resolved

namespace Database

variable {db : Database}

theorem Sound.repository_id_iff (h : db.Sound) :
    ∀ a ∈ db.repositories.rows, ∀ b ∈ db.repositories.rows, a.id = b.id ↔ a.key = b.key := by
  intro a ha b hb
  constructor
  · intro hid
    rw [h.repositoryIds.eq_of_id ha hb hid]
  · intro hkey
    simp only [Repository.key, Prod.mk.injEq] at hkey
    rw [h.repository_eq_of_key ha hb hkey]

theorem Sound.branch_id_iff (h : db.Sound) :
    ∀ a ∈ db.branches.rows, ∀ b ∈ db.branches.rows, a.id = b.id ↔ a.key = b.key := by
  intro a ha b hb
  constructor
  · intro hid
    rw [h.branchIds.eq_of_id ha hb hid]
  · intro hkey
    simp only [Branch.key, Prod.mk.injEq] at hkey
    rw [h.branch_eq_of_key ha hb hkey]

/-! ## Resolving repositories, branches and scopes -/

section Resolve

variable {repository : Repository → Prop} {branch : Branch → Prop}

theorem ensureRepository_resolved (h : db.Sound)
    (hever : ∀ r, repository r → r.id ≤ db.repositories.lastId) (host org project : String) :
    ∃ row after, db.repositories.Resolved Repository.id Repository.key repository
        (db.findRepository? host org project) row after ∧
      row.key = (host, org, project) ∧
      db.ensureRepository host org project = (row.id, { db with repositories := after }) := by
  cases hfind : db.findRepository? host org project with
  | some row =>
    obtain ⟨hrow, hhost, horg, hproject⟩ := h.findRepository?_eq_some_iff.mp hfind
    refine ⟨row, db.repositories, .there hrow, ?_, ?_⟩
    · rw [Repository.key, hhost, horg, hproject]
    · simp only [ensureRepository, hfind]
  | none =>
    -- the new row has an id above all that were ever given, and a name that no row has
    let row : Repository := ⟨db.repositories.lastId + 1, host, org, project⟩
    refine ⟨row, _, .made rfl ?_ ?_, rfl, ?_⟩
    · intro other hother hkey
      have hne := List.find?_eq_none.mp hfind other hother
      simp only [Repository.key, Prod.mk.injEq] at hkey
      simp [hkey.1, hkey.2.1, hkey.2.2, row] at hne
    · intro other hother
      exact Int.lt_add_one_of_le (hever other hother)
    · simp only [ensureRepository, hfind]
      rfl

theorem ensureBranch_resolved (h : db.Sound)
    (hever : ∀ b, branch b → b.id ≤ db.branches.lastId) (repositoryId : RowId) (name : String) :
    ∃ row after, db.branches.Resolved Branch.id Branch.key branch
        (db.findBranch? repositoryId name) row after ∧
      row.key = (repositoryId, name) ∧
      db.ensureBranch repositoryId name = (row.id, { db with branches := after }) := by
  cases hfind : db.findBranch? repositoryId name with
  | some row =>
    obtain ⟨hrow, howner, hname⟩ := h.findBranch?_eq_some_iff.mp hfind
    refine ⟨row, db.branches, .there hrow, ?_, ?_⟩
    · rw [Branch.key, howner, hname]
    · simp only [ensureBranch, hfind]
  | none =>
    let row : Branch := ⟨db.branches.lastId + 1, repositoryId, name⟩
    refine ⟨row, _, .made rfl ?_ ?_, rfl, ?_⟩
    · intro other hother hkey
      have hne := List.find?_eq_none.mp hfind other hother
      simp only [Branch.key, Prod.mk.injEq] at hkey
      simp [hkey.1, hkey.2, row] at hne
    · intro other hother
      exact Int.lt_add_one_of_le (hever other hother)
    · simp only [ensureBranch, hfind]
      rfl

/-- Both rows of a scope are resolved, first that of the repository. -/
theorem ensureScope_resolved (h : db.Sound)
    (hthere : ∀ r ∈ db.repositories.rows, repository r)
    (hrepository : ∀ r, repository r → r.id ≤ db.repositories.lastId)
    (hbranch : ∀ b, branch b → b.id ≤ db.branches.lastId) (scope : Scope) :
    ∃ r repositories b branches,
      db.repositories.Resolved Repository.id Repository.key repository
        (db.findRepository? scope.host scope.org scope.project) r repositories ∧
      r.key = (scope.host, scope.org, scope.project) ∧
      db.branches.Resolved Branch.id Branch.key branch (db.findScope? scope) b branches ∧
      b.key = (r.id, scope.branch) ∧
      db.ensureScope scope =
        (b.id, { db with repositories := repositories, branches := branches }) := by
  obtain ⟨r, repositories, hresolved, hkey, hensure⟩ :=
    ensureRepository_resolved h hrepository scope.host scope.org scope.project
  have hbetween :=
    (ensureRepository_changes db scope.host scope.org scope.project).changes.sound h
  rw [hensure] at hbetween
  obtain ⟨b, branches, hbranches, hbranchKey, hensureBranch⟩ :=
    ensureBranch_resolved hbetween hbranch r.id scope.branch
  refine ⟨r, repositories, b, branches, hresolved, hkey, ?_, hbranchKey, ?_⟩
  · -- where the repository is not there, no branch can belong to the new one
    have hfind : db.findScope? scope = db.findBranch? r.id scope.branch := by
      generalize hfound : db.findRepository? scope.host scope.org scope.project = found at hresolved
      cases hresolved with
      | there hrow => simp only [findScope?, hfound, Option.bind_some]
      | made hnext hnone hid =>
        simp only [findScope?, hfound, Option.bind_none]
        symm
        apply h.findBranch?_eq_none
        intro owner howner
        exact Int.ne_of_lt (hid owner (hthere owner howner))
    rw [hfind]
    exact hbranches
  · simp only [ensureScope, hensure, hensureBranch]

end Resolve

end Database

/-! ## Identity after a run -/

/-- The rows that a table has had along a run of operations on a store that was empty. -/
def Ever {α : Type} (rows : Database → List α) (path : Option String) (start : Int64)
    (run : List (Int64 × Operation)) (row : α) : Prop :=
  ∃ earlier db, earlier <+: run ∧ (Store.fresh path start).play earlier = ⟨path, some db⟩ ∧
    row ∈ rows db

/-- What identity means in the database that a run leaves. Keys are resolved as in
`Table.Resolved`, and look-ups leave the store as it is; rows stay under their ids until they are
deleted; and two resolutions answer the same id exactly when the keys are the same. This holds if
the second is made where the first one left off, and also if both are made in one state and one of
the rows is there. A run makes no other two in one state, since a resolution that adds a row leaves
another one; each of the two would be given the next id. -/
structure Identified (path : Option String) (start : Int64) (run : List (Int64 × Operation))
    (db : Database) : Prop where
  repository : ∀ (now : Int64) (host org project : String), ∃ found row after,
    db.repositories.Resolved Repository.id Repository.key
      (Ever (·.repositories.rows) path start run) found row after ∧
    row.key = (host, org, project) ∧
    Operation.run now ⟨path, some db⟩ (.read (.getRepository host org project)) =
      (.ok found, ⟨path, some db⟩) ∧
    Operation.run now ⟨path, some db⟩ (.resolveRepository host org project) =
      (.ok row.id, ⟨path, some { db with repositories := after }⟩)
  branch : ∀ (now : Int64) (repositoryId : RowId) (name : String),
    (∃ r ∈ db.repositories.rows, r.id = repositoryId) → ∃ found row after,
      db.branches.Resolved Branch.id Branch.key
        (Ever (·.branches.rows) path start run) found row after ∧
      row.key = (repositoryId, name) ∧
      Operation.run now ⟨path, some db⟩ (.read (.getBranch repositoryId name)) =
        (.ok found, ⟨path, some db⟩) ∧
      Operation.run now ⟨path, some db⟩ (.resolveBranch repositoryId name) =
        (.ok row.id, ⟨path, some { db with branches := after }⟩)
  noBranch : ∀ (now : Int64) (repositoryId : RowId) (name : String),
    (∀ r ∈ db.repositories.rows, r.id ≠ repositoryId) →
      Operation.run now ⟨path, some db⟩ (.read (.getBranch repositoryId name)) =
        (.ok none, ⟨path, some db⟩) ∧
      Operation.run now ⟨path, some db⟩ (.resolveBranch repositoryId name) =
        (.error (.transaction "resolve_branch" .foreignKey), ⟨path, some db⟩)
  scope : ∀ (now : Int64) (scope : Scope), ∃ foundRepository r repositories foundBranch b branches,
    db.repositories.Resolved Repository.id Repository.key
      (Ever (·.repositories.rows) path start run) foundRepository r repositories ∧
    r.key = (scope.host, scope.org, scope.project) ∧
    db.branches.Resolved Branch.id Branch.key
      (Ever (·.branches.rows) path start run) foundBranch b branches ∧
    b.key = (r.id, scope.branch) ∧
    Operation.run now ⟨path, some db⟩ (.read (.findScope scope)) =
      (.ok foundBranch, ⟨path, some db⟩) ∧
    Operation.run now ⟨path, some db⟩ (.resolveScope scope) =
      (.ok b.id, ⟨path, some { db with repositories := repositories, branches := branches }⟩)
  repositoryIds : ∀ (host org project host' org' project' : String) (id id' : RowId)
    (between after : Store),
    Store.resolveRepository ⟨path, some db⟩ host org project = (.ok id, between) →
      between.resolveRepository host' org' project' = (.ok id', after) →
        (id = id' ↔ (host, org, project) = (host', org', project'))
  branchIds : ∀ (repositoryId repositoryId' : RowId) (name name' : String) (id id' : RowId)
    (between after : Store),
    Store.resolveBranch ⟨path, some db⟩ repositoryId name = (.ok id, between) →
      between.resolveBranch repositoryId' name' = (.ok id', after) →
        (id = id' ↔ (repositoryId, name) = (repositoryId', name'))
  scopeIds : ∀ (scope scope' : Scope) (id id' : RowId) (between after : Store),
    Store.resolveScope ⟨path, some db⟩ scope = (.ok id, between) →
      between.resolveScope scope' = (.ok id', after) → (id = id' ↔ scope = scope')
  sameRepositoryIds : ∀ (host org project host' org' project' : String) (id id' : RowId)
    (after after' : Store),
    Store.resolveRepository ⟨path, some db⟩ host org project = (.ok id, after) →
      Store.resolveRepository ⟨path, some db⟩ host' org' project' = (.ok id', after') →
        (id = id' ↔ (host, org, project) = (host', org', project') ∨
          Store.getRepository ⟨path, some db⟩ host org project = .ok none ∧
            Store.getRepository ⟨path, some db⟩ host' org' project' = .ok none)
  sameBranchIds : ∀ (repositoryId repositoryId' : RowId) (name name' : String) (id id' : RowId)
    (after after' : Store),
    Store.resolveBranch ⟨path, some db⟩ repositoryId name = (.ok id, after) →
      Store.resolveBranch ⟨path, some db⟩ repositoryId' name' = (.ok id', after') →
        (id = id' ↔ (repositoryId, name) = (repositoryId', name') ∨
          Store.getBranch ⟨path, some db⟩ repositoryId name = .ok none ∧
            Store.getBranch ⟨path, some db⟩ repositoryId' name' = .ok none)
  sameScopeIds : ∀ (scope scope' : Scope) (id id' : RowId) (after after' : Store),
    Store.resolveScope ⟨path, some db⟩ scope = (.ok id, after) →
      Store.resolveScope ⟨path, some db⟩ scope' = (.ok id', after') →
        (id = id' ↔ scope = scope' ∨ Store.findScope ⟨path, some db⟩ scope = .ok none ∧
          Store.findScope ⟨path, some db⟩ scope' = .ok none)
  lifetime : ∀ rest : List (Int64 × Operation), ∃ later,
    (Store.mk path (some db)).play rest = ⟨path, some later⟩ ∧ Leaves rest db later ∧
    (∀ r ∈ db.repositories.rows, ∀ other ∈ later.repositories.rows, other.id = r.id → other = r) ∧
    (∀ b ∈ db.branches.rows, ∀ other ∈ later.branches.rows, other.id = b.id → other = b)

section Identity

variable {db : Database} {path : Option String}

theorem resolveRepository_intact (h : db.Intact) (path : Option String)
    (host org project : String) :
    Store.resolveRepository ⟨path, some db⟩ host org project =
      (.ok (db.ensureRepository host org project).1,
        ⟨path, some (db.ensureRepository host org project).2⟩) :=
  mutate_of_ok (Write.resolveRepository_intact h host org project) path _

theorem resolveScope_intact (h : db.Intact) (path : Option String) (scope : Scope) :
    Store.resolveScope ⟨path, some db⟩ scope =
      (.ok (db.ensureScope scope).1, ⟨path, some (db.ensureScope scope).2⟩) :=
  mutate_of_ok (Write.resolveScope_intact h scope) path _

/-- A branch is resolved exactly if its repository is there. -/
theorem resolveBranch_sound (h : db.Sound) (path : Option String) (repositoryId : RowId)
    (name : String) :
    Store.resolveBranch ⟨path, some db⟩ repositoryId name =
      if ∃ r ∈ db.repositories.rows, r.id = repositoryId then
        (.ok (db.ensureBranch repositoryId name).1,
          ⟨path, some (db.ensureBranch repositoryId name).2⟩)
      else (.error (.transaction "resolve_branch" .foreignKey), ⟨path, some db⟩) := by
  have hcondition : ((db.findBranch? repositoryId name).isSome = true ∨
      db.repositories.rows.any (·.id == repositoryId) = true) ↔
        ∃ r ∈ db.repositories.rows, r.id = repositoryId := by
    constructor
    · rintro (hfound | hany)
      · -- a branch that is there has its repository
        obtain ⟨b, hb⟩ := Option.isSome_iff_exists.mp hfound
        obtain ⟨hmem, howner, _⟩ := h.findBranch?_eq_some_iff.mp hb
        rw [← howner]
        exact h.branchOwner b hmem
      · simpa using hany
    · intro hthere
      exact .inr (by simpa using hthere)
  by_cases hthere : ∃ r ∈ db.repositories.rows, r.id = repositoryId
  · have hwrite := Write.resolveBranch_intact h.toIntact repositoryId name
    rw [if_pos (hcondition.mpr hthere)] at hwrite
    rw [if_pos hthere]
    exact mutate_of_ok hwrite path _
  · have hwrite := Write.resolveBranch_intact h.toIntact repositoryId name
    rw [if_neg (mt hcondition.mp hthere)] at hwrite
    rw [if_neg hthere]
    simp only [Store.resolveBranch, Store.mutate, Database.mutate, hwrite, Failure.rolledBack]

/-! ### What was resolved -/

theorem resolved_of_resolveRepository (h : db.Sound) {host org project : String} {id : RowId}
    {after : Store}
    (hresolve : Store.resolveRepository ⟨path, some db⟩ host org project = (.ok id, after)) :
    ∃ row repositories, db.repositories.Resolved Repository.id Repository.key
        (· ∈ db.repositories.rows) (db.findRepository? host org project) row repositories ∧
      row.key = (host, org, project) ∧ row.id = id ∧
      Database.Sound { db with repositories := repositories } ∧
      after = ⟨path, some { db with repositories := repositories }⟩ := by
  have hafter := (db.ensureRepository_changes host org project).changes.sound h
  obtain ⟨row, repositories, hresolved, hkey, hensure⟩ :=
    Database.ensureRepository_resolved h h.repositoryIds.bounded host org project
  rw [hensure] at hafter
  rw [resolveRepository_intact h.toIntact, hensure] at hresolve
  cases hresolve
  exact ⟨row, repositories, hresolved, hkey, rfl, hafter, rfl⟩

theorem resolved_of_resolveBranch (h : db.Sound) {repositoryId : RowId} {name : String}
    {id : RowId} {after : Store}
    (hresolve : Store.resolveBranch ⟨path, some db⟩ repositoryId name = (.ok id, after)) :
    ∃ row branches, db.branches.Resolved Branch.id Branch.key (· ∈ db.branches.rows)
        (db.findBranch? repositoryId name) row branches ∧
      row.key = (repositoryId, name) ∧ row.id = id ∧
      Database.Sound { db with branches := branches } ∧
      after = ⟨path, some { db with branches := branches }⟩ := by
  rw [resolveBranch_sound h] at hresolve
  split at hresolve
  case isFalse => cases hresolve
  case isTrue howner =>
    have hafter := (Database.ensureBranch_changes repositoryId name howner).changes.sound h
    obtain ⟨row, branches, hresolved, hkey, hensure⟩ :=
      Database.ensureBranch_resolved h h.branchIds.bounded repositoryId name
    rw [hensure] at hafter hresolve
    cases hresolve
    exact ⟨row, branches, hresolved, hkey, rfl, hafter, rfl⟩

theorem resolved_of_resolveScope (h : db.Sound) {scope : Scope} {id : RowId} {after : Store}
    (hresolve : Store.resolveScope ⟨path, some db⟩ scope = (.ok id, after)) :
    ∃ r repositories b branches,
      db.repositories.Resolved Repository.id Repository.key (· ∈ db.repositories.rows)
        (db.findRepository? scope.host scope.org scope.project) r repositories ∧
      r.key = (scope.host, scope.org, scope.project) ∧
      db.branches.Resolved Branch.id Branch.key (· ∈ db.branches.rows)
        (db.findScope? scope) b branches ∧
      b.key = (r.id, scope.branch) ∧ b.id = id ∧
      Database.Sound { db with repositories := repositories, branches := branches } ∧
      after = ⟨path, some { db with repositories := repositories, branches := branches }⟩ := by
  have hafter := (db.ensureScope_changes scope).changes.sound h
  obtain ⟨r, repositories, b, branches, hrepository, hkey, hbranch, hbranchKey, hensure⟩ :=
    Database.ensureScope_resolved h (fun _ hr => hr) h.repositoryIds.bounded h.branchIds.bounded
      scope
  rw [hensure] at hafter
  rw [resolveScope_intact h.toIntact, hensure] at hresolve
  cases hresolve
  exact ⟨r, repositories, b, branches, hrepository, hkey, hbranch, hbranchKey, rfl, hafter, rfl⟩

/-! ### Two resolutions, one after the other -/

/-- Two repositories that are resolved one after the other have the same id exactly if their keys
are the same. -/
theorem repository_ids_eq_iff (h : db.Sound) {host org project host' org' project' : String}
    {id id' : RowId} {between after : Store}
    (hfirst : Store.resolveRepository ⟨path, some db⟩ host org project = (.ok id, between))
    (hsecond : between.resolveRepository host' org' project' = (.ok id', after)) :
    id = id' ↔ (host, org, project) = (host', org', project') := by
  obtain ⟨row, _, hresolved, hkey, rfl, hmid, rfl⟩ := resolved_of_resolveRepository h hfirst
  obtain ⟨row', _, hresolved', hkey', rfl, _⟩ := resolved_of_resolveRepository hmid hsecond
  rw [← hkey, ← hkey']
  exact hresolved'.id_eq_iff hmid.repository_id_iff (fun _ hr => hr) hresolved.mem

theorem branch_ids_eq_iff (h : db.Sound) {repositoryId repositoryId' : RowId} {name name' : String}
    {id id' : RowId} {between after : Store}
    (hfirst : Store.resolveBranch ⟨path, some db⟩ repositoryId name = (.ok id, between))
    (hsecond : between.resolveBranch repositoryId' name' = (.ok id', after)) :
    id = id' ↔ (repositoryId, name) = (repositoryId', name') := by
  obtain ⟨row, _, hresolved, hkey, rfl, hmid, rfl⟩ := resolved_of_resolveBranch h hfirst
  obtain ⟨row', _, hresolved', hkey', rfl, _⟩ := resolved_of_resolveBranch hmid hsecond
  rw [← hkey, ← hkey']
  exact hresolved'.id_eq_iff hmid.branch_id_iff (fun _ hb => hb) hresolved.mem

theorem scope_ids_eq_iff (h : db.Sound) {scope scope' : Scope} {id id' : RowId}
    {between after : Store}
    (hfirst : Store.resolveScope ⟨path, some db⟩ scope = (.ok id, between))
    (hsecond : between.resolveScope scope' = (.ok id', after)) : id = id' ↔ scope = scope' := by
  obtain ⟨r, _, b, _, hrepository, hkey, hbranch, hbranchKey, rfl, hmid, rfl⟩ :=
    resolved_of_resolveScope h hfirst
  obtain ⟨r', _, b', _, hrepository', hkey', hbranch', hbranchKey', rfl, _⟩ :=
    resolved_of_resolveScope hmid hsecond
  have hids := hbranch'.id_eq_iff hmid.branch_id_iff (fun _ hb => hb) hbranch.mem
  have howners := hrepository'.id_eq_iff hmid.repository_id_iff (fun _ hr => hr) hrepository.mem
  -- the branches are the same if their repositories and names are
  rw [hids, hbranchKey, hbranchKey', Prod.mk.injEq, howners, hkey, hkey']
  cases scope
  cases scope'
  simp [and_assoc]

/-! ### Two resolutions from one state -/

theorem repository_ids_eq_iff_of_same (h : db.Sound)
    {host org project host' org' project' : String} {id id' : RowId} {after after' : Store}
    (hfirst : Store.resolveRepository ⟨path, some db⟩ host org project = (.ok id, after))
    (hsecond : Store.resolveRepository ⟨path, some db⟩ host' org' project' = (.ok id', after')) :
    id = id' ↔ (host, org, project) = (host', org', project') ∨
      Store.getRepository ⟨path, some db⟩ host org project = .ok none ∧
        Store.getRepository ⟨path, some db⟩ host' org' project' = .ok none := by
  obtain ⟨row, _, hresolved, hkey, rfl, _⟩ := resolved_of_resolveRepository h hfirst
  obtain ⟨row', _, hresolved', hkey', rfl, _⟩ := resolved_of_resolveRepository h hsecond
  simp only [Store.getRepository, Store.query, h.toIntact.getRepository_eq, Except.ok.injEq]
  rw [← hkey, ← hkey']
  exact hresolved.id_eq_iff_of_same hresolved' h.repository_id_iff fun _ hr => hr

theorem branch_ids_eq_iff_of_same (h : db.Sound) {repositoryId repositoryId' : RowId}
    {name name' : String} {id id' : RowId} {after after' : Store}
    (hfirst : Store.resolveBranch ⟨path, some db⟩ repositoryId name = (.ok id, after))
    (hsecond : Store.resolveBranch ⟨path, some db⟩ repositoryId' name' = (.ok id', after')) :
    id = id' ↔ (repositoryId, name) = (repositoryId', name') ∨
      Store.getBranch ⟨path, some db⟩ repositoryId name = .ok none ∧
        Store.getBranch ⟨path, some db⟩ repositoryId' name' = .ok none := by
  obtain ⟨row, _, hresolved, hkey, rfl, _⟩ := resolved_of_resolveBranch h hfirst
  obtain ⟨row', _, hresolved', hkey', rfl, _⟩ := resolved_of_resolveBranch h hsecond
  simp only [Store.getBranch, Store.query, h.toIntact.getBranch_eq, Except.ok.injEq]
  rw [← hkey, ← hkey']
  exact hresolved.id_eq_iff_of_same hresolved' h.branch_id_iff fun _ hb => hb

theorem scope_ids_eq_iff_of_same (h : db.Sound) {scope scope' : Scope} {id id' : RowId}
    {after after' : Store}
    (hfirst : Store.resolveScope ⟨path, some db⟩ scope = (.ok id, after))
    (hsecond : Store.resolveScope ⟨path, some db⟩ scope' = (.ok id', after')) :
    id = id' ↔ scope = scope' ∨ Store.findScope ⟨path, some db⟩ scope = .ok none ∧
      Store.findScope ⟨path, some db⟩ scope' = .ok none := by
  obtain ⟨r, _, b, _, hrepository, hkey, hbranch, hbranchKey, rfl, _⟩ :=
    resolved_of_resolveScope h hfirst
  obtain ⟨r', _, b', _, hrepository', hkey', hbranch', hbranchKey', rfl, _⟩ :=
    resolved_of_resolveScope h hsecond
  simp only [Store.findScope, Store.query, h.toIntact.findScope_eq, Except.ok.injEq]
  have hids := hbranch.id_eq_iff_of_same hbranch' h.branch_id_iff fun _ hb => hb
  have howners := hrepository.id_eq_iff_of_same hrepository' h.repository_id_iff fun _ hr => hr
  -- without their repositories the branches of the scopes are not there either
  have hnone : db.findRepository? scope.host scope.org scope.project = none ∧
      db.findRepository? scope'.host scope'.org scope'.project = none →
        db.findScope? scope = none ∧ db.findScope? scope' = none := by
    rintro ⟨hfirst, hsecond⟩
    simp only [Database.findScope?, hfirst, hsecond, Option.bind_none, and_self]
  have hscopes : scope = scope' ↔ r.key = r'.key ∧ scope.branch = scope'.branch := by
    rw [hkey, hkey']
    cases scope
    cases scope'
    simp [and_assoc]
  rw [hids, hbranchKey, hbranchKey', Prod.mk.injEq, howners, hscopes]
  constructor
  · rintro (⟨hsame | habsent, hname⟩ | habsent)
    · exact .inl ⟨hsame, hname⟩
    · exact .inr (hnone habsent)
    · exact .inr habsent
  · rintro (⟨hsame, hname⟩ | habsent)
    · exact .inl ⟨.inl hsame, hname⟩
    · exact .inr habsent

/-- The database after a first part of a run is followed by the one after the whole run. -/
theorem later_of_prefix {start : Int64} {earlier run : List (Int64 × Operation)}
    {between : Database} (hfirst : earlier <+: run)
    (hearlier : (Store.fresh path start).play earlier = ⟨path, some between⟩)
    (hplay : (Store.fresh path start).play run = ⟨path, some db⟩) :
    between.Sound ∧ between.Later db := by
  obtain ⟨rest, rfl⟩ := hfirst
  obtain ⟨_, hfound, hsound⟩ := play_sound path start earlier
  rw [hearlier] at hfound
  cases hfound
  obtain ⟨after, hrest, _, hlater, _⟩ := play_leaves hsound path rest
  rw [Store.play_append, hearlier, hrest] at hplay
  cases hplay
  exact ⟨hsound, hlater⟩

/-- No id that there ever was is beyond the last one that was handed out. -/
theorem le_lastId_of_ever {α : Type} {id : α → RowId} {table : Database → Table α}
    (hids : ∀ between : Database, between.Sound → (table between).Numbered id)
    (htables : ∀ {between after : Database}, between.Later after →
      (table between).Later id (table after)) {start : Int64} {run : List (Int64 × Operation)}
    (hplay : (Store.fresh path start).play run = ⟨path, some db⟩) {row : α}
    (hever : Ever (fun db => (table db).rows) path start run row) : id row ≤ (table db).lastId := by
  obtain ⟨earlier, between, hfirst, hearlier, hrow⟩ := hever
  obtain ⟨hsound, hlater⟩ := later_of_prefix hfirst hearlier hplay
  exact Int.le_trans ((hids between hsound).bounded row hrow) (htables hlater).lastId_le

end Identity

/-- After every run of operations on a store that was empty, repositories, branches and scopes have
their identities. -/
theorem identity_play (path : Option String) (start : Int64) (run : List (Int64 × Operation)) :
    ∃ db, (Store.fresh path start).play run = ⟨path, some db⟩ ∧ Identified path start run db := by
  obtain ⟨db, hplay, h⟩ := play_sound path start run
  have hintact := h.toIntact
  have hrepositories : ∀ r, Ever (·.repositories.rows) path start run r →
      r.id ≤ db.repositories.lastId := fun r =>
    le_lastId_of_ever (fun _ h => h.repositoryIds) (fun h => h.repositories) hplay
  have hbranches : ∀ b, Ever (·.branches.rows) path start run b → b.id ≤ db.branches.lastId :=
    fun b => le_lastId_of_ever (fun _ h => h.branchIds) (fun h => h.branches) hplay
  have hthere : ∀ r ∈ db.repositories.rows, Ever (·.repositories.rows) path start run r :=
    fun r hr => ⟨run, db, List.prefix_rfl, hplay, hr⟩
  refine ⟨db, hplay, ?repository, ?branch, ?noBranch, ?scope, ?repositoryIds, ?branchIds, ?scopeIds,
    ?sameRepositoryIds, ?sameBranchIds, ?sameScopeIds, ?lifetime⟩
  case repository =>
    intro now host org project
    obtain ⟨row, after, hresolved, hkey, hensure⟩ :=
      Database.ensureRepository_resolved h hrepositories host org project
    have hresolve := resolveRepository_intact hintact path host org project
    rw [hensure] at hresolve
    refine ⟨_, row, after, hresolved, hkey, ?_, hresolve⟩
    exact congrArg (·, _) (hintact.getRepository_eq host org project)
  case branch =>
    intro now repositoryId name howner
    obtain ⟨row, after, hresolved, hkey, hensure⟩ :=
      Database.ensureBranch_resolved h hbranches repositoryId name
    have hresolve := resolveBranch_sound h path repositoryId name
    rw [if_pos howner, hensure] at hresolve
    refine ⟨_, row, after, hresolved, hkey, ?_, hresolve⟩
    exact congrArg (·, _) (hintact.getBranch_eq repositoryId name)
  case noBranch =>
    intro now repositoryId name hnone
    have hlookup := hintact.getBranch_eq repositoryId name
    rw [h.findBranch?_eq_none hnone] at hlookup
    constructor
    · exact congrArg (·, _) hlookup
    · refine (resolveBranch_sound h path repositoryId name).trans (if_neg ?_)
      rintro ⟨r, hr, hid⟩
      exact hnone r hr hid
  case scope =>
    intro now scope
    obtain ⟨r, repositories, b, branches, hrepository, hkey, hbranch, hbranchKey, hensure⟩ :=
      Database.ensureScope_resolved h hthere hrepositories hbranches scope
    have hresolve := resolveScope_intact hintact path scope
    rw [hensure] at hresolve
    refine ⟨_, r, repositories, _, b, branches, hrepository, hkey, hbranch, hbranchKey, ?_,
      hresolve⟩
    exact congrArg (·, _) (hintact.findScope_eq scope)
  case repositoryIds =>
    intro _ _ _ _ _ _ _ _ _ _ hfirst hsecond
    exact repository_ids_eq_iff h hfirst hsecond
  case branchIds =>
    intro _ _ _ _ _ _ _ _ hfirst hsecond
    exact branch_ids_eq_iff h hfirst hsecond
  case scopeIds =>
    intro _ _ _ _ _ _ hfirst hsecond
    exact scope_ids_eq_iff h hfirst hsecond
  case sameRepositoryIds =>
    intro _ _ _ _ _ _ _ _ _ _ hfirst hsecond
    exact repository_ids_eq_iff_of_same h hfirst hsecond
  case sameBranchIds =>
    intro _ _ _ _ _ _ _ _ hfirst hsecond
    exact branch_ids_eq_iff_of_same h hfirst hsecond
  case sameScopeIds =>
    intro _ _ _ _ _ _ hfirst hsecond
    exact scope_ids_eq_iff_of_same h hfirst hsecond
  case lifetime =>
    intro rest
    obtain ⟨later, hrest, _, hlater, hleaves⟩ := play_leaves h path rest
    refine ⟨later, hrest, hleaves, ?_, ?_⟩
    · intro r hr other hother hid
      exact hlater.repositories.eq_of_id h.repositoryIds hr hother hid
    · intro b hb other hother hid
      exact hlater.branches.eq_of_id h.branchIds hb hother hid

end Store

end SessionArchive
