import Mathlib.Algebra.BigOperators.Group.List.Basic
import Mathlib.Data.Prod.Lex
import SessionArchive.Proofs.Store.Agreement
import SessionArchive.Proofs.Store.Stream
import SessionArchive.Proofs.Text.Utf8

/-!
# What is counted can be read

The report counts the rows of each table, the listings show rows by their owners. A `Census` is what
all of them answer, and `Store.stats_play` says that after every run its numbers are those of the
report: each row is shown once, under its owner. The listings of repositories and branches are
strictly in order of the bytes of their names.
-/

set_option autoImplicit false

namespace SessionArchive

open Store (Database StoreStats)
open Text.Utf8 (encode)

/-! ## Counting by owner -/

section Owners

variable {α β κ : Type} [BEq κ] [LawfulBEq κ] {id : α → κ} {key : β → κ} {owners : List α}
  {rows : List β}

/-- One of the owners has the key. -/
theorem sum_map_owner {k : κ} (hids : (owners.map id).Nodup) (howner : ∃ a ∈ owners, id a = k)
    (n : Nat) : (owners.map fun a => if k == id a then n else 0).sum = n := by
  induction owners with
  | nil =>
    obtain ⟨a, ha, _⟩ := howner
    cases ha
  | cons first rest ih =>
    rw [List.map_cons, List.nodup_cons] at hids
    rw [List.map_cons, List.sum_cons]
    by_cases hfirst : k = id first
    · -- then no other owner has it
      have hrest : (rest.map fun a => if k == id a then n else 0) = rest.map fun _ => 0 := by
        apply List.map_congr_left
        intro a ha
        have hne : k ≠ id a := by
          rintro rfl
          exact hids.1 (hfirst ▸ List.mem_map_of_mem ha)
        rw [if_neg (by simpa using hne)]
      rw [hrest, if_pos (beq_iff_eq.mpr hfirst)]
      simp
    · have hothers : ∃ a ∈ rest, id a = k := by
        obtain ⟨a, ha, hid⟩ := howner
        rcases List.mem_cons.mp ha with rfl | ha
        · exact absurd hid.symm hfirst
        · exact ⟨a, ha, hid⟩
      rw [if_neg (by simpa using hfirst), Nat.zero_add, ih hids.2 hothers]

/-- Where every row has one owner, rows are summed up owner by owner. -/
theorem sum_map_by_owner (f : β → Nat) (hids : (owners.map id).Nodup)
    (howner : ∀ row ∈ rows, ∃ a ∈ owners, id a = key row) :
    (owners.map fun a => ((rows.filter fun row => key row == id a).map f).sum).sum =
      (rows.map f).sum := by
  induction rows with
  | nil => simp
  | cons row rest ih =>
    obtain ⟨hfirst, hrest⟩ := List.forall_mem_cons.mp howner
    -- the first row counts for its owner and for no other, and has one
    have hsplit : ∀ a, (((row :: rest).filter fun row => key row == id a).map f).sum =
        (if key row == id a then f row else 0) +
          ((rest.filter fun row => key row == id a).map f).sum := by
      intro a
      rw [List.filter_cons]
      split
      · rw [List.map_cons, List.sum_cons]
      · rw [Nat.zero_add]
    simp only [hsplit, List.sum_map_add, sum_map_owner hids hfirst, ih hrest, List.map_cons,
      List.sum_cons]

/-- Where every row has one owner, rows are counted owner by owner. -/
theorem sum_length_by_owner (hids : (owners.map id).Nodup)
    (howner : ∀ row ∈ rows, ∃ a ∈ owners, id a = key row) :
    (owners.map fun a => (rows.filter fun row => key row == id a).length).sum = rows.length := by
  simpa using sum_map_by_owner (fun _ => 1) hids howner

end Owners

/-! ## The order of names -/

/-- A repository comes before another by the bytes of host, organization and project. -/
def Repository.Before (a b : Repository) : Prop :=
  encode a.host < encode b.host ∨ a.host = b.host ∧
    (encode a.org < encode b.org ∨ a.org = b.org ∧ encode a.project < encode b.project)

namespace Store

/-- The order of the listing is the lexicographic one. -/
theorem repositoryLe_iff (a b : Repository) :
    Database.repositoryLe a b = true ↔
      toLex (a.host, toLex (a.org, a.project)) ≤ toLex (b.host, toLex (b.org, b.project)) := by
  simp [Database.repositoryLe, Prod.Lex.toLex_le_toLex]

theorem isOrder_repositoryLe : IsOrder Database.repositoryLe := .of_key _ repositoryLe_iff

theorem isOrder_name : IsOrder fun a b : Branch => a.name ≤ b.name :=
  .of_key Branch.name fun _ _ => decide_eq_true_iff

theorem Database.Sound.pairwise_repositories {db : Database} (h : db.Sound) :
    (db.repositories.rows.mergeSort Database.repositoryLe).Pairwise Repository.Before := by
  refine pairwise_mergeSort_of_distinct isOrder_repositoryLe
    (fun a b hsame => ⟨hsame.1.symm, hsame.2.1.symm, hsame.2.2.symm⟩) h.repositoryKeys ?_
  intro a b hab hne
  simp only [repositoryLe_iff, Prod.Lex.toLex_le_toLex] at hab
  simp only [Repository.Before, Text.Utf8.encode_lt_iff]
  rcases hab with hhost | ⟨hhost, horg | ⟨horg, hproject⟩⟩
  · exact .inl hhost
  · exact .inr ⟨hhost, .inl horg⟩
  · exact .inr ⟨hhost, .inr ⟨horg, lt_of_le_of_ne hproject fun heq => hne ⟨hhost, horg, heq⟩⟩⟩

theorem Database.Sound.pairwise_branches {db : Database} (h : db.Sound) (id : RowId) :
    ((db.branches.rows.filter fun b => b.repositoryId == id).mergeSort
      fun a b => a.name ≤ b.name).Pairwise fun a b => encode a.name < encode b.name := by
  have hnames : (db.branches.rows.filter fun b => b.repositoryId == id).Pairwise
      fun a b => ¬a.name = b.name := by
    apply (h.branchKeys.filter _).imp_of_mem
    intro a b ha hb hkeys hname
    have hownerA := (List.mem_filter.mp ha).2
    have hownerB := (List.mem_filter.mp hb).2
    rw [beq_iff_eq] at hownerA hownerB
    exact hkeys ⟨hownerA.trans hownerB.symm, hname⟩
  refine pairwise_mergeSort_of_distinct isOrder_name (fun _ _ => Eq.symm) hnames ?_
  intro a b hab hne
  rw [decide_eq_true_iff] at hab
  exact Text.Utf8.encode_lt_iff.mpr (lt_of_le_of_ne hab hne)

end Store

/-! ## What the read operations answer -/

/-- The scope of a branch of a repository. -/
def Repository.scope (repository : Repository) (branch : Branch) : Scope :=
  ⟨repository.host, repository.org, repository.project, branch.name⟩

/-- What a store answers to all read operations that show rows. -/
structure Census (store : Store) where
  repositories : List Repository
  branches : RowId → List Branch
  sessions : List SessionSummary
  history : HistoryKind → Scope → List HistoryEntry
  listRepositories : store.listRepositories = .ok repositories
  listBranches : ∀ id, store.listBranches id = .ok (branches id)
  listAllSessions : store.listAllSessions 0 = .ok sessions
  loadHistory : ∀ kind scope, store.loadHistory kind scope 0 = .ok (history kind scope)

namespace Census

variable {store : Store}

/-- The number of entries of all branches that are listed. -/
def entries (census : Census store) (kind : HistoryKind) : Nat :=
  (census.repositories.map fun r =>
    ((census.branches r.id).map fun b => (census.history kind (r.scope b)).length).sum).sum

/-- The numbers of what is shown. -/
def stats (census : Census store) : StoreStats :=
  ⟨census.repositories.length, (census.repositories.map fun r => (census.branches r.id).length).sum,
    census.sessions.length, (census.sessions.map SessionSummary.messageCount).sum,
    census.entries .prompt, census.entries .command⟩

/-- All rows of a database are shown, those of messages by the count of their session. -/
structure Shows (census : Census store) (db : Database) : Prop where
  repositories : ∀ r ∈ db.repositories.rows, r ∈ census.repositories
  branches : ∀ b ∈ db.branches.rows, ∃ r ∈ census.repositories, b ∈ census.branches r.id
  sessions : ∀ s ∈ db.sessions.rows, ∃ summary ∈ census.sessions, summary.id = s.id
  messages : ∀ m ∈ db.messages.rows, ∃ summary ∈ census.sessions, summary.id = m.sessionId
  entries : ∀ kind, ∀ e ∈ (db.history kind).rows, ∃ r ∈ census.repositories,
    ∃ b ∈ census.branches r.id, e ∈ census.history kind (r.scope b)

end Census

namespace Store

variable {db : Database}

/-- The answers where no table is missing. -/
def Database.Intact.census (h : db.Intact) (path : Option String) : Census ⟨path, some db⟩ where
  repositories := db.repositories.rows.mergeSort Database.repositoryLe
  branches id := (db.branches.rows.filter fun b => b.repositoryId == id).mergeSort
    fun a b => a.name ≤ b.name
  sessions := db.summaries
  history kind scope := (latestFirst (db.entriesOf kind scope)).reverse
  listRepositories := by
    simp only [Store.listRepositories, Store.query, Database.listRepositories, Database.read,
      h.requireAll, ok_bind, mapError_ok]
  listBranches id := by
    simp only [Store.listBranches, Store.query, Database.listBranches, Database.read,
      h.requireAll, ok_bind, mapError_ok]
  listAllSessions := h.listAllSessions_eq
  loadHistory kind scope := h.loadHistory_eq kind scope 0

section Sound

variable (h : db.Sound) (path : Option String)

theorem census_repositoryIds :
    ((h.toIntact.census path).repositories.map Repository.id).Nodup := by
  apply ((List.mergeSort_perm _ _).map _).nodup_iff.mpr
  exact h.repositoryIds.nodup

/-- Every branch belongs to a repository that is listed. -/
theorem census_owner {b : Branch} (hb : b ∈ db.branches.rows) :
    ∃ r ∈ (h.toIntact.census path).repositories, r.id = b.repositoryId := by
  obtain ⟨r, hr, hid⟩ := h.branchOwner b hb
  exact ⟨r, List.mem_mergeSort.mpr hr, hid⟩

/-- The history of a branch that is listed is what is stored for it. -/
theorem census_history {r : Repository} (hr : r ∈ (h.toIntact.census path).repositories)
    {b : Branch} (hb : b ∈ (h.toIntact.census path).branches r.id) (kind : HistoryKind) :
    ((h.toIntact.census path).history kind (r.scope b)).Perm (db.historyOf kind b.id) := by
  have hmem := List.mem_filter.mp (List.mem_mergeSort.mp hb)
  have hfound : db.findScope? (r.scope b) = some b :=
    h.findScope?_eq_some_iff.mpr
      ⟨hmem.1, r, List.mem_mergeSort.mp hr, (beq_iff_eq.mp hmem.2).symm, rfl⟩
  rw [← Database.entriesOf_of_some hfound]
  exact (List.reverse_perm _).trans (List.mergeSort_perm _ _)

theorem census_entries (kind : HistoryKind) :
    (h.toIntact.census path).entries kind = (db.history kind).rows.length := by
  have hcounts : ∀ r ∈ (h.toIntact.census path).repositories,
      (((h.toIntact.census path).branches r.id).map fun b =>
        ((h.toIntact.census path).history kind (r.scope b)).length).sum =
      ((db.branches.rows.filter fun b => b.repositoryId == r.id).map fun b =>
        (db.historyOf kind b.id).length).sum := by
    intro r hr
    rw [List.map_congr_left fun b hb => (census_history h path hr hb kind).length_eq]
    exact ((List.mergeSort_perm _ _).map _).sum_eq
  -- entries are counted by their branches, and these by their repositories
  rw [Census.entries, List.map_congr_left hcounts,
    sum_map_by_owner _ (census_repositoryIds h path) fun b hb => census_owner h path hb]
  exact sum_length_by_owner h.branchIds.nodup fun e he => h.entryOwner kind e he

theorem census_messages :
    ((h.toIntact.census path).sessions.map SessionSummary.messageCount).sum =
      db.messages.rows.length := by
  have hcounts := h.map_summaries fun _ _ hsummary => (Database.summary?_fields hsummary).2.2
  have hperm := (List.mergeSort_perm db.sessions.rows Database.recencyLe).map fun row =>
    (db.messagesOf row.id).length
  have hids : (db.sessions.rows.map SessionRow.id).Nodup := h.consistent.sessionIds
  refine (congrArg List.sum hcounts).trans (hperm.sum_eq.trans ?_)
  exact sum_length_by_owner hids h.messageOwner

/-- The report counts what is shown. -/
theorem census_stats : db.stats = .ok (h.toIntact.census path).stats := by
  have hbranches : ((h.toIntact.census path).repositories.map fun r =>
      ((h.toIntact.census path).branches r.id).length).sum = db.branches.rows.length := by
    refine Eq.trans ?_ (sum_length_by_owner (census_repositoryIds h path)
      fun b hb => census_owner h path hb)
    apply congrArg List.sum
    exact List.map_congr_left fun r _ => List.length_mergeSort _
  have hsessions : (h.toIntact.census path).sessions.length = db.sessions.rows.length :=
    h.length_summaries
  have hrepositories : (h.toIntact.census path).repositories.length =
      db.repositories.rows.length := List.length_mergeSort _
  simp only [Database.stats, h.toIntact.requireAll, ok_bind, Census.stats, hbranches, hsessions,
    hrepositories, census_messages h path, census_entries h path]
  rfl

theorem census_session {s : SessionRow} (hs : s ∈ db.sessions.rows) :
    ∃ summary ∈ (h.toIntact.census path).sessions, summary.id = s.id := by
  obtain ⟨summary, hsummary⟩ := Option.isSome_iff_exists.mp (h.isSome_summary? hs)
  exact ⟨summary, List.mem_filterMap.mpr ⟨s, List.mem_mergeSort.mpr hs, hsummary⟩,
    (Database.summary?_fields hsummary).1⟩

theorem census_branch {b : Branch} (hb : b ∈ db.branches.rows) :
    ∃ r ∈ (h.toIntact.census path).repositories, b ∈ (h.toIntact.census path).branches r.id := by
  obtain ⟨r, hr, hid⟩ := census_owner h path hb
  exact ⟨r, hr, List.mem_mergeSort.mpr (List.mem_filter.mpr ⟨hb, beq_iff_eq.mpr hid.symm⟩)⟩

theorem census_shows : (h.toIntact.census path).Shows db where
  repositories _ hr := List.mem_mergeSort.mpr hr
  branches _ hb := census_branch h path hb
  sessions _ hs := census_session h path hs
  messages m hm := by
    obtain ⟨s, hs, hid⟩ := h.messageOwner m hm
    rw [← hid]
    exact census_session h path hs
  entries kind e he := by
    obtain ⟨b, hb, hid⟩ := h.entryOwner kind e he
    obtain ⟨r, hr, hlisted⟩ := census_branch h path hb
    refine ⟨r, hr, b, hlisted, ?_⟩
    rw [(census_history h path hr hlisted kind).mem_iff]
    exact List.mem_filter.mpr ⟨he, beq_iff_eq.mpr hid.symm⟩

end Sound

/-- After every run the report counts what the read operations show, which is every row; and the
listings of repositories and branches are strictly in order. -/
theorem stats_play (path : Option String) (start : Int64) (run : List (Int64 × Operation)) :
    let store := (Store.fresh path start).play run
    ∃ census : Census store, store.stats = .ok census.stats ∧
      census.repositories.Pairwise Repository.Before ∧
      (∀ id, (census.branches id).Pairwise fun a b => encode a.name < encode b.name) ∧
      ∃ db, store.database = some db ∧ census.Shows db := by
  obtain ⟨db, hplay, h⟩ := play_sound path start run
  rw [hplay]
  exact ⟨h.toIntact.census path, census_stats h path, h.pairwise_repositories,
    h.pairwise_branches, db, rfl, census_shows h path⟩

end Store

end SessionArchive
