import SessionArchive.Proofs.Store.Clock
import SessionArchive.Proofs.Store.Deletion
import SessionArchive.Proofs.Store.Lookup
import SessionArchive.Proofs.Store.Queue

/-!
# The entries of a scope

What the tables hold of a scope in a stream: `Database.entriesOf` are its entries, which a load
answers, and `Database.queueOf` is what they remember. Each change of a database is followed to
them: scopes that come and go, entries at the end of a stream, entries that are trimmed away, and
entries that are removed with their branch.
-/

set_option autoImplicit false

namespace SessionArchive

namespace Store.Database

variable {db after : Database} {kind : HistoryKind} {scope : Scope}

/-! ## The entries of a scope -/

/-- The entries of a scope in a stream; a scope that is not there has none. -/
def entriesOf (db : Database) (kind : HistoryKind) (scope : Scope) : List HistoryEntry :=
  match db.findScope? scope with
  | none => []
  | some branch => db.historyOf kind branch.id

theorem entriesOf_of_none (hscope : db.findScope? scope = none) : db.entriesOf kind scope = [] := by
  simp only [entriesOf, hscope]

theorem entriesOf_of_some {b : Branch} (hscope : db.findScope? scope = some b) :
    db.entriesOf kind scope = db.historyOf kind b.id := by
  simp only [entriesOf, hscope]

theorem entriesOf_sublist (db : Database) (kind : HistoryKind) (scope : Scope) :
    (db.entriesOf kind scope).Sublist (db.history kind).rows := by
  cases hscope : db.findScope? scope with
  | none =>
    rw [entriesOf_of_none hscope]
    exact List.nil_sublist _
  | some b =>
    rw [entriesOf_of_some hscope]
    exact List.filter_sublist

theorem Sound.entriesOf_ids (h : db.Sound) (kind : HistoryKind) (scope : Scope) :
    (db.entriesOf kind scope).Pairwise fun a b => a.id < b.id :=
  (h.entryIds kind).ascending.sublist (entriesOf_sublist db kind scope)

theorem Intact.loadHistory_eq (h : db.Intact) (kind : HistoryKind) (scope : Scope) (limit : Nat) :
    db.loadHistory kind scope limit =
      .ok (limited limit (latestFirst (db.entriesOf kind scope))).reverse := by
  simp only [loadHistory, h.findScope_eq, ok_bind, entriesOf]
  cases db.findScope? scope with
  | none => simp [latestFirst, limited]
  | some branch => simp only [read, h.requireAll, ok_bind, mapError_ok]

/-- A branch has one scope. -/
theorem Sound.scope_eq (h : db.Sound) {other : Scope} {b : Branch}
    (hscope : db.findScope? scope = some b) (hother : db.findScope? other = some b) :
    scope = other := by
  obtain ⟨_, r, hr, howner, rfl⟩ := h.findScope?_eq_some_iff.mp hscope
  obtain ⟨_, s, hs, hsame, rfl⟩ := h.findScope?_eq_some_iff.mp hother
  rw [h.repositoryIds.eq_of_id hr hs (howner.trans hsame.symm)]

theorem Sound.findScope?_of_subset (h : db.Sound)
    (hafter : after.Sound) (hrepositories : ∀ r ∈ db.repositories.rows, r ∈ after.repositories.rows)
    {b : Branch} (hb : b ∈ after.branches.rows) (hscope : db.findScope? scope = some b) :
    after.findScope? scope = some b := by
  obtain ⟨_, r, hr, howner, rfl⟩ := h.findScope?_eq_some_iff.mp hscope
  exact hafter.findScope?_eq_some_iff.mpr ⟨hb, r, hrepositories r hr, howner, rfl⟩

/-- A scope that is new has no entries, and those of the other scopes stay where the rows of the
stream do. -/
theorem Sound.entriesOf_of_subset (h : db.Sound) (hafter : after.Sound)
    (hrepositories : ∀ r ∈ db.repositories.rows, r ∈ after.repositories.rows)
    (hbranches : ∀ b ∈ db.branches.rows, b ∈ after.branches.rows)
    (hhistory : after.history kind = db.history kind) (scope : Scope) :
    after.entriesOf kind scope = db.entriesOf kind scope := by
  cases hscope : db.findScope? scope with
  | some b =>
    have hb := (h.findScope?_eq_some_iff.mp hscope).1
    have hscope' := h.findScope?_of_subset hafter hrepositories (hbranches b hb) hscope
    rw [entriesOf_of_some hscope, entriesOf_of_some hscope', historyOf, hhistory, historyOf]
  | none =>
    rw [entriesOf_of_none hscope]
    cases hscope' : after.findScope? scope with
    | none => exact entriesOf_of_none hscope'
    | some b =>
      rw [entriesOf_of_some hscope', historyOf, hhistory]
      apply List.filter_eq_nil_iff.mpr
      intro entry hentry hid
      -- the branch of an entry was there before, and with it its scope
      obtain ⟨c, hc, howner⟩ := h.entryOwner kind entry hentry
      obtain ⟨hb, r, hr, hrepository, hkey⟩ := hafter.findScope?_eq_some_iff.mp hscope'
      obtain rfl := hafter.branchIds.eq_of_id (hbranches c hc) hb
        (howner.trans (beq_iff_eq.mp hid))
      obtain ⟨s, hs, hsid⟩ := h.branchOwner c hc
      obtain rfl := hafter.repositoryIds.eq_of_id (hrepositories s hs) hr
        (hsid.trans hrepository.symm)
      have hthere := h.findScope?_eq_some_iff.mpr ⟨hc, s, hs, hrepository, hkey⟩
      rw [hscope] at hthere
      cases hthere

/-! ## Entries that come and go -/

theorem findScope?_addEntry (db : Database) (kind : HistoryKind) (branchId : RowId) (text : String)
    (now : Int64) (scope : Scope) :
    (db.addEntry kind branchId text now).findScope? scope = db.findScope? scope := by
  cases kind <;> rfl

theorem findScope?_removeHistory (db : Database) (kind : HistoryKind) (p : HistoryEntry → Bool)
    (scope : Scope) : (db.removeHistory kind p).findScope? scope = db.findScope? scope := by
  cases kind <;> rfl

theorem history_addEntry (db : Database) (kind : HistoryKind) (branchId : RowId) (text : String)
    (now : Int64) (other : HistoryKind) :
    ((db.addEntry kind branchId text now).history other).rows =
      if other = kind then
        (db.history other).rows ++ [⟨(db.history kind).lastId + 1, branchId, text, now⟩]
      else (db.history other).rows := by
  cases kind <;> cases other <;> rfl

theorem history_removeHistory (db : Database) (kind : HistoryKind) (p : HistoryEntry → Bool)
    (other : HistoryKind) :
    ((db.removeHistory kind p).history other).rows =
      if other = kind then (db.history other).rows.filter (!p ·) else (db.history other).rows := by
  cases kind <;> cases other <;> rfl

/-- The branches of two scopes are the same if the scopes are. -/
theorem Sound.branch_id_eq_iff (h : db.Sound) {b c : Branch} {other : Scope}
    (hscope : db.findScope? scope = some b) (hother : db.findScope? other = some c) :
    c.id = b.id ↔ other = scope := by
  constructor
  · intro hid
    have hb := (h.findScope?_eq_some_iff.mp hscope).1
    have hc := (h.findScope?_eq_some_iff.mp hother).1
    rw [h.branchIds.eq_of_id hc hb hid] at hother
    exact h.scope_eq hother hscope
  · rintro rfl
    rw [hscope] at hother
    cases hother
    rfl

theorem Sound.entriesOf_addEntry (h : db.Sound) {b : Branch} (hscope : db.findScope? scope = some b)
    (kind : HistoryKind) (text : String) (now : Int64) (other : HistoryKind) (otherScope : Scope) :
    (db.addEntry kind b.id text now).entriesOf other otherScope =
      if other = kind ∧ otherScope = scope then
        db.entriesOf other otherScope ++ [⟨(db.history kind).lastId + 1, b.id, text, now⟩]
      else db.entriesOf other otherScope := by
  cases hother : db.findScope? otherScope with
  | none =>
    have hne : otherScope ≠ scope := by
      rintro rfl
      rw [hscope] at hother
      cases hother
    rw [if_neg (fun hsame => hne hsame.2), entriesOf_of_none hother, entriesOf_of_none]
    rw [findScope?_addEntry, hother]
  | some c =>
    have hiff := h.branch_id_eq_iff hscope hother
    rw [entriesOf_of_some hother,
      entriesOf_of_some ((findScope?_addEntry db kind b.id text now otherScope).trans hother)]
    simp only [historyOf, history_addEntry]
    by_cases hkind : other = kind
    · -- the new entry is one of the scope if its branch is the branch of the scope
      simp only [hkind, if_true, true_and, List.filter_append, ← hiff]
      by_cases hid : c.id = b.id
      · simp [hid]
      · simp [hid, Ne.symm hid]
    · simp [hkind]

theorem entriesOf_removeHistory (db : Database) (kind : HistoryKind) (p : HistoryEntry → Bool)
    (other : HistoryKind) (scope : Scope) :
    (db.removeHistory kind p).entriesOf other scope =
      if other = kind then (db.entriesOf other scope).filter (!p ·)
      else db.entriesOf other scope := by
  have hsame := findScope?_removeHistory db kind p scope
  cases hscope : db.findScope? scope with
  | none =>
    rw [entriesOf_of_none hscope, entriesOf_of_none (hsame.trans hscope)]
    simp
  | some b =>
    rw [entriesOf_of_some hscope, entriesOf_of_some (hsame.trans hscope)]
    simp only [historyOf, history_removeHistory]
    split
    · simp only [List.filter_filter, Bool.and_comm]
    · rfl

/-- The entries of a branch that are removed are those of its scope. -/
theorem Sound.entriesOf_removeOwn (h : db.Sound) {b : Branch}
    (hscope : db.findScope? scope = some b) (kind : HistoryKind) (p : HistoryEntry → Bool)
    (other : HistoryKind) (otherScope : Scope) :
    (db.removeHistory kind fun entry => entry.branchId == b.id && p entry).entriesOf other
        otherScope =
      if other = kind ∧ otherScope = scope then (db.entriesOf other otherScope).filter (!p ·)
      else db.entriesOf other otherScope := by
  -- the entries of another scope are on another branch, so none of them goes
  have howner : ∀ entry ∈ db.entriesOf other otherScope,
      entry.branchId = b.id ↔ otherScope = scope := by
    intro entry hentry
    cases hother : db.findScope? otherScope with
    | none =>
      rw [entriesOf_of_none hother] at hentry
      cases hentry
    | some c =>
      rw [entriesOf_of_some hother] at hentry
      have hid := (List.mem_filter.mp hentry).2
      rw [beq_iff_eq.mp hid]
      exact h.branch_id_eq_iff hscope hother
  rw [entriesOf_removeHistory]
  by_cases hkind : other = kind
  · by_cases hsame : otherScope = scope
    · rw [if_pos hkind, if_pos ⟨hkind, hsame⟩]
      apply List.filter_congr
      intro entry hentry
      simp [(howner entry hentry).mpr hsame]
    · rw [if_pos hkind, if_neg fun hboth => hsame hboth.2]
      apply List.filter_eq_self.mpr
      intro entry hentry
      simp [mt (howner entry hentry).mp hsame]
  · rw [if_neg hkind, if_neg fun hboth => hkind hboth.1]

/-! ## Branches that are deleted -/

/-- A scope is found after a deletion as before, unless its branch was taken. -/
theorem Sound.findScope?_leaves (h : db.Sound) (deletion : Deletion) (scope : Scope) :
    (deletion.leaves db).findScope? scope =
      (db.findScope? scope).filter fun b => !deletion.takesBranch b := by
  have hafter := Deletion.leaves_sound h deletion
  ext b
  rw [Option.filter_eq_some_iff, h.findScope?_eq_some_iff, hafter.findScope?_eq_some_iff]
  constructor
  · rintro ⟨hb, r, hr, howner, hkey⟩
    obtain ⟨hb, hstays⟩ := List.mem_filter.mp hb
    exact ⟨⟨hb, r, (List.mem_filter.mp hr).1, howner, hkey⟩, hstays⟩
  · rintro ⟨⟨hb, r, hr, howner, hkey⟩, hstays⟩
    have hleft : b ∈ (deletion.leaves db).branches.rows := List.mem_filter.mpr ⟨hb, hstays⟩
    -- a branch that is left has its repository there, which is the one that it had
    obtain ⟨s, hs, hsid⟩ := hafter.branchOwner b hleft
    obtain rfl := h.repositoryIds.eq_of_id (List.mem_filter.mp hs).1 hr (hsid.trans howner.symm)
    exact ⟨hleft, s, hs, howner, hkey⟩

theorem Sound.historyOf_leaves (h : db.Sound) {deletion : Deletion} {b : Branch}
    (hb : b ∈ db.branches.rows) (hstays : deletion.takesBranch b = false) :
    (deletion.leaves db).historyOf kind b.id = db.historyOf kind b.id := by
  rw [historyOf, Deletion.history_leaves, List.filter_filter, historyOf]
  apply List.filter_congr
  intro entry _
  by_cases hid : entry.branchId = b.id
  · -- the entry belongs to the branch, which is not taken
    rw [hid, Deletion.takesOwned_id h deletion hb, hstays]
    simp
  · simp [hid]

/-- A scope that is left keeps its entries, and one whose branch was taken has none. -/
theorem Sound.entriesOf_leaves (h : db.Sound) (deletion : Deletion) (kind : HistoryKind)
    (scope : Scope) :
    (deletion.leaves db).entriesOf kind scope =
      if (db.findScope? scope).any fun b => deletion.takesBranch b then []
      else db.entriesOf kind scope := by
  have hfound := h.findScope?_leaves deletion scope
  cases hscope : db.findScope? scope with
  | none =>
    rw [hscope] at hfound
    rw [entriesOf_of_none hfound, entriesOf_of_none hscope]
    rfl
  | some b =>
    have hb := (h.findScope?_eq_some_iff.mp hscope).1
    rw [hscope, Option.filter] at hfound
    -- the entries go with the branch, or stay with it
    cases hstays : deletion.takesBranch b with
    | true =>
      rw [hstays] at hfound
      rw [entriesOf_of_none hfound]
      simp [hstays]
    | false =>
      rw [hstays] at hfound
      rw [entriesOf_of_some hfound, entriesOf_of_some hscope, h.historyOf_leaves hb hstays]
      simp [hstays]

/-! ## Appending -/

/-- The entries of both streams stand in the order of their times, none of which is after the
clock. -/
def Chronological (db : Database) (clock : Int64) : Prop :=
  ∀ kind, Dated HistoryEntry.timestamp clock (db.history kind).rows

section Chronological

variable {clock : Int64}

theorem chronological_new (start : Int64) : (Database.new start).Chronological clock := by
  intro kind
  cases kind <;> exact .nil

theorem Chronological.removeHistory (h : db.Chronological clock) (kind : HistoryKind)
    (p : HistoryEntry → Bool) : (db.removeHistory kind p).Chronological clock := by
  intro other
  rw [history_removeHistory]
  split
  · exact (h other).sublist List.filter_sublist
  · exact h other

theorem Chronological.addEntry (h : db.Chronological clock) (kind : HistoryKind) (branchId : RowId)
    (text : String) : (db.addEntry kind branchId text clock).Chronological clock := by
  intro other
  rw [history_addEntry]
  split
  · exact (h other).append rfl
  · exact h other

theorem Chronological.leaves (h : db.Chronological clock) (deletion : Deletion) :
    (deletion.leaves db).Chronological clock := by
  intro kind
  rw [Deletion.history_leaves]
  exact (h kind).sublist List.filter_sublist

/-- To put the entries of a scope with the latest first is to turn them around. -/
theorem Sound.latestFirst_entriesOf (h : db.Sound) (hdated : db.Chronological clock)
    (kind : HistoryKind) (scope : Scope) :
    latestFirst (db.entriesOf kind scope) = (db.entriesOf kind scope).reverse := by
  exact latestFirst_eq_reverse
    ((hdated kind).ascending.sublist (entriesOf_sublist db kind scope)) (h.entriesOf_ids kind scope)

theorem Sound.entriesOf_trimHistory (h : db.Sound) (hdated : db.Chronological clock) {b : Branch}
    (hscope : db.findScope? scope = some b) (keep : Nat) (other : HistoryKind)
    (otherScope : Scope) :
    (db.trimHistory kind b.id keep).entriesOf other otherScope =
      if other = kind ∧ otherScope = scope then (db.entriesOf other otherScope).rtake keep
      else db.entriesOf other otherScope := by
  have hids := (h.entriesOf_ids kind scope).imp Int.ne_of_lt
  rw [trimHistory, ← entriesOf_of_some hscope, h.latestFirst_entriesOf hdated]
  refine (h.entriesOf_removeOwn hscope kind _ other otherScope).trans ?_
  split
  · rename_i hsame
    rw [hsame.1, hsame.2]
    simp only [Bool.not_not]
    exact filter_contains_reverse hids keep
  · rfl

end Chronological

theorem history_ensureRepository (db : Database) (host org project : String) (kind : HistoryKind) :
    (db.ensureRepository host org project).2.history kind = db.history kind := by
  simp only [ensureRepository]
  split
  · rfl
  · cases kind <;> rfl

theorem history_ensureBranch (db : Database) (repositoryId : RowId) (name : String)
    (kind : HistoryKind) :
    (db.ensureBranch repositoryId name).2.history kind = db.history kind := by
  simp only [ensureBranch]
  split
  · rfl
  · cases kind <;> rfl

theorem history_ensureScope (db : Database) (scope : Scope) (kind : HistoryKind) :
    (db.ensureScope scope).2.history kind = db.history kind :=
  (history_ensureBranch _ _ _ kind).trans (history_ensureRepository _ _ _ _ kind)

/-- A scope that is made sure of is there. -/
theorem Sound.exists_findScope?_ensureScope (h : db.Sound) (scope : Scope) :
    ∃ b, (db.ensureScope scope).2.findScope? scope = some b ∧ b.id = (db.ensureScope scope).1 := by
  have hthere := (db.ensureScope_changes scope).changes.sound h
  obtain ⟨b, hb, r, hr, hid, howner, hscope⟩ := db.exists_ensureScope scope
  exact ⟨b, hthere.findScope?_eq_some_iff.mpr ⟨hb, r, hr, howner, hscope⟩, hid⟩

/-- To make sure of a scope leaves the entries of all scopes as they are. -/
theorem Sound.entriesOf_ensureScope (h : db.Sound) (scope : Scope) (kind : HistoryKind)
    (other : Scope) : (db.ensureScope scope).2.entriesOf kind other = db.entriesOf kind other := by
  have hwidens := (db.ensureScope_changes scope).widens
  have hthere := (db.ensureScope_changes scope).changes.sound h
  exact h.entriesOf_of_subset hthere hwidens.repositories hwidens.branches
    (history_ensureScope db scope kind) other

/-- What is remembered of a scope in a stream. -/
def queueOf (db : Database) (kind : HistoryKind) (scope : Scope) : Queue :=
  (db.entriesOf kind scope).map HistoryEntry.remembered

/-- An entry at the end of a stream is a text at the back of the queue. -/
theorem Sound.queueOf_addTrimmed (h : db.Sound) {now : Int64} (hdated : db.Chronological now)
    {b : Branch} (hscope : db.findScope? scope = some b) (text : String) (maxEntries : Nat)
    (other : HistoryKind) (otherScope : Scope) :
    let added := db.addEntry kind b.id text now
    (if maxEntries = 0 then added else added.trimHistory kind b.id maxEntries).queueOf other
        otherScope =
      if other = kind ∧ otherScope = scope then
        (db.queueOf other otherScope).push text now maxEntries
      else db.queueOf other otherScope := by
  have hb := (h.findScope?_eq_some_iff.mp hscope).1
  have hadded := h.addEntry kind text now ⟨b, hb, rfl⟩
  have haddedScope := (findScope?_addEntry db kind b.id text now scope).trans hscope
  have hentries := h.entriesOf_addEntry hscope kind text now other otherScope
  dsimp only
  by_cases hlimit : maxEntries = 0
  · rw [if_pos hlimit, queueOf, hentries]
    split
    · simp [Queue.push, Queue.last, hlimit, queueOf, HistoryEntry.remembered]
    · rfl
  · rw [if_neg hlimit, queueOf, hadded.entriesOf_trimHistory (hdated.addEntry kind b.id text)
      haddedScope, hentries]
    split
    · simp [Queue.push, Queue.last, hlimit, queueOf, HistoryEntry.remembered, List.rtake]
    · rfl

theorem Sound.queueOf_appendHistory (h : db.Sound) {now : Int64} (hdated : db.Chronological now)
    (kind : HistoryKind) (scope : Scope) (text : String) (maxEntries : Nat) :
    (db.appendHistory kind scope text maxEntries now).Chronological now ∧
      ∀ other otherScope,
        (db.appendHistory kind scope text maxEntries now).queueOf other otherScope =
        if other = kind ∧ otherScope = scope then
          (db.queueOf other otherScope).push text now maxEntries
        else db.queueOf other otherScope := by
  obtain ⟨b, hscope, hid⟩ := h.exists_findScope?_ensureScope scope
  have hthere := (db.ensureScope_changes scope).changes.sound h
  have hhistory := history_ensureScope db scope
  -- making the branch of the scope adds no entry
  have hqueue : ∀ other otherScope,
      (db.ensureScope scope).2.queueOf other otherScope = db.queueOf other otherScope := by
    intro other otherScope
    rw [queueOf, h.entriesOf_ensureScope, queueOf]
  simp only [Database.appendHistory, ← hid]
  generalize (db.ensureScope scope).2 = there at *
  have hthereDated : there.Chronological now := by
    intro other
    rw [hhistory other]
    exact hdated other
  constructor
  · have hadded := hthereDated.addEntry kind b.id text
    split
    · exact hadded
    · exact hadded.removeHistory kind _
  · intro other otherScope
    rw [← hqueue]
    exact hthere.queueOf_addTrimmed hthereDated hscope text maxEntries other otherScope

/-! ## The other operations on history -/

theorem Sound.queueOf_clearHistory (h : db.Sound) {b : Branch}
    (hscope : db.findScope? scope = some b) (other : HistoryKind) (otherScope : Scope) :
    (db.removeHistory kind fun entry => entry.branchId == b.id).queueOf other otherScope =
      if other = kind ∧ otherScope = scope then [] else db.queueOf other otherScope := by
  have hentries := h.entriesOf_removeOwn hscope kind (fun _ => true) other otherScope
  simp only [Bool.and_true] at hentries
  rw [queueOf, hentries]
  split
  · simp
  · rfl

theorem Sound.queueOf_leaves (h : db.Sound) (deletion : Deletion) (kind : HistoryKind)
    (scope : Scope) :
    (deletion.leaves db).queueOf kind scope =
      if (db.findScope? scope).any fun b => deletion.takesBranch b then []
      else db.queueOf kind scope := by
  rw [queueOf, h.entriesOf_leaves, queueOf]
  split
  · rfl
  · rfl

theorem expireHistory_chronological {now : Int64} (hdated : db.Chronological now) (days : Nat) :
    (db.expireHistory now days).Chronological now :=
  (hdated.removeHistory .prompt _).removeHistory .command _

theorem history_expireHistory (db : Database) (now : Int64) (days : Nat) (kind : HistoryKind) :
    ((db.expireHistory now days).history kind).rows =
      (db.history kind).rows.filter fun entry => ageCutoff now days ≤ entry.timestamp.toInt := by
  have hrows : ((db.expireHistory now days).history kind).rows =
      (db.history kind).rows.filter fun entry =>
        !decide (entry.timestamp.toInt < ageCutoff now days) := by
    rw [expireHistory, history_removeHistory, history_removeHistory]
    cases kind with
    | prompt => rfl
    | command => rfl
  rw [hrows]
  simp only [← decide_not, Int.not_lt]

/-- The entries that are left of a scope are those of the days before a time. -/
theorem entriesOf_expireHistory (db : Database) (now : Int64) (days : Nat) (kind : HistoryKind)
    (scope : Scope) :
    (db.expireHistory now days).entriesOf kind scope =
      (db.entriesOf kind scope).filter fun entry =>
        ageCutoff now days ≤ entry.timestamp.toInt := by
  have hscope : (db.expireHistory now days).findScope? scope = db.findScope? scope := by
    rw [expireHistory, findScope?_removeHistory, findScope?_removeHistory]
  cases hfound : db.findScope? scope with
  | none =>
    rw [entriesOf_of_none hfound, entriesOf_of_none (hscope.trans hfound)]
    rfl
  | some b =>
    rw [entriesOf_of_some hfound, entriesOf_of_some (hscope.trans hfound), historyOf,
      history_expireHistory, historyOf, List.filter_filter, List.filter_filter]
    simp only [Bool.and_comm]

theorem queueOf_expireHistory (db : Database) (now : Int64) (days : Nat) (kind : HistoryKind)
    (scope : Scope) :
    (db.expireHistory now days).queueOf kind scope =
      (db.queueOf kind scope).filter fun remembered =>
        ageCutoff now days ≤ remembered.time.toInt := by
  rw [queueOf, entriesOf_expireHistory, queueOf, List.filter_map]
  rfl

end Store.Database

end SessionArchive
