import SessionArchive.Proofs.Store.Stream

/-!
# The store keeps its queues

Every operation does to the entries of a scope what `Queue.step` says, and leaves them in the order
of the clock. So `Store.history_play` says that after every run during which the clock does not go
back a load answers the queue.
-/

set_option autoImplicit false

namespace SessionArchive

/-! ## Operations beside the history -/

open Store (Database Deletion)

/-- Whether an operation is one of those that add or remove entries. -/
def Operation.touchesHistory : Operation → Bool
  | .deleteRepository _ => true
  | .deleteBranch _ => true
  | .appendHistory .. => true
  | .clearHistory .. => true
  | .cleanupHistory _ => true
  | _ => false

theorem Queue.step_of_not_touches {operation : Operation}
    (hbeside : operation.touchesHistory = false) (kind : HistoryKind) (scope : Scope) (now : Int64)
    (branch : Option Branch) (queue : Queue) :
    queue.step kind scope now branch operation = queue := by
  cases operation with
  | deleteRepository id => cases hbeside
  | deleteBranch id => cases hbeside
  | appendHistory kind' scope' text maxEntries => cases hbeside
  | clearHistory kind' scope' => cases hbeside
  | cleanupHistory maxAgeDays => cases hbeside
  | _ => rfl

variable {db : Database}

/-- All other operations, successful or not, leave both streams as they are. -/
theorem Operation.run_history (h : db.Intact) (path : Option String) (now : Int64)
    (operation : Operation) (hbeside : operation.touchesHistory = false) :
    ∃ after, (operation.run now ⟨path, some db⟩).2 = ⟨path, some after⟩ ∧
      ∀ kind, after.history kind = db.history kind := by
  cases operation with
  | read query => exact ⟨db, rfl, fun _ => rfl⟩
  | resolveRepository host org project =>
    refine ⟨_, congrArg Prod.snd (Store.mutate_of_ok
      (Store.Write.resolveRepository_intact h host org project) path _), fun kind => ?_⟩
    exact Database.history_ensureRepository db host org project kind
  | resolveBranch repositoryId name =>
    refine Store.mutate_keeps (fun _ => rfl) (fun id after hwrite kind => ?_) path _
    rw [Store.Write.resolveBranch_intact h] at hwrite
    split at hwrite
    · cases hwrite
      exact Database.history_ensureBranch db repositoryId name kind
    · cases hwrite
  | resolveScope scope =>
    refine ⟨_, congrArg Prod.snd (Store.mutate_of_ok
      (Store.Write.resolveScope_intact h scope) path _), fun kind => ?_⟩
    exact Database.history_ensureScope db scope kind
  | saveSession session scope =>
    refine ⟨_, congrArg Prod.snd (Store.saveSession_intact h path session scope now),
      fun kind => ?_⟩
    refine Eq.trans ?_ (Database.history_ensureScope db scope kind)
    cases kind <;> rfl
  | deleteSession id =>
    refine ⟨_, congrArg Prod.snd (Store.deleteSession_intact h path id), fun kind => ?_⟩
    cases kind <;> rfl
  | cleanupSessions maxAgeDays maxSessions =>
    refine ⟨_, congrArg Prod.snd (Store.cleanupSessions_intact h path maxAgeDays maxSessions now),
      fun kind => ?_⟩
    obtain ⟨p, q, hcleaned⟩ := db.exists_removeSessions_cleanup now maxAgeDays maxSessions
    rw [hcleaned]
    cases kind <;> rfl
  | mutate name insertions =>
    refine Store.mutate_keeps (fun _ => rfl) (fun ids after hwrite => ?_) path name
    -- repositories that an insertion adds have no entries
    have hadd : ∀ (between : Database) (host org project : String),
        (∀ kind, between.history kind = db.history kind) →
        between.findRepository? host org project = none →
        ∀ kind, (between.addRepository host org project).history kind = db.history kind := by
      intro between host org project hsame _ kind
      rw [← hsame kind]
      cases kind <;> rfl
    exact Store.Write.insertions_keep hadd insertions h (fun _ => rfl) hwrite
  | _ => cases hbeside

namespace Store

/-! ## What operations do to the queues -/

theorem findScope_intact (h : db.Intact) (path : Option String) (scope : Scope) :
    Store.findScope ⟨path, some db⟩ scope = .ok (db.findScope? scope) := h.findScope_eq scope

theorem branchOf_intact (h : db.Intact) (path : Option String) (scope : Scope) :
    Shelf.branchOf ⟨path, some db⟩ scope = db.findScope? scope := by
  rw [Shelf.branchOf, findScope_intact h]
  rfl

/-- Clearing removes the entries of a scope that is there. -/
theorem clearHistory_intact (h : db.Intact) (path : Option String) (kind : HistoryKind)
    (scope : Scope) :
    (db.findScope? scope = none ∧
      Store.clearHistory ⟨path, some db⟩ kind scope = (.ok 0, ⟨path, some db⟩)) ∨
    ∃ branch count, db.findScope? scope = some branch ∧
      Store.clearHistory ⟨path, some db⟩ kind scope = (.ok count,
        ⟨path, some (db.removeHistory kind fun entry => entry.branchId == branch.id)⟩) := by
  simp only [Store.clearHistory, findScope_intact h]
  cases db.findScope? scope with
  | none => exact .inl ⟨rfl, rfl⟩
  | some branch =>
    exact .inr ⟨branch, _, rfl, mutate_of_ok (Write.deleteHistory_intact h kind _) path _⟩

end Store

/-- An operation beside the history leaves every queue as it is: it deletes no repository and no
branch either, so every scope that had entries still has them. -/
theorem Operation.Leaves.queueOf_eq_step {operation : Operation} {after : Database}
    (hleaves : operation.Leaves db after) (h : db.Sound) (hsound : after.Sound)
    (hbeside : operation.touchesHistory = false) {kind : HistoryKind}
    (hhistory : after.history kind = db.history kind) (scope : Scope) (now : Int64) :
    after.queueOf kind scope =
      (db.queueOf kind scope).step kind scope now (db.findScope? scope) operation := by
  have hrepositories : ∀ r ∈ db.repositories.rows, r ∈ after.repositories.rows := by
    intro r hr
    refine (hleaves.repository r hr).mpr ?_
    rintro rfl
    cases hbeside
  have hbranches : ∀ b ∈ db.branches.rows, b ∈ after.branches.rows := by
    intro b hb
    refine (hleaves.branch b hb).mpr ⟨?_, ?_⟩
    · rintro rfl
      cases hbeside
    · rintro rfl
      cases hbeside
  rw [Queue.step_of_not_touches hbeside, Database.queueOf,
    h.entriesOf_of_subset hsound hrepositories hbranches hhistory, Database.queueOf]

/-- What an operation turns a database into, as far as the history goes. -/
inductive Operation.TurnsHistory (now : Int64) (db : Database) : Operation → Database → Prop
  | beside {operation : Operation} {after : Database}
      (hbeside : operation.touchesHistory = false)
      (hsame : ∀ kind, after.history kind = db.history kind) : TurnsHistory now db operation after
  | appendHistory (kind : HistoryKind) (scope : Scope) (text : String) (maxEntries : Nat) :
      TurnsHistory now db (.appendHistory kind scope text maxEntries)
        (db.appendHistory kind scope text maxEntries now)
  | clearNothing {kind : HistoryKind} {scope : Scope} (hscope : db.findScope? scope = none) :
      TurnsHistory now db (.clearHistory kind scope) db
  | clearHistory {kind : HistoryKind} {scope : Scope} {b : Branch}
      (hscope : db.findScope? scope = some b) :
      TurnsHistory now db (.clearHistory kind scope)
        (db.removeHistory kind fun entry => entry.branchId == b.id)
  | cleanupNothing : TurnsHistory now db (.cleanupHistory 0) db
  | cleanupHistory {maxAgeDays : Nat} (hlimit : maxAgeDays ≠ 0) :
      TurnsHistory now db (.cleanupHistory maxAgeDays) (db.expireHistory now maxAgeDays)
  | deleteBranch (id : RowId) :
      TurnsHistory now db (.deleteBranch id) ((Deletion.branch id).leaves db)
  | deleteRepository (id : RowId) :
      TurnsHistory now db (.deleteRepository id) ((Deletion.repository id).leaves db)

theorem Operation.run_turnsHistory (h : db.Sound) (path : Option String) (now : Int64)
    (operation : Operation) :
    ∃ after, (operation.run now ⟨path, some db⟩).2 = ⟨path, some after⟩ ∧
      operation.TurnsHistory now db after := by
  cases htouches : operation.touchesHistory with
  | false =>
    obtain ⟨after, hrun, hsame⟩ := operation.run_history h.toIntact path now htouches
    exact ⟨after, hrun, .beside htouches hsame⟩
  | true =>
    cases operation with
    | appendHistory kind scope text maxEntries =>
      exact ⟨_, congrArg Prod.snd
        (Store.appendHistory_intact h.toIntact path kind scope text maxEntries now),
        .appendHistory kind scope text maxEntries⟩
    | clearHistory kind scope =>
      rcases Store.clearHistory_intact h.toIntact path kind scope with
        ⟨hscope, hclear⟩ | ⟨branch, count, hscope, hclear⟩
      · exact ⟨db, congrArg Prod.snd hclear, .clearNothing hscope⟩
      · exact ⟨_, congrArg Prod.snd hclear, .clearHistory hscope⟩
    | cleanupHistory maxAgeDays =>
      have hcleanup := congrArg Prod.snd
        (Store.cleanupHistory_intact h.toIntact path maxAgeDays now)
      by_cases hlimit : maxAgeDays = 0
      · rw [if_pos hlimit, hlimit] at hcleanup
        rw [hlimit]
        exact ⟨db, hcleanup, .cleanupNothing⟩
      · rw [if_neg hlimit] at hcleanup
        exact ⟨_, hcleanup, .cleanupHistory hlimit⟩
    | deleteBranch id =>
      exact ⟨_, congrArg Prod.snd (Deletion.perform_eq h path (.branch id)), .deleteBranch id⟩
    | deleteRepository id =>
      exact ⟨_, congrArg Prod.snd (Deletion.perform_eq h path (.repository id)),
        .deleteRepository id⟩
    | _ => cases htouches

theorem Operation.turnsHistory_of_run (h : db.Sound) {path : Option String} {now : Int64}
    {operation : Operation} {after : Database}
    (hrun : (operation.run now ⟨path, some db⟩).2 = ⟨path, some after⟩) :
    operation.TurnsHistory now db after := by
  obtain ⟨other, hother, hturns⟩ := operation.run_turnsHistory h path now
  obtain rfl := Store.eq_of_left hother hrun
  exact hturns

/-- Nothing that an operation adds to a stream is dated before what is there. -/
theorem Operation.TurnsHistory.chronological {operation : Operation} {after : Database}
    {now : Int64} (hturns : operation.TurnsHistory now db after) (h : db.Sound)
    (hdated : db.Chronological now) : after.Chronological now := by
  cases hturns with
  | beside _ hsame =>
    intro kind
    rw [hsame kind]
    exact hdated kind
  | appendHistory kind scope text maxEntries =>
    exact (h.queueOf_appendHistory hdated kind scope text maxEntries).1
  | clearNothing _ => exact hdated
  | @clearHistory kind _ _ _ => exact hdated.removeHistory kind _
  | cleanupNothing => exact hdated
  | @cleanupHistory maxAgeDays _ => exact Database.expireHistory_chronological hdated maxAgeDays
  | deleteBranch id => exact hdated.leaves _
  | deleteRepository id => exact hdated.leaves _

/-- Every operation, successful or not, does to the queues what `Queue.step` says. -/
theorem Operation.run_queueOf (h : db.Sound) {now : Int64} (hdated : db.Chronological now)
    (path : Option String) (operation : Operation) :
    ∃ after, (operation.run now ⟨path, some db⟩).2 = ⟨path, some after⟩ ∧ after.Sound ∧
      after.Chronological now ∧ ∀ kind scope, after.queueOf kind scope =
        (db.queueOf kind scope).step kind scope now (db.findScope? scope) operation := by
  obtain ⟨after, hrun, hsound, -, hleaves⟩ := operation.run_leaves h path now
  have hturns := operation.turnsHistory_of_run h hrun
  refine ⟨after, hrun, hsound, hturns.chronological h hdated, fun kind scope => ?_⟩
  cases hturns with
  | beside hbeside hsame => exact hleaves.queueOf_eq_step h hsound hbeside (hsame kind) scope now
  | appendHistory other otherScope text maxEntries =>
    exact (h.queueOf_appendHistory hdated other otherScope text maxEntries).2 kind scope
  | clearNothing hnone =>
    simp only [Queue.step]
    split
    · -- a scope that is not there has no entries
      rename_i hsame
      rw [hsame.2, Database.queueOf, Database.entriesOf_of_none hnone]
      rfl
    · rfl
  | clearHistory hscope => exact h.queueOf_clearHistory hscope kind scope
  | cleanupNothing => rfl
  | @cleanupHistory maxAgeDays hlimit =>
    rw [Queue.step, Queue.expire, if_neg hlimit]
    exact db.queueOf_expireHistory now maxAgeDays kind scope
  | deleteBranch id => exact h.queueOf_leaves (.branch id) kind scope
  | deleteRepository id => exact h.queueOf_leaves (.repository id) kind scope

namespace Store

/-! ## Runs -/

/-- While the clock does not go back, the entries of every scope are those of its queue. -/
theorem play_queueOf (h : db.Sound) {clock : Int64} (hdated : db.Chronological clock)
    (path : Option String) (run : List (Int64 × Operation))
    (hclock : run.Pairwise fun a b => a.1 ≤ b.1) (hnow : ∀ step ∈ run, clock ≤ step.1) :
    ∃ after later, (Store.mk path (some db)).play run = ⟨path, some after⟩ ∧ after.Sound ∧
      after.Chronological later ∧ ∀ kind scope, after.queueOf kind scope =
        (db.queueOf kind scope).play kind scope ⟨path, some db⟩ run := by
  induction run generalizing db clock with
  | nil => exact ⟨db, clock, rfl, h, hdated, fun _ _ => rfl⟩
  | cons step rest ih =>
    rcases step with ⟨now, operation⟩
    obtain ⟨hfirst, hrest⟩ := List.pairwise_cons.mp hclock
    have hdatedNow : db.Chronological now := fun kind =>
      (hdated kind).mono (hnow _ List.mem_cons_self)
    obtain ⟨between, hrun, hbetween, hbetweenDated, hstep⟩ :=
      operation.run_queueOf h hdatedNow path
    obtain ⟨after, later, hplay, hafter, hafterDated, hqueue⟩ :=
      ih hbetween hbetweenDated hrest hfirst
    refine ⟨after, later, ?_, hafter, hafterDated, fun kind scope => ?_⟩
    · rw [Store.play, hrun]
      exact hplay
    · rw [hqueue, hstep, Queue.play, hrun, branchOf_intact h.toIntact]

/-- After every run of operations on a store that was empty, during which the clock does not go
back, a load answers the last texts of the queue, or all of them. Where a scope is not there, a load
answers nothing and clearing removes nothing, and both leave the store as it is. -/
theorem history_play (path : Option String) (start : Int64) (run : List (Int64 × Operation))
    (hclock : run.Pairwise fun a b => a.1 ≤ b.1) (kind : HistoryKind) (scope : Scope) :
    let store := (Store.fresh path start).play run
    (∀ limit, ∃ entries, store.loadHistory kind scope limit = .ok entries ∧
      entries.map HistoryEntry.remembered =
        (Queue.play kind scope [] (Store.fresh path start) run).last limit) ∧
    (store.findScope scope = .ok none → ∀ now,
      (∀ limit, Operation.run now store (.read (.loadHistory kind scope limit)) = (.ok [], store)) ∧
      Operation.run now store (.clearHistory kind scope) = (.ok (0 : Nat), store)) := by
  have hempty : (Database.new start).Chronological Int64.minValue :=
    Database.chronological_new start
  obtain ⟨db, later, hplay, h, hdated, hqueue⟩ := play_queueOf (Database.sound_new start) hempty
    path run hclock fun step _ => Int64.minValue_le step.1
  have hload : ∀ limit, Store.loadHistory ⟨path, some db⟩ kind scope limit =
      .ok (Database.limited limit (latestFirst (db.entriesOf kind scope))).reverse :=
    h.toIntact.loadHistory_eq kind scope
  rw [Store.fresh, hplay]
  refine ⟨fun limit => ⟨_, hload limit, ?_⟩, fun hscope now => ?_⟩
  · have hentries : (db.entriesOf kind scope).map HistoryEntry.remembered =
        Queue.play kind scope [] ⟨path, some (Database.new start)⟩ run := hqueue kind scope
    rw [← hentries, h.latestFirst_entriesOf hdated, Database.limited, Queue.last]
    -- the first ones of the entries turned around are the last ones
    split
    · rw [List.reverse_reverse]
    · rw [← List.rtake_eq_reverse_take_reverse, List.rtake, List.rtake, List.map_drop,
        List.length_map]
  · have hnone : db.findScope? scope = none := by
      rw [findScope_intact h.toIntact] at hscope
      exact Except.ok.inj hscope
    constructor
    · intro limit
      have hnothing : (Database.limited limit (latestFirst [])).reverse = [] := by
        simp [Database.limited, latestFirst]
      have hanswer := hload limit
      rw [Database.entriesOf_of_none hnone, hnothing] at hanswer
      exact congrArg (·, _) hanswer
    · rcases clearHistory_intact h.toIntact path kind scope with ⟨_, hclear⟩ | ⟨_, _, hsome, _⟩
      · exact hclear
      · rw [hnone] at hsome
        cases hsome

/-- Prompts are appended, two of them within one second, up to two of which stay; a branch that has
one too is deleted; and what is older than a day is dropped before another prompt comes. -/
def promptRun : List (Int64 × Operation) :=
  [(1, .appendHistory .prompt ⟨"h", "o", "p", "main"⟩ "a" 0),
    (1, .appendHistory .prompt ⟨"h", "o", "p", "main"⟩ "b" 0),
    (2, .appendHistory .prompt ⟨"h", "o", "p", "main"⟩ "c" 2),
    (2, .appendHistory .prompt ⟨"h", "o", "p", "dev"⟩ "d" 0), (3, .deleteBranch 2),
    (86402, .cleanupHistory 1),
    (86402, .appendHistory .prompt ⟨"h", "o", "p", "main"⟩ "e" 0)]

theorem history_play_promptRun :
    (promptRun.Pairwise fun a b => a.1 ≤ b.1) ∧
      (∃ entries, ((Store.fresh none 0).play promptRun).loadHistory .prompt
          ⟨"h", "o", "p", "main"⟩ 0 = .ok entries ∧
        entries.map HistoryEntry.remembered = [⟨"c", 2⟩, ⟨"e", 86402⟩]) ∧
      ((Store.fresh none 0).play promptRun).clearHistory .prompt ⟨"h", "o", "p", "dev"⟩ =
        (.ok 0, (Store.fresh none 0).play promptRun) := by
  have hclock : promptRun.Pairwise fun a b => a.1 ≤ b.1 := by decide
  have hqueue : Queue.play .prompt ⟨"h", "o", "p", "main"⟩ [] (Store.fresh none 0) promptRun =
      [⟨"c", 2⟩, ⟨"e", 86402⟩] := by decide +kernel
  have hscope : ((Store.fresh none 0).play promptRun).findScope ⟨"h", "o", "p", "dev"⟩ =
      .ok none := by decide +kernel
  obtain ⟨hload, _⟩ := history_play none 0 promptRun hclock .prompt ⟨"h", "o", "p", "main"⟩
  obtain ⟨_, habsent⟩ := history_play none 0 promptRun hclock .prompt ⟨"h", "o", "p", "dev"⟩
  obtain ⟨entries, hentries, hremembered⟩ := hload 0
  rw [hqueue] at hremembered
  exact ⟨hclock, ⟨entries, hentries, hremembered⟩, (habsent hscope 86402).2⟩

end Store

end SessionArchive
