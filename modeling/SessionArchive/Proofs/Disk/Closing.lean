import SessionArchive.Proofs.Disk.Reopening
import SessionArchive.Proofs.Store.Scanning

/-!
# A closed handle

Once a handle is closed, and until the file is opened again, nothing reaches the tables through it:
`Desk.play_shut`. Handle and disk stay as they are whatever is asked of them, and to close once more
succeeds. `Operation.closedAnswer` is what each operation answers then. Nearly all of them say that
the store is closed. A retention pass without limits has nothing to do and says so instead, and a
search for a pattern that cannot be compiled complains of the pattern.
-/

set_option autoImplicit false

namespace SessionArchive

open Store (Write CleanupReport)

/-- What an operation answers on a closed handle. -/
def Operation.closedAnswer : (operation : Operation) → Except Failure operation.Answer
  -- passes without limits and patterns are settled before the handle is looked at
  | .cleanupSessions 0 0 => .ok (⟨0, 0⟩ : CleanupReport)
  | .cleanupHistory 0 => .ok (0 : Nat)
  | .read (.searchMessages pattern _) =>
    match Pattern.compile pattern with
    | .error fault => .error (.invalidPattern pattern fault)
    | .ok _ => .error .storeClosed
  | _ => .error .storeClosed

/-- No query changes a handle, and only a search has something to do before it needs the tables. -/
theorem Query.answer_closed (path : Option String) (query : Query) :
    query.answer ⟨path, none⟩ = (Operation.read query).closedAnswer := by
  cases query with
  | searchMessages pattern limit =>
    rw [Query.answer, Store.searchMessages, Operation.closedAnswer]
    cases hcompile : Pattern.compile pattern with
    | error fault =>
      exact Store.searchMessagesBy_of_error (Store.patternEngine_of_error hcompile) _ limit
    | ok compiled =>
      rw [Store.searchMessagesBy, Store.searchScannedBy, Store.patternEngine_of_ok hcompile]
      rfl
  | _ => rfl

/-- An operation on a closed handle leaves it closed. -/
theorem Operation.run_closed (operation : Operation) (now : Int64) (path : Option String) :
    operation.run now ⟨path, none⟩ = (operation.closedAnswer, ⟨path, none⟩) := by
  cases operation with
  | read query => rw [Operation.run, Query.answer_closed]
  | cleanupSessions maxAgeDays maxSessions =>
    rcases maxAgeDays with _ | days
    · rcases maxSessions with _ | count
      · rfl
      · rfl
    · rfl
  | cleanupHistory maxAgeDays =>
    rcases maxAgeDays with _ | days
    · rfl
    · rfl
  | _ => rfl

namespace Desk

/-- Whether a step opens the file again. -/
def Step.opens : Step → Bool
  | .own _ .reopen => true
  | .reopen .. => true
  | _ => false

variable (path : String) {desk : Desk}

/-- An operation through a closed handle touches neither the handle nor the disk. -/
theorem act_operate_closed (hclosed : desk.store.database = none) (now : Int64)
    (operation : Operation) :
    desk.act path now (.operate operation) = (operation.closedAnswer, desk) := by
  obtain ⟨disk, held, database⟩ := desk
  cases hclosed
  simp only [act, Disk.refresh_closed, operation.run_closed, Disk.update_closed]
  rfl

theorem act_close_closed (hclosed : desk.store.database = none) (now : Int64) :
    desk.act path now .close = (.ok (), desk) := by
  obtain ⟨disk, held, database⟩ := desk
  cases hclosed
  rfl

/-- A step that does not open the file leaves a desk with a closed handle as it is. -/
theorem after_closed (hclosed : desk.store.database = none) {step : Step}
    (hstep : step.opens = false) : desk.after path step = desk := by
  cases step with
  | own now event =>
    cases event with
    | operate operation => rw [after, act_operate_closed path hclosed]
    | close => rw [after, act_close_closed path hclosed]
    | reopen => cases hstep
  | compact now => rw [after, act_operate_closed path hclosed]
  | reopen closed opened => cases hstep

theorem play_closed (hclosed : desk.store.database = none) {later : List Step}
    (hlater : ∀ step ∈ later, step.opens = false) : desk.play path later = desk := by
  induction later with
  | nil => rfl
  | cons step rest ih =>
    obtain ⟨hstep, hrest⟩ := List.forall_mem_cons.mp hlater
    rw [play, after_closed path hclosed hstep]
    exact ih hrest

/-- Whatever was done before, to close a handle succeeds and leaves the disk alone. Nothing that
follows but opening the file again makes a difference: handle and disk stay as they are, to close
succeeds again, every operation answers as on a closed handle, and no sequence of statements
runs. -/
theorem play_shut (desk : Desk) (before : List Step) (closing : Int64) (later : List Step)
    (hlater : ∀ step ∈ later, step.opens = false) :
    let held := desk.play path before
    let shut : Desk := ⟨held.disk, held.store.close⟩
    held.act path closing .close = (.ok (), shut) ∧
      shut.play path later = shut ∧
      (∀ now, shut.act path now .close = (.ok (), shut)) ∧
      (∀ now operation,
        shut.act path now (.operate operation) = (operation.closedAnswer, shut)) ∧
      ∀ (α : Type) (name : String) (write : Write α),
        shut.store.mutate name write = (.error .storeClosed, shut.store) := by
  intro held shut
  have hclosed : shut.store.database = none := rfl
  exact ⟨rfl, play_closed path hclosed hlater, act_close_closed path hclosed,
    act_operate_closed path hclosed, fun _ _ _ => rfl⟩

/-- A handle that was closed after a repository was recorded, and asked for this and that. -/
theorem play_shut_asked :
    let desk : Desk := ⟨Disk.empty, Store.fresh none 5⟩
    let before : List Step := [.own 6 (.operate (.resolveRepository "h" "o" "p"))]
    let later : List Step := [.own 8 (.operate (.deleteRepository 1)), .own 9 .close, .compact 10]
    let held := desk.play "s.db" before
    let shut : Desk := ⟨held.disk, held.store.close⟩
    held.store.getRepository "h" "o" "p" = .ok (some ⟨1, "h", "o", "p"⟩) ∧
      (∀ step ∈ later, step.opens = false) ∧
      shut.play "s.db" later = shut ∧
      (shut.act "s.db" 11 (.operate (.resolveRepository "h" "o" "p"))).1 = .error .storeClosed ∧
      (shut.act "s.db" 11 (.operate (.read .stats))).1 = .error .storeClosed ∧
      (shut.act "s.db" 11 (.operate (.cleanupSessions 0 0))).1 = .ok (⟨0, 0⟩ : CleanupReport) ∧
      (shut.act "s.db" 11 (.operate (.cleanupHistory 0))).1 = .ok (0 : Nat) := by
  intro desk before later held shut
  have hlater : ∀ step ∈ later, step.opens = false := by decide
  obtain ⟨_, hplay, _, hoperate, _⟩ := play_shut "s.db" desk before 7 later hlater
  refine ⟨by decide +kernel, hlater, hplay, ?_, ?_, ?_, ?_⟩
  · exact congrArg Prod.fst (hoperate 11 (.resolveRepository "h" "o" "p"))
  · exact congrArg Prod.fst (hoperate 11 (.read .stats))
  · exact congrArg Prod.fst (hoperate 11 (.cleanupSessions 0 0))
  · exact congrArg Prod.fst (hoperate 11 (.cleanupHistory 0))

end Desk

end SessionArchive
