import SessionArchive.Proofs.Disk
import SessionArchive.Proofs.Store.Layout

/-!
# Opening a store again

A `Desk` is a disk with a handle on a store that one of its files holds. Along a run of events on
it a holder of the handle may have the store compacted, or close it and open it again, wherever the
handle is open: `Desk.play_inserted` says that the other events answer as they would have without,
and that disk and handle are the same in the end.
-/

set_option autoImplicit false

namespace SessionArchive

open Store (Database)

/-! ## Runs on a file -/

/-- What the holder of a handle on a file does: an operation, or to close the handle, or to open the
file again. -/
inductive FileEvent where
  | operate (operation : Operation)
  | close
  | reopen

/-- The answers to an event. -/
def FileEvent.Answer : FileEvent → Type
  | .operate operation => operation.Answer
  | .close => Unit
  | .reopen => Unit

/-- A disk, and a handle on a store. -/
structure Desk where
  disk : Disk
  store : Store

/-- A step of a run: an event of its own, or an insertion, which is to have the store compacted or
to close it and to open it again. Each has its times of the clock. -/
inductive Desk.Step where
  | own (now : Int64) (event : FileEvent)
  | compact (now : Int64)
  | reopen (closed opened : Int64)

namespace Desk

/-- Whether a step is one of the run itself. -/
def Step.isOwn : Step → Bool
  | .own .. => true
  | .compact _ => false
  | .reopen .. => false

variable (path : String)

/-- An event at a time of the clock: the answer, and the desk afterwards. The handle shares the
file that holds the store. -/
def act (now : Int64) (desk : Desk) : (event : FileEvent) → Except Failure event.Answer × Desk
  | .operate operation =>
    let (answer, store) := operation.run now (desk.disk.refresh desk.store)
    (answer, ⟨desk.disk.update store, store⟩)
  | .close => (.ok (), ⟨desk.disk, desk.store.close⟩)
  | .reopen =>
    -- a handle stays as it is where the file cannot be opened
    match desk.disk.openStore path now with
    | (.ok store, disk) => (.ok (), ⟨disk, store⟩)
    | (.error failure, disk) => (.error failure, ⟨disk, desk.store⟩)

/-- The desk after a step. -/
def after (desk : Desk) : Step → Desk
  | .own now event => (desk.act path now event).2
  | .compact now => (desk.act path now (.operate (.read .compact))).2
  | .reopen closed opened => ((desk.act path closed .close).2.act path opened .reopen).2

/-- The desk after a run. -/
def play (desk : Desk) : List Step → Desk
  | [] => desk
  | step :: rest => (desk.after path step).play rest

/-- The answers to the events of a run itself, in order. -/
def answers (desk : Desk) : List Step → List (Σ event : FileEvent, Except Failure event.Answer)
  | [] => []
  | .own now event :: rest =>
    ⟨event, (desk.act path now event).1⟩ :: (desk.after path (.own now event)).answers rest
  | step :: rest => (desk.after path step).answers rest

/-- Whether the handle is open at every insertion of a run. -/
def admits (desk : Desk) : List Step → Bool
  | [] => true
  | step :: rest => (step.isOwn || !desk.store.isClosed) && (desk.after path step).admits rest

/-! ## Desks that are in order -/

/-- The file holds a database, on which there is a handle, open or closed. -/
inductive Settled (base : Disk) : Database → Desk → Prop
  | held {db : Database} (h : db.Current) :
      Settled base db ⟨base.withDatabase path db, ⟨some path, some db⟩⟩
  | closed {db : Database} (h : db.Current) :
      Settled base db ⟨base.withDatabase path db, ⟨some path, none⟩⟩

variable {path} {base : Disk} {db : Database} {desk : Desk}

theorem Settled.current (h : Settled path base db desk) : db.Current := by
  cases h with
  | held hcurrent => exact hcurrent
  | closed hcurrent => exact hcurrent

/-- An operation leaves a desk in order, and does not touch the stamps of the layout. -/
theorem Settled.operate (h : Settled path base db desk) (hhouses : base.Houses path) (now : Int64)
    (operation : Operation) :
    ∃ left, left.versions = db.versions ∧
      Settled path base left (desk.act path now (.operate operation)).2 := by
  cases h with
  | held hcurrent =>
    simp only [act, hhouses.refresh_withDatabase]
    have hsame := operation.run_sameHandle now ⟨some path, some db⟩
    generalize (operation.run now ⟨some path, some db⟩).2 = store at hsame ⊢
    cases hsame with
    | held _ hlayout =>
      refine ⟨_, hlayout.versions, ?_⟩
      rw [hhouses.update_withDatabase]
      exact .held ⟨hlayout.missing.trans hcurrent.missing, by
        rw [hlayout.versions]
        exact hcurrent.stamped⟩
  | closed hcurrent =>
    simp only [act, Disk.refresh_closed]
    have hsame := operation.run_sameHandle now ⟨some path, none⟩
    generalize (operation.run now ⟨some path, none⟩).2 = store at hsame ⊢
    cases hsame with
    | closed _ =>
      rw [Disk.update_closed]
      exact ⟨db, rfl, .closed hcurrent⟩

theorem Settled.close (h : Settled path base db desk) (now : Int64) :
    Settled path base db (desk.act path now .close).2 := by
  cases h with
  | held hcurrent => exact .closed hcurrent
  | closed hcurrent => exact .closed hcurrent

/-- To open the file again opens what is in it. -/
theorem Settled.reopen_eq (h : Settled path base db desk) (hhouses : base.Houses path)
    (now : Int64) :
    desk.act path now .reopen =
      (.ok (), ⟨base.withDatabase path db, ⟨some path, some db⟩⟩) := by
  have hopen := hhouses.openStore_withDatabase h.current now
  cases h with
  | held _ => simp only [act, hopen]
  | closed _ => simp only [act, hopen]

/-- Every step leaves a desk in order, and does not touch the stamps of the layout. -/
theorem Settled.after (h : Settled path base db desk) (hhouses : base.Houses path) (step : Step) :
    ∃ left, left.versions = db.versions ∧ Settled path base left (desk.after path step) := by
  have hreopen : ∀ {other : Desk} (now : Int64), Settled path base db other →
      Settled path base db (other.act path now .reopen).2 := by
    intro other now hother
    rw [hother.reopen_eq hhouses]
    exact .held hother.current
  cases step with
  | own now event =>
    cases event with
    | operate operation => exact h.operate hhouses now operation
    | close => exact ⟨db, rfl, h.close now⟩
    | reopen => exact ⟨db, rfl, hreopen now h⟩
  | compact now => exact h.operate hhouses now (.read .compact)
  | reopen closed opened => exact ⟨db, rfl, hreopen opened (h.close closed)⟩

/-- An insertion leaves a desk with an open handle as it is. -/
theorem Settled.after_inserted (h : Settled path base db desk) (hhouses : base.Houses path)
    {step : Step} (hinserted : step.isOwn = false) (hopen : desk.store.isClosed = false) :
    desk.after path step = desk := by
  cases h with
  | closed _ => cases hopen
  | held hcurrent =>
    cases step with
    | own now event => cases hinserted
    | compact now =>
      simp only [Desk.after, act, hhouses.refresh_withDatabase, Operation.run]
      rw [hhouses.update_withDatabase]
    | reopen closed opened =>
      have hheld : Settled path base db ⟨base.withDatabase path db, ⟨some path, some db⟩⟩ :=
        .held hcurrent
      rw [Desk.after, (hheld.close closed).reopen_eq hhouses]

theorem Settled.get?_eq (h : Settled path base db desk) (hhouses : base.Houses path) :
    desk.disk.get? (DiskPath.ofText path) = some (.database db) := by
  cases h with
  | held _ => exact hhouses.get?_withDatabase db
  | closed _ => exact hhouses.get?_withDatabase db

/-! ## Runs with and without insertions -/

theorem answers_inserted {step : Step} (hinserted : step.isOwn = false) (rest : List Step) :
    desk.answers path (step :: rest) = (desk.after path step).answers path rest := by
  cases step with
  | own now event => cases hinserted
  | compact now => rfl
  | reopen closed opened => rfl

theorem Settled.play_filter (h : Settled path base db desk) (hhouses : base.Houses path)
    {steps : List Step} (hadmits : desk.admits path steps = true) :
    desk.answers path steps = desk.answers path (steps.filter Step.isOwn) ∧
      desk.play path steps = desk.play path (steps.filter Step.isOwn) ∧
      ∃ left, left.versions = db.versions ∧ Settled path base left (desk.play path steps) := by
  -- each step keeps the desk in order, and one that was inserted keeps the desk itself
  induction steps generalizing desk db with
  | nil => exact ⟨rfl, rfl, db, rfl, h⟩
  | cons step rest ih =>
    rw [admits, Bool.and_eq_true] at hadmits
    obtain ⟨left, hversions, hleft⟩ := h.after hhouses step
    obtain ⟨hanswers, hplay, last, hlast, hsettled⟩ := ih hleft hadmits.2
    cases hown : step.isOwn with
    | true =>
      rw [List.filter_cons_of_pos hown]
      refine ⟨?_, by rw [play, play, hplay], last, hlast.trans hversions, hsettled⟩
      cases step with
      | own now event => rw [answers, answers, hanswers]
      | compact now => cases hown
      | reopen closed opened => cases hown
    | false =>
      have hopen : desk.store.isClosed = false := by simpa [hown] using hadmits.1
      have hsame := h.after_inserted hhouses hown hopen
      rw [List.filter_cons_of_neg (by simp [hown]), answers_inserted hown, hanswers, play, hplay,
        hsame]
      rw [hsame] at hsettled hplay
      exact ⟨rfl, rfl, last, hlast.trans hversions, hplay ▸ hsettled⟩

/-- On a store that was opened in its file, insertions cannot be seen: where the handle is open at
each of them, all events of the run itself answer as they do without, and disk and handle are the
same in the end. The layout keeps the stamps that it had. -/
theorem play_inserted {disk opened : Disk} {store : Store} {start : Int64}
    (hfile : ¬(path = "" ∨ path = ":memory:"))
    (hopen : disk.openStore path start = (.ok store, opened)) (steps : List Step)
    (hadmits : (Desk.mk opened store).admits path steps = true) :
    let desk : Desk := ⟨opened, store⟩
    let without := steps.filter Step.isOwn
    desk.answers path steps = desk.answers path without ∧
      desk.play path steps = desk.play path without ∧
      ∃ first last, store.database = some first ∧ last.versions = first.versions ∧
        (desk.play path steps).disk.get? (DiskPath.ofText path) = some (.database last) := by
  obtain ⟨base, db, hhouses, hcurrent, rfl, rfl⟩ := Disk.openStore_ok hfile hopen
  obtain ⟨hanswers, hplay, last, hversions, hsettled⟩ :=
    Settled.play_filter (.held hcurrent) hhouses hadmits
  exact ⟨hanswers, hplay, db, last, rfl, hversions, hsettled.get?_eq hhouses⟩

/-- A repository is resolved and deleted, and resolved again once the store was opened and compacted
in between. -/
def restartedRun : List Step :=
  [.own 6 (.operate (.resolveRepository "h" "o" "p")), .reopen 7 8,
    .own 9 (.operate (.deleteRepository 1)), .reopen 10 4, .compact 11,
    .own 12 (.operate (.resolveRepository "h" "o" "p")), .own 13 .close, .own 14 .reopen]

/-- The id of the repository that was deleted is not handed out again. -/
theorem play_inserted_restartedRun :
    let opened : Disk := ⟨[(["d", "s.db"], .database (Database.new 5)), (["d"], .directory)]⟩
    let store : Store := ⟨some "d/s.db", some (Database.new 5)⟩
    Disk.empty.openStore "d/s.db" 5 = (.ok store, opened) ∧
      (Desk.mk opened store).admits "d/s.db" restartedRun = true ∧
      (Desk.mk opened store).answers "d/s.db" restartedRun =
        (Desk.mk opened store).answers "d/s.db" (restartedRun.filter Step.isOwn) ∧
      ((Desk.mk opened store).play "d/s.db" restartedRun).store.getRepository "h" "o" "p" =
        .ok (some ⟨2, "h", "o", "p"⟩) := by
  intro opened store
  have hplace : DiskPath.ofText "d/s.db" = ["d", "s.db"] := by decide +kernel
  have hopen : Disk.empty.openStore "d/s.db" 5 = (.ok store, opened) := by
    rw [Disk.openStore, if_neg (by decide), hplace]
    rfl
  have hadmits : (Desk.mk opened store).admits "d/s.db" restartedRun = true := by decide +kernel
  obtain ⟨hanswers, hplay, _⟩ := play_inserted (by decide) hopen restartedRun hadmits
  refine ⟨hopen, hadmits, hanswers, ?_⟩
  rw [hplay]
  decide +kernel

end Desk

end SessionArchive
