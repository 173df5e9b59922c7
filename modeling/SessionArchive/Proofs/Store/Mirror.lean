import SessionArchive.Proofs.Related
import SessionArchive.Proofs.Store.Lifetime
import SessionArchive.Proofs.Store.Loading
import SessionArchive.Proofs.Store.Shelf

/-!
# The store keeps its shelf

`Tied` ties the rows of the tables to a `Shelf`, row by row in the order of the saves. Every
operation keeps the tie, and so `Store.loadSession_play` says that after every run a load answers
exactly what is on the shelf.
-/

set_option autoImplicit false

namespace SessionArchive

open Store (Database Changes SideChanges SideChange Transcript SessionRow sessionRow)

/-! ## The tie between rows and shelf -/

/-- What can be read back: messages that nest as deep as is allowed and hold no floating-point
number. -/
def Message.IsPlain (message : Message) : Prop :=
  message.toJson.depth ≤ Json.greatestDepth ∧ message.toJson.Integral

namespace Store

/-- A row of the sessions holds what is kept of a session, all of whose messages are allowed. -/
structure Holds (allowed : Message → Prop) (db : Database) (row : SessionRow) (kept : Kept) :
    Prop where
  row_eq : row = sessionRow row.branchId kept.loaded.session kept.lastUpdated row.saveSeq
  owner : ∃ b ∈ db.branches.rows, ∃ r ∈ db.repositories.rows, kept.branch = some b ∧
    b.id = row.branchId ∧ r.id = b.repositoryId ∧
      kept.loaded.scope = ⟨r.host, r.org, r.project, b.name⟩
  transcript : Transcript row.id 0 (db.messagesOf row.id) kept.loaded.session.messages
  allowed : ∀ message ∈ kept.loaded.session.messages, allowed message

/-- The rows of the sessions hold what is on a shelf, in its order. -/
def Tied (allowed : Message → Prop) (db : Database) (shelf : Shelf) : Prop :=
  List.Forall₂ (Holds allowed db) db.sessions.rows shelf

/-- The rows of the sessions hold what is on a shelf, and every message can be read back. -/
abbrev Mirrors (db : Database) (shelf : Shelf) : Prop := Tied Message.IsPlain db shelf

variable {allowed : Message → Prop}

theorem Holds.id_eq {db : Database} {row : SessionRow} {kept : Kept}
    (h : Holds allowed db row kept) : row.id = kept.id := congrArg SessionRow.id h.row_eq

theorem Holds.lastUpdated_eq {db : Database} {row : SessionRow} {kept : Kept}
    (h : Holds allowed db row kept) : row.lastUpdated = kept.lastUpdated :=
  congrArg SessionRow.lastUpdated h.row_eq

/-! ## Loading from a shelf that is tied -/

section Loading

variable {db : Database} {shelf : Shelf}

/-- What is on the shelf under an id has a row that holds it. -/
theorem Tied.exists_row (h : Tied allowed db shelf) {id : String} {loaded : LoadedSession}
    (hload : shelf.load id = some loaded) :
    ∃ row ∈ db.sessions.rows, row.id = id ∧
      ∃ kept, kept.loaded = loaded ∧ Holds allowed db row kept := by
  simp only [Shelf.load] at hload
  obtain ⟨kept, hfind, hloaded⟩ := Option.map_eq_some_iff.mp hload
  obtain ⟨row, hrow, hholds⟩ := exists_of_mem_right h (List.mem_of_find?_eq_some hfind)
  have hkey := List.find?_some hfind
  exact ⟨row, hrow, hholds.id_eq.trans (beq_iff_eq.mp hkey), kept, hloaded, hholds⟩

/-- What a row holds is on the shelf under its id. -/
theorem Tied.exists_load (h : Tied allowed db shelf) (hsound : db.Sound) {row : SessionRow}
    (hrow : row ∈ db.sessions.rows) :
    ∃ kept, shelf.load row.id = some kept.loaded ∧ Holds allowed db row kept := by
  cases hload : shelf.load row.id with
  | some loaded =>
    obtain ⟨other, hother, hid, kept, rfl, hholds⟩ := h.exists_row hload
    rw [hsound.session_eq hother hrow hid] at hholds
    exact ⟨kept, rfl, hholds⟩
  | none =>
    obtain ⟨kept, hkept, hholds⟩ := exists_of_mem_left h hrow
    have hne := List.find?_eq_none.mp (Option.map_eq_none_iff.mp hload) kept hkept
    rw [hholds.id_eq] at hne
    exact absurd (beq_self_eq_true _) hne

theorem Holds.loadSession_eq {row : SessionRow} {kept : Kept}
    (h : Holds Message.IsPlain db row kept) (hsound : db.Sound) (hrow : row ∈ db.sessions.rows) :
    db.loadSession row.id = .ok kept.loaded := by
  rcases h.owner with ⟨b, hb, r, hr, _, hid, howner, hscope⟩
  have hfound := hsound.scopeOf?_eq hb hr howner
  rw [hid, ← hscope] at hfound
  have hdecode : ∀ m ∈ kept.loaded.session.messages,
      Message.decode m.encode = .ok m.reread := fun m hm =>
    Message.decode_encode_of_legible (h.allowed m hm).1
      (Json.legible_of_integral (h.allowed m hm).2 m.fits_toJson)
  have hsame : kept.loaded.session.messages.map Message.reread = kept.loaded.session.messages :=
    (List.map_congr_left fun m hm => Message.reread_of_integral (h.allowed m hm).2).trans
      (List.map_id _)
  rw [hsound.loadSession_eq hrow hfound h.transcript, decodeAll_ok row.id 0 hdecode, hsame,
    h.row_eq]
  rfl

/-- A load answers what is on the shelf. -/
theorem Tied.loadSession_eq (h : Mirrors db shelf) (hsound : db.Sound) (id : String) :
    db.loadSession id =
      match shelf.load id with
      | some loaded => .ok loaded
      | none => .error (.sessionNotFound id) := by
  cases hload : shelf.load id with
  | some loaded =>
    obtain ⟨row, hrow, rfl, kept, rfl, hholds⟩ := h.exists_row hload
    exact hholds.loadSession_eq hsound hrow
  | none =>
    apply hsound.toIntact.loadSession_absent
    rintro row hrow rfl
    obtain ⟨kept, hfound, _⟩ := h.exists_load hsound hrow
    rw [hload] at hfound
    cases hfound

end Loading

/-! ## Side changes keep the tie -/

theorem Tied.widen {db after : Database} {shelf : Shelf} (h : Tied allowed db shelf)
    (hwidens : Widens db after) : Tied allowed after shelf := by
  simp only [Tied]
  rw [hwidens.sessions]
  apply h.imp
  intro row kept hholds
  rcases hholds.owner with ⟨b, hb, r, hr, hsame⟩
  exact ⟨hholds.row_eq, ⟨b, hwidens.branches b hb, r, hwidens.repositories r hr, hsame⟩,
    by rw [Database.messagesOf, hwidens.messages]; exact hholds.transcript, hholds.allowed⟩

/-! ## A save keeps the tie -/

/-- The branch of a scope is found where its row and the row of its repository are. -/
theorem Database.Sound.findScope_eq {db : Database} (h : db.Sound) {branch : Branch}
    {repository : Repository} (hbranch : branch ∈ db.branches.rows)
    (hrepository : repository ∈ db.repositories.rows)
    (howner : repository.id = branch.repositoryId) :
    db.findScope ⟨repository.host, repository.org, repository.project, branch.name⟩ =
      .ok (some branch) := by
  rw [h.toIntact.findScope_eq,
    h.findScope?_eq_some_iff.mpr ⟨hbranch, repository, hrepository, howner, rfl⟩]

theorem Tied.save {db : Database} {shelf : Shelf} (h : Tied allowed db shelf) (hsound : db.Sound)
    (path : Option String) (session : Session) (scope : Scope) (now : Int64)
    (hallowed : ∀ message ∈ session.messages, allowed message) :
    let after := (db.ensureScope scope).2.writeSession (db.ensureScope scope).1 session now
    Tied allowed after (shelf.save ⟨⟨scope, { session with lastUpdated := now }⟩,
      Shelf.branchOf ⟨path, some after⟩ scope⟩) := by
  have hchanges := db.ensureScope_changes scope
  have hthere := hchanges.changes.sound hsound
  obtain ⟨b, hb, r, hr, hid, howner, hscope⟩ := db.exists_ensureScope scope
  have hmirrors := h.widen hchanges.widens
  -- from here on there is a branch for the scope, and the tables are otherwise as before
  generalize (db.ensureScope scope).2 = there at hb hr hthere hmirrors ⊢
  generalize (db.ensureScope scope).1 = branchId at hid ⊢
  intro after
  have hafter : after.Sound := hthere.writeSession session now ⟨b, hb, hid⟩
  have hfound : after.findScope scope = .ok (some b) := by
    rw [hscope]
    exact Database.Sound.findScope_eq hafter hb hr howner
  have hbranch : Shelf.branchOf ⟨path, some after⟩ scope = some b := by
    show (after.findScope scope).toOption.join = some b
    rw [hfound]
    rfl
  rw [hbranch]
  refine List.rel_append ?_ (.cons ?_ .nil)
  · -- the sessions with other ids keep their rows and their messages
    refine forall₂_filter hmirrors (fun row _ kept hholds => ?_) (fun row _ kept hholds hne => ?_)
    · rw [hholds.id_eq]
      rfl
    · refine ⟨hholds.row_eq, hholds.owner, ?_, hholds.allowed⟩
      rw [Database.messagesOf_writeSession_of_ne there branchId session now (by simpa using hne)]
      exact hholds.transcript
  · refine ⟨rfl, ⟨b, hb, r, hr, rfl, hid, howner, hscope⟩, ?_, hallowed⟩
    show Transcript session.id 0 (after.messagesOf session.id) session.messages
    rw [Database.messagesOf_writeSession_self]
    exact transcript_messageRows _ _ _ _

/-! ## Removals keep the tie -/

section Removals

variable {db : Database} {shelf : Shelf}

/-- A removal keeps the tie where it spares the owners of the sessions that stay. -/
theorem Tied.remove (h : Tied allowed db shelf) (hsound : db.Sound) {p : SessionRow → Bool}
    {q : Kept → Bool} (hpq : ∀ row kept, Holds allowed db row kept → p row = q kept)
    {after : Database}
    (hsessions : after.sessions = (db.removeSessions p).sessions)
    (hmessages : after.messages = (db.removeSessions p).messages)
    (howner : ∀ b ∈ db.branches.rows, ∀ r ∈ db.repositories.rows, r.id = b.repositoryId →
      ∀ row, row.branchId = b.id → p row = false →
        b ∈ after.branches.rows ∧ r ∈ after.repositories.rows) :
    Tied allowed after (shelf.filter fun kept => !q kept) := by
  simp only [Tied]
  rw [hsessions]
  apply forall₂_filter h (fun row _ kept hholds => by rw [hpq row kept hholds])
  intro row hrow kept hholds hstays
  have hp : p row = false := by simpa using hstays
  rcases hholds.owner with ⟨b, hb, r, hr, hbranch, hid, hrepository, hscope⟩
  obtain ⟨hbStays, hrStays⟩ := howner b hb r hr hrepository row hid.symm hp
  refine ⟨hholds.row_eq, ⟨b, hbStays, r, hrStays, hbranch, hid, hrepository, hscope⟩, ?_,
    hholds.allowed⟩
  rw [Database.messagesOf, hmessages]
  have htranscript := hholds.transcript
  rw [← hsound.messagesOf_removeSessions hrow hp] at htranscript
  exact htranscript

theorem Tied.removeSessions (h : Tied allowed db shelf) (hsound : db.Sound)
    {p : SessionRow → Bool} {q : Kept → Bool}
    (hpq : ∀ row kept, Holds allowed db row kept → p row = q kept) :
    Tied allowed (db.removeSessions p) (shelf.filter fun kept => !q kept) :=
  h.remove hsound hpq rfl rfl fun _ hb _ hr _ _ _ _ => ⟨hb, hr⟩

theorem Tied.removeBranches (h : Tied allowed db shelf) (hsound : db.Sound) (p : Branch → Bool) :
    Tied allowed (db.removeBranches p) (shelf.filter fun kept => !kept.branch.any p) := by
  refine h.remove hsound (fun row kept hholds => ?_) rfl rfl ?_
  · rcases hholds.owner with ⟨b, hb, r, hr, hbranch, hid, _⟩
    rw [← hid, hsound.contains_removedBranch p hb, hbranch]
    rfl
  · intro b hb r hr _ row hid hp
    rw [hid, hsound.contains_removedBranch p hb] at hp
    exact ⟨List.mem_filter.mpr ⟨hb, by simp [hp]⟩, hr⟩

theorem Tied.removeRepositories (h : Tied allowed db shelf) (hsound : db.Sound)
    (p : Repository → Bool) :
    Tied allowed (db.removeRepositories p) (shelf.filter fun kept => !kept.branch.any fun b =>
      ((db.repositories.rows.filter p).map Repository.id).contains b.repositoryId) := by
  refine h.remove hsound (fun row kept hholds => ?_) rfl rfl ?_
  · rcases hholds.owner with ⟨b, hb, r, hr, hbranch, hid, _⟩
    rw [← hid, hsound.contains_removedBranch _ hb, hbranch]
    rfl
  · -- a row that stays has a branch that stays, and this a repository that stays
    intro b hb r hr howner row hid hp
    rw [hid, hsound.contains_removedBranch _ hb] at hp
    have hstays := hp
    rw [← howner, hsound.contains_removedRepository p hr] at hstays
    exact ⟨List.mem_filter.mpr ⟨hb, by simpa using hp⟩,
      List.mem_filter.mpr ⟨hr, by simp [hstays]⟩⟩

theorem Tied.removeRepository (h : Tied allowed db shelf) (hsound : db.Sound) (id : RowId) :
    Tied allowed (db.removeRepositories fun r => r.id == id)
      (shelf.filter fun kept => !kept.branch.any (·.repositoryId == id)) := by
  have hremoved := h.removeRepositories hsound fun r => r.id == id
  refine (congrArg (Tied allowed _) (List.filter_congr fun kept hkept => ?_)).mp hremoved
  obtain ⟨row, _, hholds⟩ := exists_of_mem_right h hkept
  -- a repository goes with an id if it is the one with that id
  rcases hholds.owner with ⟨b, _, r, hr, hbranch, _, howner, _⟩
  rw [hbranch, Option.any_some, Option.any_some, ← howner, hsound.contains_removedRepository _ hr]

/-- Nothing leaves a shelf where no session has to go. -/
theorem Tied.filter_eq_self (h : Tied allowed db shelf) {q : Kept → Bool}
    (hq : ∀ row ∈ db.sessions.rows, ∀ kept, Holds allowed db row kept → q kept = false) :
    (shelf.filter fun kept => !q kept) = shelf := by
  apply List.filter_eq_self.mpr
  intro kept hkept
  obtain ⟨row, hrow, hholds⟩ := exists_of_mem_right h hkept
  rw [hq row hrow kept hholds]
  rfl

/-! ## Retention keeps the tie -/

theorem Tied.expire (h : Tied allowed db shelf) (hsound : db.Sound) (now : Int64) (days : Nat) :
    Tied allowed (db.expireSessions now days) (shelf.expire now days) := by
  simp only [Database.expireSessions, Shelf.expire]
  split
  · exact h
  · exact h.removeSessions hsound fun row kept hholds => by rw [hholds.lastUpdated_eq]

/-- The saves are numbered in the order of the rows. -/
theorem Database.Sound.saveSeq_le_iff (h : db.Sound) {i j : Nat} {a b : SessionRow}
    (ha : db.sessions.rows[i]? = some a) (hb : db.sessions.rows[j]? = some b) :
    b.saveSeq ≤ a.saveSeq ↔ j ≤ i := by
  obtain ⟨hi, rfl⟩ := List.getElem?_eq_some_iff.mp ha
  obtain ⟨hj, rfl⟩ := List.getElem?_eq_some_iff.mp hb
  have hordered := List.pairwise_iff_getElem.mp h.saves
  rcases Nat.lt_trichotomy i j with hlt | rfl | hlt
  · have hnext := hordered i j hi hj hlt
    omega
  · simp
  · have hnext := hordered j i hj hi hlt
    omega

/-- A row next to what it holds, with its place. -/
theorem Tied.of_mem_zip (h : Tied allowed db shelf) {pair : SessionRow × Kept × Nat}
    (hpair : pair ∈ db.sessions.rows.zip shelf.zipIdx) :
    Holds allowed db pair.1 pair.2.1 ∧ db.sessions.rows[pair.2.2]? = some pair.1 := by
  obtain ⟨i, hi, rfl⟩ := List.getElem_of_mem hpair
  rw [List.length_zip, List.length_zipIdx, Nat.lt_min] at hi
  simp only [List.getElem_zip, List.getElem_zipIdx, Nat.zero_add]
  refine ⟨?_, List.getElem?_eq_getElem hi.1⟩
  have hget := List.Forall₂.get h hi.1 hi.2
  simpa using hget

/-- Rows are compared as what they hold: their times agree, and later places have later saves. -/
theorem Tied.recencyLe_eq (h : Tied allowed db shelf) (hsound : db.Sound)
    {a b : SessionRow × Kept × Nat} (ha : a ∈ db.sessions.rows.zip shelf.zipIdx)
    (hb : b ∈ db.sessions.rows.zip shelf.zipIdx) :
    Database.recencyLe a.1 b.1 = Shelf.recencyLe a.2 b.2 := by
  obtain ⟨haHolds, haPlace⟩ := h.of_mem_zip ha
  obtain ⟨hbHolds, hbPlace⟩ := h.of_mem_zip hb
  have hsaves := hsound.saveSeq_le_iff haPlace hbPlace
  simp only [Database.recencyLe, Shelf.recencyLe, haHolds.lastUpdated_eq, hbHolds.lastUpdated_eq,
    hsaves]

/-- The sessions of rows and shelf are in one order of recency. -/
theorem Tied.byRecency_ids (h : Tied allowed db shelf) (hsound : db.Sound) :
    (Database.byRecency db.sessions.rows).map SessionRow.id = shelf.byRecency.map Kept.id := by
  -- rows and shelf are sorted together, as the two halves of one list of pairs
  let pairs := db.sessions.rows.zip shelf.zipIdx
  have hlength : db.sessions.rows.length = shelf.zipIdx.length := by
    rw [List.length_zipIdx]
    exact h.length_eq
  have hrows : pairs.map Prod.fst = db.sessions.rows := List.map_fst_zip (Nat.le_of_eq hlength)
  have hkept : pairs.map Prod.snd = shelf.zipIdx := List.map_snd_zip (Nat.le_of_eq hlength.symm)
  have hsortRows : (pairs.mergeSort fun a b => Database.recencyLe a.1 b.1).map Prod.fst =
      Database.byRecency db.sessions.rows := by
    rw [Database.byRecency, ← hrows]
    exact List.map_mergeSort fun _ _ _ _ => rfl
  have hsortKept : (pairs.mergeSort fun a b => Database.recencyLe a.1 b.1).map Prod.snd =
      shelf.zipIdx.mergeSort Shelf.recencyLe := by
    rw [← hkept]
    exact List.map_mergeSort fun a ha b hb => h.recencyLe_eq hsound ha hb
  rw [← hsortRows, Shelf.byRecency, ← hsortKept, List.map_map, List.map_map, List.map_map]
  apply List.map_congr_left
  intro a ha
  exact (h.of_mem_zip (List.mem_mergeSort.mp ha)).1.id_eq

theorem Tied.trim (h : Tied allowed db shelf) (hsound : db.Sound) (keep : Nat) :
    Tied allowed (db.trimSessions keep) (shelf.trim keep) := by
  simp only [Database.trimSessions, Shelf.trim]
  split
  · exact h
  · have hids := h.byRecency_ids hsound
    have hmirrors := h.removeSessions hsound
      (p := fun s => !(((Database.byRecency db.sessions.rows).take keep).map SessionRow.id).contains
        s.id)
      (q := fun kept => !((shelf.byRecency.take keep).map Kept.id).contains kept.id)
      (fun row kept hholds => by rw [hholds.id_eq, List.map_take, List.map_take, hids])
    simpa using hmirrors

end Removals

/-! ## Runs keep the tie -/

end Store

/-- The messages that an operation saves are allowed. -/
def Operation.Saves (allowed : Message → Prop) : Operation → Prop
  | .saveSession session _ => ∀ message ∈ session.messages, allowed message
  | _ => True

theorem Operation.saves_true (operation : Operation) : operation.Saves fun _ => True := by
  cases operation with
  | saveSession session scope => exact fun _ _ => trivial
  | _ => trivial

/-- The messages that an operation saves can be read back. -/
def Operation.SavesPlain : Operation → Prop
  | .saveSession session _ => ∀ message ∈ session.messages, message.IsPlain
  | _ => True

namespace Store

variable {allowed : Message → Prop} {db : Database} {shelf : Shelf}

/-- A deletion keeps the tie, also where it fails for want of anything to delete. -/
theorem Tied.after_deletion {left : Database} {path : Option String} {now : Int64}
    {operation : Operation} {q : Kept → Bool} {count : Nat} {absent : Failure}
    {answer : operation.Answer}
    (hrun : operation.run now ⟨path, some db⟩ =
      (if count = 0 then .error absent else .ok answer, ⟨path, some left⟩))
    (hstep : shelf.step now ⟨path, some left⟩ operation = shelf.filter fun kept => !q kept)
    (h : Tied allowed left (shelf.filter fun kept => !q kept))
    (hnone : count = 0 → (shelf.filter fun kept => !q kept) = shelf) :
    Tied allowed left (shelf.after now ⟨path, some db⟩ operation) := by
  by_cases hcount : count = 0
  · -- the deletion fails, and the shelf is left as it was
    rw [if_pos hcount] at hrun
    rw [Shelf.after_of_error hrun, ← hnone hcount]
    exact h
  · rw [if_neg hcount] at hrun
    rw [Shelf.after_of_ok hrun, hstep]
    exact h

/-- Every operation keeps the tie, whether it succeeds or not. -/
theorem Tied.after (h : Tied allowed db shelf) (hsound : db.Sound) (path : Option String)
    (now : Int64) (operation : Operation) (hallowed : operation.Saves allowed) :
    ∃ left, (operation.run now ⟨path, some db⟩).2 = ⟨path, some left⟩ ∧ left.Sound ∧
      Tied allowed left (shelf.after now ⟨path, some db⟩ operation) := by
  have hintact := hsound.toIntact
  cases htouches : operation.touchesSessions with
  | false =>
    obtain ⟨left, hrun, hchanges⟩ := operation.run_sideChanges hintact path now htouches
    refine ⟨left, hrun, hchanges.changes.sound hsound, ?_⟩
    -- no such operation takes a step on the shelf either
    have hsame : shelf.after now ⟨path, some db⟩ operation = shelf := by
      simp only [Shelf.after]
      split
      · cases operation <;> first | rfl | cases htouches
      · rfl
    rw [hsame]
    exact h.widen hchanges.widens
  | true =>
    cases operation with
    | saveSession session scope =>
      have hrun : Operation.run now ⟨path, some db⟩ (.saveSession session scope) = _ :=
        saveSession_intact hintact path session scope now
      refine ⟨_, congrArg Prod.snd hrun, ?_, ?_⟩
      · exact ((db.ensureScope_changes scope).changes.sound hsound).writeSession session now
          (db.ensureScope_owner scope)
      · rw [Shelf.after_of_ok hrun]
        exact h.save hsound path session scope now hallowed
    | deleteSession id =>
      have hrun : Operation.run now ⟨path, some db⟩ (.deleteSession id) = _ :=
        deleteSession_intact hintact path id
      refine ⟨_, congrArg Prod.snd hrun, hsound.removeSessions _, ?_⟩
      refine Tied.after_deletion hrun rfl
        (h.removeSessions hsound fun row kept hholds => by rw [hholds.id_eq]) fun hcount => ?_
      apply h.filter_eq_self
      intro row hrow kept hholds
      rw [← hholds.id_eq]
      exact forall_of_count_eq_zero hcount row hrow
    | deleteBranch id =>
      have hrun : Operation.run now ⟨path, some db⟩ (.deleteBranch id) = _ :=
        deleteBranch_intact hintact path id
      refine ⟨_, congrArg Prod.snd hrun, hsound.removeBranches _, ?_⟩
      refine Tied.after_deletion hrun rfl
        (h.removeBranches hsound _) fun hcount => ?_
      apply h.filter_eq_self
      intro row hrow kept hholds
      rcases hholds.owner with ⟨b, hb, _, _, hbranch, _⟩
      rw [hbranch]
      exact forall_of_count_eq_zero hcount b hb
    | deleteRepository id =>
      have hrun : Operation.run now ⟨path, some db⟩ (.deleteRepository id) = _ :=
        deleteRepository_intact hintact path id
      refine ⟨_, congrArg Prod.snd hrun, hsound.removeRepositories _, ?_⟩
      refine Tied.after_deletion hrun rfl
        (h.removeRepository hsound id) fun hcount => ?_
      apply h.filter_eq_self
      intro row hrow kept hholds
      rcases hholds.owner with ⟨b, _, r, hr, hbranch, _, howner, _⟩
      rw [hbranch, Option.any_some, ← howner]
      exact forall_of_count_eq_zero hcount r hr
    | cleanupSessions maxAgeDays maxSessions =>
      have hrun : Operation.run now ⟨path, some db⟩
          (.cleanupSessions maxAgeDays maxSessions) = _ :=
        cleanupSessions_intact hintact path maxAgeDays maxSessions now
      have hexpired := (db.expireSessions_changes now maxAgeDays).sound hsound
      refine ⟨_, congrArg Prod.snd hrun,
        (Database.trimSessions_changes _ maxSessions).sound hexpired, ?_⟩
      rw [Shelf.after_of_ok hrun]
      exact (h.expire hsound now maxAgeDays).trim hexpired maxSessions
    | _ => cases htouches

theorem Tied.play (h : Tied allowed db shelf) (hsound : db.Sound) (path : Option String)
    (run : List (Int64 × Operation)) (hallowed : ∀ step ∈ run, step.2.Saves allowed) :
    ∃ left, (Store.mk path (some db)).play run = ⟨path, some left⟩ ∧ left.Sound ∧
      Tied allowed left (shelf.play ⟨path, some db⟩ run) := by
  induction run generalizing db shelf with
  | nil => exact ⟨db, rfl, hsound, h⟩
  | cons step rest ih =>
    rcases step with ⟨now, operation⟩
    obtain ⟨hfirst, hrest⟩ := List.forall_mem_cons.mp hallowed
    obtain ⟨left, hrun, hleft, hties⟩ := h.after hsound path now operation hfirst
    rw [Store.play, Shelf.play, hrun]
    exact ih hties hleft hrest

/-- After every run of operations on a store that was empty, whatever failed on the way, a load
answers what is on the shelf: the session of the last save, or that there is none. -/
theorem loadSession_play (path : Option String) (start : Int64) (run : List (Int64 × Operation))
    (hplain : ∀ step ∈ run, step.2.SavesPlain) (id : String) :
    ((Store.fresh path start).play run).loadSession id =
      match (Shelf.play [] (Store.fresh path start) run).load id with
      | some loaded => .ok loaded
      | none => .error (.sessionNotFound id) := by
  have hempty : Mirrors (Database.new start) [] := .nil
  obtain ⟨left, hrun, hsound, hmirrors⟩ :=
    hempty.play (Database.sound_new start) path run hplain
  rw [Store.fresh, hrun]
  exact hmirrors.loadSession_eq hsound id

/-- A session is saved under one branch and again under another; the first branch is deleted, a
repository that is not there is not, and a retention pass finds nothing too old. -/
def movedRun : List (Int64 × Operation) :=
  [(5, .saveSession ⟨"s", 1, 1, "", "p", "m", "/", [.ofText .user "a" 1, .ofText .assistant "b" 2]⟩
      ⟨"h", "o", "p", "main"⟩),
    (6, .saveSession ⟨"s", 1, 5, "c", "p", "m", "/", [.ofText .user "c" 3]⟩ ⟨"h", "o", "p", "dev"⟩),
    (7, .deleteBranch 1), (8, .deleteRepository 9), (9, .cleanupSessions 1 0)]

theorem loadSession_play_movedRun :
    (∀ step ∈ movedRun, step.2.SavesPlain) ∧
      (((Store.fresh none 0).play movedRun).loadSession "s").toOption.map
          (fun loaded => loaded.toJson.toCompact) =
        some (LoadedSession.toJson ⟨⟨"h", "o", "p", "dev"⟩,
          ⟨"s", 1, 6, "c", "p", "m", "/", [.ofText .user "c" 3]⟩⟩).toCompact ∧
      ((Store.fresh none 0).play movedRun).loadSession "t" = .error (.sessionNotFound "t") := by
  have hplain : ∀ step ∈ movedRun, step.2.SavesPlain := by
    simp only [movedRun, List.forall_mem_cons, List.not_mem_nil, false_implies, implies_true,
      Operation.SavesPlain, Message.IsPlain, and_true]
    decide +kernel
  refine ⟨hplain, ?_, ?_⟩
  · rw [loadSession_play none 0 movedRun hplain "s"]
    decide +kernel
  · have hnone : (Shelf.play [] (Store.fresh none 0) movedRun).load "t" = none := by decide +kernel
    rw [loadSession_play none 0 movedRun hplain "t", hnone]

end Store

end SessionArchive
