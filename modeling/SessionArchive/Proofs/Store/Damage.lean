import Mathlib.Data.List.Perm.Basic
import Mathlib.Data.List.Nodup
import SessionArchive.Proofs.Store.Loading
import SessionArchive.Proofs.Store.Sorting
import SessionArchive.Store

/-!
# Loading from damaged tables

The rows of a session's messages may have been changed from outside: any places, any texts as role
and content, any times. `MessageColumns.Means` says which message such a row stands for and
`MessageColumns.Rejects` why it stands for none; a text whose bytes are not UTF-8 is no string at
all (`MessageRow.Broken`). A load answers the messages of all rows in the order of their places, or
names the first row that stands for none, or fails for the first broken text, and nothing but the
session's own rows counts: `loadSession_shown`.
-/

set_option autoImplicit false

namespace SessionArchive.Store

/-! ## What one row means -/

/-- The message that columns stand for: the one that the content means, whose role is named beside
it, at the time of its own column. -/
inductive MessageColumns.Means (columns : MessageColumns) : Message → Prop where
  | intro (message : Message) (hcontent : Message.decode columns.content = .ok message)
      (hrole : columns.role = message.role.name) :
      Means columns { message with createdAt := columns.createdAt }

/-- Why columns stand for no message. -/
inductive MessageColumns.Rejects (columns : MessageColumns) : String → Prop where
  | content (fault : Json.Fault) (hcontent : Message.decode columns.content = .error fault) :
      Rejects columns s!"invalid content: {fault.message columns.content.toList}"
  | unknownRole (message : Message) (hcontent : Message.decode columns.content = .ok message)
      (hrole : ∀ role : Role, columns.role ≠ role.name) :
      Rejects columns s!"unknown role `{columns.role}`"
  | otherRole (message : Message) (role : Role)
      (hcontent : Message.decode columns.content = .ok message) (hrole : columns.role = role.name)
      (hne : role ≠ message.role) :
      Rejects columns
        s!"role column `{role.name}` disagrees with content role `{message.role.name}`"

namespace MessageColumns

variable {columns : MessageColumns}

theorem Means.message_eq {message : Message} (h : columns.Means message) :
    columns.message = .ok message := by
  rcases h with ⟨decoded, hcontent, hrole⟩
  simp only [MessageColumns.message, hcontent, Role.ofName?_eq_some_iff.mpr hrole, if_true]

theorem Rejects.message_eq {reason : String} (h : columns.Rejects reason) :
    columns.message = .error reason := by
  cases h with
  | content fault hcontent => simp only [MessageColumns.message, hcontent]
  | unknownRole decoded hcontent hrole =>
    have hnone : Role.ofName? columns.role = none :=
      Option.eq_none_iff_forall_ne_some.mpr fun role hsome =>
        hrole role (Role.ofName?_eq_some_iff.mp hsome)
    simp only [MessageColumns.message, hcontent, hnone]
  | otherRole decoded role hcontent hrole hne =>
    simp only [MessageColumns.message, hcontent, Role.ofName?_eq_some_iff.mpr hrole, if_neg hne]

/-- Columns stand for a message or are rejected. -/
theorem means_or_rejects (columns : MessageColumns) :
    (∃ message, columns.Means message) ∨ ∃ reason, columns.Rejects reason := by
  cases hcontent : Message.decode columns.content with
  | error fault => exact .inr ⟨_, .content fault hcontent⟩
  | ok message =>
    cases hrole : Role.ofName? columns.role with
    | none =>
      refine .inr ⟨_, .unknownRole message hcontent fun role hname => ?_⟩
      rw [Role.ofName?_eq_some_iff.mpr hname] at hrole
      cases hrole
    | some role =>
      rw [Role.ofName?_eq_some_iff] at hrole
      by_cases hsame : role = message.role
      · exact .inl ⟨_, .intro message hcontent (hsame ▸ hrole)⟩
      · exact .inr ⟨_, .otherRole message role hcontent hrole hsame⟩

end MessageColumns

/-! ## What all rows mean -/

/-- All elements of a list are as they should be, or there is a first one that is not. -/
theorem forall₂_or_exists_first {α β γ : Type} {R : α → β → Prop} {S : α → γ → Prop} {l : List α}
    (h : ∀ a ∈ l, (∃ b, R a b) ∨ ∃ c, S a c) :
    (∃ bs, List.Forall₂ R l bs) ∨
      ∃ before bad after c, l = before ++ bad :: after ∧ (∀ a ∈ before, ∃ b, R a b) ∧ S bad c := by
  induction l with
  | nil => exact .inl ⟨[], .nil⟩
  | cons first rest ih =>
    obtain ⟨hfirst, hrest⟩ := List.forall_mem_cons.mp h
    rcases hfirst with ⟨b, hb⟩ | ⟨c, hc⟩
    · rcases ih hrest with ⟨bs, hbs⟩ | ⟨before, bad, after, c, rfl, hbefore, hc⟩
      · exact .inl ⟨b :: bs, .cons hb hbs⟩
      · refine .inr ⟨first :: before, bad, after, c, rfl, ?_, hc⟩
        exact List.forall_mem_cons.mpr ⟨⟨b, hb⟩, hbefore⟩
    · exact .inr ⟨[], first, rest, c, rfl, by simp, hc⟩

/-- Columns are the first of a transcript that are rejected: all before them stand for messages. -/
def FirstRejected (transcript : List MessageColumns) (bad : MessageColumns) (reason : String) :
    Prop :=
  ∃ before after, transcript = before ++ bad :: after ∧
    (∀ columns ∈ before, ∃ message, columns.Means message) ∧ bad.Rejects reason

theorem decodeAll_of_means (sessionId : String) {transcript : List MessageColumns}
    {messages : List Message} (h : List.Forall₂ MessageColumns.Means transcript messages) :
    decodeAll sessionId transcript = .ok messages := by
  induction h with
  | nil => rfl
  | cons hfirst hrest ih =>
    rw [decodeAll, hfirst.message_eq, ih]
    rfl

theorem decodeAll_of_rejects (sessionId : String) {transcript : List MessageColumns}
    {bad : MessageColumns} {reason : String} (h : FirstRejected transcript bad reason) :
    decodeAll sessionId transcript =
      .error (.corruptMessage sessionId bad.sequence reason) := by
  obtain ⟨before, after, rfl, hbefore, hbad⟩ := h
  induction before with
  | nil => rw [List.nil_append, decodeAll, hbad.message_eq]
  | cons first rest ih =>
    obtain ⟨⟨message, hfirst⟩, hrest⟩ := List.forall_mem_cons.mp hbefore
    rw [List.cons_append, decodeAll, hfirst.message_eq, ih hrest]
    rfl

/-- All columns stand for messages, or some are the first that do not. -/
theorem means_or_firstRejected (transcript : List MessageColumns) :
    (∃ messages, List.Forall₂ MessageColumns.Means transcript messages) ∨
      ∃ bad reason, FirstRejected transcript bad reason := by
  rcases forall₂_or_exists_first fun columns (_ : columns ∈ transcript) => columns.means_or_rejects
    with hall | ⟨before, bad, after, reason, hfirst⟩
  · exact .inl hall
  · exact .inr ⟨bad, reason, before, after, hfirst⟩

theorem decodeAll_eq_ok_iff (sessionId : String) {transcript : List MessageColumns}
    {messages : List Message} :
    decodeAll sessionId transcript = .ok messages ↔
      List.Forall₂ MessageColumns.Means transcript messages := by
  refine ⟨fun hdecode => ?_, decodeAll_of_means sessionId⟩
  rcases means_or_firstRejected transcript with ⟨found, hmeans⟩ | ⟨bad, reason, hfirst⟩
  · rw [decodeAll_of_means sessionId hmeans] at hdecode
    cases hdecode
    exact hmeans
  · rw [decodeAll_of_rejects sessionId hfirst] at hdecode
    cases hdecode

theorem decodeAll_eq_error_iff {sessionId : String} {transcript : List MessageColumns}
    {failure : Failure} :
    decodeAll sessionId transcript = .error failure ↔
      ∃ bad reason, FirstRejected transcript bad reason ∧
        failure = .corruptMessage sessionId bad.sequence reason := by
  constructor
  · intro hdecode
    rcases means_or_firstRejected transcript with ⟨found, hmeans⟩ | ⟨bad, reason, hfirst⟩
    · rw [decodeAll_of_means sessionId hmeans] at hdecode
      cases hdecode
    · rw [decodeAll_of_rejects sessionId hfirst] at hdecode
      cases hdecode
      exact ⟨bad, reason, hfirst, rfl⟩
  · rintro ⟨bad, reason, hfirst, rfl⟩
    exact decodeAll_of_rejects sessionId hfirst

/-! ## The rows in order -/

/-- The columns of a row have the right kinds, and hold these values. -/
structure MessageRow.Shows (row : MessageRow) (columns : MessageColumns) : Prop where
  sequence : row.sequence = .integer columns.sequence
  role : row.role = .text columns.role
  content : row.content = .text columns.content
  createdAt : row.createdAt = .integer columns.createdAt.toInt

theorem MessageRow.Shows.columns_eq {row : MessageRow} {columns : MessageColumns}
    (h : row.Shows columns) : row.columns = .ok columns := by
  simp [MessageRow.columns, h.sequence, h.role, h.content, h.createdAt, Cell.toInt, Cell.toText]

theorem mapM_columns_of_shows {rows : List MessageRow} {transcript : List MessageColumns}
    (h : List.Forall₂ MessageRow.Shows rows transcript) :
    rows.mapM MessageRow.columns = .ok transcript := by
  induction h with
  | nil => rfl
  | cons hfirst hrest ih =>
    rw [List.mapM_cons, hfirst.columns_eq, ih]
    rfl

/-- A text whose bytes are not UTF-8. -/
inductive Cell.IsBroken : Cell → Text.Utf8.Fault → Prop
  | intro {bytes : List UInt8} {fault : Text.Utf8.Fault}
      (hbytes : Text.Utf8.decode? bytes = .error fault) : IsBroken (.rawText bytes) fault

/-- The texts of a row are broken, and this is how reading it fails: the role is read first. -/
inductive MessageRow.Broken (row : MessageRow) : Fault → Prop
  | role {fault : Text.Utf8.Fault} (hrole : row.role.IsBroken fault) :
      Broken row (.brokenText 1 fault)
  | content {role : String} {fault : Text.Utf8.Fault} (hrole : row.role = .text role)
      (hcontent : row.content.IsBroken fault) : Broken row (.brokenText 2 fault)

/-- A value of text, whole or broken. -/
def Cell.IsText (cell : Cell) : Prop := (∃ s, cell = .text s) ∨ ∃ fault, cell.IsBroken fault

/-- Bytes that are stored as text are a value of text, whatever they are. -/
theorem Cell.isText_ofBytes (bytes : List UInt8) : (Cell.ofBytes bytes).IsText := by
  rw [Cell.ofBytes]
  cases hbytes : Text.Utf8.decode? bytes with
  | ok s => exact .inl ⟨s, rfl⟩
  | error fault => exact .inr ⟨fault, .intro hbytes⟩

/-- The columns of a row have the right kinds, whatever their values. -/
structure MessageRow.IsTyped (row : MessageRow) : Prop where
  sequence : ∃ n, row.sequence = .integer n
  role : row.role.IsText
  content : row.content.IsText
  createdAt : ∃ time : Int64, row.createdAt = .integer time.toInt

theorem MessageRow.IsTyped.shows_or_broken {row : MessageRow} (h : row.IsTyped) :
    (∃ columns, row.Shows columns) ∨ ∃ fault, row.Broken fault := by
  obtain ⟨n, hsequence⟩ := h.sequence
  obtain ⟨time, htime⟩ := h.createdAt
  rcases h.role with ⟨role, hrole⟩ | ⟨fault, hrole⟩
  · rcases h.content with ⟨content, hcontent⟩ | ⟨fault, hcontent⟩
    · exact .inl ⟨⟨n, role, content, time⟩, hsequence, hrole, hcontent, htime⟩
    · exact .inr ⟨_, .content hrole hcontent⟩
  · exact .inr ⟨_, .role hrole⟩

theorem Cell.IsBroken.toText_eq {cell : Cell} {fault : Text.Utf8.Fault} (h : cell.IsBroken fault)
    (index : Nat) (column : String) :
    cell.toText index column = .error (.brokenText index fault) := by
  obtain ⟨hbytes⟩ := h
  simp only [Cell.toText, hbytes]

theorem MessageRow.Broken.columns_eq {row : MessageRow} {fault : Fault} (h : row.Broken fault)
    {n : Int} (hsequence : row.sequence = .integer n) : row.columns = .error fault := by
  cases h with
  | role hrole =>
    simp only [MessageRow.columns, hsequence, Cell.toInt, hrole.toText_eq, ok_bind]
    rfl
  | content hrole hcontent =>
    have htext : row.role.toText 1 "role" = .ok _ := congrArg (Cell.toText 1 "role") hrole
    simp only [MessageRow.columns, hsequence, Cell.toInt, htext, hcontent.toText_eq, ok_bind]
    rfl

/-- Rows cannot be read where one of them cannot, and the first of these says why. -/
theorem mapM_columns_of_first {before after : List MessageRow} {bad : MessageRow} {fault : Fault}
    (hbefore : ∀ row ∈ before, ∃ columns, MessageRow.columns row = .ok columns)
    (hbad : bad.columns = .error fault) :
    (before ++ bad :: after).mapM MessageRow.columns = .error fault := by
  induction before with
  | nil =>
    rw [List.nil_append, List.mapM_cons, hbad]
    rfl
  | cons first rest ih =>
    obtain ⟨⟨columns, hfirst⟩, hrest⟩ := List.forall_mem_cons.mp hbefore
    rw [List.cons_append, List.mapM_cons, hfirst, ih hrest]
    rfl

/-! ### Their places -/

/-- The place of a message in its session, where it is a number. -/
def MessageRow.place (row : MessageRow) : Int := row.sequence.fraction.1

theorem MessageRow.Shows.place_eq {row : MessageRow} {columns : MessageColumns}
    (h : row.Shows columns) : row.place = columns.sequence := by
  simp only [MessageRow.place, h.sequence, Cell.fraction]

theorem MessageRow.IsTyped.sequence_eq {row : MessageRow} (h : row.IsTyped) :
    row.sequence = .integer row.place := by
  obtain ⟨n, hsequence⟩ := h.sequence
  simp only [MessageRow.place, hsequence, Cell.fraction]

/-- The columns of rows are in the order of the rows. -/
theorem pairwise_place_iff {rows : List MessageRow} {stored : List MessageColumns}
    (hshows : List.Forall₂ MessageRow.Shows rows stored) {R : Int → Int → Prop} :
    (rows.Pairwise fun a b => R a.place b.place) ↔
      stored.Pairwise fun a b => R a.sequence b.sequence := by
  have hplaces : rows.map MessageRow.place = stored.map MessageColumns.sequence := by
    rw [← List.forall₂_eq_eq_eq, List.forall₂_map_left_iff, List.forall₂_map_right_iff]
    exact hshows.imp fun _ _ h => h.place_eq
  rw [← List.pairwise_map (f := MessageRow.place), hplaces, List.pairwise_map]

section Ordered

variable {rows : List MessageRow} (htyped : ∀ row ∈ rows, MessageRow.IsTyped row)
  (hplaces : rows.Pairwise fun a b => a.place ≠ b.place)

include htyped hplaces

/-- Rows at distinct places ascend once they are sorted. -/
theorem pairwise_place_mergeSort :
    (rows.mergeSort fun a b => !b.sequence.isBefore a.sequence).Pairwise fun a b =>
      a.place < b.place := by
  -- by distinct numbers, where all have the same time
  have hdescend : (rows.mergeSort fun a b => !b.sequence.isBefore a.sequence).Pairwise fun a b =>
      (0 : Int) < 0 ∨ (0 : Int) = 0 ∧ -b.place < -a.place :=
    pairwise_mergeSort_latest
      (fun a ha b hb => by
        simp [(htyped a ha).sequence_eq, (htyped b hb).sequence_eq, isBefore_integer])
      (hplaces.imp fun hne hsame => hne (Int.neg_inj.mp hsame))
  exact hdescend.imp fun h => by simpa using h

/-- Rows at distinct places are sorted alike in whatever order they were. -/
theorem mergeSort_eq_of_perm {others : List MessageRow} (hperm : others.Perm rows) :
    (others.mergeSort fun a b => !b.sequence.isBefore a.sequence) =
      rows.mergeSort fun a b => !b.sequence.isBefore a.sequence := by
  have hothers : ∀ row ∈ others, MessageRow.IsTyped row := fun row hrow =>
    htyped row (hperm.mem_iff.mp hrow)
  have hdistinct := (hperm.pairwise_iff fun hne => hne.symm).mpr hplaces
  refine List.Perm.eq_of_pairwise (fun a b _ _ hab hba => ?_)
    (pairwise_place_mergeSort hothers hdistinct) (pairwise_place_mergeSort htyped hplaces)
    ((List.mergeSort_perm _ _).trans (hperm.trans (List.mergeSort_perm _ _).symm))
  omega

end Ordered

/-! ## The row of the session -/

namespace Database

/-- A session's row is there with its branch and its repository, which make up a scope, in tables
that give each id once. -/
structure HasSession (db : Database) (row : SessionRow) (scope : Scope) : Prop where
  present : ∀ table ∈ summaryTables, table ∉ db.missing
  sessionIds : (db.sessions.rows.map SessionRow.id).Nodup
  branchIds : (db.branches.rows.map Branch.id).Nodup
  repositoryIds : (db.repositories.rows.map Repository.id).Nodup
  session : row ∈ db.sessions.rows
  scope : ∃ branch ∈ db.branches.rows, ∃ repository ∈ db.repositories.rows,
    branch.id = row.branchId ∧ repository.id = branch.repositoryId ∧
      scope = ⟨repository.host, repository.org, repository.project, branch.name⟩

theorem find?_key_eq {α κ : Type} [BEq κ] [LawfulBEq κ] {key : α → κ} {rows : List α} {row : α}
    (hkeys : (rows.map key).Nodup) (hrow : row ∈ rows) :
    rows.find? (fun other => key other == key row) = some row :=
  find?_eq_of_unique hrow (beq_self_eq_true _) fun _ hother hkey =>
    List.inj_on_of_nodup_map hkeys hother hrow (beq_iff_eq.mp hkey)

theorem HasSession.findSession?_eq {db : Database} {row : SessionRow} {scope : Scope}
    (h : db.HasSession row scope) : db.findSession? row.id = some (row, scope) := by
  obtain ⟨branch, hbranch, repository, hrepository, hof, howner, rfl⟩ := h.scope
  have hfindBranch := find?_key_eq h.branchIds hbranch
  have hfindRepository := find?_key_eq h.repositoryIds hrepository
  rw [hof] at hfindBranch
  rw [howner] at hfindRepository
  simp [findSession?, scopeOf?, find?_key_eq h.sessionIds h.session, hfindBranch,
    hfindRepository]

end Database

/-! ## Loading -/

variable {db : Database} {row : SessionRow} {scope : Scope}

/-- What is answered where the rows in order show columns. -/
theorem loadSession_of_shows (hsession : db.HasSession row scope)
    {transcript : List MessageColumns}
    (htranscript : List.Forall₂ MessageRow.Shows (db.orderedMessages row.id) transcript)
    (path : Option String) :
    (∀ loaded, Store.loadSession ⟨path, some db⟩ row.id = .ok loaded ↔
      ∃ messages, List.Forall₂ MessageColumns.Means transcript messages ∧
        loaded = ⟨scope, ⟨row.id, row.createdAt, row.lastUpdated, row.firstPrompt, row.provider,
          row.model, row.workingDir, messages⟩⟩) ∧
    ∀ failure, Store.loadSession ⟨path, some db⟩ row.id = .error failure ↔
      ∃ bad reason, FirstRejected transcript bad reason ∧
        failure = .corruptMessage row.id bad.sequence reason := by
  have hload := Database.loadSession_of_found hsession.present hsession.findSession?_eq
  rw [mapM_columns_of_shows htranscript, mapError_ok, ok_bind] at hload
  constructor
  · intro loaded
    show db.loadSession row.id = .ok loaded ↔ _
    rw [hload]
    simp only [← decodeAll_eq_ok_iff row.id]
    cases decodeAll row.id transcript with
    | ok messages => simp [eq_comm]
    | error failure => simp
  · intro failure
    show db.loadSession row.id = .error failure ↔ _
    rw [hload, ← decodeAll_eq_error_iff]
    cases hdecode : decodeAll row.id transcript with
    | ok messages => simp
    | error found =>
      -- that a message is corrupt is reported as it is
      obtain ⟨bad, reason, _, rfl⟩ := decodeAll_eq_error_iff.mp hdecode
      simp [Failure.whileReading]

/-- Where a column of one of the session's rows has the wrong kind or holds broken text, the load
fails as a whole, for the first such row. -/
theorem loadSession_unreadable (hsession : db.HasSession row scope)
    {before after : List MessageRow} {bad : MessageRow} {fault : Fault}
    (hrows : db.orderedMessages row.id = before ++ bad :: after)
    (hbefore : ∀ message ∈ before, ∃ columns, MessageRow.columns message = .ok columns)
    (hbad : bad.columns = .error fault) (path : Option String) :
    Store.loadSession ⟨path, some db⟩ row.id = .error (.query "load_session" row.id fault) := by
  show db.loadSession row.id = _
  rw [Database.loadSession_of_found hsession.present hsession.findSession?_eq, hrows,
    mapM_columns_of_first hbefore hbad]
  rfl

/-- A load of a session whose message rows hold texts and numbers, at distinct places, answers the
messages that they stand for in the order of their places, or names the first row that stands for
none. Where not all of the texts are strings, it fails for the first row with such a text, before it
asks what any row stands for. Whatever else is in the tables does not count. -/
theorem loadSession_shown (hsession : db.HasSession row scope)
    (htyped : ∀ message ∈ db.messagesOf row.id, message.IsTyped)
    (hplaces : (db.messagesOf row.id).Pairwise fun a b => a.place ≠ b.place)
    (path : Option String) :
    (∀ stored : List MessageColumns,
      List.Forall₂ MessageRow.Shows (db.messagesOf row.id) stored →
      ∃ transcript : List MessageColumns, transcript.Perm stored ∧
        transcript.Pairwise (fun a b => a.sequence < b.sequence) ∧
        (∀ loaded, Store.loadSession ⟨path, some db⟩ row.id = .ok loaded ↔
          ∃ messages, List.Forall₂ MessageColumns.Means transcript messages ∧
            loaded = ⟨scope, ⟨row.id, row.createdAt, row.lastUpdated, row.firstPrompt, row.provider,
              row.model, row.workingDir, messages⟩⟩) ∧
        ∀ failure, Store.loadSession ⟨path, some db⟩ row.id = .error failure ↔
          ∃ bad reason, FirstRejected transcript bad reason ∧
            failure = .corruptMessage row.id bad.sequence reason) ∧
    ((∀ stored, ¬List.Forall₂ MessageRow.Shows (db.messagesOf row.id) stored) →
      ∃ before bad after fault, (before ++ bad :: after).Perm (db.messagesOf row.id) ∧
        (before ++ bad :: after).Pairwise (fun a b => a.place < b.place) ∧
        (∀ message ∈ before, ∃ columns, MessageRow.Shows message columns) ∧ bad.Broken fault ∧
        Store.loadSession ⟨path, some db⟩ row.id = .error (.query "load_session" row.id fault)) ∧
    ∀ (other : Database) (otherPath : Option String), other.HasSession row scope →
      (other.messagesOf row.id).Perm (db.messagesOf row.id) →
      Store.loadSession ⟨otherPath, some other⟩ row.id =
        Store.loadSession ⟨path, some db⟩ row.id := by
  have hordered : (db.orderedMessages row.id).Perm (db.messagesOf row.id) :=
    List.mergeSort_perm _ _
  have hascending : (db.orderedMessages row.id).Pairwise fun a b => a.place < b.place :=
    pairwise_place_mergeSort htyped hplaces
  refine ⟨fun stored hshows => ?_, fun hbroken => ?_, ?_⟩
  · -- the rows in order show the columns in order
    obtain ⟨transcript, htranscript, hperm⟩ := List.perm_comp_forall₂ hordered hshows
    exact ⟨transcript, hperm, (pairwise_place_iff htranscript).mp hascending,
      loadSession_of_shows hsession htranscript path⟩
  · have htypedOrdered : ∀ message ∈ db.orderedMessages row.id, message.IsTyped :=
      fun message hmessage => htyped message (hordered.mem_iff.mp hmessage)
    rcases forall₂_or_exists_first fun message hmessage =>
        (htypedOrdered message hmessage).shows_or_broken with
      ⟨columns, hcolumns⟩ | ⟨before, bad, after, fault, hrows, hbefore, hbad⟩
    · -- rows that show something in order show it in any order
      obtain ⟨stored, hshows, -⟩ := List.perm_comp_forall₂ hordered.symm hcolumns
      exact absurd hshows (hbroken stored)
    · obtain ⟨n, hsequence⟩ := (htypedOrdered bad (by rw [hrows]; simp)).sequence
      have hfails := loadSession_unreadable hsession hrows
        (fun message hmessage => (hbefore message hmessage).imp fun _ h => h.columns_eq)
        (hbad.columns_eq hsequence) path
      rw [hrows] at hordered hascending
      exact ⟨before, bad, after, fault, hordered, hascending, hbefore, hbad, hfails⟩
  · intro other otherPath hother hmessages
    show other.loadSession row.id = db.loadSession row.id
    have hsame : other.orderedMessages row.id = db.orderedMessages row.id :=
      mergeSort_eq_of_perm htyped hplaces hmessages
    rw [Database.loadSession_of_found hother.present hother.findSession?_eq,
      Database.loadSession_of_found hsession.present hsession.findSession?_eq, hsame]

/-- A session with a row at the place 9 whose content is no message and a row at the place 4 whose
role is none, beside another session in which bytes that are not UTF-8 follow such a content. -/
def twiceDamaged : Database :=
  { Database.new 0 with
    repositories := ⟨[⟨1, "h", "o", "p"⟩], 1⟩
    branches := ⟨[⟨1, 1, "main"⟩], 1⟩
    sessions := ⟨[⟨"s", 1, 2, 3, "a", "p", "m", "/", 1⟩, ⟨"t", 1, 2, 3, "", "p", "m", "/", 2⟩], 0⟩
    messages := ⟨[⟨1, "s", .integer 9, .text "user", .text "not json", .integer 3⟩,
      ⟨2, "s", .integer (-2), .text "user", .text "[\"user\",[]]", .integer 7⟩,
      ⟨3, "t", .integer 1, .text "user", .rawText [0xff], .integer 7⟩,
      ⟨4, "s", .integer 4, .text "wizard", .text "[\"tool\",[]]", .integer 5⟩,
      ⟨5, "t", .integer 0, .text "user", .text "not json", .integer 7⟩], 5⟩ }

theorem hasSession_twiceDamaged (row : SessionRow) (hrow : row ∈ twiceDamaged.sessions.rows) :
    twiceDamaged.HasSession row ⟨"h", "o", "p", "main"⟩ := by
  have howner : ∀ row ∈ twiceDamaged.sessions.rows, 1 = row.branchId := by decide
  exact ⟨by decide, by decide, by decide, by decide, hrow, ⟨1, 1, "main"⟩, by decide,
    ⟨1, "h", "o", "p"⟩, by decide, howner row hrow, rfl, rfl⟩

theorem isBroken_twiceDamaged : Cell.IsBroken (.rawText [0xff]) ⟨0, some 1⟩ := .intro (by decide)

theorem isTyped_twiceDamaged : ∀ message ∈ twiceDamaged.messages.rows, message.IsTyped := by
  have hwhole : ∀ s, Cell.IsText (.text s) := fun s => .inl ⟨s, rfl⟩
  have hbytes : Cell.IsText (.rawText [0xff]) := .inr ⟨_, isBroken_twiceDamaged⟩
  simp only [twiceDamaged, List.forall_mem_cons]
  exact ⟨⟨⟨9, rfl⟩, hwhole _, hwhole _, ⟨3, rfl⟩⟩, ⟨⟨-2, rfl⟩, hwhole _, hwhole _, ⟨7, rfl⟩⟩,
    ⟨⟨1, rfl⟩, hwhole _, hbytes, ⟨7, rfl⟩⟩, ⟨⟨4, rfl⟩, hwhole _, hwhole _, ⟨5, rfl⟩⟩,
    ⟨⟨0, rfl⟩, hwhole _, hwhole _, ⟨7, rfl⟩⟩, List.forall_mem_nil _⟩

theorem loadSession_shown_twiceDamaged :
    (∀ row ∈ twiceDamaged.sessions.rows, twiceDamaged.HasSession row ⟨"h", "o", "p", "main"⟩ ∧
      (∀ message ∈ twiceDamaged.messagesOf row.id, message.IsTyped) ∧
      (twiceDamaged.messagesOf row.id).Pairwise fun a b => a.place ≠ b.place) ∧
    Store.loadSession ⟨none, some twiceDamaged⟩ "s" =
      .error (.corruptMessage "s" 4 "unknown role `wizard`") ∧
    Store.loadSession ⟨none, some twiceDamaged⟩ "t" =
      .error (.query "load_session" "t" (.brokenText 2 ⟨0, some 1⟩)) := by
  have hgiven : ∀ row ∈ twiceDamaged.sessions.rows,
      twiceDamaged.HasSession row ⟨"h", "o", "p", "main"⟩ ∧
        (∀ message ∈ twiceDamaged.messagesOf row.id, message.IsTyped) ∧
        (twiceDamaged.messagesOf row.id).Pairwise fun a b => a.place ≠ b.place := by
    intro row hrow
    have hplaces : ∀ row ∈ twiceDamaged.sessions.rows,
        (twiceDamaged.messagesOf row.id).Pairwise fun a b => a.place ≠ b.place := by decide
    exact ⟨hasSession_twiceDamaged row hrow,
      fun message hmessage => isTyped_twiceDamaged message (List.mem_of_mem_filter hmessage),
      hplaces row hrow⟩
  refine ⟨hgiven, ?_, ?_⟩
  · obtain ⟨hsession, htyped, hplaces⟩ :=
      hgiven ⟨"s", 1, 2, 3, "a", "p", "m", "/", 1⟩ (by decide)
    have hshows : List.Forall₂ MessageRow.Shows (twiceDamaged.messagesOf "s")
        [⟨9, "user", "not json", 3⟩, ⟨-2, "user", "[\"user\",[]]", 7⟩,
          ⟨4, "wizard", "[\"tool\",[]]", 5⟩] :=
      .cons ⟨rfl, rfl, rfl, rfl⟩ (.cons ⟨rfl, rfl, rfl, rfl⟩ (.cons ⟨rfl, rfl, rfl, rfl⟩ .nil))
    obtain ⟨transcript, hperm, hascending, _, herror⟩ :=
      (loadSession_shown hsession htyped hplaces none).1 _ hshows
    have htranscript : transcript = [⟨-2, "user", "[\"user\",[]]", 7⟩,
        ⟨4, "wizard", "[\"tool\",[]]", 5⟩, ⟨9, "user", "not json", 3⟩] := by
      refine List.Perm.eq_of_pairwise (fun a b _ _ hab hba => ?_) hascending (by simp)
        (hperm.trans ?_)
      · omega
      · exact (List.Perm.swap _ _ _).trans (.cons _ (.swap _ _ _))
    refine (herror _).mpr ⟨⟨4, "wizard", "[\"tool\",[]]", 5⟩, _,
      ⟨[⟨-2, "user", "[\"user\",[]]", 7⟩], [⟨9, "user", "not json", 3⟩], htranscript, ?_,
        .unknownRole ⟨.tool, [], 0⟩ rfl ?_⟩, rfl⟩
    · rintro columns hcolumns
      rw [List.mem_singleton] at hcolumns
      subst hcolumns
      exact ⟨_, .intro ⟨.user, [], 0⟩ rfl rfl⟩
    · rintro role
      cases role <;> decide
  · obtain ⟨hsession, htyped, hplaces⟩ :=
      hgiven ⟨"t", 1, 2, 3, "", "p", "m", "/", 2⟩ (by decide)
    have hmessages : twiceDamaged.messagesOf "t" =
        [⟨3, "t", .integer 1, .text "user", .rawText [0xff], .integer 7⟩,
          ⟨5, "t", .integer 0, .text "user", .text "not json", .integer 7⟩] := rfl
    obtain ⟨before, bad, after, fault, hperm, _, _, hbad, hload⟩ :=
      (loadSession_shown hsession htyped hplaces none).2.1 fun stored hshows => by
        rw [hmessages] at hshows
        obtain ⟨columns, _, hfirst, -⟩ := List.forall₂_cons_left_iff.mp hshows
        exact nomatch hfirst.content
    -- of the two rows only the one with the bytes is broken
    have hmem : bad ∈ twiceDamaged.messagesOf "t" := hperm.subset (by simp)
    obtain ⟨hbytes⟩ := isBroken_twiceDamaged
    rw [hmessages, List.mem_pair] at hmem
    rcases hmem with rfl | rfl
    · rcases hbad with ⟨⟨⟩⟩ | ⟨_, ⟨hfault⟩⟩
      rw [hbytes] at hfault
      cases hfault
      exact hload
    · rcases hbad with ⟨⟨⟩⟩ | ⟨_, ⟨⟩⟩

end SessionArchive.Store
