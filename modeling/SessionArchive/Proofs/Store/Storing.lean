import SessionArchive.Proofs.Message.Depth
import SessionArchive.Proofs.Store.Layout
import SessionArchive.Proofs.Store.Saving

/-!
# Storing what was decoded

A message that was decoded from any text can be stored: a session of such messages is loaded as it
was saved, whenever the save succeeds (`loadSession_of_decoded`). That holds of every handle that
operations and changes from outside lead to (`Reached`). Such changes may damage rows, take tables
away and stand in the way of statements, so a save may fail; but one that succeeds has found the
tables it needs, and has written the session out in full (`Write.saveSession_ok`).
-/

set_option autoImplicit false

namespace SessionArchive.Store

/-! ## Statements that succeed -/

namespace Write

variable {α : Type} {db after : Database}

theorem Keeps.of_ok {R : Database → Database → Prop} {write : Write α} {value : α}
    (h : Keeps R write) (hwrite : write db = .ok value after) : R db after := by
  have hleft := h db
  simp only [left, hwrite] at hleft
  exact hleft

theorem present_of_require {table : TableName} {value : Unit}
    (h : require table db = .ok value after) : table ∉ db.missing := by
  simp only [require, get_bind] at h
  split at h
  · cases h
  · next hpresent => simpa using hpresent

theorem requireRows_ok {table : TableName} {value : Unit}
    (h : requireRows table db = .ok value after) : after = db ∧ table ∉ db.missing := by
  simp only [requireRows] at h
  obtain ⟨_, found, htable, hparent⟩ := bind_ok h
  have hpresent := present_of_require htable
  obtain rfl := require_ok htable
  obtain rfl := requireParent_ok hparent
  exact ⟨rfl, hpresent⟩

theorem refuseRejected_ok {event : Event} {table : TableName} {sequence : Option Cell}
    {value : Unit} (h : refuseRejected event table sequence db = .ok value after) :
    after = db := by
  simp only [refuseRejected, get_bind] at h
  split at h
  · cases h
  · cases h
    rfl

/-- An insertion that succeeds has found its table, and ends as what follows the checks. -/
theorem checked_ok {table : TableName} {sequence : Option Cell} {write : Write α} {value : α}
    (h : (do
      requireRows table
      refuseRejected .insert table sequence
      write : Write α) db = .ok value after) :
    write db = .ok value after ∧ table ∉ db.missing := by
  obtain ⟨_, found, hrows, hrest⟩ := bind_ok h
  obtain ⟨rfl, hpresent⟩ := requireRows_ok hrows
  obtain ⟨_, checked, hrefuse, hwrite⟩ := bind_ok hrest
  obtain rfl := refuseRejected_ok hrefuse
  exact ⟨hwrite, hpresent⟩

theorem resolveRepository_ok {host org project : String} {id : RowId}
    (h : resolveRepository host org project db = .ok id after) :
    db.ensureRepository host org project = (id, after) ∧ .repositories ∉ db.missing := by
  simp only [resolveRepository] at h
  obtain ⟨_, found, htable, hresolve⟩ := bind_ok h
  have hpresent := present_of_require htable
  obtain rfl := require_ok htable
  refine ⟨?_, hpresent⟩
  simp only [get_bind] at hresolve
  rw [Database.ensureRepository]
  cases hfind : found.findRepository? host org project with
  | some repository =>
    rw [hfind] at hresolve
    cases hresolve
    rfl
  | none =>
    rw [hfind] at hresolve
    obtain ⟨hinsert, -⟩ := checked_ok hresolve
    simp only [get_bind, hfind] at hinsert
    cases hinsert
    rfl

theorem resolveBranch_ok {repositoryId id : RowId} {name : String}
    (h : resolveBranch repositoryId name db = .ok id after) :
    db.ensureBranch repositoryId name = (id, after) ∧ .branches ∉ db.missing := by
  simp only [resolveBranch] at h
  obtain ⟨_, found, htable, hresolve⟩ := bind_ok h
  have hpresent := present_of_require htable
  obtain rfl := require_ok htable
  refine ⟨?_, hpresent⟩
  simp only [get_bind] at hresolve
  rw [Database.ensureBranch]
  cases hfind : found.findBranch? repositoryId name with
  | some branch =>
    rw [hfind] at hresolve
    cases hresolve
    rfl
  | none =>
    rw [hfind] at hresolve
    obtain ⟨hinsert, -⟩ := checked_ok hresolve
    simp only [get_bind] at hinsert
    -- a branch is inserted only where its repository is there
    split at hinsert
    · cases hinsert
      rfl
    · cases hinsert

theorem resolveScope_ok {scope : Scope} {id : RowId} (h : resolveScope scope db = .ok id after) :
    db.ensureScope scope = (id, after) ∧
      .repositories ∉ after.missing ∧ .branches ∉ after.missing := by
  simp only [resolveScope] at h
  obtain ⟨repositoryId, between, hrepository, hbranch⟩ := bind_ok h
  have hfirst := (resolveRepository_keeps Database.lasting_sameLayout _ _ _).of_ok hrepository
  have hsecond := (resolveBranch_keeps Database.lasting_sameLayout _ _).of_ok hbranch
  obtain ⟨hensure, hrepositories⟩ := resolveRepository_ok hrepository
  obtain ⟨hensure', hbranches⟩ := resolveBranch_ok hbranch
  refine ⟨?_, ?_, ?_⟩
  · rw [Database.ensureScope, hensure]
    exact hensure'
  · rw [hsecond.missing, hfirst.missing]
    exact hrepositories
  · rw [hsecond.missing]
    exact hbranches

theorem insertMessages_ok {sessionId : String} {sequence : Nat} {messages : List Message}
    {value : Unit} (h : insertMessages sessionId sequence messages db = .ok value after) :
    after = db.addMessages sessionId sequence messages ∧ .messages ∉ db.missing := by
  induction messages generalizing sequence db with
  | nil =>
    obtain ⟨rfl, hpresent⟩ := requireRows_ok h
    exact ⟨(Database.addMessages_nil after sessionId sequence).symm, hpresent⟩
  | cons message rest ih =>
    obtain ⟨_, between, hinsert, hrest⟩ := bind_ok h
    obtain ⟨hadd, hpresent⟩ := checked_ok hinsert
    cases hadd
    obtain ⟨rfl, -⟩ := ih hrest
    exact ⟨(Database.addMessages_cons db sessionId sequence message rest).symm, hpresent⟩

/-- A save that succeeds has found the tables it needs, made sure of the branch and written the
session. -/
theorem saveSession_ok {session : Session} {scope : Scope} {now : Int64} {value : Unit}
    (h : saveSession session scope now db = .ok value after) :
    after = (db.ensureScope scope).2.writeSession (db.ensureScope scope).1 session now ∧
      ∀ table ∈ Database.summaryTables, table ∉ after.missing := by
  simp only [saveSession] at h
  obtain ⟨branchId, there, hscope, hrest⟩ := bind_ok h
  obtain ⟨_, put, hput, hrest⟩ := bind_ok hrest
  obtain ⟨_, emptied, hdelete, hinsert⟩ := bind_ok hrest
  obtain ⟨hensure, hrepositories, hbranches⟩ := resolveScope_ok hscope
  obtain ⟨hset, hsessions⟩ := checked_ok hput
  cases hset
  obtain ⟨rfl, -⟩ := delete_ok hdelete
  obtain ⟨rfl, hmessages⟩ := insertMessages_ok hinsert
  rw [hensure]
  -- writing rows takes no table away
  refine ⟨rfl, ?_⟩
  simp only [Database.summaryTables, List.forall_mem_cons, List.not_mem_nil, false_implies,
    implies_true, and_true]
  exact ⟨hsessions, hbranches, hrepositories, hmessages⟩

end Write

/-! ## What can come about -/

/-- What happens to the tables beside the operations: another program sets columns, takes a table
away, rejects events or ends that, or the file is opened anew. -/
inductive OutsideChange : Database → Database → Prop
  | setLastUpdated {db : Database} (id : String) (time : Int64) :
      OutsideChange db (db.setLastUpdated id time).1
  | setMessage {db : Database} (sessionId : String) (sequence : Int) (column : MessageColumn)
      (value : Cell) : OutsideChange db (db.setMessage sessionId sequence column value).1
  | setHistoryTime {db : Database} (kind : HistoryKind) (id : RowId) (time : Int64) :
      OutsideChange db (db.setHistoryTime kind id time).1
  | dropTable {db : Database} (table : TableName) : OutsideChange db (db.dropTable table)
  | reject {db : Database} (rejection : Rejection) : OutsideChange db (db.reject rejection)
  | unreject {db : Database} (event : Event) (table : TableName) :
      OutsideChange db (db.unreject event table)
  | applySchema {db : Database} (now : Int64) : OutsideChange db (db.applySchema now)

/-- A handle that can come about: from a new database, operations and changes from outside follow
one another. -/
inductive Reached : Store → Prop
  | fresh (path : Option String) (start : Int64) : Reached (Store.fresh path start)
  | operation {store : Store} (h : Reached store) (now : Int64) (operation : Operation) :
      Reached (operation.run now store).2
  | outside {path : Option String} {db after : Database} (h : Reached ⟨path, some db⟩)
      (hchange : OutsideChange db after) : Reached ⟨path, some after⟩

namespace Database

theorem Keyed.setHistory {db : Database} (h : db.Keyed) (kind : HistoryKind)
    (table : Table HistoryEntry) : (db.setHistory kind table).Keyed := by
  cases kind with
  | prompt => exact ⟨h.repositoryIds, h.branchIds⟩
  | command => exact ⟨h.repositoryIds, h.branchIds⟩

/-- Statements hand out each id once. -/
theorem lasting_keyed : Lasting fun db after => db.Keyed → after.Keyed where
  refl _ h := h
  trans hfirst hsecond h := hsecond (hfirst h)
  sessions _ _ h := ⟨h.repositoryIds, h.branchIds⟩
  messages _ _ h := ⟨h.repositoryIds, h.branchIds⟩
  history _ kind table h := h.setHistory kind table
  addRepository _ _ _ _ h := ⟨h.repositoryIds.add rfl, h.branchIds⟩
  addBranch _ _ _ h := ⟨h.repositoryIds, h.branchIds.add rfl⟩
  removeBranches _ _ h := ⟨h.repositoryIds, h.branchIds.filter _⟩
  removeRepositories _ _ h := ⟨h.repositoryIds.filter _, h.branchIds.filter _⟩

end Database

/-- No change from outside gives out an id, so each is still there once. -/
theorem OutsideChange.keyed {db after : Database} (hchange : OutsideChange db after)
    (h : db.Keyed) : after.Keyed := by
  cases hchange with
  | setLastUpdated id time => exact ⟨h.repositoryIds, h.branchIds⟩
  | setMessage sessionId sequence column value => exact ⟨h.repositoryIds, h.branchIds⟩
  | setHistoryTime kind id time => exact h.setHistory kind _
  | dropTable table =>
    -- a table that is dropped has no rows, and takes those that belong to its rows along
    cases table with
    | repositories => exact ⟨.empty, h.branchIds.filter _⟩
    | branches => exact ⟨h.repositoryIds, .empty⟩
    | history kind =>
      have hkept := h.setHistory kind .empty
      exact ⟨hkept.repositoryIds, hkept.branchIds⟩
    | schemaVersion => exact ⟨h.repositoryIds, h.branchIds⟩
    | sessions => exact ⟨h.repositoryIds, h.branchIds⟩
    | messages => exact ⟨h.repositoryIds, h.branchIds⟩
  | reject rejection => exact ⟨h.repositoryIds, h.branchIds⟩
  | unreject event table => exact ⟨h.repositoryIds, h.branchIds⟩
  | applySchema now => exact ⟨h.repositoryIds, h.branchIds⟩

theorem Reached.keyed {store : Store} (h : Reached store) :
    ∀ db, store.database = some db → db.Keyed := by
  induction h with
  | fresh path start =>
    rintro _ ⟨⟩
    exact ⟨.empty, .empty⟩
  | @operation store h now operation ih =>
    intro after hafter
    -- every operation keeps the ids apart, also one that fails
    have hsame := operation.run_lasting Database.lasting_keyed now store
    generalize (operation.run now store).2 = left at hsame hafter
    cases hsame with
    | closed path => cases hafter
    | held path hkeeps =>
      cases hafter
      exact hkeeps (ih _ rfl)
  | outside h hchange ih =>
    rintro _ ⟨⟩
    exact hchange.keyed (ih _ rfl)

/-! ## Decoded messages -/

theorem decodeAll_of_decoded (sessionId : String) {messages : List Message}
    (h : ∀ m ∈ messages, (∃ text, Message.decode text = .ok m) ∧ m.toJson.Integral) :
    decodeAll sessionId (columnsOf 0 messages) = .ok messages := by
  have hreread : ∀ m ∈ messages, m.reread = m := fun m hm =>
    Message.reread_of_integral (h m hm).2
  have hdecode : ∀ m ∈ messages, Message.decode m.encode = .ok m.reread := by
    intro m hm
    obtain ⟨⟨text, htext⟩, hint⟩ := h m hm
    rw [hreread m hm]
    exact Message.decode_encode_of_decode htext hint
  rw [decodeAll_ok sessionId 0 hdecode, List.map_congr_left hreread, List.map_id']

/-- Whatever text a message without floating-point numbers was decoded from, its own text decodes to
it again; and whatever a store went through, a session of such messages is loaded as it was saved if
the save succeeds. -/
theorem loadSession_of_decoded :
    (∀ (text : String) (message : Message), Message.decode text = .ok message →
      message.toJson.Integral → Message.decode message.encode = .ok message) ∧
    ∀ store : Store, Reached store → ∀ (session : Session) (scope : Scope) (now : Int64),
      (∀ m ∈ session.messages, (∃ text, Message.decode text = .ok m) ∧ m.toJson.Integral) →
      ∀ saved, (store.saveSession session scope now).1 = .ok saved →
        saved = { session with lastUpdated := now } ∧
        (store.saveSession session scope now).2.loadSession session.id = .ok ⟨scope, saved⟩ := by
  refine ⟨fun text message => Message.decode_encode_of_decode, ?_⟩
  rintro ⟨path, database⟩ hreached session scope now hdecoded saved hsaved
  rw [Store.saveSession_eq] at hsaved ⊢
  cases database with
  | none => cases hsaved
  | some db =>
    cases hwrite : Write.saveSession session scope now db with
    | error failure after =>
      simp only [Store.mutate, Database.mutate, hwrite] at hsaved
      cases hsaved
    | ok value after =>
      -- a load asks for the tables that the save has found, and for one branch of an id
      have hafter : after.Keyed :=
        (Write.saveSession_keeps Database.lasting_keyed session scope now).of_ok hwrite
          (hreached.keyed db rfl)
      obtain ⟨rfl, htables⟩ := Write.saveSession_ok hwrite
      rw [mutate_of_ok hwrite] at hsaved ⊢
      cases hsaved
      refine ⟨rfl, ?_⟩
      have hload := hafter.loadSession_writeSession htables
      rw [decodeAll_of_decoded session.id hdecoded] at hload
      exact hload

/-- A message as an array, with the role as the key of an object, the tag of a part behind an
unknown member, a key twice in an input, and no time. -/
def wideText : String :=
  " [\x7b\"user\":null\x7d,[\x7b\"x\":[1.5],\"type\":\"tool_call\",\"id\":\"\",\"name\":\"\\u0041\"," ++
    "\"input\":\x7b\"b\":1,\"a\":[],\"b\":2\x7d\x7d]]"

theorem eq_ok_get {ε α : Type} {result : Except ε α} (h : result.toOption.isSome = true) :
    result = .ok (result.toOption.get h) := by
  cases result with
  | error e => cases h
  | ok a => rfl

theorem wideText_decoded : (Message.decode wideText).toOption.isSome = true := by decide +kernel

/-- The message of `wideText`. -/
def wide : Message := (Message.decode wideText).toOption.get wideText_decoded

/-- A session of that message. -/
def wideSession : Session := ⟨"s", 1, 6, "a", "p", "m", "/", [wide, wide]⟩

/-- A session was saved; then its message was overwritten and another table taken away. -/
def harmed : Database :=
  let there := (Database.new 0).ensureScope ⟨"h", "o", "p", "main"⟩
  let saved := there.2.writeSession there.1
    ⟨"s", 1, 1, "a", "p", "m", "/", [.ofText .user "a" 1]⟩ 5
  (saved.setMessage "s" 0 .content (.text "junk")).1.dropTable (.history .command)

theorem reached_harmed : Reached ⟨none, some harmed⟩ := by
  have hsave := Reached.operation (.fresh none 0) 5
    (.saveSession ⟨"s", 1, 1, "a", "p", "m", "/", [.ofText .user "a" 1]⟩ ⟨"h", "o", "p", "main"⟩)
  have hintact : (Database.new 0).Intact := ⟨rfl, rfl⟩
  have hsaved := Store.saveSession_intact hintact none
    ⟨"s", 1, 1, "a", "p", "m", "/", [.ofText .user "a" 1]⟩ ⟨"h", "o", "p", "main"⟩ 5
  simp only [Operation.run, Store.fresh, hsaved] at hsave
  exact (hsave.outside (.setMessage "s" 0 .content (.text "junk"))).outside
    (.dropTable (.history .command))

/-- Neither the damage nor the missing table stands in the way of a save. -/
theorem saveSession_harmed (first second : Message) :
    (Store.saveSession ⟨none, some harmed⟩ ⟨"s", 1, 6, "a", "p", "m", "/", [first, second]⟩
      ⟨"h", "o", "p", "dev"⟩ 7).1.toOption.isSome = true := rfl

theorem loadSession_of_decoded_wide :
    wide.encode = "\x7b\"role\":\"user\",\"parts\":[\x7b\"type\":\"tool_call\",\"id\":\"\",\"name\":\"A\"," ++
        "\"input\":\x7b\"a\":[],\"b\":2\x7d\x7d],\"created_at\":0\x7d" ∧
      Message.decode wideText = .ok wide ∧ wide.toJson.Integral ∧
      Message.decode wide.encode = .ok wide ∧ Reached ⟨none, some harmed⟩ ∧
      ∃ saved, (Store.saveSession ⟨none, some harmed⟩ wideSession ⟨"h", "o", "p", "dev"⟩ 7).1 =
          .ok saved ∧
        (Store.saveSession ⟨none, some harmed⟩ wideSession ⟨"h", "o", "p", "dev"⟩ 7).2.loadSession
          "s" = .ok ⟨⟨"h", "o", "p", "dev"⟩, saved⟩ := by
  have hdecode := eq_ok_get wideText_decoded
  have hint : wide.toJson.Integral := by decide +kernel
  have hmessages : ∀ m ∈ wideSession.messages,
      (∃ text, Message.decode text = .ok m) ∧ m.toJson.Integral := by
    simp only [wideSession, List.forall_mem_cons, List.not_mem_nil, false_implies, implies_true,
      and_true]
    exact ⟨⟨⟨wideText, hdecode⟩, hint⟩, ⟨⟨wideText, hdecode⟩, hint⟩⟩
  have hsaved : (Store.saveSession ⟨none, some harmed⟩ wideSession ⟨"h", "o", "p", "dev"⟩
      7).1.toOption.isSome = true := saveSession_harmed wide wide
  obtain ⟨hreread, hload⟩ := loadSession_of_decoded
  refine ⟨by decide +kernel, hdecode, hint, hreread wideText wide hdecode hint, reached_harmed,
    _, eq_ok_get hsaved, ?_⟩
  exact (hload _ reached_harmed wideSession ⟨"h", "o", "p", "dev"⟩ 7 hmessages _
    (eq_ok_get hsaved)).2

end SessionArchive.Store
