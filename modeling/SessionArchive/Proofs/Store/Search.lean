import SessionArchive.Proofs.Pattern.Span
import SessionArchive.Proofs.Store.Consistent
import SessionArchive.Proofs.Store.Mirror
import SessionArchive.Proofs.Store.Scanning
import SessionArchive.Proofs.Store.Sorting

/-!
# The search sees what is stored

A `Match` is the first match in the text of one message, with the text around it. The rows that a
search looks at are those of the messages on the shelf, one for each, so that
`Store.searchMessages_play` can say what it answers after every run: the matches on the shelf, each
once, the latest message first. Of the engine that finds the matches it asks no more than that they
are parts of the text (`SpanEngine`).
-/

set_option autoImplicit false

namespace SessionArchive

open Store (SearchHit Matcher lastOf snippetRadius)
open Text.Utf8 (size split?_append)

/-! ## Matches -/

/-- A match in the text of the message that a session has at a place, between the text before it and
the text after it. -/
@[ext] structure Match where
  sessionId : String
  place : Nat
  message : Message
  before : List Char
  matched : List Char
  after : List Char

namespace Match

/-- What a search shows of a match. -/
def hit (m : Match) : SearchHit :=
  ⟨m.sessionId, Int64.ofInt m.place, m.message.role.name,
    String.ofList (lastOf snippetRadius m.before ++ m.matched ++ m.after.take snippetRadius),
    m.message.createdAt⟩

/-- The message is on a shelf, and the match is the one that is found in its text. -/
structure IsOn (find : Matcher) (shelf : Shelf) (m : Match) : Prop where
  kept : ∃ loaded, shelf.load m.sessionId = some loaded ∧
    loaded.session.messages[m.place]? = some m.message
  text : m.message.encode.toList = m.before ++ m.matched ++ m.after
  found : find m.message.encode = some (size m.before, size (m.before ++ m.matched))

/-- The message of a match is later than that of another; or it is as late, and within one session
it is at a later place. -/
def Precedes (a b : Match) : Prop :=
  b.message.createdAt < a.message.createdAt ∨
    a.message.createdAt = b.message.createdAt ∧ (a.sessionId = b.sessionId → b.place < a.place)

/-- In a message there is one first match. -/
theorem IsOn.eq_of_place {find : Matcher} {shelf : Shelf} {a b : Match} (ha : a.IsOn find shelf)
    (hb : b.IsOn find shelf) (hsession : a.sessionId = b.sessionId) (hplace : a.place = b.place) :
    a = b := by
  obtain ⟨loaded, hload, hgetA⟩ := ha.kept
  obtain ⟨other, hother, hgetB⟩ := hb.kept
  have hloaded : loaded = other := by
    rw [hsession, hother] at hload
    exact (Option.some.inj hload).symm
  have hmessage : a.message = b.message := by
    rw [hloaded, hplace, hgetB] at hgetA
    exact (Option.some.inj hgetA).symm
  have htext : a.before ++ a.matched ++ a.after = b.before ++ b.matched ++ b.after := by
    rw [← ha.text, ← hb.text, hmessage]
  have hspan := hb.found
  rw [← hmessage, ha.found] at hspan
  simp only [Option.some.injEq, Prod.mk.injEq] at hspan
  -- both texts are cut at the start of the match, and again at its end
  have hstop := split?_append (a.before ++ a.matched) a.after
  rw [htext, hspan.2, split?_append] at hstop
  simp only [Option.some.injEq, Prod.mk.injEq] at hstop
  rw [List.append_assoc, List.append_assoc] at htext
  have hstart := split?_append a.before (a.matched ++ a.after)
  rw [htext, hspan.1, split?_append] at hstart
  simp only [Option.some.injEq, Prod.mk.injEq] at hstart
  have hmatched : a.matched = b.matched := by
    have hfront := hstop.1
    rw [hstart.1] at hfront
    exact (List.append_cancel_left hfront).symm
  exact Match.ext hsession hplace hmessage hstart.1.symm hmatched hstop.2.symm

end Match

namespace Store

/-! ## The rows of messages -/

theorem Transcript.exists_place {sessionId : String} {sequence : Nat} {rows : List MessageRow}
    {messages : List Message} (h : Transcript sessionId sequence rows messages) {row : MessageRow}
    (hrow : row ∈ rows) :
    ∃ place message, messages[place]? = some message ∧
      row = messageRow row.id sessionId (sequence + place) message := by
  induction h with
  | nil => cases hrow
  | cons id sequence message rest ih =>
    rcases List.mem_cons.mp hrow with rfl | hrow
    · exact ⟨0, message, rfl, rfl⟩
    · obtain ⟨place, found, hget, heq⟩ := ih hrow
      rw [Nat.add_assoc, Nat.add_comm 1] at heq
      exact ⟨place + 1, found, hget, heq⟩

theorem Transcript.exists_row {sessionId : String} {sequence : Nat} {rows : List MessageRow}
    {messages : List Message} (h : Transcript sessionId sequence rows messages) {place : Nat}
    {message : Message} (hget : messages[place]? = some message) :
    ∃ id, messageRow id sessionId (sequence + place) message ∈ rows := by
  induction h generalizing place with
  | nil => cases hget
  | cons id sequence first rest ih =>
    cases place with
    | zero =>
      cases hget
      exact ⟨id, List.mem_cons_self⟩
    | succ place =>
      obtain ⟨other, hmem⟩ := ih hget
      rw [Nat.add_assoc, Nat.add_comm 1] at hmem
      exact ⟨other, List.mem_cons_of_mem _ hmem⟩

section Rows

variable {allowed : Message → Prop} {db : Database} {shelf : Shelf}

/-- Every row of a message is that of a message on the shelf. -/
theorem Tied.exists_message (h : Tied allowed db shelf) (hsound : db.Sound) {row : MessageRow}
    (hrow : row ∈ db.messages.rows) :
    ∃ loaded place message, shelf.load row.sessionId = some loaded ∧
      loaded.session.messages[place]? = some message ∧
        row = messageRow row.id row.sessionId place message := by
  obtain ⟨session, hsession, hid⟩ := hsound.messageOwner row hrow
  obtain ⟨kept, hload, hholds⟩ := h.exists_load hsound hsession
  have hmem : row ∈ db.messagesOf session.id :=
    List.mem_filter.mpr ⟨hrow, beq_iff_eq.mpr hid.symm⟩
  obtain ⟨place, message, hget, heq⟩ := hholds.transcript.exists_place hmem
  rw [hid] at hload heq
  rw [Nat.zero_add] at heq
  exact ⟨kept.loaded, place, message, hload, hget, heq⟩

/-- Every message on the shelf has a row. -/
theorem Tied.exists_messageRow (h : Tied allowed db shelf) {id : String} {loaded : LoadedSession}
    (hload : shelf.load id = some loaded) {place : Nat} {message : Message}
    (hget : loaded.session.messages[place]? = some message) :
    ∃ rowId, messageRow rowId id place message ∈ db.messages.rows := by
  obtain ⟨session, _, rfl, kept, rfl, hholds⟩ := h.exists_row hload
  obtain ⟨rowId, hmem⟩ := hholds.transcript.exists_row hget
  rw [Nat.zero_add] at hmem
  exact ⟨rowId, (List.mem_filter.mp hmem).1⟩

/-- Within a session later rows have later places. -/
theorem Database.Sound.place_lt_of_id_lt (h : db.Sound) {a b : MessageRow}
    (ha : a ∈ db.messages.rows) (hb : b ∈ db.messages.rows) (hsession : a.sessionId = b.sessionId)
    {i j : Int} (hi : a.sequence = .integer i) (hj : b.sequence = .integer j)
    (hlt : a.id < b.id) : i < j := by
  rcases Int.lt_trichotomy i j with hij | rfl | hji
  · exact hij
  · -- at one place there is one row
    obtain ⟨hmemA, messages, htranscript⟩ := h.exists_transcript ha
    obtain ⟨hmemB, _⟩ := h.exists_transcript hb
    rw [← hsession] at hmemB
    have hplaces : (db.messagesOf a.sessionId).Pairwise fun a b => ¬a.sequence = b.sequence := by
      apply htranscript.ascending.imp
      rintro a b ⟨m, n, hm, hn, hmn⟩ hsame
      rw [hm, hn] at hsame
      cases hsame
      exact absurd hmn (Nat.lt_irrefl _)
    have hsame := eq_of_pairwise_not (S := fun a b => a.sequence = b.sequence)
      (fun _ _ => Eq.symm) hplaces hmemA hmemB (hi.trans hj.symm)
    rw [hsame] at hlt
    exact absurd hlt (Int.lt_irrefl _)
  · exact absurd (h.messageIds_ascend hb ha hsession.symm hj hi hji) (Int.lt_asymm hlt)

end Rows

/-! ## The hit of a row -/

section Hits

variable {allowed : Message → Prop} {db : Database} {shelf : Shelf} {find : Matcher}

theorem scanRow_messageRow (find : Matcher) (id : RowId) (sessionId : String) (place : Nat)
    (message : Message) :
    scanRow find (messageRow id sessionId place message) =
      match find message.encode with
      | none => .ok none
      | some span =>
        match snippet? message.encode.toList span.1 span.2 snippetRadius with
        | none => .error (.noSnippet span.1 span.2)
        | some shown => .ok (some ⟨sessionId, Int64.ofInt place, message.role.name,
            String.ofList shown, message.createdAt⟩) := by
  simp only [scanRow, messageRow, Cell.toText, ok_bind]
  cases find message.encode with
  | none => rfl
  | some span =>
    simp only [hitOf, Cell.toInt, Cell.toText, ok_bind, Int64.ofInt_toInt]
    cases snippet? message.encode.toList span.1 span.2 snippetRadius with
    | none => rfl
    | some shown => rfl

/-- Rows that show one message at one place are shown by it alone. -/
theorem messageRow_inj {id : RowId} {a b : String} {i j : Nat} {message other : Message}
    (h : messageRow id a i message = messageRow id b j other) : a = b ∧ i = j := by
  simp only [messageRow, MessageRow.mk.injEq, Cell.integer.injEq] at h
  exact ⟨h.2.1, Int.ofNat.inj h.2.2.1⟩

/-- A row is read as the match on the shelf that is in its message, if there is one. -/
theorem Tied.exists_first (h : Tied allowed db shelf) (hsound : db.Sound)
    (hspans : ∀ text span, find text = some span → Pattern.Spans text.toList span)
    {row : MessageRow} (hrow : row ∈ db.messages.rows) :
    ∃ first : Option Match, scanRow find row = .ok (first.map Match.hit) ∧
      ∀ m : Match, first = some m ↔
        m.IsOn find shelf ∧ row = messageRow row.id m.sessionId m.place m.message := by
  obtain ⟨loaded, place, message, hload, hget, hmessage⟩ := h.exists_message hsound hrow
  have hscan := scanRow_messageRow find row.id row.sessionId place message
  rw [← hmessage] at hscan
  cases hfound : find message.encode with
  | none =>
    rw [hfound] at hscan
    refine ⟨none, hscan, fun m => ⟨nofun, ?_⟩⟩
    rintro ⟨hon, heq⟩
    -- the match would have to be in the message of the row
    obtain ⟨hsession, hplace⟩ := messageRow_inj (hmessage.symm.trans heq)
    obtain ⟨other, hother, hgetOther⟩ := hon.kept
    rw [← hsession, hload] at hother
    cases hother
    rw [← hplace, hget] at hgetOther
    cases hgetOther
    rw [hon.found] at hfound
    cases hfound
  | some span =>
    obtain ⟨before, matched, after, htext, rfl⟩ := hspans _ _ hfound
    rw [hfound] at hscan
    simp only [htext, snippet?_append] at hscan
    let first : Match := ⟨row.sessionId, place, message, before, matched, after⟩
    have hfirst : first.IsOn find shelf := ⟨⟨loaded, hload, hget⟩, htext, hfound⟩
    refine ⟨some first, hscan, fun m => ⟨?_, ?_⟩⟩
    · intro heq
      cases heq
      exact ⟨hfirst, hmessage⟩
    · rintro ⟨hon, heq⟩
      obtain ⟨hsession, hplace⟩ := messageRow_inj (hmessage.symm.trans heq)
      exact congrArg some (hfirst.eq_of_place hon hsession hplace)

/-! ## The order of the hits -/

/-- Rows of messages are looked at by time and id, the latest first. -/
theorem Database.Sound.pairwise_searchOrder (h : db.Sound) :
    db.searchOrder.Pairwise fun a b => b.createdAt.fraction.1 < a.createdAt.fraction.1 ∨
      a.createdAt.fraction.1 = b.createdAt.fraction.1 ∧ b.id < a.id := by
  refine pairwise_mergeSort_latest ?_ (List.pairwise_map.mp h.messageIds.nodup)
  intro a ha b hb
  obtain ⟨m, _, _, htimeA⟩ := h.consistent.columns a ha
  obtain ⟨n, _, _, htimeB⟩ := h.consistent.columns b hb
  simp only [searchLe, htimeA, htimeB, isBefore_integer, Cell.fraction, Bool.or_eq_true,
    Bool.and_eq_true, Bool.not_eq_true', decide_eq_true_iff, decide_eq_false_iff_not]
  constructor
  · rintro (hlater | ⟨hnotEarlier, hid⟩)
    · exact .inl hlater
    · rcases Int.lt_or_eq_of_le (Int.not_lt.mp hnotEarlier) with hlater | hsame
      · exact .inl hlater
      · exact .inr ⟨hsame.symm, hid⟩
  · rintro (hlater | ⟨hsame, hid⟩)
    · exact .inl hlater
    · exact .inr ⟨by omega, hid⟩

/-- A match whose row comes first precedes the other. -/
theorem Match.precedes_of_rows (hsound : db.Sound) {a b : MessageRow} {m n : Match}
    (ha : a ∈ db.messages.rows) (hb : b ∈ db.messages.rows)
    (hm : a = messageRow a.id m.sessionId m.place m.message)
    (hn : b = messageRow b.id n.sessionId n.place n.message)
    (h : b.createdAt.fraction.1 < a.createdAt.fraction.1 ∨
      a.createdAt.fraction.1 = b.createdAt.fraction.1 ∧ b.id < a.id) : m.Precedes n := by
  have htimeA : a.createdAt.fraction.1 = m.message.createdAt.toInt := by rw [hm]; rfl
  have htimeB : b.createdAt.fraction.1 = n.message.createdAt.toInt := by rw [hn]; rfl
  rw [htimeA, htimeB] at h
  rcases h with hlater | ⟨hsame, hid⟩
  · exact .inl (Int64.lt_iff_toInt_lt.mpr hlater)
  · refine .inr ⟨Int64.toInt_inj.mp hsame, fun hsession => ?_⟩
    have hrows : b.sessionId = a.sessionId := by
      rw [hm, hn]
      exact hsession.symm
    have hplaceA : a.sequence = .integer m.place := by rw [hm]; rfl
    have hplaceB : b.sequence = .integer n.place := by rw [hn]; rfl
    exact Int.ofNat_lt.mp (hsound.place_lt_of_id_lt hb ha hrows hplaceB hplaceA hid)

/-- No message comes before itself. -/
theorem Match.nodup_of_precedes {found : List Match} (hon : ∀ m ∈ found, m.IsOn find shelf)
    (h : found.Pairwise Match.Precedes) :
    (found.map fun m => (m.sessionId, m.place)).Nodup := by
  apply List.pairwise_map.mpr
  apply h.imp_of_mem
  intro m n hm hn hprecedes heq
  simp only [Prod.mk.injEq] at heq
  cases (hon m hm).eq_of_place (hon n hn) heq.1 heq.2
  rcases hprecedes with hlater | ⟨_, hplace⟩
  · exact Int64.lt_irrefl hlater
  · exact Nat.lt_irrefl _ (hplace rfl)

end Hits

/-! ## Searching -/

/-- The messages that a search looks at are the ones on the shelf. -/
theorem Tied.exists_found {allowed : Message → Prop} {db : Database} {shelf : Shelf}
    (h : Tied allowed db shelf) (hsound : db.Sound) (pattern : String) {find : Matcher}
    (hspans : ∀ text span, find text = some span → Pattern.Spans text.toList span) :
    ∃ found : List Match,
      (∀ limit, (db.searchMessages pattern find limit).map Prod.fst =
        .ok (Database.limited limit (found.map Match.hit))) ∧
      (∀ m, m ∈ found ↔ m.IsOn find shelf) ∧ found.Pairwise Match.Precedes := by
  have hfirst : ∀ row, ∃ first : Option Match, row ∈ db.messages.rows →
      scanRow find row = .ok (first.map Match.hit) ∧ ∀ m : Match, first = some m ↔
        m.IsOn find shelf ∧ row = messageRow row.id m.sessionId m.place m.message := by
    intro row
    by_cases hrow : row ∈ db.messages.rows
    · obtain ⟨first, hread⟩ := h.exists_first hsound hspans hrow
      exact ⟨first, fun _ => hread⟩
    · exact ⟨none, fun hmem => absurd hmem hrow⟩
  -- what a row tells, as a function of the row
  choose first hfirst using hfirst
  have hmem : ∀ row, row ∈ db.searchOrder ↔ row ∈ db.messages.rows := fun row =>
    List.mem_mergeSort
  refine ⟨db.searchOrder.filterMap first, fun limit => ?_, fun m => ?_, ?_⟩
  · have hread : ∀ row ∈ db.searchOrder, scanRow find row = .ok ((first row).map Match.hit) :=
      fun row hrow => (hfirst row ((hmem row).mp hrow)).1
    have hscan := scan_limited hread limit
    rw [← List.map_filterMap] at hscan
    simp only [Database.searchMessages, Database.read, hsound.toIntact.requireAll, ok_bind]
    rw [map_mapError, map_mapError, hscan]
    rfl
  · rw [List.mem_filterMap]
    constructor
    · rintro ⟨row, hrow, hsome⟩
      exact (((hfirst row ((hmem row).mp hrow)).2 m).mp hsome).1
    · intro hon
      obtain ⟨loaded, hload, hget⟩ := hon.kept
      obtain ⟨rowId, hrow⟩ := h.exists_messageRow hload hget
      exact ⟨_, (hmem _).mpr hrow, ((hfirst _ hrow).2 m).mpr ⟨hon, rfl⟩⟩
  · apply List.Pairwise.filterMap first ?_ (List.Pairwise.and_mem.mp hsound.pairwise_searchOrder)
    rintro a b ⟨ha, hb, hearlier⟩ m hm n hn
    rw [hmem] at ha hb
    exact Match.precedes_of_rows hsound ha hb (((hfirst a ha).2 m).mp hm).2
      (((hfirst b hb).2 n).mp hn).2 hearlier

/-- The answers of a search are the matches on a shelf, each once, the latest message first, and a
limit cuts them off. -/
def AnswersMatches (find : Matcher) (shelf : Shelf)
    (search : Nat → Except Failure (List SearchHit)) : Prop :=
  ∃ found : List Match,
    search 0 = .ok (found.map Match.hit) ∧
    (∀ limit, limit ≠ 0 → search limit = .ok ((found.map Match.hit).take limit)) ∧
    (∀ m, m ∈ found ↔ m.IsOn find shelf) ∧
    (found.map fun m => (m.sessionId, m.place)).Nodup ∧
    found.Pairwise Match.Precedes

/-- An engine with all its matches parts of the text. -/
structure SpanEngine where
  read : Engine
  spans : ∀ {pattern : String} {find : Matcher}, read pattern = .ok find →
    ∀ text span, find text = some span → Pattern.Spans text.toList span

/-- The engine of the patterns is such an engine. -/
def SpanEngine.ofPatterns : SpanEngine where
  read := patternEngine
  spans := by
    intro pattern find hread text span hfound
    obtain ⟨compiled, _, rfl⟩ := map_eq_ok_iff.mp hread
    exact Pattern.find_spans hfound

/-- A search by any such engine answers the matches on the shelf. -/
theorem Tied.answersMatches {allowed : Message → Prop} {db : Database} {shelf : Shelf}
    (h : Tied allowed db shelf) (hsound : db.Sound) (path : Option String) (engine : SpanEngine)
    {pattern : String} {find : Matcher} (hread : engine.read pattern = .ok find) :
    AnswersMatches find shelf (searchMessagesBy engine.read ⟨path, some db⟩ pattern) := by
  obtain ⟨found, hsearch, hmem, hprecedes⟩ :=
    h.exists_found hsound pattern (engine.spans hread)
  have hstore : ∀ limit, searchMessagesBy engine.read ⟨path, some db⟩ pattern limit =
      .ok (Database.limited limit (found.map Match.hit)) := fun limit =>
    (searchMessagesBy_of_ok hread path db limit).trans (hsearch limit)
  refine ⟨found, hstore 0, fun limit hlimit => ?_, hmem,
    Match.nodup_of_precedes (fun m hm => (hmem m).mp hm) hprecedes, hprecedes⟩
  rw [hstore limit, Database.limited, if_neg hlimit]

/-- After every run a pattern finds the matches on the shelf, each once, and a limit cuts them off.
A text that is no pattern is refused by every open store. So it is with every engine that finds
parts of texts, and with that of the patterns. -/
theorem searchMessages_play (path : Option String) (start : Int64)
    (run : List (Int64 × Operation)) (pattern : String) :
    let store := (Store.fresh path start).play run
    let shelf := Shelf.play [] (Store.fresh path start) run
    (∀ engine : SpanEngine,
      match engine.read pattern with
      | .ok find => AnswersMatches find shelf (store.searchMessagesBy engine.read pattern)
      | .error fault => ∀ (path : Option String) (db : Database) (limit : Nat),
          (Store.mk path (some db)).searchMessagesBy engine.read pattern limit =
            .error (.invalidPattern pattern fault)) ∧
    match Pattern.compile pattern with
    | .ok compiled => AnswersMatches compiled.find shelf (store.searchMessages pattern)
    | .error fault => ∀ (path : Option String) (db : Database) (limit : Nat),
        (Store.mk path (some db)).searchMessages pattern limit =
          .error (.invalidPattern pattern fault) := by
  have hempty : Tied (fun _ => True) (Database.new start) [] := .nil
  obtain ⟨db, hrun, hsound, htied⟩ :=
    hempty.play (Database.sound_new start) path run fun step _ => step.2.saves_true
  intro store shelf
  simp only [store, Store.fresh, hrun]
  refine ⟨fun engine => ?_, ?_⟩
  · cases hread : engine.read pattern with
    | ok find => exact htied.answersMatches hsound path engine hread
    | error fault => exact fun path db => searchMessagesBy_of_error hread ⟨path, some db⟩
  · cases hcompile : Pattern.compile pattern with
    | ok compiled =>
      exact htied.answersMatches hsound path .ofPatterns (patternEngine_of_ok hcompile)
    | error fault =>
      exact fun path db =>
        searchMessagesBy_of_error (patternEngine_of_error hcompile) ⟨path, some db⟩

end Store

end SessionArchive
