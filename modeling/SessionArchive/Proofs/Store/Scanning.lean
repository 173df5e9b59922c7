import SessionArchive.Proofs.Except
import SessionArchive.Proofs.Store.Snippet
import SessionArchive.Store

/-!
# Scanning messages

A scan of rows that can all be read yields their hits in order, and with a limit the first ones of
them, although it stops early. Other scans fail at a row with a value of another kind
(`exists_of_scan_error`): around a match there is always a snippet, which `snippet?_defined` says of
whole searches.
-/

set_option autoImplicit false

namespace SessionArchive.Store

/-! ## Scans -/

section Scans

variable {find : Matcher} {hit : MessageRow → Option SearchHit} {rows : List MessageRow}

/-- What is done to the hits of a scan while the messages are counted. -/
theorem map_fst_counted (change : List SearchHit → List SearchHit)
    (scanned : Except Fault (List SearchHit × Nat)) :
    (scanned >>= fun found => .ok (change found.1, found.2 + 1)).map Prod.fst =
      (scanned.map Prod.fst).map change := by
  cases scanned with
  | error fault => rfl
  | ok found => rfl

theorem scan_none (h : ∀ row ∈ rows, scanRow find row = .ok (hit row)) :
    (scan find none rows).map Prod.fst = .ok (rows.filterMap hit) := by
  induction rows with
  | nil => rfl
  | cons row rest ih =>
    obtain ⟨hfirst, hrest⟩ := List.forall_mem_cons.mp h
    rw [scan, hfirst, ok_bind]
    cases hrow : hit row with
    | none =>
      rw [List.filterMap_cons_none hrow]
      refine (map_fst_counted id _).trans ?_
      rw [ih hrest]
      rfl
    | some found =>
      rw [List.filterMap_cons_some hrow]
      refine (map_fst_counted (found :: ·) _).trans ?_
      rw [ih hrest]
      rfl

/-- A scan that is to find some number of hits finds the first ones. -/
theorem scan_some (h : ∀ row ∈ rows, scanRow find row = .ok (hit row)) (more : Nat) :
    (scan find (some (more + 1)) rows).map Prod.fst =
      .ok ((rows.filterMap hit).take (more + 1)) := by
  induction rows generalizing more with
  | nil => rfl
  | cons row rest ih =>
    obtain ⟨hfirst, hrest⟩ := List.forall_mem_cons.mp h
    rw [scan, hfirst, ok_bind]
    cases hrow : hit row with
    | none =>
      rw [List.filterMap_cons_none hrow]
      refine (map_fst_counted id _).trans ?_
      rw [ih hrest]
      rfl
    | some found =>
      rw [List.filterMap_cons_some hrow, List.take_succ_cons]
      -- the scan ends with the last hit that is asked for
      cases more with
      | zero => rfl
      | succ more =>
        refine (map_fst_counted (found :: ·) _).trans ?_
        rw [ih hrest]
        rfl

/-- A limit keeps the first hits, and a limit of zero all. -/
theorem scan_limited (h : ∀ row ∈ rows, scanRow find row = .ok (hit row)) (limit : Nat) :
    (scan find (if limit = 0 then none else some limit) rows).map Prod.fst =
      .ok (Database.limited limit (rows.filterMap hit)) := by
  cases limit with
  | zero => exact scan_none h
  | succ more => exact scan_some h more

end Scans

/-! ## Where a scan fails -/

/-- A stored value that is not of the kind of its column. -/
inductive Fault.OfValue : Fault → Prop
  | wrongKind (kind : CellKind) (index : Nat) (column : String) :
      OfValue (.wrongKind kind index column)
  | brokenText (index : Nat) (fault : Text.Utf8.Fault) : OfValue (.brokenText index fault)

theorem Fault.OfValue.ne_noSnippet {fault : Fault} (h : fault.OfValue) (start stop : Nat) :
    fault ≠ .noSnippet start stop := by
  cases h with
  | wrongKind => exact nofun
  | brokenText => exact nofun

section Faults

variable {find : Matcher} {row : MessageRow} {rows : List MessageRow} {fault : Fault}
  {index : Nat} {column : String} {cell : Cell}

theorem ofValue_of_toInt (h : cell.toInt index column = .error fault) : fault.OfValue := by
  cases cell with
  | integer n => cases h
  | real x => cases h; exact .wrongKind _ _ _
  | text s => cases h; exact .wrongKind _ _ _
  | rawText bytes => cases h; exact .wrongKind _ _ _
  | blob bytes => cases h; exact .wrongKind _ _ _

theorem ofValue_of_toText (h : cell.toText index column = .error fault) : fault.OfValue := by
  cases cell with
  | integer n => cases h; exact .wrongKind _ _ _
  | real x => cases h; exact .wrongKind _ _ _
  | text s => cases h
  | rawText bytes =>
    simp only [Cell.toText] at h
    split at h
    · cases h
    · cases h
      exact .brokenText _ _
  | blob bytes => cases h; exact .wrongKind _ _ _

/-- A hit cannot be made where a value of the row is of another kind, or no snippet lies between the
offsets. -/
theorem hitOf_error {content : String} {span : Nat × Nat}
    (h : hitOf row content span = .error fault) :
    fault.OfValue ∨ snippet? content.toList span.1 span.2 snippetRadius = none := by
  rw [hitOf] at h
  rcases bind_eq_error_iff.mp h with hsequence | ⟨sequence, _, h⟩
  · exact .inl (ofValue_of_toInt hsequence)
  rcases bind_eq_error_iff.mp h with hrole | ⟨role, _, h⟩
  · exact .inl (ofValue_of_toText hrole)
  cases hshown : snippet? content.toList span.1 span.2 snippetRadius with
  | none => exact .inr rfl
  | some shown =>
    rw [hshown] at h
    rcases bind_eq_error_iff.mp h with htime | ⟨time, _, h⟩
    · exact .inl (ofValue_of_toInt htime)
    · cases h

/-- Around the matches of an engine that finds parts of a text there is always a snippet. -/
theorem scanRow_error
    (hspans : ∀ text span, find text = some span → Pattern.Spans text.toList span)
    (h : scanRow find row = .error fault) : fault.OfValue := by
  rw [scanRow] at h
  rcases bind_eq_error_iff.mp h with hcontent | ⟨content, _, h⟩
  · exact ofValue_of_toText hcontent
  cases hfound : find content with
  | none =>
    rw [hfound] at h
    cases h
  | some span =>
    rw [hfound] at h
    -- the engine finds parts of the text, which can always be cut out of it
    rcases hitOf_error (map_eq_error_iff.mp h) with hvalue | hnone
    · exact hvalue
    · obtain ⟨before, matched, after, htext, rfl⟩ := hspans content span hfound
      rw [htext, snippet?_append] at hnone
      cases hnone

/-- A scan fails at a row that cannot be read. -/
theorem exists_of_scan_error {wanted : Option Nat} (h : scan find wanted rows = .error fault) :
    ∃ row ∈ rows, scanRow find row = .error fault := by
  induction rows generalizing wanted with
  | nil => cases h
  | cons row rest ih =>
    -- what a scan does with the hits of the rest does not make it fail
    have hlater : ∀ (wanted : Option Nat) (change : List SearchHit → List SearchHit),
        (scan find wanted rest >>= fun found => Except.ok (change found.1, found.2 + 1)) =
          .error fault → ∃ other ∈ row :: rest, scanRow find other = .error fault := by
      intro wanted change hbind
      rcases bind_eq_error_iff.mp hbind with hrest | ⟨found, _, hfound⟩
      · obtain ⟨other, hmem, herror⟩ := ih hrest
        exact ⟨other, List.mem_cons_of_mem _ hmem, herror⟩
      · cases hfound
    rw [scan] at h
    rcases bind_eq_error_iff.mp h with hfirst | ⟨hit, _, h⟩
    · exact ⟨row, List.mem_cons_self, hfirst⟩
    cases hit with
    | none => exact hlater wanted id h
    | some hit =>
      match wanted, h with
      | none, h => exact hlater none (hit :: ·) h
      | some 0, h => cases h
      | some 1, h => cases h
      | some (more + 2), h => exact hlater (some (more + 1)) (hit :: ·) h

end Faults

/-! ## Searches by an engine -/

section Engines

variable {engine : Engine} {pattern : String}

theorem searchMessagesBy_of_ok {find : Matcher} (h : engine pattern = .ok find)
    (path : Option String) (db : Database) (limit : Nat) :
    searchMessagesBy engine ⟨path, some db⟩ pattern limit =
      (db.searchMessages pattern find limit).map Prod.fst := by
  simp only [searchMessagesBy, searchScannedBy, h, Store.query]

/-- A text that is no pattern is refused whatever the store. -/
theorem searchMessagesBy_of_error {fault : Pattern.Fault} (h : engine pattern = .error fault)
    (store : Store) (limit : Nat) :
    searchMessagesBy engine store pattern limit = .error (.invalidPattern pattern fault) := by
  simp only [searchMessagesBy, searchScannedBy, h, map_error]

theorem patternEngine_of_ok {compiled : Pattern} (h : Pattern.compile pattern = .ok compiled) :
    patternEngine pattern = .ok compiled.find := by
  rw [patternEngine, h, map_ok]

theorem patternEngine_of_error {fault : Pattern.Fault}
    (h : Pattern.compile pattern = .error fault) : patternEngine pattern = .error fault := by
  rw [patternEngine, h, map_error]

end Engines

/-! ## Where a search fails -/

theorem exists_of_requireAll_error {db : Database} {tables : List TableName} {failure : Failure}
    (h : db.requireAll tables = .error failure) :
    ∃ table : TableName, failure = .database (.noTable table.name) := by
  induction tables with
  | nil => cases h
  | cons table rest ih =>
    rw [Database.requireAll] at h
    split at h
    · cases h
      exact ⟨table, rfl⟩
    · exact ih h

section Searches

variable {pattern : String} {limit : Nat} {failure : Failure}

/-- A search of an engine that finds parts of a text fails for a table that is missing or a stored
value of another kind. -/
theorem exists_of_searchMessages_error {find : Matcher} {db : Database}
    (hspans : ∀ text span, find text = some span → Pattern.Spans text.toList span)
    (h : db.searchMessages pattern find limit = .error failure) :
    ∃ fault, failure = .query "search_messages" pattern fault ∧
      ((∃ table : TableName, fault = .noTable table.name) ∨ fault.OfValue) := by
  obtain ⟨first, hread, rfl⟩ := mapError_eq_error_iff.mp h
  rcases bind_eq_error_iff.mp hread with htables | ⟨_, _, hfound⟩
  · obtain ⟨table, rfl⟩ := exists_of_requireAll_error htables
    exact ⟨_, rfl, .inl ⟨table, rfl⟩⟩
  · obtain ⟨fault, hscan, rfl⟩ := mapError_eq_error_iff.mp hfound
    obtain ⟨row, _, hrow⟩ := exists_of_scan_error hscan
    exact ⟨fault, rfl, .inr (scanRow_error hspans hrow)⟩

/-- A store refuses a pattern, is closed, or has a database that cannot be searched. -/
theorem searchMessages_error_cases {store : Store}
    (h : store.searchMessages pattern limit = .error failure) :
    failure = .storeClosed ∨ (∃ source, failure = .invalidPattern pattern source) ∨
      ∃ compiled : Pattern, ∃ db : Database,
        db.searchMessages pattern compiled.find limit = .error failure := by
  rw [Store.searchMessages] at h
  cases hcompile : Pattern.compile pattern with
  | error source =>
    rw [searchMessagesBy_of_error (patternEngine_of_error hcompile)] at h
    cases h
    exact .inr (.inl ⟨source, rfl⟩)
  | ok compiled =>
    have hscanned := map_eq_error_iff.mp h
    rw [searchScannedBy, patternEngine_of_ok hcompile] at hscanned
    cases hopen : store.database with
    | none =>
      simp only [Store.query, hopen] at hscanned
      cases hscanned
      exact .inl rfl
    | some db =>
      simp only [Store.query, hopen] at hscanned
      exact .inr (.inr ⟨compiled, db, hscanned⟩)

end Searches

/-- There is a snippet exactly where one can be cut out, crossed offsets included, and it is the
part of the text between the two offsets that are computed. So no search is ended by a match without
a snippet, whatever is stored: neither with an engine whose matches start no later than they stop,
each between two characters, nor with the engine of patterns. -/
theorem snippet?_defined :
    (∀ (text : List Char) (start stop radius : Nat),
      (snippet? text start stop radius = none ↔ Uncuttable text start stop radius) ∧
      (¬Uncuttable text start stop radius →
        ∃ before behind front after shown, text = before ++ behind ∧ start = Text.Utf8.size before ∧
          text = front ++ after ∧ stop = Text.Utf8.size front ∧
          snippet? text start stop radius = some shown ∧
          IsPart text (Text.Utf8.size (before.rdrop radius))
            (Text.Utf8.size (front ++ after.take radius)) shown)) ∧
    (∀ find : Matcher,
      (∀ text span, find text = some span → span.1 ≤ span.2 ∧
        Pattern.IsPlace text.toList span.1 ∧ Pattern.IsPlace text.toList span.2) →
      ∀ (db : Database) (pattern : String) (limit : Nat) (failure : Failure),
        db.searchMessages pattern find limit = .error failure →
          ∃ fault, failure = .query "search_messages" pattern fault ∧
            ∀ start stop, fault ≠ .noSnippet start stop) ∧
    ∀ (store : Store) (pattern : String) (limit : Nat) (failure : Failure),
      store.searchMessages pattern limit = .error failure →
        failure = .storeClosed ∨ (∃ source, failure = .invalidPattern pattern source) ∨
          ∃ fault, failure = .query "search_messages" pattern fault ∧
            ∀ start stop, fault ≠ .noSnippet start stop := by
  have hsearch : ∀ {find : Matcher} {db : Database} {pattern : String} {limit : Nat}
      {failure : Failure},
      (∀ text span, find text = some span → Pattern.Spans text.toList span) →
      db.searchMessages pattern find limit = .error failure →
        ∃ fault, failure = .query "search_messages" pattern fault ∧
          ∀ start stop, fault ≠ .noSnippet start stop := by
    intro find db pattern limit failure hspans herror
    obtain ⟨fault, rfl, hfault⟩ := exists_of_searchMessages_error hspans herror
    refine ⟨fault, rfl, ?_⟩
    rcases hfault with ⟨table, rfl⟩ | hvalue
    · exact nofun
    · exact hvalue.ne_noSnippet
  refine ⟨fun text start stop radius => ⟨snippet?_eq_none_iff, fun hcuttable => ?_⟩, ?_, ?_⟩
  · obtain ⟨shown, hshown⟩ :=
      Option.ne_none_iff_exists'.mp (mt snippet?_eq_none_iff.mp hcuttable)
    obtain ⟨before, behind, front, after, hbefore, rfl, hfront, rfl⟩ := exists_of_snippet? hshown
    exact ⟨before, behind, front, after, shown, hbefore, rfl, hfront, rfl, hshown,
      (snippet?_eq_some_iff hbefore hfront).mp hshown⟩
  · intro find hplaces db pattern limit failure
    apply hsearch
    intro text span hfound
    obtain ⟨hle, hstart, hstop⟩ := hplaces text span hfound
    exact spans_of_isPlace hstart hstop hle
  · intro store pattern limit failure herror
    rcases searchMessages_error_cases herror with hclosed | hpattern | ⟨compiled, db, hfound⟩
    · exact .inl hclosed
    · exact .inr (.inl hpattern)
    · exact .inr (.inr (hsearch (fun _ _ => Pattern.find_spans) hfound))

/-- Three letters lie between two crossed offsets: with a radius of one there is no snippet, with a
radius of two it is the letter in the middle. -/
theorem snippet?_defined_crossed :
    let text := ['a', 'b', 'c', 'd', 'e']
    Uncuttable text 4 1 1 ∧ snippet? text 4 1 1 = none ∧ snippet? text 4 1 2 = some ['c'] := by
  intro text
  have hcrossed : Uncuttable text 4 1 1 :=
    .crossed ['a'] ['b', 'c', 'd'] ['e'] rfl (by decide) (by decide) (by decide)
  exact ⟨hcrossed, (snippet?_defined.1 text 4 1 1).1.mpr hcrossed, by decide⟩

/-- An engine that reports an offset inside a letter does end a search. -/
example : hitOf ⟨1, "s", .integer 0, .text "user", .text "é", .integer 0⟩ "é" (1, 1) =
    .error (.noSnippet 1 1) := by
  decide

end SessionArchive.Store
