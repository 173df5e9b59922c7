import SessionArchive.Session
import SessionArchive.History
import SessionArchive.Store.Report
import SessionArchive.Store.Search
import SessionArchive.Proofs.Json.Arrangement

/-!
# Encodings that read back

What is encoded for others to read means the value it was made from: scopes, entries of history,
hits of a search, counts of rows, reports of a retention pass and summaries of sessions are read
back from every text of their encoding, with members in any order (`readsBack_encodings`). A summary
shares its object with the four members of its scope, which are picked from what its own fields
leave.
-/

set_option autoImplicit false

namespace SessionArchive

open Json (Field Reader Entry IsTextOf Takes Values Slots entriesOf greatestDepth)

namespace Json

variable {α : Type}

/-- Every text that means a JSON value is read as `a`, and so are the printed forms of the value. -/
structure ReadsBack (reader : Reader α) (v : Json) (a : α) : Prop where
  any : ∀ t, IsTextOf v t → read reader t = .ok a
  compact : read reader v.compact = .ok a
  indented : read reader (v.indented 0) = .ok a

theorem readsBack_of_takes {reader : Reader α} {v : Json} {a : α} (hintegral : v.Integral)
    (h : ∀ t, IsTextOf v t → Takes (reader greatestDepth) t a) : ReadsBack reader v a := by
  have hany : ∀ t, IsTextOf v t → read reader t = .ok a := fun t ht => read_of_takes (h t ht)
  exact ⟨hany, hany _ (isTextOf_compact v hintegral), hany _ (isTextOf_indented v hintegral 0)⟩

theorem Field.answers_required {name : String} {reader : Reader α} {depth : Nat} {v : Json} {a : α}
    (h : ∀ t, IsTextOf v t → Takes (reader depth) t a) :
    (Field.required name reader).Answers (Field.TakesAt depth) a ⟨name, IsTextOf v, False⟩ :=
  ⟨rfl, h, False.elim⟩

/-- A record that has a field for each member of an object is read from every text of the object. -/
theorem takes_record_of_isTextOf {description : String} {fields : List (Field Reader)}
    {build : Values fields → α} {depth : Nat} {values : Values fields}
    {members : List (String × Json)} {t : List Char} (hnodup : (fields.map Field.name).Nodup)
    (hanswer : Values.Answer (Field.TakesAt depth) fields values (entriesOf members))
    (h : IsTextOf (.object members) t) :
    Takes (readRecord description fields build (depth + 1)) t (build values) := by
  have hkeys := hanswer.keys
  rw [entriesOf, List.map_map] at hkeys
  exact takes_arrangement hnodup (fun _ => False.elim) hanswer
    (h.isArrangement (hkeys.symm ▸ hnodup))

end Json

/-! ## Scopes -/

namespace Scope

theorem answer (scope : Scope) (depth : Nat) :
    Values.Answer (Field.TakesAt depth) (fields Json.readString)
      (scope.host, scope.org, scope.project, scope.branch, ()) (entriesOf scope.members) :=
  ⟨Field.answers_required fun _ h => Json.takes_readString h depth,
   Field.answers_required fun _ h => Json.takes_readString h depth,
   Field.answers_required fun _ h => Json.takes_readString h depth,
   Field.answers_required fun _ h => Json.takes_readString h depth, trivial⟩

theorem takes_read {scope : Scope} {t : List Char} (h : IsTextOf scope.toJson t) (depth : Nat) :
    Takes (Scope.read (depth + 1)) t scope :=
  Json.takes_record_of_isTextOf (by decide) (scope.answer depth) h

theorem readsBack (scope : Scope) : Json.ReadsBack Scope.read scope.toJson scope :=
  Json.readsBack_of_takes (by simp [toJson, members]) fun _ h => takes_read h 126

end Scope

/-! ## Entries of history -/

theorem HistoryEntry.readsBack {entry : HistoryEntry}
    (hid : -0x8000000000000000 ≤ entry.id ∧ entry.id < 0x8000000000000000)
    (hbranch : -0x8000000000000000 ≤ entry.branchId ∧ entry.branchId < 0x8000000000000000) :
    Json.ReadsBack HistoryEntry.read entry.toJson entry := by
  refine Json.readsBack_of_takes (by simp [toJson]) fun _ h =>
    Json.takes_record_of_isTextOf (by decide) (?_ : Values.Answer _ fields
      (entry.id, entry.branchId, entry.text, entry.timestamp, ()) _) h
  exact ⟨Field.answers_required fun _ h => Json.takes_readSigned h hid.1 hid.2 126,
    Field.answers_required fun _ h => Json.takes_readSigned h hbranch.1 hbranch.2 126,
    Field.answers_required fun _ h => Json.takes_readString h 126,
    Field.answers_required fun _ h => Json.takes_readInt64 h 126, trivial⟩

/-! ## Hits, counts and reports -/

namespace Store

theorem SearchHit.readsBack (hit : SearchHit) :
    Json.ReadsBack SearchHit.read hit.toJson hit := by
  refine Json.readsBack_of_takes (by simp [toJson]) fun _ h =>
    Json.takes_record_of_isTextOf (by decide) (?_ : Values.Answer _ fields
      (hit.sessionId, hit.sequence, hit.role, hit.snippet, hit.createdAt, ()) _) h
  exact ⟨Field.answers_required fun _ h => Json.takes_readString h 126,
    Field.answers_required fun _ h => Json.takes_readInt64 h 126,
    Field.answers_required fun _ h => Json.takes_readString h 126,
    Field.answers_required fun _ h => Json.takes_readString h 126,
    Field.answers_required fun _ h => Json.takes_readInt64 h 126, trivial⟩

/-- All counts fit in an unsigned word. -/
structure StoreStats.Fits (stats : StoreStats) : Prop where
  repositories : stats.repositories < 0x10000000000000000
  branches : stats.branches < 0x10000000000000000
  sessions : stats.sessions < 0x10000000000000000
  messages : stats.messages < 0x10000000000000000
  promptHistory : stats.promptHistory < 0x10000000000000000
  commandHistory : stats.commandHistory < 0x10000000000000000

theorem StoreStats.readsBack {stats : StoreStats} (hfits : stats.Fits) :
    Json.ReadsBack StoreStats.read stats.toJson stats := by
  refine Json.readsBack_of_takes (by simp [toJson]) fun _ h =>
    Json.takes_record_of_isTextOf (by decide) (?_ : Values.Answer _ fields
      (stats.repositories, stats.branches, stats.sessions, stats.messages, stats.promptHistory,
        stats.commandHistory, ()) _) h
  exact ⟨Field.answers_required fun _ h => Json.takes_readCount h hfits.repositories 126,
    Field.answers_required fun _ h => Json.takes_readCount h hfits.branches 126,
    Field.answers_required fun _ h => Json.takes_readCount h hfits.sessions 126,
    Field.answers_required fun _ h => Json.takes_readCount h hfits.messages 126,
    Field.answers_required fun _ h => Json.takes_readCount h hfits.promptHistory 126,
    Field.answers_required fun _ h => Json.takes_readCount h hfits.commandHistory 126, trivial⟩

theorem CleanupReport.readsBack {report : CleanupReport}
    (hexpired : report.expired < 0x10000000000000000)
    (hover : report.overLimit < 0x10000000000000000) :
    Json.ReadsBack CleanupReport.read report.toJson report := by
  refine Json.readsBack_of_takes (by simp [toJson]) fun _ h =>
    Json.takes_record_of_isTextOf (by decide) (?_ : Values.Answer _ fields
      (report.expired, report.overLimit, ()) _) h
  exact ⟨Field.answers_required fun _ h => Json.takes_readCount h hexpired 126,
    Field.answers_required fun _ h => Json.takes_readCount h hover 126, trivial⟩

end Store

/-! ## Summaries of sessions -/

namespace SessionSummary

/-- The members of a summary beside those of its scope. -/
def ownMembers (summary : SessionSummary) : List (String × Json) :=
  [("id", .string summary.id), ("created_at", .int summary.createdAt.toInt),
   ("last_updated", .int summary.lastUpdated.toInt),
   ("first_prompt", .string summary.firstPrompt), ("provider", .string summary.provider),
   ("model", .string summary.model), ("working_dir", .string summary.workingDir),
   ("message_count", .nat summary.messageCount)]

/-- The members of a summary as they are printed. -/
def members (summary : SessionSummary) : List (String × Json) :=
  summary.ownMembers.take 1 ++ summary.scope.members ++ summary.ownMembers.drop 1

theorem members_perm (summary : SessionSummary) :
    summary.members.Perm (summary.ownMembers ++ summary.scope.members) := by
  have hlater : (summary.scope.members ++ summary.ownMembers.drop 1).Perm
      (summary.ownMembers.drop 1 ++ summary.scope.members) := List.perm_append_comm
  have hswap := hlater.append_left (summary.ownMembers.take 1)
  rwa [← List.append_assoc, ← List.append_assoc, List.take_append_drop] at hswap

theorem nodup_members (summary : SessionSummary) : (summary.members.map Prod.fst).Nodup := by
  simp [members, ownMembers, Scope.members]

theorem answer {summary : SessionSummary} (hcount : summary.messageCount < 0x10000000000000000)
    (depth : Nat) :
    Values.Answer (Field.TakesAt depth) fields
      (summary.id, summary.createdAt, summary.lastUpdated, summary.firstPrompt, summary.provider,
        summary.model, summary.workingDir, summary.messageCount, ())
      (entriesOf summary.ownMembers) :=
  ⟨Field.answers_required fun _ h => Json.takes_readString h depth,
   Field.answers_required fun _ h => Json.takes_readInt64 h depth,
   Field.answers_required fun _ h => Json.takes_readInt64 h depth,
   Field.answers_required fun _ h => Json.takes_readString h depth,
   Field.answers_required fun _ h => Json.takes_readString h depth,
   Field.answers_required fun _ h => Json.takes_readString h depth,
   Field.answers_required fun _ h => Json.takes_readString h depth,
   Field.answers_required fun _ h => Json.takes_readCount h hcount depth, trivial⟩

/-- The members of a scope as they are picked. -/
def scopeEntries (scope : Scope) : List (Entry Json) :=
  scope.members.map fun m => ⟨m.1, (· = m.2), False⟩

theorem pickFields_scope {scope : Scope} {others : List (String × Json)}
    (h : ∀ e ∈ scopeEntries scope, e.IsMet others) :
    Json.pickFields (Scope.fields Json.pickString) others =
      .ok (scope.host, scope.org, scope.project, scope.branch, ()) := by
  refine Json.pickFields_arrangement (by decide) ?_ h
  refine ⟨⟨rfl, ?_, False.elim⟩, ⟨rfl, ?_, False.elim⟩, ⟨rfl, ?_, False.elim⟩,
    ⟨rfl, ?_, False.elim⟩, trivial⟩
  all_goals
    rintro _ rfl
    rfl

/-- No member of a scope has the key of a field of a summary. -/
theorem not_mem_fields_of_mem_scope {scope : Scope} {m : String × Json} (h : m ∈ scope.members) :
    m.1 ∉ fields.map Field.name := by
  have hkeys : ∀ key ∈ ["host", "org", "project", "branch"], key ∉ fields.map Field.name := by
    decide
  exact hkeys m.1 (List.mem_map_of_mem h)

theorem string_of_mem_scope {scope : Scope} {m : String × Json} (h : m ∈ scope.members) :
    ∃ s, m.2 = .string s := by
  simp only [Scope.members, List.mem_cons, List.not_mem_nil, or_false] at h
  rcases h with rfl | rfl | rfl | rfl <;> exact ⟨_, rfl⟩

/-- The texts of a scope's members are read as strings, which make up the scope. -/
theorem isMet_scopeEntries {summary : SessionSummary} {depth : Nat}
    {members : List (String × List Char)} {others : List (String × Json)}
    (hmet : ∀ e ∈ entriesOf summary.scope.members, e.IsMet members)
    (hbecome : Json.Become (Takes (Json.anyValue depth))
      (members.filter fun m => !(fields.map Field.name).contains m.1) others) :
    ∀ e ∈ scopeEntries summary.scope, e.IsMet others := by
  intro e he
  obtain ⟨m, hm, rfl⟩ := List.mem_map.mp he
  obtain ⟨s, hs⟩ := string_of_mem_scope hm
  have hkept := (hmet _ (List.mem_map_of_mem hm)).filter
    (p := fun key => !(fields.map Field.name).contains key)
    (by simpa using not_mem_fields_of_mem_scope hm)
  refine hkept.become hbecome rfl (fun t w htext htakes => ?_) False.elim
  rw [hs] at htext ⊢
  exact htakes.unique (Json.takes_anyValue_string htext depth)

theorem passesBlanks_read (depth : Nat) : Json.PassesBlanks (SessionSummary.read depth) := by
  intro cs
  simp only [SessionSummary.read, Json.skipBlanks_skipBlanks]

theorem takes_read {summary : SessionSummary}
    (hcount : summary.messageCount < 0x10000000000000000) {t : List Char}
    (h : IsTextOf summary.toJson t) (depth : Nat) :
    Takes (SessionSummary.read (depth + 1)) t summary := by
  obtain @⟨members, hobject, harranges⟩ := h.isArrangement summary.nodup_members
  refine hobject.takes (passesBlanks_read (depth + 1)) ?_
  intro texts close rest htexts hclose
  have hmet : ∀ m ∈ summary.ownMembers ++ summary.scope.members,
      (⟨m.1, IsTextOf m.2, False⟩ : Entry (List Char)).IsMet members := fun m hm =>
    harranges.known _ (List.mem_map_of_mem (summary.members_perm.mem_iff.mpr hm))
  have hown : ∀ e ∈ entriesOf summary.ownMembers, e.IsMet members := by
    rw [entriesOf, List.forall_mem_map]
    exact fun m hm => hmet m (List.mem_append_left _ hm)
  have hscope : ∀ e ∈ entriesOf summary.scope.members, e.IsMet members := by
    rw [entriesOf, List.forall_mem_map]
    exact fun m hm => hmet m (List.mem_append_right _ hm)
  -- what is not the summary's own is its scope's, and a string
  have hothers : ∀ m ∈ members, m.1 ∉ fields.map Field.name →
      ∃ w, Takes (Json.anyValue depth) m.2 w := by
    intro m hm hnot
    have hkey : m.1 ∈ (entriesOf summary.members).map Entry.key := by
      by_contra hkey
      exact harranges.further m hm hkey
    obtain ⟨e, he, hekey⟩ := List.mem_map.mp hkey
    obtain ⟨o, ho, rfl⟩ := List.mem_map.mp he
    rcases List.mem_append.mp (summary.members_perm.mem_iff.mp ho) with ho | ho
    · refine absurd ?_ hnot
      rw [← (answer hcount depth).keys, ← hekey]
      exact List.mem_map_of_mem (List.mem_map_of_mem ho)
    · obtain ⟨s, hs⟩ := string_of_mem_scope ho
      have htext := (hmet o (List.mem_append_right _ ho)).holds_of_mem hm hekey.symm
      rw [hs] at htext
      exact ⟨.string s, Json.takes_anyValue_string htext depth⟩
  have hsteps := Json.length_lt_steps texts (Json.memberTexts_ne_nil htexts) close
  obtain ⟨slots, others, hread, hawait, hbecome⟩ :=
    ((answer hcount depth).await hown).keepMembers (by decide) htexts hothers true hsteps hclose
  have hpick := pickFields_scope (isMet_scopeEntries hscope hbecome)
  have hinside : readInside depth (Json.joined true texts ++ close) =
      .ok (summary, '}' :: rest) := by
    simp only [readInside, hread, ok_bind, Slots.finishAt, hawait.finish, hpick]
    rfl
  rw [SessionSummary.read, Json.skipBlanks_cons _ (by decide)]
  exact Json.enclosed_of_ok hinside (Json.closeObject_bracket rest)

theorem readsBack {summary : SessionSummary}
    (hcount : summary.messageCount < 0x10000000000000000) :
    Json.ReadsBack SessionSummary.read summary.toJson summary :=
  Json.readsBack_of_takes (by simp [toJson, Scope.members]) fun _ h => takes_read hcount h 126

end SessionSummary

/-! ## All of them -/

/-- Every encoding of these types is read as the value it was made from, with its members in any
order: strings hold any characters, integers are any of 64 bits. -/
theorem readsBack_encodings :
    (∀ summary : SessionSummary, summary.messageCount < 0x10000000000000000 →
      Json.ReadsBack SessionSummary.read summary.toJson summary) ∧
    (∀ hit : Store.SearchHit, Json.ReadsBack Store.SearchHit.read hit.toJson hit) ∧
    (∀ entry : HistoryEntry, -0x8000000000000000 ≤ entry.id ∧ entry.id < 0x8000000000000000 →
      -0x8000000000000000 ≤ entry.branchId ∧ entry.branchId < 0x8000000000000000 →
      Json.ReadsBack HistoryEntry.read entry.toJson entry) ∧
    (∀ scope : Scope, Json.ReadsBack Scope.read scope.toJson scope) ∧
    (∀ stats : Store.StoreStats, stats.Fits →
      Json.ReadsBack Store.StoreStats.read stats.toJson stats) ∧
    (∀ report : Store.CleanupReport, report.expired < 0x10000000000000000 →
      report.overLimit < 0x10000000000000000 →
      Json.ReadsBack Store.CleanupReport.read report.toJson report) :=
  ⟨fun _ => SessionSummary.readsBack, Store.SearchHit.readsBack,
    fun _ => HistoryEntry.readsBack, Scope.readsBack, fun _ => Store.StoreStats.readsBack,
    fun _ => Store.CleanupReport.readsBack⟩

/-- A summary with the greatest count and the least time, and characters that are escaped. -/
def extremeSummary : SessionSummary :=
  ⟨"\x00\"\\", ⟨"host", "é/😀", "", "branch"⟩, Int64.minValue, Int64.maxValue, "\n", "", "", "/",
    0xFFFFFFFFFFFFFFFF⟩

/-- The bounds that are asked of integers are reached. -/
theorem readsBack_encodings_extremes :
    (extremeSummary.messageCount < 0x10000000000000000 ∧
      Json.ReadsBack SessionSummary.read extremeSummary.toJson extremeSummary) ∧
    ((-0x8000000000000000 ≤ (-0x8000000000000000 : Int) ∧
        (-0x8000000000000000 : Int) < 0x8000000000000000) ∧
      (-0x8000000000000000 ≤ (0x7FFFFFFFFFFFFFFF : Int) ∧
        (0x7FFFFFFFFFFFFFFF : Int) < 0x8000000000000000) ∧
      Json.ReadsBack HistoryEntry.read
        (HistoryEntry.mk (-0x8000000000000000) 0x7FFFFFFFFFFFFFFF "\"" 0).toJson
        ⟨-0x8000000000000000, 0x7FFFFFFFFFFFFFFF, "\"", 0⟩) ∧
    (Store.StoreStats.Fits ⟨0, 1, 2, 3, 4, 0xFFFFFFFFFFFFFFFF⟩ ∧
      Json.ReadsBack Store.StoreStats.read
        (Store.StoreStats.mk 0 1 2 3 4 0xFFFFFFFFFFFFFFFF).toJson
        ⟨0, 1, 2, 3, 4, 0xFFFFFFFFFFFFFFFF⟩) ∧
    (0xFFFFFFFFFFFFFFFF < 0x10000000000000000 ∧ 0 < 0x10000000000000000 ∧
      Json.ReadsBack Store.CleanupReport.read
        (Store.CleanupReport.mk 0xFFFFFFFFFFFFFFFF 0).toJson ⟨0xFFFFFFFFFFFFFFFF, 0⟩) := by
  have hstats : Store.StoreStats.Fits ⟨0, 1, 2, 3, 4, 0xFFFFFFFFFFFFFFFF⟩ :=
    ⟨by decide, by decide, by decide, by decide, by decide, by decide⟩
  obtain ⟨hsummary, -, hentry, -, hcounts, hreport⟩ := readsBack_encodings
  exact ⟨⟨by decide, hsummary _ (by decide)⟩,
    ⟨by decide, by decide, hentry _ (by decide) (by decide)⟩, ⟨hstats, hcounts _ hstats⟩,
    ⟨by decide, by decide, hreport _ (by decide) (by decide)⟩⟩

end SessionArchive
