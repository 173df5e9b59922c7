import SessionArchive.Proofs.Store.Stream

/-!
# The latest entries

The entries of a scope are strictly in order of time and, within one second, of id, whatever the
clock did: `HistoryEntry.Before`. A limit on what is loaded and a limit on what is kept both choose
the last entries in that order (`Store.loadHistory_play`). So an entry that is added under a limit
stays unless too many of the others are of a later time (`Store.mem_loadHistory_appendHistory`),
which a clock that went back can bring about (`Store.appendHistory_of_earlier_clock`).
-/

set_option autoImplicit false

namespace SessionArchive

/-- An entry comes before another: it is of an earlier second, or of the same one with a smaller
id. -/
def HistoryEntry.Before (a b : HistoryEntry) : Prop :=
  a.timestamp < b.timestamp ∨ a.timestamp = b.timestamp ∧ a.id < b.id

theorem HistoryEntry.Before.asymm {a b : HistoryEntry} (hab : a.Before b) : ¬b.Before a := by
  rintro (htime | ⟨htime, hid⟩)
  · rcases hab with hback | ⟨hback, _⟩
    · exact Int64.lt_asymm htime hback
    · rw [hback] at htime
      exact Int64.lt_irrefl htime
  · rcases hab with hback | ⟨_, hback⟩
    · rw [htime] at hback
      exact Int64.lt_irrefl hback
    · exact Int.lt_asymm hid hback

namespace Store

theorem latestFirst_filter (p : HistoryEntry → Bool) (entries : List HistoryEntry) :
    latestFirst (entries.filter p) = (latestFirst entries).filter p := by
  refine mergeSort_filter ?_ p entries
  apply IsOrder.latest (fun e => e.timestamp.toInt) HistoryEntry.id
  intro a b
  simp [historyLe, ← Int64.toInt_inj, @eq_comm Int a.timestamp.toInt]

section Sorting

variable {entries : List HistoryEntry} (hids : entries.Pairwise fun a b => a.id ≠ b.id)

include hids

theorem pairwise_latestFirst : (latestFirst entries).Pairwise fun a b => b.Before a := by
  have hlatest : (latestFirst entries).Pairwise fun a b =>
      b.timestamp.toInt < a.timestamp.toInt ∨
        a.timestamp.toInt = b.timestamp.toInt ∧ b.id < a.id := by
    refine pairwise_mergeSort_latest (fun a _ b _ => ?_) hids
    simp [historyLe, ← Int64.toInt_inj, @eq_comm Int a.timestamp.toInt]
  apply hlatest.imp
  rintro a b (htime | ⟨htime, hid⟩)
  · exact .inl (Int64.lt_iff_toInt_lt.mpr htime)
  · exact .inr ⟨(Int64.toInt_inj.mp htime).symm, hid⟩

/-- To keep the entries whose ids are among those of the latest ones is to keep these. -/
theorem latestFirst_filter_contains (keep : Nat) :
    latestFirst (entries.filter fun entry =>
        (((latestFirst entries).take keep).map HistoryEntry.id).contains entry.id) =
      (latestFirst entries).take keep := by
  have hperm := List.mergeSort_perm entries fun a b => historyLe b a
  rw [latestFirst_filter]
  refine filter_contains_of_sublist (.refl _) (List.take_sublist _ _) ?_
  exact (hperm.pairwise_iff fun hne => hne.symm).mpr hids

end Sorting

namespace Database

variable {db : Database} {kind : HistoryKind} {scope : Scope}

/-! ## Keeping the latest entries -/

/-- What is kept of the entries of a scope are the latest ones. -/
theorem Sound.latestFirst_trimHistory (h : db.Sound) {b : Branch}
    (hscope : db.findScope? scope = some b) (keep : Nat) :
    latestFirst ((db.trimHistory kind b.id keep).entriesOf kind scope) =
      (latestFirst (db.entriesOf kind scope)).take keep := by
  have hids := (h.entriesOf_ids kind scope).imp Int.ne_of_lt
  rw [trimHistory, ← entriesOf_of_some hscope, h.entriesOf_removeOwn hscope, if_pos ⟨rfl, rfl⟩]
  simp only [Bool.not_not]
  exact latestFirst_filter_contains hids keep

/-- With an entry that is added, the latest ones are as many as are asked for. -/
theorem Sound.exists_latestFirst_appendHistory (h : db.Sound) (kind : HistoryKind) (scope : Scope)
    (text : String) (now : Int64) :
    ∃ b : Branch, ∀ maxEntries,
      (db.appendHistory kind scope text maxEntries now).findScope? scope = some b ∧
      latestFirst ((db.appendHistory kind scope text maxEntries now).entriesOf kind scope) =
        limited maxEntries (latestFirst (db.entriesOf kind scope ++
          [⟨(db.history kind).lastId + 1, b.id, text, now⟩])) := by
  obtain ⟨b, hscope, hid⟩ := h.exists_findScope?_ensureScope scope
  have hthere := (db.ensureScope_changes scope).changes.sound h
  have hentries := h.entriesOf_ensureScope scope kind scope
  have hhistory := history_ensureScope db scope kind
  simp only [Database.appendHistory, ← hid]
  generalize (db.ensureScope scope).2 = there at *
  have hb := (hthere.findScope?_eq_some_iff.mp hscope).1
  have hadded := hthere.addEntry kind text now ⟨b, hb, rfl⟩
  have haddedScope := (findScope?_addEntry there kind b.id text now scope).trans hscope
  have haddedEntries := hthere.entriesOf_addEntry hscope kind text now kind scope
  rw [if_pos ⟨rfl, rfl⟩, hentries, hhistory] at haddedEntries
  refine ⟨b, fun maxEntries => ?_⟩
  -- without a limit nothing is trimmed
  by_cases hlimit : maxEntries = 0
  · rw [if_pos hlimit, limited, if_pos hlimit, haddedEntries]
    exact ⟨haddedScope, rfl⟩
  · rw [if_neg hlimit, limited, if_neg hlimit, hadded.latestFirst_trimHistory haddedScope,
      haddedEntries]
    exact ⟨(findScope?_removeHistory _ kind _ scope).trans haddedScope, rfl⟩

/-- An entry that is added under the next id is after the others of its second, so only those of a
later time come after it. -/
theorem mem_limited_latestFirst {entries : List HistoryEntry} {entry : HistoryEntry}
    (hids : entries.Pairwise fun a b => a.id < b.id)
    (hlast : ∀ other ∈ entries, other.id < entry.id) (limit : Nat) :
    entry ∈ limited limit (latestFirst (entries ++ [entry])) ↔
      limit = 0 ∨ entries.countP (fun other => entry.timestamp < other.timestamp) < limit := by
  have hperm := List.mergeSort_perm (entries ++ [entry]) fun a b => historyLe b a
  have hall : (entries ++ [entry]).Pairwise fun a b => a.id ≠ b.id := by
    refine List.pairwise_append.mpr ⟨hids.imp Int.ne_of_lt, List.pairwise_singleton _ _, ?_⟩
    intro other hother last hmem
    rw [List.mem_singleton.mp hmem]
    exact Int.ne_of_lt (hlast other hother)
  have hentry : entry ∈ latestFirst (entries ++ [entry]) :=
    hperm.mem_iff.mpr (List.mem_append_right _ (List.mem_singleton_self entry))
  have hcount : (latestFirst (entries ++ [entry])).countP
      (fun other => entry.timestamp < other.timestamp) =
      entries.countP fun other => entry.timestamp < other.timestamp := by
    rw [latestFirst, hperm.countP_eq, List.countP_append]
    simp
  rw [limited]
  split
  · rename_i hnone
    simp [hnone, hentry]
  · rename_i hlimit
    rw [or_iff_right hlimit, ← hcount]
    refine mem_take_iff_of_pairwise (fun _ _ hab => hab.asymm) (pairwise_latestFirst hall) hentry ?_
    intro other hother
    rw [decide_eq_true_iff]
    constructor
    · exact .inl
    · rintro (htime | ⟨_, hid⟩)
      · exact htime
      · -- no other entry has an id as great as the new one
        rcases List.mem_append.mp (hperm.mem_iff.mp hother) with hold | hnew
        · exact absurd hid (Int.lt_asymm (hlast other hold))
        · rw [List.mem_singleton.mp hnew] at hid
          exact absurd hid (Int.lt_irrefl _)

end Database

/-! ## Loading and keeping -/

/-- After every run, whatever the clock did, a load answers the last entries of one list that is
strictly in order; and to keep some of the entries when a text is added and load all of them is to
keep all of them and load as many. -/
theorem loadHistory_play (path : Option String) (start : Int64) (run : List (Int64 × Operation))
    (kind : HistoryKind) (scope : Scope) :
    let store := (Store.fresh path start).play run
    ∃ all, store.loadHistory kind scope 0 = .ok all ∧ all.Pairwise HistoryEntry.Before ∧
      (∀ limit, store.loadHistory kind scope limit =
        .ok (if limit = 0 then all else all.rtake limit)) ∧
      ∀ text now limit,
        let kept := store.appendHistory kind scope text limit now
        let unlimited := store.appendHistory kind scope text 0 now
        kept.1 = .ok () ∧ unlimited.1 = .ok () ∧ ∃ entries,
          kept.2.loadHistory kind scope 0 = .ok entries ∧
          unlimited.2.loadHistory kind scope limit = .ok entries := by
  obtain ⟨db, hplay, h⟩ := play_sound path start run
  rw [hplay]
  have hload := h.toIntact.loadHistory_eq kind scope
  refine ⟨(latestFirst (db.entriesOf kind scope)).reverse, hload 0, ?_, ?_, ?_⟩
  · apply List.pairwise_reverse.mpr
    exact pairwise_latestFirst ((h.entriesOf_ids kind scope).imp Int.ne_of_lt)
  · intro limit
    refine (hload limit).trans ?_
    rw [Database.limited]
    split
    · rfl
    · rw [List.rtake_eq_reverse_take_reverse, List.reverse_reverse]
  · intro text now limit
    have happend := appendHistory_intact h.toIntact path kind scope text
    obtain ⟨b, hlatest⟩ := h.exists_latestFirst_appendHistory kind scope text now
    have hafter : ∀ maxEntries,
        (db.appendHistory kind scope text maxEntries now).Intact := fun maxEntries =>
      ((db.appendHistory_changes kind scope text maxEntries now).changes.sound h).toIntact
    intro kept unlimited
    simp only [kept, unlimited, happend]
    refine ⟨trivial, trivial, _, (hafter limit).loadHistory_eq kind scope 0, ?_⟩
    refine ((hafter 0).loadHistory_eq kind scope limit).trans ?_
    rw [(hlatest limit).2, (hlatest 0).2]
    rfl

/-! ## Whether an entry stays -/

/-- After every run a text that is added is loaded again, unless there are as many entries of a
later time as are kept. -/
theorem mem_loadHistory_appendHistory (path : Option String) (start : Int64)
    (run : List (Int64 × Operation)) (kind : HistoryKind) (scope : Scope) (text : String)
    (maxEntries : Nat) (now : Int64) :
    let store := (Store.fresh path start).play run
    let appended := store.appendHistory kind scope text maxEntries now
    appended.1 = .ok () ∧ ∃ db b before after,
      store.database = some db ∧ appended.2.findScope scope = .ok (some b) ∧
      store.loadHistory kind scope 0 = .ok before ∧
      appended.2.loadHistory kind scope 0 = .ok after ∧
      let entry : HistoryEntry := ⟨(db.history kind).lastId + 1, b.id, text, now⟩
      (∀ other ∈ before, other.id < entry.id) ∧
      (entry ∈ after ↔ maxEntries = 0 ∨
        before.countP (fun other => now < other.timestamp) < maxEntries) := by
  obtain ⟨db, hplay, h⟩ := play_sound path start run
  intro store appended
  have happend := appendHistory_intact h.toIntact path kind scope text maxEntries now
  obtain ⟨b, hlatest⟩ := h.exists_latestFirst_appendHistory kind scope text now
  obtain ⟨hscope, hentries⟩ := hlatest maxEntries
  have hchanges := (db.appendHistory_changes kind scope text maxEntries now).changes
  have hafter := (hchanges.sound h).toIntact
  have hperm := List.mergeSort_perm (db.entriesOf kind scope) fun a b => historyLe b a
  have hlast : ∀ other ∈ db.entriesOf kind scope, other.id < (db.history kind).lastId + 1 := by
    intro other hother
    have hrow := (Database.entriesOf_sublist db kind scope).subset hother
    exact Int.lt_add_one_of_le ((h.entryIds kind).bounded other hrow)
  simp only [appended, store, hplay, happend]
  refine ⟨trivial, db, b, _, _, rfl, ?_, h.toIntact.loadHistory_eq kind scope 0,
    hafter.loadHistory_eq kind scope 0, ?_, ?_⟩
  · rw [← hscope]
    exact hafter.findScope_eq scope
  · intro other hother
    exact hlast other (hperm.mem_iff.mp (List.mem_reverse.mp hother))
  · have hcount : (latestFirst (db.entriesOf kind scope)).reverse.countP
        (fun other => now < other.timestamp) =
        (db.entriesOf kind scope).countP fun other => now < other.timestamp := by
      rw [List.countP_reverse, latestFirst, hperm.countP_eq]
    rw [hentries]
    show _ ∈ (Database.limited 0 _).reverse ↔ _ ∨ (Database.limited 0 _).reverse.countP _ < _
    simp only [Database.limited, if_true, hcount, List.mem_reverse]
    exact Database.mem_limited_latestFirst (h.entriesOf_ids kind scope) hlast maxEntries

/-- A text that is added when the clock has gone back may be dropped at once. -/
theorem appendHistory_of_earlier_clock :
    ¬∀ (run : List (Int64 × Operation)) (kind : HistoryKind) (scope : Scope) (text : String)
      (maxEntries : Nat) (now : Int64),
      let appended := ((Store.fresh none 0).play run).appendHistory kind scope text maxEntries now
      appended.1 = .ok () → ∃ entries, appended.2.loadHistory kind scope 0 = .ok entries ∧
        ∃ entry ∈ entries, entry.text = text ∧ entry.timestamp = now := by
  intro hall
  let scope : Scope := ⟨"h", "o", "p", "main"⟩
  let db := (Database.new 0).appendHistory .prompt scope "late" 0 100
  have h : db.Sound :=
    ((Database.new 0).appendHistory_changes .prompt scope "late" 0 100).changes.sound
      (Database.sound_new 0)
  have hplay : (Store.fresh none 0).play [(100, .appendHistory .prompt scope "late" 0)] =
      ⟨none, some db⟩ :=
    congrArg Prod.snd (appendHistory_intact (Database.sound_new 0).toIntact none .prompt scope
      "late" 0 100)
  have hbefore : db.entriesOf .prompt scope = [⟨1, 1, "late", 100⟩] := by decide +kernel
  obtain ⟨b, hlatest⟩ := h.exists_latestFirst_appendHistory .prompt scope "early" 50
  have hafter := ((db.appendHistory_changes .prompt scope "early" 1 50).changes.sound h).toIntact
  have hearly := hall [(100, .appendHistory .prompt scope "late" 0)] .prompt scope "early" 1 50
  rw [hplay, appendHistory_intact h.toIntact] at hearly
  obtain ⟨entries, hload, entry, hentry, htext, _⟩ := hearly rfl
  have hentries := (hafter.loadHistory_eq .prompt scope 0).symm.trans hload
  -- the entry that was there is later, so it is the one that is kept
  have hsorted : latestFirst [⟨1, 1, "late", 100⟩,
      ⟨(db.history .prompt).lastId + 1, b.id, "early", 50⟩] =
      [⟨1, 1, "late", 100⟩, ⟨(db.history .prompt).lastId + 1, b.id, "early", 50⟩] :=
    List.mergeSort_of_pairwise (by simp [historyLe])
  rw [(hlatest 1).2, hbefore, List.singleton_append, hsorted] at hentries
  cases hentries
  rw [List.mem_singleton.mp hentry] at htext
  exact absurd htext (by decide)

end Store

end SessionArchive
