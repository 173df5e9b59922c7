import SessionArchive.Disk
import SessionArchive.Proofs.Json.Arrangement

/-!
# Settings files

`Settings.IsWritten` says which texts name given settings: an object with a section for sessions and
one for history, each of which may be left out if it has its defaults, as may each member of a
section; members come in any order, and among them may be unknown ones that hold any JSON value. The
settings in such a file are those that it names and the defaults elsewhere
(`settingsOfText_of_isWritten`), and the encoding of settings is such a file (`isWritten_toJson`).
-/

set_option autoImplicit false

namespace SessionArchive

open Json (Entry IsArrangement IsText IsTextOf Takes Values entriesOf)

/-! ## The policy for sessions -/

namespace SessionSettings

/-- The members that name a policy, each of which may be left out where it is the default. -/
def entries (settings : SessionSettings) : List (Entry (List Char)) :=
  [⟨"enabled", IsTextOf (.bool settings.enabled), settings.enabled = true⟩,
   ⟨"maxSessions", IsTextOf (.nat settings.maxSessions.toNat), settings.maxSessions = 100⟩,
   ⟨"maxAgeDays", IsTextOf (.nat settings.maxAgeDays.toNat), settings.maxAgeDays = 30⟩,
   ⟨"listLimit", IsTextOf (.nat settings.listLimit.toNat), settings.listLimit = 20⟩,
   ⟨"autoSave", IsTextOf (.bool settings.autoSave), settings.autoSave = true⟩,
   ⟨"saveInterval", IsTextOf (.nat settings.saveInterval.toNat), settings.saveInterval = 30⟩]

/-- The texts that name a policy. -/
def IsWritten (settings : SessionSettings) (t : List Char) : Prop :=
  IsArrangement settings.entries IsText t

theorem answer (settings : SessionSettings) (depth : Nat) :
    Values.Answer (Json.Field.TakesAt depth) fields
      (settings.enabled, settings.maxSessions, settings.maxAgeDays, settings.listLimit,
        settings.autoSave, settings.saveInterval, ())
      settings.entries :=
  ⟨⟨rfl, fun _ h => Json.takes_readBool h depth, fun h => congrArg some h.symm⟩,
   ⟨rfl, fun _ h => Json.takes_readLimit h depth, fun h => congrArg some h.symm⟩,
   ⟨rfl, fun _ h => Json.takes_readUInt32 h depth, fun h => congrArg some h.symm⟩,
   ⟨rfl, fun _ h => Json.takes_readLimit h depth, fun h => congrArg some h.symm⟩,
   ⟨rfl, fun _ h => Json.takes_readBool h depth, fun h => congrArg some h.symm⟩,
   ⟨rfl, fun _ h => Json.takes_readUInt64 h depth, fun h => congrArg some h.symm⟩, trivial⟩

theorem takes_read {settings : SessionSettings} {t : List Char} (h : settings.IsWritten t)
    (depth : Nat) : Takes (SessionSettings.read (depth + 1)) t settings :=
  Json.takes_arrangement (by decide) (fun _ h => h) (settings.answer depth) h

/-- The encoding of a policy names it. -/
theorem isWritten_toJson {settings : SessionSettings} {t : List Char}
    (h : IsTextOf settings.toJson t) : settings.IsWritten t := by
  refine (h.isArrangement (by simp)).imp ?_ fun _ => False.elim
  exact .cons ⟨rfl, fun _ => id, False.elim⟩ <| .cons ⟨rfl, fun _ => id, False.elim⟩ <|
    .cons ⟨rfl, fun _ => id, False.elim⟩ <| .cons ⟨rfl, fun _ => id, False.elim⟩ <|
    .cons ⟨rfl, fun _ => id, False.elim⟩ <| .cons ⟨rfl, fun _ => id, False.elim⟩ .nil

end SessionSettings

/-! ## The policy for history -/

namespace HistorySettings

/-- The members that name a policy, each of which may be left out where it is the default. -/
def entries (settings : HistorySettings) : List (Entry (List Char)) :=
  [⟨"enabled", IsTextOf (.bool settings.enabled), settings.enabled = true⟩,
   ⟨"maxEntries", IsTextOf (.nat settings.maxEntries.toNat), settings.maxEntries = 1000⟩,
   ⟨"maxAgeDays", IsTextOf (.nat settings.maxAgeDays.toNat), settings.maxAgeDays = 90⟩]

/-- The texts that name a policy. -/
def IsWritten (settings : HistorySettings) (t : List Char) : Prop :=
  IsArrangement settings.entries IsText t

theorem answer (settings : HistorySettings) (depth : Nat) :
    Values.Answer (Json.Field.TakesAt depth) fields
      (settings.enabled, settings.maxEntries, settings.maxAgeDays, ()) settings.entries :=
  ⟨⟨rfl, fun _ h => Json.takes_readBool h depth, fun h => congrArg some h.symm⟩,
   ⟨rfl, fun _ h => Json.takes_readLimit h depth, fun h => congrArg some h.symm⟩,
   ⟨rfl, fun _ h => Json.takes_readUInt32 h depth, fun h => congrArg some h.symm⟩, trivial⟩

theorem takes_read {settings : HistorySettings} {t : List Char} (h : settings.IsWritten t)
    (depth : Nat) : Takes (HistorySettings.read (depth + 1)) t settings :=
  Json.takes_arrangement (by decide) (fun _ h => h) (settings.answer depth) h

/-- The encoding of a policy names it. -/
theorem isWritten_toJson {settings : HistorySettings} {t : List Char}
    (h : IsTextOf settings.toJson t) : settings.IsWritten t := by
  refine (h.isArrangement (by simp)).imp ?_ fun _ => False.elim
  exact .cons ⟨rfl, fun _ => id, False.elim⟩ <| .cons ⟨rfl, fun _ => id, False.elim⟩ <|
    .cons ⟨rfl, fun _ => id, False.elim⟩ .nil

end HistorySettings

/-! ## All settings -/

namespace Settings

/-- The sections that name settings, each of which may be left out where it has its defaults. -/
def entries (settings : Settings) : List (Entry (List Char)) :=
  [⟨"sessions", settings.sessions.IsWritten, settings.sessions = {}⟩,
   ⟨"history", settings.history.IsWritten, settings.history = {}⟩]

/-- The texts that name settings. -/
def IsWritten (settings : Settings) (t : List Char) : Prop :=
  IsArrangement settings.entries IsText t

theorem answer (settings : Settings) (depth : Nat) :
    Values.Answer (Json.Field.TakesAt (depth + 1)) fields
      (settings.sessions, settings.history, ()) settings.entries :=
  ⟨⟨rfl, fun _ h => SessionSettings.takes_read h depth, fun h => congrArg some h.symm⟩,
   ⟨rfl, fun _ h => HistorySettings.takes_read h depth, fun h => congrArg some h.symm⟩, trivial⟩

theorem integral_toJson (settings : Settings) : settings.toJson.Integral := by
  simp [toJson, SessionSettings.toJson, HistorySettings.toJson]

theorem takes_read {settings : Settings} {t : List Char} (h : settings.IsWritten t)
    (depth : Nat) : Takes (Settings.read (depth + 2)) t settings :=
  Json.takes_arrangement (by decide) (fun _ h => h) (settings.answer depth) h

/-- The encoding of settings names them. -/
theorem isWritten_toJson {settings : Settings} {t : List Char} (h : IsTextOf settings.toJson t) :
    settings.IsWritten t := by
  refine (h.isArrangement (by simp)).imp ?_ fun _ => False.elim
  exact .cons ⟨rfl, fun _ => SessionSettings.isWritten_toJson, False.elim⟩ <|
    .cons ⟨rfl, fun _ => HistorySettings.isWritten_toJson, False.elim⟩ .nil

/-- A file that names settings has these settings. -/
theorem settingsOfText_of_isWritten {settings : Settings} {text : String}
    (h : settings.IsWritten text.toList) : Disk.settingsOfText text = .ok settings := by
  have hread : Settings.decode text = .ok settings := Json.read_of_takes (takes_read h 125)
  rw [Disk.settingsOfText, hread, mapError_ok]

/-- A settings file overrides what it names and nothing else, and the encoding of settings, on one
line or on many, means the settings. -/
theorem settingsOfText_overrides (settings : Settings) :
    (∀ text : String, settings.IsWritten text.toList → Disk.settingsOfText text = .ok settings) ∧
    (∀ text : String, IsTextOf settings.toJson text.toList →
      Disk.settingsOfText text = .ok settings) ∧
    Disk.settingsOfText settings.toJson.toCompact = .ok settings ∧
    Disk.settingsOfText settings.toJson.toIndented = .ok settings := by
  have hencoded : ∀ text : String, IsTextOf settings.toJson text.toList →
      Disk.settingsOfText text = .ok settings := fun text h =>
    settingsOfText_of_isWritten (isWritten_toJson h)
  have hintegral := settings.integral_toJson
  refine ⟨fun text => settingsOfText_of_isWritten, hencoded, hencoded _ ?_, hencoded _ ?_⟩
  · rw [Json.toCompact, String.toList_ofList]
    exact Json.isTextOf_compact _ hintegral
  · rw [Json.toIndented, String.toList_ofList]
    exact Json.isTextOf_indented _ hintegral 0

/-- A file that names a limit on sessions and the age limit of history, among unknown members. -/
def sparseFile : String :=
  "\x7b\"x\":[\x7b\"sessions\":null\x7d],\"history\":\x7b\"maxAgeDays\":7\x7d," ++
    "\"sessions\":\x7b\"y\":null,\"maxSessions\":5\x7d\x7d"

theorem isWritten_sparseFile :
    (⟨{ maxSessions := 5 }, { maxAgeDays := 7 }⟩ : Settings).IsWritten sparseFile.toList := by
  have hdigit : ∀ n : Nat, n < 10 → IsTextOf (.nat n) [Text.digitChar n] := by
    intro n hn
    have htext : Text.signedDecimal n = [Text.digitChar n] := Text.decimal_of_lt hn
    exact .integer (htext ▸ Json.isPadded_self _)
  have hsessions : ({ maxSessions := 5 } : SessionSettings).IsWritten
      "\x7b\"y\":null,\"maxSessions\":5\x7d".toList := by
    refine ⟨Json.isObjectOf_quoted [("y", ['n', 'u', 'l', 'l']), ("maxSessions", ['5'])], ?_, ?_⟩
    · simp only [SessionSettings.entries, List.forall_mem_cons, List.not_mem_nil, false_implies,
        implies_true, and_true]
      exact ⟨.silent rfl trivial, .named rfl (hdigit 5 (by decide)), .silent rfl trivial,
        .silent rfl trivial, .silent rfl trivial, .silent rfl trivial⟩
    · simpa [SessionSettings.entries] using IsText.null
  have hhistory : ({ maxAgeDays := 7 } : HistorySettings).IsWritten
      "\x7b\"maxAgeDays\":7\x7d".toList := by
    refine ⟨Json.isObjectOf_quoted [("maxAgeDays", ['7'])], ?_, ?_⟩
    · simp only [HistorySettings.entries, List.forall_mem_cons, List.not_mem_nil, false_implies,
        implies_true, and_true]
      exact ⟨.silent rfl trivial, .silent rfl trivial, .named rfl (hdigit 7 (by decide))⟩
    · simp [HistorySettings.entries]
  have hunknown : IsText "[\x7b\"sessions\":null\x7d]".toList :=
    Json.isText_compact (.array [.object [("sessions", .null)]]) (by simp)
  refine ⟨Json.isObjectOf_quoted [("x", "[\x7b\"sessions\":null\x7d]".toList),
    ("history", "\x7b\"maxAgeDays\":7\x7d".toList),
    ("sessions", "\x7b\"y\":null,\"maxSessions\":5\x7d".toList)], ?_, ?_⟩
  · simp only [entries, List.forall_mem_cons, List.not_mem_nil, false_implies, implies_true,
      and_true]
    exact ⟨.named rfl hsessions, .named rfl hhistory⟩
  · simpa [entries] using hunknown

/-- The file is read as the settings that it names. -/
theorem settingsOfText_sparseFile :
    (⟨{ maxSessions := 5 }, { maxAgeDays := 7 }⟩ : Settings).IsWritten sparseFile.toList ∧
      Disk.settingsOfText sparseFile = .ok ⟨{ maxSessions := 5 }, { maxAgeDays := 7 }⟩ :=
  ⟨isWritten_sparseFile, (settingsOfText_overrides _).1 _ isWritten_sparseFile⟩

end Settings

end SessionArchive
