import SessionArchive.Json.Record
import SessionArchive.Json.Words

/-!
# Settings

How long sessions and history are kept, and how they are listed. A settings file is a JSON object
with a section for each; every section and every member of one may be left out and then has its
default, and unknown members are passed over. A policy that is switched off has no limits.
-/

set_option autoImplicit false

namespace SessionArchive

open Json (Reader Field)

/-- The policy for sessions. A limit of zero means no limit. -/
structure SessionSettings where
  enabled : Bool := true
  maxSessions : UInt64 := 100
  maxAgeDays : UInt32 := 30
  listLimit : UInt64 := 20
  autoSave : Bool := true
  saveInterval : UInt64 := 30
deriving Repr, DecidableEq

namespace SessionSettings

/-- The age limit in force. -/
def effectiveMaxAgeDays (settings : SessionSettings) : Nat :=
  if settings.enabled then settings.maxAgeDays.toNat else 0

/-- The limit on the number of sessions in force. -/
def effectiveMaxSessions (settings : SessionSettings) : Nat :=
  if settings.enabled then settings.maxSessions.toNat else 0

/-- The policy as JSON. -/
def toJson (settings : SessionSettings) : Json :=
  .object [("enabled", .bool settings.enabled),
    ("maxSessions", .nat settings.maxSessions.toNat),
    ("maxAgeDays", .nat settings.maxAgeDays.toNat),
    ("listLimit", .nat settings.listLimit.toNat), ("autoSave", .bool settings.autoSave),
    ("saveInterval", .nat settings.saveInterval.toNat)]

/-- The fields of the policy. -/
abbrev fields : List (Field Reader) :=
  let default : SessionSettings := {}
  [.optional "enabled" Json.readBool default.enabled,
   .optional "maxSessions" Json.readLimit default.maxSessions,
   .optional "maxAgeDays" Json.readUInt32 default.maxAgeDays,
   .optional "listLimit" Json.readLimit default.listLimit,
   .optional "autoSave" Json.readBool default.autoSave,
   .optional "saveInterval" Json.readUInt64 default.saveInterval]

/-- Reads the policy. -/
def read : Reader SessionSettings :=
  Json.readRecord "struct SessionSettings" fields
    fun (enabled, maxSessions, maxAgeDays, listLimit, autoSave, saveInterval, ()) =>
      ⟨enabled, maxSessions, maxAgeDays, listLimit, autoSave, saveInterval⟩

end SessionSettings

/-- The policy for history. A limit of zero means no limit. -/
structure HistorySettings where
  enabled : Bool := true
  maxEntries : UInt64 := 1000
  maxAgeDays : UInt32 := 90
deriving Repr, DecidableEq

namespace HistorySettings

/-- The limit on the entries of a stream in force. -/
def effectiveMaxEntries (settings : HistorySettings) : Nat :=
  if settings.enabled then settings.maxEntries.toNat else 0

/-- The age limit in force. -/
def effectiveMaxAgeDays (settings : HistorySettings) : Nat :=
  if settings.enabled then settings.maxAgeDays.toNat else 0

/-- The policy as JSON. -/
def toJson (settings : HistorySettings) : Json :=
  .object [("enabled", .bool settings.enabled), ("maxEntries", .nat settings.maxEntries.toNat),
    ("maxAgeDays", .nat settings.maxAgeDays.toNat)]

/-- The fields of the policy. -/
abbrev fields : List (Field Reader) :=
  let default : HistorySettings := {}
  [.optional "enabled" Json.readBool default.enabled,
   .optional "maxEntries" Json.readLimit default.maxEntries,
   .optional "maxAgeDays" Json.readUInt32 default.maxAgeDays]

/-- Reads the policy. -/
def read : Reader HistorySettings :=
  Json.readRecord "struct HistorySettings" fields fun (enabled, maxEntries, maxAgeDays, ()) =>
    ⟨enabled, maxEntries, maxAgeDays⟩

end HistorySettings

/-- All settings. -/
structure Settings where
  sessions : SessionSettings := {}
  history : HistorySettings := {}
deriving Repr, DecidableEq

namespace Settings

/-- The settings as JSON. -/
def toJson (settings : Settings) : Json :=
  .object [("sessions", settings.sessions.toJson), ("history", settings.history.toJson)]

/-- The fields of the settings. -/
abbrev fields : List (Field Reader) :=
  [.optional "sessions" SessionSettings.read {}, .optional "history" HistorySettings.read {}]

/-- Reads the settings. -/
def read : Reader Settings :=
  Json.readRecord "struct Settings" fields fun (sessions, history, ()) => ⟨sessions, history⟩

/-- The settings that a text means. -/
def decode (text : String) : Except Json.Fault Settings := Json.read read text.toList

end Settings

end SessionArchive
