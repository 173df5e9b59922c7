import Mathlib.Data.List.Infix
import SessionArchive.Disk

/-!
# Files and directories

What a disk leads to after an entry was put on it, and which directories are there once they were
made. To make directories that are there changes nothing. A database that is put into its file can
be opened there: `Disk.openStore_withDatabase`. Opening a store leaves all that is elsewhere alone:
`Disk.exists_base_of_openStore`.
-/

set_option autoImplicit false

namespace SessionArchive

open Store (Database)

namespace DiskPath

/-- The empty path is that of the working directory. -/
theorem isTop_nil : IsTop [] := .inr nofun

/-- What lies on the way to a path are the front parts of it. -/
theorem mem_stages_iff {path stage : DiskPath} : stage ∈ stages path ↔ stage <+: path := by
  have hinits : stages path = path.inits := by
    induction path with
    | nil => rfl
    | cons name rest ih => rw [stages, ih, List.inits]
  rw [hinits, List.mem_inits]

/-- A path does not lie on the way to the directory that it is in. -/
theorem ne_of_mem_stages {path stage : DiskPath} (hpath : path ≠ [])
    (h : stage ∈ stages path.dropLast) : stage ≠ path := by
  rintro rfl
  have hlength := (mem_stages_iff.mp h).length_le
  have hpositive := List.length_pos_iff.mpr hpath
  rw [List.length_dropLast] at hlength
  omega

/-- What lies on the way to a path is the path or lies on the way to the directory that it is in. -/
theorem mem_stages_iff_dropLast {path stage : DiskPath} :
    stage ∈ stages path ↔ stage ∈ stages path.dropLast ∨ stage = path := by
  simp only [mem_stages_iff]
  rcases List.eq_nil_or_concat path with rfl | ⟨front, name, rfl⟩
  · simp
  · rw [List.concat_eq_append, List.dropLast_concat, List.prefix_concat_iff, or_comm]

end DiskPath

open DiskPath (stages)

namespace Disk

variable {disk after : Disk} {path other : DiskPath}

/-! ## Entries -/

theorem get?_insert_self (disk : Disk) (entry : DiskEntry) (hpath : ¬path.IsTop) :
    (disk.insert path entry).get? path = some entry := by
  rw [get?, if_neg hpath]
  exact List.lookup_cons_self

theorem get?_insert_of_ne (disk : Disk) (entry : DiskEntry) (hne : other ≠ path) :
    (disk.insert path entry).get? other = disk.get? other := by
  simp only [get?, insert, List.lookup_cons, beq_eq_false_iff_ne.mpr hne]
  have hentries : ∀ entries : List (DiskPath × DiskEntry),
      (entries.filter fun e => e.1 != path).lookup other = entries.lookup other := by
    intro entries
    induction entries with
    | nil => rfl
    | cons first rest ih =>
      by_cases hfirst : first.1 = path
      · -- the entry that goes is at another path
        have hother : ¬(other == first.1) = true := by simpa [hfirst] using hne
        rw [List.filter_cons_of_neg (by simpa using hfirst), ih, List.lookup_cons]
        simp [hother]
      · rw [List.filter_cons_of_pos (by simpa using hfirst), List.lookup_cons, List.lookup_cons,
          ih]
  rw [hentries]

theorem insert_insert (disk : Disk) (path : DiskPath) (first second : DiskEntry) :
    (disk.insert path first).insert path second = disk.insert path second := by
  simp [insert, List.filter_filter]

/-! ## Directories -/

/-- A path and all that lie on the way to it are directories. -/
def HasDirectories (disk : Disk) (path : DiskPath) : Prop :=
  ∀ stage ∈ stages path, disk.get? stage = some .directory

/-- What the making of directories does at a place: nothing, or it puts one where nothing was. -/
inductive Grown : Option DiskEntry → Option DiskEntry → Prop
  | same (entry : Option DiskEntry) : Grown entry entry
  | made : Grown none (some .directory)

namespace Grown

theorem trans {first second third : Option DiskEntry} (h : Grown first second)
    (h' : Grown second third) : Grown first third := by
  cases h with
  | same _ => exact h'
  | made =>
    cases h' with
    | same _ => exact .made

/-- What is there stays. -/
theorem of_some {before after : Option DiskEntry} {entry : DiskEntry} (h : Grown before after)
    (hentry : before = some entry) : after = some entry := by
  cases h with
  | same _ => exact hentry
  | made => cases hentry

/-- What is no directory was there before. -/
theorem eq_of_ne {before after : Option DiskEntry} (h : Grown before after)
    (hentry : after ≠ some .directory) : after = before := by
  cases h with
  | same _ => rfl
  | made => exact absurd rfl hentry

end Grown

/-- A directory that was made is there, and so is all that was there before. -/
theorem makeDirectory_ok (h : disk.makeDirectory path = .ok after) :
    after.get? path = some .directory ∧ ∀ other, Grown (disk.get? other) (after.get? other) := by
  simp only [makeDirectory] at h
  cases hget : disk.get? path with
  | none =>
    rw [hget] at h
    cases h
    -- a path to the top leads to a directory already
    have hpath : ¬path.IsTop := by
      intro htop
      rw [get?, if_pos htop] at hget
      cases hget
    refine ⟨get?_insert_self disk _ hpath, fun other => ?_⟩
    by_cases heq : other = path
    · rw [heq, hget, get?_insert_self disk _ hpath]
      exact .made
    · rw [get?_insert_of_ne disk _ heq]
      exact .same _
  | some entry =>
    rw [hget] at h
    cases entry with
    | directory =>
      cases h
      exact ⟨hget, fun other => .same _⟩
    | file bytes => cases h
    | database content => cases h

theorem foldlM_makeDirectory_ok {paths : List DiskPath}
    (h : paths.foldlM makeDirectory disk = .ok after) :
    (∀ stage ∈ paths, after.get? stage = some .directory) ∧
      ∀ other, Grown (disk.get? other) (after.get? other) := by
  -- what was made first is still there once the others are made
  induction paths generalizing disk with
  | nil =>
    cases h
    exact ⟨nofun, fun other => .same _⟩
  | cons first rest ih =>
    rw [List.foldlM_cons] at h
    cases hfirst : disk.makeDirectory first with
    | error fault =>
      rw [hfirst] at h
      cases h
    | ok between =>
      rw [hfirst] at h
      obtain ⟨hmade, hgrown⟩ := makeDirectory_ok hfirst
      obtain ⟨hrest, hfurther⟩ := ih h
      exact ⟨List.forall_mem_cons.mpr ⟨(hfurther first).of_some hmade, hrest⟩,
        fun other => (hgrown other).trans (hfurther other)⟩

/-- Directories that were made are there, and so is all that was there before. -/
theorem makeDirectories_ok (h : disk.makeDirectories path = .ok after) :
    after.HasDirectories path ∧ ∀ other, Grown (disk.get? other) (after.get? other) := by
  simp only [makeDirectories] at h
  split at h
  · rename_i between hfold
    obtain ⟨hmade, hgrown⟩ := makeDirectory_ok h
    obtain ⟨habove, hbefore⟩ := foldlM_makeDirectory_ok hfold
    refine ⟨fun stage hstage => ?_, fun other => (hbefore other).trans (hgrown other)⟩
    rcases DiskPath.mem_stages_iff_dropLast.mp hstage with hstage | rfl
    · exact (hgrown stage).of_some (habove stage hstage)
    · exact hmade
  · cases h

theorem makeDirectory_of_directory (h : disk.get? path = some .directory) :
    disk.makeDirectory path = .ok disk := by
  simp only [makeDirectory, h]

/-- To make directories that are there changes nothing. -/
theorem makeDirectories_of_hasDirectories (h : disk.HasDirectories path) :
    disk.makeDirectories path = .ok disk := by
  have hfold : ∀ paths : List DiskPath, (∀ stage ∈ paths, disk.get? stage = some .directory) →
      paths.foldlM makeDirectory disk = .ok disk := by
    intro paths hpaths
    induction paths with
    | nil => rfl
    | cons first rest ih =>
      obtain ⟨hfirst, hrest⟩ := List.forall_mem_cons.mp hpaths
      rw [List.foldlM_cons, makeDirectory_of_directory hfirst]
      exact ih hrest
  rw [makeDirectories,
    hfold _ fun stage hstage => h stage (DiskPath.mem_stages_iff_dropLast.mpr (.inl hstage))]
  exact makeDirectory_of_directory (h path (DiskPath.mem_stages_iff_dropLast.mpr (.inr rfl)))

end Disk

/-! ## Databases in their files -/

namespace Store.Database

/-- A database as opening leaves it: no table is gone, and the layout is stamped. -/
structure Current (db : Database) : Prop where
  missing : db.missing = []
  stamped : db.versions.any (·.version == currentVersion) = true

theorem current_new (now : Int64) : (Database.new now).Current := ⟨rfl, rfl⟩

theorem current_applySchema (db : Database) (now : Int64) : (db.applySchema now).Current := by
  refine ⟨rfl, ?_⟩
  simp only [applySchema]
  split
  · assumption
  · simp

/-- To open a database again changes nothing. -/
theorem Current.applySchema_eq {db : Database} (h : db.Current) (now : Int64) :
    db.applySchema now = db := by
  rw [applySchema, if_pos h.stamped, ← h.missing]

end Store.Database

namespace Disk

/-- A path that a database can be stored under: it names a file, whose directory is there. -/
structure Houses (disk : Disk) (path : String) : Prop where
  named : ¬(path = "" ∨ path = ":memory:")
  isFile : ¬(DiskPath.ofText path).IsTop
  directories : disk.HasDirectories (DiskPath.ofText path).dropLast

/-- The disk with a database in the file at a path. -/
def withDatabase (disk : Disk) (path : String) (db : Database) : Disk :=
  disk.insert (DiskPath.ofText path) (.database db)

section Houses

variable {disk : Disk} {path : String} {db : Database}

theorem Houses.get?_withDatabase (h : disk.Houses path) (db : Database) :
    (disk.withDatabase path db).get? (DiskPath.ofText path) = some (.database db) :=
  get?_insert_self disk _ h.isFile

theorem Houses.makeDirectories_withDatabase (h : disk.Houses path) (db : Database) :
    (disk.withDatabase path db).makeDirectories (DiskPath.ofText path).dropLast =
      .ok (disk.withDatabase path db) := by
  apply makeDirectories_of_hasDirectories
  intro stage hstage
  have hpath : DiskPath.ofText path ≠ [] := by
    intro hnil
    have hfile := h.isFile
    rw [hnil] at hfile
    exact hfile DiskPath.isTop_nil
  rw [withDatabase, get?_insert_of_ne disk _ (DiskPath.ne_of_mem_stages hpath hstage)]
  exact h.directories stage hstage

/-- A database that is opened again is there as it was. -/
theorem Houses.openStore_withDatabase (h : disk.Houses path) (hdb : db.Current) (now : Int64) :
    (disk.withDatabase path db).openStore path now =
      (.ok ⟨some path, some db⟩, disk.withDatabase path db) := by
  simp only [openStore, if_neg h.named, h.makeDirectories_withDatabase, h.get?_withDatabase,
    databaseOf, hdb.applySchema_eq]
  rw [withDatabase, insert_insert]

theorem databaseOf_ok {now : Int64} {entry : Option DiskEntry} {content : Database}
    (h : databaseOf path now entry = .ok content) :
    content.Current ∧ entry ≠ some .directory := by
  rcases entry with _ | _ | bytes | stored
  · cases h
    exact ⟨Database.current_new now, nofun⟩
  · cases h
  · simp only [databaseOf] at h
    split at h
    · cases h
      exact ⟨Database.current_new now, nofun⟩
    · cases h
  · cases h
    exact ⟨stored.current_applySchema now, nofun⟩

/-- What is opened is a database in its file. Nothing happens elsewhere but that directories are
made. -/
theorem exists_base_of_openStore {now : Int64} {store : Store} {opened : Disk}
    (hnamed : ¬(path = "" ∨ path = ":memory:"))
    (h : disk.openStore path now = (.ok store, opened)) :
    ∃ (base : Disk) (db : Database), base.Houses path ∧
      (∀ place, Grown (disk.get? place) (base.get? place)) ∧
      databaseOf path now (disk.get? (DiskPath.ofText path)) = .ok db ∧
      store = ⟨some path, some db⟩ ∧ opened = base.withDatabase path db := by
  simp only [openStore, if_neg hnamed] at h
  cases hmade : disk.makeDirectories (DiskPath.ofText path).dropLast with
  | error fault =>
    rw [hmade] at h
    cases h
  | ok base =>
    rw [hmade] at h
    dsimp only at h
    obtain ⟨hdirectories, hgrown⟩ := makeDirectories_ok hmade
    cases hcontent : databaseOf path now (base.get? (DiskPath.ofText path)) with
    | error failure =>
      rw [hcontent] at h
      cases h
    | ok content =>
      rw [hcontent] at h
      cases h
      obtain ⟨-, hentry⟩ := databaseOf_ok hcontent
      have hfile : ¬(DiskPath.ofText path).IsTop := fun htop => hentry (if_pos htop)
      -- what is opened is no directory, so that it was there before directories were made
      have hsame : disk.get? (DiskPath.ofText path) = base.get? (DiskPath.ofText path) :=
        ((hgrown (DiskPath.ofText path)).eq_of_ne hentry).symm
      exact ⟨base, content, ⟨hnamed, hfile, hdirectories⟩, hgrown, by rw [hsame, hcontent], rfl,
        rfl⟩

/-- What is opened is a database in its file, as opening leaves it. -/
theorem openStore_ok {now : Int64} {store : Store} {opened : Disk}
    (hnamed : ¬(path = "" ∨ path = ":memory:"))
    (h : disk.openStore path now = (.ok store, opened)) :
    ∃ (base : Disk) (db : Database), base.Houses path ∧ db.Current ∧ store = ⟨some path, some db⟩ ∧
      opened = base.withDatabase path db := by
  obtain ⟨base, db, hhouses, -, hcontent, hstore, hopened⟩ := exists_base_of_openStore hnamed h
  exact ⟨base, db, hhouses, (databaseOf_ok hcontent).1, hstore, hopened⟩

/-- A store that cannot be opened leaves the disk as it was, but for directories. -/
theorem grown_of_openStore_error {now : Int64} {failure : Failure} {opened : Disk}
    (h : disk.openStore path now = (.error failure, opened)) (place : DiskPath) :
    Grown (disk.get? place) (opened.get? place) := by
  simp only [openStore] at h
  split at h
  · cases h
  · cases hmade : disk.makeDirectories (DiskPath.ofText path).dropLast with
    | error fault =>
      rw [hmade] at h
      cases h
      exact .same _
    | ok base =>
      rw [hmade] at h
      dsimp only at h
      cases hcontent : databaseOf path now (base.get? (DiskPath.ofText path)) with
      | error fault =>
        rw [hcontent] at h
        cases h
        -- the directories are made before the file is looked at, and stay
        exact (makeDirectories_ok hmade).2 place
      | ok content =>
        rw [hcontent] at h
        cases h

/-! ## Sharing the file -/

theorem Houses.contentOf?_withDatabase (h : disk.Houses path) (db held : Database) :
    (disk.withDatabase path db).contentOf? ⟨some path, some held⟩ =
      some (DiskPath.ofText path, db) := by
  simp only [contentOf?, if_neg h.named, h.get?_withDatabase]

theorem Houses.refresh_withDatabase (h : disk.Houses path) (db held : Database) :
    (disk.withDatabase path db).refresh ⟨some path, some held⟩ = ⟨some path, some db⟩ := by
  simp only [refresh, h.contentOf?_withDatabase]

theorem Houses.update_withDatabase (h : disk.Houses path) (db held : Database) :
    (disk.withDatabase path db).update ⟨some path, some held⟩ = disk.withDatabase path held := by
  simp only [update, h.contentOf?_withDatabase]
  exact insert_insert _ _ _ _

theorem refresh_closed (disk : Disk) (path : Option String) :
    disk.refresh ⟨path, none⟩ = ⟨path, none⟩ := by
  cases path with
  | none => rfl
  | some path => rfl

/-- What no file holds is put into none. -/
theorem update_unfiled (disk : Disk) (hpath : path = "" ∨ path = ":memory:")
    (held : Option Database) : disk.update ⟨some path, held⟩ = disk := by
  cases held with
  | none => rfl
  | some db => simp only [update, contentOf?, if_pos hpath]

theorem update_closed (disk : Disk) (path : Option String) :
    disk.update ⟨path, none⟩ = disk := by
  cases path with
  | none => rfl
  | some path => rfl

end Houses

end Disk

end SessionArchive
