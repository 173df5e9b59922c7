import SessionArchive.Proofs.Store.Statement

/-!
# What no operation touches

The stamp of the layout and the list of tables that are gone belong to the opening of a database.
No statement touches them, whether it succeeds or not and whatever state the tables are in, so an
operation leaves a handle on the same file, open or closed as before: `Operation.run_sameHandle`.
-/

set_option autoImplicit false

namespace SessionArchive

namespace Store.Database

/-- Two databases have the same stamps, and the same tables are gone. -/
structure SameLayout (before after : Database) : Prop where
  versions : after.versions = before.versions
  missing : after.missing = before.missing

theorem lasting_sameLayout : Lasting SameLayout where
  refl _ := ⟨rfl, rfl⟩
  trans h h' := ⟨h'.versions.trans h.versions, h'.missing.trans h.missing⟩
  sessions _ _ := ⟨rfl, rfl⟩
  messages _ _ := ⟨rfl, rfl⟩
  history _ kind _ := by cases kind <;> exact ⟨rfl, rfl⟩
  addRepository _ _ _ _ := ⟨rfl, rfl⟩
  addBranch _ _ _ := ⟨rfl, rfl⟩
  removeBranches _ _ := ⟨rfl, rfl⟩
  removeRepositories _ _ := ⟨rfl, rfl⟩

end Store.Database

/-- An operation leaves a handle on the same file, open or closed as it was, with the layout. -/
theorem Operation.run_sameHandle (operation : Operation) (now : Int64) (store : Store) :
    Store.SameHandle Store.Database.SameLayout store (operation.run now store).2 :=
  operation.run_lasting Store.Database.lasting_sameLayout now store

end SessionArchive
