import SessionArchive.Proofs.Scope.Remote
import SessionArchive.Surroundings

/-!
# Where the parts of a scope come from

The parts that are not given all come from the remote, if it `Names` a repository, and otherwise all
from the user and the directory. What is printed is trimmed before it is read as an address, which
makes no difference to the address. A part that is detected is not empty, except that a user may go
by an empty name: `detectScope_parts`.
-/

set_option autoImplicit false

namespace SessionArchive

namespace Scope

theorem WellFormed.org_ne_empty {scope : Scope} (h : scope.WellFormed) : scope.org ≠ "" := by
  obtain ⟨segments, hne, hsegments, horg⟩ := h.org_segments
  obtain ⟨first, rest, rfl⟩ := List.exists_cons_of_ne_nil hne
  obtain ⟨hfirst, _⟩ := hsegments first List.mem_cons_self
  intro hempty
  rw [hempty] at horg
  cases rest with
  | nil =>
    rw [List.intercalate_singleton] at horg
    exact hfirst horg.symm
  | cons second rest =>
    rw [List.intercalate_cons_cons] at horg
    exact absurd horg.symm (by simp)

/-! ## Addresses and what is around them -/

theorem ofRemote?_trimString (address branch : String) :
    ofRemote? (Text.trimString address) branch = ofRemote? address branch := by
  simp only [ofRemote?, Remote.stripped, Text.trimString, String.toList_ofList, Text.trim_trim]

theorem ofRemote?_empty (branch : String) : ofRemote? "" branch = none := rfl

/-- An address says the same repository for every branch. -/
theorem ofRemote?_branch {address branch host org project : String} (other : String)
    (h : ofRemote? address branch = some ⟨host, org, project, branch⟩) :
    ofRemote? address other = some ⟨host, org, project, other⟩ := by
  obtain ⟨remote, groups, last, haddress, hsegments, hhost, hgroups, hscope⟩ :=
    ofRemote?_eq_some_iff.mp h
  obtain ⟨rfl, rfl, rfl, _⟩ := Scope.mk.inj hscope
  exact ofRemote?_eq_some_iff.mpr ⟨remote, groups, last, haddress, hsegments, hhost, hgroups, rfl⟩

end Scope

namespace Surroundings

variable {surroundings : Surroundings} {host org project : String}

/-! ## The two sources -/

/-- The remote is usable, and is that of a repository: the program that is asked for its address
succeeds, and the address can be read from the bytes that it prints. -/
def Names (surroundings : Surroundings) (host org project : String) : Prop :=
  ∃ output, surroundings.versionControl.remote = some output ∧ output.status = 0 ∧
    ∀ branch, Scope.ofRemote? (Text.Utf8.decodeLossy output.bytes) branch =
      some ⟨host, org, project, branch⟩

/-- The name that a user goes by. -/
inductive IsUser (surroundings : Surroundings) : String → Prop
  | user (name : String) (h : surroundings.get? "USER" = some name) : IsUser surroundings name
  | username (name : String) (huser : surroundings.get? "USER" = none)
      (h : surroundings.get? "USERNAME" = some name) : IsUser surroundings name
  | unknown (huser : surroundings.get? "USER" = none)
      (husername : surroundings.get? "USERNAME" = none) : IsUser surroundings "unknown"

theorem isUser_localScope (surroundings : Surroundings) (branch : String) :
    surroundings.IsUser (surroundings.localScope branch).org := by
  rw [localScope]
  cases huser : surroundings.get? "USER" with
  | some name => exact .user name huser
  | none =>
    cases husername : surroundings.get? "USERNAME" with
    | some name => exact .username name huser husername
    | none => exact .unknown huser husername

/-- What a remote says, white space around it or none, is the repository that it names. -/
theorem names_iff {branch : String} :
    surroundings.Names host org project ↔
      (surroundings.versionControl.remoteAddress?.bind fun address =>
        Scope.ofRemote? address branch) = some ⟨host, org, project, branch⟩ := by
  rw [Names, VersionControl.remoteAddress?]
  cases surroundings.versionControl.remote with
  | none => simp
  | some output =>
    simp only [Option.some.injEq, exists_eq_left', Option.bind_some, ProgramOutput.answer?]
    split
    · rename_i hstatus
      split
      · rename_i hblank
        -- nothing but white space is no address
        have hnone : ∀ branch, Scope.ofRemote? (Text.Utf8.decodeLossy output.bytes) branch = none :=
          fun branch => by rw [← Scope.ofRemote?_trimString, hblank, Scope.ofRemote?_empty]
        simp [hnone]
      · rw [Option.bind_some, Scope.ofRemote?_trimString]
        constructor
        · rintro ⟨_, hnames⟩
          exact hnames branch
        · intro hscope
          exact ⟨hstatus, fun other => Scope.ofRemote?_branch other hscope⟩
    · rename_i hstatus
      simp [hstatus]

/-- What is detected is the repository of the remote, or that of the user and the directory. -/
theorem detectedScope_cases (surroundings : Surroundings) (branch : String) :
    (∃ host org project, surroundings.Names host org project ∧
      surroundings.detectedScope branch = ⟨host, org, project, branch⟩) ∨
    ((∀ host org project, ¬surroundings.Names host org project) ∧
      surroundings.detectedScope branch = surroundings.localScope branch) := by
  rw [detectedScope]
  cases hremote : surroundings.versionControl.remoteAddress?.bind fun address =>
      Scope.ofRemote? address branch with
  | none =>
    refine .inr ⟨fun host org project hnames => ?_, rfl⟩
    rw [names_iff.mp hnames] at hremote
    cases hremote
  | some scope =>
    -- the branch of the scope is the one that was given, whatever the address says
    have hbranch : scope.branch = branch := by
      obtain ⟨address, _, hscope⟩ := Option.bind_eq_some_iff.mp hremote
      obtain ⟨_, _, _, _, _, _, _, rfl⟩ := Scope.ofRemote?_eq_some_iff.mp hscope
      rfl
    obtain ⟨host, org, project, last⟩ := scope
    obtain rfl : last = branch := hbranch
    exact .inl ⟨host, org, project, names_iff.mpr hremote, rfl⟩

theorem Names.ne_empty (h : surroundings.Names host org project) :
    host ≠ "" ∧ org ≠ "" ∧ project ≠ "" := by
  obtain ⟨output, _, _, hnames⟩ := h
  have hwell := Scope.wellFormed_of_ofRemote? (hnames "")
  exact ⟨hwell.host_ne_empty, hwell.org_ne_empty, hwell.project_ne_empty⟩

/-! ## The branch -/

theorem ne_empty_of_answer? {output : ProgramOutput} {text : String}
    (h : output.answer? = some text) : text ≠ "" := by
  rw [ProgramOutput.answer?] at h
  split at h
  · dsimp only at h
    split at h
    · cases h
    · rename_i hblank
      rw [← Option.some.inj h]
      exact hblank
  · cases h

theorem detectBranch_none_ne (surroundings : Surroundings) :
    surroundings.detectBranch none ≠ "" ∧ surroundings.detectBranch none ≠ "HEAD" := by
  rw [detectBranch]
  cases hcurrent : surroundings.versionControl.currentBranch? with
  | none => decide
  | some branch =>
    obtain ⟨output, _, hanswer⟩ := Option.bind_eq_some_iff.mp hcurrent
    dsimp only
    split
    · decide
    · rename_i hhead
      exact ⟨ne_empty_of_answer? hanswer, hhead⟩

end Surroundings

/-! ## What is detected -/

/-- The parts of a scope that are not given are the ones of a repository. -/
structure ScopeOverrides.Completes (given : ScopeOverrides) (host org project : String)
    (scope : Scope) : Prop where
  host : scope.host = given.host.getD host
  org : scope.org = given.org.getD org
  project : scope.project = given.project.getD project

namespace Surroundings

theorem completes_of_detectedScope {surroundings : Surroundings} {given : ScopeOverrides}
    {host org project branch : String}
    (h : surroundings.detectedScope (surroundings.detectBranch given.branch) =
      ⟨host, org, project, branch⟩) :
    given.Completes host org project (surroundings.detectScope given) := by
  constructor
  · simp only [detectScope, h]
  · simp only [detectScope, h]
  · simp only [detectScope, h]

/-- Of the two branches that are never detected each is that of a scope only if it was given. -/
theorem detectScope_branch_iff (surroundings : Surroundings) (given : ScopeOverrides)
    {branch : String} (hbranch : branch = "" ∨ branch = "HEAD") :
    (surroundings.detectScope given).branch = branch ↔ given.branch = some branch := by
  obtain ⟨hempty, hhead⟩ := surroundings.detectBranch_none_ne
  cases hgiven : given.branch with
  | none =>
    have hnot : (surroundings.detectScope given).branch ≠ branch := by
      simp only [detectScope, hgiven]
      rcases hbranch with rfl | rfl
      · exact hempty
      · exact hhead
    simp [hnot]
  | some name => simp [detectScope, hgiven, detectBranch]

/-- In all surroundings the parts that are not given come from the remote if it is usable, and from
the user and the directory if it is not, never some from the one and some from the other. A part is
empty only if it was given so; or, without a remote, if the user goes by an empty name or the last
part of the directory's path is empty, which it never is. The branch is `HEAD` only if it was given
so. -/
theorem detectScope_parts (surroundings : Surroundings) (given : ScopeOverrides) :
    let scope := surroundings.detectScope given
    (scope.host = "" ↔ given.host = some "") ∧ (scope.branch = "" ↔ given.branch = some "") ∧
    (scope.branch = "HEAD" ↔ given.branch = some "HEAD") ∧
    ((∃ host org project, surroundings.Names host org project ∧
        given.Completes host org project scope ∧ (scope.org = "" ↔ given.org = some "") ∧
        (scope.project = "" ↔ given.project = some "")) ∨
      ((∀ host org project, ¬surroundings.Names host org project) ∧
        ∃ user, surroundings.IsUser user ∧
          given.Completes "local" user (surroundings.directory.getD "workspace") scope ∧
          (scope.org = "" ↔ given.org = some "" ∨ given.org = none ∧ user = "") ∧
          (scope.project = "" ↔ given.project = some "" ∨
            given.project = none ∧ surroundings.directory = some ""))) := by
  intro scope
  have hbranches : (scope.branch = "" ↔ given.branch = some "") ∧
      (scope.branch = "HEAD" ↔ given.branch = some "HEAD") :=
    ⟨surroundings.detectScope_branch_iff given (.inl rfl),
      surroundings.detectScope_branch_iff given (.inr rfl)⟩
  rcases surroundings.detectedScope_cases scope.branch with
    ⟨host, org, project, hnames, hdetected⟩ | ⟨hnone, hdetected⟩
  · have hcompletes : given.Completes host org project scope :=
      completes_of_detectedScope hdetected
    obtain ⟨hhost, horg, hproject⟩ := hnames.ne_empty
    refine ⟨?_, hbranches.1, hbranches.2, .inl ⟨host, org, project, hnames, hcompletes, ?_, ?_⟩⟩
    · rw [hcompletes.host, Option.getD_eq_iff]
      simp [hhost]
    · rw [hcompletes.org, Option.getD_eq_iff]
      simp [horg]
    · rw [hcompletes.project, Option.getD_eq_iff]
      simp [hproject]
  · have hcompletes : given.Completes "local" (surroundings.localScope scope.branch).org
        (surroundings.directory.getD "workspace") scope :=
      completes_of_detectedScope hdetected
    refine ⟨?_, hbranches.1, hbranches.2,
      .inr ⟨hnone, _, surroundings.isUser_localScope scope.branch, hcompletes, ?_, ?_⟩⟩
    · rw [hcompletes.host, Option.getD_eq_iff]
      simp
    · rw [hcompletes.org, Option.getD_eq_iff]
    · rw [hcompletes.project, Option.getD_eq_iff, Option.getD_eq_iff]
      simp

/-- Surroundings without a repository, where the user goes by an empty name. -/
def nameless : Surroundings := ⟨[("USER", "")], some "work", ⟨none, none⟩⟩

/-- The scopes of all directories of that name belong to no one. -/
theorem detectScope_parts_nameless :
    nameless.IsUser "" ∧ (∀ host org project, ¬nameless.Names host org project) ∧
      (nameless.detectScope {}).org = "" := by
  have hnone : ∀ host org project, ¬nameless.Names host org project := by
    rintro host org project ⟨output, hremote, _⟩
    cases hremote
  have hempty : nameless.get? "USER" = some "" := rfl
  obtain ⟨_, _, _, hsource⟩ := detectScope_parts nameless {}
  rcases hsource with ⟨host, org, project, hnames, _⟩ | ⟨_, user, huser, _, horg, _⟩
  · exact absurd hnames (hnone host org project)
  · -- the variable is set, so that no other name is looked for
    have hname : user = "" := by
      cases huser with
      | user name h => exact Option.some.inj (h.symm.trans hempty)
      | username name hunset => exact absurd (hempty.symm.trans hunset) (Option.some_ne_none _)
      | unknown hunset => exact absurd (hempty.symm.trans hunset) (Option.some_ne_none _)
    exact ⟨.user "" hempty, hnone, horg.mpr (.inr ⟨rfl, hname⟩)⟩

end Surroundings

end SessionArchive
