import SessionArchive.Proofs.Text.Split
import SessionArchive.Scope.Remote

/-!
# What a remote address says

An address says a scope if its host is not empty and its path has at least two segments
(`Scope.ofRemote?_eq_some_iff`). The segments of a path that is cut at a slash are those of both
parts, and what is dropped from the end of an address is dropped from the end of its last part.
Every scope that an address says is well formed (`Scope.WellFormed`), and well-formed scopes are of
the same repository if their names are the same.
-/

set_option autoImplicit false

namespace SessionArchive.Scope

namespace Remote

/-! ## Segments -/

/-- The pieces of a path between its slashes, less the empty ones. -/
def segmentsOf (path : List Char) : List (List Char) :=
  (Text.splitOn '/' path).filter (!·.isEmpty)

theorem segments_eq (remote : Remote) : remote.segments = segmentsOf remote.path := rfl

@[simp] theorem segmentsOf_append_cons (before after : List Char) :
    segmentsOf (before ++ '/' :: after) = segmentsOf before ++ segmentsOf after := by
  rw [segmentsOf, Text.splitOn_eq, List.splitOn_append_cons_self, List.filter_append,
    ← Text.splitOn_eq, ← Text.splitOn_eq, ← segmentsOf, ← segmentsOf]

@[simp] theorem segmentsOf_cons (path : List Char) : segmentsOf ('/' :: path) = segmentsOf path :=
  segmentsOf_append_cons [] path

/-- Segments that are joined by slashes are found again. -/
theorem segmentsOf_intercalate {segments : List (List Char)} (hne : segments ≠ [])
    (hsegments : ∀ segment ∈ segments, segment ≠ [] ∧ '/' ∉ segment) :
    segmentsOf (['/'].intercalate segments) = segments := by
  rw [segmentsOf, Text.splitOn_eq,
    List.splitOn_intercalate '/' (fun segment hsegment => (hsegments segment hsegment).2) hne]
  refine List.filter_eq_self.mpr fun segment hsegment => ?_
  simpa using (hsegments segment hsegment).1

theorem segmentsOf_of_not_mem {path : List Char} (h : '/' ∉ path) :
    (segmentsOf path).length ≤ 1 := by
  rw [segmentsOf, Text.splitOn_eq, List.splitOn_eq_singleton h]
  exact List.length_filter_le _ _

theorem ne_nil_of_mem_segmentsOf {path segment : List Char} (h : segment ∈ segmentsOf path) :
    segment ≠ [] ∧ '/' ∉ segment := by
  obtain ⟨hsplit, hne⟩ := List.mem_filter.mp h
  exact ⟨by simpa using hne, Text.sep_not_mem_of_mem_splitOn hsplit⟩

/-! ## Endings -/

/-- An address without white space at its end, then slashes, then one `.git`. -/
def withoutEnding (address : List Char) : List Char :=
  Text.dropEnding ['.', 'g', 'i', 't']
    (Text.dropEndWhile (· == '/') (Text.dropEndWhile Text.isBlank address))

theorem stripped_eq (address : List Char) :
    stripped address = withoutEnding (address.dropWhile Text.isBlank) := rfl

/-- The ending of an address is the one of its path, unless only slashes and white space follow. -/
theorem withoutEnding_append_cons (before : List Char) {path : List Char}
    (hpath : ∃ c ∈ Text.dropEndWhile Text.isBlank path, c ≠ '/') :
    withoutEnding (before ++ '/' :: path) = before ++ '/' :: withoutEnding path := by
  obtain ⟨c, hc, hne⟩ := hpath
  obtain ⟨first, last, hparts⟩ := List.append_of_mem hc
  have hslash : (c == '/') = false := beq_eq_false_iff_ne.mpr hne
  have hsame : before ++ '/' :: (first ++ c :: last) = (before ++ '/' :: first) ++ c :: last := by
    simp
  rw [withoutEnding, Text.dropEndWhile_append_cons (by decide), hparts, hsame,
    Text.dropEndWhile_append_cons (p := (· == '/')) hslash, withoutEnding, hparts,
    Text.dropEndWhile_append_cons (p := (· == '/')) hslash,
    ← Text.dropEnding_append_cons (by decide)]
  simp

/-! ## The two forms -/

theorem ofAddress?_url {scheme authority path : List Char} (hscheme : ':' ∉ scheme)
    (hauthority : '/' ∉ authority) :
    ofAddress? (scheme ++ [':', '/', '/'] ++ (authority ++ '/' :: path)) =
      some ⟨hostOfAuthority authority, path⟩ := by
  rw [ofAddress?, Text.cutAtText?_append hscheme]
  simp [ofSchemeSpecific?, Text.cutAt?_append hauthority]

theorem ofAddress?_shorthand {authority path : List Char}
    (hauthority : '/' ∉ authority ∧ ':' ∉ authority)
    (hplain : ¬[':', '/', '/'] <:+: authority ++ ':' :: path) :
    ofAddress? (authority ++ ':' :: path) = some ⟨Text.afterLast '@' authority, path⟩ := by
  rw [ofAddress?, Text.cutAtText?_eq_none hplain]
  simp [ofShorthand?, Text.cutAt?_append hauthority.2, hauthority.1]

/-- No host that is read from an address has a separator in it. -/
theorem host_of_ofAddress? {address : List Char} {remote : Remote}
    (h : ofAddress? address = some remote) : ∀ c ∈ remote.host, c ≠ '/' ∧ c ≠ '@' ∧ c ≠ ':' := by
  rw [ofAddress?] at h
  split at h
  · -- a host behind a scheme ends at the first slash, begins behind the last at sign in front of it
    -- and has its port cut off
    rename_i scheme rest _
    obtain ⟨⟨authority, path⟩, hcut, rfl⟩ := Option.map_eq_some_iff.mp h
    intro c hc
    have hlast := Text.mem_of_mem_beforeFirst hc
    refine ⟨?_, ?_, ?_⟩
    · exact ne_of_mem_of_not_mem (Text.mem_of_mem_afterLast hlast) (Text.eq_of_cutAt? hcut).1
    · exact ne_of_mem_of_not_mem hlast (Text.sep_not_mem_afterLast _ _)
    · exact ne_of_mem_of_not_mem hc (Text.sep_not_mem_beforeFirst _ _)
  · rw [ofShorthand?] at h
    split at h
    · cases h
    · rename_i authority path hcut
      split at h
      · cases h
      · rename_i hslash
        cases h
        intro c hc
        have hmem := Text.mem_of_mem_afterLast hc
        refine ⟨?_, ?_, ?_⟩
        · exact ne_of_mem_of_not_mem hmem (by simpa using hslash)
        · exact ne_of_mem_of_not_mem hc (Text.sep_not_mem_afterLast _ _)
        · exact ne_of_mem_of_not_mem hmem (Text.eq_of_cutAt? hcut).1

end Remote

/-! ## Scopes -/

/-- An address says a scope if it has a host and at least two segments. -/
theorem ofRemote?_eq_some_iff {address branch : String} {scope : Scope} :
    ofRemote? address branch = some scope ↔
      ∃ remote groups project, Remote.ofAddress? (Remote.stripped address.toList) = some remote ∧
        remote.segments = groups ++ [project] ∧ remote.host ≠ [] ∧ groups ≠ [] ∧
        scope = ⟨String.ofList remote.host, String.ofList (['/'].intercalate groups),
          String.ofList project, branch⟩ := by
  constructor
  · intro h
    simp only [ofRemote?] at h
    split at h
    · cases h
    · rename_i remote haddress
      split at h
      · cases h
      · rename_i project hlast
        split at h
        · cases h
        · rename_i hparts
          cases h
          rw [Bool.or_eq_true, not_or, List.isEmpty_iff, List.isEmpty_iff] at hparts
          -- the last segment is the project, and those before it make up the organization
          refine ⟨remote, remote.segments.dropLast, project, haddress, ?_, hparts.1, hparts.2, ?_⟩
          · exact (List.dropLast_append_getLast? project hlast).symm
          · rw [Text.joinWith_eq]
  · rintro ⟨remote, groups, project, haddress, hsegments, hhost, hgroups, rfl⟩
    simp [ofRemote?, haddress, hsegments, hhost, hgroups, Text.joinWith_eq]

/-! ## Well-formed scopes -/

/-- A scope whose parts are told apart in its name: they are not empty, the host has no separator of
an address in it, and slashes stand only between the segments of the organization. -/
structure WellFormed (scope : Scope) : Prop where
  host_ne_empty : scope.host ≠ ""
  host_free : ∀ c ∈ scope.host.toList, c ≠ '/' ∧ c ≠ '@' ∧ c ≠ ':'
  org_segments : ∃ segments : List (List Char), segments ≠ [] ∧
    (∀ segment ∈ segments, segment ≠ [] ∧ '/' ∉ segment) ∧
    scope.org.toList = ['/'].intercalate segments
  project_ne_empty : scope.project ≠ ""
  project_free : '/' ∉ scope.project.toList

theorem wellFormed_of_ofRemote? {address branch : String} {scope : Scope}
    (h : ofRemote? address branch = some scope) : scope.WellFormed := by
  obtain ⟨remote, groups, project, haddress, hsegments, hhost, hgroups, rfl⟩ :=
    ofRemote?_eq_some_iff.mp h
  have hall : ∀ segment ∈ groups ++ [project], segment ≠ [] ∧ '/' ∉ segment := by
    intro segment hsegment
    rw [← hsegments, Remote.segments_eq] at hsegment
    exact Remote.ne_nil_of_mem_segmentsOf hsegment
  obtain ⟨hne, hfree⟩ := hall project (List.mem_append_right _ (List.mem_singleton_self _))
  exact {
    host_ne_empty := by simpa using hhost
    host_free := by simpa using Remote.host_of_ofAddress? haddress
    org_segments := ⟨groups, hgroups,
      fun segment hsegment => hall segment (List.mem_append_left _ hsegment), by simp⟩
    project_ne_empty := by simpa using hne
    project_free := by simpa using hfree }

theorem toList_repositoryPath (scope : Scope) : scope.repositoryPath.toList =
    scope.host.toList ++ '/' :: (scope.org.toList ++ '/' :: scope.project.toList) := by
  show (scope.host ++ "/" ++ scope.org ++ "/" ++ scope.project).toList = _
  simp

/-- Well-formed scopes with one name have the same host, organization and project. -/
theorem WellFormed.eq_of_repositoryPath {a b : Scope} (ha : a.WellFormed) (hb : b.WellFormed)
    (hname : a.repositoryPath = b.repositoryPath) :
    a.host = b.host ∧ a.org = b.org ∧ a.project = b.project := by
  have hchars := congrArg String.toList hname
  rw [toList_repositoryPath, toList_repositoryPath] at hchars
  -- the host ends at the first slash
  have hcut := congrArg (Text.cutAt? '/') hchars
  rw [Text.cutAt?_append fun hslash => (ha.host_free '/' hslash).1 rfl,
    Text.cutAt?_append fun hslash => (hb.host_free '/' hslash).1 rfl] at hcut
  obtain ⟨hhost, hrest⟩ := Prod.mk.inj (Option.some.inj hcut)
  -- and the project begins after the last one
  have hlast := congrArg (Text.afterLast '/') hrest
  rw [Text.afterLast_append ha.project_free, Text.afterLast_append hb.project_free] at hlast
  rw [hlast] at hrest
  exact ⟨String.toList_inj.mp hhost, String.toList_inj.mp (List.append_cancel_right hrest),
    String.toList_inj.mp hlast⟩

/-- A scope that an address says is well formed, on the branch that was asked for, and no other
scope that an address says has the name of its repository for another repository. -/
theorem ofRemote?_wellFormed {address branch : String} {scope : Scope}
    (h : ofRemote? address branch = some scope) :
    scope.branch = branch ∧ scope.WellFormed ∧
      ∀ (otherAddress otherBranch : String) (other : Scope),
        ofRemote? otherAddress otherBranch = some other →
        other.repositoryPath = scope.repositoryPath →
        other.host = scope.host ∧ other.org = scope.org ∧ other.project = scope.project := by
  refine ⟨?_, wellFormed_of_ofRemote? h, fun otherAddress otherBranch other hother hname => ?_⟩
  · obtain ⟨remote, groups, project, _, _, _, _, rfl⟩ := ofRemote?_eq_some_iff.mp h
    rfl
  · exact (wellFormed_of_ofRemote? hother).eq_of_repositoryPath (wellFormed_of_ofRemote? h) hname

theorem ofRemote?_wellFormed_nested :
    ∃ a b : Scope,
      ofRemote? "https://me:a@b@git.host:8443//acme//tools/.git/widget.git/" "main" = some a ∧
      ofRemote? "git@git.host:/acme/tools/.git/widget" "dev" = some b ∧ a ≠ b ∧
      (a.branch = "main" ∧ a.WellFormed) ∧ b.repositoryPath = a.repositoryPath ∧
      b.host = a.host ∧ b.org = a.org ∧ b.project = a.project := by
  have hurl : ofRemote? "https://me:a@b@git.host:8443//acme//tools/.git/widget.git/" "main" =
      some ⟨"git.host", "acme/tools/.git", "widget", "main"⟩ := by decide +kernel
  have hshort : ofRemote? "git@git.host:/acme/tools/.git/widget" "dev" =
      some ⟨"git.host", "acme/tools/.git", "widget", "dev"⟩ := by decide +kernel
  obtain ⟨hbranch, hformed, hother⟩ := ofRemote?_wellFormed hurl
  exact ⟨_, _, hurl, hshort, by decide, ⟨hbranch, hformed⟩, by decide,
    hother _ _ _ hshort (by decide)⟩

end SessionArchive.Scope
