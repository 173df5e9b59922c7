import SessionArchive.Proofs.Scope.Remote

/-!
# The hosts that an address tells apart

The authority of an address is cut at its first colon, so the host of an address is what stands
before the port. A host that is written as an IPv6 address in brackets has colons of its own, and
only what stands before the first of them is kept (`Host.kept`). Two hosts are told apart unless
both are in brackets and begin with the same group (`Host.Merges`).

The segments of the path are counted after its ending is taken off, so a path such as `acme/.git`
has one of them only, and an address with it says no scope, whatever its host.
-/

set_option autoImplicit false

namespace SessionArchive.Scope

namespace Remote

/-! ## Addresses with a scheme -/

/-- White space that is dropped from the end takes no more than one segment of a path away, and so
leaves more than slashes of a path with two. -/
theorem exists_mem_dropEndWhile {path : List Char} (hpath : 2 ≤ (segmentsOf path).length) :
    ∃ c ∈ Text.dropEndWhile Text.isBlank path, c ≠ '/' := by
  by_contra hall
  push Not at hall
  obtain ⟨tail, hsplit, htail⟩ := Text.exists_dropEndWhile_append Text.isBlank path
  have hslash : '/' ∉ tail := fun h => absurd (htail '/' h) (by decide)
  have hsegments : segmentsOf path = segmentsOf tail := by
    rw [hsplit, List.eq_replicate_of_mem hall]
    generalize (Text.dropEndWhile Text.isBlank path).length = slashes
    induction slashes with
    | zero => rw [List.replicate_zero, List.nil_append]
    | succ n ih => rw [List.replicate_succ, List.cons_append, segmentsOf_cons, ih]
  have hfew := segmentsOf_of_not_mem hslash
  rw [hsegments] at hpath
  omega

/-- What stands around an address with a scheme touches only its scheme and its path. -/
theorem ofAddress?_stripped_url {scheme authority path : List Char} (hscheme : ':' ∉ scheme)
    (hauthority : '/' ∉ authority) (hpath : 2 ≤ (segmentsOf path).length) :
    ofAddress? (stripped (scheme ++ [':', '/', '/'] ++ (authority ++ '/' :: path))) =
      some ⟨hostOfAuthority authority, withoutEnding path⟩ := by
  have htrimmed : ':' ∉ scheme.dropWhile Text.isBlank :=
    fun h => hscheme ((List.dropWhile_sublist _).subset h)
  have hdrop : (scheme ++ [':', '/', '/'] ++ (authority ++ '/' :: path)).dropWhile Text.isBlank =
      (scheme.dropWhile Text.isBlank ++ [':', '/', '/'] ++ authority) ++ '/' :: path := by
    rw [List.append_assoc, List.cons_append, Text.dropWhile_append_cons (by decide)]
    simp
  rw [stripped_eq, hdrop, withoutEnding_append_cons _ (exists_mem_dropEndWhile hpath),
    List.append_assoc, ofAddress?_url htrimmed hauthority]

end Remote

theorem ofRemote?_eq_none_of_few {address branch : String} {remote : Remote}
    (haddress : Remote.ofAddress? (Remote.stripped address.toList) = some remote)
    (hfew : remote.segments.length < 2) : ofRemote? address branch = none := by
  refine Option.eq_none_iff_forall_ne_some.mpr fun scope hscope => ?_
  obtain ⟨found, groups, project, hfound, hsegments, _, hgroups, _⟩ :=
    ofRemote?_eq_some_iff.mp hscope
  rw [haddress] at hfound
  cases hfound
  have hlength := List.length_pos_iff.mpr hgroups
  rw [hsegments, List.length_append, List.length_singleton] at hfew
  omega

/-! ## Hosts -/

/-- A host of an address: a name, or an IPv6 address in brackets, whose first group is what stands
before its first colon. -/
inductive Host where
  | name (text : List Char) (ne_nil : text ≠ [])
      (free : ∀ c ∈ text, c ≠ '/' ∧ c ≠ '@' ∧ c ≠ ':' ∧ c ≠ '[' ∧ c ≠ ']')
  | literal (first rest : List Char)
      (first_free : ∀ c ∈ first, c ≠ '/' ∧ c ≠ '@' ∧ c ≠ ':' ∧ c ≠ '[' ∧ c ≠ ']')
      (rest_free : ∀ c ∈ rest, c ≠ '/' ∧ c ≠ '@' ∧ c ≠ '[' ∧ c ≠ ']')

namespace Host

/-- The host as it is written. -/
def text : Host → List Char
  | .name text .. => text
  | .literal first rest .. => '[' :: first ++ ':' :: rest ++ [']']

/-- What is kept of it. -/
def kept : Host → List Char
  | .name text .. => text
  | .literal first .. => '[' :: first

/-- The address of a path on a host. -/
def address (host : Host) (scheme path : List Char) : String :=
  String.ofList (scheme ++ [':', '/', '/'] ++ (host.text ++ '/' :: path))

/-- The hosts that are not told apart. -/
inductive Merges : Host → Host → Prop where
  | same (host : Host) : Merges host host
  | literals (first rest otherRest : List Char) (hfirst hrest hother) :
      Merges (.literal first rest hfirst hrest) (.literal first otherRest hfirst hother)

theorem kept_ne_nil (host : Host) : host.kept ≠ [] := by
  cases host with
  | name text hne => exact hne
  | literal first rest => exact List.cons_ne_nil _ _

theorem ne_of_mem_text {host : Host} {c : Char} (hc : c ∈ host.text) : c ≠ '/' ∧ c ≠ '@' := by
  cases host with
  | name text _ hfree => exact ⟨(hfree c hc).1, (hfree c hc).2.1⟩
  | literal first rest hfirst hrest =>
    simp only [text, List.cons_append, List.append_assoc, List.mem_cons, List.mem_append,
      List.not_mem_nil, or_false] at hc
    rcases hc with rfl | hc | rfl | hc | rfl
    · decide
    · exact ⟨(hfirst c hc).1, (hfirst c hc).2.1⟩
    · decide
    · exact ⟨(hrest c hc).1, (hrest c hc).2.1⟩
    · decide

theorem hostOfAuthority_text (host : Host) : Remote.hostOfAuthority host.text = host.kept := by
  rw [Remote.hostOfAuthority, Text.afterLast_of_not_mem fun h => (ne_of_mem_text h).2 rfl]
  cases host with
  | name text _ hfree => exact Text.beforeFirst_of_not_mem fun h => (hfree ':' h).2.2.1 rfl
  | literal first rest hfirst hrest =>
    have hcolon : ':' ∉ '[' :: first := by
      simpa using fun h => (hfirst ':' h).2.2.1 rfl
    rw [text, List.append_assoc]
    exact Text.beforeFirst_append hcolon

/-- A name has no bracket, and a literal in brackets is kept up to its first group. -/
theorem kept_eq_iff (a b : Host) : a.kept = b.kept ↔ a.Merges b := by
  constructor
  · intro h
    cases a with
    | name text hne hfree =>
      cases b with
      | name other =>
        cases h
        exact .same _
      | literal first =>
        cases h
        exact absurd rfl (hfree '[' List.mem_cons_self).2.2.2.1
    | literal first rest hfirst hrest =>
      cases b with
      | name other _ hfree =>
        cases h
        exact absurd rfl (hfree '[' List.mem_cons_self).2.2.2.1
      | literal other =>
        cases h
        exact .literals _ _ _ _ _ _
  · rintro (_ | _)
    · rfl
    · rfl

end Host

/-- Two addresses that differ only in their hosts say scopes that differ only in what is kept of
the hosts, or none if too little is left of the path. -/
theorem ofRemote?_hosts {scheme path : List Char} (hscheme : ':' ∉ scheme)
    (hpath : 2 ≤ (Remote.segmentsOf path).length) (a b : Host) (branch : String) :
    (2 ≤ (Remote.segmentsOf (Remote.withoutEnding path)).length →
      ∃ org project : String,
        ofRemote? (a.address scheme path) branch =
          some ⟨String.ofList a.kept, org, project, branch⟩ ∧
        ofRemote? (b.address scheme path) branch =
          some ⟨String.ofList b.kept, org, project, branch⟩ ∧
        (String.ofList a.kept = String.ofList b.kept ↔ a.Merges b)) ∧
      ((Remote.segmentsOf (Remote.withoutEnding path)).length < 2 →
        ofRemote? (a.address scheme path) branch = none ∧
          ofRemote? (b.address scheme path) branch = none) := by
  have haddress : ∀ host : Host,
      Remote.ofAddress? (Remote.stripped (host.address scheme path).toList) =
        some ⟨host.kept, Remote.withoutEnding path⟩ := by
    intro host
    rw [Host.address, String.toList_ofList,
      Remote.ofAddress?_stripped_url hscheme (fun h => (Host.ne_of_mem_text h).1 rfl) hpath,
      host.hostOfAuthority_text]
  constructor
  · intro hmany
    obtain ⟨groups, project, hsegments⟩ :=
      (Remote.segmentsOf (Remote.withoutEnding path)).eq_nil_or_concat'.resolve_left
        fun hnil => by simp [hnil] at hmany
    have hgroups : groups ≠ [] := by
      rintro rfl
      simp [hsegments] at hmany
    have hscope : ∀ host : Host, ofRemote? (host.address scheme path) branch =
        some ⟨String.ofList host.kept, String.ofList (['/'].intercalate groups),
          String.ofList project, branch⟩ := fun host =>
      ofRemote?_eq_some_iff.mpr ⟨_, groups, project, haddress host,
        (Remote.segments_eq _).trans hsegments, host.kept_ne_nil, hgroups, rfl⟩
    exact ⟨_, _, hscope a, hscope b, String.ofList_inj.trans (a.kept_eq_iff b)⟩
  · intro hfew
    exact ⟨ofRemote?_eq_none_of_few (haddress a) hfew, ofRemote?_eq_none_of_few (haddress b) hfew⟩

namespace Host

/-- The address of the machine itself. -/
def loopback : Host := .literal [] [':', '1'] (by simp) (by simp)

/-- The address next to it. -/
def besideLoopback : Host := .literal [] [':', '2'] (by simp) (by simp)

end Host

/-- Two machines whose repositories share their sessions and their history. -/
theorem ofRemote?_hosts_loopback :
    Host.loopback ≠ Host.besideLoopback ∧
      Host.loopback.address "https".toList "acme/widget".toList = "https://[::1]/acme/widget" ∧
      Host.besideLoopback.address "https".toList "acme/widget".toList =
        "https://[::2]/acme/widget" ∧
      ∃ org project : String,
        ofRemote? "https://[::1]/acme/widget" "main" = some ⟨"[", org, project, "main"⟩ ∧
        ofRemote? "https://[::2]/acme/widget" "main" = some ⟨"[", org, project, "main"⟩ := by
  have hscheme : ':' ∉ "https".toList := by decide
  have hpath : 2 ≤ (Remote.segmentsOf "acme/widget".toList).length := by decide
  obtain ⟨org, project, hloopback, hbeside, _⟩ :=
    (ofRemote?_hosts hscheme hpath Host.loopback Host.besideLoopback "main").1 (by decide)
  exact ⟨by simp [Host.loopback, Host.besideLoopback], by decide, by decide, org, project,
    hloopback, hbeside⟩

end SessionArchive.Scope
