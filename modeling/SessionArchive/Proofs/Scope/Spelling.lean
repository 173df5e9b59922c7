import Mathlib.Data.List.Chain
import SessionArchive.Proofs.Scope.Remote

/-!
# The ways to write an address

A repository is known by its host, the groups that it is in, and its name (`Remote.Identity`). Its
address can be written with a scheme, and then with any credentials and any port, or in the short
form with or without a user; with or without `.git` and slashes at the end, and with white space
around it (`Remote.Spelling`). Whichever way it is written, the address says the same scope.

Both forms end with the path, so what stands after the path can be taken off first
(`Identity.withoutEnding_write`), and white space before the address only makes the scheme or the
user shorter (`Form.exists_dropWhile_write`).
-/

set_option autoImplicit false

namespace SessionArchive.Scope

namespace Remote

/-! ## Repositories and addresses -/

/-- A repository that an address can name without any doubt where its parts begin and end. -/
structure Identity where
  host : List Char
  groups : List (List Char)
  project : List Char
  host_ne_nil : host ≠ []
  host_free : ∀ c ∈ host, c ≠ '/' ∧ c ≠ '@' ∧ c ≠ ':' ∧ Text.isBlank c = false
  groups_ne_nil : groups ≠ []
  segments_free : ∀ segment ∈ groups ++ [project], segment ≠ [] ∧ '/' ∉ segment
  project_plain : ¬['.', 'g', 'i', 't'] <:+ project
  project_last : ∀ c ∈ project.getLast?, Text.isBlank c = false

namespace Identity

/-- The segments, joined by slashes. -/
def path (identity : Identity) : List Char :=
  ['/'].intercalate identity.groups ++ '/' :: identity.project

/-- The scope of a branch of the repository. -/
def scope (identity : Identity) (branch : String) : Scope :=
  ⟨String.ofList identity.host, String.ofList (['/'].intercalate identity.groups),
    String.ofList identity.project, branch⟩

theorem group_free (identity : Identity) :
    ∀ segment ∈ identity.groups, segment ≠ [] ∧ '/' ∉ segment := fun segment hsegment =>
  identity.segments_free segment (List.mem_append_left _ hsegment)

theorem project_free (identity : Identity) : identity.project ≠ [] ∧ '/' ∉ identity.project :=
  identity.segments_free identity.project (List.mem_append_right _ (List.mem_singleton_self _))

end Identity

/-- Who is said before a host. -/
def userBefore : Option (List Char) → List Char
  | none => []
  | some user => user ++ ['@']

/-- The port that is said after a host. -/
def portAfter : Option (List Char) → List Char
  | none => []
  | some port => ':' :: port

/-- What an address says besides the host and the path. -/
inductive Form where
  | url (scheme : List Char) (userinfo port : Option (List Char)) (scheme_free : ':' ∉ scheme)
      (userinfo_free : ∀ text ∈ userinfo, '/' ∉ text)
      (port_free : ∀ text ∈ port, '/' ∉ text ∧ '@' ∉ text)
  | shorthand (user : Option (List Char)) (rooted : Bool)
      (user_free : ∀ text ∈ user, '/' ∉ text ∧ ':' ∉ text)

/-- The address of a path on a host. -/
def Form.write (host path : List Char) : Form → List Char
  | .url scheme userinfo port .. =>
    scheme ++ [':', '/', '/'] ++ (userBefore userinfo ++ (host ++ portAfter port) ++ '/' :: path)
  | .shorthand user rooted _ =>
    userBefore user ++ host ++ ':' :: ((if rooted then ['/'] else []) ++ path)

/-- A form of the address, and what may stand around it. -/
structure Spelling where
  form : Form
  suffixed : Bool
  slashes : Nat
  lead : List Char
  trail : List Char
  lead_blank : ∀ c ∈ lead, Text.isBlank c = true
  trail_blank : ∀ c ∈ trail, Text.isBlank c = true

namespace Spelling

/-- What follows the path, less the white space. -/
def ending (spelling : Spelling) : List Char :=
  (if spelling.suffixed then ['.', 'g', 'i', 't'] else []) ++ List.replicate spelling.slashes '/'

/-- The address of a repository. -/
def address (spelling : Spelling) (identity : Identity) : String :=
  String.ofList (spelling.lead ++
    spelling.form.write identity.host (identity.path ++ spelling.ending ++ spelling.trail))

end Spelling

/-! ## What stands around the address -/

/-- The path is the last thing that is written. -/
theorem Form.write_append (form : Form) (host before after : List Char) :
    form.write host (before ++ after) = form.write host before ++ after := by
  cases form with
  | url scheme userinfo port => simp [write]
  | shorthand user rooted => simp [write]

/-- Without white space at its start, an address is still one of the same path on the same host. -/
theorem Form.exists_dropWhile_write (form : Form) {host lead : List Char}
    (hlead : ∀ c ∈ lead, Text.isBlank c = true) (hhost : host ≠ [])
    (hfree : ∀ c ∈ host, Text.isBlank c = false) :
    ∃ trimmed : Form, ∀ path,
      (lead ++ form.write host path).dropWhile Text.isBlank = trimmed.write host path := by
  cases form with
  | url scheme userinfo port hscheme huserinfo hport =>
    refine ⟨.url (scheme.dropWhile Text.isBlank) userinfo port
      (fun h => hscheme ((List.dropWhile_sublist _).subset h)) huserinfo hport, fun path => ?_⟩
    rw [List.dropWhile_append_of_pos hlead, write, write, List.append_assoc, List.cons_append,
      Text.dropWhile_append_cons (by decide)]
    simp
  | shorthand user rooted huser =>
    cases user with
    | none =>
      -- the host comes first, and is left as it is
      obtain ⟨first, rest, rfl⟩ := List.exists_cons_of_ne_nil hhost
      refine ⟨.shorthand none rooted huser, fun path => ?_⟩
      rw [List.dropWhile_append_of_pos hlead, write]
      simp [userBefore, hfree first List.mem_cons_self]
    | some user =>
      refine ⟨.shorthand (some (user.dropWhile Text.isBlank)) rooted ?_, fun path => ?_⟩
      · rintro text ⟨⟩
        have hsubset := (List.dropWhile_sublist (p := Text.isBlank) (l := user)).subset
        exact ⟨fun h => (huser user rfl).1 (hsubset h), fun h => (huser user rfl).2 (hsubset h)⟩
      · rw [List.dropWhile_append_of_pos hlead, write, write, userBefore, userBefore]
        simp only [List.append_assoc, List.cons_append, List.nil_append]
        rw [Text.dropWhile_append_cons (by decide)]

namespace Identity

variable (identity : Identity) (spelling : Spelling)

theorem exists_mem_project : ∃ c ∈ identity.project, c ≠ '/' := by
  obtain ⟨c, hc⟩ := List.exists_mem_of_ne_nil _ identity.project_free.1
  exact ⟨c, hc, ne_of_mem_of_not_mem hc identity.project_free.2⟩

/-- White space is dropped from the end up to the slashes, the suffix or the project. -/
theorem dropEndWhile_isBlank :
    Text.dropEndWhile Text.isBlank (identity.project ++ (spelling.ending ++ spelling.trail)) =
      identity.project ++ spelling.ending := by
  rw [← List.append_assoc, Text.dropEndWhile_append_of_all spelling.trail_blank]
  refine Text.dropEndWhile_eq_self ?_
  rw [Spelling.ending]
  -- the last character is of the project, of the suffix, or a slash
  cases spelling.slashes with
  | zero =>
    cases spelling.suffixed with
    | false => simpa using identity.project_last
    | true => simp [Text.isBlank]
  | succ n =>
    simp [List.replicate_succ', ← List.append_assoc, Text.isBlank]

theorem withoutEnding_project :
    withoutEnding (identity.project ++ (spelling.ending ++ spelling.trail)) =
      identity.project := by
  have hslashes : ∀ c ∈ List.replicate spelling.slashes '/', (c == '/') = true := by simp
  rw [withoutEnding, dropEndWhile_isBlank, Spelling.ending, ← List.append_assoc,
    Text.dropEndWhile_append_of_all hslashes]
  cases spelling.suffixed with
  | false =>
    have hlast : ∀ c ∈ identity.project.getLast?, (c == '/') = false := fun c hc =>
      beq_eq_false_iff_ne.mpr
        (ne_of_mem_of_not_mem (List.mem_of_getLast? hc) identity.project_free.2)
    rw [if_neg Bool.false_ne_true, List.append_nil, Text.dropEndWhile_eq_self hlast,
      Text.dropEnding_of_not_suffix identity.project_plain]
  | true =>
    rw [if_pos rfl, Text.dropEndWhile_eq_self (by simp), Text.dropEnding_append]

theorem withoutEnding_write (form : Form) :
    withoutEnding (form.write identity.host (identity.path ++ spelling.ending ++ spelling.trail)) =
      form.write identity.host identity.path := by
  obtain ⟨c, hc, hne⟩ := identity.exists_mem_project
  rw [path, List.append_assoc, List.append_assoc, Form.write_append, List.cons_append,
    withoutEnding_append_cons _ ⟨c, ?_, hne⟩, withoutEnding_project, ← Form.write_append]
  rw [dropEndWhile_isBlank]
  exact List.mem_append_left _ hc

/-- An address without what stands around it is an address in one of the forms. -/
theorem exists_stripped_address :
    ∃ form : Form, stripped (spelling.address identity).toList =
      form.write identity.host identity.path := by
  obtain ⟨form, hform⟩ := spelling.form.exists_dropWhile_write spelling.lead_blank
    identity.host_ne_nil fun c hc => (identity.host_free c hc).2.2.2
  refine ⟨form, ?_⟩
  rw [stripped_eq, Spelling.address, String.toList_ofList, hform, withoutEnding_write]

/-! ## What an address says -/

theorem segmentsOf_path :
    segmentsOf identity.path = identity.groups ++ [identity.project] := by
  have hproject := segmentsOf_intercalate (List.cons_ne_nil identity.project [])
    (List.forall_mem_singleton.mpr identity.project_free)
  rw [List.intercalate_singleton] at hproject
  rw [path, segmentsOf_append_cons, hproject,
    segmentsOf_intercalate identity.groups_ne_nil identity.group_free]

end Identity

/-- The second of two neighbours is not a slash if the first is one. -/
def NotBothSlashes (a b : Char) : Prop := a = '/' → b ≠ '/'

theorem isChain_of_not_mem {cs : List Char} (h : '/' ∉ cs) : cs.IsChain NotBothSlashes := by
  refine List.Pairwise.isChain (List.pairwise_of_forall_mem_list ?_)
  intro a _ b hb _
  exact ne_of_mem_of_not_mem hb h

theorem isChain_segment {segment : List Char} (h : segment ≠ [] ∧ '/' ∉ segment) :
    ('/' :: segment ++ ['/']).IsChain NotBothSlashes := by
  have hlast : segment.getLast h.1 ≠ '/' := ne_of_mem_of_not_mem (List.getLast_mem h.1) h.2
  have hall : ('/' :: segment).IsChain NotBothSlashes :=
    List.isChain_cons.mpr ⟨fun b hb _ => ne_of_mem_of_not_mem (List.mem_of_head? hb) h.2,
      isChain_of_not_mem h.2⟩
  refine List.isChain_append.mpr ⟨hall, List.isChain_singleton _, fun a ha b _ hslash => ?_⟩
  rw [List.getLast?_cons, List.getLast?_eq_getLast_of_ne_nil h.1] at ha
  cases ha
  exact absurd hslash hlast

/-- No two slashes stand next to each other in a path, not even at its ends. -/
theorem isChain_intercalate {segments : List (List Char)} (hne : segments ≠ [])
    (hsegments : ∀ segment ∈ segments, segment ≠ [] ∧ '/' ∉ segment) :
    ('/' :: ['/'].intercalate segments ++ ['/']).IsChain NotBothSlashes := by
  induction segments with
  | nil => exact absurd rfl hne
  | cons segment rest ih =>
    have hsegment := isChain_segment (hsegments segment List.mem_cons_self)
    cases rest with
    | nil => simpa using hsegment
    | cons next rest =>
      have hrest := ih (List.cons_ne_nil _ _) fun segment hmem =>
        hsegments segment (List.mem_cons_of_mem _ hmem)
      have hsplit : '/' :: ['/'].intercalate (segment :: next :: rest) ++ ['/'] =
          '/' :: segment ++ '/' :: (['/'].intercalate (next :: rest) ++ ['/']) := by
        simp [List.intercalate_cons_cons]
      rw [hsplit]
      exact List.isChain_split.mpr ⟨hsegment, hrest⟩

theorem Identity.isChain_path (identity : Identity) :
    ('/' :: identity.path).IsChain NotBothSlashes := by
  have hsplit : '/' :: identity.path =
      ('/' :: ['/'].intercalate identity.groups) ++ '/' :: identity.project := rfl
  rw [hsplit]
  refine List.isChain_split.mpr ⟨?_, ?_⟩
  · exact isChain_intercalate identity.groups_ne_nil identity.group_free
  · exact (isChain_segment identity.project_free).left_of_append

/-- The short form cannot be taken for the other one. -/
theorem not_infix_shorthand {authority path : List Char} (hauthority : '/' ∉ authority)
    (hpath : path.IsChain NotBothSlashes) : ¬[':', '/', '/'] <:+: authority ++ ':' :: path := by
  intro hinfix
  have hauthorityColon : '/' ∉ authority ++ [':'] := by simpa using hauthority
  have hchain : (authority ++ ':' :: path).IsChain NotBothSlashes :=
    List.isChain_split.mpr ⟨isChain_of_not_mem hauthorityColon,
      List.isChain_cons.mpr ⟨fun _ _ hcolon => absurd hcolon (by decide), hpath⟩⟩
  have hslashes := hchain.infix hinfix
  simp [NotBothSlashes] at hslashes

theorem not_mem_userBefore {c : Char} {user : Option (List Char)} (hc : c ≠ '@')
    (huser : ∀ text ∈ user, c ∉ text) : c ∉ userBefore user := by
  cases user with
  | none => exact List.not_mem_nil
  | some user => simpa [userBefore, hc] using huser user rfl

theorem not_mem_portAfter {c : Char} {port : Option (List Char)} (hc : c ≠ ':')
    (hport : ∀ text ∈ port, c ∉ text) : c ∉ portAfter port := by
  cases port with
  | none => exact List.not_mem_nil
  | some port => simpa [portAfter, hc] using hport port rfl

/-- Whatever the user holds, the host begins after it. -/
theorem afterLast_userBefore (user : Option (List Char)) {text : List Char} (h : '@' ∉ text) :
    Text.afterLast '@' (userBefore user ++ text) = text := by
  cases user with
  | none => exact Text.afterLast_of_not_mem h
  | some user =>
    rw [userBefore, List.append_assoc]
    exact Text.afterLast_append h

/-- And whatever the port is, it ends before it. -/
theorem beforeFirst_portAfter (port : Option (List Char)) {host : List Char} (h : ':' ∉ host) :
    Text.beforeFirst ':' (host ++ portAfter port) = host := by
  cases port with
  | none => rw [portAfter, List.append_nil, Text.beforeFirst_of_not_mem h]
  | some port => exact Text.beforeFirst_append h

theorem Identity.exists_ofAddress?_write (identity : Identity) (form : Form) :
    ∃ path, ofAddress? (form.write identity.host identity.path) = some ⟨identity.host, path⟩ ∧
      segmentsOf path = identity.groups ++ [identity.project] := by
  have hslash : '/' ∉ identity.host := fun h => (identity.host_free '/' h).1 rfl
  have hat : '@' ∉ identity.host := fun h => (identity.host_free '@' h).2.1 rfl
  have hcolon : ':' ∉ identity.host := fun h => (identity.host_free ':' h).2.2.1 rfl
  cases form with
  | url scheme userinfo port hscheme huserinfo hport =>
    have hatPort : '@' ∉ identity.host ++ portAfter port :=
      List.not_mem_append hat (not_mem_portAfter (by decide) fun text h => (hport text h).2)
    have hslashPort : '/' ∉ identity.host ++ portAfter port :=
      List.not_mem_append hslash (not_mem_portAfter (by decide) fun text h => (hport text h).1)
    have hauthority : '/' ∉ userBefore userinfo ++ (identity.host ++ portAfter port) :=
      List.not_mem_append (not_mem_userBefore (by decide) huserinfo) hslashPort
    refine ⟨identity.path, ?_, identity.segmentsOf_path⟩
    rw [Form.write, ofAddress?_url hscheme hauthority, hostOfAuthority,
      afterLast_userBefore userinfo hatPort, beforeFirst_portAfter port hcolon]
  | shorthand user rooted huser =>
    have hauthority : '/' ∉ userBefore user ++ identity.host ∧
        ':' ∉ userBefore user ++ identity.host :=
      ⟨List.not_mem_append (not_mem_userBefore (by decide) fun text h => (huser text h).1) hslash,
        List.not_mem_append (not_mem_userBefore (by decide) fun text h => (huser text h).2) hcolon⟩
    -- the first colon is the one after the host, and no two slashes follow it
    have hchain : ((if rooted then ['/'] else []) ++ identity.path).IsChain NotBothSlashes := by
      cases rooted with
      | false => exact (List.isChain_cons.mp identity.isChain_path).2
      | true => exact identity.isChain_path
    refine ⟨(if rooted then ['/'] else []) ++ identity.path, ?_, ?_⟩
    · rw [Form.write, ofAddress?_shorthand hauthority (not_infix_shorthand hauthority.1 hchain),
        afterLast_userBefore user hat]
    · cases rooted with
      | false => exact identity.segmentsOf_path
      | true => exact (segmentsOf_cons _).trans identity.segmentsOf_path

end Remote

/-- However the address of a repository is written, it says the scope of that repository. -/
theorem ofRemote?_address (identity : Remote.Identity) (spelling : Remote.Spelling)
    (branch : String) :
    ofRemote? (spelling.address identity) branch = some (identity.scope branch) := by
  obtain ⟨form, hstripped⟩ := identity.exists_stripped_address spelling
  obtain ⟨path, haddress, hsegments⟩ := identity.exists_ofAddress?_write form
  exact ofRemote?_eq_some_iff.mpr ⟨⟨identity.host, path⟩, identity.groups, identity.project,
    by rw [hstripped, haddress], (Remote.segments_eq _).trans hsegments, identity.host_ne_nil,
    identity.groups_ne_nil, rfl⟩

namespace Remote

/-- A project in a group of another group. -/
def Identity.nested : Identity where
  host := "git.host".toList
  groups := ["acme".toList, "tools".toList]
  project := "widget".toList
  host_ne_nil := by simp
  host_free := by simp [Text.isBlank]
  groups_ne_nil := by simp
  segments_free := by simp
  project_plain := by decide
  project_last := by simp [Text.isBlank]

/-- With a password that has separators of its own in it, and a port. -/
def Spelling.secret : Spelling where
  form := .url "https".toList (some "me:a@b:c".toList) (some "8443".toList) (by simp) (by simp)
    (by simp)
  suffixed := true
  slashes := 2
  lead := [' ']
  trail := ['\n']
  lead_blank := by simp [Text.isBlank]
  trail_blank := by simp [Text.isBlank]

/-- The short form, with a path that begins at the root. -/
def Spelling.rooted : Spelling where
  form := .shorthand (some "git".toList) true (by simp)
  suffixed := false
  slashes := 0
  lead := []
  trail := []
  lead_blank := by simp
  trail_blank := by simp

end Remote

theorem ofRemote?_address_nested :
    Remote.Spelling.secret.address Remote.Identity.nested =
        " https://me:a@b:c@git.host:8443/acme/tools/widget.git//\n" ∧
      Remote.Spelling.rooted.address Remote.Identity.nested = "git@git.host:/acme/tools/widget" ∧
      ofRemote? " https://me:a@b:c@git.host:8443/acme/tools/widget.git//\n" "main" =
        some ⟨"git.host", "acme/tools", "widget", "main"⟩ ∧
      ofRemote? "git@git.host:/acme/tools/widget" "main" =
        some ⟨"git.host", "acme/tools", "widget", "main"⟩ :=
  ⟨by decide, by decide, ofRemote?_address Remote.Identity.nested Remote.Spelling.secret "main",
    ofRemote?_address Remote.Identity.nested Remote.Spelling.rooted "main"⟩

end SessionArchive.Scope
