import SessionArchive.Json.Reader
import SessionArchive.Proofs.Json.Scan

/-!
# Reading lists of items and members

`Reads reader text value` says that a reader takes exactly `text` from the front of any text that
then stops, and yields `value`; `Fails reader text` says that it fails there. A reader may leave the
blanks at the end of its text (`Takes`). Items and members stand one after the other with commas
between them (`joined`), up to a closing bracket that blanks may precede. `items_taken` and
`nextKey_joined` are the steps that the loops over them take.
-/

set_option autoImplicit false

namespace SessionArchive.Json

variable {α : Type}

/-- A reader takes a text from the front of any text that then stops, and yields a value. -/
def Reads (reader : Scan α) (text : List Char) (value : α) : Prop :=
  ∀ rest, Stops rest → reader (text ++ rest) = .ok (value, rest)

/-- A reader fails on every text that begins with a given one and then stops. -/
def Fails (reader : Scan α) (text : List Char) : Prop :=
  ∀ rest, Stops rest → ∃ fault, reader (text ++ rest) = .error fault

theorem Reads.not_fails {reader : Scan α} {text : List Char} {value : α}
    (h : Reads reader text value) : ¬Fails reader text := by
  intro hfails
  obtain ⟨fault, hfault⟩ := hfails [] trivial
  rw [h [] trivial] at hfault
  cases hfault

/-- A list of texts with a comma before each, or before each but the first. -/
def joined : Bool → List (List Char) → List Char
  | _, [] => []
  | true, t :: ts => t ++ joined false ts
  | false, t :: ts => ',' :: t ++ joined false ts

/-- A text that ends a container: blanks, its bracket, and what follows. -/
def Closes (bracket : Char) (close rest : List Char) : Prop :=
  skipBlanks close = bracket :: rest

/-! ## Blanks -/

theorem skipBlanks_cons {c : Char} (cs : List Char) (h : isBlank c = false) :
    skipBlanks (c :: cs) = c :: cs := by
  simp [skipBlanks, h]

theorem skipBlanks_append {text : List Char} {c : Char} {cs : List Char}
    (h : skipBlanks text = c :: cs) (more : List Char) :
    skipBlanks (text ++ more) = c :: (cs ++ more) := by
  induction text with
  | nil => simp [skipBlanks] at h
  | cons d text ih =>
    -- a blank is passed over on both sides, anything else ends the blanks on both
    simp only [skipBlanks, List.cons_append, List.dropWhile_cons] at h ih ⊢
    split at h
    · next hd => rw [if_pos hd, ih h]
    · next hd =>
      rw [if_neg hd]
      simp only [List.cons.injEq] at h
      rw [h.1, h.2]

theorem skipBlanks_skipBlanks (cs : List Char) : skipBlanks (skipBlanks cs) = skipBlanks cs := by
  induction cs with
  | nil => rfl
  | cons c cs ih =>
    by_cases hc : isBlank c = true
    · have hskip : skipBlanks (c :: cs) = skipBlanks cs := List.dropWhile_cons_of_pos hc
      rw [hskip, ih]
    · exact congrArg skipBlanks (skipBlanks_cons cs (by simpa using hc))

theorem Closes.stops {bracket : Char} {close rest : List Char} (h : Closes bracket close rest)
    (hb : bracket = ']' ∨ bracket = '}') : Stops close := by
  cases close with
  | nil => simp [Closes, skipBlanks] at h
  | cons c close =>
    by_cases hc : isBlank c = true
    · simp only [isBlank, Bool.or_eq_true, beq_iff_eq] at hc
      rcases hc with ((rfl | rfl) | rfl) | rfl <;>
        exact ⟨by decide, by decide, by decide, by decide⟩
    · rw [Closes, skipBlanks_cons _ (by simpa using hc)] at h
      rw [(List.cons.inj h).1]
      exact stops_cons (Or.inr hb)

theorem closes_self {bracket : Char} (rest : List Char) (hb : bracket = ']' ∨ bracket = '}') :
    Closes bracket (bracket :: rest) rest :=
  skipBlanks_cons rest (by rcases hb with rfl | rfl <;> decide)

/-- What is left of a text goes on as another text does, but for blanks before it. -/
structure Resumes (left rest : List Char) : Prop where
  stops : Stops left
  skip : skipBlanks left = skipBlanks rest

theorem Resumes.refl {rest : List Char} (h : Stops rest) : Resumes rest rest := ⟨h, rfl⟩

theorem Resumes.of_eq {left rest : List Char} (h : left = rest) (hrest : Stops rest) :
    Resumes left rest := by
  rw [h]
  exact .refl hrest

theorem Resumes.trans {first second rest : List Char} (h : Resumes first second)
    (hrest : Resumes second rest) : Resumes first rest :=
  ⟨h.stops, h.skip.trans hrest.skip⟩

/-- A reader takes a text, though perhaps not the blanks at its end, from the front of any text that
then stops, and yields a value. -/
def Takes (reader : Scan α) (text : List Char) (value : α) : Prop :=
  ∀ rest, Stops rest → ∃ left, Resumes left rest ∧ reader (text ++ rest) = .ok (value, left)

theorem Reads.takes {reader : Scan α} {text : List Char} {value : α}
    (h : Reads reader text value) : Takes reader text value :=
  fun rest hrest => ⟨rest, .refl hrest, h rest hrest⟩

/-- A reader takes one value from a text. -/
theorem Takes.unique {reader : Scan α} {text : List Char} {a b : α} (ha : Takes reader text a)
    (hb : Takes reader text b) : a = b := by
  obtain ⟨left, -, hleft⟩ := ha [] trivial
  obtain ⟨right, -, hright⟩ := hb [] trivial
  exact congrArg Prod.fst (Except.ok.inj (hleft.symm.trans hright))

theorem joined_true_cons (t : List Char) (ts : List (List Char)) :
    joined true (t :: ts) = t ++ joined false ts := rfl

theorem joined_false_cons (t : List Char) (ts : List (List Char)) :
    joined false (t :: ts) = ',' :: t ++ joined false ts := rfl

/-- What follows an item or member stops a number: a comma or the end of the container. -/
theorem stops_joined (ts : List (List Char)) {close : List Char} (h : Stops close) :
    Stops (joined false ts ++ close) := by
  cases ts with
  | nil => exact h
  | cons t ts => exact stops_cons (Or.inl rfl)

/-- Every text takes at least one character, so there are no more of them than characters. -/
theorem length_le_length_joined (first : Bool) (ts : List (List Char)) (h : ∀ t ∈ ts, t ≠ []) :
    ts.length ≤ (joined first ts).length := by
  induction ts generalizing first with
  | nil => exact Nat.zero_le _
  | cons t ts ih =>
    have hrest := ih false fun u hu => h u (List.mem_cons_of_mem t hu)
    have ht := List.length_pos_iff.2 (h t List.mem_cons_self)
    cases first with
    | true =>
      rw [joined_true_cons, List.length_append, List.length_cons]
      omega
    | false =>
      rw [joined_false_cons, List.length_append, List.length_cons, List.length_cons]
      omega

/-- One step for each text, and one for the end of the container. -/
theorem length_lt_steps (ts : List (List Char)) (h : ∀ t ∈ ts, t ≠ []) (close : List Char) :
    ts.length < (joined true ts ++ close).length + 1 := by
  have hle := length_le_length_joined true ts h
  rw [List.length_append]
  omega

/-! ## Items -/

/-- A text holds an item: behind blanks, something that begins no closing bracket. -/
def BeginsItem (text : List Char) : Prop :=
  ∃ c cs, skipBlanks text = c :: cs ∧ c ≠ ']'

theorem BeginsItem.ne_nil {text : List Char} (h : BeginsItem text) : text ≠ [] := by
  rintro rfl
  rcases h with ⟨c, cs, h, -⟩
  simp [skipBlanks] at h

theorem nextItem_joined (first : Bool) {t : List Char} (ts : List (List Char))
    (close : List Char) (h : BeginsItem t) :
    nextItem first (joined first (t :: ts) ++ close) =
      .ok (true, skipBlanks t ++ (joined false ts ++ close)) := by
  rcases h with ⟨c, cs, hskip, hc⟩
  have hmore := skipBlanks_append hskip (joined false ts ++ close)
  rw [hskip]
  cases first with
  | true =>
    -- the first item stands behind no comma
    rw [joined_true_cons, List.append_assoc, nextItem, hmore]
    simp only [if_neg hc, if_true]
    rfl
  | false =>
    rw [joined_false_cons, List.append_assoc, List.cons_append, nextItem,
      skipBlanks_cons _ (by decide)]
    simp only [hmore, if_neg hc, reduceCtorEq, if_neg (show ¬ ',' = ']' by decide), if_true,
      if_false]
    rfl

theorem nextItem_close (first : Bool) {close rest : List Char} (h : Closes ']' close rest) :
    nextItem first close = .ok (false, ']' :: rest) := by
  rw [nextItem, h]
  rfl

theorem items_congr (item : Scan α) {steps : Nat} (hsteps : 0 < steps) (first : Bool)
    {cs ds : List Char} (h : skipBlanks cs = skipBlanks ds) :
    items item steps first cs = items item steps first ds := by
  obtain ⟨n, rfl⟩ : ∃ n, steps = n + 1 := ⟨steps - 1, by omega⟩
  rw [items, items, nextItem, nextItem, h]

/-- Items that are each taken are taken one after the other. -/
theorem items_taken (item : Scan α) (first : Bool) (pieces : List (List Char × α))
    (steps : Nat) {close rest : List Char} (hsteps : pieces.length < steps)
    (hpieces : ∀ p ∈ pieces, BeginsItem p.1 ∧ Takes item (skipBlanks p.1) p.2)
    (hclose : Closes ']' close rest) :
    items item steps first (joined first (pieces.map Prod.fst) ++ close) =
      .ok (pieces.map Prod.snd, ']' :: rest) := by
  induction pieces generalizing first steps with
  | nil =>
    obtain ⟨n, rfl⟩ : ∃ n, steps = n + 1 := ⟨steps - 1, by omega⟩
    show items item (n + 1) first close = _
    rw [items, nextItem_close first hclose]
    rfl
  | cons p pieces ih =>
    -- the first item is taken up to the comma or bracket behind it, the others by induction
    obtain ⟨n, rfl⟩ : ∃ n, steps = n + 1 := ⟨steps - 1, by omega⟩
    have hmore : pieces.length < n := Nat.lt_of_succ_lt_succ hsteps
    obtain ⟨hbegins, htakes⟩ := hpieces p List.mem_cons_self
    obtain ⟨left, hleft, hread⟩ := htakes _ (stops_joined _ (hclose.stops (Or.inl rfl)))
    have hrest := ih false n hmore fun q hq => hpieces q (List.mem_cons_of_mem p hq)
    rw [List.map_cons, items, nextItem_joined first _ close hbegins]
    simp only [ok_bind, if_true]
    rw [hread, ok_bind, items_congr item (by omega) false hleft.skip, hrest]
    rfl

/-- As many steps as a text has characters are enough for the items of an array. -/
theorem items_all_taken (item : Scan α) (pieces : List (List Char × α))
    (hpieces : ∀ p ∈ pieces, BeginsItem p.1 ∧ Takes item (skipBlanks p.1) p.2)
    {close rest : List Char} (hclose : Closes ']' close rest) :
    items item ((joined true (pieces.map Prod.fst) ++ close).length + 1) true
        (joined true (pieces.map Prod.fst) ++ close) =
      .ok (pieces.map Prod.snd, ']' :: rest) := by
  have hne : ∀ t ∈ pieces.map Prod.fst, t ≠ [] := by
    rw [List.forall_mem_map]
    intro p hp
    exact (hpieces p hp).1.ne_nil
  have hsteps := length_lt_steps _ hne close
  rw [List.length_map] at hsteps
  exact items_taken item true pieces _ hsteps hpieces hclose

/-- The items of an array are read up to its bracket. -/
theorem items_to_bracket (item : Scan α) (pieces : List (List Char × α))
    (hpieces : ∀ p ∈ pieces, BeginsItem p.1 ∧ Reads item (skipBlanks p.1) p.2)
    (rest : List Char) :
    items item ((joined true (pieces.map Prod.fst) ++ ']' :: rest).length + 1) true
        (joined true (pieces.map Prod.fst) ++ ']' :: rest) =
      .ok (pieces.map Prod.snd, ']' :: rest) :=
  items_all_taken item pieces (fun p hp => ⟨(hpieces p hp).1, (hpieces p hp).2.takes⟩)
    (closes_self rest (Or.inl rfl))

/-- Where one item fails and each item before it reads, the items fail. -/
theorem items_joined_error (item : Scan α) (first : Bool) (texts : List (List Char))
    (steps : Nat) {close : List Char} (hclose : Stops close)
    (htexts : ∀ t ∈ texts, BeginsItem t ∧
      ((∃ value, Reads item (skipBlanks t) value) ∨ Fails item (skipBlanks t)))
    (hfails : ∃ t ∈ texts, Fails item (skipBlanks t)) :
    ∃ fault, items item steps first (joined first texts ++ close) = .error fault := by
  induction texts generalizing first steps with
  | nil =>
    -- among no items none fails
    rcases hfails with ⟨t, ht, -⟩
    simp at ht
  | cons t texts ih =>
    cases steps with
    | zero => exact ⟨_, rfl⟩
    | succ n =>
      obtain ⟨hbegins, hitem⟩ := htexts t List.mem_cons_self
      have hstop := stops_joined texts hclose
      rw [items, nextItem_joined first _ close hbegins]
      simp only [ok_bind, if_true]
      rcases hitem with ⟨value, hreads⟩ | hfail
      · -- the item that fails is a later one
        rw [hreads _ hstop]
        have hlater : ∃ u ∈ texts, Fails item (skipBlanks u) := by
          rcases hfails with ⟨u, hu, hfail⟩
          rcases List.mem_cons.1 hu with rfl | hu
          · exact absurd hfail hreads.not_fails
          · exact ⟨u, hu, hfail⟩
        obtain ⟨fault, h⟩ :=
          ih false n (fun u hu => htexts u (List.mem_cons_of_mem t hu)) hlater
        exact ⟨fault, by simp only [ok_bind, h, error_bind]⟩
      · obtain ⟨fault, h⟩ := hfail _ hstop
        exact ⟨fault, by rw [h, error_bind]⟩

/-! ## Members -/

/-- A text holds a key and, behind it, a given text. -/
def KeyText (text : List Char) (key : String) (after : List Char) : Prop :=
  ∃ body, skipBlanks text = '"' :: body ∧
    ∀ more, stringAfterQuote (body ++ more) = .ok (key, after ++ more)

theorem keyText_quoted (key : String) (after : List Char) :
    KeyText (quoted key ++ after) key after := by
  refine ⟨key.toList.flatMap escaped ++ '"' :: after, ?_, fun more => ?_⟩
  · rw [quoted, List.append_assoc, List.cons_append, skipBlanks_cons _ (by decide)]
    rfl
  · rw [List.append_assoc]
    exact stringAfterQuote_quoted key (after ++ more)

theorem KeyText.ne_nil {text : List Char} {key : String} {after : List Char}
    (h : KeyText text key after) : text ≠ [] := by
  rintro rfl
  rcases h with ⟨body, h, -⟩
  simp [skipBlanks] at h

theorem nextKey_joined (first : Bool) {t : List Char} {key : String} {after : List Char}
    (ts : List (List Char)) (close : List Char) (h : KeyText t key after) :
    nextKey first (joined first (t :: ts) ++ close) =
      .ok (some key, after ++ (joined false ts ++ close)) := by
  rcases h with ⟨body, hskip, hkey⟩
  have hmore := skipBlanks_append hskip (joined false ts ++ close)
  cases first with
  | true =>
    rw [joined_true_cons, List.append_assoc, nextKey, hmore]
    simp only [if_neg (show ¬ '"' = '}' by decide), if_true, hkey, map_ok]
  | false =>
    rw [joined_false_cons, List.append_assoc, List.cons_append, nextKey,
      skipBlanks_cons _ (by decide)]
    simp only [hmore, reduceCtorEq, if_neg (show ¬ ',' = '}' by decide), if_true, if_false, hkey,
      map_ok]

theorem nextKey_close (first : Bool) {close rest : List Char} (h : Closes '}' close rest) :
    nextKey first close = .ok (none, '}' :: rest) := by
  rw [nextKey, h]
  rfl

/-- A text holds a key, a colon and, behind it, the text of a value. -/
def MemberText (text : List Char) (key : String) (valueText : List Char) : Prop :=
  ∃ after, KeyText text key after ∧ skipBlanks after = ':' :: valueText

theorem memberText_quoted (key : String) (valueText : List Char) :
    MemberText (quoted key ++ ':' :: valueText) key valueText :=
  ⟨':' :: valueText, keyText_quoted key _, skipBlanks_cons _ (by decide)⟩

theorem MemberText.ne_nil {text : List Char} {key : String} {valueText : List Char}
    (h : MemberText text key valueText) : text ≠ [] := by
  rcases h with ⟨after, hkey, -⟩
  exact hkey.ne_nil

theorem colon_of_skip {cs rest : List Char} (h : skipBlanks cs = ':' :: rest) :
    colon cs = .ok ((), rest) := by
  rw [colon, h]
  rfl

theorem colon_append {after valueText : List Char} (h : skipBlanks after = ':' :: valueText)
    (more : List Char) : colon (after ++ more) = .ok ((), valueText ++ more) :=
  colon_of_skip (skipBlanks_append h more)

theorem nextKey_congr (first : Bool) {cs ds : List Char} (h : skipBlanks cs = skipBlanks ds) :
    nextKey first cs = nextKey first ds := by
  rw [nextKey, nextKey, h]

theorem members_congr (value : Scan α) {steps : Nat} (hsteps : 0 < steps) (first : Bool)
    {cs ds : List Char} (h : skipBlanks cs = skipBlanks ds) :
    members value steps first cs = members value steps first ds := by
  obtain ⟨n, rfl⟩ : ∃ n, steps = n + 1 := ⟨steps - 1, by omega⟩
  rw [members, members, nextKey_congr first h]

/-- Members whose values are each taken are taken one after the other. -/
theorem members_taken (value : Scan α) (first : Bool)
    (pieces : List (List Char × String × α)) (steps : Nat) {close rest : List Char}
    (hsteps : pieces.length < steps)
    (hpieces : ∀ p ∈ pieces, ∃ text, MemberText p.1 p.2.1 text ∧ Takes value text p.2.2)
    (hclose : Closes '}' close rest) :
    members value steps first (joined first (pieces.map Prod.fst) ++ close) =
      .ok (pieces.map Prod.snd, '}' :: rest) := by
  induction pieces generalizing first steps with
  | nil =>
    obtain ⟨n, rfl⟩ : ∃ n, steps = n + 1 := ⟨steps - 1, by omega⟩
    show members value (n + 1) first close = _
    rw [members, nextKey_close first hclose]
    rfl
  | cons p pieces ih =>
    -- the first member is taken up to the comma or brace behind it, the others by induction
    obtain ⟨n, rfl⟩ : ∃ n, steps = n + 1 := ⟨steps - 1, by omega⟩
    have hmore : pieces.length < n := Nat.lt_of_succ_lt_succ hsteps
    obtain ⟨text, ⟨after, hkey, hcolon⟩, htakes⟩ := hpieces p List.mem_cons_self
    obtain ⟨left, hleft, hread⟩ := htakes _ (stops_joined _ (hclose.stops (Or.inr rfl)))
    have hrest := ih false n hmore fun q hq => hpieces q (List.mem_cons_of_mem p hq)
    rw [List.map_cons, members, nextKey_joined first _ close hkey]
    simp only [ok_bind, colon_append hcolon]
    rw [hread, ok_bind, members_congr value (by omega) false hleft.skip, hrest]
    rfl

/-- Members whose values each read are read one after the other. -/
theorem members_joined (value : Scan α) (first : Bool)
    (pieces : List (List Char × String × α)) (steps : Nat) {close rest : List Char}
    (hsteps : pieces.length < steps)
    (hpieces : ∀ p ∈ pieces, ∃ text, MemberText p.1 p.2.1 text ∧ Reads value text p.2.2)
    (hclose : Closes '}' close rest) :
    members value steps first (joined first (pieces.map Prod.fst) ++ close) =
      .ok (pieces.map Prod.snd, '}' :: rest) := by
  refine members_taken value first pieces steps hsteps (fun p hp => ?_) hclose
  obtain ⟨text, hmember, hreads⟩ := hpieces p hp
  exact ⟨text, hmember, hreads.takes⟩

/-- As many steps as a text has characters are enough for the members of an object. -/
theorem members_all_taken (value : Scan α) (pieces : List (List Char × String × α))
    (hpieces : ∀ p ∈ pieces, ∃ text, MemberText p.1 p.2.1 text ∧ Takes value text p.2.2)
    {close rest : List Char} (hclose : Closes '}' close rest) :
    members value ((joined true (pieces.map Prod.fst) ++ close).length + 1) true
        (joined true (pieces.map Prod.fst) ++ close) =
      .ok (pieces.map Prod.snd, '}' :: rest) := by
  have hne : ∀ t ∈ pieces.map Prod.fst, t ≠ [] := by
    rw [List.forall_mem_map]
    intro p hp
    obtain ⟨text, hmember, -⟩ := hpieces p hp
    exact hmember.ne_nil
  have hsteps := length_lt_steps _ hne close
  rw [List.length_map] at hsteps
  exact members_taken value true pieces _ hsteps hpieces hclose

/-- The members of an object are read up to its brace. -/
theorem members_to_bracket (value : Scan α) (pieces : List (List Char × String × α))
    (hpieces : ∀ p ∈ pieces, ∃ text, MemberText p.1 p.2.1 text ∧ Reads value text p.2.2)
    (rest : List Char) :
    members value ((joined true (pieces.map Prod.fst) ++ '}' :: rest).length + 1) true
        (joined true (pieces.map Prod.fst) ++ '}' :: rest) =
      .ok (pieces.map Prod.snd, '}' :: rest) := by
  refine members_all_taken value pieces (fun p hp => ?_) (closes_self rest (Or.inr rfl))
  obtain ⟨text, hmember, hreads⟩ := hpieces p hp
  exact ⟨text, hmember, hreads.takes⟩

/-- Where the value of one member fails and each value before it reads, the members fail. -/
theorem members_joined_error (value : Scan α) (first : Bool)
    (pieces : List (List Char × String × List Char)) (steps : Nat) {close : List Char}
    (hclose : Stops close)
    (hpieces : ∀ p ∈ pieces, MemberText p.1 p.2.1 p.2.2 ∧
      ((∃ a, Reads value p.2.2 a) ∨ Fails value p.2.2))
    (hfails : ∃ p ∈ pieces, Fails value p.2.2) :
    ∃ fault, members value steps first (joined first (pieces.map Prod.fst) ++ close) =
      .error fault := by
  induction pieces generalizing first steps with
  | nil =>
    rcases hfails with ⟨p, hp, -⟩
    simp at hp
  | cons p pieces ih =>
    cases steps with
    | zero => exact ⟨_, rfl⟩
    | succ n =>
      obtain ⟨⟨after, hkey, hcolon⟩, hvalue⟩ := hpieces p List.mem_cons_self
      have hstop := stops_joined (pieces.map Prod.fst) hclose
      rw [List.map_cons, members, nextKey_joined first _ close hkey]
      simp only [ok_bind, colon_append hcolon]
      rcases hvalue with ⟨a, hreads⟩ | hfail
      · -- the value that fails is a later one
        rw [hreads _ hstop]
        have hlater : ∃ q ∈ pieces, Fails value q.2.2 := by
          rcases hfails with ⟨q, hq, hfail⟩
          rcases List.mem_cons.1 hq with rfl | hq
          · exact absurd hfail hreads.not_fails
          · exact ⟨q, hq, hfail⟩
        obtain ⟨fault, h⟩ :=
          ih false n (fun q hq => hpieces q (List.mem_cons_of_mem p hq)) hlater
        exact ⟨fault, by simp only [ok_bind, h, error_bind]⟩
      · obtain ⟨fault, h⟩ := hfail _ hstop
        exact ⟨fault, by rw [h, error_bind]⟩

end SessionArchive.Json
