import Mathlib.Data.Nat.Find
import SessionArchive.Proofs.Pattern.Span

/-!
# Programs that find a word

A program that takes the characters of a word one after the other (`Spells`) finds the word where it
stands in a text for the first time, and finds nothing else: `Spells.finds`. The machine follows
every occurrence that has begun (`Ways`). Of two that are under way the one that began first is
nearer to its end, so no two wait at one instruction, and the first to end is the first in the text.
-/

set_option autoImplicit false

namespace SessionArchive.Pattern

open Unicode (CharSet)
open Text.Utf8 (size size_append size_singleton)

/-! ## First occurrences -/

/-- A word stands in a text for the first time between two byte offsets. -/
def FirstAt (text word : List Char) (span : Nat × Nat) : Prop :=
  ∃ before after, text = before ++ word ++ after ∧ span = (size before, size (before ++ word)) ∧
    ∀ earlier later, text = earlier ++ word ++ later → before.length ≤ earlier.length

theorem FirstAt.eq {text word : List Char} {span other : Nat × Nat} (h : FirstAt text word span)
    (hother : FirstAt text word other) : span = other := by
  obtain ⟨before, after, htext, rfl, hfirst⟩ := h
  obtain ⟨earlier, later, htext', rfl, hfirst'⟩ := hother
  have hlength : before.length = earlier.length :=
    Nat.le_antisymm (hfirst earlier later htext') (hfirst' before after htext)
  have hsame : before = earlier := by
    rw [htext, List.append_assoc, List.append_assoc] at htext'
    exact List.append_inj_left htext' hlength
  rw [hsame]

/-- A word that occurs in a text occurs there for a first time. -/
theorem exists_firstAt {text word : List Char} (h : word <:+: text) :
    ∃ span, FirstAt text word span := by
  have hoccurs : ∃ n, ∃ before after : List Char, before.length = n ∧
      text = before ++ word ++ after := by
    obtain ⟨before, after, htext⟩ := h
    exact ⟨before.length, before, after, rfl, htext.symm⟩
  classical
  -- the least number of characters before an occurrence
  obtain ⟨before, after, hlength, htext⟩ := Nat.find_spec hoccurs
  refine ⟨_, before, after, htext, rfl, ?_⟩
  intro earlier later hearlier
  rw [hlength]
  exact Nat.find_min' hoccurs ⟨earlier, later, rfl, hearlier⟩

/-! ## Programs that spell a word -/

/-- From an instruction on, a program takes the characters of a word and then accepts. -/
inductive Spells (program : Program) : Nat → List Char → Prop
  | nil {i : Nat} (h : program[i]? = some .accept) : Spells program i []
  | cons {i next : Nat} {c : Char} {word : List Char}
      (h : program[i]? = some (.take (CharSet.range c.toNat c.toNat) next))
      (later : Spells program next word) : Spells program i (c :: word)

theorem contains_range_self (c d : Char) :
    (CharSet.range c.toNat c.toNat).contains d = true ↔ d = c := by
  have hinj : d.toNat = c.toNat ↔ d = c := Char.toNat_inj
  rw [← hinj]
  simp only [CharSet.range, Nat.le_refl, if_true, CharSet.contains, CharSet.holds]
  by_cases hlow : d.toNat < c.toNat
  · simp only [hlow, if_true, Bool.false_eq_true, false_iff]
    omega
  · simp only [hlow, if_false]
    split
    · simp only [true_iff]
      omega
    · simp only [Bool.false_eq_true, false_iff]
      omega

section Machine

variable {program : Program}

/-- An instruction spells one word at most. -/
theorem Spells.eq {i : Nat} {word other : List Char} (h : Spells program i word)
    (hother : Spells program i other) : word = other := by
  induction h generalizing other with
  | nil h =>
    cases hother with
    | nil _ => rfl
    | cons h' _ =>
      rw [h] at h'
      cases h'
  | @cons i next c word h later ih =>
    cases hother with
    | nil h' =>
      rw [h] at h'
      cases h'
    | @cons _ next' d word' h' later' =>
      rw [h] at h'
      obtain ⟨hset, rfl⟩ := Instruction.take.inj (Option.some.inj h')
      -- the set of an instruction that spells a character is that character alone
      have hcontains := (contains_range_self c c).mpr rfl
      rw [hset] at hcontains
      rw [(contains_range_self d c).mp hcontains, ih later']

/-- An instruction that spells a word is waited at where no way has come to it before. -/
theorem Spells.follow_eq {i : Nat} {word : List Char} (h : Spells program i word) (place : Nat)
    (before after : Option Char) (start : Nat) {threads : Threads}
    (hfresh : threads.reached[i]? ≠ some place) :
    follow program place before after start (followSteps program) [i] threads =
      ⟨⟨i, start⟩ :: threads.waiting, threads.reached.setIfInBounds i place⟩ := by
  rw [followSteps, follow, if_neg hfresh]
  cases h with
  | nil h => simp only [h, follow]
  | cons h later => simp only [h, follow]

/-! ## Occurrences under way -/

/-- The ways to match are the occurrences of a word that have begun in the text that was passed, and
of which at least so many characters were passed; the longest comes first. -/
structure Ways (program : Program) (word passed : List Char) (least : Nat) (ways : List Thread) :
    Prop where
  sound : ∀ t ∈ ways, ∃ before done todo, passed = before ++ done ∧ word = done ++ todo ∧
    least ≤ done.length ∧ t.start = size before ∧ Spells program t.at_ todo
  complete : ∀ before done todo, passed = before ++ done → word = done ++ todo →
    least ≤ done.length → ∃ t ∈ ways, t.start = size before ∧ Spells program t.at_ todo
  longestFirst : ways.Pairwise fun a b => ∀ u v, Spells program a.at_ u →
    Spells program b.at_ v → u.length < v.length

/-- The way that begins here comes last. -/
theorem Ways.join {word passed : List Char} {ways : List Thread} {entry : Nat}
    (h : Ways program word passed 1 ways) (hentry : Spells program entry word) :
    Ways program word passed 0 (ways ++ [⟨entry, size passed⟩]) where
  sound t ht := by
    rcases List.mem_append.mp ht with ht | ht
    · obtain ⟨before, done, todo, hpassed, hword, -, hstart, hspells⟩ := h.sound t ht
      exact ⟨before, done, todo, hpassed, hword, Nat.zero_le _, hstart, hspells⟩
    · rw [List.mem_singleton.mp ht]
      exact ⟨passed, [], word, (List.append_nil _).symm, rfl, Nat.zero_le _, rfl, hentry⟩
  complete before done todo hpassed hword _ := by
    cases done with
    | nil =>
      -- nothing of this one was passed, so it begins here
      rw [List.append_nil] at hpassed
      rw [List.nil_append] at hword
      subst hpassed hword
      exact ⟨_, List.mem_append_right _ List.mem_cons_self, rfl, hentry⟩
    | cons c done =>
      obtain ⟨t, ht, hstart, hspells⟩ :=
        h.complete before (c :: done) todo hpassed hword (Nat.succ_le_succ (Nat.zero_le _))
      exact ⟨t, List.mem_append_left _ ht, hstart, hspells⟩
  longestFirst := by
    apply List.pairwise_append.mpr
    refine ⟨h.longestFirst, List.pairwise_singleton _ _, ?_⟩
    intro a ha b hb u v hu hv
    rw [List.mem_singleton.mp hb] at hv
    obtain ⟨before, done, todo, -, hword, hleast, -, hspells⟩ := h.sound a ha
    rw [hu.eq hspells, hv.eq hentry, hword, List.length_append]
    omega

/-! ## Taking a character -/

/-- Where a way goes on after a character. -/
def goOn (program : Program) (c : Char) (t : Thread) : Option Thread :=
  match program[t.at_]? with
  | some (.take set next) => if set.contains c then some ⟨next, t.start⟩ else none
  | _ => none

theorem Spells.goOn_nil {t : Thread} (h : Spells program t.at_ []) (c : Char) :
    goOn program c t = none := by
  cases h with
  | nil h => simp only [goOn, h]

theorem Spells.goOn_cons {t : Thread} {d : Char} {word : List Char}
    (h : Spells program t.at_ (d :: word)) :
    ∃ next, Spells program next word ∧ ∀ c,
      goOn program c t = if c = d then some ⟨next, t.start⟩ else none := by
  cases h with
  | @cons _ next _ _ h later =>
    refine ⟨next, later, fun c => ?_⟩
    simp only [goOn, h, contains_range_self]

/-- A way that goes on has taken the first character of the word that it waited for. -/
theorem Spells.of_goOn {a b : Thread} {todo : List Char} {c : Char} (h : Spells program a.at_ todo)
    (hgo : goOn program c a = some b) :
    ∃ later, todo = c :: later ∧ Spells program b.at_ later ∧ b.start = a.start := by
  cases todo with
  | nil =>
    rw [h.goOn_nil c] at hgo
    cases hgo
  | cons d later =>
    obtain ⟨next, hnext, hgoes⟩ := h.goOn_cons
    rw [hgoes] at hgo
    split at hgo
    · next hc =>
      subst hc
      cases hgo
      exact ⟨later, rfl, hnext, rfl⟩
    · cases hgo

/-- A place is put down for one instruction. -/
theorem reached_setIfInBounds {reached : Array Nat} {i j place p : Nat}
    (h : (reached.setIfInBounds i place)[j]? = some p) :
    i = j ∧ p = place ∨ reached[j]? = some p := by
  rw [Array.getElem?_setIfInBounds] at h
  split at h
  · next heq =>
    split at h
    · cases h
      exact .inl ⟨heq, rfl⟩
    · cases h
  · exact .inr h

/-- Ways that wait for words of different length all go on, in the order that they had, to
instructions with less before them than the longest of those words. -/
theorem advance_spells {place length : Nat} (c : Char) (after : Option Char) {ways : List Thread}
    (hspells : ∀ t ∈ ways, ∃ todo, Spells program t.at_ todo ∧ todo.length ≤ length)
    (hlonger : ways.Pairwise fun a b => ∀ u v, Spells program a.at_ u →
      Spells program b.at_ v → u.length < v.length)
    {threads : Threads}
    (hfresh : ∀ i, threads.reached[i]? = some place → ∀ t ∈ ways, ∀ u v,
      Spells program t.at_ u → Spells program i v → v.length + 1 < u.length)
    (hshort : ∀ i, threads.reached[i]? = some place → ∀ v, Spells program i v →
      v.length < length) :
    (advance program place c after ways threads).waiting =
        (ways.filterMap (goOn program c)).reverse ++ threads.waiting ∧
      (∀ i p : Nat, (advance program place c after ways threads).reached[i]? = some p →
        p = place ∨ threads.reached[i]? = some p) ∧
      ∀ i, (advance program place c after ways threads).reached[i]? = some place →
        ∀ v, Spells program i v → v.length < length := by
  induction ways generalizing threads with
  | nil => exact ⟨rfl, fun _ _ hi => .inr hi, hshort⟩
  | cons t rest ih =>
    obtain ⟨⟨todo, htodo, hlength⟩, hrest⟩ := List.forall_mem_cons.mp hspells
    obtain ⟨hlongerThan, hlongerRest⟩ := List.pairwise_cons.mp hlonger
    have hskip : ∀ i, threads.reached[i]? = some place → ∀ t ∈ rest, ∀ u v,
        Spells program t.at_ u → Spells program i v → v.length + 1 < u.length :=
      fun i hi other hother => hfresh i hi other (List.mem_cons_of_mem _ hother)
    cases htodo with
    | nil h =>
      have hgo : goOn program c t = none := (Spells.nil h).goOn_nil c
      rw [List.filterMap_cons_none hgo]
      simp only [advance, h]
      exact ih hrest hlongerRest hskip hshort
    | @cons _ next d todo h later =>
      simp only [advance, h]
      by_cases hc : c = d
      · -- the way goes on to an instruction that no other has come to
        have hgo : goOn program c t = some ⟨next, t.start⟩ := by
          simp only [goOn, h, if_pos ((contains_range_self d c).mpr hc)]
        have hnew : threads.reached[next]? ≠ some place := fun hold =>
          absurd (hfresh next hold t List.mem_cons_self _ _ (.cons h later) later)
            (Nat.lt_irrefl _)
        rw [if_pos ((contains_range_self d c).mpr hc), later.follow_eq place _ _ _ hnew,
          List.filterMap_cons_some hgo, List.reverse_cons, List.append_assoc,
          List.singleton_append]
        let joined : Threads :=
          ⟨⟨next, t.start⟩ :: threads.waiting, threads.reached.setIfInBounds next place⟩
        have hfreshRest : ∀ i, joined.reached[i]? = some place →
            ∀ t ∈ rest, ∀ u v, Spells program t.at_ u → Spells program i v →
              v.length + 1 < u.length := by
          intro i hi other hother u v hu hv
          rcases reached_setIfInBounds hi with ⟨rfl, -⟩ | hold
          · -- the others wait for more than this one did
            rw [hv.eq later]
            exact hlongerThan other hother _ u (.cons h later) hu
          · exact hskip i hold other hother u v hu hv
        have hshortRest : ∀ i, joined.reached[i]? = some place → ∀ v, Spells program i v →
            v.length < length := by
          intro i hi v hv
          rcases reached_setIfInBounds hi with ⟨rfl, -⟩ | hold
          · rw [hv.eq later]
            exact hlength
          · exact hshort i hold v hv
        obtain ⟨hwaiting, hbefore, hlast⟩ := ih hrest hlongerRest hfreshRest hshortRest
        refine ⟨hwaiting, fun i p hi => ?_, hlast⟩
        rcases hbefore i p hi with rfl | hold
        · exact .inl rfl
        · rcases reached_setIfInBounds hold with ⟨-, rfl⟩ | hold
          · exact .inl rfl
          · exact .inr hold
      · have hgo : goOn program c t = none := by
          simp only [goOn, h, contains_range_self, if_neg hc]
        have hnot : ¬(CharSet.range d.toNat d.toNat).contains c = true := fun hin =>
          hc ((contains_range_self d c).mp hin)
        rw [if_neg hnot, List.filterMap_cons_none hgo]
        exact ih hrest hlongerRest hskip hshort

/-- After a character the ways are those that have taken it. -/
theorem Ways.goOn {word passed : List Char} {ways : List Thread}
    (h : Ways program word passed 0 ways) (c : Char) :
    Ways program word (passed ++ [c]) 1 (ways.filterMap (Pattern.goOn program c)) where
  sound t ht := by
    obtain ⟨way, hway, hgo⟩ := List.mem_filterMap.mp ht
    obtain ⟨before, done, todo, hpassed, hword, -, hstart, hspells⟩ := h.sound way hway
    obtain ⟨later, rfl, hlater, hsame⟩ := hspells.of_goOn hgo
    refine ⟨before, done ++ [c], later, ?_, ?_, ?_, hsame.trans hstart, hlater⟩
    · rw [hpassed, List.append_assoc]
    · rw [hword, List.append_assoc, List.singleton_append]
    · rw [List.length_append, List.length_singleton]
      omega
  complete before done todo hpassed hword hleast := by
    -- the character was the last of what was passed
    have hne : done ≠ [] := List.ne_nil_of_length_pos hleast
    have hlast : done = done.dropLast ++ [done.getLast hne] :=
      (List.dropLast_append_getLast hne).symm
    rw [hlast, ← List.append_assoc] at hpassed
    obtain ⟨hpassed, hc⟩ := List.append_inj' hpassed rfl
    rw [hlast, List.append_assoc, List.singleton_append] at hword
    obtain ⟨way, hway, hstart, hspells⟩ :=
      h.complete before done.dropLast _ hpassed hword (Nat.zero_le _)
    obtain ⟨next, hnext, hgoes⟩ := hspells.goOn_cons
    refine ⟨⟨next, way.start⟩, List.mem_filterMap.mpr ⟨way, hway, ?_⟩, hstart, hnext⟩
    rw [hgoes, if_pos (List.singleton_inj.mp hc)]
  longestFirst := by
    -- each of two ways has taken one character, so the difference stays
    have htaken : ∀ a b, Pattern.goOn program c a = some b → ∀ u, Spells program b.at_ u →
        ∀ todo, Spells program a.at_ todo → todo.length = u.length + 1 := by
      intro a b hgo u hu todo htodo
      obtain ⟨later, rfl, hlater, -⟩ := htodo.of_goOn hgo
      rw [hu.eq hlater, List.length_cons]
    have hmem := List.Pairwise.and_mem.mp h.longestFirst
    apply List.Pairwise.filterMap _ ?_ hmem
    rintro a b ⟨ha, hb, hlonger⟩ a' ha' b' hb' u v hu hv
    obtain ⟨_, _, first, -, -, -, -, hfirst⟩ := h.sound a ha
    obtain ⟨_, _, second, -, -, -, -, hsecond⟩ := h.sound b hb
    have hlt := hlonger first second hfirst hsecond
    have hfirstLength := htaken a a' ha' u hu first hfirst
    have hsecondLength := htaken b b' hb' v hv second hsecond
    omega

/-! ## Running -/

theorem untilAccept_of_none {ways : List Thread}
    (h : ∀ t ∈ ways, program[t.at_]? ≠ some .accept) :
    untilAccept program ways = (ways, none) := by
  induction ways with
  | nil => rfl
  | cons t rest ih =>
    obtain ⟨hfirst, hrest⟩ := List.forall_mem_cons.mp h
    rw [untilAccept]
    split
    · next haccept => exact absurd haccept hfirst
    · rw [ih hrest]

/-- The word ends where the machine is, and no occurrence that is under way is older; or it does not
end here, and all go on. -/
theorem Ways.untilAccept_eq {word passed : List Char} {ways : List Thread}
    (h : Ways program word passed 0 ways) :
    (∃ before, passed = before ++ word ∧ untilAccept program ways = ([], some (size before))) ∨
      ((∀ before, passed ≠ before ++ word) ∧ untilAccept program ways = (ways, none)) := by
  cases hways : ways with
  | nil =>
    refine .inr ⟨fun before hpassed => ?_, rfl⟩
    obtain ⟨t, ht, -⟩ := h.complete before word [] hpassed (List.append_nil _).symm (Nat.zero_le _)
    rw [hways] at ht
    cases ht
  | cons t rest =>
    rw [hways] at h
    obtain ⟨before, done, todo, hpassed, hword, -, hstart, hspells⟩ :=
      h.sound t List.mem_cons_self
    cases hspells with
    | nil haccept =>
      rw [List.append_nil] at hword
      refine .inl ⟨before, by rw [hword, ← hpassed], ?_⟩
      rw [untilAccept, haccept, ← hstart]
    | @cons _ next c todo htake later =>
      have hnone : ∀ other ∈ t :: rest, program[other.at_]? ≠ some .accept := by
        intro other hother haccept
        rcases List.mem_cons.mp hother with rfl | hother
        · rw [htake] at haccept
          cases haccept
        · -- an occurrence that began later has more before it than this one
          have hlonger := (List.pairwise_cons.mp h.longestFirst).1 other hother
          exact Nat.not_lt_zero _ (hlonger _ _ (.cons htake later) (.nil haccept))
      refine .inr ⟨fun front hfront => ?_, untilAccept_of_none hnone⟩
      obtain ⟨other, hother, -, hends⟩ :=
        h.complete front word [] hfront (List.append_nil _).symm (Nat.zero_le _)
      cases hends with
      | nil haccept => exact hnone other hother haccept

/-- An occurrence that ends where the machine is, where none has ended before, is the first. -/
theorem firstAt_of_new {word passed before : List Char} (rest : List Char)
    (hnew : ∀ front back, passed = front ++ word ++ back → back = [])
    (hpassed : passed = before ++ word) :
    FirstAt (passed ++ rest) word (size before, size passed) := by
  refine ⟨before, rest, by rw [hpassed], by rw [hpassed], ?_⟩
  intro earlier later htext
  -- one that begins earlier ends earlier too, and none has ended before
  by_contra hlonger
  have hfront : earlier ++ word <+: passed := by
    apply List.prefix_of_prefix_length_le ⟨later, htext.symm⟩ ⟨rest, rfl⟩
    rw [hpassed, List.length_append, List.length_append]
    omega
  obtain ⟨back, hback⟩ := hfront
  have hlength := congrArg List.length hback
  rw [hnew earlier back hback.symm, hpassed, List.append_nil, List.length_append,
    List.length_append] at hlength
  omega

theorem some_eq_iff_firstAt {word passed before : List Char} (rest : List Char)
    (hnew : ∀ front back, passed = front ++ word ++ back → back = [])
    (hpassed : passed = before ++ word) (span : Nat × Nat) :
    some (size before, size passed) = some span ↔ FirstAt (passed ++ rest) word span := by
  have hhere := firstAt_of_new rest hnew hpassed
  constructor
  · rintro ⟨⟩
    exact hhere
  · intro hspan
    exact congrArg some (hhere.eq hspan)

/-- The machine where it has passed a part of a text in which the word has not ended before: what
waits are the occurrences under way, and an instruction that was reached here is one inside the
word. -/
structure Running (program : Program) (word passed : List Char) (place : Nat) (threads : Threads) :
    Prop where
  ways : Ways program word passed 1 threads.waiting.reverse
  reached : ∀ i p : Nat, threads.reached[i]? = some p → p ≤ place
  begun : ∀ i : Nat, threads.reached[i]? = some place → ∀ v, Spells program i v →
    v.length < word.length
  new : ∀ front back, passed = front ++ word ++ back → back = []

/-- The occurrence that may begin here joins those under way. -/
theorem Running.exists_joined {word passed : List Char} {entry place : Nat} {threads : Threads}
    (h : Running program word passed place threads) (hentry : Spells program entry word)
    (before after : Option Char) :
    ∃ joined, follow program place before after (size passed) (followSteps program) [entry]
        threads = joined ∧
      Ways program word passed 0 joined.waiting.reverse ∧
      ∀ i p : Nat, joined.reached[i]? = some p → p ≤ place := by
  have hfresh : threads.reached[entry]? ≠ some place := fun hold =>
    Nat.lt_irrefl _ (h.begun entry hold word hentry)
  refine ⟨_, hentry.follow_eq place before after _ hfresh, ?_, ?_⟩
  · rw [List.reverse_cons]
    exact h.ways.join hentry
  · intro i p hi
    rcases reached_setIfInBounds hi with ⟨-, rfl⟩ | hold
    · exact Nat.le_refl _
    · exact h.reached i p hold

/-- Where the word does not end, the machine goes on after a character. -/
theorem Running.step {word passed : List Char} {place : Nat} {joined : Threads}
    (hways : Ways program word passed 0 joined.waiting.reverse)
    (hreached : ∀ i p : Nat, joined.reached[i]? = some p → p ≤ place)
    (hnew : ∀ front back, passed = front ++ word ++ back → back = [])
    (hnot : ∀ before, passed ≠ before ++ word) (c : Char) (after : Option Char) :
    Running program word (passed ++ [c]) (place + 1)
      (advance program (place + 1) c after joined.waiting.reverse ⟨[], joined.reached⟩) := by
  -- at the next place nothing was reached yet
  have hclear : ∀ i : Nat, joined.reached[i]? ≠ some (place + 1) := by
    intro i hi
    have hle := hreached i _ hi
    omega
  have hspells : ∀ t ∈ joined.waiting.reverse,
      ∃ todo, Spells program t.at_ todo ∧ todo.length ≤ word.length := by
    intro t ht
    obtain ⟨_, done, todo, -, hword, -, -, hspells⟩ := hways.sound t ht
    refine ⟨todo, hspells, ?_⟩
    rw [hword, List.length_append]
    omega
  let cleared : Threads := ⟨[], joined.reached⟩
  have hfresh : ∀ i, cleared.reached[i]? = some (place + 1) →
      ∀ t ∈ joined.waiting.reverse, ∀ u v, Spells program t.at_ u → Spells program i v →
        v.length + 1 < u.length :=
    fun i hi => absurd hi (hclear i)
  have hshort : ∀ i, cleared.reached[i]? = some (place + 1) → ∀ v, Spells program i v →
      v.length < word.length :=
    fun i hi => absurd hi (hclear i)
  obtain ⟨hwaiting, hbefore, hbegun⟩ :=
    advance_spells c after hspells hways.longestFirst hfresh hshort
  rw [List.append_nil] at hwaiting
  refine ⟨?_, ?_, hbegun, ?_⟩
  · rw [hwaiting, List.reverse_reverse]
    exact hways.goOn c
  · intro i p hi
    rcases hbefore i p hi with rfl | hold
    · exact Nat.le_refl _
    · exact (hreached i p hold).trans (Nat.le_succ _)
  · intro front back htext
    rcases List.eq_nil_or_concat' back with hnil | ⟨back, d, rfl⟩
    · exact hnil
    · -- an occurrence that ends before the character would have ended where the machine was
      rw [← List.append_assoc] at htext
      obtain ⟨hpassed, -⟩ := List.append_inj' htext rfl
      rw [hnew front back hpassed, List.append_nil] at hpassed
      exact absurd hpassed (hnot front)

/-- Along the rest of a text the machine finds the first occurrence of the word. -/
theorem run_spells {word : List Char} {entry : Nat} (hentry : Spells program entry word)
    {passed rest : List Char} {place : Nat} {before : Option Char} {threads : Threads}
    (h : Running program word passed place threads) (span : Nat × Nat) :
    run program entry before place (size passed) none threads rest = some span ↔
      FirstAt (passed ++ rest) word span := by
  -- on what is left of the text, with the ways that are running as the invariant
  induction rest generalizing passed place before threads with
  | nil =>
    obtain ⟨joined, hfollow, hways, -⟩ := h.exists_joined hentry before none
    simp only [run, Option.isNone_none, if_true, hfollow]
    rcases hways.untilAccept_eq with ⟨front, hpassed, hends⟩ | ⟨hnot, hgoes⟩
    · rw [hends]
      exact some_eq_iff_firstAt [] h.new hpassed span
    · rw [hgoes]
      simp only [reduceCtorEq, false_iff]
      rintro ⟨front, back, htext, -, -⟩
      rw [List.append_nil] at htext
      rw [h.new front back htext, List.append_nil] at htext
      exact hnot front htext
  | cons c rest ih =>
    obtain ⟨joined, hfollow, hways, hreached⟩ := h.exists_joined hentry before (some c)
    simp only [run, Option.isNone_none, if_true, hfollow]
    rcases hways.untilAccept_eq with ⟨front, hpassed, hends⟩ | ⟨hnot, hgoes⟩
    · rw [hends]
      exact some_eq_iff_firstAt (c :: rest) h.new hpassed span
    · rw [hgoes]
      simp only [Option.isSome_none, Bool.and_false, Bool.false_eq_true, if_false]
      have hnext := Running.step hways hreached h.new hnot c rest.head?
      rw [← size_singleton c, ← size_append, ih hnext, List.append_assoc, List.singleton_append]

end Machine

/-! ## Finding a word -/

/-- A matcher that finds a word where it stands for the first time, and only there. -/
def Finds (find : String → Option (Nat × Nat)) (word : String) : Prop :=
  ∀ text span, find text = some span ↔ FirstAt text.toList word.toList span

theorem Spells.finds {pattern : Pattern} {word : String}
    (h : Spells pattern.program pattern.entry word.toList) : Finds pattern.find word := by
  intro text span
  -- places are counted from one, so that nothing was reached before the first character
  let fresh : Threads := ⟨[], Array.replicate pattern.program.size 0⟩
  have hreached : ∀ i p : Nat, fresh.reached[i]? = some p → p = 0 := by
    intro i p hi
    rw [Array.getElem?_replicate] at hi
    split at hi
    · cases hi
      rfl
    · cases hi
  have hfresh : Running pattern.program word.toList [] 1 fresh := by
    refine ⟨⟨nofun, ?_, .nil⟩, ?_, ?_, ?_⟩
    · intro before done todo hpassed _ hleast
      rw [(List.append_eq_nil_iff.mp hpassed.symm).2] at hleast
      cases hleast
    · intro i p hi
      rw [hreached i p hi]
      exact Nat.zero_le _
    · intro i hi
      cases hreached i 1 hi
    · intro front back hempty
      exact (List.append_eq_nil_iff.mp hempty.symm).2
  exact run_spells h hfresh span

end SessionArchive.Pattern
