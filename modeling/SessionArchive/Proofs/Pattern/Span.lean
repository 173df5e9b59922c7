import SessionArchive.Pattern
import SessionArchive.Proofs.Text.Utf8

/-!
# Where matches lie

A match is a part of the text: its two byte offsets lie between characters, the first no later than
the second. Every way to match starts at a place that the machine has passed, so `Pattern.find`
yields the offsets of a part, whatever the program is: `Pattern.find_spans`.
-/

set_option autoImplicit false

namespace SessionArchive.Pattern

open Text.Utf8 (size size_append size_singleton)

/-! ## Places in a text -/

/-- The byte offset of a place in a text. -/
def IsPlace (text : List Char) (offset : Nat) : Prop :=
  ∃ before after, text = before ++ after ∧ offset = size before

/-- The byte offsets at which a part of a text starts and ends. -/
def Spans (text : List Char) (span : Nat × Nat) : Prop :=
  ∃ before matched after, text = before ++ matched ++ after ∧
    span = (size before, size (before ++ matched))

theorem IsPlace.append {text : List Char} {offset : Nat} (h : IsPlace text offset)
    (more : List Char) : IsPlace (text ++ more) offset := by
  obtain ⟨before, after, rfl, rfl⟩ := h
  exact ⟨before, after ++ more, List.append_assoc _ _ _, rfl⟩

theorem Spans.append {text : List Char} {span : Nat × Nat} (h : Spans text span)
    (more : List Char) : Spans (text ++ more) span := by
  obtain ⟨before, matched, after, rfl, rfl⟩ := h
  exact ⟨before, matched, after ++ more, List.append_assoc _ _ _, rfl⟩

/-- What starts at a place spans the rest of the text. -/
theorem IsPlace.spans {text : List Char} {offset : Nat} (h : IsPlace text offset) :
    Spans text (offset, size text) := by
  obtain ⟨before, after, rfl, rfl⟩ := h
  exact ⟨before, after, [], (List.append_nil _).symm, rfl⟩

/-! ## Where ways to match start -/

section Ways

variable {program : Program} {place : Nat} {after : Option Char} {t : Thread}

/-- A way that is followed was waiting before, or starts at the place where it is followed. -/
theorem mem_follow {before : Option Char} {start steps : Nat} {queue : List Nat}
    {threads : Threads}
    (ht : t ∈ (follow program place before after start steps queue threads).waiting) :
    t ∈ threads.waiting ∨ t.start = start := by
  fun_induction follow program place before after start steps queue threads with
  | case1 => exact .inl ht
  | case2 => exact .inl ht
  | case3 _ _ _ _ _ ih => exact ih ht
  | case4 _ _ _ _ _ _ _ ih => exact ih ht
  | case5 _ _ _ _ _ _ _ _ _ ih => exact ih ht
  | case6 _ _ _ _ _ _ _ _ _ _ ih => exact ih ht
  | case7 _ _ _ _ _ _ _ _ _ _ ih => exact ih ht
  | case8 _ _ _ _ _ _ _ _ _ _ ih =>
    -- an instruction that waits for a character or accepts adds a way, which starts here
    rcases ih ht with hmem | hstart
    · rcases List.mem_cons.mp hmem with rfl | hmem
      · exact .inr rfl
      · exact .inl hmem
    · exact .inr hstart

/-- A way that goes on after a character starts where it started before. -/
theorem exists_of_mem_advance {c : Char} {ways : List Thread} {threads : Threads}
    (ht : t ∈ (advance program place c after ways threads).waiting) :
    t ∈ threads.waiting ∨ ∃ way ∈ ways, t.start = way.start := by
  induction ways generalizing threads with
  | nil => exact .inl ht
  | cons way rest ih =>
    have hrest : ∀ {threads : Threads},
        t ∈ (advance program place c after rest threads).waiting →
          t ∈ threads.waiting ∨ ∃ other ∈ way :: rest, t.start = other.start := by
      intro threads ht
      rcases ih ht with hmem | ⟨other, hother, hstart⟩
      · exact .inl hmem
      · exact .inr ⟨other, List.mem_cons_of_mem _ hother, hstart⟩
    rw [advance] at ht
    split at ht
    · rcases hrest ht with hmem | hother
      · split at hmem
        · -- the character is one that the way may take
          rcases mem_follow hmem with hmem | hstart
          · exact .inl hmem
          · exact .inr ⟨way, List.mem_cons_self, hstart⟩
        · exact .inl hmem
      · exact .inr hother
    · exact hrest ht

theorem mem_of_mem_untilAccept {ways : List Thread} (ht : t ∈ (untilAccept program ways).1) :
    t ∈ ways := by
  induction ways with
  | nil => exact ht
  | cons way rest ih =>
    rw [untilAccept] at ht
    split at ht
    · cases ht
    · rcases List.mem_cons.mp ht with rfl | ht
      · exact List.mem_cons_self
      · exact List.mem_cons_of_mem _ (ih ht)

theorem exists_of_untilAccept {ways : List Thread} {start : Nat}
    (h : (untilAccept program ways).2 = some start) : ∃ way ∈ ways, way.start = start := by
  induction ways with
  | nil => cases h
  | cons way rest ih =>
    rw [untilAccept] at h
    split at h
    · cases h
      exact ⟨way, List.mem_cons_self, rfl⟩
    · obtain ⟨other, hother, hstart⟩ := ih h
      exact ⟨other, List.mem_cons_of_mem _ hother, hstart⟩

end Ways

/-! ## Matches -/

/-- A way that begins where the machine is joins those that are waiting, unless there is a match. -/
theorem isPlace_of_joined {program : Program} {place steps : Nat} {before after : Option Char}
    {queue : List Nat} {passed : List Char} {begins : Bool} {threads : Threads} {t : Thread}
    (hwaiting : ∀ t ∈ threads.waiting, IsPlace passed t.start)
    (ht : t ∈ (if begins = true then
      follow program place before after (size passed) steps queue threads
        else threads).waiting) : IsPlace passed t.start := by
  split at ht
  · rcases mem_follow ht with ht | hstart
    · exact hwaiting t ht
    · rw [hstart]
      exact ⟨passed, [], (List.append_nil _).symm, rfl⟩
  · exact hwaiting t ht

/-- The ways that go on after a character are among those that were there before it. -/
theorem isPlace_of_advanced {program : Program} {place : Nat} {c : Char} {after : Option Char}
    {passed : List Char} {ways : List Thread} {reached : Array Nat} {t : Thread}
    (hways : ∀ t ∈ ways, IsPlace passed t.start)
    (ht : t ∈ (advance program place c after (untilAccept program ways).1 ⟨[], reached⟩).waiting) :
    IsPlace (passed ++ [c]) t.start := by
  rcases exists_of_mem_advance ht with hmem | ⟨way, hway, hstart⟩
  · cases hmem
  · rw [hstart]
    exact (hways way (mem_of_mem_untilAccept hway)).append [c]

/-- The first way that accepts spans the text from its start. -/
theorem spans_of_untilAccept {program : Program} {passed : List Char} {ways : List Thread}
    {start : Nat} (hways : ∀ t ∈ ways, IsPlace passed t.start)
    (haccepted : (untilAccept program ways).2 = some start) :
    Spans passed (start, size passed) := by
  obtain ⟨way, hway, rfl⟩ := exists_of_untilAccept haccepted
  exact (hways way hway).spans

/-- Along a text that the machine has passed up to a place, what it has found are matches. -/
theorem run_spans {program : Program} {entry place : Nat} {before : Option Char}
    {passed rest : List Char} {found : Option (Nat × Nat)} {threads : Threads} {span : Nat × Nat}
    (hrun : run program entry before place (size passed) found threads rest = some span)
    (hwaiting : ∀ t ∈ threads.waiting, IsPlace passed t.start)
    (hfound : ∀ s, found = some s → Spans passed s) : Spans (passed ++ rest) span := by
  induction rest generalizing place before passed found threads with
  | nil =>
    rw [run] at hrun
    rw [List.append_nil]
    split at hrun
    · rename_i start haccepted
      cases hrun
      refine spans_of_untilAccept (fun t ht => ?_) haccepted
      exact isPlace_of_joined hwaiting (List.mem_reverse.mp ht)
    · exact hfound span hrun
  | cons c rest ih =>
    rw [run] at hrun
    have hjoined : ∀ {t : Thread}, t ∈ (if found.isNone = true then
        follow program place before (some c) (size passed) (followSteps program) [entry] threads
          else threads).waiting → IsPlace passed t.start := isPlace_of_joined hwaiting
    generalize (if found.isNone = true then
        follow program place before (some c) (size passed) (followSteps program) [entry] threads
          else threads) = joined at hrun hjoined
    have hways : ∀ t ∈ joined.waiting.reverse, IsPlace passed t.start := fun t ht =>
      hjoined (List.mem_reverse.mp ht)
    dsimp only at hrun
    -- whatever was found by now, the run ends with it or goes on behind the character
    have hgo : ∀ found' : Option (Nat × Nat), (∀ s, found' = some s → Spans passed s) →
        (if ((untilAccept program joined.waiting.reverse).1.isEmpty && found'.isSome) = true then
            found'
          else run program entry (some c) (place + 1) (size passed + c.utf8Size) found'
            (advance program (place + 1) c rest.head?
              (untilAccept program joined.waiting.reverse).1 ⟨[], joined.reached⟩) rest) =
          some span → Spans (passed ++ c :: rest) span := by
      intro found' hfound' hrun
      split at hrun
      · exact (hfound' span hrun).append (c :: rest)
      · rw [← size_singleton c, ← size_append] at hrun
        have hspans := ih hrun (fun t => isPlace_of_advanced hways) fun s hs =>
          (hfound' s hs).append [c]
        rwa [List.append_assoc] at hspans
    rcases haccepted : (untilAccept program joined.waiting.reverse).2 with _ | start
    · simp only [haccepted] at hrun
      exact hgo found hfound hrun
    · simp only [haccepted] at hrun
      refine hgo (some (start, size passed)) ?_ hrun
      rintro s ⟨⟩
      exact spans_of_untilAccept hways haccepted

/-- A match is a part of the text. -/
theorem find_spans {pattern : Pattern} {text : String} {span : Nat × Nat}
    (h : pattern.find text = some span) : Spans text.toList span := by
  have hrun : run pattern.program pattern.entry none 1 (size []) none
      ⟨[], Array.replicate pattern.program.size 0⟩ text.toList = some span := h
  exact run_spans hrun nofun nofun

end SessionArchive.Pattern
