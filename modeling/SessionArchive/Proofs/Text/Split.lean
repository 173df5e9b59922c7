import Mathlib.Data.List.DropRight
import SessionArchive.Text.Blank
import SessionArchive.Text.Split

/-!
# Cutting and trimming text

What the functions that cut text give back when the text is known to be put together in some way,
and what the pieces cannot hold: a piece before the first separator or after the last one is free of
it. Pieces that are joined are found again by splitting.
-/

set_option autoImplicit false

namespace SessionArchive.Text

variable {sep : Char} {cs before after : List Char}

/-! ## At the first separator -/

theorem cutAt?_append (hbefore : sep ∉ before) :
    cutAt? sep (before ++ sep :: after) = some (before, after) := by
  induction before with
  | nil => simp [cutAt?]
  | cons c rest ih =>
    rw [List.mem_cons, not_or] at hbefore
    rw [List.cons_append, cutAt?, if_neg fun h => hbefore.1 h.symm, ih hbefore.2]
    rfl

theorem eq_of_cutAt? (h : cutAt? sep cs = some (before, after)) :
    sep ∉ before ∧ cs = before ++ sep :: after := by
  induction cs generalizing before with
  | nil => cases h
  | cons c rest ih =>
    rw [cutAt?] at h
    split at h
    · rename_i hsame
      cases h
      exact ⟨List.not_mem_nil, by rw [hsame, List.nil_append]⟩
    · rename_i hne
      obtain ⟨⟨first, last⟩, hcut, hparts⟩ := Option.map_eq_some_iff.mp h
      cases hparts
      obtain ⟨hfree, hrest⟩ := ih hcut
      refine ⟨fun hmem => ?_, by rw [hrest, List.cons_append]⟩
      rcases List.mem_cons.mp hmem with rfl | hmem
      · exact hne rfl
      · exact hfree hmem

theorem beforeFirst_append (hbefore : sep ∉ before) :
    beforeFirst sep (before ++ sep :: after) = before := by
  rw [beforeFirst, List.takeWhile_append_of_pos, List.takeWhile_cons_of_neg (by simp),
    List.append_nil]
  intro c hc
  simpa using ne_of_mem_of_not_mem hc hbefore

theorem beforeFirst_of_not_mem (h : sep ∉ cs) : beforeFirst sep cs = cs := by
  rw [beforeFirst, List.takeWhile_eq_self_iff]
  intro c hc
  simpa using ne_of_mem_of_not_mem hc h

theorem sep_not_mem_beforeFirst (sep : Char) (cs : List Char) : sep ∉ beforeFirst sep cs := by
  intro h
  simpa using List.mem_takeWhile_imp h

theorem mem_of_mem_beforeFirst {c : Char} (h : c ∈ beforeFirst sep cs) : c ∈ cs :=
  (List.takeWhile_sublist _).subset h

/-! ## At a run of characters -/

/-- A run is found at the first place where its first character stands. -/
theorem cutAtText?_append {tail : List Char} (hbefore : sep ∉ before) :
    cutAtText? (sep :: tail) (before ++ (sep :: tail) ++ after) = some (before, after) := by
  induction before with
  | nil => simp [cutAtText?]
  | cons c rest ih =>
    rw [List.mem_cons, not_or] at hbefore
    rw [List.cons_append, List.cons_append, cutAtText?, if_neg (by simp [hbefore.1]), ih hbefore.2]
    rfl

theorem cutAtText?_eq_none {run : List Char} (h : ¬run <:+: cs) : cutAtText? run cs = none := by
  induction cs with
  | nil =>
    rw [cutAtText?, if_neg]
    rw [List.isEmpty_iff]
    rintro rfl
    exact h (List.infix_refl _)
  | cons c rest ih =>
    rw [List.infix_cons_iff, not_or, ← List.isPrefixOf_iff_prefix] at h
    rw [cutAtText?, if_neg h.1, ih h.2]
    rfl

/-! ## At the last separator -/

theorem afterLast_eq (sep : Char) (cs : List Char) : afterLast sep cs = cs.rtakeWhile (· ≠ sep) :=
  rfl

theorem afterLast_of_not_mem (h : sep ∉ cs) : afterLast sep cs = cs := by
  rw [afterLast_eq, List.rtakeWhile_eq_self_iff]
  intro c hc
  simpa using ne_of_mem_of_not_mem hc h

theorem afterLast_append (hafter : sep ∉ after) :
    afterLast sep (before ++ sep :: after) = after := by
  have hreverse : sep ∉ after.reverse := by simpa using hafter
  have hturned : (before ++ sep :: after).reverse = after.reverse ++ sep :: before.reverse := by
    simp
  rw [afterLast, hturned]
  exact (congrArg List.reverse (beforeFirst_append hreverse)).trans after.reverse_reverse

theorem sep_not_mem_afterLast (sep : Char) (cs : List Char) : sep ∉ afterLast sep cs := by
  intro h
  simpa using List.mem_rtakeWhile_imp h

theorem mem_of_mem_afterLast {c : Char} (h : c ∈ afterLast sep cs) : c ∈ cs :=
  (List.rtakeWhile_suffix _ _).subset h

/-! ## At every separator -/

theorem splitOn_eq (sep : Char) (cs : List Char) : splitOn sep cs = cs.splitOn sep := by
  induction cs with
  | nil => rfl
  | cons c rest ih =>
    rw [splitOn, ih, List.splitOn_cons_eq_if_modifyHead]
    simp only [beq_iff_eq]
    split
    · rfl
    · -- there is a first piece to put the character in
      split
      · rename_i hnil
        exact absurd hnil (List.splitOn_ne_nil sep rest)
      · rename_i piece pieces hpieces
        rw [hpieces]
        rfl

theorem joinWith_eq (pieces : List (List Char)) : joinWith cs pieces = cs.intercalate pieces := by
  induction pieces with
  | nil => rfl
  | cons piece rest ih =>
    cases rest with
    | nil => rw [joinWith, List.intercalate_singleton]
    | cons next pieces => simp [joinWith, ih]

theorem sep_not_mem_of_mem_splitOn {piece : List Char} (h : piece ∈ splitOn sep cs) :
    sep ∉ piece := by
  induction cs generalizing piece with
  | nil =>
    rw [splitOn, List.mem_singleton] at h
    simp [h]
  | cons c rest ih =>
    rw [splitOn] at h
    split at h
    · rcases List.mem_cons.mp h with rfl | hmem
      · exact List.not_mem_nil
      · exact ih hmem
    · rename_i hne
      split at h
      · rw [List.mem_singleton] at h
        simpa [h] using Ne.symm hne
      · -- the character goes to the front of the first piece of the rest
        rename_i first pieces hpieces
        rw [hpieces] at ih
        rcases List.mem_cons.mp h with rfl | hmem
        · have hfirst := ih (List.mem_cons_self (a := first))
          simpa [hfirst] using Ne.symm hne
        · exact ih (List.mem_cons_of_mem _ hmem)

/-! ## At both ends -/

section While

variable {p : Char → Bool} {c : Char}

theorem dropWhile_append_cons (hc : p c = false) :
    (before ++ c :: after).dropWhile p = before.dropWhile p ++ c :: after := by
  induction before with
  | nil => simp [hc]
  | cons first rest ih =>
    rw [List.cons_append, List.dropWhile_cons, List.dropWhile_cons, ih]
    split
    · rfl
    · rfl

theorem dropEndWhile_append_cons (hc : p c = false) :
    dropEndWhile p (before ++ c :: after) = before ++ c :: dropEndWhile p after := by
  have hturned : (before ++ c :: after).reverse = after.reverse ++ c :: before.reverse := by simp
  rw [dropEndWhile, hturned, dropWhile_append_cons hc, dropEndWhile]
  simp

theorem dropEndWhile_append_of_all {tail : List Char} (htail : ∀ c ∈ tail, p c = true) :
    dropEndWhile p (cs ++ tail) = dropEndWhile p cs := by
  rw [dropEndWhile, List.reverse_append, List.dropWhile_append_of_pos, dropEndWhile]
  intro c hc
  exact htail c (List.mem_reverse.mp hc)

theorem dropEndWhile_eq_self (hlast : ∀ c ∈ cs.getLast?, p c = false) : dropEndWhile p cs = cs := by
  refine List.rdropWhile_eq_self_iff.mpr fun hne => ?_
  rw [hlast _ (List.getLast?_eq_getLast_of_ne_nil hne)]
  exact Bool.false_ne_true

/-- What is dropped from the end all satisfies the condition. -/
theorem exists_dropEndWhile_append (p : Char → Bool) (cs : List Char) :
    ∃ tail, cs = dropEndWhile p cs ++ tail ∧ ∀ c ∈ tail, p c = true :=
  ⟨cs.rtakeWhile p, (List.rdropWhile_append_rtakeWhile).symm, fun _ => List.mem_rtakeWhile_imp⟩

end While

/-- What was trimmed has nothing left to trim. -/
theorem trim_trim (cs : List Char) : trim (trim cs) = trim cs := by
  rw [trim, trim]
  cases hrest : cs.dropWhile isBlank with
  | nil => rfl
  | cons c rest =>
    have hc : isBlank c = false := by
      have hhead := List.head?_dropWhile_not isBlank cs
      rw [hrest] at hhead
      simpa using hhead
    have hfirst : dropEndWhile isBlank ([] ++ c :: rest) = [] ++ c :: dropEndWhile isBlank rest :=
      dropEndWhile_append_cons hc
    rw [List.nil_append, List.nil_append] at hfirst
    rw [hfirst, List.dropWhile_cons_of_neg (by simp [hc]), ← hfirst]
    exact List.rdropWhile_idempotent isBlank (c :: rest)

section Ending

variable {ending : List Char}

theorem dropEnding_append : dropEnding ending (cs ++ ending) = cs := by
  rw [dropEnding, if_pos (List.isSuffixOf_iff_suffix.mpr (List.suffix_append cs ending))]
  simp

theorem dropEnding_of_not_suffix (h : ¬ending <:+ cs) : dropEnding ending cs = cs := by
  rw [dropEnding, if_neg (by rwa [List.isSuffixOf_iff_suffix])]

/-- An ending without separators is one of the last piece. -/
theorem suffix_append_cons_iff (hsep : sep ∉ ending) :
    ending <:+ before ++ sep :: after ↔ ending <:+ after := by
  constructor
  · intro h
    have hlength : ending.length ≤ after.length := by
      by_contra hlong
      -- a longer one would have the separator
      have hwhole : sep :: after <:+ ending :=
        List.suffix_of_suffix_length_le (List.suffix_append _ _) h (by simp; omega)
      exact hsep (hwhole.subset List.mem_cons_self)
    have hlast : after <:+ before ++ sep :: after :=
      (List.suffix_cons sep after).trans (List.suffix_append _ _)
    exact List.suffix_of_suffix_length_le h hlast hlength
  · intro h
    exact h.trans ((List.suffix_cons sep after).trans (List.suffix_append _ _))

theorem dropEnding_append_cons (hsep : sep ∉ ending) :
    dropEnding ending (before ++ sep :: after) = before ++ sep :: dropEnding ending after := by
  by_cases h : ending <:+ after
  · obtain ⟨start, rfl⟩ := h
    rw [dropEnding_append, ← List.cons_append, ← List.append_assoc, dropEnding_append]
  · rw [dropEnding_of_not_suffix h,
      dropEnding_of_not_suffix ((suffix_append_cons_iff hsep).not.mpr h)]

end Ending

end SessionArchive.Text
