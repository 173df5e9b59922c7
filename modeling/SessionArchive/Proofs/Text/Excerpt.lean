import SessionArchive.Proofs.Text.Split
import SessionArchive.Text.Excerpt

/-!
# Excerpts are one short line

`IsFirstLine` says what the first line of a text is by what follows it: nothing, a line feed, or a
carriage return and a line feed. Every text has one first line and no other (`firstLine_eq_iff`).
An excerpt is never wider than asked for and never has a line feed; it is the text where that is
possible, and else the front of the first line with an ellipsis: `excerptString_oneLine`.
-/

set_option autoImplicit false

namespace SessionArchive.Text

variable {cs line : List Char} {width : Nat}

/-! ## First lines -/

/-- The first line of a text, by what follows it. A carriage return belongs to the end of the line
only where a line feed stands behind it. -/
inductive IsFirstLine (line : List Char) : List Char → Prop
  | whole (hfree : '\n' ∉ line) : IsFirstLine line line
  | lineFeed (hfree : '\n' ∉ line) (hlast : line.getLast? ≠ some '\r') (rest : List Char) :
      IsFirstLine line (line ++ '\n' :: rest)
  | carriageReturn (hfree : '\n' ∉ line) (rest : List Char) :
      IsFirstLine line (line ++ '\r' :: '\n' :: rest)

theorem firstLine_of_not_mem (h : '\n' ∉ cs) : firstLine cs = cs := by
  rw [firstLine, lines, splitOn_eq, List.splitOn_eq_singleton h]
  cases cs with
  | nil => rfl
  | cons c rest => rfl

theorem firstLine_append {before : List Char} (hbefore : '\n' ∉ before) (after : List Char) :
    firstLine (before ++ '\n' :: after) =
      if before.getLast? = some '\r' then before.dropLast else before := by
  -- what follows the line feed is at least one more piece, so the first one is ended
  have hended : (before :: after.splitOn '\n').dropLast =
      before :: (after.splitOn '\n').dropLast :=
    List.dropLast_cons_of_ne_nil (List.splitOn_ne_nil '\n' after)
  rw [firstLine, lines, splitOn_eq, List.splitOn_append_cons_self_of_not_mem hbefore, hended]
  split
  · rfl
  · rfl

theorem IsFirstLine.firstLine_eq (h : IsFirstLine line cs) : firstLine cs = line := by
  cases h with
  | whole hfree => exact firstLine_of_not_mem hfree
  | lineFeed hfree hlast rest => rw [firstLine_append hfree, if_neg hlast]
  | carriageReturn hfree rest =>
    have hbefore : '\n' ∉ line ++ ['\r'] := by simp [hfree]
    have hcut : line ++ '\r' :: '\n' :: rest = line ++ ['\r'] ++ '\n' :: rest := by simp
    rw [hcut, firstLine_append hbefore, if_pos List.getLast?_concat, List.dropLast_concat]

theorem isFirstLine_firstLine (cs : List Char) : IsFirstLine (firstLine cs) cs := by
  by_cases hfeed : '\n' ∈ cs
  · obtain ⟨before, after, rfl, hbefore⟩ := List.eq_append_cons_of_mem hfeed
    rw [firstLine_append hbefore]
    split
    · -- the carriage return is no part of the line
      rename_i hlast
      obtain ⟨line, rfl⟩ := List.getLast?_eq_some_iff.mp hlast
      rw [List.dropLast_concat, List.append_assoc]
      exact .carriageReturn (fun h => hbefore (List.mem_append_left _ h)) after
    · rename_i hlast
      exact .lineFeed hbefore hlast after
  · rw [firstLine_of_not_mem hfeed]
    exact .whole hfeed

/-- A text has one first line. -/
theorem firstLine_eq_iff : firstLine cs = line ↔ IsFirstLine line cs := by
  constructor
  · rintro rfl
    exact isFirstLine_firstLine cs
  · exact IsFirstLine.firstLine_eq

namespace IsFirstLine

theorem not_mem (h : IsFirstLine line cs) : '\n' ∉ line := by
  cases h with
  | whole hfree => exact hfree
  | lineFeed hfree => exact hfree
  | carriageReturn hfree => exact hfree

theorem isPrefix (h : IsFirstLine line cs) : line <+: cs := by
  cases h with
  | whole => exact List.prefix_refl _
  | lineFeed => exact List.prefix_append _ _
  | carriageReturn => exact List.prefix_append _ _

theorem eq_iff (h : IsFirstLine line cs) : line = cs ↔ '\n' ∉ cs := by
  constructor
  · rintro rfl
    exact h.not_mem
  · intro hfree
    rw [← h.firstLine_eq, firstLine_of_not_mem hfree]

theorem length_eq_iff (h : IsFirstLine line cs) : line.length = cs.length ↔ '\n' ∉ cs := by
  rw [← h.eq_iff]
  exact ⟨h.isPrefix.eq_of_length, congrArg List.length⟩

end IsFirstLine

/-! ## Excerpts -/

theorem excerpt_eq (width : Nat) (cs : List Char) :
    excerpt width cs =
      if '\n' ∉ cs ∧ cs.length ≤ width then cs
      else (firstLine cs).take (width - 1) ++ [ellipsis] := by
  have hfirst := isFirstLine_firstLine cs
  rw [excerpt]
  by_cases hfree : '\n' ∉ cs
  · simp only [hfirst.eq_iff.mpr hfree, hfree, not_false_eq_true, and_true, true_and]
  · have hshorter := hfirst.length_eq_iff.not.mpr hfree
    rw [if_neg fun h => hshorter h.2, if_neg fun h => hfree h.1]

theorem length_excerpt_le (hwidth : 1 ≤ width) (cs : List Char) :
    (excerpt width cs).length ≤ width := by
  rw [excerpt_eq]
  split
  · rename_i hshort
    exact hshort.2
  · rw [List.length_append, List.length_take, List.length_singleton]
    omega

theorem lineFeed_not_mem_excerpt (width : Nat) (cs : List Char) : '\n' ∉ excerpt width cs := by
  rw [excerpt_eq]
  split
  · rename_i hshort
    exact hshort.1
  · rw [List.mem_append, not_or]
    constructor
    · intro h
      exact (isFirstLine_firstLine cs).not_mem (List.mem_of_mem_take h)
    · decide

theorem excerpt_eq_self_iff (hwidth : 1 ≤ width) :
    excerpt width cs = cs ↔ '\n' ∉ cs ∧ cs.length ≤ width := by
  constructor
  · -- a text that is its own excerpt has what every excerpt has
    intro h
    rw [← h]
    exact ⟨lineFeed_not_mem_excerpt width cs, length_excerpt_le hwidth cs⟩
  · intro hshort
    rw [excerpt_eq, if_pos hshort]

theorem excerpt_of_ne (h : excerpt width cs ≠ cs) :
    excerpt width cs = (firstLine cs).take (width - 1) ++ [ellipsis] := by
  rw [excerpt_eq] at h ⊢
  split at h
  · exact absurd rfl h
  · rename_i hlong
    rw [if_neg hlong]

/-- An excerpt has at most the characters asked for and no line feed. It is the text itself exactly
if that has no line feed and is short enough, and else as much of the one first line as leaves room
for an ellipsis. -/
theorem excerptString_oneLine (hwidth : 1 ≤ width) (text : String) :
    ∃ line, (∀ other, IsFirstLine other text.toList ↔ other = line) ∧
      (excerptString width text).length ≤ width ∧
      '\n' ∉ (excerptString width text).toList ∧
      (excerptString width text = text ↔ '\n' ∉ text.toList ∧ text.length ≤ width) ∧
      (excerptString width text ≠ text →
        (excerptString width text).toList =
          line.take (min (width - 1) line.length) ++ ['…']) := by
  have hchars : (excerptString width text).toList = excerpt width text.toList :=
    String.toList_ofList
  have hsame : excerptString width text = text ↔ excerpt width text.toList = text.toList := by
    rw [← String.toList_inj, hchars]
  refine ⟨firstLine text.toList, fun other => ?_, ?_, ?_, ?_, ?_⟩
  · rw [← firstLine_eq_iff, eq_comm]
  · rw [← String.length_toList, hchars]
    exact length_excerpt_le hwidth _
  · rw [hchars]
    exact lineFeed_not_mem_excerpt width _
  · rw [hsame, excerpt_eq_self_iff hwidth, String.length_toList]
  · intro hne
    rw [hchars, excerpt_of_ne (hsame.not.mp hne), ← List.take_eq_take_min]
    rfl

/-- A line that just fits is cut where more of the text follows it, if only its end. -/
theorem excerptString_oneLine_ended :
    let text := "añb\r\n"
    1 ≤ 3 ∧ excerptString 3 text ≠ text ∧
      ∃ line, (∀ other, IsFirstLine other text.toList ↔ other = line) ∧
        (excerptString 3 text).length ≤ 3 ∧
        '\n' ∉ (excerptString 3 text).toList ∧
        (excerptString 3 text = text ↔ '\n' ∉ text.toList ∧ text.length ≤ 3) ∧
        (excerptString 3 text ≠ text →
          (excerptString 3 text).toList = line.take (min (3 - 1) line.length) ++ ['…']) := by
  intro text
  have hwidth : 1 ≤ 3 := by decide
  have hcut : excerptString 3 text ≠ text := by decide
  exact ⟨hwidth, hcut, excerptString_oneLine hwidth text⟩

end SessionArchive.Text
