import Mathlib.Data.List.DropRight
import SessionArchive.Proofs.Pattern.Span
import SessionArchive.Store.Search

/-!
# Snippets

A snippet begins some characters before one byte offset and ends as many characters after another.
`snippet?_eq` counts in characters where that is, `snippet?_eq_none_iff` says for which offsets
there is no snippet, and `snippet?_eq_some_iff` which part of the text it is for all others, the
second offset before the first included. Around a match it is the match with its clipped context:
`snippet?_of_isPlace`.
-/

set_option autoImplicit false

namespace SessionArchive.Store

open Pattern (IsPlace Spans)
open Text.Utf8 (IsInside size size_append size_pos size_take_lt_iff split? split?_append
  split?_eq_none_iff split?_eq_some_iff)

variable {text before behind front after : List Char} {start stop radius : Nat}

/-! ## Parts of a text -/

/-- The part of a text between two byte offsets. -/
def IsPart (text : List Char) (first last : Nat) (part : List Char) : Prop :=
  ∃ head tail, text = head ++ part ++ tail ∧ first = size head ∧ last = size (head ++ part)

/-- At a byte offset a text is cut in one way only. -/
theorem eq_of_size_eq (htext : before ++ behind = front ++ after)
    (hsize : size before = size front) : before = front := by
  have hcut := split?_append before behind
  rw [htext, hsize, split?_append] at hcut
  exact (Prod.mk.inj (Option.some.inj hcut)).1.symm

/-- The front part of a text that ends where another front part ends but is not as long. -/
theorem exists_append_of_length_le (hbefore : text = before ++ behind)
    (hfront : text = front ++ after)
    (hlength : front.length ≤ before.length) : ∃ middle, before = front ++ middle := by
  have hprefix : front <+: before :=
    List.prefix_of_prefix_length_le ⟨after, hfront.symm⟩ ⟨behind, hbefore.symm⟩ hlength
  obtain ⟨middle, hmiddle⟩ := hprefix
  exact ⟨middle, hmiddle.symm⟩

/-- A front part of a text is a shorter one and what follows that in it. -/
theorem take_append_drop_take {m n : Nat} (h : m ≤ n) (text : List Char) :
    text.take m ++ (text.take n).drop m = text.take n := by
  have htake : (text.take n).take m = text.take m := by rw [List.take_take, Nat.min_eq_left h]
  rw [← htake, List.take_append_drop]

/-! ## Offsets in characters -/

/-- Between characters the offsets of a snippet are numbers of characters. -/
theorem snippet?_eq (hbefore : text = before ++ behind) (hfront : text = front ++ after)
    (radius : Nat) :
    snippet? text (size before) (size front) radius =
      if front.length + radius < before.length - radius then none
      else some ((text.take (front.length + radius)).drop (before.length - radius)) := by
  have hstart : split? (size before) text = some (before, behind) :=
    split?_eq_some_iff.mpr ⟨hbefore, rfl⟩
  have hstop : split? (size front) text = some (front, after) :=
    split?_eq_some_iff.mpr ⟨hfront, rfl⟩
  have hlength : before.length - radius ≤ text.length := by
    rw [hbefore, List.length_append]
    omega
  have htake : text.take (before.length - radius) = before.take (before.length - radius) := by
    rw [hbefore, List.take_append_of_le_length (Nat.sub_le _ _)]
  have hfirst : size before - size (lastOf radius before) =
      size (text.take (before.length - radius)) := by
    have hparts := congrArg size (List.take_append_drop (before.length - radius) before)
    rw [size_append, ← htake] at hparts
    rw [lastOf]
    omega
  have hlast : size front + size (after.take radius) =
      size (text.take (front.length + radius)) := by
    rw [hfront, List.take_length_add_append, size_append]
  simp only [snippet?, hstart, hstop, hfirst, hlast, size_take_lt_iff hlength]
  split
  · rfl
  · rename_i hordered
    -- the text in three parts, of which the snippet is the second
    have hhead := take_append_drop_take (Nat.le_of_not_lt hordered) text
    have htail : text = text.take (before.length - radius) ++
        ((text.take (front.length + radius)).drop (before.length - radius) ++
          text.drop (front.length + radius)) := by
      rw [← List.append_assoc, hhead, List.take_append_drop]
    have hsize := congrArg size hhead
    rw [size_append] at hsize
    generalize (text.take (front.length + radius)).drop (before.length - radius) = shown at *
    generalize text.take (before.length - radius) = head at *
    have hshown : size (text.take (front.length + radius)) - size head = size shown := by omega
    have hcut : split? (size head) text =
        some (head, shown ++ text.drop (front.length + radius)) :=
      split?_eq_some_iff.mpr ⟨htail, rfl⟩
    rw [hshown, hcut, Option.bind_some, split?_append]
    rfl

/-- Around a part of a text the snippet is the part with its clipped context. -/
theorem snippet?_append (before matched after : List Char) (radius : Nat) :
    snippet? (before ++ matched ++ after) (size before) (size (before ++ matched)) radius =
      some (lastOf radius before ++ matched ++ after.take radius) := by
  have hordered : ¬(before ++ matched).length + radius < before.length - radius := by
    rw [List.length_append]
    omega
  rw [snippet?_eq (List.append_assoc before matched after) rfl, if_neg hordered,
    List.take_length_add_append, List.append_assoc,
    List.drop_append_of_le_length (Nat.sub_le _ _), ← List.append_assoc]
  rfl

/-! ## Which offsets have a snippet -/

/-- Why there is no snippet between two byte offsets: one is beyond the text or inside a character,
or more than twice the radius of characters lie between the second offset and the first. -/
inductive Uncuttable (text : List Char) (start stop radius : Nat) : Prop
  | startBeyond (h : size text < start)
  | startInside (h : IsInside text start)
  | stopBeyond (h : size text < stop)
  | stopInside (h : IsInside text stop)
  | crossed (head middle tail : List Char) (htext : text = head ++ middle ++ tail)
      (hstop : stop = size head) (hstart : start = size (head ++ middle))
      (hlong : 2 * radius < middle.length)

theorem uncuttable_of_start (h : split? start text = none) : Uncuttable text start stop radius := by
  rcases split?_eq_none_iff.mp h with hbeyond | hinside
  · exact .startBeyond hbeyond
  · exact .startInside hinside

theorem uncuttable_of_stop (h : split? stop text = none) : Uncuttable text start stop radius := by
  rcases split?_eq_none_iff.mp h with hbeyond | hinside
  · exact .stopBeyond hbeyond
  · exact .stopInside hinside

/-- Between characters there is no snippet only where the offsets are too far crossed. -/
theorem uncuttable_iff (hbefore : text = before ++ behind) (hfront : text = front ++ after) :
    Uncuttable text (size before) (size front) radius ↔
      front.length + radius < before.length - radius := by
  have hstart : split? (size before) text ≠ none := by
    rw [split?_eq_some_iff.mpr ⟨hbefore, rfl⟩]
    exact Option.some_ne_none _
  have hstop : split? (size front) text ≠ none := by
    rw [split?_eq_some_iff.mpr ⟨hfront, rfl⟩]
    exact Option.some_ne_none _
  constructor
  · intro h
    cases h with
    | startBeyond h => exact absurd (split?_eq_none_iff.mpr (.inl h)) hstart
    | startInside h => exact absurd (split?_eq_none_iff.mpr (.inr h)) hstart
    | stopBeyond h => exact absurd (split?_eq_none_iff.mpr (.inl h)) hstop
    | stopInside h => exact absurd (split?_eq_none_iff.mpr (.inr h)) hstop
    | crossed head middle tail htext hhead hboth hlong =>
      -- the offsets are those of both texts, so the texts are the same
      have hfirst : before = head ++ middle := eq_of_size_eq (hbefore.symm.trans htext) hboth
      rw [List.append_assoc] at htext
      have hsecond : front = head := eq_of_size_eq (hfront.symm.trans htext) hhead
      rw [hfirst, hsecond, List.length_append]
      omega
  · intro hcrossed
    obtain ⟨middle, rfl⟩ := exists_append_of_length_le hbefore hfront (by omega)
    rw [List.length_append] at hcrossed
    exact .crossed front middle behind hbefore rfl rfl (by omega)

theorem snippet?_eq_none_iff :
    snippet? text start stop radius = none ↔ Uncuttable text start stop radius := by
  cases hstart : split? start text with
  | none => simp [snippet?, hstart, uncuttable_of_start hstart]
  | some parts =>
    cases hstop : split? stop text with
    | none => simp [snippet?, hstart, hstop, uncuttable_of_stop hstop]
    | some others =>
      obtain ⟨hbefore, rfl⟩ := split?_eq_some_iff.mp hstart
      obtain ⟨hfront, rfl⟩ := split?_eq_some_iff.mp hstop
      rw [uncuttable_iff hbefore hfront, snippet?_eq hbefore hfront, ite_eq_left_iff]
      simp only [reduceCtorEq, imp_false, not_not]

/-- What has a snippet is cut at both offsets. -/
theorem exists_of_snippet? {shown : List Char} (h : snippet? text start stop radius = some shown) :
    ∃ before behind front after, text = before ++ behind ∧ start = size before ∧
      text = front ++ after ∧ stop = size front := by
  cases hstart : split? start text with
  | none => simp [snippet?, hstart] at h
  | some parts =>
    cases hstop : split? stop text with
    | none => simp [snippet?, hstart, hstop] at h
    | some others =>
      obtain ⟨hbefore, hfirst⟩ := split?_eq_some_iff.mp hstart
      obtain ⟨hfront, hsecond⟩ := split?_eq_some_iff.mp hstop
      exact ⟨_, _, _, _, hbefore, hfirst, hfront, hsecond⟩

/-! ## What a snippet shows -/

/-- Between characters a snippet is the part of the text from `radius` characters before the first
offset to `radius` characters after the second, clipped at both ends of the text. -/
theorem snippet?_eq_some_iff {shown : List Char} (hbefore : text = before ++ behind)
    (hfront : text = front ++ after) :
    snippet? text (size before) (size front) radius = some shown ↔
      IsPart text (size (before.rdrop radius)) (size (front ++ after.take radius)) shown := by
  have hhead : before.rdrop radius = text.take (before.length - radius) := by
    rw [hbefore, List.take_append_of_le_length (Nat.sub_le _ _)]
    rfl
  have hlast : front ++ after.take radius = text.take (front.length + radius) := by
    rw [hfront, List.take_length_add_append]
  have hlength : before.length - radius ≤ text.length := by
    rw [hbefore, List.length_append]
    omega
  rw [snippet?_eq hbefore hfront, hhead, hlast]
  constructor
  · intro hshown
    split at hshown
    · cases hshown
    · rename_i hordered
      cases hshown
      have hparts := take_append_drop_take (Nat.le_of_not_lt hordered) text
      refine ⟨_, text.drop (front.length + radius), ?_, rfl, ?_⟩
      · rw [hparts, List.take_append_drop]
      · rw [hparts]
  · rintro ⟨head, tail, htext, hsize, hsizeLast⟩
    have hcut : ∀ n, text.take n ++ text.drop n = head ++ shown ++ tail := fun n =>
      (List.take_append_drop n text).trans htext
    have hfirst : text.take (before.length - radius) = head :=
      eq_of_size_eq ((hcut _).trans (List.append_assoc head shown tail)) hsize
    have hwhole : text.take (front.length + radius) = head ++ shown :=
      eq_of_size_eq (hcut _) hsizeLast
    have hordered : ¬front.length + radius < before.length - radius := by
      intro hcrossed
      have hlengths := congrArg List.length hwhole
      rw [← hfirst, List.length_append, List.length_take, List.length_take] at hlengths
      omega
    have hlengthHead : before.length - radius = head.length := by
      rw [← hfirst, List.length_take_of_le hlength]
    rw [if_neg hordered, hwhole, hlengthHead, List.drop_left]

/-! ## Around a match -/

theorem length_le_of_size_le (hbefore : text = before ++ behind) (hfront : text = front ++ after)
    (hsize : size before ≤ size front) : before.length ≤ front.length := by
  by_contra hlonger
  obtain ⟨middle, rfl⟩ := exists_append_of_length_le hbefore hfront (Nat.le_of_not_le hlonger)
  have hne : middle ≠ [] := by
    rintro rfl
    exact hlonger (by simp)
  have hpos := size_pos hne
  rw [size_append] at hsize
  omega

/-- Two places in a text, one no later than the other, have a part of it between them. -/
theorem spans_of_isPlace (hstart : IsPlace text start) (hstop : IsPlace text stop)
    (hle : start ≤ stop) : Spans text (start, stop) := by
  obtain ⟨before, behind, hbefore, rfl⟩ := hstart
  obtain ⟨front, after, hfront, rfl⟩ := hstop
  have hlength : before.length ≤ front.length := length_le_of_size_le hbefore hfront hle
  obtain ⟨matched, rfl⟩ := exists_append_of_length_le hfront hbefore hlength
  exact ⟨before, matched, after, hfront, rfl⟩

/-- Around a match a snippet is exactly the match with its clipped context, so that it is one part
of the text, holds the match, and is longer by no more than twice the radius. -/
theorem snippet?_of_isPlace (hstart : IsPlace text start) (hstop : IsPlace text stop)
    (hle : start ≤ stop) (radius : Nat) :
    ∃ before matched after shown, text = before ++ matched ++ after ∧ start = size before ∧
      stop = size (before ++ matched) ∧ snippet? text start stop radius = some shown ∧
      shown = before.rtake (min radius before.length) ++ matched ++
        after.take (min radius after.length) ∧
      shown <:+: text ∧ matched <:+: shown ∧ shown.length ≤ matched.length + 2 * radius := by
  obtain ⟨before, matched, after, htext, hspan⟩ := spans_of_isPlace hstart hstop hle
  obtain ⟨rfl, rfl⟩ := Prod.mk.inj hspan
  have hlast : lastOf radius before = before.rtake (min radius before.length) := by
    rw [lastOf, List.rtake]
    congr 1
    omega
  have hnext : after.take radius = after.take (min radius after.length) := by
    rw [← List.take_eq_take_min]
  have hshown := snippet?_append before matched after radius
  rw [hlast, hnext, ← htext] at hshown
  refine ⟨before, matched, after, _, htext, rfl, rfl, hshown, rfl, ?_, ?_, ?_⟩
  · obtain ⟨head, hhead⟩ : before.rtake (min radius before.length) <:+ before :=
      List.drop_suffix _ before
    obtain ⟨tail, htail⟩ := List.take_prefix (min radius after.length) after
    generalize before.rtake (min radius before.length) = near at hhead ⊢
    generalize after.take (min radius after.length) = next at htail ⊢
    refine ⟨head, tail, ?_⟩
    calc head ++ (near ++ matched ++ next) ++ tail
        = (head ++ near) ++ matched ++ (next ++ tail) := by simp only [List.append_assoc]
      _ = text := by rw [hhead, htail, htext]
  · exact ⟨_, _, rfl⟩
  · rw [List.length_append, List.length_append, List.rtake, List.length_drop, List.length_take]
    omega

/-- Two of three letters on either side, where a letter takes two bytes. -/
theorem snippet?_of_isPlace_accented :
    let text := ['é', 'é', 'é', '-', 'x', '-', 'é', 'é', 'é']
    IsPlace text 7 ∧ IsPlace text 8 ∧ 7 ≤ 8 ∧
      ∃ before matched after shown, text = before ++ matched ++ after ∧ 7 = size before ∧
        8 = size (before ++ matched) ∧ snippet? text 7 8 2 = some shown ∧
        shown = before.rtake (min 2 before.length) ++ matched ++
          after.take (min 2 after.length) ∧
        shown <:+: text ∧ matched <:+: shown ∧ shown.length ≤ matched.length + 2 * 2 := by
  intro text
  have hstart : IsPlace text 7 := ⟨['é', 'é', 'é', '-'], _, rfl, by decide⟩
  have hstop : IsPlace text 8 := ⟨['é', 'é', 'é', '-', 'x'], _, rfl, by decide⟩
  have hle : 7 ≤ 8 := by decide
  exact ⟨hstart, hstop, hle, snippet?_of_isPlace hstart hstop hle 2⟩

end SessionArchive.Store
