import SessionArchive.Proofs.Except
import SessionArchive.Proofs.Pattern.Literal

/-!
# Patterns of words

Any word can be searched for: the pattern with a backslash before each of its signs (`escape`) is
read as the characters of the word one after the other, so it means one set of one character for
each of them (`Takes`) and is compiled to a program that spells the word. A word that is not longer
than the limit on patterns allows has a pattern that finds it: `exists_finds`.
-/

set_option autoImplicit false

namespace SessionArchive.Pattern

open Unicode (CharSet)

/-- A character as it stands in a pattern for itself. -/
def escapeChar (c : Char) : List Char := if isMeta c then ['\\', c] else [c]

/-- The pattern of a word. -/
def escape (word : String) : String := String.ofList (word.toList.flatMap escapeChar)

/-! ## Reading -/

/-- A node that stands for a character. -/
def IsLiteral (c : Char) (node : Ast) : Prop := ∃ span, node = .literal ⟨span, c, false⟩

/-- A sign has no meaning of its own after a backslash. -/
theorem isMeta_escaped {c : Char} (h : isMeta c = true) :
    Text.isDigit c = false ∧ codeLetters.lookup c = none ∧ ¬(c = 'p' ∨ c = 'P') ∧
      perlLetters.lookup c = none := by
  let signs : List Char := ['\\', '.', '+', '*', '?', '(', ')', '|', '[', ']', '{', '}', '^', '$',
    '#', '&', '-', '~']
  have hall : signs.all (fun d => decide (Text.isDigit d = false ∧ codeLetters.lookup d = none ∧
      ¬(d = 'p' ∨ d = 'P') ∧ perlLetters.lookup d = none)) = true := by decide
  exact of_decide_eq_true (List.all_eq_true.mp hall c (List.contains_iff_mem.mp h))

/-- A character that stands for itself is read as its literal. -/
theorem readFrom_escapeChar (c : Char) (steps : Nat) (level : Level) (rest : List Char)
    (place : Place) :
    ∃ node stop, IsLiteral c node ∧
      readFrom (steps + 1) ⟨level, [], []⟩ ⟨escapeChar c ++ rest, place, false⟩ =
        readFrom steps ⟨level.push node, [], []⟩ ⟨rest, stop, false⟩ := by
  cases hmeta : isMeta c with
  | true =>
    obtain ⟨hdigit, hcode, hproperty, hperl⟩ := isMeta_escaped hmeta
    let stop := (place.after '\\').after c
    let node : Ast := .literal ⟨⟨place, stop⟩, c, false⟩
    have hletter : ∀ last : Cursor,
        readLetter place c last = .ok (.literal ⟨⟨place, last.place⟩, c, false⟩, last) := by
      intro last
      rw [readLetter, isEscapable, hmeta, Bool.true_or]
      rfl
    have hnode : readNext ⟨level, [], []⟩ '\\' ⟨'\\' :: c :: rest, place, false⟩ =
        .ok (⟨level.push node, [], []⟩, ⟨rest, stop, false⟩) := by
      simp only [readNext, readPrimitive, readEscape, Cursor.bump, hdigit, hcode, hperl, hletter,
        if_neg hproperty]
      rfl
    refine ⟨node, stop, ⟨_, rfl⟩, ?_⟩
    rw [escapeChar, if_pos hmeta, readFrom]
    simp only [Cursor.skipSpace, List.cons_append, List.nil_append, Bool.false_eq_true, if_false,
      hnode, ok_bind]
  | false =>
    -- every character that `readNext` treats apart is a sign
    let node : Ast := .literal ⟨⟨place, place.after c⟩, c, false⟩
    have hplain := hmeta
    simp only [isMeta, List.contains_eq_mem, List.mem_cons, decide_eq_false_iff_not, not_or]
      at hplain
    have hnode : readNext ⟨level, [], []⟩ c ⟨c :: rest, place, false⟩ =
        .ok (⟨level.push node, [], []⟩, ⟨rest, place.after c, false⟩) := by
      simp only [readNext, readPrimitive, hplain, if_false]
      rfl
    refine ⟨node, place.after c, ⟨_, rfl⟩, ?_⟩
    rw [escapeChar, hmeta, if_neg Bool.false_ne_true, readFrom]
    simp only [Cursor.skipSpace, List.cons_append, List.nil_append, Bool.false_eq_true, if_false,
      hnode, ok_bind]

/-- The pattern of a word is read as the literals of its characters. -/
theorem readFrom_escaped {word : List Char} {steps : Nat} (h : word.length < steps) (level : Level)
    (place : Place) :
    ∃ nodes stop, List.Forall₂ IsLiteral word nodes ∧
      readFrom steps ⟨level, [], []⟩ ⟨word.flatMap escapeChar, place, false⟩ =
        .ok (Level.finish { level with parts := nodes.reverse ++ level.parts } stop) := by
  induction word generalizing steps level place with
  | nil =>
    cases steps with
    | zero => cases h
    | succ steps => exact ⟨[], place, .nil, rfl⟩
  | cons c word ih =>
    cases steps with
    | zero => cases h
    | succ steps =>
      obtain ⟨node, next, hnode, hread⟩ :=
        readFrom_escapeChar c steps level (word.flatMap escapeChar) place
      obtain ⟨nodes, stop, hnodes, hrest⟩ :=
        ih (Nat.lt_of_succ_lt_succ h) (level.push node) next
      refine ⟨node :: nodes, stop, .cons hnode hnodes, ?_⟩
      rw [List.flatMap_cons, hread, hrest, List.reverse_cons, List.append_assoc,
        List.singleton_append]
      rfl

theorem length_le_length_escaped (word : List Char) :
    word.length ≤ (word.flatMap escapeChar).length := by
  induction word with
  | nil => exact Nat.le_refl 0
  | cons c word ih =>
    have hc : 0 < (escapeChar c).length := by
      rw [escapeChar]
      split
      · exact Nat.succ_pos _
      · exact Nat.succ_pos _
    rw [List.flatMap_cons, List.length_append, List.length_cons]
    omega

/-! ## Meaning -/

/-- An expression that takes the characters of a word, one set for each. -/
inductive Takes : Expression → List Char → Prop
  | empty : Takes .empty []
  | set (c : Char) : Takes (.set (CharSet.range c.toNat c.toNat)) [c]
  | sequence {a b : Expression} {first second : List Char} (ha : Takes a first)
      (hb : Takes b second) : Takes (.sequence a b) (first ++ second)

theorem Takes.size_le {e : Expression} {word : List Char} (h : Takes e word) :
    e.size ≤ 360 * word.length := by
  induction h with
  | empty => exact Nat.le_refl _
  | set c =>
    simp only [Expression.size, Expression.sizeOfSet, CharSet.range, Nat.le_refl, if_true,
      List.length_singleton]
    split
    · exact Nat.le_refl _
    · omega
  | sequence ha hb iha ihb =>
    rw [Expression.size, List.length_append, Nat.mul_add]
    exact Nat.add_le_add iha ihb

theorem meaning_of_isLiteral {c : Char} {node : Ast} (h : IsLiteral c node) :
    node.meaning Flags.initial =
      .ok (.set (CharSet.range c.toNat c.toNat), Flags.initial) := by
  obtain ⟨span, rfl⟩ := h
  rfl

theorem exists_meaning_sequence {word : List Char} {nodes : List Ast}
    (h : List.Forall₂ IsLiteral word nodes) :
    ∃ e, Ast.sequence Flags.initial nodes = .ok (e, Flags.initial) ∧ Takes e word := by
  induction h with
  | nil => exact ⟨.empty, rfl, .empty⟩
  | @cons c node word nodes hnode _ ih =>
    obtain ⟨e, hmeaning, htakes⟩ := ih
    refine ⟨_, ?_, .sequence (.set c) htakes⟩
    rw [Ast.sequence, meaning_of_isLiteral hnode]
    simp only [ok_bind, hmeaning]

theorem checkAllNesting_literals {word : List Char} {nodes : List Ast}
    (h : List.Forall₂ IsLiteral word nodes) (depth : Nat) :
    Ast.checkAllNesting depth nodes = .ok () := by
  induction h with
  | nil => rfl
  | cons hnode _ ih =>
    obtain ⟨span, rfl⟩ := hnode
    rw [Ast.checkAllNesting, Ast.checkNesting, ok_bind, ih]

/-- Several parts are a node of their own. -/
theorem finish_of_several (start stop : Place) {nodes : List Ast} (h : 2 ≤ nodes.length) :
    Level.finish ⟨start, nodes.reverse, none⟩ stop = .concat ⟨start, stop⟩ nodes := by
  have hparts : ∀ parts : List Ast, 2 ≤ parts.length →
      Level.finish ⟨start, parts, none⟩ stop = .concat ⟨start, stop⟩ parts.reverse := by
    intro parts hlength
    match parts with
    | [] => cases hlength
    | [_] => exact absurd hlength (Nat.lt_irrefl 1)
    | _ :: _ :: _ => rfl
  rw [hparts nodes.reverse (by rwa [List.length_reverse]), List.reverse_reverse]

theorem exists_meaning_finish {word : List Char} {nodes : List Ast}
    (h : List.Forall₂ IsLiteral word nodes) (start stop : Place) :
    ∃ tree e, Level.finish ⟨start, nodes.reverse, none⟩ stop = tree ∧
      tree.checkNesting 0 = .ok () ∧
      tree.meaning Flags.initial = .ok (e, Flags.initial) ∧ Takes e word := by
  cases h with
  | nil => exact ⟨_, .empty, rfl, rfl, rfl, .empty⟩
  | @cons c node _ _ hnode hnodes =>
    cases hnodes with
    | nil =>
      obtain ⟨span, rfl⟩ := hnode
      exact ⟨_, _, rfl, rfl, rfl, .set c⟩
    | cons hnext hrest =>
      have hall := List.Forall₂.cons hnode (.cons hnext hrest)
      obtain ⟨e, hmeaning, htakes⟩ := exists_meaning_sequence hall
      refine ⟨_, e, finish_of_several start stop (Nat.le_add_left 2 _), ?_, hmeaning, htakes⟩
      exact checkAllNesting_literals hall 1

/-- The pattern of a word means the word. -/
theorem exists_meaning_escape (word : String) :
    ∃ tree e, read (escape word) = .ok tree ∧
      tree.meaning Flags.initial = .ok (e, Flags.initial) ∧ Takes e word.toList := by
  obtain ⟨nodes, stop, hnodes, hread⟩ := readFrom_escaped
    (Nat.lt_succ_of_le (length_le_length_escaped word.toList)) (.empty .start) .start
  obtain ⟨tree, e, htree, hnesting, hmeaning, htakes⟩ :=
    exists_meaning_finish hnodes .start stop
  refine ⟨tree, e, ?_, hmeaning, htakes⟩
  rw [Level.empty, List.append_nil, htree] at hread
  rw [read, escape, String.toList_ofList, Cursor.ofText, Level.empty, hread, ok_bind, hnesting]
  rfl

/-! ## Compiling -/

theorem Spells.push {program : Program} {i : Nat} {word : List Char} (h : Spells program i word)
    (instruction : Instruction) : Spells (program.push instruction) i word := by
  have hget : ∀ {j : Nat} {x : Instruction}, program[j]? = some x →
      (program.push instruction)[j]? = some x := by
    intro j x hj
    have hlt := (Array.getElem?_eq_some_iff.mp hj).1
    rw [Array.getElem?_push_lt hlt]
    rw [Array.getElem?_eq_getElem hlt] at hj
    exact hj
  induction h with
  | nil h => exact .nil (hget h)
  | cons h _ ih => exact .cons (hget h) ih

/-- An expression that takes a word is compiled to instructions that spell it, before what is
spelled from the next instruction on. -/
theorem Takes.spells {e : Expression} {word : List Char} (h : Takes e word) {next : Nat}
    {program : Program} {later : List Char} (hnext : Spells program next later) :
    Spells (e.compile next program).2 (e.compile next program).1 (word ++ later) := by
  induction h generalizing next program later with
  | empty => exact hnext
  | set c => exact .cons Array.getElem?_push_size (hnext.push _)
  | sequence _ _ iha ihb =>
    -- the second part is compiled first, and leads to what comes after both
    rw [List.append_assoc]
    exact iha (ihb hnext)

theorem Takes.finds {e : Expression} {word : String} (h : Takes e word.toList) :
    Finds (ofExpression e).find word := by
  have haccept : Spells #[.accept] 0 [] := .nil rfl
  have hspells := h.spells haccept
  rw [List.append_nil] at hspells
  exact Spells.finds hspells

/-- A word that the limit on patterns allows is found by its pattern. -/
theorem exists_finds {word : String} (h : 360 * word.length ≤ greatestSize) :
    ∃ pattern, compile (escape word) = .ok pattern ∧ Finds pattern.find word := by
  obtain ⟨tree, e, hread, hmeaning, htakes⟩ := exists_meaning_escape word
  have hsize : ¬e.size > greatestSize := by
    have hle := htakes.size_le
    rw [String.length_toList] at hle
    omega
  refine ⟨ofExpression e, ?_, htakes.finds⟩
  rw [compile, hread, ok_bind, hmeaning, ok_bind]
  exact if_neg hsize

end SessionArchive.Pattern
