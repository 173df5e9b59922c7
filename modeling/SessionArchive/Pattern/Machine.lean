import SessionArchive.Pattern.Expression

/-!
# Matching

An expression is compiled to a list of instructions. All ways to match are followed at once, in
order of preference, one character after the other; a way that reaches an instruction which a
preferred one has reached before at the same place is given up. So the time is bounded by the
product of the text's length and the number of instructions, and the match that is found is the
leftmost one, and of those the most preferred.
-/

set_option autoImplicit false

namespace SessionArchive.Pattern

open Unicode (CharSet)

/-! ## Programs -/

/-- One instruction; the numbers are those of the instructions that follow, in order of
preference. -/
inductive Instruction where
  | accept
  | take (set : CharSet) (next : Nat)
  | check (look : Look) (next : Nat)
  | fork (preferred other : Nat)

/-- The instructions of a program, by number. -/
abbrev Program := Array Instruction

/-- A fork that prefers to go on when greedy. -/
def branch (greedy : Bool) (on past : Nat) : Instruction :=
  if greedy then .fork on past else .fork past on

/-- Compiles a number of copies one before the other; the second number is where they lead. -/
def copies (compile : Nat → Program → Nat × Program) : Nat → Nat → Program → Nat × Program
  | 0, next, program => (next, program)
  | n + 1, next, program =>
    let (start, program) := compile next program
    copies compile n start program

/-- Compiles a number of optional copies, each one inside the one before it. -/
def optionalCopies (compile : Nat → Program → Nat × Program) (greedy : Bool) (past : Nat) :
    Nat → Nat → Program → Nat × Program
  | 0, next, program => (next, program)
  | n + 1, next, program =>
    let (start, program) := compile next program
    optionalCopies compile greedy past n program.size (program.push (branch greedy start past))

/-- Compiles a loop that is passed at least once. -/
def loop (compile : Nat → Program → Nat × Program) (greedy : Bool) (next : Nat)
    (program : Program) : Nat × Program :=
  -- the number of the fork is taken first, and the fork put there once its body is compiled
  let again := program.size
  let (start, program) := compile again (program.push .accept)
  (start, program.setIfInBounds again (branch greedy start next))

/-- Appends the instructions of an expression that lead to the instruction `next`; yields the number
of the first one. -/
def Expression.compile : Expression → Nat → Program → Nat × Program
  | .empty, next, program => (next, program)
  | .set s, next, program => (program.size, program.push (.take s next))
  | .look l, next, program => (program.size, program.push (.check l next))
  | .sequence a b, next, program =>
    let (middle, program) := b.compile next program
    a.compile middle program
  | .choice a b, next, program =>
    let (second, program) := b.compile next program
    let (first, program) := a.compile next program
    (program.size, program.push (.fork first second))
  | .repetition least most greedy body, next, program =>
    match most with
    | none =>
      if least = 0 then
        -- a body that may take nothing is passed once before the loop decides, lest it never end
        if body.nullable then
          let (start, program) := loop body.compile greedy next program
          (program.size, program.push (branch greedy start next))
        else
          let again := program.size
          let (start, program) := body.compile again (program.push .accept)
          (again, program.setIfInBounds again (branch greedy start next))
      else
        let (start, program) := loop body.compile greedy next program
        copies body.compile (least - 1) start program
    | some most =>
      let (start, program) :=
        optionalCopies body.compile greedy next (most - least) next program
      copies body.compile least start program

/-! ## Running -/

/-- A way to match: the instruction that it waits at, and where the match started, in bytes. -/
structure Thread where
  at_ : Nat
  start : Nat

/-- The threads at a place, latest first, and for each instruction the place at which it was last
reached, counted from one. -/
structure Threads where
  waiting : List Thread
  reached : Array Nat

/-- Follows forks and conditions from a list of instructions, the first one preferred, to the
instructions that take a character or accept. The first argument bounds the number of steps. -/
def follow (program : Program) (place : Nat) (before after : Option Char) (start : Nat) :
    Nat → List Nat → Threads → Threads
  | 0, _, threads => threads
  | _ + 1, [], threads => threads
  | steps + 1, i :: rest, threads =>
    -- a preferred way has been here at this place
    if threads.reached[i]? = some place then
      follow program place before after start steps rest threads
    else
      let threads := { threads with reached := threads.reached.setIfInBounds i place }
      match program[i]? with
      | none => follow program place before after start steps rest threads
      | some (.fork preferred other) =>
        follow program place before after start steps (preferred :: other :: rest) threads
      | some (.check look next) =>
        if look.holds before after then
          follow program place before after start steps (next :: rest) threads
        else follow program place before after start steps rest threads
      | some _ =>
        follow program place before after start steps rest
          { threads with waiting := ⟨i, start⟩ :: threads.waiting }

/-- The bound for `follow`: every instruction is entered once, and leads to at most two. -/
def followSteps (program : Program) : Nat := 2 * program.size + 2

/-- The threads that come before the first one that accepts, and where the match of that one
started. -/
def untilAccept (program : Program) : List Thread → List Thread × Option Nat
  | [] => ([], none)
  | t :: rest =>
    match program[t.at_]? with
    -- the ways behind it are less preferred, and given up
    | some .accept => ([], some t.start)
    | _ =>
      let (before, found) := untilAccept program rest
      (t :: before, found)

/-- The threads after a character, in order of preference. -/
def advance (program : Program) (place : Nat) (c : Char) (after : Option Char) :
    List Thread → Threads → Threads
  | [], threads => threads
  | t :: rest, threads =>
    match program[t.at_]? with
    | some (.take set next) =>
      let threads :=
        if set.contains c then
          follow program place (some c) after t.start (followSteps program) [next] threads
        else threads
      advance program place c after rest threads
    | _ => advance program place c after rest threads

/-- Runs a program over the rest of a text. `place` counts the places from one, `offset` is the
place in bytes, `entry` the first instruction, and `found` the best match so far, as bytes. -/
def run (program : Program) (entry : Nat) (before : Option Char) (place offset : Nat)
    (found : Option (Nat × Nat)) (threads : Threads) : List Char → Option (Nat × Nat)
  | [] =>
    let threads :=
      if found.isNone then
        follow program place before none offset (followSteps program) [entry] threads
      else threads
    match (untilAccept program threads.waiting.reverse).2 with
    | some start => some (start, offset)
    | none => found
  | c :: rest =>
    -- a match that is found starts before any that could begin here
    let threads :=
      if found.isNone then
        follow program place before (some c) offset (followSteps program) [entry] threads
      else threads
    let (waiting, accepted) := untilAccept program threads.waiting.reverse
    let found := match accepted with
      | some start => some (start, offset)
      | none => found
    if waiting.isEmpty && found.isSome then found
    else
      run program entry (some c) (place + 1) (offset + c.utf8Size) found
        (advance program (place + 1) c rest.head? waiting ⟨[], threads.reached⟩) rest

end SessionArchive.Pattern
