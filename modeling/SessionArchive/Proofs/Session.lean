import SessionArchive.Session

/-!
# The title of a session

The title of a session is its first prompt, a prompt being a message in which a user says something:
`IsTitle` says so of a list of messages and a text. A session that has the title of its messages
still has it after one more (`Titled.push`), and so after any number of them. `title_pushed` is what
follows for a session that starts without messages.
-/

set_option autoImplicit false

namespace SessionArchive

/-! ## Prompts -/

/-- What the texts among some parts say, in order. -/
def Part.texts : List Part → List String
  | [] => []
  | .text content :: rest => content :: texts rest
  | _ :: rest => texts rest

namespace Message

variable {message : Message}

/-- What the text parts of a message say, in order. -/
def texts (message : Message) : List String := Part.texts message.parts

/-- A message in which a user says something. -/
def IsPrompt (message : Message) : Prop :=
  message.role = .user ∧ "\n".intercalate message.texts ≠ ""

instance (message : Message) : Decidable message.IsPrompt := inferInstanceAs (Decidable (_ ∧ _))

theorem filterMap_partText? (parts : List Part) : parts.filterMap partText? = Part.texts parts := by
  induction parts with
  | nil => rfl
  | cons part rest ih =>
    cases part with
    | text content => exact congrArg (content :: ·) ih
    | reasoning content => exact ih
    | toolCall id name input => exact ih
    | toolResult callId output isError => exact ih
    | image mediaType data => exact ih

theorem plainText_eq (message : Message) :
    message.plainText = "\n".intercalate message.texts := by
  rw [plainText, filterMap_partText?, texts]

/-- There is no text without parts that are texts, and none in a single empty one. Two empty texts
have a line break between them. -/
theorem plainText_eq_empty_iff :
    message.plainText = "" ↔ message.texts = [] ∨ message.texts = [""] := by
  rw [plainText_eq]
  cases message.texts with
  | nil => simp
  | cons text rest =>
    cases rest with
    | nil => simp
    | cons next others => simp [String.intercalate_cons_cons]

theorem isPrompt_iff :
    message.IsPrompt ↔ message.role = .user ∧ message.texts ≠ [] ∧ message.texts ≠ [""] := by
  rw [IsPrompt, Ne, ← plainText_eq, plainText_eq_empty_iff, not_or]

end Message

/-! ## Titles -/

/-- The title that a list of messages gives: what is said in the first prompt, nothing if there is
none. -/
inductive IsTitle : List Message → String → Prop
  | untitled {messages : List Message} (hnone : ∀ m ∈ messages, ¬m.IsPrompt) : IsTitle messages ""
  | first {before : List Message} {message : Message} (hbefore : ∀ m ∈ before, ¬m.IsPrompt)
      (hprompt : message.IsPrompt) (after : List Message) :
      IsTitle (before ++ message :: after) ("\n".intercalate message.texts)

namespace Session

variable {session : Session} {message : Message}

/-- A session that has the title of its messages. -/
def Titled (session : Session) : Prop := IsTitle session.messages session.firstPrompt

theorem titled_new (id provider model workingDir : String) (now : Int64) :
    (new id provider model workingDir now).Titled :=
  .untitled fun _ h => absurd h List.not_mem_nil

theorem firstPrompt_push_of_ne (h : session.firstPrompt ≠ "") (message : Message) :
    (session.push message).firstPrompt = session.firstPrompt :=
  if_neg fun hempty => h hempty.1

theorem firstPrompt_push_of_not_prompt (h : ¬message.IsPrompt) :
    (session.push message).firstPrompt = session.firstPrompt := by
  by_cases hasked : session.firstPrompt = "" ∧ message.role = .user
  · -- a user who says nothing: an empty title is replaced by an empty text
    have hsilent : message.plainText = "" :=
      Decidable.byContradiction fun hsaid => h ⟨hasked.2, message.plainText_eq ▸ hsaid⟩
    calc (session.push message).firstPrompt
        = message.plainText := if_pos hasked
      _ = session.firstPrompt := by rw [hsilent, hasked.1]
  · exact if_neg hasked

theorem firstPrompt_push_of_prompt (hempty : session.firstPrompt = "") (h : message.IsPrompt) :
    (session.push message).firstPrompt = "\n".intercalate message.texts := by
  rw [← message.plainText_eq]
  exact if_pos ⟨hempty, h.1⟩

theorem Titled.push (h : session.Titled) (message : Message) : (session.push message).Titled := by
  rw [Titled] at h ⊢
  -- the cases of a title are about its list and its text, so both stand alone first
  generalize hmessages : session.messages = messages at h
  generalize htitle : session.firstPrompt = title at h
  have hadded : (session.push message).messages = messages ++ [message] := by
    rw [← hmessages]
    rfl
  rw [hadded]
  cases h with
  | untitled hnone =>
    by_cases hprompt : message.IsPrompt
    · -- no message before it is a prompt, so it is the first one
      rw [firstPrompt_push_of_prompt htitle hprompt]
      exact .first hnone hprompt []
    · rw [firstPrompt_push_of_not_prompt hprompt, htitle]
      refine .untitled fun m hm => ?_
      rcases List.mem_append.mp hm with hm | hm
      · exact hnone m hm
      · rw [List.mem_singleton.mp hm]
        exact hprompt
  | first hbefore hprompt after =>
    have hne : session.firstPrompt ≠ "" := by
      rw [htitle]
      exact hprompt.2
    rw [firstPrompt_push_of_ne hne, htitle, List.append_assoc, List.cons_append]
    exact .first hbefore hprompt _

/-! ## Any number of messages -/

theorem messages_pushed (session : Session) (messages : List Message) :
    (messages.foldl push session).messages = session.messages ++ messages := by
  induction messages generalizing session with
  | nil => exact (List.append_nil _).symm
  | cons message rest ih =>
    rw [List.foldl_cons, ih]
    exact List.append_assoc _ _ _

theorem Titled.pushed (h : session.Titled) (messages : List Message) :
    (messages.foldl Session.push session).Titled := by
  -- the messages still to come; what is kept is about the session that they are added to
  induction messages generalizing session with
  | nil => exact h
  | cons message rest ih => exact ih (h.push message)

theorem firstPrompt_pushed_of_ne (h : session.firstPrompt ≠ "") (messages : List Message) :
    (messages.foldl push session).firstPrompt = session.firstPrompt := by
  induction messages generalizing session with
  | nil => rfl
  | cons message rest ih =>
    have hpush := firstPrompt_push_of_ne h message
    rw [List.foldl_cons, ih (by rwa [hpush]), hpush]

/-- A session to which messages were added one after another holds these and no others, and its
title is what is said in the first prompt among them. A message of another role, or of a user
without text, does not change the title, and once there is one nothing does. -/
theorem title_pushed (id provider model workingDir : String) (now : Int64)
    (messages : List Message) :
    let session := messages.foldl push (new id provider model workingDir now)
    session.messages = messages ∧ IsTitle messages session.firstPrompt ∧
      (∀ message : Message,
        message.role ≠ .user ∨ message.texts = [] ∨ message.texts = [""] →
          (session.push message).firstPrompt = session.firstPrompt) ∧
      (session.firstPrompt ≠ "" → ∀ later : List Message,
        (later.foldl push session).firstPrompt = session.firstPrompt) := by
  intro session
  have hmessages : session.messages = messages := messages_pushed _ messages
  have htitled : session.Titled := (titled_new id provider model workingDir now).pushed messages
  rw [Titled, hmessages] at htitled
  refine ⟨hmessages, htitled, fun message hsilent => ?_, firstPrompt_pushed_of_ne⟩
  refine firstPrompt_push_of_not_prompt fun hprompt => ?_
  obtain ⟨hrole, hsome, hsaid⟩ := Message.isPrompt_iff.mp hprompt
  rcases hsilent with h | h | h
  · exact h hrole
  · exact hsome h
  · exact hsaid h

/-- Three messages that are no prompts, the system's, one without a text and one with an empty text,
and two that are. The first of these has two empty texts, which make a line break. -/
def quietStart : List Message :=
  [⟨.system, [.text "be terse"], 1⟩, ⟨.user, [.image "image/png" ""], 2⟩, ⟨.user, [.text ""], 3⟩,
    ⟨.user, [.text "", .reasoning "hm", .text ""], 4⟩, ⟨.user, [.text "fix the build"], 5⟩]

theorem title_pushed_quietStart :
    let session := quietStart.foldl push (new "s" "p" "m" "/w" 0)
    let later : List Message := [⟨.user, [.text "and the tests"], 6⟩]
    session.firstPrompt = "\n" ∧ session.firstPrompt ≠ "" ∧
      session.messages = quietStart ∧ IsTitle quietStart session.firstPrompt ∧
      Message.texts ⟨.user, [.text ""], 6⟩ = [""] ∧
      (session.push ⟨.user, [.text ""], 6⟩).firstPrompt = session.firstPrompt ∧
      (later.foldl push session).firstPrompt = session.firstPrompt := by
  intro session later
  have htitle : session.firstPrompt = "\n" := by decide
  have hne : session.firstPrompt ≠ "" := by decide
  obtain ⟨hmessages, hfirst, hsilent, hkept⟩ := title_pushed "s" "p" "m" "/w" 0 quietStart
  exact ⟨htitle, hne, hmessages, hfirst, rfl, hsilent _ (.inr (.inr rfl)), hkept hne later⟩

end Session

end SessionArchive
