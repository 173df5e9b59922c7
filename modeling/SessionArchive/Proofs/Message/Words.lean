import SessionArchive.Proofs.Json.Compact
import SessionArchive.Message

/-!
# Words in the text of a message

The printer copies a character that needs no escape, so a word of such characters that stands in a
string stands in the text of the string as it is, and in the text of every value around it. So the
words of a message's texts, of its reasoning and of its tools' outputs stand in its encoding:
`Message.infix_encode`.
-/

set_option autoImplicit false

namespace SessionArchive

namespace Json

/-! ## Strings -/

/-- A character that stands in the text of a string as it is. -/
def IsUnescaped (c : Char) : Prop := c ≠ '"' ∧ c ≠ '\\' ∧ 0x20 ≤ c.toNat

instance (c : Char) : Decidable (IsUnescaped c) := inferInstanceAs (Decidable (_ ∧ _))

theorem IsUnescaped.escaped_eq {c : Char} (h : IsUnescaped c) : escaped c = [c] := by
  have hprinted := printed_escaped c
  generalize escaped c = text at hprinted
  cases hprinted with
  | letter hletter =>
    have hletters : ∀ p ∈ printedLetters, ¬IsUnescaped p.2 := by decide
    exact absurd h (hletters _ hletter)
  | code hcode => exact absurd h.2.2 (Nat.not_le.mpr hcode)
  | itself _ _ _ => rfl

theorem flatMap_escaped_of_unescaped {word : List Char} (h : ∀ c ∈ word, IsUnescaped c) :
    word.flatMap escaped = word := by
  induction word with
  | nil => rfl
  | cons c word ih =>
    obtain ⟨hc, hword⟩ := List.forall_mem_cons.mp h
    rw [List.flatMap_cons, hc.escaped_eq, ih hword, List.singleton_append]

/-- A word of such characters stands in the text of each string that it stands in. -/
theorem infix_quoted {word : List Char} {s : String} (hword : word <:+: s.toList)
    (hunescaped : ∀ c ∈ word, IsUnescaped c) : word <:+: quoted s := by
  obtain ⟨before, after, hs⟩ := hword
  refine ⟨'"' :: before.flatMap escaped, after.flatMap escaped ++ ['"'], ?_⟩
  rw [quoted, ← hs, List.flatMap_append, List.flatMap_append,
    flatMap_escaped_of_unescaped hunescaped]
  simp only [List.cons_append, List.append_assoc]

/-! ## Containers -/

theorem infix_joined {text : List Char} {texts : List (List Char)} (h : text ∈ texts)
    (first : Bool) : text <:+: joined first texts := by
  induction texts generalizing first with
  | nil => cases h
  | cons t texts ih =>
    -- a comma before the first text changes nothing about what follows
    have hjoined : joined first (t :: texts) =
        (if first then [] else [',']) ++ t ++ joined false texts := by
      cases first with
      | true => rfl
      | false => rfl
    rw [hjoined]
    rcases List.mem_cons.mp h with rfl | h
    · exact List.infix_append _ _ _
    · exact (ih h false).trans (List.suffix_append _ _).isInfix

theorem infix_item {items : List Json} {v : Json} (h : v ∈ items) :
    v.compact <:+: (array items).compact := by
  rw [compact_array]
  exact (infix_joined (List.mem_map_of_mem h) true).trans ⟨['['], [']'], rfl⟩

theorem infix_member {members : List (String × Json)} {key : String} {v : Json}
    (h : (key, v) ∈ members) : v.compact <:+: (object members).compact := by
  have hvalue : v.compact <:+: memberText (key, v) :=
    ⟨quoted key ++ [':'], [], by simp only [memberText, List.append_assoc, List.append_nil,
      List.singleton_append]⟩
  rw [compact_object]
  exact (hvalue.trans (infix_joined (List.mem_map_of_mem h) true)).trans ⟨['\x7b'], ['\x7d'], rfl⟩

end Json

/-! ## Messages -/

/-- What a part says: its text, its reasoning or the output of its tool. -/
def Part.content? : Part → Option String
  | .text content => some content
  | .reasoning content => some content
  | .toolCall _ _ _ => none
  | .toolResult _ output _ => some output
  | .image _ _ => none

theorem Part.exists_member {part : Part} {text : String} (h : part.content? = some text) :
    ∃ key, (key, Json.string text) ∈ part.members := by
  cases part with
  | text content =>
    cases h
    exact ⟨"text", .tail _ (.head _)⟩
  | reasoning content =>
    cases h
    exact ⟨"text", .tail _ (.head _)⟩
  | toolCall id name input => cases h
  | toolResult callId output isError =>
    cases h
    exact ⟨"output", .tail _ (.tail _ (.head _))⟩
  | image mediaType data => cases h

/-- A word that needs no escape stands in the encoding of each message in whose texts it stands. -/
theorem Message.infix_encode {message : Message} {part : Part} {text : String} {word : List Char}
    (hpart : part ∈ message.parts) (htext : part.content? = some text)
    (hword : word <:+: text.toList) (hunescaped : ∀ c ∈ word, Json.IsUnescaped c) :
    word <:+: message.encode.toList := by
  obtain ⟨key, hmember⟩ := Part.exists_member htext
  have hstring : word <:+: (Json.string text).compact := Json.infix_quoted hword hunescaped
  have hinPart : (Json.string text).compact <:+: part.toJson.compact := Json.infix_member hmember
  have hinParts : part.toJson.compact <:+: (Json.array (message.parts.map Part.toJson)).compact :=
    Json.infix_item (List.mem_map_of_mem hpart)
  have hinMessage : (Json.array (message.parts.map Part.toJson)).compact <:+:
      message.toJson.compact := Json.infix_member (.tail _ (.head _))
  rw [Message.encode, Json.toCompact, String.toList_ofList]
  exact ((hstring.trans hinPart).trans hinParts).trans hinMessage

end SessionArchive
