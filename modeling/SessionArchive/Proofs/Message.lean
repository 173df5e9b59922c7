import SessionArchive.Message
import SessionArchive.Proofs.Json.Record

/-!
# Reading stored messages

A message is stored as its compact text. `Message.decode_encode_of_legible` says what that text is
read as: the same message, but for the numbers in the inputs of its tool calls, which become what
their text says. Without floating-point numbers it is the message itself
(`Message.decode_encode`). A message that nests deeper than `Json.greatestDepth` is refused
(`Message.decode_encode_too_deep`).
-/

set_option autoImplicit false

namespace SessionArchive

open Json (Reads Fails joined memberText skipBlanks skipBlanks_cons)

/-! ## Names -/

theorem reads_namedValue {α : Type} {names : List (String × α)} {name : String} {value : α}
    (depth : Nat) (h : names.lookup name = some value) :
    Reads (Json.namedValue names depth) (Json.quoted name) value := by
  intro rest hrest
  have hread : Json.readStringAs "variant identifier" depth (Json.quoted name ++ rest) =
      .ok (name, rest) := by
    rw [Json.readStringAs, Json.quoted, List.append_assoc, List.cons_append,
      skipBlanks_cons _ (by decide)]
    exact Json.stringAfterQuote_quoted name rest
  simp only [Json.namedValue, hread, ok_bind, h]

theorem reads_readName {α : Type} {names : List (String × α)} {name : String} {value : α}
    (depth : Nat) (h : names.lookup name = some value) :
    Reads (Json.readName names depth) (Json.quoted name) value := by
  intro rest hrest
  have hread := reads_namedValue depth h rest hrest
  rw [Json.quoted, List.append_assoc, List.cons_append] at hread ⊢
  rw [Json.readName, skipBlanks_cons _ (by decide)]
  exact hread

namespace Role

theorem ofName?_name (role : Role) : ofName? role.name = some role := by
  cases role <;> decide

theorem ofName?_eq_some_iff {name : String} {role : Role} :
    ofName? name = some role ↔ name = role.name := by
  constructor
  · intro h
    obtain ⟨before, after, hnames, _⟩ := List.lookup_eq_some_iff.mp h
    have hall : ∀ entry ∈ names, entry.1 = entry.2.name := by decide
    exact hall (name, role) (hnames ▸ List.mem_append_right _ List.mem_cons_self)
  · rintro rfl
    exact role.ofName?_name

theorem reads_name (role : Role) (depth : Nat) :
    Reads (Role.read depth) (Json.quoted role.name) role :=
  reads_readName depth (ofName?_name role)

end Role

/-! ## Inputs of tool calls -/

namespace ToolInput

theorem ext {a b : ToolInput} (h : a.value = b.value) : a = b := by
  cases a
  cases b
  cases h
  rfl

/-- What the text of an input is read as. -/
def reread (input : ToolInput) : ToolInput := (ofJson? input.value.reread).getD input

theorem ofJson?_reread {input : ToolInput} (h : input.value.Legible) :
    ofJson? input.value.reread = some input.reread := by
  rw [reread, ofJson?, dif_pos (Json.fits_reread _ h)]
  rfl

theorem fits_value (input : ToolInput) : input.value.fits = true :=
  Json.fits_of_isCanonical _ input.canonical

theorem reread_of_integral {input : ToolInput} (h : input.value.Integral) :
    input.reread = input := by
  apply ext
  rw [reread, Json.reread_of_integral _ h input.fits_value, ofJson?, dif_pos input.fits_value]
  exact Json.canonicalize_of_isCanonical _ input.canonical

end ToolInput

/-! ## Parts -/

namespace Part

/-- The kind of a part. -/
def kind : Part → Kind
  | .text _ => .text
  | .reasoning _ => .reasoning
  | .toolCall _ _ _ => .toolCall
  | .toolResult _ _ _ => .toolResult
  | .image _ _ => .image

/-- The tag of a kind. -/
def Kind.tag : Kind → String
  | .text => "text"
  | .reasoning => "reasoning"
  | .toolCall => "tool_call"
  | .toolResult => "tool_result"
  | .image => "image"

/-- The members of a part beside its tag. -/
def body (part : Part) : List (String × Json) := part.members.tail

/-- The texts of the members of a part, the tag first. -/
def memberTexts (part : Part) : List (List Char) :=
  memberText (tagKey, .string part.kind.tag) :: part.body.map memberText

/-- What the text of a part is read as. -/
def reread : Part → Part
  | .toolCall id name input => .toolCall id name input.reread
  | part => part

theorem members_eq (part : Part) :
    part.members = (tagKey, .string part.kind.tag) :: part.body := by
  cases part <;> rfl

theorem kinds_lookup (kind : Kind) : kinds.lookup kind.tag = some kind := by
  cases kind <;> decide

theorem key_ne_tagKey (part : Part) : ∀ m ∈ part.body, m.1 ≠ tagKey := by
  cases part <;> simp [body, members, tagKey]

/-- Once the tag is met, the other members are read as those of any object. -/
theorem keepMembers_of_members (depth steps : Nat) (first : Bool) (slots : Json.Slots tagFields)
    {cs rest : List Char} {others : List (String × Json)}
    (h : Json.members (Json.anyValue depth) steps first cs = .ok (others, rest))
    (hkeys : ∀ m ∈ others, m.1 ≠ tagKey) :
    Json.Slots.keepMembers tagFields depth steps first slots cs = .ok ((slots, others), rest) := by
  induction steps generalizing first cs others with
  | zero => cases h
  | succ n ih =>
    obtain ⟨⟨key?, after⟩, hnext, h⟩ := bind_eq_ok_iff.mp h
    rw [Json.Slots.keepMembers, hnext]
    cases key? with
    | none =>
      cases h
      rfl
    | some key =>
      -- the members were read, so neither the colon, the value nor a later member failed
      obtain ⟨⟨_, value⟩, hcolon, h⟩ := bind_eq_ok_iff.mp h
      obtain ⟨⟨v, left⟩, hvalue, h⟩ := bind_eq_ok_iff.mp h
      obtain ⟨⟨later, left⟩, hlater, h⟩ := bind_eq_ok_iff.mp h
      cases h
      have hrest := ih false hlater fun m hm => hkeys m (List.mem_cons_of_mem _ hm)
      have hkey : key ≠ tagKey := hkeys (key, v) List.mem_cons_self
      have hknown : Json.Slots.readKnown key depth tagFields slots = none :=
        Json.Slots.putKnown_eq_none_iff.mpr (by simpa using hkey)
      simp only [ok_bind, hknown, hcolon, hvalue, hrest]

/-- Once the tag is met, the other members fail where those of any object would. -/
theorem keepMembers_of_members_error (depth steps : Nat) (first : Bool) (kind : Kind)
    {cs : List Char}
    (h : ∃ fault, Json.members (Json.anyValue depth) steps first cs = .error fault) :
    ∃ fault, Json.Slots.keepMembers tagFields depth steps first (some kind, ()) cs =
      .error fault := by
  induction steps generalizing first cs with
  | zero => exact ⟨_, rfl⟩
  | succ n ih =>
    rcases h with ⟨fault, h⟩
    rw [Json.members] at h
    rw [Json.Slots.keepMembers]
    cases hnext : Json.nextKey first cs with
    | error fault => exact ⟨fault, rfl⟩
    | ok found =>
      rcases found with ⟨key, after⟩
      rw [hnext] at h
      simp only [ok_bind] at h ⊢
      cases key with
      | none => cases h
      | some key =>
        simp only at h ⊢
        by_cases hkey : tagKey = key
        · -- a second tag is refused, whatever follows
          subst hkey
          exact ⟨_, rfl⟩
        · have hknown : Json.Slots.readKnown key depth tagFields (some kind, ()) = none :=
            Json.Slots.putKnown_eq_none_iff.mpr (by simpa using Ne.symm hkey)
          rw [hknown]
          cases hcolon : Json.colon after with
          | error fault => exact ⟨fault, rfl⟩
          | ok found =>
            rw [hcolon] at h
            simp only [ok_bind] at h ⊢
            cases hvalue : Json.anyValue depth found.2 with
            | error fault => exact ⟨fault, rfl⟩
            | ok value =>
              rw [hvalue] at h
              simp only [ok_bind] at h ⊢
              cases hlater : Json.members (Json.anyValue depth) n false value.2 with
              | error fault =>
                obtain ⟨fault, hfault⟩ := ih false ⟨fault, hlater⟩
                exact ⟨fault, by rw [hfault, error_bind]⟩
              | ok later => rw [hlater] at h; cases h

/-- The tag comes first in a printed part, and is read before the other members. -/
theorem keepMembers_tag (depth steps : Nat) (kind : Kind) (texts : List (List Char))
    {close : List Char} (hclose : Json.Stops close) :
    Json.Slots.keepMembers tagFields depth (steps + 1) true (Json.Slots.empty tagFields)
      (joined true (memberText (tagKey, .string kind.tag) :: texts) ++ close) =
      Json.Slots.keepMembers tagFields depth steps false (some kind, ())
        (joined false texts ++ close) := by
  have hbegins := Json.keyText_quoted tagKey (':' :: Json.quoted kind.tag)
  have htext : memberText (tagKey, .string kind.tag) =
      Json.quoted tagKey ++ ':' :: Json.quoted kind.tag := rfl
  have hfills : Json.Fills tagKey depth (':' :: Json.quoted kind.tag) tagFields
      (Json.Slots.empty tagFields) (some kind, ()) :=
    .here rfl (skipBlanks_cons _ (by decide)) (reads_namedValue depth (kinds_lookup kind))
  obtain ⟨scan, hscan, hreads⟩ := hfills.readKnown
  rw [Json.Slots.keepMembers, htext, Json.nextKey_joined true _ close hbegins]
  simp only [ok_bind, hscan, hreads _ (Json.stops_joined _ hclose)]

/-- The members beside the tag make up the part, with the numbers of its input read back. -/
theorem pickBody_reread {part : Part} (h : part.toJson.Legible) :
    pickBody part.kind (.object (part.body.map fun m => (m.1, m.2.reread))) =
      .ok part.reread := by
  cases part with
  | text content => rfl
  | reasoning content => rfl
  | toolCall id name input =>
    have hinput : input.value.Legible := h.member ("input", input.value) (by simp [members])
    -- only an input holds numbers, so that the other parts are read as they are
    have hpick : pickInput input.value.reread = .ok input.reread := by
      rw [pickInput, ToolInput.ofJson?_reread hinput]
    show pickBody .toolCall (.object [("id", .string id), ("name", .string name),
      ("input", input.value.reread)]) = _
    simp [pickBody, Json.pickRecord, Json.pickFields, Json.Slots.pickMembers,
      Json.Slots.pickKnown, Json.Slots.putKnown, Json.Slots.empty, Json.Slots.finish, hpick,
      Json.pickString, Except.bind, reread]
  | toolResult callId output isError => rfl
  | image mediaType data => rfl

theorem compact_eq (part : Part) :
    part.toJson.compact = '{' :: (joined true part.memberTexts ++ ['}']) := by
  rw [toJson, Json.compact_object, members_eq, List.map_cons]
  rfl

theorem legible_body {part : Part} (h : part.toJson.Legible) :
    ∀ m ∈ part.body, m.2.Legible := by
  intro m hm
  exact h.member m (by rw [members_eq]; exact List.mem_cons_of_mem _ hm)

/-- The members of an object behind the tag take a step each, so the steps suffice. -/
theorem length_body_lt (part : Part) (rest : List Char) :
    part.body.length < (joined true part.memberTexts ++ '}' :: rest).length := by
  have hne : ∀ t ∈ part.memberTexts, t ≠ [] := by
    rw [memberTexts, List.forall_mem_cons, List.forall_mem_map]
    exact ⟨(Json.memberText_quoted _ _).ne_nil, fun m _ =>
      (Json.memberText_quoted m.1 m.2.compact).ne_nil⟩
  have hsteps := Json.length_lt_steps part.memberTexts hne ('}' :: rest)
  rw [memberTexts, List.length_cons, List.length_map] at hsteps
  exact Nat.lt_of_succ_lt_succ hsteps

theorem readParts_object (depth : Nat) (part : Part) (rest : List Char) :
    readParts (depth + 1) (part.toJson.compact ++ rest) =
      Json.enclosed Json.closeObject (readTagged depth)
        (joined true part.memberTexts ++ '}' :: rest) := by
  rw [compact_eq, List.cons_append, List.append_assoc, readParts, skipBlanks_cons _ (by decide)]
  rfl

/-- The text of a part is read as the part, with the numbers of its input read back. -/
theorem reads_part {part : Part} {depth : Nat} (hdepth : part.toJson.depth ≤ depth)
    (h : part.toJson.Legible) : Reads (Part.read depth) part.toJson.compact part.reread := by
  obtain ⟨n, rfl⟩ : ∃ n, depth = n + 1 := ⟨depth - 1, by rw [toJson, Json.depth] at hdepth; omega⟩
  have hvalues : ∀ m ∈ part.body, m.2.depth ≤ n := fun m hm =>
    Json.depthMembers_le.1 (Nat.le_of_succ_le_succ hdepth) m
      (by rw [members_eq]; exact List.mem_cons_of_mem _ hm)
  intro rest _
  have hclose := Json.closes_self rest (Or.inr (rfl : '}' = '}'))
  have hpieces : ∀ p ∈ part.body.map fun m => (memberText m, m.1, m.2.reread),
      ∃ text, Json.MemberText p.1 p.2.1 text ∧ Reads (Json.anyValue n) text p.2.2 := by
    intro p hp
    obtain ⟨m, hm, rfl⟩ := List.mem_map.1 hp
    exact ⟨m.2.compact, Json.memberText_quoted m.1 m.2.compact,
      Json.reads_compact m.2 n (hvalues m hm) (legible_body h m hm)⟩
  -- the tag takes one step, which leaves one for each other member and one for the end
  have hothers := Json.members_joined (Json.anyValue n) false _
    (joined true part.memberTexts ++ '}' :: rest).length
    (by rw [List.length_map]; exact length_body_lt part rest) hpieces hclose
  simp only [List.map_map, Function.comp_def] at hothers
  have hread := keepMembers_of_members n _ false (some part.kind, ()) hothers (by
    intro m hm
    obtain ⟨o, ho, rfl⟩ := List.mem_map.1 hm
    exact key_ne_tagKey part o ho)
  have htagged : readTagged n (joined true part.memberTexts ++ '}' :: rest) =
      .ok ((part.kind, .object (part.body.map fun m => (m.1, m.2.reread))), '}' :: rest) := by
    rw [readTagged, memberTexts, keepMembers_tag n _ part.kind _ (hclose.stops (Or.inr rfl)),
      ← memberTexts, hread]
    rfl
  rw [Part.read, readParts_object, Json.enclosed_of_ok htagged (Json.closeObject_bracket rest)]
  simp only [ok_bind, pickBody_reread h]

/-- The text of a part that nests deeper than is allowed is refused. -/
theorem fails_part {part : Part} {depth : Nat} (hdepth : depth < part.toJson.depth)
    (h : part.toJson.Legible) : Fails (Part.read depth) part.toJson.compact := by
  intro rest _
  cases depth with
  | zero =>
    rw [Part.read, compact_eq, List.cons_append, readParts, skipBlanks_cons _ (by decide)]
    exact ⟨_, rfl⟩
  | succ n =>
    -- the tag is a string, so what nests too deep is another member
    obtain ⟨w, hw, hdeep⟩ := Json.exists_of_lt_depthMembers (Nat.lt_of_succ_lt_succ hdepth)
    have hbody : w ∈ part.body := by
      rw [members_eq] at hw
      rcases List.mem_cons.1 hw with rfl | hw
      · exact absurd hdeep (Nat.not_lt_zero n)
      · exact hw
    have hstop := (Json.closes_self rest (Or.inr (rfl : '}' = '}'))).stops (Or.inr rfl)
    have hpieces : ∀ p ∈ part.body.map fun m => (memberText m, m.1, m.2.compact),
        Json.MemberText p.1 p.2.1 p.2.2 ∧
          ((∃ a, Reads (Json.anyValue n) p.2.2 a) ∨ Fails (Json.anyValue n) p.2.2) := by
      intro p hp
      obtain ⟨m, hm, rfl⟩ := List.mem_map.1 hp
      refine ⟨Json.memberText_quoted m.1 m.2.compact, ?_⟩
      rcases Nat.lt_or_ge n m.2.depth with hlt | hle
      · exact Or.inr (Json.fails_compact m.2 n hlt (legible_body h m hm))
      · exact Or.inl ⟨_, Json.reads_compact m.2 n hle (legible_body h m hm)⟩
    have hothers := Json.members_joined_error (Json.anyValue n) false _
      (joined true part.memberTexts ++ '}' :: rest).length hstop hpieces
      ⟨(memberText w, w.1, w.2.compact), List.mem_map_of_mem hbody,
        Json.fails_compact w.2 n hdeep (legible_body h w hbody)⟩
    simp only [List.map_map, Function.comp_def] at hothers
    obtain ⟨fault, hread⟩ := keepMembers_of_members_error n _ false part.kind hothers
    have htagged : ∃ fault, readTagged n (joined true part.memberTexts ++ '}' :: rest) =
        .error fault :=
      ⟨fault, by rw [readTagged, memberTexts, keepMembers_tag n _ part.kind _ hstop,
        ← memberTexts, hread, error_bind]⟩
    obtain ⟨fault, hfault⟩ := Json.enclosed_of_error Json.closeObject htagged
    exact ⟨fault, by rw [Part.read, readParts_object, hfault, error_bind]⟩

theorem reread_of_integral {part : Part} (h : part.toJson.Integral) : part.reread = part := by
  cases part with
  | toolCall id name input =>
    have hinput : input.value.Integral := fun n hn =>
      h n (Json.mem_numbersOfMembers.2 ⟨("input", input.value), by simp [members], hn⟩)
    rw [reread, ToolInput.reread_of_integral hinput]
  | text content => rfl
  | reasoning content => rfl
  | toolResult callId output isError => rfl
  | image mediaType data => rfl

end Part

/-! ## Messages -/

namespace Message

/-- What the text of a message is read as: the numbers in the inputs of its tool calls become what
their text says. -/
def reread (message : Message) : Message :=
  { message with parts := message.parts.map Part.reread }

theorem legible_part {message : Message} (h : message.toJson.Legible) :
    ∀ part ∈ message.parts, part.toJson.Legible := by
  intro part hpart
  have hparts : (Json.array (message.parts.map Part.toJson)).Legible :=
    h.member ("parts", .array (message.parts.map Part.toJson)) (by simp)
  exact hparts.item part.toJson (List.mem_map_of_mem hpart)

/-- A message nests as deep as its parts, inside an array and an object. -/
theorem depth_le_iff (message : Message) (depth : Nat) :
    message.toJson.depth ≤ depth + 2 ↔ ∀ part ∈ message.parts, part.toJson.depth ≤ depth := by
  have hdepth : message.toJson.depth =
      Json.depthItems (message.parts.map Part.toJson) + 2 := by
    simp [toJson, Json.depth, Json.depthMembers, Role.toJson, Json.int]
  rw [hdepth, Nat.add_le_add_iff_right, Json.depthItems_le, List.forall_mem_map]

/-- The text of the list of parts is read as the parts, each with its numbers read back. -/
theorem reads_parts {message : Message} {depth : Nat}
    (hdepth : ∀ part ∈ message.parts, part.toJson.depth ≤ depth) (h : message.toJson.Legible) :
    Reads (Json.readList Part.read (depth + 1))
      (Json.array (message.parts.map Part.toJson)).compact message.reread.parts := by
  have hread := Json.reads_list Part.read depth
    (message.parts.map fun part => (part.toJson.compact, part.reread)) (by
      intro p hp
      obtain ⟨part, hpart, rfl⟩ := List.mem_map.1 hp
      have hlegible := legible_part h part hpart
      refine ⟨Json.beginsItem_compact hlegible, ?_⟩
      show Reads _ (skipBlanks part.toJson.compact) part.reread
      rw [Json.skipBlanks_compact hlegible]
      exact Part.reads_part (hdepth part hpart) hlegible)
  rw [Json.compact_array]
  simp only [List.map_map, Function.comp_def] at hread ⊢
  exact hread

/-- The text of the list of parts is refused where one of them nests too deep. -/
theorem fails_parts {message : Message} {depth : Nat}
    (hdeep : ∃ part ∈ message.parts, depth < part.toJson.depth) (h : message.toJson.Legible) :
    Fails (Json.readList Part.read (depth + 1))
      (Json.array (message.parts.map Part.toJson)).compact := by
  have hskip : ∀ part ∈ message.parts, skipBlanks part.toJson.compact = part.toJson.compact :=
    fun part hpart => Json.skipBlanks_compact (legible_part h part hpart)
  rcases hdeep with ⟨deep, hmem, hdeep⟩
  rw [Json.compact_array, List.map_map]
  apply Json.fails_list
  · intro t ht
    obtain ⟨part, hpart, rfl⟩ := List.mem_map.1 ht
    have hlegible := legible_part h part hpart
    refine ⟨Json.beginsItem_compact hlegible, ?_⟩
    rw [Function.comp_apply, hskip part hpart]
    -- a part in front of the deep one is read, or is refused before that one is reached
    rcases Nat.lt_or_ge depth part.toJson.depth with hlt | hle
    · exact Or.inr (Part.fails_part hlt hlegible)
    · exact Or.inl ⟨_, Part.reads_part hle hlegible⟩
  · refine ⟨_, List.mem_map_of_mem hmem, ?_⟩
    rw [Function.comp_apply, hskip deep hmem]
    exact Part.fails_part hdeep (legible_part h deep hmem)

/-- The first member of a message fills the slot of the role. -/
theorem filling_role (message : Message) (depth : Nat) :
    Json.Filling fields depth (Json.Slots.empty fields)
      [memberText ("role", message.role.toJson)] (some message.role, none, none, ()) := by
  have hcolon := skipBlanks_cons (c := ':') (Json.quoted message.role.name) (by decide)
  exact .cons (Json.keyText_memberText _)
    (Json.Fills.here rfl hcolon (message.role.reads_name depth)).reads (.nil _)

theorem fills_parts {message : Message} {depth : Nat}
    (hdepth : ∀ part ∈ message.parts, part.toJson.depth ≤ depth) (h : message.toJson.Legible) :
    Json.Fills "parts" (depth + 1)
      (':' :: (Json.array (message.parts.map Part.toJson)).compact) fields
      (some message.role, none, none, ())
      (some message.role, some message.reread.parts, none, ()) :=
  .there (by decide)
    (.here rfl (skipBlanks_cons _ (by decide)) (reads_parts hdepth h))

theorem fills_createdAt (message : Message) (parts : List Part) (depth : Nat) :
    Json.Fills "created_at" depth (':' :: Text.signedDecimal message.createdAt.toInt) fields
      (some message.role, some parts, none, ())
      (some message.role, some parts, some message.createdAt, ()) :=
  .there (by decide) (.there (by decide)
    (.here rfl (skipBlanks_cons _ (by decide)) (Json.reads_int64 depth message.createdAt)))

/-- The text of a message that nests no deeper than is allowed is read as the message, with the
numbers in its inputs read back. -/
theorem reads_message {message : Message} {depth : Nat}
    (hdepth : message.toJson.depth ≤ depth + 2) (h : message.toJson.Legible) :
    Reads (Message.read (depth + 2)) message.toJson.compact message.reread := by
  have hparts := (depth_le_iff message depth).1 hdepth
  have hfilling : Json.Filling fields (depth + 1) (Json.Slots.empty fields)
      ([("role", message.role.toJson), ("parts", .array (message.parts.map Part.toJson)),
        ("created_at", .int message.createdAt.toInt)].map memberText)
      (some message.role, some message.reread.parts, some message.createdAt, ()) := by
    refine .cons (Json.keyText_memberText ("role", message.role.toJson))
      (Json.Fills.here rfl (skipBlanks_cons _ (by decide))
        (message.role.reads_name (depth + 1))).reads ?_
    refine .cons (Json.keyText_memberText _) (fills_parts hparts h).reads ?_
    exact .cons (Json.keyText_memberText _)
      (fills_createdAt message message.reread.parts (depth + 1)).reads (.nil _)
  rw [toJson, Json.compact_object]
  exact Json.reads_record hfilling rfl rfl

/-- The text of a message that nests deeper than is allowed is refused. -/
theorem fails_message {message : Message} {depth : Nat}
    (hdepth : depth + 2 < message.toJson.depth) (h : message.toJson.Legible) :
    Fails (Message.read (depth + 2)) message.toJson.compact := by
  have hdeep : ∃ part ∈ message.parts, depth < part.toJson.depth := by
    have hle := mt (depth_le_iff message depth).2 (Nat.not_le.2 hdepth)
    simp only [Classical.not_forall, Nat.not_le] at hle
    rcases hle with ⟨part, hpart, hlt⟩
    exact ⟨part, hpart, hlt⟩
  -- the role in front is read, and the list of parts is where the reading stops
  have hrefuses : Json.Refuses "parts" (depth + 1)
      (':' :: (Json.array (message.parts.map Part.toJson)).compact) fields
      (some message.role, none, none, ()) :=
    .there (by decide) (.here rfl (skipBlanks_cons _ (by decide)) (fails_parts hdeep h))
  have hbegins := Json.keyText_memberText ("parts", .array (message.parts.map Part.toJson))
  rw [toJson, Json.compact_object]
  show Fails _ ('{' :: (joined true ([memberText ("role", message.role.toJson)] ++
    memberText ("parts", .array (message.parts.map Part.toJson)) ::
      [memberText ("created_at", .int message.createdAt.toInt)]) ++ ['}']))
  exact Json.fails_record _ (filling_role message (depth + 1)) hbegins hrefuses.fails

theorem fits_toJson (message : Message) : message.toJson.fits = true := by
  have hlow := Int64.le_toInt message.createdAt
  have hhigh := Int64.toInt_lt message.createdAt
  -- only the input of a tool holds numbers of its own
  have hparts : ∀ part ∈ message.parts, part.toJson.fits = true := by
    intro part _
    cases part with
    | toolCall id name input =>
      simp [Part.toJson, Part.members, Json.fits, Json.membersFit, input.fits_value]
    | text content => rfl
    | reasoning content => rfl
    | toolResult callId output isError => rfl
    | image mediaType data => rfl
  rw [toJson, Json.fits, Json.membersFit_iff]
  simp only [List.forall_mem_cons, List.not_mem_nil, false_implies, implies_true, and_true]
  refine ⟨rfl, ?_, ?_⟩
  · rw [Json.fits, Json.allFit_iff, List.forall_mem_map]
    exact hparts
  · simp only [Json.int, Json.fits, Json.Numeral.fits, Bool.and_eq_true, decide_eq_true_eq]
    omega

theorem reread_of_integral {message : Message} (h : message.toJson.Integral) :
    message.reread = message := by
  have hparts : message.parts.map Part.reread = message.parts := by
    refine (List.map_congr_left fun part hpart => ?_).trans (List.map_id message.parts)
    refine Part.reread_of_integral fun n hn => h n ?_
    refine Json.mem_numbersOfMembers.2
      ⟨("parts", .array (message.parts.map Part.toJson)), by simp, ?_⟩
    exact Json.mem_numbersOfItems.2 ⟨part.toJson, List.mem_map_of_mem hpart, hn⟩
  rw [reread, hparts]

theorem decode_encode_of_legible {message : Message}
    (hdepth : message.toJson.depth ≤ Json.greatestDepth) (h : message.toJson.Legible) :
    decode message.encode = .ok message.reread := by
  -- the object of the message and the array of its parts are two of the containers
  have hfits : message.toJson.depth ≤ 125 + 2 := hdepth
  have hread := reads_message hfits h [] trivial
  rw [List.append_nil] at hread
  rw [decode, encode, Json.toCompact, String.toList_ofList, Json.read, Json.greatestDepth, hread]
  rfl

theorem decode_encode_too_deep {message : Message}
    (hdepth : Json.greatestDepth < message.toJson.depth) (h : message.toJson.Legible) :
    ∃ fault, decode message.encode = .error fault := by
  have hdeeper : 125 + 2 < message.toJson.depth := hdepth
  obtain ⟨fault, hfault⟩ := fails_message hdeeper h [] trivial
  rw [List.append_nil] at hfault
  refine ⟨fault, ?_⟩
  rw [decode, encode, Json.toCompact, String.toList_ofList, Json.read, Json.greatestDepth, hfault]
  rfl

/-- A message without floating-point numbers that nests no deeper than is allowed is what its text
decodes to. -/
theorem decode_encode (message : Message)
    (hdepth : message.toJson.depth ≤ Json.greatestDepth) (hint : message.toJson.Integral) :
    decode message.encode = .ok message := by
  rw [decode_encode_of_legible hdepth (Json.legible_of_integral hint message.fits_toJson),
    reread_of_integral hint]

/-- A tool call whose input nests as deep as can be read back inside a message. -/
def deepest : Message :=
  ⟨.assistant, [.text "\x00\"\\\n", .reasoning "é",
    .toolCall "c" "n" ⟨Nat.repeat (fun v => .array [v]) 124 (.int (-0x8000000000000000)),
      by decide +kernel⟩,
    .toolResult "c" "" true, .image "image/png" ""], -1⟩

/-- The nesting that `decode_encode` allows is reached. -/
theorem decode_encode_deepest :
    deepest.toJson.depth ≤ Json.greatestDepth ∧ deepest.toJson.Integral ∧
      decode deepest.encode = .ok deepest :=
  ⟨by decide +kernel, by decide +kernel,
    decode_encode deepest (by decide +kernel) (by decide +kernel)⟩

end Message

end SessionArchive
