import SessionArchive.Proofs.Json.Arrangement
import SessionArchive.Proofs.Message

/-!
# Messages in any arrangement

`Message.IsWritten` says which texts write a message: an object with the members of the message in
any order, whose parts are objects with their members in any order. The tag of a part may stand
anywhere among them, what has its default may be left out, and under unknown names there may be
other members that hold plain values. Such a text is read as the message (`Message.takes_read`): the
members beside the tag of a part are kept until all are read, and make up the part then.
-/

set_option autoImplicit false

namespace SessionArchive

open Json (Entry Field IsArrangement IsArrayOf IsText IsTextOf Takes Values joined)

namespace Json

/-- The text of a null, a truth value, an integer of 64 bits or a string. -/
inductive IsPlain (t : List Char) : Prop
  | null (h : IsTextOf .null t)
  | bool {b : Bool} (h : IsTextOf (.bool b) t)
  | int {n : Int64} (h : IsTextOf (.int n.toInt) t)
  | string {s : String} (h : IsTextOf (.string s) t)

theorem fits_int64 (n : Int64) : (Json.int n.toInt).fits = true := by
  have hlow := Int64.le_toInt n
  have hhigh := Int64.toInt_lt n
  simp only [Json.int, Json.fits, Numeral.fits, Bool.and_eq_true, decide_eq_true_eq]
  omega

/-- A plain value is a value of its own, which holds no others. -/
theorem IsPlain.exists_value {t : List Char} (h : IsPlain t) :
    ∃ v : Json, IsTextOf v t ∧ v.depth = 0 ∧ v.isCanonical = true := by
  cases h with
  | null h => exact ⟨_, h, rfl, rfl⟩
  | bool h => exact ⟨_, h, rfl, rfl⟩
  | @int n h => exact ⟨_, h, rfl, fits_int64 n⟩
  | string h => exact ⟨_, h, rfl, rfl⟩

theorem IsPlain.isText {t : List Char} (h : IsPlain t) : IsText t := by
  obtain ⟨v, hv, -⟩ := h.exists_value
  exact hv.isText

theorem IsPlain.exists_takes {t : List Char} (h : IsPlain t) (depth : Nat) :
    ∃ w, Takes (anyValue depth) t w := by
  obtain ⟨v, hv, hdepth, hcanonical⟩ := h.exists_value
  obtain ⟨w, -, -, htakes⟩ := takes_anyValue hv depth (by omega) hcanonical
  exact ⟨w, htakes⟩

/-- A value has another one as its canonical form. -/
structure Means (w v : Json) : Prop where
  fits : w.fits = true
  canonical : w.canonicalize = v

theorem Means.pickString {w : Json} {s : String} (h : w.Means (.string s)) :
    Json.pickString w = .ok s := by
  have hw := h.canonical
  cases w <;> simp_all [canonicalize, Json.pickString]

theorem Means.pickBool {w : Json} {b : Bool} (h : w.Means (.bool b)) :
    Json.pickBool w = .ok b := by
  have hw := h.canonical
  cases w <;> simp_all [canonicalize, Json.pickBool]

end Json

/-! ## Parts -/

namespace Part

/-- The members of a part. One that tells of no error may be left out. -/
def entries (part : Part) : List (Entry (List Char)) :=
  part.members.map fun m => ⟨m.1, IsTextOf m.2, m = ("is_error", .bool false)⟩

/-- The texts that write a part. -/
def IsWritten (part : Part) (t : List Char) : Prop := IsArrangement part.entries Json.IsPlain t

theorem IsWritten.isText {part : Part} {t : List Char} (h : part.IsWritten t) : IsText t := by
  refine Json.IsArrangement.isText h ?_ fun t => Json.IsPlain.isText
  rw [entries, List.forall_mem_map]
  exact fun m _ t => IsTextOf.isText

theorem nodup_members (part : Part) : (part.members.map Prod.fst).Nodup := by
  cases part <;> simp [members]

/-- Any text of a part's JSON writes the part. -/
theorem isWritten_toJson {part : Part} {t : List Char} (h : IsTextOf part.toJson t) :
    part.IsWritten t := by
  refine (h.isArrangement part.nodup_members).imp ?_ fun _ => False.elim
  rw [Json.entriesOf, entries, List.forall₂_map_left_iff, List.forall₂_map_right_iff,
    List.forall₂_same]
  exact fun m _ => ⟨rfl, fun _ => id, False.elim⟩

/-- The keys beside the tag are those that are not known before the kind is. -/
theorem not_contains_tagFields (key : String) :
    (!(tagFields.map Field.name).contains key) = (key != tagKey) := by
  by_cases hkey : key = tagKey
  · simp [hkey]
  · simp [hkey]

/-! ### The members beside the tag -/

/-- The members beside the tag, as values that were read before. -/
def bodyEntries (part : Part) : List (Entry Json) :=
  part.body.map fun m => ⟨m.1, fun w => w.Means m.2, m = ("is_error", .bool false)⟩

theorem pickInput_of_means {w : Json} {input : ToolInput} (h : w.Means input.value) :
    pickInput w = .ok input := by
  have hinput : ToolInput.ofJson? w = some input := by
    rw [ToolInput.ofJson?, dif_pos h.fits]
    exact congrArg some (ToolInput.ext h.canonical)
  rw [pickInput, hinput]

/-- The members beside the tag make up the part, in whatever order they were read. -/
theorem pickBody_of_isMet {part : Part} {others : List (String × Json)}
    (h : ∀ e ∈ part.bodyEntries, e.IsMet others) :
    pickBody part.kind (.object others) = .ok part := by
  have hstring : ∀ {name s : String} {m : String × Json}, m = (name, .string s) →
      Field.Answers Field.Picks (.required name Json.pickString) s
        ⟨m.1, fun w => w.Means m.2, m = ("is_error", .bool false)⟩ := by
    rintro name s _ rfl
    exact ⟨rfl, fun _ => Json.Means.pickString, nofun⟩
  cases part with
  | text content =>
    have hanswer : Values.Answer Field.Picks textFields (content, ())
        (Part.text content).bodyEntries := ⟨hstring rfl, trivial⟩
    exact congrArg (Except.map _) (Json.pickFields_arrangement (by decide) hanswer h)
  | reasoning content =>
    have hanswer : Values.Answer Field.Picks textFields (content, ())
        (Part.reasoning content).bodyEntries := ⟨hstring rfl, trivial⟩
    exact congrArg (Except.map _) (Json.pickFields_arrangement (by decide) hanswer h)
  | toolCall id name input =>
    have hanswer : Values.Answer Field.Picks toolCallFields (id, name, input, ())
        (Part.toolCall id name input).bodyEntries := by
      refine ⟨hstring rfl, hstring rfl, ⟨rfl, fun _ => pickInput_of_means, fun h => ?_⟩, trivial⟩
      exact absurd (congrArg Prod.fst h) (show ¬ "input" = "is_error" by decide)
    exact congrArg (Except.map _) (Json.pickFields_arrangement (by decide) hanswer h)
  | toolResult callId output isError =>
    have hanswer : Values.Answer Field.Picks toolResultFields (callId, output, isError, ())
        (Part.toolResult callId output isError).bodyEntries := by
      refine ⟨hstring rfl, hstring rfl, ⟨rfl, fun _ => Json.Means.pickBool, fun h => ?_⟩, trivial⟩
      cases h
      rfl
    exact congrArg (Except.map _) (Json.pickFields_arrangement (by decide) hanswer h)
  | image mediaType data =>
    have hanswer : Values.Answer Field.Picks imageFields (mediaType, data, ())
        (Part.image mediaType data).bodyEntries := ⟨hstring rfl, hstring rfl, trivial⟩
    exact congrArg (Except.map _) (Json.pickFields_arrangement (by decide) hanswer h)

theorem isCanonical_body (part : Part) : ∀ m ∈ part.body, m.2.isCanonical = true := by
  cases part with
  | toolCall id name input => simp [body, members, Json.isCanonical, input.canonical]
  | _ => simp [body, members, Json.isCanonical]

/-- What the members beside the tag hold is read as what they mean. -/
theorem exists_takes_body {part : Part} {depth : Nat} (hdepth : part.toJson.depth ≤ depth + 1)
    {m : String × Json} (hm : m ∈ part.body) {t : List Char} (h : IsTextOf m.2 t) :
    ∃ w : Json, w.Means m.2 ∧ Takes (Json.anyValue depth) t w := by
  have hmember : m ∈ part.members := by
    rw [members_eq]
    exact List.mem_cons_of_mem _ hm
  have hvalue := Json.depthMembers_le.mp (Nat.le_of_succ_le_succ hdepth) m hmember
  obtain ⟨w, hfits, hcanonical, htakes⟩ :=
    Json.takes_anyValue h depth hvalue (part.isCanonical_body m hm)
  exact ⟨w, ⟨hfits, hcanonical⟩, htakes⟩

theorem passesBlanks_read (depth : Nat) : Json.PassesBlanks (Part.read depth) := by
  intro cs
  simp only [Part.read, readParts, Json.skipBlanks_skipBlanks]

/-- A part is read from every text that writes it. -/
theorem takes_read {part : Part} {depth : Nat} (hdepth : part.toJson.depth ≤ depth + 1)
    {t : List Char} (h : part.IsWritten t) : Takes (Part.read (depth + 1)) t part := by
  obtain @⟨members, hobject, harranges⟩ := h
  refine hobject.takes (passesBlanks_read (depth + 1)) ?_
  intro texts close rest htexts hclose
  have hentries : part.entries = ⟨tagKey, IsTextOf (.string part.kind.tag), False⟩ ::
      part.body.map fun m => ⟨m.1, IsTextOf m.2, m = ("is_error", .bool false)⟩ := by
    cases part <;> simp [entries, Part.members, body, kind, Kind.tag, tagKey]
  have hknown := harranges.known
  rw [hentries] at hknown
  obtain ⟨htag, hbody⟩ := List.forall_mem_cons.mp hknown
  rw [List.forall_mem_map] at hbody
  -- a member beside the tag is one of the part, or a further one that is of no use to it
  have hothers : ∀ m ∈ members, m.1 ≠ tagKey → ∃ w, Takes (Json.anyValue depth) m.2 w := by
    intro m hm hne
    by_cases hkey : m.1 ∈ part.body.map Prod.fst
    · obtain ⟨o, ho, hname⟩ := List.mem_map.mp hkey
      obtain ⟨w, -, htakes⟩ :=
        exists_takes_body hdepth ho ((hbody o ho).holds_of_mem hm hname.symm)
      exact ⟨w, htakes⟩
    · have hfurther : m.1 ∉ part.entries.map Entry.key := by
        rw [hentries, List.map_cons, List.map_map, List.mem_cons, not_or]
        exact ⟨hne, hkey⟩
      exact (harranges.further m hm hfurther).exists_takes depth
  have hawait : Json.Slots.Await (Field.TakesAt depth) members tagFields (part.kind, ())
      (none, ()) := by
    refine ⟨?_, trivial⟩
    cases htag with
    | named once holds =>
      exact .due once (Json.takes_namedValue holds (kinds_lookup part.kind) depth)
    | silent _ h => exact h.elim
  have hsteps := Json.length_lt_steps texts (Json.memberTexts_ne_nil htexts) close
  obtain ⟨slots, others, hread, hend, hbecome⟩ := hawait.keepMembers (by decide) htexts
    (fun m hm hne => hothers m hm (by simpa using hne)) true hsteps hclose
  simp only [not_contains_tagFields] at hbecome
  have hpick : pickBody part.kind (.object others) = .ok part := by
    refine pickBody_of_isMet ?_
    rw [bodyEntries, List.forall_mem_map]
    intro m hm
    have hne : (m.1 != tagKey) = true := by simpa using key_ne_tagKey part m hm
    refine ((hbody m hm).filter (p := fun key => key != tagKey) hne).become hbecome rfl
      (fun t w htext htakes => ?_) id
    -- the value that was kept is the one that the text of the member is read as
    obtain ⟨w', hmeans, htakes'⟩ := exists_takes_body hdepth hm htext
    rwa [htakes.unique htakes']
  have htagged : readTagged depth (joined true texts ++ close) =
      .ok ((part.kind, .object others), '}' :: rest) := by
    rw [readTagged]
    simp only [Json.Slots.empty, hread, ok_bind, Json.Slots.finishAt, hend.finish]
  rw [Part.read, readParts, Json.skipBlanks_cons _ (by decide)]
  simp only [Json.enter, List.drop_succ_cons, List.drop_zero,
    Json.enclosed_of_ok htagged (Json.closeObject_bracket rest), ok_bind, hpick]

/-- The text of an array of parts. -/
inductive AreWritten (parts : List Part) (t : List Char) : Prop
  | mk {texts : List (List Char)} (hparts : List.Forall₂ IsWritten parts texts)
      (h : IsArrayOf texts t) : AreWritten parts t

theorem takes_readList {parts : List Part} {depth : Nat}
    (hdepth : ∀ part ∈ parts, part.toJson.depth ≤ depth + 1) {t : List Char}
    (h : AreWritten parts t) : Takes (Json.readList Part.read (depth + 2)) t parts := by
  obtain ⟨hparts, harray⟩ := h
  refine Json.takes_readList (passesBlanks_read (depth + 1)) ?_ hparts harray
  exact fun part hpart text htext => ⟨htext.isText, takes_read (hdepth part hpart) htext⟩

end Part

/-! ## Messages -/

namespace Message

/-- The members of a message. The time may be left out if it is zero. -/
def entries (message : Message) : List (Entry (List Char)) :=
  [⟨"role", IsTextOf message.role.toJson, False⟩,
   ⟨"parts", Part.AreWritten message.parts, False⟩,
   ⟨"created_at", IsTextOf (.int message.createdAt.toInt), message.createdAt = 0⟩]

/-- The texts that write a message. -/
def IsWritten (message : Message) (t : List Char) : Prop :=
  IsArrangement message.entries Json.IsPlain t

/-- A message is read from every text that writes it. -/
theorem takes_read {message : Message} {depth : Nat} (hdepth : message.toJson.depth ≤ depth + 3)
    {t : List Char} (h : message.IsWritten t) : Takes (Message.read (depth + 3)) t message := by
  have hparts := (depth_le_iff message (depth + 1)).mp hdepth
  have hanswer : Values.Answer (Field.TakesAt (depth + 2)) fields
      (message.role, message.parts, message.createdAt, ()) message.entries :=
    ⟨⟨rfl, fun _ h => Json.takes_readName h message.role.ofName?_name (depth + 2), False.elim⟩,
     ⟨rfl, fun _ h => Part.takes_readList hparts h, False.elim⟩,
     ⟨rfl, fun _ h => Json.takes_readInt64 h (depth + 2), fun h => congrArg some h.symm⟩, trivial⟩
  exact Json.takes_arrangement (by decide) (fun _ => Json.IsPlain.isText) hanswer h

/-- Any text of a message's JSON writes the message. -/
theorem isWritten_toJson {message : Message} {t : List Char} (h : IsTextOf message.toJson t) :
    message.IsWritten t := by
  have hparts : ∀ t, IsTextOf (.array (message.parts.map Part.toJson)) t →
      Part.AreWritten message.parts t := by
    intro t ht
    obtain ⟨texts, htexts, harray⟩ := ht.items
    rw [List.forall₂_map_left_iff] at htexts
    exact .mk (htexts.imp fun part text => Part.isWritten_toJson) harray
  refine (h.isArrangement (by simp)).imp ?_ fun _ => False.elim
  exact .cons ⟨rfl, fun _ => id, False.elim⟩ <| .cons ⟨rfl, hparts, False.elim⟩ <|
    .cons ⟨rfl, fun _ => id, False.elim⟩ .nil

theorem decode_of_isWritten {message : Message} (hdepth : message.toJson.depth ≤ Json.greatestDepth)
    {text : String} (h : message.IsWritten text.toList) : decode text = .ok message :=
  Json.read_of_takes (takes_read hdepth h)

end Message

end SessionArchive
