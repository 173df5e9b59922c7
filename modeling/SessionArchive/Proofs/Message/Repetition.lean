import SessionArchive.Proofs.Json.Repetition
import SessionArchive.Proofs.Message.Arrangement
import SessionArchive.Proofs.Related

/-!
# Messages that repeat a member

A member that is known to a message, or to the kind of one of its parts, may stand only once
(`Message.Repeats`). Where the other members stand and what they hold does not matter: whatever is
read of them is read up to its end, so that the second member of that key is met, or reading has
failed before. `Message.decode_arrangement` says of every text of a message what becomes of it.
-/

set_option autoImplicit false

namespace SessionArchive

open Json (Become Field FoundIn HoldsKey IsArrayOf IsObjectOf IsText IsTextOf KeepsTo Slots joined
  withKey)

namespace Json

/-- There are as many members with a key as the key stands among their keys. -/
theorem length_withKey {β : Type} (key : String) (members : List (String × β)) :
    (withKey key members).length = (members.map Prod.fst).count key := by
  rw [withKey, ← List.countP_eq_length_filter, List.count, List.countP_map]
  rfl

/-- Taking members out by another key leaves a key as often as it stood. -/
theorem duplicate_filter {β : Type} {key out : String} (hne : key ≠ out)
    {members : List (String × β)} (h : List.Duplicate key (members.map Prod.fst)) :
    List.Duplicate key ((members.filter fun m => m.1 != out).map Prod.fst) := by
  rw [List.duplicate_iff_two_le_count, ← length_withKey] at h ⊢
  rwa [withKey_filter (p := fun k => k != out) (by simpa using hne)]

/-- A string that is read for what it stands for is a string as any value. -/
theorem anyValue_of_readStringAs {expected s : String} {depth : Nat} {cs left : List Char}
    (h : readStringAs expected depth cs = .ok (s, left)) (inner : Nat) :
    anyValue inner cs = .ok (.string s, left) := by
  rw [← passesBlanks_anyValue inner cs]
  rw [readStringAs] at h
  split at h
  · cases h
  · next heq =>
    rw [heq, anyValue_scalar inner _ (by decide) (by decide) (by decide), scalar, h, map_ok]
  · exact (gives_refuse _ _ (fun _ => False) _ h).elim

end Json

namespace Part

/-! ## What is kept of a part until its tag is known -/

theorem eq_tag_of_lookup {name : String} {kind : Kind} (h : kinds.lookup name = some kind) :
    name = kind.tag := by
  obtain ⟨before, after, hkinds, -⟩ := List.lookup_eq_some_iff.mp h
  have hall : ∀ entry ∈ kinds, entry.1 = entry.2.tag := by decide
  exact hall (name, kind) (hkinds ▸ List.mem_append_right _ List.mem_cons_self)

theorem anyValue_of_readKind {kind : Kind} {depth : Nat} {cs left : List Char}
    (h : readKind depth cs = .ok (kind, left)) :
    Json.anyValue depth cs = .ok (.string kind.tag, left) := by
  obtain ⟨⟨name, rest⟩, hname, h⟩ := bind_eq_ok_iff.mp h
  dsimp only at h
  split at h
  · next hlookup =>
    obtain ⟨rfl, rfl⟩ := Prod.mk.inj (Except.ok.inj h)
    rw [← eq_tag_of_lookup hlookup]
    exact Json.anyValue_of_readStringAs hname depth
  · cases h

/-- The members of a part are those of any object: one of them is the tag, unless it was met
before, and the others are kept. -/
theorem members_of_keepMembers {depth steps : Nat} {first : Bool} {tag last : Option Kind}
    {cs left : List Char} {others : List (String × Json)}
    (h : Slots.keepMembers tagFields depth steps first (tag, ()) cs =
      .ok (((last, ()), others), left)) :
    ∃ all, Json.members (Json.anyValue depth) steps first cs = .ok (all, left) ∧
      others = all.filter (fun m => m.1 != tagKey) ∧
      (withKey tagKey all = [] ∧ last = tag ∨
        tag = none ∧ ∃ kind, withKey tagKey all = [(tagKey, .string kind.tag)] ∧
          last = some kind) := by
  induction steps generalizing first tag cs others with
  | zero => cases h
  | succ n ih =>
    obtain ⟨⟨key?, after⟩, hnext, h⟩ := bind_eq_ok_iff.mp h
    rw [Json.members, hnext]
    cases key? with
    | none =>
      cases h
      exact ⟨[], rfl, rfl, .inl ⟨rfl, rfl⟩⟩
    | some key =>
      dsimp only at h
      simp only [ok_bind]
      by_cases hkey : tagKey = key
      · subst hkey
        cases tag with
        | some kind => cases h
        | none =>
          obtain ⟨⟨slots, rest⟩, hslots, h⟩ := bind_eq_ok_iff.mp h
          obtain ⟨⟨kind, rest⟩, hkind, hfilled⟩ := map_eq_ok_iff.mp hslots
          cases hfilled
          obtain ⟨⟨_, valueText⟩, hcolon, hkind⟩ := bind_eq_ok_iff.mp hkind
          obtain ⟨all, hmembers, hothers, htag⟩ := ih h
          -- behind a tag no other one is read
          obtain ⟨hnone, rfl⟩ := htag.resolve_right fun hsome =>
            absurd hsome.1 (Option.some_ne_none _)
          refine ⟨(tagKey, .string kind.tag) :: all, ?_, ?_, .inr ⟨rfl, kind, ?_, rfl⟩⟩
          · simp only [hcolon, ok_bind, anyValue_of_readKind hkind, hmembers]
          · rw [hothers, List.filter_cons_of_neg (by simp)]
          · have hfirst := Json.withKey_cons_of_eq (m := (tagKey, .string kind.tag)) rfl all
            exact hfirst.trans (congrArg _ hnone)
      · have hknown : Slots.readKnown key depth tagFields (tag, ()) = none :=
          Slots.putKnown_eq_none_iff.mpr (by simpa using Ne.symm hkey)
        rw [hknown] at h
        obtain ⟨⟨_, valueText⟩, hcolon, h⟩ := bind_eq_ok_iff.mp h
        obtain ⟨⟨value, rest⟩, hvalue, h⟩ := bind_eq_ok_iff.mp h
        obtain ⟨⟨⟨⟨later, ⟨⟩⟩, kept⟩, rest⟩, hrest, h⟩ := bind_eq_ok_iff.mp h
        cases h
        obtain ⟨all, hmembers, hothers, htag⟩ := ih hrest
        refine ⟨(key, value) :: all, ?_, ?_, ?_⟩
        · simp only [hcolon, ok_bind, hvalue, hmembers]
        · rw [hothers, List.filter_cons_of_pos (by simpa using Ne.symm hkey)]
        · rwa [Json.withKey_cons_of_ne (Ne.symm hkey)]

/-- What is kept of the text of an object: its tag and its other members, each read from its
text. -/
theorem gives_readTagged {ι : Type} {key : ι → String → Prop} {valueText : ι → List Char}
    {written : List ι} {texts : List (List Char)}
    (htexts : List.Forall₂ (fun i text => HoldsKey text (key i) (valueText i)) written texts)
    (hvalues : ∀ i ∈ written, IsText (valueText i)) {close rest : List Char}
    (hclose : Json.Closes '}' close rest) (depth : Nat) :
    Gives (readTagged depth (joined true texts ++ close)) fun found =>
      (∃ all, withKey tagKey all = [(tagKey, .string found.1.1.tag)] ∧
        found.1.2 = .object (all.filter fun m => m.1 != tagKey) ∧
        List.Forall₂ (fun i (m : String × Json) => key i m.1 ∧
          FoundIn (Json.anyValue depth) (valueText i) m.2) written all) ∧
      found.2 = '}' :: rest := by
  have hall : ∀ i ∈ written, KeepsTo (Json.anyValue depth) (valueText i) := fun i hi =>
    Json.keepsTo_anyValue (hvalues i hi) depth
  rintro ⟨⟨kind, body⟩, left⟩ h
  obtain ⟨⟨⟨⟨tag, ⟨⟩⟩, others⟩, rest'⟩, hread, h⟩ := bind_eq_ok_iff.mp h
  obtain ⟨all, hmembers, hothers, htag⟩ := members_of_keepMembers hread
  obtain ⟨hfound, hleft⟩ := Json.gives_members htexts hall _ true hclose _ hmembers
  cases tag with
  | none => cases h
  | some tag =>
    cases h
    -- the tag that is kept comes from one member, as a second one would have been refused
    obtain ⟨-, kind, honce, hkind⟩ := htag.resolve_left fun hnone =>
      absurd hnone.2 (Option.some_ne_none _)
    cases hkind
    exact ⟨⟨all, honce, by rw [hothers], hfound⟩, hleft⟩

theorem passesBlanks_readKind (depth : Nat) : Json.PassesBlanks (readKind depth) := by
  intro cs
  simp only [readKind, Json.namedValue]
  rw [Json.passesBlanks_readStringAs]

/-- Behind the tag of a part that is written as an array come any items. -/
theorem gives_readTagFirst {texts : List (List Char)} (htexts : ∀ t ∈ texts, IsText t)
    {close rest : List Char} (hclose : Json.Closes ']' close rest) (depth : Nat) :
    Gives (readTagFirst depth (joined true texts ++ close)) fun found =>
      found.2 = ']' :: rest := by
  cases texts with
  | nil =>
    show Gives (readTagFirst depth close) _
    simp only [readTagFirst, Json.nextItem_close true hclose, ok_bind]
    exact Gives.error _ _
  | cons t ts =>
    obtain ⟨htext, hmore⟩ := List.forall_mem_cons.mp htexts
    have hall : ∀ u ∈ ts, IsText u ∧ KeepsTo (Json.anyValue depth) u := fun u hu =>
      ⟨hmore u hu, Json.keepsTo_anyValue (hmore u hu) depth⟩
    have hstops := Json.stops_joined ts (hclose.stops (.inl rfl))
    simp only [readTagFirst, Json.nextItem_joined true ts close htext.beginsItem, ok_bind, if_true,
      (passesBlanks_readKind depth).item htext.beginsItem]
    refine (Json.keepsTo_namedValue htext kinds depth _ hstops).bind ?_
    rintro ⟨kind, left⟩ hleft
    have hitems := Json.gives_items_congr hleft.skip
      (Json.gives_items (Json.passesBlanks_anyValue depth) hall (left.length + 1) false hclose)
    exact hitems.bind fun _ hfound => Gives.ok hfound.2

/-- A part is read to its end, whatever is wrong with what stands in it. -/
theorem keepsTo_read {t : List Char} (h : IsText t) (depth : Nat) :
    KeepsTo (Part.read depth) t := by
  refine h.keepsTo (passesBlanks_read depth) fun core hcore rest hrest => ?_
  -- what was written ends where its array or its object does, before the part is made of it
  have hparts : Gives (readParts depth (core ++ rest)) fun found =>
      Json.Resumes found.2 rest := by
    obtain ⟨c, cs, rfl, hblank, -⟩ := Json.begins_of_isCore hcore
    rw [List.cons_append, readParts, Json.skipBlanks_cons _ hblank]
    split
    · exact Gives.error _ _
    · next heq =>
      obtain ⟨rfl, rfl⟩ := List.cons.inj heq
      obtain ⟨texts, blanks, htexts, hend, rfl⟩ := Json.items_of_isCore hcore
      have hclose := hend.closes (.inl (rfl : ']' = ']')) rest
      have hentered := Json.gives_enter_left (Json.closeArray_bracket rest)
        (gives_readTagFirst htexts hclose) '[' depth
      simp only [List.append_assoc, List.cons_append, List.nil_append]
      exact hentered.mono fun _ hleft => .of_eq hleft hrest
    · next heq =>
      obtain ⟨rfl, rfl⟩ := List.cons.inj heq
      obtain ⟨members, blanks, hmembers, hend, rfl⟩ := Json.members_of_isCore hcore
      have hclose := hend.closes (.inr (rfl : '}' = '}')) rest
      have htexts := Json.holdsKeys fun m hm => (hmembers m hm).1
      have hvalues : ∀ m ∈ members, IsText m.2 := fun m hm => (hmembers m hm).2
      have hinner := fun d => (gives_readTagged htexts hvalues hclose d).mono
        fun _ hfound => hfound.2
      have hentered := Json.gives_enter_left (Json.closeObject_bracket rest) hinner '{' depth
      simp only [List.append_assoc, List.cons_append, List.nil_append] at hentered ⊢
      exact hentered.mono fun _ hleft => .of_eq hleft hrest
    · exact Json.gives_refuse _ _ _
  refine hparts.bind ?_
  rintro ⟨found, left⟩ hleft
  dsimp only
  split
  · exact Gives.ok hleft
  · exact Gives.error _ _

/-! ## Parts that repeat a member -/

/-- The keys that are known to a kind of part: the tag, and what a part of that kind holds. -/
def Kind.keys : Kind → List String
  | .text => tagKey :: textFields.map Field.name
  | .reasoning => tagKey :: textFields.map Field.name
  | .toolCall => tagKey :: toolCallFields.map Field.name
  | .toolResult => tagKey :: toolResultFields.map Field.name
  | .image => tagKey :: imageFields.map Field.name

/-- The text of an object of a known kind that has one of its keys twice. -/
inductive Repeats (t : List Char) : Prop
  | mk {members : List (String × List Char)} {kind : Kind} {tag : List Char} {key : String}
      (hvalues : ∀ m ∈ members, IsText m.2) (hobject : IsObjectOf members t)
      (htag : (tagKey, tag) ∈ members) (hkind : IsTextOf (.string kind.tag) tag)
      (hkey : key ∈ kind.keys) (hduplicate : List.Duplicate key (members.map Prod.fst))

/-- What repeats a key makes up no part. -/
theorem gives_pickBody_of_duplicate {kind : Kind} {key : String} (hkey : key ∈ kind.keys)
    (hne : key ≠ tagKey) {others : List (String × Json)}
    (hduplicate : List.Duplicate key (others.map Prod.fst)) :
    Gives (pickBody kind (.object others)) fun _ => False := by
  cases kind <;>
  · have hfield := (List.mem_cons.mp hkey).resolve_left hne
    exact (Json.gives_pickFields_of_duplicate hfield hduplicate).map fun _ => False.elim

/-- The tag that was kept is the one that is written. -/
theorem kind_eq {members : List (String × List Char)} {all : List (String × Json)} {depth : Nat}
    (h : Become (FoundIn (Json.anyValue depth)) members all) {kind found : Kind}
    (honce : withKey tagKey all = [(tagKey, .string found.tag)]) {tag : List Char}
    (htag : (tagKey, tag) ∈ members) (hkind : IsTextOf (.string kind.tag) tag) : found = kind := by
  obtain ⟨m, hm, hname, hfound⟩ := exists_of_mem_left h htag
  have hvalue := (Json.takes_anyValue_string hkind depth).eq_of_foundIn hfound
  have hmem : m ∈ withKey tagKey all := List.mem_filter.mpr ⟨hm, by simpa using hname.symm⟩
  rw [honce, List.mem_singleton] at hmem
  rw [hmem] at hvalue
  have htags : found.tag = kind.tag := Json.string.inj hvalue
  have hlookup := kinds_lookup found
  rw [htags, kinds_lookup] at hlookup
  exact (Option.some.inj hlookup).symm

/-- A part that was kept has its tag once, and its other members have the keys that are written. -/
theorem exists_kept {members : List (String × List Char)} {t : List Char}
    (hvalues : ∀ m ∈ members, IsText m.2) (hobject : IsObjectOf members t) {depth : Nat}
    {part : Part} (h : FoundIn (Part.read depth) t part) :
    ∃ (kind : Kind) (d : Nat) (all : List (String × Json)),
      withKey tagKey all = [(tagKey, .string kind.tag)] ∧
        Become (FoundIn (Json.anyValue d)) members all ∧
        pickBody kind (.object (all.filter fun m => m.1 != tagKey)) = .ok part := by
  obtain ⟨texts, blanks, htexts, hend, hpadded⟩ := hobject.texts
  obtain ⟨rest, left, -, hread⟩ := h.core (passesBlanks_read depth) hpadded
  obtain ⟨⟨⟨kind, body⟩, rest'⟩, hparts, hpick⟩ := bind_eq_ok_iff.mp hread
  simp only [List.append_assoc, List.cons_append, List.nil_append] at hparts
  rw [readParts, Json.skipBlanks_cons _ (by decide)] at hparts
  have hholds := htexts.imp fun m text => Json.MemberText.holdsKey
  have hclose := hend.closes (.inr (rfl : '}' = '}')) rest
  let Kept := fun (kept : Kind × Json) => ∃ (d : Nat) (all : List (String × Json)),
    withKey tagKey all = [(tagKey, .string kept.1.tag)] ∧
      kept.2 = .object (all.filter fun m => m.1 != tagKey) ∧
      Become (FoundIn (Json.anyValue d)) members all
  have hinner := fun d => (gives_readTagged hholds hvalues hclose d).mono
    (q := fun found => Kept found.1 ∧ found.2 = '}' :: rest)
    fun found hkept => ⟨⟨d, hkept.1⟩, hkept.2⟩
  have hentered := Json.gives_enter (p := Kept) (Json.closeObject_bracket rest) hinner '{' depth
  obtain ⟨d, all, honce, rfl, hbecome⟩ := (hentered _ hparts).1
  dsimp only at hpick
  split at hpick
  · next hbody =>
    cases hpick
    exact ⟨kind, d, all, honce, hbecome, hbody⟩
  · cases hpick

/-- No part is read from what repeats a member. -/
theorem not_foundIn_of_repeats {t : List Char} (h : Repeats t) (depth : Nat) (part : Part) :
    ¬FoundIn (Part.read depth) t part := by
  intro hfound
  obtain @⟨members, kind, tag, key, hvalues, hobject, htag, hkind, hkey, hduplicate⟩ := h
  obtain ⟨found, d, all, honce, hbecome, hbody⟩ := exists_kept hvalues hobject hfound
  obtain rfl := kind_eq hbecome honce htag hkind
  rw [hbecome.keys] at hduplicate
  by_cases hne : key = tagKey
  · -- the tag itself stands twice
    have hcount := List.duplicate_iff_two_le_count.mp hduplicate
    rw [hne, ← Json.length_withKey, honce, List.length_singleton] at hcount
    omega
  · exact gives_pickBody_of_duplicate hkey hne (Json.duplicate_filter hne hduplicate) part hbody

end Part

/-! ## Messages that repeat a member -/

namespace Message

/-- The text of an object that has a key of a message twice, or holds a part that repeats one. -/
inductive Repeats (t : List Char) : Prop
  | itself {members : List (String × List Char)} {key : String}
      (hvalues : ∀ m ∈ members, IsText m.2) (hobject : IsObjectOf members t)
      (hkey : key ∈ fields.map Field.name)
      (hduplicate : List.Duplicate key (members.map Prod.fst))
  | inPart {members : List (String × List Char)} {parts : List Char}
      {texts : List (List Char)} {text : List Char}
      (hvalues : ∀ m ∈ members, IsText m.2) (hobject : IsObjectOf members t)
      (hparts : ("parts", parts) ∈ members) (htexts : ∀ text ∈ texts, IsText text)
      (harray : IsArrayOf texts parts) (hmem : text ∈ texts) (h : Part.Repeats text)

/-- Every field of a message is read to its end. -/
theorem keepsTo_fields {t : List Char} (h : IsText t) :
    ∀ f ∈ fields, ∀ depth, KeepsTo (f.read depth) t := by
  simp only [fields, List.forall_mem_cons]
  refine ⟨fun depth => Json.keepsTo_readName h Role.names depth, fun depth => ?_, fun depth => ?_,
    List.forall_mem_nil _⟩
  · exact Json.keepsTo_readList Part.passesBlanks_read (fun t => Part.keepsTo_read) h depth
  · intro rest hrest
    exact (Json.keepsTo_readInteger h _ _ _ depth rest hrest).map fun _ => id

/-- The parts of a message are found in the texts of the items that it holds. -/
theorem parts_found {f : Field Json.Reader} (hf : f ∈ fields) (hname : f.name = "parts")
    {parts : List Char} {texts : List (List Char)} (htexts : ∀ text ∈ texts, IsText text)
    (harray : IsArrayOf texts parts) {depth : Nat} {value : f.type}
    (h : f.FindsIn depth parts value) :
    ∀ text ∈ texts, ∃ d part, FoundIn (Part.read d) text part := by
  simp only [fields, List.mem_cons, List.not_mem_nil, or_false] at hf
  rcases hf with rfl | rfl | rfl
  · exact absurd hname (by decide)
  · intro text htext
    obtain ⟨d, hfound⟩ := FoundIn.items Part.passesBlanks_read (fun t => Part.keepsTo_read) htexts
      harray h
    obtain ⟨part, -, hpart⟩ := exists_of_mem_left hfound htext
    exact ⟨d, part, hpart⟩
  · exact absurd hname (by decide)

/-- No message is read from what repeats a member. -/
theorem fails_of_repeats {t : List Char} (h : Repeats t) (depth : Nat) :
    Json.Fails (Message.read depth) t := by
  refine Json.fails_of_not_foundIn fun message hfound => ?_
  cases h with
  | itself hvalues hobject hkey hduplicate =>
    obtain ⟨d, slots, hfills⟩ := hfound.fills
      (fun m hm => ⟨hvalues m hm, fun f hf _ => keepsTo_fields (hvalues m hm) f hf⟩) hobject
    exact hfills.not_duplicate hkey hduplicate
  | inPart hvalues hobject hparts htexts harray hmem h =>
    obtain ⟨d, slots, hfills⟩ := hfound.fills
      (fun m hm => ⟨hvalues m hm, fun f hf _ => keepsTo_fields (hvalues m hm) f hf⟩) hobject
    obtain ⟨f, hf, hname, parts, hread⟩ := hfills.exists_value hparts (by decide)
    obtain ⟨d, part, hpart⟩ := parts_found hf hname htexts harray hread _ hmem
    exact Part.not_foundIn_of_repeats h d part hpart

/-! ## What becomes of a text -/

/-- A message is decoded from every text that writes it, in whatever order its members and those of
its parts stand, and nothing is decoded from a text that repeats a known member. -/
theorem decode_arrangement (text : String) :
    (∀ message : Message, message.toJson.depth ≤ Json.greatestDepth →
      message.IsWritten text.toList → decode text = .ok message) ∧
    (Repeats text.toList → ∃ fault, decode text = .error fault) := by
  refine ⟨fun message hdepth hwritten => decode_of_isWritten hdepth hwritten, fun hrepeats => ?_⟩
  exact Json.read_of_fails (fails_of_repeats hrepeats Json.greatestDepth)

/-- The text of an object whose keys are printed as they are. -/
def objectText (members : List (String × List Char)) : List Char :=
  '{' :: (joined true (members.map fun m => Json.quoted m.1 ++ ':' :: m.2) ++ ['}'])

/-- The text of an array of one item. -/
def singleText (item : List Char) : List Char := '[' :: (item ++ [']'])

theorem isArrayOf_single (item : List Char) : IsArrayOf [item] (singleText item) := by
  refine .mk Json.areBlanks_nil ?_
  simp only [singleText, joined, List.append_nil]
  exact Json.isPadded_self _

theorem isTextOf_string (s : String) : IsTextOf (.string s) (Json.string s).compact :=
  Json.isTextOf_compact _ (Json.integral_string s)

/-- The result of a tool without an error. -/
def finished : Message := ⟨.tool, [.toolResult "c" "ok" false], 0⟩

/-- The members of the result, the tag between the others and without the truth value. -/
def finishedPart : List (String × List Char) :=
  [("output", (Json.string "ok").compact), ("n", (Json.int 7).compact),
   ("type", (Json.string "tool_result").compact), ("call_id", (Json.string "c").compact)]

/-- The members of the message, the role last and without the time. -/
def finishedMembers : List (String × List Char) :=
  [("note", Json.null.compact), ("parts", singleText (objectText finishedPart)),
   ("role", (Json.string "tool").compact)]

/-- The members of a part with two texts. -/
def twoTexts : List (String × List Char) :=
  [("text", (Json.string "a").compact), ("type", (Json.string "text").compact),
   ("text", (Json.string "b").compact)]

/-- The members of a message with such a part. -/
def twoTextsMembers : List (String × List Char) :=
  [("role", (Json.string "user").compact), ("parts", singleText (objectText twoTexts))]

/-- The text of the result. -/
def finishedText : String :=
  "\x7b\"note\":null,\"parts\":[\x7b\"output\":\"ok\",\"n\":7,\"type\":\"tool_result\"," ++
    "\"call_id\":\"c\"\x7d],\"role\":\"tool\"\x7d"

/-- The text of the message with two texts. -/
def twoTextsText : String :=
  "\x7b\"role\":\"user\",\"parts\":[\x7b\"text\":\"a\",\"type\":\"text\",\"text\":\"b\"\x7d]\x7d"

theorem isWritten_finishedPart :
    (Part.toolResult "c" "ok" false).IsWritten (objectText finishedPart) := by
  refine ⟨Json.isObjectOf_quoted finishedPart, ?_, ?_⟩
  · simp only [Part.entries, Part.members, List.map_cons, List.map_nil, List.forall_mem_cons]
    exact ⟨.named rfl (isTextOf_string _), .named rfl (isTextOf_string _),
      .named rfl (isTextOf_string _), .silent rfl trivial, List.forall_mem_nil _⟩
  · simp only [finishedPart, List.forall_mem_cons]
    refine ⟨fun h => ?_, fun _ => ?_, fun h => ?_, fun h => ?_, List.forall_mem_nil _⟩
    · exact absurd (by decide) h
    · exact .int (n := 7) (Json.isTextOf_compact _ (Json.integral_int 7))
    · exact absurd (by decide) h
    · exact absurd (by decide) h

theorem isWritten_finishedMembers : finished.IsWritten (objectText finishedMembers) := by
  refine ⟨Json.isObjectOf_quoted finishedMembers, ?_, ?_⟩
  · simp only [entries, List.forall_mem_cons]
    refine ⟨.named rfl (isTextOf_string _), .named rfl ?_, .silent rfl rfl, List.forall_mem_nil _⟩
    exact .mk (.cons isWritten_finishedPart .nil) (isArrayOf_single _)
  · simp only [finishedMembers, List.forall_mem_cons]
    refine ⟨fun _ => ?_, fun h => ?_, fun h => ?_, List.forall_mem_nil _⟩
    · exact .null (Json.isTextOf_compact _ Json.integral_null)
    · exact absurd (by decide) h
    · exact absurd (by decide) h

theorem isText_twoTexts : ∀ m ∈ twoTexts, IsText m.2 := by
  simp only [twoTexts, List.forall_mem_cons]
  exact ⟨(isTextOf_string _).isText, (isTextOf_string _).isText, (isTextOf_string _).isText,
    List.forall_mem_nil _⟩

theorem repeats_twoTexts : Part.Repeats (objectText twoTexts) := by
  have htag : (Part.tagKey, (Json.string Part.Kind.text.tag).compact) ∈ twoTexts :=
    List.mem_cons_of_mem _ List.mem_cons_self
  have hkey : "text" ∈ Part.Kind.text.keys := by decide
  exact .mk isText_twoTexts (Json.isObjectOf_quoted twoTexts) htag (isTextOf_string _) hkey
    (by decide)

theorem repeats_twoTextsMembers : Repeats (objectText twoTextsMembers) := by
  have hpart : IsText (objectText twoTexts) :=
    (Json.isObjectOf_quoted twoTexts).isText isText_twoTexts
  have hparts : ∀ text ∈ [objectText twoTexts], IsText text := List.forall_mem_singleton.mpr hpart
  have harray := isArrayOf_single (objectText twoTexts)
  have hvalues : ∀ m ∈ twoTextsMembers, IsText m.2 := by
    simp only [twoTextsMembers, List.forall_mem_cons]
    exact ⟨(isTextOf_string _).isText, harray.isText hparts, List.forall_mem_nil _⟩
  exact .inPart hvalues (Json.isObjectOf_quoted twoTextsMembers)
    (List.mem_cons_of_mem _ List.mem_cons_self) hparts harray List.mem_cons_self repeats_twoTexts

/-- One text is read as the message that it writes, the other is refused. -/
theorem decode_arrangement_finished :
    finished.toJson.depth ≤ Json.greatestDepth ∧
      finished.IsWritten finishedText.toList ∧ decode finishedText = .ok finished ∧
      Repeats twoTextsText.toList ∧ ∃ fault, decode twoTextsText = .error fault := by
  have hdepth : finished.toJson.depth ≤ Json.greatestDepth := by decide
  have hwritten : finished.IsWritten finishedText.toList := by
    have htext : finishedText.toList = objectText finishedMembers := by decide +kernel
    rw [htext]
    exact isWritten_finishedMembers
  have hrepeats : Repeats twoTextsText.toList := by
    have htext : twoTextsText.toList = objectText twoTextsMembers := by decide +kernel
    rw [htext]
    exact repeats_twoTextsMembers
  exact ⟨hdepth, hwritten, (decode_arrangement finishedText).1 finished hdepth hwritten, hrepeats,
    (decode_arrangement twoTextsText).2 hrepeats⟩

end Message

end SessionArchive
