import SessionArchive.Proofs.Json.Yield
import SessionArchive.Proofs.Message

/-!
# Nesting of what is read

Whatever text a message is read from, the message nests no deeper than the number of containers that
the reader may enter (`Message.yields_read`), although it need not nest as the text did: what stands
beside the tag of a part may come as an object or as an array, and the input of a tool call is put
in canonical form. A message that was read is therefore read back from its own text
(`Message.decode_encode_of_decode`).
-/

set_option autoImplicit false

namespace SessionArchive

open Json (Yields)

namespace Json

theorem yields_scalar : Yields scalar fun v => v.depth = 0 := by
  intro cs
  rw [scalar.eq_def]
  split
  · exact Gives.error _ _
  · exact (gives_true _).map fun _ _ => rfl
  · exact (gives_true _).map fun _ _ => rfl
  · exact (gives_true _).map fun _ _ => rfl
  · exact (gives_true _).map fun _ _ => rfl
  · split
    · exact (gives_true _).map fun _ _ => rfl
    · exact Gives.error _ _

/-- A value nests no deeper than the number of containers that may be entered. -/
theorem yields_anyValue (depth : Nat) : Yields (anyValue depth) fun v => v.depth ≤ depth := by
  induction depth with
  | zero =>
    intro cs
    rw [anyValue.eq_def]
    dsimp only
    split
    · exact Gives.error _ _
    · exact Gives.error _ _
    · exact yields_scalar.mono (fun _ hv => hv.le) _
  | succ depth ih =>
    intro cs
    rw [anyValue.eq_def]
    dsimp only
    split
    · refine (yields_enclosed (yields_items ih _ true) _).map fun (values, rest) hvalues => ?_
      exact Nat.succ_le_succ (depthItems_le.mpr hvalues)
    · refine (yields_enclosed (yields_members ih _ true) _).map fun (members, rest) hmembers => ?_
      exact Nat.succ_le_succ (depthMembers_le.mpr hmembers)
    · exact yields_scalar.mono (fun _ hv => hv.trans_le (Nat.zero_le _)) _

/-- The canonical form nests no deeper. -/
theorem depth_canonicalize_le (v : Json) : v.canonicalize.depth ≤ v.depth := by
  induction v using ofParts with
  | null => exact Nat.le_refl _
  | bool b => exact Nat.le_refl _
  | number n => exact Nat.le_refl _
  | string s => exact Nat.le_refl _
  | array items ih =>
    rw [canonicalize, canonicalizeItems_eq_map]
    refine Nat.succ_le_succ (depthItems_le.mpr (List.forall_mem_map.mpr fun v hv => ?_))
    exact (ih v hv).trans (depthItems_le.mp (Nat.le_refl _) v hv)
  | object members ih =>
    rw [canonicalize, canonicalizeMembers_eq_map]
    refine Nat.succ_le_succ (depthMembers_le.mpr fun m hm => ?_)
    -- a member that is left after sorting was there before
    obtain ⟨old, hold, rfl⟩ := List.mem_map.mp (mem_sortMembers hm)
    exact (ih old hold).trans (depthMembers_le.mp (Nat.le_refl _) old hold)

theorem depth_lt_of_mem_inside {v body : Json} (h : v ∈ body.inside) : v.depth < body.depth := by
  cases body with
  | array items => exact Nat.lt_succ_of_le (depthItems_le.mp (Nat.le_refl _) v h)
  | object members =>
    obtain ⟨m, hm, rfl⟩ := List.mem_map.mp h
    exact Nat.lt_succ_of_le (depthMembers_le.mp (Nat.le_refl _) m hm)
  | null => cases h
  | bool b => cases h
  | number n => cases h
  | string s => cases h

end Json

/-! ## Parts -/

namespace Part

theorem gives_pickInput (value : Json) :
    Gives (pickInput value) fun input => input.value.depth ≤ value.depth := by
  intro input hinput
  rw [pickInput] at hinput
  split at hinput
  · next found hfound =>
    cases hinput
    rw [ToolInput.ofJson?] at hfound
    split at hfound
    · cases hfound
      exact value.depth_canonicalize_le
    · cases hfound
  · cases hinput

/-- A part nests no deeper than what stood beside its tag. -/
theorem gives_pickBody (kind : Kind) (body : Json) :
    Gives (pickBody kind body) fun part => part.toJson.depth ≤ body.depth := by
  cases kind with
  | text =>
    rintro _ hpart
    obtain ⟨hpos, ⟨content, ⟨⟩⟩, rfl, -⟩ := Json.gives_pickRecord _ _ _ _ _ hpart
    exact hpos
  | reasoning =>
    rintro _ hpart
    obtain ⟨hpos, ⟨content, ⟨⟩⟩, rfl, -⟩ := Json.gives_pickRecord _ _ _ _ _ hpart
    exact hpos
  | toolCall =>
    rintro _ hpart
    obtain ⟨-, ⟨id, name, input, ⟨⟩⟩, rfl, -, -, hinput, -⟩ :=
      Json.gives_pickRecord _ _ _ _ _ hpart
    -- only the input can nest, and it was taken from inside
    rcases hinput with ⟨taken, htaken, hinput⟩ | hdefault
    · have hle : input.value.depth ≤ taken.depth := gives_pickInput taken input hinput
      have hlt := Json.depth_lt_of_mem_inside htaken
      simp only [toJson, members, Json.depth, Json.depthMembers]
      omega
    · cases hdefault
  | toolResult =>
    rintro _ hpart
    obtain ⟨hpos, ⟨callId, output, isError, ⟨⟩⟩, rfl, -⟩ := Json.gives_pickRecord _ _ _ _ _ hpart
    exact hpos
  | image =>
    rintro _ hpart
    obtain ⟨hpos, ⟨mediaType, data, ⟨⟩⟩, rfl, -⟩ := Json.gives_pickRecord _ _ _ _ _ hpart
    exact hpos

/-- What is kept of an object's members nests no deeper than any value that is read there. -/
theorem yields_keepMembers (depth steps : Nat) (first : Bool) (slots : Json.Slots tagFields) :
    Yields (Json.Slots.keepMembers tagFields depth steps first slots) fun found =>
      ∀ m ∈ found.2, m.2.depth ≤ depth := by
  induction steps generalizing first slots with
  | zero => exact fun cs => Gives.error _ _
  | succ steps ih =>
    intro cs
    rw [Json.Slots.keepMembers]
    refine (Json.gives_true _).bind ?_
    rintro ⟨key, rest⟩ -
    cases key with
    | none => exact Gives.ok (List.forall_mem_nil _)
    | some key =>
      dsimp only
      split
      · -- the tag is kept apart from the other members
        refine (Json.gives_true _).bind ?_
        rintro ⟨slots, rest⟩ -
        exact ih false slots rest
      · refine (Json.gives_true _).bind ?_
        rintro ⟨_, rest⟩ -
        refine (Json.yields_anyValue depth rest).bind ?_
        rintro ⟨value, rest⟩ hvalue
        refine (ih false slots rest).bind ?_
        rintro ⟨⟨slots, others⟩, rest⟩ hothers
        exact Gives.ok (List.forall_mem_cons.mpr ⟨hvalue, hothers⟩)

theorem yields_readTagged (depth : Nat) :
    Yields (readTagged depth) fun found => found.2.depth ≤ depth + 1 := by
  intro cs
  refine (yields_keepMembers depth _ true _ cs).bind ?_
  rintro ⟨⟨slots, others⟩, rest⟩ hothers
  refine (Json.gives_true _).bind ?_
  rintro ⟨⟨kind, ⟨⟩⟩, rest⟩ -
  exact Gives.ok (Nat.succ_le_succ (Json.depthMembers_le.mpr hothers))

theorem yields_readTagFirst (depth : Nat) :
    Yields (readTagFirst depth) fun found => found.2.depth ≤ depth + 1 := by
  intro cs
  refine (Json.gives_true _).bind fun (more, rest) _ => ?_
  cases more with
  | false => exact Gives.error _ _
  | true =>
    refine (Json.gives_true _).bind fun (kind, rest) _ => ?_
    exact (Json.yields_items (Json.yields_anyValue depth) _ false rest).bind
      fun (values, rest) hvalues => Gives.ok (Nat.succ_le_succ (Json.depthItems_le.mpr hvalues))

theorem yields_readParts (depth : Nat) :
    Yields (readParts depth) fun found => found.2.depth ≤ depth := by
  intro cs
  rw [readParts]
  split
  · exact Gives.error _ _
  · exact Json.yields_enter (fun d hd => hd ▸ yields_readTagFirst d) _
  · exact Json.yields_enter (fun d hd => hd ▸ yields_readTagged d) _
  · exact Json.gives_refuse _ _ _

/-- A part that was read nests no deeper than the number of containers that may be entered. -/
theorem yields_read (depth : Nat) :
    Yields (Part.read depth) fun part => part.toJson.depth ≤ depth := by
  intro cs
  refine (yields_readParts depth cs).bind ?_
  rintro ⟨⟨kind, body⟩, rest⟩ hbody
  dsimp only
  cases hpick : pickBody kind body with
  | error cause => exact Gives.error _ _
  | ok part => exact Gives.ok ((gives_pickBody kind body part hpick).trans hbody)

end Part

/-! ## Messages -/

namespace Message

/-- A message that was read nests no deeper than the number of containers that may be entered. -/
theorem yields_read (depth : Nat) :
    Yields (Message.read depth) fun message => message.toJson.depth ≤ depth := by
  rintro cs ⟨message, rest⟩ hread
  obtain ⟨outer, ⟨role, parts, createdAt, ⟨⟩⟩, rfl, ⟨-, hparts, -⟩, rfl⟩ :=
    Json.yields_readRecord _ _ _ _ _ _ hread
  rcases hparts with ⟨text, after, hparts⟩ | hdefault
  · -- the list of the parts is the second container
    have hlist : Yields (Json.readList Part.read outer) fun parts =>
        (∃ d, outer = d + 1) ∧ ∀ part ∈ parts, part.toJson.depth + 1 ≤ outer :=
      Json.yields_readList fun d hd =>
        (Part.yields_read d).mono fun _ hpart => hd ▸ Nat.succ_le_succ hpart
    obtain ⟨⟨d, rfl⟩, hdepths⟩ := hlist text _ hparts
    exact (depth_le_iff _ d).mpr fun part hpart => Nat.le_of_succ_le_succ (hdepths part hpart)
  · cases hdefault

theorem depth_le_of_decode {text : String} {message : Message} (h : decode text = .ok message) :
    message.toJson.depth ≤ Json.greatestDepth := by
  have hread : Gives (decode text) fun message => message.toJson.depth ≤ Json.greatestDepth := by
    refine (yields_read Json.greatestDepth text.toList).bind fun (message, rest) hdepth => ?_
    dsimp only
    split
    · exact Gives.ok hdepth
    · exact Gives.error _ _
  exact hread message h

/-- A message without floating-point numbers that was read from any text is read back from its
own. -/
theorem decode_encode_of_decode {text : String} {message : Message}
    (h : decode text = .ok message) (hint : message.toJson.Integral) :
    decode message.encode = .ok message := by
  have hlegible := Json.legible_of_integral hint message.fits_toJson
  rw [decode_encode_of_legible (depth_le_of_decode h) hlegible, reread_of_integral hint]

end Message

end SessionArchive
