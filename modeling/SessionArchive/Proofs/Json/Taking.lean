import Mathlib.Tactic.Choose
import SessionArchive.Proofs.Json.Record
import SessionArchive.Proofs.Json.Skip

/-!
# Reading any text of a value

A value is read from each of its texts, not only from those that are printed for it: strings with
whatever is escaped in them, numbers and words with blanks around them, arrays, and objects with
their members in any order. Each reader has one lemma, which says what it takes from a text that
means a value of its kind. `takes_anyValue` reads a canonical value up to the order of its members.
-/

set_option autoImplicit false

namespace SessionArchive.Json

variable {α β : Type}

/-! ## Strings -/

theorem codeEscape_code {ds : List Char} {n : Nat} (hlength : ds.length = 4)
    (hvalue : Text.ofHex? ds = some n) (hhigh : isHighSurrogate n = false)
    (hlow : isLowSurrogate n = false) (rest : List Char) :
    codeEscape (ds ++ rest) = .ok (Char.ofNat n, rest) := by
  simp only [codeEscape, fourDigits_of_ofHex? hlength hvalue rest, ok_bind, hlow, hhigh,
    Bool.false_eq_true, if_false]

theorem codeEscape_halves {ds es : List Char} {high low : Nat} (hds : ds.length = 4)
    (hes : es.length = 4) (hhigh : Text.ofHex? ds = some high) (hlow : Text.ofHex? es = some low)
    (hfirst : isHighSurrogate high = true) (hsecond : isLowSurrogate low = true)
    (rest : List Char) :
    codeEscape (ds ++ ('\\' :: 'u' :: (es ++ rest))) = .ok (joinSurrogates high low, rest) := by
  -- no number is both halves
  have hnotlow : isLowSurrogate high = false := by
    simp only [isHighSurrogate, Bool.and_eq_true, decide_eq_true_eq] at hfirst
    simp only [isLowSurrogate, Bool.and_eq_false_iff, decide_eq_false_iff_not]
    omega
  simp only [codeEscape, fourDigits_of_ofHex? hds hhigh, fourDigits_of_ofHex? hes hlow, ok_bind,
    hnotlow, hfirst, hsecond, Bool.false_eq_true, if_false, if_true]

/-- One step of a string reads whatever stands for one character. -/
theorem IsCharacterOf.read {c : Char} {piece : List Char} (h : IsCharacterOf c piece)
    (steps : Nat) (rest : List Char) :
    stringBody (steps + 1) (piece ++ rest) =
      (stringBody steps rest).map fun (cs, rest) => (c :: cs, rest) := by
  cases h with
  | plain hcontrol hquote hslash =>
    rw [List.singleton_append, stringBody, if_neg hquote, if_neg hslash,
      if_neg (Nat.not_lt.mpr hcontrol)]
    cases stringBody steps rest <;> rfl
  | @letter l c h =>
    have hletter : l ≠ 'u' ∧ escapeLetter? l = some c := by
      simp only [List.mem_cons, List.not_mem_nil, or_false, Prod.mk.injEq] at h
      rcases h with ⟨rfl, rfl⟩ | ⟨rfl, rfl⟩ | ⟨rfl, rfl⟩ | ⟨rfl, rfl⟩ | ⟨rfl, rfl⟩ | ⟨rfl, rfl⟩ |
        ⟨rfl, rfl⟩ | ⟨rfl, rfl⟩ <;> exact ⟨by decide, rfl⟩
    exact stringBody_letter steps rest hletter.1 hletter.2
  | code hlength hvalue hhigh hlow =>
    exact stringBody_codeEscape steps (codeEscape_code hlength hvalue hhigh hlow rest)
  | @halves ds es high low hlength hvalues hhigh hlow =>
    have hread := stringBody_codeEscape steps
      (codeEscape_halves hlength.1 hlength.2 hvalues.1 hvalues.2 hhigh hlow rest)
    simpa only [List.append_assoc, List.cons_append] using hread

theorem IsCharacterOf.ne_nil {c : Char} {piece : List Char} (h : IsCharacterOf c piece) :
    piece ≠ [] := by
  cases h <;> exact List.cons_ne_nil _ _

theorem stringBody_pieces {cs : List Char} {pieces : List (List Char)}
    (h : List.Forall₂ IsCharacterOf cs pieces) (steps : Nat) (hsteps : pieces.length < steps)
    (rest : List Char) : stringBody steps (pieces.flatten ++ '"' :: rest) = .ok (cs, rest) := by
  induction h generalizing steps with
  | nil =>
    obtain ⟨n, rfl⟩ : ∃ n, steps = n + 1 := ⟨steps - 1, by omega⟩
    rfl
  | cons hfirst _ ih =>
    obtain ⟨n, rfl⟩ : ∃ n, steps = n + 1 := ⟨steps - 1, by omega⟩
    rw [List.flatten_cons, List.append_assoc, hfirst.read, ih n (Nat.lt_of_succ_lt_succ hsteps)]
    rfl

theorem pieces_ne_nil {cs : List Char} {pieces : List (List Char)}
    (h : List.Forall₂ IsCharacterOf cs pieces) : ∀ piece ∈ pieces, piece ≠ [] := by
  induction h with
  | nil => exact List.forall_mem_nil _
  | cons hfirst _ ih => exact List.forall_mem_cons.mpr ⟨hfirst.ne_nil, ih⟩

theorem IsStringOf.read {s : String} {cs : List Char} (h : IsStringOf s cs) :
    ∃ body, cs = '"' :: body ∧ ∀ rest, stringAfterQuote (body ++ rest) = .ok (s, rest) := by
  obtain @⟨pieces, h⟩ := h
  refine ⟨pieces.flatten ++ ['"'], rfl, fun rest => ?_⟩
  have hlength := length_le_length_flatten (pieces_ne_nil h)
  have hread := stringBody_pieces h (pieces.flatten ++ '"' :: rest).length
    (by rw [List.length_append, List.length_cons]; omega) rest
  rw [List.append_assoc, List.singleton_append, stringAfterQuote, hread]
  simp only [map_ok, String.ofList_toList]

/-- The text of a key, a colon and the text of a value are a member. -/
theorem IsKeyOf.memberText {key : String} {cs : List Char} (h : IsKeyOf key cs)
    (value : List Char) : MemberText (cs ++ ':' :: value) key value := by
  obtain ⟨hstring, hpadded⟩ := h
  obtain @⟨before, after, hbefore, hafter⟩ := hpadded
  obtain ⟨body, rfl, hread⟩ := hstring.read
  refine ⟨after ++ ':' :: value, ⟨body ++ (after ++ ':' :: value), ?_, fun more => ?_⟩, ?_⟩
  · rw [List.append_assoc, List.append_assoc, hbefore.skip, List.cons_append]
    exact skipBlanks_cons _ (by decide)
  · rw [List.append_assoc]
    exact hread _
  · exact (hafter.skip _).trans (skipBlanks_cons value (by decide))

/-- The text of an object holds a text of each of its members. -/
theorem IsObjectOf.texts {members : List (String × List Char)} {t : List Char}
    (h : IsObjectOf members t) :
    ∃ texts blanks, List.Forall₂ (fun (m : String × List Char) text => MemberText text m.1 m.2)
        members texts ∧ AreBlanks blanks ∧
      IsPadded ('{' :: (joined true texts ++ blanks ++ ['}'])) t := by
  obtain @⟨members, blanks, t, hkeys, hblanks, hpadded⟩ := h
  refine ⟨_, blanks, ?_, hblanks, hpadded⟩
  rw [List.forall₂_map_left_iff, List.forall₂_map_right_iff, List.forall₂_same]
  exact fun m hm => (hkeys m hm).memberText m.2.2

/-- A reader takes the text of an object if it reads the object with a text of each member between
the brackets, whatever follows the closing one. -/
theorem IsObjectOf.takes {reader : Scan α} {value : α} {members : List (String × List Char)}
    {t : List Char} (h : IsObjectOf members t) (hblanks : PassesBlanks reader)
    (hread : ∀ (texts : List (List Char)) (close rest : List Char),
      List.Forall₂ (fun (m : String × List Char) text => MemberText text m.1 m.2) members texts →
      Closes '}' close rest →
      reader ('{' :: (joined true texts ++ close)) = .ok (value, rest)) :
    Takes reader t value := by
  obtain ⟨texts, blanks, htexts, hend, hpadded⟩ := h.texts
  refine Takes.padded ?_ hblanks hpadded
  intro rest hrest
  refine ⟨rest, .refl hrest, ?_⟩
  have hobject := hread texts _ rest htexts (hend.closes (.inr rfl) rest)
  simpa only [List.append_assoc, List.cons_append, List.nil_append] using hobject

/-! ## Values of one kind -/

theorem Takes.map {reader : Scan α} {text : List Char} {value : α} (h : Takes reader text value)
    (f : α → β) :
    Takes (fun cs => (reader cs).map fun (a, rest) => (f a, rest)) text (f value) := by
  intro rest hrest
  obtain ⟨left, hleft, hread⟩ := h rest hrest
  refine ⟨left, hleft, ?_⟩
  simp only [hread, map_ok]

theorem passesBlanks_readStringAs (expected : String) (depth : Nat) :
    PassesBlanks (readStringAs expected depth) := by
  intro cs
  simp only [readStringAs, skipBlanks_skipBlanks]

theorem takes_readStringAs {s : String} {t : List Char} (h : IsTextOf (.string s) t)
    (expected : String) (depth : Nat) : Takes (readStringAs expected depth) t s := by
  cases h with
  | string hcore hpadded =>
    obtain ⟨body, rfl, hread⟩ := hcore.read
    refine Takes.padded ?_ (passesBlanks_readStringAs expected depth) hpadded
    intro rest hrest
    refine ⟨rest, .refl hrest, ?_⟩
    rw [List.cons_append, readStringAs, skipBlanks_cons _ (by decide)]
    exact hread rest

theorem takes_readString {s : String} {t : List Char} (h : IsTextOf (.string s) t) (depth : Nat) :
    Takes (readString depth) t s :=
  takes_readStringAs h _ depth

/-- A name that stands for a value is read as the value. -/
theorem takes_namedValue {names : List (String × α)} {name : String} {value : α} {t : List Char}
    (h : IsTextOf (.string name) t) (hname : names.lookup name = some value) (depth : Nat) :
    Takes (namedValue names depth) t value := by
  intro rest hrest
  obtain ⟨left, hleft, hread⟩ := takes_readStringAs h "variant identifier" depth rest hrest
  refine ⟨left, hleft, ?_⟩
  simp only [namedValue, hread, ok_bind, hname]

theorem passesBlanks_readName (names : List (String × α)) (depth : Nat) :
    PassesBlanks (readName names depth) := by
  intro cs
  simp only [readName, skipBlanks_skipBlanks]

theorem takes_readName {names : List (String × α)} {name : String} {value : α} {t : List Char}
    (h : IsTextOf (.string name) t) (hname : names.lookup name = some value) (depth : Nat) :
    Takes (readName names depth) t value := by
  cases h with
  | @string _ core _ hcore hpadded =>
    have hread := takes_namedValue (.string hcore (isPadded_self core)) hname depth
    obtain ⟨body, rfl, -⟩ := hcore.read
    refine Takes.padded ?_ (passesBlanks_readName names depth) hpadded
    intro rest hrest
    obtain ⟨left, hleft, hread⟩ := hread rest hrest
    refine ⟨left, hleft, ?_⟩
    rw [List.cons_append] at hread ⊢
    rw [readName, skipBlanks_cons _ (by decide)]
    exact hread

theorem passesBlanks_readBool (depth : Nat) : PassesBlanks (readBool depth) := by
  intro cs
  simp only [readBool, skipBlanks_skipBlanks]

theorem takes_readBool {b : Bool} {t : List Char} (h : IsTextOf (.bool b) t) (depth : Nat) :
    Takes (readBool depth) t b := by
  cases h with
  | true hpadded =>
    exact Takes.padded (Reads.takes fun rest _ => rfl) (passesBlanks_readBool depth) hpadded
  | false hpadded =>
    exact Takes.padded (Reads.takes fun rest _ => rfl) (passesBlanks_readBool depth) hpadded

/-! ## Integers -/

theorem passesBlanks_readInteger (expected : String) (low high : Int) (depth : Nat) :
    PassesBlanks (readInteger expected low high depth) := by
  intro cs
  simp only [readInteger, skipBlanks_skipBlanks]

theorem takes_readInteger {n : Int} {t : List Char} (h : IsTextOf (.int n) t) {low high : Int}
    (hfits : (Numeral.integer n).fits = true) (hlow : low ≤ n) (hhigh : n < high)
    (expected : String) (depth : Nat) : Takes (readInteger expected low high depth) t n := by
  cases h with
  | integer hpadded =>
    exact (reads_integer expected low high depth hfits hlow hhigh).takes.padded
      (passesBlanks_readInteger expected low high depth) hpadded

theorem takes_readSigned {n : Int} {t : List Char} (h : IsTextOf (.int n) t)
    (hlow : -0x8000000000000000 ≤ n) (hhigh : n < 0x8000000000000000) (depth : Nat) :
    Takes (readSigned depth) t n := by
  refine takes_readInteger h ?_ hlow hhigh _ depth
  simp only [Numeral.fits, Bool.and_eq_true, decide_eq_true_eq]
  omega

theorem takes_readInt64 {n : Int64} {t : List Char} (h : IsTextOf (.int n.toInt) t)
    (depth : Nat) : Takes (readInt64 depth) t n := by
  have hlow := Int64.le_toInt n
  have hhigh := Int64.toInt_lt n
  have htakes := (takes_readSigned h (by omega) (by omega) depth).map Int64.ofInt
  rwa [Int64.ofInt_toInt] at htakes

/-- A natural number within bounds is read and turned into a word. -/
theorem takes_readWord {n : Nat} {t : List Char} (h : IsTextOf (.nat n) t) {size : Nat}
    (hn : n < size) (hsize : size ≤ 0x10000000000000000) (expected : String) (word : Nat → α)
    (depth : Nat) :
    Takes (fun cs => (readInteger expected 0 size depth cs).map fun (n, rest) =>
      (word n.toNat, rest)) t (word n) := by
  have hfits : (Numeral.integer n).fits = true := by
    simp only [Numeral.fits, Bool.and_eq_true, decide_eq_true_eq]
    omega
  have htakes := (takes_readInteger h hfits (Int.natCast_nonneg n) (Int.ofNat_lt.mpr hn) expected
    depth).map fun n => word n.toNat
  rwa [Int.toNat_natCast] at htakes

theorem takes_readCount {n : Nat} {t : List Char} (h : IsTextOf (.nat n) t)
    (hn : n < 0x10000000000000000) (depth : Nat) : Takes (readCount depth) t n :=
  takes_readWord h hn (Nat.le_refl _) "usize" id depth

theorem takes_readLimit {n : UInt64} {t : List Char} (h : IsTextOf (.nat n.toNat) t)
    (depth : Nat) : Takes (readLimit depth) t n := by
  have htakes := (takes_readCount h n.toNat_lt depth).map UInt64.ofNat
  rwa [UInt64.ofNat_toNat] at htakes

theorem takes_readUInt64 {n : UInt64} {t : List Char} (h : IsTextOf (.nat n.toNat) t)
    (depth : Nat) : Takes (readUInt64 depth) t n := by
  have htakes := takes_readWord h n.toNat_lt (Nat.le_refl _) "u64" UInt64.ofNat depth
  rwa [UInt64.ofNat_toNat] at htakes

theorem takes_readUInt32 {n : UInt32} {t : List Char} (h : IsTextOf (.nat n.toNat) t)
    (depth : Nat) : Takes (readUInt32 depth) t n := by
  have htakes := takes_readWord h n.toNat_lt (by decide) "u32" UInt32.ofNat depth
  rwa [UInt32.ofNat_toNat] at htakes

/-! ## Lists -/

theorem passesBlanks_readList (item : Reader α) (depth : Nat) :
    PassesBlanks (readList item depth) := by
  intro cs
  simp only [readList, skipBlanks_skipBlanks]

/-- A list is read from an array whose items each have a text from which they are taken. -/
theorem takes_readList {item : Reader α} {depth : Nat} {holds : α → List Char → Prop}
    {values : List α} {texts : List (List Char)} {t : List Char}
    (hblanks : PassesBlanks (item depth))
    (hitems : ∀ value ∈ values, ∀ text, holds value text →
      IsText text ∧ Takes (item depth) text value)
    (htexts : List.Forall₂ holds values texts) (h : IsArrayOf texts t) :
    Takes (readList item (depth + 1)) t values := by
  obtain ⟨hend, hpadded⟩ := h
  refine Takes.padded ?_ (passesBlanks_readList item (depth + 1)) hpadded
  obtain ⟨hlength, hzip⟩ := List.forall₂_iff_zip.mp htexts
  intro rest hrest
  refine ⟨rest, .refl hrest, ?_⟩
  have hpieces : ∀ p ∈ (values.zip texts).map Prod.swap,
      BeginsItem p.1 ∧ Takes (item depth) (skipBlanks p.1) p.2 := by
    rw [List.forall_mem_map]
    rintro ⟨value, text⟩ hp
    obtain ⟨htext, htakes⟩ := hitems value (List.of_mem_zip hp).1 text (hzip hp)
    exact ⟨htext.beginsItem, htakes.skip hblanks htext.beginsItem⟩
  have hread := items_all_taken (item depth) _ hpieces (hend.closes (.inl rfl) rest)
  have hfirst : ((values.zip texts).map Prod.swap).map Prod.fst = texts := by
    rw [List.map_map]
    exact List.map_snd_zip hlength.ge
  have hsecond : ((values.zip texts).map Prod.swap).map Prod.snd = values := by
    rw [List.map_map]
    exact List.map_fst_zip hlength.le
  rw [hfirst, hsecond] at hread
  simp only [List.append_assoc, List.cons_append, List.nil_append]
  rw [readList, skipBlanks_cons _ (by decide)]
  exact enclosed_of_ok hread (closeArray_bracket rest)

/-! ## Any value -/

theorem passesBlanks_anyValue (depth : Nat) : PassesBlanks (anyValue depth) := by
  intro cs
  cases depth <;> simp only [anyValue, skipBlanks_skipBlanks]

theorem takes_anyValue_string {s : String} {t : List Char} (h : IsTextOf (.string s) t)
    (depth : Nat) : Takes (anyValue depth) t (.string s) := by
  cases h with
  | string hcore hpadded =>
    obtain ⟨body, rfl, hread⟩ := hcore.read
    refine Takes.padded ?_ (passesBlanks_anyValue depth) hpadded
    intro rest hrest
    refine ⟨rest, .refl hrest, ?_⟩
    rw [List.cons_append, anyValue_scalar depth _ (by decide) (by decide) (by decide), scalar,
      hread, map_ok]

theorem takes_array {depth : Nat} {pieces : List (List Char × Json)} {t : List Char}
    (hpieces : ∀ p ∈ pieces, IsText p.1 ∧ Takes (anyValue depth) p.1 p.2)
    (h : IsArrayOf (pieces.map Prod.fst) t) :
    Takes (anyValue (depth + 1)) t (.array (pieces.map Prod.snd)) := by
  generalize htexts : pieces.map Prod.fst = texts at h
  obtain ⟨hend, hpadded⟩ := h
  refine Takes.padded ?_ (passesBlanks_anyValue (depth + 1)) hpadded
  intro rest hrest
  refine ⟨rest, .refl hrest, ?_⟩
  have hitems : ∀ p ∈ pieces, BeginsItem p.1 ∧ Takes (anyValue depth) (skipBlanks p.1) p.2 := by
    intro p hp
    obtain ⟨htext, htakes⟩ := hpieces p hp
    exact ⟨htext.beginsItem, htakes.skip (passesBlanks_anyValue depth) htext.beginsItem⟩
  have hread := items_all_taken (anyValue depth) pieces hitems (hend.closes (.inl rfl) rest)
  rw [htexts] at hread
  simp only [List.append_assoc, List.cons_append, List.nil_append]
  rw [anyValue, skipBlanks_cons _ (by decide)]
  simp only [enclosed_of_ok hread (closeArray_bracket rest), map_ok]

theorem takes_object {depth : Nat} {pieces : List (String × List Char × Json)} {t : List Char}
    (hpieces : ∀ p ∈ pieces, Takes (anyValue depth) p.2.1 p.2.2)
    (h : IsObjectOf (pieces.map fun p => (p.1, p.2.1)) t) :
    Takes (anyValue (depth + 1)) t (.object (pieces.map fun p => (p.1, p.2.2))) := by
  refine h.takes (passesBlanks_anyValue (depth + 1)) ?_
  intro texts close rest htexts hclose
  rw [List.forall₂_map_left_iff] at htexts
  obtain ⟨hlength, hzip⟩ := List.forall₂_iff_zip.mp htexts
  have hmembers : ∀ p ∈ (pieces.zip texts).map fun z => (z.2, z.1.1, z.1.2.2),
      ∃ text, MemberText p.1 p.2.1 text ∧ Takes (anyValue depth) text p.2.2 := by
    intro p hp
    obtain ⟨z, hz, rfl⟩ := List.mem_map.mp hp
    exact ⟨z.1.2.1, hzip hz, hpieces z.1 (List.of_mem_zip hz).1⟩
  have hread := members_all_taken (anyValue depth) _ hmembers hclose
  simp only [List.map_map, Function.comp_def] at hread
  have hsecond : (pieces.zip texts).map (fun z => z.2) = texts := List.map_snd_zip hlength.ge
  have hfirst : (pieces.zip texts).map (fun z => (z.1.1, z.1.2.2)) =
      pieces.map fun p => (p.1, p.2.2) := by
    have hmap := congrArg (List.map fun p => (p.1, p.2.2)) (List.map_fst_zip hlength.le)
    rwa [List.map_map] at hmap
  rw [hsecond, hfirst] at hread
  rw [anyValue, skipBlanks_cons _ (by decide)]
  simp only [enclosed_of_ok hread (closeObject_bracket rest), map_ok]

/-- A canonical value is read up to the order of its members. -/
theorem takes_anyValue {v : Json} {t : List Char} (h : IsTextOf v t) (depth : Nat)
    (hdepth : v.depth ≤ depth) (hcanonical : v.isCanonical = true) :
    ∃ w : Json, w.fits = true ∧ w.canonicalize = v ∧ Takes (anyValue depth) t w := by
  induction h generalizing depth with
  | null hpadded =>
    refine ⟨.null, rfl, rfl, Takes.padded ?_ (passesBlanks_anyValue depth) hpadded⟩
    exact Reads.takes fun rest _ => by cases depth <;> rfl
  | true hpadded =>
    refine ⟨.bool true, rfl, rfl, Takes.padded ?_ (passesBlanks_anyValue depth) hpadded⟩
    exact Reads.takes fun rest _ => by cases depth <;> rfl
  | false hpadded =>
    refine ⟨.bool false, rfl, rfl, Takes.padded ?_ (passesBlanks_anyValue depth) hpadded⟩
    exact Reads.takes fun rest _ => by cases depth <;> rfl
  | @integer n _ hpadded =>
    obtain ⟨hlegible, hreread⟩ := Numeral.reads_integer hcanonical
    have hreads := reads_number depth hlegible
    rw [hreread] at hreads
    refine ⟨.number (.integer n), hcanonical, rfl, ?_⟩
    exact hreads.takes.padded (passesBlanks_anyValue depth) hpadded
  | @string s _ _ hcore hpadded =>
    exact ⟨.string s, rfl, rfl, takes_anyValue_string (.string hcore hpadded) depth⟩
  | @array items cs hitems harray ih =>
    obtain ⟨n, rfl⟩ : ∃ n, depth = n + 1 := ⟨depth - 1, by rw [Json.depth] at hdepth; omega⟩
    have hdepths := depthItems_le.mp (Nat.le_of_succ_le_succ hdepth)
    rw [isCanonical, allCanonical_iff] at hcanonical
    have hread : ∀ item ∈ items, ∃ w : Json, w.fits = true ∧ w.canonicalize = item.1 ∧
        Takes (anyValue n) item.2 w := by
      intro item hitem
      have hmem := List.mem_map_of_mem (f := Prod.fst) hitem
      exact ih item hitem n (hdepths _ hmem) (hcanonical _ hmem)
    choose! w hfits hcanon htakes using hread
    refine ⟨.array ((items.map fun item => (item.2, w item)).map Prod.snd), ?_, ?_, ?_⟩
    · rw [fits, allFit_iff, List.map_map, List.forall_mem_map]
      exact hfits
    · rw [canonicalize, canonicalizeItems_eq_map, List.map_map, List.map_map]
      exact congrArg _ (List.map_congr_left hcanon)
    · refine takes_array ?_ ?_
      · rw [List.forall_mem_map]
        exact fun item hitem => ⟨(hitems item hitem).isText, htakes item hitem⟩
      · rw [List.map_map]
        exact harray
  | @object members written cs hvalues horder hobject ih =>
    obtain ⟨n, rfl⟩ : ∃ n, depth = n + 1 := ⟨depth - 1, by rw [Json.depth] at hdepth; omega⟩
    have hdepths := depthMembers_le.mp (Nat.le_of_succ_le_succ hdepth)
    rw [isCanonical, Bool.and_eq_true, membersCanonical_iff] at hcanonical
    obtain ⟨hascending, hcanonical⟩ := hcanonical
    have hread : ∀ m ∈ written, ∃ w : Json, w.fits = true ∧ w.canonicalize = m.2.1 ∧
        Takes (anyValue n) m.2.2 w := by
      intro m hm
      have hmem := horder.mem_iff.mpr (List.mem_map_of_mem (f := fun m => (m.1, m.2.1)) hm)
      exact ih m hm n (hdepths _ hmem) (hcanonical _ hmem)
    choose! w hfits hcanon htakes using hread
    refine ⟨.object ((written.map fun m => (m.1, m.2.2, w m)).map fun p => (p.1, p.2.2)),
      ?_, ?_, ?_⟩
    · rw [fits, membersFit_iff, List.map_map, List.forall_mem_map]
      exact hfits
    · -- the members as they stand are those of the value in some order
      have hsame : ((written.map fun m => (m.1, m.2.2, w m)).map fun p => (p.1, p.2.2)).map
          (fun m => (m.1, m.2.canonicalize)) = written.map fun m => (m.1, m.2.1) := by
        rw [List.map_map, List.map_map]
        exact List.map_congr_left fun m hm => congrArg (Prod.mk m.1) (hcanon m hm)
      rw [canonicalize, canonicalizeMembers_eq_map, hsame, sortMembers_of_perm horder hascending]
    · refine takes_object ?_ ?_
      · rw [List.forall_mem_map]
        exact htakes
      · rw [List.map_map]
        exact hobject

/-! ## Whole texts -/

/-- What a reader takes from a whole text is what the text is read as. -/
theorem read_of_takes {reader : Reader α} {text : List Char} {value : α}
    (h : Takes (reader greatestDepth) text value) : read reader text = .ok value := by
  obtain ⟨left, hleft, hread⟩ := h [] trivial
  have hend : skipBlanks left = [] := hleft.skip
  rw [List.append_nil] at hread
  simp only [read, hread, ok_bind, hend]

end SessionArchive.Json
