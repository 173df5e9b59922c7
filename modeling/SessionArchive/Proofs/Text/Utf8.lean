import Mathlib.Data.String.Basic
import Mathlib.Tactic.SplitIfs
import SessionArchive.Text.Utf8

/-!
# Texts by their bytes

A text is cut where the bytes of a front part of it end (`split?_eq_some_iff`), and nowhere beyond
its end or inside a character (`split?_eq_none_iff`). The bytes of a text are those of its
characters one after another, and `encode_lt_iff` says that texts are in the order of their bytes.
-/

set_option autoImplicit false

namespace SessionArchive.Text.Utf8

/-! ## Measuring and cutting -/

theorem foldl_size (cs : List Char) (n : Nat) :
    cs.foldl (fun n c => n + c.utf8Size) n = n + size cs := by
  induction cs generalizing n with
  | nil => rfl
  | cons c rest ih =>
    rw [size, List.foldl_cons, List.foldl_cons, ih, ih (0 + c.utf8Size)]
    omega

theorem size_cons (c : Char) (rest : List Char) : size (c :: rest) = c.utf8Size + size rest := by
  rw [size, List.foldl_cons, foldl_size]
  omega

theorem size_append (front back : List Char) : size (front ++ back) = size front + size back := by
  rw [size, List.foldl_append, foldl_size]
  rfl

theorem size_singleton (c : Char) : size [c] = c.utf8Size := Nat.zero_add _

theorem size_le_size {front cs : List Char} (h : front <+: cs) : size front ≤ size cs := by
  obtain ⟨back, rfl⟩ := h
  rw [size_append]
  exact Nat.le_add_right _ _

theorem size_pos {cs : List Char} (h : cs ≠ []) : 0 < size cs := by
  cases cs with
  | nil => exact absurd rfl h
  | cons c rest =>
    rw [size_cons]
    exact Nat.add_pos_left c.utf8Size_pos _

/-- Of two front parts of a text the one with more characters has more bytes. -/
theorem size_take_lt_iff {cs : List Char} {m n : Nat} (hn : n ≤ cs.length) :
    size (cs.take m) < size (cs.take n) ↔ m < n := by
  constructor
  · intro h
    by_contra hle
    have hprefix : cs.take n <+: cs.take m := List.take_prefix_take_left (Nat.le_of_not_lt hle)
    exact absurd (size_le_size hprefix) (Nat.not_le_of_lt h)
  · intro h
    obtain ⟨more, rfl⟩ := Nat.exists_eq_add_of_lt h
    have hne : (cs.drop m).take (more + 1) ≠ [] := by
      rw [Ne, ← List.length_eq_zero_iff, List.length_take, List.length_drop]
      omega
    rw [Nat.add_assoc, List.take_add, size_append]
    exact Nat.lt_add_of_pos_right (size_pos hne)

/-- A text can be cut where a part of it ends. -/
theorem split?_append (front back : List Char) :
    split? (size front) (front ++ back) = some (front, back) := by
  induction front with
  | nil => exact split?.eq_1 back
  | cons c rest ih =>
    obtain ⟨n, hn⟩ := Nat.exists_eq_succ_of_ne_zero (Nat.ne_of_gt c.utf8Size_pos)
    have hsize : size (c :: rest) = n + size rest + 1 := by
      rw [size_cons]
      omega
    have hfits : c.utf8Size ≤ n + size rest + 1 := by omega
    have hleft : n + size rest + 1 - c.utf8Size = size rest := by omega
    rw [hsize, List.cons_append, split?, if_pos hfits, hleft, ih]
    rfl

/-- A text is cut into the parts before and after an offset. -/
theorem split?_eq_some_iff {n : Nat} {cs before after : List Char} :
    split? n cs = some (before, after) ↔ cs = before ++ after ∧ n = size before := by
  constructor
  · intro h
    induction cs generalizing n before with
    | nil =>
      cases n with
      | zero =>
        cases h
        exact ⟨rfl, rfl⟩
      | succ n => cases h
    | cons c rest ih =>
      cases n with
      | zero =>
        cases h
        exact ⟨rfl, rfl⟩
      | succ n =>
        rw [split?] at h
        split at h
        · rename_i hfits
          obtain ⟨⟨front, back⟩, hrest, hparts⟩ := Option.map_eq_some_iff.mp h
          cases hparts
          obtain ⟨rfl, hsize⟩ := ih hrest
          refine ⟨rfl, ?_⟩
          rw [size_cons, ← hsize]
          omega
        · cases h
  · rintro ⟨rfl, rfl⟩
    exact split?_append before after

/-- A byte offset is inside a character of a text, after its first byte. -/
def IsInside (cs : List Char) (n : Nat) : Prop :=
  ∃ before c after, cs = before ++ c :: after ∧ size before < n ∧ n < size before + c.utf8Size

theorem isInside_cons {c : Char} {rest : List Char} {n : Nat} :
    IsInside (c :: rest) n ↔
      0 < n ∧ n < c.utf8Size ∨ c.utf8Size ≤ n ∧ IsInside rest (n - c.utf8Size) := by
  constructor
  · rintro ⟨before, d, after, hcs, hlow, hhigh⟩
    cases before with
    | nil =>
      cases hcs
      exact .inl ⟨hlow, by simpa [size] using hhigh⟩
    | cons first before =>
      cases hcs
      rw [size_cons] at hlow hhigh
      exact .inr ⟨by omega, before, d, after, rfl, by omega, by omega⟩
  · rintro (⟨hlow, hhigh⟩ | ⟨hfits, before, d, after, rfl, hlow, hhigh⟩)
    · exact ⟨[], c, rest, rfl, hlow, by simpa [size] using hhigh⟩
    · refine ⟨c :: before, d, after, rfl, ?_, ?_⟩
      · rw [size_cons]
        omega
      · rw [size_cons]
        omega

/-- A text cannot be cut beyond its end, nor inside a character. -/
theorem split?_eq_none_iff {n : Nat} {cs : List Char} :
    split? n cs = none ↔ size cs < n ∨ IsInside cs n := by
  induction cs generalizing n with
  | nil =>
    cases n with
    | zero => simp [split?, size, IsInside]
    | succ n => simp [split?, size]
  | cons c rest ih =>
    have hpos := c.utf8Size_pos
    rw [isInside_cons, size_cons]
    cases n with
    | zero =>
      have hneither : ¬c.utf8Size ≤ 0 := Nat.not_le_of_lt hpos
      simp [split?, hneither]
    | succ n =>
      rw [split?]
      split
      · rename_i hfits
        have hpast : size rest < n + 1 - c.utf8Size ↔ c.utf8Size + size rest < n + 1 := by omega
        rw [Option.map_eq_none_iff, ih, hpast]
        simp [hfits, Nat.not_lt.mpr hfits]
      · rename_i hlong
        -- the text has a character that the offset is inside of
        simp [hlong, Nat.lt_of_not_le hlong]

/-! ## Reading bytes -/

theorem length_first (b : UInt8) : (first b).1.length + (first b).2.toList.length ≤ 1 := by
  simp only [first]
  split_ifs <;> simp

theorem length_next (p : Begun) (b : UInt8) :
    (next p b).1.length + (next p b).2.toList.length ≤ 2 := by
  have hfirst := length_first b
  simp only [next]
  split_ifs
  · simp
  · simp
  · simp only [List.length_cons]
    omega

/-- Every part takes a byte of its own, or is the character that was begun. -/
theorem length_piecesFrom (begun : Option Begun) (bytes : List UInt8) :
    (piecesFrom begun bytes).length ≤ bytes.length + begun.toList.length := by
  -- a character that was begun counts until it is a part
  induction bytes generalizing begun with
  | nil =>
    cases begun with
    | none => simp [piecesFrom]
    | some p => simp [piecesFrom]
  | cons b rest ih =>
    cases begun with
    | none =>
      have hfirst := length_first b
      have hrest := ih (first b).2
      simp only [piecesFrom, List.length_append, List.length_cons, Option.toList_none,
        List.length_nil]
      omega
    | some p =>
      have hnext := length_next p b
      have hrest := ih (next p b).2
      simp only [piecesFrom, List.length_append, List.length_cons, Option.toList_some,
        List.length_nil]
      omega

theorem length_ofPieces {index : Nat} {parts : List Piece} {cs : List Char}
    (h : ofPieces index parts = .ok cs) : cs.length = parts.length := by
  induction parts generalizing index cs with
  | nil =>
    cases h
    rfl
  | cons part rest ih =>
    cases part with
    | char c =>
      rw [ofPieces] at h
      cases hrest : ofPieces (index + c.utf8Size) rest with
      | ok tail =>
        rw [hrest] at h
        cases h
        rw [List.length_cons, List.length_cons, ih hrest]
      | error fault =>
        rw [hrest] at h
        cases h
    | malformed n => cases h
    | truncated n => cases h

/-- A text has no more characters than bytes. -/
theorem length_decode? {bytes : List UInt8} {text : String} (h : decode? bytes = .ok text) :
    text.toList.length ≤ bytes.length := by
  have hpieces := length_piecesFrom none bytes
  rw [decode?] at h
  cases hchars : ofPieces 0 (pieces bytes) with
  | ok cs =>
    rw [hchars] at h
    cases h
    rw [String.toList_ofList, length_ofPieces hchars]
    exact hpieces
  | error fault =>
    rw [hchars] at h
    cases h

/-! ## The bytes of a text -/

theorem toList_loop (bytes : ByteArray) (i : Nat) (front : List UInt8) :
    ByteArray.toList.loop bytes i front = front.reverse ++ bytes.data.toList.drop i := by
  induction hleft : bytes.size - i generalizing i front with
  | zero =>
    have hdone : ¬i < bytes.size := by omega
    have hdrop : bytes.data.toList.drop i = [] := List.drop_eq_nil_of_le (Nat.le_of_not_lt hdone)
    rw [ByteArray.toList.loop, if_neg hdone, hdrop, List.append_nil]
  | succ n ih =>
    have hmore : i < bytes.size := by omega
    have hlength : i < bytes.data.toList.length := hmore
    have hget : bytes.get! i = bytes.data.toList[i] := by simp [ByteArray.get!, hmore]
    rw [ByteArray.toList.loop, if_pos hmore, ih (i + 1) _ (by omega), hget, List.reverse_cons,
      List.append_assoc, List.singleton_append, List.getElem_cons_drop]

theorem encode_eq (s : String) : encode s = s.toList.flatMap String.utf8EncodeChar := by
  have hbytes : s.toUTF8 = (s.toList.flatMap String.utf8EncodeChar).toByteArray := by
    rw [String.toUTF8_eq_toByteArray, ← String.utf8Encode_toList, List.utf8Encode]
  rw [encode, hbytes, ByteArray.toList, toList_loop, List.toList_data_toByteArray]
  rfl

/-! ## The order of texts -/

/-- The bytes of two characters are in the order of the characters, whatever follows. -/
theorem utf8EncodeChar_lt {c d : Char} (h : c < d) (cs ds : List UInt8) :
    String.utf8EncodeChar c ++ cs < String.utf8EncodeChar d ++ ds := by
  have hlt : c.val.toNat < d.val.toNat := h
  have hd : d.val.toNat < 0x110000 := by
    rcases d.valid with hvalid | hvalid
    · exact Nat.lt_trans hvalid (by decide)
    · exact hvalid.2
  unfold String.utf8EncodeChar
  generalize c.val.toNat = m at hlt
  generalize d.val.toNat = n at hlt hd
  dsimp only
  have hthird : ∀ k : Nat, k / 4096 = k / 64 / 64 := by omega
  have hfourth : ∀ k : Nat, k / 262144 = k / 64 / 64 / 64 := by omega
  have hdigit : ∀ a b : Nat, a ≤ b → a / 64 < b / 64 ∨ a / 64 = b / 64 ∧ a % 64 ≤ b % 64 := by
    omega
  have hlow := hdigit m n (Nat.le_of_lt hlt)
  have hmiddle := hdigit (m / 64) (n / 64) (by omega)
  have hhigh := hdigit (m / 64 / 64) (n / 64 / 64) (by omega)
  have hsize : UInt8.size = 256 := rfl
  simp only [hthird, hfourth]
  -- the first byte tells how many there are; of as many, the first that differs decides
  split_ifs <;>
    simp (disch := omega) only [List.cons_append, List.nil_append, List.cons_lt_cons_iff,
      UInt8.ofNat_lt_iff_lt, ← UInt8.toNat_inj, UInt8.toNat_ofNat_of_lt'] <;>
    omega

theorem flatMap_lt {a b : List Char} (h : a < b) :
    a.flatMap String.utf8EncodeChar < b.flatMap String.utf8EncodeChar := by
  induction a generalizing b with
  | nil =>
    cases b with
    | nil => cases h
    | cons d ds =>
      rw [List.flatMap_cons]
      cases hd : String.utf8EncodeChar d with
      | nil => exact absurd hd (by simp)
      | cons first bytes => exact List.nil_lt_cons first _
  | cons c cs ih =>
    cases b with
    | nil => cases h
    | cons d ds =>
      rw [List.flatMap_cons, List.flatMap_cons]
      -- the first character that differs decides, and its bytes come in its order
      rcases List.cons_lt_cons_iff.mp h with hlt | ⟨rfl, hlt⟩
      · exact utf8EncodeChar_lt hlt _ _
      · exact List.append_left_lt (ih hlt)

theorem encode_lt {s t : String} (h : s < t) : encode s < encode t := by
  rw [encode_eq, encode_eq]
  exact flatMap_lt (String.lt_iff_toList_lt.mp h)

/-- Texts are in the order of their bytes. -/
theorem encode_lt_iff {s t : String} : encode s < encode t ↔ s < t := by
  constructor
  · intro h
    rcases lt_trichotomy s t with hlt | rfl | hgt
    · exact hlt
    · exact absurd h (List.lt_irrefl _)
    · exact absurd h (List.lt_asymm (encode_lt hgt))
  · exact encode_lt

end SessionArchive.Text.Utf8
