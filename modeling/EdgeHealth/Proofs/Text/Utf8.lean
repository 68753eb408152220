import Mathlib.Data.List.Basic
import EdgeHealth.Text.Utf8

/-!
# Texts that are sent as bytes

The bytes of a text are those of its characters, of which each has one to four. They are read back
as the same characters, whatever bytes follow.

## Main definitions

* `Text.Utf8.encode` : the bytes of a text.

## Main results

* `Text.Utf8.decodeLossy_encode` : a text is read back from its bytes.
-/

namespace EdgeHealth.Text.Utf8

/-- The bytes of a character. -/
def encodeChar (c : Char) : List Nat := (String.utf8EncodeChar c).map UInt8.toNat

/-- The bytes of a text. -/
def encode (cs : List Char) : List Nat := cs.flatMap encodeChar

/-! ### Characters of one to four bytes -/

section

variable {a b c d : Nat}

theorem decodeLossy_one (ha : a < 0x80) (rest : List Nat) :
    decodeLossy (a :: rest) = Char.ofNat a :: decodeLossy rest := by
  rw [decodeLossy.eq_def]
  exact if_pos ha

theorem decodeLossy_two (ha : 0xC2 ≤ a ∧ a ≤ 0xDF) (hb : isTail b) (rest : List Nat) :
    decodeLossy (a :: b :: rest) =
      Char.ofNat ((a - 0xC0) * 64 + (b - 0x80)) :: decodeLossy rest := by
  rw [decodeLossy.eq_def]
  dsimp only
  rw [if_neg (by omega), if_pos (by simpa using ha), if_pos hb]

theorem decodeLossy_three (ha : 0xE0 ≤ a ∧ a ≤ 0xEF) (hb : secondOk a b) (hc : isTail c)
    (rest : List Nat) :
    decodeLossy (a :: b :: c :: rest) =
      Char.ofNat ((a - 0xE0) * 4096 + (b - 0x80) * 64 + (c - 0x80)) :: decodeLossy rest := by
  have htwo : ¬ (decide (0xC2 ≤ a) && decide (a ≤ 0xDF)) = true := by
    simp only [Bool.and_eq_true, decide_eq_true_eq]
    omega
  rw [decodeLossy.eq_def]
  dsimp only
  rw [if_neg (by omega), if_neg htwo, if_pos (by simpa using ha), if_pos hb, if_pos hc]

theorem decodeLossy_four (ha : 0xF0 ≤ a ∧ a ≤ 0xF4) (hb : secondOk a b) (hc : isTail c)
    (hd : isTail d) (rest : List Nat) :
    decodeLossy (a :: b :: c :: d :: rest) =
      Char.ofNat ((a - 0xF0) * 262144 + (b - 0x80) * 4096 + (c - 0x80) * 64 + (d - 0x80)) ::
        decodeLossy rest := by
  have htwo : ¬ (decide (0xC2 ≤ a) && decide (a ≤ 0xDF)) = true := by
    simp only [Bool.and_eq_true, decide_eq_true_eq]
    omega
  have hthree : ¬ (decide (0xE0 ≤ a) && decide (a ≤ 0xEF)) = true := by
    simp only [Bool.and_eq_true, decide_eq_true_eq]
    omega
  rw [decodeLossy.eq_def]
  dsimp only
  rw [if_neg (by omega), if_neg htwo, if_neg hthree, if_pos (by simpa using ha), if_pos hb,
    if_pos hc, if_pos hd]

end

/-- The last six bits of a number make a byte that follows the first one. -/
theorem isTail_mod (n : Nat) : isTail (n % 64 + 128) := by
  simp only [isTail, Bool.and_eq_true, decide_eq_true_eq]
  omega

/-- The second byte of a character of three or four bytes fits to the first one: a character that
takes no fewer bytes and is no surrogate has no other. -/
theorem secondOk_of_range {first second : Nat} (htail : 0x80 ≤ second ∧ second ≤ 0xBF)
    (hE0 : first = 0xE0 → 0xA0 ≤ second) (hED : first = 0xED → second ≤ 0x9F)
    (hF0 : first = 0xF0 → 0x90 ≤ second) (hF4 : first = 0xF4 → second ≤ 0x8F) :
    secondOk first second := by
  simp only [secondOk, isTail]
  split_ifs with h h h h
  all_goals
    simp only [Bool.and_eq_true, decide_eq_true_eq]
    omega

/-! ### Texts -/

/-- The bytes of a character are read as that character, whatever follows. -/
theorem decodeLossy_encodeChar_append (c : Char) (rest : List Nat) :
    decodeLossy (encodeChar c ++ rest) = c :: decodeLossy rest := by
  have hvalid : c.toNat < 0xD800 ∨ 0xDFFF < c.toNat ∧ c.toNat < 0x110000 := c.valid
  have hback {n : Nat} (h : n = c.toNat) : Char.ofNat n = c := by rw [h, Char.ofNat_toNat]
  have hlast (n : Nat) : (n % 64 + 128) % 2 ^ 8 = n % 64 + 128 := by omega
  rw [encodeChar, String.utf8EncodeChar]
  simp only [Char.toNat_val]
  split_ifs with hone htwo hthree
  all_goals
    simp only [List.map_cons, List.map_nil, UInt8.toNat_ofNat', List.cons_append, List.nil_append,
      hlast]
  · rw [decodeLossy_one (by omega), hback (by omega)]
  · rw [decodeLossy_two (by omega) (isTail_mod _), hback (by omega)]
  · have hfirst : (c.toNat / 4096 % 16 + 224) % 2 ^ 8 = c.toNat / 4096 + 224 := by omega
    -- A character below 0x800 would take two bytes, and a surrogate would start with 0xED.
    have hsecond : secondOk (c.toNat / 4096 + 224) (c.toNat / 64 % 64 + 128) := by
      refine secondOk_of_range ⟨?_, ?_⟩ ?_ ?_ ?_ ?_ <;> omega
    rw [hfirst, decodeLossy_three (by omega) hsecond (isTail_mod _), hback (by omega)]
  · have hfirst : (c.toNat / 262144 % 8 + 240) % 2 ^ 8 = c.toNat / 262144 + 240 := by omega
    -- A character below 0x10000 would take three bytes, and there is none from 0x110000 on.
    have hsecond : secondOk (c.toNat / 262144 + 240) (c.toNat / 4096 % 64 + 128) := by
      refine secondOk_of_range ⟨?_, ?_⟩ ?_ ?_ ?_ ?_ <;> omega
    rw [hfirst, decodeLossy_four (by omega) hsecond (isTail_mod _) (isTail_mod _),
      hback (by omega)]

/-- **A text is read back from its bytes.** -/
theorem decodeLossy_encode (cs : List Char) : decodeLossy (encode cs) = cs := by
  induction cs with
  | nil => rw [encode, List.flatMap_nil, decodeLossy]
  | cons c cs ih => rw [encode, List.flatMap_cons, decodeLossy_encodeChar_append, ← encode, ih]

end EdgeHealth.Text.Utf8
