import CallAtlas.Text.CharClass
import Mathlib.Data.List.Basic

/-!
# Classes of characters

There are few characters of whitespace, so that a class holds none of them can be decided
(`isBlank_eq_false`).  Letters and digits are ASCII characters, and of these a word holds exactly
the letters, the digits and the underscore (`isWord_eq`); a plain name may hold a dollar sign
besides.
-/

set_option autoImplicit false

namespace CallAtlas.Text

variable {c d : Char}

/-- The code points of whitespace. -/
def blankPoints : List Nat :=
  List.range' 9 5 ++ [32, 0x85, 0xA0, 0x1680] ++ List.range' 0x2000 11 ++
    [0x2028, 0x2029, 0x202F, 0x205F, 0x3000]

/-- A blank has one of the code points of whitespace. -/
theorem mem_blankPoints (h : isBlank c) : c.toNat ∈ blankPoints := by
  simp only [isBlank, Bool.or_eq_true, Bool.and_eq_true, Nat.ble_eq, beq_iff_eq] at h
  simp only [blankPoints, List.mem_append, List.mem_range'_1, List.mem_cons, List.not_mem_nil,
    or_false]
  omega

/-- A character is not blank if it passes a test that no code point of whitespace does. -/
theorem isBlank_eq_false {test : Char → Bool}
    (h : ∀ n ∈ blankPoints, test (Char.ofNat n) = false) (hc : test c) : isBlank c = false := by
  rw [← Bool.not_eq_true]
  intro hblank
  have hnot := h c.toNat (mem_blankPoints hblank)
  rw [Char.ofNat_toNat, hc] at hnot
  exact absurd hnot (by simp)

/-- Letters and digits are ASCII characters. -/
theorem toNat_lt_of_isAlphanum (h : c.isAlphanum) : c.toNat < 128 := by
  unfold Char.isAlphanum Char.isAlpha Char.isUpper Char.isLower Char.isDigit at h
  simp only [Bool.or_eq_true, Bool.and_eq_true, decide_eq_true_eq, UInt32.le_iff_toNat_le,
    ge_iff_le] at h
  change ((65 ≤ c.toNat ∧ c.toNat ≤ 90) ∨ (97 ≤ c.toNat ∧ c.toNat ≤ 122)) ∨
    (48 ≤ c.toNat ∧ c.toNat ≤ 57) at h
  omega

/-- Among the ASCII characters a word holds the letters, the digits and the underscore. -/
theorem isWord_eq (h : c.toNat < 128) : isWord c = (c.isAlphanum || c == '_') := by
  rw [isWord, if_pos h]

/-- A letter is a letter or digit. -/
theorem isAlphanum_of_isAlpha (h : c.isAlpha) : c.isAlphanum := by
  unfold Char.isAlphanum
  rw [h, Bool.true_or]

/-- Letters and digits belong to words. -/
theorem isWord_of_isAlphanum (h : c.isAlphanum) : isWord c := by
  rw [isWord_eq (toNat_lt_of_isAlphanum h), h, Bool.true_or]

/-! ## Characters of plain names -/

/-- An ASCII letter or digit, an underscore or a dollar sign. -/
def isPlainChar (c : Char) : Bool := c.isAlphanum || c == '_' || c == '$'

/-- A letter may stand in a plain name. -/
theorem isPlainChar_of_isAlpha (h : c.isAlpha) : isPlainChar c := by
  rw [isPlainChar, isAlphanum_of_isAlpha h, Bool.true_or, Bool.true_or]

/-- A character of a plain name differs from every other one. -/
theorem ne_of_isPlainChar (hc : isPlainChar c) (hd : isPlainChar d = false) : c ≠ d := by
  rintro rfl
  simp [hc] at hd

/-- The characters of plain names are ASCII characters. -/
theorem toNat_lt_of_isPlainChar (h : isPlainChar c) : c.toNat < 128 := by
  rw [isPlainChar, Bool.or_eq_true, Bool.or_eq_true, beq_iff_eq, beq_iff_eq] at h
  rcases h with (h | rfl) | rfl
  · exact toNat_lt_of_isAlphanum h
  · decide
  · decide

/-- No character of a plain name is blank. -/
theorem isBlank_of_isPlainChar (h : isPlainChar c) : isBlank c = false :=
  isBlank_eq_false (by decide +kernel) h

/-- In lower case, too, a word holds of these characters the letters, the digits and the
underscore. -/
theorem isWord_toLower_of_isPlainChar (h : isPlainChar c) :
    isWord c.toLower = (c.toLower.isAlphanum || c.toLower == '_') := by
  have hsmall : ∀ n < 128, (Char.ofNat n).toLower.toNat < 128 := by decide +kernel
  apply isWord_eq
  simpa using hsmall c.toNat (toNat_lt_of_isPlainChar h)

end CallAtlas.Text
