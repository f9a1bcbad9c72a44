import CallAtlas.Glob.Matching
import Mathlib.Data.List.Basic

/-!
# Bytes of a text

The bytes of a text are those of its characters, one after the other (`bytes_eq`), and no two texts
have the same bytes (`encoded_injective`).  An ASCII character has a single byte, which is found in
no other character.  So where that byte stands among the bytes of a text, the character stands in
the text, and the text is cut there as its bytes are (`exists_append_of_encoded`).
-/

set_option autoImplicit false

namespace CallAtlas.Glob

variable {c d : Char} {cs : List Char}

/-- The bytes of characters, one after the other. -/
def encoded (cs : List Char) : List UInt8 :=
  cs.flatMap String.utf8EncodeChar

/-- The bytes of two texts follow each other. -/
theorem encoded_append (cs ds : List Char) : encoded (cs ++ ds) = encoded cs ++ encoded ds :=
  List.flatMap_append

/-- The two lists of the bytes of a file are the same. -/
theorem toList_eq_data_toList (content : ByteArray) : content.toList = content.data.toList := by
  have hloop : ∀ i done, ByteArray.toList.loop content i done =
      done.reverse ++ content.data.toList.drop i := by
    intro i done
    fun_induction ByteArray.toList.loop content i done with
    | case1 i done hi ih =>
      have hlt : i < content.data.toList.length := by simpa using hi
      rw [ih, List.drop_eq_getElem_cons hlt]
      simp [ByteArray.get!, hi]
    | case2 i done hi =>
      have hle : content.data.toList.length ≤ i := by simpa using hi
      rw [List.drop_eq_nil_of_le hle, List.append_nil]
  exact hloop 0 []

/-- The bytes of a text are those of its characters. -/
theorem bytes_eq (s : String) : bytes s = encoded s.toList := by
  have hbytes : s.toUTF8 = (encoded s.toList).toByteArray := String.utf8Encode_toList.symm
  rw [bytes, hbytes, toList_eq_data_toList, List.toList_data_toByteArray]

/-- Different texts have different bytes. -/
theorem encoded_injective : Function.Injective encoded := by
  intro cs ds h
  have hbytes : (String.ofList cs).toByteArray = (String.ofList ds).toByteArray := by
    rw [String.toByteArray_ofList, String.toByteArray_ofList]
    exact congrArg List.toByteArray h
  exact String.ofList_inj.mp (String.toByteArray_inj.mp hbytes)

/-! ## ASCII characters -/

/-- An ASCII character is one byte. -/
theorem utf8EncodeChar_of_ascii (h : c.toNat < 128) :
    String.utf8EncodeChar c = [UInt8.ofNat c.toNat] := by
  have hsmall : c.val.toNat ≤ 0x7f := Nat.le_of_lt_succ h
  rw [String.utf8EncodeChar, if_pos hsmall]
  rfl

/-- All bytes of a character that is not ASCII are above those of ASCII. -/
theorem le_of_mem_utf8EncodeChar (h : 128 ≤ d.toNat) {b : UInt8}
    (hb : b ∈ String.utf8EncodeChar d) : 128 ≤ b.toNat := by
  have hlarge : ¬d.val.toNat ≤ 0x7f := Nat.not_le_of_lt h
  rw [String.utf8EncodeChar, if_neg hlarge] at hb
  split_ifs at hb <;>
  · simp only [List.mem_cons, List.not_mem_nil, or_false] at hb
    rcases hb with rfl | rfl | rfl | rfl <;>
    · rw [UInt8.toNat_ofNat']
      omega

/-- The byte of an ASCII character is in no other character. -/
theorem not_mem_utf8EncodeChar (hc : c.toNat < 128) (hne : d ≠ c) :
    UInt8.ofNat c.toNat ∉ String.utf8EncodeChar d := by
  intro hmem
  have hbyte : (UInt8.ofNat c.toNat).toNat = c.toNat := by
    rw [UInt8.toNat_ofNat']
    omega
  by_cases hd : d.toNat < 128
  · rw [utf8EncodeChar_of_ascii hd, List.mem_singleton] at hmem
    have hnat : c.toNat = d.toNat := by
      rw [← hbyte, hmem, UInt8.toNat_ofNat']
      omega
    exact hne (Char.toNat_inj.mp hnat.symm)
  · have hle := le_of_mem_utf8EncodeChar (Nat.le_of_not_lt hd) hmem
    omega

/-- Where the byte of an ASCII character stands, the text is cut at that character. -/
theorem exists_append_of_encoded (hc : c.toNat < 128) {front back : List UInt8}
    (h : encoded cs = front ++ UInt8.ofNat c.toNat :: back) :
    ∃ before after, cs = before ++ c :: after ∧ encoded before = front ∧ encoded after = back := by
  induction cs generalizing front with
  | nil => exact absurd h.symm (List.append_ne_nil_of_right_ne_nil _ (List.cons_ne_nil _ _))
  | cons d cs ih =>
    have hcons : encoded (d :: cs) = String.utf8EncodeChar d ++ encoded cs := List.flatMap_cons
    rw [hcons] at h
    by_cases hd : d = c
    · subst hd
      rw [utf8EncodeChar_of_ascii hc] at h
      cases front with
      | nil => exact ⟨[], cs, rfl, rfl, (List.cons.inj h).2⟩
      | cons b front =>
        obtain ⟨rfl, hrest⟩ := List.cons.inj h
        obtain ⟨before, after, rfl, rfl, hafter⟩ := ih hrest
        refine ⟨d :: before, after, rfl, ?_, hafter⟩
        rw [encoded, List.flatMap_cons, utf8EncodeChar_of_ascii hc]
        rfl
    · -- The byte is none of this character, so it stands behind all of them.
      obtain ⟨more, rfl, hrest⟩ : ∃ more, front = String.utf8EncodeChar d ++ more ∧
          encoded cs = more ++ UInt8.ofNat c.toNat :: back := by
        rcases List.append_eq_append_iff.mp h with ⟨more, hfront, hrest⟩ | ⟨more, hchar, hrest⟩
        · exact ⟨more, hfront, hrest⟩
        · cases more with
          | nil => exact ⟨[], by simpa using hchar.symm, hrest.symm⟩
          | cons b more =>
            obtain ⟨rfl, -⟩ := List.cons.inj hrest
            exact absurd (hchar ▸ List.mem_append_right front List.mem_cons_self)
              (not_mem_utf8EncodeChar hc hd)
      obtain ⟨before, after, rfl, rfl, hafter⟩ := ih hrest
      exact ⟨d :: before, after, rfl, List.flatMap_cons, hafter⟩

end CallAtlas.Glob
