import CodeAudit.Text.Basic

/-!
# The bytes of a text

A key is a digest of bytes, and what it tells apart is a matter of texts.  Texts are written as bytes
one after the other (`byteList_append`), and **different texts have different bytes**
(`byteList_inj`).

Offsets into a text count its bytes (`length_bytes`).  Each character has bytes of its own
(`exists_char_at`), and **the byte of a line feed is part of no other character**
(`feed_mem_utf8EncodeChar`), so that lines can be counted in bytes (`count_feed_bytes`).
-/

namespace CodeAudit.Text

/-- The bytes are taken off one by one. -/
theorem byteList_loop_eq (bs : ByteArray) (i : Nat) (taken : List UInt8) :
    ByteArray.toList.loop bs i taken = taken.reverse ++ bs.data.toList.drop i := by
  fun_induction ByteArray.toList.loop bs i taken with
  | case1 i taken hlt ih =>
    have hlt' : i < bs.data.toList.length := by simpa using hlt
    have hget : bs.get! i = bs.data.toList[i] := by
      rw [ByteArray.get!, getElem!_pos bs.data i hlt, Array.getElem_toList]
    rw [ih, List.drop_eq_getElem_cons hlt', hget]
    simp
  | case2 i taken hge =>
    rw [List.drop_eq_nil_of_le, List.append_nil]
    simpa using hge

theorem byteList_append (s t : String) :
    (s ++ t).toUTF8.toList = s.toUTF8.toList ++ t.toUTF8.toList := by
  unfold ByteArray.toList
  simp [byteList_loop_eq, String.toByteArray_append]

theorem byteList_inj {s t : String} (h : s.toUTF8.toList = t.toUTF8.toList) : s = t := by
  unfold ByteArray.toList at h
  simp only [byteList_loop_eq, List.reverse_nil, List.nil_append, List.drop_zero,
    String.toUTF8_eq_toByteArray] at h
  exact String.toByteArray_inj.mp (ByteArray.ext (Array.toList_inj.mp h))

/-! ## Bytes of characters -/

/-- The bytes of a text that is held as characters. -/
def bytes (s : List Char) : List UInt8 := (String.ofList s).toUTF8.toList

/-- The byte of a line feed. -/
def feed : UInt8 := 10

theorem bytes_eq_flatMap (s : List Char) : bytes s = s.flatMap String.utf8EncodeChar := by
  unfold bytes ByteArray.toList
  rw [byteList_loop_eq, String.toUTF8_eq_toByteArray, String.toByteArray_ofList]
  simp [List.utf8Encode]

@[simp] theorem bytes_nil : bytes [] = [] := bytes_eq_flatMap []

@[simp] theorem bytes_cons (c : Char) (s : List Char) :
    bytes (c :: s) = String.utf8EncodeChar c ++ bytes s := by
  simp [bytes_eq_flatMap]

@[simp] theorem bytes_append (s t : List Char) : bytes (s ++ t) = bytes s ++ bytes t := by
  simp [bytes_eq_flatMap]

@[simp] theorem length_bytes (s : List Char) : (bytes s).length = utf8Length s := by
  induction s with
  | nil => simp
  | cons c s ih => simp [ih]

/-- **The byte of a line feed is part of no other character.** -/
theorem feed_mem_utf8EncodeChar {c : Char} : feed ∈ String.utf8EncodeChar c ↔ c = '\n' := by
  have hbyte : ∀ n < 256, feed = UInt8.ofNat n → n = 10 := by
    intro n hn h
    have htoNat := congrArg UInt8.toNat h
    rw [UInt8.toNat_ofNat_of_lt' hn] at htoNat
    exact htoNat.symm
  constructor
  · intro h
    simp only [String.utf8EncodeChar] at h
    -- a character of one byte is its byte; the bytes of a longer one are 128 or more
    split at h
    · have hval := hbyte _ (by omega) (List.mem_singleton.mp h)
      exact Char.ext (UInt32.toNat_inj.mp hval)
    · exfalso
      split at h
      · simp only [List.mem_cons, List.not_mem_nil, or_false] at h
        rcases h with h | h <;> have := hbyte _ (by omega) h <;> omega
      · split at h
        · simp only [List.mem_cons, List.not_mem_nil, or_false] at h
          rcases h with h | h | h <;> have := hbyte _ (by omega) h <;> omega
        · simp only [List.mem_cons, List.not_mem_nil, or_false] at h
          rcases h with h | h | h | h <;> have := hbyte _ (by omega) h <;> omega
  · rintro rfl
    decide

theorem feed_mem_bytes {s : List Char} : feed ∈ bytes s ↔ '\n' ∈ s := by
  simp only [bytes_eq_flatMap, List.mem_flatMap, feed_mem_utf8EncodeChar, exists_eq_right]

/-- Line feeds can be counted in bytes. -/
theorem count_feed_bytes (s : List Char) : (bytes s).count feed = s.count '\n' := by
  induction s with
  | nil => simp
  | cons c s ih =>
    rw [bytes_cons, List.count_append, ih]
    by_cases hc : c = '\n'
    · have hone : (String.utf8EncodeChar '\n').count feed = 1 := by decide
      rw [hc, hone, List.count_cons_self, Nat.add_comm]
    · have hnone : feed ∉ String.utf8EncodeChar c := fun h => hc (feed_mem_utf8EncodeChar.mp h)
      rw [List.count_cons_of_ne hc, List.count_eq_zero.mpr hnone, Nat.zero_add]

/-- Each byte is one of a character. -/
theorem exists_char_at {s : List Char} {offset : Nat} (h : offset < (bytes s).length) :
    ∃ before c after, s = before ++ c :: after ∧ utf8Length before ≤ offset ∧
      offset < utf8Length before + c.utf8Size := by
  induction s generalizing offset with
  | nil => simp at h
  | cons c s ih =>
    rcases Nat.lt_or_ge offset c.utf8Size with hfirst | hlater
    · exact ⟨[], c, s, rfl, Nat.zero_le _, by simpa using hfirst⟩
    · rw [length_bytes, utf8Length_cons] at h
      obtain ⟨before, d, after, rfl, hle, hlt⟩ := @ih (offset - c.utf8Size) (by rw [length_bytes]; omega)
      refine ⟨c :: before, d, after, rfl, ?_, ?_⟩ <;> rw [utf8Length_cons] <;> omega

end CodeAudit.Text
