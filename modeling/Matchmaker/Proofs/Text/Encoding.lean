import Matchmaker.Text.Utf8

/-!
# Characters written as bytes

Reading the bytes of a text gives its characters back, and nothing but characters.  Bytes in front of
a text do not matter to reading from its first byte on, so the induction is over the text behind any
such bytes.
-/

namespace Matchmaker.Text

theorem utf8DecodeChar?_append_cons (b : ByteArray) (c : Char) (s : List Char) :
    (b ++ (c :: s).utf8Encode).utf8DecodeChar? b.size = some c := by
  rw [ByteArray.utf8DecodeChar?_eq_utf8DecodeChar?_extract,
    ByteArray.extract_append_eq_right rfl ByteArray.size_append]
  exact List.utf8DecodeChar?_utf8Encode_cons

theorem size_utf8Encode_singleton (c : Char) : [c].utf8Encode.size = c.utf8Size := by
  rw [List.utf8Encode_singleton, List.size_toByteArray, String.length_utf8EncodeChar]

theorem charsFrom_append (b : ByteArray) (s : List Char) :
    charsFrom (b ++ s.utf8Encode) b.size = s.map some := by
  induction s generalizing b with
  | nil => exact charsFrom_of_le (by simp)
  | cons c s ih =>
    have hlt : b.size < (b ++ (c :: s).utf8Encode).size :=
      ByteArray.lt_size_of_isSome_utf8DecodeChar? (by rw [utf8DecodeChar?_append_cons]; rfl)
    rw [charsFrom_of_some hlt (utf8DecodeChar?_append_cons b c s), List.utf8Encode_cons,
      ← ByteArray.append_assoc, ← size_utf8Encode_singleton, ← ByteArray.size_append, ih]
    rfl

/-- The characters of the bytes of a text are the characters of the text. -/
theorem chars_toUTF8 (s : String) : chars s.toUTF8 = s.toList.map some := by
  have h := charsFrom_append ByteArray.empty s.toList
  rw [String.utf8Encode_toList, ByteArray.empty_append] at h
  exact h

end Matchmaker.Text
