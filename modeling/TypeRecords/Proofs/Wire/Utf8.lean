import TypeRecords.Text.Utf8

/-!
Texts and their bytes.

Owns that a text is restored from its UTF-8 bytes, and that these are the bytes of its characters
one after the other.
-/

namespace TypeRecords.Text

/-- The loop that lists the bytes of an array puts the rest of the array behind what it has. -/
theorem toListLoop_eq (bytes : ByteArray) (start : Nat) (reversed : List UInt8) :
    ByteArray.toList.loop bytes start reversed =
      reversed.reverse ++ bytes.data.toList.drop start := by
  fun_induction ByteArray.toList.loop bytes start reversed with
  | case1 start reversed inside inductionHypothesis =>
    have listed : start < bytes.data.toList.length := by simpa using inside
    have next : bytes.get! start = bytes.data.toList[start] := by
      rw [ByteArray.get!, getElem!_pos bytes.data start inside, Array.getElem_toList]
    rw [inductionHypothesis, List.reverse_cons, List.append_assoc, List.singleton_append, next,
      List.getElem_cons_drop]
  | case2 start reversed outside =>
    have passed : bytes.data.toList.length ≤ start := by simpa using outside
    rw [List.drop_eq_nil_of_le passed, List.append_nil]

theorem toList_eq (bytes : ByteArray) : bytes.toList = bytes.data.toList :=
  toListLoop_eq bytes 0 []

theorem length_utf8 (text : String) : (utf8 text).length = text.utf8ByteSize := by
  rw [utf8, toList_eq, Array.length_toList, ByteArray.size_data]
  rfl

/-- A text is restored from its bytes. -/
theorem ofUtf8?_utf8 (text : String) : ofUtf8? (utf8 text) = some text := by
  have same : (⟨(utf8 text).toArray⟩ : ByteArray) = text.toByteArray := by
    rw [utf8, toList_eq]
    rfl
  rw [ofUtf8?, same, String.fromUTF8?, dif_pos text.isValidUTF8]
  rfl

theorem utf8_append (left right : String) : utf8 (left ++ right) = utf8 left ++ utf8 right := by
  simp only [utf8, toList_eq, String.toUTF8, String.toByteArray_append,
    ByteArray.toList_data_append]

/-- The bytes of a text are those of its characters. -/
theorem utf8_ofList (characters : List Char) :
    utf8 (String.ofList characters) = characters.flatMap String.utf8EncodeChar := by
  rw [utf8, toList_eq, String.toUTF8, ← String.utf8Encode_toList, String.toList_ofList,
    List.utf8Encode]
  simp

end TypeRecords.Text
