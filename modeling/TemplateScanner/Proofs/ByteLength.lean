import Mathlib.Algebra.GroupWithZero.Nat
import TemplateScanner.Cursor

namespace TemplateScanner

/-- The number of bytes of a list of characters. -/
def byteLength (text : List Char) : Nat :=
  (text.map Char.utf8Size).sum

@[simp] theorem byteLength_nil : byteLength [] = 0 := rfl

@[simp] theorem byteLength_cons (c : Char) (text : List Char) :
    byteLength (c :: text) = c.utf8Size + byteLength text := by
  simp [byteLength]

@[simp] theorem byteLength_append (before after : List Char) :
    byteLength (before ++ after) = byteLength before + byteLength after := by
  simp [byteLength]

theorem length_le_byteLength (text : List Char) : text.length ≤ byteLength text := by
  induction text with
  | nil => simp
  | cons c text ih =>
    have := c.utf8Size_pos
    simp only [List.length_cons, byteLength_cons]
    omega

@[simp] theorem size_utf8Encode (text : List Char) : text.utf8Encode.size = byteLength text := by
  induction text with
  | nil => simp
  | cons c text ih =>
    rw [List.utf8Encode_cons, ByteArray.size_append, ih, List.utf8Encode_singleton]
    simp

theorem fromUTF8?_utf8Encode (text : List Char) :
    String.fromUTF8? text.utf8Encode = some (String.ofList text) := by
  have valid : text.utf8Encode.IsValidUTF8 := ByteArray.isValidUTF8_utf8Encode
  rw [String.fromUTF8?, dif_pos valid]
  rfl

theorem charWidth_pos (lead : UInt8) : 0 < charWidth lead := by
  unfold charWidth
  grind

theorem charWidth_eq_utf8ByteSize (lead : UInt8) (first : lead.IsUTF8FirstByte) :
    charWidth lead = lead.utf8ByteSize first := by
  have all : ∀ bits : BitVec 8, ∀ first : (UInt8.ofBitVec bits).IsUTF8FirstByte,
      charWidth (UInt8.ofBitVec bits) = (UInt8.ofBitVec bits).utf8ByteSize first := by
    decide +kernel
  exact all lead.toBitVec first

/-- The byte at which a character begins tells how many bytes the character has. -/
theorem checkedByte_utf8Encode (before after : List Char) (c : Char) (beyond : ByteArray) :
    ∃ lead, checkedByte ((before ++ c :: after).utf8Encode ++ beyond) (byteLength before) =
      .ok lead ∧ charWidth lead = c.utf8Size := by
  have inside : byteLength before < ((before ++ c :: after).utf8Encode ++ beyond).size := by
    have := c.utf8Size_pos
    simp only [ByteArray.size_append, size_utf8Encode, byteLength_append, byteLength_cons]
    omega
  have filled : 0 < (String.utf8EncodeChar c).length := by simp [c.utf8Size_pos]
  refine ⟨(String.utf8EncodeChar c)[0], ?_, ?_⟩
  · have split : (before ++ c :: after).utf8Encode ++ beyond = before.utf8Encode ++
        ((String.utf8EncodeChar c).toByteArray ++ (after.utf8Encode ++ beyond)) := by
      rw [List.utf8Encode_append, List.utf8Encode_cons, List.utf8Encode_singleton]
      simp only [ByteArray.append_assoc]
    rw [checkedByte, dif_pos inside]
    simp only [split]
    rw [ByteArray.getElem_append_right (by simp),
      ByteArray.getElem_append_left (by simp [c.utf8Size_pos])]
    simp
  · have decoded := ByteArray.utf8Size_utf8DecodeChar (b := [c].utf8Encode) (i := 0)
      (h := by rw [List.utf8DecodeChar?_utf8Encode_cons]; rfl)
    rw [List.utf8DecodeChar_utf8Encode_cons, ← charWidth_eq_utf8ByteSize] at decoded
    rw [decoded]
    simp [List.utf8Encode_singleton]

/-- The bytes of a piece of a text are a slice of the text's bytes, whatever follows the text. -/
theorem extract_utf8Encode (before piece after : List Char) (beyond : ByteArray) :
    ((before ++ piece ++ after).utf8Encode ++ beyond).extract (byteLength before)
      (byteLength (before ++ piece)) = piece.utf8Encode := by
  have start : byteLength before = before.utf8Encode.size + 0 := by simp
  have stop : byteLength (before ++ piece) = before.utf8Encode.size + byteLength piece := by simp
  rw [List.append_assoc, List.utf8Encode_append, List.utf8Encode_append, ByteArray.append_assoc,
    ByteArray.append_assoc, start, stop, ByteArray.extract_append_size_add,
    ByteArray.extract_append_eq_left (by simp)]

theorem checkedSlice_utf8Encode (before piece after : List Char) (beyond : ByteArray) :
    checkedSlice ((before ++ piece ++ after).utf8Encode ++ beyond) (byteLength before)
      (byteLength (before ++ piece)) = .ok piece.utf8Encode := by
  have fits : byteLength before ≤ byteLength (before ++ piece) ∧ byteLength (before ++ piece) ≤
      ((before ++ piece ++ after).utf8Encode ++ beyond).size := by
    simp only [ByteArray.size_append, size_utf8Encode, byteLength_append]
    omega
  rw [checkedSlice, if_pos fits, extract_utf8Encode]

end TemplateScanner
