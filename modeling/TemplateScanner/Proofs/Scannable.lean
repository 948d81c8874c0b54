import TemplateScanner.Proofs.ByteLength
import TemplateScanner.Proofs.Checked

namespace TemplateScanner

theorem extract_eq_self {bytes : ByteArray} {stop : Nat} (fits : bytes.size ≤ stop) :
    bytes.extract 0 stop = bytes := by
  have whole := ByteArray.extract_zero_max_size (a := bytes) (i := stop)
  rwa [Nat.max_eq_left fits] at whole

/-- The part of a text that offsets reach, which is all of it unless it is longer than an offset
can say. -/
def scannable (text : String) : String :=
  (String.fromUTF8? (text.toUTF8.extract 0 (offsetLimit - 1))).getD ""

theorem utf8Encode_scannable {text : String}
    (valid : (text.toUTF8.extract 0 (offsetLimit - 1)).IsValidUTF8) :
    (scannable text).toList.utf8Encode = text.toUTF8.extract 0 (offsetLimit - 1) := by
  rw [scannable, String.fromUTF8?, dif_pos valid, ← String.toByteArray_ofList, String.ofList_toList]
  rfl

theorem scannable_of_lt {text : String} (fits : text.utf8ByteSize < offsetLimit) :
    scannable text = text := by
  have whole : text.toUTF8.extract 0 (offsetLimit - 1) = text.toUTF8 :=
    extract_eq_self (by simp only [String.toUTF8_eq_toByteArray, String.size_toByteArray]; omega)
  have valid : (text.toUTF8.extract 0 (offsetLimit - 1)).IsValidUTF8 := by
    rw [whole]
    exact text.isValidUTF8
  have bytes := utf8Encode_scannable valid
  rw [whole, ← String.toByteArray_ofList, String.ofList_toList] at bytes
  exact String.toByteArray_inj.mp bytes

/-- The bytes to scan are those of a text, and a zero byte follows them. -/
structure Source.Holds (source : Source) (text : List Char) : Prop where
  bytes : source.bytes = text.utf8Encode
  ended : source.buffer.data[source.length]? = some 0
  short : source.length < offsetLimit

namespace Source.Holds

variable {source : Source} {text : List Char}

theorem length_lt_size (holds : source.Holds text) : source.length < source.buffer.size :=
  (Array.getElem?_eq_some_iff.mp holds.ended).1

theorem length_eq (holds : source.Holds text) : source.length = byteLength text := by
  have inside := holds.length_lt_size
  have size := congrArg ByteArray.size holds.bytes
  simp only [Source.bytes, ByteArray.size_extract, size_utf8Encode] at size
  omega

theorem length_lt (holds : source.Holds text) : text.length < offsetLimit := by
  have := length_le_byteLength text
  have := holds.length_eq
  have := holds.short
  omega

/-- The zero byte reads as U+0000, so that the end of the text needs no case of its own. -/
theorem buffer_eq (holds : source.Holds text) :
    ∃ beyond, source.buffer = (text ++ ['\x00']).utf8Encode ++ beyond := by
  have inside : source.length + 1 ≤ source.buffer.size := holds.length_lt_size
  have value := (Array.getElem?_eq_some_iff.mp holds.ended).2
  have zero : source.buffer.extract source.length (source.length + 1) = ['\x00'].utf8Encode := by
    rw [ByteArray.extract_add_one inside, ByteArray.getElem_eq_getElem_data, value,
      List.utf8Encode_singleton]
    rfl
  refine ⟨source.buffer.extract (source.length + 1) source.buffer.size, ?_⟩
  rw [List.utf8Encode_append, ← holds.bytes, ← zero, Source.bytes,
    ← ByteArray.extract_eq_extract_append_extract _ (by omega) (by omega),
    ← ByteArray.extract_eq_extract_append_extract _ (by omega) inside, ByteArray.extract_zero_size]

end Source.Holds

/-- A reader at the start of a text. -/
def Cursor.ofText (text : String) : Except Fault Cursor := do
  let source ← Source.ofText text
  source.cursor

/-- A reader of a source at an offset, where a scan begins. -/
def Source.startAt (source : Source) (offset : Nat) : Cursor :=
  { source := source
    scanStart := offset
    tokenStart := offset
    position := offset
    committed := none
    significant := false }

theorem Source.ofText_shape {text : String} {source : Source}
    (made : Source.ofText text = .ok source) : source.buffer = text.toUTF8.push 0 ∧
      source.length = min text.toUTF8.size (offsetLimit - 1) := by
  unfold Source.ofText at made
  obtain ⟨later, _, made⟩ := bind_eq_ok_iff.mp made
  cases Except.ok.inj made
  exact ⟨rfl, rfl⟩

theorem Source.length_le_ofText {text : String} {source : Source}
    (made : Source.ofText text = .ok source) : source.length ≤ text.utf8ByteSize := by
  obtain ⟨_, length⟩ := Source.ofText_shape made
  rw [length]
  exact Nat.min_le_left _ _

theorem Source.source_of_cursor {source : Source} {cursor : Cursor}
    (started : source.cursor = .ok cursor) : cursor.source = source := by
  unfold Source.cursor at started
  split at started
  next =>
    cases Except.ok.inj started
    rfl
  next => cases started

theorem Source.bytes_ofText {text : String} {source : Source}
    (made : Source.ofText text = .ok source) :
    source.bytes = text.toUTF8.extract 0 (offsetLimit - 1) := by
  obtain ⟨buffer, length⟩ := Source.ofText_shape made
  rw [Source.bytes, buffer, length, ← ByteArray.append_toByteArray_singleton,
    ByteArray.extract_append, Nat.sub_eq_zero_of_le (Nat.min_le_left _ _), Nat.zero_sub,
    ByteArray.extract_same, ByteArray.append_empty]
  rcases Nat.le_total text.toUTF8.size (offsetLimit - 1) with fits | cut
  · rw [Nat.min_eq_left fits, extract_eq_self fits, extract_eq_self (Nat.le_refl _)]
  · rw [Nat.min_eq_right cut]

/-- No character but U+0000 has a zero byte, so that a text can be cut before one. -/
theorem isValidUTF8_extract_of_zero {text : String} {offset : Nat}
    (zero : text.toUTF8.data[offset]? = some 0) : (text.toUTF8.extract 0 offset).IsValidUTF8 := by
  obtain ⟨inside, value⟩ := Array.getElem?_eq_some_iff.mp zero
  have byte : text.getUTF8Byte ⟨offset⟩ inside = 0 := value
  have valid : String.Pos.Raw.IsValid text ⟨offset⟩ := by
    refine String.Pos.Raw.isValid_iff_isUTF8FirstByte.mpr (.inr ⟨inside, ?_⟩)
    rw [byte]
    decide
  exact (String.Pos.Raw.isValid_iff_isValidUTF8_extract_zero.mp valid).2

/-- A reader at the start of a text reads what offsets reach of it. -/
theorem Cursor.ofText_holds {text : String} {cursor : Cursor}
    (opened : Cursor.ofText text = .ok cursor) :
    cursor.source.Holds (scannable text).toList ∧ cursor = cursor.source.startAt 0 := by
  obtain ⟨source, made, started⟩ := bind_eq_ok_iff.mp opened
  obtain ⟨buffer, length⟩ := Source.ofText_shape made
  unfold Source.cursor at started
  split at started
  next ended =>
    cases Except.ok.inj started
    have valid : (text.toUTF8.extract 0 (offsetLimit - 1)).IsValidUTF8 := by
      by_cases fits : text.toUTF8.size ≤ offsetLimit - 1
      · rw [extract_eq_self fits]
        exact text.isValidUTF8
      · apply isValidUTF8_extract_of_zero
        have inside : offsetLimit - 1 < text.toUTF8.data.size := Nat.lt_of_not_le fits
        rw [buffer, length, Nat.min_eq_right (by omega), ByteArray.data_push,
          Array.getElem?_push_lt inside] at ended
        exact (Array.getElem?_eq_getElem inside).trans ended
    have short : source.length < offsetLimit := by
      have : 0 < offsetLimit := by decide
      omega
    have bytes := Source.bytes_ofText made
    exact ⟨⟨bytes.trans (utf8Encode_scannable valid).symm, ended, short⟩, rfl⟩
  next => simp at started

theorem lt_size_of_mem_offsetsOf {byte : UInt8} {bytes : ByteArray} {offset : Nat}
    (mem : offset ∈ offsetsOf byte bytes) : offset < bytes.size := by
  unfold offsetsOf at mem
  obtain ⟨⟨found, index⟩, entry, rfl⟩ := List.mem_map.mp ((List.takeWhile_sublist _).mem mem)
  have bound := (List.mem_zipIdx (List.mem_filter.mp entry).1).2.1
  simpa using bound

/-- Every text that offsets reach to its end has a reader. -/
theorem Cursor.exists_ofText {text : String} (fits : text.utf8ByteSize < offsetLimit) :
    ∃ cursor, Cursor.ofText text = .ok cursor := by
  have size : text.toUTF8.size < offsetLimit := fits
  have later : (offsetsOf '\n'.toUInt8 text.toUTF8).mapM (checkedAdd offsetLimit · 1) =
      .ok ((offsetsOf '\n'.toUInt8 text.toUTF8).map (· + 1)) := by
    apply mapM_eq_ok
    intro offset mem
    have := lt_size_of_mem_offsetsOf mem
    exact checkedAdd_of_lt (by omega)
  have ended : (text.toUTF8.push 0).data[min text.toUTF8.size (offsetLimit - 1)]? = some 0 := by
    rw [Nat.min_eq_left (by omega), ByteArray.data_push]
    exact Array.getElem?_push_size
  simp only [Cursor.ofText, Source.ofText, later, ok_bind, Source.cursor]
  rw [if_pos ended]
  exact ⟨_, rfl⟩

end TemplateScanner
