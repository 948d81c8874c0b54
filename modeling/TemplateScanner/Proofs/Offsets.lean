import TemplateScanner.Proofs.IndexCursor

namespace TemplateScanner

namespace IndexCursor

variable {source : Source} {text : List Char}

/-- The reader of a source that stands where a reader of its characters does. -/
def toCursor (source : Source) (index : IndexCursor text) : Cursor :=
  { source := source
    scanStart := offset text index.scanStart
    tokenStart := offset text index.tokenStart
    position := offset text index.position
    committed := index.committed.map (offset text)
    significant := index.significant }

theorem toCursor_startAt (source : Source) (place : Nat) :
    (startAt text place).toCursor source = source.startAt (offset text place) := rfl

theorem atEnd_toCursor (holds : source.Holds text) (index : IndexCursor text) :
    (index.toCursor source).atEnd = index.atEnd := by
  have same : source.length ≤ offset text index.position ↔ text.length ≤ index.position := by
    rw [holds.length_eq]
    exact byteLength_le_offset_iff
  exact decide_eq_decide.mpr same

/-- What stands in the buffer from the read position on, the zero byte at the end included. -/
theorem buffer_split (holds : source.Holds text) (index : IndexCursor text) :
    ∃ more beyond, source.buffer =
      (text.take index.position ++ index.peek :: more).utf8Encode ++ beyond := by
  obtain ⟨beyond, buffer⟩ := holds.buffer_eq
  refine ⟨(index.rest ++ ['\x00']).tail, beyond, ?_⟩
  have head : index.peek :: (index.rest ++ ['\x00']).tail = index.rest ++ ['\x00'] := by
    rw [peek]
    cases index.rest <;> rfl
  rw [head, buffer, rest, ← List.append_assoc, List.take_append_drop]

theorem peek_toCursor (holds : source.Holds text) (index : IndexCursor text) :
    (index.toCursor source).peek = .ok index.peek := by
  obtain ⟨more, beyond, buffer⟩ := buffer_split holds index
  obtain ⟨lead, byte, width⟩ :=
    checkedByte_utf8Encode (text.take index.position) more index.peek beyond
  have slice := checkedSlice_utf8Encode (text.take index.position) [index.peek] more beyond
  rw [List.append_assoc, List.singleton_append, ← buffer, byteLength_append, byteLength_cons,
    byteLength_nil, Nat.add_zero] at slice
  rw [← buffer] at byte
  have near : byteLength (text.take index.position) + index.peek.utf8Size < indexLimit := by
    have := index.peek.utf8Size_le_four
    have := offset_le_byteLength text index.position
    have := holds.length_eq
    have := holds.short
    have : offsetLimit + 4 < indexLimit := by decide
    simp only [offset] at *
    omega
  have inside : byteLength (text.take index.position) + index.peek.utf8Size ≤
      source.buffer.size := by
    simp only [buffer, ByteArray.size_append, size_utf8Encode, byteLength_append, byteLength_cons]
    omega
  simp only [Cursor.peek, toCursor, offset, byte, ok_bind, width, checkedAdd_of_lt near,
    Nat.min_eq_left inside, slice, fromUTF8?_utf8Encode]
  simp

theorem advance_toCursor (holds : source.Holds text) (skip : Bool) (index : IndexCursor text) :
    (index.toCursor source).advance skip = .ok ((index.advance skip).toCursor source) := by
  rw [Cursor.advance, atEnd_toCursor holds, advance]
  by_cases ended : index.atEnd = true
  · rw [if_pos ended, if_pos ended]
  · rw [if_neg ended, if_neg ended]
    have inside : index.position < text.length := by simpa [atEnd] using ended
    obtain ⟨more, beyond, buffer⟩ := buffer_split holds index
    obtain ⟨lead, byte, width⟩ :=
      checkedByte_utf8Encode (text.take index.position) more index.peek beyond
    have peeked : index.peek = text[index.position] := by
      rw [peek, rest, List.drop_eq_getElem_cons inside]
      rfl
    have next : offset text index.position + charWidth lead = offset text (index.position + 1) := by
      rw [offset_succ inside, width, peeked]
    have le := offset_le_byteLength text (index.position + 1)
    have short := holds.short
    rw [holds.length_eq] at short
    rw [← buffer] at byte
    have step : checkedAdd offsetLimit (offset text index.position) (charWidth lead) =
        .ok (offset text (index.position + 1)) := by
      rw [← next]
      exact checkedAdd_of_lt (by omega)
    have here : checkedByte source.buffer (offset text index.position) = .ok lead := byte
    simp only [toCursor, here, ok_bind, step, holds.length_eq, Nat.min_eq_left le]
    split <;> rfl

theorem rewind_toCursor (index : IndexCursor text) :
    (index.toCursor source).rewind = index.rewind.toCursor source := rfl

theorem tokenEnd_toCursor (index : IndexCursor text) :
    (index.toCursor source).tokenEnd = offset text index.tokenEnd := by
  rw [Cursor.tokenEnd, tokenEnd, ← offset_max]
  cases committed : index.committed <;> simp [toCursor, committed]

theorem close_toCursor (accepted : Bool) (index : IndexCursor text) :
    (index.toCursor source).close accepted =
      ((index.close accepted).1.map fun span => ⟨offset text span.start, offset text span.stop⟩,
        (index.close accepted).2.toCursor source) := by
  cases accepted with
  | false => rfl
  | true =>
    simp only [Cursor.close, close, if_true, tokenEnd_toCursor]
    rfl

end IndexCursor

theorem Cursor.ofText_eq_startAt {text : String} {cursor : Cursor}
    (opened : Cursor.ofText text = .ok cursor) : cursor.source.Holds (scannable text).toList ∧
      cursor = (IndexCursor.startAt (scannable text).toList 0).toCursor cursor.source := by
  obtain ⟨holds, eq⟩ := Cursor.ofText_holds opened
  rw [IndexCursor.toCursor_startAt, offset_zero]
  exact ⟨holds, eq⟩

end TemplateScanner
