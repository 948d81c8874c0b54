import TemplateScanner.Proofs.LineCounts

namespace TemplateScanner

/-- A piece of a text with the bytes of a span of that. -/
structure Span.CutsOut (span : Span) (text piece : String) : Prop where
  bytes : piece.toUTF8 = text.toUTF8.extract span.start span.stop
  within : ∃ before after, text = before ++ piece ++ after ∧
    before.utf8ByteSize = span.start ∧ (before ++ piece).utf8ByteSize = span.stop

section extract

variable {text piece : String} {start middle stop : Nat}

theorem isValidUTF8_extract (le : start ≤ stop) (valid : String.Pos.Raw.IsValid text ⟨start⟩)
    (valid' : String.Pos.Raw.IsValid text ⟨stop⟩) :
    (text.toUTF8.extract start stop).IsValidUTF8 :=
  (String.Pos.Raw.isValidUTF8_extract_iff ⟨start⟩ ⟨stop⟩ le valid'.le_utf8ByteSize).mpr
    (.inr ⟨valid, valid'⟩)

/-- Bytes between two offsets that make a text are none, unless both offsets are ends of
characters. -/
theorem eq_or_isValid_of_extract (le : start ≤ stop) (inside : stop ≤ text.utf8ByteSize)
    (made : (text.toUTF8.extract start stop).IsValidUTF8) : start = stop ∨
      String.Pos.Raw.IsValid text ⟨start⟩ ∧ String.Pos.Raw.IsValid text ⟨stop⟩ := by
  have either := (String.Pos.Raw.isValidUTF8_extract_iff ⟨start⟩ ⟨stop⟩ le inside).mp made
  exact either.imp_left (congrArg String.Pos.Raw.byteIdx)

theorem Span.cutsOut_of_bytes (le : start ≤ stop) (valid : String.Pos.Raw.IsValid text ⟨start⟩)
    (valid' : String.Pos.Raw.IsValid text ⟨stop⟩)
    (bytes : piece.toUTF8 = text.toUTF8.extract start stop) :
    Span.CutsOut ⟨start, stop⟩ text piece := by
  have inside : stop ≤ text.toByteArray.size := valid'.le_utf8ByteSize
  have end_valid : String.Pos.Raw.IsValid text ⟨text.toByteArray.size⟩ :=
    String.Pos.Raw.isValid_rawEndPos
  have front : (text.toByteArray.extract 0 start).IsValidUTF8 :=
    isValidUTF8_extract (Nat.zero_le start) String.Pos.Raw.isValid_zero valid
  have back : (text.toByteArray.extract stop text.toByteArray.size).IsValidUTF8 :=
    isValidUTF8_extract inside valid' end_valid
  refine ⟨bytes, String.fromUTF8 _ front, String.fromUTF8 _ back, ?_, ?_, ?_⟩
  · rw [← String.toByteArray_inj, String.toByteArray_append, String.toByteArray_append]
    calc text.toByteArray
        = text.toByteArray.extract 0 text.toByteArray.size := ByteArray.extract_zero_size.symm
      _ = text.toByteArray.extract 0 stop ++
            text.toByteArray.extract stop text.toByteArray.size :=
          ByteArray.extract_eq_extract_append_extract stop (Nat.zero_le stop) inside
      _ = text.toByteArray.extract 0 start ++ text.toByteArray.extract start stop ++
            text.toByteArray.extract stop text.toByteArray.size := by
          rw [← ByteArray.extract_eq_extract_append_extract start (Nat.zero_le start) le]
      _ = _ := congrArg (fun middle => _ ++ middle ++ _) bytes.symm
  · rw [← String.size_toByteArray]
    show (text.toByteArray.extract 0 start).size = start
    rw [ByteArray.size_extract]
    omega
  · rw [← String.size_toByteArray, String.toByteArray_append, ByteArray.size_append]
    show (text.toByteArray.extract 0 start).size + piece.toUTF8.size = stop
    rw [bytes, String.toUTF8_eq_toByteArray, ByteArray.size_extract, ByteArray.size_extract]
    omega

end extract

namespace Source

variable {text : String} {source : Source} {start middle stop : Nat}

theorem text_ofText (made : ofText text = .ok source) (le : start ≤ stop)
    (inside : stop ≤ source.length) : source.text ⟨start, stop⟩ =
      .ok ((String.fromUTF8? (text.toUTF8.extract start stop)).getD "") := by
  obtain ⟨buffer, length⟩ := ofText_shape made
  have fits : stop ≤ source.buffer.size := by
    rw [buffer, ByteArray.size_push]
    omega
  have bounded : ¬source.length < stop := Nat.not_lt.mpr inside
  rw [Source.text, if_neg bounded, checkedSlice_of_le le fits, ok_bind, extract_ofText made inside]

theorem exists_text_of_valid (made : ofText text = .ok source) (le : start ≤ stop)
    (inside : stop ≤ source.length) (valid : String.Pos.Raw.IsValid text ⟨start⟩)
    (valid' : String.Pos.Raw.IsValid text ⟨stop⟩) : ∃ piece,
      source.text ⟨start, stop⟩ = .ok piece ∧ Span.CutsOut ⟨start, stop⟩ text piece := by
  have bytes := isValidUTF8_extract le valid valid'
  refine ⟨String.fromUTF8 _ bytes, ?_, Span.cutsOut_of_bytes le valid valid' rfl⟩
  rw [text_ofText made le inside, String.fromUTF8?, dif_pos bytes]
  rfl

theorem text_of_cutting (made : ofText text = .ok source) (le : start ≤ stop)
    (inside : stop ≤ source.length)
    (cutting : ¬(String.Pos.Raw.IsValid text ⟨start⟩ ∧ String.Pos.Raw.IsValid text ⟨stop⟩)) :
    source.text ⟨start, stop⟩ = .ok "" := by
  rw [text_ofText made le inside, String.fromUTF8?]
  split
  next bytes =>
    have none := eq_or_isValid_of_extract le (Nat.le_trans inside (length_le_ofText made)) bytes
    have empty : text.toUTF8.extract start stop = ByteArray.empty := by
      rw [none.resolve_right cutting, ByteArray.extract_same]
    exact congrArg Except.ok (String.toByteArray_inj.mp empty)
  next => rfl

/-- The text of a span is the piece of the source that lies there if neither end of the span cuts a
character, and no text at all otherwise. Thus a text that is not empty has all the bytes of its
span, and the texts of spans that abut make up that of both together. -/
theorem text_exact (made : ofText text = .ok source) (le : start ≤ stop)
    (inside : stop ≤ source.length) : ∃ piece, source.text ⟨start, stop⟩ = .ok piece ∧
      (String.Pos.Raw.IsValid text ⟨start⟩ → String.Pos.Raw.IsValid text ⟨stop⟩ →
        Span.CutsOut ⟨start, stop⟩ text piece) ∧
      (¬(String.Pos.Raw.IsValid text ⟨start⟩ ∧ String.Pos.Raw.IsValid text ⟨stop⟩) →
        piece = "") ∧
      (piece ≠ "" → piece.utf8ByteSize = stop - start ∧
        piece.toUTF8 = text.toUTF8.extract start stop) ∧
      ∀ middle, start ≤ middle → middle ≤ stop → String.Pos.Raw.IsValid text ⟨start⟩ →
        String.Pos.Raw.IsValid text ⟨middle⟩ → String.Pos.Raw.IsValid text ⟨stop⟩ →
        ∃ first second, source.text ⟨start, middle⟩ = .ok first ∧
          source.text ⟨middle, stop⟩ = .ok second ∧ first ++ second = piece := by
  by_cases whole : String.Pos.Raw.IsValid text ⟨start⟩ ∧ String.Pos.Raw.IsValid text ⟨stop⟩
  · obtain ⟨valid, valid'⟩ := whole
    obtain ⟨piece, read, cut⟩ := exists_text_of_valid made le inside valid valid'
    refine ⟨piece, read, fun _ _ => cut, fun cutting => absurd ⟨valid, valid'⟩ cutting, ?_, ?_⟩
    · intro _
      refine ⟨?_, cut.bytes⟩
      obtain ⟨before, _, _, front, both⟩ := cut.within
      rw [String.utf8ByteSize_append] at both
      simp only at front both
      omega
    · intro middle le_middle middle_le _ valid_middle _
      obtain ⟨first, read_first, front⟩ :=
        exists_text_of_valid made le_middle (Nat.le_trans middle_le inside) valid valid_middle
      obtain ⟨second, read_second, back⟩ :=
        exists_text_of_valid made middle_le inside valid_middle valid'
      refine ⟨first, second, read_first, read_second, String.toByteArray_inj.mp ?_⟩
      calc (first ++ second).toByteArray
          = first.toByteArray ++ second.toByteArray := String.toByteArray_append
        _ = text.toUTF8.extract start middle ++ text.toUTF8.extract middle stop :=
            congrArg₂ (· ++ ·) front.bytes back.bytes
        _ = text.toUTF8.extract start stop :=
            (ByteArray.extract_eq_extract_append_extract middle le_middle middle_le).symm
        _ = piece.toByteArray := cut.bytes.symm
  · refine ⟨"", text_of_cutting made le inside whole, ?_, fun _ => rfl, by simp, ?_⟩
    · intro valid valid'
      exact absurd ⟨valid, valid'⟩ whole
    · intro _ _ _ valid _ valid'
      exact absurd ⟨valid, valid'⟩ whole

theorem text_exact_two_characters : ∃ source, ofText "aé→" = .ok source ∧ 1 ≤ 6 ∧
    6 ≤ source.length ∧
    (∃ piece, source.text ⟨1, 6⟩ = .ok piece ∧ Span.CutsOut ⟨1, 6⟩ "aé→" piece ∧
      ∃ first second, source.text ⟨1, 3⟩ = .ok first ∧ source.text ⟨3, 6⟩ = .ok second ∧
        first ++ second = piece) ∧
    source.text ⟨2, 4⟩ = .ok "" := by
  have fits : "aé→".utf8ByteSize < offsetLimit := by decide
  obtain ⟨cursor, opened⟩ := Cursor.exists_ofText fits
  obtain ⟨source, made, _⟩ := bind_eq_ok_iff.mp opened
  have length : source.length = 6 := (ofText_shape made).2
  have inside : 6 ≤ source.length := Nat.le_of_eq length.symm
  obtain ⟨piece, read, cut, _, _, joined⟩ := text_exact made (show 1 ≤ 6 by decide) inside
  obtain ⟨nothing, read', _, cutting, _⟩ :=
    text_exact made (show 2 ≤ 4 by decide) (show 4 ≤ source.length by omega)
  refine ⟨source, made, by decide, inside, ⟨piece, read, cut (by decide) (by decide), ?_⟩, ?_⟩
  · exact joined 3 (by decide) (by decide) (by decide) (by decide) (by decide)
  · rw [read', cutting (by decide)]

end Source

end TemplateScanner
