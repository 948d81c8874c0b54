import TemplateScanner.Proofs.Lookahead
import TemplateScanner.Proofs.Unread

namespace TemplateScanner

theorem Cursor.bytes_ofText {text : String} {cursor : Cursor}
    (opened : Cursor.ofText text = .ok cursor) :
    cursor.source.bytes = text.toUTF8.extract 0 (offsetLimit - 1) := by
  obtain ⟨source, made, started⟩ := bind_eq_ok_iff.mp opened
  rw [Source.source_of_cursor started]
  exact Source.bytes_ofText made

theorem Cursor.utf8Encode_scannable {text : String} {cursor : Cursor}
    (opened : Cursor.ofText text = .ok cursor) :
    (scannable text).toList.utf8Encode = text.toUTF8.extract 0 (offsetLimit - 1) := by
  have bytes := (Cursor.ofText_holds opened).1.bytes
  rw [Cursor.bytes_ofText opened] at bytes
  exact bytes.symm

theorem Cursor.byteLength_scannable {text : String} {cursor : Cursor}
    (opened : Cursor.ofText text = .ok cursor) :
    byteLength (scannable text).toList = min (offsetLimit - 1) text.utf8ByteSize := by
  have size := congrArg ByteArray.size (Cursor.utf8Encode_scannable opened)
  rw [size_utf8Encode, ByteArray.size_extract, Nat.sub_zero, String.toUTF8_eq_toByteArray,
    String.size_toByteArray] at size
  exact size

/-- What offsets reach of a text is a beginning of it. -/
theorem Cursor.scannable_prefix {text : String} {cursor : Cursor}
    (opened : Cursor.ofText text = .ok cursor) : (scannable text).toList <+: text.toList := by
  by_cases fits : text.utf8ByteSize < offsetLimit
  · exact ⟨[], by rw [scannable_of_lt fits, List.append_nil]⟩
  · have bytes := Cursor.utf8Encode_scannable opened
    have reached : (text.toUTF8.extract 0 (offsetLimit - 1)).IsValidUTF8 := by
      rw [← bytes]
      exact ByteArray.isValidUTF8_utf8Encode
    have valid : String.Pos.Raw.IsValid (String.ofList text.toList) ⟨offsetLimit - 1⟩ := by
      rw [String.ofList_toList]
      refine String.Pos.Raw.isValid_iff_isValidUTF8_extract_zero.mpr ⟨?_, reached⟩
      show offsetLimit - 1 ≤ text.utf8ByteSize
      omega
    obtain ⟨place, cut⟩ := String.Pos.Raw.isValid_ofList.mp valid
    have size : offsetLimit - 1 = (text.toList.take place).utf8Encode.size := by
      rw [size_utf8Encode, ← utf8ByteSize_ofList]
      exact cut
    have whole := congrArg List.utf8Encode (List.take_append_drop place text.toList)
    rw [List.utf8Encode_append, String.utf8Encode_toList] at whole
    rw [scannable, String.toUTF8_eq_toByteArray, ← whole, ByteArray.extract_append_eq_left size,
      fromUTF8?_utf8Encode, Option.getD_some, String.toList_ofList]
    exact List.take_prefix _ _

theorem scannable_append_of_le {first more : String} (far : offsetLimit ≤ first.utf8ByteSize) :
    scannable (first ++ more) = scannable first := by
  have size : first.toByteArray.size = first.utf8ByteSize := String.size_toByteArray
  have none : offsetLimit - 1 - first.toByteArray.size = 0 := by omega
  have bytes : (first ++ more).toUTF8.extract 0 (offsetLimit - 1) =
      first.toUTF8.extract 0 (offsetLimit - 1) := by
    simp only [String.toUTF8_eq_toByteArray, String.toByteArray_append, ByteArray.extract_append,
      none, Nat.zero_sub, ByteArray.extract_same, ByteArray.append_empty]
  rw [scannable, scannable, bytes]

/-- Text put after another is scanned after it, unless offsets do not reach that far. -/
theorem Cursor.scannable_append {first more : String} {longer : Cursor}
    (extended : Cursor.ofText (first ++ more) = .ok longer) : ∃ tail,
      (scannable (first ++ more)).toList = (scannable first).toList ++ tail ∧
      (first.utf8ByteSize = byteLength (scannable first).toList ∨ tail = []) := by
  by_cases fits : first.utf8ByteSize < offsetLimit
  · have size : byteLength (scannable first).toList = first.utf8ByteSize := by
      rw [scannable_of_lt fits, byteLength_toList]
    have all := Cursor.scannable_prefix extended
    have beginning : first.toList <+: (first ++ more).toList := by
      rw [String.toList_append]
      exact List.prefix_append _ _
    rw [size, scannable_of_lt fits]
    rcases List.prefix_or_prefix_of_prefix beginning all with ⟨tail, eq⟩ | ⟨rest, eq⟩
    · exact ⟨tail, eq.symm, .inl rfl⟩
    · have far := Cursor.byteLength_scannable extended
      have bytes := congrArg byteLength eq
      rw [byteLength_append, far, byteLength_toList, String.utf8ByteSize_append] at bytes
      have short := length_le_byteLength rest
      have none : rest = [] := List.length_eq_zero_iff.mp (by omega)
      rw [none, List.append_nil] at eq
      exact ⟨[], eq.trans (List.append_nil _).symm, .inl rfl⟩
  · exact ⟨[], by rw [scannable_append_of_le (by omega), List.append_nil], .inr rfl⟩

theorem offset_append_of_le {text : List Char} {place : Nat} (le : place ≤ text.length)
    (tail : List Char) : offset (text ++ tail) place = offset text place := by
  rw [offset, List.take_append_of_le_length le, offset]

namespace IndexCursor

variable {source : Source} {text : List Char}

/-- Where the recognizer of a kind ends the token that it finds at the start of a text. -/
theorem recognize_committed (holds : source.Holds text) (kind : Kind) : ∃ after,
    recognize kind ((startAt text 0).toCursor source) =
      .ok ((kind.script text).accepted, after) ∧
    ((kind.script text).accepted = true →
      after.committed = some (offset text (kind.reach text))) := by
  obtain ⟨next, ran, _, _, position, committed, _⟩ :=
    recognize_startAt holds (Nat.zero_le text.length) kind
  rw [List.drop_zero] at ran position committed
  refine ⟨next.toCursor source, ran, ?_⟩
  intro accepted
  rw [toCursor, committed accepted, position, Nat.zero_add]
  rfl

theorem scan_committed (holds : source.Holds text) (request : Request) : ∃ after,
    scan request ((startAt text 0).toCursor source) = .ok (request.finds text, after) ∧
    ∀ kind, request.finds text = some kind →
      after.committed = some (offset text (kind.reach text)) := by
  obtain ⟨attempts, after, tried, found, won, _⟩ :=
    attempt_startAt holds (Nat.zero_le text.length) request
  have finds : winner attempts = request.finds text := by
    simp only [found, Request.finds, accepts_startAt holds (Nat.zero_le text.length),
      List.drop_zero]
  refine ⟨after, ?_, ?_⟩
  · rw [scan, tried, ← finds]
    rfl
  · intro kind first
    obtain ⟨last, ran, ends⟩ := recognize_committed holds kind
    have same := won kind (finds.trans first)
    obtain ⟨accepted, rfl⟩ := Prod.mk.inj (Except.ok.inj (ran.symm.trans same))
    exact ends accepted

end IndexCursor

/-- Where a token ends before the text does, text put after that does not change where it ends. With
text put after it a comment may begin before what was another token. -/
theorem recognize_append {first more : String} {cursor longer : Cursor}
    (opened : Cursor.ofText first = .ok cursor)
    (extended : Cursor.ofText (first ++ more) = .ok longer) :
    (∀ {kind : Kind} {after : Cursor} {stop : Nat},
      recognize kind cursor = .ok (true, after) → after.committed = some stop →
      stop < first.utf8ByteSize →
      ∃ last, recognize kind longer = .ok (true, last) ∧ last.committed = some stop) ∧
    ∀ {request : Request} {kind : Kind} {after : Cursor} {stop : Nat},
      scan request cursor = .ok (some kind, after) → after.committed = some stop →
      stop < first.utf8ByteSize → request.asksFor .comment = false ∨ kind = .comment →
      ∃ last, scan request longer = .ok (some kind, last) ∧ last.committed = some stop := by
  obtain ⟨holds, start⟩ := Cursor.ofText_eq_startAt opened
  obtain ⟨holds', start'⟩ := Cursor.ofText_eq_startAt extended
  obtain ⟨tail, split, known⟩ := Cursor.scannable_append extended
  rw [split] at holds' start'
  have inside : ∀ {kind : Kind}, offset (scannable first).toList
      (kind.reach (scannable first).toList) < first.utf8ByteSize →
      kind.reach (scannable first).toList < (scannable first).toList.length ∨ tail = [] := by
    intro kind short
    refine known.imp_left ?_
    intro size
    rw [size] at short
    exact Nat.lt_of_not_le fun past => Nat.ne_of_lt short (offset_of_length_le past)
  refine ⟨?_, ?_⟩
  · intro kind after stop ran committed short
    obtain ⟨last, found, ends⟩ := IndexCursor.recognize_committed holds kind
    rw [← start, ran] at found
    obtain ⟨accepted, rfl⟩ := Prod.mk.inj (Except.ok.inj found)
    cases Option.some.inj (committed.symm.trans (ends accepted.symm))
    obtain ⟨again, same⟩ := Kind.script_append accepted.symm (inside short)
    obtain ⟨last', found', ends'⟩ := IndexCursor.recognize_committed holds' kind
    rw [← start', again] at found'
    rw [same, offset_append_of_le (kind.reach_le _)] at ends'
    exact ⟨last', found', ends' again⟩
  · intro request kind after stop ran committed short safe
    obtain ⟨last, found, ends⟩ := IndexCursor.scan_committed holds request
    rw [← start, ran] at found
    obtain ⟨first, rfl⟩ := Prod.mk.inj (Except.ok.inj found)
    cases Option.some.inj (committed.symm.trans (ends kind first.symm))
    have again := Request.finds_append first.symm (inside short) safe
    have same := (Kind.script_append (Request.accepted_of_finds first.symm) (inside short)).2
    obtain ⟨last', found', ends'⟩ := IndexCursor.scan_committed holds' request
    rw [← start', again] at found'
    have ended := ends' kind again
    rw [same, offset_append_of_le (kind.reach_le _)] at ended
    exact ⟨last', found', ended⟩

theorem recognize_append_comment : ∃ cursor longer,
    Cursor.ofText "--,\n-->é" = .ok cursor ∧ Cursor.ofText ("--,\n-->é" ++ " -->") = .ok longer ∧
    (∃ after last, recognize .argument cursor = .ok (true, after) ∧ after.committed = some 4 ∧
      recognize .argument longer = .ok (true, last) ∧ last.committed = some 4) ∧
    ∃ after last, scan ⟨0xff#8⟩ cursor = .ok (some .comment, after) ∧ after.committed = some 7 ∧
      scan ⟨0xff#8⟩ longer = .ok (some .comment, last) ∧ last.committed = some 7 := by
  have fits : "--,\n-->é".utf8ByteSize < offsetLimit := by decide
  have fits' : ("--,\n-->é" ++ " -->").utf8ByteSize < offsetLimit := by decide
  obtain ⟨cursor, opened⟩ := Cursor.exists_ofText fits
  obtain ⟨longer, extended⟩ := Cursor.exists_ofText fits'
  have argument : (Cursor.ofText "--,\n-->é" >>= recognize .argument).toOption.map
      (fun result => (result.1, result.2.committed)) = some (true, some 4) := by
    decide +kernel
  have comment : (Cursor.ofText "--,\n-->é" >>= scan ⟨0xff#8⟩).toOption.map
      (fun result => (result.1, result.2.committed)) = some (some .comment, some 7) := by
    decide +kernel
  rw [opened, ok_bind] at argument comment
  obtain ⟨⟨accepted, after⟩, ran, seen⟩ := exists_of_toOption_map argument
  obtain ⟨⟨found, after'⟩, ran', seen'⟩ := exists_of_toOption_map comment
  obtain ⟨rfl, ended⟩ := Prod.mk.inj seen
  obtain ⟨rfl, ended'⟩ := Prod.mk.inj seen'
  obtain ⟨alone, scanned⟩ := recognize_append opened extended
  obtain ⟨last, again⟩ := alone ran ended (by decide)
  obtain ⟨last', again'⟩ := scanned ran' ended' (by decide) (.inr rfl)
  exact ⟨cursor, longer, opened, extended, ⟨after, last, ran, ended, again⟩,
    after', last', ran', ended', again'⟩

end TemplateScanner
