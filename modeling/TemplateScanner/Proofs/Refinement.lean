import TemplateScanner.Proofs.Operation

namespace TemplateScanner

/-- A reader of bytes stands where a reader of characters does, and sees the same. -/
structure Cursor.Mirrors {text : List Char} (cursor : Cursor) (index : IndexCursor text) :
    Prop where
  inside : index.Inside
  scanStart : cursor.scanStart = offset text index.scanStart
  tokenStart : cursor.tokenStart = offset text index.tokenStart
  position : cursor.position = offset text index.position
  committed : cursor.committed = index.committed.map (offset text)
  significant : cursor.significant = index.significant
  peek_of_lt : ∀ lt : index.position < text.length, cursor.peek = .ok text[index.position]
  peek_eq_nul_iff : cursor.peek = .ok '\x00' ↔
    index.position = text.length ∨ text[index.position]? = some '\x00'
  mem_of_peek_eq_replacement : cursor.peek = .ok '\ufffd' → '\ufffd' ∈ text
  atEnd_iff : cursor.atEnd = true ↔ index.position = text.length

namespace IndexCursor

variable {source : Source} {text : List Char}

theorem peek_of_lt {index : IndexCursor text} (lt : index.position < text.length) :
    index.peek = text[index.position] := by
  rw [peek, rest, List.drop_eq_getElem_cons lt]
  rfl

theorem peek_of_eq {index : IndexCursor text} (ended : index.position = text.length) :
    index.peek = '\x00' := by
  rw [peek, rest, ended, List.drop_length]
  rfl

theorem mirrors_toCursor (holds : source.Holds text) {index : IndexCursor text}
    (inside : index.Inside) : (index.toCursor source).Mirrors index := by
  have peeked := peek_toCursor holds index
  have places := inside.position
  refine ⟨inside, rfl, rfl, rfl, rfl, rfl, ?_, ?_, ?_, ?_⟩
  · intro lt
    rw [peeked, peek_of_lt lt]
  · rw [peeked, Except.ok.injEq]
    rcases Nat.lt_or_eq_of_le places with lt | ended
    · rw [peek_of_lt lt, List.getElem?_eq_getElem lt, Option.some.injEq]
      exact ⟨.inr, fun h => h.resolve_left (Nat.ne_of_lt lt)⟩
    · rw [peek_of_eq ended]
      exact ⟨fun _ => .inl ended, fun _ => rfl⟩
  · rw [peeked, Except.ok.injEq]
    intro replaced
    rcases Nat.lt_or_eq_of_le places with lt | ended
    · rw [← replaced, peek_of_lt lt]
      exact List.getElem_mem lt
    · rw [peek_of_eq ended] at replaced
      exact absurd replaced (by decide)
  · rw [atEnd_toCursor holds, atEnd, decide_eq_true_iff]
    omega

theorem runAll_toCursor (holds : source.Holds text) {index : IndexCursor text}
    (inside : index.Inside) (operations : List Operation) :
    ∃ steps : List (Answer × IndexCursor text), Operation.runAll operations index = .ok steps ∧
      (∀ step ∈ steps, step.2.Inside) ∧
      Operation.runAll operations (index.toCursor source) =
        .ok (steps.map fun step => (step.1.inBytes text, step.2.toCursor source)) := by
  induction operations generalizing index with
  | nil => exact ⟨[], rfl, by simp, rfl⟩
  | cons operation operations ih =>
    obtain ⟨answer, next, ran, hn, mirrored⟩ := run_toCursor holds inside operation
    obtain ⟨steps, later, hs, images⟩ := ih hn
    refine ⟨(answer, next) :: steps, ?_, ?_, ?_⟩
    · simp only [Operation.runAll, ran, ok_bind, later]
    · intro step mem
      rcases List.mem_cons.mp mem with rfl | mem
      · exact hn
      · exact hs step mem
    · simp only [Operation.runAll, mirrored, ok_bind, images, List.map_cons]

end IndexCursor

/-- Whatever is done to a reader of a text, a reader of the text's characters to which the same is
done stands where it does after every step, and answers alike. -/
theorem cursor_mirrors_indexCursor {text : String} {cursor : Cursor}
    (opened : Cursor.ofText text = .ok cursor) (operations : List Operation) :
    cursor.Mirrors (IndexCursor.startAt (scannable text).toList 0) ∧
    ∃ steps : List (Answer × IndexCursor (scannable text).toList),
      Operation.runAll operations (IndexCursor.startAt (scannable text).toList 0) = .ok steps ∧
      Operation.runAll operations cursor = .ok (steps.map fun step =>
        (step.1.inBytes (scannable text).toList, step.2.toCursor cursor.source)) ∧
      ∀ step ∈ steps, (step.2.toCursor cursor.source).Mirrors step.2 := by
  obtain ⟨holds, start⟩ := Cursor.ofText_eq_startAt opened
  have inside := IndexCursor.inside_startAt (Nat.zero_le (scannable text).toList.length)
  obtain ⟨steps, ran, hs, images⟩ := IndexCursor.runAll_toCursor holds inside operations
  refine ⟨?_, steps, ran, ?_, fun step mem => IndexCursor.mirrors_toCursor holds (hs step mem)⟩
  · rw [start]
    exact IndexCursor.mirrors_toCursor holds inside
  · rw [← start] at images
    exact images

theorem cursor_mirrors_indexCursor_two_bytes : ∃ cursor steps,
    Cursor.ofText "é%\x7d" = .ok cursor ∧
    Operation.runAll [.advance true, .call (.recognize .statement), .close true]
      (IndexCursor.startAt (scannable "é%\x7d").toList 0) = .ok steps ∧
    steps.map (·.1) = [.done, .said (.decided true), .closed (some ⟨1, 3⟩)] ∧
    Operation.runAll [.advance true, .call (.recognize .statement), .close true] cursor =
      .ok (steps.map fun step =>
        (step.1.inBytes (scannable "é%\x7d").toList, step.2.toCursor cursor.source)) ∧
    ∀ step ∈ steps, (step.2.toCursor cursor.source).Mirrors step.2 := by
  have fits : "é%\x7d".utf8ByteSize < offsetLimit := by decide
  obtain ⟨cursor, opened⟩ := Cursor.exists_ofText fits
  obtain ⟨_, steps, ran, images, mirrors⟩ := cursor_mirrors_indexCursor opened
    [.advance true, .call (.recognize .statement), .close true]
  have answered : (Operation.runAll [.advance true, .call (.recognize .statement), .close true]
      (IndexCursor.startAt (scannable "é%\x7d").toList 0)).toOption.map (·.map (·.1)) =
        some [.done, .said (.decided true), .closed (some ⟨1, 3⟩)] := by
    decide +kernel
  rw [ran] at answered
  exact ⟨cursor, steps, opened, ran, Option.some.inj answered, images, mirrors⟩

end TemplateScanner
