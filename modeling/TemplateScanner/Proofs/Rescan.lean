import TemplateScanner.Proofs.Lookahead
import TemplateScanner.Proofs.Unread

namespace TemplateScanner

/-- The characters of a token, scanned alone, are found as the same token. -/
theorem Request.finds_alone {request : Request} {rest : List Char} {kind : Kind}
    (found : request.finds rest = some kind) :
    request.finds (rest.take (kind.reach rest)) = some kind ∧
      kind.reach (rest.take (kind.reach rest)) = (rest.take (kind.reach rest)).length := by
  have again := finds_lookahead found (.inl rfl) (.inr (.inr rfl))
  have same := (Kind.script_lookahead (accepted_of_finds found) (.inl rfl)).2
  rw [List.append_nil] at again same
  have length := List.length_take_of_le (kind.reach_le rest)
  exact ⟨again, same.trans length.symm⟩

theorem offset_length (text : List Char) :
    offset text text.length = (String.ofList text).utf8ByteSize := by
  rw [offset_of_length_le (Nat.le_refl text.length), utf8ByteSize_ofList]

theorem Request.token_alone {request : Request} {piece : List Char} {kind : Kind}
    (found : request.finds piece = some kind) (whole : kind.reach piece = piece.length) :
    request.token piece 0 = some ⟨kind, ⟨0, (String.ofList piece).utf8ByteSize⟩⟩ := by
  rw [token, List.drop_zero, reach_of_finds found, found, whole, Nat.zero_add, offset_zero,
    offset_length]
  rfl

namespace Pieces

variable {request : Request} {rest last : List Char} {pieces : List (Kind × List Char)}

theorem finds_of_mem (h : Pieces request rest pieces last) : ∀ piece ∈ pieces,
    request.finds piece.2 = some piece.1 ∧ piece.1.reach piece.2 = piece.2.length := by
  induction h with
  | ended => simp
  | token found _ _ ih =>
    intro piece mem
    rcases List.mem_cons.mp mem with rfl | mem
    · exact Request.finds_alone found
    · exact ih piece mem

theorem infix_of_mem (h : Pieces request rest pieces last) :
    ∀ piece ∈ pieces, piece.2 <:+: rest := by
  intro piece mem
  have among : piece.2 ∈ pieces.map (·.2) := List.mem_map_of_mem mem
  rw [← h.flatten]
  exact (List.infix_of_mem_flatten among).trans (List.prefix_append _ last).isInfix

/-- A text that is one token as a whole is cut into that token only. -/
theorem eq_singleton {kind : Kind} {piece : List Char} (h : Pieces request piece pieces last)
    (found : request.finds piece = some kind) (whole : kind.reach piece = piece.length)
    (ne : piece ≠ []) : pieces = [(kind, piece)] ∧ last = [] := by
  have long := List.length_pos_iff.mpr ne
  cases h with
  | ended stuck =>
    rw [Request.reach_of_finds found] at stuck
    omega
  | @token _ _ first pieces finds _ later =>
    cases Option.some.inj (found.symm.trans finds)
    rw [whole, List.drop_length] at later
    rw [whole, List.take_length]
    cases later with
    | ended => exact ⟨rfl, rfl⟩
    | @token _ _ second _ _ pos _ =>
      have reach := second.reach_le []
      rw [List.length_nil] at reach
      omega

end Pieces

theorem piece_of_mem_tokensOf {source : Source} {text last : List Char}
    (holds : source.Holds text) {place : Nat} {pieces : List (Kind × List Char)}
    (eq : text.drop place = (pieces.map (·.2)).flatten ++ last) :
    ∀ token ∈ tokensOf text place pieces, ∃ piece, (token.kind, piece) ∈ pieces ∧
      source.text token.span = .ok (String.ofList piece) := by
  induction pieces generalizing place with
  | nil => simp [tokensOf]
  | cons piece pieces ih =>
    rw [List.map_cons, List.flatten_cons, List.append_assoc] at eq
    intro token mem
    rcases List.mem_cons.mp mem with rfl | mem
    · have read := Source.text_offset holds (Nat.le_add_right place piece.2.length)
      rw [List.drop_take, Nat.add_sub_cancel_left, eq, List.take_left] at read
      exact ⟨piece.2, List.mem_cons_self, read⟩
    · obtain ⟨other, later, found⟩ := ih (drop_piece eq) token mem
      exact ⟨other, List.mem_cons_of_mem _ later, found⟩

theorem tokensOf_singleton (kind : Kind) (piece : List Char) :
    tokensOf piece 0 [(kind, piece)] =
      [⟨kind, ⟨0, (String.ofList piece).utf8ByteSize⟩⟩] := by
  rw [tokensOf, tokensOf, offset_zero, Nat.zero_add, offset_length]

/-- Taking every token of a text gives its pieces, and leaves what they leave. -/
theorem Stream.takeAll_pieces {source : Source} {text : List Char} (holds : source.Holds text)
    (request : Request) : ∃ harvest pieces last,
      (startAt source text request 0).takeAll = .ok harvest ∧
      harvest.tokens = tokensOf text 0 pieces ∧ Pieces request text pieces last ∧
      harvest.stream.remaining = .ok (String.ofList last) := by
  obtain ⟨harvest, pieces, last, taken, ended, tokens, split, _, _, remaining⟩ :=
    take_to_end holds request
  exact ⟨harvest, pieces, text.drop last, takeAll_of_take taken ended, tokens, split, remaining⟩

/-- Whatever token is found, its text alone is found as one token of the same kind, and nothing is
left of it. -/
theorem nextToken_rescan {text : String} :
    (∀ {cursor after : Cursor} {request : Request} {token : Token},
      Cursor.AtBoundary text cursor → cursor.nextToken request = .ok (some token, after) →
      ∃ piece fresh last, cursor.source.text token.span = .ok piece ∧
        Cursor.ofText piece = .ok fresh ∧ fresh.nextToken request =
          .ok (some ⟨token.kind, ⟨0, piece.utf8ByteSize⟩⟩, last)) ∧
    ∀ {request : Request} {stream : Stream}, Stream.ofText text request = .ok stream →
      ∃ harvest, stream.takeAll = .ok harvest ∧ ∀ token ∈ harvest.tokens,
        ∃ piece fresh again, stream.text token = .ok piece ∧
          Stream.ofText piece request = .ok fresh ∧ fresh.takeAll = .ok again ∧
          again.tokens = [⟨token.kind, ⟨0, piece.utf8ByteSize⟩⟩] ∧
          again.stream.remaining = .ok "" := by
  refine ⟨?_, ?_⟩
  · intro cursor after request token boundary ran
    obtain ⟨source, place, holds, le, rfl⟩ := boundary.exists_place
    rw [IndexCursor.nextToken_startAt holds le] at ran
    obtain ⟨answer, -⟩ := Prod.mk.inj (Except.ok.inj ran)
    obtain ⟨kind, found, rfl⟩ := Option.map_eq_some_iff.mp answer
    rw [Request.reach_of_finds found]
    have read := Source.text_offset holds
      (Nat.le_add_right place (kind.reach ((scannable text).toList.drop place)))
    rw [List.drop_take, Nat.add_sub_cancel_left] at read
    have beginning := List.take_prefix (kind.reach ((scannable text).toList.drop place))
      ((scannable text).toList.drop place)
    have part := beginning.isInfix.trans (List.drop_suffix place (scannable text).toList).isInfix
    obtain ⟨fresh, opened, alone, start⟩ := holds.exists_reader part
    obtain ⟨again, whole⟩ := Request.finds_alone found
    have next := IndexCursor.nextToken_startAt alone (Nat.zero_le _) request
    rw [← start, Request.token_alone again whole] at next
    exact ⟨_, fresh, _, read, opened, next⟩
  · intro request stream opened
    obtain ⟨cursor, placed, rfl⟩ := Stream.ofText_eq_ok_iff.mp opened
    obtain ⟨holds, start⟩ := Cursor.ofText_eq_startAt placed
    obtain ⟨harvest, pieces, last, taken, tokens, split, _⟩ :=
      Stream.takeAll_pieces holds request
    rw [Stream.startAt, ← start] at taken
    have whole : (scannable text).toList.drop 0 = (pieces.map (·.2)).flatten ++ last :=
      split.flatten.symm
    refine ⟨harvest, taken, ?_⟩
    intro token mem
    rw [tokens] at mem
    obtain ⟨piece, among, read⟩ := piece_of_mem_tokensOf holds whole token mem
    obtain ⟨found, all⟩ := split.finds_of_mem _ among
    obtain ⟨fresh, alone, holds', start'⟩ := holds.exists_reader (split.infix_of_mem _ among)
    obtain ⟨again, pieces', last', taken', tokens', split', left⟩ :=
      Stream.takeAll_pieces holds' request
    obtain ⟨rfl, rfl⟩ := split'.eq_singleton found all (split.ne_nil _ among)
    rw [Stream.startAt, ← start'] at taken'
    refine ⟨_, ⟨fresh, request, false⟩, again, read,
      Stream.ofText_eq_ok_iff.mpr ⟨fresh, alone, rfl⟩, taken', ?_, left⟩
    rw [tokens']
    exact tokensOf_singleton token.kind piece

theorem nextToken_rescan_unclosed_comment : ∃ cursor after stream,
    (Cursor.AtBoundary "--é%\x7d-%\x7d" cursor ∧
      cursor.nextToken ⟨0x06#8⟩ = .ok (some ⟨.statement, ⟨0, 6⟩⟩, after) ∧
      ∃ piece fresh last, cursor.source.text ⟨0, 6⟩ = .ok piece ∧
        Cursor.ofText piece = .ok fresh ∧ fresh.nextToken ⟨0x06#8⟩ =
          .ok (some ⟨.statement, ⟨0, piece.utf8ByteSize⟩⟩, last)) ∧
    Stream.ofText "--é%\x7d-%\x7d" ⟨0x06#8⟩ = .ok stream ∧
    ∃ harvest, stream.takeAll = .ok harvest ∧
      harvest.tokens = [⟨.statement, ⟨0, 6⟩⟩, ⟨.statement, ⟨6, 9⟩⟩] ∧ ∀ token ∈ harvest.tokens,
      ∃ piece fresh again, stream.text token = .ok piece ∧
        Stream.ofText piece ⟨0x06#8⟩ = .ok fresh ∧ fresh.takeAll = .ok again ∧
        again.tokens = [⟨token.kind, ⟨0, piece.utf8ByteSize⟩⟩] ∧
        again.stream.remaining = .ok "" := by
  have fits : "--é%\x7d-%\x7d".utf8ByteSize < offsetLimit := by decide
  obtain ⟨cursor, opened⟩ := Cursor.exists_ofText fits
  have stream : Stream.ofText "--é%\x7d-%\x7d" ⟨0x06#8⟩ = .ok ⟨cursor, ⟨0x06#8⟩, false⟩ :=
    Stream.ofText_eq_ok_iff.mpr ⟨cursor, opened, rfl⟩
  have found : (Cursor.ofText "--é%\x7d-%\x7d" >>= (·.nextToken ⟨0x06#8⟩)).toOption.map (·.1) =
      some (some ⟨.statement, ⟨0, 6⟩⟩) := by
    decide +kernel
  rw [opened, ok_bind] at found
  obtain ⟨⟨answer, after⟩, ran, rfl⟩ := exists_of_toOption_map found
  obtain ⟨harvest, taken, each⟩ := nextToken_rescan.2 stream
  have tokens : (Stream.ofText "--é%\x7d-%\x7d" ⟨0x06#8⟩ >>= Stream.takeAll).toOption.map
      (·.tokens) = some [⟨.statement, ⟨0, 6⟩⟩, ⟨.statement, ⟨6, 9⟩⟩] := by
    decide +kernel
  rw [stream, ok_bind, taken] at tokens
  exact ⟨cursor, after, _, ⟨.opened opened, ran, nextToken_rescan.1 (.opened opened) ran⟩, stream,
    harvest, taken, Option.some.inj tokens, each⟩

end TemplateScanner
