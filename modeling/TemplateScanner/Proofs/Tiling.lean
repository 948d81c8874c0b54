import TemplateScanner.Proofs.Turn

namespace TemplateScanner

/-- Scans once for each request, in order. -/
def Cursor.nextTokens : List Request → Cursor → Except Fault (List (Option Token) × Cursor)
  | [], cursor => .ok ([], cursor)
  | request :: requests, cursor => do
    let (token, cursor) ← cursor.nextToken request
    let (tokens, cursor) ← nextTokens requests cursor
    .ok (token :: tokens, cursor)

/-- Each span starts where the one before it stops, the first one at `start` and the last one stops
at `stop`. -/
def Abut : Nat → List Span → Nat → Prop
  | start, [], stop => start = stop
  | start, span :: spans, stop => span.start = start ∧ Abut span.stop spans stop

/-- Spans of whole characters that abut, from one place of a text to another. -/
def Covers (text : List Char) : Nat → List Span → Nat → Prop
  | place, [], last => place = last
  | place, span :: spans, last => ∃ next, place ≤ next ∧ next ≤ text.length ∧
      span = ⟨offset text place, offset text next⟩ ∧ Covers text next spans last

namespace Covers

variable {text : List Char} {spans : List Span} {place last : Nat}

theorem abut (covers : Covers text place spans last) :
    Abut (offset text place) spans (offset text last) := by
  induction spans generalizing place with
  | nil => exact congrArg (offset text) covers
  | cons span spans ih =>
    obtain ⟨next, _, _, rfl, later⟩ := covers
    exact ⟨rfl, ih later⟩

theorem exists_places (covers : Covers text place spans last) {span : Span} (mem : span ∈ spans) :
    ∃ a b, a ≤ b ∧ b ≤ text.length ∧ span = ⟨offset text a, offset text b⟩ := by
  induction spans generalizing place with
  | nil => cases mem
  | cons first spans ih =>
    obtain ⟨next, le, inside, eq, later⟩ := covers
    rcases List.mem_cons.mp mem with rfl | mem
    · exact ⟨place, next, le, inside, eq⟩
    · exact ih later mem

theorem le (covers : Covers text place spans last) : place ≤ last := by
  induction spans generalizing place with
  | nil => exact Nat.le_of_eq covers
  | cons span spans ih =>
    obtain ⟨next, le, _, _, later⟩ := covers
    exact Nat.le_trans le (ih later)

end Covers

theorem utf8ByteSize_ofList (text : List Char) :
    (String.ofList text).utf8ByteSize = byteLength text := by
  rw [← String.size_toByteArray, String.toByteArray_ofList, size_utf8Encode]

theorem byteLength_toList (text : String) : byteLength text.toList = text.utf8ByteSize := by
  have size := utf8ByteSize_ofList text.toList
  rw [String.ofList_toList] at size
  exact size.symm

theorem isValid_offset (text : String) (place : Nat) :
    String.Pos.Raw.IsValid text ⟨offset text.toList place⟩ := by
  have valid : String.Pos.Raw.IsValid (String.ofList text.toList) ⟨offset text.toList place⟩ :=
    String.Pos.Raw.isValid_ofList.mpr ⟨place, (utf8ByteSize_ofList _).symm⟩
  rwa [String.ofList_toList] at valid

/-- The text between two places is that of the characters between them. -/
theorem Source.text_offset {source : Source} {text : List Char} (holds : source.Holds text)
    {a b : Nat} (le : a ≤ b) : source.text ⟨offset text a, offset text b⟩ =
      .ok (String.ofList ((text.take b).drop a)) := by
  obtain ⟨beyond, buffer⟩ := holds.buffer_eq
  have split : text.take a ++ (text.take b).drop a = text.take b := by
    have whole := List.take_append_drop a (text.take b)
    rwa [List.take_take, Nat.min_eq_left le] at whole
  have slice := checkedSlice_utf8Encode (text.take a) ((text.take b).drop a)
    (text.drop b ++ ['\x00']) beyond
  rw [split, ← List.append_assoc, List.take_append_drop, ← buffer] at slice
  have inside : ¬source.length < offset text b := by
    rw [holds.length_eq]
    exact Nat.not_lt.mpr (offset_le_byteLength text b)
  rw [Source.text, if_neg inside]
  simp only [offset, slice, ok_bind, fromUTF8?_utf8Encode, Option.getD_some]

theorem Source.text_covers {source : Source} {text : List Char} (holds : source.Holds text)
    {spans : List Span} {place last : Nat} (covers : Covers text place spans last) :
    ∃ texts, spans.mapM source.text = .ok texts ∧
      (String.join texts).toList = (text.take last).drop place := by
  induction spans generalizing place with
  | nil =>
    cases show place = last from covers
    exact ⟨[], rfl, by simp⟩
  | cons span spans ih =>
    have le := covers.le
    obtain ⟨next, before, _, rfl, later⟩ := covers
    obtain ⟨texts, read, joined⟩ := ih later
    refine ⟨String.ofList ((text.take next).drop place) :: texts, ?_, ?_⟩
    · rw [List.mapM_cons, text_offset holds before, ok_bind, read]
      rfl
    · have after := later.le
      rw [String.join_cons, String.toList_append, String.toList_ofList, joined]
      have whole := List.take_append_drop (next - place) ((text.take last).drop place)
      rw [List.drop_drop, List.take_drop, List.take_take, Nat.add_sub_cancel' before,
        Nat.min_eq_left after] at whole
      exact whole

theorem IndexCursor.rest_toCursor {source : Source} {text : List Char}
    (holds : source.Holds text) {index : IndexCursor text} (inside : index.Inside) :
    (index.toCursor source).rest = .ok (String.ofList index.rest) := by
  have read := Source.text_offset holds inside.position
  rw [offset_of_length_le (Nat.le_refl _), ← holds.length_eq, List.take_length] at read
  exact read

/-- Tokens that tile a text from its start to where a reader goes on. -/
structure Cursor.Tiled (text : String) (tokens : List Token) (after : Cursor) : Prop where
  abut : Abut 0 (tokens.map (·.span)) after.position
  within : ∀ token ∈ tokens,
    token.span.start ≤ token.span.stop ∧ token.span.stop ≤ after.source.length
  whole : ∀ token ∈ tokens, String.Pos.Raw.IsValid text ⟨token.span.start⟩ ∧
    String.Pos.Raw.IsValid text ⟨token.span.stop⟩
  join : ∃ texts rest, (tokens.map (·.span)).mapM after.source.text = .ok texts ∧
    after.rest = .ok rest ∧ String.join texts ++ rest = text

theorem IndexCursor.tiled_of_covers {source : Source} {text : String}
    (holds : source.Holds text.toList) {tokens : List Token} {place : Nat}
    (le : place ≤ text.toList.length)
    (covers : Covers text.toList 0 (tokens.map (·.span)) place) :
    Cursor.Tiled text tokens ((startAt text.toList place).toCursor source) := by
  refine ⟨?_, ?_, ?_, ?_⟩
  · have abut := covers.abut
    rwa [offset_zero] at abut
  · intro token mem
    obtain ⟨a, b, le, _, eq⟩ := covers.exists_places (List.mem_map_of_mem mem)
    rw [eq]
    refine ⟨offset_mono _ le, ?_⟩
    show offset text.toList b ≤ source.length
    rw [holds.length_eq]
    exact offset_le_byteLength _ b
  · intro token mem
    obtain ⟨a, b, _, _, eq⟩ := covers.exists_places (List.mem_map_of_mem mem)
    rw [eq]
    exact ⟨isValid_offset text a, isValid_offset text b⟩
  · obtain ⟨texts, read, joined⟩ := Source.text_covers holds covers
    refine ⟨texts, _, read, rest_toCursor holds (inside_startAt le), ?_⟩
    rw [← String.toList_inj, String.toList_append, joined, String.toList_ofList, List.drop_zero]
    exact List.take_append_drop place text.toList

theorem IndexCursor.nextTokens_startAt {source : Source} {text : List Char}
    (holds : source.Holds text) {place : Nat} (le : place ≤ text.length)
    (requests : List Request) : ∃ answers last, last ≤ text.length ∧
      ((startAt text place).toCursor source).nextTokens requests =
        .ok (answers, (startAt text last).toCursor source) ∧
      Covers text place ((answers.filterMap id).map (·.span)) last := by
  induction requests generalizing place with
  | nil => exact ⟨[], place, le, rfl, rfl⟩
  | cons request requests ih =>
    have reach := request.reach_le (text.drop place)
    rw [List.length_drop] at reach
    obtain ⟨answers, last, inside, ran, covers⟩ :=
      ih (show place + request.reach (text.drop place) ≤ text.length by omega)
    refine ⟨request.token text place :: answers, last, inside, ?_, ?_⟩
    · simp only [Cursor.nextTokens, nextToken_startAt holds le, ok_bind, ran]
    · cases found : request.finds (text.drop place) with
      | none =>
        rw [Request.reach, found] at covers
        rw [Request.token, found]
        exact covers
      | some kind =>
        rw [Request.token, found]
        exact ⟨_, Nat.le_add_right _ _, by omega, rfl, covers⟩

/-- Whatever is asked for, scan by scan, the tokens found tile the text up to where reading goes on,
and a scan that finds nothing changes nothing. Begun in the midst of another scan, it leaves what a
rewind leaves. -/
theorem nextTokens_tile {text : String} {cursor : Cursor}
    (opened : Cursor.ofText text = .ok cursor) :
    (∀ requests : List Request, ∃ answers after,
      cursor.nextTokens requests = .ok (answers, after) ∧
      after.Tiled (scannable text) (answers.filterMap id) ∧
      ∀ request, ∃ token next, after.nextToken request = .ok (token, next) ∧
        (token = none → next = after)) ∧
    ∀ reached, Cursor.Reachable text reached → ∀ request, ∃ token next,
      reached.nextToken request = .ok (token, next) ∧ (token = none → next = reached.rewind) := by
  obtain ⟨holds, start⟩ := Cursor.ofText_eq_startAt opened
  have stopped : ∀ reached, Cursor.Reachable text reached → ∀ request, ∃ token next,
      reached.nextToken request = .ok (token, next) ∧ (token = none → next = reached.rewind) := by
    intro reached reachable request
    obtain ⟨source, index, holds, inside, rfl⟩ := reachable.exists_index
    obtain ⟨turn, turned, lost⟩ := IndexCursor.turn_toCursor holds inside request
    refine ⟨turn.token, turn.cursor, ?_, lost⟩
    rw [Cursor.nextToken, turned]
    rfl
  refine ⟨?_, stopped⟩
  intro requests
  obtain ⟨answers, last, inside, ran, covers⟩ :=
    IndexCursor.nextTokens_startAt holds (Nat.zero_le _) requests
  rw [← start] at ran
  refine ⟨answers, _, ran, IndexCursor.tiled_of_covers holds inside covers, ?_⟩
  intro request
  refine ⟨_, _, IndexCursor.nextToken_startAt holds inside request, ?_⟩
  intro lost
  rw [Request.token, Option.map_eq_none_iff] at lost
  rw [Request.reach, lost]
  rfl

theorem nextTokens_tile_comment_statement : ∃ cursor after,
    Cursor.ofText "--é-->b%\x7d" = .ok cursor ∧
    cursor.nextTokens [⟨0x04#8⟩, ⟨0x04#8⟩, ⟨0x02#8⟩] =
      .ok ([some ⟨.comment, ⟨0, 7⟩⟩, none, some ⟨.statement, ⟨7, 10⟩⟩], after) ∧
    after.Tiled "--é-->b%\x7d" [⟨.comment, ⟨0, 7⟩⟩, ⟨.statement, ⟨7, 10⟩⟩] := by
  have fits : "--é-->b%\x7d".utf8ByteSize < offsetLimit := by decide
  obtain ⟨cursor, opened⟩ := Cursor.exists_ofText fits
  obtain ⟨answers, after, ran, tiled, _⟩ :=
    (nextTokens_tile opened).1 [⟨0x04#8⟩, ⟨0x04#8⟩, ⟨0x02#8⟩]
  have found : ((Cursor.ofText "--é-->b%\x7d" >>=
      (·.nextTokens [⟨0x04#8⟩, ⟨0x04#8⟩, ⟨0x02#8⟩])).toOption.map (·.1)) =
        some [some ⟨.comment, ⟨0, 7⟩⟩, none, some ⟨.statement, ⟨7, 10⟩⟩] := by
    decide +kernel
  rw [opened, ok_bind, ran] at found
  cases Option.some.inj found
  rw [scannable_of_lt fits] at tiled
  exact ⟨cursor, after, opened, ran, tiled⟩

end TemplateScanner
