import Mathlib.Data.List.Forall2
import TemplateScanner.Proofs.StreamShape

namespace TemplateScanner

theorem place_eq_of_offset_eq {text : List Char} {a b : Nat} (ha : a ≤ text.length)
    (hb : b ≤ text.length) (same : offset text a = offset text b) : a = b := by
  rcases Nat.lt_trichotomy a b with lt | eq | lt
  · have far : offset text a < offset text b := offset_lt_offset lt (by omega)
    omega
  · exact eq
  · have far : offset text b < offset text a := offset_lt_offset lt (by omega)
    omega

/-- Two tokens of one kind and one text, the one as far past `here` in its source as the other is
past `there`. -/
structure Token.Matches (source source' : Source) (here there : Nat) (token token' : Token) :
    Prop where
  kind : token'.kind = token.kind
  start : token'.span.start + here = token.span.start + there
  stop : token'.span.stop + here = token.span.stop + there
  text : ∃ text, source.text token.span = .ok text ∧ source'.text token'.span = .ok text

/-- Asked the same, two readers find matching tokens at the same calls, and leave the same text. -/
def Cursor.AnswersAs (cursor cursor' : Cursor) (here there : Nat) : Prop :=
  ∀ requests, ∃ answers answers' after after' left,
    cursor.nextTokens requests = .ok (answers, after) ∧
    cursor'.nextTokens requests = .ok (answers', after') ∧
    List.Forall₂ (Option.Rel (Token.Matches cursor.source cursor'.source here there))
      answers answers' ∧
    after.rest = .ok left ∧ after'.rest = .ok left

/-- The same of two streams, each of which has a request of its own. -/
def Stream.AnswersAs (stream stream' : Stream) (here there : Nat) : Prop :=
  ∀ calls, ∃ answers answers' last last' left,
    stream.nexts calls = .ok (answers, last) ∧ stream'.nexts calls = .ok (answers', last') ∧
    List.Forall₂ (Option.Rel
      (Token.Matches stream.cursor.source stream'.cursor.source here there)) answers answers' ∧
    last.remaining = .ok left ∧ last'.remaining = .ok left

theorem Token.Matches.isEmpty_eq {source source' : Source} {here there : Nat}
    {token token' : Token} (same : Token.Matches source source' here there token token') :
    token'.span.isEmpty = token.span.isEmpty := by
  have start := same.start
  have stop := same.stop
  have ends : token'.span.start = token'.span.stop ↔ token.span.start = token.span.stop := by
    omega
  rw [Bool.eq_iff_iff]
  simpa [Span.isEmpty] using ends

theorem Token.rel_filter {source source' : Source} {here there : Nat} {found found' : Option Token}
    (same : Option.Rel (Token.Matches source source' here there) found found') :
    Option.Rel (Token.Matches source source' here there)
      (found.filter (!·.span.isEmpty)) (found'.filter (!·.span.isEmpty)) := by
  cases same with
  | none => exact .none
  | @some token token' matched =>
    have empty := matched.isEmpty_eq
    cases which : token.span.isEmpty with
    | true =>
      rw [which] at empty
      simp only [Option.filter_some, which, empty]
      exact .none
    | false =>
      rw [which] at empty
      simp only [Option.filter_some, which, empty]
      exact .some matched

/-- The token that a stream takes at a place of a text, which is not empty. -/
def Request.filled (request : Request) (text : List Char) (place : Nat) : Option Token :=
  (request.token text place).filter (!·.span.isEmpty)

theorem Request.filled_eq_none_iff {request : Request} {text : List Char} {place : Nat}
    (le : place ≤ text.length) :
    request.filled text place = none ↔ request.reach (text.drop place) = 0 := by
  have reach := request.reach_le (text.drop place)
  rw [List.length_drop] at reach
  rw [filled, token]
  cases found : request.finds (text.drop place) with
  | none => simp [Request.reach, found]
  | some kind =>
    rw [Option.map_some, Option.filter_eq_none_iff]
    constructor
    · intro empty
      have same : offset text place = offset text (place + request.reach (text.drop place)) := by
        simpa [Span.isEmpty] using empty
      have stays := place_eq_of_offset_eq le (by omega) same
      omega
    · intro stuck
      simp [Span.isEmpty, stuck]

section Rest

variable {source source' : Source} {before before' rest : List Char} {place : Nat}
  {request : Request}

theorem Token.matches_of_places (holds : source.Holds (before ++ rest))
    (holds' : source'.Holds (before' ++ rest)) (kind : Kind) {stop : Nat} (le : place ≤ stop) :
    Token.Matches source source' (byteLength before) (byteLength before')
      ⟨kind, ⟨offset (before ++ rest) (before.length + place),
        offset (before ++ rest) (before.length + stop)⟩⟩
      ⟨kind, ⟨offset (before' ++ rest) (before'.length + place),
        offset (before' ++ rest) (before'.length + stop)⟩⟩ := by
  have read := Source.text_offset holds (Nat.add_le_add_left le before.length)
  have read' := Source.text_offset holds' (Nat.add_le_add_left le before'.length)
  rw [List.take_length_add_append, List.drop_length_add_append] at read read'
  refine ⟨rfl, ?_, ?_, _, read, read'⟩
  · simp only [offset_length_add]
    omega
  · simp only [offset_length_add]
    omega

/-- What one scan finds is told by the text still to be read. -/
theorem Request.token_matches (holds : source.Holds (before ++ rest))
    (holds' : source'.Holds (before' ++ rest)) (request : Request) (place : Nat) :
    Option.Rel (Token.Matches source source' (byteLength before) (byteLength before'))
      (request.token (before ++ rest) (before.length + place))
      (request.token (before' ++ rest) (before'.length + place)) := by
  simp only [Request.token, List.drop_length_add_append]
  cases request.finds (rest.drop place) with
  | none => exact .none
  | some kind =>
    have found := Token.matches_of_places holds holds' kind
      (Nat.le_add_right place (request.reach (rest.drop place)))
    simp only [Nat.add_assoc]
    exact .some found

theorem Request.filled_matches (holds : source.Holds (before ++ rest))
    (holds' : source'.Holds (before' ++ rest)) (request : Request) (place : Nat) :
    Option.Rel (Token.Matches source source' (byteLength before) (byteLength before'))
      (request.filled (before ++ rest) (before.length + place))
      (request.filled (before' ++ rest) (before'.length + place)) :=
  Token.rel_filter (request.token_matches holds holds' place)

theorem IndexCursor.rest_length_add (holds : source.Holds (before ++ rest))
    (le : place ≤ rest.length) :
    ((startAt (before ++ rest) (before.length + place)).toCursor source).rest =
      .ok (String.ofList (rest.drop place)) := by
  have inside : before.length + place ≤ (before ++ rest).length := by
    rw [List.length_append]
    omega
  have left := rest_toCursor holds (inside_startAt inside)
  rw [IndexCursor.rest, startAt, List.drop_length_add_append] at left
  exact left

theorem IndexCursor.nextTokens_matches (holds : source.Holds (before ++ rest))
    (holds' : source'.Holds (before' ++ rest)) (le : place ≤ rest.length)
    (requests : List Request) : ∃ answers answers' after after' left,
      ((startAt (before ++ rest) (before.length + place)).toCursor source).nextTokens requests =
        .ok (answers, after) ∧
      ((startAt (before' ++ rest) (before'.length + place)).toCursor source').nextTokens requests =
        .ok (answers', after') ∧
      List.Forall₂ (Option.Rel
        (Token.Matches source source' (byteLength before) (byteLength before')))
        answers answers' ∧
      after.rest = .ok left ∧ after'.rest = .ok left := by
  induction requests generalizing place with
  | nil =>
    exact ⟨[], [], _, _, _, rfl, rfl, .nil, rest_length_add holds le, rest_length_add holds' le⟩
  | cons request requests ih =>
    have inside : before.length + place ≤ (before ++ rest).length := by
      rw [List.length_append]
      omega
    have inside' : before'.length + place ≤ (before' ++ rest).length := by
      rw [List.length_append]
      omega
    have reach := request.reach_le (rest.drop place)
    rw [List.length_drop] at reach
    have next := nextToken_startAt holds inside request
    have next' := nextToken_startAt holds' inside' request
    rw [List.drop_length_add_append, Nat.add_assoc] at next next'
    obtain ⟨answers, answers', after, after', left, ran, ran', same, ends⟩ :=
      ih (show place + request.reach (rest.drop place) ≤ rest.length by omega)
    refine ⟨_ :: answers, _ :: answers', after, after', left, ?_, ?_,
      .cons (request.token_matches holds holds' place) same, ends⟩
    · simp only [Cursor.nextTokens, next, ok_bind, ran]
    · simp only [Cursor.nextTokens, next', ok_bind, ran']

/-- Two readers before the same text answer each request alike, however they came there. -/
theorem IndexCursor.answersAs (holds : source.Holds (before ++ rest))
    (holds' : source'.Holds (before' ++ rest)) :
    ((startAt (before ++ rest) before.length).toCursor source).AnswersAs
      ((startAt (before' ++ rest) before'.length).toCursor source')
      (byteLength before) (byteLength before') :=
  nextTokens_matches holds holds' (Nat.zero_le rest.length)

end Rest

namespace Stream

/-- A stream that has come to a place of its text; if it is finished, no token begins there. -/
structure Stands (stream : Stream) (source : Source) (text : List Char) (request : Request)
    (place : Nat) : Prop where
  reader : stream.cursor = (IndexCursor.startAt text place).toCursor source
  asks : stream.request = request
  inside : place ≤ text.length
  stuck : stream.finished = true → request.reach (text.drop place) = 0

namespace Stands

variable {stream : Stream} {source : Source} {text : List Char} {request : Request} {place : Nat}

theorem reach_of_spent (stands : stream.Stands source text request place)
    (holds : source.Holds text) (spent : stream.Spent) : request.reach (text.drop place) = 0 := by
  rcases spent with finished | ended
  · exact stands.stuck finished
  · rw [stands.reader, IndexCursor.atEnd_toCursor holds] at ended
    have past : text.length ≤ place := of_decide_eq_true ended
    have reach := request.reach_le (text.drop place)
    rw [List.length_drop] at reach
    omega

/-- One step of a stream, whether or not it comes to its end. -/
theorem next (stands : stream.Stands source text request place) (holds : source.Holds text) :
    ∃ after, stream.next = .ok (request.filled text place, after) ∧
      after.Stands source text request (place + request.reach (text.drop place)) := by
  have inside := stands.inside
  have filled : request.filled text place = none ↔ request.reach (text.drop place) = 0 :=
    Request.filled_eq_none_iff inside
  by_cases ended : stream.Spent
  · have stuck := stands.reach_of_spent holds ended
    refine ⟨stream, ?_, ?_⟩
    · rw [filled.mpr stuck]
      exact ended.next
    · rw [stuck]
      exact stands
  · have more : ¬(stream.finished || stream.cursor.atEnd) = true := fun either =>
      ended (Bool.or_eq_true_iff.mp either)
    have reach := request.reach_le (text.drop place)
    rw [List.length_drop] at reach
    obtain ⟨attempts, turned⟩ := IndexCursor.turn_startAt holds inside request
    rw [← stands.reader, ← stands.asks] at turned
    refine ⟨{ stream with
      cursor := (IndexCursor.startAt text (place + request.reach (text.drop place))).toCursor source
      finished := (request.filled text place).isNone }, ?_, rfl, stands.asks, ?_, ?_⟩
    · rw [Stream.next, step, if_neg more, turned, ← stands.asks]
      rfl
    · omega
    · intro none
      have stuck := filled.mp (Option.isNone_iff_eq_none.mp none)
      rw [stuck]
      exact stuck

theorem nexts (stands : stream.Stands source text request place) (holds : source.Holds text)
    (calls : Nat) : ∃ answers last place', stream.nexts calls = .ok (answers, last) ∧
      last.Stands source text request place' := by
  induction calls generalizing stream place with
  | zero => exact ⟨[], stream, place, rfl, stands⟩
  | succ calls ih =>
    obtain ⟨after, first, later⟩ := stands.next holds
    obtain ⟨answers, last, place', ran, hl⟩ := ih later
    refine ⟨request.filled text place :: answers, last, place', ?_, hl⟩
    simp only [Stream.nexts, first, ok_bind, ran]

theorem remaining (stands : stream.Stands source text request place) (holds : source.Holds text) :
    stream.remaining = .ok (String.ofList (text.drop place)) := by
  rw [Stream.remaining, stands.reader]
  exact IndexCursor.rest_toCursor holds (IndexCursor.inside_startAt stands.inside)

end Stands

theorem nexts_matches {source source' : Source} {before before' rest : List Char}
    (holds : source.Holds (before ++ rest)) (holds' : source'.Holds (before' ++ rest))
    {request : Request} {stream stream' : Stream} {place : Nat}
    (stands : stream.Stands source (before ++ rest) request (before.length + place))
    (stands' : stream'.Stands source' (before' ++ rest) request (before'.length + place))
    (calls : Nat) : ∃ answers answers' last last' left,
      stream.nexts calls = .ok (answers, last) ∧ stream'.nexts calls = .ok (answers', last') ∧
      List.Forall₂ (Option.Rel
        (Token.Matches source source' (byteLength before) (byteLength before')))
        answers answers' ∧
      last.remaining = .ok left ∧ last'.remaining = .ok left := by
  induction calls generalizing stream stream' place with
  | zero =>
    have left := stands.remaining holds
    have left' := stands'.remaining holds'
    rw [List.drop_length_add_append] at left left'
    exact ⟨[], [], stream, stream', _, rfl, rfl, .nil, left, left'⟩
  | succ calls ih =>
    obtain ⟨after, first, later⟩ := stands.next holds
    obtain ⟨after', first', later'⟩ := stands'.next holds'
    rw [List.drop_length_add_append, Nat.add_assoc] at later later'
    obtain ⟨answers, answers', last, last', left, ran, ran', same, ends⟩ := ih later later'
    refine ⟨_ :: answers, _ :: answers', last, last', left, ?_, ?_,
      .cons (request.filled_matches holds holds' place) same, ends⟩
    · simp only [Stream.nexts, first, ok_bind, ran]
    · simp only [Stream.nexts, first', ok_bind, ran']

/-- Two streams before the same text go on alike, however they came there. -/
theorem Stands.answersAs {source source' : Source} {before before' rest : List Char}
    (holds : source.Holds (before ++ rest)) (holds' : source'.Holds (before' ++ rest))
    {request : Request} {stream stream' : Stream}
    (stands : stream.Stands source (before ++ rest) request before.length)
    (stands' : stream'.Stands source' (before' ++ rest) request before'.length) :
    stream.AnswersAs stream' (byteLength before) (byteLength before') := by
  have start : stream.Stands source (before ++ rest) request (before.length + 0) := stands
  have start' : stream'.Stands source' (before' ++ rest) request (before'.length + 0) := stands'
  rw [AnswersAs, stands.reader, stands'.reader]
  exact nexts_matches holds holds' start start'

theorem stands_start {source : Source} {text : List Char} {cursor : Cursor}
    (start : cursor = (IndexCursor.startAt text 0).toCursor source) (request : Request) :
    Stands ⟨cursor, request, false⟩ source text request 0 := by
  refine ⟨start, rfl, Nat.zero_le _, ?_⟩
  intro finished
  cases finished

end Stream

/-- A piece of a text that a source holds is short enough for a reader of its own. -/
theorem Source.Holds.exists_reader {source : Source} {text piece : List Char}
    (holds : source.Holds text) (part : piece <:+: text) :
    ∃ cursor, Cursor.ofText (String.ofList piece) = .ok cursor ∧ cursor.source.Holds piece ∧
      cursor = (IndexCursor.startAt piece 0).toCursor cursor.source := by
  have short := holds.short
  obtain ⟨before, after, rfl⟩ := part
  rw [holds.length_eq, byteLength_append, byteLength_append] at short
  have fits : (String.ofList piece).utf8ByteSize < offsetLimit := by
    rw [utf8ByteSize_ofList]
    omega
  obtain ⟨cursor, opened⟩ := Cursor.exists_ofText fits
  have placed := Cursor.ofText_eq_startAt opened
  rw [scannable_of_lt fits, String.toList_ofList] at placed
  exact ⟨cursor, opened, placed⟩

/-- A stream under way goes on as a new stream over the text that it has left would. -/
theorem Stream.Stands.exists_fresh {stream : Stream} {source : Source} {text : List Char}
    {request : Request} {place : Nat} (stands : stream.Stands source text request place)
    (holds : source.Holds text) : ∃ fresh,
      ofText (String.ofList (text.drop place)) request = .ok fresh ∧
      stream.AnswersAs fresh (offset text place) 0 := by
  obtain ⟨before, rest, rfl, rfl⟩ : ∃ before rest, text = before ++ rest ∧
      place = before.length :=
    ⟨text.take place, text.drop place, (List.take_append_drop _ _).symm,
      (List.length_take_of_le stands.inside).symm⟩
  obtain ⟨cursor, placed, holds', start⟩ :=
    holds.exists_reader (List.suffix_append before rest).isInfix
  have stands' := stands_start start request
  rw [← List.nil_append rest] at holds' stands'
  have place : offset (before ++ rest) before.length = byteLength before := by
    rw [offset, List.take_left]
  rw [List.drop_left, place]
  exact ⟨_, ofText_eq_ok_iff.mpr ⟨cursor, placed, rfl⟩, stands.answersAs holds holds' stands'⟩

theorem Cursor.AtBoundary.exists_source {text before rest : String} {cursor : Cursor}
    (boundary : Cursor.AtBoundary text cursor) (split : scannable text = before ++ rest)
    (position : cursor.position = before.utf8ByteSize) :
    ∃ source : Source, source.Holds (before.toList ++ rest.toList) ∧
      cursor = (IndexCursor.startAt (before.toList ++ rest.toList)
        before.toList.length).toCursor source := by
  obtain ⟨source, place, holds, le, rfl⟩ := boundary.exists_place
  rw [split, String.toList_append] at holds le position ⊢
  have whole := offset_length_add before.toList rest.toList 0
  rw [offset_zero, Nat.add_zero, Nat.add_zero, byteLength_toList] at whole
  have inside : before.toList.length ≤ (before.toList ++ rest.toList).length := by
    rw [List.length_append]
    exact Nat.le_add_right _ _
  have eq := place_eq_of_offset_eq le inside (position.trans whole.symm)
  rw [eq]
  exact ⟨source, holds, rfl⟩

/-- Nothing but the text still to be read tells what scans will find: not what was read before it,
nor how far into a source it is, nor the scans that led there. -/
theorem nextTokens_of_unread :
    (∀ {text text' before before' rest : String} {cursor cursor' : Cursor},
      Cursor.AtBoundary text cursor → Cursor.AtBoundary text' cursor' →
      scannable text = before ++ rest → scannable text' = before' ++ rest →
      cursor.position = before.utf8ByteSize → cursor'.position = before'.utf8ByteSize →
      cursor.AnswersAs cursor' before.utf8ByteSize before'.utf8ByteSize) ∧
    ∀ {text : String} {request : Request} {stream : Stream},
      Stream.ofText text request = .ok stream →
      ∀ taken, ∃ answers after consumed remaining fresh,
        stream.nexts taken = .ok (answers, after) ∧
        scannable text = consumed ++ remaining ∧
        after.cursor.position = consumed.utf8ByteSize ∧ after.remaining = .ok remaining ∧
        Stream.ofText remaining request = .ok fresh ∧
        after.AnswersAs fresh consumed.utf8ByteSize 0 := by
  refine ⟨?_, ?_⟩
  · intro text text' before before' rest cursor cursor' boundary boundary' split split' position
      position'
    obtain ⟨source, holds, rfl⟩ := boundary.exists_source split position
    obtain ⟨source', holds', rfl⟩ := boundary'.exists_source split' position'
    have same := IndexCursor.answersAs holds holds'
    rwa [byteLength_toList, byteLength_toList] at same
  · intro text request stream opened taken
    obtain ⟨cursor, placed, rfl⟩ := Stream.ofText_eq_ok_iff.mp opened
    obtain ⟨holds, start⟩ := Cursor.ofText_eq_startAt placed
    have stands := Stream.stands_start start request
    obtain ⟨answers, after, place, ran, later⟩ := stands.nexts holds taken
    obtain ⟨fresh, started, follows⟩ := later.exists_fresh holds
    have consumed : byteLength (String.ofList ((scannable text).toList.take place)).toList =
        offset (scannable text).toList place := by
      rw [String.toList_ofList, offset]
    rw [byteLength_toList] at consumed
    rw [← consumed] at follows
    refine ⟨answers, after, _, _, fresh, ran, ?_, ?_, later.remaining holds, started, follows⟩
    · rw [← String.toList_inj, String.toList_append, String.toList_ofList, String.toList_ofList,
        List.take_append_drop]
    · rw [later.reader, consumed]
      rfl

theorem nextTokens_of_unread_two_bytes : ∃ (cursor cursor' : Cursor) (stream : Stream),
    (Cursor.AtBoundary "éb%\x7d" cursor ∧ cursor.position = 2 ∧
      Cursor.AtBoundary "b%\x7d" cursor' ∧ cursor'.position = 0 ∧
      cursor.AnswersAs cursor' 2 0) ∧
    Stream.ofText "éb%\x7dc" ⟨0x02#8⟩ = .ok stream ∧
    ∃ answers after consumed remaining fresh, stream.nexts 1 = .ok (answers, after) ∧
      scannable "éb%\x7dc" = consumed ++ remaining ∧
      after.cursor.position = consumed.utf8ByteSize ∧ after.remaining = .ok remaining ∧
      Stream.ofText remaining ⟨0x02#8⟩ = .ok fresh ∧
      after.AnswersAs fresh consumed.utf8ByteSize 0 := by
  have fits : "éb%\x7d".utf8ByteSize < offsetLimit := by decide
  have fits' : "b%\x7d".utf8ByteSize < offsetLimit := by decide
  have long : "éb%\x7dc".utf8ByteSize < offsetLimit := by decide
  obtain ⟨first, opened⟩ := Cursor.exists_ofText fits
  obtain ⟨cursor', opened'⟩ := Cursor.exists_ofText fits'
  obtain ⟨start, placed⟩ := Cursor.exists_ofText long
  have advanced : (Cursor.ofText "éb%\x7d" >>= Operation.run (.advance false)).toOption.map
      (fun result => (result.2.close true).2.position) = some 2 := by
    decide +kernel
  rw [opened, ok_bind] at advanced
  obtain ⟨⟨answer, after⟩, ran, position⟩ := exists_of_toOption_map advanced
  have position' : cursor'.position = 0 := by
    rw [(Cursor.ofText_holds opened').2]
    rfl
  have boundary : Cursor.AtBoundary "éb%\x7d" (after.close true).2 :=
    .closed true (.operated (.opened opened) ran)
  have stream : Stream.ofText "éb%\x7dc" ⟨0x02#8⟩ = .ok ⟨start, ⟨0x02#8⟩, false⟩ :=
    Stream.ofText_eq_ok_iff.mpr ⟨start, placed, rfl⟩
  refine ⟨_, cursor', _, ⟨boundary, position, .opened opened', position', ?_⟩, stream, ?_⟩
  · exact nextTokens_of_unread.1 boundary (.opened opened')
      ((scannable_of_lt fits).trans (show "éb%\x7d" = "é" ++ "b%\x7d" by decide))
      ((scannable_of_lt fits').trans (show "b%\x7d" = "" ++ "b%\x7d" by decide))
      position position'
  · exact nextTokens_of_unread.2 stream 1

end TemplateScanner
