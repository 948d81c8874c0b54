import TemplateScanner.Proofs.Pieces
import TemplateScanner.Proofs.Tiling
import TemplateScanner.Stream

namespace TemplateScanner

/-- The tokens that cover pieces of a text from a place on. -/
def tokensOf (text : List Char) : Nat → List (Kind × List Char) → List Token
  | _, [] => []
  | place, (kind, piece) :: pieces =>
    ⟨kind, ⟨offset text place, offset text (place + piece.length)⟩⟩ ::
      tokensOf text (place + piece.length) pieces

theorem kinds_tokensOf (text : List Char) (place : Nat) (pieces : List (Kind × List Char)) :
    (tokensOf text place pieces).map (·.kind) = pieces.map (·.1) := by
  induction pieces generalizing place with
  | nil => rfl
  | cons piece pieces ih =>
    rw [tokensOf, List.map_cons, List.map_cons, ih]

theorem kind_of_mem_tokensOf {text : List Char} {place : Nat} {pieces : List (Kind × List Char)}
    {token : Token} (mem : token ∈ tokensOf text place pieces) :
    ∃ piece ∈ pieces, piece.1 = token.kind := by
  have found := List.mem_map_of_mem (f := (·.kind)) mem
  rw [kinds_tokensOf] at found
  exact List.mem_map.mp found

theorem drop_piece {text piece more : List Char} {place : Nat}
    (eq : text.drop place = piece ++ more) : text.drop (place + piece.length) = more := by
  rw [← List.drop_drop, eq, List.drop_left]

theorem abut_tokensOf (text : List Char) (place : Nat) (pieces : List (Kind × List Char)) :
    Abut (offset text place) ((tokensOf text place pieces).map (·.span))
      (offset text (place + (pieces.map (·.2)).flatten.length)) := by
  induction pieces generalizing place with
  | nil => rfl
  | cons piece pieces ih =>
    rw [List.map_cons, List.flatten_cons, List.length_append, ← Nat.add_assoc]
    exact ⟨rfl, ih (place + piece.2.length)⟩

/-- The tokens of a text abut from its start to where they leave off. -/
theorem Pieces.abut {request : Request} {text last : List Char}
    {pieces : List (Kind × List Char)} (h : Pieces request text pieces last) :
    Abut 0 ((tokensOf text 0 pieces).map (·.span)) (byteLength (pieces.map (·.2)).flatten) := by
  have covered := abut_tokensOf text 0 pieces
  have stop : offset text (pieces.map (·.2)).flatten.length =
      byteLength (pieces.map (·.2)).flatten := by
    rw [offset, ← h.flatten, List.take_left]
  rwa [offset_zero, Nat.zero_add, stop] at covered

theorem filled_tokensOf {text last : List Char} {place : Nat} {pieces : List (Kind × List Char)}
    (eq : text.drop place = (pieces.map (·.2)).flatten ++ last)
    (ne : ∀ piece ∈ pieces, piece.2 ≠ []) :
    ∀ token ∈ tokensOf text place pieces, token.span.start < token.span.stop := by
  induction pieces generalizing place with
  | nil => simp [tokensOf]
  | cons piece pieces ih =>
    rw [List.map_cons, List.flatten_cons, List.append_assoc] at eq
    intro token mem
    rcases List.mem_cons.mp mem with rfl | mem
    · have long := List.length_pos_iff.mpr (ne piece List.mem_cons_self)
      have length := congrArg List.length eq
      rw [List.length_drop, List.length_append] at length
      exact offset_lt_offset (by omega) (by omega)
    · have later := fun other mem => ne other (List.mem_cons_of_mem piece mem)
      exact ih (drop_piece eq) later token mem

theorem texts_tokensOf {source : Source} {text last : List Char} (holds : source.Holds text)
    {place : Nat} {pieces : List (Kind × List Char)}
    (eq : text.drop place = (pieces.map (·.2)).flatten ++ last) :
    (tokensOf text place pieces).mapM (fun token => source.text token.span) =
      .ok (pieces.map fun piece => String.ofList piece.2) := by
  induction pieces generalizing place with
  | nil => rfl
  | cons piece pieces ih =>
    rw [List.map_cons, List.flatten_cons, List.append_assoc] at eq
    have read := Source.text_offset holds (Nat.le_add_right place piece.2.length)
    rw [List.drop_take, Nat.add_sub_cancel_left, eq, List.take_left] at read
    rw [tokensOf, List.mapM_cons, read, ok_bind, ih (drop_piece eq)]
    rfl

theorem Pieces.join {request : Request} {text last : List Char}
    {pieces : List (Kind × List Char)} (h : Pieces request text pieces last) :
    String.join (pieces.map fun piece => String.ofList piece.2) ++ String.ofList last =
      String.ofList text := by
  rw [← String.toList_inj, String.toList_append, String.toList_join, String.toList_ofList,
    String.toList_ofList, List.flatMap_map]
  simp only [String.toList_ofList]
  exact h.flatten

namespace Stream

/-- A stream at the start of a text. -/
def ofText (text : String) (request : Request) : Except Fault Stream := do
  let source ← Source.ofText text
  ofSource source request

theorem ofText_eq_ok_iff {text : String} {request : Request} {stream : Stream} :
    ofText text request = .ok stream ↔
      ∃ cursor, Cursor.ofText text = .ok cursor ∧ stream = ⟨cursor, request, false⟩ := by
  constructor
  · intro opened
    obtain ⟨source, made, opened⟩ := bind_eq_ok_iff.mp opened
    obtain ⟨cursor, started, opened⟩ := bind_eq_ok_iff.mp opened
    exact ⟨cursor, bind_eq_ok_iff.mpr ⟨source, made, started⟩, (Except.ok.inj opened).symm⟩
  · rintro ⟨cursor, opened, rfl⟩
    obtain ⟨source, made, started⟩ := bind_eq_ok_iff.mp opened
    rw [ofText, made, ok_bind, ofSource, started]
    rfl

/-- A stream of a source that has come to a place of its text. -/
def startAt (source : Source) (text : List Char) (request : Request) (place : Nat) : Stream :=
  ⟨(IndexCursor.startAt text place).toCursor source, request, false⟩

/-- A stream that a source opens stands at the start of its text. -/
theorem ofSource_eq_startAt {text : String} {source : Source} {request : Request}
    {stream : Stream} (made : Source.ofText text = .ok source)
    (opened : ofSource source request = .ok stream) :
    source.Holds (scannable text).toList ∧
      stream = startAt source (scannable text).toList request 0 := by
  obtain ⟨cursor, started, eq⟩ := bind_eq_ok_iff.mp opened
  cases Except.ok.inj eq
  obtain ⟨holds, start⟩ := Cursor.ofText_eq_startAt (bind_eq_ok_iff.mpr ⟨source, made, started⟩)
  rw [Source.source_of_cursor started] at holds start
  rw [start]
  exact ⟨holds, rfl⟩

/-- Asks for a token so many times, whatever the answers are. -/
def nexts : Nat → Stream → Except Fault (List (Option Token) × Stream)
  | 0, stream => .ok ([], stream)
  | calls + 1, stream => do
    let (token, stream) ← stream.next
    let (tokens, stream) ← nexts calls stream
    .ok (token :: tokens, stream)

/-- The stream has come to its end. -/
def Spent (stream : Stream) : Prop :=
  stream.finished = true ∨ stream.cursor.atEnd = true

theorem Spent.next {stream : Stream} (spent : stream.Spent) : stream.next = .ok (none, stream) := by
  have ended : (stream.finished || stream.cursor.atEnd) = true := Bool.or_eq_true_iff.mpr spent
  rw [Stream.next, step, if_pos ended]
  rfl

theorem Spent.nexts {stream : Stream} (spent : stream.Spent) (calls : Nat) :
    stream.nexts calls = .ok (List.replicate calls none, stream) := by
  induction calls with
  | zero => rfl
  | succ calls ih =>
    rw [Stream.nexts, spent.next]
    simp only [ok_bind, ih]
    rfl

section startAt

variable {source : Source} {text : List Char} {place : Nat} {request : Request}

theorem step_of_reach_eq_zero (holds : source.Holds text) (le : place ≤ text.length)
    (stuck : request.reach (text.drop place) = 0) : ∃ attempts after,
      (startAt source text request place).step = .ok ⟨attempts, none, after⟩ ∧
      after.cursor = (IndexCursor.startAt text place).toCursor source ∧ after.Spent := by
  by_cases ended : ((IndexCursor.startAt text place).toCursor source).atEnd = true
  · refine ⟨[], startAt source text request place, ?_, rfl, .inr ended⟩
    exact if_pos (Bool.or_eq_true_iff.mpr (.inr ended))
  · obtain ⟨attempts, turned⟩ := IndexCursor.turn_startAt holds le request
    rw [stuck, Nat.add_zero] at turned
    have empty : (request.token text place).filter (!·.span.isEmpty) = none := by
      rw [Request.token, stuck]
      cases request.finds (text.drop place) with
      | none => rfl
      | some kind => simp [Span.isEmpty]
    refine ⟨attempts, { startAt source text request place with finished := true }, ?_, rfl,
      .inl rfl⟩
    rw [step, startAt, if_neg (by simpa using ended), turned]
    simp only [ok_bind, empty, Option.isNone_none]

theorem step_of_finds (holds : source.Holds text) (le : place ≤ text.length) {kind : Kind}
    (found : request.finds (text.drop place) = some kind)
    (pos : 0 < kind.reach (text.drop place)) : ∃ attempts,
      (startAt source text request place).step = .ok
        { attempts := attempts
          token := some ⟨kind, ⟨offset text place,
            offset text (place + kind.reach (text.drop place))⟩⟩
          stream := startAt source text request (place + kind.reach (text.drop place)) } := by
  have reach := kind.reach_le (text.drop place)
  rw [List.length_drop] at reach
  have inside : place < text.length := by omega
  have more : ((IndexCursor.startAt text place).toCursor source).atEnd = false := by
    rw [IndexCursor.atEnd_toCursor holds]
    exact decide_eq_false (Nat.not_le.mpr inside)
  have filled := offset_lt_offset (Nat.lt_add_of_pos_right pos) inside
  obtain ⟨attempts, turned⟩ := IndexCursor.turn_startAt holds le request
  rw [Request.token, Request.reach_of_finds found, found] at turned
  refine ⟨attempts, ?_⟩
  rw [step, startAt, more, turned]
  simp [startAt, Option.filter, Span.isEmpty, Nat.ne_of_lt filled]

/-- Taking tokens from a place on gives the tokens of the text after it, given enough steps. -/
theorem take_startAt (holds : source.Holds text) (le : place ≤ text.length) {limit : Nat}
    (enough : text.length - place < limit) : ∃ harvest pieces last,
      (startAt source text request place).take limit = .ok harvest ∧ harvest.ended = true ∧
      harvest.tokens = tokensOf text place pieces ∧
      Pieces request (text.drop place) pieces (text.drop last) ∧ last ≤ text.length ∧
      harvest.stream.cursor = (IndexCursor.startAt text last).toCursor source ∧
      harvest.stream.Spent := by
  induction limit generalizing place with
  | zero => omega
  | succ limit ih =>
    by_cases stuck : request.reach (text.drop place) = 0
    · obtain ⟨attempts, after, stepped, stopped, spent⟩ := step_of_reach_eq_zero holds le stuck
      refine ⟨⟨attempts, [], true, after⟩, [], place, ?_, rfl, rfl, .ended stuck, le, stopped,
        spent⟩
      rw [take, stepped]
      rfl
    · cases found : request.finds (text.drop place) with
      | none =>
        rw [Request.reach, found] at stuck
        exact absurd rfl stuck
      | some kind =>
        rw [Request.reach_of_finds found] at stuck
        have pos := Nat.pos_of_ne_zero stuck
        have reach := kind.reach_le (text.drop place)
        have length := List.length_take_of_le reach
        rw [List.length_drop] at reach
        obtain ⟨attempts, stepped⟩ := step_of_finds holds le found pos
        obtain ⟨harvest, pieces, last, taken, ended, tokens, later, inside, stopped, spent⟩ :=
          ih (show place + kind.reach (text.drop place) ≤ text.length by omega) (by omega)
        rw [← List.drop_drop] at later
        refine ⟨{ harvest with
          attempts := attempts ++ harvest.attempts
          tokens := tokensOf text place ((kind, _) :: pieces) }, _, last, ?_, ended, rfl,
          .token found pos later, inside, stopped, spent⟩
        rw [take, stepped, tokensOf, length, ← tokens]
        simp only [ok_bind, taken]

/-- Taking every token of a text gives its pieces, and stops before what they leave. -/
theorem take_to_end (holds : source.Holds text) (request : Request) : ∃ harvest pieces last,
    (startAt source text request 0).take ((startAt source text request 0).cursor.unread + 1) =
      .ok harvest ∧ harvest.ended = true ∧ harvest.tokens = tokensOf text 0 pieces ∧
    Pieces request text pieces (text.drop last) ∧
    harvest.stream.cursor = (IndexCursor.startAt text last).toCursor source ∧
    harvest.stream.Spent ∧ harvest.stream.remaining = .ok (String.ofList (text.drop last)) := by
  have enough := Cursor.contract.unread (IndexCursor.reads_toCursor holds (.startAt text 0))
  obtain ⟨harvest, pieces, last, taken, ended, tokens, split, inside, stopped, spent⟩ :=
    take_startAt holds (Nat.zero_le _) (Nat.lt_succ_of_le enough)
  refine ⟨harvest, pieces, last, taken, ended, tokens, split, stopped, spent, ?_⟩
  rw [Stream.remaining, stopped]
  exact IndexCursor.rest_toCursor holds (IndexCursor.inside_startAt inside)

theorem takeAll_of_take {stream : Stream} {harvest : Harvest}
    (taken : stream.take (stream.cursor.unread + 1) = .ok harvest) (ended : harvest.ended = true) :
    stream.takeAll = .ok harvest := by
  rw [takeAll, taken, ok_bind, if_pos ended]

end startAt

/-- Taking tokens to the end gives every answer there is: the tokens, then none for ever. -/
theorem nexts_of_take {limit : Nat} {stream : Stream} {harvest : Harvest}
    (taken : stream.take limit = .ok harvest) (ended : harvest.ended = true)
    (spent : harvest.stream.Spent) (calls : Nat) : ∃ last,
      stream.nexts calls = .ok ((harvest.tokens.map some).take calls ++
        List.replicate (calls - harvest.tokens.length) none, last) ∧
      (harvest.tokens.length < calls → last = harvest.stream) := by
  induction limit generalizing stream harvest calls with
  | zero =>
    cases Except.ok.inj taken
    cases ended
  | succ limit ih =>
    cases calls with
    | zero => exact ⟨stream, by simp [nexts], by simp⟩
    | succ calls =>
      obtain ⟨step, stepped, went⟩ := bind_eq_ok_iff.mp taken
      have next : stream.next = .ok (step.token, step.stream) := by
        rw [Stream.next, stepped]
        rfl
      cases which : step.token with
      | none =>
        rw [which] at next went
        cases Except.ok.inj went
        refine ⟨step.stream, ?_, fun _ => rfl⟩
        rw [nexts, next]
        simp only [ok_bind, spent.nexts calls]
        rfl
      | some token =>
        rw [which] at next went
        obtain ⟨rest, later, eq⟩ := bind_eq_ok_iff.mp went
        cases Except.ok.inj eq
        obtain ⟨last, answers, stays⟩ := ih later ended spent calls
        refine ⟨last, ?_, ?_⟩
        · rw [nexts, next]
          simp only [ok_bind, answers, List.map_cons, List.take_succ_cons, List.length_cons,
            Nat.add_sub_add_right, List.cons_append]
        · intro more
          exact stays (Nat.lt_of_succ_lt_succ more)

/-- What the tokens of a text are under one request, and what they leave of it. -/
structure Shape (text : String) (stream : Stream) (harvest : Harvest) (remaining : String) :
    Prop where
  answers : ∀ calls, ∃ last, stream.nexts calls = .ok ((harvest.tokens.map some).take calls ++
      List.replicate (calls - harvest.tokens.length) none, last) ∧
    (harvest.tokens.length < calls → last.remaining = .ok remaining)
  few : harvest.tokens.length ≤ text.length
  filled : ∀ token ∈ harvest.tokens, token.span.start < token.span.stop
  kinds : ∀ token ∈ harvest.tokens,
    token.kind = .comment ∧ stream.request.asksFor .comment = true ∨
      stream.request.fallback = some token.kind
  whole : ∀ kind, kind ≠ .content → stream.request.fallback = some kind → remaining = ""
  cut : ∀ kind pair, kind.pair? = some pair → stream.request.fallback = some kind →
    stream.request.asksFor .comment = false →
    harvest.tokens.mapM stream.text = .ok ((pair.cut text.toList).map String.ofList)
  content : stream.request.fallback = some .content →
    (∃ comments contents, contents ≤ 1 ∧ harvest.tokens.map (·.kind) =
      List.replicate comments .comment ++ List.replicate contents .content) ∧
    (remaining = "" ∨ ∃ c ∈ remaining.toList.head?, c = '<' ∨ c = '{' ∨ c = '%')
  comments : stream.request.fallback = none →
    (∀ token ∈ harvest.tokens, token.kind = .comment) ∧
    (stream.request.asksFor .comment = true → ¬OpensWithComment remaining.toList)

theorem takeAll_startAt {source : Source} {text : String} (holds : source.Holds text.toList)
    (request : Request) : ∃ harvest remaining,
      (startAt source text.toList request 0).takeAll = .ok harvest ∧ harvest.ended = true ∧
      harvest.stream.remaining = .ok remaining ∧
      (startAt source text.toList request 0).Shape text harvest remaining := by
  obtain ⟨harvest, pieces, last, taken, ended, tokens, split, stopped, spent, remaining⟩ :=
    take_to_end holds request
  have kinds := kinds_tokensOf text.toList 0 pieces
  rw [← tokens] at kinds
  have known : ∀ token ∈ harvest.tokens,
      token.kind = .comment ∧ request.asksFor .comment = true ∨
        request.fallback = some token.kind := by
    intro token mem
    rw [tokens] at mem
    obtain ⟨piece, mem, eq⟩ := kind_of_mem_tokensOf mem
    rw [← eq]
    exact split.kinds piece mem
  refine ⟨harvest, _, takeAll_of_take taken ended, ended, remaining, ?_⟩
  refine ⟨?_, ?_, ?_, ?_, ?_, ?_, ?_, ?_⟩
  · intro calls
    obtain ⟨last, answers, stays⟩ := nexts_of_take taken ended spent calls
    exact ⟨last, answers, fun more => stays more ▸ remaining⟩
  · have length := congrArg List.length kinds
    rw [List.length_map, List.length_map] at length
    rw [length, ← String.length_toList]
    exact split.length_le
  · rw [tokens]
    exact filled_tokensOf split.flatten.symm split.ne_nil
  · exact known
  · intro kind ne falls
    rw [split.last_eq_nil ne falls]
  · intro kind pair through falls alone
    have whole : text.toList.drop 0 = (pieces.map (·.2)).flatten ++ text.toList.drop last :=
      split.flatten.symm
    have texts := texts_tokensOf holds whole
    rw [← tokens] at texts
    rw [← split.cut through falls alone, List.map_map]
    exact texts
  · intro falls
    obtain ⟨shape, stops⟩ := split.content falls
    rw [← kinds] at shape
    refine ⟨shape, ?_⟩
    rw [String.toList_ofList]
    cases left : text.toList.drop last with
    | nil => exact .inl rfl
    | cons c rest =>
      rw [left] at stops
      exact .inr ⟨c, rfl, by simpa [isStop, or_assoc] using stops c rfl⟩
  · intro falls
    refine ⟨?_, ?_⟩
    · intro token mem
      rcases known token mem with comment | other
      · exact comment.1
      · cases falls.symm.trans other
    · rw [String.toList_ofList]
      exact split.not_opensWithComment

end Stream

/-- Taking every token of a text succeeds, and their shape is the one that their request allows. -/
theorem takeAll_shape {text : String} {request : Request} {stream : Stream}
    (opened : Stream.ofText text request = .ok stream) : ∃ harvest remaining,
      stream.takeAll = .ok harvest ∧ harvest.ended = true ∧
      harvest.stream.remaining = .ok remaining ∧
      stream.Shape (scannable text) harvest remaining := by
  obtain ⟨cursor, placed, rfl⟩ := Stream.ofText_eq_ok_iff.mp opened
  obtain ⟨holds, start⟩ := Cursor.ofText_eq_startAt placed
  have taken := Stream.takeAll_startAt holds request
  rwa [Stream.startAt, ← start] at taken

theorem takeAll_shape_comment_content : ∃ stream harvest,
    Stream.ofText "--a-->b<" ⟨0x14#8⟩ = .ok stream ∧ stream.takeAll = .ok harvest ∧
    harvest.tokens = [⟨.comment, ⟨0, 6⟩⟩, ⟨.content, ⟨6, 7⟩⟩] ∧
    stream.Shape "--a-->b<" harvest "<" := by
  have fits : "--a-->b<".utf8ByteSize < offsetLimit := by decide
  obtain ⟨cursor, placed⟩ := Cursor.exists_ofText fits
  have opened : Stream.ofText "--a-->b<" ⟨0x14#8⟩ = .ok ⟨cursor, ⟨0x14#8⟩, false⟩ :=
    Stream.ofText_eq_ok_iff.mpr ⟨cursor, placed, rfl⟩
  obtain ⟨harvest, remaining, taken, _, left, shape⟩ := takeAll_shape opened
  have found : (Stream.ofText "--a-->b<" ⟨0x14#8⟩ >>= Stream.takeAll).toOption.map
      (fun harvest => (harvest.tokens, harvest.stream.remaining.toOption)) =
        some ([⟨.comment, ⟨0, 6⟩⟩, ⟨.content, ⟨6, 7⟩⟩], some "<") := by
    decide +kernel
  rw [opened, ok_bind, taken] at found
  obtain ⟨tokens, rest⟩ := Prod.mk.inj (Option.some.inj found)
  rw [left] at rest
  cases Option.some.inj rest
  rw [scannable_of_lt fits] at shape
  exact ⟨_, harvest, opened, taken, tokens, shape⟩

end TemplateScanner
