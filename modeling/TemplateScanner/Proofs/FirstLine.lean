import TemplateScanner.Proofs.Appended
import TemplateScanner.Proofs.ReportLines

namespace TemplateScanner

/-- A scan that covers nothing has found what it finds wherever there is no comment. -/
theorem Request.finds_of_stuck {request : Request} {rest : List Char}
    (stuck : request.reach rest = 0) : request.finds rest = request.fallback := by
  by_cases more : rest = []
  · have refused : ¬(request.asksFor .comment && (commentScript rest).accepted) = true := by
      simp [more, commentScript]
    rw [finds_eq, if_neg refused]
  · exact (finds_of_reach more stuck).1

/-- Where a scan covers nothing although there is something to find, the text is at its end or at a
stop. -/
theorem Request.stops_of_stuck {request : Request} {rest : List Char} {kind : Kind}
    (stuck : request.reach rest = 0) (falls : request.fallback = some kind) :
    rest = [] ∨ kind = .content ∧ ∃ c ∈ rest.head?, isStop c = true := by
  have found := finds_of_stuck stuck
  rw [falls] at found
  cases rest with
  | nil => exact .inl rfl
  | cons c rest =>
    obtain ⟨_, none | content⟩ := finds_of_reach (List.cons_ne_nil c rest) stuck
    · cases falls.symm.trans none
    · rw [falls] at content
      cases Option.some.inj content
      have stops := Kind.content_stops (c :: rest)
      rw [← reach_of_finds found, stuck] at stops
      exact .inr ⟨rfl, c, rfl, stops c rfl⟩

/-- The line of an empty token at the start. -/
theorem Token.line_zero (hidden : Char → Bool) (kind : Kind) :
    Token.line hidden ⟨kind, .zero⟩ "" = kind.label ++ " @ 0..0 \"\"" := by
  have text : quote hidden "" = "\"\"" := rfl
  have rest : " @ " ++ (Span.zero.describe ++ (" " ++ "\"\"")) = " @ 0..0 \"\"" := by
    decide +kernel
  rw [Token.line, text, String.append_assoc, String.append_assoc, String.append_assoc, rest]

/-- What a report of one scan says of the characters to be read. -/
def Request.firstLine (hidden : Char → Bool) (request : Request) (rest : List Char) : String :=
  match request.finds rest with
  | some kind => Token.line hidden ⟨kind, ⟨0, offset rest (kind.reach rest)⟩⟩
      (String.ofList (rest.take (kind.reach rest)))
  | none => "(no token)"

section startAt

variable {source : Source} {text : List Char} {request : Request}

theorem reportOnce_startAt (hidden : Char → Bool) (request : Request) (holds : source.Holds text)
    (started : source.cursor = .ok ((IndexCursor.startAt text 0).toCursor source)) :
    ∃ turn, ((IndexCursor.startAt text 0).toCursor source).turn request = .ok turn ∧
      reportOnce hidden source request = .ok ⟨[request.firstLine hidden text], turn.attempts⟩ := by
  obtain ⟨attempts, turned⟩ := IndexCursor.turn_startAt holds (Nat.zero_le _) request
  refine ⟨_, turned, ?_⟩
  rw [reportOnce, started, ok_bind, turned, ok_bind, Request.firstLine, Request.token,
    Source.tokenLine.eq_def, List.drop_zero]
  cases found : request.finds text with
  | none => rfl
  | some kind =>
    have read := Source.text_offset holds (Nat.zero_le (kind.reach text))
    rw [List.drop_zero, offset_zero] at read
    simp only [Option.map_some, Request.reach_of_finds found, Nat.zero_add, offset_zero, read,
      ok_bind]

theorem Pieces.firstLine_of_cons {hidden : Char → Bool} {pieces : List (Kind × List Char)}
    {last : List Char} {kind : Kind} {piece : List Char}
    (split : Pieces request text ((kind, piece) :: pieces) last) :
    request.firstLine hidden text =
      Token.line hidden ⟨kind, ⟨offset text 0, offset text (0 + piece.length)⟩⟩
        (String.ofList piece) := by
  cases split with
  | token found =>
    have reach := List.length_take_of_le (kind.reach_le text)
    rw [Request.firstLine, found, reach, Nat.zero_add, offset_zero]

theorem Pieces.firstLine_of_nil (hidden : Char → Bool) {last : List Char}
    (split : Pieces request text [] last) :
    (request.fallback = none → request.firstLine hidden text = "(no token)") ∧
    ∀ kind, request.fallback = some kind →
      request.firstLine hidden text = Token.line hidden ⟨kind, .zero⟩ "" ∧
      (text = [] ∨ kind = .content ∧ ∃ c ∈ text.head?, isStop c = true) := by
  cases split with
  | ended stuck =>
    have found := Request.finds_of_stuck stuck
    constructor
    · intro falls
      rw [Request.firstLine, found, falls]
    · intro kind falls
      refine ⟨?_, Request.stops_of_stuck stuck falls⟩
      rw [falls] at found
      rw [Request.reach_of_finds found] at stuck
      rw [Request.firstLine, found]
      simp only [stuck, offset_zero, List.take_zero]
      rfl

/-- A report of all tokens has a line for each piece of the text, and one for what they leave. -/
theorem report_pieces (hidden : Char → Bool) (holds : source.Holds text)
    (opened : Stream.ofSource source request = .ok (Stream.startAt source text request 0)) :
    ∃ harvest pieces last, (Stream.startAt source text request 0).takeAll = .ok harvest ∧
      harvest.tokens = tokensOf text 0 pieces ∧ Pieces request text pieces (text.drop last) ∧
      report hidden ⟨request, false⟩ source = .ok
        { lines :=
            ((tokensOf text 0 pieces).zip (pieces.map fun piece => String.ofList piece.2)).map
              (fun pair => pair.1.line hidden pair.2) ++
                trailer hidden (String.ofList (text.drop last))
          attempts := harvest.attempts } := by
  obtain ⟨harvest, pieces, last, taken, ended, tokens, split, stopped, _, left⟩ :=
    Stream.take_to_end holds request
  have taken := Stream.takeAll_of_take taken ended
  have whole : text.drop 0 = (pieces.map (·.2)).flatten ++ text.drop last := split.flatten.symm
  have same : harvest.stream.text = fun token => source.text token.span := by
    funext token
    rw [Stream.text, stopped]
    rfl
  have read := texts_tokensOf holds whole
  rw [← tokens, ← same] at read
  have written : report hidden ⟨request, false⟩ source = _ := report_eq opened taken read left
  rw [tokens] at written
  exact ⟨harvest, pieces, last, taken, tokens, split, written⟩

end startAt

/-- A source that can be read can be reported on. -/
theorem exists_report {text : String} {source : Source} {cursor : Cursor} (hidden : Char → Bool)
    (made : Source.ofText text = .ok source) (started : source.cursor = .ok cursor)
    (options : ScanOptions) : ∃ written, report hidden options source = .ok written := by
  have opened : Stream.ofSource source options.request = .ok ⟨cursor, options.request, false⟩ :=
    bind_eq_ok_iff.mpr ⟨cursor, started, rfl⟩
  obtain ⟨holds, start⟩ := Stream.ofSource_eq_startAt made opened
  cases start
  obtain ⟨request, _ | _⟩ := options
  · obtain ⟨_, _, _, _, _, _, written⟩ := report_pieces hidden holds opened
    exact ⟨_, written⟩
  · obtain ⟨_, _, written⟩ := reportOnce_startAt hidden request holds started
    exact ⟨_, written⟩

/-- What is scanned of a text begins as the text does. -/
theorem Cursor.head?_scannable {text : String} {cursor : Cursor}
    (opened : Cursor.ofText text = .ok cursor) :
    (scannable text).toList.head? = text.toList.head? := by
  obtain ⟨rest, eq⟩ := Cursor.scannable_prefix opened
  have size := Cursor.byteLength_scannable opened
  cases scanned : (scannable text).toList with
  | nil =>
    rw [scanned, byteLength_nil] at size
    have : 0 < offsetLimit - 1 := by decide
    have empty : text.utf8ByteSize = 0 := by omega
    rw [String.utf8ByteSize_eq_zero_iff.mp empty]
    rfl
  | cons c more =>
    rw [scanned] at eq
    rw [← eq]
    rfl

/-- A report of one scan is the first line of a report of all tokens. Where there are no tokens it
says so, unless a kind that is always found is asked for: then it has an empty token of the first
such kind, and the text is empty or begins with a stop. -/
theorem report_once (hidden : Char → Bool) (text : String) (request : Request) :
    (text.utf8ByteSize < offsetLimit → ∃ source stream, Source.ofText text = .ok source ∧
      Stream.ofSource source request = .ok stream) ∧
    ∀ source stream, Source.ofText text = .ok source →
      Stream.ofSource source request = .ok stream → ∃ harvest once all,
        stream.takeAll = .ok harvest ∧ report hidden ⟨request, true⟩ source = .ok once ∧
        report hidden ⟨request, false⟩ source = .ok all ∧
        (harvest.tokens ≠ [] → ∃ line more, all.lines = line :: more ∧ once.lines = [line]) ∧
        (harvest.tokens = [] →
          (request.fallback = none → once.lines = ["(no token)"]) ∧
          ∀ kind, request.fallback = some kind →
            once.lines = [kind.label ++ " @ 0..0 \"\""] ∧
            (text = "" ∨ request.asksFor .content = true ∧
              ∃ c ∈ text.toList.head?, c = '<' ∨ c = '{' ∨ c = '%')) := by
  constructor
  · intro fits
    obtain ⟨cursor, opened⟩ := Cursor.exists_ofText fits
    obtain ⟨source, made, started⟩ := bind_eq_ok_iff.mp opened
    exact ⟨source, ⟨cursor, request, false⟩, made, bind_eq_ok_iff.mpr ⟨cursor, started, rfl⟩⟩
  · intro source stream made opened
    obtain ⟨cursor, started, eq⟩ := bind_eq_ok_iff.mp opened
    have reading : Cursor.ofText text = .ok cursor := bind_eq_ok_iff.mpr ⟨source, made, started⟩
    obtain ⟨holds, rfl⟩ := Stream.ofSource_eq_startAt made opened
    cases Except.ok.inj eq
    obtain ⟨harvest, pieces, last, taken, tokens, split, all⟩ := report_pieces hidden holds opened
    obtain ⟨turn, _, once⟩ := reportOnce_startAt hidden request holds started
    refine ⟨harvest, _, _, taken, once, all, ?_, ?_⟩
    · intro some_token
      cases pieces with
      | nil => exact absurd tokens some_token
      | cons piece pieces => exact ⟨_, _, rfl, congrArg ([·]) split.firstLine_of_cons⟩
    · intro no_token
      cases pieces with
      | cons piece pieces => cases no_token.symm.trans tokens
      | nil =>
        obtain ⟨unasked, asked⟩ := split.firstLine_of_nil hidden
        refine ⟨fun falls => congrArg ([·]) (unasked falls), ?_⟩
        intro kind falls
        obtain ⟨line, stops⟩ := asked kind falls
        refine ⟨congrArg ([·]) (line.trans (Token.line_zero hidden kind)), ?_⟩
        rw [Cursor.head?_scannable reading] at stops
        rcases stops with empty | ⟨rfl, stop⟩
        · have none := Cursor.head?_scannable reading
          rw [empty] at none
          exact .inl (String.toList_eq_nil_iff.mp (List.head?_eq_none_iff.mp none.symm))
        · refine .inr ⟨List.find?_some falls, ?_⟩
          simpa [isStop, or_assoc] using stop

theorem report_once_empty_token : ∃ source once all, Source.ofText "%-->" = .ok source ∧
    report isHidden ⟨⟨0x14#8⟩, true⟩ source = .ok once ∧
    report isHidden ⟨⟨0x14#8⟩, false⟩ source = .ok all ∧
    once.lines = ["content @ 0..0 \"\""] ∧
    all.lines = ["(stopped with 4 unscanned bytes: \"%-->\")"] := by
  obtain ⟨opens, first⟩ := report_once isHidden "%-->" ⟨0x14#8⟩
  obtain ⟨source, stream, made, opened⟩ := opens (by decide)
  obtain ⟨harvest, once, all, taken, ran, ran', _, stuck⟩ := first source stream made opened
  have found : (Source.ofText "%-->" >>= fun source => do
      let stream ← Stream.ofSource source ⟨0x14#8⟩
      let harvest ← stream.takeAll
      return (harvest.tokens, (← report isHidden ⟨⟨0x14#8⟩, false⟩ source).lines)).toOption =
        some ([], ["(stopped with 4 unscanned bytes: \"%-->\")"]) := by
    decide +kernel
  simp only [made, opened, taken, ran', ok_bind] at found
  obtain ⟨none, lines⟩ := Prod.mk.inj (Option.some.inj found)
  have label : Kind.content.label ++ " @ 0..0 \"\"" = "content @ 0..0 \"\"" := by decide +kernel
  have line := ((stuck none).2 .content (by decide)).1
  rw [label] at line
  exact ⟨source, once, all, made, ran, ran', line, lines⟩

end TemplateScanner
