import Mathlib.Data.List.Infix
import TemplateScanner.Proofs.LabelGrammar
import TemplateScanner.Proofs.Lookahead
import TemplateScanner.Proofs.StreamShape
import TemplateScanner.Proofs.Unquoted
import TemplateScanner.Report

namespace TemplateScanner

/-- What a line of a report says: a token with its text, or how many bytes are left with theirs. -/
inductive Entry where
  | token (token : Token) (text : String)
  | stopped (bytes : Nat) (rest : String)
deriving DecidableEq, Repr

/-- Reads a decimal number, and gives it with what stands behind it. -/
def readNumber (text : List Char) : Nat × List Char :=
  (Nat.ofDigitChars 10 (text.takeWhile Char.isDigit) 0, text.dropWhile Char.isDigit)

namespace Entry

def span? : Entry → Option Span
  | token found _ => some found.span
  | stopped _ _ => none

/-- The number of bytes that a line says are left. -/
def unscanned : Entry → Nat
  | token _ _ => 0
  | stopped bytes _ => bytes

def text : Entry → String
  | token _ text => text
  | stopped _ rest => rest

/-- The entry for what is left, if anything is. -/
def ofRest (rest : String) : List Entry :=
  if rest = "" then [] else [stopped rest.utf8ByteSize rest]

/-- An entry for each token with its text, and one for what is left. -/
def listOf (tokens : List Token) (texts : List String) (rest : String) : List Entry :=
  (tokens.zip texts).map (fun pair => token pair.1 pair.2) ++ ofRest rest

def readToken? (line : List Char) : Option Entry := do
  let kind ← Kind.ofLabel? (String.ofList (line.takeWhile (· ≠ ' ')))
  let rest ← (line.dropWhile (· ≠ ' ')).dropPrefix? " @ ".toList
  let (start, rest) := readNumber rest
  let rest ← rest.dropPrefix? "..".toList
  let (stop, rest) := readNumber rest
  let rest ← rest.dropPrefix? " ".toList
  let (text, rest) ← unquote? rest
  if rest = [] then some (token ⟨kind, ⟨start, stop⟩⟩ text) else none

/-- Reads the line that says where scanning stopped. -/
def readStopped? (line : List Char) : Option Entry := do
  let rest ← line.dropPrefix? "(stopped with ".toList
  let (bytes, rest) := readNumber rest
  let rest ← rest.dropPrefix? " unscanned bytes: ".toList
  let (text, rest) ← unquote? rest
  if rest = [')'] then some (stopped bytes text) else none

/-- Reads a line of a report. No label opens with a parenthesis. -/
def read? (line : String) : Option Entry :=
  if line.toList.head? = some '(' then readStopped? line.toList else readToken? line.toList

end Entry

theorem isDigit_of_mem_digits {n : Nat} : ∀ c ∈ Nat.toDigits 10 n, c.isDigit = true := by
  intro c mem
  exact Nat.isDigit_of_mem_toDigits (by omega) (by omega) mem

theorem readNumber_toString (n : Nat) {rest : List Char}
    (stops : ∀ c ∈ rest.head?, c.isDigit = false) :
    readNumber ((toString n).toList ++ rest) = (n, rest) := by
  rw [Nat.toString_eq_ofList_toDigits, String.toList_ofList, readNumber,
    takeWhile_append_of_stops isDigit_of_mem_digits stops,
    dropWhile_append_of_stops isDigit_of_mem_digits stops, Nat.ofDigitChars_ten_toDigits]

theorem dropPrefix?_word (word : String) (rest : List Char) :
    (word.toList ++ rest).dropPrefix? word.toList = some rest :=
  List.dropPrefix?_append_of_beq rest (beq_self_eq_true word.toList)

theorem Kind.notMem_label_of_isBlank (kind : Kind) {c : Char} (blank : isBlank c = true) :
    c ∉ kind.label.toList := by
  intro mem
  cases blank.symm.trans (kind.solid_label c mem).1

namespace Entry

variable {hidden : Char → Bool}

theorem read?_line (token : Token) (text : String) :
    read? (token.line hidden text) = some (.token token text) := by
  have shape : (token.line hidden text).toList =
      token.kind.label.toList ++ (" @ ".toList ++ ((toString token.span.start).toList ++
        ("..".toList ++ ((toString token.span.stop).toList ++ (" ".toList ++
          ((quote hidden text).toList ++ [])))))) := by
    simp only [Token.line, Span.describe, String.toList_append, List.append_assoc, List.append_nil]
  have opens (rest : List Char) : (token.kind.label.toList ++ rest).head? ≠ some '(' := by
    cases token.kind <;> simp [Kind.label]
  have letters : ∀ c ∈ token.kind.label.toList, decide (c ≠ ' ') = true := by
    intro c mem
    apply decide_eq_true
    rintro rfl
    exact token.kind.notMem_label_of_isBlank (by decide) mem
  have label_ends (rest : List Char) :
      ∀ c ∈ (" @ ".toList ++ rest).head?, decide (c ≠ ' ') = false := by
    rintro c ⟨⟩
    rfl
  have start_ends (rest : List Char) : ∀ c ∈ ("..".toList ++ rest).head?, c.isDigit = false := by
    rintro c ⟨⟩
    rfl
  have stop_ends (rest : List Char) : ∀ c ∈ (" ".toList ++ rest).head?, c.isDigit = false := by
    rintro c ⟨⟩
    rfl
  -- Each part is read up to a character that cannot belong to it.
  rw [read?, shape, if_neg (opens _), readToken?, takeWhile_append_of_stops letters (label_ends _),
    dropWhile_append_of_stops letters (label_ends _), String.ofList_toList, Kind.ofLabel?_label]
  simp only [Option.bind_eq_bind, Option.bind_some, dropPrefix?_word,
    readNumber_toString _ (start_ends _), readNumber_toString _ (stop_ends _), unquote?_quote,
    if_true]

theorem read?_trailer (rest : String) :
    (trailer hidden rest).map read? = (ofRest rest).map some := by
  have opens (more : List Char) : ("(stopped with ".toList ++ more).head? = some '(' := rfl
  have bytes_end (more : List Char) :
      ∀ c ∈ (" unscanned bytes: ".toList ++ more).head?, c.isDigit = false := by
    rintro c ⟨⟩
    rfl
  have close : ")".toList = [')'] := rfl
  unfold trailer ofRest
  simp only [String.isEmpty_iff]
  split
  next => rfl
  next =>
    rw [List.map_singleton, List.map_singleton, read?]
    simp only [String.toList_append, List.append_assoc, opens, if_true]
    rw [readStopped?]
    simp only [dropPrefix?_word, Option.bind_eq_bind, Option.bind_some,
      readNumber_toString _ (bytes_end _), unquote?_quote, close, if_true]

end Entry

theorem length_trailer {hidden : Char → Bool} (rest : String) :
    (trailer hidden rest).length = if rest = "" then 0 else 1 := by
  unfold trailer
  simp only [String.isEmpty_iff]
  split <;> rfl

theorem newline_notMem_digits (n : Nat) : '\n' ∉ Nat.toDigits 10 n := by
  intro mem
  cases isDigit_of_mem_digits '\n' mem

theorem newline_notMem_line {hidden : Char → Bool} (token : Token) (text : String) :
    '\n' ∉ (token.line hidden text).toList := by
  have label : '\n' ∉ token.kind.label.toList :=
    token.kind.notMem_label_of_isBlank (by decide)
  simp [Token.line, Span.describe, label, newline_notMem_digits, newline_notMem_quote]

theorem newline_notMem_trailer {hidden : Char → Bool} {rest line : String}
    (mem : line ∈ trailer hidden rest) : '\n' ∉ line.toList := by
  unfold trailer at mem
  split at mem
  next => cases mem
  next =>
    obtain rfl := List.mem_singleton.mp mem
    simp [newline_notMem_digits, newline_notMem_quote]

section lines

variable {hidden : Char → Bool} (pairs : List (Token × String)) (rest : String)

theorem read?_lines :
    ((pairs.map fun pair => pair.1.line hidden pair.2) ++ trailer hidden rest).map Entry.read? =
      (pairs.map (fun pair => Entry.token pair.1 pair.2) ++ Entry.ofRest rest).map some := by
  have each : Entry.read? ∘ (fun pair : Token × String => pair.1.line hidden pair.2) =
      some ∘ fun pair => Entry.token pair.1 pair.2 := by
    funext pair
    exact Entry.read?_line pair.1 pair.2
  rw [List.map_append, List.map_append, Entry.read?_trailer, List.map_map, List.map_map, each]

theorem newline_notMem_lines :
    ∀ line ∈ (pairs.map fun pair => pair.1.line hidden pair.2) ++ trailer hidden rest,
      '\n' ∉ line.toList := by
  intro line mem
  rcases List.mem_append.mp mem with mem | mem
  · obtain ⟨pair, _, rfl⟩ := List.mem_map.mp mem
    exact newline_notMem_line pair.1 pair.2
  · exact newline_notMem_trailer mem

end lines

namespace Entry

variable {tokens : List Token} {texts : List String}

theorem spans_ofRest (rest : String) : (ofRest rest).filterMap span? = [] := by
  unfold ofRest
  split <;> rfl

theorem unscanned_ofRest (rest : String) :
    ((ofRest rest).map unscanned).sum = rest.utf8ByteSize := by
  unfold ofRest
  split
  next empty =>
    rw [empty]
    rfl
  next => exact List.sum_singleton

theorem join_ofRest (rest : String) : String.join ((ofRest rest).map text) = rest := by
  unfold ofRest
  split
  next empty => exact empty.symm
  next => simp [text]

theorem spans_listOf (same : texts.length = tokens.length) (rest : String) :
    (listOf tokens texts rest).filterMap span? = tokens.map (·.span) := by
  have first := List.map_fst_zip (Nat.le_of_eq same.symm)
  have spans : span? ∘ (fun pair : Token × String => token pair.1 pair.2) =
      some ∘ (·.span) ∘ Prod.fst := rfl
  rw [listOf, List.filterMap_append, List.filterMap_map, spans_ofRest, List.append_nil, spans,
    List.filterMap_eq_map, ← List.map_map, first]

theorem unscanned_listOf (rest : String) :
    ((listOf tokens texts rest).map unscanned).sum = rest.utf8ByteSize := by
  have none : unscanned ∘ (fun pair : Token × String => token pair.1 pair.2) = fun _ => 0 := rfl
  rw [listOf, List.map_append, List.sum_append, unscanned_ofRest, List.map_map, none]
  simp

theorem join_listOf (same : texts.length = tokens.length) (rest : String) :
    String.join ((listOf tokens texts rest).map text) = String.join texts ++ rest := by
  have second := List.map_snd_zip (Nat.le_of_eq same)
  have each : text ∘ (fun pair : Token × String => token pair.1 pair.2) = Prod.snd := rfl
  rw [listOf, List.map_append, String.join_append, join_ofRest, List.map_map, each, second]

end Entry

/-- A report whose lines say all of a source: each is one line and is read back as its entry, the
spans abut from the start on and leave as many bytes as the last line says, and the texts make up
the source. -/
structure Report.Lossless (written : Report) (entries : List Entry) (source : Source) : Prop where
  read : written.lines.map Entry.read? = entries.map some
  single : ∀ line ∈ written.lines, '\n' ∉ line.toList
  tiled : ∃ last, Abut 0 (entries.filterMap Entry.span?) last ∧
    last + (entries.map Entry.unscanned).sum = source.length
  whole : (String.join (entries.map Entry.text)).toUTF8 = source.bytes

theorem report_eq {hidden : Char → Bool} {source : Source} {request : Request} {stream : Stream}
    {harvest : Stream.Harvest} {texts : List String} {rest : String}
    (opened : Stream.ofSource source request = .ok stream) (taken : stream.takeAll = .ok harvest)
    (read : harvest.tokens.mapM harvest.stream.text = .ok texts)
    (left : harvest.stream.remaining = .ok rest) : report hidden ⟨request, false⟩ source = .ok
      { lines := ((harvest.tokens.zip texts).map fun pair => pair.1.line hidden pair.2) ++
          trailer hidden rest
        attempts := harvest.attempts } := by
  have lines := mapM_zip_eq_ok read (Token.line hidden)
  rw [report, if_neg Bool.false_ne_true, reportAll, opened, ok_bind, taken, ok_bind, Stream.lines]
  simp only [lines, left, ok_bind]

/-- A report of all tokens has one line for each of them, and one more just if something is left.
The source can be put together again from the lines, whichever characters are hidden. -/
theorem report_lossless (hidden : Char → Bool) {text : String} {source : Source}
    {request : Request} {stream : Stream} (made : Source.ofText text = .ok source)
    (opened : Stream.ofSource source request = .ok stream) :
    ∃ harvest texts rest written,
      stream.takeAll = .ok harvest ∧ harvest.tokens.mapM harvest.stream.text = .ok texts ∧
      harvest.stream.remaining = .ok rest ∧
      report hidden ⟨request, false⟩ source = .ok written ∧
      written.lines.length = harvest.tokens.length + (if rest = "" then 0 else 1) ∧
      written.Lossless (Entry.listOf harvest.tokens texts rest) source ∧
      (text.utf8ByteSize < offsetLimit →
        String.join ((Entry.listOf harvest.tokens texts rest).map Entry.text) = text) := by
  obtain ⟨holds, rfl⟩ := Stream.ofSource_eq_startAt made opened
  obtain ⟨harvest, pieces, last, taken, ended, tokens, split, stopped, _, left⟩ :=
    Stream.take_to_end holds request
  have taken := Stream.takeAll_of_take taken ended
  have whole : (scannable text).toList.drop 0 =
      (pieces.map (·.2)).flatten ++ (scannable text).toList.drop last := split.flatten.symm
  have same : harvest.stream.text = fun token => source.text token.span := by
    funext token
    rw [Stream.text, stopped]
    rfl
  have read := texts_tokensOf holds whole
  rw [← tokens, ← same] at read
  have length := (mapM_eq_ok_iff.mp read).length_eq.symm
  have joined := split.join
  rw [String.ofList_toList] at joined
  refine ⟨harvest, _, _, _, taken, read, left, report_eq opened taken read left, ?_, ?_, ?_⟩
  · rw [List.length_append, List.length_map, List.length_zip, length, Nat.min_self, length_trailer]
  · refine ⟨read?_lines _ _, newline_notMem_lines _ _,
      ⟨byteLength (pieces.map (·.2)).flatten, ?_, ?_⟩, ?_⟩
    · rw [Entry.spans_listOf length, tokens]
      exact split.abut
    · rw [Entry.unscanned_listOf, utf8ByteSize_ofList, ← byteLength_append, split.flatten,
        holds.length_eq]
    · rw [Entry.join_listOf length, joined, holds.bytes, ← String.toByteArray_ofList,
        String.ofList_toList]
      rfl
  · intro fits
    rw [Entry.join_listOf length, joined, scannable_of_lt fits]

theorem report_lossless_three_lines : ∃ source stream,
    Source.ofText "--\n-->\"e\u0301<\\n" = .ok source ∧
    Stream.ofSource source ⟨0x14#8⟩ = .ok stream ∧ ∃ harvest texts rest written,
      stream.takeAll = .ok harvest ∧ harvest.tokens.mapM harvest.stream.text = .ok texts ∧
      harvest.stream.remaining = .ok rest ∧
      report isHidden ⟨⟨0x14#8⟩, false⟩ source = .ok written ∧
      written.lines =
        ["comment @ 0..6 \"--\\n-->\"", "content @ 6..10 \"\\\"e\\u\x7b301\x7d\"",
          "(stopped with 3 unscanned bytes: \"<\\\\n\")"] ∧
      written.lines.length = harvest.tokens.length + (if rest = "" then 0 else 1) ∧
      written.Lossless (Entry.listOf harvest.tokens texts rest) source ∧
      String.join ((Entry.listOf harvest.tokens texts rest).map Entry.text) =
        "--\n-->\"e\u0301<\\n" := by
  have fits : "--\n-->\"e\u0301<\\n".utf8ByteSize < offsetLimit := by decide
  obtain ⟨cursor, opened⟩ := Cursor.exists_ofText fits
  obtain ⟨source, made, started⟩ := bind_eq_ok_iff.mp opened
  have stream : Stream.ofSource source ⟨0x14#8⟩ = .ok ⟨cursor, ⟨0x14#8⟩, false⟩ := by
    rw [Stream.ofSource, started, ok_bind]
  obtain ⟨harvest, texts, rest, written, taken, read, left, wrote, count, lossless, joined⟩ :=
    report_lossless isHidden made stream
  have shown : (Source.ofText "--\n-->\"e\u0301<\\n" >>=
      report isHidden ⟨⟨0x14#8⟩, false⟩).toOption.map (·.lines) =
        some ["comment @ 0..6 \"--\\n-->\"",
          "content @ 6..10 \"\\\"e\\u\x7b301\x7d\"",
          "(stopped with 3 unscanned bytes: \"<\\\\n\")"] := by
    decide +kernel
  rw [made, ok_bind, wrote] at shown
  exact ⟨source, _, made, stream, harvest, texts, rest, written, taken, read, left, wrote,
    Option.some.inj shown, count, lossless, joined fits⟩

end TemplateScanner
