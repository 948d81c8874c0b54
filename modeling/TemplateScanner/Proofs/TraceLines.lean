import TemplateScanner.Proofs.ConsoleLines
import TemplateScanner.Proofs.Scans

namespace TemplateScanner

/-- A record's text is that of a trace. -/
def isTrace (text : String) : Bool :=
  "TRACE ".toList.isPrefixOf text.toList

/-- What the lines of a trace tell, among lines of all sorts. -/
def traceTexts (errors : List String) : List String :=
  (errors.filterMap logText?).filter isTrace

/-- The trace of a recognizer that accepts. -/
def Kind.acceptTexts : Kind → List String
  | comment =>
    ["TRACE htmlaskama_scanner::scanner: attempt kind=_html_comment",
     "TRACE htmlaskama_scanner::scanner: accept kind=_html_comment"]
  | content =>
    ["TRACE htmlaskama_scanner::scanner: attempt kind=_html_content",
     "TRACE htmlaskama_scanner::scanner: accept kind=_html_content"]
  | argument =>
    ["TRACE htmlaskama_scanner::scanner: attempt kind=_macro_argument_end",
     "TRACE htmlaskama_scanner::scanner: accept kind=_macro_argument_end"]
  | statement =>
    ["TRACE htmlaskama_scanner::scanner: attempt kind=_statement_content",
     "TRACE htmlaskama_scanner::scanner: accept kind=_statement_content"]
  | expression =>
    ["TRACE htmlaskama_scanner::scanner: attempt kind=_expression_content",
     "TRACE htmlaskama_scanner::scanner: accept kind=_expression_content"]

/-- The trace of a scan: that of a comment that is rejected, if one is asked for, and that of the
kind that is accepted, if there is one. -/
def traceOf (request : Request) (scan : Cursor × Turn) : List String :=
  (if request.asksFor .comment && !accepts scan.1 .comment then
    ["TRACE htmlaskama_scanner::scanner: attempt kind=_html_comment",
     "TRACE htmlaskama_scanner::scanner: reject kind=_html_comment"]
  else []) ++ scan.2.token.toList.flatMap (·.kind.acceptTexts)

/-- A record's text tells of a recognizer that accepts. -/
def isAccept (text : String) : Bool :=
  "TRACE htmlaskama_scanner::scanner: accept ".toList.isPrefixOf text.toList

/-- A line of the output that shows a token. -/
def isTokenLine (line : String) : Bool :=
  Kind.priority.any fun kind => ("  " ++ kind.label ++ " @ ").toList.isPrefixOf line.toList

theorem Kind.map_text_accepted (kind : Kind) :
    (Attempt.records ⟨kind, true⟩).map Record.text = kind.acceptTexts := by
  cases kind <;> decide +kernel

theorem map_text_trials (turn : Turn) (request : Request) (start : Cursor) :
    ((turn.trials request start).flatMap Attempt.records).map Record.text =
      traceOf request (start, turn) := by
  have rejected : (Attempt.records ⟨.comment, false⟩).map Record.text =
      ["TRACE htmlaskama_scanner::scanner: attempt kind=_html_comment",
       "TRACE htmlaskama_scanner::scanner: reject kind=_html_comment"] := by
    decide +kernel
  rw [List.map_flatMap, Turn.trials, List.flatMap_append, List.flatMap_map, traceOf]
  simp only [Kind.map_text_accepted]
  split
  next => rw [List.flatMap_singleton, rejected]
  next => rfl

theorem Record.isTrace_text (record : Record) :
    isTrace record.text = decide (record.level = .trace) := by
  cases record <;>
    simp [isTrace, text, level, Level.name, String.toList_append, List.isPrefixOf]

theorem Kind.countP_acceptTexts (kind : Kind) : kind.acceptTexts.countP isAccept = 1 := by
  cases kind <;> decide +kernel

theorem countP_traceOf (request : Request) (scan : Cursor × Turn) :
    (traceOf request scan).countP isAccept = if scan.2.token.isSome then 1 else 0 := by
  have rejected : (if request.asksFor .comment && !accepts scan.1 .comment then
      ["TRACE htmlaskama_scanner::scanner: attempt kind=_html_comment",
       "TRACE htmlaskama_scanner::scanner: reject kind=_html_comment"] else []).countP
        isAccept = 0 := by
    split
    · decide +kernel
    · rfl
  rw [traceOf, List.countP_append, rejected, Nat.zero_add]
  cases scan.2.token with
  | none => rfl
  | some token => simpa using token.kind.countP_acceptTexts

theorem countP_flatMap_traceOf (request : Request) (scans : List (Cursor × Turn)) :
    (scans.flatMap (traceOf request)).countP isAccept = scans.countP (·.2.token.isSome) := by
  induction scans with
  | nil => rfl
  | cons scan scans ih =>
    rw [List.flatMap_cons, List.countP_append, countP_traceOf, ih, List.countP_cons,
      Nat.add_comm]

theorem isTokenLine_line (hidden : Char → Bool) (token : Token) (text : String) :
    isTokenLine ("  " ++ token.line hidden text) = true := by
  apply List.any_eq_true.mpr
  refine ⟨token.kind, Kind.mem_priority _, List.isPrefixOf_iff_prefix.mpr ?_⟩
  simp only [Token.line, String.toList_append, List.append_assoc, List.prefix_append_right_inj,
    List.prefix_append]

theorem isTokenLine_of_head? {line : String} (first : line.toList.head? = some '(') :
    isTokenLine ("  " ++ line) = false := by
  obtain ⟨rest, chars⟩ := List.head?_eq_some_iff.mp first
  apply List.any_eq_false.mpr
  intro kind _
  rw [String.toList_append (s := "  "), chars]
  cases kind <;> simp [Kind.label, List.isPrefixOf]

theorem isTokenLine_heading (path : String) :
    isTokenLine ("Tokens for '" ++ path ++ "':") = false := by
  apply List.any_eq_false.mpr
  intro kind _
  rw [String.toList_append (t := "':"), String.toList_append]
  cases kind <;> simp [Kind.label, List.isPrefixOf]

theorem countP_isTokenLine {written : Report} {hidden : Char → Bool}
    {scans : List (Cursor × Turn)} {tokens : List Token}
    (shows : written.Shows hidden scans tokens) :
    (written.lines.map ("  " ++ ·)).countP isTokenLine = tokens.length := by
  obtain ⟨lines, others, whole, each, rest⟩ := shows.lines
  have none : others.countP (isTokenLine ∘ ("  " ++ ·)) = 0 := by
    apply List.countP_eq_zero.mpr
    intro line mem
    simp [isTokenLine_of_head? (rest line mem)]
  rw [List.countP_map, whole, List.countP_append, none, Nat.add_zero]
  clear whole shows
  induction each with
  | nil => rfl
  | cons first _ ih =>
    obtain ⟨text, rfl⟩ := first
    rw [List.countP_cons_of_pos (p := isTokenLine ∘ _) (isTokenLine_line hidden _ text), ih,
      List.length_cons]

namespace Logging

variable {logging : Logging}

/-- Where recognizers are logged, the trace is theirs. -/
theorem traceTexts_write (documented : logging.subscriber.Documented)
    (setting : logging.setting ∈ [some "trace", some "htmlaskama_scanner=trace"])
    {path : String} {options : ScanOptions} {source : Source} {defects : List String}
    {written : Report} (plain : ∀ line ∈ defects, PlainLine line) :
    traceTexts (logging.write [] (notices path options source defects written)) =
      (written.attempts.flatMap Attempt.records).map Record.text := by
  have wanted : (written.attempts.flatMap Attempt.records).filter logging.wants =
      written.attempts.flatMap Attempt.records := by
    apply List.filter_eq_self.mpr
    intro record mem
    obtain ⟨attempt, _, mem⟩ := List.mem_flatMap.mp mem
    exact wants_of_mem_records documented setting mem
  have traces : ((written.attempts.flatMap Attempt.records).map Record.text).filter isTrace =
      (written.attempts.flatMap Attempt.records).map Record.text := by
    apply List.filter_eq_self.mpr
    rw [List.forall_mem_map]
    intro record mem
    obtain ⟨attempt, _, mem⟩ := List.mem_flatMap.mp mem
    rw [record.isTrace_text, (Attempt.level_target_of_mem mem).1]
    rfl
  rw [traceTexts, filterMap_write documented (plainNotices_notices plain),
    filterMap_record?_notices, List.filterMap_nil, List.nil_append, List.filter_cons, wanted]
  split
  next =>
    have debug : isTrace (Record.scanning path source.length options.request).text = false :=
      Record.isTrace_text _
    rw [List.map_cons, List.filter_cons_of_neg (by simp [debug]), traces]
  next => exact traces

theorem traceTexts_scanText (documented : logging.subscriber.Documented)
    (setting : logging.setting ∈ [some "trace", some "htmlaskama_scanner=trace"])
    {path text : String} {options : ScanOptions} {outcome : Outcome}
    (ran : logging.scanText path text options = .ok outcome) : ∃ cursor scans,
      Cursor.ofText text = .ok cursor ∧ options.Scanned cursor scans ∧
      traceTexts outcome.errors = scans.flatMap (traceOf options.request) ∧
      outcome.output.countP isTokenLine = (options.shown scans).length := by
  obtain ⟨fault, failed⟩ | ⟨source, defects, written, made, warned, reported, scanned⟩ :=
    scanText_cases path text options
  · cases (failed logging).symm.trans ran
  cases Except.ok.inj ((scanned logging).symm.trans ran)
  obtain ⟨cursor, scans, started, scanned, shows⟩ := report_shows reported
  have opened : Cursor.ofText text = .ok cursor := bind_eq_ok_iff.mpr ⟨source, made, started⟩
  refine ⟨cursor, scans, opened, scanned, ?_, ?_⟩
  · rw [traceTexts_write documented setting (plain_warnings made warned), shows.attempts,
      List.flatMap_assoc, List.map_flatMap]
    apply List.flatMap_congr
    intro scan mem
    rw [scanned.attempts opened scan mem, map_text_trials]
  · rw [List.countP_cons_of_neg (by simp [isTokenLine_heading]), countP_isTokenLine shows]

end Logging

/-- Two runs that log in different ways differ in their log lines alone. A trace tells, for each scan
in turn, whether a comment was looked for in vain and which kind was accepted; a token is shown for
each that was accepted, but for an empty one that ends a stream. -/
theorem logging_observes (logging other : Logging) (documented : logging.subscriber.Documented)
    (documented' : other.subscriber.Documented) (files : String → Except ReadError ByteArray)
    (arguments : List String) :
    ((∃ fault, runCommand logging files arguments = .error fault ∧
        runCommand other files arguments = .error fault) ∨
      ∃ outcome outcome', runCommand logging files arguments = .ok outcome ∧
        runCommand other files arguments = .ok outcome' ∧ outcome.output = outcome'.output ∧
        outcome.status = outcome'.status ∧
        outcome.errors.filter (!isLogLine ·) = outcome'.errors.filter (!isLogLine ·) ∧
        (logging.setting ∈ [none, some "off", some "error"] →
          outcome.errors = outcome'.errors.filter (!isLogLine ·))) ∧
    ∀ path options text, Plan.ofArguments arguments = .scan path options →
      files path = .ok text.toUTF8 →
      (text.utf8ByteSize < offsetLimit →
        ∃ outcome, runCommand logging files arguments = .ok outcome) ∧
      ∀ outcome, runCommand logging files arguments = .ok outcome →
        logging.setting ∈ [some "trace", some "htmlaskama_scanner=trace"] → ∃ cursor scans,
          Cursor.ofText text = .ok cursor ∧ options.Scanned cursor scans ∧
          traceTexts outcome.errors = scans.flatMap (traceOf options.request) ∧
          (traceTexts outcome.errors).countP isAccept = outcome.output.countP isTokenLine +
            if !options.once && endsEmpty scans then 1 else 0 := by
  refine ⟨?_, ?_⟩
  · obtain ⟨fault, failed⟩ | ⟨output, notices, status, plain, ran⟩ :=
      runCommand_cases files arguments
    · exact .inl ⟨fault, failed logging, failed other⟩
    · have first := Logging.filter_write documented plain []
      have second := Logging.filter_write documented' plain []
      refine .inr ⟨_, _, ran logging, ran other, rfl, rfl, first.trans second.symm, ?_⟩
      intro quiet
      exact (Logging.write_of_quiet (Logging.wants_of_quiet documented quiet) []).trans second.symm
  · intro path options text planned content
    have run : runCommand logging files arguments = logging.scanText path text options := by
      rw [runCommand, planned]
      simp only [content, logging.scanFile_of_text]
    rw [run]
    refine ⟨fun fits => logging.exists_scanText fits path options, ?_⟩
    intro outcome ran setting
    obtain ⟨cursor, scans, opened, scanned, traces, tokens⟩ :=
      Logging.traceTexts_scanText documented setting ran
    refine ⟨cursor, scans, opened, scanned, traces, ?_⟩
    rw [traces, countP_flatMap_traceOf, scanned.countP_token, tokens]

theorem logging_observes_empty_token : ∃ logging other : Logging, ∃ files outcome outcome' scans,
    logging = ⟨.console fun _ => "2024-05-01T00:00:00.000000Z", some "trace"⟩ ∧
    other = ⟨.console fun _ => "2024-05-01T00:00:01.000000Z", none⟩ ∧
    files "a.html" = .ok "--<".toUTF8 ∧
    runCommand logging files ["scan", "--kinds=comment,content", "a.html"] = .ok outcome ∧
    runCommand other files ["scan", "--kinds=comment,content", "a.html"] = .ok outcome' ∧
    outcome' = ⟨["Tokens for 'a.html':", "  content @ 0..2 \"--\"",
      "  (stopped with 1 unscanned bytes: \"<\")"], [], 0⟩ ∧
    outcome = ⟨["Tokens for 'a.html':", "  content @ 0..2 \"--\"",
      "  (stopped with 1 unscanned bytes: \"<\")"],
      ["2024-05-01T00:00:00.000000Z DEBUG htmlaskama::commands::scan: scanning path=\"a.html\" " ++
         "len=3 requested=RequestedKinds(HTML_COMMENT | HTML_CONTENT)",
       "2024-05-01T00:00:00.000000Z TRACE htmlaskama_scanner::scanner: attempt kind=_html_comment",
       "2024-05-01T00:00:00.000000Z TRACE htmlaskama_scanner::scanner: reject kind=_html_comment",
       "2024-05-01T00:00:00.000000Z TRACE htmlaskama_scanner::scanner: attempt kind=_html_content",
       "2024-05-01T00:00:00.000000Z TRACE htmlaskama_scanner::scanner: accept kind=_html_content",
       "2024-05-01T00:00:00.000000Z TRACE htmlaskama_scanner::scanner: attempt kind=_html_comment",
       "2024-05-01T00:00:00.000000Z TRACE htmlaskama_scanner::scanner: reject kind=_html_comment",
       "2024-05-01T00:00:00.000000Z TRACE htmlaskama_scanner::scanner: attempt kind=_html_content",
       "2024-05-01T00:00:00.000000Z TRACE htmlaskama_scanner::scanner: accept kind=_html_content"],
      0⟩ ∧
    outcome'.errors = outcome.errors.filter (!isLogLine ·) ∧
    traceTexts outcome.errors = scans.flatMap (traceOf ⟨0x14#8⟩) ∧
    (traceTexts outcome.errors).countP isAccept = 2 ∧ outcome.output.countP isTokenLine = 1 ∧
    endsEmpty scans = true := by
  let logging : Logging := ⟨.console fun _ => "2024-05-01T00:00:00.000000Z", some "trace"⟩
  let other : Logging := ⟨.console fun _ => "2024-05-01T00:00:01.000000Z", none⟩
  let files (_ : String) : Except ReadError ByteArray := .ok "--<".toUTF8
  have documented : logging.subscriber.Documented :=
    Subscriber.console_documented (fun _ => ⟨by decide, by decide⟩) fun _ => by decide
  have documented' : other.subscriber.Documented :=
    Subscriber.console_documented (fun _ => ⟨by decide, by decide⟩) fun _ => by decide
  obtain ⟨_, scan⟩ := logging_observes logging other documented documented' files
    ["scan", "--kinds=comment,content", "a.html"]
  obtain ⟨same, _⟩ := logging_observes other logging documented' documented files
    ["scan", "--kinds=comment,content", "a.html"]
  have planned : Plan.ofArguments ["scan", "--kinds=comment,content", "a.html"] =
      .scan "a.html" ⟨⟨0x14#8⟩, false⟩ := by
    decide +kernel
  obtain ⟨succeeds, traces⟩ := scan _ _ "--<" planned rfl
  obtain ⟨outcome, ran⟩ := succeeds (by decide)
  obtain ⟨_, scans, _, _, trace, count⟩ := traces outcome ran (by decide)
  obtain ⟨fault, _, failed⟩ | ⟨outcome', seen, ran', again, _, _, _, errors⟩ := same
  · cases failed.symm.trans ran
  cases Except.ok.inj (again.symm.trans ran)
  have quiet : outcome' = ⟨["Tokens for 'a.html':", "  content @ 0..2 \"--\"",
      "  (stopped with 1 unscanned bytes: \"<\")"], [], 0⟩ :=
    Except.ok.inj (ran'.symm.trans (by decide +kernel))
  -- the lines are those of these records, and so they tell what the records do
  let records : List Record := [.scanning "a.html" 3 ⟨0x14#8⟩,
    .attempt .comment, .reject .comment, .attempt .content, .accept .content,
    .attempt .comment, .reject .comment, .attempt .content, .accept .content]
  have shown : outcome = ⟨outcome'.output, records.map (logging.subscriber.line 0), 0⟩ := by
    rw [quiet]
    exact Except.ok.inj (ran.symm.trans (by decide +kernel))
  have accepts : (traceTexts outcome.errors).countP isAccept = 2 := by
    have texts : logText? ∘ logging.subscriber.line 0 = some ∘ Record.text :=
      funext (documented.logText?_line 0)
    rw [traceTexts, shown, List.filterMap_map, texts, List.filterMap_eq_map]
    decide +kernel
  have tokens : outcome.output.countP isTokenLine = 1 := by
    rw [shown, quiet]
    decide +kernel
  have last : endsEmpty scans = true := by
    rw [accepts, tokens] at count
    by_contra other
    simp [other] at count
  refine ⟨logging, other, files, outcome, outcome', scans, rfl, rfl, rfl, ran, ran', quiet, ?_,
    errors (by decide), trace, accepts, tokens, last⟩
  rw [shown, quiet, Outcome.mk.injEq]
  exact ⟨rfl, by decide +kernel, rfl⟩

end TemplateScanner
