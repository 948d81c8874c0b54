import TemplateScanner.Proofs.Runs

namespace TemplateScanner

/-- Leaves out the codes for colours, each from its escape character through the letter that ends
it. -/
def uncolour : Bool → List Char → List Char
  | _, [] => []
  | true, c :: line => uncolour (c ≠ 'm') line
  | false, c :: line => if c = '\x1b' then uncolour true line else c :: uncolour false line

/-- A time: it begins with a digit and has no blanks. -/
structure IsTime (time : List Char) : Prop where
  digit : time.head?.any (·.isDigit) = true
  solid : ' ' ∉ time

/-- What a line tells behind the time that it opens with, if it does. -/
def logText? (line : String) : Option String :=
  let shown := uncolour false line.toList
  match shown.dropWhile (· ≠ ' ') with
  | _ :: text => if shown.head?.any (·.isDigit) then some (String.ofList text) else none
  | [] => none

def isLogLine (line : String) : Bool :=
  (logText? line).isSome

/-- What is known of a subscriber. A setting is a threshold, or opens with the beginning of the
targets that it is for. A line is the time of writing, a blank and the text of the record, in
colours or without. -/
structure Subscriber.Documented (subscriber : Subscriber) : Prop where
  threshold : ∀ (threshold : Threshold) level target,
    subscriber.wants threshold.name level target = threshold.admits level
  scope : ∀ (scope : String) (threshold : Threshold) level target, scope ≠ "" →
    scope.toList.all (fun c => c.isAlphanum || c = '_') = true →
    subscriber.wants (scope ++ "=" ++ threshold.name) level target =
      (scope.toList.isPrefixOf target.toList && threshold.admits level)
  line : ∀ place record, ∃ time, IsTime time ∧
    uncolour false (subscriber.line place record).toList = time ++ ' ' :: record.text.toList

theorem logText?_of_time {line text : String} {time : List Char} (isTime : IsTime time)
    (shown : uncolour false line.toList = time ++ ' ' :: text.toList) :
    logText? line = some text := by
  have solid : ∀ c ∈ time, decide (c ≠ ' ') = true := by
    intro c mem
    refine decide_eq_true ?_
    rintro rfl
    exact isTime.solid mem
  have rest : (time ++ ' ' :: text.toList).dropWhile (· ≠ ' ') = ' ' :: text.toList := by
    rw [List.dropWhile_append_of_pos solid]
    rfl
  have opening : (time ++ ' ' :: text.toList).head?.any (·.isDigit) = true := by
    cases time with
    | nil => exact absurd isTime.digit Bool.false_ne_true
    | cons c time => exact isTime.digit
  simp only [logText?, shown, rest, opening, if_true, String.ofList_toList]

/-- A line opens with neither a digit nor a colour. -/
def PlainLine (line : String) : Prop :=
  line.toList.head?.any (fun c => !c.isDigit && c != '\x1b') = true

instance (line : String) : Decidable (PlainLine line) :=
  inferInstanceAs (Decidable (_ = true))

theorem plainLine_iff {line : String} :
    PlainLine line ↔ ∃ c rest, line.toList = c :: rest ∧ c.isDigit = false ∧ c ≠ '\x1b' := by
  cases chars : line.toList with
  | nil => simp [PlainLine, chars]
  | cons c rest => simp [PlainLine, chars]

namespace PlainLine

variable {line : String}

theorem append (plain : PlainLine line) (more : String) : PlainLine (line ++ more) := by
  obtain ⟨c, rest, chars, other⟩ := plainLine_iff.mp plain
  refine plainLine_iff.mpr ⟨c, rest ++ more.toList, ?_, other⟩
  rw [String.toList_append, chars, List.cons_append]

theorem logText? (plain : PlainLine line) : logText? line = none := by
  obtain ⟨c, rest, chars, digit, escape⟩ := plainLine_iff.mp plain
  have shown : uncolour false line.toList = c :: uncolour false rest := by
    rw [chars, uncolour, if_neg escape]
  simp only [TemplateScanner.logText?, shown, List.head?_cons, Option.any_some, digit,
    Bool.false_eq_true, if_false]
  split <;> rfl

theorem isLogLine (plain : PlainLine line) : isLogLine line = false := by
  rw [TemplateScanner.isLogLine, plain.logText?]
  rfl

end PlainLine

theorem ArgumentError.plain_lines (error : ArgumentError) :
    ∀ line ∈ error.lines, PlainLine line := by
  cases error with
  | labels error =>
    rw [lines, List.forall_mem_singleton]
    exact .append (by decide) _
  | unexpected argument =>
    rw [lines, List.forall_mem_singleton]
    exact .append (.append (by decide) _) _
  | noPath => decide

theorem ReadError.plain_message (path : String) (error : ReadError) :
    PlainLine (error.message path) := by
  cases error with
  | notFound => exact .append (.append (by decide) _) _
  | denied => exact .append (.append (by decide) _) _
  | notText => exact .append (.append (by decide) _) _
  | other reason => exact .append (.append (.append (by decide) _) _) _

theorem Defect.plain_warning (path : String) (defect : Defect) (place : Location) :
    PlainLine (defect.warning path place) := by
  unfold warning
  iterate 7 apply PlainLine.append
  decide

theorem plain_warnings {text path : String} {source : Source} {defects : List String}
    (made : Source.ofText text = .ok source) (warned : warnings path source = .ok defects) :
    ∀ line ∈ defects, PlainLine line := by
  obtain ⟨_, _, exact⟩ := Source.warnings_eq made path
  cases Except.ok.inj (warned.symm.trans exact)
  rw [List.forall_mem_map]
  exact fun defect _ => defect.plain_warning path _

/-- The lines of notices that are no records are plain. -/
def PlainNotices (notices : List Notice) : Prop :=
  ∀ line ∈ notices.filterMap Notice.line?, PlainLine line

theorem plainNotices_lines {lines : List String} (plain : ∀ line ∈ lines, PlainLine line) :
    PlainNotices (lines.map Notice.line) := by
  rwa [PlainNotices, Logging.filterMap_line?_lines]

theorem plainNotices_notices {path : String} {options : ScanOptions} {source : Source}
    {defects : List String} {written : Report} (plain : ∀ line ∈ defects, PlainLine line) :
    PlainNotices (Logging.notices path options source defects written) := by
  rwa [PlainNotices, Logging.filterMap_line?_notices]

theorem Plan.plain_ofArguments {arguments : List String} {outcome : Outcome}
    (planned : Plan.ofArguments arguments = .say outcome) :
    ∀ line ∈ outcome.errors, PlainLine line := by
  unfold Plan.ofArguments at planned
  split at planned
  next =>
    cases planned
    exact List.forall_mem_nil _
  next command arguments =>
    split_ifs at planned
    · unfold Plan.ofScan at planned
      split at planned
      next => cases planned
      next error _ =>
        cases planned
        exact error.plain_lines
    · cases planned
      exact List.forall_mem_nil _
    · cases planned
      exact List.forall_mem_nil _
    · cases planned
      rw [List.forall_mem_singleton]
      exact .append (.append (by decide) _) _

/-- A run is the same whatever is logged, but for the log. -/
theorem runCommand_cases (files : String → Except ReadError ByteArray) (arguments : List String) :
    (∃ fault, ∀ logging : Logging, runCommand logging files arguments = .error fault) ∨
    ∃ output notices status, PlainNotices notices ∧ ∀ logging : Logging,
      runCommand logging files arguments = .ok ⟨output, logging.write [] notices, status⟩ := by
  have spoken : ∀ outcome : Outcome, (∀ line ∈ outcome.errors, PlainLine line) →
      (∀ logging : Logging, runCommand logging files arguments = .ok outcome) →
      ∃ output notices status, PlainNotices notices ∧ ∀ logging : Logging,
        runCommand logging files arguments = .ok ⟨output, logging.write [] notices, status⟩ := by
    intro outcome plain ran
    refine ⟨outcome.output, outcome.errors.map Notice.line, outcome.status,
      plainNotices_lines plain, fun logging => ?_⟩
    rw [ran, Logging.write_lines, List.nil_append]
  cases planned : Plan.ofArguments arguments with
  | say outcome =>
    refine .inr (spoken outcome (Plan.plain_ofArguments planned) fun logging => ?_)
    rw [runCommand, planned]
  | scan path options =>
    have run : ∀ logging : Logging, runCommand logging files arguments =
        logging.scanFile path options (files path) := by
      intro logging
      rw [runCommand, planned]
    cases read : decodeText (files path) with
    | error error =>
      refine .inr (spoken (.failure [error.message path]) ?_ fun logging => ?_)
      · exact List.forall_mem_singleton.mpr (error.plain_message path)
      · rw [run, Logging.scanFile, read]
    | ok text =>
      have run : ∀ logging : Logging, runCommand logging files arguments =
          logging.scanText path text options := by
        intro logging
        rw [run, Logging.scanFile, read]
      simp only [run]
      obtain failed | ⟨source, defects, written, made, warned, _, scanned⟩ :=
        Logging.scanText_cases path text options
      · exact .inl failed
      · exact .inr ⟨_, _, _, plainNotices_notices (plain_warnings made warned), scanned⟩

theorem Attempt.level_target_of_mem {attempt : Attempt} {record : Record}
    (mem : record ∈ attempt.records) :
    record.level = .trace ∧ record.target = "htmlaskama_scanner::scanner" := by
  simp only [records, List.mem_cons, List.not_mem_nil, or_false] at mem
  rcases mem with rfl | rfl
  · exact ⟨rfl, rfl⟩
  · split <;> exact ⟨rfl, rfl⟩

namespace Subscriber.Documented

variable {subscriber : Subscriber}

theorem logText?_line (documented : subscriber.Documented) (place : Nat) (record : Record) :
    logText? (subscriber.line place record) = some record.text := by
  obtain ⟨time, isTime, shown⟩ := documented.line place record
  exact logText?_of_time isTime shown

theorem isLogLine_line (documented : subscriber.Documented) (place : Nat) (record : Record) :
    isLogLine (subscriber.line place record) = true := by
  rw [isLogLine, documented.logText?_line]
  rfl

end Subscriber.Documented

namespace Logging

variable {logging : Logging} {notices : List Notice}

/-- Without a setting, or with one of two settings, nothing is logged. -/
theorem wants_of_quiet (documented : logging.subscriber.Documented)
    (quiet : logging.setting ∈ [none, some "off", some "error"]) (record : Record) :
    logging.wants record = false := by
  simp only [List.mem_cons, List.not_mem_nil, or_false] at quiet
  rcases quiet with setting | setting | setting
  · rw [wants, setting]
    rfl
  · rw [wants, setting, Option.any_some]
    exact documented.threshold .off _ _
  · rw [wants, setting, Option.any_some]
    exact documented.threshold .error _ _

/-- With two settings the recognizers are logged. -/
theorem wants_of_mem_records (documented : logging.subscriber.Documented)
    (setting : logging.setting ∈ [some "trace", some "htmlaskama_scanner=trace"])
    {attempt : Attempt} {record : Record} (mem : record ∈ attempt.records) :
    logging.wants record = true := by
  obtain ⟨level, target⟩ := Attempt.level_target_of_mem mem
  simp only [List.mem_cons, List.not_mem_nil, or_false] at setting
  rcases setting with setting | setting
  · rw [wants, setting, Option.any_some, level]
    exact documented.threshold .trace _ _
  · have within := documented.scope "htmlaskama_scanner" .trace .trace
      "htmlaskama_scanner::scanner" (by decide) (by decide)
    have name : "htmlaskama_scanner" ++ "=" ++ Threshold.trace.name =
        "htmlaskama_scanner=trace" := by
      decide +kernel
    rw [wants, setting, Option.any_some, level, target, ← name, within]
    decide +kernel

/-- Without the log lines, what is written is what there is to say. -/
theorem filter_write (documented : logging.subscriber.Documented) (plain : PlainNotices notices)
    (errors : List String) : (logging.write errors notices).filter (!isLogLine ·) =
      errors.filter (!isLogLine ·) ++ notices.filterMap Notice.line? := by
  induction notices generalizing errors with
  | nil => exact (List.append_nil _).symm
  | cons notice notices ih =>
    cases notice with
    | line text =>
      obtain ⟨first, plain⟩ := List.forall_mem_cons.mp plain
      rw [write, ih plain]
      simp [Notice.line?, first.isLogLine]
    | record record =>
      rw [write, ih plain, emit]
      split <;> simp [List.filterMap_cons, Notice.line?, documented.isLogLine_line]

theorem write_of_quiet (quiet : ∀ record, logging.wants record = false) (errors : List String) :
    logging.write errors notices = errors ++ notices.filterMap Notice.line? := by
  induction notices generalizing errors with
  | nil => exact (List.append_nil _).symm
  | cons notice notices ih =>
    cases notice with
    | line text =>
      rw [write, ih, List.append_assoc]
      rfl
    | record record =>
      rw [write, ih, emit, quiet]
      rfl

/-- The log lines tell what the wanted records do. -/
theorem filterMap_write (documented : logging.subscriber.Documented) (plain : PlainNotices notices)
    (errors : List String) : (logging.write errors notices).filterMap logText? =
      errors.filterMap logText? ++
        ((notices.filterMap Notice.record?).filter logging.wants).map Record.text := by
  induction notices generalizing errors with
  | nil => exact (List.append_nil _).symm
  | cons notice notices ih =>
    cases notice with
    | line text =>
      obtain ⟨first, plain⟩ := List.forall_mem_cons.mp plain
      rw [write, ih plain]
      simp [List.filterMap_cons, Notice.record?, first.logText?]
    | record record =>
      rw [write, ih plain, emit]
      by_cases wanted : logging.wants record = true
      · simp [Notice.record?, wanted, documented.logText?_line]
      · simp [Notice.record?, wanted]

end Logging

end TemplateScanner
