import TemplateScanner.CommandLine
import TemplateScanner.Proofs.Checked

namespace TemplateScanner

/-- What a run has to say beside its results: a line, or a log record, which may not be wanted. -/
inductive Notice where
  | line (text : String)
  | record (record : Record)
deriving DecidableEq, Repr

namespace Notice

def line? : Notice → Option String
  | line text => some text
  | record _ => none

def record? : Notice → Option Record
  | line _ => none
  | record told => some told

end Notice

/-- The records of a recognizer that was run. -/
def Attempt.records (attempt : Attempt) : List Record :=
  [.attempt attempt.kind, if attempt.accepted then .accept attempt.kind else .reject attempt.kind]

def noticesOf (attempts : List Attempt) : List Notice :=
  (attempts.flatMap Attempt.records).map Notice.record

namespace Logging

variable (logging : Logging)

/-- Writes notices behind the lines that there are. -/
def write (errors : List String) : List Notice → List String
  | [] => errors
  | .line text :: notices => write (errors ++ [text]) notices
  | .record record :: notices => write (logging.emit record errors) notices

theorem write_append (errors : List String) (first second : List Notice) :
    logging.write errors (first ++ second) =
      logging.write (logging.write errors first) second := by
  induction first generalizing errors with
  | nil => rfl
  | cons notice first ih =>
    cases notice with
    | line text => exact ih _
    | record record => exact ih _

theorem write_lines (errors lines : List String) :
    logging.write errors (lines.map Notice.line) = errors ++ lines := by
  induction lines generalizing errors with
  | nil => exact (List.append_nil errors).symm
  | cons line lines ih =>
    rw [List.map_cons, write, ih, List.append_assoc]
    rfl

theorem write_noticesOf_cons (errors : List String) (attempt : Attempt)
    (attempts : List Attempt) : logging.write errors (noticesOf (attempt :: attempts)) =
      logging.write (logging.write errors (attempt.records.map Notice.record))
        (noticesOf attempts) := by
  rw [noticesOf, List.flatMap_cons, List.map_append, write_append, noticesOf]

section agreement

/-! A run that logs does what it would do without a log, and writes the notices of the recognizers
that it runs. -/

variable (errors : List String)

theorem scanEach_eq {σ : Type} [Host σ] (kinds : List Kind) (host : σ) :
    logging.scanEach kinds host errors = attemptEach kinds host >>= fun ran =>
      .ok (winner ran.1, ran.2, logging.write errors (noticesOf ran.1)) := by
  induction kinds generalizing host errors with
  | nil => rfl
  | cons kind kinds ih =>
    rw [scanEach, attemptEach]
    cases recognize kind host with
    | error fault => rfl
    | ok ran =>
      obtain ⟨accepted, host⟩ := ran
      cases accepted with
      | true => rfl
      | false =>
        simp only [ok_bind, Bool.false_eq_true, if_false, ih]
        cases attemptEach kinds (Host.rewind host) with
        | error fault => rfl
        | ok ran =>
          simp only [ok_bind, write_noticesOf_cons]
          rfl

theorem nextToken_eq (request : Request) (cursor : Cursor) :
    logging.nextToken request cursor errors = cursor.turn request >>= fun turn =>
      .ok (turn.token, turn.cursor, logging.write errors (noticesOf turn.attempts)) := by
  rw [nextToken, scanEach_eq, Cursor.turn, attempt]
  cases attemptEach (Kind.priority.filter request.asksFor) cursor <;> rfl

theorem next_eq (stream : Stream) :
    logging.next stream errors = stream.step >>= fun step =>
      .ok (step.token, step.stream, logging.write errors (noticesOf step.attempts)) := by
  rw [next, Stream.step, nextToken_eq]
  split
  next => rfl
  next => cases stream.cursor.turn stream.request <;> rfl

theorem takeAll_eq (limit : Nat) (stream : Stream) :
    logging.takeAll limit stream errors = stream.take limit >>= fun harvest =>
      if harvest.ended then
        .ok (harvest.tokens, harvest.stream, logging.write errors (noticesOf harvest.attempts))
      else .error .stalled := by
  induction limit generalizing stream errors with
  | zero => rfl
  | succ limit ih =>
    rw [takeAll, next_eq, Stream.take]
    cases stream.step with
    | error fault => rfl
    | ok step =>
      obtain ⟨attempts, token, stream⟩ := step
      cases token with
      | none => rfl
      | some token =>
        simp only [ok_bind, ih]
        cases stream.take limit with
        | error fault => rfl
        | ok harvest =>
          simp only [ok_bind, noticesOf, List.flatMap_append, List.map_append, write_append]
          cases harvest.ended <;> rfl

theorem report_eq (hidden : Char → Bool) (options : ScanOptions) (source : Source) :
    logging.report hidden options source errors =
      TemplateScanner.report hidden options source >>= fun written =>
        .ok (written.lines, logging.write errors (noticesOf written.attempts)) := by
  rw [report, TemplateScanner.report]
  split
  next =>
    rw [reportOnce]
    cases source.cursor with
    | error fault => rfl
    | ok cursor =>
      simp only [ok_bind, nextToken_eq]
      cases cursor.turn options.request with
      | error fault => rfl
      | ok turn =>
        simp only [ok_bind]
        cases source.tokenLine hidden turn.token <;> rfl
  next =>
    rw [reportAll]
    cases Stream.ofSource source options.request with
    | error fault => rfl
    | ok stream =>
      simp only [ok_bind, takeAll_eq, Stream.takeAll]
      cases stream.take (stream.cursor.unread + 1) with
      | error fault => rfl
      | ok harvest =>
        simp only [ok_bind]
        cases harvest.ended with
        | false => rfl
        | true =>
          simp only [ok_bind, if_true]
          cases harvest.stream.lines hidden harvest.tokens <;> rfl

end agreement

/-- The notices of the scan of a text. -/
def notices (path : String) (options : ScanOptions) (source : Source) (defects : List String)
    (written : Report) : List Notice :=
  .record (.scanning path source.length options.request) :: defects.map Notice.line ++
    noticesOf written.attempts

theorem filterMap_line?_lines (lines : List String) :
    (lines.map Notice.line).filterMap Notice.line? = lines := by
  rw [List.filterMap_map]
  exact List.filterMap_some

section notices

variable {path : String} {options : ScanOptions} {source : Source} {defects : List String}
  {written : Report}

theorem filterMap_line?_notices :
    (notices path options source defects written).filterMap Notice.line? = defects := by
  have none : (noticesOf written.attempts).filterMap Notice.line? = [] := by
    rw [noticesOf, List.filterMap_map]
    exact List.filterMap_eq_nil_iff.mpr fun _ _ => rfl
  calc
    _ = (defects.map Notice.line ++ noticesOf written.attempts).filterMap Notice.line? := rfl
    _ = defects := by rw [List.filterMap_append, filterMap_line?_lines, none, List.append_nil]

theorem filterMap_record?_notices :
    (notices path options source defects written).filterMap Notice.record? =
      .scanning path source.length options.request ::
        written.attempts.flatMap Attempt.records := by
  have none : (defects.map Notice.line).filterMap Notice.record? = [] := by
    rw [List.filterMap_map]
    exact List.filterMap_eq_nil_iff.mpr fun _ _ => rfl
  have all : (noticesOf written.attempts).filterMap Notice.record? =
      written.attempts.flatMap Attempt.records := by
    rw [noticesOf, List.filterMap_map]
    exact List.filterMap_some
  calc
    _ = .scanning path source.length options.request ::
          (defects.map Notice.line ++ noticesOf written.attempts).filterMap Notice.record? := rfl
    _ = _ := by rw [List.filterMap_append, none, all, List.nil_append]

end notices

/-- The scan of a text is the same whatever is logged, but for the log. -/
theorem scanText_cases (path text : String) (options : ScanOptions) :
    (∃ fault, ∀ logging : Logging, logging.scanText path text options = .error fault) ∨
    ∃ source defects written, Source.ofText text = .ok source ∧
      warnings path source = .ok defects ∧
      TemplateScanner.report isHidden options source = .ok written ∧
      ∀ logging : Logging, logging.scanText path text options = .ok
        { output := ("Tokens for '" ++ path ++ "':") :: written.lines.map ("  " ++ ·)
          errors := logging.write [] (notices path options source defects written)
          status := 0 } := by
  cases made : Source.ofText text with
  | error fault =>
    refine .inl ⟨fault, fun logging => ?_⟩
    rw [scanText, made, error_bind]
  | ok source =>
    cases warned : warnings path source with
    | error fault =>
      refine .inl ⟨fault, fun logging => ?_⟩
      rw [scanText, made, ok_bind, warned, error_bind]
    | ok defects =>
      cases reported : TemplateScanner.report isHidden options source with
      | error fault =>
        refine .inl ⟨fault, fun logging => ?_⟩
        rw [scanText, made, ok_bind, warned, ok_bind, report_eq, reported]
        rfl
      | ok written =>
        refine .inr ⟨source, defects, written, rfl, warned, reported, fun logging => ?_⟩
        rw [scanText, made, ok_bind, warned, ok_bind, report_eq, reported, notices,
          List.cons_append, write, write_append, write_lines]
        rfl

end Logging

end TemplateScanner
