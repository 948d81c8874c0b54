import TemplateScanner.Log
import TemplateScanner.Report

namespace TemplateScanner

namespace Logging

variable (logging : Logging)

/-- Runs the recognizers of a list of kinds up to the first that accepts, and logs what each
does. -/
def scanEach {σ : Type} [Host σ] :
    List Kind → σ → List String → Except Fault (Option Kind × σ × List String)
  | [], host, errors => .ok (none, host, errors)
  | kind :: kinds, host, errors => do
    let errors := logging.emit (.attempt kind) errors
    let (accepted, host) ← recognize kind host
    if accepted then .ok (some kind, host, logging.emit (.accept kind) errors)
    else scanEach kinds (Host.rewind host) (logging.emit (.reject kind) errors)

/-- Scans once, with a log, and closes the scan. -/
def nextToken (request : Request) (cursor : Cursor) (errors : List String) :
    Except Fault (Option Token × Cursor × List String) := do
  let (kind, cursor, errors) ←
    logging.scanEach (Kind.priority.filter request.asksFor) cursor errors
  let (token, cursor) := cursor.finish kind
  .ok (token, cursor, errors)

/-- Goes on to the next token of a stream, with a log. -/
def next (stream : Stream) (errors : List String) :
    Except Fault (Option Token × Stream × List String) :=
  if stream.finished || stream.cursor.atEnd then .ok (none, stream, errors)
  else do
    let (token, cursor, errors) ← logging.nextToken stream.request stream.cursor errors
    let token := token.filter (!·.span.isEmpty)
    .ok (token, { stream with cursor, finished := token.isNone }, errors)

/-- Takes every token of a stream, with a log. There are fewer of them than `limit`. -/
def takeAll : Nat → Stream → List String → Except Fault (List Token × Stream × List String)
  | 0, _, _ => .error .stalled
  | limit + 1, stream, errors => do
    let (token, stream, errors) ← logging.next stream errors
    match token with
    | none => .ok ([], stream, errors)
    | some token =>
      let (tokens, stream, errors) ← takeAll limit stream errors
      .ok (token :: tokens, stream, errors)

/-- The lines that describe the tokens of a source, and the log of finding them. -/
def report (hidden : Char → Bool) (options : ScanOptions) (source : Source)
    (errors : List String) : Except Fault (List String × List String) := do
  if options.once then
    let cursor ← source.cursor
    let (token, _, errors) ← logging.nextToken options.request cursor errors
    .ok ([← source.tokenLine hidden token], errors)
  else
    let stream ← Stream.ofSource source options.request
    let (tokens, stream, errors) ← logging.takeAll (stream.cursor.unread + 1) stream errors
    .ok (← stream.lines hidden tokens, errors)

end Logging

end TemplateScanner
