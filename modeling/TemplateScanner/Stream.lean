import TemplateScanner.Token

namespace TemplateScanner

/-- The tokens of a source under one request, one after the other. -/
structure Stream where
  cursor : Cursor
  request : Request
  /-- A scan found nothing, or an empty token that it would find for ever. -/
  finished : Bool

namespace Stream

/-- A stream at the start of a source. -/
def ofSource (source : Source) (request : Request) : Except Fault Stream := do
  let cursor ← source.cursor
  .ok ⟨cursor, request, false⟩

/-- What one step of a stream came to. -/
structure Step where
  attempts : List Attempt
  token : Option Token
  stream : Stream

/-- Goes on to the next token that is not empty. Nothing is scanned at the end of the source, nor
once the stream is finished. -/
def step (stream : Stream) : Except Fault Step :=
  if stream.finished || stream.cursor.atEnd then .ok ⟨[], none, stream⟩
  else do
    let turn ← stream.cursor.turn stream.request
    let token := turn.token.filter (!·.span.isEmpty)
    .ok ⟨turn.attempts, token, { stream with cursor := turn.cursor, finished := token.isNone }⟩

/-- The next token that is not empty, and the stream after it. -/
def next (stream : Stream) : Except Fault (Option Token × Stream) := do
  let step ← stream.step
  .ok (step.token, step.stream)

/-- The tokens taken from a stream, the recognizers that ran meanwhile, and the stream after them.
It has `ended` if it was asked for one more token and had none. -/
structure Harvest where
  attempts : List Attempt
  tokens : List Token
  ended : Bool
  stream : Stream

/-- Takes tokens until there is none, and no more than `limit`. -/
def take : Nat → Stream → Except Fault Harvest
  | 0, stream => .ok ⟨[], [], false, stream⟩
  | limit + 1, stream => do
    let step ← stream.step
    match step.token with
    | none => .ok ⟨step.attempts, [], true, step.stream⟩
    | some token =>
      let rest ← take limit step.stream
      .ok { rest with attempts := step.attempts ++ rest.attempts, tokens := token :: rest.tokens }

/-- Takes every token. Each covers at least one byte, which bounds their number. -/
def takeAll (stream : Stream) : Except Fault Harvest := do
  let harvest ← stream.take (stream.cursor.unread + 1)
  if harvest.ended then .ok harvest else .error .stalled

/-- The text of a token. -/
def text (stream : Stream) (token : Token) : Except Fault String :=
  stream.cursor.source.text token.span

/-- The text that no token covers yet. -/
def remaining (stream : Stream) : Except Fault String :=
  stream.cursor.rest

end Stream

end TemplateScanner
