import TemplateScanner.Location
import TemplateScanner.Quoted
import TemplateScanner.Stream

namespace TemplateScanner

/-- What to scan for, and whether to stop after one scan. -/
structure ScanOptions where
  request : Request
  once : Bool
deriving DecidableEq, Repr

/-- Every kind, through to the end. -/
def ScanOptions.standard : ScanOptions :=
  ⟨Request.all, false⟩

/-- The lines that describe the tokens of a source, and the recognizers that ran to find them. -/
structure Report where
  lines : List String
  attempts : List Attempt
deriving DecidableEq, Repr

/-- A token with its text. -/
def Token.line (hidden : Char → Bool) (token : Token) (text : String) : String :=
  token.kind.label ++ " @ " ++ token.span.describe ++ " " ++ quote hidden text

/-- Where scanning stopped, if anything is left. -/
def trailer (hidden : Char → Bool) (rest : String) : List String :=
  if rest.isEmpty then []
  else
    ["(stopped with " ++ toString rest.utf8ByteSize ++ " unscanned bytes: " ++
      quote hidden rest ++ ")"]

/-- The line of a token, or that there is none. -/
def Source.tokenLine (hidden : Char → Bool) (source : Source) :
    Option Token → Except Fault String
  | some token => do
    let text ← source.text token.span
    .ok (token.line hidden text)
  | none => .ok "(no token)"

/-- A line for each token, in order, and where the stream stopped. -/
def Stream.lines (hidden : Char → Bool) (stream : Stream) (tokens : List Token) :
    Except Fault (List String) := do
  let lines ← tokens.mapM fun token => return token.line hidden (← stream.text token)
  let rest ← stream.remaining
  .ok (lines ++ trailer hidden rest)

/-- A report of the first token. -/
def reportOnce (hidden : Char → Bool) (source : Source) (request : Request) :
    Except Fault Report := do
  let cursor ← source.cursor
  let turn ← cursor.turn request
  .ok ⟨[← source.tokenLine hidden turn.token], turn.attempts⟩

/-- A report of every token of the stream. -/
def reportAll (hidden : Char → Bool) (source : Source) (request : Request) :
    Except Fault Report := do
  let stream ← Stream.ofSource source request
  let harvest ← stream.takeAll
  .ok ⟨← harvest.stream.lines hidden harvest.tokens, harvest.attempts⟩

/-- What there is to say about the tokens of a source. -/
def report (hidden : Char → Bool) (options : ScanOptions) (source : Source) :
    Except Fault Report :=
  if options.once then reportOnce hidden source options.request
  else reportAll hidden source options.request

/-- One line for each defect, with its place in the file. -/
def warnings (path : String) (source : Source) : Except Fault (List String) :=
  source.defects.mapM fun defect => do
    let place ← source.locate defect.offset
    .ok ("warning: " ++ path ++ ":" ++ toString place.line ++ ":" ++ toString place.column ++
      ": " ++ defect.description)

end TemplateScanner
