import TemplateScanner.Argument
import TemplateScanner.ClosingPair
import TemplateScanner.Comment
import TemplateScanner.Content
import TemplateScanner.Request

namespace TemplateScanner

variable {σ : Type} [Host σ]

/-- The recognizer of a kind. -/
def recognize : Kind → Recognizer σ
  | .expression => ClosingPair.expression.read
  | .statement => ClosingPair.statement.read
  | .comment => readComment
  | .argument => readArgument
  | .content => readContent

/-- A recognizer that was run, and what it said. -/
structure Attempt where
  kind : Kind
  accepted : Bool
deriving DecidableEq, Repr

/-- Runs the recognizers of a list of kinds up to the first that accepts. One that rejects is
rewound, so that each starts at the same character. -/
def attemptEach : List Kind → σ → Except Fault (List Attempt × σ)
  | [], host => .ok ([], host)
  | kind :: kinds, host => do
    let (accepted, host) ← recognize kind host
    if accepted then .ok ([⟨kind, true⟩], host)
    else
      let (attempts, host) ← attemptEach kinds (Host.rewind host)
      .ok (⟨kind, false⟩ :: attempts, host)

/-- Tries the kinds asked for, by priority. -/
def attempt (request : Request) : σ → Except Fault (List Attempt × σ) :=
  attemptEach (Kind.priority.filter request.asksFor)

/-- The kind that was accepted. -/
def winner (attempts : List Attempt) : Option Kind :=
  (attempts.find? (·.accepted)).map (·.kind)

/-- Finds at most one token, whose end is the one its recognizer committed last. -/
def scan (request : Request) (host : σ) : Except Fault (Option Kind × σ) := do
  let (attempts, host) ← attempt request host
  .ok (winner attempts, host)

end TemplateScanner
