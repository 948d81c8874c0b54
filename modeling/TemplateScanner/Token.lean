import TemplateScanner.Cursor
import TemplateScanner.Dispatch

namespace TemplateScanner

/-- A kind found in a source, and the bytes it covers. -/
structure Token where
  kind : Kind
  span : Span
deriving DecidableEq, Repr

/-- What one scan came to: the recognizers that ran, the token found, and the reader after it. -/
structure Turn where
  attempts : List Attempt
  token : Option Token
  cursor : Cursor

namespace Cursor

/-- Closes a scan that found the given kind, or nothing. -/
def finish (kind : Option Kind) (cursor : Cursor) : Option Token × Cursor :=
  let (span, cursor) := cursor.close kind.isSome
  (kind.bind (fun kind => span.map (Token.mk kind)), cursor)

/-- Scans once and closes the scan. -/
def turn (request : Request) (cursor : Cursor) : Except Fault Turn := do
  let (attempts, cursor) ← attempt request cursor
  let (token, cursor) := cursor.finish (winner attempts)
  .ok ⟨attempts, token, cursor⟩

/-- The next token; reading goes on after it, and stays where it was if there is none. -/
def nextToken (request : Request) (cursor : Cursor) : Except Fault (Option Token × Cursor) := do
  let turn ← cursor.turn request
  .ok (turn.token, turn.cursor)

end Cursor

end TemplateScanner
