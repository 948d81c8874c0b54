import TemplateScanner.Host

namespace TemplateScanner

/-- Two characters that close a construct. -/
structure ClosingPair where
  first : Char
  second : Char
deriving DecidableEq, Repr

namespace ClosingPair

/-- Closes a statement. -/
def statement : ClosingPair :=
  ⟨'%', '}'⟩

/-- Closes an expression. -/
def expression : ClosingPair :=
  ⟨'}', '}'⟩

variable {σ : Type} [Host σ]

/-- Reads on in at most `budget` steps. With `half` the character read last is the pair's first one;
it waits outside the token until the next character shows whether the pair is complete. If it is
not, that next character is looked at once more, for it may be the pair's first one itself. -/
def readWithin (pair : ClosingPair) : Nat → Bool → Recognizer σ
  | 0, _, _ => .error .stalled
  | budget + 1, half, host =>
    if Host.atEnd host then .ok (true, Host.commit host)
    else do
      let next ← Host.peek host
      if next = (if half then pair.second else pair.first) then
        let host ← Host.advance false host
        if half then .ok (true, Host.commit host)
        else pair.readWithin budget true host
      else if half then pair.readWithin budget false (Host.commit host)
      else
        let host ← Host.advance false host
        pair.readWithin budget false (Host.commit host)

/-- Reads through the first occurrence of the pair, or to the end of the input, and always accepts.
No character is looked at more than twice, which bounds the steps. -/
def read (pair : ClosingPair) : Recognizer σ := fun host =>
  pair.readWithin (2 * Host.unread host + 1) false (Host.commit host)

end ClosingPair

end TemplateScanner
