import TemplateScanner.Host

namespace TemplateScanner

/-- The brackets that are open at some point of an argument, counted by shape. -/
structure Depth where
  parens : Nat
  brackets : Nat
deriving DecidableEq, Repr

namespace Depth

def top : Depth :=
  ⟨0, 0⟩

/-- The character ends an argument at this depth. -/
def endsAt (depth : Depth) (c : Char) : Bool :=
  (c = ',' || c = ')') && depth = top

/-- The depth once a character has been read. A bracket that closes nothing changes nothing. -/
def after (depth : Depth) (c : Char) : Except Fault Depth := do
  if c = '(' then .ok { depth with parens := ← checkedAdd offsetLimit depth.parens 1 }
  else if c = ')' then .ok { depth with parens := depth.parens - 1 }
  else if c = '[' then .ok { depth with brackets := ← checkedAdd offsetLimit depth.brackets 1 }
  else if c = ']' then .ok { depth with brackets := depth.brackets - 1 }
  else .ok depth

end Depth

/-- The characters that go with the comma or parenthesis before them. -/
def isFiller (c : Char) : Bool :=
  c = ' ' || c = '\n'

variable {σ : Type} [Host σ]

/-- Reads a run of spaces and newlines in at most `budget` steps. -/
def readFillerWithin : Nat → σ → Except Fault σ
  | 0, _ => .error .stalled
  | budget + 1, host => do
    let next ← Host.peek host
    if isFiller next then
      let host ← Host.advance false host
      readFillerWithin budget host
    else .ok host

/-- Reads on in at most `budget` steps. -/
def readArgumentWithin : Nat → Depth → Recognizer σ
  | 0, _, _ => .error .stalled
  | budget + 1, depth, host =>
    if Host.atEnd host then .ok (true, host)
    else do
      let next ← Host.peek host
      if depth.endsAt next then
        let host ← Host.advance false host
        let host ← readFillerWithin (Host.unread host + 1) host
        .ok (true, Host.commit host)
      else
        let depth ← depth.after next
        let host ← Host.advance false host
        readArgumentWithin budget depth (Host.commit host)

/-- Reads one argument of a call with the comma or closing parenthesis that ends it outside all
brackets and with the spaces and newlines after that, or to the end of the input, and always
accepts. -/
def readArgument : Recognizer σ := fun host =>
  readArgumentWithin (Host.unread host + 1) Depth.top (Host.commit host)

end TemplateScanner
