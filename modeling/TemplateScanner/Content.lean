import TemplateScanner.Host

namespace TemplateScanner

/-- The characters that may open a tag or a template construct. -/
def isStop (c : Char) : Bool :=
  c = '<' || c = '{' || c = '%'

/-- Whether the next stop is escaped, once a character has been read: a backslash changes that, a
stop uses it up, and any other character leaves it. -/
def escapedAfter (escaped : Bool) (c : Char) : Bool :=
  if c = '\\' then !escaped else if isStop c then false else escaped

variable {σ : Type} [Host σ]

/-- Reads on in at most `budget` steps. -/
def readContentWithin : Nat → Bool → Recognizer σ
  | 0, _, _ => .error .stalled
  | budget + 1, escaped, host =>
    if Host.atEnd host then .ok (true, host)
    else do
      let next ← Host.peek host
      if isStop next && !escaped then .ok (true, host)
      else
        let host ← Host.advance false host
        readContentWithin budget (escapedAfter escaped next) (Host.commit host)

/-- Reads up to the first stop that is not escaped, or to the end of the input, and always
accepts. The token is empty if such a stop comes first. -/
def readContent : Recognizer σ := fun host =>
  readContentWithin (Host.unread host + 1) false (Host.commit host)

end TemplateScanner
