import TemplateScanner.Token

namespace TemplateScanner

/-- The scanner as a host that parses incrementally holds it: made anew for each parse, saved at
token boundaries and restored from what was saved. It has no state of its own. -/
structure Plugin where
deriving DecidableEq, Repr

/-- The host tried to restore what was never saved. -/
inductive RestoreError where
  | unexpectedState (length : Nat)
deriving DecidableEq, Repr

def RestoreError.message : RestoreError → String
  | unexpectedState length =>
    "unexpected " ++ toString length ++ "-byte scanner state; the scanner is stateless"

namespace Plugin

/-- The number of bytes of a saved state. -/
def stateLength : Nat :=
  0

def create : Plugin :=
  {}

/-- The number of bytes written to a buffer, and the buffer after that. -/
def save (_plugin : Plugin) (buffer : ByteArray) : Nat × ByteArray :=
  (stateLength, buffer)

/-- Only an empty state can have been saved. -/
def restore (plugin : Plugin) (state : ByteArray) : Except RestoreError Plugin :=
  if state.size = stateLength then .ok plugin else .error (.unexpectedState state.size)

/-- Scans for the kinds that the host marks by index. -/
def scan {σ : Type} [Host σ] (_plugin : Plugin) (marks : List Bool) (host : σ) :
    Except Fault (Option Kind × σ) :=
  TemplateScanner.scan (Request.ofMarks marks) host

/-- What a host does with a plugin. -/
inductive Step where
  /-- Throws the plugin away and makes another. -/
  | recreate
  | save (buffer : ByteArray)
  | restore (state : ByteArray)
  /-- Scans, and closes the scan. -/
  | scan (marks : List Bool)

/-- What a host learns from a step. -/
inductive Answer where
  | recreated (plugin : Plugin)
  | saved (written : Nat) (buffer : ByteArray)
  | restored
  | notRestored (error : RestoreError)
  | scanned (token : Option Token) (cursor : Cursor)

/-- One step of a host that reads through one cursor. -/
def perform (step : Step) (plugin : Plugin) (cursor : Cursor) :
    Except Fault (Answer × Plugin × Cursor) :=
  match step with
  | .recreate => .ok (.recreated create, create, cursor)
  | .save buffer =>
    let (written, buffer) := plugin.save buffer
    .ok (.saved written buffer, plugin, cursor)
  | .restore state =>
    match plugin.restore state with
    | .ok plugin => .ok (.restored, plugin, cursor)
    | .error error => .ok (.notRestored error, plugin, cursor)
  | .scan marks => do
    let (kind, cursor) ← plugin.scan marks cursor
    let (token, cursor) := cursor.finish kind
    .ok (.scanned token cursor, plugin, cursor)

/-- The answers to a list of steps, in order. -/
def performAll : List Step → Plugin → Cursor → Except Fault (List Answer)
  | [], _, _ => .ok []
  | step :: steps, plugin, cursor => do
    let (answer, plugin, cursor) ← plugin.perform step cursor
    let answers ← performAll steps plugin cursor
    .ok (answer :: answers)

end Plugin

end TemplateScanner
