import TemplateScanner.Plugin

namespace TemplateScanner

/-- A run of recognizers that a host can ask for. -/
inductive Call where
  | scan (request : Request)
  | plugin (marks : List Bool)
  | recognize (kind : Kind)
  /-- Reads through a pair of any two characters. -/
  | through (pair : ClosingPair)
deriving DecidableEq, Repr

/-- What a call says: the kind that was found among several, or whether the one was. -/
inductive Verdict where
  | found (kind : Option Kind)
  | decided (accepted : Bool)
deriving DecidableEq, Repr

/-- A scan after which the host takes the token. -/
def Verdict.accepts : Verdict → Bool
  | found kind => kind.isSome
  | decided accepted => accepted

/-- Runs a call and leaves the scan open. -/
def Call.run {σ : Type} [Host σ] (call : Call) (host : σ) : Except Fault (Verdict × σ) := do
  match call with
  | scan request =>
    let (kind, host) ← TemplateScanner.scan request host
    .ok (.found kind, host)
  | plugin marks =>
    let (kind, host) ← Plugin.create.scan marks host
    .ok (.found kind, host)
  | recognize kind =>
    let (accepted, host) ← TemplateScanner.recognize kind host
    .ok (.decided accepted, host)
  | through pair =>
    let (accepted, host) ← pair.read host
    .ok (.decided accepted, host)

/-- A host at work on one source: its reader, and a copy of it to fall back on. -/
structure Session where
  cursor : Cursor
  saved : Cursor

namespace Session

/-- What a host does in a session. -/
inductive Command where
  | advance (skip : Bool)
  | commit
  | rewind
  | save
  | restore
  | close (accepted : Bool)
  | rest
  | text (span : Span)
  | nextToken (request : Request)
  | call (call : Call)
deriving DecidableEq, Repr

/-- What a command answers. -/
inductive Reply where
  | done
  | closed (span : Option Span)
  | text (text : String)
  | token (token : Option Token)
  | verdict (verdict : Verdict)
deriving DecidableEq, Repr

/-- A session at the start of a source, with the reader saved there. -/
def ofSource (source : Source) : Except Fault Session := do
  let cursor ← source.cursor
  .ok ⟨cursor, cursor⟩

/-- Carries out a command that has to succeed. -/
def perform (command : Command) (session : Session) : Except Fault (Reply × Session) := do
  let cursor := session.cursor
  match command with
  | .advance skip =>
    let cursor ← cursor.advance skip
    .ok (.done, { session with cursor })
  | .commit => .ok (.done, { session with cursor := cursor.commit })
  | .rewind => .ok (.done, { session with cursor := cursor.rewind })
  | .save => .ok (.done, { session with saved := cursor })
  | .restore => .ok (.done, { session with cursor := session.saved })
  | .close accepted =>
    let (span, cursor) := cursor.close accepted
    .ok (.closed span, { session with cursor })
  | .rest =>
    let text ← cursor.rest
    .ok (.text text, session)
  | .text span =>
    let text ← cursor.source.text span
    .ok (.text text, session)
  | .nextToken request =>
    let (token, cursor) ← cursor.nextToken request
    .ok (.token token, { session with cursor })
  | .call call =>
    let (verdict, cursor) ← call.run cursor
    .ok (.verdict verdict, { session with cursor })

/-- Replies to one command. A command that fails changes nothing, and the session goes on. -/
def step (command : Command) (session : Session) : Except Fault Reply × Session :=
  match session.perform command with
  | .ok (reply, session) => (.ok reply, session)
  | .error fault => (.error fault, session)

/-- The replies to a list of commands, each with the session after it. -/
def run : List Command → Session → List (Except Fault Reply × Session)
  | [], _ => []
  | command :: commands, session =>
    let (reply, session) := session.step command
    (reply, session) :: run commands session

end Session

end TemplateScanner
