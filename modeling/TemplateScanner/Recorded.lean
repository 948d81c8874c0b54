import TemplateScanner.Host

namespace TemplateScanner

/-- What was done to a host. Looking at its next character or for its end leaves no event. -/
inductive Event where
  | advance
  | skip
  | commit
  | rewind
deriving DecidableEq, Repr

/-- A host that keeps a record of what is done to it. -/
structure Recorded (σ : Type) where
  host : σ
  /-- The events so far, the last one first. -/
  events : List Event

namespace Recorded

def ofHost {σ : Type} (host : σ) : Recorded σ :=
  ⟨host, []⟩

/-- The events in the order in which they happened. -/
def history {σ : Type} (recorded : Recorded σ) : List Event :=
  recorded.events.reverse

instance {σ : Type} [Host σ] : Host (Recorded σ) where
  peek recorded := Host.peek recorded.host
  atEnd recorded := Host.atEnd recorded.host
  unread recorded := Host.unread recorded.host
  advance skip recorded := do
    let host ← Host.advance skip recorded.host
    .ok ⟨host, (if skip then .skip else .advance) :: recorded.events⟩
  commit recorded := ⟨Host.commit recorded.host, .commit :: recorded.events⟩
  rewind recorded := ⟨Host.rewind recorded.host, .rewind :: recorded.events⟩

end Recorded

end TemplateScanner
