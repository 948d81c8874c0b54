import TemplateScanner.Proofs.Script
import TemplateScanner.Session

namespace TemplateScanner

/-- The recognizers that run when a list of kinds is tried, and what they and the rewinds between
them do. Only the first kind finds the scan where it stands, the others find it at its start. -/
def attemptsScript : List Kind → List Char → List Char → List Attempt × List Event
  | [], _, _ => ([], [])
  | kind :: kinds, start, rest =>
    if (kind.script rest).accepted then ([⟨kind, true⟩], (kind.script rest).events)
    else
      (⟨kind, false⟩ :: (attemptsScript kinds start start).1,
        (kind.script rest).events ++ .rewind :: (attemptsScript kinds start start).2)

/-- What a call says and does. -/
def Call.script (call : Call) (start rest : List Char) : Verdict × List Event :=
  match call with
  | scan request =>
    let (attempts, events) := attemptsScript (Kind.priority.filter request.asksFor) start rest
    (.found (winner attempts), events)
  | plugin marks =>
    let (attempts, events) :=
      attemptsScript (Kind.priority.filter (Request.ofMarks marks).asksFor) start rest
    (.found (winner attempts), events)
  | recognize kind => (.decided (kind.script rest).accepted, (kind.script rest).events)
  | through pair => (.decided (pair.script false rest).accepted,
      .commit :: (pair.script false rest).events)

section Contract

variable {σ : Type} [Host σ] {reads : σ → List Char → List Char → Prop} {host : σ}
  {start rest : List Char}

theorem attemptEach_eq (contract : Contract σ reads) (h : reads host start rest)
    (kinds : List Kind) :
    attemptEach kinds host = (do
      let next ← follow (attemptsScript kinds start rest).2 host
      .ok ((attemptsScript kinds start rest).1, next)) := by
  induction kinds generalizing host rest with
  | nil => rfl
  | cons kind kinds ih =>
    obtain ⟨next, followed, hn⟩ := contract.follow h (kind.script rest).events
    rw [attemptEach, recognize_eq contract h, Script.run, followed, attemptsScript]
    by_cases accepted : (kind.script rest).accepted = true
    · rw [if_pos accepted]
      simp only [ok_bind, accepted, if_true, followed]
    · rw [if_neg accepted]
      obtain ⟨last, again, _⟩ :=
        contract.follow (contract.rewind hn) (attemptsScript kinds start start).2
      have later := ih (contract.rewind hn)
      rw [again] at later
      simp only [ok_bind, accepted, Bool.false_eq_true, if_false, later, follow_append, followed,
        follow, Event.perform, again]

theorem attempt_eq (contract : Contract σ reads) (h : reads host start rest) (request : Request) :
    attempt request host = (do
      let next ← follow (attemptsScript (Kind.priority.filter request.asksFor) start rest).2 host
      .ok ((attemptsScript (Kind.priority.filter request.asksFor) start rest).1, next)) :=
  attemptEach_eq contract h _

/-- What a call does is told by the characters to be read, whatever the host. -/
theorem Call.run_eq (contract : Contract σ reads) (h : reads host start rest) (call : Call) :
    call.run host = (do
      let next ← follow (call.script start rest).2 host
      .ok ((call.script start rest).1, next)) := by
  cases call with
  | scan request =>
    obtain ⟨next, followed, _⟩ := contract.follow h (Call.scan request |>.script start rest).2
    simp only [script] at followed
    simp only [run, script, TemplateScanner.scan, attempt_eq contract h, followed, ok_bind]
  | plugin marks =>
    obtain ⟨next, followed, _⟩ := contract.follow h (Call.plugin marks |>.script start rest).2
    simp only [script] at followed
    simp only [run, script, Plugin.scan, TemplateScanner.scan, attempt_eq contract h, followed,
      ok_bind]
  | recognize kind =>
    obtain ⟨next, followed, _⟩ := contract.follow h (kind.script rest).events
    simp only [run, script, recognize_eq contract h, Script.run, followed, ok_bind]
  | through pair =>
    obtain ⟨next, followed, _⟩ := contract.follow h ((pair.script false rest).after .commit).events
    simp only [Script.after] at followed
    simp only [run, script, ClosingPair.read_eq contract h, Script.run, Script.after, followed,
      ok_bind]

end Contract

end TemplateScanner
