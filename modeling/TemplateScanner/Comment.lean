import TemplateScanner.Host

namespace TemplateScanner

variable {σ : Type} [Host σ]

/-- Reads a dash, if one is next. -/
def readDash : Recognizer σ := fun host => do
  let next ← Host.peek host
  if next = '-' then
    let host ← Host.advance false host
    .ok (true, host)
  else .ok (false, host)

/-- Reads on in at most `budget` steps after a run of `dashes` dashes. A run of two or more closes
the comment at the next `>`; any other character ends the run. -/
def readCommentWithin : Nat → Nat → Recognizer σ
  | 0, _, _ => .error .stalled
  | budget + 1, dashes, host =>
    if Host.atEnd host then .ok (false, host)
    else do
      let next ← Host.peek host
      if next = '>' ∧ 2 ≤ dashes then
        let host ← Host.advance false host
        .ok (true, Host.commit host)
      else
        let dashes ← if next = '-' then checkedAdd offsetLimit dashes 1 else .ok 0
        let host ← Host.advance false host
        readCommentWithin budget dashes host

/-- Reads the tail of a comment: two dashes, then through `-->`. Without the two dashes or without
`-->` it rejects, having read as far as it took to see so. -/
def readComment : Recognizer σ := fun host => do
  let (opened, host) ← readDash host
  if opened then
    let (opened, host) ← readDash host
    if opened then readCommentWithin (Host.unread host + 1) 0 host
    else .ok (false, host)
  else .ok (false, host)

end TemplateScanner
