import TemplateScanner.Proofs.Winner
import TemplateScanner.Token

namespace TemplateScanner

/-- The kind that a scan finds in the characters still to be read. -/
def Request.finds (request : Request) (rest : List Char) : Option Kind :=
  Kind.priority.find? fun kind => request.asksFor kind && (kind.script rest).accepted

/-- The number of characters that the token of a scan covers. -/
def Request.reach (request : Request) (rest : List Char) : Nat :=
  ((request.finds rest).map (·.reach rest)).getD 0

theorem Request.reach_le (request : Request) (rest : List Char) :
    request.reach rest ≤ rest.length := by
  rw [reach]
  cases request.finds rest with
  | none => exact Nat.zero_le _
  | some kind => exact kind.reach_le rest

/-- The token that a scan from a place of a text finds. -/
def Request.token (request : Request) (text : List Char) (place : Nat) : Option Token :=
  (request.finds (text.drop place)).map fun kind =>
    ⟨kind, ⟨offset text place, offset text (place + request.reach (text.drop place))⟩⟩

namespace Cursor

theorem finish_none (cursor : Cursor) : cursor.finish none = (none, cursor.rewind) := rfl

theorem finish_some (kind : Kind) (cursor : Cursor) :
    cursor.finish (some kind) =
      ((cursor.close true).1.map (Token.mk kind), (cursor.close true).2) := rfl

theorem turn_eq {request : Request} {cursor after : Cursor} {attempts : List Attempt}
    (tried : attempt request cursor = .ok (attempts, after)) :
    cursor.turn request = .ok
      { attempts := attempts
        token := (after.finish (winner attempts)).1
        cursor := (after.finish (winner attempts)).2 } := by
  rw [turn, tried]
  rfl

end Cursor

namespace IndexCursor

variable {source : Source} {text : List Char}

theorem scanStart_follow {index next : IndexCursor text} {events : List Event}
    (followed : follow events index = .ok next) : next.scanStart = index.scanStart := by
  induction events generalizing index with
  | nil =>
    cases Except.ok.inj followed
    rfl
  | cons event events ih =>
    obtain ⟨last, performed, later⟩ := bind_eq_ok_iff.mp followed
    rw [ih later]
    cases event with
    | advance =>
      cases Except.ok.inj performed
      exact scanStart_advance false index
    | skip =>
      cases Except.ok.inj performed
      exact scanStart_advance true index
    | commit =>
      cases Except.ok.inj performed
      rfl
    | rewind =>
      cases Except.ok.inj performed
      rfl

/-- What a scan does at a boundary. -/
theorem turn_startAt (holds : source.Holds text) {place : Nat} (le : place ≤ text.length)
    (request : Request) : ∃ attempts,
      ((startAt text place).toCursor source).turn request = .ok
        { attempts := attempts
          token := request.token text place
          cursor := (startAt text (place + request.reach (text.drop place))).toCursor source } := by
  obtain ⟨attempts, after, tried, found, won, lost⟩ := attempt_startAt holds le request
  have finds : winner attempts = request.finds (text.drop place) := by
    simp only [found, Request.finds, accepts_startAt holds le]
  refine ⟨attempts, ?_⟩
  rw [Cursor.turn_eq tried, Request.token, Request.reach, ← finds]
  cases which : winner attempts with
  | none =>
    rw [lost which, Cursor.finish_none]
    rfl
  | some kind =>
    obtain ⟨next, ran, _, ht, hp, hc, _⟩ := recognize_startAt holds le kind
    obtain ⟨accepted, rfl⟩ := Prod.mk.inj (Except.ok.inj (ran.symm.trans (won kind which)))
    have stop : next.tokenEnd = place + kind.reach (text.drop place) := by
      rw [tokenEnd, hc accepted, ht, hp, Option.getD_some]
      omega
    rw [Cursor.finish_some, close_toCursor]
    simp only [close, if_true, stop, ht]
    rfl

theorem nextToken_startAt (holds : source.Holds text) {place : Nat} (le : place ≤ text.length)
    (request : Request) : ((startAt text place).toCursor source).nextToken request =
      .ok (request.token text place,
        (startAt text (place + request.reach (text.drop place))).toCursor source) := by
  obtain ⟨attempts, turned⟩ := turn_startAt holds le request
  rw [Cursor.nextToken, turned]
  rfl

/-- Kinds can be tried in the midst of a scan too, which goes on from its start. -/
theorem attempt_toCursor (holds : source.Holds text) {index : IndexCursor text}
    (inside : index.Inside) (request : Request) : ∃ attempts, ∃ next : IndexCursor text,
      attempt request (index.toCursor source) = .ok (attempts, next.toCursor source) ∧
      next.Inside ∧ next.scanStart = index.scanStart := by
  obtain ⟨next, followed, hn, mirrored⟩ := follow_toCursor holds inside
    (attemptsScript (Kind.priority.filter request.asksFor) (text.drop index.scanStart)
      index.rest).2
  have tried := attempt_eq Cursor.contract (index.reads_toCursor holds) request
  rw [mirrored, ok_bind] at tried
  exact ⟨_, next, tried, hn, scanStart_follow followed⟩

theorem finish_toCursor (index : IndexCursor text) (found : Option Kind) :
    (index.toCursor source).finish found =
      (found.map fun kind => ⟨kind, ⟨offset text index.tokenStart, offset text index.tokenEnd⟩⟩,
        (index.close found.isSome).2.toCursor source) := by
  cases found with
  | none => rfl
  | some kind =>
    rw [Cursor.finish_some, close_toCursor]
    rfl

theorem whole_token {index : IndexCursor text} (inside : index.Inside) :
    Span.Whole text ⟨offset text index.tokenStart, offset text index.tokenEnd⟩ :=
  ⟨_, _, Nat.le_max_right _ _, tokenEnd_le inside, rfl⟩

theorem nextToken_toCursor (holds : source.Holds text) {index : IndexCursor text}
    (inside : index.Inside) (request : Request) :
    ∃ (token : Option Token) (next : IndexCursor text), next.Inside ∧
      (∀ found ∈ token, found.span.Whole text) ∧
      (index.toCursor source).nextToken request = .ok (token, next.toCursor source) := by
  obtain ⟨attempts, scanned, tried, hs, _⟩ := attempt_toCursor holds inside request
  have ran : (index.toCursor source).nextToken request =
      .ok ((scanned.toCursor source).finish (winner attempts)) := by
    rw [Cursor.nextToken, Cursor.turn_eq tried]
    rfl
  rw [finish_toCursor] at ran
  refine ⟨_, _, inside_close hs _, ?_, ran⟩
  intro found mem
  obtain ⟨kind, _, rfl⟩ := Option.map_eq_some_iff.mp mem
  exact whole_token hs

/-- A scan succeeds in the midst of another too; if it finds nothing it leaves what a rewind
leaves. -/
theorem turn_toCursor (holds : source.Holds text) {index : IndexCursor text}
    (inside : index.Inside) (request : Request) :
    ∃ turn, (index.toCursor source).turn request = .ok turn ∧
      (turn.token = none → turn.cursor = (index.toCursor source).rewind) := by
  obtain ⟨attempts, next, tried, _, start⟩ := attempt_toCursor holds inside request
  refine ⟨_, Cursor.turn_eq tried, ?_⟩
  simp only
  intro lost
  cases which : winner attempts with
  | none =>
    have back : next.rewind = index.rewind := by
      rw [rewind, start]
      rfl
    rw [Cursor.finish_none, rewind_toCursor, rewind_toCursor, back]
  | some kind =>
    rw [which, Cursor.finish_some] at lost
    cases lost

end IndexCursor

end TemplateScanner
