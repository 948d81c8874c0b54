import TemplateScanner.Proofs.Attempts

namespace TemplateScanner

/-- A host whose scans can be closed. -/
class Reader (σ : Type) extends Host σ where
  close (accepted : Bool) : σ → Option Span × σ

instance : Reader Cursor where
  close := Cursor.close

instance {text : List Char} : Reader (IndexCursor text) where
  close := IndexCursor.close

/-- What the owner of a reader may do with it. -/
inductive Operation where
  | advance (skip : Bool)
  | commit
  | rewind
  | close (accepted : Bool)
  | call (call : Call)
deriving DecidableEq, Repr

/-- What an operation answers. -/
inductive Answer where
  | done
  | closed (span : Option Span)
  | said (verdict : Verdict)
deriving DecidableEq, Repr

/-- An answer counted in characters, counted in bytes. -/
def Answer.inBytes (text : List Char) (answer : Answer) : Answer :=
  match answer with
  | closed (some span) => closed (some ⟨offset text span.start, offset text span.stop⟩)
  | other => other

namespace Operation

def run {σ : Type} [Reader σ] (operation : Operation) (reader : σ) :
    Except Fault (Answer × σ) := do
  match operation with
  | .advance skip =>
    let next ← Host.advance skip reader
    .ok (.done, next)
  | .commit => .ok (.done, Host.commit reader)
  | .rewind => .ok (.done, Host.rewind reader)
  | .close accepted =>
    let (span, next) := Reader.close accepted reader
    .ok (.closed span, next)
  | .call asked =>
    let (verdict, next) ← asked.run reader
    .ok (.said verdict, next)

/-- Operates in order, and gives the answer to each operation with the reader after it. -/
def runAll {σ : Type} [Reader σ] : List Operation → σ → Except Fault (List (Answer × σ))
  | [], _ => .ok []
  | operation :: operations, reader => do
    let (answer, next) ← operation.run reader
    let steps ← runAll operations next
    .ok ((answer, next) :: steps)

end Operation

/-- A reader that operations lead to from the start of a text. -/
inductive Cursor.Reachable (text : String) : Cursor → Prop where
  | opened {cursor : Cursor} : Cursor.ofText text = .ok cursor → Reachable text cursor
  | operated {cursor next : Cursor} {operation : Operation} {answer : Answer} :
    Reachable text cursor → operation.run cursor = .ok (answer, next) → Reachable text next

namespace IndexCursor

variable {source : Source} {text : List Char}

/-- All places lie in the text. -/
structure Inside (index : IndexCursor text) : Prop where
  scanStart : index.scanStart ≤ text.length
  tokenStart : index.tokenStart ≤ text.length
  position : index.position ≤ text.length
  committed : ∀ place ∈ index.committed, place ≤ text.length

theorem inside_startAt {place : Nat} (le : place ≤ text.length) : (startAt text place).Inside :=
  ⟨le, le, le, by simp [startAt]⟩

theorem inside_advance {index : IndexCursor text} (inside : index.Inside) (skip : Bool) :
    (index.advance skip).Inside := by
  unfold advance
  split
  next => exact inside
  next more =>
    have lt : index.position < text.length := by simpa [atEnd] using more
    refine ⟨inside.scanStart, ?_, lt, inside.committed⟩
    simp only
    split
    next => exact lt
    next => exact inside.tokenStart

theorem inside_commit {index : IndexCursor text} (inside : index.Inside) : index.commit.Inside := by
  refine ⟨inside.scanStart, inside.tokenStart, inside.position, ?_⟩
  intro place committed
  cases Option.some.inj committed
  exact inside.position

theorem inside_rewind {index : IndexCursor text} (inside : index.Inside) : index.rewind.Inside :=
  ⟨inside.scanStart, inside.scanStart, inside.scanStart, by simp [rewind]⟩

theorem tokenEnd_le {index : IndexCursor text} (inside : index.Inside) :
    index.tokenEnd ≤ text.length := by
  have token := inside.tokenStart
  have position := inside.position
  rw [tokenEnd]
  cases committed : index.committed with
  | none => simp only [Option.getD_none]; omega
  | some place =>
    have := inside.committed place committed
    simp only [Option.getD_some]
    omega

theorem inside_close {index : IndexCursor text} (inside : index.Inside) (accepted : Bool) :
    (index.close accepted).2.Inside := by
  cases accepted with
  | false => exact inside_rewind inside
  | true => exact inside_startAt (tokenEnd_le inside)

/-- A reader of characters and the reader of their bytes follow events alike. -/
theorem follow_toCursor (holds : source.Holds text) {index : IndexCursor text}
    (inside : index.Inside) (events : List Event) :
    ∃ next : IndexCursor text, follow events index = .ok next ∧ next.Inside ∧
      follow events (index.toCursor source) = .ok (next.toCursor source) := by
  induction events generalizing index with
  | nil => exact ⟨index, rfl, inside, rfl⟩
  | cons event events ih =>
    have step : ∃ next : IndexCursor text, event.perform index = .ok next ∧ next.Inside ∧
        event.perform (index.toCursor source) = .ok (next.toCursor source) := by
      cases event with
      | advance => exact ⟨_, rfl, inside_advance inside false, advance_toCursor holds false index⟩
      | skip => exact ⟨_, rfl, inside_advance inside true, advance_toCursor holds true index⟩
      | commit => exact ⟨_, rfl, inside_commit inside, rfl⟩
      | rewind => exact ⟨_, rfl, inside_rewind inside, rfl⟩
    obtain ⟨next, performed, hn, mirrored⟩ := step
    obtain ⟨last, followed, hl, after⟩ := ih hn
    refine ⟨last, ?_, hl, ?_⟩
    · rw [follow, performed, ok_bind, followed]
    · rw [follow, mirrored, ok_bind, after]

theorem reads (holds : source.Holds text) (index : IndexCursor text) :
    index.Reads (text.drop index.scanStart) index.rest :=
  ⟨holds.length_lt, rfl, rfl⟩

theorem reads_toCursor (holds : source.Holds text) (index : IndexCursor text) :
    (index.toCursor source).Reads (text.drop index.scanStart) index.rest :=
  ⟨source, text, index, holds, rfl, index.reads holds⟩

theorem call_toCursor (holds : source.Holds text) {index : IndexCursor text}
    (inside : index.Inside) (call : Call) : ∃ verdict, ∃ next : IndexCursor text,
      call.run index = .ok (verdict, next) ∧ next.Inside ∧
      call.run (index.toCursor source) = .ok (verdict, next.toCursor source) := by
  obtain ⟨next, followed, hn, mirrored⟩ :=
    follow_toCursor holds inside (call.script (text.drop index.scanStart) index.rest).2
  refine ⟨(call.script (text.drop index.scanStart) index.rest).1, next, ?_, hn, ?_⟩
  · rw [Call.run_eq (contract text) (index.reads holds), followed, ok_bind]
  · rw [Call.run_eq Cursor.contract (index.reads_toCursor holds), mirrored, ok_bind]

/-- No operation fails, and a reader of characters and the reader of their bytes answer alike. -/
theorem run_toCursor (holds : source.Holds text) {index : IndexCursor text} (inside : index.Inside)
    (operation : Operation) : ∃ (answer : Answer) (next : IndexCursor text),
      operation.run index = .ok (answer, next) ∧ next.Inside ∧
      operation.run (index.toCursor source) = .ok (answer.inBytes text, next.toCursor source) := by
  cases operation with
  | advance skip =>
    refine ⟨.done, index.advance skip, rfl, inside_advance inside skip, ?_⟩
    rw [Operation.run, show Host.advance skip (index.toCursor source) = _ from
      advance_toCursor holds skip index]
    rfl
  | commit => exact ⟨.done, index.commit, rfl, inside_commit inside, rfl⟩
  | rewind => exact ⟨.done, index.rewind, rfl, inside_rewind inside, rfl⟩
  | close accepted =>
    refine ⟨.closed (index.close accepted).1, (index.close accepted).2, rfl,
      inside_close inside accepted, ?_⟩
    rw [Operation.run, show Reader.close accepted (index.toCursor source) = _ from
      close_toCursor accepted index]
    cases (index.close accepted).1 <;> rfl
  | call call =>
    obtain ⟨verdict, next, ran, hn, mirrored⟩ := call_toCursor holds inside call
    refine ⟨.said verdict, next, ?_, hn, ?_⟩
    · rw [Operation.run, ran]
      rfl
    · rw [Operation.run, mirrored]
      rfl

end IndexCursor

/-- Wherever operations lead, the reader stands where a reader of the text's characters does. -/
theorem Cursor.Reachable.exists_index {text : String} {cursor : Cursor}
    (reachable : Cursor.Reachable text cursor) :
    ∃ (source : Source) (index : IndexCursor (scannable text).toList),
      source.Holds (scannable text).toList ∧ index.Inside ∧ cursor = index.toCursor source := by
  induction reachable with
  | opened opened =>
    obtain ⟨holds, eq⟩ := Cursor.ofText_eq_startAt opened
    exact ⟨_, IndexCursor.startAt _ 0, holds, IndexCursor.inside_startAt (Nat.zero_le _), eq⟩
  | operated _ operated ih =>
    obtain ⟨source, index, holds, inside, rfl⟩ := ih
    obtain ⟨answer, next, _, hn, mirrored⟩ := IndexCursor.run_toCursor holds inside _
    rw [mirrored] at operated
    cases Except.ok.inj operated
    exact ⟨source, next, holds, hn, rfl⟩

end TemplateScanner
