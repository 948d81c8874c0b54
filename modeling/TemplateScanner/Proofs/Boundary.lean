import TemplateScanner.Proofs.Operation
import TemplateScanner.Proofs.Orderly

namespace TemplateScanner

/-- The recognizer of a kind accepts what it finds at the host's read position. -/
def accepts {σ : Type} [Host σ] (host : σ) (kind : Kind) : Bool :=
  match recognize kind host with
  | .ok (accepted, _) => accepted
  | .error _ => false

theorem accepts_eq {σ : Type} [Host σ] {host after : σ} {kind : Kind} {accepted : Bool}
    (ran : recognize kind host = .ok (accepted, after)) : accepts host kind = accepted := by
  rw [accepts, ran]

/-- The number of characters that the recognizer of a kind reads. -/
def Kind.reach (kind : Kind) (rest : List Char) : Nat :=
  (kind.script rest).events.count .advance

theorem Kind.reach_le (kind : Kind) (rest : List Char) : kind.reach rest ≤ rest.length :=
  (kind.orderly rest).reach

/-- A reader of a text between two scans: at its start, or after a scan was closed or rewound. -/
inductive Cursor.AtBoundary (text : String) : Cursor → Prop where
  | opened {cursor : Cursor} : Cursor.ofText text = .ok cursor → AtBoundary text cursor
  | closed {cursor : Cursor} (accepted : Bool) :
    Cursor.Reachable text cursor → AtBoundary text (cursor.close accepted).2
  | rewound {cursor : Cursor} : Cursor.Reachable text cursor → AtBoundary text cursor.rewind

theorem Cursor.AtBoundary.exists_place {text : String} {cursor : Cursor}
    (boundary : Cursor.AtBoundary text cursor) : ∃ (source : Source) (place : Nat),
      source.Holds (scannable text).toList ∧ place ≤ (scannable text).toList.length ∧
      cursor = (IndexCursor.startAt (scannable text).toList place).toCursor source := by
  cases boundary with
  | opened opened =>
    obtain ⟨holds, eq⟩ := Cursor.ofText_eq_startAt opened
    exact ⟨_, 0, holds, Nat.zero_le _, eq⟩
  | closed accepted reachable =>
    obtain ⟨source, index, holds, inside, rfl⟩ := reachable.exists_index
    rw [IndexCursor.close_toCursor]
    cases accepted with
    | false => exact ⟨source, index.scanStart, holds, inside.scanStart, rfl⟩
    | true => exact ⟨source, index.tokenEnd, holds, IndexCursor.tokenEnd_le inside, rfl⟩
  | rewound reachable =>
    obtain ⟨source, index, holds, inside, rfl⟩ := reachable.exists_index
    exact ⟨source, index.scanStart, holds, inside.scanStart, rfl⟩

namespace IndexCursor

variable {source : Source} {text : List Char}

theorem follow_plain (index : IndexCursor text) {events : List Event}
    (plain : ∀ event ∈ events, event = .advance ∨ event = .commit)
    (fits : index.position + events.count .advance ≤ text.length) :
    ∃ next : IndexCursor text, follow events index = .ok next ∧
      next.scanStart = index.scanStart ∧ next.tokenStart = index.tokenStart ∧
      next.position = index.position + events.count .advance ∧
      (events.getLast? = some .commit → next.committed = some next.position) := by
  induction events generalizing index with
  | nil => exact ⟨index, rfl, rfl, rfl, rfl, by simp⟩
  | cons event events ih =>
    have later := fun event mem => plain event (List.mem_cons_of_mem _ mem)
    rcases plain event List.mem_cons_self with rfl | rfl
    · simp only [List.count_cons_self] at fits
      have more : ¬index.atEnd = true := by
        simp only [atEnd, decide_eq_true_iff]
        omega
      have step : index.advance false = { index with
          position := index.position + 1
          significant := index.significant || true } := by
        rw [advance, if_neg more]
        rfl
      obtain ⟨next, followed, hs, ht, hp, hc⟩ :=
        ih (index.advance false) later (by rw [step]; simp only; omega)
      simp only [step] at hs ht hp
      refine ⟨next, ?_, hs, ht, ?_, ?_⟩
      · exact followed
      · rw [hp, List.count_cons_self]
        omega
      · intro last
        cases events with
        | nil => simp at last
        | cons second events => exact hc (by simpa using last)
    · have count : (Event.commit :: events).count .advance = events.count .advance := by
        simp
      rw [count] at fits ⊢
      obtain ⟨next, followed, hs, ht, hp, hc⟩ := ih index.commit later fits
      refine ⟨next, followed, hs, ht, hp, ?_⟩
      intro last
      cases events with
      | nil =>
        cases Except.ok.inj followed
        rfl
      | cons second events => exact hc (by simpa using last)

/-- Wherever a reader stands, an orderly script reads on within the scan, and an accepting one ends
the token where it stops. -/
theorem follow_orderly (holds : source.Holds text) {index : IndexCursor text}
    (inside : index.Inside) {script : Script} (orderly : script.Orderly index.rest) :
    ∃ next : IndexCursor text,
      follow script.events (index.toCursor source) = .ok (next.toCursor source) ∧ next.Inside ∧
      next.scanStart = index.scanStart ∧ next.tokenStart = index.tokenStart ∧
      next.position = index.position + script.events.count .advance ∧
      (script.accepted = true → next.committed = some next.position) := by
  have within := inside.position
  have fits := orderly.reach
  rw [rest, List.length_drop] at fits
  obtain ⟨next, followed, hs, ht, hp, hc⟩ := follow_plain index orderly.plain (by omega)
  obtain ⟨same, again, reached, mirrored⟩ := follow_toCursor holds inside script.events
  cases Except.ok.inj (followed.symm.trans again)
  exact ⟨next, mirrored, reached, hs, ht, hp, fun accepted => hc (orderly.commits accepted)⟩

theorem run_orderly (holds : source.Holds text) {index : IndexCursor text} (inside : index.Inside)
    {script : Script} (orderly : script.Orderly index.rest) : ∃ next : IndexCursor text,
      script.run (index.toCursor source) = .ok (script.accepted, next.toCursor source) ∧
      next.scanStart = index.scanStart ∧ next.tokenStart = index.tokenStart ∧
      next.position = index.position + script.events.count .advance ∧
      (script.accepted = true → next.committed = some next.position) := by
  obtain ⟨next, followed, _, hs, ht, hp, hc⟩ := follow_orderly holds inside orderly
  refine ⟨next, ?_, hs, ht, hp, hc⟩
  rw [Script.run, followed, ok_bind]

/-- What a recognizer does at a boundary: it reads its characters within the scan, an accepting one
ends the token there, and a rewind takes all of it back. -/
theorem recognize_startAt (holds : source.Holds text) {place : Nat} (le : place ≤ text.length)
    (kind : Kind) : ∃ next : IndexCursor text,
      recognize kind ((startAt text place).toCursor source) =
        .ok ((kind.script (text.drop place)).accepted, next.toCursor source) ∧
      next.scanStart = place ∧ next.tokenStart = place ∧
      next.position = place + kind.reach (text.drop place) ∧
      ((kind.script (text.drop place)).accepted = true → next.committed = some next.position) ∧
      next.rewind = startAt text place := by
  obtain ⟨next, ran, hs, ht, hp, hc⟩ :=
    run_orderly holds (inside_startAt le) (kind.orderly (text.drop place))
  refine ⟨next, ?_, hs, ht, hp, hc, ?_⟩
  · rw [recognize_eq Cursor.contract (reads_toCursor holds _)]
    exact ran
  · rw [rewind, hs]
    rfl

end IndexCursor

end TemplateScanner
