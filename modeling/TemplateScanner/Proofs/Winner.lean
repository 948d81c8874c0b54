import TemplateScanner.Proofs.Boundary

namespace TemplateScanner

theorem winner_accepted (kind : Kind) (attempts : List Attempt) :
    winner (⟨kind, true⟩ :: attempts) = some kind := rfl

theorem winner_rejected (kind : Kind) (attempts : List Attempt) :
    winner (⟨kind, false⟩ :: attempts) = winner attempts := rfl

/-- If a rewind takes back whatever a rejecting recognizer did, trying kinds in order comes to the
same as running the first accepting recognizer alone. -/
theorem attemptEach_of_restored {σ : Type} [Host σ] (host : σ) (kinds : List Kind)
    (restored : ∀ kind ∈ kinds, ∃ accepted after, recognize kind host = .ok (accepted, after) ∧
      (accepted = false → Host.rewind after = host)) :
    ∃ attempts after, attemptEach kinds host = .ok (attempts, after) ∧
      winner attempts = kinds.find? (accepts host) ∧
      (∀ kind, winner attempts = some kind → recognize kind host = .ok (true, after)) ∧
      (winner attempts = none → after = host) := by
  induction kinds with
  | nil => exact ⟨[], host, rfl, rfl, by simp [winner], fun _ => rfl⟩
  | cons kind kinds ih =>
    obtain ⟨accepted, after, ran, back⟩ := restored kind List.mem_cons_self
    cases accepted with
    | true =>
      refine ⟨[⟨kind, true⟩], after, ?_, ?_, ?_, ?_⟩
      · rw [attemptEach, ran]
        rfl
      · rw [List.find?_cons_of_pos (accepts_eq ran), winner_accepted]
      · intro other found
        cases Option.some.inj found
        exact ran
      · simp [winner_accepted]
    | false =>
      obtain ⟨attempts, last, tried, found, won, lost⟩ :=
        ih fun other mem => restored other (List.mem_cons_of_mem kind mem)
      refine ⟨⟨kind, false⟩ :: attempts, last, ?_, ?_, won, lost⟩
      · rw [attemptEach, ran]
        simp only [ok_bind, Bool.false_eq_true, if_false, back rfl, tried]
      · rw [List.find?_cons_of_neg (by simp [accepts_eq ran]), winner_rejected, found]

/-- If only a comment can be rejected, nothing is found but where no other kind is asked for. -/
theorem Kind.find?_priority_eq_none_iff {request : Request} {accepting : Kind → Bool}
    (others : ∀ kind, kind ≠ .comment → accepting kind = true) :
    Kind.priority.find? (fun kind => request.asksFor kind && accepting kind) = none ↔
      (∀ kind, kind ≠ .comment → request.asksFor kind = false) ∧
        (request.asksFor .comment = false ∨ accepting .comment = false) := by
  simp only [List.find?_eq_none, Bool.not_eq_true, Bool.and_eq_false_iff]
  constructor
  · intro rejected
    have refused := fun kind => rejected kind (mem_priority kind)
    refine ⟨?_, refused .comment⟩
    intro kind ne
    rcases refused kind with unasked | refused
    · exact unasked
    · rw [others kind ne] at refused
      cases refused
  · rintro ⟨unasked, comment⟩ kind _
    by_cases ne : kind = .comment
    · subst ne
      exact comment
    · exact .inl (unasked kind ne)

/-- Only the bits that name a kind count. -/
theorem Request.asksFor_congr {request other : Request}
    (same : request.bits &&& 0x1f#8 = other.bits &&& 0x1f#8) (kind : Kind) :
    request.asksFor kind = other.asksFor kind := by
  have bit := congrArg (·.getLsbD kind.index) same
  simp only [BitVec.getLsbD_and] at bit
  have known : (0x1f#8).getLsbD kind.index = true := by cases kind <;> rfl
  rw [known, Bool.and_true, Bool.and_true] at bit
  rw [asksFor_eq_getLsbD, asksFor_eq_getLsbD, bit]

namespace IndexCursor

variable {source : Source} {text : List Char} {place : Nat}

theorem accepts_startAt (holds : source.Holds text) (le : place ≤ text.length) (kind : Kind) :
    accepts ((startAt text place).toCursor source) kind =
      (kind.script (text.drop place)).accepted := by
  obtain ⟨next, ran, _⟩ := recognize_startAt holds le kind
  exact accepts_eq ran

theorem attempt_startAt (holds : source.Holds text) (le : place ≤ text.length)
    (request : Request) : ∃ attempts after,
      attempt request ((startAt text place).toCursor source) = .ok (attempts, after) ∧
      winner attempts = Kind.priority.find? (fun kind => request.asksFor kind &&
        accepts ((startAt text place).toCursor source) kind) ∧
      (∀ kind, winner attempts = some kind →
        recognize kind ((startAt text place).toCursor source) = .ok (true, after)) ∧
      (winner attempts = none → after = (startAt text place).toCursor source) := by
  have restored : ∀ kind ∈ Kind.priority.filter request.asksFor, ∃ accepted after,
      recognize kind ((startAt text place).toCursor source) = .ok (accepted, after) ∧
      (accepted = false → Host.rewind after = (startAt text place).toCursor source) := by
    intro kind _
    obtain ⟨next, ran, _, _, _, _, back⟩ := recognize_startAt holds le kind
    exact ⟨_, _, ran, fun _ => (rewind_toCursor next).trans (congrArg (toCursor source) back)⟩
  obtain ⟨attempts, after, tried, found, won, lost⟩ := attemptEach_of_restored _ _ restored
  simp only [List.find?_filter, Bool.decide_and, Bool.decide_eq_true] at found
  exact ⟨attempts, after, tried, found, won, lost⟩

end IndexCursor

/-- Scanning is running the recognizer of the first kind that is asked for and accepts; no trace is
left of those that were tried before it. -/
theorem scan_eq_recognize_first {text : String} {cursor : Cursor}
    (boundary : Cursor.AtBoundary text cursor) (request : Request) :
    (∀ kind, ∃ accepted after, recognize kind cursor = .ok (accepted, after)) ∧
    (∀ kind, Kind.priority.find? (fun kind => request.asksFor kind && accepts cursor kind) =
        some kind → ∃ after, recognize kind cursor = .ok (true, after) ∧
          scan request cursor = .ok (some kind, after) ∧
          after.committed = some after.position ∧ after.tokenStart = after.scanStart) ∧
    (Kind.priority.find? (fun kind => request.asksFor kind && accepts cursor kind) = none →
      scan request cursor = .ok (none, cursor)) ∧
    ((∃ after, scan request cursor = .ok (none, after)) ↔
      (∀ kind, kind ≠ .comment → request.asksFor kind = false) ∧
        (request.asksFor .comment = false ∨
          ∃ after, recognize .comment cursor = .ok (false, after))) ∧
    ∀ other : Request, other.bits &&& 0x1f#8 = request.bits &&& 0x1f#8 →
      scan other cursor = scan request cursor := by
  obtain ⟨source, place, holds, le, eq⟩ := boundary.exists_place
  have each := IndexCursor.recognize_startAt holds le
  have accepting := IndexCursor.accepts_startAt holds le
  obtain ⟨attempts, after, tried, found, won, lost⟩ :=
    IndexCursor.attempt_startAt holds le request
  rw [← eq] at each accepting tried found won lost
  have scanned : scan request cursor = .ok (winner attempts, after) := by
    rw [scan, tried]
    rfl
  refine ⟨?_, ?_, ?_, ?_, ?_⟩
  · intro kind
    obtain ⟨next, ran, _⟩ := each kind
    exact ⟨_, _, ran⟩
  · intro kind first
    rw [← found] at first
    obtain ⟨next, ran, hs, ht, _, hc, _⟩ := each kind
    obtain ⟨accepted, rfl⟩ := Prod.mk.inj (Except.ok.inj (ran.symm.trans (won kind first)))
    refine ⟨_, won kind first, ?_, ?_, ?_⟩
    · rw [scanned, first]
    · simp only [IndexCursor.toCursor, hc accepted, Option.map_some]
    · simp only [IndexCursor.toCursor, hs, ht]
  · intro none
    rw [← found] at none
    rw [scanned, none, lost none]
  · have none_iff : (∃ after, scan request cursor = .ok (none, after)) ↔
        winner attempts = none := by
      rw [scanned]
      simp
    have rejects_iff : (∃ after, recognize .comment cursor = .ok (false, after)) ↔
        accepts cursor .comment = false := by
      obtain ⟨next, ran, _⟩ := each .comment
      rw [accepts_eq ran, ran]
      simp
    rw [none_iff, found, rejects_iff]
    refine Kind.find?_priority_eq_none_iff ?_
    intro kind ne
    rw [accepting, Kind.script_accepted ne]
  · intro other same
    have alike : other.asksFor = request.asksFor := funext (Request.asksFor_congr same)
    simp only [scan, attempt, alike]

theorem scan_eq_recognize_first_after_dash : ∃ cursor after,
    Cursor.ofText "-a%\x7d" = .ok cursor ∧ recognize .content cursor = .ok (true, after) ∧
    scan ⟨0xff#8⟩ cursor = .ok (some .content, after) ∧
    after.committed = some after.position ∧ after.tokenStart = after.scanStart := by
  have fits : "-a%\x7d".utf8ByteSize < offsetLimit := by decide
  obtain ⟨cursor, opened⟩ := Cursor.exists_ofText fits
  obtain ⟨_, first, _⟩ := scan_eq_recognize_first (.opened opened) ⟨0xff#8⟩
  have content : (Cursor.ofText "-a%\x7d").toOption.map (fun cursor =>
      Kind.priority.find? fun kind => Request.asksFor ⟨0xff#8⟩ kind && accepts cursor kind) =
        some (some .content) := by
    decide +kernel
  rw [opened] at content
  obtain ⟨after, ran, scanned, ended, started⟩ := first .content (Option.some.inj content)
  exact ⟨cursor, after, opened, ran, scanned, ended, started⟩

end TemplateScanner
