import TemplateScanner.Proofs.ReadOn

namespace TemplateScanner

/-- Where a reader stands at each of the commits among some events that it follows. -/
def Cursor.commitsOf : List Event → Cursor → Except Fault (List Nat)
  | [], _ => .ok []
  | event :: events, cursor => do
    let next ← event.perform cursor
    let later ← commitsOf events next
    .ok (if event = .commit then cursor.position :: later else later)

/-- The numbers of characters that have been read before each commit of a scan. -/
def commitPlaces : Nat → List Event → List Nat
  | _, [] => []
  | read, .advance :: events | read, .skip :: events => commitPlaces (read + 1) events
  | read, .commit :: events => read :: commitPlaces read events
  | _, .rewind :: events => commitPlaces 0 events

theorem commitPlaces_add {events : List Event}
    (plain : ∀ event ∈ events, event = .advance ∨ event = .commit) (before read : Nat) :
    commitPlaces (before + read) events = (commitPlaces read events).map (before + ·) := by
  induction events generalizing read with
  | nil => rfl
  | cons event events ih =>
    have later := ih fun other mem => plain other (List.mem_cons_of_mem event mem)
    rcases plain event List.mem_cons_self with rfl | rfl
    · exact later (read + 1)
    · rw [commitPlaces, commitPlaces, List.map_cons, later]

theorem Cursor.commitsOf_append (first second : List Event) (cursor : Cursor) :
    cursor.commitsOf (first ++ second) = (do
      let ends ← cursor.commitsOf first
      let here ← follow first cursor
      let later ← here.commitsOf second
      .ok (ends ++ later)) := by
  induction first generalizing cursor with
  | nil =>
    simp only [List.nil_append, commitsOf, follow, ok_bind]
    cases cursor.commitsOf second <;> rfl
  | cons event first ih =>
    rw [List.cons_append, commitsOf, commitsOf, follow]
    cases event.perform cursor with
    | error fault => rfl
    | ok next =>
      simp only [ok_bind, ih]
      cases next.commitsOf first with
      | error fault => rfl
      | ok ends =>
        cases follow first next with
        | error fault => rfl
        | ok here =>
          simp only [ok_bind]
          cases here.commitsOf second with
          | error fault => rfl
          | ok later =>
            simp only [ok_bind]
            split <;> rfl

/-- As long as nothing is taken back, the commit made last is the one that stands. -/
theorem Cursor.committed_of_commits {cursor here : Cursor} {events : List Event} {ends : List Nat}
    (kept : .rewind ∉ events) (followed : follow events cursor = .ok here)
    (commits : cursor.commitsOf events = .ok ends) :
    here.committed = ends.getLast?.or cursor.committed := by
  induction events generalizing cursor ends with
  | nil =>
    cases Except.ok.inj followed
    cases Except.ok.inj commits
    rfl
  | cons event events ih =>
    obtain ⟨next, performed, followed⟩ := bind_eq_ok_iff.mp followed
    rw [commitsOf, performed, ok_bind] at commits
    obtain ⟨later, after, eq⟩ := bind_eq_ok_iff.mp commits
    rw [List.mem_cons, not_or] at kept
    have last := ih kept.2 followed after
    cases event with
    | advance | skip =>
      cases Except.ok.inj eq
      rw [last]
      exact congrArg _ (Cursor.committed_advance performed)
    | commit =>
      cases Except.ok.inj performed
      cases Except.ok.inj eq
      rw [last, if_pos rfl, List.getLast?_cons]
      cases later.getLast? <;> rfl
    | rewind => exact absurd rfl kept.1

theorem IndexCursor.commitsOf_toCursor {source : Source} {text : List Char}
    (holds : source.Holds text) {index : IndexCursor text} {events : List Event}
    (plain : ∀ event ∈ events, event = .advance ∨ event = .commit)
    (fits : index.position + events.count .advance ≤ text.length) :
    (index.toCursor source).commitsOf events =
      .ok ((commitPlaces index.position events).map (offset text)) := by
  induction events generalizing index with
  | nil => rfl
  | cons event events ih =>
    have later := fun other mem => plain other (List.mem_cons_of_mem event mem)
    rcases plain event List.mem_cons_self with rfl | rfl
    · rw [List.count_cons_self] at fits
      have more : ¬index.atEnd = true := by
        simp only [atEnd, decide_eq_true_iff]
        omega
      have step : (index.advance false).position = index.position + 1 := by
        rw [advance, if_neg more]
      have went := ih later
        (show (index.advance false).position + events.count .advance ≤ text.length by omega)
      rw [step] at went
      rw [Cursor.commitsOf, Event.perform,
        show Host.advance false (index.toCursor source) = _ from advance_toCursor holds false index,
        ok_bind, went]
      rfl
    · rw [List.count_cons_of_ne (by decide)] at fits
      have went := ih later
        (show index.commit.position + events.count .advance ≤ text.length from fits)
      rw [Cursor.commitsOf, Event.perform, ok_bind,
        show Host.commit (index.toCursor source) = index.commit.toCursor source from rfl, went]
      rfl

section Reachable

variable {text rest : String} {cursor : Cursor}

/-- Where commits stand in the text that is still to be read. -/
theorem Cursor.Reachable.commitsOf_eq (reachable : Cursor.Reachable text cursor)
    (unread : cursor.rest = .ok rest) {events : List Event}
    (plain : ∀ event ∈ events, event = .advance ∨ event = .commit)
    (fits : events.count .advance ≤ rest.toList.length) : cursor.commitsOf events =
      .ok ((commitPlaces 0 events).map fun read =>
        cursor.position + byteLength (rest.toList.take read)) := by
  obtain ⟨source, index, holds, inside, rfl⟩ := reachable.exists_index
  obtain rfl := Except.ok.inj (unread.symm.trans (IndexCursor.rest_toCursor holds inside))
  have within := inside.position
  rw [String.toList_ofList, IndexCursor.rest, List.length_drop] at fits
  rw [IndexCursor.commitsOf_toCursor holds plain (by omega), String.toList_ofList,
    ← Nat.add_zero index.position, commitPlaces_add plain, List.map_map]
  refine congrArg Except.ok (List.map_congr_left fun read _ => ?_)
  exact offset_add _ index.position read

theorem follow_recorded {σ : Type} [Host σ] (events : List Event) (recorded : Recorded σ) :
    follow events recorded = (do
      let host ← follow events recorded.host
      .ok ⟨host, events.reverse ++ recorded.events⟩) := by
  induction events generalizing recorded with
  | nil => rfl
  | cons event events ih =>
    have step : event.perform recorded = (do
        let host ← event.perform recorded.host
        .ok ⟨host, event :: recorded.events⟩) := by
      cases event <;> rfl
    rw [follow, follow, step]
    cases event.perform recorded.host with
    | error fault => rfl
    | ok host =>
      simp only [ok_bind, ih, List.reverse_cons, List.append_assoc, List.cons_append,
        List.nil_append]

/-- What is done to a host, a record of it holds. -/
theorem follow_ofHost {σ : Type} [Host σ] {events : List Event} {host after : σ}
    (followed : follow events host = .ok after) : ∃ recorded,
      follow events (Recorded.ofHost host) = .ok recorded ∧ recorded.host = after ∧
      recorded.history = events := by
  refine ⟨⟨after, events.reverse⟩, ?_, rfl, List.reverse_reverse events⟩
  rw [follow_recorded]
  simp only [Recorded.ofHost, followed, ok_bind, List.append_nil]

theorem Script.run_recorded {σ : Type} [Host σ] (script : Script) {host after : σ}
    (followed : follow script.events host = .ok after) : ∃ recorded,
      script.run (Recorded.ofHost host) = .ok (script.accepted, recorded) ∧
      recorded.host = after ∧ recorded.history = script.events := by
  obtain ⟨recorded, again, same, history⟩ := follow_ofHost followed
  exact ⟨recorded, by rw [Script.run, again, ok_bind], same, history⟩

/-- A record that is kept of what is done to a host changes nothing for a recognizer. -/
theorem Recorded.contract {σ : Type} [Host σ] {reads : σ → List Char → List Char → Prop}
    (contract : Contract σ reads) :
    Contract (Recorded σ) fun recorded start rest => reads recorded.host start rest where
  peek h := contract.peek h
  atEnd h := contract.atEnd h
  unread h := contract.unread h
  short h := contract.short h
  advance := by
    intro recorded start rest skip h
    obtain ⟨next, advanced, hn⟩ := contract.advance skip h
    refine ⟨⟨next, (if skip then .skip else .advance) :: recorded.events⟩, ?_, hn⟩
    exact congrArg (· >>= _) advanced
  commit h := contract.commit h
  rewind h := contract.rewind h

theorem Cursor.Reachable.recognize_recorded (reachable : Cursor.Reachable text cursor)
    (unread : cursor.rest = .ok rest) (kind : Kind) {after : Cursor}
    (followed : follow (kind.script rest.toList).events cursor = .ok after) :
    ∃ recorded, recognize kind (Recorded.ofHost cursor) =
        .ok ((kind.script rest.toList).accepted, recorded) ∧
      recorded.host = after ∧ recorded.history = (kind.script rest.toList).events := by
  obtain ⟨source, index, holds, inside, rfl⟩ := reachable.exists_index
  obtain rfl := Except.ok.inj (unread.symm.trans (IndexCursor.rest_toCursor holds inside))
  rw [String.toList_ofList] at followed ⊢
  rw [recognize_eq (Recorded.contract Cursor.contract) (index.reads_toCursor holds) kind]
  exact (kind.script index.rest).run_recorded followed

end Reachable

end TemplateScanner
