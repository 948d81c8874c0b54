import TemplateScanner.Proofs.Offsets
import TemplateScanner.Recorded

namespace TemplateScanner

/-- What a host promises to a recognizer, where `reads host start rest` says that the scan under
way began before the characters `start` and that `rest` is still to be read. -/
structure Contract (σ : Type) [Host σ] (reads : σ → List Char → List Char → Prop) : Prop where
  peek : ∀ {host start rest}, reads host start rest → Host.peek host = .ok (rest.headD '\x00')
  atEnd : ∀ {host start rest}, reads host start rest → Host.atEnd host = rest.isEmpty
  unread : ∀ {host start rest}, reads host start rest → rest.length ≤ Host.unread host
  short : ∀ {host start rest}, reads host start rest → rest.length < offsetLimit
  advance : ∀ {host start rest} (skip : Bool), reads host start rest →
    ∃ next, Host.advance skip host = .ok next ∧ reads next start rest.tail
  commit : ∀ {host start rest}, reads host start rest → reads (Host.commit host) start rest
  rewind : ∀ {host start rest}, reads host start rest → reads (Host.rewind host) start start

/-- Does to a host what an event says. -/
def Event.perform {σ : Type} [Host σ] (event : Event) (host : σ) : Except Fault σ :=
  match event with
  | advance => Host.advance false host
  | skip => Host.advance true host
  | commit => .ok (Host.commit host)
  | rewind => .ok (Host.rewind host)

/-- Does to a host what a list of events says, in order. -/
def follow {σ : Type} [Host σ] : List Event → σ → Except Fault σ
  | [], host => .ok host
  | event :: events, host => do
    let host ← event.perform host
    follow events host

theorem follow_append {σ : Type} [Host σ] (first second : List Event) (host : σ) :
    follow (first ++ second) host = follow first host >>= follow second := by
  induction first generalizing host with
  | nil => rfl
  | cons event first ih =>
    simp only [List.cons_append, follow]
    cases event.perform host with
    | error fault => rfl
    | ok next => exact ih next

/-- What is still to be read after an event. -/
def Event.leaves (start : List Char) (event : Event) (rest : List Char) : List Char :=
  match event with
  | advance | skip => rest.tail
  | commit => rest
  | rewind => start

section Contract

variable {σ : Type} [Host σ] {reads : σ → List Char → List Char → Prop}

theorem Contract.perform (contract : Contract σ reads) {host : σ} {start rest : List Char}
    (h : reads host start rest) (event : Event) :
    ∃ next, event.perform host = .ok next ∧ reads next start (event.leaves start rest) := by
  cases event with
  | advance => exact contract.advance false h
  | skip => exact contract.advance true h
  | commit => exact ⟨_, rfl, contract.commit h⟩
  | rewind => exact ⟨_, rfl, contract.rewind h⟩

/-- A host that keeps its contract can follow every list of events. -/
theorem Contract.follow (contract : Contract σ reads) {host : σ} {start rest : List Char}
    (h : reads host start rest) (events : List Event) :
    ∃ next, TemplateScanner.follow events host = .ok next ∧
      reads next start (events.foldl (fun rest event => event.leaves start rest) rest) := by
  induction events generalizing host rest with
  | nil => exact ⟨host, rfl, h⟩
  | cons event events ih =>
    obtain ⟨next, performed, hn⟩ := contract.perform h event
    obtain ⟨last, followed, hl⟩ := ih hn
    refine ⟨last, ?_, hl⟩
    rw [TemplateScanner.follow, performed]
    exact followed

end Contract

namespace IndexCursor

variable {source : Source} {text : List Char}

/-- What the contract says of a reader of characters. -/
def Reads (index : IndexCursor text) (start rest : List Char) : Prop :=
  text.length < offsetLimit ∧ start = text.drop index.scanStart ∧ rest = index.rest

theorem rest_advance (skip : Bool) (index : IndexCursor text) :
    (index.advance skip).rest = index.rest.tail := by
  unfold advance
  split
  next ended =>
    have past : text.length ≤ index.position := by simpa [atEnd] using ended
    simp [rest, List.drop_of_length_le past]
  next => simp [rest]

@[simp] theorem scanStart_advance (skip : Bool) (index : IndexCursor text) :
    (index.advance skip).scanStart = index.scanStart := by
  unfold advance
  split <;> rfl

theorem contract (text : List Char) : Contract (IndexCursor text) Reads where
  peek := by
    rintro index start rest ⟨_, _, rfl⟩
    rfl
  atEnd := by
    rintro index start rest ⟨_, _, rfl⟩
    rw [Bool.eq_iff_iff, IndexCursor.rest, List.isEmpty_iff, List.drop_eq_nil_iff]
    exact decide_eq_true_iff
  unread := by
    rintro index start rest ⟨_, _, rfl⟩
    simp [Host.unread, IndexCursor.rest]
  short := by
    rintro index start rest ⟨short, _, rfl⟩
    simp only [IndexCursor.rest, List.length_drop]
    omega
  advance := by
    rintro index start rest skip ⟨short, hs, rfl⟩
    exact ⟨_, rfl, short, by simpa using hs, (rest_advance skip index).symm⟩
  commit := by
    rintro index start rest ⟨short, hs, rfl⟩
    exact ⟨short, hs, rfl⟩
  rewind := by
    rintro index start rest ⟨short, hs, rfl⟩
    exact ⟨short, hs, hs⟩

end IndexCursor

/-- What the contract says of a reader of a source, which stands where a reader of the source's
characters does. -/
def Cursor.Reads (cursor : Cursor) (start rest : List Char) : Prop :=
  ∃ (source : Source) (text : List Char) (index : IndexCursor text), source.Holds text ∧
    cursor = index.toCursor source ∧ index.Reads start rest

theorem Cursor.contract : Contract Cursor Cursor.Reads where
  peek := by
    rintro _ start rest ⟨source, text, index, holds, rfl, h⟩
    exact (IndexCursor.peek_toCursor holds index).trans ((IndexCursor.contract text).peek h)
  atEnd := by
    rintro _ start rest ⟨source, text, index, holds, rfl, h⟩
    exact (IndexCursor.atEnd_toCursor holds index).trans ((IndexCursor.contract text).atEnd h)
  unread := by
    rintro _ start rest ⟨source, text, index, holds, rfl, _, _, rfl⟩
    have le := length_le_byteLength index.rest
    have split := byteLength_append (text.take index.position) (text.drop index.position)
    rw [List.take_append_drop, ← holds.length_eq] at split
    change index.rest.length ≤ source.length - offset text index.position
    rw [IndexCursor.rest, offset] at *
    omega
  short := by
    rintro _ start rest ⟨source, text, index, holds, rfl, h⟩
    exact (IndexCursor.contract text).short h
  advance := by
    rintro _ start rest skip ⟨source, text, index, holds, rfl, h⟩
    obtain ⟨next, advanced, hn⟩ := (IndexCursor.contract text).advance skip h
    cases Except.ok.inj advanced
    exact ⟨_, IndexCursor.advance_toCursor holds skip index, source, text, _, holds, rfl, hn⟩
  commit := by
    rintro _ start rest ⟨source, text, index, holds, rfl, h⟩
    exact ⟨source, text, _, holds, rfl, (IndexCursor.contract text).commit h⟩
  rewind := by
    rintro _ start rest ⟨source, text, index, holds, rfl, h⟩
    exact ⟨source, text, _, holds, rfl, (IndexCursor.contract text).rewind h⟩

end TemplateScanner
