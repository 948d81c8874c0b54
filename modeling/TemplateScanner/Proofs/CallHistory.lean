import TemplateScanner.Proofs.CommentEnd
import TemplateScanner.Proofs.Commits
import TemplateScanner.Proofs.Scans

namespace TemplateScanner

/-- The number of characters read in a scan, once an event has happened. A rewind starts over. -/
def Event.tally (read : Nat) (event : Event) : Nat :=
  match event with
  | advance | skip => read + 1
  | commit => read
  | rewind => 0

/-- The number of characters read since the last rewind. -/
def charactersRead (events : List Event) : Nat :=
  events.foldl Event.tally 0

/-- Nothing is skipped, and with `length` characters to a scan, of which some have been read
already, nothing is read behind the last. -/
def Within (length : Nat) : Nat → List Event → Prop
  | _, [] => True
  | read, event :: events =>
    event ≠ .skip ∧ (event = .advance → read < length) ∧ Within length (event.tally read) events

theorem within_append {length read : Nat} {first second : List Event} :
    Within length read (first ++ second) ↔
      Within length read first ∧ Within length (first.foldl Event.tally read) second := by
  induction first generalizing read with
  | nil => exact (iff_of_eq (true_and _)).symm
  | cons event first ih => simp only [List.cons_append, Within, ih, and_assoc, List.foldl_cons]

theorem Within.skip_notMem {length read : Nat} {events : List Event}
    (within : Within length read events) : Event.skip ∉ events := by
  induction events generalizing read with
  | nil => exact List.not_mem_nil
  | cons event events ih =>
    rw [List.mem_cons, not_or]
    exact ⟨within.1.symm, ih within.2.2⟩

theorem within_of_plain {length read : Nat} {events : List Event}
    (plain : ∀ event ∈ events, event = .advance ∨ event = .commit)
    (fits : read + events.count .advance ≤ length) : Within length read events := by
  induction events generalizing read with
  | nil => exact trivial
  | cons event events ih =>
    have later := fun other mem => plain other (List.mem_cons_of_mem event mem)
    rcases plain event List.mem_cons_self with rfl | rfl
    · rw [List.count_cons_self] at fits
      exact ⟨by decide, fun _ => by omega, ih later (by rw [Event.tally]; omega)⟩
    · rw [List.count_cons_of_ne (by decide)] at fits
      exact ⟨by decide, (fun eq => by cases eq), ih later fits⟩

/-- Nothing is done after two commits in a row. -/
def CommitsApart (events : List Event) : Prop :=
  ∀ done later, events = done ++ .commit :: .commit :: later → later = []

namespace CommitsApart

variable {events : List Event} {event : Event}

theorem nil : CommitsApart [] := by
  intro done later eq
  simp at eq

theorem cons (apart : CommitsApart events)
    (next : event = .commit → events.head? = some .commit → events.length = 1) :
    CommitsApart (event :: events) := by
  intro done later eq
  cases done with
  | nil =>
    obtain ⟨rfl, rfl⟩ := List.cons.inj eq
    have alone := next rfl rfl
    exact List.eq_nil_of_length_eq_zero (Nat.succ.inj alone)
  | cons other done => exact apart done later (List.cons.inj eq).2

theorem advance (apart : CommitsApart events) : CommitsApart (.advance :: events) :=
  apart.cons (fun eq => by cases eq)

theorem commit_of_head (apart : CommitsApart events) (head : events.head? ≠ some .commit) :
    CommitsApart (.commit :: events) :=
  apart.cons (fun _ same => absurd same head)

theorem singleton : CommitsApart [event] :=
  nil.cons (fun _ head => by cases head)

theorem append_of_notMem {first : List Event} (apart : CommitsApart events)
    (none : .commit ∉ first) : CommitsApart (first ++ events) := by
  induction first with
  | nil => exact apart
  | cons other first ih =>
    rw [List.mem_cons, not_or] at none
    exact (ih none.2).cons (fun eq => absurd eq.symm none.1)

end CommitsApart

namespace ClosingPair

theorem head?_script (pair : ClosingPair) (c : Char) (rest : List Char) :
    (pair.script false (c :: rest)).events.head? = some .advance := by
  rw [script]
  split <;> rfl

/-- A false start is committed behind a character that is read and before one that is. -/
theorem commitsApart (pair : ClosingPair) (rest : List Char) :
    CommitsApart (pair.script false rest).events := by
  induction rest with
  | nil =>
    rw [script]
    exact .singleton
  | cons c rest ih =>
    cases rest with
    | nil =>
      rw [script_singleton]
      refine CommitsApart.advance (CommitsApart.cons ?_ ?_) <;> split
      next => exact .nil
      next => exact .singleton
      next => exact fun _ head => by cases head
      next => exact fun _ _ => rfl
    | cons d rest =>
      rw [script_cons_cons]
      split
      next => exact .advance (.advance .singleton)
      next =>
        refine CommitsApart.advance (ih.commit_of_head ?_)
        rw [head?_script]
        exact fun eq => by cases eq

theorem commitsApart_read (pair : ClosingPair) (rest : List Char) :
    CommitsApart ((pair.script false rest).after .commit).events := by
  refine (pair.commitsApart rest).cons fun _ head => ?_
  cases rest with
  | nil =>
    rw [script]
    rfl
  | cons c rest =>
    rw [head?_script] at head
    cases head

end ClosingPair

theorem commitsApart_commentBody (dashes : Nat) (rest : List Char) :
    CommitsApart (commentBody dashes rest).events := by
  induction rest generalizing dashes with
  | nil => exact .nil
  | cons c rest ih =>
    rw [commentBody]
    split
    next => exact .advance .singleton
    next => exact (ih _).advance

theorem commitsApart_commentScript (rest : List Char) :
    CommitsApart (commentScript rest).events := by
  unfold commentScript
  split
  next => exact .nil
  next =>
    split
    next => exact .singleton
    next => exact .nil
  next =>
    split
    next =>
      split
      next => exact (commitsApart_commentBody 0 _).advance.advance
      next => exact .singleton
    next => exact .nil

theorem commitsApart_contentScript (escaped : Bool) (rest : List Char) :
    CommitsApart ((contentScript escaped rest).after .commit).events := by
  induction rest generalizing escaped with
  | nil => exact .singleton
  | cons c rest ih =>
    rw [contentScript]
    split
    next => exact .singleton
    next => exact (ih _).advance.commit_of_head (by simp)

theorem commitsApart_argumentScript (depth : Depth) (rest : List Char) :
    CommitsApart ((argumentScript depth rest).after .commit).events := by
  induction rest generalizing depth with
  | nil => exact .singleton
  | cons c rest ih =>
    rw [argumentScript]
    split
    next =>
      have filler : Event.commit ∉ List.replicate (rest.takeWhile isFiller).length Event.advance :=
        fun mem => by cases List.eq_of_mem_replicate mem
      exact (CommitsApart.singleton.append_of_notMem filler).advance.commit_of_head (by simp)
    next => exact (ih _).advance.commit_of_head (by simp)

theorem Kind.commitsApart (kind : Kind) (rest : List Char) :
    CommitsApart (kind.script rest).events := by
  cases kind with
  | expression => exact ClosingPair.expression.commitsApart_read rest
  | statement => exact ClosingPair.statement.commitsApart_read rest
  | comment => exact commitsApart_commentScript rest
  | argument => exact commitsApart_argumentScript Depth.top rest
  | content => exact commitsApart_contentScript false rest

theorem commitPlaces_sorted {events : List Event}
    (plain : ∀ event ∈ events, event = .advance ∨ event = .commit) (read : Nat) :
    (∀ place ∈ commitPlaces read events, read ≤ place) ∧
      (commitPlaces read events).Pairwise (· ≤ ·) := by
  induction events generalizing read with
  | nil => exact ⟨by simp [commitPlaces], .nil⟩
  | cons event events ih =>
    have later := ih fun other mem => plain other (List.mem_cons_of_mem event mem)
    rcases plain event List.mem_cons_self with rfl | rfl
    · obtain ⟨above, sorted⟩ := later (read + 1)
      exact ⟨fun place mem => Nat.le_of_succ_le (above place mem), sorted⟩
    · obtain ⟨above, sorted⟩ := later read
      exact ⟨List.forall_mem_cons.mpr ⟨Nat.le_refl read, above⟩, .cons above sorted⟩

theorem winner_attemptsScript (kinds : List Kind) (rest : List Char) :
    winner (attemptsScript kinds rest rest).1 =
      kinds.find? fun kind => (kind.script rest).accepted := by
  have vain : ((kinds.takeWhile fun kind => !(kind.script rest).accepted).map fun kind =>
      (⟨kind, false⟩ : Attempt)).find? (·.accepted) = none := by
    rw [List.find?_eq_none]
    simp
  rw [attempts_attemptsScript, winner, List.find?_append, vain, Option.none_or]
  cases kinds.find? fun kind => (kind.script rest).accepted <;> rfl

theorem events_attemptsScript (kinds : List Kind) (rest : List Char) :
    (attemptsScript kinds rest rest).2 =
      (kinds.takeWhile fun kind => !(kind.script rest).accepted).flatMap (fun kind =>
        (kind.script rest).events ++ [.rewind]) ++
      (kinds.find? fun kind => (kind.script rest).accepted).toList.flatMap fun kind =>
        (kind.script rest).events := by
  induction kinds with
  | nil => rfl
  | cons kind kinds ih =>
    rw [attemptsScript]
    by_cases accepted : (kind.script rest).accepted = true
    · simp [accepted]
    · simp [accepted, ih]

namespace Request

/-- What is done for a comment that is asked for and is not there. -/
def vain (request : Request) (rest : List Char) : List Event :=
  if request.asksFor .comment && !(commentScript rest).accepted then
    (commentScript rest).events ++ [.rewind]
  else []

/-- What is done for the kind that is found. -/
def kept (request : Request) (rest : List Char) : Script :=
  match request.finds rest with
  | some kind => kind.script rest
  | none => ⟨false, []⟩

theorem attemptsScript_eq (request : Request) (rest : List Char) :
    winner (attemptsScript (Kind.priority.filter request.asksFor) rest rest).1 =
        request.finds rest ∧
      (attemptsScript (Kind.priority.filter request.asksFor) rest rest).2 =
        request.vain rest ++ (request.kept rest).events := by
  rw [winner_attemptsScript, events_attemptsScript, request.takeWhile_rejected,
    request.find?_accepted, vain, kept]
  refine ⟨rfl, congrArg₂ (· ++ ·) ?_ ?_⟩
  · rw [show Kind.comment.script rest = commentScript rest from rfl]
    split
    next => rw [List.flatMap_singleton, Kind.script]
    next => rfl
  · cases request.finds rest <;> simp

theorem kept_orderly (request : Request) (rest : List Char) :
    (request.kept rest).Orderly rest := by
  unfold kept
  split
  next kind _ => exact kind.orderly rest
  next => exact .rejected rest

theorem accepted_kept (request : Request) (rest : List Char) :
    (request.kept rest).accepted = (request.finds rest).isSome := by
  unfold kept
  cases found : request.finds rest with
  | none => rfl
  | some kind => exact accepted_of_finds found

theorem commitsApart_kept (request : Request) (rest : List Char) :
    CommitsApart (request.kept rest).events := by
  unfold kept
  split
  next kind _ => exact kind.commitsApart rest
  next => exact .nil

/-- A comment that is not there is looked for without a commit, and then all is taken back. -/
theorem vain_eq (request : Request) (rest : List Char) : ∃ tried ≤ rest.length,
    request.vain rest = if request.asksFor .comment && !(commentScript rest).accepted then
      List.replicate tried .advance ++ [.rewind] else [] := by
  unfold vain
  cases accepted : (commentScript rest).accepted with
  | true => exact ⟨0, Nat.zero_le _, by simp⟩
  | false =>
    have reading := List.eq_replicate_of_mem (commentScript_rejected accepted)
    have reach := (commentScript_orderly rest).reach
    rw [reading, List.count_replicate_self] at reach
    exact ⟨_, reach, by rw [← reading]⟩

theorem commit_notMem_vain (request : Request) (rest : List Char) :
    .commit ∉ request.vain rest := by
  obtain ⟨tried, _, eq⟩ := request.vain_eq rest
  rw [eq]
  split
  next => simp [List.mem_replicate]
  next => exact List.not_mem_nil

theorem count_rewind (request : Request) (rest : List Char) :
    (request.vain rest ++ (request.kept rest).events).count .rewind =
      if request.asksFor .comment && !(commentScript rest).accepted then 1 else 0 := by
  obtain ⟨tried, _, eq⟩ := request.vain_eq rest
  rw [List.count_append, List.count_eq_zero_of_not_mem (request.kept_orderly rest).rewind_notMem,
    eq]
  split
  next => simp [List.count_replicate]
  next => rfl

/-- The kind that is found is read from the start of the scan, whatever was read in vain. -/
theorem within_calls (request : Request) (rest : List Char) :
    Within rest.length 0 (request.vain rest ++ (request.kept rest).events) := by
  have orderly := request.kept_orderly rest
  have kept : Within rest.length 0 (request.kept rest).events :=
    within_of_plain orderly.plain (by rw [Nat.zero_add]; exact orderly.reach)
  obtain ⟨tried, le, eq⟩ := request.vain_eq rest
  rw [eq]
  split
  next =>
    have reading : Within rest.length 0 (List.replicate tried .advance) := by
      refine within_of_plain (fun event mem => .inl (List.eq_of_mem_replicate mem)) ?_
      rwa [List.count_replicate_self, Nat.zero_add]
    rw [within_append, within_append, List.foldl_append]
    exact ⟨⟨reading, by decide, (fun eq => by cases eq), trivial⟩, kept⟩
  next => exact kept

end Request

end TemplateScanner
