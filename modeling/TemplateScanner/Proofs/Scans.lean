import TemplateScanner.Proofs.StreamShape
import TemplateScanner.Report

namespace TemplateScanner

theorem attempts_attemptsScript (kinds : List Kind) (rest : List Char) :
    (attemptsScript kinds rest rest).1 =
      (kinds.takeWhile fun kind => !(kind.script rest).accepted).map (⟨·, false⟩) ++
        (kinds.find? fun kind => (kind.script rest).accepted).toList.map (⟨·, true⟩) := by
  induction kinds with
  | nil => rfl
  | cons kind kinds ih =>
    rw [attemptsScript]
    by_cases accepted : (kind.script rest).accepted = true
    · simp [accepted]
    · simp [accepted, ih]

/-- Only the recognizer of a comment runs in vain. -/
theorem Request.takeWhile_rejected (request : Request) (rest : List Char) :
    (Kind.priority.filter request.asksFor).takeWhile (fun kind => !(kind.script rest).accepted) =
      if request.asksFor .comment && !(Kind.comment.script rest).accepted then [.comment]
      else [] := by
  have stops : ∀ kinds : List Kind, (∀ kind ∈ kinds, kind ≠ .comment) →
      kinds.takeWhile (fun kind => !(kind.script rest).accepted) = [] := by
    intro kinds others
    cases kinds with
    | nil => rfl
    | cons kind kinds =>
      rw [List.takeWhile_cons_of_neg]
      simp [Kind.script_accepted (others kind List.mem_cons_self) rest]
  have others : ∀ kind ∈ [Kind.content, .argument, .statement, .expression].filter request.asksFor,
      kind ≠ .comment := by
    intro kind mem
    have mem := (List.mem_filter.mp mem).1
    rintro rfl
    exact absurd mem (by decide)
  rw [Kind.priority, List.filter_cons]
  cases asked : request.asksFor .comment with
  | false => simpa using stops _ others
  | true =>
    cases found : (Kind.comment.script rest).accepted with
    | false => simp [found, stops _ others]
    | true => simp [found]

theorem Request.find?_accepted (request : Request) (rest : List Char) :
    (Kind.priority.filter request.asksFor).find? (fun kind => (kind.script rest).accepted) =
      request.finds rest := by
  rw [List.find?_filter, Request.finds]
  simp

/-- The recognizers that run in a scan: that of a comment in vain, if one is asked for and there is
none, and that of the kind that is found. -/
def Turn.trials (turn : Turn) (request : Request) (start : Cursor) : List Attempt :=
  (if request.asksFor .comment && !accepts start .comment then [⟨.comment, false⟩] else []) ++
    turn.token.toList.map (⟨·.kind, true⟩)

namespace IndexCursor

variable {source : Source} {text : List Char} {place : Nat} {request : Request} {turn : Turn}

theorem attempts_startAt (holds : source.Holds text) {attempts : List Attempt} {after : Cursor}
    (tried : attempt request ((startAt text place).toCursor source) = .ok (attempts, after)) :
    attempts =
      (if request.asksFor .comment && !(Kind.comment.script (text.drop place)).accepted then
        [⟨.comment, false⟩] else []) ++
        (request.finds (text.drop place)).toList.map (⟨·, true⟩) := by
  have reads : Cursor.Reads ((startAt text place).toCursor source) (text.drop place)
      (text.drop place) := reads_toCursor holds (startAt text place)
  obtain ⟨next, followed, _⟩ := Cursor.contract.follow reads
    (attemptsScript (Kind.priority.filter request.asksFor) (text.drop place) (text.drop place)).2
  rw [attempt_eq Cursor.contract reads, followed, ok_bind] at tried
  obtain ⟨rfl, _⟩ := Prod.mk.inj (Except.ok.inj tried)
  rw [attempts_attemptsScript, request.takeWhile_rejected, request.find?_accepted]
  split <;> rfl

theorem attempts_turn (holds : source.Holds text) (le : place ≤ text.length)
    (turned : ((startAt text place).toCursor source).turn request = .ok turn) :
    turn.attempts = turn.trials request ((startAt text place).toCursor source) := by
  obtain ⟨attempts, after, tried, _⟩ := attempt_startAt holds le request
  obtain ⟨others, found⟩ := turn_startAt holds le request
  have token : turn.token = request.token text place := by
    cases Except.ok.inj (found.symm.trans turned)
    rfl
  have same : turn.attempts = attempts := by
    rw [Cursor.turn_eq tried] at turned
    cases Except.ok.inj turned
    rfl
  rw [same, attempts_startAt holds tried, Turn.trials, accepts_startAt holds le, token,
    Request.token]
  cases request.finds (text.drop place) <;> rfl

end IndexCursor

/-- A reader stands between two characters of its source's text and has read nothing yet. -/
def Cursor.Placed (text : List Char) (cursor : Cursor) : Prop :=
  cursor.source.Holds text ∧
    ∃ place ≤ text.length, cursor = (IndexCursor.startAt text place).toCursor cursor.source

theorem Cursor.placed_ofText {text : String} {cursor : Cursor}
    (opened : Cursor.ofText text = .ok cursor) : cursor.Placed (scannable text).toList := by
  obtain ⟨holds, start⟩ := Cursor.ofText_eq_startAt opened
  exact ⟨holds, 0, Nat.zero_le _, start⟩

theorem Cursor.Placed.turn {text : List Char} {cursor : Cursor} {request : Request} {turn : Turn}
    (placed : cursor.Placed text) (turned : cursor.turn request = .ok turn) :
    turn.cursor.Placed text ∧ turn.attempts = turn.trials request cursor := by
  obtain ⟨holds, place, le, start⟩ := placed
  rw [start] at turned
  have attempts := IndexCursor.attempts_turn holds le turned
  rw [← start] at attempts
  obtain ⟨_, found⟩ := IndexCursor.turn_startAt holds le request
  have reach := request.reach_le (text.drop place)
  rw [List.length_drop] at reach
  cases Except.ok.inj (turned.symm.trans found)
  exact ⟨⟨holds, _, by omega, rfl⟩, attempts⟩

/-- The scans of a stream, each with where it starts. Nothing is scanned at the end of the source,
and a scan that finds nothing, or an empty token, is the last. -/
inductive Scans (request : Request) : Cursor → List (Cursor × Turn) → Prop where
  | ended {cursor : Cursor} : cursor.atEnd = true → Scans request cursor []
  | stopped {cursor : Cursor} {turn : Turn} : cursor.atEnd = false →
    cursor.turn request = .ok turn → (∀ token ∈ turn.token, token.span.isEmpty = true) →
    Scans request cursor [(cursor, turn)]
  | token {cursor : Cursor} {turn : Turn} {token : Token} {scans : List (Cursor × Turn)} :
    cursor.atEnd = false → cursor.turn request = .ok turn → turn.token = some token →
    token.span.isEmpty = false → Scans request turn.cursor scans →
    Scans request cursor ((cursor, turn) :: scans)

/-- The token of a scan, if it is not empty. -/
def filledToken (scan : Cursor × Turn) : Option Token :=
  scan.2.token.filter (!·.span.isEmpty)

/-- The last scan accepts an empty token. -/
def endsEmpty (scans : List (Cursor × Turn)) : Bool :=
  scans.getLast?.any fun scan => scan.2.token.any (·.span.isEmpty)

namespace Scans

variable {request : Request} {cursor : Cursor} {scans : List (Cursor × Turn)}

/-- What holds of the first start and is kept by a scan holds wherever scans start. -/
theorem forall_start {holds : Cursor → Prop} (scans_of : Scans request cursor scans)
    (first : holds cursor) (keeps : ∀ start turn, holds start → start.turn request = .ok turn →
      holds turn.cursor) : ∀ scan ∈ scans, holds scan.1 ∧ scan.1.turn request = .ok scan.2 := by
  induction scans_of with
  | ended => simp
  | stopped _ turned =>
    rw [List.forall_mem_singleton]
    exact ⟨first, turned⟩
  | token _ turned _ _ _ ih =>
    rw [List.forall_mem_cons]
    exact ⟨⟨first, turned⟩, ih (keeps _ _ first turned)⟩

/-- The scans that accept are those of the tokens that are not empty, and it may be the last. -/
theorem countP_token (scans_of : Scans request cursor scans) :
    scans.countP (·.2.token.isSome) =
      (scans.filterMap filledToken).length + if endsEmpty scans then 1 else 0 := by
  induction scans_of with
  | ended => rfl
  | @stopped cursor turn _ _ empty =>
    cases found : turn.token with
    | none => simp [filledToken, endsEmpty, found]
    | some token => simp [filledToken, endsEmpty, found, empty token found]
  | @token cursor turn token scans _ _ found filled _ ih =>
    have last : endsEmpty ((cursor, turn) :: scans) = endsEmpty scans := by
      cases scans with
      | nil => simp [endsEmpty, found, filled]
      | cons scan scans => rw [endsEmpty, List.getLast?_cons_cons, endsEmpty]
    have kept : filledToken (cursor, turn) = some token := by simp [filledToken, found, filled]
    rw [last, List.countP_cons_of_pos (by simp [found]), ih, List.filterMap_cons_some kept,
      List.length_cons]
    omega

end Scans

/-- Taking tokens until there is none makes the scans of the stream. -/
theorem Stream.exists_scans {limit : Nat} {stream : Stream} {harvest : Harvest}
    (unfinished : stream.finished = false) (taken : stream.take limit = .ok harvest)
    (ended : harvest.ended = true) : ∃ scans, Scans stream.request stream.cursor scans ∧
      harvest.attempts = scans.flatMap (·.2.attempts) ∧
      harvest.tokens = scans.filterMap filledToken := by
  induction limit generalizing stream harvest with
  | zero =>
    cases Except.ok.inj taken
    cases ended
  | succ limit ih =>
    obtain ⟨step, stepped, went⟩ := bind_eq_ok_iff.mp taken
    unfold Stream.step at stepped
    -- A stream that is not finished stops only at the end or with the scan that finishes it.
    rw [unfinished, Bool.false_or] at stepped
    cases past : stream.cursor.atEnd with
    | true =>
      rw [past, if_pos rfl] at stepped
      cases Except.ok.inj stepped
      cases Except.ok.inj went
      exact ⟨[], .ended past, rfl, rfl⟩
    | false =>
      rw [past, if_neg Bool.false_ne_true] at stepped
      obtain ⟨turn, turned, stepped⟩ := bind_eq_ok_iff.mp stepped
      cases Except.ok.inj stepped
      simp only at went
      cases filled : turn.token.filter (!·.span.isEmpty) with
      | none =>
        rw [filled] at went
        cases Except.ok.inj went
        refine ⟨[(stream.cursor, turn)], .stopped past turned ?_, by simp, ?_⟩
        · intro token found
          have dropped := Option.filter_eq_none_iff.mp filled token found
          simpa using dropped
        · simp [filledToken, filled]
      | some token =>
        rw [filled] at went
        obtain ⟨rest, later, eq⟩ := bind_eq_ok_iff.mp went
        cases Except.ok.inj eq
        obtain ⟨found, nonempty⟩ := Option.filter_eq_some_iff.mp filled
        obtain ⟨scans, scans_of, attempts, tokens⟩ := ih rfl later ended
        have nonempty : token.span.isEmpty = false := by simpa using nonempty
        refine ⟨(stream.cursor, turn) :: scans, .token past turned found nonempty scans_of, ?_, ?_⟩
        · simp [attempts]
        · simp [tokens, filledToken, filled]

/-- The scans of a report: one, or all of a stream. -/
inductive ScanOptions.Scanned (options : ScanOptions) (cursor : Cursor) :
    List (Cursor × Turn) → Prop where
  | once {turn : Turn} : options.once = true → cursor.turn options.request = .ok turn →
    Scanned options cursor [(cursor, turn)]
  | all {scans : List (Cursor × Turn)} : options.once = false →
    Scans options.request cursor scans → Scanned options cursor scans

/-- The tokens that a report shows: that of its only scan, or those of a stream. -/
def ScanOptions.shown (options : ScanOptions) (scans : List (Cursor × Turn)) : List Token :=
  if options.once then scans.filterMap (·.2.token) else scans.filterMap filledToken

theorem ScanOptions.Scanned.forall_start {options : ScanOptions} {cursor : Cursor}
    {scans : List (Cursor × Turn)} {holds : Cursor → Prop} (scanned : options.Scanned cursor scans)
    (first : holds cursor) (keeps : ∀ start turn, holds start →
      start.turn options.request = .ok turn → holds turn.cursor) :
    ∀ scan ∈ scans, holds scan.1 ∧ scan.1.turn options.request = .ok scan.2 := by
  cases scanned with
  | once _ turned =>
    rw [List.forall_mem_singleton]
    exact ⟨first, turned⟩
  | all _ scans_of => exact scans_of.forall_start first keeps

/-- In every scan of a text the recognizers that run are its trials. -/
theorem ScanOptions.Scanned.attempts {options : ScanOptions} {text : String} {cursor : Cursor}
    {scans : List (Cursor × Turn)} (scanned : options.Scanned cursor scans)
    (opened : Cursor.ofText text = .ok cursor) :
    ∀ scan ∈ scans, scan.2.attempts = scan.2.trials options.request scan.1 := by
  have each := scanned.forall_start (Cursor.placed_ofText opened)
    fun _ _ placed turned => (placed.turn turned).1
  intro scan mem
  obtain ⟨placed, turned⟩ := each scan mem
  exact (placed.turn turned).2

/-- Every accepting scan is shown, but for one that ends a stream with an empty token. -/
theorem ScanOptions.Scanned.countP_token {options : ScanOptions} {cursor : Cursor}
    {scans : List (Cursor × Turn)} (scanned : options.Scanned cursor scans) :
    scans.countP (·.2.token.isSome) =
      (options.shown scans).length + if !options.once && endsEmpty scans then 1 else 0 := by
  cases scanned with
  | @once turn once _ =>
    rw [shown, once]
    cases found : turn.token with
    | none => simp [found]
    | some token => simp [found]
  | all every scans_of => simpa [shown, every] using scans_of.countP_token

/-- A report is of the scans, and shows the tokens, a line for each, and after them one in
parentheses at most. -/
structure Report.Shows (written : Report) (hidden : Char → Bool) (scans : List (Cursor × Turn))
    (tokens : List Token) : Prop where
  attempts : written.attempts = scans.flatMap (·.2.attempts)
  lines : ∃ lines others, written.lines = lines ++ others ∧
    List.Forall₂ (fun token line => ∃ text, line = Token.line hidden token text) tokens lines ∧
    ∀ line ∈ others, line.toList.head? = some '('

section report

variable {hidden : Char → Bool} {source : Source} {request : Request} {written : Report}

theorem reportOnce_shows (ran : reportOnce hidden source request = .ok written) :
    ∃ cursor turn, source.cursor = .ok cursor ∧ cursor.turn request = .ok turn ∧
      written.Shows hidden [(cursor, turn)] turn.token.toList := by
  obtain ⟨cursor, started, ran⟩ := bind_eq_ok_iff.mp ran
  obtain ⟨turn, turned, ran⟩ := bind_eq_ok_iff.mp ran
  obtain ⟨line, shown, eq⟩ := bind_eq_ok_iff.mp ran
  cases Except.ok.inj eq
  refine ⟨cursor, turn, started, turned, ?_⟩
  cases found : turn.token with
  | none =>
    rw [found] at shown
    cases Except.ok.inj shown
    exact ⟨by simp, [], ["(no token)"], rfl, .nil, by decide⟩
  | some token =>
    rw [found] at shown
    obtain ⟨text, _, eq⟩ := bind_eq_ok_iff.mp shown
    cases Except.ok.inj eq
    exact ⟨by simp, [token.line hidden text], [], rfl, .cons ⟨text, rfl⟩ .nil, by simp⟩

theorem head?_of_mem_trailer {rest line : String} (mem : line ∈ trailer hidden rest) :
    line.toList.head? = some '(' := by
  unfold trailer at mem
  split at mem
  next => cases mem
  next =>
    obtain rfl := List.mem_singleton.mp mem
    simp only [String.toList_append]
    rfl

theorem reportAll_shows (ran : reportAll hidden source request = .ok written) :
    ∃ cursor scans, source.cursor = .ok cursor ∧ Scans request cursor scans ∧
      written.Shows hidden scans (scans.filterMap filledToken) := by
  obtain ⟨stream, opened, ran⟩ := bind_eq_ok_iff.mp ran
  obtain ⟨harvest, taken, ran⟩ := bind_eq_ok_iff.mp ran
  obtain ⟨shown, described, eq⟩ := bind_eq_ok_iff.mp ran
  cases Except.ok.inj eq
  obtain ⟨lines, made, described⟩ := bind_eq_ok_iff.mp described
  obtain ⟨rest, _, eq⟩ := bind_eq_ok_iff.mp described
  cases Except.ok.inj eq
  obtain ⟨cursor, started, eq⟩ := bind_eq_ok_iff.mp opened
  cases Except.ok.inj eq
  obtain ⟨whole, taken, eq⟩ := bind_eq_ok_iff.mp taken
  split at eq
  next ended =>
    cases Except.ok.inj eq
    obtain ⟨scans, scans_of, attempts, tokens⟩ := Stream.exists_scans rfl taken ended
    refine ⟨cursor, scans, started, scans_of, attempts, lines, trailer hidden rest, rfl, ?_,
      fun line => head?_of_mem_trailer⟩
    rw [← tokens]
    refine (mapM_eq_ok_iff.mp made).imp ?_
    intro token line step
    obtain ⟨text, _, eq⟩ := bind_eq_ok_iff.mp step
    exact ⟨text, (Except.ok.inj eq).symm⟩
  next => cases eq

theorem report_shows {options : ScanOptions} (ran : report hidden options source = .ok written) :
    ∃ cursor scans, source.cursor = .ok cursor ∧ options.Scanned cursor scans ∧
      written.Shows hidden scans (options.shown scans) := by
  unfold report at ran
  cases once : options.once with
  | true =>
    rw [once, if_pos rfl] at ran
    obtain ⟨cursor, turn, started, turned, shows⟩ := reportOnce_shows ran
    refine ⟨cursor, [(cursor, turn)], started, .once once turned, ?_⟩
    rw [ScanOptions.shown, once, if_pos rfl]
    cases found : turn.token <;> simpa [found] using shows
  | false =>
    rw [once, if_neg Bool.false_ne_true] at ran
    obtain ⟨cursor, scans, started, scans_of, shows⟩ := reportAll_shows ran
    refine ⟨cursor, scans, started, .all once scans_of, ?_⟩
    rwa [ScanOptions.shown, once, if_neg Bool.false_ne_true]

end report

end TemplateScanner
