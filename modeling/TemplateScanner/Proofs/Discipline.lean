import Mathlib.Data.List.TakeWhile
import TemplateScanner.Proofs.CallHistory

namespace TemplateScanner

/-- How a reader may be treated in a scan that begins where it stands. -/
structure Cursor.Disciplined (cursor : Cursor) (events : List Event) : Prop where
  noSkip : .skip ∉ events
  /-- Nothing is read at the end of the input. -/
  inside : ∀ done later, events = done ++ .advance :: later → ∃ here,
    follow done cursor = .ok here ∧ here.atEnd = false
  /-- At any time, what was read since the last rewind is what stands before the read position. -/
  counted : ∀ done, done <+: events → ∃ here read, follow done cursor = .ok here ∧
    cursor.source.text ⟨cursor.scanStart, here.position⟩ = .ok read ∧
    read.length = charactersRead done
  rewinds : events.count .rewind ≤ 1
  uncommitted : events.Pairwise fun earlier later => later = .rewind → earlier ≠ .commit
  ordered : ∃ ends, cursor.commitsOf events = .ok ends ∧ ends.Pairwise (· ≤ ·)
  apart : CommitsApart events

/-- Of the two loops that a turn could leave where it was, one reads on in the turn after that, and
the other, which does not ask for the end of the input, goes no further there. -/
structure Cursor.NeverSpins (cursor : Cursor) : Prop where
  falseStart : ∀ (pair : ClosingPair) (next : Char) (budget : Nat), cursor.atEnd = false →
    cursor.peek = .ok next → next ≠ pair.second → ∃ ahead : Cursor,
      cursor.commit.advance false = .ok ahead ∧ cursor.position < ahead.position ∧
      pair.readWithin (budget + 2) true cursor =
        if next = pair.first then pair.readWithin budget true ahead
        else pair.readWithin budget false ahead.commit
  filler : ∃ after, readFillerWithin (cursor.unread + 1) cursor = .ok after ∧
    ∀ rest, cursor.rest = .ok rest → (∀ c ∈ rest.toList, isFiller c = true) → after.atEnd = true
  fillerEnd : cursor.atEnd = true → ∀ budget, readFillerWithin (budget + 1) cursor = .ok cursor

section Contract

variable {σ : Type} [Host σ] {reads : σ → List Char → List Char → Prop} {host : σ}
  {start rest : List Char}

/-- A scan makes the same calls on every host, and they can be made. -/
theorem Contract.scan_recorded (contract : Contract σ reads) (h : reads host rest rest)
    (request : Request) : ∃ after recorded,
      TemplateScanner.follow (request.vain rest ++ (request.kept rest).events) host = .ok after ∧
      scan request host = .ok (request.finds rest, after) ∧
      scan request (Recorded.ofHost host) = .ok (request.finds rest, recorded) ∧
      recorded.host = after ∧
      recorded.history = request.vain rest ++ (request.kept rest).events := by
  obtain ⟨after, followed, _⟩ :=
    contract.follow h (request.vain rest ++ (request.kept rest).events)
  obtain ⟨recorded, again, same, history⟩ := follow_ofHost followed
  obtain ⟨found, calls⟩ := request.attemptsScript_eq rest
  refine ⟨after, recorded, followed, ?_, ?_, same, history⟩
  · rw [scan, attempt_eq contract h, calls, followed, ← found]
    rfl
  · have h : reads (Recorded.ofHost host).host rest rest := h
    rw [scan, attempt_eq (Recorded.contract contract) h, calls, again, ← found]
    rfl

/-- The turn after a false start reads the character that was looked at twice. -/
theorem ClosingPair.readWithin_falseStart (contract : Contract σ reads) (pair : ClosingPair)
    {next : Char} (h : reads host start (next :: rest)) (other : next ≠ pair.second)
    (budget : Nat) : ∃ ahead, Host.advance false (Host.commit host) = .ok ahead ∧
      pair.readWithin (budget + 2) true host =
        if next = pair.first then pair.readWithin budget true ahead
        else pair.readWithin budget false (Host.commit ahead) := by
  have hc := contract.commit h
  obtain ⟨ahead, advanced, _⟩ := contract.advance false hc
  refine ⟨ahead, advanced, ?_⟩
  rw [readWithin, contract.atEnd h, contract.peek h]
  simp only [List.isEmpty_cons, Bool.false_eq_true, if_false, ok_bind, List.headD_cons, if_true,
    if_neg other]
  rw [readWithin, contract.atEnd hc, contract.peek hc]
  simp only [List.isEmpty_cons, Bool.false_eq_true, if_false, ok_bind, List.headD_cons, advanced]

theorem readFillerWithin_end (contract : Contract σ reads) (h : reads host start [])
    (budget : Nat) : readFillerWithin (budget + 1) host = .ok host := by
  rw [readFillerWithin, contract.peek h]
  rfl

end Contract

theorem Cursor.position_lt_of_advance {cursor after : Cursor} {skip : Bool}
    (more : cursor.atEnd = false) (advanced : cursor.advance skip = .ok after) :
    cursor.position < after.position := by
  rw [Cursor.advance, more, if_neg Bool.false_ne_true] at advanced
  obtain ⟨lead, _, advanced⟩ := bind_eq_ok_iff.mp advanced
  obtain ⟨next, added, advanced⟩ := bind_eq_ok_iff.mp advanced
  cases Except.ok.inj advanced
  have wide := charWidth_pos lead
  have inside : cursor.position < cursor.source.length := by simpa [atEnd] using more
  have sum := eq_add_of_checkedAdd added
  simp only
  omega

theorem Cursor.Reachable.neverSpins {text : String} {cursor : Cursor}
    (reachable : Cursor.Reachable text cursor) : cursor.NeverSpins := by
  obtain ⟨rest, start, unread, reads, follows⟩ := reachable.exists_follow
  have ended : cursor.atEnd = rest.toList.isEmpty := Cursor.contract.atEnd reads
  refine ⟨?_, ?_, ?_⟩
  · intro pair next budget more peeked other
    rw [ended] at more
    obtain ⟨c, left, eq⟩ := List.exists_cons_of_ne_nil (List.isEmpty_eq_false_iff.mp more)
    rw [eq] at reads
    have seen : cursor.peek = .ok c := Cursor.contract.peek reads
    cases Except.ok.inj (peeked.symm.trans seen)
    obtain ⟨ahead, advanced, turned⟩ :=
      pair.readWithin_falseStart Cursor.contract reads other budget
    have moved : cursor.commit.position < ahead.position :=
      Cursor.position_lt_of_advance (ended.trans more) advanced
    exact ⟨ahead, advanced, moved, turned⟩
  · obtain ⟨after, followed, readOn, _⟩ := follows _ (Script.Orderly.filler rest.toList)
    have room := Cursor.contract.unread reads
    refine ⟨after, ?_, ?_⟩
    · exact (readFillerWithin_eq Cursor.contract reads (Nat.lt_succ_of_le room)).trans followed
    · intro same again all
      obtain rfl := Except.ok.inj (again.symm.trans unread)
      have whole : same.toList.takeWhile isFiller = same.toList :=
        List.takeWhile_eq_self_iff.mpr all
      rw [readOn.atEnd_iff unread, List.count_replicate_self, whole, List.take_length]
  · intro past budget
    rw [ended, List.isEmpty_iff] at past
    rw [past] at reads
    exact readFillerWithin_end Cursor.contract reads budget

theorem Cursor.commitsOf_eq_nil {cursor here : Cursor} {events : List Event}
    (none : .commit ∉ events) (followed : follow events cursor = .ok here) :
    cursor.commitsOf events = .ok [] := by
  induction events generalizing cursor with
  | nil => rfl
  | cons event events ih =>
    obtain ⟨next, performed, followed⟩ := bind_eq_ok_iff.mp followed
    rw [List.mem_cons, not_or] at none
    rw [commitsOf, performed, ok_bind, ih none.2 followed, ok_bind, if_neg (Ne.symm none.1)]

namespace IndexCursor

variable {source : Source} {text : List Char} {place : Nat}

/-- The read position is behind the characters that were read since the last rewind. -/
theorem follow_within (index : IndexCursor text) {read : Nat} {events : List Event}
    (within : Within (text.length - index.scanStart) read events)
    (stands : index.position = index.scanStart + read) : ∃ next : IndexCursor text,
      follow events index = .ok next ∧ next.scanStart = index.scanStart ∧
      next.position = index.scanStart + events.foldl Event.tally read := by
  induction events generalizing index read with
  | nil => exact ⟨index, rfl, rfl, stands⟩
  | cons event events ih =>
    obtain ⟨noSkip, more, later⟩ := within
    have step : ∃ next : IndexCursor text, event.perform index = .ok next ∧
        next.scanStart = index.scanStart ∧
        next.position = index.scanStart + event.tally read := by
      cases event with
      | advance =>
        have lt := more rfl
        have open_end : ¬index.atEnd = true := by
          simp only [atEnd, decide_eq_true_iff]
          omega
        refine ⟨index.advance false, rfl, scanStart_advance false index, ?_⟩
        rw [advance, if_neg open_end, Event.tally]
        simp only
        omega
      | skip => exact absurd rfl noSkip
      | commit => exact ⟨index.commit, rfl, rfl, stands⟩
      | rewind => exact ⟨index.rewind, rfl, rfl, rfl⟩
    obtain ⟨next, performed, hs, hp⟩ := step
    rw [← hs] at later hp
    obtain ⟨last, followed, ls, lp⟩ := ih next later hp
    rw [hs] at ls lp
    refine ⟨last, ?_, ls, lp⟩
    rw [follow, performed, ok_bind, followed]

theorem follow_startAt (holds : source.Holds text) (le : place ≤ text.length)
    {events : List Event} (within : Within (text.drop place).length 0 events) :
    ∃ next : IndexCursor text,
      follow events ((startAt text place).toCursor source) = .ok (next.toCursor source) ∧
      next.scanStart = place ∧ next.position = place + charactersRead events ∧
      next.position ≤ text.length := by
  rw [List.length_drop] at within
  obtain ⟨next, followed, hs, hp⟩ := follow_within (startAt text place) within rfl
  obtain ⟨same, again, inside, mirrored⟩ := follow_toCursor holds (inside_startAt le) events
  cases Except.ok.inj (followed.symm.trans again)
  exact ⟨next, mirrored, hs, hp, inside.position⟩

/-- What is done in vain leaves no trace. -/
theorem follow_vain (holds : source.Holds text) (le : place ≤ text.length) (request : Request) :
    follow (request.vain (text.drop place)) ((startAt text place).toCursor source) =
      .ok ((startAt text place).toCursor source) := by
  have within := (within_append.mp (request.within_calls (text.drop place))).1
  obtain ⟨tried, _, eq⟩ := request.vain_eq (text.drop place)
  rw [eq] at within ⊢
  split at within
  next vain =>
    obtain ⟨next, followed, hs, _⟩ := follow_startAt holds le (within_append.mp within).1
    rw [if_pos vain, follow_append, followed, ok_bind, follow, Event.perform, ok_bind,
      show Host.rewind (next.toCursor source) = next.rewind.toCursor source from rfl, rewind, hs]
    rfl
  next found => rw [if_neg found, follow]

theorem commitsOf_calls (holds : source.Holds text) (le : place ≤ text.length)
    (request : Request) : ((startAt text place).toCursor source).commitsOf
        (request.vain (text.drop place) ++ (request.kept (text.drop place)).events) =
      .ok ((commitPlaces place (request.kept (text.drop place)).events).map (offset text)) := by
  have orderly := request.kept_orderly (text.drop place)
  have reach := orderly.reach
  rw [List.length_drop] at reach
  have vain := follow_vain holds le request
  have fits : (startAt text place).position +
      (request.kept (text.drop place)).events.count .advance ≤ text.length := by
    rw [show (startAt text place).position = place from rfl]
    omega
  have kept := commitsOf_toCursor holds orderly.plain fits
  rw [Cursor.commitsOf_append, vain,
    Cursor.commitsOf_eq_nil (request.commit_notMem_vain _) vain]
  simp only [ok_bind, kept, List.nil_append]
  rfl

theorem disciplined_startAt (holds : source.Holds text) (le : place ≤ text.length)
    (request : Request) : ((startAt text place).toCursor source).Disciplined
      (request.vain (text.drop place) ++ (request.kept (text.drop place)).events) := by
  have within := request.within_calls (text.drop place)
  have unread := (request.kept_orderly (text.drop place)).rewind_notMem
  have uncommitted := request.commit_notMem_vain (text.drop place)
  have plain := (request.kept_orderly (text.drop place)).plain
  refine ⟨within.skip_notMem, ?_, ?_, ?_, ?_, ?_, ?_⟩
  · intro done later eq
    rw [eq, within_append] at within
    obtain ⟨before, _, more, _⟩ := within
    obtain ⟨next, followed, _, hp, _⟩ := follow_startAt holds le before
    refine ⟨next.toCursor source, followed, ?_⟩
    have lt : charactersRead done < (text.drop place).length := more rfl
    rw [List.length_drop] at lt
    rw [atEnd_toCursor holds, atEnd, decide_eq_false_iff_not]
    omega
  · rintro done ⟨later, eq⟩
    rw [← eq, within_append] at within
    obtain ⟨next, followed, _, hp, inside⟩ := follow_startAt holds le within.1
    have read := Source.text_offset holds (show place ≤ next.position by omega)
    refine ⟨next.toCursor source, _, followed, read, ?_⟩
    rw [String.length_ofList, List.length_drop, List.length_take_of_le inside, hp,
      Nat.add_sub_cancel_left]
  · rw [request.count_rewind]
    split <;> omega
  · rw [List.pairwise_append]
    refine ⟨?_, ?_, ?_⟩
    · exact List.pairwise_of_forall_mem_list fun earlier mem _ _ _ same =>
        uncommitted (same ▸ mem)
    · exact List.pairwise_of_forall_mem_list fun _ _ later mem same => absurd (same ▸ mem) unread
    · exact fun earlier mem _ _ _ same => uncommitted (same ▸ mem)
  · refine ⟨_, commitsOf_calls holds le request, List.pairwise_map.mpr ?_⟩
    exact (commitPlaces_sorted plain place).2.imp (offset_mono text)
  · exact (request.commitsApart_kept _).append_of_notMem uncommitted

end IndexCursor

/-- What a scan does to a reader, and to any other host alike: it reads only what is left, goes back
at most once, before any commit and only for a comment that is not there, and commits last what it
accepts. No loop of a recognizer spins. -/
theorem scan_disciplined {text : String} {cursor : Cursor}
    (boundary : Cursor.AtBoundary text cursor) (request : Request) :
    (∃ (rest : String) (found : Option Kind) (recorded : Recorded Cursor),
      cursor.rest = .ok rest ∧ scan request (Recorded.ofHost cursor) = .ok (found, recorded) ∧
      scan request cursor = .ok (found, recorded.host) ∧
      cursor.Disciplined recorded.history ∧
      (recorded.history.count .rewind = 1 ↔ request.asksFor .comment = true ∧
        ∃ after, recognize .comment cursor = .ok (false, after)) ∧
      (found.isSome = true → recorded.history.getLast? = some .commit) ∧
      ∀ (σ : Type) [Host σ] (reads : σ → List Char → List Char → Prop), Contract σ reads →
        ∀ host : σ, reads host rest.toList rest.toList → ∃ other : Recorded σ,
          scan request (Recorded.ofHost host) = .ok (found, other) ∧
          other.history = recorded.history) ∧
    ∀ here, Cursor.Reachable text here → here.NeverSpins := by
  refine ⟨?_, fun here reachable => reachable.neverSpins⟩
  obtain ⟨source, place, holds, le, eq⟩ := boundary.exists_place
  have unread := IndexCursor.rest_toCursor holds (IndexCursor.inside_startAt le)
  have reads : Cursor.Reads ((IndexCursor.startAt _ place).toCursor source)
      ((scannable text).toList.drop place) ((scannable text).toList.drop place) :=
    IndexCursor.reads_toCursor holds (IndexCursor.startAt _ place)
  have disciplined := IndexCursor.disciplined_startAt holds le request
  obtain ⟨tried, recognized, _⟩ := IndexCursor.recognize_startAt holds le .comment
  rw [← eq] at unread reads disciplined recognized
  obtain ⟨after, recorded, _, alone, ran, rfl, history⟩ :=
    Cursor.contract.scan_recorded reads request
  refine ⟨_, _, recorded, unread, ran, alone, ?_, ?_, ?_, ?_⟩
  · rw [history]
    exact disciplined
  · have rejects : (∃ after, recognize .comment cursor = .ok (false, after)) ↔
        (commentScript ((scannable text).toList.drop place)).accepted = false := by
      rw [recognized]
      simp [Kind.script]
    rw [rejects, history, request.count_rewind]
    simp
  · intro found
    have accepted := (request.accepted_kept _).trans found
    rw [history, List.getLast?_append, (request.kept_orderly _).commits accepted]
    rfl
  · intro σ _ others contract host h
    rw [String.toList_ofList] at h
    obtain ⟨_, other, _, _, scanned, _, same⟩ := contract.scan_recorded h request
    exact ⟨other, scanned, same.trans history.symm⟩

/-- The comment is not closed, and plain text is found once all has been taken back. -/
theorem scan_disciplined_unclosed_comment : ∃ cursor rest recorded,
    Cursor.ofText "-- é <b" = .ok cursor ∧ Cursor.AtBoundary "-- é <b" cursor ∧
    cursor.rest = .ok rest ∧
    scan ⟨0xff#8⟩ (Recorded.ofHost cursor) = .ok (some .content, recorded) ∧
    scan ⟨0xff#8⟩ cursor = .ok (some .content, recorded.host) ∧
    cursor.Disciplined recorded.history ∧ recorded.history.count .rewind = 1 ∧
    (∃ after, recognize .comment cursor = .ok (false, after)) ∧
    recorded.history.getLast? = some .commit ∧
    recorded.history = List.replicate 7 .advance ++ .rewind :: .commit ::
      (List.replicate 5 [.advance, .commit]).flatten ∧
    (∀ (σ : Type) [Host σ] (reads : σ → List Char → List Char → Prop), Contract σ reads →
      ∀ host : σ, reads host rest.toList rest.toList → ∃ other : Recorded σ,
        scan ⟨0xff#8⟩ (Recorded.ofHost host) = .ok (some .content, other) ∧
        other.history = recorded.history) ∧
    cursor.NeverSpins := by
  have fits : "-- é <b".utf8ByteSize < offsetLimit := by decide
  obtain ⟨cursor, opened⟩ := Cursor.exists_ofText fits
  have boundary := Cursor.AtBoundary.opened opened
  obtain ⟨⟨rest, found, recorded, unread, ran, alone, disciplined, rewound, ended, others⟩,
    loops⟩ :=
    scan_disciplined boundary ⟨0xff#8⟩
  have seen : (Cursor.ofText "-- é <b" >>= fun cursor =>
      scan ⟨0xff#8⟩ (Recorded.ofHost cursor)).toOption.map (fun (found, recorded) =>
        (found, recorded.history)) = some (some .content, List.replicate 7 .advance ++
          .rewind :: .commit :: (List.replicate 5 [.advance, .commit]).flatten) := by
    decide +kernel
  rw [opened, ok_bind, ran] at seen
  obtain ⟨rfl, history⟩ := Prod.mk.inj (Option.some.inj seen)
  have once : recorded.history.count .rewind = 1 := by
    rw [history]
    decide
  exact ⟨cursor, rest, recorded, opened, boundary, unread, ran, alone, disciplined, once,
    (rewound.mp once).2, ended rfl, history, others, loops cursor (.opened opened)⟩

end TemplateScanner
