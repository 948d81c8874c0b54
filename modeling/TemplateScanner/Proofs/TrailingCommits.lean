import TemplateScanner.Proofs.Commits
import TemplateScanner.Proofs.FirstOccurrence

namespace TemplateScanner

/-- Of a reading that begins with a commit and takes nothing back, some commit stands at any
time. -/
theorem Cursor.exists_commit {cursor : Cursor} {events done : List Event} {ends : List Nat}
    (kept : .rewind ∉ events) (commits : cursor.commitsOf (.commit :: events) = .ok ends)
    (part : done <+: .commit :: events) (begun : done ≠ []) : ∃ here place,
      follow done cursor = .ok here ∧ place ∈ ends ∧ here.committed = some place := by
  obtain ⟨event, done, rfl⟩ := List.exists_cons_of_ne_nil begun
  obtain ⟨more, eq⟩ := part
  obtain ⟨rfl, rfl⟩ := List.cons.inj eq
  rw [← eq, commitsOf_append] at commits
  obtain ⟨sofar, first, commits⟩ := bind_eq_ok_iff.mp commits
  obtain ⟨here, followed, commits⟩ := bind_eq_ok_iff.mp commits
  obtain ⟨after, _, commits⟩ := bind_eq_ok_iff.mp commits
  cases Except.ok.inj commits
  have unchanged : Event.rewind ∉ Event.commit :: done := by
    rw [List.mem_cons, not_or]
    exact ⟨by decide, fun mem => kept (List.mem_append_left more mem)⟩
  have standing := committed_of_commits unchanged followed first
  obtain ⟨_, performed, ended⟩ := bind_eq_ok_iff.mp first
  obtain ⟨later, _, ended⟩ := bind_eq_ok_iff.mp ended
  cases Except.ok.inj ended
  rw [if_pos rfl, List.getLast?_cons] at standing
  refine ⟨here, _, followed, List.mem_append_left _ ?_, standing⟩
  rw [if_pos rfl]
  exact List.mem_of_getLast? List.getLast?_cons

namespace ClosingPair

variable {pair : ClosingPair} {rest : List Char}

/-- Where the pair does not stand, the place behind the first character is committed: for a first
half that is when the character behind it has been seen, but not read. -/
theorem commitPlaces_cons (more : rest ≠ []) (c : Char) (read : Nat) :
    commitPlaces read (pair.script false (c :: rest)).events =
      if pair.chars <+: c :: rest then [read + 2]
      else (read + 1) :: commitPlaces (read + 1) (pair.script false rest).events := by
  obtain ⟨d, rest, rfl⟩ := List.exists_cons_of_ne_nil more
  rw [script_cons_cons]
  simp only [chars_prefix_iff]
  split <;> rfl

theorem commitPlaces_of_found {before : List Char}
    (first : FirstOccurrence pair.chars rest before) (read : Nat) :
    commitPlaces read (pair.script false rest).events =
      List.range' (read + 1) before.length ++ [read + before.length + 2] := by
  obtain ⟨behind, rfl⟩ := first.stands
  induction before generalizing read with
  | nil =>
    have here : pair.chars <+: pair.first :: pair.second :: behind := List.prefix_append _ _
    exact (commitPlaces_cons (List.cons_ne_nil _ _) _ read).trans (if_pos here)
  | cons c before ih =>
    rw [List.cons_append, List.cons_append] at first ⊢
    obtain ⟨other, later⟩ := first.of_cons
    have more : before ++ pair.chars ++ behind ≠ [] := by simp [chars]
    have count : read + 1 + before.length = read + (c :: before).length := by
      rw [List.length_cons]
      omega
    rw [commitPlaces_cons more, if_neg other, ih _ later, count, ← List.cons_append,
      ← List.range'_succ]
    rfl

/-- At the end of the input a first half is committed as any character is, and all that is left of
another is committed twice. -/
theorem commitPlaces_of_missing (missing : ¬pair.chars <:+: rest) (read : Nat) :
    commitPlaces read (pair.script false rest).events = List.range' (read + 1) rest.length ++
      if rest.getLast? = some pair.first then [] else [read + rest.length] := by
  induction rest generalizing read with
  | nil =>
    rw [script]
    rfl
  | cons c rest ih =>
    cases rest with
    | nil =>
      rw [script_singleton, List.getLast?_singleton]
      simp only [Option.some.injEq]
      split <;> rfl
    | cons d rest =>
      rw [List.infix_cons_iff, not_or] at missing
      have count : read + 1 + (d :: rest).length = read + (c :: d :: rest).length := by
        simp only [List.length_cons]
        omega
      rw [commitPlaces_cons (List.cons_ne_nil d rest), if_neg missing.1, ih missing.2, count,
        List.getLast?_cons_cons, ← List.cons_append, ← List.range'_succ]
      rfl

/-- From wherever operations lead, reading through a pair commits an end at every place up to the
pair's first occurrence and then behind that, or at every place of the text. No commit is made
between the two characters of the pair, so that the end that stands at any time of the reading does
not part them. -/
theorem commits_trail {text : String} {cursor : Cursor}
    (reachable : Cursor.Reachable text cursor) (pair : ClosingPair) :
    ∃ (rest : String) (recorded : Recorded Cursor) (places : List Nat),
      cursor.rest = .ok rest ∧ pair.read (Recorded.ofHost cursor) = .ok (true, recorded) ∧
      pair.read cursor = .ok (true, recorded.host) ∧
      cursor.commitsOf recorded.history = .ok (places.map fun read =>
        cursor.position + byteLength (rest.toList.take read)) ∧
      (∀ before, FirstOccurrence pair.chars rest.toList before →
        places = List.range (before.length + 1) ++ [before.length + 2]) ∧
      (¬pair.chars <:+: rest.toList → places = List.range (rest.toList.length + 1) ++
        if rest.toList.getLast? = some pair.first then [] else [rest.toList.length]) ∧
      ∀ done, done <+: recorded.history → done ≠ [] → ∃ here place,
        follow done cursor = .ok here ∧ place ∈ places ∧
        here.committed = some (cursor.position + byteLength (rest.toList.take place)) ∧
        ∀ before, FirstOccurrence pair.chars rest.toList before → place ≠ before.length + 1 := by
  obtain ⟨rest, start, unread, reads, follows⟩ := reachable.exists_follow
  have orderly := (pair.orderly false rest.toList).commit
  obtain ⟨after, followed, _⟩ := follows _ orderly
  obtain ⟨recorded, ran, rfl, history⟩ := Script.run_recorded _ followed
  have accepted : ((pair.script false rest.toList).after .commit).accepted = true :=
    pair.script_accepted false rest.toList
  have commits := reachable.commitsOf_eq unread orderly.plain orderly.reach
  have kept := (pair.orderly false rest.toList).rewind_notMem
  have found : ∀ before, FirstOccurrence pair.chars rest.toList before →
      commitPlaces 0 recorded.history = List.range (before.length + 1) ++ [before.length + 2] := by
    intro before first
    rw [history, Script.after, commitPlaces, commitPlaces_of_found first 0, List.range_eq_range',
      List.range'_succ, Nat.zero_add, Nat.zero_add]
    rfl
  rw [← history] at commits
  refine ⟨rest, recorded, commitPlaces 0 recorded.history, unread, ?_, ?_, commits, found, ?_, ?_⟩
  · rw [ClosingPair.read_eq (Recorded.contract Cursor.contract) reads, ran, accepted]
  · rw [ClosingPair.read_eq Cursor.contract reads, Script.run, followed, accepted, ok_bind]
  · intro missing
    rw [history, Script.after, commitPlaces, commitPlaces_of_missing missing 0,
      List.range_eq_range', List.range'_succ, Nat.zero_add, Nat.zero_add]
    rfl
  · intro done part begun
    rw [history] at commits part
    obtain ⟨here, ended, followed, mem, standing⟩ := Cursor.exists_commit kept commits part begun
    obtain ⟨place, listed, rfl⟩ := List.mem_map.mp mem
    rw [← history] at listed
    refine ⟨here, place, followed, listed, standing, ?_⟩
    intro before first
    rw [found before first, List.mem_append, List.mem_range, List.mem_singleton] at listed
    omega

/-- Two first halves come to nothing here: the character behind one is another character, and behind
the other it is the first half of the pair that is found. -/
theorem commits_trail_two_false_starts : ∃ opened skipped rest recorded places,
    Cursor.ofText "é%→%%\x7db" = .ok opened ∧ opened.advance true = .ok skipped ∧
    Cursor.Reachable "é%→%%\x7db" skipped ∧ skipped.rest = .ok rest ∧
    statement.read (Recorded.ofHost skipped) = .ok (true, recorded) ∧
    statement.read skipped = .ok (true, recorded.host) ∧
    skipped.commitsOf recorded.history = .ok (places.map fun read =>
      skipped.position + byteLength (rest.toList.take read)) ∧
    (∀ before, FirstOccurrence statement.chars rest.toList before →
      places = List.range (before.length + 1) ++ [before.length + 2]) ∧
    skipped.commitsOf recorded.history = .ok [2, 3, 6, 7, 9] := by
  have fits : "é%→%%\x7db".utf8ByteSize < offsetLimit := by decide
  obtain ⟨cursor, opened⟩ := Cursor.exists_ofText fits
  have ran : (Cursor.ofText "é%→%%\x7db" >>= Cursor.advance true >>= fun skipped => do
      let (_, recorded) ← statement.read (Recorded.ofHost skipped)
      skipped.commitsOf recorded.history).toOption = some [2, 3, 6, 7, 9] := by
    decide +kernel
  rw [opened, ok_bind] at ran
  cases skip : cursor.advance true with
  | error fault =>
    rw [skip] at ran
    cases ran
  | ok skipped =>
    have reachable := Cursor.Reachable.advance (.opened opened) skip
    obtain ⟨rest, recorded, places, unread, read, alone, commits, found, _⟩ :=
      commits_trail reachable statement
    simp only [skip, ok_bind, read, commits] at ran
    exact ⟨cursor, skipped, rest, recorded, places, opened, skip, reachable, unread, read, alone,
      commits, found, commits.trans (congrArg Except.ok (Option.some.inj ran))⟩

end ClosingPair

end TemplateScanner
