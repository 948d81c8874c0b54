import TemplateScanner.Proofs.FirstOccurrence
import TemplateScanner.Proofs.Lookahead
import TemplateScanner.Proofs.ReadOn

namespace TemplateScanner

/-- What is read of a text when the tail of a comment is looked for, and whether it is found. Of
`-->` the first occurrence counts that stands wholly behind the opening dashes. -/
inductive CommentThrough (text : List Char) : Bool → List Char → Prop where
  | closed {inner before : List Char} : text = "--".toList ++ inner →
    FirstOccurrence "-->".toList inner before →
    CommentThrough text true ("--".toList ++ before ++ "-->".toList)
  | unclosed {inner : List Char} : text = "--".toList ++ inner → ¬"-->".toList <:+: inner →
    CommentThrough text false text
  | halfOpened : ['-'] <+: text → ¬"--".toList <+: text → CommentThrough text false ['-']
  | unopened : ¬['-'] <+: text → CommentThrough text false []

/-- Once a comment is closed, what stands behind it is not looked at. -/
theorem commentBody_append {dashes : Nat} {rest : List Char} (more : List Char)
    (accepted : (commentBody dashes rest).accepted = true) :
    commentBody dashes (rest ++ more) = commentBody dashes rest := by
  have same := commentBody_lookahead
    (rest.drop ((commentBody dashes rest).events.count .advance) ++ more) accepted
  rwa [← List.append_assoc, List.take_append_drop] at same

theorem commentBody_firstOccurrence {inner : List Char}
    (accepted : (commentBody 0 inner).accepted = true) : ∃ before,
      FirstOccurrence "-->".toList inner before ∧
      (commentBody 0 inner).events.count .advance = before.length + 3 := by
  have accepts := commentBody_accepted_iff 0
  simp only [List.replicate_zero, List.nil_append] at accepts
  -- No more is read than an occurrence and what stands before it.
  have reads_le : ∀ earlier, earlier ++ "-->".toList <+: inner →
      (commentBody 0 inner).events.count .advance ≤ earlier.length + 3 := by
    rintro earlier ⟨more, rfl⟩
    have found := (accepts _).mpr ⟨earlier, [], List.append_nil _⟩
    have few := (commentBody_orderly 0 (earlier ++ "-->".toList)).reach
    rw [commentBody_append more found]
    simpa using few
  -- Less than that is no occurrence yet, for the text that is read is a comment of its own.
  have read := commentBody_lookahead [] accepted
  rw [List.append_nil] at read
  have closes : (commentBody 0
      (inner.take ((commentBody 0 inner).events.count .advance))).accepted = true := by
    rw [read]
    exact accepted
  obtain ⟨before, after, eq⟩ := (accepts _).mp closes
  have stands : before ++ "-->".toList <+: inner :=
    (List.prefix_append _ after).trans (eq ▸ List.take_prefix _ _)
  have long := congrArg List.length eq
  have few := (commentBody_orderly 0 inner).reach
  rw [List.length_take_of_le few] at long
  simp only [List.length_append] at long
  have most := reads_le before stands
  have three : "-->".toList.length = 3 := rfl
  refine ⟨before, ⟨stands, ?_⟩, by omega⟩
  intro earlier other
  have := reads_le earlier other
  omega

theorem commentBody_rejected {dashes : Nat} {rest : List Char}
    (rejected : (commentBody dashes rest).accepted = false) :
    (commentBody dashes rest).events = List.replicate rest.length .advance := by
  induction rest generalizing dashes with
  | nil => rfl
  | cons c rest ih =>
    rw [commentBody] at rejected ⊢
    split at rejected
    next => cases rejected
    next other =>
      rw [if_neg other, List.length_cons, List.replicate_succ, ← ih rejected]
      rfl

theorem commentScript_rejected {text : List Char}
    (rejected : (commentScript text).accepted = false) :
    ∀ event ∈ (commentScript text).events, event = .advance := by
  match text with
  | [] => simp [commentScript]
  | [c] =>
    rw [commentScript]
    split <;> simp
  | c :: d :: inner =>
    rw [commentScript] at rejected ⊢
    split
    next first =>
      split
      next second =>
        rw [if_pos first, if_pos second] at rejected
        intro event mem
        rw [Script.after, Script.after, commentBody_rejected rejected] at mem
        simp only [List.mem_cons, List.mem_replicate] at mem
        grind
      next => simp
    next => simp

theorem commentScript_through (text : List Char) :
    CommentThrough text (commentScript text).accepted
      (text.take ((commentScript text).events.count .advance)) := by
  match text with
  | [] => exact .unopened (by simp)
  | [c] =>
    rw [commentScript]
    by_cases first : c = '-'
    · subst first
      exact .halfOpened (by simp) (by simp)
    · rw [if_neg first]
      exact .unopened (by simpa [eq_comm] using first)
  | c :: d :: inner =>
    rw [commentScript]
    by_cases first : c = '-'
    · subst first
      by_cases second : d = '-'
      · subst second
        rw [if_pos rfl, if_pos rfl, Script.count_after_advance, Script.count_after_advance,
          List.take_succ_cons, List.take_succ_cons]
        cases closed : (commentBody 0 inner).accepted with
        | true =>
          obtain ⟨before, occurs, count⟩ := commentBody_firstOccurrence closed
          have reads : inner.take (before ++ "-->".toList).length = before ++ "-->".toList :=
            (List.prefix_iff_eq_take.mp occurs.stands).symm
          have passed : CommentThrough ('-' :: '-' :: inner) true _ := .closed rfl occurs
          rw [count, show before.length + 3 = (before ++ "-->".toList).length from by simp, reads]
          exact closed ▸ passed
        | false =>
          have missing := mt (commentBody_accepted_iff 0 inner).mpr (by simp [closed])
          rw [commentBody_rejected closed, List.count_replicate_self, List.take_length]
          exact closed ▸ .unclosed rfl missing
      · rw [if_pos rfl, if_neg second]
        exact .halfOpened (by simp) (by simpa [eq_comm] using second)
    · rw [if_neg first]
      exact .unopened (by simpa [eq_comm] using first)

theorem CommentThrough.eq_of_opened {text passed : List Char}
    (through : CommentThrough text false passed) (opened : "--".toList <+: text) :
    passed = text := by
  cases through with
  | unclosed => rfl
  | halfOpened _ half => exact absurd opened half
  | unopened other => exact absurd ((List.prefix_append ['-'] ['-']).trans opened) other

theorem opensWithComment_iff {text : List Char} : OpensWithComment text ↔
    "--".toList <+: text ∧ "-->".toList <:+: text.drop 2 := by
  constructor
  · rintro ⟨body, after, rfl⟩
    refine ⟨⟨body ++ "-->".toList ++ after, ?_⟩, body, after, ?_⟩ <;> simp
  · rintro ⟨⟨inner, rfl⟩, body, after, eq⟩
    refine ⟨body, after, ?_⟩
    rw [List.append_assoc, List.append_assoc, ← List.append_assoc body, eq]
    rfl

theorem opensWithComment_of_run {body more : List Char} {dashes : Nat} (enough : 2 ≤ dashes) :
    OpensWithComment ("--".toList ++ body ++ List.replicate dashes '-' ++ '>' :: more) := by
  obtain ⟨extra, rfl⟩ := Nat.exists_eq_add_of_le' enough
  refine ⟨body ++ List.replicate extra '-', more, ?_⟩
  rw [← List.replicate_append_replicate]
  simp

/-- From wherever operations lead, a comment is read through the first `-->` behind its opening. A
reader that finds none has read as far as it took to see so, and has ended no token. -/
theorem readComment_through {text : String} {cursor : Cursor}
    (reachable : Cursor.Reachable text cursor) :
    ∃ (rest : String) (accepted : Bool) (passed : List Char) (after : Cursor),
      cursor.rest = .ok rest ∧ CommentThrough rest.toList accepted passed ∧
      readComment cursor = .ok (accepted, after) ∧ cursor.ReadOn passed after ∧
      after.committed = (if accepted then some after.position else cursor.committed) ∧
      (accepted = true ↔
        "--".toList <+: rest.toList ∧ "-->".toList <:+: rest.toList.drop 2) ∧
      (∀ body dashes more, 2 ≤ dashes → rest.toList =
        "--".toList ++ body ++ List.replicate dashes '-' ++ '>' :: more → accepted = true) ∧
      (accepted = false → "--".toList <+: rest.toList → after.atEnd = true) := by
  obtain ⟨rest, unread, recognized⟩ := reachable.exists_readOn
  obtain ⟨after, ran, followed, readOn, committed⟩ := recognized .comment
  have through := commentScript_through rest.toList
  have accepts := commentScript_accepted_iff rest.toList
  refine ⟨rest, (commentScript rest.toList).accepted, _, after, unread, through, ran, readOn,
    ?_, accepts.trans opensWithComment_iff, ?_, ?_⟩
  · split
    next accepted => exact committed accepted
    next rejected =>
      rw [Bool.not_eq_true] at rejected
      exact Cursor.committed_follow (commentScript_rejected rejected) followed
  · intro body dashes more enough eq
    rw [accepts, eq]
    exact opensWithComment_of_run enough
  · intro rejected opened
    rw [rejected] at through
    exact (readOn.atEnd_iff unread).mpr (through.eq_of_opened opened)

/-- The dashes that open this comment are followed by `->`, which does not close it. -/
theorem readComment_through_dash_behind_opening : ∃ opened skipped rest accepted passed after,
    Cursor.ofText "é---> - -->" = .ok opened ∧ opened.advance true = .ok skipped ∧
    Cursor.Reachable "é---> - -->" skipped ∧ skipped.rest = .ok rest ∧
    CommentThrough rest.toList accepted passed ∧ readComment skipped = .ok (accepted, after) ∧
    skipped.ReadOn passed after ∧
    after.committed = (if accepted then some after.position else skipped.committed) ∧
    accepted = true ∧ after.position = 12 := by
  have fits : "é---> - -->".utf8ByteSize < offsetLimit := by decide
  obtain ⟨cursor, opened⟩ := Cursor.exists_ofText fits
  have ran : (Cursor.ofText "é---> - -->" >>= Cursor.advance true >>= readComment).toOption.map
      (fun (accepted, after) => (accepted, after.position)) = some (true, 12) := by
    decide +kernel
  obtain ⟨⟨accepted, after⟩, stepped, outcome⟩ := exists_of_toOption_map ran
  rw [opened, ok_bind] at stepped
  obtain ⟨skipped, skip, read⟩ := bind_eq_ok_iff.mp stepped
  have reachable := Cursor.Reachable.advance (.opened opened) skip
  obtain ⟨rest, found, passed, last, unread, through, again, readOn, committed, _⟩ :=
    readComment_through reachable
  cases Except.ok.inj (read.symm.trans again)
  obtain ⟨closed, place⟩ := Prod.mk.inj outcome
  exact ⟨cursor, skipped, rest, accepted, passed, after, opened, skip, reachable, unread, through,
    read, readOn, committed, closed, place⟩

end TemplateScanner
