import TemplateScanner.Proofs.Pieces

namespace TemplateScanner

/-- Text that a recognizer cannot tell from the text that stood after its token: none at all, or
text that begins with the same character. -/
def MayFollow (after more : List Char) : Prop :=
  more = [] ∨ more.head? = after.head?

theorem MayFollow.eq_nil {more : List Char} (follows : MayFollow [] more) : more = [] := by
  rcases follows with nil | same
  · exact nil
  · simpa using same

theorem MayFollow.append {after more : List Char} (inside : after ≠ [] ∨ more = []) :
    MayFollow after (after ++ more) := by
  rcases inside with ne | rfl
  · obtain ⟨c, rest, rfl⟩ := List.exists_cons_of_ne_nil ne
    exact .inr rfl
  · rw [List.append_nil]
    exact .inr rfl

theorem takeWhile_append_of_stops {p : Char → Bool} {run more : List Char}
    (inside : ∀ c ∈ run, p c = true) (stops : ∀ c ∈ more.head?, p c = false) :
    (run ++ more).takeWhile p = run := by
  have none : more.takeWhile p = [] := by
    cases more with
    | nil => rfl
    | cons c more =>
      have refused := stops c rfl
      exact List.takeWhile_cons_of_neg (by simp [refused])
  rw [List.takeWhile_append_of_pos inside, none, List.append_nil]

theorem dropWhile_append_of_stops {p : Char → Bool} {run more : List Char}
    (inside : ∀ c ∈ run, p c = true) (stops : ∀ c ∈ more.head?, p c = false) :
    (run ++ more).dropWhile p = more := by
  have whole := List.takeWhile_append_dropWhile (p := p) (l := run ++ more)
  rw [takeWhile_append_of_stops inside stops] at whole
  exact List.append_cancel_left whole

theorem MayFollow.stops {p : Char → Bool} {rest more : List Char}
    (follows : MayFollow (rest.dropWhile p) more) : ∀ c ∈ more.head?, p c = false := by
  intro c head
  rcases follows with rfl | same
  · cases head
  · have first := List.head?_dropWhile_not p rest
    rw [← same, head] at first
    simpa using first

theorem ClosingPair.reach_lookahead (pair : ClosingPair) {rest more : List Char}
    (follows : MayFollow (rest.drop (pair.reach rest)) more) :
    pair.reach (rest.take (pair.reach rest) ++ more) = pair.reach rest := by
  induction rest with
  | nil =>
    rw [List.drop_nil] at follows
    rw [follows.eq_nil, List.take_nil, List.append_nil]
  | cons c rest ih =>
    cases rest with
    | nil =>
      rw [reach_singleton] at follows ⊢
      rw [follows.eq_nil]
      exact pair.reach_singleton c
    | cons d rest =>
      rw [reach_cons_cons] at follows ⊢
      by_cases found : c = pair.first ∧ d = pair.second
      · rw [if_pos found]
        exact (pair.reach_cons_cons c d more).trans (if_pos found)
      · rw [if_neg found, List.drop_succ_cons] at follows
        rw [if_neg found, List.take_succ_cons]
        have later := ih follows
        -- The second character is read too, so that the pair is looked for at the same place.
        obtain ⟨n, pos⟩ := Nat.exists_eq_succ_of_ne_zero
          (Nat.ne_of_gt (pair.reach_pos (List.cons_ne_nil d rest)))
        rw [pos, List.take_succ_cons, List.cons_append] at later ⊢
        rw [List.cons_append, reach_cons_cons, if_neg found, later]

theorem commentBody_lookahead {dashes : Nat} {rest : List Char} (more : List Char)
    (accepted : (commentBody dashes rest).accepted = true) :
    commentBody dashes
        (rest.take ((commentBody dashes rest).events.count .advance) ++ more) =
      commentBody dashes rest := by
  induction rest generalizing dashes with
  | nil => cases accepted
  | cons c rest ih =>
    rw [commentBody] at accepted ⊢
    by_cases closed : c = '>' ∧ 2 ≤ dashes
    · rw [if_pos closed]
      exact if_pos closed
    · rw [if_neg closed] at accepted ⊢
      have later := ih accepted
      rw [Script.count_after_advance, List.take_succ_cons, List.cons_append, commentBody,
        if_neg closed, later]

theorem commentScript_lookahead {rest : List Char} (more : List Char)
    (accepted : (commentScript rest).accepted = true) :
    commentScript (rest.take ((commentScript rest).events.count .advance) ++ more) =
      commentScript rest := by
  obtain ⟨body, after, rfl⟩ := (commentScript_accepted_iff rest).mp accepted
  have opened : ∀ inner, commentScript ('-' :: '-' :: inner) =
      ((commentBody 0 inner).after .advance).after .advance := fun inner => rfl
  have shape : "--".toList ++ body ++ "-->".toList ++ after =
      '-' :: '-' :: (body ++ "-->".toList ++ after) := by simp
  rw [shape, opened] at accepted ⊢
  have later := commentBody_lookahead more accepted
  rw [Script.count_after_advance, Script.count_after_advance, List.take_succ_cons,
    List.take_succ_cons, List.cons_append, List.cons_append, opened, later]

theorem contentScript_lookahead {escaped : Bool} {rest more : List Char}
    (follows : MayFollow (rest.drop ((contentScript escaped rest).events.count .advance)) more) :
    (contentScript escaped
        (rest.take ((contentScript escaped rest).events.count .advance) ++ more)).events.count
        .advance =
      (contentScript escaped rest).events.count .advance := by
  induction rest generalizing escaped with
  | nil =>
    rw [List.drop_nil] at follows
    rw [follows.eq_nil, List.take_nil, List.append_nil]
  | cons c rest ih =>
    rw [contentScript] at follows ⊢
    by_cases stops : (isStop c && !escaped) = true
    · rw [if_pos stops] at follows ⊢
      rcases follows with rfl | same
      · rfl
      · obtain ⟨tail, rfl⟩ := List.head?_eq_some_iff.mp same
        show (contentScript escaped (c :: tail)).events.count .advance = 0
        rw [contentScript, if_pos stops]
        rfl
    · rw [if_neg stops, Script.count_after_advance, Script.count_after_commit,
        List.drop_succ_cons] at follows
      rw [if_neg stops, Script.count_after_advance, Script.count_after_commit,
        List.take_succ_cons, List.cons_append, contentScript, if_neg stops,
        Script.count_after_advance, Script.count_after_commit, ih follows]

theorem count_argument_end (rest : List Char) :
    (Event.advance :: (List.replicate (rest.takeWhile isFiller).length Event.advance ++
      [.commit])).count .advance = (rest.takeWhile isFiller).length + 1 := by
  simp

theorem argumentScript_lookahead {depth : Depth} {rest more : List Char}
    (follows : MayFollow (rest.drop ((argumentScript depth rest).events.count .advance)) more) :
    (argumentScript depth
        (rest.take ((argumentScript depth rest).events.count .advance) ++ more)).events.count
        .advance =
      (argumentScript depth rest).events.count .advance := by
  induction rest generalizing depth with
  | nil =>
    rw [List.drop_nil] at follows
    rw [follows.eq_nil, List.take_nil, List.append_nil]
  | cons c rest ih =>
    rw [argumentScript] at follows ⊢
    by_cases ended : depth.endsAt c = true
    · rw [if_pos ended, count_argument_end, List.drop_succ_cons] at follows
      rw [if_pos ended, count_argument_end, List.take_succ_cons, List.cons_append,
        argumentScript, if_pos ended, count_argument_end]
      have filler := List.prefix_iff_eq_take.mp (rest.takeWhile_prefix isFiller)
      have after : (rest.takeWhile isFiller ++ rest.dropWhile isFiller).drop
          (rest.takeWhile isFiller).length = rest.dropWhile isFiller := List.drop_left
      rw [List.takeWhile_append_dropWhile] at after
      -- The filler was read up to a character that is none, so none of the text behind joins it.
      rw [after] at follows
      rw [← filler, takeWhile_append_of_stops (List.all_eq_true.mp List.all_takeWhile)
        follows.stops]
    · rw [if_neg ended, Script.count_after_advance, Script.count_after_commit,
        List.drop_succ_cons] at follows
      rw [if_neg ended, Script.count_after_advance, Script.count_after_commit,
        List.take_succ_cons, List.cons_append, argumentScript, if_neg ended,
        Script.count_after_advance, Script.count_after_commit, ih follows]

theorem Kind.reach_argument (rest : List Char) : Kind.argument.reach rest =
    (argumentScript Depth.top rest).events.count .advance :=
  Script.count_after_commit _

theorem Kind.reach_content (rest : List Char) : Kind.content.reach rest =
    (contentScript false rest).events.count .advance :=
  Script.count_after_commit _

/-- One character after a token decides where the token ends, whatever stands behind that. -/
theorem Kind.script_lookahead {kind : Kind} {rest more : List Char}
    (accepted : (kind.script rest).accepted = true)
    (follows : MayFollow (rest.drop (kind.reach rest)) more) :
    (kind.script (rest.take (kind.reach rest) ++ more)).accepted = true ∧
      kind.reach (rest.take (kind.reach rest) ++ more) = kind.reach rest := by
  by_cases comment : kind = .comment
  · subst comment
    have same := commentScript_lookahead more accepted
    refine ⟨?_, congrArg (·.events.count .advance) same⟩
    exact (congrArg Script.accepted same).trans accepted
  · refine ⟨Kind.script_accepted comment _, ?_⟩
    have paired : ∀ pair, kind.pair? = some pair →
        kind.reach (rest.take (kind.reach rest) ++ more) = kind.reach rest := by
      intro pair through
      rw [reach_of_pair through] at follows
      rw [reach_of_pair through, reach_of_pair through]
      exact pair.reach_lookahead follows
    cases kind with
    | expression => exact paired _ rfl
    | statement => exact paired _ rfl
    | comment => exact absurd rfl comment
    | argument =>
      rw [reach_argument] at follows
      rw [reach_argument, reach_argument]
      exact argumentScript_lookahead follows
    | content =>
      rw [reach_content] at follows
      rw [reach_content, reach_content]
      exact contentScript_lookahead follows

theorem commentScript_rejected_take {rest : List Char}
    (rejected : (commentScript rest).accepted = false) (stop : Nat) :
    (commentScript (rest.take stop)).accepted = false := by
  cases cut : (commentScript (rest.take stop)).accepted with
  | false => rfl
  | true =>
    obtain ⟨body, after, eq⟩ := (commentScript_accepted_iff _).mp cut
    have opens : OpensWithComment rest := by
      refine ⟨body, after ++ rest.drop stop, ?_⟩
      rw [← List.append_assoc, ← eq, List.take_append_drop]
    rw [(commentScript_accepted_iff rest).mpr opens] at rejected
    cases rejected

theorem Request.fallback_ne_comment (request : Request) : request.fallback ≠ some .comment := by
  intro falls
  have mem := List.mem_of_find?_eq_some falls
  simp at mem

/-- A scan finds the same kind where its token is followed by other text, unless a comment that was
not there may come of that text. -/
theorem Request.finds_lookahead {request : Request} {rest more : List Char} {kind : Kind}
    (found : request.finds rest = some kind)
    (follows : MayFollow (rest.drop (kind.reach rest)) more)
    (safe : request.asksFor .comment = false ∨ kind = .comment ∨ more = []) :
    request.finds (rest.take (kind.reach rest) ++ more) = some kind := by
  have again := (Kind.script_lookahead (accepted_of_finds found) follows).1
  rw [finds_eq] at found ⊢
  split at found
  next comment =>
    cases Option.some.inj found
    rw [Bool.and_eq_true] at comment
    rw [comment.1, show (commentScript _).accepted = true from again]
    rfl
  next none =>
    have refused : (request.asksFor .comment && (commentScript
        (rest.take (kind.reach rest) ++ more)).accepted) = false := by
      rcases safe with unasked | rfl | rfl
      · rw [unasked, Bool.false_and]
      · exact absurd found request.fallback_ne_comment
      · rw [Bool.not_eq_true, Bool.and_eq_false_iff] at none
        rw [Bool.and_eq_false_iff, List.append_nil]
        exact none.imp_right fun rejected => commentScript_rejected_take rejected _
    rw [if_neg (by simp [refused])]
    exact found

section Append

variable {text tail : List Char} {kind : Kind}

theorem MayFollow.append_of_reach (inside : kind.reach text < text.length ∨ tail = []) :
    MayFollow (text.drop (kind.reach text)) (text.drop (kind.reach text) ++ tail) := by
  refine .append (inside.imp_left ?_)
  intro lt ended
  have past := List.drop_eq_nil_iff.mp ended
  omega

/-- A token that ends before its text does is the same in a longer text. -/
theorem Kind.script_append (accepted : (kind.script text).accepted = true)
    (inside : kind.reach text < text.length ∨ tail = []) :
    (kind.script (text ++ tail)).accepted = true ∧ kind.reach (text ++ tail) = kind.reach text := by
  have same := script_lookahead accepted (.append_of_reach inside)
  rwa [← List.append_assoc, List.take_append_drop] at same

theorem Request.finds_append {request : Request} (found : request.finds text = some kind)
    (inside : kind.reach text < text.length ∨ tail = [])
    (safe : request.asksFor .comment = false ∨ kind = .comment) :
    request.finds (text ++ tail) = some kind := by
  have same := finds_lookahead found (.append_of_reach inside)
    (safe.imp_right fun comment => .inl comment)
  rwa [← List.append_assoc, List.take_append_drop] at same

end Append

end TemplateScanner
