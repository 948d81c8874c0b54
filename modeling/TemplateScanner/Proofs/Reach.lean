import TemplateScanner.Proofs.Boundary
import TemplateScanner.Proofs.CommentGrammar

namespace TemplateScanner

theorem Script.count_after_advance (script : Script) :
    (script.after .advance).events.count .advance = script.events.count .advance + 1 :=
  List.count_cons_self

theorem Script.count_after_commit (script : Script) :
    (script.after .commit).events.count .advance = script.events.count .advance :=
  List.count_cons_of_ne (by decide)

namespace ClosingPair

/-- The number of characters read through a pair, when none of it has been read. -/
def reach (pair : ClosingPair) (rest : List Char) : Nat :=
  (pair.script false rest).events.count .advance

/-- A first half that is not completed is passed like any other character. -/
theorem script_cons_cons (pair : ClosingPair) (c d : Char) (rest : List Char) :
    pair.script false (c :: d :: rest) =
      if c = pair.first ∧ d = pair.second then ⟨true, [.advance, .advance, .commit]⟩
      else ((pair.script false (d :: rest)).after .commit).after .advance := by
  conv => lhs; rw [script]
  by_cases first : c = pair.first
  · rw [if_pos first]
    conv => lhs; rw [script]
    by_cases second : d = pair.second
    · rw [if_pos second, if_pos ⟨first, second⟩]
      rfl
    · rw [if_neg second, if_neg fun both => second both.2]
  · rw [if_neg first, if_neg fun both => first both.1]

theorem script_singleton (pair : ClosingPair) (c : Char) : pair.script false [c] =
    ⟨true, .advance :: .commit :: if c = pair.first then [] else [.commit]⟩ := by
  rw [script]
  split <;> rw [script] <;> rfl

theorem reach_singleton (pair : ClosingPair) (c : Char) : pair.reach [c] = 1 := by
  rw [reach, script_singleton]
  split <;> rfl

/-- The pair ends the reading where it first stands, and a first half that is not completed may
itself be followed by the pair. -/
theorem reach_cons_cons (pair : ClosingPair) (c d : Char) (rest : List Char) :
    pair.reach (c :: d :: rest) =
      if c = pair.first ∧ d = pair.second then 2 else pair.reach (d :: rest) + 1 := by
  rw [reach, script_cons_cons]
  split
  next => rfl
  next => rw [Script.count_after_advance, Script.count_after_commit, reach]

theorem reach_pos (pair : ClosingPair) {rest : List Char} (more : rest ≠ []) :
    0 < pair.reach rest := by
  match rest with
  | [] => exact absurd rfl more
  | [c] =>
    rw [reach_singleton]
    exact Nat.one_pos
  | c :: d :: rest =>
    rw [reach_cons_cons]
    split <;> omega

/-- A text cut after each occurrence of a pair, from the left, so that no two of them overlap. -/
def cut (pair : ClosingPair) : List Char → List (List Char)
  | [] => []
  | [c] => [[c]]
  | c :: d :: rest =>
    if c = pair.first ∧ d = pair.second then [c, d] :: pair.cut rest
    else
      match pair.cut (d :: rest) with
      | [] => [[c]]
      | piece :: pieces => (c :: piece) :: pieces

theorem cut_eq (pair : ClosingPair) {rest : List Char} (more : rest ≠ []) :
    pair.cut rest = rest.take (pair.reach rest) :: pair.cut (rest.drop (pair.reach rest)) := by
  fun_induction cut pair rest with
  | case1 => exact absurd rfl more
  | case2 c =>
    rw [reach_singleton]
    rfl
  | case3 c d rest found ih =>
    rw [reach_cons_cons, if_pos found]
    rfl
  | case4 c d rest other empty ih =>
    have piece := ih (List.cons_ne_nil d rest)
    rw [empty] at piece
    cases piece
  | case5 c d rest other piece pieces eq ih =>
    have cut := ih (List.cons_ne_nil d rest)
    rw [eq, List.cons.injEq] at cut
    rw [reach_cons_cons, if_neg other, List.take_succ_cons, List.drop_succ_cons, cut.1, cut.2]

end ClosingPair

example : ClosingPair.expression.cut ['}', 'a', '}', '}', '}'] = [['}', 'a', '}', '}'], ['}']] := by
  decide

/-- The pair that a token of a kind is read through. -/
def Kind.pair? : Kind → Option ClosingPair
  | expression => some .expression
  | statement => some .statement
  | _ => none

theorem Kind.reach_of_pair {kind : Kind} {pair : ClosingPair} (through : kind.pair? = some pair)
    (rest : List Char) : kind.reach rest = pair.reach rest := by
  cases kind with
  | expression =>
    cases Option.some.inj through
    exact Script.count_after_commit _
  | statement =>
    cases Option.some.inj through
    exact Script.count_after_commit _
  | comment => cases through
  | argument => cases through
  | content => cases through

theorem contentScript_stops (escaped : Bool) (rest : List Char) :
    ∀ c ∈ (rest.drop ((contentScript escaped rest).events.count .advance)).head?,
      isStop c = true := by
  induction rest generalizing escaped with
  | nil => simp
  | cons c rest ih =>
    rw [contentScript]
    by_cases stops : (isStop c && !escaped) = true
    · rw [if_pos stops]
      intro d head
      cases Option.some.inj head
      exact (Bool.and_eq_true_iff.mp stops).1
    · rw [if_neg stops, Script.count_after_advance, Script.count_after_commit, List.drop_succ_cons]
      exact ih (escapedAfter escaped c)

/-- Plain text ends where the input does or a stop follows. -/
theorem Kind.content_stops (rest : List Char) :
    ∀ c ∈ (rest.drop (Kind.content.reach rest)).head?, isStop c = true := by
  have stops := contentScript_stops false rest
  rwa [← Script.count_after_commit] at stops

theorem Kind.reach_content_of_stop {rest : List Char} (stops : ∀ c ∈ rest.head?, isStop c = true) :
    Kind.content.reach rest = 0 := by
  have none : (contentScript false rest).events.count .advance = 0 := by
    cases rest with
    | nil => rfl
    | cons c rest =>
      rw [contentScript, stops c rfl]
      rfl
  rw [← none]
  exact Script.count_after_commit _

theorem argumentScript_reach_pos (depth : Depth) {rest : List Char} (more : rest ≠ []) :
    0 < (argumentScript depth rest).events.count .advance := by
  cases rest with
  | nil => exact absurd rfl more
  | cons c rest =>
    rw [argumentScript]
    split
    next =>
      rw [List.count_cons_self]
      exact Nat.succ_pos _
    next =>
      rw [Script.count_after_advance]
      exact Nat.succ_pos _

theorem commentScript_reach_pos {rest : List Char}
    (accepted : (commentScript rest).accepted = true) :
    0 < (commentScript rest).events.count .advance := by
  obtain ⟨body, after, rfl⟩ := (commentScript_accepted_iff rest).mp accepted
  have opened : commentScript ("--".toList ++ body ++ "-->".toList ++ after) =
      ((commentBody 0 (body ++ "-->".toList ++ after)).after .advance).after .advance := rfl
  rw [opened, Script.count_after_advance]
  exact Nat.succ_pos _

/-- Only plain text can be empty. -/
theorem Kind.reach_pos {kind : Kind} {rest : List Char} (ne : kind ≠ .content) (more : rest ≠ [])
    (accepted : (kind.script rest).accepted = true) : 0 < kind.reach rest := by
  cases kind with
  | expression =>
    rw [reach_of_pair rfl]
    exact ClosingPair.reach_pos _ more
  | statement =>
    rw [reach_of_pair rfl]
    exact ClosingPair.reach_pos _ more
  | comment => exact commentScript_reach_pos accepted
  | argument =>
    have pos := argumentScript_reach_pos Depth.top more
    rwa [← Script.count_after_commit] at pos
  | content => exact absurd rfl ne

end TemplateScanner
