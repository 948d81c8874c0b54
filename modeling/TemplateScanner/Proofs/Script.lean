import TemplateScanner.Dispatch
import TemplateScanner.Proofs.Contract

namespace TemplateScanner

/-- What a recognizer does to a host, and what it says then. -/
structure Script where
  accepted : Bool
  events : List Event
deriving DecidableEq, Repr

namespace Script

def run {σ : Type} [Host σ] (script : Script) (host : σ) : Except Fault (Bool × σ) := do
  let host ← follow script.events host
  .ok (script.accepted, host)

/-- The script that does an event first. -/
def after (event : Event) (script : Script) : Script :=
  ⟨script.accepted, event :: script.events⟩

theorem run_commit {σ : Type} [Host σ] (script : Script) (host : σ) :
    (script.after .commit).run host = script.run (Host.commit host) := rfl

theorem run_advance {σ : Type} [Host σ] (script : Script) {host next : σ}
    (advanced : Host.advance false host = .ok next) :
    (script.after .advance).run host = script.run next := by
  simp only [run, after, follow, Event.perform, advanced, ok_bind]

end Script

/-- What reading through a pair does to the characters still to be read. -/
def ClosingPair.script (pair : ClosingPair) : Bool → List Char → Script
  | _, [] => ⟨true, [.commit]⟩
  | false, c :: rest =>
    if c = pair.first then (pair.script true rest).after .advance
    else ((pair.script false rest).after .commit).after .advance
  | true, c :: rest =>
    if c = pair.second then ⟨true, [.advance, .commit]⟩
    else (pair.script false (c :: rest)).after .commit
termination_by half rest => 2 * rest.length + half.toNat

/-- What reading a comment does after its opening and a run of dashes. -/
def commentBody : Nat → List Char → Script
  | _, [] => ⟨false, []⟩
  | dashes, c :: rest =>
    if c = '>' ∧ 2 ≤ dashes then ⟨true, [.advance, .commit]⟩
    else (commentBody (if c = '-' then dashes + 1 else 0) rest).after .advance

def commentScript : List Char → Script
  | [] => ⟨false, []⟩
  | [c] => if c = '-' then ⟨false, [.advance]⟩ else ⟨false, []⟩
  | c :: d :: rest =>
    if c = '-' then
      if d = '-' then ((commentBody 0 rest).after .advance).after .advance
      else ⟨false, [.advance]⟩
    else ⟨false, []⟩

def contentScript : Bool → List Char → Script
  | _, [] => ⟨true, []⟩
  | escaped, c :: rest =>
    if isStop c && !escaped then ⟨true, []⟩
    else ((contentScript (escapedAfter escaped c) rest).after .commit).after .advance

/-- The depth once a character has been read, however deep that is. -/
def Depth.next (depth : Depth) (c : Char) : Depth :=
  if c = '(' then { depth with parens := depth.parens + 1 }
  else if c = ')' then { depth with parens := depth.parens - 1 }
  else if c = '[' then { depth with brackets := depth.brackets + 1 }
  else if c = ']' then { depth with brackets := depth.brackets - 1 }
  else depth

def argumentScript : Depth → List Char → Script
  | _, [] => ⟨true, []⟩
  | depth, c :: rest =>
    if depth.endsAt c then
      ⟨true, .advance ::
        (List.replicate (rest.takeWhile isFiller).length .advance ++ [.commit])⟩
    else ((argumentScript (depth.next c) rest).after .commit).after .advance

/-- What the recognizer of a kind does to the characters still to be read. -/
def Kind.script (kind : Kind) (rest : List Char) : Script :=
  match kind with
  | expression => (ClosingPair.expression.script false rest).after .commit
  | statement => (ClosingPair.statement.script false rest).after .commit
  | comment => commentScript rest
  | argument => (argumentScript Depth.top rest).after .commit
  | content => (contentScript false rest).after .commit

section Contract

variable {σ : Type} [Host σ] {reads : σ → List Char → List Char → Prop} {host : σ}
  {start rest : List Char}

theorem ClosingPair.readWithin_eq (contract : Contract σ reads) (pair : ClosingPair)
    {budget : Nat} {half : Bool} (h : reads host start rest)
    (enough : 2 * rest.length + half.toNat < budget) :
    pair.readWithin budget half host = (pair.script half rest).run host := by
  induction budget generalizing half host rest with
  | zero => omega
  | succ budget ih =>
    cases rest with
    | nil =>
      rw [readWithin, contract.atEnd h, script]
      rfl
    | cons c rest =>
      obtain ⟨next, advanced, hn⟩ := contract.advance false h
      simp only [List.length_cons, List.tail_cons] at enough hn
      rw [readWithin, contract.atEnd h, contract.peek h]
      simp only [List.isEmpty_cons, Bool.false_eq_true, if_false, ok_bind, List.headD_cons,
        advanced]
      cases half with
      | true =>
        simp only [Bool.toNat_true, if_true] at enough ⊢
        rw [script]
        by_cases found : c = pair.second
        · rw [if_pos found, if_pos found]
          exact (Script.run_advance ⟨true, [.commit]⟩ advanced).symm
        · rw [if_neg found, if_neg found]
          exact ih (contract.commit h) (by rw [List.length_cons, Bool.toNat_false]; omega)
      | false =>
        simp only [Bool.toNat_false, Bool.false_eq_true, if_false] at enough ⊢
        rw [script]
        by_cases found : c = pair.first
        · rw [if_pos found, if_pos found, Script.run_advance _ advanced]
          exact ih hn (by rw [Bool.toNat_true]; omega)
        · rw [if_neg found, if_neg found, Script.run_advance _ advanced, Script.run_commit]
          exact ih (contract.commit hn) (by rw [Bool.toNat_false]; omega)

theorem ClosingPair.read_eq (contract : Contract σ reads) (h : reads host start rest)
    (pair : ClosingPair) : pair.read host = ((pair.script false rest).after .commit).run host := by
  have hc := contract.commit h
  have room := contract.unread h
  exact readWithin_eq contract pair hc (by rw [Bool.toNat_false]; omega)

theorem readDash_dash (contract : Contract σ reads) {next : σ} (h : reads host start ('-' :: rest))
    (advanced : Host.advance false host = .ok next) : readDash host = .ok (true, next) := by
  rw [readDash, contract.peek h]
  simp only [ok_bind, List.headD_cons, if_true, advanced]

theorem readDash_other (contract : Contract σ reads) (h : reads host start rest)
    (other : rest.head? ≠ some '-') : readDash host = .ok (false, host) := by
  rw [readDash, contract.peek h]
  cases rest with
  | nil => rfl
  | cons c rest =>
    have other : c ≠ '-' := by simpa using other
    simp only [ok_bind, List.headD_cons, if_neg other]

theorem readCommentWithin_eq (contract : Contract σ reads) {budget dashes : Nat}
    (h : reads host start rest) (enough : rest.length < budget)
    (few : dashes + rest.length < offsetLimit) :
    readCommentWithin budget dashes host = (commentBody dashes rest).run host := by
  induction budget generalizing dashes host rest with
  | zero => omega
  | succ budget ih =>
    cases rest with
    | nil =>
      rw [readCommentWithin, contract.atEnd h, commentBody]
      rfl
    | cons c rest =>
      obtain ⟨next, advanced, hn⟩ := contract.advance false h
      simp only [List.length_cons, List.tail_cons] at enough few hn
      rw [readCommentWithin, contract.atEnd h, contract.peek h, commentBody]
      simp only [List.isEmpty_cons, Bool.false_eq_true, if_false, ok_bind, List.headD_cons]
      by_cases closed : c = '>' ∧ 2 ≤ dashes
      · rw [if_pos closed, if_pos closed, advanced]
        exact (Script.run_advance ⟨true, [.commit]⟩ advanced).symm
      · rw [if_neg closed, if_neg closed, Script.run_advance _ advanced]
        by_cases dash : c = '-'
        · rw [if_pos dash, if_pos dash, checkedAdd_of_lt (by omega), ok_bind, advanced]
          exact ih hn (by omega) (by omega)
        · rw [if_neg dash, if_neg dash, advanced]
          exact ih hn (by omega) (by omega)

theorem readComment_eq (contract : Contract σ reads) (h : reads host start rest) :
    readComment host = (commentScript rest).run host := by
  match rest with
  | [] =>
    rw [readComment, readDash_other contract h (by simp)]
    rfl
  | c :: rest =>
    obtain ⟨next, advanced, hn⟩ := contract.advance false h
    rw [List.tail_cons] at hn
    by_cases first : c = '-'
    · subst first
      rw [readComment, readDash_dash contract h advanced]
      match rest with
      | [] =>
        simp only [ok_bind, if_true, readDash_other contract hn (by simp)]
        exact (Script.run_advance ⟨false, []⟩ advanced).symm
      | d :: rest =>
        obtain ⟨last, again, hl⟩ := contract.advance false hn
        rw [List.tail_cons] at hl
        by_cases second : d = '-'
        · subst second
          have opened := contract.short h
          have enough := contract.unread hl
          simp only [List.length_cons] at opened
          simp only [ok_bind, if_true, readDash_dash contract hn again, commentScript]
          rw [Script.run_advance _ advanced, Script.run_advance _ again]
          exact readCommentWithin_eq contract hl (by omega) (by omega)
        · simp only [ok_bind, if_true, readDash_other contract hn (by simpa using second),
            commentScript, if_neg second]
          exact (Script.run_advance ⟨false, []⟩ advanced).symm
    · rw [readComment, readDash_other contract h (by simpa using first)]
      cases rest <;> simp only [commentScript, if_neg first] <;> rfl

theorem readContentWithin_eq (contract : Contract σ reads) {budget : Nat} {escaped : Bool}
    (h : reads host start rest) (enough : rest.length < budget) :
    readContentWithin budget escaped host = (contentScript escaped rest).run host := by
  induction budget generalizing escaped host rest with
  | zero => omega
  | succ budget ih =>
    cases rest with
    | nil =>
      rw [readContentWithin, contract.atEnd h, contentScript]
      rfl
    | cons c rest =>
      obtain ⟨next, advanced, hn⟩ := contract.advance false h
      have hnc := contract.commit hn
      simp only [List.length_cons, List.tail_cons] at enough hnc
      rw [readContentWithin, contract.atEnd h, contract.peek h, contentScript]
      simp only [List.isEmpty_cons, Bool.false_eq_true, if_false, ok_bind, List.headD_cons]
      by_cases stopped : (isStop c && !escaped) = true
      · rw [if_pos stopped, if_pos stopped]
        rfl
      · rw [if_neg stopped, if_neg stopped, advanced, Script.run_advance _ advanced]
        exact (ih hnc (by omega)).trans (Script.run_commit _ next).symm

theorem Depth.after_eq {depth : Depth} (c : Char) (parens : depth.parens + 1 < offsetLimit)
    (brackets : depth.brackets + 1 < offsetLimit) : depth.after c = .ok (depth.next c) := by
  unfold Depth.after Depth.next
  rw [checkedAdd_of_lt parens, checkedAdd_of_lt brackets]
  split
  next => rfl
  next =>
    split
    next => rfl
    next =>
      split
      next => rfl
      next => split <;> rfl

theorem Depth.next_le (depth : Depth) (c : Char) :
    (depth.next c).parens ≤ depth.parens + 1 ∧ (depth.next c).brackets ≤ depth.brackets + 1 := by
  grind [Depth.next]

theorem readFillerWithin_eq (contract : Contract σ reads) {budget : Nat}
    (h : reads host start rest) (enough : rest.length < budget) :
    readFillerWithin budget host =
      follow (List.replicate (rest.takeWhile isFiller).length .advance) host := by
  induction budget generalizing host rest with
  | zero => omega
  | succ budget ih =>
    rw [readFillerWithin, contract.peek h]
    cases rest with
    | nil => rfl
    | cons c rest =>
      obtain ⟨next, advanced, hn⟩ := contract.advance false h
      simp only [List.length_cons, List.tail_cons] at enough hn
      simp only [ok_bind, List.headD_cons]
      by_cases filler : isFiller c = true
      · rw [if_pos filler, advanced, List.takeWhile_cons_of_pos filler, List.length_cons,
          List.replicate_succ, follow, Event.perform, advanced]
        exact ih hn (by omega)
      · rw [if_neg filler, List.takeWhile_cons_of_neg filler]
        rfl

theorem readArgumentWithin_eq (contract : Contract σ reads) {budget : Nat} {depth : Depth}
    (h : reads host start rest) (enough : rest.length < budget)
    (parens : depth.parens + rest.length < offsetLimit)
    (brackets : depth.brackets + rest.length < offsetLimit) :
    readArgumentWithin budget depth host = (argumentScript depth rest).run host := by
  induction budget generalizing depth host rest with
  | zero => omega
  | succ budget ih =>
    cases rest with
    | nil =>
      rw [readArgumentWithin, contract.atEnd h, argumentScript]
      rfl
    | cons c rest =>
      obtain ⟨next, advanced, hn⟩ := contract.advance false h
      simp only [List.length_cons, List.tail_cons] at enough parens brackets hn
      rw [readArgumentWithin, contract.atEnd h, contract.peek h, argumentScript]
      simp only [List.isEmpty_cons, Bool.false_eq_true, if_false, ok_bind, List.headD_cons]
      by_cases ended : depth.endsAt c = true
      · have room := contract.unread hn
        rw [if_pos ended, if_pos ended, advanced, ok_bind,
          readFillerWithin_eq contract hn (by omega), Script.run, follow, Event.perform, advanced,
          ok_bind, follow_append]
        obtain ⟨last, followed, _⟩ :=
          contract.follow hn (List.replicate (rest.takeWhile isFiller).length .advance)
        rw [followed]
        rfl
      · have le := depth.next_le c
        rw [if_neg ended, if_neg ended, depth.after_eq c (by omega) (by omega), advanced,
          Script.run_advance _ advanced, ok_bind, ok_bind]
        exact (ih (contract.commit hn) (by omega) (by omega) (by omega)).trans
          (Script.run_commit _ next).symm

/-- What a recognizer does is told by the characters still to be read, whatever the host. -/
theorem recognize_eq (contract : Contract σ reads) (h : reads host start rest) (kind : Kind) :
    recognize kind host = (kind.script rest).run host := by
  have hc := contract.commit h
  have room := contract.unread h
  have more := contract.unread hc
  have short := contract.short h
  cases kind with
  | expression => exact ClosingPair.read_eq contract h _
  | statement => exact ClosingPair.read_eq contract h _
  | comment => exact readComment_eq contract h
  | argument =>
    exact readArgumentWithin_eq contract hc (by omega) (by simp [Depth.top]; omega)
      (by simp [Depth.top]; omega)
  | content => exact readContentWithin_eq contract hc (by omega)

end Contract

end TemplateScanner
