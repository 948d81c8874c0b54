import Mathlib.Algebra.Ring.Parity
import Mathlib.Data.List.DropRight
import TemplateScanner.Proofs.Commits
import TemplateScanner.Proofs.Lookahead

namespace TemplateScanner

/-- The backslashes behind the last stop of a text. -/
def backslashesSinceStop (text : List Char) : Nat :=
  (text.rtakeWhile (· ∉ ['<', '{', '%'])).count '\\'

/-- A stop stands at a place, with an even number of backslashes since the stop before it. -/
structure UnescapedStop (text : List Char) (place : Nat) : Prop where
  stop : ∃ c ∈ ['<', '{', '%'], text[place]? = some c
  even : Even (backslashesSinceStop (text.take place))

/-- What is read of a text as plain text: all before the first stop that is not escaped, or the
whole text if each is. -/
inductive ContentUpTo (text : List Char) : List Char → Prop where
  | stopped {place : Nat} : UnescapedStop text place →
    (∀ earlier, UnescapedStop text earlier → place ≤ earlier) → ContentUpTo text (text.take place)
  | unstopped : (∀ place, ¬UnescapedStop text place) → ContentUpTo text text

theorem isStop_iff {c : Char} : isStop c = true ↔ c ∈ ['<', '{', '%'] := by
  simp [isStop, or_assoc]

theorem backslashesSinceStop_concat (text : List Char) (c : Char) :
    backslashesSinceStop (text ++ [c]) =
      if isStop c then 0 else backslashesSinceStop text + if c = '\\' then 1 else 0 := by
  unfold backslashesSinceStop
  by_cases stop : isStop c = true
  · have outside : ¬decide (c ∉ ['<', '{', '%']) = true := by
      rw [decide_eq_true_iff, not_not]
      exact isStop_iff.mp stop
    rw [if_pos stop, List.rtakeWhile_concat, if_neg outside]
    rfl
  · have inside : decide (c ∉ ['<', '{', '%']) = true := decide_eq_true (mt isStop_iff.mpr stop)
    rw [if_neg stop, List.rtakeWhile_concat, if_pos inside, List.count_append,
      List.count_singleton]
    simp

/-- The next stop is escaped if the backslashes since the last one are odd in number. -/
def escapedBy (text : List Char) : Bool :=
  decide (Odd (backslashesSinceStop text))

theorem escapedAfter_escapedBy (text : List Char) (c : Char) :
    escapedAfter (escapedBy text) c = escapedBy (text ++ [c]) := by
  unfold escapedAfter escapedBy
  rw [backslashesSinceStop_concat]
  by_cases backslash : c = '\\'
  · subst backslash
    rw [if_pos rfl, if_neg (by decide), if_pos rfl, ← decide_not]
    exact decide_eq_decide.mpr Nat.odd_add_one.symm
  · rw [if_neg backslash, if_neg backslash]
    split <;> simp

theorem unescapedStop_length_iff {before rest : List Char} {c : Char} :
    UnescapedStop (before ++ c :: rest) before.length ↔
      (isStop c && !escapedBy before) = true := by
  have here : (before ++ c :: rest)[before.length]? = some c := by simp
  rw [Bool.and_eq_true, isStop_iff, escapedBy, ← decide_not, decide_eq_true_iff,
    Nat.not_odd_iff_even]
  constructor
  · rintro ⟨⟨d, stop, there⟩, even⟩
    obtain rfl := Option.some.inj (here.symm.trans there)
    exact ⟨stop, by rwa [List.take_left] at even⟩
  · rintro ⟨stop, even⟩
    exact ⟨⟨c, stop, here⟩, by rwa [List.take_left]⟩

/-- Plain text that is read on ends at the first stop that what was read before leaves unescaped. -/
theorem contentScript_stops_first (before rest : List Char) :
    (∀ place, before.length ≤ place →
      place < before.length + (contentScript (escapedBy before) rest).events.count .advance →
      ¬UnescapedStop (before ++ rest) place) ∧
    ((contentScript (escapedBy before) rest).events.count .advance = rest.length ∨
      UnescapedStop (before ++ rest)
        (before.length + (contentScript (escapedBy before) rest).events.count .advance)) := by
  induction rest generalizing before with
  | nil =>
    rw [contentScript]
    exact ⟨fun place past inside => absurd past (Nat.not_le_of_lt inside), .inl rfl⟩
  | cons c rest ih =>
    rw [contentScript]
    by_cases stops : (isStop c && !escapedBy before) = true
    · rw [if_pos stops]
      exact ⟨fun place past inside => absurd past (Nat.not_le_of_lt inside),
        .inr (unescapedStop_length_iff.mpr stops)⟩
    · obtain ⟨none, ended⟩ := ih (before ++ [c])
      rw [← escapedAfter_escapedBy] at none ended
      rw [List.append_assoc, List.singleton_append, List.length_append, List.length_singleton]
        at none ended
      rw [if_neg stops, Script.count_after_advance, Script.count_after_commit, List.length_cons,
        Nat.add_comm _ 1, ← Nat.add_assoc]
      refine ⟨?_, ended.imp_left (by omega)⟩
      intro place past inside
      rcases Nat.eq_or_lt_of_le past with rfl | past
      · exact mt unescapedStop_length_iff.mp stops
      · exact none place past inside

theorem UnescapedStop.lt_length {text : List Char} {place : Nat} (stop : UnescapedStop text place) :
    place < text.length := by
  obtain ⟨c, _, found⟩ := stop.stop
  exact (List.getElem?_eq_some_iff.mp found).1

theorem content_upTo (text : List Char) :
    ContentUpTo text (text.take (Kind.content.reach text)) ∧
      (∀ place < Kind.content.reach text, ¬UnescapedStop text place) ∧
      (Kind.content.reach text = text.length ∨ UnescapedStop text (Kind.content.reach text)) := by
  obtain ⟨none, ended⟩ := contentScript_stops_first [] text
  rw [show escapedBy [] = false from rfl, ← Kind.reach_content, List.nil_append, List.length_nil,
    Nat.zero_add] at none ended
  have before : ∀ place < Kind.content.reach text, ¬UnescapedStop text place :=
    fun place inside => none place (Nat.zero_le place) inside
  refine ⟨?_, before, ended⟩
  rcases ended with whole | stop
  · rw [whole, List.take_length]
    refine .unstopped fun place stop => before place ?_ stop
    rw [whole]
    exact stop.lt_length
  · refine .stopped stop fun earlier other => ?_
    exact Nat.le_of_not_lt fun lt => before earlier lt other

/-- Plain text is committed before its first character and after each. -/
theorem commitPlaces_contentScript (escaped : Bool) (rest : List Char) (read : Nat) :
    read :: commitPlaces read (contentScript escaped rest).events =
      List.range' read ((contentScript escaped rest).events.count .advance + 1) := by
  induction rest generalizing escaped read with
  | nil => rfl
  | cons c rest ih =>
    rw [contentScript]
    split
    next => rfl
    next =>
      rw [Script.count_after_advance, Script.count_after_commit, List.range'_succ, ← ih]
      rfl

/-- From wherever operations lead, plain text is read up to its first unescaped stop, or to the end
of the input, and the token ends there. All stops in it are escaped. It was committed at its start
and after each of its characters. -/
theorem readContent_upTo {text : String} {cursor : Cursor}
    (reachable : Cursor.Reachable text cursor) :
    ∃ (rest : String) (passed : List Char) (after : Cursor) (recorded : Recorded Cursor),
      cursor.rest = .ok rest ∧ ContentUpTo rest.toList passed ∧
      readContent cursor = .ok (true, after) ∧ cursor.ReadOn passed after ∧
      after.committed = some after.position ∧
      (∀ place c, passed[place]? = some c → c ∈ ['<', '{', '%'] →
        Odd (backslashesSinceStop (passed.take place))) ∧
      (after.atEnd = true ∨ UnescapedStop rest.toList passed.length) ∧
      readContent (Recorded.ofHost cursor) = .ok (true, recorded) ∧ recorded.host = after ∧
      cursor.commitsOf recorded.history = .ok ((List.range (passed.length + 1)).map fun read =>
        cursor.position + byteLength (passed.take read)) := by
  obtain ⟨rest, unread, recognized⟩ := reachable.exists_readOn
  obtain ⟨after, ran, followed, readOn, committed⟩ := recognized .content
  obtain ⟨recorded, again, same, history⟩ := reachable.recognize_recorded unread .content followed
  have accepted : (Kind.content.script rest.toList).accepted = true :=
    Kind.script_accepted (by decide) _
  have reach := Kind.content.reach_le rest.toList
  have length := List.length_take_of_le reach
  obtain ⟨upTo, escaped, ended⟩ := content_upTo rest.toList
  rw [accepted] at ran again
  refine ⟨rest, _, after, recorded, unread, upTo, ran, readOn, committed accepted, ?_, ?_, again,
    same, ?_⟩
  · intro place c found stop
    obtain ⟨inside, _⟩ := List.getElem?_eq_some_iff.mp found
    rw [length] at inside
    rw [List.getElem?_take_of_lt inside] at found
    rw [List.take_take, Nat.min_eq_left (Nat.le_of_lt inside), ← Nat.not_even_iff_odd]
    exact fun even => escaped place inside ⟨⟨c, stop, found⟩, even⟩
  · rw [length]
    refine ended.imp_left fun whole => (readOn.atEnd_iff unread).mpr ?_
    rw [whole, List.take_length]
  · have orderly := Kind.content.orderly rest.toList
    have places : commitPlaces 0 (Kind.content.script rest.toList).events =
        List.range (Kind.content.reach rest.toList + 1) := by
      rw [List.range_eq_range', Kind.reach_content]
      exact commitPlaces_contentScript false rest.toList 0
    rw [history, reachable.commitsOf_eq unread orderly.plain orderly.reach, places, length]
    refine congrArg Except.ok (List.map_congr_left fun read mem => ?_)
    rw [List.take_take, Nat.min_eq_left (Nat.le_of_lt_succ (List.mem_range.mp mem))]

/-- The first stop is escaped, and the two backslashes behind it escape each other. -/
theorem readContent_upTo_second_stop : ∃ opened skipped rest passed after recorded,
    Cursor.ofText "é\\<a\\\\\x7bb" = .ok opened ∧ opened.advance true = .ok skipped ∧
    Cursor.Reachable "é\\<a\\\\\x7bb" skipped ∧ skipped.rest = .ok rest ∧
    ContentUpTo rest.toList passed ∧ readContent skipped = .ok (true, after) ∧
    skipped.ReadOn passed after ∧ after.committed = some after.position ∧
    readContent (Recorded.ofHost skipped) = .ok (true, recorded) ∧
    skipped.commitsOf recorded.history = .ok ((List.range (passed.length + 1)).map fun read =>
      skipped.position + byteLength (passed.take read)) ∧
    after.position = 7 ∧ skipped.commitsOf recorded.history = .ok [2, 3, 4, 5, 6, 7] := by
  have fits : "é\\<a\\\\\x7bb".utf8ByteSize < offsetLimit := by decide
  obtain ⟨cursor, opened⟩ := Cursor.exists_ofText fits
  have ran : (Cursor.ofText "é\\<a\\\\\x7bb" >>= Cursor.advance true >>= fun skipped => do
      let (_, recorded) ← readContent (Recorded.ofHost skipped)
      let commits ← skipped.commitsOf recorded.history
      .ok (recorded.host.position, commits)).toOption = some (7, [2, 3, 4, 5, 6, 7]) := by
    decide +kernel
  rw [opened, ok_bind] at ran
  cases skip : cursor.advance true with
  | error fault =>
    rw [skip] at ran
    cases ran
  | ok skipped =>
    have reachable := Cursor.Reachable.advance (.opened opened) skip
    obtain ⟨rest, passed, after, recorded, unread, upTo, read, readOn, committed, _, _, again,
      same, commits⟩ := readContent_upTo reachable
    simp only [skip, ok_bind, again, commits, same] at ran
    obtain ⟨place, places⟩ := Prod.mk.inj (Option.some.inj ran)
    exact ⟨cursor, skipped, rest, passed, after, recorded, opened, skip, reachable, unread, upTo,
      read, readOn, committed, again, commits, place, commits.trans (congrArg Except.ok places)⟩

end TemplateScanner
