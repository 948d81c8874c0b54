import Mathlib.Data.List.TakeWhile
import TemplateScanner.Proofs.Tiling

namespace TemplateScanner

/-- What the owner of a reader does with it when no recognizer runs. -/
inductive Move where
  | advance (skip : Bool)
  | commit
  | rewind
  | close (accepted : Bool)
deriving DecidableEq, Repr

/-- A character that an advance went past. -/
structure Reading where
  char : Char
  skipped : Bool
deriving DecidableEq, Repr

/-- The characters skipped before the first one that was not. -/
def skippedFirst (read : List Reading) : List Char :=
  (read.takeWhile (·.skipped)).map (·.char)

/-- A span that was accepted, and the characters skipped first in its scan. -/
structure Taken where
  skipped : List Char
  span : Span
deriving DecidableEq, Repr

/-- A reader with an account of what was done with it. -/
structure Account where
  cursor : Cursor
  /-- What was read since the last scan was closed or rewound. -/
  read : List Reading
  /-- What was accepted, in order. -/
  taken : List Taken

namespace Account

/-- The account of a reader with which nothing was done yet. -/
def start (cursor : Cursor) : Account :=
  ⟨cursor, [], []⟩

def make (move : Move) (account : Account) : Except Fault Account := do
  match move with
  | .advance skip =>
    let cursor ← account.cursor.advance skip
    if account.cursor.atEnd then .ok { account with cursor }
    else
      let char ← account.cursor.peek
      .ok { account with cursor, read := account.read ++ [⟨char, skip⟩] }
  | .commit => .ok { account with cursor := account.cursor.commit }
  | .rewind => .ok { account with cursor := account.cursor.rewind, read := [] }
  | .close accepted =>
    let (span, cursor) := account.cursor.close accepted
    let taken := span.map (Taken.mk (skippedFirst account.read))
    .ok { cursor, read := [], taken := account.taken ++ taken.toList }

def makeAll : List Move → Account → Except Fault Account
  | [], account => .ok account
  | move :: moves, account => do
    let account ← account.make move
    makeAll moves account

end Account

/-- The spans are in order, from one offset to another, and what lies between one and the next is
what was skipped first in the scan of the next. -/
def Spaced (source : Source) : Nat → List Taken → Nat → Prop
  | place, [], last => place = last
  | place, taken :: more, last =>
    source.text ⟨place, taken.span.start⟩ = .ok (String.ofList taken.skipped) ∧
      taken.span.start = place + byteLength taken.skipped ∧ taken.span.start ≤ taken.span.stop ∧
      Spaced source taken.span.stop more last

/-- Where a reader stands, by the account of what was done with it. -/
structure Account.Balanced (account : Account) : Prop where
  scanStart_le : account.cursor.scanStart ≤ account.cursor.tokenStart
  tokenStart_le : account.cursor.tokenStart ≤ account.cursor.position
  position_le : account.cursor.position ≤ account.cursor.source.length
  committed : ∀ mark ∈ account.cursor.committed,
    account.cursor.scanStart ≤ mark ∧ mark ≤ account.cursor.position
  significant : account.cursor.significant = true ↔
    account.cursor.tokenStart < account.cursor.position
  skipped : account.cursor.tokenStart - account.cursor.scanStart =
    byteLength (skippedFirst account.read)
  read : account.cursor.source.text ⟨account.cursor.scanStart, account.cursor.position⟩ =
    .ok (String.ofList (account.read.map (·.char)))
  filled : ∀ taken ∈ account.taken, taken.span.start ≤ taken.span.stop
  ordered : (account.taken.map (·.span)).Pairwise fun span later => span.stop ≤ later.start
  spaced : Spaced account.cursor.source 0 account.taken account.cursor.scanStart
  accepts : ∃ span next, account.cursor.close true = (some span, next) ∧
    next.position = span.stop ∧ next.committed = none
  rejects : ∃ next, account.cursor.close false = (none, next) ∧
    next.position = account.cursor.scanStart ∧ next.committed = none

namespace Spaced

variable {source : Source} {place last : Nat} {taken : List Taken}

theorem start_le (spaced : Spaced source place taken last) :
    ∀ item ∈ taken, place ≤ item.span.start := by
  induction taken generalizing place with
  | nil => simp
  | cons first taken ih =>
    obtain ⟨_, start, le, later⟩ := spaced
    intro item mem
    rcases List.mem_cons.mp mem with rfl | mem
    · omega
    · have := ih later item mem
      omega

theorem filled (spaced : Spaced source place taken last) :
    ∀ item ∈ taken, item.span.start ≤ item.span.stop := by
  induction taken generalizing place with
  | nil => simp
  | cons first taken ih =>
    obtain ⟨_, _, le, later⟩ := spaced
    intro item mem
    rcases List.mem_cons.mp mem with rfl | mem
    · exact le
    · exact ih later item mem

theorem ordered (spaced : Spaced source place taken last) :
    (taken.map (·.span)).Pairwise fun span later => span.stop ≤ later.start := by
  induction taken generalizing place with
  | nil => exact .nil
  | cons first taken ih =>
    obtain ⟨_, _, _, later⟩ := spaced
    refine List.pairwise_cons.mpr ⟨?_, ih later⟩
    intro span mem
    obtain ⟨item, inner, rfl⟩ := List.mem_map.mp mem
    exact later.start_le item inner

theorem concat (spaced : Spaced source place taken last) {item : Taken}
    (gap : source.text ⟨last, item.span.start⟩ = .ok (String.ofList item.skipped))
    (start : item.span.start = last + byteLength item.skipped)
    (le : item.span.start ≤ item.span.stop) :
    Spaced source place (taken ++ [item]) item.span.stop := by
  induction taken generalizing place with
  | nil =>
    cases show place = last from spaced
    exact ⟨gap, start, le, rfl⟩
  | cons first taken ih =>
    obtain ⟨before, first, le, later⟩ := spaced
    exact ⟨before, first, le, ih later⟩

end Spaced

section skippedFirst

variable {read : List Reading}

theorem skippedFirst_of_all (all : read.all (·.skipped) = true) :
    skippedFirst read = read.map (·.char) := by
  rw [skippedFirst, List.takeWhile_eq_self_iff.mpr (List.all_eq_true.mp all)]

theorem length_skippedFirst_of_all (all : read.all (·.skipped) = true) :
    (skippedFirst read).length = read.length := by
  rw [skippedFirst_of_all all, List.length_map]

theorem skippedFirst_append_of_all (all : read.all (·.skipped) = true) (more : List Reading) :
    skippedFirst (read ++ more) = skippedFirst read ++ skippedFirst more := by
  rw [skippedFirst, List.takeWhile_append_of_pos (List.all_eq_true.mp all), List.map_append,
    ← skippedFirst_of_all all]
  rfl

theorem length_skippedFirst_lt (kept : read.all (·.skipped) = false) :
    (skippedFirst read).length < read.length := by
  have part := List.takeWhile_prefix (fun reading : Reading => reading.skipped) (l := read)
  rw [skippedFirst, List.length_map]
  refine Nat.lt_of_le_of_ne part.length_le ?_
  intro same
  have all := List.takeWhile_eq_self_iff.mp (part.eq_of_length same)
  rw [List.all_eq_true.mpr all] at kept
  cases kept

theorem skippedFirst_append_of_kept (kept : read.all (·.skipped) = false) (more : List Reading) :
    skippedFirst (read ++ more) = skippedFirst read := by
  have short := length_skippedFirst_lt kept
  rw [skippedFirst, List.length_map] at short
  rw [skippedFirst, List.takeWhile_append, if_neg (Nat.ne_of_lt short), skippedFirst]

theorem skippedFirst_prefix_read (read : List Reading) : skippedFirst read <+: read.map (·.char) :=
  (List.takeWhile_prefix _).map _

theorem length_skippedFirst_le (read : List Reading) :
    (skippedFirst read).length ≤ read.length := by
  have short := (skippedFirst_prefix_read read).length_le
  rwa [List.length_map] at short

end skippedFirst

/-- A reader of characters has read just these since its scan began. -/
structure IndexCursor.HasRead {text : List Char} (index : IndexCursor text) (read : List Reading) :
    Prop where
  chars : read.map (·.char) <+: text.drop index.scanStart
  inside : index.position ≤ text.length
  position : index.position = index.scanStart + read.length
  tokenStart : index.tokenStart = index.scanStart + (skippedFirst read).length
  significant : index.significant = !read.all (·.skipped)
  committed : ∀ mark ∈ index.committed, index.scanStart ≤ mark ∧ mark ≤ index.position

namespace IndexCursor

variable {source : Source} {text : List Char}

theorem hasRead_startAt {place : Nat} (le : place ≤ text.length) :
    (startAt text place).HasRead [] :=
  ⟨List.nil_prefix, le, rfl, rfl, rfl, by simp [startAt]⟩

namespace HasRead

variable {index : IndexCursor text} {read : List Reading}

theorem scanStart_le (has : index.HasRead read) : index.scanStart ≤ text.length := by
  have := has.inside
  have := has.position
  omega

theorem tokenStart_le (has : index.HasRead read) : index.tokenStart ≤ index.position := by
  have := length_skippedFirst_le read
  have := has.position
  have := has.tokenStart
  omega

theorem tokenEnd_le (has : index.HasRead read) : index.tokenEnd ≤ index.position := by
  have := has.tokenStart_le
  rw [tokenEnd]
  cases committed : index.committed with
  | none => simp only [Option.getD_none]; omega
  | some mark =>
    have := (has.committed mark committed).2
    simp only [Option.getD_some]
    omega

theorem significant_iff (has : index.HasRead read) :
    index.significant = true ↔ index.tokenStart < index.position := by
  rw [has.significant, has.position, has.tokenStart]
  cases all : read.all (·.skipped) with
  | true =>
    have same := length_skippedFirst_of_all all
    simp only [Bool.not_true, Bool.false_eq_true, same, Nat.lt_irrefl]
  | false =>
    have short := length_skippedFirst_lt all
    simp only [Bool.not_false, true_iff]
    omega

theorem rewind (has : index.HasRead read) : index.rewind.HasRead [] :=
  hasRead_startAt has.scanStart_le

theorem commit (has : index.HasRead read) : index.commit.HasRead read := by
  refine ⟨has.chars, has.inside, has.position, has.tokenStart, has.significant, ?_⟩
  intro mark committed
  cases Option.some.inj committed
  have := has.position
  exact ⟨by simp only [IndexCursor.commit]; omega, Nat.le_refl _⟩

theorem advance (has : index.HasRead read) (skip : Bool) (more : index.atEnd = false) :
    (index.advance skip).HasRead (read ++ [⟨index.peek, skip⟩]) := by
  have lt : index.position < text.length := by simpa [atEnd] using more
  have position := has.position
  have tokenStart := has.tokenStart
  have significant := has.significant
  have next : text.drop index.position = index.peek :: text.drop (index.position + 1) := by
    rw [peek, rest, List.drop_eq_getElem_cons lt]
    rfl
  have step : index.advance skip = { index with
      position := index.position + 1
      tokenStart := if skip && !index.significant then index.position + 1 else index.tokenStart
      significant := index.significant || !skip } := by
    rw [IndexCursor.advance, more]
    rfl
  rw [step]
  refine ⟨?_, lt, ?_, ?_, ?_, ?_⟩
  · obtain ⟨rest, eq⟩ := has.chars
    have here := congrArg (List.drop read.length) eq
    rw [List.drop_drop, ← position, next, List.drop_left' (List.length_map _)] at here
    refine ⟨text.drop (index.position + 1), ?_⟩
    rw [List.map_append, List.append_assoc, ← eq, here]
    rfl
  · rw [List.length_append, position]
    rfl
  -- The token begins later only if this character is skipped, and so was every one before it.
  · cases all : read.all (·.skipped) with
    | true =>
      have same := length_skippedFirst_of_all all
      rw [all, Bool.not_true] at significant
      rw [skippedFirst_append_of_all all, List.length_append, significant]
      cases skip with
      | true => rw [position, same]; rfl
      | false => exact tokenStart
    | false =>
      rw [all, Bool.not_false] at significant
      rw [skippedFirst_append_of_kept all, significant, Bool.not_true, Bool.and_false]
      exact tokenStart
  · rw [List.all_append, Bool.not_and, significant]
    simp
  · intro mark committed
    have bounds := has.committed mark committed
    exact ⟨bounds.1, Nat.le_succ_of_le bounds.2⟩

theorem startAt_tokenEnd (has : index.HasRead read) : (startAt text index.tokenEnd).HasRead [] :=
  hasRead_startAt (Nat.le_trans has.tokenEnd_le has.inside)

theorem skipped_eq_take (has : index.HasRead read) :
    skippedFirst read = (text.drop index.scanStart).take (skippedFirst read).length :=
  List.prefix_iff_eq_take.mp ((skippedFirst_prefix_read read).trans has.chars)

theorem text_read (has : index.HasRead read) (holds : source.Holds text) :
    source.text ⟨offset text index.scanStart, offset text index.position⟩ =
      .ok (String.ofList (read.map (·.char))) := by
  have position := has.position
  have chars := List.prefix_iff_eq_take.mp has.chars
  rw [List.length_map] at chars
  rw [Source.text_offset holds (by omega), List.drop_take, position, Nat.add_sub_cancel_left,
    ← chars]

/-- The characters skipped first lie before the token. -/
theorem text_gap (has : index.HasRead read) (holds : source.Holds text) :
    source.text ⟨offset text index.scanStart, offset text index.tokenStart⟩ =
      .ok (String.ofList (skippedFirst read)) := by
  have tokenStart := has.tokenStart
  rw [Source.text_offset holds (by omega), List.drop_take, tokenStart, Nat.add_sub_cancel_left,
    ← has.skipped_eq_take]

theorem offset_tokenStart (has : index.HasRead read) : offset text index.tokenStart =
    offset text index.scanStart + byteLength (skippedFirst read) := by
  rw [has.tokenStart, offset_add, ← has.skipped_eq_take]

end HasRead

end IndexCursor

/-- An account whose reader stands where a reader of the text's characters does. -/
structure Account.Stands {text : List Char} (account : Account) (source : Source)
    (index : IndexCursor text) : Prop where
  reader : account.cursor = index.toCursor source
  has : index.HasRead account.read
  spaced : Spaced source 0 account.taken (offset text index.scanStart)

namespace Account.Stands

variable {source : Source} {text : List Char} {account : Account} {index : IndexCursor text}

theorem make (stands : account.Stands source index) (holds : source.Holds text) (move : Move) :
    ∃ (next : Account) (index' : IndexCursor text), account.make move = .ok next ∧
      next.Stands source index' := by
  obtain ⟨cursor, read, taken⟩ := account
  obtain ⟨reader, has, spaced⟩ := stands
  obtain rfl : cursor = index.toCursor source := reader
  cases move with
  | advance skip =>
    have advanced := IndexCursor.advance_toCursor holds skip index
    have ended := IndexCursor.atEnd_toCursor holds index
    cases more : index.atEnd with
    | true =>
      refine ⟨⟨index.toCursor source, read, taken⟩, index, ?_, rfl, has, spaced⟩
      rw [IndexCursor.advance, if_pos more] at advanced
      simp only [Account.make, advanced, ok_bind, ended, more, if_true]
    | false =>
      refine ⟨⟨(index.advance skip).toCursor source, read ++ [⟨index.peek, skip⟩], taken⟩, _, ?_,
        rfl, has.advance skip more, ?_⟩
      · simp only [Account.make, advanced, ok_bind, ended, more, Bool.false_eq_true, if_false,
          IndexCursor.peek_toCursor holds]
      · rw [IndexCursor.scanStart_advance]
        exact spaced
  | commit => exact ⟨_, index.commit, rfl, rfl, has.commit, spaced⟩
  | rewind => exact ⟨_, index.rewind, rfl, rfl, has.rewind, spaced⟩
  | close accepted =>
    cases accepted with
    | false =>
      refine ⟨⟨index.rewind.toCursor source, [], taken⟩, _, ?_, rfl, has.rewind, spaced⟩
      show Except.ok (Account.mk _ [] (taken ++ [])) = _
      rw [List.append_nil]
      rfl
    | true =>
      refine ⟨⟨(IndexCursor.startAt text index.tokenEnd).toCursor source, [],
        taken ++ [⟨skippedFirst read, ⟨offset text index.tokenStart,
          offset text index.tokenEnd⟩⟩]⟩, _, ?_, rfl, has.startAt_tokenEnd, ?_⟩
      · simp only [Account.make, IndexCursor.close_toCursor]
        rfl
      · exact spaced.concat (has.text_gap holds) has.offset_tokenStart
          (offset_mono text (Nat.le_max_right _ _))

theorem makeAll (stands : account.Stands source index) (holds : source.Holds text)
    (moves : List Move) : ∃ (last : Account) (index' : IndexCursor text),
      account.makeAll moves = .ok last ∧ last.Stands source index' := by
  induction moves generalizing account index with
  | nil => exact ⟨account, index, rfl, stands⟩
  | cons move moves ih =>
    obtain ⟨next, index', made, hn⟩ := stands.make holds move
    obtain ⟨last, index'', later, hl⟩ := ih hn
    refine ⟨last, index'', ?_, hl⟩
    rw [Account.makeAll, made]
    exact later

theorem balanced (stands : account.Stands source index) (holds : source.Holds text) :
    account.Balanced := by
  obtain ⟨cursor, read, taken⟩ := account
  obtain ⟨reader, has, spaced⟩ := stands
  obtain rfl : cursor = index.toCursor source := reader
  have tokenStart := has.tokenStart
  refine ⟨offset_mono text (by omega), offset_mono text has.tokenStart_le, ?_, ?_, ?_, ?_,
    has.text_read holds, spaced.filled, spaced.ordered, spaced, ?_, ?_⟩
  · show offset text index.position ≤ source.length
    rw [holds.length_eq]
    exact offset_le_byteLength text _
  · intro mark committed
    obtain ⟨place, inner, rfl⟩ := Option.map_eq_some_iff.mp committed
    have := has.committed place inner
    exact ⟨offset_mono text this.1, offset_mono text this.2⟩
  · exact has.significant_iff.trans (offset_lt_offset_iff has.inside).symm
  · show offset text index.tokenStart - offset text index.scanStart = _
    rw [has.offset_tokenStart, Nat.add_sub_cancel_left]
  · exact ⟨_, _, rfl, rfl, rfl⟩
  · exact ⟨_, rfl, rfl, rfl⟩

end Account.Stands

/-- Whatever is done to a reader of a text in whatever order, its places stay in order and in the
text, the token under way begins after the characters skipped first, and the spans accepted follow
one another with nothing but such characters between them. -/
theorem Account.balanced_of_makeAll {text : String} {cursor : Cursor}
    (opened : Cursor.ofText text = .ok cursor) (moves : List Move) : ∃ account,
      (Account.start cursor).makeAll moves = .ok account ∧
      account.cursor.source = cursor.source ∧ account.Balanced := by
  obtain ⟨holds, start⟩ := Cursor.ofText_eq_startAt opened
  have stands : (Account.start cursor).Stands cursor.source
      (IndexCursor.startAt (scannable text).toList 0) :=
    ⟨start, IndexCursor.hasRead_startAt (Nat.zero_le _), (offset_zero _).symm⟩
  obtain ⟨account, index, made, ha⟩ := stands.makeAll holds moves
  refine ⟨account, made, ?_, ha.balanced holds⟩
  rw [ha.reader]
  rfl

theorem Account.balanced_of_makeAll_mark_before_skipped : ∃ cursor account,
    Cursor.ofText " é b" = .ok cursor ∧
    (Account.start cursor).makeAll [.commit, .advance true, .close true, .advance false,
      .advance true, .rewind, .advance false, .close true, .advance true] = .ok account ∧
    account.taken = [⟨[' '], ⟨1, 1⟩⟩, ⟨[], ⟨1, 3⟩⟩] ∧ account.read = [⟨' ', true⟩] ∧
    account.Balanced := by
  have fits : " é b".utf8ByteSize < offsetLimit := by decide
  obtain ⟨cursor, opened⟩ := Cursor.exists_ofText fits
  obtain ⟨account, made, _, balanced⟩ := Account.balanced_of_makeAll opened [.commit,
    .advance true, .close true, .advance false, .advance true, .rewind, .advance false,
    .close true, .advance true]
  have found : ((Cursor.ofText " é b").toOption.bind fun cursor =>
      ((Account.start cursor).makeAll [.commit, .advance true, .close true, .advance false,
        .advance true, .rewind, .advance false, .close true, .advance true]).toOption.map
        fun account => (account.taken, account.read)) =
      some ([⟨[' '], ⟨1, 1⟩⟩, ⟨[], ⟨1, 3⟩⟩], [⟨' ', true⟩]) := by
    decide +kernel
  rw [opened] at found
  simp only [Except.toOption, Option.bind_some, made, Option.map_some, Option.some.injEq,
    Prod.mk.injEq] at found
  exact ⟨cursor, account, opened, made, found.1, found.2, balanced⟩

end TemplateScanner
