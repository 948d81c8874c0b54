import TemplateScanner.Proofs.LineStarts
import TemplateScanner.Proofs.Unread
import TemplateScanner.Session

namespace TemplateScanner

theorem Span.Whole.exists_length {text : List Char} {span : Span} (whole : span.Whole text) :
    ∃ length, span.length = .ok length := by
  obtain ⟨a, b, le, _, rfl⟩ := whole
  exact ⟨_, checkedSub_of_le (offset_mono text le)⟩

theorem Span.Whole.exists_text {source : Source} {text : List Char} {span : Span}
    (whole : span.Whole text) (holds : source.Holds text) :
    ∃ covered, source.text span = .ok covered := by
  obtain ⟨a, b, le, _, rfl⟩ := whole
  exact ⟨_, Source.text_offset holds le⟩

namespace Session

/-- The spans that a reply hands to the host. -/
def Reply.spans : Reply → List Span
  | closed span => span.toList
  | token found => (found.map (·.span)).toList
  | _ => []

/-- The host asks for no text but that of a span that it was handed. -/
def Command.permitted (known : List Span) : Command → Bool
  | text span => known.contains span
  | _ => true

/-- Each command is permitted when its turn comes. -/
def licit : List Span → List Command → Session → Bool
  | _, [], _ => true
  | known, command :: commands, session =>
    command.permitted known &&
      match session.step command with
      | (.ok reply, session) => licit (reply.spans ++ known) commands session
      | (.error _, session) => licit known commands session

/-- A command has succeeded, and whatever may be looked at after it can be. -/
structure Sound (reply : Except Fault Reply) (session : Session) : Prop where
  replied : ∃ answer, reply = .ok answer ∧ ∀ span ∈ answer.spans,
    (∃ length, span.length = .ok length) ∧ ∃ text, session.cursor.source.text span = .ok text
  peek : ∃ next, session.cursor.peek = .ok next
  rest : ∃ text, session.cursor.rest = .ok text

/-- Both readers of a session stand at characters of a text, and so do the spans handed out. -/
structure Stands (session : Session) (source : Source) (text : List Char) (known : List Span) :
    Prop where
  cursor : ∃ index : IndexCursor text, index.Inside ∧ session.cursor = index.toCursor source
  saved : ∃ index : IndexCursor text, index.Inside ∧ session.saved = index.toCursor source
  known : ∀ span ∈ known, span.Whole text

namespace Stands

variable {session : Session} {source : Source} {text : List Char} {known : List Span}

theorem moved (stands : session.Stands source text known) {index : IndexCursor text}
    (inside : index.Inside) {spans : List Span} (whole : ∀ span ∈ spans, span.Whole text) :
    Stands ⟨index.toCursor source, session.saved⟩ source text (spans ++ known) := by
  refine ⟨⟨index, inside, rfl⟩, stands.saved, ?_⟩
  intro span mem
  rcases List.mem_append.mp mem with mem | mem
  · exact whole span mem
  · exact stands.known span mem

theorem still (stands : session.Stands source text known) {index : IndexCursor text}
    (inside : index.Inside) : Stands ⟨index.toCursor source, session.saved⟩ source text known :=
  stands.moved inside (List.forall_mem_nil _)

theorem perform (stands : session.Stands source text known) (holds : source.Holds text)
    {command : Command} (permitted : command.permitted known = true) : ∃ reply after,
      session.perform command = .ok (reply, after) ∧
      after.Stands source text (reply.spans ++ known) := by
  obtain ⟨cursor, saved⟩ := session
  obtain ⟨index, inside, rfl : cursor = index.toCursor source⟩ := stands.cursor
  cases command with
  | advance skip =>
    refine ⟨.done, ⟨(index.advance skip).toCursor source, saved⟩, ?_,
      stands.still (IndexCursor.inside_advance inside skip)⟩
    simp only [Session.perform, IndexCursor.advance_toCursor holds, ok_bind]
  | commit => exact ⟨_, _, rfl, stands.still (IndexCursor.inside_commit inside)⟩
  | rewind => exact ⟨_, _, rfl, stands.still (IndexCursor.inside_rewind inside)⟩
  | save => exact ⟨_, _, rfl, ⟨stands.cursor, stands.cursor, stands.known⟩⟩
  | restore => exact ⟨_, _, rfl, ⟨stands.saved, stands.saved, stands.known⟩⟩
  | close accepted =>
    refine ⟨.closed ((index.toCursor source).close accepted).1,
      ⟨((index.toCursor source).close accepted).2, saved⟩, rfl, ?_⟩
    rw [IndexCursor.close_toCursor]
    refine stands.moved (IndexCursor.inside_close inside accepted) ?_
    cases accepted with
    | false => simp [Reply.spans, IndexCursor.close]
    | true =>
      intro span mem
      cases List.mem_singleton.mp mem
      exact IndexCursor.whole_token inside
  | rest =>
    refine ⟨.text (String.ofList index.rest), _, ?_, stands⟩
    simp only [Session.perform, IndexCursor.rest_toCursor holds inside, ok_bind]
  | text span =>
    have known : span ∈ known := List.contains_iff_mem.mp permitted
    obtain ⟨covered, read⟩ := (stands.known span known).exists_text holds
    refine ⟨.text covered, _, ?_, stands⟩
    have here : (index.toCursor source).source.text span = .ok covered := read
    simp only [Session.perform, here, ok_bind]
  | nextToken request =>
    obtain ⟨token, next, hn, whole, scan⟩ := IndexCursor.nextToken_toCursor holds inside request
    refine ⟨.token token, ⟨next.toCursor source, saved⟩, ?_, stands.moved hn ?_⟩
    · simp only [Session.perform, scan, ok_bind]
    · intro span mem
      obtain ⟨found, here, rfl⟩ := Option.map_eq_some_iff.mp (Option.mem_toList.mp mem)
      exact whole found here
  | call call =>
    obtain ⟨verdict, next, _, hn, ran⟩ := IndexCursor.call_toCursor holds inside call
    refine ⟨.verdict verdict, ⟨next.toCursor source, saved⟩, ?_, stands.still hn⟩
    simp only [Session.perform, ran, ok_bind]

theorem sound {reply : Reply} (stands : session.Stands source text (reply.spans ++ known))
    (holds : source.Holds text) : Sound (.ok reply) session := by
  obtain ⟨index, inside, eq⟩ := stands.cursor
  refine ⟨⟨reply, rfl, ?_⟩, ?_, ?_⟩
  · intro span mem
    have whole := stands.known span (List.mem_append_left known mem)
    rw [eq]
    exact ⟨whole.exists_length, whole.exists_text holds⟩
  · rw [eq]
    exact ⟨_, IndexCursor.peek_toCursor holds index⟩
  · rw [eq]
    exact ⟨_, IndexCursor.rest_toCursor holds inside⟩

theorem run (stands : session.Stands source text known) (holds : source.Holds text)
    {commands : List Command} (licit : session.licit known commands = true) :
    ∀ step ∈ Session.run commands session, Sound step.1 step.2 := by
  induction commands generalizing session known with
  | nil => simp [Session.run]
  | cons command commands ih =>
    -- What the reply hands out may be asked for by every command after it.
    obtain ⟨permitted, later⟩ := Bool.and_eq_true_iff.mp licit
    obtain ⟨reply, after, performed, ha⟩ := stands.perform holds permitted
    have stepped : session.step command = (.ok reply, after) := by
      rw [Session.step, performed]
    rw [stepped] at later
    intro step mem
    rw [Session.run, stepped] at mem
    rcases List.mem_cons.mp mem with rfl | mem
    · exact ha.sound holds
    · exact ih ha later step mem

end Stands

end Session

theorem Request.whole_of_token {request : Request} {text : List Char} {place : Nat} {token : Token}
    (le : place ≤ text.length) (found : request.token text place = some token) :
    token.span.Whole text := by
  have reach := request.reach_le (text.drop place)
  rw [List.length_drop] at reach
  obtain ⟨kind, _, rfl⟩ := Option.map_eq_some_iff.mp found
  exact ⟨place, _, Nat.le_add_right _ _, by omega, rfl⟩

theorem Stream.Stands.whole_of_nexts {stream last : Stream} {source : Source} {text : List Char}
    {request : Request} {place calls : Nat} {answers : List (Option Token)}
    (stands : stream.Stands source text request place) (holds : source.Holds text)
    (ran : stream.nexts calls = .ok (answers, last)) {token : Token}
    (mem : some token ∈ answers) : token.span.Whole text := by
  induction calls generalizing stream place answers with
  | zero =>
    cases Except.ok.inj ran
    cases mem
  | succ calls ih =>
    obtain ⟨after, first, later⟩ := stands.next holds
    simp only [Stream.nexts, first, ok_bind] at ran
    obtain ⟨⟨more, final⟩, went, ran⟩ := bind_eq_ok_iff.mp ran
    cases Except.ok.inj ran
    rcases List.mem_cons.mp mem with found | mem
    · exact Request.whole_of_token stands.inside (Option.filter_eq_some_iff.mp found.symm).1
    · exact ih later went mem

/-- A text whose bytes offsets can count is made ready without a fault. Then every offset has a
place; every command of a session succeeds, and so does every look at the reader after it, as long
as no text is asked for but that of a span handed out before; and every stream goes on for ever,
with a text for each of its tokens and for what it has left. -/
theorem never_faults {text : String} (fits : text.utf8ByteSize < offsetLimit) :
    ∃ source, Source.ofText text = .ok source ∧
      source.length < source.buffer.size ∧ source.buffer.size < indexLimit ∧ source.Lined ∧
      (∀ offset, ∃ location, source.locate offset = .ok location) ∧
      (∃ session, Session.ofSource source = .ok session ∧
        ∀ commands, session.licit [] commands = true →
          ∀ step ∈ Session.run commands session, Session.Sound step.1 step.2) ∧
      ∀ request, ∃ stream, Stream.ofSource source request = .ok stream ∧
        ∀ calls, ∃ answers last, stream.nexts calls = .ok (answers, last) ∧
          (∃ remaining, last.remaining = .ok remaining) ∧
          ∀ token, some token ∈ answers → (∃ length, token.span.length = .ok length) ∧
            ∃ covered, last.text token = .ok covered := by
  obtain ⟨cursor, opened⟩ := Cursor.exists_ofText fits
  obtain ⟨holds, start⟩ := Cursor.ofText_eq_startAt opened
  obtain ⟨source, made, started⟩ := bind_eq_ok_iff.mp opened
  obtain rfl : cursor.source = source := Source.source_of_cursor started
  have inside := holds.length_lt_size
  have lined := Source.lined_ofText made
  have size : cursor.source.buffer.size + 1 < indexLimit := by
    have room : offsetLimit + 1 < indexLimit := by decide
    rw [(Source.ofText_shape made).1, ByteArray.size_push]
    have bytes : text.toUTF8.size = text.utf8ByteSize := rfl
    omega
  refine ⟨cursor.source, made, inside, by omega, lined, ?_, ?_, ?_⟩
  · intro offset
    obtain ⟨_, _, _, _, _, located⟩ := lined.locate_eq (Nat.le_of_lt inside) size offset
    exact ⟨_, located⟩
  · refine ⟨⟨cursor, cursor⟩, by rw [Session.ofSource, started]; rfl, ?_⟩
    intro commands licit
    have first : ∃ index : IndexCursor (scannable text).toList, index.Inside ∧
        cursor = index.toCursor cursor.source :=
      ⟨_, IndexCursor.inside_startAt (Nat.zero_le _), start⟩
    have stands : Session.Stands ⟨cursor, cursor⟩ cursor.source (scannable text).toList [] :=
      ⟨first, first, by simp⟩
    exact stands.run holds licit
  · intro request
    have stands := Stream.stands_start start request
    refine ⟨⟨cursor, request, false⟩, by rw [Stream.ofSource, started]; rfl, ?_⟩
    intro calls
    obtain ⟨answers, last, place, ran, later⟩ := stands.nexts holds calls
    refine ⟨answers, last, ran, ⟨_, later.remaining holds⟩, ?_⟩
    intro token mem
    have whole := stands.whole_of_nexts holds ran mem
    rw [Stream.text, later.reader]
    exact ⟨whole.exists_length, whole.exists_text holds⟩

theorem never_faults_text_of_closed : ∃ source session,
    "é%\x7d".utf8ByteSize < offsetLimit ∧ Source.ofText "é%\x7d" = .ok source ∧
    Session.ofSource source = .ok session ∧ (∃ location, source.locate 1 = .ok location) ∧
    session.licit [] [.advance true, .call (.recognize .statement), .close true, .text ⟨2, 4⟩] ∧
    ∀ step ∈ Session.run
        [.advance true, .call (.recognize .statement), .close true, .text ⟨2, 4⟩] session,
      Session.Sound step.1 step.2 := by
  have fits : "é%\x7d".utf8ByteSize < offsetLimit := by decide
  obtain ⟨source, made, _, _, _, located, ⟨session, opened, sound⟩, _⟩ := never_faults fits
  have licit : (Source.ofText "é%\x7d" >>= Session.ofSource).toOption.map (fun session =>
      session.licit [] [.advance true, .call (.recognize .statement), .close true, .text ⟨2, 4⟩]) =
        some true := by
    decide +kernel
  rw [made, ok_bind, opened] at licit
  have allowed := Option.some.inj licit
  exact ⟨source, session, fits, made, opened, located 1, allowed, sound _ allowed⟩

end TemplateScanner
