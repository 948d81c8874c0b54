import TemplateScanner.Proofs.ArgumentGrammar
import TemplateScanner.Proofs.Unread

namespace TemplateScanner

theorem Request.filled_of_finds {request : Request} {text : List Char} {place : Nat} {kind : Kind}
    (le : place ≤ text.length) (found : request.finds (text.drop place) = some kind)
    (pos : 0 < kind.reach (text.drop place)) : request.filled text place =
      some ⟨kind, ⟨offset text place, offset text (place + kind.reach (text.drop place))⟩⟩ := by
  have reached := reach_of_finds found
  have some_ : request.filled text place ≠ none := by
    intro none
    have stuck := (filled_eq_none_iff le).mp none
    omega
  have token : request.token text place =
      some ⟨kind, ⟨offset text place, offset text (place + kind.reach (text.drop place))⟩⟩ := by
    rw [Request.token, found, reached]
    rfl
  rw [filled, token] at some_ ⊢
  obtain ⟨kept, eq⟩ := Option.ne_none_iff_exists'.mp some_
  rw [eq, ← (Option.filter_eq_some_iff.mp eq).1]

/-- Each of these pieces is found as a token where the pieces after it and some more text follow. -/
def Request.Takes (request : Request) : List (Kind × List Char) → List Char → Prop
  | [], _ => True
  | (kind, piece) :: pieces, more =>
    request.finds (piece ++ ((pieces.map (·.2)).flatten ++ more)) = some kind ∧
      kind.reach (piece ++ ((pieces.map (·.2)).flatten ++ more)) = piece.length ∧
      piece ≠ [] ∧ request.Takes pieces more

/-- A stream takes such pieces one at each call, and then stands after them. -/
theorem Stream.Stands.nexts_takes {stream : Stream} {source : Source} {text more : List Char}
    {request : Request} {place : Nat} {pieces : List (Kind × List Char)}
    (stands : stream.Stands source text request place) (holds : source.Holds text)
    (whole : text.drop place = (pieces.map (·.2)).flatten ++ more)
    (takes : request.Takes pieces more) : ∃ after place',
      stream.nexts pieces.length = .ok ((tokensOf text place pieces).map some, after) ∧
      after.Stands source text request place' ∧ text.drop place' = more := by
  induction pieces generalizing stream place with
  | nil => exact ⟨stream, place, rfl, stands, whole⟩
  | cons first pieces ih =>
    obtain ⟨kind, piece⟩ := first
    obtain ⟨found, reach, ne, later⟩ := takes
    have long := List.length_pos_iff.mpr ne
    rw [List.map_cons, List.flatten_cons, List.append_assoc] at whole
    rw [← whole] at found reach
    have filled := Request.filled_of_finds stands.inside found (by omega)
    obtain ⟨after, next, goes⟩ := stands.next holds
    rw [Request.reach_of_finds found, reach] at goes
    rw [filled, reach] at next
    -- The stream now stands before the other pieces.
    obtain ⟨last, place', ran, stops, left⟩ := ih goes (drop_piece whole) later
    refine ⟨last, place', ?_, stops, left⟩
    rw [List.length_cons, Stream.nexts, next]
    simp only [ok_bind, ran]
    rfl

/-- Arguments of a call as they are written, each with the comma or, at last, the parenthesis that
ends it, and with the filler that goes with that. -/
def writeArguments : List (List Char × List Char) → List (List Char)
  | [] => []
  | (argument, filler) :: others =>
    (argument ++ (if others = [] then ')' else ',') :: filler) :: writeArguments others

@[simp] theorem length_writeArguments (arguments : List (List Char × List Char)) :
    (writeArguments arguments).length = arguments.length := by
  induction arguments with
  | nil => rfl
  | cons argument others ih => rw [writeArguments, List.length_cons, List.length_cons, ih]

theorem texts_of_kind (kind : Kind) (pieces : List (List Char)) :
    (pieces.map (Prod.mk kind)).map (·.2) = pieces := by
  rw [List.map_map]
  exact List.map_id pieces

/-- Arguments with their filler, before more text, of which no filler belongs to what stands after
it. The first argument alone may begin with a space or a newline. -/
structure IsArgumentList (arguments : List (List Char × List Char)) (more : List Char) :
    Prop where
  shape : ∀ argument ∈ arguments, IsArgument argument.1
  fills : ∀ argument ∈ arguments, ∀ c ∈ argument.2, c = ' ' ∨ c = '\n'
  starts : ∀ argument ∈ arguments.tail, ∀ c ∈ argument.1.head?, c ≠ ' ' ∧ c ≠ '\n'
  stops : ∀ c ∈ more.head?, c ≠ ' ' ∧ c ≠ '\n'

namespace IsArgumentList

variable {argument : List Char × List Char} {others : List (List Char × List Char)}
  {more : List Char}

theorem tail (list : IsArgumentList (argument :: others) more) : IsArgumentList others more where
  shape other mem := list.shape other (List.mem_cons_of_mem _ mem)
  fills other mem := list.fills other (List.mem_cons_of_mem _ mem)
  starts other mem := list.starts other (List.mem_of_mem_tail mem)
  stops := list.stops

/-- What is written after an argument begins with no filler. -/
theorem head (list : IsArgumentList (argument :: others) more) :
    ∀ c ∈ ((writeArguments others).flatten ++ more).head?, c ≠ ' ' ∧ c ≠ '\n' := by
  have starts := list.starts
  rw [List.tail_cons] at starts
  cases others with
  | nil => exact list.stops
  | cons second others =>
    obtain ⟨second, filler⟩ := second
    have start := starts _ List.mem_cons_self
    rw [writeArguments, List.flatten_cons]
    cases second with
    | nil =>
      intro c head
      cases Option.some.inj head
      split <;> decide
    | cons d second => exact start

theorem takes {request : Request} (finds : ∀ rest, request.finds rest = some .argument)
    {arguments : List (List Char × List Char)} (list : IsArgumentList arguments more) :
    request.Takes ((writeArguments arguments).map (Prod.mk .argument)) more := by
  induction arguments with
  | nil => trivial
  | cons first others ih =>
    obtain ⟨argument, filler⟩ := first
    have ends : (if others = [] then ')' else ',') = ',' ∨
        (if others = [] then ')' else ',') = ')' := by
      split
      next => exact .inr rfl
      next => exact .inl rfl
    have shape := list.shape _ List.mem_cons_self
    have fills := list.fills _ List.mem_cons_self
    have reach := shape.reach ends fills list.head
    refine ⟨finds _, ?_, by simp, ih list.tail⟩
    rw [texts_of_kind]
    exact reach

end IsArgumentList

theorem Request.finds_argument {request : Request} (asked : request.asksFor .argument = true)
    (comment : request.asksFor .comment = false) (content : request.asksFor .content = false)
    (rest : List Char) : request.finds rest = some .argument := by
  rw [finds_eq, comment, Bool.false_and, if_neg Bool.false_ne_true, fallback,
    List.find?_cons_of_neg (by simp [content]), List.find?_cons_of_pos asked]

/-- A list of arguments is taken apart into the arguments that were written, as long as nothing is
asked for that comes before an argument. -/
theorem nexts_argumentList {text : String} {request : Request} {stream : Stream}
    (opened : Stream.ofText text request = .ok stream) (asked : request.asksFor .argument = true)
    (comment : request.asksFor .comment = false) (content : request.asksFor .content = false)
    {arguments : List (List Char × List Char)} {more : List Char}
    (list : IsArgumentList arguments more)
    (written : (scannable text).toList = (writeArguments arguments).flatten ++ more) :
    ∃ (tokens : List Token) (after : Stream),
      stream.nexts arguments.length = .ok (tokens.map some, after) ∧
      tokens.map (·.kind) = List.replicate arguments.length .argument ∧
      tokens.mapM stream.text = .ok ((writeArguments arguments).map String.ofList) ∧
      after.remaining = .ok (String.ofList more) := by
  obtain ⟨cursor, placed, rfl⟩ := Stream.ofText_eq_ok_iff.mp opened
  obtain ⟨holds, start⟩ := Cursor.ofText_eq_startAt placed
  have stands := Stream.stands_start start request
  have takes := list.takes (Request.finds_argument asked comment content)
  have whole : (scannable text).toList.drop 0 =
      (((writeArguments arguments).map (Prod.mk Kind.argument)).map (·.2)).flatten ++ more := by
    rw [texts_of_kind]
    exact written
  obtain ⟨after, place, ran, stops, left⟩ := stands.nexts_takes holds whole takes
  have texts := texts_tokensOf holds whole
  have kinds := kinds_tokensOf (scannable text).toList 0
    ((writeArguments arguments).map (Prod.mk Kind.argument))
  rw [List.length_map, length_writeArguments] at ran
  refine ⟨_, after, ran, ?_, ?_, ?_⟩
  · rw [kinds, List.map_map]
    simp [Function.comp_def]
  · rw [List.map_map] at texts
    exact texts
  · rw [← left]
    exact stops.remaining holds

theorem nexts_argumentList_nested : ∃ stream,
    Stream.ofText " a(b, [c]),\n ,d) %\x7d" ⟨0x08#8⟩ = .ok stream ∧
    ∃ (tokens : List Token) (after : Stream),
      stream.nexts 3 = .ok (tokens.map some, after) ∧
      tokens.map (·.kind) = List.replicate 3 .argument ∧
      tokens.mapM stream.text = .ok [" a(b, [c]),\n ", ",", "d) "] ∧
      after.remaining = .ok "%\x7d" := by
  have fits : " a(b, [c]),\n ,d) %\x7d".utf8ByteSize < offsetLimit := by decide
  obtain ⟨cursor, opened⟩ := Cursor.exists_ofText fits
  have stream : Stream.ofText " a(b, [c]),\n ,d) %\x7d" ⟨0x08#8⟩ =
      .ok ⟨cursor, ⟨0x08#8⟩, false⟩ :=
    Stream.ofText_eq_ok_iff.mpr ⟨cursor, opened, rfl⟩
  have inner : WellNested "b, [c]".toList :=
    .plain (by decide) <| .plain (by decide) <| .plain (by decide) <|
      .brackets (.plain (by decide) .nil) .nil
  have first : IsArgument " a(b, [c])".toList :=
    .plain (by decide) <| .plain (by decide) <| .parens inner .nil
  have last : IsArgument ['d'] := .plain (by decide) .nil
  have list : IsArgumentList [(" a(b, [c])".toList, ['\n', ' ']), ([], []), (['d'], [' '])]
      ['%', '\x7d'] := by
    refine ⟨?_, by simp, by simp, by simp⟩
    intro argument mem
    simp only [List.mem_cons, List.not_mem_nil, or_false] at mem
    rcases mem with rfl | rfl | rfl
    · exact first
    · exact .nil
    · exact last
  refine ⟨_, stream, ?_⟩
  exact nexts_argumentList stream (by decide) (by decide) (by decide) list
    (by rw [scannable_of_lt fits]; decide)

end TemplateScanner
