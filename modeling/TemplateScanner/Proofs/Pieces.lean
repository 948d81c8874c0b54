import TemplateScanner.Proofs.Reach
import TemplateScanner.Proofs.Turn

namespace TemplateScanner

/-- The kind that a scan finds wherever there is no comment. -/
def Request.fallback (request : Request) : Option Kind :=
  [Kind.content, .argument, .statement, .expression].find? request.asksFor

theorem Request.finds_eq (request : Request) (rest : List Char) : request.finds rest =
    if request.asksFor .comment && (commentScript rest).accepted then some .comment
    else request.fallback := by
  have others : ∀ kinds : List Kind, .comment ∉ kinds →
      kinds.find? (fun kind => request.asksFor kind && (kind.script rest).accepted) =
        kinds.find? request.asksFor := by
    intro kinds without
    induction kinds with
    | nil => rfl
    | cons kind kinds ih =>
      have ne : kind ≠ .comment := fun eq => without (eq ▸ List.mem_cons_self)
      rw [List.find?_cons, List.find?_cons, Kind.script_accepted ne rest, Bool.and_true,
        ih fun mem => without (List.mem_cons_of_mem kind mem)]
  rw [finds, Kind.priority]
  by_cases comment : (request.asksFor .comment && (commentScript rest).accepted) = true
  · rw [if_pos comment]
    exact List.find?_cons_of_pos comment
  · rw [if_neg comment, fallback, ← others _ (by decide)]
    exact List.find?_cons_of_neg comment

theorem Request.reach_of_finds {request : Request} {rest : List Char} {kind : Kind}
    (found : request.finds rest = some kind) : request.reach rest = kind.reach rest := by
  rw [reach, found]
  rfl

theorem Request.kind_of_finds {request : Request} {rest : List Char} {kind : Kind}
    (found : request.finds rest = some kind) :
    kind = .comment ∧ request.asksFor .comment = true ∨ request.fallback = some kind := by
  rw [finds_eq] at found
  split at found
  next comment =>
    rw [Bool.and_eq_true] at comment
    exact .inl ⟨(Option.some.inj found).symm, comment.1⟩
  next => exact .inr found

theorem Request.accepted_of_finds {request : Request} {rest : List Char} {kind : Kind}
    (found : request.finds rest = some kind) : (kind.script rest).accepted = true := by
  have both := List.find?_some found
  rw [Bool.and_eq_true] at both
  exact both.2

/-- A scan that covers nothing has found nothing or plain text, unless nothing is left. -/
theorem Request.finds_of_reach {request : Request} {rest : List Char} (more : rest ≠ [])
    (stuck : request.reach rest = 0) :
    request.finds rest = request.fallback ∧
      (request.fallback = none ∨ request.fallback = some .content) := by
  have ne_comment : request.finds rest ≠ some .comment := by
    intro found
    have pos := Kind.reach_pos (by decide) more (accepted_of_finds found)
    rw [← reach_of_finds found] at pos
    omega
  have eq : request.finds rest = request.fallback := by
    rw [finds_eq] at ne_comment ⊢
    split at ne_comment
    next => exact absurd rfl ne_comment
    next none => exact if_neg none
  refine ⟨eq, ?_⟩
  cases kept : request.fallback with
  | none => exact .inl rfl
  | some kind =>
    rw [kept] at eq
    by_cases content : kind = .content
    · exact .inr (congrArg some content)
    · have pos := Kind.reach_pos content more (accepted_of_finds eq)
      rw [← reach_of_finds eq] at pos
      omega

/-- The tokens of a text under one request, each with its characters, and what is left of the
text after them. -/
inductive Pieces (request : Request) :
    List Char → List (Kind × List Char) → List Char → Prop where
  | ended {rest : List Char} : request.reach rest = 0 → Pieces request rest [] rest
  | token {rest last : List Char} {kind : Kind} {pieces : List (Kind × List Char)} :
    request.finds rest = some kind → 0 < kind.reach rest →
    Pieces request (rest.drop (kind.reach rest)) pieces last →
    Pieces request rest ((kind, rest.take (kind.reach rest)) :: pieces) last

namespace Pieces

variable {request : Request} {rest last : List Char} {pieces : List (Kind × List Char)}

theorem flatten (h : Pieces request rest pieces last) :
    (pieces.map (·.2)).flatten ++ last = rest := by
  induction h with
  | ended => rfl
  | token _ _ _ ih =>
    rw [List.map_cons, List.flatten_cons, List.append_assoc, ih, List.take_append_drop]

theorem length_le (h : Pieces request rest pieces last) : pieces.length ≤ rest.length := by
  induction h with
  | ended => exact Nat.zero_le _
  | @token rest _ kind _ _ pos _ ih =>
    have reach := kind.reach_le rest
    rw [List.length_drop] at ih
    rw [List.length_cons]
    omega

theorem ne_nil (h : Pieces request rest pieces last) : ∀ piece ∈ pieces, piece.2 ≠ [] := by
  induction h with
  | ended => simp
  | @token rest _ kind _ _ pos _ ih =>
    intro piece mem
    rcases List.mem_cons.mp mem with rfl | mem
    · have reach := kind.reach_le rest
      have length : (rest.take (kind.reach rest)).length = kind.reach rest := by
        rw [List.length_take, Nat.min_eq_left reach]
      intro empty
      rw [show rest.take (kind.reach rest) = [] from empty, List.length_nil] at length
      omega
    · exact ih piece mem

theorem kinds (h : Pieces request rest pieces last) : ∀ piece ∈ pieces,
    piece.1 = .comment ∧ request.asksFor .comment = true ∨ request.fallback = some piece.1 := by
  induction h with
  | ended => simp
  | token found _ _ ih =>
    intro piece mem
    rcases List.mem_cons.mp mem with rfl | mem
    · exact Request.kind_of_finds found
    · exact ih piece mem

theorem stuck (h : Pieces request rest pieces last) : request.reach last = 0 := by
  induction h with
  | ended stuck => exact stuck
  | token _ _ _ ih => exact ih

theorem last_eq_nil (h : Pieces request rest pieces last) {kind : Kind} (ne : kind ≠ .content)
    (falls : request.fallback = some kind) : last = [] := by
  cases last with
  | nil => rfl
  | cons c last =>
    obtain ⟨_, none | content⟩ := Request.finds_of_reach (List.cons_ne_nil c last) h.stuck
    · rw [falls] at none
      cases none
    · rw [falls] at content
      exact absurd (Option.some.inj content) ne

/-- Where every scan reads through one pair, the text is cut after each occurrence of it. -/
theorem cut (h : Pieces request rest pieces last) {kind : Kind} {pair : ClosingPair}
    (through : kind.pair? = some pair) (falls : request.fallback = some kind)
    (alone : request.asksFor .comment = false) : pieces.map (·.2) = pair.cut rest := by
  have ne : kind ≠ .content := by
    rintro rfl
    cases through
  have always : ∀ rest, request.finds rest = some kind := by
    intro rest
    rw [Request.finds_eq, alone, Bool.false_and, if_neg Bool.false_ne_true, falls]
  have whole := h.last_eq_nil ne falls
  induction h with
  | ended =>
    rw [whole]
    rfl
  | @token rest last found pieces finds pos _ ih =>
    cases Option.some.inj (finds.symm.trans (always rest))
    have more : rest ≠ [] := by
      rintro rfl
      have reach := kind.reach_le []
      rw [List.length_nil] at reach
      omega
    rw [List.map_cons, pair.cut_eq more, ih whole, Kind.reach_of_pair through]

theorem eq_nil_of_stop (h : Pieces request rest pieces last)
    (falls : request.fallback = some .content) (stops : ∀ c ∈ rest.head?, isStop c = true) :
    pieces = [] := by
  cases h with
  | ended => rfl
  | @token _ _ kind _ found pos _ =>
    rcases Request.kind_of_finds found with ⟨rfl, _⟩ | plain
    · obtain ⟨body, after, rfl⟩ :=
        (commentScript_accepted_iff rest).mp (Request.accepted_of_finds found)
      exact absurd (stops '-' rfl) (by decide)
    · cases Option.some.inj (falls.symm.trans plain)
      rw [Kind.reach_content_of_stop stops] at pos
      omega

/-- Plain text stops where no comment begins and where no more plain text is. -/
theorem content (h : Pieces request rest pieces last) (falls : request.fallback = some .content) :
    (∃ comments contents, contents ≤ 1 ∧ pieces.map (·.1) =
      List.replicate comments .comment ++ List.replicate contents .content) ∧
    ∀ c ∈ last.head?, isStop c = true := by
  induction h with
  | @ended rest stuck =>
    refine ⟨⟨0, 0, by omega, rfl⟩, ?_⟩
    cases rest with
    | nil => simp
    | cons c rest =>
      have found := (Request.finds_of_reach (List.cons_ne_nil c rest) stuck).1
      rw [falls] at found
      rw [Request.reach_of_finds found] at stuck
      have stops := Kind.content_stops (c :: rest)
      rwa [stuck, List.drop_zero] at stops
  | @token rest last kind pieces finds pos later ih =>
    obtain ⟨⟨comments, contents, few, eq⟩, stops⟩ := ih
    refine ⟨?_, stops⟩
    rcases Request.kind_of_finds finds with ⟨rfl, _⟩ | plain
    · refine ⟨comments + 1, contents, few, ?_⟩
      rw [List.map_cons, eq]
      rfl
    · rw [falls] at plain
      cases Option.some.inj plain
      have none := later.eq_nil_of_stop falls (Kind.content_stops rest)
      exact ⟨0, 1, Nat.le_refl 1, by rw [none]; rfl⟩

theorem not_opensWithComment (h : Pieces request rest pieces last)
    (asked : request.asksFor .comment = true) : ¬OpensWithComment last := by
  intro opens
  have accepted := (commentScript_accepted_iff last).mpr opens
  have found : request.finds last = some .comment := by
    rw [Request.finds_eq, asked, accepted]
    rfl
  have stuck := h.stuck
  have pos := commentScript_reach_pos accepted
  rw [Request.reach_of_finds found] at stuck
  exact absurd stuck (Nat.ne_of_gt pos)

end Pieces

end TemplateScanner
