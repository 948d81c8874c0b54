import TemplateScanner.Proofs.ByteLength

namespace TemplateScanner

/-- The byte offsets of a character in a text that begins at some offset. -/
def offsetsOfChar (a : Char) : Nat → List Char → List Nat
  | _, [] => []
  | start, c :: text =>
    if c = a then start :: offsetsOfChar a (start + c.utf8Size) text
    else offsetsOfChar a (start + c.utf8Size) text

section offsetsOfChar

variable {a : Char} {text : List Char} {start : Nat}

theorem offsetsOfChar_append (a : Char) (start : Nat) (first second : List Char) :
    offsetsOfChar a start (first ++ second) =
      offsetsOfChar a start first ++ offsetsOfChar a (start + byteLength first) second := by
  induction first generalizing start with
  | nil => rfl
  | cons c first ih =>
    rw [List.cons_append, offsetsOfChar, offsetsOfChar, ih, byteLength_cons, Nat.add_assoc]
    split <;> rfl

theorem length_offsetsOfChar (a : Char) (start : Nat) (text : List Char) :
    (offsetsOfChar a start text).length = text.count a := by
  induction text generalizing start with
  | nil => rfl
  | cons c text ih =>
    rw [offsetsOfChar, List.count_cons]
    by_cases found : c = a
    · rw [if_pos found, List.length_cons, ih, if_pos (by simpa using found)]
    · rw [if_neg found, ih, if_neg (by simpa using found), Nat.add_zero]

theorem offsetsOfChar_of_notMem (missing : a ∉ text) : offsetsOfChar a start text = [] := by
  rw [← List.length_eq_zero_iff, length_offsetsOfChar, List.count_eq_zero_of_not_mem missing]

theorem bounds_of_mem_offsetsOfChar {offset : Nat} (mem : offset ∈ offsetsOfChar a start text) :
    start ≤ offset ∧ offset < start + byteLength text := by
  induction text generalizing start with
  | nil => cases mem
  | cons c text ih =>
    have size := c.utf8Size_pos
    rw [byteLength_cons]
    rw [offsetsOfChar] at mem
    split at mem
    next =>
      rcases List.mem_cons.mp mem with rfl | mem
      · omega
      · have := ih mem
        omega
    next =>
      have := ih mem
      omega

/-- The offsets of a character are the lengths of what stands before it. -/
theorem mem_offsetsOfChar_iff {offset : Nat} : offset ∈ offsetsOfChar a start text ↔
    ∃ before after, text = before ++ a :: after ∧ start + byteLength before = offset := by
  induction text generalizing start with
  | nil => simp [offsetsOfChar]
  | cons c text ih =>
    have later : offset ∈ offsetsOfChar a (start + c.utf8Size) text ↔ ∃ before after,
        c :: text = c :: before ++ a :: after ∧ start + byteLength (c :: before) = offset := by
      simp only [ih, List.cons_append, List.cons.injEq, true_and, byteLength_cons, Nat.add_assoc]
    rw [offsetsOfChar]
    constructor
    · intro mem
      split at mem
      next found =>
        rcases List.mem_cons.mp mem with rfl | mem
        · exact ⟨[], text, by rw [found]; rfl, rfl⟩
        · obtain ⟨before, after, eq⟩ := later.mp mem
          exact ⟨c :: before, after, eq⟩
      next =>
        obtain ⟨before, after, eq⟩ := later.mp mem
        exact ⟨c :: before, after, eq⟩
    · rintro ⟨before, after, whole, eq⟩
      cases before with
      | nil =>
        obtain ⟨rfl, _⟩ := List.cons.inj whole
        rw [if_pos rfl]
        exact eq ▸ List.mem_cons_self
      | cons d before =>
        obtain ⟨rfl, _⟩ := List.cons.inj whole
        have mem := later.mpr ⟨before, after, whole, eq⟩
        split
        next => exact List.mem_cons_of_mem _ mem
        next => exact mem

theorem pairwise_offsetsOfChar (a : Char) (start : Nat) (text : List Char) :
    (offsetsOfChar a start text).Pairwise (· < ·) := by
  induction text generalizing start with
  | nil => exact .nil
  | cons c text ih =>
    rw [offsetsOfChar]
    split
    next =>
      refine .cons ?_ (ih _)
      intro place mem
      have size := c.utf8Size_pos
      have := (bounds_of_mem_offsetsOfChar mem).1
      omega
    next => exact ih _

end offsetsOfChar

/-- All bytes of a character that takes up more than one have their high bit set. -/
theorem high_of_mem_utf8EncodeChar {c : Char} (wide : c.utf8Size ≠ 1) :
    ∀ byte ∈ String.utf8EncodeChar c, 0x80 ≤ byte := by
  have high : ∀ bits mark : UInt8, 0x80 ≤ mark → 0x80 ≤ bits ||| mark := by
    intro bits mark marked
    rw [UInt8.le_iff_toNat_le] at marked ⊢
    rw [UInt8.toNat_or]
    exact Nat.le_trans marked Nat.right_le_or
  have pos := c.utf8Size_pos
  have four := c.utf8Size_le_four
  obtain two | three | four : c.utf8Size = 2 ∨ c.utf8Size = 3 ∨ c.utf8Size = 4 := by omega
  · rw [String.utf8EncodeChar_eq_cons_cons two]
    simp only [List.forall_mem_cons, List.not_mem_nil, false_imp_iff, implies_true, and_true]
    exact ⟨high _ _ (by decide), high _ _ (by decide)⟩
  · rw [String.utf8EncodeChar_eq_cons_cons_cons three]
    simp only [List.forall_mem_cons, List.not_mem_nil, false_imp_iff, implies_true, and_true]
    exact ⟨high _ _ (by decide), high _ _ (by decide), high _ _ (by decide)⟩
  · rw [String.utf8EncodeChar_eq_cons_cons_cons_cons four]
    simp only [List.forall_mem_cons, List.not_mem_nil, false_imp_iff, implies_true, and_true]
    exact ⟨high _ _ (by decide), high _ _ (by decide), high _ _ (by decide), high _ _ (by decide)⟩

theorem toNat_lt_of_utf8Size_eq_one {c : Char} (ascii : c.utf8Size = 1) : c.val.toNat < 0x80 := by
  have le := Char.utf8Size_eq_one_iff.mp ascii
  rw [UInt32.le_iff_toNat_le] at le
  exact Nat.lt_succ_of_le le

/-- The byte of an ASCII character belongs to no other character. -/
theorem toUInt8_mem_utf8EncodeChar_iff {a c : Char} (ascii : a.utf8Size = 1) :
    a.toUInt8 ∈ String.utf8EncodeChar c ↔ c = a := by
  have low := toNat_lt_of_utf8Size_eq_one ascii
  have byte : a.toUInt8.toNat = a.val.toNat := by
    simp only [Char.toUInt8, UInt32.toNat_toUInt8]
    omega
  constructor
  · intro mem
    by_cases single : c.utf8Size = 1
    · have small := toNat_lt_of_utf8Size_eq_one single
      rw [String.utf8EncodeChar_eq_singleton single, List.mem_singleton] at mem
      have same := congrArg UInt8.toNat mem
      rw [byte, UInt32.toNat_toUInt8] at same
      apply Char.ext
      apply UInt32.toNat_inj.mp
      omega
    · have high := high_of_mem_utf8EncodeChar single _ mem
      rw [UInt8.le_iff_toNat_le, byte] at high
      exact absurd low (Nat.not_lt_of_le high)
  · rintro rfl
    rw [String.utf8EncodeChar_eq_singleton ascii]
    exact List.mem_singleton_self _

theorem toList_data_utf8Encode_cons (c : Char) (text : List Char) :
    (c :: text).utf8Encode.data.toList =
      String.utf8EncodeChar c ++ text.utf8Encode.data.toList := by
  rw [List.utf8Encode_cons, List.utf8Encode_singleton, ByteArray.data_append, Array.toList_append,
    List.toList_data_toByteArray]

/-- The places of an ASCII character's byte in a text are those of the character. -/
theorem places_utf8Encode {a : Char} (ascii : a.utf8Size = 1) (start : Nat) (text : List Char) :
    ((text.utf8Encode.data.toList.zipIdx start).filter (·.1 == a.toUInt8)).map (·.2) =
      offsetsOfChar a start text := by
  induction text generalizing start with
  | nil => rfl
  | cons c text ih =>
    rw [toList_data_utf8Encode_cons, List.zipIdx_append, List.filter_append, List.map_append,
      String.length_utf8EncodeChar, ih, offsetsOfChar]
    by_cases found : c = a
    · subst found
      have one : String.utf8EncodeChar c = [c.toUInt8] :=
        String.utf8EncodeChar_eq_singleton ascii
      rw [if_pos rfl, one, List.zipIdx_singleton, List.filter_cons_of_pos (by simp)]
      rfl
    · have none : ((String.utf8EncodeChar c).zipIdx start).filter (·.1 == a.toUInt8) = [] := by
        rw [List.filter_eq_nil_iff]
        rintro ⟨byte, place⟩ mem same
        obtain rfl : byte = a.toUInt8 := by simpa using same
        have inside := List.fst_mem_of_mem_zipIdx mem
        exact found ((toUInt8_mem_utf8EncodeChar_iff ascii).mp inside)
      rw [if_neg found, none, List.map_nil, List.nil_append]

theorem offsetsOf_utf8Encode {a : Char} (ascii : a.utf8Size = 1) (text : List Char) :
    offsetsOf a.toUInt8 text.utf8Encode =
      (offsetsOfChar a 0 text).takeWhile (· < offsetLimit) := by
  rw [offsetsOf, places_utf8Encode ascii]

theorem getElem?_utf8Encode_eq_some_iff {a : Char} (ascii : a.utf8Size = 1) {text : List Char}
    {offset : Nat} : text.utf8Encode.data[offset]? = some a.toUInt8 ↔
      offset ∈ offsetsOfChar a 0 text := by
  rw [← places_utf8Encode ascii, ← Array.getElem?_toList, ← List.mk_mem_zipIdx_iff_getElem?]
  simp

end TemplateScanner
