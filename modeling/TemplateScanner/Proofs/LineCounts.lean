import Mathlib.Data.List.DropRight
import TemplateScanner.Proofs.AsciiOffsets
import TemplateScanner.Proofs.LineStarts
import TemplateScanner.Proofs.Tiling

namespace TemplateScanner

/-- A text taken apart at an offset: the lines before that of the offset, what stands before the
offset on its own line, and what comes after. The offset may cut the first character of that. -/
structure CutAt (text : List Char) (cut : Nat) (before line after : List Char) : Prop where
  whole : text = before ++ line ++ after
  broken : before = [] ∨ before.getLast? = some '\n'
  unbroken : '\n' ∉ line
  reaches : byteLength (before ++ line) ≤ cut
  stops : ∀ c ∈ after.head?, cut < byteLength (before ++ line) + c.utf8Size

theorem exists_wholeChars (text : List Char) (cut : Nat) : ∃ chars after, text = chars ++ after ∧
    byteLength chars ≤ cut ∧ ∀ c ∈ after.head?, cut < byteLength chars + c.utf8Size := by
  induction text generalizing cut with
  | nil => exact ⟨[], [], rfl, Nat.zero_le cut, by simp⟩
  | cons c text ih =>
    by_cases fits : c.utf8Size ≤ cut
    · obtain ⟨chars, after, rfl, reaches, stops⟩ := ih (cut - c.utf8Size)
      refine ⟨c :: chars, after, rfl, ?_, fun d head => ?_⟩
      · rw [byteLength_cons]
        omega
      · have := stops d head
        rw [byteLength_cons]
        omega
    · refine ⟨[], c :: text, rfl, Nat.zero_le cut, fun d head => ?_⟩
      cases Option.some.inj head
      rw [byteLength_nil]
      omega

/-- A text that is cut behind whole characters stands apart at the last line break of these. -/
theorem cutAt_of_chars {text chars after : List Char} {cut : Nat} (whole : text = chars ++ after)
    (reaches : byteLength chars ≤ cut)
    (stops : ∀ c ∈ after.head?, cut < byteLength chars + c.utf8Size) :
    CutAt text cut (chars.rdropWhile (· ≠ '\n')) (chars.rtakeWhile (· ≠ '\n')) after := by
  have split := List.rdropWhile_append_rtakeWhile (p := (· ≠ '\n')) (l := chars)
  refine ⟨?_, ?_, ?_, ?_, ?_⟩
  · rw [split, whole]
  · by_cases none : chars.rdropWhile (· ≠ '\n') = []
    · exact .inl none
    · have last := List.rdropWhile_last_not _ _ none
      rw [List.getLast?_eq_some_getLast none]
      exact .inr (congrArg some (by simpa using last))
  · intro mem
    simpa using List.mem_rtakeWhile_imp mem
  · rwa [split]
  · rwa [split]

theorem exists_cutAt (text : List Char) (cut : Nat) :
    ∃ before line after, CutAt text cut before line after := by
  obtain ⟨chars, after, whole, reaches, stops⟩ := exists_wholeChars text cut
  exact ⟨_, _, _, cutAt_of_chars whole reaches stops⟩

theorem isValid_byteLength {text : String} {before after : List Char}
    (whole : text.toList = before ++ after) : String.Pos.Raw.IsValid text ⟨byteLength before⟩ := by
  have valid := isValid_offset text before.length
  rwa [whole, offset, List.take_left] at valid

namespace CutAt

variable {text before line after : List Char} {cut : Nat}

/-- A line break behind the offset stands no earlier, since the offset may only cut a character that
takes up more than one byte. -/
theorem le_of_mem_after (parts : CutAt text cut before line after) {place : Nat}
    (mem : place ∈ offsetsOfChar '\n' (byteLength (before ++ line)) after) : cut ≤ place := by
  cases after with
  | nil => cases mem
  | cons c after =>
    have stops := parts.stops c rfl
    rw [offsetsOfChar] at mem
    split at mem
    next found =>
      have one : c.utf8Size = 1 := by
        rw [found]
        decide
      rcases List.mem_cons.mp mem with rfl | mem
      · omega
      · have := (bounds_of_mem_offsetsOfChar mem).1
        omega
    next =>
      have := (bounds_of_mem_offsetsOfChar mem).1
      omega

theorem offsetsOfChar_eq (parts : CutAt text cut before line after) :
    offsetsOfChar '\n' 0 text = offsetsOfChar '\n' 0 before ++
      offsetsOfChar '\n' (byteLength (before ++ line)) after := by
  rw [parts.whole, offsetsOfChar_append, offsetsOfChar_append,
    offsetsOfChar_of_notMem parts.unbroken, List.append_nil, Nat.zero_add]

theorem byteLength_before_le (parts : CutAt text cut before line after) :
    byteLength before ≤ cut := by
  have reaches := parts.reaches
  rw [byteLength_append] at reaches
  omega

theorem count_le (parts : CutAt text cut before line after) : before.count '\n' ≤ cut := by
  have chars := length_le_byteLength before
  exact Nat.le_trans List.count_le_length (Nat.le_trans chars parts.byteLength_before_le)

/-- The line breaks before the offset are those of the lines before its own. -/
theorem takeWhile_offsetsOfChar (parts : CutAt text cut before line after) :
    (offsetsOfChar '\n' 0 text).takeWhile (· < cut) = offsetsOfChar '\n' 0 before := by
  have le := parts.byteLength_before_le
  have inside : ∀ place ∈ offsetsOfChar '\n' 0 before, decide (place < cut) = true := by
    intro place mem
    have := (bounds_of_mem_offsetsOfChar mem).2
    exact decide_eq_true (by omega)
  have none :
      (offsetsOfChar '\n' (byteLength (before ++ line)) after).takeWhile (· < cut) = [] := by
    cases found : offsetsOfChar '\n' (byteLength (before ++ line)) after with
    | nil => rfl
    | cons place later =>
      have first : place ∈ offsetsOfChar '\n' (byteLength (before ++ line)) after := by
        rw [found]
        exact List.mem_cons_self
      have := parts.le_of_mem_after first
      exact List.takeWhile_cons_of_neg (by simpa using this)
  rw [parts.offsetsOfChar_eq, List.takeWhile_append_of_pos inside, none, List.append_nil]

/-- The offset cuts no character just if the characters before it reach it. -/
theorem isValid_iff {text : String} (parts : CutAt text.toList cut before line after) :
    String.Pos.Raw.IsValid text ⟨cut⟩ ↔ byteLength (before ++ line) = cut := by
  have reaches := parts.reaches
  constructor
  · intro valid
    obtain ⟨place, size⟩ := String.Pos.Raw.isValid_iff_exists_take_toList.mp valid
    have whole : cut = offset text.toList place := size.trans (utf8ByteSize_ofList _)
    rw [parts.whole] at whole
    rcases Nat.lt_or_ge (before ++ line).length place with lt | le
    · obtain ⟨n, rfl⟩ := Nat.exists_eq_add_of_lt lt
      rw [Nat.add_assoc, offset_length_add] at whole
      cases after with
      | nil =>
        rw [offset_of_length_le (Nat.zero_le _), byteLength_nil] at whole
        exact whole.symm
      | cons c after =>
        have stops := parts.stops c rfl
        rw [offset, List.take_succ_cons, byteLength_cons] at whole
        omega
    · have near := offset_mono (before ++ line ++ after) le
      have all := offset_length_add (before ++ line) after 0
      rw [offset_zero, Nat.add_zero, Nat.add_zero] at all
      omega
  · intro whole
    rw [← whole]
    exact isValid_byteLength parts.whole

theorem getLast?_starts (parts : CutAt text cut before line after) :
    (0 :: (offsetsOfChar '\n' 0 before).map (· + 1)).getLast? = some (byteLength before) := by
  rcases parts.broken with rfl | last
  · rfl
  · obtain ⟨lines, rfl⟩ := List.getLast?_eq_some_iff.mp last
    have one : offsetsOfChar '\n' (0 + byteLength lines) ['\n'] = [byteLength lines] := by
      rw [Nat.zero_add]
      rfl
    rw [offsetsOfChar_append, one, List.map_append, ← List.cons_append, List.map_singleton,
      List.getLast?_concat, byteLength_append]
    rfl

/-- The columns before the offset: characters, or bytes if it cuts one. -/
theorem columns_eq {text : String} (parts : CutAt text.toList cut before line after)
    (inside : cut ≤ text.utf8ByteSize) :
    (String.Pos.Raw.IsValid text ⟨cut⟩ →
      columns (text.toUTF8.extract (byteLength before) cut) = line.length) ∧
    (¬String.Pos.Raw.IsValid text ⟨cut⟩ →
      columns (text.toUTF8.extract (byteLength before) cut) = cut - byteLength before) := by
  constructor
  · intro valid
    have slice := extract_utf8Encode before line after ByteArray.empty
    rw [ByteArray.append_empty, ← parts.whole, parts.isValid_iff.mp valid,
      String.utf8Encode_toList] at slice
    rw [String.toUTF8_eq_toByteArray, slice, columns, fromUTF8?_utf8Encode]
    exact String.length_ofList
  · intro invalid
    have split : text.toList = before ++ (line ++ after) := by
      rw [parts.whole, List.append_assoc]
    have start := isValid_byteLength split
    have bytes : ¬(text.toUTF8.extract (byteLength before) cut).IsValidUTF8 := by
      intro valid
      rcases (String.Pos.Raw.isValidUTF8_extract_iff ⟨byteLength before⟩ ⟨cut⟩
        parts.byteLength_before_le inside).mp valid with same | both
      · exact invalid (same ▸ start)
      · exact invalid both.2
    rw [columns, String.fromUTF8?, dif_neg bytes, ByteArray.size_extract,
      String.toUTF8_eq_toByteArray, String.size_toByteArray, Nat.min_eq_left inside]

end CutAt

/-- An offset at which the line of another starts: behind the last line break before that, or at the
start of the text if there is none. -/
structure LineStart (bytes : ByteArray) (cut start : Nat) : Prop where
  le : start ≤ cut
  behind : start = 0 ∨ ∃ place, start = place + 1 ∧ bytes.data[place]? = some '\n'.toUInt8
  last : ∀ place, start ≤ place → place < cut → bytes.data[place]? ≠ some '\n'.toUInt8

theorem CutAt.lineStart {text : String} {before line after : List Char} {cut : Nat}
    (parts : CutAt text.toList cut before line after) :
    LineStart text.toUTF8 cut (byteLength before) := by
  have ascii : '\n'.utf8Size = 1 := by decide
  have bytes : text.toUTF8 = text.toList.utf8Encode := text.utf8Encode_toList.symm
  refine ⟨parts.byteLength_before_le, ?_, ?_⟩
  · rcases parts.broken with rfl | last
    · exact .inl rfl
    · obtain ⟨lines, rfl⟩ := List.getLast?_eq_some_iff.mp last
      refine .inr ⟨byteLength lines, by rw [byteLength_append]; rfl, ?_⟩
      rw [bytes, getElem?_utf8Encode_eq_some_iff ascii, parts.offsetsOfChar_eq,
        offsetsOfChar_append, Nat.zero_add]
      simp [offsetsOfChar]
  · intro place start lt found
    rw [bytes, getElem?_utf8Encode_eq_some_iff ascii, parts.offsetsOfChar_eq] at found
    rcases List.mem_append.mp found with mem | mem
    · have := (bounds_of_mem_offsetsOfChar mem).2
      omega
    · have := parts.le_of_mem_after mem
      omega

namespace Source

variable {text : String} {source : Source} {before line after : List Char} {cut : Nat}

theorem takeWhile_lineStarts (made : Source.ofText text = .ok source)
    (parts : CutAt text.toList cut before line after) (small : cut < offsetLimit) :
    source.lineStarts.takeWhile (· ≤ cut) = 0 :: (offsetsOfChar '\n' 0 before).map (· + 1) := by
  have ascii : '\n'.utf8Size = 1 := by decide
  have bytes : text.toUTF8 = text.toList.utf8Encode := text.utf8Encode_toList.symm
  rw [lineStarts_ofText made, bytes, offsetsOf_utf8Encode ascii,
    List.takeWhile_cons_of_pos (by simp), List.takeWhile_map, List.takeWhile_takeWhile,
    ← parts.takeWhile_offsetsOfChar]
  congr 3
  funext place
  refine decide_eq_decide.mpr ?_
  simp only [Function.comp_apply, decide_eq_true_eq]
  omega

theorem extract_ofText (made : Source.ofText text = .ok source) {start stop : Nat}
    (inside : stop ≤ source.length) :
    source.buffer.extract start stop = text.toUTF8.extract start stop := by
  obtain ⟨buffer, length⟩ := Source.ofText_shape made
  have within : stop ≤ text.toUTF8.size := by omega
  have none : [(0 : UInt8)].toByteArray.extract (start - text.toUTF8.size) 0 = ByteArray.empty :=
    ByteArray.extract_eq_empty_iff.mpr (by omega)
  rw [buffer, ← ByteArray.append_toByteArray_singleton, ByteArray.extract_append,
    Nat.sub_eq_zero_of_le within, none, ByteArray.append_empty]

theorem locate_of_cutAt (made : Source.ofText text = .ok source) {offset : Nat}
    (parts : CutAt text.toList (min offset source.length) before line after) :
    source.locate offset = .ok
      { line := min (before.count '\n' + 1) (offsetLimit - 1)
        column := min (columns (text.toUTF8.extract (byteLength before)
          (min offset source.length)) + 1) (offsetLimit - 1) } := by
  obtain ⟨buffer, length⟩ := Source.ofText_shape made
  have wide : offsetLimit < indexLimit := by decide
  have none_cut : 0 < offsetLimit := by decide
  have few := parts.count_le
  have starts := takeWhile_lineStarts made parts (by omega)
  have lines : (source.lineStarts.takeWhile (· ≤ min offset source.length)).length =
      before.count '\n' + 1 := by
    rw [starts, List.length_cons, List.length_map, length_offsetsOfChar]
  have found : source.lineStarts[before.count '\n']? = some (byteLength before) := by
    have last := parts.getLast?_starts
    rw [← starts, List.getLast?_eq_getElem?, lines, Nat.add_sub_cancel] at last
    obtain ⟨inside, start⟩ := List.getElem?_eq_some_iff.mp last
    rw [← start]
    exact List.prefix_iff_getElem?.mp (List.takeWhile_prefix _) _ inside
  have inside : source.length ≤ source.buffer.size := by
    rw [buffer, ByteArray.size_push]
    omega
  rw [locate_of_line lines found parts.byteLength_before_le inside (by omega) (by omega),
    extract_ofText made (Nat.min_le_right _ _)]

end Source

/-- What the place of an offset counts: the line breaks before the offset, and the characters before
it on its line, or the bytes there if it cuts a character. -/
structure Location.Counts (place : Location) (text : String) (cut : Nat) (before line : List Char) :
    Prop where
  lines : place.line = 1 + (before ++ line).count '\n'
  whole : String.Pos.Raw.IsValid text ⟨cut⟩ → place.column = 1 + line.length
  cutting : ¬String.Pos.Raw.IsValid text ⟨cut⟩ → place.column = 1 + (cut - byteLength before)

/-- A place as far as its numbers fit an offset. -/
def Location.saturate (place : Location) : Location :=
  ⟨min place.line (offsetLimit - 1), min place.column (offsetLimit - 1)⟩

/-- The place of an offset that cuts no character. -/
theorem Source.locate_of_valid {text : String} {source : Source} {before line after : List Char}
    (made : ofText text = .ok source) {cut : Nat}
    (parts : CutAt text.toList cut before line after)
    (valid : String.Pos.Raw.IsValid text ⟨cut⟩) (inside : cut ≤ source.length) :
    source.locate cut =
      .ok (Location.mk (before.count '\n' + 1) (line.length + 1)).saturate := by
  have here : min cut source.length = cut := Nat.min_eq_left inside
  rw [← here] at parts
  have located := locate_of_cutAt made parts
  rw [here] at parts
  rw [here, (parts.columns_eq (Nat.le_trans inside (length_le_ofText made))).1 valid] at located
  exact located

section replicate

/-! A source that repeats one letter is a single line, with a character for each byte. -/

variable {n cut : Nat}

theorem byteLength_replicate (n : Nat) : byteLength (List.replicate n 'a') = n := by
  induction n with
  | zero => rfl
  | succ n ih =>
    have one : 'a'.utf8Size = 1 := by decide
    rw [List.replicate_succ, byteLength_cons, ih, one, Nat.add_comm]

theorem isValid_replicate (le : cut ≤ n) :
    String.Pos.Raw.IsValid (String.ofList (List.replicate n 'a')) ⟨cut⟩ := by
  have split : (String.ofList (List.replicate n 'a')).toList =
      List.replicate cut 'a' ++ List.replicate (n - cut) 'a' := by
    rw [String.toList_ofList, List.replicate_append_replicate, Nat.add_sub_cancel' le]
  have valid := isValid_byteLength split
  rwa [byteLength_replicate] at valid

theorem CutAt.of_replicate {before line after : List Char}
    (parts : CutAt (String.ofList (List.replicate n 'a')).toList cut before line after)
    (le : cut ≤ n) : before = [] ∧ line = List.replicate cut 'a' := by
  have reaches := parts.isValid_iff.mp (isValid_replicate le)
  have whole := parts.whole
  rw [String.toList_ofList, List.append_assoc] at whole
  have letters : ∀ c ∈ before ++ (line ++ after), c = 'a' := by
    intro c mem
    rw [← whole] at mem
    exact List.eq_of_mem_replicate mem
  have first : before = [] := by
    rcases parts.broken with none | last
    · exact none
    · have mem := List.mem_append_left (line ++ after) (List.mem_of_getLast? last)
      exact absurd (letters '\n' mem) (by decide)
  subst first
  have same : line = List.replicate line.length 'a' := by
    refine List.eq_replicate_of_mem fun c mem => letters c ?_
    exact List.mem_append_left after mem
  rw [List.nil_append, same, byteLength_replicate] at reaches
  refine ⟨rfl, ?_⟩
  rw [← reaches]
  exact same

namespace Source

theorem exists_ofText_replicate (small : n < offsetLimit) : ∃ source,
    ofText (String.ofList (List.replicate n 'a')) = .ok source ∧ source.length = n := by
  have size : (String.ofList (List.replicate n 'a')).utf8ByteSize = n := by
    rw [utf8ByteSize_ofList, byteLength_replicate]
  obtain ⟨cursor, opened⟩ := Cursor.exists_ofText (size.trans_lt small)
  obtain ⟨source, made, _⟩ := bind_eq_ok_iff.mp opened
  have length := (ofText_shape made).2
  have bytes : (String.ofList (List.replicate n 'a')).toUTF8.size = n := size
  exact ⟨source, made, by omega⟩

theorem locate_of_replicate {source : Source}
    (made : ofText (String.ofList (List.replicate n 'a')) = .ok source)
    (length : source.length = n) (le : cut ≤ n) :
    source.locate cut = .ok (Location.mk 1 (cut + 1)).saturate := by
  obtain ⟨before, line, after, parts⟩ :=
    exists_cutAt (String.ofList (List.replicate n 'a')).toList cut
  have located := locate_of_valid made parts (isValid_replicate le) (by omega)
  obtain ⟨rfl, rfl⟩ := parts.of_replicate le
  rwa [List.length_replicate] at located

end Source

theorem Location.Counts.of_replicate {place : Location} {before line after : List Char}
    (counts : place.Counts (String.ofList (List.replicate n 'a')) cut before line)
    (parts : CutAt (String.ofList (List.replicate n 'a')).toList cut before line after)
    (le : cut ≤ n) : place = ⟨1, 1 + cut⟩ := by
  have column := counts.whole (isValid_replicate le)
  have lines := counts.lines
  obtain ⟨rfl, rfl⟩ := parts.of_replicate le
  rw [List.length_replicate] at column
  rw [List.nil_append, List.count_eq_zero_of_not_mem parts.unbroken] at lines
  cases place
  exact congrArg₂ Location.mk lines column

end replicate

/-- The place of an offset counts line breaks and characters. Its numbers exceed what an offset can
say only at the end of a text that is as long as that. -/
theorem Source.locate_counts {text : String} {source : Source}
    (made : Source.ofText text = .ok source) (offset : Nat) : ∃ before line after place,
      CutAt text.toList (min offset source.length) before line after ∧
      LineStart text.toUTF8 (min offset source.length) (byteLength before) ∧
      place.Counts text (min offset source.length) before line ∧
      source.locate offset = .ok place.saturate ∧
      (min offset source.length + 1 < offsetLimit → source.locate offset = .ok place) := by
  obtain ⟨before, line, after, parts⟩ := exists_cutAt text.toList (min offset source.length)
  have inside : min offset source.length ≤ text.utf8ByteSize := by
    obtain ⟨_, length⟩ := Source.ofText_shape made
    have size : text.toUTF8.size = text.utf8ByteSize := rfl
    omega
  obtain ⟨column, cutting⟩ := parts.columns_eq inside
  have located := Source.locate_of_cutAt made parts
  refine ⟨before, line, after, ⟨before.count '\n' + 1,
    columns (text.toUTF8.extract (byteLength before) (min offset source.length)) + 1⟩,
    parts, parts.lineStart, ⟨?_, ?_, ?_⟩, located, ?_⟩
  · rw [List.count_append, List.count_eq_zero_of_not_mem parts.unbroken]
    exact Nat.add_comm _ _
  · intro valid
    rw [← column valid]
    exact Nat.add_comm _ _
  · intro invalid
    rw [← cutting invalid]
    exact Nat.add_comm _ _
  · intro fits
    have lines := parts.count_le
    have width := columns_le_size
      (text.toUTF8.extract (byteLength before) (min offset source.length))
    rw [ByteArray.size_extract] at width
    rw [located, Nat.min_eq_left (by omega), Nat.min_eq_left (by omega)]

theorem Source.locate_counts_inside_arrow : ∃ source before line after place,
    Source.ofText "\na\n→b" = .ok source ∧
    CutAt "\na\n→b".toList 5 before line after ∧
    LineStart "\na\n→b".toUTF8 5 (byteLength before) ∧
    place.Counts "\na\n→b" 5 before line ∧
    source.locate 5 = .ok place ∧ place = ⟨3, 3⟩ := by
  have fits : "\na\n→b".utf8ByteSize < offsetLimit := by decide
  obtain ⟨cursor, opened⟩ := Cursor.exists_ofText fits
  obtain ⟨source, made, _⟩ := bind_eq_ok_iff.mp opened
  have length : source.length = 7 := (Source.ofText_shape made).2
  obtain ⟨before, line, after, place, parts, start, counts, _, fitting⟩ :=
    Source.locate_counts made 5
  rw [length] at parts start counts fitting
  have located := fitting (by decide)
  have found : (Source.ofText "\na\n→b" >>= (·.locate 5)).toOption = some ⟨3, 3⟩ := by
    decide +kernel
  rw [made, ok_bind, located] at found
  exact ⟨source, before, line, after, place, made, parts, start, counts, located,
    Option.some.inj found⟩

/-- At the end of the longest source of one line the column does not count all characters. -/
theorem Source.locate_counts_longest_line : ∃ text source,
    text = String.ofList (List.replicate 4294967295 'a') ∧ ofText text = .ok source ∧
    source.length = 4294967295 ∧ source.locate 4294967295 = .ok ⟨1, 4294967295⟩ ∧
    ∀ before line after place, CutAt text.toList 4294967295 before line after →
      place.Counts text 4294967295 before line →
        place = ⟨1, 4294967296⟩ ∧ source.locate 4294967295 ≠ .ok place := by
  have small : 4294967295 < offsetLimit := by decide
  obtain ⟨source, made, length⟩ := exists_ofText_replicate small
  have located := locate_of_replicate made length (Nat.le_refl _)
  refine ⟨_, source, rfl, made, length, located, ?_⟩
  intro before line after place parts counts
  obtain rfl := counts.of_replicate parts (Nat.le_refl _)
  refine ⟨rfl, ?_⟩
  intro same
  cases located.symm.trans same

end TemplateScanner
