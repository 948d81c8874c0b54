namespace TemplateScanner

/-- A code point lies in one of a list of ranges. Each range is given by its ends, both of which
belong to it, and the list ascends. -/
def inRanges : List (Nat × Nat) → Nat → Bool
  | [], _ => false
  | (first, last) :: ranges, n => first ≤ n && (n ≤ last || inRanges ranges n)

end TemplateScanner
