namespace TemplateScanner

/-- Why a checked step could not be taken. -/
inductive Fault where
  /-- A sum or a difference left the range of its word. -/
  | overflow
  /-- Bytes outside the buffer were asked for. -/
  | outOfBounds
  /-- The byte right after the source is not the zero that ends it. -/
  | unterminated
  /-- A loop did not end within the budget its input gives it. -/
  | stalled
deriving DecidableEq, Repr

/-- Byte offsets, line and column numbers and the counters that follow them stay below this. -/
def offsetLimit : Nat :=
  0x100000000

/-- Indices into a buffer held in memory stay below this. -/
def indexLimit : Nat :=
  0x10000000000000000

/-- The sum of two numbers below a limit, which has to stay below it too. -/
def checkedAdd (limit a b : Nat) : Except Fault Nat :=
  if a + b < limit then .ok (a + b) else .error .overflow

/-- The difference of two unsigned numbers. -/
def checkedSub (a b : Nat) : Except Fault Nat :=
  if b ≤ a then .ok (a - b) else .error .overflow

/-- The bytes of a buffer from `start` up to `stop`, both of which have to lie in it. -/
def checkedSlice (bytes : ByteArray) (start stop : Nat) : Except Fault ByteArray :=
  if start ≤ stop ∧ stop ≤ bytes.size then .ok (bytes.extract start stop) else .error .outOfBounds

/-- The byte of a buffer at `index`, which has to lie in it. -/
def checkedByte (bytes : ByteArray) (index : Nat) : Except Fault UInt8 :=
  if h : index < bytes.size then .ok bytes[index] else .error .outOfBounds

end TemplateScanner
