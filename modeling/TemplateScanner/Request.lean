import TemplateScanner.Kind

namespace TemplateScanner

/-- The kinds a host can accept at one point, as a byte: the bit of a kind stands at its index. The
three high bits name no kind; they are carried along and ask for nothing. -/
structure Request where
  bits : BitVec 8
deriving DecidableEq, Repr

/-- The request for one kind. -/
def Kind.flag (kind : Kind) : Request :=
  ⟨1#8 <<< kind.index⟩

namespace Request

def empty : Request :=
  ⟨0#8⟩

def union (r s : Request) : Request :=
  ⟨r.bits ||| s.bits⟩

def inter (r s : Request) : Request :=
  ⟨r.bits &&& s.bits⟩

def diff (r s : Request) : Request :=
  ⟨r.bits &&& ~~~s.bits⟩

def symmDiff (r s : Request) : Request :=
  ⟨r.bits ^^^ s.bits⟩

/-- The request for every kind of a list. -/
def ofKinds (kinds : List Kind) : Request :=
  kinds.foldl (fun r kind => r.union kind.flag) empty

/-- The request for every kind there is. -/
def all : Request :=
  ofKinds Kind.all

/-- The part of a byte that names kinds. -/
def truncate (bits : BitVec 8) : Request :=
  inter ⟨bits⟩ all

/-- A byte as a request, if each of its bits names a kind. -/
def ofBits? (bits : BitVec 8) : Option Request :=
  if truncate bits = ⟨bits⟩ then some ⟨bits⟩ else none

/-- The kinds that a request does not ask for. -/
def complement (r : Request) : Request :=
  truncate (~~~r.bits)

/-- Every bit of `s` is set in `r`. -/
def contains (r s : Request) : Bool :=
  r.inter s == s

/-- Some bit is set in both. -/
def intersects (r s : Request) : Bool :=
  r.inter s != empty

def isEmpty (r : Request) : Bool :=
  r == empty

/-- Every kind is asked for. -/
def isAll (r : Request) : Bool :=
  r.contains all

/-- The request asks for a kind. -/
def asksFor (r : Request) (kind : Kind) : Bool :=
  r.contains kind.flag

/-- The kinds asked for, in the order of the grammar. -/
def kinds (r : Request) : List Kind :=
  Kind.all.filter r.asksFor

/-- The request of a host that marks, by index, the symbols it can accept. Marks beyond the last
kind are not looked at, and a kind without a mark is not asked for. -/
def ofMarks (marks : List Bool) : Request :=
  ofKinds (((Kind.all.zip marks).filter (·.2)).map (·.1))

/-- The names of the kinds asked for, then the bits that name none as one hexadecimal number. -/
def parts (r : Request) : List String :=
  let unknown := r.diff all
  r.kinds.map Kind.flagName ++
    if unknown.isEmpty && !r.isEmpty then []
    else ["0x" ++ String.ofList (Nat.toDigits 16 unknown.bits.toNat)]

/-- A request as it stands in log records. -/
def describe (r : Request) : String :=
  "RequestedKinds(" ++ " | ".intercalate r.parts ++ ")"

theorem asksFor_eq_getLsbD (r : Request) (kind : Kind) :
    r.asksFor kind = r.bits.getLsbD kind.index := by
  obtain ⟨bits⟩ := r
  revert bits
  cases kind <;> decide

end Request

end TemplateScanner
