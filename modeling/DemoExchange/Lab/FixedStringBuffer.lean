import DemoExchange.Lab.FixedString

/-!
# The buffer of a `lab::fixed_string`

`lab/fixed_string.hpp`. The length stands in the first byte, the content after
it, and `N + 2` bytes are kept, so that there is always a terminator. Hashing
reads the whole buffer and comparing only the content.
-/

namespace DemoExchange.Lab
set_option autoImplicit false
open Text

/-- The parameter `N`: the length has to fit into a `signed char`. -/
abbrev MaxSize := Fin 128

inductive FixedStringTruncationPolicy where
  | strict
  | autoTruncate
  deriving DecidableEq, Repr

/-- A value of `std::integral` type that can be formatted. -/
inductive Integral where
  | boolean (b : Bool)
  | character (c : UInt8)
  | number (i : Int)
  deriving DecidableEq, Repr

/-- The format `{}`. -/
def Integral.format : Integral → Bytes
  | .boolean true => ascii "true"
  | .boolean false => ascii "false"
  | .character c => [c]
  | .number (.ofNat n) => decimal n
  | .number (.negSucc n) => '-'.toUInt8 :: decimal (n + 1)

/-- `fixed_string<N, Policy>`. -/
structure FixedStringBuffer (n : MaxSize) (policy : FixedStringTruncationPolicy) where
  buffer : Bytes
  truncated : Bool
  deriving DecidableEq, Repr

section Bytes

/-- `std::copy` into a buffer. Bytes past its end would make it longer. -/
def copyTo (start : Nat) (source buffer : Bytes) : Bytes :=
  buffer.take start ++ source ++ buffer.drop (start + source.length)

/-- `std::fill` with 0 up to the end of a buffer. -/
def clearFrom (start : Nat) (buffer : Bytes) : Bytes := buffer.take start ++ List.replicate (buffer.length - start) 0

/-- `buffer_[0] = size`. -/
def setLength (size : Nat) (buffer : Bytes) : Bytes := buffer.set 0 (UInt8.ofNat size)

end Bytes

/-- A buffer as it is initialized. -/
def blank (n : MaxSize) : Bytes := List.replicate (n.val + 2) 0

namespace FixedStringBuffer

variable {n m : MaxSize} {policy otherPolicy : FixedStringTruncationPolicy}

/-- The default constructor. -/
def new : FixedStringBuffer n policy := ⟨blank n, false⟩

def size (fs : FixedStringBuffer n policy) : Nat := (fs.buffer.headD 0).toNat

def toStringView (fs : FixedStringBuffer n policy) : Bytes := (fs.buffer.drop 1).take fs.size

/-- `operator==`, the right side converted to its view. -/
def eq (fs fs' : FixedStringBuffer n policy) : Bool := fs.toStringView = fs'.toStringView

/-- `hash_value`; how `boost::hash_range` mixes the bytes is a parameter. -/
def hashValue (hashRange : Bytes → UInt64) (fs : FixedStringBuffer n policy) : UInt64 := hashRange fs.buffer

/-- `std::hash`. -/
def stdHash (hashRange : Bytes → UInt64) (fs : FixedStringBuffer n policy) : UInt64 := hashRange fs.buffer

/-- From an array of characters, all but the last of which are `str`. -/
def ofLiteral (str : Bytes) : FixedStringBuffer n policy := ⟨setLength str.length (copyTo 1 str (blank n)), false⟩

def fromStringView (sv : Bytes) : FixedStringBuffer n policy :=
  let size := min sv.length n
  ⟨copyTo 1 (sv.take size) (setLength size (blank n)), n < sv.length⟩

/-- From a `std::string_view`, or from a pointer and a size. -/
def ofStringView (sv : Bytes) : FixedStringBuffer n .autoTruncate := fromStringView sv

def truncateFrom (sv : Bytes) : FixedStringBuffer n .strict := fromStringView sv

/-- `from` of a `std::string_view`, or of a pointer and a size. -/
def fromView (sv : Bytes) : Result (FixedStringBuffer n .strict) :=
  if sv.length > n then makeLeafError .outOfBounds (ascii "max size exceeded") else .ok (fromStringView sv)

/-- `from` of a number. `format_to_n` writes what fits and answers how long the text is. -/
def fromIntegral (number : Integral) : Result (FixedStringBuffer n policy) :=
  let text := number.format
  let buffer := copyTo 1 (text.take n) (blank n)
  if text.length > n then
    makeLeafError .outOfBounds (ascii "number " ++ text ++ ascii " exceeds max string size " ++ decimal n)
  else .ok ⟨setLength text.length buffer, false⟩

/-- The copy constructor of another size or policy. -/
def convert (other : FixedStringBuffer m otherPolicy) : FixedStringBuffer n policy := ⟨copyTo 0 other.buffer (blank n), other.truncated⟩

/-- The move constructor of another size or policy: to move characters is to copy them. -/
def convertMove (other : FixedStringBuffer m otherPolicy) : FixedStringBuffer n policy := ⟨copyTo 0 other.buffer (blank n), other.truncated⟩

/-- The copy assignment of another size or policy. -/
def assignFrom (fs : FixedStringBuffer n policy) (other : FixedStringBuffer m otherPolicy) : FixedStringBuffer n policy :=
  ⟨clearFrom (m.val + 2) (copyTo 0 other.buffer fs.buffer), other.truncated⟩

/-- The move assignment of another size or policy. -/
def moveAssignFrom (fs : FixedStringBuffer n policy) (other : FixedStringBuffer m otherPolicy) : FixedStringBuffer n policy :=
  ⟨clearFrom (m.val + 2) (copyTo 0 other.buffer fs.buffer), other.truncated⟩

def removeSuffix (fs : FixedStringBuffer n policy) (chars : Bytes) : FixedStringBuffer n policy :=
  let sv := fs.toStringView
  let sv := if chars <:+ sv then sv.take (sv.length - chars.length) else sv
  ⟨copyTo 1 sv (setLength sv.length (blank n)), fs.truncated⟩

end FixedStringBuffer

/-- A finite chain of constructions and assignments. A conversion goes to a
string that is not shorter, a literal fits where it goes. -/
inductive Chain : MaxSize → FixedStringTruncationPolicy → Type where
  | new {n : MaxSize} {p : FixedStringTruncationPolicy} : Chain n p
  | literal {n : MaxSize} {p : FixedStringTruncationPolicy} (str : Bytes) (fits : str.length ≤ n) : Chain n p
  | stringView {n : MaxSize} (sv : Bytes) : Chain n .autoTruncate
  | truncateFrom {n : MaxSize} (sv : Bytes) : Chain n .strict
  | fromView {n : MaxSize} (sv : Bytes) : Chain n .strict
  | fromIntegral {n : MaxSize} {p : FixedStringTruncationPolicy} (number : Integral) : Chain n p
  | copy {n : MaxSize} {p : FixedStringTruncationPolicy} (other : Chain n p) : Chain n p
  | move {n : MaxSize} {p : FixedStringTruncationPolicy} (other : Chain n p) : Chain n p
  | assign {n : MaxSize} {p : FixedStringTruncationPolicy} (target other : Chain n p) : Chain n p
  | moveAssign {n : MaxSize} {p : FixedStringTruncationPolicy} (target other : Chain n p) : Chain n p
  | convert {m n : MaxSize} {p q : FixedStringTruncationPolicy} (other : Chain m q) (fits : m ≤ n) : Chain n p
  | convertMove {m n : MaxSize} {p q : FixedStringTruncationPolicy} (other : Chain m q) (fits : m ≤ n) :
    Chain n p
  | assignFrom {m n : MaxSize} {p q : FixedStringTruncationPolicy} (target : Chain n p) (other : Chain m q)
    (fits : m ≤ n) : Chain n p
  | moveAssignFrom {m n : MaxSize} {p q : FixedStringTruncationPolicy} (target : Chain n p)
    (other : Chain m q) (fits : m ≤ n) : Chain n p
  | removeSuffix {n : MaxSize} {p : FixedStringTruncationPolicy} (value : Chain n p) (chars : Bytes) : Chain n p

/-- What the chain leaves. The defaulted members copy the object. -/
def Chain.eval {n : MaxSize} {policy : FixedStringTruncationPolicy} : Chain n policy → Result (FixedStringBuffer n policy)
  | .new => .ok .new
  | .literal str _ => .ok (.ofLiteral str)
  | .stringView sv => .ok (.ofStringView sv)
  | .truncateFrom sv => .ok (.truncateFrom sv)
  | .fromView sv => FixedStringBuffer.fromView sv
  | .fromIntegral number => FixedStringBuffer.fromIntegral number
  | .copy other => other.eval
  | .move other => other.eval
  | .assign target other => do
    let _ ← target.eval
    other.eval
  | .moveAssign target other => do
    let _ ← target.eval
    other.eval
  | .convert other _ => do
    let other ← other.eval
    return other.convert
  | .convertMove other _ => do
    let other ← other.eval
    return other.convertMove
  | .assignFrom target other _ => do
    let fs ← target.eval
    let other ← other.eval
    return fs.assignFrom other
  | .moveAssignFrom target other _ => do
    let fs ← target.eval
    let other ← other.eval
    return fs.moveAssignFrom other
  | .removeSuffix value chars => do
    let fs ← value.eval
    return fs.removeSuffix chars

end DemoExchange.Lab
