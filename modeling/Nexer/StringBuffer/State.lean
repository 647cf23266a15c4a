import Nexer.Text.Formatting
import Nexer.Text.Overlay
import Nexer.Transition.Machine

/-!
# The string buffer

`StringBuffer` is a stream over one block of memory.  Offsets are relative to the base of the
block, so that the put pointer is a number and the end pointer is the capacity.
-/

namespace Nexer.StringBuffer

open Nexer.Transition

/-- What the base points to. -/
inductive Base where
  | null
  | block (bytes : Bytes)
  | freed

/-- The answers of `realloc`: what stands in the bytes that it adds, or that it fails. -/
abbrev Heap := Nat → Option (Nat → UInt8)

namespace Base

def bytes : Base → Bytes
  | .block bytes => bytes
  | _ => []

def update (change : Bytes → Bytes) : Base → Base
  | .block bytes => .block (change bytes)
  | other => other

/-- What `realloc` makes of the block, and whether its result is a pointer.  A request of no bytes
frees the block. -/
def realloc (size : Nat) (answer : Option (Nat → UInt8)) : Base → Base × Bool
  | .null =>
      match answer with
      | some rest => (.block (resized size rest []), true)
      | none => (.null, false)
  | .block bytes =>
      if size = 0 then (.freed, false)
      else
        match answer with
        | some rest => (.block (resized size rest bytes), true)
        | none => (.block bytes, false)
  | .freed => (.freed, false)

end Base

/-- Besides the members, how often `realloc` was called and `Reserve` failed, and the accesses
outside of the block. -/
structure MyBuf where
  base : Base := .null
  cap : Nat := 0
  put : Int := 0
  calls : Nat := 0
  refusals : Nat := 0
  stray : List (Int × Nat) := []

def minSize : Nat := 512
def maxSize : Nat := 268435456

/-- The least multiple of `MIN_SIZE`, in the arithmetic of `size_t`. -/
def roundUp (newCap : Nat) : Nat := (newCap + (minSize - 1)) % sizeMax / minSize * minSize

/-- What `fopen`, `ftell` and `fread` make of a file: its length and the bytes that are read. -/
structure File where
  length : Nat
  got : Bytes
  bounded : length < 2 ^ 63
  inside : got.length ≤ length

namespace MyBuf

def size (buf : MyBuf) : Nat := toSize buf.put

def setp (buf : MyBuf) : MyBuf := { buf with put := 0 }

def pbump (buf : MyBuf) (n : Int) : MyBuf := { buf with put := buf.put + n }

/-- An access to a range of the block. -/
def touch (buf : MyBuf) (start : Int) (length : Nat) : MyBuf :=
  let outside := if InBlock start length buf.base.bytes.length then [] else [(start, length)]
  { buf with stray := buf.stray ++ outside }

def store (buf : MyBuf) (start : Int) (bytes : Bytes) : MyBuf :=
  { buf.touch start bytes.length with base := buf.base.update (overlay start bytes) }

/-- `memset(base + start, 0, length)` -/
def zero (buf : MyBuf) (start : Int) (length : Nat) : MyBuf :=
  buf.store start (List.replicate length 0)

/-- `Reserve`: the buffer after it, and the code that it returns. -/
def reserve (heap : Heap) (buf : MyBuf) (newCap : Nat) : MyBuf × Int :=
  if buf.cap < newCap then
    let newCap := roundUp newCap
    if newCap ≤ maxSize then
      let (base, granted) := buf.base.realloc newCap (heap buf.calls)
      let buf := { buf with base, calls := buf.calls + 1 }
      if granted then
        let size := toInt buf.put
        let buf := { buf with cap := newCap }
        let buf := buf.zero size (toSize (newCap - size))
        (buf.setp.pbump size, 0)
      else ({ buf with refusals := buf.refusals + 1 }, -1)
    else ({ buf with refusals := buf.refusals + 1 }, -2)
  else (buf, 0)

/-- `MyBuf::Resize` -/
def resize (heap : Heap) (buf : MyBuf) (newSize : Nat) : MyBuf :=
  let oldSize := buf.size
  let buf :=
    if newSize < oldSize then buf.zero newSize (oldSize - newSize)
    else if buf.cap < newSize then (buf.reserve heap newSize).1
    else buf
  buf.setp.pbump (toInt newSize)

/-- `MyBuf::Consume`; `memmove` reads all bytes before it stores them. -/
def consume (heap : Heap) (buf : MyBuf) (n : Nat) : MyBuf :=
  if 0 < n then
    let rest := toSize (buf.size - n)
    let moved := ((buf.base.bytes.drop n).take rest)
    let buf := ((buf.touch n rest).touch 0 rest).store 0 moved
    buf.resize heap (toSize (buf.size - n))
  else buf

/-- `MyBuf::Clear` -/
def clear (buf : MyBuf) : MyBuf :=
  (buf.zero 0 buf.cap).setp

def eof : Int := -1

/-- `MyBuf::overflow`, which returns its argument. -/
def overflow (heap : Heap) (buf : MyBuf) (c : Int) : MyBuf :=
  if c ≠ eof then
    let buf := (buf.reserve heap ((buf.cap + 1) % sizeMax)).1
    (buf.store buf.put [UInt8.ofInt c]).pbump 1
  else buf

/-- `std::streambuf::sputc`, which stores up to the end pointer by itself. -/
def sputc (heap : Heap) (buf : MyBuf) (c : UInt8) : MyBuf :=
  if buf.put < buf.cap then (buf.store buf.put [c]).pbump 1 else buf.overflow heap c.toNat

/-- `MyBuf::Write`: the buffer after it, and what it returns. -/
def write (heap : Heap) (buf : MyBuf) (s : Bytes) : MyBuf × Int :=
  let size := buf.size
  let newCap := (size + s.length + 1) % sizeMax
  let (buf, code) := if buf.cap < newCap then buf.reserve heap newCap else (buf, 0)
  if code ≠ 0 then (buf, -1)
  else ((buf.store size s).pbump (toInt s.length), s.length)

def vsnprintf (buf : MyBuf) (start : Int) (room : Nat) (format : Formatting) : MyBuf × Int :=
  (buf.store start (format.stores room), format.returns room)

/-- The loop of `vprintf`, for as many turns as `fuel` says. -/
def vprintfLoop (heap : Heap) (format : Formatting) (size : Nat) :
    Nat → MyBuf → Option (MyBuf × Int)
  | 0, _ => none
  | fuel + 1, buf =>
      let m := toInt (buf.cap - size)
      let (buf, n) := buf.vsnprintf size (toSize m) format
      if -1 < n ∧ n < m then some (buf.pbump n, n)
      else
        let m := if -1 < n then toInt (n + 1) else toInt (2 * m)
        let newCap := toSize (size + m + 1)
        let (buf, code) := if buf.cap < newCap then buf.reserve heap newCap else (buf, 0)
        if code ≠ 0 then some (buf, -1) else vprintfLoop heap format size fuel buf

/-- More turns than there are capacities. -/
def turns : Nat := maxSize / minSize + 2

def vprintf (heap : Heap) (buf : MyBuf) (format : Formatting) : Option (MyBuf × Int) :=
  vprintfLoop heap format buf.size turns buf

/-- `StringBuffer::Reserve` -/
def reserveMore (heap : Heap) (buf : MyBuf) (n : Nat) : MyBuf × Bool :=
  if toSize (buf.cap - buf.size) < n then
    let (buf, code) := buf.reserve heap ((buf.size + n) % sizeMax)
    (buf, code = 0)
  else (buf, true)

/-- `StringBuffer::read`, where `fread` returns these bytes of the file. -/
def read (heap : Heap) (buf : MyBuf) (n : Nat) (got : Bytes) : MyBuf × Bool :=
  let buf := (buf.reserve heap ((buf.size + n) % sizeMax)).1
  let buf := buf.store buf.size got
  if got.length = n then (buf.resize heap ((buf.size + n) % sizeMax), true) else (buf, false)

/-- `StringBuffer::Load` -/
def load (heap : Heap) (buf : MyBuf) : Option File → MyBuf × Bool
  | some file => buf.clear.read heap file.length file.got
  | none => (buf, false)

end MyBuf

/-- A string in memory, which is shorter than the address space. -/
structure Source where
  bytes : Bytes
  bounded : bytes.length < 2 ^ 63

/-- The bytes that `StringBuffer::Write(s, n)` appends: with no length, those before the NUL. -/
def written (s : Source) (n : UInt64) : Bytes :=
  if n = 0 then cString s.bytes else s.bytes.take n.toNat

/-- The public operations.  An insertion into the stream is a sequence of `sputn` and `sputc`. -/
inductive Op where
  | write (s : Source) (n : UInt64)
  | writeChar (ch : Int)
  | sputn (s : Source)
  | sputc (c : UInt8)
  | printf (format : Formatting)
  | consume (n : UInt64)
  | resize (newSize : UInt64)
  | reserve (n : UInt64)
  | clear
  | load (file : Option File)

/-- An operation on the buffer; `none` when the turns of a loop do not suffice. -/
def Op.apply (heap : Heap) (buf : MyBuf) : Op → Option MyBuf
  | .write s n => some (buf.write heap (written s n)).1
  | .writeChar ch => some (buf.write heap [UInt8.ofInt ch]).1
  | .sputn s => some (buf.write heap s.bytes).1
  | .sputc c => some (buf.sputc heap c)
  | .printf format => (buf.vprintf heap format).map Prod.fst
  | .consume n => some (buf.consume heap n.toNat)
  | .resize newSize => some (buf.resize heap newSize.toNat)
  | .reserve n => some (buf.reserveMore heap n.toNat).1
  | .clear => some buf.clear
  | .load file => some (buf.load heap file).1

/-- Runs report the operations themselves. -/
def step (heap : Heap) : Machine MyBuf Op Op :=
  fun buf op => (op.apply heap buf).map fun next => (next, [op])

end Nexer.StringBuffer
