import Cetty.BufferGetters
import Cetty.HttpHeader

/-!
# The strings of the HTTP decoder

A `FastString` points into the array of the buffer that is decoded, and the decoder writes the
terminators of its strings there. A program on the array may leave it and stops then.
-/

namespace Cetty

open CLocale

abbrev Memory (Value : Type) := Exec CharArray Value

namespace Memory

def load (address : Int) : Memory Byte := do
  let cells ← get
  if 0 ≤ address ∧ address < cells.length then pure (cells.getD address.toNat 0)
  else throw .outOfBounds

def store (address : Int) (c : Byte) : Memory Unit := do
  let cells ← get
  if 0 ≤ address ∧ address < cells.length then set (cells.set address.toNat c)
  else throw .outOfBounds

end Memory

/-- No `data` is the null pointer. -/
structure FastString where
  data : Option Int
  size : Int
  deriving DecidableEq, Repr

namespace FastString

def fresh : FastString := ⟨none, 0⟩

def empty (this : FastString) : Bool := this.size == 0

def length (this : FastString) : Int := this.size

/-- `operator[]`. -/
def char (this : FastString) (index : Int) : Memory Byte :=
  match this.data with
  | some data => Memory.load (data + index)
  | none => throw .outOfBounds

def setChar (this : FastString) (index : Int) (c : Byte) : Memory Unit :=
  match this.data with
  | some data => Memory.store (data + index) c
  | none => throw .outOfBounds

def at_ (this : FastString) (index : Int) : Memory Byte :=
  if index < this.size then this.char index else throw .assertion

def substring (this : FastString) (start end_ : Int) : FastString :=
  if start < end_ then ⟨this.data.map (· + start), end_ - start⟩ else fresh

def blank (c : Byte) : Bool := c == HttpCodecUtil.SP || c == HttpCodecUtil.HT

/-- The second loop of `trim`; it reads the character before it looks at the size. -/
def trimSize (this : FastString) : Nat → Int → Memory Int
  | 0, _ => throw .outOfFuel
  | rounds + 1, newSize => do
      let c ← this.char (newSize - 1)
      if blank c ∧ 0 < newSize then trimSize this rounds (newSize - 1) else pure newSize

/-- The first loop moves its pointer on and back again. -/
def trim (this : FastString) : Memory FastString := do
  let c ← this.char 0
  if blank c ∧ 0 < this.size then throw .diverges
  let newSize ← this.trimSize (this.size.toNat + 1) this.size
  this.setChar newSize 0
  pure ⟨this.data, newSize⟩

def equalsIgnoreCase (_ : FastString) (_ : Text) : Bool := true

/-- The characters from an address to the next terminator. -/
def stringAt (address : Int) : Memory Text := do
  let cells ← get
  if address < 0 ∨ ¬(0 : Byte) ∈ cells.drop address.toNat then throw .outOfBounds
  else pure ((cells.drop address.toNat).takeWhile (· != 0))

/-- A `std::string` made of `c_str()`. -/
def toString (this : FastString) : Memory Text :=
  match this.data with
  | some data => stringAt data
  | none => throw .outOfBounds

/-- The first index from `result` on at which `found` holds. -/
def scan (found : Byte → Bool) (sb : FastString) : Nat → Int → Memory Int
  | 0, result => pure result
  | rounds + 1, result => do
      if found (← sb.at_ result) then pure result else scan found sb rounds (result + 1)

def scanFrom (found : Byte → Bool) (sb : FastString) (offset : Int) : Memory Int :=
  scan found sb (sb.length - offset).toNat offset

def findNonWhitespace (sb : FastString) (offset : Int) : Memory Int :=
  scanFrom (fun c => !Character.isWhitespace c) sb offset

def findWhitespace (sb : FastString) (offset : Int) : Memory Int :=
  scanFrom Character.isWhitespace sb offset

def scanBack (sb : FastString) : Nat → Memory Int
  | 0 => pure 0
  | result + 1 => do
      if Character.isWhitespace (← sb.at_ result) then scanBack sb result
      else pure (result + 1 : Nat)

def findEndOfString (sb : FastString) : Memory Int :=
  if 0 < sb.length then scanBack sb sb.length.toNat else pure sb.length

/-- Nothing is returned when the line is empty. -/
def splitInitialLine (sb : FastString) : Memory (Option (List FastString)) :=
  if sb.empty then pure none
  else do
    let aStart ← findNonWhitespace sb 0
    let aEnd ← findWhitespace sb aStart
    let bStart ← findNonWhitespace sb aEnd
    let bEnd ← findWhitespace sb bStart
    let cStart ← findNonWhitespace sb bEnd
    let cEnd ← findEndOfString sb
    sb.setChar aEnd 0
    sb.setChar bEnd 0
    pure (some [sb.substring aStart aEnd, sb.substring bStart bEnd, sb.substring cStart cEnd])

/-- The name and the value of a header line. -/
def splitHeader (sb : FastString) : Memory (FastString × FastString) := do
  let length := sb.length
  let nameStart ← findNonWhitespace sb 0
  let nameEnd ← scanFrom (fun ch => ch == HttpCodecUtil.COLON || Character.isWhitespace ch) sb
    nameStart
  let colon ← scanFrom (fun ch => ch == HttpCodecUtil.COLON) sb nameEnd
  let colonEnd := if colon < length then colon + 1 else colon
  let valueStart ← findNonWhitespace sb colonEnd
  if valueStart = length then pure (sb.substring nameStart nameEnd, fresh)
  else
    let valueEnd ← findEndOfString sb
    sb.setChar nameEnd 0
    pure (sb.substring nameStart nameEnd, sb.substring valueStart valueEnd)

/-- Where the size ends in a chunk-size line. -/
def endsSize (c : Byte) : Bool :=
  c == 59 || Character.isWhitespace c || Character.isISOControl c

/-- `Integer::parse(s, 16)`; the cast to `int` wraps. -/
def parseHex (s : Text) : Except Stop Int :=
  match scanHex s with
  | some value => pure (MachineInt.int32 value)
  | none =>
      throw (.thrown ⟨.syntaxError,
        if s = [] then "Not a valid integer" else "Not a valid integer: " ++ display s⟩)

/-- The part cut off at a separator is no string of its own: `c_str()` goes on to the terminator. -/
def getChunkSize (hex : FastString) : Memory Int := do
  let h ← hex.trim
  let i ← scanFrom endsSize h 0
  let h := if i < h.length then h.substring 0 i else h
  if h.data = none then throw .assertion
  let s ← h.toString
  call (parseHex s)

end FastString

end Cetty
