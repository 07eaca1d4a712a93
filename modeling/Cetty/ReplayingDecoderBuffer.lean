import Cetty.BufferSearch
import Cetty.BufferAccesses

/-!
# The buffer a replaying decoder reads through

A shortage is not thrown: it is recorded in a flag, which every operation writes anew.
-/

namespace Cetty

open MachineInt ByteWindow

structure ReplayingDecoderBuffer where
  needMore : Bool
  terminated : Bool
  buffer : ChannelBuffer

abbrev ReplayM (Value : Type) := Exec ReplayingDecoderBuffer Value

namespace ReplayingDecoderBuffer

def make (buffer : ChannelBuffer) : ReplayingDecoderBuffer := ⟨false, false, buffer⟩

def terminate (this : ReplayingDecoderBuffer) : ReplayingDecoderBuffer :=
  { this with terminated := true }

def onBuffer {Value : Type} (program : BufferM Value) : ReplayM Value :=
  focus (fun this => this.buffer) (fun this buffer => { this with buffer := buffer }) program

/-- The three checks differ in what they compare. -/
def check (received : ChannelBuffer → Bool) : ReplayM Bool := do
  let this ← get
  set { this with needMore := !received this.buffer }
  pure (received this.buffer)

def checkIndex (index : Int) : ReplayM Bool :=
  check fun buffer => decide (index ≤ buffer.writerIdx)

def checkRange (index length : Int) : ReplayM Bool :=
  check fun buffer => decide (int32 (index + length) ≤ buffer.writerIdx)

def checkReadableBytes (readableBytes : Int) : ReplayM Bool :=
  check fun buffer => decide (readableBytes ≤ buffer.readableBytes)

/-- An operation that is passed on when its check holds. -/
def guarded {Value : Type} (checked : ReplayM Bool) (program : BufferM Value) (otherwise : Value) :
    ReplayM Value := do
  if ← checked then onBuffer program else pure otherwise

def read (reader : Reader) : ReplayM Int :=
  guarded (checkReadableBytes reader.width) reader.program 0

def readBytes (length : Int) : ReplayM ChannelBuffer :=
  guarded (checkReadableBytes length) (BufferM.readBytes length) .emptyBuffer

def readArray (dst : CharArray) (dstIndex length : Int) : ReplayM CharArray :=
  guarded (checkReadableBytes length) (BufferM.readArray dst dstIndex length) dst

def readSlice (length : Int) : ReplayM ChannelBuffer :=
  guarded (checkReadableBytes length) (BufferM.readSlice length) .emptyBuffer

def skipBytes (length : Int) : ReplayM Unit :=
  guarded (checkReadableBytes length) (BufferM.skipBytes length) ()

/-- Only the single byte is checked without a length. -/
def checkTyped (kind : TypedRead) (index : Int) : ReplayM Bool :=
  match kind with
  | .byte => checkIndex index
  | _ => checkRange index kind.width

def getTyped (kind : TypedRead) (index : Int) : ReplayM Nat :=
  guarded (checkTyped kind index) (do call (kind.fetch (← get).getters index)) 0

def getBytes (index : Int) (dst : CharArray) (dstIndex length : Int) : ReplayM CharArray :=
  guarded (checkRange index length)
    (do call ((← get).getters.getBytes index dst dstIndex length)) dst

/-- A search is made first, and what it returns decides about the flag. -/
def searched (look : ChannelBuffer → Except Stop Int) : ReplayM Int := do
  let endIndex ← call (look (← get).buffer)
  modify fun this => { this with needMore := decide (endIndex < 0) }
  pure endIndex

def indexOf (fromIndex toIndex : Int) (find : Finder) : ReplayM Int :=
  searched fun buffer => buffer.getters.indexOf fromIndex toIndex find

def bytesBefore (find : Finder) : ReplayM Int :=
  searched fun buffer => buffer.getters.bytesBefore buffer.readerIdx buffer.readableBytes find

def bytesBeforeWithin (length : Int) (find : Finder) : ReplayM Int := do
  if ← checkReadableBytes length then
    searched fun buffer => buffer.getters.bytesBefore buffer.readerIdx length find
  else pure (-1)

def bytesBeforeFrom (index length : Int) (find : Finder) : ReplayM Int :=
  searched fun buffer => buffer.getters.bytesBefore index length find

end ReplayingDecoderBuffer

/-- The get and the read operations of a decode call. -/
inductive ReplayCall where
  | read (reader : Reader)
  | readBytes (length : Int)
  | readArray (dst : CharArray) (dstIndex length : Int)
  | readSlice (length : Int)
  | skipBytes (length : Int)
  | getTyped (kind : TypedRead) (index : Int)
  | getBytes (index : Int) (dst : CharArray) (dstIndex length : Int)
  | indexOf (fromIndex toIndex : Int) (find : Finder)
  | bytesBefore (find : Finder)
  | bytesBeforeWithin (length : Int) (find : Finder)
  | bytesBeforeFrom (index length : Int) (find : Finder)

/-- What an operation returns; of a returned buffer, the bytes it shows. -/
inductive ReplayAnswer where
  | value (number : Int)
  | bits (number : Nat)
  | bytes (shown : CharArray)
  | nothing
  deriving DecidableEq, Repr

namespace ReplayCall

def program : ReplayCall → ReplayM ReplayAnswer
  | read reader => do return .value (← ReplayingDecoderBuffer.read reader)
  | readBytes length => do
      return .bytes (← ReplayingDecoderBuffer.readBytes length).readableContent
  | readArray dst dstIndex length => do
      return .bytes (← ReplayingDecoderBuffer.readArray dst dstIndex length)
  | readSlice length => do
      return .bytes (← ReplayingDecoderBuffer.readSlice length).readableContent
  | skipBytes length => do
      ReplayingDecoderBuffer.skipBytes length
      pure .nothing
  | getTyped kind index => do return .bits (← ReplayingDecoderBuffer.getTyped kind index)
  | getBytes index dst dstIndex length => do
      return .bytes (← ReplayingDecoderBuffer.getBytes index dst dstIndex length)
  | indexOf fromIndex toIndex find => do
      return .value (← ReplayingDecoderBuffer.indexOf fromIndex toIndex find)
  | bytesBefore find => do return .value (← ReplayingDecoderBuffer.bytesBefore find)
  | bytesBeforeWithin length find => do
      return .value (← ReplayingDecoderBuffer.bytesBeforeWithin length find)
  | bytesBeforeFrom index length find => do
      return .value (← ReplayingDecoderBuffer.bytesBeforeFrom index length find)

/-- What a caller sees of the operation: what it returns or throws. -/
def outcome (call_ : ReplayCall) (this : ReplayingDecoderBuffer) : Except Stop ReplayAnswer :=
  match call_.program.run this with
  | .ok answer _ => .ok answer
  | .error stop _ => .error stop

def after (call_ : ReplayCall) (this : ReplayingDecoderBuffer) : ReplayingDecoderBuffer :=
  match call_.program.run this with
  | .ok _ next => next
  | .error _ next => next

end ReplayCall

namespace ReplayingDecoderBuffer

/-- The bytes in front of the writer index. -/
def received (this : ReplayingDecoderBuffer) : CharArray :=
  this.buffer.content.take this.buffer.writerIdx.toNat

end ReplayingDecoderBuffer

namespace ReplayCall

open ReplayingDecoderBuffer

/-- A run of `length` bytes from `index` on is not all there. -/
def Beyond (this : ReplayingDecoderBuffer) (index length : Int) : Prop :=
  0 < length ∧ this.buffer.writerIdx < index + length

instance (this : ReplayingDecoderBuffer) (index length : Int) : Decidable (Beyond this index length) :=
  inferInstanceAs (Decidable (_ ∧ _))

/-- The operation is about bytes that have not been received. A search is until it has found what it
looks for; without an end it goes on through all that will ever be received. -/
def Needs (this : ReplayingDecoderBuffer) : ReplayCall → Prop
  | read reader => Beyond this this.buffer.readerIdx reader.width
  | readBytes length => Beyond this this.buffer.readerIdx length
  | readArray _ _ length => Beyond this this.buffer.readerIdx length
  | readSlice length => Beyond this this.buffer.readerIdx length
  | skipBytes length => Beyond this this.buffer.readerIdx length
  | getTyped kind index => Beyond this index kind.width
  | getBytes index _ _ length => Beyond this index length
  | indexOf fromIndex toIndex find =>
      if fromIndex ≤ toIndex then
        this.buffer.writerIdx < toIndex ∧ ¬Found this.received find (max fromIndex 0) toIndex
      else this.buffer.writerIdx < fromIndex
  | bytesBefore find =>
      ¬Found this.received find (max this.buffer.readerIdx 0) this.buffer.writerIdx
  | bytesBeforeWithin length _ => Beyond this this.buffer.readerIdx length
  | bytesBeforeFrom index length find =>
      if 0 ≤ length then
        this.buffer.writerIdx < index + length ∧
          ¬Found this.received find (max index 0) (index + length)
      else this.buffer.writerIdx < index

instance (this : ReplayingDecoderBuffer) : (call_ : ReplayCall) → Decidable (call_.Needs this)
  | read _ | readBytes _ | readArray _ _ _ | readSlice _ | skipBytes _ | getTyped _ _
  | getBytes _ _ _ _ | bytesBeforeWithin _ _ => inferInstanceAs (Decidable (Beyond this _ _))
  | indexOf _ _ _ => inferInstanceAs (Decidable (ite _ _ _))
  | bytesBefore _ => inferInstanceAs (Decidable (¬_))
  | bytesBeforeFrom _ _ _ => inferInstanceAs (Decidable (ite _ _ _))

/-- The operations the flag is right about and that keep to the received bytes. -/
def Proper (this : ReplayingDecoderBuffer) : ReplayCall → Prop
  | read _ | readBytes _ | readArray _ _ _ | readSlice _ | skipBytes _ | bytesBefore _ =>
      this.buffer.writerIdx - this.buffer.readerIdx ≤ maxInt
  | getTyped .byte index => index ≠ this.buffer.writerIdx
  | getTyped kind index => minInt ≤ index ∧ index + kind.width ≤ maxInt
  | getBytes index _ _ length =>
      minInt ≤ index + length ∧ index + length ≤ maxInt ∧
        (0 < length ∨ index + length ≤ this.buffer.writerIdx)
  | indexOf fromIndex toIndex find =>
      if fromIndex ≤ toIndex then Found this.received find (max fromIndex 0) toIndex
      else fromIndex ≤ this.buffer.writerIdx ∧ Found this.received find toIndex fromIndex
  | bytesBeforeWithin length find =>
      this.buffer.writerIdx - this.buffer.readerIdx ≤ maxInt ∧
        (Beyond this this.buffer.readerIdx length ∨
          Found this.received find (max this.buffer.readerIdx 0) (this.buffer.readerIdx + length))
  | bytesBeforeFrom index length find =>
      length ≤ maxInt ∧ index + length ≤ maxInt ∧
        Found this.received find (max index 0) (index + length)

/-- Whatever the cells that no byte has been written to hold, the outcome is the same. -/
def Blind (call_ : ReplayCall) (this : ReplayingDecoderBuffer) : Prop :=
  ∀ cells : CharArray, cells.length = this.buffer.content.length →
    cells.take this.buffer.writerIdx.toNat = this.received →
    call_.outcome { this with buffer := this.buffer.withBytes cells } = call_.outcome this

end ReplayCall

namespace ReplayingDecoderBuffer

/-- The operations of a decode call, each with the state it is made in. -/
def trace (this : ReplayingDecoderBuffer) :
    List ReplayCall → List (ReplayingDecoderBuffer × ReplayCall)
  | [] => []
  | call_ :: rest => (this, call_) :: trace (call_.after this) rest

def finish (this : ReplayingDecoderBuffer) (calls : List ReplayCall) : ReplayingDecoderBuffer :=
  calls.foldl (fun state call_ => call_.after state) this

/-- No value comes from a byte that is missing, and the flag is about such bytes. -/
structure TellsTruth (this : ReplayingDecoderBuffer) (calls : List ReplayCall) : Prop where
  values : ∀ made ∈ this.trace calls, made.2.Blind made.1
  flag : (this.finish calls).needMore = true ↔ ∃ made ∈ this.trace calls, made.2.Needs made.1

/-- After a shortage only operations follow that find bytes missing themselves. -/
def Follows (this : ReplayingDecoderBuffer) : List ReplayCall → Prop
  | [] => True
  | call_ :: rest =>
      call_.Proper this ∧ (this.needMore = true → call_.Needs this) ∧ Follows (call_.after this) rest

def Guided (this : ReplayingDecoderBuffer) : List ReplayCall → Prop
  | [] => this.needMore = false
  | call_ :: rest => call_.Proper this ∧ Follows (call_.after this) rest

end ReplayingDecoderBuffer

end Cetty
