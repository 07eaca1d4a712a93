import Cetty.ChannelBuffer
import Cetty.BufferContents

/-!
# Writing into a channel buffer

The typed setters of every buffer kind and the methods of `AbstractChannelBuffer` that
move the indices or store at the writer index. The setters store byte by byte, so a
program that stops leaves what it has stored behind.
-/

namespace Cetty

open MachineInt ByteWindow

/-- A call of a typed setter: `byte` to `int` take an `int`. -/
inductive TypedValue where
  | byte (value : BitVec 32)
  | short (value : BitVec 32)
  | medium (value : BitVec 32)
  | int (value : BitVec 32)
  | long (value : BitVec 64)
  deriving DecidableEq, Repr

namespace TypedValue

def width : TypedValue → Nat
  | byte _ => 1
  | short _ => 2
  | medium _ => 3
  | int _ => 4
  | long _ => 8

/-- `(boost::int8_t) (value >> shift)`. -/
def part {bits : Nat} (value : BitVec bits) (shift : Nat) : Byte := value.extractLsb' shift 8

/-- The bytes as the heap kind of the order stores them, in the order of the indices. -/
def bytes : ByteOrder → TypedValue → List Byte
  | _, byte value => [part value 0]
  | .big, short value => [part value 8, part value 0]
  | .little, short value => [part value 0, part value 8]
  | .big, medium value => [part value 16, part value 8, part value 0]
  | .little, medium value => [part value 0, part value 8, part value 16]
  | .big, int value => [part value 24, part value 16, part value 8, part value 0]
  | .little, int value => [part value 0, part value 8, part value 16, part value 24]
  | .big, long value =>
      [part value 56, part value 48, part value 40, part value 32, part value 24, part value 16,
        part value 8, part value 0]
  | .little, long value =>
      [part value 0, part value 8, part value 16, part value 24, part value 32, part value 40,
        part value 48, part value 56]

@[simp] theorem bytes_length (order : ByteOrder) (value : TypedValue) :
    (value.bytes order).length = value.width := by
  cases order <;> cases value <;> rfl

theorem width_pos (value : TypedValue) : 0 < value.width := by
  cases value <;> exact Nat.succ_pos _

theorem width_le (value : TypedValue) : value.width ≤ 8 := by
  cases value <;> simp only [width] <;> omega

end TypedValue

namespace HeapChannelBuffer

/-- `arry[index] = value`. -/
def store (index : Int) (byte : Byte) : Exec HeapChannelBuffer Unit := do
  let this ← get
  if index < 0 ∨ (this.arry.length : Int) ≤ index then throw (rangeException "")
  set { this with arry := this.arry.set index.toNat byte }

def storeAll : Int → List Byte → Exec HeapChannelBuffer Unit
  | _, [] => pure ()
  | index, byte :: rest => do
      store index byte
      storeAll (index + 1) rest

/-- `setByte` to `setLong`. -/
def setTyped (index : Int) (value : TypedValue) : Exec HeapChannelBuffer Unit := do
  storeAll index (value.bytes (← get).byteOrder)

end HeapChannelBuffer

namespace ChannelBuffer

mutual

/-- How many buffers are wrapped in each other. -/
def depth : ChannelBuffer → Nat
  | heap _ => 1
  | dynamic _ _ _ _ => 1
  | sliced buffer _ _ _ => depth buffer + 1
  | truncated buffer _ _ => depth buffer + 1
  | duplicated buffer _ => depth buffer + 1
  | readOnly buffer _ => depth buffer + 1
  | composite _ components _ _ _ => componentDepth components + 1

def componentDepth : List ChannelBuffer → Nat
  | [] => 0
  | component :: rest => max (depth component) (componentDepth rest)

end

/-- `checkIndex` of the sliced and of the truncated kind before a typed access. -/
def typedCheck (check : Int → Int → Except Stop Unit) (capacity index : Int) :
    TypedValue → Except Stop Unit
  | .byte _ => Getters.checkByte capacity index
  | value => check index value.width

end ChannelBuffer

namespace BufferM

/-- A setter of a component, found from the index; the search leaves it in the cache. -/
def inComponent (index : Int) (setter : Int → BufferM Unit) (fits : Int → Bool)
    (parts : BufferM Unit) : BufferM Unit := do
  match ← get with
  | .composite order components indices last idx =>
      let componentId ← call (getComponentId indices components.length last index)
      if fits (indices.getD (componentId + 1) 0) then
        match components[componentId]? with
        | some component =>
            focus (fun _ => component)
              (fun _ written => .composite order (components.set componentId written) indices
                componentId idx)
              (setter (index - indices.getD componentId 0))
        | none => throw .outOfBounds
      else do
        set (ChannelBuffer.composite order components indices componentId idx)
        parts
  | _ => throw .assertion

section Composite

-- the typed setters of a component
variable (setter : Int → TypedValue → BufferM Unit)

def compositeSetByte (index : Int) (value : BitVec 32) : BufferM Unit :=
  inComponent index (fun local_ => setter local_ (.byte value)) (fun _ => true) (pure ())

def compositeSetShort (index : Int) (value : BitVec 32) : BufferM Unit :=
  inComponent index (fun local_ => setter local_ (.short value)) (fun next => int32 (index + 2) ≤ next) do
    match (← get).order with
    | .big =>
        compositeSetByte setter index (value.sshiftRight 8)
        compositeSetByte setter (index + 1) value
    | .little =>
        compositeSetByte setter index value
        compositeSetByte setter (index + 1) (value.sshiftRight 8)

def compositeSetMedium (index : Int) (value : BitVec 32) : BufferM Unit :=
  inComponent index (fun local_ => setter local_ (.medium value)) (fun next => int32 (index + 3) ≤ next) do
    match (← get).order with
    | .big =>
        compositeSetShort setter index (value.sshiftRight 8)
        compositeSetByte setter (index + 2) value
    | .little =>
        compositeSetShort setter index value
        compositeSetByte setter (index + 2) (value.sshiftRight 16)

def compositeSetInt (index : Int) (value : BitVec 32) : BufferM Unit :=
  inComponent index (fun local_ => setter local_ (.int value)) (fun next => int32 (index + 4) ≤ next) do
    match (← get).order with
    | .big =>
        compositeSetShort setter index (value.sshiftRight 16)
        compositeSetShort setter (index + 2) value
    | .little =>
        compositeSetShort setter index value
        compositeSetShort setter (index + 2) (value.sshiftRight 16)

def compositeSetLong (index : Int) (value : BitVec 64) : BufferM Unit :=
  inComponent index (fun local_ => setter local_ (.long value)) (fun next => int32 (index + 8) ≤ next) do
    match (← get).order with
    | .big =>
        compositeSetInt setter index ((value.sshiftRight 32).setWidth 32)
        compositeSetInt setter (index + 4) (value.setWidth 32)
    | .little =>
        compositeSetInt setter index (value.setWidth 32)
        compositeSetInt setter (index + 4) ((value.sshiftRight 32).setWidth 32)

def compositeSetTyped (index : Int) : TypedValue → BufferM Unit
  | .byte value => compositeSetByte setter index value
  | .short value => compositeSetShort setter index value
  | .medium value => compositeSetMedium setter index value
  | .int value => compositeSetInt setter index value
  | .long value => compositeSetLong setter index value

end Composite

/-- The typed setters of a buffer that wraps fewer than `depth` others. -/
def setTypedWithin : Nat → Int → TypedValue → BufferM Unit
  | 0, _, _ => throw .outOfFuel
  | depth + 1, index, value => do
      match ← get with
      | .heap buffer =>
          focus (fun _ => buffer) (fun _ => .heap) (HeapChannelBuffer.setTyped index value)
      | .dynamic endianness factory buffer idx =>
          focus (fun _ => buffer) (fun _ written => .dynamic endianness factory written idx)
            (HeapChannelBuffer.setTyped index value)
      | .sliced buffer adjustment length idx => do
          call (ChannelBuffer.typedCheck (Getters.slicedCheck length) length index value)
          focus (fun _ => buffer) (fun _ written => .sliced written adjustment length idx)
            (setTypedWithin depth (int32 (index + adjustment)) value)
      | .truncated buffer length idx => do
          call (ChannelBuffer.typedCheck (Getters.truncatedCheck length) length index value)
          focus (fun _ => buffer) (fun _ written => .truncated written length idx)
            (setTypedWithin depth index value)
      | .duplicated buffer idx =>
          focus (fun _ => buffer) (fun _ written => .duplicated written idx)
            (setTypedWithin depth index value)
      | .readOnly _ _ => throw (.thrown ⟨.readOnlyBuffer, ""⟩)
      | .composite _ _ _ _ _ => compositeSetTyped (setTypedWithin depth) index value

/-- `setByte` to `setLong`. -/
def setTyped (index : Int) (value : TypedValue) : BufferM Unit := do
  setTypedWithin (← get).depth index value

/-- `setBytes(index, src, srcIndex, length)`; an array is read as a heap buffer is. -/
def setFrom (index : Int) (src : Getters) (srcIndex length : Int) : BufferM Unit := do
  let written ← call ((← get).setBytes index src srcIndex length)
  set written

/-- `setBytes(index, ChannelBuffer& src, length)`; the result is `src` afterwards. -/
def setBuffer (index : Int) (src : ChannelBuffer) (length : Int) : BufferM ChannelBuffer := do
  if src.readableBytes < length then throw (rangeException "exceed readable bytes")
  setFrom index src.getters src.readerIdx length
  call (src.setReaderIndex (int32 (src.readerIdx + length)))

/-- Bytes set to zero one at a time. -/
def zeroBytes : Nat → Int → BufferM Unit
  | 0, _ => pure ()
  | count + 1, index => do
      setTyped index (.byte 0)
      zeroBytes count (index + 1)

def zeroLongs : Nat → Int → BufferM Int
  | 0, index => pure index
  | count + 1, index => do
      setTyped index (.long 0)
      zeroLongs count (index + 8)

def setZero (index length : Int) : BufferM Unit :=
  if length = 0 then pure ()
  else if length < 0 then
    throw (invalidArgumentException "length must be 0 or greater than 0.")
  else do
    let nBytes := length.toNat % 8
    let index ← zeroLongs (length.toNat / 8) index
    if nBytes = 4 then setTyped index (.int 0)
    else if nBytes < 4 then zeroBytes nBytes index
    else do
      setTyped index (.int 0)
      zeroBytes (nBytes - 4) (index + 4)

/-- `writerIndex(int)` as a program. -/
def writerIndex (writerIdx : Int) : BufferM Unit := do
  let moved ← call ((← get).setWriterIndex writerIdx)
  set moved

def offsetReaderIndex (offset : Int) : BufferM Unit := do
  let this ← get
  let newReaderIdx := int32 (this.readerIdx + offset)
  if newReaderIdx < 0 ∨ this.writerIdx < newReaderIdx then throw (rangeException "readerIndex")
  set (this.withIdx { this.idx with readerIdx := newReaderIdx })

def offsetWriterIndex (offset : Int) : BufferM Unit := do
  let this ← get
  let newWriterIdx := int32 (this.writerIdx + offset)
  if newWriterIdx < this.readerIdx ∨ this.capacity < newWriterIdx then
    throw (rangeException "writerIndex")
  set (this.withIdx { this.idx with writerIdx := newWriterIdx })

def setIndex (readerIndex writerIndex : Int) : BufferM Unit := do
  let moved ← call ((← get).setIndex readerIndex writerIndex)
  set moved

def clear : BufferM Unit :=
  modify fun this => this.withIdx { this.idx with readerIdx := 0, writerIdx := 0 }

def markWriterIndex : BufferM Unit :=
  modify fun this => this.withIdx { this.idx with markedWriterIndex := this.writerIdx }

/-- Unlike `resetReaderIndex` this checks nothing. -/
def resetWriterIndex : BufferM Unit :=
  modify fun this => this.withIdx { this.idx with writerIdx := this.idx.markedWriterIndex }

/-- The writer index moves by `amount`. -/
def written (amount : Int) : BufferM Unit :=
  modify fun this =>
    this.withIdx { this.idx with writerIdx := int32 (this.writerIdx + amount) }

/-- `AbstractChannelBuffer::writeByte` to `writeLong`. `writeByte` moves the index before it
stores, the others afterwards. -/
def putTyped (value : TypedValue) : BufferM Unit := do
  let index := (← get).writerIdx
  match value with
  | .byte _ => do
      written 1
      setTyped index value
  | _ => do
      setTyped index value
      written value.width

/-- `writeByte` to `writeLong`. The dynamic kind makes room first. -/
def writeTyped (value : TypedValue) : BufferM Unit := do
  if let .dynamic .. ← get then ensureWritableBytes value.width
  putTyped value

def repeated (step : BufferM Unit) : Nat → BufferM Unit
  | 0 => pure ()
  | count + 1 => do
      step
      repeated step count

/-- `AbstractChannelBuffer::writeZero`. -/
def putZero (length : Int) : BufferM Unit :=
  if length = 0 then pure ()
  else if length < 0 then
    throw (invalidArgumentException "length must be 0 or greater than 0.")
  else do
    let nBytes := length.toNat % 8
    repeated (writeTyped (.long 0)) (length.toNat / 8)
    if nBytes = 4 then writeTyped (.int 0)
    else if nBytes < 4 then repeated (writeTyped (.byte 0)) nBytes
    else do
      writeTyped (.int 0)
      repeated (writeTyped (.byte 0)) (nBytes - 4)

def writeZero (length : Int) : BufferM Unit := do
  if let .dynamic .. ← get then ensureWritableBytes length
  putZero length

/-- `writeBytes(ChannelBuffer& src, length)`; the result is `src` afterwards. -/
def writeBuffer (src : ChannelBuffer) (length : Int) : BufferM ChannelBuffer := do
  if src.readableBytes < length then throw (rangeException "no data to read")
  writeFrom src.getters src.readerIdx length
  call (src.setReaderIndex (int32 (src.readerIdx + length)))

/-- `readBytes` into an array. -/
def readArray (dst : CharArray) (dstIndex length : Int) : BufferM CharArray :=
  if length = 0 then pure dst
  else do
    checkReadableBytes length
    let this ← get
    let filled ← call (this.getters.getBytes this.readerIdx dst dstIndex length)
    set (this.withIdx { this.idx with readerIdx := int32 (this.readerIdx + length) })
    pure filled

/-- `readBytes(ChannelBuffer& dst, length)`; the result is `dst` afterwards. -/
def readBuffer (dst : ChannelBuffer) (length : Int) : BufferM ChannelBuffer := do
  if dst.writableBytes < length then throw (rangeException "readBytes out of range")
  checkReadableBytes length
  let this ← get
  let filled ← call (dst.setBytes dst.writerIdx this.getters this.readerIdx length)
  set (this.withIdx { this.idx with readerIdx := int32 (this.readerIdx + length) })
  call (filled.setWriterIndex (int32 (filled.writerIdx + length)))

end BufferM

namespace HeapChannelBuffer

/-- The array after byte stores from `index` on, up to the one that fails. -/
def stored (arry : CharArray) (index : Int) (bytes : List Byte) : CharArray :=
  if 0 ≤ index ∧ index < arry.length then
    overwrite arry index.toNat (bytes.take (arry.length - index.toNat))
  else arry

/-- All stores are inside the array. -/
def Fits (arry : CharArray) (index : Int) (bytes : List Byte) : Prop :=
  bytes = [] ∨ 0 ≤ index ∧ index + bytes.length ≤ arry.length

theorem stored_length (arry : CharArray) (index : Int) (bytes : List Byte) :
    (stored arry index bytes).length = arry.length := by
  unfold stored
  split
  · apply overwrite_length
    rw [List.length_take]
    omega
  · rfl

theorem stored_nil (arry : CharArray) (index : Int) : stored arry index [] = arry := by
  unfold stored
  split
  · rw [List.take_nil, overwrite_nothing]
  · rfl

theorem stored_fits {arry : CharArray} {index : Nat} {bytes : List Byte}
    (fits : index + bytes.length ≤ arry.length) :
    stored arry index bytes = overwrite arry index bytes := by
  cases bytes with
  | nil => rw [stored_nil, overwrite_nothing]
  | cons byte rest =>
      rw [List.length_cons] at fits
      unfold stored
      rw [if_pos (by omega), Int.toNat_natCast, List.take_of_length_le (by
        rw [List.length_cons]
        omega)]

section Running

variable {this : HeapChannelBuffer} {index : Int}

theorem store_inside (byte : Byte) (lower : 0 ≤ index) (upper : index < this.arry.length) :
    (store index byte).run this = .ok () { this with arry := this.arry.set index.toNat byte } := by
  unfold store
  rw [run_bind_ok _ (show (get : Exec HeapChannelBuffer HeapChannelBuffer).run this = .ok this this
    from rfl)]
  rw [if_neg (by omega)]
  rfl

theorem store_outside (byte : Byte) (outside : index < 0 ∨ (this.arry.length : Int) ≤ index) :
    (store index byte).run this = .error (rangeException "") this := by
  unfold store
  rw [run_bind_ok _ (show (get : Exec HeapChannelBuffer HeapChannelBuffer).run this = .ok this this
    from rfl)]
  rw [if_pos outside]
  rfl

/-- A run of stores ends at the first that is outside the array. -/
theorem storeAll_run (index : Int) (bytes : List Byte) (this : HeapChannelBuffer) :
    (Fits this.arry index bytes ∧
      (storeAll index bytes).run this = .ok () { this with arry := stored this.arry index bytes }) ∨
    (¬Fits this.arry index bytes ∧
      (storeAll index bytes).run this =
        .error (rangeException "") { this with arry := stored this.arry index bytes }) := by
  induction bytes generalizing index this with
  | nil =>
      refine Or.inl ⟨Or.inl rfl, ?_⟩
      rw [stored_nil]
      rfl
  | cons byte rest ih =>
      by_cases inside : 0 ≤ index ∧ index < this.arry.length
      · obtain ⟨lower, upper⟩ := inside
        have first := store_inside byte lower upper
        have step : (storeAll index (byte :: rest)).run this =
            (storeAll (index + 1) rest).run
              { this with arry := this.arry.set index.toNat byte } := run_bind_ok _ first
        have size : (this.arry.set index.toNat byte).length = this.arry.length := List.length_set
        have fits : Fits (this.arry.set index.toNat byte) (index + 1) rest ↔
            Fits this.arry index (byte :: rest) := by
          unfold Fits
          rw [size, List.length_cons]
          constructor
          · rintro (none | some)
            · rw [none]
              exact Or.inr ⟨lower, by rw [List.length_nil]; omega⟩
            · exact Or.inr (by omega)
          · rintro (none | some)
            · cases none
            · exact Or.inr (by omega)
        have same : stored (this.arry.set index.toNat byte) (index + 1) rest =
            stored this.arry index (byte :: rest) := by
          have whole : stored this.arry index (byte :: rest) =
              overwrite this.arry index.toNat
                (byte :: rest.take (this.arry.length - index.toNat - 1)) := by
            unfold stored
            rw [if_pos ⟨lower, upper⟩, show this.arry.length - index.toNat =
              (this.arry.length - index.toNat - 1) + 1 by omega, List.take_succ_cons]
            rfl
          rw [whole, ← overwrite_cons _ _ (by omega)]
          unfold stored
          rw [size]
          have next : (index + 1).toNat = index.toNat + 1 := by omega
          split
          · rw [next, Nat.sub_add_eq]
          · rw [show this.arry.length - index.toNat - 1 = 0 by omega, List.take_zero,
              overwrite_nothing]
        rw [step, ← same, ← fits]
        exact ih (index + 1) { this with arry := this.arry.set index.toNat byte }
      · have outside : index < 0 ∨ (this.arry.length : Int) ≤ index := by omega
        refine Or.inr ⟨?_, ?_⟩
        · rintro (none | some)
          · cases none
          · rw [List.length_cons] at some
            omega
        · have unchanged : stored this.arry index (byte :: rest) = this.arry := if_neg inside
          rw [unchanged]
          exact run_bind_error _ (store_outside byte outside)

/-- Runs of stores one after the other. -/
theorem storeAll_append (index : Int) (first second : List Byte) (this : HeapChannelBuffer) :
    (storeAll index (first ++ second)).run this =
      (storeAll index first >>= fun _ => storeAll (index + first.length) second).run this := by
  induction first generalizing index this with
  | nil =>
      change _ = (storeAll (index + (0 : Nat)) second).run this
      rw [show index + ((0 : Nat) : Int) = index by omega]
      rfl
  | cons byte rest ih =>
      cases stored : (store index byte).run this with
      | ok value after =>
          have longer : (storeAll index (byte :: (rest ++ second))).run this =
              (storeAll (index + 1) (rest ++ second)).run after := run_bind_ok _ stored
          have shorter : (storeAll index (byte :: rest)).run this =
              (storeAll (index + 1) rest).run after := run_bind_ok _ stored
          rw [List.cons_append, longer, ih]
          rw [List.length_cons, show index + ((rest.length + 1 : Nat) : Int) =
            index + 1 + rest.length by omega]
          cases whole : (storeAll (index + 1) rest).run after with
          | ok value last =>
              rw [run_bind_ok _ whole, run_bind_ok _ (shorter.trans whole)]
          | error stop last =>
              rw [run_bind_error _ whole, run_bind_error _ (shorter.trans whole)]
      | error stop after =>
          have longer : (storeAll index (byte :: (rest ++ second))).run this =
              .error stop after := run_bind_error _ stored
          have shorter : (storeAll index (byte :: rest)).run this = .error stop after :=
            run_bind_error _ stored
          rw [List.cons_append, longer, run_bind_error _ shorter]

/-- A typed store inside the array. -/
theorem setTyped_inside {start : Nat} {value : TypedValue}
    (room : start + value.width ≤ this.arry.length) :
    (HeapChannelBuffer.setTyped start value).run this =
      .ok () { this with arry := overwrite this.arry start (value.bytes this.byteOrder) } := by
  have fits : start + (value.bytes this.byteOrder).length ≤ this.arry.length := by
    rw [TypedValue.bytes_length]
    exact room
  have whole : (HeapChannelBuffer.setTyped start value).run this =
      (storeAll start (value.bytes this.byteOrder)).run this := rfl
  rw [whole]
  rcases storeAll_run start (value.bytes this.byteOrder) this with ⟨-, ran⟩ | ⟨full, -⟩
  · rw [stored_fits fits] at ran
    exact ran
  · exact absurd (Or.inr ⟨Int.natCast_nonneg _, by omega⟩) full

end Running

/-- The outcome of a method of the heap buffer, as that of the buffer. -/
def lifted {Value : Type} :
    EStateM.Result Stop HeapChannelBuffer Value → EStateM.Result Stop ChannelBuffer Value
  | .ok value this => .ok value (.heap this)
  | .error stop this => .error stop (.heap this)

end HeapChannelBuffer

namespace BufferM

open HeapChannelBuffer

/-- What the program does to a heap buffer. -/
def Mirrors {Value : Type} (program : BufferM Value) (inner : Exec HeapChannelBuffer Value) : Prop :=
  ∀ this, program.run (.heap this) = lifted (inner.run this)

section Mirroring

variable {First Next : Type}

theorem Mirrors.bind {program : BufferM First} {inner : Exec HeapChannelBuffer First}
    {more : First → BufferM Next} {innerMore : First → Exec HeapChannelBuffer Next}
    (now : Mirrors program inner) (later : ∀ value, Mirrors (more value) (innerMore value)) :
    Mirrors (program >>= more) (inner >>= innerMore) := by
  intro this
  have first := now this
  cases ran : inner.run this with
  | ok value after =>
      rw [ran] at first
      rw [run_bind_ok _ first, run_bind_ok _ ran]
      exact later value after
  | error stop after =>
      rw [ran] at first
      rw [run_bind_error _ first, run_bind_error _ ran]
      rfl

theorem Mirrors.congr {program : BufferM First} {inner other : Exec HeapChannelBuffer First}
    (mirrors : Mirrors program inner) (same : ∀ this, inner.run this = other.run this) :
    Mirrors program other := by
  intro this
  rw [mirrors this, same this]

theorem setTyped_mirrors (index : Int) (value : TypedValue) :
    Mirrors (setTyped index value) (HeapChannelBuffer.setTyped index value) := by
  intro this
  have one : (setTyped index value).run (.heap this) =
      (setTypedWithin (ChannelBuffer.heap this).depth index value).run (.heap this) := rfl
  have heap : (setTypedWithin 1 index value).run (.heap this) =
      (focus (fun _ => this) (fun _ => ChannelBuffer.heap)
        (HeapChannelBuffer.setTyped index value) : BufferM Unit).run (.heap this) := by
    simp only [setTypedWithin]
    rfl
  rw [one, ChannelBuffer.depth, heap]
  cases ran : (HeapChannelBuffer.setTyped index value).run this with
  | ok value after =>
      rw [run_focus_ok ran]
      rfl
  | error stop after =>
      rw [run_focus_error ran]
      rfl

theorem zero_bytes (order : ByteOrder) :
    (TypedValue.byte 0).bytes order = List.replicate 1 0 ∧
      (TypedValue.int 0).bytes order = List.replicate 4 0 ∧
      (TypedValue.long 0).bytes order = List.replicate 8 0 := by
  cases order <;> decide

theorem setZeroTyped_mirrors {value : TypedValue} {count : Nat}
    (zero : ∀ order, value.bytes order = List.replicate count 0) (index : Int) :
    Mirrors (setTyped index value) (storeAll index (List.replicate count 0)) := by
  apply (setTyped_mirrors index value).congr
  intro this
  change (storeAll index (value.bytes this.byteOrder)).run this = _
  rw [zero]

theorem zeroBytes_mirrors (count : Nat) (index : Int) :
    Mirrors (zeroBytes count index) (storeAll index (List.replicate count 0)) := by
  induction count generalizing index with
  | zero =>
      intro this
      rfl
  | succ count ih =>
      have first := setZeroTyped_mirrors (fun order => (zero_bytes order).1) index
      apply (first.bind fun _ => ih (index + 1)).congr
      intro this
      rw [Nat.add_comm, List.replicate_add, storeAll_append]
      rfl

theorem zeroLongs_mirrors (count : Nat) (index : Int) :
    Mirrors (zeroLongs count index) (do
      storeAll index (List.replicate (8 * count) 0)
      pure (index + 8 * count)) := by
  induction count generalizing index with
  | zero =>
      intro this
      rw [Nat.mul_zero, List.replicate_zero]
      change EStateM.Result.ok index _ = EStateM.Result.ok (index + 8 * ((0 : Nat) : Int)) _
      rw [show index + 8 * ((0 : Nat) : Int) = index by omega]
  | succ count ih =>
      have first := setZeroTyped_mirrors (fun order => (zero_bytes order).2.2) index
      apply (first.bind fun _ => ih (index + 8)).congr
      intro this
      have whole := storeAll_append index (List.replicate 8 0) (List.replicate (8 * count) 0) this
      rw [← List.replicate_add, List.length_replicate] at whole
      have total : 8 * (count + 1) = 8 + 8 * count := by omega
      have final : index + 8 * ((count + 1 : Nat) : Int) = index + 8 + 8 * (count : Int) := by omega
      rw [total, final]
      cases ran : (storeAll index (List.replicate 8 0)).run this with
      | ok value after =>
          rw [run_bind_ok _ ran] at whole
          rw [run_bind_ok _ ran]
          change (storeAll (index + 8) _ >>= fun _ => pure _).run after = _
          cases rest : (storeAll (index + 8) (List.replicate (8 * count) 0)).run after with
          | ok value last =>
              rw [run_bind_ok _ rest, run_bind_ok _ (whole.trans rest)]
          | error stop last =>
              rw [run_bind_error _ rest, run_bind_error _ (whole.trans rest)]
      | error stop after =>
          rw [run_bind_error _ ran] at whole
          rw [run_bind_error _ ran, run_bind_error _ whole]

/-- Zero filling stores zeros one after the other. -/
theorem setZero_mirrors {length : Int} (positive : 0 < length) (index : Int) :
    Mirrors (setZero index length) (storeAll index (List.replicate length.toNat 0)) := by
  have parts := Nat.div_add_mod length.toNat 8
  unfold setZero
  rw [if_neg (by omega), if_neg (by omega)]
  have tail : ∀ start : Int, Mirrors
      (if length.toNat % 8 = 4 then setTyped start (.int 0)
        else if length.toNat % 8 < 4 then zeroBytes (length.toNat % 8) start
        else do
          setTyped start (.int 0)
          zeroBytes (length.toNat % 8 - 4) (start + 4))
      (storeAll start (List.replicate (length.toNat % 8) 0)) := by
    intro start
    have four := setZeroTyped_mirrors (fun order => (zero_bytes order).2.1) start
    split
    · rename_i whole
      rw [whole]
      exact four
    · split
      · exact zeroBytes_mirrors _ start
      · apply (four.bind fun _ => zeroBytes_mirrors (length.toNat % 8 - 4) (start + 4)).congr
        intro this
        have whole := storeAll_append start (List.replicate 4 0)
          (List.replicate (length.toNat % 8 - 4) 0) this
        rw [← List.replicate_add, show 4 + (length.toNat % 8 - 4) = length.toNat % 8 by omega] at whole
        exact whole.symm
  apply ((zeroLongs_mirrors (length.toNat / 8) index).bind tail).congr
  intro this
  have whole := storeAll_append index (List.replicate (8 * (length.toNat / 8)) 0)
    (List.replicate (length.toNat % 8) 0) this
  rw [← List.replicate_add, parts, List.length_replicate] at whole
  rw [whole, bind_assoc]
  have start : index + 8 * ((length.toNat / 8 : Nat) : Int) =
      index + ((8 * (length.toNat / 8) : Nat) : Int) := by omega
  rw [start]
  rfl

end Mirroring

end BufferM

namespace HeapChannelBuffer

/-- The documented index invariant of a buffer whose array has an `int` length. -/
structure Inside (this : HeapChannelBuffer) : Prop where
  indices : this.idx.Inside this.arry.length
  small : (this.arry.length : Int) ≤ maxInt

def withWriter (this : HeapChannelBuffer) (writerIdx : Int) : HeapChannelBuffer :=
  { this with idx := { this.idx with writerIdx := writerIdx } }

/-- Whether the write moves the index before it stores. -/
def early : TypedValue → Bool
  | .byte _ => true
  | _ => false

/-- After a typed write at `index` that fits, and after one that does not. -/
def wrote (this : HeapChannelBuffer) (value : TypedValue) : HeapChannelBuffer :=
  { this.withWriter (this.idx.writerIdx + value.width) with
    arry := stored this.arry this.idx.writerIdx (value.bytes this.byteOrder) }

def stopped (this : HeapChannelBuffer) (value : TypedValue) : HeapChannelBuffer :=
  { this.withWriter (if early value then int32 (this.idx.writerIdx + 1) else this.idx.writerIdx) with
    arry := stored this.arry this.idx.writerIdx (value.bytes this.byteOrder) }

section Writes

variable {this : HeapChannelBuffer} {value : TypedValue}

theorem Inside.writer (inside : this.Inside) :
    0 ≤ this.idx.writerIdx ∧ this.idx.writerIdx ≤ this.arry.length :=
  ⟨Int.le_trans inside.indices.reader inside.indices.writer, inside.indices.bound⟩

theorem Inside.wrote (inside : this.Inside)
    (fits : this.idx.writerIdx + value.width ≤ this.arry.length) : (this.wrote value).Inside := by
  have size := stored_length this.arry this.idx.writerIdx (value.bytes this.byteOrder)
  have order := inside.indices.writer
  refine ⟨⟨inside.indices.reader, ?_, ?_⟩, ?_⟩
  · change this.idx.readerIdx ≤ this.idx.writerIdx + value.width
    omega
  · change this.idx.writerIdx + value.width ≤ (stored _ _ _).length
    rw [size]
    exact fits
  · change ((stored _ _ _).length : Int) ≤ maxInt
    rw [size]
    exact inside.small

end Writes

end HeapChannelBuffer

namespace BufferM

open HeapChannelBuffer

def writeAll : List TypedValue → BufferM Unit
  | [] => pure ()
  | value :: rest => do
      writeTyped value
      writeAll rest

def totalWidth (values : List TypedValue) : Nat := (values.map TypedValue.width).sum

section Typed

variable {this : HeapChannelBuffer} {value : TypedValue}

theorem setTyped_heap (index : Int) (value : TypedValue) (this : HeapChannelBuffer) :
    (Fits this.arry index (value.bytes this.byteOrder) ∧
      (setTyped index value).run (.heap this) =
        .ok () (.heap { this with arry := stored this.arry index (value.bytes this.byteOrder) })) ∨
    (¬Fits this.arry index (value.bytes this.byteOrder) ∧
      (setTyped index value).run (.heap this) = .error (rangeException "")
        (.heap { this with arry := stored this.arry index (value.bytes this.byteOrder) })) := by
  have heap : (HeapChannelBuffer.setTyped index value).run this =
      (storeAll index (value.bytes this.byteOrder)).run this := rfl
  rw [setTyped_mirrors index value this, heap]
  rcases storeAll_run index (value.bytes this.byteOrder) this with ⟨fits, ran⟩ | ⟨full, ran⟩
  · rw [ran]
    exact Or.inl ⟨fits, rfl⟩
  · rw [ran]
    exact Or.inr ⟨full, rfl⟩

theorem fits_typed {arry : CharArray} {index : Int} (lower : 0 ≤ index) (order : ByteOrder) :
    Fits arry index (value.bytes order) ↔ index + value.width ≤ arry.length := by
  unfold Fits
  rw [TypedValue.bytes_length]
  constructor
  · rintro (none | some)
    · have size := TypedValue.bytes_length order value
      have positive := value.width_pos
      rw [none, List.length_nil] at size
      omega
    · exact some.2
  · exact fun bounded => Or.inr ⟨lower, bounded⟩

/-- `writeByte` moves the index first. -/
theorem writeTyped_early (soon : early value = true) :
    (writeTyped value).run (.heap this) = (setTyped this.idx.writerIdx value).run
      (.heap (this.withWriter (int32 (this.idx.writerIdx + 1)))) := by
  cases value with
  | byte number => rfl
  | _ => cases soon

theorem writeTyped_late (late : early value = false) :
    (writeTyped value).run (.heap this) =
      (setTyped this.idx.writerIdx value >>= fun _ => written value.width).run (.heap this) := by
  cases value with
  | byte number => cases late
  | _ => rfl

theorem width_of_early (soon : early value = true) : value.width = 1 := by
  cases value with
  | byte number => rfl
  | _ => cases soon

theorem writeTyped_fits (inside : this.Inside)
    (fits : this.idx.writerIdx + value.width ≤ this.arry.length) :
    (writeTyped value).run (.heap this) = .ok () (.heap (this.wrote value)) := by
  have lower := inside.writer.1
  have small := inside.small
  have moved : int32 (this.idx.writerIdx + value.width) = this.idx.writerIdx + value.width :=
    int32_of_nonneg (by omega) (by omega)
  have whole := (fits_typed lower this.byteOrder).mpr fits
  cases when : early value with
  | true =>
      rw [writeTyped_early when]
      rw [width_of_early when] at moved
      change int32 (this.idx.writerIdx + 1) = this.idx.writerIdx + 1 at moved
      rcases setTyped_heap this.idx.writerIdx value
        (this.withWriter (int32 (this.idx.writerIdx + 1))) with ⟨-, ran⟩ | ⟨full, -⟩
      · rw [ran, moved]
        unfold wrote
        rw [width_of_early when]
        rfl
      · exact absurd whole full
  | false =>
      rw [writeTyped_late when]
      rcases setTyped_heap this.idx.writerIdx value this with ⟨-, ran⟩ | ⟨full, -⟩
      · rw [run_bind_ok _ ran]
        unfold wrote
        rw [← moved]
        rfl
      · exact absurd whole full

theorem writeTyped_full (inside : this.Inside)
    (full : ¬this.idx.writerIdx + value.width ≤ this.arry.length) :
    (writeTyped value).run (.heap this) =
      .error (rangeException "") (.heap (this.stopped value)) := by
  have lower := inside.writer.1
  have beyond : ¬Fits this.arry this.idx.writerIdx (value.bytes this.byteOrder) :=
    fun whole => full ((fits_typed lower this.byteOrder).mp whole)
  unfold stopped
  cases when : early value with
  | true =>
      rw [writeTyped_early when]
      rcases setTyped_heap this.idx.writerIdx value
        (this.withWriter (int32 (this.idx.writerIdx + 1))) with ⟨whole, -⟩ | ⟨-, ran⟩
      · exact absurd whole beyond
      · exact ran
  | false =>
      rw [writeTyped_late when]
      rcases setTyped_heap this.idx.writerIdx value this with ⟨whole, -⟩ | ⟨-, ran⟩
      · exact absurd whole beyond
      · exact run_bind_error _ ran

end Typed

section Lists

variable {this : HeapChannelBuffer}

def wroteAll (this : HeapChannelBuffer) (values : List TypedValue) : HeapChannelBuffer :=
  values.foldl HeapChannelBuffer.wrote this

theorem totalWidth_cons (value : TypedValue) (rest : List TypedValue) :
    totalWidth (value :: rest) = value.width + totalWidth rest := by
  unfold totalWidth
  rw [List.map_cons, List.sum_cons]

theorem wroteAll_writer (this : HeapChannelBuffer) (values : List TypedValue) :
    (wroteAll this values).idx.writerIdx = this.idx.writerIdx + totalWidth values ∧
      (wroteAll this values).arry.length = this.arry.length := by
  induction values generalizing this with
  | nil => exact ⟨(Int.add_zero _).symm, rfl⟩
  | cons value rest ih =>
      obtain ⟨writer, size⟩ := ih (this.wrote value)
      rw [totalWidth_cons]
      refine ⟨?_, size.trans (stored_length _ _ _)⟩
      have here : (this.wrote value).idx.writerIdx = this.idx.writerIdx + value.width := rfl
      change (wroteAll (this.wrote value) rest).idx.writerIdx = _
      rw [writer, here]
      omega

theorem writeAll_fits (inside : this.Inside) {values : List TypedValue}
    (fits : this.idx.writerIdx + totalWidth values ≤ this.arry.length) :
    (writeAll values).run (.heap this) = .ok () (.heap (wroteAll this values)) := by
  induction values generalizing this with
  | nil => rfl
  | cons value rest ih =>
      rw [totalWidth_cons] at fits
      have here : this.idx.writerIdx + value.width ≤ this.arry.length := by omega
      have first := writeTyped_fits inside here
      have writer : (this.wrote value).idx.writerIdx = this.idx.writerIdx + value.width := rfl
      have size : (this.wrote value).arry.length = this.arry.length := stored_length _ _ _
      have room : (this.wrote value).idx.writerIdx + totalWidth rest ≤
          (this.wrote value).arry.length := by
        rw [writer, size]
        omega
      exact (run_bind_ok _ first).trans (ih (inside.wrote here) room)

/-- A list of writes stops at the first value that does not fit. -/
theorem writeAll_full (inside : this.Inside) {values : List TypedValue}
    (full : ¬this.idx.writerIdx + totalWidth values ≤ this.arry.length) :
    ∃ front value back, values = front ++ value :: back ∧
      this.idx.writerIdx + totalWidth front ≤ this.arry.length ∧
      ¬this.idx.writerIdx + totalWidth front + value.width ≤ this.arry.length ∧
      (writeAll values).run (.heap this) =
        .error (rangeException "") (.heap ((wroteAll this front).stopped value)) := by
  induction values generalizing this with
  | nil =>
      have bound := inside.writer.2
      exact absurd (show this.idx.writerIdx + totalWidth [] ≤ this.arry.length by
        change this.idx.writerIdx + 0 ≤ _
        omega) full
  | cons value rest ih =>
      rw [totalWidth_cons] at full
      by_cases fits : this.idx.writerIdx + value.width ≤ this.arry.length
      · have first := writeTyped_fits inside fits
        have writer : (this.wrote value).idx.writerIdx = this.idx.writerIdx + value.width := rfl
        have size : (this.wrote value).arry.length = this.arry.length := stored_length _ _ _
        obtain ⟨front, last, back, split_, before, beyond, ran⟩ :=
          ih (inside.wrote fits) (by rw [writer, size]; omega)
        rw [writer, size] at before beyond
        refine ⟨value :: front, last, back, by rw [split_]; rfl, ?_, ?_, ?_⟩
        · rw [totalWidth_cons]
          omega
        · rw [totalWidth_cons]
          omega
        · exact (run_bind_ok _ first).trans ran
      · refine ⟨[], value, rest, rfl, ?_, ?_, ?_⟩
        · have bound := inside.writer.2
          change this.idx.writerIdx + 0 ≤ _
          omega
        · change ¬this.idx.writerIdx + 0 + value.width ≤ _
          omega
        · exact run_bind_error _ (writeTyped_full inside fits)

end Lists

section Zeros

/-- How many bytes `writeZero` writes one at a time. -/
def singleBytes (length : Nat) : Nat := if length % 8 < 4 then length % 8 else length % 8 - 4

/-- The values it writes before, of four or eight bytes each. -/
def wideZeros (length : Nat) : List TypedValue :=
  List.replicate (length / 8) (.long 0) ++ if length % 8 < 4 then [] else [.int 0]

theorem repeated_all (value : TypedValue) (count : Nat) :
    repeated (writeTyped value) count = writeAll (List.replicate count value) := by
  induction count with
  | zero => rfl
  | succ count ih =>
      rw [List.replicate_succ]
      change (writeTyped value >>= fun _ => repeated (writeTyped value) count) = _
      rw [ih]
      rfl

theorem writeAll_append (first second : List TypedValue) :
    writeAll (first ++ second) = (writeAll first >>= fun _ => writeAll second) := by
  induction first with
  | nil => exact (pure_bind () fun _ => writeAll second).symm
  | cons value rest ih =>
      change (writeTyped value >>= fun _ => writeAll (rest ++ second)) = _
      rw [ih]
      change _ = ((writeTyped value >>= fun _ => writeAll rest) >>= fun _ => writeAll second)
      rw [bind_assoc]

theorem writeAll_single (value : TypedValue) : writeAll [value] = writeTyped value := by
  change (writeTyped value >>= fun _ => pure ()) = _
  rw [bind_pure_unit]

theorem putZero_all {length : Int} (positive : 0 < length) :
    putZero length = writeAll (wideZeros length.toNat ++
      List.replicate (singleBytes length.toNat) (.byte 0)) := by
  unfold putZero wideZeros singleBytes
  rw [if_neg (by omega), if_neg (by omega)]
  rw [writeAll_append, writeAll_append, repeated_all, bind_assoc]
  simp only [repeated_all]
  congr 1
  funext _
  by_cases four : length.toNat % 8 = 4
  · rw [if_pos four, if_neg (by omega), if_neg (by omega), writeAll_single, four]
    exact (bind_pure_unit (x := writeTyped (.int 0))).symm
  · rw [if_neg four]
    split
    · exact (pure_bind () fun _ => writeAll (List.replicate (length.toNat % 8) (.byte 0))).symm
    · rw [writeAll_single]

theorem wideZeros_late (length : Nat) : ∀ value ∈ wideZeros length, early value = false := by
  intro value among
  rcases List.mem_append.mp among with long | int
  · rw [List.eq_of_mem_replicate long]
    rfl
  · split at int
    · cases int
    · rw [List.mem_singleton.mp int]
      rfl

theorem totalWidth_append (first second : List TypedValue) :
    totalWidth (first ++ second) = totalWidth first + totalWidth second := by
  unfold totalWidth
  rw [List.map_append, List.sum_append]

theorem totalWidth_replicate (value : TypedValue) (count : Nat) :
    totalWidth (List.replicate count value) = count * value.width := by
  unfold totalWidth
  rw [List.map_replicate, List.sum_replicate_nat]

theorem totalWidth_wideZeros (length : Nat) :
    totalWidth (wideZeros length) + singleBytes length = length := by
  unfold wideZeros singleBytes
  rw [totalWidth_append, totalWidth_replicate]
  have width : (TypedValue.long 0).width = 8 := rfl
  rw [width]
  split
  · change length / 8 * 8 + 0 + length % 8 = length
    omega
  · change length / 8 * 8 + 4 + (length % 8 - 4) = length
    omega

end Zeros

end BufferM

end Cetty
