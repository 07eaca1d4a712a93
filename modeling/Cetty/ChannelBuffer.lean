import Cetty.BufferGetters

/-!
# Channel buffers

Every buffer kind as one object type, with the methods the frame decoders and
the socket channel reach. A wrapped buffer holds the buffer it wraps by value:
what another holder of the same buffer does to it is not part of this model.
-/

namespace Cetty

open MachineInt

/-- The fields of `AbstractChannelBuffer`. -/
structure Indices where
  readerIdx : Int
  writerIdx : Int
  markedReaderIndex : Int
  markedWriterIndex : Int
  deriving DecidableEq, Repr

def Indices.zero : Indices := ⟨0, 0, 0, 0⟩

structure HeapChannelBuffer where
  byteOrder : ByteOrder
  arry : CharArray
  idx : Indices
  deriving DecidableEq, Repr

/-- A factory is known by its default order; `HeapChannelBufferFactory` is the
only implementation. -/
inductive ChannelBuffer where
  | heap (buffer : HeapChannelBuffer)
  | dynamic (endianness bufferFactory : ByteOrder) (buffer : HeapChannelBuffer) (idx : Indices)
  | sliced (buffer : ChannelBuffer) (adjustment length : Int) (idx : Indices)
  | truncated (buffer : ChannelBuffer) (length : Int) (idx : Indices)
  | duplicated (buffer : ChannelBuffer) (idx : Indices)
  | readOnly (buffer : ChannelBuffer) (idx : Indices)
  | composite (byteOrder : ByteOrder) (components : List ChannelBuffer) (indices : List Int)
      (lastAccessedComponentId : Nat) (idx : Indices)

namespace HeapChannelBuffer

def getters (buffer : HeapChannelBuffer) : Getters := .heap buffer.byteOrder buffer.arry

/-- Both branches of the source copy out of the other buffer into this array. -/
def setBytes (buffer : HeapChannelBuffer) (index : Int) (src : Getters) (srcIndex length : Int) :
    Except Stop HeapChannelBuffer := do
  let arry ← src.getBytes srcIndex buffer.arry index length
  pure { buffer with arry := arry }

end HeapChannelBuffer

namespace ChannelBuffer

def idx : ChannelBuffer → Indices
  | heap buffer => buffer.idx
  | dynamic _ _ _ idx => idx
  | sliced _ _ _ idx => idx
  | truncated _ _ idx => idx
  | duplicated _ idx => idx
  | readOnly _ idx => idx
  | composite _ _ _ _ idx => idx

def withIdx : ChannelBuffer → Indices → ChannelBuffer
  | heap buffer, idx => heap { buffer with idx := idx }
  | dynamic endianness factory buffer _, idx => dynamic endianness factory buffer idx
  | sliced buffer adjustment length _, idx => sliced buffer adjustment length idx
  | truncated buffer length _, idx => truncated buffer length idx
  | duplicated buffer _, idx => duplicated buffer idx
  | readOnly buffer _, idx => readOnly buffer idx
  | composite order components indices last _, idx => composite order components indices last idx

mutual

def getters : ChannelBuffer → Getters
  | heap buffer => buffer.getters
  | dynamic endianness _ buffer _ => { buffer.getters with order := endianness }
  | sliced buffer adjustment length _ => (getters buffer).sliced adjustment length
  | truncated buffer length _ => (getters buffer).truncated length
  | duplicated buffer _ => getters buffer
  | readOnly buffer _ => getters buffer
  | composite order components indices last _ =>
      .composite order (componentGetters components) indices last

def componentGetters : List ChannelBuffer → List Getters
  | [] => []
  | component :: rest => getters component :: componentGetters rest

end

def capacity (buffer : ChannelBuffer) : Int := buffer.getters.capacity

def order (buffer : ChannelBuffer) : ByteOrder := buffer.getters.order

/-- `factory()`, by its default order. -/
def factory : ChannelBuffer → ByteOrder
  | heap buffer => buffer.byteOrder
  | dynamic _ bufferFactory _ _ => bufferFactory
  | sliced buffer _ _ _ => factory buffer
  | truncated buffer _ _ => factory buffer
  | duplicated buffer _ => factory buffer
  | readOnly buffer _ => factory buffer
  | composite order _ _ _ _ => order

def readerIdx (buffer : ChannelBuffer) : Int := buffer.idx.readerIdx

def writerIdx (buffer : ChannelBuffer) : Int := buffer.idx.writerIdx

def readableBytes (buffer : ChannelBuffer) : Int := int32 (buffer.writerIdx - buffer.readerIdx)

def writableBytes (buffer : ChannelBuffer) : Int := int32 (buffer.capacity - buffer.writerIdx)

def readable (buffer : ChannelBuffer) : Bool := 0 < buffer.readableBytes

def setIndex (buffer : ChannelBuffer) (readerIndex writerIndex : Int) :
    Except Stop ChannelBuffer :=
  if readerIndex < 0 ∨ writerIndex < readerIndex ∨ buffer.capacity < writerIndex then
    throw (rangeException "readerIndex or writerIndex out of range")
  else
    pure (buffer.withIdx
      { buffer.idx with readerIdx := readerIndex, writerIdx := writerIndex })

/-- `readerIndex(int)`. -/
def setReaderIndex (buffer : ChannelBuffer) (readerIdx : Int) : Except Stop ChannelBuffer :=
  if readerIdx < 0 ∨ buffer.writerIdx < readerIdx then throw (rangeException "readerIndex")
  else pure (buffer.withIdx { buffer.idx with readerIdx := readerIdx })

/-- `writerIndex(int)`. -/
def setWriterIndex (buffer : ChannelBuffer) (writerIdx : Int) : Except Stop ChannelBuffer :=
  if writerIdx < buffer.readerIdx ∨ buffer.capacity < writerIdx then
    throw (rangeException "writerIndex")
  else pure (buffer.withIdx { buffer.idx with writerIdx := writerIdx })

/-- `ChannelBuffers::EMPTY_BUFFER`. -/
def emptyBuffer : ChannelBuffer := heap ⟨.big, [], .zero⟩

/-- `ChannelBuffers::buffer`, which the heap factory hands out. The fresh cells
are indeterminate in the source; nothing reads them before they are written. -/
def allocate (order : ByteOrder) (capacity : Int) : Except Stop HeapChannelBuffer :=
  if capacity = 0 then pure ⟨.big, [], .zero⟩
  else if capacity < 0 then throw (invalidArgumentException "length must greater than 0.")
  else pure ⟨order, List.replicate capacity.toNat 0, .zero⟩

/-- The constructor of `SlicedChannelBuffer`. -/
def makeSliced (buffer : ChannelBuffer) (index length : Int) : Except Stop ChannelBuffer :=
  if index < 0 ∨ buffer.capacity < index then throw (rangeException "index out range")
  else if buffer.capacity < int32 (index + length) then
    throw (rangeException "index + length out of range")
  else (sliced buffer index length .zero).setWriterIndex length

/-- The constructor of `TruncatedChannelBuffer`. -/
def makeTruncated (buffer : ChannelBuffer) (length : Int) : Except Stop ChannelBuffer :=
  if buffer.capacity < length then throw (rangeException "")
  else (truncated buffer length .zero).setWriterIndex length

/-- The constructor of `DuplicatedChannelBuffer`. -/
def makeDuplicated (buffer : ChannelBuffer) : Except Stop ChannelBuffer :=
  (duplicated buffer .zero).setIndex buffer.readerIdx buffer.writerIdx

/-- The constructor of `ReadOnlyChannelBuffer`. -/
def makeReadOnly (buffer : ChannelBuffer) : Except Stop ChannelBuffer :=
  (readOnly buffer .zero).setIndex buffer.readerIdx buffer.writerIdx

/-- The constructor of `CompositeChannelBuffer`, that is `setComponents`. -/
def makeComposite (order : ByteOrder) (components : List ChannelBuffer) (idx : Indices) :
    Except Stop ChannelBuffer := do
  if components.isEmpty then throw .assertion
  if components.any (fun component => component.order != order) then
    throw (invalidArgumentException "All buffers must have the same endianness.")
  if components.any (fun component =>
      component.readerIdx != 0 || component.writerIdx != component.capacity) then
    throw .assertion
  let indices := (components.map capacity).scanl (· + ·) 0
  let buffer := composite order components indices 0 idx
  buffer.setIndex 0 buffer.capacity

/-- The copy constructors of the duplicated and of the read-only kind take the
indices of the wrapped buffer, not those of the copied one. -/
def duplicate : ChannelBuffer → Except Stop ChannelBuffer
  | heap buffer => makeDuplicated (heap buffer)
  | dynamic endianness factory buffer idx =>
      makeDuplicated (dynamic endianness factory buffer idx)
  | sliced buffer adjustment length idx => do
      let copied ← makeSliced buffer adjustment length
      copied.setIndex idx.readerIdx idx.writerIdx
  | truncated buffer length idx => do
      let copied ← makeTruncated buffer length
      copied.setIndex idx.readerIdx idx.writerIdx
  | duplicated buffer _ => makeDuplicated buffer
  | readOnly buffer _ => makeReadOnly buffer
  | composite order components indices _ idx =>
      (composite order components indices 0 .zero).setIndex idx.readerIdx idx.writerIdx

abbrev Slicer := Int → Int → Except Stop ChannelBuffer

/-- The loop of `CompositeChannelBuffer::decompose`. A component is cut by its
own `slice`, which is also what the `slice` of its duplicate does. -/
def decomposeFrom : List (ChannelBuffer × Slicer) → Option Int → Int →
    Except Stop (List ChannelBuffer)
  | [], _, _ => throw .outOfBounds
  | (component, slice) :: rest, start, bytesToSlice => do
      let copied ← component.duplicate
      let buf ← match start with
        | some readerIndex => copied.setReaderIndex readerIndex
        | none => pure copied
      if bytesToSlice ≤ buf.readableBytes then
        let last ← buf.setWriterIndex (int32 (buf.readerIdx + bytesToSlice))
        let part ← slice last.readerIdx last.readableBytes
        pure [part]
      else
        let parts ← decomposeFrom rest none (bytesToSlice - buf.readableBytes)
        let part ← slice buf.readerIdx buf.readableBytes
        pure (part :: parts)

def decompose (parts : List (ChannelBuffer × Slicer)) (indices : List Int) (last : Nat)
    (index length : Int) : Except Stop (List ChannelBuffer) :=
  if length = 0 then pure []
  else if indices.getD parts.length 0 < int32 (index + length) then throw (rangeException "")
  else do
    let componentId ← getComponentId indices parts.length last index
    decomposeFrom (parts.drop componentId) (some (index - indices.getD componentId 0)) length

/-- `slice(index, length)` of the heap and of the dynamic kind. -/
def directSlice (buffer : ChannelBuffer) (index length : Int) : Except Stop ChannelBuffer :=
  if length = 0 then pure emptyBuffer
  else if index = 0 then makeTruncated buffer length
  else makeSliced buffer index length

def compositeSlice (order : ByteOrder) (parts : List (ChannelBuffer × Slicer))
    (indices : List Int) (last : Nat) (index length : Int) : Except Stop ChannelBuffer := do
  if index ≠ 0 ∧ (index < 0 ∨ int32 (indices.getD parts.length 0 - length) < index) then
    throw (rangeException "")
  if length = 0 then pure emptyBuffer
  else
    match ← decompose parts indices last index length with
    | [] => pure emptyBuffer
    | [part] => pure part
    | components => makeComposite order components .zero

mutual

def slice : ChannelBuffer → Slicer
  | heap buffer => fun index length =>
      if index = 0 ∧ length ≠ 0 ∧ length = buffer.arry.length then do
        let copied ← makeDuplicated (heap buffer)
        copied.setIndex 0 length
      else directSlice (heap buffer) index length
  | dynamic endianness factory buffer idx => directSlice (dynamic endianness factory buffer idx)
  | sliced buffer adjustment capacity _ => fun index length => do
      Getters.slicedCheck capacity index length
      if length = 0 then pure emptyBuffer
      else makeSliced buffer (int32 (index + adjustment)) length
  | truncated buffer capacity _ => fun index length => do
      Getters.truncatedCheck capacity index length
      if length = 0 then pure emptyBuffer
      else slice buffer index length
  | duplicated buffer _ => slice buffer
  | readOnly buffer _ => fun index length => do
      let part ← slice buffer index length
      makeReadOnly part
  | composite order components indices last _ =>
      compositeSlice order (slicers components) indices last

def slicers : List ChannelBuffer → List (ChannelBuffer × Slicer)
  | [] => []
  | component :: rest => (component, slice component) :: slicers rest

end

mutual

/-- `setBytes(index, const ChannelBuffer& src, srcIndex, length)`. -/
def setBytes : ChannelBuffer → Int → Getters → Int → Int → Except Stop ChannelBuffer
  | heap buffer, index, src, srcIndex, length => do
      let written ← buffer.setBytes index src srcIndex length
      pure (heap written)
  | dynamic endianness factory buffer idx, index, src, srcIndex, length => do
      let written ← buffer.setBytes index src srcIndex length
      pure (dynamic endianness factory written idx)
  | sliced buffer adjustment capacity idx, index, src, srcIndex, length => do
      Getters.slicedCheck capacity index length
      let written ← setBytes buffer (int32 (index + adjustment)) src srcIndex length
      pure (sliced written adjustment capacity idx)
  | truncated buffer capacity idx, index, src, srcIndex, length => do
      Getters.truncatedCheck capacity index length
      let written ← setBytes buffer index src srcIndex length
      pure (truncated written capacity idx)
  | duplicated buffer idx, index, src, srcIndex, length => do
      let written ← setBytes buffer index src srcIndex length
      pure (duplicated written idx)
  | readOnly _ _, _, _, _, _ => throw (.thrown ⟨.readOnlyBuffer, ""⟩)
  | composite order components indices last idx, index, src, srcIndex, length => do
      let componentId ← getComponentId indices components.length last index
      if int32 (indices.getD components.length 0 - length) < index ∨
          int32 (src.capacity - length) < srcIndex then
        throw (rangeException "")
      let written ← setComponentBytes components indices componentId index src srcIndex length
      pure (composite order written indices last idx)

/-- The transfer loop of a composite buffer, the components before the first one skipped. -/
def setComponentBytes : List ChannelBuffer → List Int → Nat → Int → Getters → Int → Int →
    Except Stop (List ChannelBuffer)
  | [], _, _, _, _, _, length => if 0 < length then throw .outOfBounds else pure []
  | component :: rest, indices, skip + 1, index, src, srcIndex, length => do
      let written ← setComponentBytes rest indices.tail skip index src srcIndex length
      pure (component :: written)
  | component :: rest, indices, 0, index, src, srcIndex, length =>
      if 0 < length then do
        let adjustment := indices.headD 0
        let localLength := min length (component.getters.capacity - (index - adjustment))
        let first ← setBytes component (index - adjustment) src srcIndex localLength
        let written ← setComponentBytes rest indices.tail 0 (index + localLength) src
          (srcIndex + localLength) (length - localLength)
        pure (first :: written)
      else pure (component :: rest)

end

/-- `CompositeChannelBuffer::discardReadBytes`. -/
def compositeDiscard (order : ByteOrder) (components : List ChannelBuffer) (indices : List Int)
    (last : Nat) (idx : Indices) : Except Stop ChannelBuffer := do
  let localReaderIndex := idx.readerIdx
  let localWriterIndex := idx.writerIdx
  let bytesToMove := indices.getD components.length 0 - localReaderIndex
  let list ← decompose (slicers components) indices last localReaderIndex bytesToMove
  let padding ← allocate order localReaderIndex
  let padding ← (heap padding).setWriterIndex localReaderIndex
  -- `resetReaderIndex` is checked against the writer index, `resetWriterIndex` is not
  let localMarkedReaderIndex :=
    if idx.markedReaderIndex < 0 ∨ localWriterIndex < idx.markedReaderIndex then localReaderIndex
    else idx.markedReaderIndex
  let localMarkedWriterIndex := idx.markedWriterIndex
  let buffer ← makeComposite order (list ++ [padding]) idx
  let relocate := fun marked : Int =>
    if localReaderIndex < marked then marked - localReaderIndex else 0
  let buffer ← buffer.setIndex (relocate localMarkedReaderIndex) (relocate localMarkedWriterIndex)
  let marked := buffer.withIdx
    { buffer.idx with
      markedReaderIndex := buffer.readerIdx
      markedWriterIndex := buffer.writerIdx }
  marked.setIndex 0 (relocate localWriterIndex)

/-- `while (newCapacity < minNewCapacity) newCapacity <<= 1;`. -/
def growCapacity : Nat → Int → Int → Except Stop Int
  | 0, _, _ => throw .diverges
  | fuel + 1, newCapacity, minNewCapacity =>
      if newCapacity < minNewCapacity then
        growCapacity fuel (int32 (newCapacity * 2)) minNewCapacity
      else pure newCapacity

/-- A capacity doubled 32 times is zero in 32 bits and stays zero, so a loop
that has not ended by then never ends. -/
def growCapacityRounds : Nat := 33

end ChannelBuffer

abbrev BufferM (Value : Type) := Exec ChannelBuffer Value

namespace BufferM

/-- `ensureWritableBytes`, overridden by the dynamic kind only. -/
def ensureWritableBytes (minWritableBytes : Int) : BufferM Unit := do
  let this ← get
  if minWritableBytes ≤ this.writableBytes then pure ()
  else
    match this with
    | .dynamic endianness factory buffer idx =>
        let capacity : Int := buffer.arry.length
        let newCapacity ← call (ChannelBuffer.growCapacity ChannelBuffer.growCapacityRounds
          (if capacity = 0 then 1 else capacity) (int32 (idx.writerIdx + minWritableBytes)))
        let newBuffer ← call (ChannelBuffer.allocate endianness newCapacity)
        let newBuffer ← call (newBuffer.setBytes 0 buffer.getters 0 idx.writerIdx)
        set (ChannelBuffer.dynamic endianness factory
          { newBuffer with idx := { newBuffer.idx with writerIdx := idx.writerIdx } } idx)
    | _ => throw (rangeException "has no enough capacity to write")

/-- `writeBytes(const ChannelBuffer& src, srcIndex, length)`. -/
def writeFrom (src : Getters) (srcIndex length : Int) : BufferM Unit := do
  if let .dynamic .. ← get then ensureWritableBytes length
  let this ← get
  let written ← call (this.setBytes this.writerIdx src srcIndex length)
  set (written.withIdx
    { written.idx with writerIdx := int32 (written.writerIdx + length) })

/-- `writeBytes(ChannelBuffer& src)`; the result is `src` afterwards. -/
def writeBytes (src : ChannelBuffer) : BufferM ChannelBuffer := do
  let length := src.readableBytes
  writeFrom src.getters src.readerIdx length
  call (src.setReaderIndex (int32 (src.readerIdx + length)))

def discardReadBytes : BufferM Unit := do
  let this ← get
  match this with
  | .readOnly .. => throw (.thrown ⟨.readOnlyBuffer, ""⟩)
  | .composite order components indices last idx =>
      if idx.readerIdx = 0 then pure ()
      else
        let moved ← call (ChannelBuffer.compositeDiscard order components indices last idx)
        set moved
  | _ =>
      let readerIdx := this.readerIdx
      if readerIdx = 0 then pure ()
      else if readerIdx = this.writerIdx then
        set (this.withIdx { this.idx with readerIdx := 0, writerIdx := 0 })
      else
        let moved ← call (this.setBytes 0 this.getters readerIdx
          (int32 (this.writerIdx - readerIdx)))
        let relocate := fun marked : Int => if 0 < int32 (marked - readerIdx) then
          int32 (marked - readerIdx) else 0
        set (moved.withIdx
          { readerIdx := 0
            writerIdx := int32 (this.writerIdx - readerIdx)
            markedReaderIndex := relocate this.idx.markedReaderIndex
            markedWriterIndex := relocate this.idx.markedWriterIndex })

/-- `readerIndex(int)` as a program. -/
def readerIndex (readerIdx : Int) : BufferM Unit := do
  let moved ← call ((← get).setReaderIndex readerIdx)
  set moved

def markReaderIndex : BufferM Unit :=
  modify fun this => this.withIdx { this.idx with markedReaderIndex := this.readerIdx }

def resetReaderIndex : BufferM Unit := do
  readerIndex (← get).idx.markedReaderIndex

def skipBytes (length : Int) : BufferM Unit := do
  let this ← get
  let newReaderIndex := int32 (this.readerIdx + length)
  if this.writerIdx < newReaderIndex then throw (rangeException "")
  set (this.withIdx { this.idx with readerIdx := newReaderIndex })

def checkReadableBytes (minimumReadableBytes : Int) : BufferM Unit := do
  if (← get).readableBytes < minimumReadableBytes then throw (rangeException "no data to read")

/-- `readShort`, `readUnsignedMedium`, `readInt` and `readLong` differ in width and getter. -/
def readTyped {Value : Type} (width : Int) (get_ : Getters → Int → Except Stop Value) :
    BufferM Value := do
  checkReadableBytes width
  let this ← get
  let value ← call (get_ this.getters this.readerIdx)
  set (this.withIdx { this.idx with readerIdx := int32 (this.readerIdx + width) })
  pure value

def readShort : BufferM (BitVec 16) := readTyped 2 Getters.getShort

def readUnsignedMedium : BufferM (BitVec 32) := readTyped 3 Getters.getUnsignedMedium

def readInt : BufferM (BitVec 32) := readTyped 4 Getters.getInt

def readLong : BufferM (BitVec 64) := readTyped 8 Getters.getLong

/-- The index has moved before `getByte` can throw. -/
def readByte : BufferM Byte := do
  let this ← get
  if this.readerIdx = this.writerIdx then throw (rangeException "no data to read")
  set (this.withIdx { this.idx with readerIdx := int32 (this.readerIdx + 1) })
  call (this.getters.getByte this.readerIdx)

/-- `readBytes(int)`. A read that drains the buffer moves both indices back to the front. -/
def readBytes (length : Int) : BufferM ChannelBuffer := do
  if length = 0 then pure ChannelBuffer.emptyBuffer
  else
    checkReadableBytes length
    let this ← get
    let buf ← call (ChannelBuffer.allocate this.order length)
    let buf ← call (buf.setBytes buf.idx.writerIdx this.getters this.readerIdx length)
    let readerIdx := int32 (this.readerIdx + length)
    if readerIdx = this.writerIdx then
      set (this.withIdx { this.idx with readerIdx := 0, writerIdx := 0 })
    else
      set (this.withIdx { this.idx with readerIdx := readerIdx })
    pure (.heap { buf with
      idx := { buf.idx with writerIdx := int32 (buf.idx.writerIdx + length) } })

/-- `readSlice(int)`. -/
def readSlice (length : Int) : BufferM ChannelBuffer := do
  let this ← get
  let sliceBuffer ← call (this.slice this.readerIdx length)
  set (this.withIdx { this.idx with readerIdx := int32 (this.readerIdx + length) })
  pure sliceBuffer

/-- `readBytes()` and `readSlice()`; only the first one leaves a drained buffer to `readBytes(int)`. -/
def readAllBytes : BufferM ChannelBuffer := do
  readBytes (← get).readableBytes

def readAllSlice : BufferM ChannelBuffer := do
  let buffer ← readSlice (← get).readableBytes
  modify fun this => this.withIdx { this.idx with readerIdx := 0, writerIdx := 0 }
  pure buffer

end BufferM

end Cetty
