import Cetty.FrameDecoder

/-!
# AsioWriteRequest

The memory blocks a channel buffer is turned into before it is written to the
socket: one block if the buffer has an array, else what the buffer appends to a
gathering buffer of eight slots.
-/

namespace Cetty

open MachineInt ByteWindow

/-- The gathering buffer counts one block before anything has been appended. -/
structure AsioGatheringBuffer where
  byteSize : Int
  truncatedIndex : Nat
  slots : List CharArray

namespace AsioGatheringBuffer

def maxBufferCount : Nat := 8

def make : AsioGatheringBuffer := ⟨0, 1, List.replicate maxBufferCount []⟩

def append (gathering : AsioGatheringBuffer) (block : CharArray) :
    Except Stop AsioGatheringBuffer :=
  if gathering.truncatedIndex < maxBufferCount then
    pure
      { byteSize := int32 (gathering.byteSize + block.length)
        truncatedIndex := gathering.truncatedIndex + 1
        slots := gathering.slots.set gathering.truncatedIndex block }
  else throw .assertion

def blocks (gathering : AsioGatheringBuffer) : List CharArray :=
  gathering.slots.take gathering.truncatedIndex

def sumBlocks : List CharArray → Int → Int
  | [], byteSize => byteSize
  | block :: rest, byteSize => sumBlocks rest (int32 (byteSize + block.length))

/-- A cached count of zero is taken for a count not made yet. -/
def bytesCount (gathering : AsioGatheringBuffer) : Int :=
  if gathering.byteSize = 0 then sumBlocks gathering.blocks 0 else gathering.byteSize

/-- The cached count is the length of the blocks, as an `int`. -/
structure Counted (gathering : AsioGatheringBuffer) : Prop where
  slots : gathering.slots.length = maxBufferCount
  byteSize : gathering.byteSize = int32 gathering.blocks.flatten.length

theorem make_blocks : make.blocks = [[]] := rfl

theorem make_counted : make.Counted := by
  refine ⟨rfl, ?_⟩
  rw [make_blocks]
  exact (int32_of_bounds (by decide) (by decide)).symm

section

variable {gathering after : AsioGatheringBuffer} {block : CharArray}

theorem append_blocks (slots : gathering.slots.length = maxBufferCount)
    (appended : gathering.append block = .ok after) :
    after.blocks = gathering.blocks ++ [block] ∧
      after.truncatedIndex = gathering.truncatedIndex + 1 := by
  unfold append at appended
  by_cases room : gathering.truncatedIndex < maxBufferCount
  · rw [if_pos room] at appended
    cases appended
    have inside : gathering.truncatedIndex < gathering.slots.length := by
      rw [slots]
      exact room
    refine ⟨?_, rfl⟩
    unfold blocks
    rw [List.take_succ_eq_append_getElem (by rw [List.length_set]; exact inside),
      List.getElem_set_self, List.take_set_of_le (Nat.le_refl _)]
  · rw [if_neg room] at appended
    cases appended

theorem append_counted
    (counted : gathering.Counted) (appended : gathering.append block = .ok after) :
    after.Counted := by
  have grown := (append_blocks counted.slots appended).1
  unfold append at appended
  by_cases room : gathering.truncatedIndex < maxBufferCount
  · rw [if_pos room] at appended
    cases appended
    refine ⟨?_, ?_⟩
    · rw [List.length_set]
      exact counted.slots
    · rw [grown]
      simp only [List.flatten_append, List.flatten_cons, List.flatten_nil, List.append_nil,
        List.length_append, Int.natCast_add]
      rw [counted.byteSize, int32_add_left]
  · rw [if_neg room] at appended
    cases appended

end

variable {gathering : AsioGatheringBuffer}

theorem blocks_single (slots : gathering.slots.length = maxBufferCount)
    (single : gathering.truncatedIndex = 1) :
    gathering.blocks = [gathering.slots.headD []] := by
  unfold blocks
  rw [single]
  cases filled : gathering.slots with
  | nil =>
      rw [filled] at slots
      cases slots
  | cons first rest => rfl

theorem sumBlocks_eq (blocks : List CharArray) (byteSize : Int) :
    sumBlocks blocks (int32 byteSize) = int32 (byteSize + blocks.flatten.length) := by
  induction blocks generalizing byteSize with
  | nil => simp [sumBlocks]
  | cons block rest ih =>
      unfold sumBlocks
      rw [int32_add_left, ih]
      simp [Int.add_assoc]

theorem Counted.bytesCount (counted : gathering.Counted) :
    gathering.bytesCount = int32 gathering.blocks.flatten.length := by
  unfold AsioGatheringBuffer.bytesCount
  split
  · have zero : int32 0 = 0 := rfl
    rw [← zero, sumBlocks_eq, Int.zero_add]
  · exact counted.byteSize

end AsioGatheringBuffer

namespace ChannelBuffer

def hasArray : ChannelBuffer → Bool
  | heap _ => true
  | dynamic _ _ _ _ => true
  | sliced buffer _ _ _ => hasArray buffer
  | truncated buffer _ _ => hasArray buffer
  | duplicated buffer _ => hasArray buffer
  | readOnly _ _ => false
  | composite _ _ _ _ _ => false

/-- The backing array, without the offset a view has in it. -/
def array : ChannelBuffer → Except Stop CharArray
  | heap buffer => pure buffer.arry
  | dynamic _ _ buffer _ => pure buffer.arry
  | sliced buffer _ _ _ => array buffer
  | truncated buffer _ _ => array buffer
  | duplicated buffer _ => array buffer
  | readOnly _ _ => throw (.thrown ⟨.readOnlyBuffer, ""⟩)
  | composite _ _ _ _ _ => throw (.thrown ⟨.unsupportedOperation, ""⟩)

end ChannelBuffer

namespace BufferM

/-- `readSlice(Array&)`; the argument is what the array showed before. -/
def readSliceArray (shown : CharArray) : BufferM CharArray := do
  let this ← get
  match this with
  | .sliced .. => pure shown
  | .readOnly .. => pure shown
  | .composite .. => pure shown
  | _ =>
      let arry ← call this.array
      let block ← call (arry.block this.readerIdx (int32 (this.writerIdx - this.readerIdx)))
      set (this.withIdx { this.idx with readerIdx := 0, writerIdx := 0 })
      pure block

/-- The loop of `CompositeChannelBuffer::readSlice`. The array is declared in front
of the loop, so a component that leaves it alone appends the block before it again. -/
def gatherComponents : List ChannelBuffer → CharArray → AsioGatheringBuffer →
    Except Stop (List ChannelBuffer × AsioGatheringBuffer)
  | [], _, gathering => pure ([], gathering)
  | component :: rest, shown, gathering =>
      if component.readable then
        match (readSliceArray shown).run component with
        | .ok block moved => do
            let gathering ← gathering.append block
            let (others, gathering) ← gatherComponents rest block gathering
            pure (moved :: others, gathering)
        | .error stop _ => throw stop
      else do
        let (others, gathering) ← gatherComponents rest shown gathering
        pure (component :: others, gathering)

/-- `readSlice(GatheringBuffer&)`. -/
def readSliceGathering (gathering : AsioGatheringBuffer) : BufferM AsioGatheringBuffer := do
  let this ← get
  match this with
  | .heap buffer =>
      let block ← call (buffer.arry.block this.readerIdx
        (int32 (this.writerIdx - this.readerIdx)))
      let gathering ← call (gathering.append block)
      set (this.withIdx { this.idx with readerIdx := 0, writerIdx := 0 })
      pure gathering
  | .composite order components indices last idx =>
      let (components, gathering) ← call (gatherComponents components [] gathering)
      set (ChannelBuffer.composite order components indices last idx)
      pure gathering
  | _ => pure gathering

end BufferM

namespace BufferM

theorem gatherComponents_counted {components others : List ChannelBuffer} {shown : CharArray}
    {gathering after : AsioGatheringBuffer} (counted : gathering.Counted)
    (gathered : gatherComponents components shown gathering = .ok (others, after)) :
    after.Counted := by
  induction components generalizing shown gathering others with
  | nil =>
      cases gathered
      exact counted
  | cons component rest ih =>
      unfold gatherComponents at gathered
      by_cases readable : component.readable = true
      · rw [if_pos readable] at gathered
        cases sliced : (readSliceArray shown).run component with
        | error stop moved =>
            simp only [sliced] at gathered
            cases gathered
        | ok block moved =>
            simp only [sliced] at gathered
            rcases ok_of_bind gathered with ⟨grown, appended, continued⟩
            rcases ok_of_bind continued with ⟨result, later, finished⟩
            cases finished
            exact ih (AsioGatheringBuffer.append_counted counted appended) later
      · rw [if_neg readable] at gathered
        rcases ok_of_bind gathered with ⟨result, later, finished⟩
        cases finished
        exact ih counted later

theorem readSliceGathering_counted {buffer moved : ChannelBuffer}
    {gathering after : AsioGatheringBuffer} (counted : gathering.Counted)
    (gathered : (readSliceGathering gathering).run buffer = .ok after moved) :
    after.Counted := by
  unfold readSliceGathering at gathered
  rw [run_bind_get] at gathered
  cases buffer with
  | heap buffer =>
      rcases ok_of_run_bind gathered with ⟨block, middle, cut, continued⟩
      rcases ok_of_run_bind continued with ⟨grown, later, appended, finished⟩
      cases finished
      exact AsioGatheringBuffer.append_counted counted (ok_of_run_call appended).1
  | composite order components indices last idx =>
      rcases ok_of_run_bind gathered with ⟨result, middle, walked, finished⟩
      cases finished
      exact gatherComponents_counted counted (ok_of_run_call walked).1
  | dynamic endianness factory buffer idx =>
      cases gathered
      exact counted
  | sliced buffer adjustment length idx =>
      cases gathered
      exact counted
  | truncated buffer length idx =>
      cases gathered
      exact counted
  | duplicated buffer idx =>
      cases gathered
      exact counted
  | readOnly buffer idx =>
      cases gathered
      exact counted

end BufferM

structure AsioWriteRequest where
  buffer : CharArray
  gathering : AsioGatheringBuffer
  writeBufferSize : Int

namespace AsioWriteRequest

def hasBuffers (request : AsioWriteRequest) : Bool := 0 < request.gathering.truncatedIndex

/-- The blocks `async_write` is given. -/
def blocks (request : AsioWriteRequest) : List CharArray :=
  if request.hasBuffers then request.gathering.blocks else [request.buffer]

def bytes (request : AsioWriteRequest) : CharArray := request.blocks.flatten

/-- What one block of memory makes. -/
def ofArray (array : CharArray) : AsioWriteRequest :=
  ⟨array, { AsioGatheringBuffer.make with truncatedIndex := 0 }, array.length⟩

/-- The constructor, for a message that is a channel buffer. -/
def make : BufferM AsioWriteRequest := do
  if (← get).hasArray then
    let array ← BufferM.readSliceArray []
    pure (ofArray array)
  else
    let gathering ← BufferM.readSliceGathering AsioGatheringBuffer.make
    let writeBufferSize := gathering.bytesCount
    if gathering.truncatedIndex = 1 then
      pure ⟨gathering.slots.headD [], { gathering with truncatedIndex := 0 }, writeBufferSize⟩
    else pure ⟨[], gathering, writeBufferSize⟩

/-- The size of a request is the count of its bytes, if an `int` holds it. -/
theorem writeBufferSize_eq {buffer moved : ChannelBuffer} {request : AsioWriteRequest}
    (made : make.run buffer = .ok request moved) (fits : (request.bytes.length : Int) ≤ maxInt) :
    request.writeBufferSize = request.bytes.length := by
  unfold make at made
  rw [run_bind_get] at made
  simp only at made
  by_cases arrayed : buffer.hasArray = true
  · rw [if_pos arrayed] at made
    rcases ok_of_run_bind made with ⟨array, middle, sliced, finished⟩
    cases finished
    simp [bytes, blocks, hasBuffers, ofArray]
  · rw [if_neg arrayed] at made
    rcases ok_of_run_bind made with ⟨gathering, middle, gathered, finished⟩
    have counted := BufferM.readSliceGathering_counted
      AsioGatheringBuffer.make_counted gathered
    have size := counted.bytesCount
    by_cases single : gathering.truncatedIndex = 1
    · rw [if_pos single] at finished
      cases finished
      have shown := AsioGatheringBuffer.blocks_single counted.slots single
      have sent : bytes ⟨gathering.slots.headD [],
          { gathering with truncatedIndex := 0 }, gathering.bytesCount⟩ =
            gathering.blocks.flatten := by
        rw [shown]
        rfl
      rw [sent] at fits ⊢
      exact size.trans (int32_of_nonneg (Int.natCast_nonneg _) fits)
    · rw [if_neg single] at finished
      cases finished
      have sent : bytes ⟨[], gathering, gathering.bytesCount⟩ = gathering.blocks.flatten := by
        by_cases used : 0 < gathering.truncatedIndex
        · simp [bytes, blocks, hasBuffers, used]
        · have unused : gathering.truncatedIndex = 0 := Nat.eq_zero_of_not_pos used
          simp [bytes, blocks, hasBuffers, AsioGatheringBuffer.blocks, unused]
      rw [sent] at fits ⊢
      exact size.trans (int32_of_nonneg (Int.natCast_nonneg _) fits)

end AsioWriteRequest

end Cetty
