import Cetty.BufferContents

/-!
# Bulk transfers between heap buffers and arrays

Every `getBytes`, `setBytes`, `readBytes` and `writeBytes` ends in `Array::copy`, whose range
checks are made on 32-bit sums. A call has two sides: the buffer it is made on and the buffer or
array that is its argument.
-/

namespace Cetty

open MachineInt ByteWindow

/-- The memory of a heap buffer with its indices, or an array, whose indices mean nothing. A null
pointer has no cells. -/
structure Block where
  cells : Option CharArray
  readerIdx : Int
  writerIdx : Int
  deriving DecidableEq, Repr

namespace Block

def length (this : Block) : Int := ((this.cells.getD []).length : Int)

/-- The documented order of the indices. -/
structure Ordered (this : Block) : Prop where
  reader : 0 ≤ this.readerIdx
  writer : this.readerIdx ≤ this.writerIdx
  bound : this.writerIdx ≤ this.length

def readableBytes (this : Block) : Int := int32 (this.writerIdx - this.readerIdx)

def writableBytes (this : Block) : Int := int32 (this.length - this.writerIdx)

/-- A heap buffer as `HeapChannelBuffer::HeapChannelBuffer(int)` makes it. -/
def fresh (length : Int) : Except Stop Block :=
  if length < 0 then throw (invalidArgumentException "length must greater than 0.")
  else pure ⟨some (List.replicate length.toNat 0), 0, 0⟩

def setReaderIndex (this : Block) (readerIdx : Int) : Except Stop Block :=
  if readerIdx < 0 ∨ this.writerIdx < readerIdx then throw (rangeException "readerIndex")
  else pure { this with readerIdx := readerIdx }

def setWriterIndex (this : Block) (writerIdx : Int) : Except Stop Block :=
  if writerIdx < this.readerIdx ∨ this.length < writerIdx then
    throw (rangeException "writerIndex")
  else pure { this with writerIdx := writerIdx }

end Block

/-- `Array::copy`, with the destination it leaves. -/
def copyArrays (dst : Option CharArray) (dstIndex : Int) (src : Option CharArray)
    (srcIndex length : Int) : Except Stop (Option CharArray) :=
  match dst, src with
  | some dst, some src => do
      let filled ← CharArray.copy dst dstIndex src srcIndex length
      pure (some filled)
  | dst, src =>
      if dstIndex < 0 ∨ srcIndex < 0 ∨ length < 0 ∨
          ((src.getD []).length : Int) < int32 (srcIndex + length) ∨
          ((dst.getD []).length : Int) < int32 (dstIndex + length) then
        throw (rangeException "")
      else throw (invalidArgumentException "")

structure Sides where
  this : Block
  other : Block
  deriving DecidableEq, Repr

namespace Sides

/-- The buffer of the call with other cells. -/
def filledThis (sides : Sides) (cells : Option CharArray) : Sides :=
  { sides with this := { sides.this with cells := cells } }

/-- The argument with other cells. -/
def filledOther (sides : Sides) (cells : Option CharArray) : Sides :=
  { sides with other := { sides.other with cells := cells } }

abbrev BulkM := Exec Sides Unit

def checkReadableBytes (minimumReadableBytes : Int) : BulkM := do
  if (← get).this.readableBytes < minimumReadableBytes then
    throw (rangeException "no data to read")

/-- `getBytes(index, dst, dstIndex, length)`, for an array and for a heap buffer. -/
def getBytes (index dstIndex length : Int) : BulkM := do
  let sides ← get
  let filled ← call (copyArrays sides.other.cells dstIndex sides.this.cells index length)
  set (sides.filledOther filled)

/-- `setBytes(index, src, srcIndex, length)`, for an array and for a heap buffer. -/
def setBytes (index srcIndex length : Int) : BulkM := do
  let sides ← get
  let filled ← call (copyArrays sides.this.cells index sides.other.cells srcIndex length)
  set (sides.filledThis filled)

/-- `dst.writerIndex(dst.writerIndex() + length)` of the argument. -/
def otherWritten (length : Int) : BulkM := do
  let sides ← get
  let other ← call (sides.other.setWriterIndex (int32 (sides.other.writerIdx + length)))
  set { sides with other := other }

/-- `src.readerIndex(src.readerIndex() + length)` of the argument. -/
def otherRead (length : Int) : BulkM := do
  let sides ← get
  let other ← call (sides.other.setReaderIndex (int32 (sides.other.readerIdx + length)))
  set { sides with other := other }

def readerMoved (sides : Sides) (length : Int) : Sides :=
  { sides with this := { sides.this with readerIdx := int32 (sides.this.readerIdx + length) } }

def writerMoved (sides : Sides) (length : Int) : Sides :=
  { sides with this := { sides.this with writerIdx := int32 (sides.this.writerIdx + length) } }

/-- `readerIdx += length`. -/
def moveReader (length : Int) : BulkM := modify fun sides => sides.readerMoved length

/-- `writerIdx += length`. -/
def moveWriter (length : Int) : BulkM := modify fun sides => sides.writerMoved length

/-- `getBytes(index, ChannelBuffer& dst, length)`. -/
def getBuffer (index length : Int) : BulkM := do
  let sides ← get
  if sides.other.writableBytes < length then
    throw (rangeException "has no enough capacity to write")
  getBytes index sides.other.writerIdx length
  otherWritten length

/-- `setBytes(index, ChannelBuffer& src, length)`. -/
def setBuffer (index length : Int) : BulkM := do
  let sides ← get
  if sides.other.readableBytes < length then throw (rangeException "exceed readable bytes")
  setBytes index sides.other.readerIdx length
  otherRead length

/-- `readBytes(length)`; the other side becomes the returned buffer. -/
def readBytes (length : Int) : BulkM := do
  if length = 0 then
    modify fun sides => { sides with other := ⟨some [], 0, 0⟩ }
  else do
    checkReadableBytes length
    let sides ← get
    let buf ← call (Block.fresh length)
    let filled ← call (copyArrays buf.cells 0 sides.this.cells sides.this.readerIdx length)
    set { sides with other := ⟨filled, 0, int32 (0 + length)⟩ }
    moveReader length
    modify fun sides =>
      if sides.this.readerIdx = sides.this.writerIdx then
        { sides with this := { sides.this with readerIdx := 0, writerIdx := 0 } }
      else sides

/-- `readBytes(const Array& dst, dstIndex, length)`. -/
def readArray (dstIndex length : Int) : BulkM := do
  if length = 0 then pure ()
  else do
    checkReadableBytes length
    getBytes (← get).this.readerIdx dstIndex length
    moveReader length

/-- `readBytes(ChannelBuffer& dst, dstIndex, length)`. -/
def readInto (dstIndex length : Int) : BulkM := do
  checkReadableBytes length
  getBytes (← get).this.readerIdx dstIndex length
  moveReader length

/-- `readBytes(ChannelBuffer& dst, length)`. -/
def readBuffer (length : Int) : BulkM := do
  let sides ← get
  if sides.other.writableBytes < length then throw (rangeException "readBytes out of range")
  readInto sides.other.writerIdx length
  otherWritten length

/-- `writeBytes(src, srcIndex, length)`, for an array and for a heap buffer. -/
def writeBytes (srcIndex length : Int) : BulkM := do
  setBytes (← get).this.writerIdx srcIndex length
  moveWriter length

/-- `writeBytes(ChannelBuffer& src, length)`. -/
def writeBuffer (length : Int) : BulkM := do
  let sides ← get
  if sides.other.readableBytes < length then throw (rangeException "no data to read")
  writeBytes sides.other.readerIdx length
  otherRead length

end Sides

/-- The calls that are given a length. -/
inductive BulkCall where
  | copy (dstIndex srcIndex length : Int)
  | getBytes (index dstIndex length : Int)
  | getBuffer (index length : Int)
  | setBytes (index srcIndex length : Int)
  | setBuffer (index length : Int)
  | readBytes (length : Int)
  | readArray (dstIndex length : Int)
  | readInto (dstIndex length : Int)
  | readBuffer (length : Int)
  | writeBytes (srcIndex length : Int)
  | writeBuffer (length : Int)
  deriving DecidableEq, Repr

namespace BulkCall

def program : BulkCall → Sides.BulkM
  | copy dstIndex srcIndex length => Sides.setBytes dstIndex srcIndex length
  | getBytes index dstIndex length => Sides.getBytes index dstIndex length
  | getBuffer index length => Sides.getBuffer index length
  | setBytes index srcIndex length => Sides.setBytes index srcIndex length
  | setBuffer index length => Sides.setBuffer index length
  | readBytes length => Sides.readBytes length
  | readArray dstIndex length => Sides.readArray dstIndex length
  | readInto dstIndex length => Sides.readInto dstIndex length
  | readBuffer length => Sides.readBuffer length
  | writeBytes srcIndex length => Sides.writeBytes srcIndex length
  | writeBuffer length => Sides.writeBuffer length

end BulkCall

/-- What a call asks `Array::copy` for. -/
structure Transfer where
  dst : Option CharArray
  dstIndex : Int
  src : Option CharArray
  srcIndex : Int
  length : Int

namespace Transfer

def copied (transfer : Transfer) : Except Stop (Option CharArray) :=
  copyArrays transfer.dst transfer.dstIndex transfer.src transfer.srcIndex transfer.length

/-- All positions of a range are positions of the cells; an empty range has none. -/
def Within (cells : Option CharArray) (first length : Int) : Prop :=
  ∀ place, first ≤ place → place < first + length →
    0 ≤ place ∧ place < ((cells.getD []).length : Int)

/-- The destination with the source range put over the destination range. -/
def result (transfer : Transfer) : Option CharArray :=
  transfer.dst.map fun dst => overwrite dst transfer.dstIndex.toNat
    (window (transfer.src.getD []) transfer.srcIndex.toNat transfer.length.toNat)

/-- There are two arrays, and both ranges lie in them. -/
structure Fits (transfer : Transfer) : Prop where
  present : transfer.dst.isSome ∧ transfer.src.isSome
  dst : 0 ≤ transfer.dstIndex
  src : 0 ≤ transfer.srcIndex
  length : 0 ≤ transfer.length
  dstEnd : transfer.dstIndex + transfer.length ≤ ((transfer.dst.getD []).length : Int)
  srcEnd : transfer.srcIndex + transfer.length ≤ ((transfer.src.getD []).length : Int)

/-- An end beyond the largest `int` is taken for a negative one, and the other end is not in the
way. -/
structure Overflows (transfer : Transfer) : Prop where
  present : transfer.dst.isSome ∧ transfer.src.isSome
  dst : 0 ≤ transfer.dstIndex
  src : 0 ≤ transfer.srcIndex
  length : 0 ≤ transfer.length
  dstEnd : transfer.dstIndex + transfer.length ≤ ((transfer.dst.getD []).length : Int) ∨
    maxInt < transfer.dstIndex + transfer.length
  srcEnd : transfer.srcIndex + transfer.length ≤ ((transfer.src.getD []).length : Int) ∨
    maxInt < transfer.srcIndex + transfer.length
  beyond : maxInt < transfer.dstIndex + transfer.length ∨
    maxInt < transfer.srcIndex + transfer.length

/-- The lengths and indices are of type `int`. -/
structure IsTyped (transfer : Transfer) : Prop where
  dst : ((transfer.dst.getD []).length : Int) ≤ maxInt
  src : ((transfer.src.getD []).length : Int) ≤ maxInt
  dstIndex : minInt ≤ transfer.dstIndex ∧ transfer.dstIndex ≤ maxInt
  srcIndex : minInt ≤ transfer.srcIndex ∧ transfer.srcIndex ≤ maxInt
  length : minInt ≤ transfer.length ∧ transfer.length ≤ maxInt

section Copying

variable {transfer : Transfer}

/-- The end of a range in 32 bits. -/
theorem end_passes_iff {first length : Int} (size : Nat) (lower : 0 ≤ first) (forward : 0 ≤ length)
    (firstInt : first ≤ maxInt) (lengthInt : length ≤ maxInt) (small : (size : Int) ≤ maxInt) :
    ¬(size : Int) < int32 (first + length) ↔ first + length ≤ size ∨ maxInt < first + length := by
  have limit : maxInt = 2147483647 := rfl
  by_cases representable : first + length ≤ maxInt
  · rw [int32_of_nonneg (by omega) representable]
    omega
  · rw [int32_of_overflow (by omega) (by omega)]
    omega

theorem copied_fits (typed : transfer.IsTyped) (fits : transfer.Fits) :
    transfer.copied = .ok transfer.result := by
  obtain ⟨dst, dstIndex, src, srcIndex, length⟩ := transfer
  obtain ⟨⟨dstThere, srcThere⟩, lower, low, forward, dstEnd, srcEnd⟩ := fits
  obtain ⟨dstSmall, srcSmall, -, -, -⟩ := typed
  cases dst with
  | none => cases dstThere
  | some dst =>
      cases src with
      | none => cases srcThere
      | some src =>
          dsimp only [Option.getD_some] at *
          obtain ⟨start, rfl⟩ : ∃ start : Nat, dstIndex = start :=
            ⟨dstIndex.toNat, (Int.toNat_of_nonneg lower).symm⟩
          obtain ⟨origin, rfl⟩ : ∃ origin : Nat, srcIndex = origin :=
            ⟨srcIndex.toNat, (Int.toNat_of_nonneg low).symm⟩
          obtain ⟨count, rfl⟩ : ∃ count : Nat, length = count :=
            ⟨length.toNat, (Int.toNat_of_nonneg forward).symm⟩
          unfold copied copyArrays result
          dsimp only
          rw [CharArray.copy_of_inside (by omega) (by omega) srcSmall dstSmall]
          rfl

theorem copied_overflows (typed : transfer.IsTyped) (overflows : transfer.Overflows) :
    transfer.copied = .error .outOfBounds := by
  obtain ⟨dst, dstIndex, src, srcIndex, length⟩ := transfer
  obtain ⟨⟨dstThere, srcThere⟩, lower, low, forward, dstEnd, srcEnd, beyond⟩ := overflows
  obtain ⟨dstSmall, srcSmall, dstInt, srcInt, lengthInt⟩ := typed
  cases dst with
  | none => cases dstThere
  | some dst =>
      cases src with
      | none => cases srcThere
      | some src =>
          dsimp only [Option.getD_some] at *
          have dstPasses := (end_passes_iff dst.length lower forward dstInt.2 lengthInt.2
            dstSmall).mpr dstEnd
          have srcPasses := (end_passes_iff src.length low forward srcInt.2 lengthInt.2
            srcSmall).mpr srcEnd
          unfold copied copyArrays CharArray.copy
          dsimp only
          rw [if_neg (by omega), if_pos (by omega)]
          rfl

/-- Everything else is refused, a null pointer too. -/
theorem copied_refused (typed : transfer.IsTyped)
    (outside : ¬transfer.Fits) (bounded : ¬transfer.Overflows) :
    ∃ exception, transfer.copied = .error (.thrown exception) := by
  obtain ⟨dst, dstIndex, src, srcIndex, length⟩ := transfer
  obtain ⟨dstSmall, srcSmall, dstInt, srcInt, lengthInt⟩ := typed
  dsimp only at *
  have nulls : ∀ first second : Option CharArray, ∃ exception,
      (if dstIndex < 0 ∨ srcIndex < 0 ∨ length < 0 ∨
          ((second.getD []).length : Int) < int32 (srcIndex + length) ∨
          ((first.getD []).length : Int) < int32 (dstIndex + length) then
        throw (rangeException "")
      else throw (invalidArgumentException "") : Except Stop (Option CharArray)) =
        .error (.thrown exception) := by
    intro first second
    split
    · exact ⟨_, rfl⟩
    · exact ⟨_, rfl⟩
  cases dst with
  | none => exact nulls none src
  | some dst =>
      cases src with
      | none => exact nulls (some dst) none
      | some src =>
          dsimp only [Option.getD_some] at *
          have refused : dstIndex < 0 ∨ srcIndex < 0 ∨ length < 0 ∨
              (src.length : Int) < int32 (srcIndex + length) ∨
              (dst.length : Int) < int32 (dstIndex + length) := by
            by_contra passed
            rw [not_or, not_or, not_or, not_or] at passed
            obtain ⟨lower, low, forward, srcPasses, dstPasses⟩ := passed
            rw [Int.not_lt] at lower low forward
            have dstEnd := (end_passes_iff dst.length lower forward dstInt.2 lengthInt.2
              dstSmall).mp dstPasses
            have srcEnd := (end_passes_iff src.length low forward srcInt.2 lengthInt.2
              srcSmall).mp srcPasses
            by_cases beyond : maxInt < dstIndex + length ∨ maxInt < srcIndex + length
            · exact bounded ⟨⟨rfl, rfl⟩, lower, low, forward, dstEnd, srcEnd, beyond⟩
            · apply outside
              refine ⟨⟨rfl, rfl⟩, lower, low, forward, ?_, ?_⟩
              · show dstIndex + length ≤ (dst.length : Int)
                omega
              · show srcIndex + length ≤ (src.length : Int)
                omega
          unfold copied copyArrays CharArray.copy
          dsimp only
          rw [if_pos refused]
          exact ⟨_, rfl⟩

theorem Fits.within (fits : transfer.Fits) :
    Within transfer.src transfer.srcIndex transfer.length ∧
      Within transfer.dst transfer.dstIndex transfer.length := by
  have dst := fits.dst
  have src := fits.src
  have dstEnd := fits.dstEnd
  have srcEnd := fits.srcEnd
  constructor
  · intro place lower upper
    omega
  · intro place lower upper
    omega

theorem Fits.result_length (fits : transfer.Fits) :
    (transfer.result.getD []).length = (transfer.dst.getD []).length := by
  obtain ⟨dst, dstIndex, src, srcIndex, length⟩ := transfer
  obtain ⟨⟨dstThere, srcThere⟩, lower, low, forward, dstEnd, srcEnd⟩ := fits
  cases dst with
  | none => cases dstThere
  | some dst =>
      dsimp only [Option.getD_some] at *
      have taken : (window (src.getD []) srcIndex.toNat length.toNat).length = length.toNat :=
        window_length (by omega)
      unfold result
      dsimp only [Option.map_some, Option.getD_some]
      exact overwrite_length (by rw [taken]; omega)

end Copying

end Transfer

namespace BulkCall

/-- Whether the bytes go into the buffer the call is made on. -/
def inward : BulkCall → Bool
  | copy .. => true
  | setBytes .. => true
  | setBuffer .. => true
  | writeBytes .. => true
  | writeBuffer .. => true
  | _ => false

def target (call : BulkCall) (sides : Sides) : Option CharArray :=
  if call.inward then sides.this.cells else sides.other.cells

def source (call : BulkCall) (sides : Sides) : Option CharArray :=
  if call.inward then sides.other.cells else sides.this.cells

/-- What a call asks `Array::copy` for; `readBytes(length)` copies into a buffer of its own. -/
def transfer (before : Sides) : BulkCall → Transfer
  | copy dstIndex srcIndex length =>
      ⟨before.this.cells, dstIndex, before.other.cells, srcIndex, length⟩
  | getBytes index dstIndex length =>
      ⟨before.other.cells, dstIndex, before.this.cells, index, length⟩
  | getBuffer index length =>
      ⟨before.other.cells, before.other.writerIdx, before.this.cells, index, length⟩
  | setBytes index srcIndex length =>
      ⟨before.this.cells, index, before.other.cells, srcIndex, length⟩
  | setBuffer index length =>
      ⟨before.this.cells, index, before.other.cells, before.other.readerIdx, length⟩
  | readBytes length =>
      ⟨some (List.replicate length.toNat 0), 0, before.this.cells, before.this.readerIdx, length⟩
  | readArray dstIndex length =>
      ⟨before.other.cells, dstIndex, before.this.cells, before.this.readerIdx, length⟩
  | readInto dstIndex length =>
      ⟨before.other.cells, dstIndex, before.this.cells, before.this.readerIdx, length⟩
  | readBuffer length =>
      ⟨before.other.cells, before.other.writerIdx, before.this.cells, before.this.readerIdx,
        length⟩
  | writeBytes srcIndex length =>
      ⟨before.this.cells, before.this.writerIdx, before.other.cells, srcIndex, length⟩
  | writeBuffer length =>
      ⟨before.this.cells, before.this.writerIdx, before.other.cells, before.other.readerIdx,
        length⟩

/-- The checks in front of the copy end the call. -/
def Refused (before : Sides) : BulkCall → Prop
  | getBuffer _ length => before.other.writableBytes < length
  | setBuffer _ length => before.other.readableBytes < length
  | readBytes length => length ≤ 0 ∨ before.this.readableBytes < length
  | readArray _ length => length = 0 ∨ before.this.readableBytes < length
  | readInto _ length => before.this.readableBytes < length
  | readBuffer length =>
      before.other.writableBytes < length ∨ before.this.readableBytes < length
  | writeBuffer length => before.other.readableBytes < length
  | _ => False

/-- The index of the argument may move over the copied bytes. -/
def Accepts (before : Sides) : BulkCall → Prop
  | getBuffer _ length => before.other.readerIdx ≤ before.other.writerIdx + length
  | setBuffer _ length => before.other.readerIdx + length ≤ before.other.writerIdx
  | readBuffer length => before.other.readerIdx ≤ before.other.writerIdx + length
  | writeBuffer length => before.other.readerIdx + length ≤ before.other.writerIdx
  | _ => True

/-- Both ranges lie in their arrays and exactly the bytes of the source range were copied. -/
structure Done (call : BulkCall) (before after : Sides) : Prop where
  forward : 0 ≤ (call.transfer before).length
  within : Transfer.Within (call.transfer before).src (call.transfer before).srcIndex
    (call.transfer before).length
  target : Transfer.Within (call.transfer before).dst (call.transfer before).dstIndex
    (call.transfer before).length
  copied : call.target after = (call.transfer before).result
  kept : call.source after = call.source before

/-- The call throws without copying, or copies exactly what it was asked for. -/
def Safe (call : BulkCall) (before : Sides) : Prop :=
  match call.program.run before with
  | .ok _ after => call.Done before after
  | .error stop after => (∃ exception, stop = .thrown exception) ∧
      call.target after = call.target before ∧ call.source after = call.source before

/-- No wrapped sum gets through to the copy, and no exception follows a copy that changes
something. -/
def Harmless (call : BulkCall) (before : Sides) : Prop :=
  call.Refused before ∨ ¬(call.transfer before).Overflows ∧
    ((call.transfer before).Fits →
      call.Accepts before ∨ (call.transfer before).result = call.target before)

section Calls

variable {call : BulkCall} {before : Sides}

/-- The shape all calls share: checks, one copy, a move of the argument's index. -/
theorem safe_iff_of_runs (typed : (call.transfer before).IsTyped)
    (refused : call.Refused before → call.Safe before)
    (stops : ¬call.Refused before → ∀ stop, (call.transfer before).copied = .error stop →
      call.program.run before = .error stop before)
    (moves : ¬call.Refused before → (call.transfer before).Fits → ∀ filled,
      (filled.getD []).length = ((call.transfer before).dst.getD []).length →
      (call.transfer before).copied = .ok filled →
      ∃ after, call.target after = filled ∧ call.source after = call.source before ∧
        (call.Accepts before → call.program.run before = .ok () after) ∧
        (¬call.Accepts before →
          ∃ exception, call.program.run before = .error (.thrown exception) after)) :
    call.Safe before ↔ call.Harmless before := by
  by_cases early : call.Refused before
  · exact iff_of_true (refused early) (Or.inl early)
  unfold Harmless
  rw [or_iff_right early]
  by_cases overflows : (call.transfer before).Overflows
  · have ran := stops early _ (Transfer.copied_overflows typed overflows)
    apply iff_of_false
    · unfold Safe
      rw [ran]
      rintro ⟨⟨exception, same⟩, -⟩
      cases same
    · exact fun both => both.1 overflows
  rw [and_iff_right overflows]
  by_cases fits : (call.transfer before).Fits
  · obtain ⟨after, filled, kept, accepted, rejected⟩ :=
      moves early fits _ fits.result_length (Transfer.copied_fits typed fits)
    by_cases accepts : call.Accepts before
    · apply iff_of_true
      · unfold Safe
        rw [accepted accepts]
        exact ⟨fits.length, fits.within.1, fits.within.2, filled, kept⟩
      · exact fun _ => Or.inl accepts
    · obtain ⟨exception, ran⟩ := rejected accepts
      unfold Safe
      rw [ran]
      dsimp only
      rw [filled]
      constructor
      · rintro ⟨-, same, -⟩
        exact fun _ => Or.inr same
      · intro wanted
        rcases wanted fits with wrong | same
        · exact absurd wrong accepts
        · exact ⟨⟨exception, rfl⟩, same, kept⟩
  · obtain ⟨exception, copied⟩ := Transfer.copied_refused typed fits overflows
    have ran := stops early _ copied
    apply iff_of_true
    · unfold Safe
      rw [ran]
      exact ⟨⟨exception, rfl⟩, rfl, rfl⟩
    · exact fun inside => absurd inside fits

variable {exception : Exception}

/-- A call refused by an exception has copied nothing. -/
theorem safe_of_thrown (ran : call.program.run before = .error (.thrown exception) before)
    : call.Safe before := by
  unfold Safe
  rw [ran]
  exact ⟨⟨exception, rfl⟩, rfl, rfl⟩

/-- Such a call with its check in front: what comes behind the copy decides. -/
theorem safe_iff_of_guarded {refuse : Prop} [Decidable refuse]
    {first rest : Sides.BulkM} {fill : Option CharArray → Sides}
    (typed : (call.transfer before).IsTyped)
    (program : call.program.run before = if refuse then .error (.thrown exception) before
      else (first >>= fun _ => rest).run before)
    (refused : call.Refused before ↔ refuse)
    (stops : ∀ stop, (call.transfer before).copied = .error stop →
      first.run before = .error stop before)
    (fills : ∀ filled, (call.transfer before).copied = .ok filled →
      first.run before = .ok () (fill filled))
    (shown : ∀ filled, call.target (fill filled) = filled ∧
      call.source (fill filled) = call.source before)
    (moves : (call.transfer before).Fits → ∀ filled,
      (filled.getD []).length = ((call.transfer before).dst.getD []).length →
      ∃ after, (call.Accepts before → rest.run (fill filled) = .ok () after) ∧
        (¬call.Accepts before →
          ∃ exception, rest.run (fill filled) = .error (.thrown exception) (fill filled)) ∧
        call.target after = filled ∧ call.source after = call.source before) :
    call.Safe before ↔ call.Harmless before := by
  apply safe_iff_of_runs typed
  · intro early
    rw [if_pos (refused.mp early)] at program
    exact safe_of_thrown program
  · intro allowed stop copied
    have open_ : ¬refuse := fun wrong => allowed (refused.mpr wrong)
    rw [program, if_neg open_, run_bind_error _ (stops stop copied)]
  · intro allowed fits filled size copied
    have open_ : ¬refuse := fun wrong => allowed (refused.mpr wrong)
    rw [program, if_neg open_, run_bind_ok _ (fills filled copied)]
    rcases moves fits filled size with ⟨after, accepted, rejected, whole, kept⟩
    by_cases accepts : call.Accepts before
    · exact ⟨after, whole, kept, accepted, fun wrong => absurd accepts wrong⟩
    · exact ⟨_, (shown filled).1, (shown filled).2, fun right => absurd right accepts, rejected⟩

end Calls

section Runs

variable {before : Sides} {filled : Option CharArray} {stop : Stop} {length : Int}

theorem run_check_short (short : before.this.readableBytes < length) :
    (Sides.checkReadableBytes length).run before =
      .error (rangeException "no data to read") before := by
  unfold Sides.checkReadableBytes
  rw [run_bind_get]
  rw [if_pos short]
  rfl

theorem run_check_enough (enough : ¬before.this.readableBytes < length) :
    (Sides.checkReadableBytes length).run before = .ok () before := by
  unfold Sides.checkReadableBytes
  rw [run_bind_get]
  rw [if_neg enough]
  rfl

theorem run_getBytes_ok {index dstIndex : Int}
    (copied : copyArrays before.other.cells dstIndex before.this.cells index length =
      .ok filled) :
    (Sides.getBytes index dstIndex length).run before =
      .ok () (before.filledOther filled) := by
  unfold Sides.getBytes
  rw [run_bind_get]
  rw [copied]
  rfl

theorem run_getBytes_error {index dstIndex : Int}
    (copied : copyArrays before.other.cells dstIndex before.this.cells index length =
      .error stop) :
    (Sides.getBytes index dstIndex length).run before = .error stop before := by
  unfold Sides.getBytes
  rw [run_bind_get]
  rw [copied]
  rfl

theorem run_setBytes_ok {index srcIndex : Int}
    (copied : copyArrays before.this.cells index before.other.cells srcIndex length =
      .ok filled) :
    (Sides.setBytes index srcIndex length).run before =
      .ok () (before.filledThis filled) := by
  unfold Sides.setBytes
  rw [run_bind_get]
  rw [copied]
  rfl

theorem run_setBytes_error {index srcIndex : Int}
    (copied : copyArrays before.this.cells index before.other.cells srcIndex length =
      .error stop) :
    (Sides.setBytes index srcIndex length).run before = .error stop before := by
  unfold Sides.setBytes
  rw [run_bind_get]
  rw [copied]
  rfl

/-- The argument's writer index moves over what was copied behind it. -/
theorem run_otherWritten (lower : 0 ≤ before.other.writerIdx) (forward : 0 ≤ length)
    (bound : before.other.writerIdx + length ≤ before.other.length)
    (small : before.other.length ≤ maxInt) :
    (before.other.readerIdx ≤ before.other.writerIdx + length →
      (Sides.otherWritten length).run before = .ok () { before with
        other := { before.other with writerIdx := before.other.writerIdx + length } }) ∧
    (¬before.other.readerIdx ≤ before.other.writerIdx + length →
      (Sides.otherWritten length).run before =
        .error (rangeException "writerIndex") before) := by
  have whole : int32 (before.other.writerIdx + length) = before.other.writerIdx + length :=
    int32_of_nonneg (by omega) (by omega)
  unfold Sides.otherWritten Block.setWriterIndex
  rw [run_bind_get]
  rw [whole]
  constructor
  · intro ordered
    rw [if_neg (by omega)]
    rfl
  · intro disordered
    rw [if_pos (by omega)]
    rfl

/-- The argument's reader index moves over what was copied out of it. -/
theorem run_otherRead (lower : 0 ≤ before.other.readerIdx) (forward : 0 ≤ length)
    (bound : before.other.readerIdx + length ≤ before.other.length)
    (small : before.other.length ≤ maxInt) :
    (before.other.readerIdx + length ≤ before.other.writerIdx →
      (Sides.otherRead length).run before = .ok () { before with
        other := { before.other with readerIdx := before.other.readerIdx + length } }) ∧
    (¬before.other.readerIdx + length ≤ before.other.writerIdx →
      (Sides.otherRead length).run before =
        .error (rangeException "readerIndex") before) := by
  have whole : int32 (before.other.readerIdx + length) = before.other.readerIdx + length :=
    int32_of_nonneg (by omega) (by omega)
  unfold Sides.otherRead Block.setReaderIndex
  rw [run_bind_get]
  rw [whole]
  constructor
  · intro ordered
    rw [if_neg (by omega)]
    rfl
  · intro disordered
    rw [if_pos (by omega)]
    rfl

end Runs

section Members

variable {before : Sides}

variable {srcIndex dstIndex : Int}

theorem setBytes_safe_iff {index length : Int}
    (typed : ((BulkCall.setBytes index srcIndex length).transfer before).IsTyped) :
    (BulkCall.setBytes index srcIndex length).Safe before ↔
      (BulkCall.setBytes index srcIndex length).Harmless before := by
  apply safe_iff_of_runs typed
  · exact False.elim
  · intro _ stop copied
    exact run_setBytes_error copied
  · intro _ _ filled _ copied
    exact ⟨before.filledThis filled, rfl, rfl, fun _ => run_setBytes_ok copied,
      fun refused => absurd trivial refused⟩

theorem copy_safe_iff {length : Int}
    (typed : ((BulkCall.copy dstIndex srcIndex length).transfer before).IsTyped) :
    (BulkCall.copy dstIndex srcIndex length).Safe before ↔
      (BulkCall.copy dstIndex srcIndex length).Harmless before := by
  apply safe_iff_of_runs typed
  · exact False.elim
  · intro _ stop copied
    exact run_setBytes_error copied
  · intro _ _ filled _ copied
    exact ⟨before.filledThis filled, rfl, rfl, fun _ => run_setBytes_ok copied,
      fun refused => absurd trivial refused⟩

theorem getBytes_safe_iff {index length : Int}
    (typed : ((BulkCall.getBytes index dstIndex length).transfer before).IsTyped) :
    (BulkCall.getBytes index dstIndex length).Safe before ↔
      (BulkCall.getBytes index dstIndex length).Harmless before := by
  apply safe_iff_of_runs typed
  · exact False.elim
  · intro _ stop copied
    exact run_getBytes_error copied
  · intro _ _ filled _ copied
    exact ⟨before.filledOther filled, rfl, rfl, fun _ => run_getBytes_ok copied,
      fun refused => absurd trivial refused⟩

theorem writeBytes_safe_iff {length : Int}
    (typed : ((BulkCall.writeBytes srcIndex length).transfer before).IsTyped) :
    (BulkCall.writeBytes srcIndex length).Safe before ↔
      (BulkCall.writeBytes srcIndex length).Harmless before := by
  have program : (BulkCall.writeBytes srcIndex length).program.run before =
      (Sides.setBytes before.this.writerIdx srcIndex length >>= fun _ =>
        Sides.moveWriter length : Sides.BulkM).run before := rfl
  apply safe_iff_of_runs typed
  · exact False.elim
  · intro _ stop copied
    have ran : (Sides.setBytes before.this.writerIdx srcIndex length).run before =
        .error stop before := run_setBytes_error copied
    rw [program, run_bind_error _ ran]
  · intro _ _ filled _ copied
    have ran : (Sides.setBytes before.this.writerIdx srcIndex length).run before =
        .ok () (before.filledThis filled) := run_setBytes_ok copied
    rw [program, run_bind_ok _ ran]
    refine ⟨_, ?_, ?_, fun _ => rfl, fun refused => absurd trivial refused⟩
    · rfl
    · rfl

/-- The bytes are put behind the argument's writer index, which then moves over them. -/
theorem getBuffer_safe_iff {index length : Int}
    (typed : ((BulkCall.getBuffer index length).transfer before).IsTyped) :
    (BulkCall.getBuffer index length).Safe before ↔
      (BulkCall.getBuffer index length).Harmless before := by
  have program : (BulkCall.getBuffer index length).program.run before =
      if before.other.writableBytes < length then
        .error (rangeException "has no enough capacity to write") before
      else (Sides.getBytes index before.other.writerIdx length >>= fun _ =>
        Sides.otherWritten length : Sides.BulkM).run before := by
    change (Sides.getBuffer index length).run before = _
    unfold Sides.getBuffer
    rw [run_bind_get]
    split
    · rfl
    · rfl
  refine safe_iff_of_guarded typed program Iff.rfl (fun _ => run_getBytes_error)
    (fun _ => run_getBytes_ok) (fun _ => ⟨rfl, rfl⟩) fun fits filled size => ?_
  have bound := fits.dstEnd
  have small := typed.dst
  rw [← size] at bound small
  obtain ⟨accepted, rejected⟩ := @run_otherWritten (before.filledOther filled) length
    fits.dst fits.length bound small
  exact ⟨_, accepted, fun wrong => ⟨_, rejected wrong⟩, rfl, rfl⟩

/-- The bytes are taken from the argument's reader index, which then moves over them. -/
theorem setBuffer_safe_iff {index length : Int}
    (typed : ((BulkCall.setBuffer index length).transfer before).IsTyped) :
    (BulkCall.setBuffer index length).Safe before ↔
      (BulkCall.setBuffer index length).Harmless before := by
  have program : (BulkCall.setBuffer index length).program.run before =
      if before.other.readableBytes < length then
        .error (rangeException "exceed readable bytes") before
      else (Sides.setBytes index before.other.readerIdx length >>= fun _ =>
        Sides.otherRead length : Sides.BulkM).run before := by
    change (Sides.setBuffer index length).run before = _
    unfold Sides.setBuffer
    rw [run_bind_get]
    split
    · rfl
    · rfl
  refine safe_iff_of_guarded typed program Iff.rfl (fun _ => run_setBytes_error)
    (fun _ => run_setBytes_ok) (fun _ => ⟨rfl, rfl⟩) fun fits filled size => ?_
  obtain ⟨accepted, rejected⟩ := @run_otherRead (before.filledThis filled) length
    fits.src fits.length fits.srcEnd typed.src
  exact ⟨_, accepted, fun wrong => ⟨_, rejected wrong⟩, rfl, rfl⟩

/-- The bytes are taken from the argument's reader index, both indices then move. -/
theorem writeBuffer_safe_iff {length : Int}
    (typed : ((BulkCall.writeBuffer length).transfer before).IsTyped) :
    (BulkCall.writeBuffer length).Safe before ↔ (BulkCall.writeBuffer length).Harmless before := by
  have program : (BulkCall.writeBuffer length).program.run before =
      if before.other.readableBytes < length then
        .error (rangeException "no data to read") before
      else (Sides.writeBytes before.other.readerIdx length >>= fun _ =>
        Sides.otherRead length : Sides.BulkM).run before := by
    change (Sides.writeBuffer length).run before = _
    unfold Sides.writeBuffer
    rw [run_bind_get]
    split
    · rfl
    · rfl
  have copies : (Sides.writeBytes before.other.readerIdx length).run before =
      (Sides.setBytes before.this.writerIdx before.other.readerIdx length >>= fun _ =>
        Sides.moveWriter length : Sides.BulkM).run before := rfl
  have fills : ∀ filled, ((BulkCall.writeBuffer length).transfer before).copied = .ok filled →
      (Sides.writeBytes before.other.readerIdx length).run before =
        .ok () ((before.filledThis filled).writerMoved length) := by
    intro filled copied
    exact copies.trans (run_bind_ok _ (run_setBytes_ok copied))
  refine safe_iff_of_guarded typed program Iff.rfl ?_ fills (fun _ => ⟨rfl, rfl⟩)
    fun fits filled size => ?_
  · intro stop copied
    exact copies.trans (run_bind_error _ (run_setBytes_error copied))
  · obtain ⟨accepted, rejected⟩ :=
      @run_otherRead ((before.filledThis filled).writerMoved length) length fits.src fits.length
        fits.srcEnd typed.src
    exact ⟨_, accepted, fun wrong => ⟨_, rejected wrong⟩, rfl, rfl⟩

theorem run_readInto (before : Sides) (dstIndex length : Int) :
    (Sides.readInto dstIndex length).run before =
      if before.this.readableBytes < length then
        .error (rangeException "no data to read") before
      else (Sides.getBytes before.this.readerIdx dstIndex length >>= fun _ =>
        Sides.moveReader length : Sides.BulkM).run before := by
  unfold Sides.readInto
  by_cases short : before.this.readableBytes < length
  · rw [if_pos short, run_bind_error _ (run_check_short short)]
  · rw [if_neg short, run_bind_ok _ (run_check_enough short)]
    rfl

section

variable {length : Int}

theorem readInto_safe_iff (typed : ((BulkCall.readInto dstIndex length).transfer before).IsTyped) :
    (BulkCall.readInto dstIndex length).Safe before ↔
      (BulkCall.readInto dstIndex length).Harmless before :=
  safe_iff_of_guarded typed (run_readInto before dstIndex length) Iff.rfl
    (fun _ => run_getBytes_error) (fun _ => run_getBytes_ok) (fun _ => ⟨rfl, rfl⟩)
    fun _ _ _ => ⟨_, fun _ => rfl, fun wrong => absurd trivial wrong, rfl, rfl⟩

/-- Nothing is looked at when nothing is to be read. -/
theorem readArray_safe_iff
    (typed : ((BulkCall.readArray dstIndex length).transfer before).IsTyped) :
    (BulkCall.readArray dstIndex length).Safe before ↔
      (BulkCall.readArray dstIndex length).Harmless before := by
  by_cases nothing : length = 0
  · subst nothing
    apply iff_of_true
    · have ran : (BulkCall.readArray dstIndex 0).program.run before = .ok () before := rfl
      unfold Safe
      rw [ran]
      refine ⟨Int.le_refl 0, ?_, ?_, ?_, rfl⟩
      · intro place lower upper
        change place < before.this.readerIdx + 0 at upper
        change before.this.readerIdx ≤ place at lower
        omega
      · intro place lower upper
        change place < dstIndex + 0 at upper
        change dstIndex ≤ place at lower
        omega
      · show before.other.cells = before.other.cells.map fun dst => overwrite dst dstIndex.toNat
          (window (before.this.cells.getD []) before.this.readerIdx.toNat 0)
        rw [window_zero_count]
        simp
    · exact Or.inl (Or.inl rfl)
  · have program : (BulkCall.readArray dstIndex length).program.run before =
        (Sides.readInto dstIndex length).run before := by
      change (Sides.readArray dstIndex length).run before = _
      unfold Sides.readArray
      rw [if_neg nothing]
      rfl
    rw [run_readInto] at program
    exact safe_iff_of_guarded typed program (or_iff_right nothing) (fun _ => run_getBytes_error)
      (fun _ => run_getBytes_ok) (fun _ => ⟨rfl, rfl⟩)
      fun _ _ _ => ⟨_, fun _ => rfl, fun wrong => absurd trivial wrong, rfl, rfl⟩

/-- Both sides are checked first, and both indices move. -/
theorem readBuffer_safe_iff (typed : ((BulkCall.readBuffer length).transfer before).IsTyped) :
    (BulkCall.readBuffer length).Safe before ↔ (BulkCall.readBuffer length).Harmless before := by
  have program : (BulkCall.readBuffer length).program.run before =
      if before.other.writableBytes < length then
        .error (rangeException "readBytes out of range") before
      else (Sides.readInto before.other.writerIdx length >>= fun _ =>
        Sides.otherWritten length : Sides.BulkM).run before := by
    change (Sides.readBuffer length).run before = _
    unfold Sides.readBuffer
    rw [run_bind_get]
    split
    · rfl
    · rfl
  have inner := run_readInto before before.other.writerIdx length
  apply safe_iff_of_runs typed
  · rintro (full | short)
    · rw [if_pos full] at program
      exact safe_of_thrown program
    · rw [if_pos short] at inner
      by_cases full : before.other.writableBytes < length
      · rw [if_pos full] at program
        exact safe_of_thrown program
      · rw [if_neg full, run_bind_error _ inner] at program
        exact safe_of_thrown program
  · intro allowed stop copied
    have room : ¬before.other.writableBytes < length := fun full => allowed (Or.inl full)
    have enough : ¬before.this.readableBytes < length := fun short => allowed (Or.inr short)
    have ran : (Sides.getBytes before.this.readerIdx before.other.writerIdx length).run before =
        .error stop before := run_getBytes_error copied
    rw [if_neg enough, run_bind_error _ ran] at inner
    rw [program, if_neg room, run_bind_error _ inner]
  · intro allowed fits filled size copied
    have room : ¬before.other.writableBytes < length := fun full => allowed (Or.inl full)
    have enough : ¬before.this.readableBytes < length := fun short => allowed (Or.inr short)
    have ran : (Sides.getBytes before.this.readerIdx before.other.writerIdx length).run before =
        .ok () (before.filledOther filled) := run_getBytes_ok copied
    have moved : (Sides.moveReader length).run (before.filledOther filled) =
        .ok () ((before.filledOther filled).readerMoved length) := rfl
    rw [if_neg enough, run_bind_ok _ ran, moved] at inner
    rw [program, if_neg room, run_bind_ok _ inner]
    have bound := fits.dstEnd
    have small := typed.dst
    rw [← size] at bound small
    obtain ⟨accepted, rejected⟩ :=
      @run_otherWritten ((before.filledOther filled).readerMoved length) length fits.dst
        fits.length bound small
    by_cases accepts : before.other.readerIdx ≤ before.other.writerIdx + length
    · rw [accepted accepts]
      refine ⟨_, ?_, ?_, fun _ => rfl, fun refused => absurd accepts refused⟩
      · rfl
      · rfl
    · rw [rejected accepts]
      refine ⟨_, ?_, ?_, fun wrong => absurd wrong accepts, fun _ => ⟨_, rfl⟩⟩
      · rfl
      · rfl

theorem fresh_positive (positive : 0 < length) :
    Block.fresh length = .ok ⟨some (List.replicate length.toNat 0), 0, 0⟩ := by
  unfold Block.fresh
  rw [if_neg (by omega)]
  rfl

/-- The readable bytes are copied into a buffer of their number. -/
theorem readBytes_safe_iff (typed : ((BulkCall.readBytes length).transfer before).IsTyped) :
    (BulkCall.readBytes length).Safe before ↔ (BulkCall.readBytes length).Harmless before := by
  by_cases nothing : length = 0
  · subst nothing
    apply iff_of_true
    · have ran : (BulkCall.readBytes 0).program.run before =
          .ok () { before with other := ⟨some [], 0, 0⟩ } := rfl
      unfold Safe
      rw [ran]
      refine ⟨Int.le_refl 0, ?_, ?_, ?_, rfl⟩
      · intro place lower upper
        change place < before.this.readerIdx + 0 at upper
        change before.this.readerIdx ≤ place at lower
        omega
      · intro place lower upper
        change place < 0 + 0 at upper
        change 0 ≤ place at lower
        omega
      · show some [] = some (overwrite [] 0
          (window (before.this.cells.getD []) before.this.readerIdx.toNat 0))
        rw [window_zero_count, overwrite_nothing]
    · exact Or.inl (Or.inl (Int.le_refl 0))
  · have program : (BulkCall.readBytes length).program.run before = (do
        Sides.checkReadableBytes length
        let sides ← get
        let buf ← call (Block.fresh length)
        let filled ← call (copyArrays buf.cells 0 sides.this.cells sides.this.readerIdx length)
        set { sides with other := ⟨filled, 0, int32 (0 + length)⟩ }
        Sides.moveReader length
        modify fun sides =>
          if sides.this.readerIdx = sides.this.writerIdx then
            { sides with this := { sides.this with readerIdx := 0, writerIdx := 0 } }
          else sides : Sides.BulkM).run before := by
      change (Sides.readBytes length).run before = _
      unfold Sides.readBytes
      rw [if_neg nothing]
    apply safe_iff_of_runs typed
    · intro refused
      by_cases short : before.this.readableBytes < length
      · rw [run_bind_error _ (run_check_short short)] at program
        exact safe_of_thrown program
      · have negative : length < 0 := by
          rcases refused with backward | wrong
          · omega
          · exact absurd wrong short
        have none_ : Block.fresh length =
            .error (invalidArgumentException "length must greater than 0.") := by
          unfold Block.fresh
          rw [if_pos negative]
          rfl
        rw [run_bind_ok _ (run_check_enough short), run_bind_get] at program
        simp only at program
        rw [none_] at program
        exact safe_of_thrown program
    · intro allowed stop copied
      have enough : ¬before.this.readableBytes < length := fun short => allowed (Or.inr short)
      have positive : 0 < length := by
        by_contra backward
        exact allowed (Or.inl (by omega))
      have failed : copyArrays (some (List.replicate length.toNat 0)) 0 before.this.cells
          before.this.readerIdx length = .error stop := copied
      rw [program, run_bind_ok _ (run_check_enough enough), run_bind_get]
      rw [fresh_positive positive, run_bind_ok _ (run_call_ok _ _)]
      dsimp only
      rw [failed]
      rfl
    · intro allowed _ filled _ copied
      have enough : ¬before.this.readableBytes < length := fun short => allowed (Or.inr short)
      have positive : 0 < length := by
        by_contra backward
        exact allowed (Or.inl (by omega))
      have done : copyArrays (some (List.replicate length.toNat 0)) 0 before.this.cells
          before.this.readerIdx length = .ok filled := copied
      rw [program, run_bind_ok _ (run_check_enough enough), run_bind_get]
      rw [fresh_positive positive, run_bind_ok _ (run_call_ok _ _)]
      dsimp only
      rw [done]
      refine ⟨_, ?_, ?_, fun _ => rfl, fun refused => absurd trivial refused⟩
      · change (if _ then _ else _ : Sides).other.cells = filled
        split
        · rfl
        · rfl
      · change (if _ then _ else _ : Sides).this.cells = before.this.cells
        split
        · rfl
        · rfl

end

theorem safe_iff_harmless {call : BulkCall} (typed : (call.transfer before).IsTyped) :
    call.Safe before ↔ call.Harmless before := by
  cases call with
  | copy dstIndex srcIndex length => exact copy_safe_iff typed
  | getBytes index dstIndex length => exact getBytes_safe_iff typed
  | getBuffer index length => exact getBuffer_safe_iff typed
  | setBytes index srcIndex length => exact setBytes_safe_iff typed
  | setBuffer index length => exact setBuffer_safe_iff typed
  | readBytes length => exact readBytes_safe_iff typed
  | readArray dstIndex length => exact readArray_safe_iff typed
  | readInto dstIndex length => exact readInto_safe_iff typed
  | readBuffer length => exact readBuffer_safe_iff typed
  | writeBytes srcIndex length => exact writeBytes_safe_iff typed
  | writeBuffer length => exact writeBuffer_safe_iff typed

end Members

section Ordered

variable {before : Sides}

section

variable {call : BulkCall} (typed : (call.transfer before).IsTyped)
  (ordered : before.other.Ordered)

include typed ordered

/-- The indices of an argument whose indices are in order may always move. -/
theorem accepts_of_ordered (allowed : ¬call.Refused before)
    (fits : (call.transfer before).Fits) : call.Accepts before := by
  obtain ⟨reader, writer, bound⟩ := ordered
  have forward := fits.length
  cases call with
  | getBuffer index length =>
      change 0 ≤ length at forward
      show before.other.readerIdx ≤ before.other.writerIdx + length
      omega
  | setBuffer index length =>
      have small : before.other.length ≤ maxInt := typed.src
      have enough : ¬before.other.readableBytes < length := allowed
      unfold Block.readableBytes at enough
      rw [int32_of_nonneg (by omega) (by omega)] at enough
      show before.other.readerIdx + length ≤ before.other.writerIdx
      omega
  | readBuffer length =>
      change 0 ≤ length at forward
      show before.other.readerIdx ≤ before.other.writerIdx + length
      omega
  | writeBuffer length =>
      have small : before.other.length ≤ maxInt := typed.src
      have enough : ¬before.other.readableBytes < length := allowed
      unfold Block.readableBytes at enough
      rw [int32_of_nonneg (by omega) (by omega)] at enough
      show before.other.readerIdx + length ≤ before.other.writerIdx
      omega
  | _ => trivial

/-- With indices in order only a wrapped sum does harm. -/
theorem ordered_safe_iff :
    call.Safe before ↔ call.Refused before ∨ ¬(call.transfer before).Overflows := by
  rw [safe_iff_harmless typed]
  by_cases early : call.Refused before
  · exact iff_of_true (Or.inl early) (Or.inl early)
  · unfold Harmless
    rw [or_iff_right early, or_iff_right early]
    constructor
    · exact fun both => both.1
    · exact fun inside => ⟨inside, fun fits =>
        Or.inl (accepts_of_ordered typed ordered early fits)⟩

end

/-- Every call that is given a length throws without copying or copies exactly the asked for
range, except where a wrapped sum gets through to the copy or an index is refused afterwards; the
latter does not happen while the argument's indices are in order. -/
theorem bulk_safe_iff (call : BulkCall) (before : Sides)
    (typed : (call.transfer before).IsTyped) :
    (call.Safe before ↔ call.Harmless before) ∧
      (before.other.Ordered →
        (call.Safe before ↔ call.Refused before ∨ ¬(call.transfer before).Overflows)) :=
  ⟨safe_iff_harmless typed, ordered_safe_iff typed⟩

/-- Two bytes moved into the middle of four. -/
theorem bulk_safe_inside :
    (BulkCall.writeBytes 1 2).Safe ⟨⟨some [1, 2, 3, 4], 0, 1⟩, ⟨some [7, 8, 9], 0, 3⟩⟩ := by
  have typed : ((BulkCall.writeBytes 1 2).transfer
      ⟨⟨some [1, 2, 3, 4], 0, 1⟩, ⟨some [7, 8, 9], 0, 3⟩⟩).IsTyped :=
    ⟨by decide, by decide, by decide, by decide, by decide⟩
  apply (bulk_safe_iff _ _ typed).1.mpr
  refine Or.inr ⟨?_, fun _ => Or.inl trivial⟩
  intro overflows
  have beyond := overflows.beyond
  revert beyond
  decide

/-- The end of the source range wraps to a negative number, for an index near the largest `int`
and for a destination index alike. -/
theorem bulk_outside :
    ¬(BulkCall.getBytes 2147483647 0 1).Safe ⟨⟨some [1, 2], 0, 2⟩, ⟨some [0], 0, 0⟩⟩ ∧
      ¬(BulkCall.readArray 2147483647 1).Safe ⟨⟨some [1, 2], 0, 2⟩, ⟨some [0], 0, 0⟩⟩ := by
  constructor
  · have ran : (BulkCall.getBytes 2147483647 0 1).program.run
        ⟨⟨some [1, 2], 0, 2⟩, ⟨some [0], 0, 0⟩⟩ =
        .error .outOfBounds ⟨⟨some [1, 2], 0, 2⟩, ⟨some [0], 0, 0⟩⟩ := rfl
    unfold Safe
    rw [ran]
    rintro ⟨⟨exception, same⟩, -⟩
    cases same
  · have ran : (BulkCall.readArray 2147483647 1).program.run
        ⟨⟨some [1, 2], 0, 2⟩, ⟨some [0], 0, 0⟩⟩ =
        .error .outOfBounds ⟨⟨some [1, 2], 0, 2⟩, ⟨some [0], 0, 0⟩⟩ := rfl
    unfold Safe
    rw [ran]
    rintro ⟨⟨exception, same⟩, -⟩
    cases same

end Ordered

end BulkCall

/-- A heap buffer as a side of a transfer. -/
def Block.ofHeap (buffer : HeapChannelBuffer) : Block :=
  ⟨some buffer.arry, buffer.idx.readerIdx, buffer.idx.writerIdx⟩

end Cetty
