import Cetty.BufferIndices
import Cetty.ReadProgress

/-!
# The windows of a heap buffer and the receive loop

`readableBytes`, `slice`, `readSlice` and `writableBytes` hand out a pointer and a length. The
socket channel receives into the last of them, advances the writer index, lets the pipeline
consume the bytes and asks for the window again.
-/

namespace Cetty

open MachineInt ByteWindow ActionRuns

namespace HeapChannelBuffer

/-- `readableBytes(Array&)`. -/
def readableArray (this : HeapChannelBuffer) : Except Stop ReadWindow := do
  let data ← this.arry.data this.idx.readerIdx
  pure ⟨data, (this.idx.writerIdx - this.idx.readerIdx).toNat⟩

/-- `slice(Array&)`. -/
def sliceArray (this : HeapChannelBuffer) : Except Stop ReadWindow := do
  let data ← this.arry.data this.idx.readerIdx
  pure ⟨data, (this.idx.writerIdx - this.idx.readerIdx).toNat⟩

/-- `readSlice(Array&)`, with the buffer it leaves. -/
def readSliceArray (this : HeapChannelBuffer) : Except Stop (ReadWindow × HeapChannelBuffer) := do
  let data ← this.arry.data this.idx.readerIdx
  pure (⟨data, (this.idx.writerIdx - this.idx.readerIdx).toNat⟩,
    { this with idx := { this.idx with readerIdx := 0, writerIdx := 0 } })

/-- The cells between two positions. -/
def between (first last : Int) : ReadWindow := ⟨first.toNat, (last - first).toNat⟩

/-- The read windows are the readable bytes. -/
structure ReadsExact (this : HeapChannelBuffer) : Prop where
  readable : this.readableArray = .ok (between this.idx.readerIdx this.idx.writerIdx)
  slice : this.sliceArray = .ok (between this.idx.readerIdx this.idx.writerIdx)
  readSlice : this.readSliceArray = .ok (between this.idx.readerIdx this.idx.writerIdx,
    { this with idx := { this.idx with readerIdx := 0, writerIdx := 0 } })

/-- The write window is the cells behind the writer index. -/
def WritesExact (this : HeapChannelBuffer) : Prop :=
  this.writableArray = .ok (between this.idx.writerIdx this.arry.length)

/-- Whatever a socket puts into the write window stays in the array, and the writer index moves
over it. -/
def ReceivesSafely (this : HeapChannelBuffer) : Prop :=
  ∃ window, this.writableArray = .ok window ∧
    ∀ bytes : CharArray, bytes.length ≤ window.length →
      window.offset + bytes.length ≤ this.arry.length ∧
      ∃ moved, (this.fill window bytes).offsetWriterIndex bytes.length = .ok moved ∧
        moved.idx = { this.idx with writerIdx := this.idx.writerIdx + bytes.length } ∧
        moved.arry.length = this.arry.length ∧
        moved.readable = this.readable ++ bytes

/-- Nothing is left to read, and the buffer is not full. -/
def Consumed (this : HeapChannelBuffer) : Prop :=
  this.idx.readerIdx = this.idx.writerIdx ∧
    (this.idx.writerIdx = 0 ∨ this.idx.writerIdx < this.arry.length)

/-- What the socket puts into the window, and what the pipeline then does with the buffer. -/
structure Round where
  bytes : CharArray
  calls : List IndexCall

/-- One round of `AsioSocketChannel::handleRead`: the window is taken, at most that many bytes
are received, the writer index is advanced and the pipeline consumes. -/
def receiveStep (before : HeapChannelBuffer) (round : Round) (after : HeapChannelBuffer) : Prop :=
  ∃ window moved, before.writableArray = .ok window ∧ round.bytes.length ≤ window.length ∧
    (before.fill window round.bytes).offsetWriterIndex round.bytes.length = .ok moved ∧
    Run (Guarded InOrder indexStep) moved round.calls after

section Windows

variable {this : HeapChannelBuffer}

theorem data_ok {offset : Int} (nonneg : 0 ≤ offset)
    (inside : offset = 0 ∨ offset < this.arry.length) :
    this.arry.data offset = .ok offset.toNat := by
  unfold CharArray.data
  rw [if_neg (by omega)]
  rfl

theorem data_end {offset : Int} (moved : offset ≠ 0) (full : this.arry.length ≤ offset) :
    this.arry.data offset = .error (rangeException "out of range in array") := by
  unfold CharArray.data
  rw [if_pos (Or.inr ⟨moved, full⟩)]
  rfl

section

variable (inside : this.Inside)

include inside

/-- Only a reader index at the end of the array is refused. -/
theorem readsExact_iff :
    this.ReadsExact ↔ this.idx.readerIdx = 0 ∨ this.idx.readerIdx < this.arry.length := by
  have reader := inside.indices.reader
  constructor
  · intro reads
    by_contra beyond
    rw [not_or, Int.not_lt] at beyond
    have readable := reads.readable
    unfold readableArray at readable
    rw [data_end beyond.1 beyond.2] at readable
    cases readable
  · intro within
    have data := data_ok reader within
    constructor
    · unfold readableArray
      rw [data]
      rfl
    · unfold sliceArray
      rw [data]
      rfl
    · unfold readSliceArray
      rw [data]
      rfl

/-- The length of the write window is measured from the reader index. -/
theorem writesExact_iff : this.WritesExact ↔ this.Consumed := by
  have reader := inside.indices.reader
  have writer := inside.indices.writer
  have bound := inside.indices.bound
  unfold WritesExact Consumed writableArray
  by_cases within : this.idx.writerIdx = 0 ∨ this.idx.writerIdx < this.arry.length
  · rw [data_ok (by omega) within, ok_bind, and_iff_left within]
    constructor
    · intro same
      have lengths : ((this.arry.length : Int) - this.idx.readerIdx).toNat =
          ((this.arry.length : Int) - this.idx.writerIdx).toNat :=
        congrArg ReadWindow.length (Except.ok.inj same)
      omega
    · intro same
      rw [same]
      rfl
  · rw [data_end (by omega) (by omega)]
    constructor
    · intro same
      cases same
    · exact fun consumed => absurd consumed.2 within

theorem Inside.stands :
    this.Stands this.idx.readerIdx.toNat this.idx.writerIdx.toNat := by
  have reader := inside.indices.reader
  have writer := inside.indices.writer
  have bound := inside.indices.bound
  exact ⟨inside.small, by omega, by omega, by omega, by omega⟩

/-- A transfer that ends inside the array. -/
theorem received (bytes : CharArray) (length : Nat)
    (fits : this.idx.writerIdx.toNat + bytes.length ≤ this.arry.length) :
    ∃ moved, (this.fill ⟨this.idx.writerIdx.toNat, length⟩ bytes).offsetWriterIndex
          bytes.length = .ok moved ∧
      moved.idx = { this.idx with writerIdx := this.idx.writerIdx + bytes.length } ∧
      moved.arry.length = this.arry.length ∧
      moved.readable = this.readable ++ bytes := by
  have writer := inside.indices.writer
  have reader := inside.indices.reader
  have small := inside.small
  have stands := inside.stands
  obtain ⟨same, filled⟩ := stands.fill bytes length
  obtain ⟨moved, advanced, kept, standing⟩ :=
    filled.offsetWriterIndex bytes.length (by rw [same]; exact fits)
  refine ⟨moved, advanced, ?_, ?_, ?_⟩
  · have start : (this.fill ⟨this.idx.writerIdx.toNat, length⟩ bytes).idx = this.idx := rfl
    unfold HeapChannelBuffer.offsetWriterIndex at advanced
    rw [start, int32_of_nonneg (by omega) (by omega)] at advanced
    dsimp only at advanced
    rw [same, if_neg (by omega)] at advanced
    rw [← Except.ok.inj advanced]
  · rw [kept, same]
  · rw [standing.readable_eq, kept]
    exact stands.filled bytes length fits

theorem receivesSafely_of_consumed (consumed : this.Consumed) :
    this.ReceivesSafely := by
  have reader := inside.indices.reader
  have bound := inside.indices.bound
  have writes := (writesExact_iff inside).mpr consumed
  refine ⟨_, writes, ?_⟩
  intro bytes fits
  have room : this.idx.writerIdx.toNat + bytes.length ≤ this.arry.length := by
    have writer := inside.indices.writer
    have size : (between this.idx.writerIdx this.arry.length).length =
        ((this.arry.length : Int) - this.idx.writerIdx).toNat := rfl
    omega
  exact ⟨room, received inside bytes _ room⟩

/-- A window that is too long lets the socket write behind the array. -/
theorem receivesSafely_iff : this.ReceivesSafely ↔ this.Consumed := by
  have reader := inside.indices.reader
  have writer := inside.indices.writer
  have bound := inside.indices.bound
  constructor
  · rintro ⟨window, taken, safe⟩
    by_cases within : this.idx.writerIdx = 0 ∨ this.idx.writerIdx < this.arry.length
    · refine ⟨?_, within⟩
      unfold writableArray at taken
      rw [data_ok (by omega) within, ok_bind] at taken
      cases taken
      have most := (safe (List.replicate ((this.arry.length : Int) - this.idx.readerIdx).toNat 0)
        (by rw [List.length_replicate])).1
      rw [List.length_replicate] at most
      dsimp only at most
      omega
    · unfold writableArray at taken
      rw [data_end (by omega) (by omega)] at taken
      cases taken
  · exact receivesSafely_of_consumed inside

end

/-- One round keeps the indices in order, when the window was right. -/
theorem receiveStep_ordered {before after : HeapChannelBuffer} {round : Round}
    (ordered : before.Ordered) (consumed : before.Consumed)
    (step : receiveStep before round after) : after.Ordered := by
  obtain ⟨window, moved, taken, fits, advanced, calls⟩ := step
  have inside := ordered.inside
  obtain ⟨exactWindow, same, safe⟩ := receivesSafely_of_consumed inside consumed
  rw [taken] at same
  cases same
  obtain ⟨-, there, again, idx, size, -⟩ := safe round.bytes fits
  rw [advanced] at again
  cases again
  have writes := (writesExact_iff inside).mpr consumed
  unfold WritesExact at writes
  rw [taken] at writes
  cases writes
  have reader := inside.indices.reader
  have writer := inside.indices.writer
  have bound := inside.indices.bound
  have length : (between before.idx.writerIdx before.arry.length).length =
      ((before.arry.length : Int) - before.idx.writerIdx).toNat := rfl
  have start : moved.Ordered := by
    refine ⟨⟨⟨?_, ?_, ?_⟩, ?_⟩, ?_⟩
    · rw [idx]
      exact reader
    · rw [idx]
      show before.idx.readerIdx ≤ before.idx.writerIdx + round.bytes.length
      omega
    · rw [idx, size]
      show before.idx.writerIdx + round.bytes.length ≤ before.arry.length
      omega
    · rw [size]
      exact inside.small
    · rw [idx, size]
      exact ordered.marked
  apply calls.invariant _ start
  intro first call next holds performed
  exact ordered_after holds performed.1 performed.2

/-- The windows are exact, and a receive through them is safe, exactly where everything was
consumed and the buffer is not full; this holds of every buffer and of every state that a receive
loop reaches through such states. -/
theorem windows_exact_iff (inside : this.Inside) :
    ((this.ReadsExact ∧ this.WritesExact) ∧ this.ReceivesSafely ↔ this.Consumed) ∧
    (0 ≤ this.idx.markedWriterIndex → this.idx.markedWriterIndex ≤ this.arry.length →
      ∀ rounds final,
        Run (Guarded (fun before _ => before.Consumed) receiveStep) this rounds final →
        final.Inside ∧
          ((final.ReadsExact ∧ final.WritesExact) ∧ final.ReceivesSafely ↔
            final.Consumed)) := by
  have state : ∀ buffer : HeapChannelBuffer, buffer.Inside →
      ((buffer.ReadsExact ∧ buffer.WritesExact) ∧ buffer.ReceivesSafely ↔
        buffer.Consumed) := by
    intro buffer within
    rw [writesExact_iff within, receivesSafely_iff within, and_assoc, and_self,
      readsExact_iff within]
    constructor
    · exact fun both => both.2
    · intro consumed
      have room := consumed.2
      rw [← consumed.1] at room
      exact ⟨room, consumed⟩
  refine ⟨state this inside, ?_⟩
  intro lower upper rounds final run
  have ordered : final.Ordered := by
    apply run.invariant _ ⟨inside, lower, upper⟩
    intro before round after holds step
    exact receiveStep_ordered holds step.1 step.2
  exact ⟨ordered.inside, state final ordered.inside⟩

end Windows

/-- Two of four bytes received and read, then a third one. -/
def twoRead : HeapChannelBuffer := ⟨.big, [1, 2, 0, 0], ⟨2, 2, 0, 0⟩⟩

theorem windows_exact_twoRead :
    ((twoRead.ReadsExact ∧ twoRead.WritesExact) ∧ twoRead.ReceivesSafely) ∧
      ∃ final, Run (Guarded (fun before _ => before.Consumed) receiveStep) twoRead
          [⟨[7], [.readByte]⟩] final ∧
        (final.ReadsExact ∧ final.WritesExact) ∧ final.ReceivesSafely := by
  have inside : twoRead.Inside := ⟨⟨by decide, by decide, by decide⟩, by decide⟩
  have consumed : twoRead.Consumed := ⟨rfl, Or.inr (by decide)⟩
  obtain ⟨state, runs⟩ := windows_exact_iff inside
  have run : Run (Guarded (fun before _ => before.Consumed) receiveStep) twoRead
      [⟨[7], [.readByte]⟩] ⟨.big, [1, 2, 7, 0], ⟨3, 3, 0, 0⟩⟩ :=
    .cons ⟨consumed, ⟨2, 2⟩, ⟨.big, [1, 2, 7, 0], ⟨2, 3, 0, 0⟩⟩, rfl, by decide, rfl,
      .cons ⟨trivial, rfl⟩ (.nil _)⟩ (.nil _)
  obtain ⟨-, final⟩ := runs (by decide) (by decide) _ _ run
  exact ⟨state.mpr consumed, _, run, final.mpr ⟨rfl, Or.inr (by decide)⟩⟩

/-- One unread byte in front: the window ends one cell behind the array. A full buffer has no
window at all. -/
theorem window_behind_the_array :
    partlyWritten.Inside ∧ partlyWritten.writableArray = .ok ⟨1, 4⟩ ∧
      ¬partlyWritten.WritesExact ∧ ¬partlyWritten.ReceivesSafely ∧
      fullBuffer.Inside ∧ ¬fullBuffer.ReceivesSafely := by
  have inside := partlyWritten_ordered.inside
  have left : ¬partlyWritten.Consumed := by
    rintro ⟨same, -⟩
    revert same
    decide
  have full : ¬fullBuffer.Consumed := by
    rintro ⟨same, -⟩
    revert same
    decide
  refine ⟨inside, rfl, ?_, ?_, fullBuffer_inside, ?_⟩
  · rw [writesExact_iff inside]
    exact left
  · rw [receivesSafely_iff inside]
    exact left
  · rw [receivesSafely_iff fullBuffer_inside]
    exact full

end HeapChannelBuffer

end Cetty
