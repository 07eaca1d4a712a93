import Cetty.ActionRuns
import Cetty.BufferFailures

/-!
# The indices of a heap buffer over a run

`0 <= readerIndex <= writerIndex <= capacity` over any sequence of the operations that
move an index or a mark, whether they return or throw. Four of them move an index without
looking at all of its bounds.
-/

namespace Cetty

open MachineInt ByteWindow ActionRuns

inductive IndexCall where
  | readerIndex (readerIdx : Int)
  | writerIndex (writerIdx : Int)
  | offsetReaderIndex (offset : Int)
  | offsetWriterIndex (offset : Int)
  | setIndex (reader writer : Int)
  | clear
  | markReaderIndex
  | resetReaderIndex
  | markWriterIndex
  | resetWriterIndex
  | discardReadBytes
  | readByte
  | readShort
  | readUnsignedMedium
  | readInt
  | readLong
  | writeTyped (value : TypedValue)
  | readBytes (length : Int)
  | readAllSlice
  | readSlice (length : Int)
  | skipBytes (length : Int)
  | writeZero (length : Int)

def IndexCall.program : IndexCall → BufferM Unit
  | readerIndex readerIdx => BufferM.readerIndex readerIdx
  | writerIndex writerIdx => BufferM.writerIndex writerIdx
  | offsetReaderIndex offset => BufferM.offsetReaderIndex offset
  | offsetWriterIndex offset => BufferM.offsetWriterIndex offset
  | setIndex reader writer => BufferM.setIndex reader writer
  | clear => BufferM.clear
  | markReaderIndex => BufferM.markReaderIndex
  | resetReaderIndex => BufferM.resetReaderIndex
  | markWriterIndex => BufferM.markWriterIndex
  | resetWriterIndex => BufferM.resetWriterIndex
  | discardReadBytes => BufferM.discardReadBytes
  | readByte => do let _ ← BufferM.readByte
  | readShort => do let _ ← BufferM.readShort
  | readUnsignedMedium => do let _ ← BufferM.readUnsignedMedium
  | readInt => do let _ ← BufferM.readInt
  | readLong => do let _ ← BufferM.readLong
  | writeTyped value => BufferM.writeTyped value
  | readBytes length => do let _ ← BufferM.readBytes length
  | readAllSlice => do let _ ← BufferM.readAllSlice
  | readSlice length => do let _ ← BufferM.readSlice length
  | skipBytes length => BufferM.skipBytes length
  | writeZero length => BufferM.writeZero length

namespace HeapChannelBuffer

/-- One operation, whether it returns or throws. -/
def indexStep (before : HeapChannelBuffer) (call : IndexCall) (after : HeapChannelBuffer) : Prop :=
  stateAfter call.program (.heap before) = .heap after

/-- The documented invariant, with what `resetWriterIndex` relies on. -/
structure Ordered (this : HeapChannelBuffer) : Prop where
  inside : this.Inside
  marked : 0 ≤ this.idx.markedWriterIndex ∧ this.idx.markedWriterIndex ≤ this.arry.length

/-- When an operation keeps the indices in order. -/
def InOrder (this : HeapChannelBuffer) : IndexCall → Prop
  | .resetWriterIndex => this.idx.readerIdx ≤ this.idx.markedWriterIndex
  | .writeTyped (.byte _) => this.idx.writerIdx < this.arry.length
  | .readSlice length =>
      length < 0 ∨ this.idx.readerIdx + length ≤ this.idx.writerIdx ∨
        this.arry.length < this.idx.readerIdx + length ∧ this.idx.readerIdx + length ≤ maxInt
  | .skipBytes length => 0 ≤ int32 (this.idx.readerIdx + length)
  | .writeZero length =>
      length ≤ 0 ∨ this.idx.writerIdx + length ≤ this.arry.length ∨
        this.arry.length <
          this.idx.writerIdx + (length - BufferM.singleBytes length.toNat)
  | _ => True

/-- A buffer that is still a heap buffer in order. -/
def Kept (buffer : ChannelBuffer) : Prop := ∃ this, buffer = .heap this ∧ this.Ordered

section Moving

variable {this : HeapChannelBuffer}

theorem Ordered.kept (ordered : this.Ordered) : Kept (.heap this) := ⟨this, rfl, ordered⟩

theorem Ordered.moved (ordered : this.Ordered) {readerIdx writerIdx : Int} (reader : 0 ≤ readerIdx)
    (writer : readerIdx ≤ writerIdx) (bound : writerIdx ≤ this.arry.length) :
    Kept ((ChannelBuffer.heap this).withIdx
      { this.idx with readerIdx := readerIdx, writerIdx := writerIdx }) :=
  ⟨{ this with idx := { this.idx with readerIdx := readerIdx, writerIdx := writerIdx } }, rfl,
    ⟨⟨reader, writer, bound⟩, ordered.inside.small⟩, ordered.marked⟩

/-- The reader index moved forward, but not beyond the writer index. -/
theorem Ordered.read (ordered : this.Ordered) {amount : Int} (forward : 0 ≤ amount)
    (within : amount ≤ (ChannelBuffer.heap this).readableBytes) :
    Kept ((ChannelBuffer.heap this).withIdx
      { this.idx with readerIdx := int32 (this.idx.readerIdx + amount) }) := by
  have readable := ordered.inside.readableBytes
  have reader := ordered.inside.indices.reader
  have writer := ordered.inside.writer.2
  have small := ordered.inside.small
  have exact_ : int32 (this.idx.readerIdx + amount) = this.idx.readerIdx + amount :=
    int32_of_nonneg (by omega) (by omega)
  rw [exact_]
  exact ordered.moved (by omega) (by omega) writer

end Moving

variable {this : HeapChannelBuffer}

/-- What is left of a program that only its returns change. -/
theorem kept_of_stops {program : BufferM Unit} (ordered : this.Ordered)
    (stops : StopsUnchanged program)
    (returns : ∀ after, program.run (.heap this) = .ok () after → Kept after) :
    Kept (stateAfter program (.heap this)) := by
  unfold stateAfter
  cases ran : program.run (.heap this) with
  | ok value after => exact returns after ran
  | error stop after =>
      rw [stops _ _ _ ran]
      exact ordered.kept

/-- The same where a value is dropped. -/
theorem kept_of_value {Value : Type} {program : BufferM Value}
    (ordered : this.Ordered) (stops : StopsUnchanged program)
    (returns : ∀ value after, program.run (.heap this) = .ok value after → Kept after) :
    Kept (stateAfter (do let _ ← program) (.heap this)) := by
  apply kept_of_stops ordered (stops.map fun _ => ())
  intro after ran
  obtain ⟨value, middle, first, last⟩ := ok_of_run_bind ran
  cases last
  exact returns value after first

section Operations

variable {this : HeapChannelBuffer}

theorem kept_checked (ordered : this.Ordered) {bad : Prop} [Decidable bad] {stop : Stop}
    {moved : ChannelBuffer} (good : ¬bad → Kept moved) :
    Kept (stateAfter (do
      if bad then throw stop
      set moved : BufferM Unit) (.heap this)) := by
  by_cases refused : bad
  · rw [if_pos refused]
    exact ordered.kept
  · rw [if_neg refused]
    exact good refused

theorem kept_called (ordered : this.Ordered) {result : Except Stop ChannelBuffer}
    (good : ∀ moved, result = .ok moved → Kept moved) :
    Kept (stateAfter (do let moved ← call result; set moved : BufferM Unit) (.heap this)) := by
  cases result with
  | ok moved => exact good moved rfl
  | error stop => exact ordered.kept

theorem kept_readerIndex (ordered : this.Ordered) (readerIdx : Int) :
    Kept (stateAfter (BufferM.readerIndex readerIdx) (.heap this)) := by
  apply kept_called ordered
  intro moved ran
  unfold ChannelBuffer.setReaderIndex at ran
  split at ran
  · cases ran
  · rename_i good
    cases ran
    change ¬(readerIdx < 0 ∨ this.idx.writerIdx < readerIdx) at good
    exact ordered.moved (by omega) (show readerIdx ≤ this.idx.writerIdx by omega)
      ordered.inside.writer.2

theorem heap_capacity : (ChannelBuffer.heap this).capacity = this.arry.length := by
  unfold ChannelBuffer.capacity
  rw [ChannelBuffer.getters]
  rfl

section

variable (ordered : this.Ordered)

include ordered

theorem kept_writerIndex (writerIdx : Int) :
    Kept (stateAfter (BufferM.writerIndex writerIdx) (.heap this)) := by
  apply kept_called ordered
  intro moved ran
  unfold ChannelBuffer.setWriterIndex at ran
  rw [heap_capacity] at ran
  split at ran
  · cases ran
  · rename_i good
    cases ran
    change ¬(writerIdx < this.idx.readerIdx ∨ _) at good
    exact ordered.moved ordered.inside.indices.reader
      (show this.idx.readerIdx ≤ writerIdx by omega) (by omega)

theorem kept_setIndex (reader writer : Int) :
    Kept (stateAfter (BufferM.setIndex reader writer) (.heap this)) := by
  apply kept_called ordered
  intro moved ran
  unfold ChannelBuffer.setIndex at ran
  rw [heap_capacity] at ran
  split at ran
  · cases ran
  · rename_i good
    cases ran
    exact ordered.moved (by omega) (by omega) (by omega)

theorem kept_offsetReaderIndex (offset : Int) :
    Kept (stateAfter (BufferM.offsetReaderIndex offset) (.heap this)) := by
  have core : stateAfter (BufferM.offsetReaderIndex offset) (.heap this) =
      stateAfter (do
        if int32 (this.idx.readerIdx + offset) < 0 ∨
            this.idx.writerIdx < int32 (this.idx.readerIdx + offset) then
          throw (rangeException "readerIndex")
        set ((ChannelBuffer.heap this).withIdx
          { this.idx with readerIdx := int32 (this.idx.readerIdx + offset) }) : BufferM Unit)
        (.heap this) := rfl
  rw [core]
  apply kept_checked ordered
  intro good
  exact ordered.moved (by omega)
    (show int32 (this.idx.readerIdx + offset) ≤ this.idx.writerIdx by omega) ordered.inside.writer.2

theorem kept_offsetWriterIndex (offset : Int) :
    Kept (stateAfter (BufferM.offsetWriterIndex offset) (.heap this)) := by
  have core : stateAfter (BufferM.offsetWriterIndex offset) (.heap this) =
      stateAfter (do
        if int32 (this.idx.writerIdx + offset) < this.idx.readerIdx ∨
            (ChannelBuffer.heap this).capacity < int32 (this.idx.writerIdx + offset) then
          throw (rangeException "writerIndex")
        set ((ChannelBuffer.heap this).withIdx
          { this.idx with writerIdx := int32 (this.idx.writerIdx + offset) }) : BufferM Unit)
        (.heap this) := rfl
  rw [core]
  apply kept_checked ordered
  intro good
  rw [heap_capacity] at good
  exact ordered.moved ordered.inside.indices.reader
    (show this.idx.readerIdx ≤ int32 (this.idx.writerIdx + offset) by omega) (by omega)

theorem kept_skipBytes {length : Int}
    (forward : 0 ≤ int32 (this.idx.readerIdx + length)) :
    Kept (stateAfter (BufferM.skipBytes length) (.heap this)) := by
  have core : stateAfter (BufferM.skipBytes length) (.heap this) =
      stateAfter (do
        if this.idx.writerIdx < int32 (this.idx.readerIdx + length) then throw (rangeException "")
        set ((ChannelBuffer.heap this).withIdx
          { this.idx with readerIdx := int32 (this.idx.readerIdx + length) }) : BufferM Unit)
        (.heap this) := rfl
  rw [core]
  apply kept_checked ordered
  intro good
  exact ordered.moved forward
    (show int32 (this.idx.readerIdx + length) ≤ this.idx.writerIdx by omega) ordered.inside.writer.2

theorem kept_clear : Kept (stateAfter BufferM.clear (.heap this)) :=
  ordered.moved (Int.le_refl _) (Int.le_refl _) (Int.natCast_nonneg _)

theorem kept_markReaderIndex :
    Kept (stateAfter BufferM.markReaderIndex (.heap this)) := by
  have order := ordered.inside.indices
  refine ⟨{ this with idx := { this.idx with markedReaderIndex := this.idx.readerIdx } }, rfl, ?_⟩
  exact ⟨⟨⟨order.reader, order.writer, order.bound⟩, ordered.inside.small⟩, ordered.marked⟩

theorem kept_markWriterIndex :
    Kept (stateAfter BufferM.markWriterIndex (.heap this)) := by
  have order := ordered.inside.indices
  refine ⟨{ this with idx := { this.idx with markedWriterIndex := this.idx.writerIdx } }, rfl, ?_⟩
  exact ⟨⟨⟨order.reader, order.writer, order.bound⟩, ordered.inside.small⟩, ordered.inside.writer⟩

theorem kept_resetWriterIndex (current : this.idx.readerIdx ≤ this.idx.markedWriterIndex) :
    Kept (stateAfter BufferM.resetWriterIndex (.heap this)) :=
  ordered.moved ordered.inside.indices.reader current ordered.marked.2

theorem kept_readByte :
    Kept (stateAfter (do let _ ← BufferM.readByte) (.heap this)) := by
  have order := ordered.inside.indices.writer
  rcases readByte_heap ordered.inside with ⟨empty, ran⟩ | ⟨present, ran⟩
  · unfold stateAfter
    rw [run_bind_error _ ran]
    exact ordered.kept
  · unfold stateAfter
    rw [run_bind_ok _ ran]
    have readable := ordered.inside.readableBytes
    exact ordered.read (show (0 : Int) ≤ 1 by omega) (by omega)

theorem kept_readTyped {Value : Type} {width : Int} (positive : 0 ≤ width)
    (get_ : Getters → Int → Except Stop Value) :
    Kept (stateAfter (do let _ ← BufferM.readTyped width get_) (.heap this)) := by
  apply kept_of_value ordered (BufferM.readTyped_stops width get_)
  intro value after ran
  unfold BufferM.readTyped at ran
  by_cases short : (ChannelBuffer.heap this).readableBytes < width
  · rw [run_bind_error _ (BufferM.checkReadableBytes_short short)] at ran
    cases ran
  · rw [run_bind_ok _ (BufferM.checkReadableBytes_enough short)] at ran
    obtain ⟨buffer, middle, looked, rest⟩ := ok_of_run_bind ran
    cases looked
    obtain ⟨got, middle, called, stored⟩ := ok_of_run_bind rest
    obtain ⟨-, same⟩ := ok_of_run_call called
    rw [same] at stored
    cases stored
    exact ordered.read positive (by omega)

theorem kept_readBytes (length : Int) :
    Kept (stateAfter (do let _ ← BufferM.readBytes length) (.heap this)) := by
  apply kept_of_value ordered (BufferM.readBytes_stops length)
  intro value after ran
  unfold BufferM.readBytes at ran
  by_cases zero : length = 0
  · rw [if_pos zero] at ran
    cases ran
    exact ordered.kept
  · rw [if_neg zero] at ran
    by_cases short : (ChannelBuffer.heap this).readableBytes < length
    · rw [run_bind_error _ (BufferM.checkReadableBytes_short short)] at ran
      cases ran
    · rw [run_bind_ok _ (BufferM.checkReadableBytes_enough short)] at ran
      obtain ⟨buffer, middle, looked, rest⟩ := ok_of_run_bind ran
      cases looked
      obtain ⟨fresh, middle, called, rest⟩ := ok_of_run_bind rest
      obtain ⟨made, same⟩ := ok_of_run_call called
      rw [same] at rest
      obtain ⟨filled, middle, called, rest⟩ := ok_of_run_bind rest
      obtain ⟨-, same⟩ := ok_of_run_call called
      rw [same] at rest
      -- a fresh buffer of a negative capacity is refused
      have positive : 0 ≤ length := by
        by_contra negative
        unfold ChannelBuffer.allocate at made
        rw [if_neg zero, if_pos (by omega)] at made
        cases made
      dsimp only at rest
      split at rest
      · cases rest
        exact ordered.moved (Int.le_refl _) (Int.le_refl _) (Int.natCast_nonneg _)
      · cases rest
        exact ordered.read positive (by omega)

end

/-- A slice that is returned lies inside, but for a wrapped end. -/
theorem slice_ok {index length : Int} {part : ChannelBuffer}
    (cut : (ChannelBuffer.heap this).slice index length = .ok part) :
    length = 0 ∨ 0 ≤ length ∧
      (index = 0 ∧ length ≤ this.arry.length ∨ int32 (index + length) ≤ this.arry.length) := by
  rw [ChannelBuffer.slice] at cut
  dsimp only at cut
  split at cut
  · rename_i whole
    obtain ⟨front, -, full⟩ := whole
    exact Or.inr ⟨by omega, Or.inl ⟨front, by omega⟩⟩
  · unfold ChannelBuffer.directSlice at cut
    split at cut
    · exact Or.inl ‹_›
    · split at cut
      · rename_i front
        unfold ChannelBuffer.makeTruncated ChannelBuffer.setWriterIndex at cut
        rw [heap_capacity] at cut
        split at cut
        · cases cut
        · split at cut
          · cases cut
          · rename_i bound good
            change ¬(length < 0 ∨ _) at good
            exact Or.inr ⟨by omega, Or.inl ⟨front, by omega⟩⟩
      · unfold ChannelBuffer.makeSliced ChannelBuffer.setWriterIndex at cut
        rw [heap_capacity] at cut
        split at cut
        · cases cut
        · split at cut
          · cases cut
          · split at cut
            · cases cut
            · rename_i bound good
              change ¬(length < 0 ∨ _) at good
              exact Or.inr ⟨by omega, Or.inr (by omega)⟩

theorem readSlice_stops (length : Int) : StopsUnchanged (BufferM.readSlice length) := by
  unfold BufferM.readSlice
  apply StopsUnchanged.bind fun _ => Keeps.get
  intro this
  apply StopsUnchanged.bind fun _ => Keeps.call _
  intro part
  exact .sets _ part

theorem readSlice_ok {length : Int} {part after : ChannelBuffer}
    (ran : (BufferM.readSlice length).run (.heap this) = .ok part after) :
    (ChannelBuffer.heap this).slice this.idx.readerIdx length = .ok part ∧
      after = (ChannelBuffer.heap this).withIdx
        { this.idx with readerIdx := int32 (this.idx.readerIdx + length) } := by
  unfold BufferM.readSlice at ran
  obtain ⟨buffer, middle, looked, rest⟩ := ok_of_run_bind ran
  cases looked
  obtain ⟨cut, middle, called, stored⟩ := ok_of_run_bind rest
  obtain ⟨made, same⟩ := ok_of_run_call called
  rw [same] at stored
  cases stored
  exact ⟨made, rfl⟩

theorem kept_readSlice (ordered : this.Ordered) {length : Int}
    (inOrder : this.InOrder (.readSlice length)) :
    Kept (stateAfter (do let _ ← BufferM.readSlice length) (.heap this)) := by
  apply kept_of_value ordered (readSlice_stops length)
  intro part after ran
  obtain ⟨cut, moved⟩ := readSlice_ok ran
  have readable := ordered.inside.readableBytes
  have order := ordered.inside.indices.writer
  rw [moved]
  have forward : 0 ≤ length ∧ length ≤ (ChannelBuffer.heap this).readableBytes := by
    rcases slice_ok cut with none | ⟨positive, bounded⟩
    · omega
    · refine ⟨positive, ?_⟩
      rcases inOrder with negative | within | ⟨beyond, small⟩
      · omega
      · omega
      · have exact_ : int32 (this.idx.readerIdx + length) = this.idx.readerIdx + length :=
          int32_of_nonneg (by omega) small
        omega
  exact ordered.read forward.1 forward.2

/-- `readSlice()` ends with both indices at the front. -/
theorem kept_readAllSlice (ordered : this.Ordered) :
    Kept (stateAfter (do let _ ← BufferM.readAllSlice) (.heap this)) := by
  have core : (BufferM.readAllSlice >>= fun _ => pure () : BufferM Unit).run (.heap this) =
      (BufferM.readSlice (ChannelBuffer.heap this).readableBytes >>= fun _ => BufferM.clear :
        BufferM Unit).run (.heap this) := by
    change ((BufferM.readSlice (ChannelBuffer.heap this).readableBytes >>= fun buffer =>
      (BufferM.clear >>= fun _ => pure buffer)) >>= fun _ => pure () : BufferM Unit).run _ = _
    simp only [bind_assoc, pure_bind]
    congr 1
  unfold stateAfter
  rw [core]
  cases ran : (BufferM.readSlice (ChannelBuffer.heap this).readableBytes).run (.heap this) with
  | ok part after =>
      rw [run_bind_ok _ ran]
      obtain ⟨-, moved⟩ := readSlice_ok ran
      rw [moved]
      exact ordered.moved (Int.le_refl _) (Int.le_refl _) (Int.natCast_nonneg _)
  | error stop after =>
      rw [run_bind_error _ ran, readSlice_stops _ _ _ _ ran]
      exact ordered.kept

theorem kept_discardReadBytes (ordered : this.Ordered) :
    Kept (stateAfter BufferM.discardReadBytes (.heap this)) := by
  have reader := ordered.inside.indices.reader
  have order := ordered.inside.indices.writer
  have bound := ordered.inside.writer.2
  have small := ordered.inside.small
  have marked := ordered.marked
  by_cases front : this.idx.readerIdx = 0
  · have core : stateAfter BufferM.discardReadBytes (.heap this) =
        stateAfter (if this.idx.readerIdx = 0 then pure () else _ : BufferM Unit) (.heap this) := rfl
    rw [core, if_pos front]
    exact ordered.kept
  · by_cases drained : this.idx.readerIdx = this.idx.writerIdx
    · have core : stateAfter BufferM.discardReadBytes (.heap this) =
          stateAfter (if this.idx.readerIdx = 0 then pure ()
            else if this.idx.readerIdx = this.idx.writerIdx then set
              ((ChannelBuffer.heap this).withIdx { this.idx with readerIdx := 0, writerIdx := 0 })
            else _ : BufferM Unit) (.heap this) := rfl
      rw [core, if_neg front, if_pos drained]
      exact ordered.moved (Int.le_refl _) (Int.le_refl _) (Int.natCast_nonneg _)
    · have written : int32 (this.idx.writerIdx - this.idx.readerIdx) =
          this.idx.writerIdx - this.idx.readerIdx := int32_of_nonneg (by omega) (by omega)
      let relocate := fun marked : Int => if 0 < int32 (marked - this.idx.readerIdx) then
        int32 (marked - this.idx.readerIdx) else 0
      have core : stateAfter BufferM.discardReadBytes (.heap this) =
          stateAfter (if this.idx.readerIdx = 0 then pure ()
            else if this.idx.readerIdx = this.idx.writerIdx then set
              ((ChannelBuffer.heap this).withIdx { this.idx with readerIdx := 0, writerIdx := 0 })
            else (call ((ChannelBuffer.heap this).setBytes 0 (ChannelBuffer.heap this).getters
              this.idx.readerIdx (int32 (this.idx.writerIdx - this.idx.readerIdx))) >>= fun moved =>
                set (moved.withIdx
                  { readerIdx := 0
                    writerIdx := int32 (this.idx.writerIdx - this.idx.readerIdx)
                    markedReaderIndex := relocate this.idx.markedReaderIndex
                    markedWriterIndex := relocate this.idx.markedWriterIndex })) : BufferM Unit)
            (.heap this) := rfl
      rw [core, if_neg front, if_neg drained]
      cases stored : (ChannelBuffer.heap this).setBytes 0 (ChannelBuffer.heap this).getters
        this.idx.readerIdx (int32 (this.idx.writerIdx - this.idx.readerIdx)) with
      | error stop => exact ordered.kept
      | ok moved =>
          rw [ChannelBuffer.setBytes] at stored
          obtain ⟨inner, first, made⟩ := ok_of_bind stored
          obtain ⟨arry, copied, wrapped⟩ := ok_of_bind first
          cases wrapped
          cases made
          rw [ChannelBuffer.getters] at copied
          have size : arry.length = this.arry.length := ChannelBuffer.copy_length copied
          refine ⟨{ this with
            arry := arry
            idx :=
              { readerIdx := 0
                writerIdx := int32 (this.idx.writerIdx - this.idx.readerIdx)
                markedReaderIndex := relocate this.idx.markedReaderIndex
                markedWriterIndex := relocate this.idx.markedWriterIndex } }, rfl, ⟨⟨?_, ?_, ?_⟩, ?_⟩, ?_⟩
          · exact Int.le_refl _
          · change 0 ≤ int32 (this.idx.writerIdx - this.idx.readerIdx)
            omega
          · change int32 (this.idx.writerIdx - this.idx.readerIdx) ≤ arry.length
            omega
          · change (arry.length : Int) ≤ maxInt
            omega
          · change 0 ≤ relocate this.idx.markedWriterIndex ∧
              relocate this.idx.markedWriterIndex ≤ arry.length
            have exact_ : int32 (this.idx.markedWriterIndex - this.idx.readerIdx) =
                this.idx.markedWriterIndex - this.idx.readerIdx := by
              apply int32_of_bounds
              · unfold minInt
                unfold maxInt at small
                omega
              · omega
            dsimp only [relocate]
            split <;> omega

theorem Ordered.stored (ordered : this.Ordered) (index : Int) (bytes : List Byte) :
    Ordered { this with arry := stored this.arry index bytes } := by
  have size := stored_length this.arry index bytes
  have order := ordered.inside.indices
  refine ⟨⟨⟨order.reader, order.writer, ?_⟩, ?_⟩, ordered.marked.1, ?_⟩
  · change _ ≤ ((HeapChannelBuffer.stored _ _ _).length : Int)
    rw [size]
    exact order.bound
  · change ((HeapChannelBuffer.stored _ _ _).length : Int) ≤ _
    rw [size]
    exact ordered.inside.small
  · change _ ≤ ((HeapChannelBuffer.stored _ _ _).length : Int)
    rw [size]
    exact ordered.marked.2

section

variable (ordered : this.Ordered)

include ordered

theorem Ordered.wrote {value : TypedValue}
    (fits : this.idx.writerIdx + value.width ≤ this.arry.length) : (this.wrote value).Ordered := by
  refine ⟨ordered.inside.wrote fits, ordered.marked.1, ?_⟩
  change _ ≤ ((HeapChannelBuffer.stored _ _ _).length : Int)
  rw [stored_length]
  exact ordered.marked.2

/-- A write that stops keeps the order, unless it has moved the index already. -/
theorem Ordered.stopped {value : TypedValue} (late : early value = false) :
    (this.stopped value).Ordered := by
  have kept : this.stopped value = { this with
      arry := HeapChannelBuffer.stored this.arry this.idx.writerIdx (value.bytes this.byteOrder) } := by
    unfold HeapChannelBuffer.stopped
    rw [late]
    rfl
  rw [kept]
  exact ordered.stored _ _

theorem kept_writeTyped {value : TypedValue}
    (inOrder : this.InOrder (.writeTyped value)) :
    Kept (stateAfter (BufferM.writeTyped value) (.heap this)) := by
  by_cases fits : this.idx.writerIdx + value.width ≤ this.arry.length
  · unfold stateAfter
    rw [BufferM.writeTyped_fits ordered.inside fits]
    exact (ordered.wrote fits).kept
  · unfold stateAfter
    rw [BufferM.writeTyped_full ordered.inside fits]
    cases value with
    | byte number =>
        change this.idx.writerIdx < _ at inOrder
        change ¬this.idx.writerIdx + ((1 : Nat) : Int) ≤ _ at fits
        omega
    | _ => exact (ordered.stopped rfl).kept

theorem Ordered.wroteAll {values : List TypedValue}
    (fits : this.idx.writerIdx + BufferM.totalWidth values ≤ this.arry.length) :
    (BufferM.wroteAll this values).Ordered := by
  induction values generalizing this with
  | nil => exact ordered
  | cons value rest ih =>
      rw [BufferM.totalWidth_cons] at fits
      have here : this.idx.writerIdx + value.width ≤ this.arry.length := by omega
      apply ih (ordered.wrote here)
      have writer : (this.wrote value).idx.writerIdx = this.idx.writerIdx + value.width := rfl
      have size : (this.wrote value).arry.length = this.arry.length := stored_length _ _ _
      rw [writer, size]
      omega

theorem kept_writeZero {length : Int}
    (inOrder : this.InOrder (.writeZero length)) :
    Kept (stateAfter (BufferM.writeZero length) (.heap this)) := by
  have put : (BufferM.writeZero length).run (.heap this) =
      (BufferM.putZero length).run (.heap this) := rfl
  unfold stateAfter
  rw [put]
  by_cases positive : 0 < length
  · rw [BufferM.putZero_all positive]
    have total := BufferM.totalWidth_wideZeros length.toNat
    have single : BufferM.totalWidth (List.replicate (BufferM.singleBytes length.toNat) (.byte 0)) =
        BufferM.singleBytes length.toNat := by
      rw [BufferM.totalWidth_replicate]
      exact Nat.mul_one _
    by_cases fits : this.idx.writerIdx + BufferM.totalWidth (BufferM.wideZeros length.toNat ++
        List.replicate (BufferM.singleBytes length.toNat) (.byte 0)) ≤ this.arry.length
    · rw [BufferM.writeAll_fits ordered.inside fits]
      exact (ordered.wroteAll fits).kept
    · obtain ⟨front, value, back, split_, before, beyond, ran⟩ :=
        BufferM.writeAll_full ordered.inside fits
      rw [ran]
      rw [BufferM.totalWidth_append, single] at fits
      change length ≤ 0 ∨ this.idx.writerIdx + length ≤ this.arry.length ∨
        this.arry.length < this.idx.writerIdx + (length - BufferM.singleBytes length.toNat)
        at inOrder
      -- the write that stops is one of the wide ones
      have wide : value ∈ BufferM.wideZeros length.toNat := by
        rcases List.append_eq_append_iff.mp split_ with ⟨more, back_, -⟩ | ⟨more, front_, rest⟩
        · rw [back_, BufferM.totalWidth_append] at before
          omega
        · cases more with
          | nil =>
              rw [List.append_nil] at front_
              have widths := congrArg BufferM.totalWidth front_
              omega
          | cons first more =>
              obtain ⟨same, -⟩ := List.cons.inj rest
              rw [front_, same]
              exact List.mem_append_right _ (List.mem_cons_self ..)
      exact ((ordered.wroteAll before).stopped (BufferM.wideZeros_late _ _ wide)).kept
  · unfold BufferM.putZero
    by_cases zero : length = 0
    · rw [if_pos zero]
      exact ordered.kept
    · rw [if_neg zero, if_pos (by omega)]
      exact ordered.kept

/-- One operation, under its condition. -/
theorem kept_of_inOrder (call : IndexCall) (inOrder : this.InOrder call) :
    Kept (stateAfter call.program (.heap this)) := by
  cases call with
  | readerIndex readerIdx => exact kept_readerIndex ordered readerIdx
  | writerIndex writerIdx => exact kept_writerIndex ordered writerIdx
  | offsetReaderIndex offset => exact kept_offsetReaderIndex ordered offset
  | offsetWriterIndex offset => exact kept_offsetWriterIndex ordered offset
  | setIndex reader writer => exact kept_setIndex ordered reader writer
  | clear => exact kept_clear ordered
  | markReaderIndex => exact kept_markReaderIndex ordered
  | resetReaderIndex => exact kept_readerIndex ordered this.idx.markedReaderIndex
  | markWriterIndex => exact kept_markWriterIndex ordered
  | resetWriterIndex => exact kept_resetWriterIndex ordered inOrder
  | discardReadBytes => exact kept_discardReadBytes ordered
  | readByte => exact kept_readByte ordered
  | readShort => exact kept_readTyped ordered (show (0 : Int) ≤ 2 by decide) Getters.getShort
  | readUnsignedMedium =>
      exact kept_readTyped ordered (show (0 : Int) ≤ 3 by decide) Getters.getUnsignedMedium
  | readInt => exact kept_readTyped ordered (show (0 : Int) ≤ 4 by decide) Getters.getInt
  | readLong => exact kept_readTyped ordered (show (0 : Int) ≤ 8 by decide) Getters.getLong
  | writeTyped value => exact kept_writeTyped ordered inOrder
  | readBytes length => exact kept_readBytes ordered length
  | readAllSlice => exact kept_readAllSlice ordered
  | readSlice length => exact kept_readSlice ordered inOrder
  | skipBytes length => exact kept_skipBytes ordered inOrder
  | writeZero length => exact kept_writeZero ordered inOrder

end

end Operations

theorem ordered_after {before after : HeapChannelBuffer} {call : IndexCall}
    (ordered : before.Ordered) (inOrder : before.InOrder call)
    (step : indexStep before call after) : after.Ordered := by
  obtain ⟨left, same, holds⟩ := kept_of_inOrder ordered call inOrder
  rw [show stateAfter call.program (.heap before) = .heap after from step] at same
  cases same
  exact holds

/-- Over a run whose operations all meet their condition the indices stay in order. -/
theorem indices_ordered {start final : HeapChannelBuffer} {calls : List IndexCall}
    (ordered : start.Ordered) (run : Run (Guarded InOrder indexStep) start calls final) :
    final.idx.Inside final.arry.length := by
  have invariant : final.Ordered := by
    apply run.invariant _ ordered
    intro before call after holds step
    exact ordered_after holds step.1 step.2
  exact invariant.inside.indices

/-- Four bytes, the first one written. -/
def partlyWritten : HeapChannelBuffer := ⟨.little, [1, 0, 0, 0], ⟨0, 1, 0, 0⟩⟩

theorem partlyWritten_ordered : partlyWritten.Ordered :=
  ⟨⟨⟨by decide, by decide, by decide⟩, by decide⟩, by decide⟩

/-- A skip backwards, a slice beyond the written bytes, a byte written to a full buffer and a
stale mark each leave the indices out of order. -/
theorem indices_out_of_order :
    partlyWritten.Ordered ∧ fullBuffer.Ordered ∧
      (∃ final, Run indexStep partlyWritten [.skipBytes (-1)] final ∧
        final.idx.readerIdx = -1 ∧ ¬final.idx.Inside final.arry.length) ∧
      (∃ final, Run indexStep partlyWritten [.readSlice 3] final ∧
        final.idx.writerIdx < final.idx.readerIdx ∧ ¬final.idx.Inside final.arry.length) ∧
      (∃ final, Run indexStep fullBuffer [.writeTyped (.byte 9)] final ∧
        final.idx.writerIdx = 5 ∧ ¬final.idx.Inside final.arry.length) ∧
      ∃ final, Run indexStep partlyWritten [.readByte, .resetWriterIndex] final ∧
        final.idx.writerIdx < final.idx.readerIdx ∧ ¬final.idx.Inside final.arry.length := by
  refine ⟨partlyWritten_ordered, ⟨fullBuffer_inside, by decide⟩, ?_, ?_, ?_, ?_⟩
  · refine ⟨{ partlyWritten with idx := ⟨-1, 1, 0, 0⟩ }, .cons rfl (.nil _), rfl, ?_⟩
    intro inside
    exact absurd inside.reader (by decide)
  · have cut : (ChannelBuffer.heap partlyWritten).slice 0 3 =
        ChannelBuffer.makeTruncated (.heap partlyWritten) 3 := by
      rw [ChannelBuffer.slice]
      rfl
    have made : ∃ part, ChannelBuffer.makeTruncated (.heap partlyWritten) 3 = .ok part := by
      unfold ChannelBuffer.makeTruncated
      rw [heap_capacity]
      exact ⟨_, rfl⟩
    obtain ⟨part, made⟩ := made
    have step : indexStep partlyWritten (.readSlice 3) { partlyWritten with idx := ⟨3, 1, 0, 0⟩ } := by
      have ran : (BufferM.readSlice 3).run (.heap partlyWritten) =
          .ok part (.heap { partlyWritten with idx := ⟨3, 1, 0, 0⟩ }) := by
        change (call ((ChannelBuffer.heap partlyWritten).slice 0 3) >>= _ :
          BufferM ChannelBuffer).run _ = _
        rw [cut, made]
        rfl
      change stateAfter (BufferM.readSlice 3 >>= fun _ => pure ()) _ = _
      unfold stateAfter
      rw [run_bind_ok _ ran]
      rfl
    refine ⟨_, .cons step (.nil _), by decide, ?_⟩
    intro inside
    exact absurd inside.writer (by decide)
  · have full : ¬fullBuffer.idx.writerIdx + ((TypedValue.byte 9).width : Int) ≤
        fullBuffer.arry.length := by decide
    have step : indexStep fullBuffer (.writeTyped (.byte 9)) (fullBuffer.stopped (.byte 9)) := by
      change stateAfter (BufferM.writeTyped (.byte 9)) _ = _
      unfold stateAfter
      rw [BufferM.writeTyped_full fullBuffer_inside full]
    refine ⟨_, .cons step (.nil _), by decide, ?_⟩
    intro inside
    exact absurd inside.bound (by decide)
  · have step : indexStep partlyWritten .readByte { partlyWritten with idx := ⟨1, 1, 0, 0⟩ } := by
      change stateAfter (BufferM.readByte >>= fun _ => pure ()) _ = _
      unfold stateAfter
      rcases readByte_heap partlyWritten_ordered.inside with ⟨empty, -⟩ | ⟨-, ran⟩
      · exact absurd empty (by decide)
      · rw [run_bind_ok _ ran]
        rfl
    refine ⟨{ partlyWritten with idx := ⟨1, 0, 0, 0⟩ }, .cons step (.cons rfl (.nil _)), by decide, ?_⟩
    intro inside
    exact absurd inside.writer (by decide)

theorem indices_ordered_after_mark :
    ∃ final, Run (Guarded InOrder indexStep) partlyWritten [.markWriterIndex, .resetWriterIndex] final ∧
      final.idx.Inside final.arry.length := by
  let marked : HeapChannelBuffer := { partlyWritten with idx := ⟨0, 1, 0, 1⟩ }
  have first : Guarded InOrder indexStep partlyWritten .markWriterIndex marked := ⟨trivial, rfl⟩
  have second : Guarded InOrder indexStep marked .resetWriterIndex marked :=
    ⟨show (0 : Int) ≤ 1 by decide, rfl⟩
  have run := Run.cons first (Run.cons second (Run.nil marked))
  exact ⟨_, run, indices_ordered partlyWritten_ordered run⟩

end HeapChannelBuffer

end Cetty
