import Cetty.BufferSlices

/-!
# Duplicates and unmodifiable views

What `duplicate` and `ChannelBuffers::unmodifiableBuffer` show of the buffer they are asked of.
The copy constructors of the duplicated and of the read-only kind look at the indices of the
wrapped buffer, as does `unmodifiableBuffer` of a read-only buffer.
-/

namespace Cetty

open MachineInt ByteWindow

namespace ChannelBuffer

/-- `ChannelBuffers::unmodifiableBuffer`. A read-only buffer is unwrapped first. -/
def unmodifiableBuffer : ChannelBuffer → Except Stop ChannelBuffer
  | readOnly buffer _ => makeReadOnly buffer
  | buffer => makeReadOnly buffer

/-- A view with the indices, the capacity and the bytes of a buffer. -/
structure SameView (buffer view : ChannelBuffer) : Prop where
  reader : view.readerIdx = buffer.readerIdx
  writer : view.writerIdx = buffer.writerIdx
  capacity : view.capacity = buffer.capacity
  content : view.content = buffer.content
  answers : view.getters.Answers buffer.content

def Shown (buffer : ChannelBuffer) (result : Except Stop ChannelBuffer) : Prop :=
  ∃ view, result = .ok view ∧ buffer.SameView view

/-- A duplicated or read-only buffer whose indices are where those of the wrapped buffer are. -/
def InStep : ChannelBuffer → Prop
  | duplicated buffer idx => buffer.readerIdx = idx.readerIdx ∧ buffer.writerIdx = idx.writerIdx
  | readOnly buffer idx => buffer.readerIdx = idx.readerIdx ∧ buffer.writerIdx = idx.writerIdx
  | _ => True

section Views

variable {buffer : ChannelBuffer}

theorem readOnly_capacity (idx : Indices) : (readOnly buffer idx).capacity = buffer.capacity := by
  unfold ChannelBuffer.capacity
  rw [getters]

theorem readOnly_content (idx : Indices) : (readOnly buffer idx).content = buffer.content := by
  rw [content]

theorem makeReadOnly_run (built : buffer.WellBuilt) : makeReadOnly buffer =
    .ok (readOnly buffer
      { Indices.zero with readerIdx := buffer.readerIdx, writerIdx := buffer.writerIdx }) := by
  have start := built.inside
  apply setIndex_of_inside start.reader start.writer
  rw [readOnly_capacity, show buffer.capacity = buffer.content.length from built.answers.capacity]
  exact start.bound

theorem makeDuplicated_shown (built : buffer.WellBuilt) : buffer.Shown (makeDuplicated buffer) := by
  refine ⟨_, makeDuplicated_run built, rfl, rfl, duplicated_capacity _, duplicated_content _, ?_⟩
  rw [getters]
  exact built.answers

theorem makeReadOnly_shown (built : buffer.WellBuilt) : buffer.Shown (makeReadOnly buffer) := by
  refine ⟨_, makeReadOnly_run built, rfl, rfl, readOnly_capacity _, readOnly_content _, ?_⟩
  rw [getters]
  exact built.answers

/-- A wrapping buffer shown through the view of what it wraps. -/
theorem shown_through {outer : ChannelBuffer} {result : Except Stop ChannelBuffer}
    (shown : buffer.Shown result) (capacity : outer.capacity = buffer.capacity)
    (content : outer.content = buffer.content) :
    outer.Shown result ↔
      buffer.readerIdx = outer.readerIdx ∧ buffer.writerIdx = outer.writerIdx := by
  obtain ⟨view, made, same⟩ := shown
  constructor
  · intro ⟨other, made_, same_⟩
    rw [made] at made_
    cases made_
    exact ⟨same.reader.symm.trans same_.reader, same.writer.symm.trans same_.writer⟩
  · intro ⟨reader, writer⟩
    refine ⟨view, made, same.reader.trans reader, same.writer.trans writer,
      same.capacity.trans capacity.symm, same.content.trans content.symm, ?_⟩
    rw [content]
    exact same.answers

/-- A view that is given the indices of the buffer it shows. -/
theorem shown_setIndex {view : ChannelBuffer} (built : buffer.WellBuilt)
    (capacity : view.capacity = buffer.capacity) (content : view.content = buffer.content)
    (answers : view.getters.Answers buffer.content) :
    buffer.Shown (view.setIndex buffer.readerIdx buffer.writerIdx) := by
  have inside := built.inside
  have bound : buffer.writerIdx ≤ view.capacity := by
    rw [capacity, show buffer.capacity = buffer.content.length from built.answers.capacity]
    exact inside.bound
  refine ⟨_, setIndex_of_inside inside.reader inside.writer bound, ?_⟩
  constructor
  · rw [readerIdx_withIdx]
  · rw [writerIdx_withIdx]
  · rw [capacity_withIdx, capacity]
  · rw [content_withIdx, content]
  · rw [getters_withIdx]
    exact answers

theorem sliced_duplicate {adjustment length : Nat} {idx : Indices} (parent : buffer.WellBuilt)
    (within : ((adjustment + length : Nat) : Int) ≤ buffer.capacity)
    (built : (sliced buffer adjustment length idx).WellBuilt) :
    (sliced buffer adjustment length idx).Shown
      (sliced buffer adjustment length idx).duplicate := by
  have capacity : buffer.capacity = buffer.content.length := parent.answers.capacity
  have small := parent.answers.small
  have made := makeSliced_of_room (by omega) within
  have same : (sliced buffer adjustment length idx).duplicate =
      (sliced buffer adjustment length { Indices.zero with writerIdx := length }).setIndex
        idx.readerIdx idx.writerIdx := by
    rw [duplicate, made, ok_bind]
  rw [same]
  apply shown_setIndex built
  · unfold ChannelBuffer.capacity
    rw [getters, getters]
  · rw [content, content]
  · have answers := built.answers
    rw [getters] at answers ⊢
    exact answers

theorem truncated_duplicate {length : Nat} {idx : Indices}
    (within : (length : Int) ≤ buffer.capacity)
    (built : (truncated buffer length idx).WellBuilt) :
    (truncated buffer length idx).Shown (truncated buffer length idx).duplicate := by
  have same : (truncated buffer length idx).duplicate =
      (truncated buffer length { Indices.zero with writerIdx := length }).setIndex
        idx.readerIdx idx.writerIdx := by
    rw [duplicate, makeTruncated_of_room within, ok_bind]
  rw [same]
  apply shown_setIndex built
  · unfold ChannelBuffer.capacity
    rw [getters, getters]
  · rw [content, content]
  · have answers := built.answers
    rw [getters] at answers ⊢
    exact answers

/-- The copy starts its searches at the first component. -/
theorem composite_duplicate {order : ByteOrder} {components : List ChannelBuffer} {last : Nat}
    {idx : Indices} (parts : ∀ component ∈ components, component.WellBuilt)
    (ordered : ∀ component ∈ components, component.order = order) (cached : last < components.length)
    (small : (components.map ChannelBuffer.capacity).sum ≤ maxInt)
    (inside : idx.Inside (components.map ChannelBuffer.capacity).sum) :
    (composite order components
      ((components.map ChannelBuffer.capacity).scanl (· + ·) 0) last idx).Shown
    (composite order components
      ((components.map ChannelBuffer.capacity).scanl (· + ·) 0) last idx).duplicate := by
  have restarted := WellBuilt.composite parts ordered (Nat.zero_lt_of_lt cached) small inside
  have same := restarted.answers
  rw [content] at same
  rw [duplicate]
  apply shown_setIndex (.composite parts ordered cached small inside)
  · unfold ChannelBuffer.capacity
    rw [getters, getters]
    rfl
  · rw [content, content]
  · rw [getters] at same ⊢
    rw [content]
    exact same

theorem duplicated_duplicate {idx : Indices} (parent : buffer.WellBuilt) :
    (duplicated buffer idx).Shown (duplicated buffer idx).duplicate ↔
      (duplicated buffer idx).InStep := by
  rw [duplicate]
  exact shown_through (makeDuplicated_shown parent) (duplicated_capacity idx)
    (duplicated_content idx)

theorem readOnly_unwrapped {idx : Indices} (parent : buffer.WellBuilt) :
    (readOnly buffer idx).Shown (makeReadOnly buffer) ↔ (readOnly buffer idx).InStep :=
  shown_through (makeReadOnly_shown parent) (readOnly_capacity idx) (readOnly_content idx)

theorem duplicate_shown_iff (built : buffer.WellBuilt) :
    buffer.Shown buffer.duplicate ↔ buffer.InStep := by
  cases built with
  | heap small inside =>
      rw [duplicate]
      exact ⟨fun _ => trivial, fun _ => makeDuplicated_shown (.heap small inside)⟩
  | dynamic ordered small inside =>
      rw [duplicate]
      exact ⟨fun _ => trivial, fun _ => makeDuplicated_shown (.dynamic ordered small inside)⟩
  | sliced parent within inside =>
      exact ⟨fun _ => trivial,
        fun _ => sliced_duplicate parent within (.sliced parent within inside)⟩
  | truncated parent within inside =>
      exact ⟨fun _ => trivial,
        fun _ => truncated_duplicate within (.truncated parent within inside)⟩
  | duplicated parent inside => exact duplicated_duplicate parent
  | readOnly parent inside =>
      rw [duplicate]
      exact readOnly_unwrapped parent
  | composite parts ordered cached small inside =>
      exact ⟨fun _ => trivial, fun _ => composite_duplicate parts ordered cached small inside⟩

/-- Only a read-only buffer is unwrapped. -/
theorem unmodifiableBuffer_shown (built : buffer.WellBuilt) (inStep : buffer.InStep) :
    buffer.Shown (unmodifiableBuffer buffer) := by
  cases built with
  | readOnly parent inside => exact (readOnly_unwrapped parent).mpr inStep
  | heap small inside => exact makeReadOnly_shown (.heap small inside)
  | dynamic ordered small inside => exact makeReadOnly_shown (.dynamic ordered small inside)
  | sliced parent within inside => exact makeReadOnly_shown (.sliced parent within inside)
  | truncated parent within inside => exact makeReadOnly_shown (.truncated parent within inside)
  | duplicated parent inside => exact makeReadOnly_shown (.duplicated parent inside)
  | composite parts ordered cached small inside =>
      exact makeReadOnly_shown (.composite parts ordered cached small inside)

theorem derived_views_iff (built : buffer.WellBuilt) :
    buffer.Shown buffer.duplicate ∧ buffer.Shown (unmodifiableBuffer buffer) ↔ buffer.InStep := by
  constructor
  · intro ⟨duplicate, _⟩
    exact (duplicate_shown_iff built).mp duplicate
  · intro inStep
    exact ⟨(duplicate_shown_iff built).mpr inStep, unmodifiableBuffer_shown built inStep⟩

end Views

/-- Two bytes, of which a duplicate has read the first. -/
def halfRead : ChannelBuffer :=
  duplicated (heap ⟨.big, [1, 2], .full 2⟩) { Indices.full 2 with readerIdx := 1 }

theorem halfRead_built : halfRead.WellBuilt := by
  have small : (([1, 2] : CharArray).length : Int) ≤ maxInt := by decide
  have whole : (Indices.full 2).Inside ([1, 2] : CharArray).length := ⟨by decide, by decide, by decide⟩
  exact .duplicated (.heap small whole) ⟨by decide, by decide, by decide⟩

theorem duplicate_rewinds :
    halfRead.WellBuilt ∧ ¬halfRead.Shown halfRead.duplicate := by
  refine ⟨halfRead_built, ?_⟩
  intro shown
  have reader := ((duplicate_shown_iff halfRead_built).mp shown).1
  exact absurd reader (by decide)

theorem whole_view_kept :
    (duplicated (heap ⟨.big, [1, 2], .full 2⟩) (.full 2)).Shown
        (duplicated (heap ⟨.big, [1, 2], .full 2⟩) (.full 2)).duplicate ∧
      (duplicated (heap ⟨.big, [1, 2], .full 2⟩) (.full 2)).Shown
        (unmodifiableBuffer (duplicated (heap ⟨.big, [1, 2], .full 2⟩) (.full 2))) := by
  have small : (([1, 2] : CharArray).length : Int) ≤ maxInt := by decide
  have whole : (Indices.full 2).Inside ([1, 2] : CharArray).length := ⟨by decide, by decide, by decide⟩
  have built : (duplicated (heap ⟨.big, [1, 2], .full 2⟩) (.full 2)).WellBuilt :=
    .duplicated (.heap small whole) ⟨by decide, by decide, by decide⟩
  exact (derived_views_iff built).mpr ⟨rfl, rfl⟩

end ChannelBuffer

end Cetty
