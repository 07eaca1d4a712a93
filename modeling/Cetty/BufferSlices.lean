import Cetty.BufferCopies

/-!
# Slices of a buffer

What `slice` cuts out of a buffer that is not a composite one: a fresh buffer, all of whose
cells are readable and show the range.
-/

namespace Cetty

open MachineInt ByteWindow

namespace ChannelBuffer

/-- A new buffer, all of its cells readable. -/
structure Fresh (order : ByteOrder) (buffer : ChannelBuffer) : Prop where
  built : buffer.WellBuilt
  ordered : buffer.order = order
  reader : buffer.readerIdx = 0
  writer : buffer.writerIdx = buffer.content.length

section Fresh

variable {order : ByteOrder} {buffer : ChannelBuffer}

section

variable (fresh : Fresh order buffer)

include fresh

theorem Fresh.readableContent :
    buffer.readableContent = buffer.content := by
  unfold ChannelBuffer.readableContent
  rw [fresh.reader, fresh.writer, Int.sub_zero, Int.toNat_natCast, Int.toNat_zero, window_whole]

theorem Fresh.capacity : buffer.capacity = buffer.content.length :=
  fresh.built.answers.capacity

theorem Fresh.small : (buffer.content.length : Int) ≤ maxInt :=
  fresh.built.answers.small

theorem Fresh.readableBytes :
    buffer.readableBytes = buffer.content.length := by
  unfold ChannelBuffer.readableBytes
  rw [fresh.reader, fresh.writer, Int.sub_zero]
  exact int32_of_nonneg (Int.natCast_nonneg _) fresh.small

end

theorem heap_fresh {bytes : CharArray} (small : (bytes.length : Int) ≤ maxInt) :
    Fresh order (heap ⟨order, bytes, .full bytes.length⟩) := by
  constructor
  · exact .heap small ⟨Int.le_refl _, Int.natCast_nonneg _, Int.le_refl _⟩
  · unfold ChannelBuffer.order
    rw [getters]
    rfl
  · rfl
  · rw [content]
    rfl

theorem IsCopy.content {bytes : CharArray} (copy : IsCopy order bytes buffer) :
    buffer.content = bytes := by
  cases copy with
  | heap => rw [ChannelBuffer.content]
  | dynamic factory => rw [ChannelBuffer.content]

theorem IsCopy.fresh {bytes : CharArray} (copy : IsCopy order bytes buffer)
    (small : (bytes.length : Int) ≤ maxInt) : Fresh order buffer := by
  have shown := copy.content
  cases copy with
  | heap => exact heap_fresh small
  | dynamic factory =>
      constructor
      · exact .dynamic (Or.inl rfl) small ⟨Int.le_refl _, Int.natCast_nonneg _, Int.le_refl _⟩
      · unfold ChannelBuffer.order
        rw [getters]
      · rfl
      · rw [shown]
        rfl

theorem sliced_fresh (built : buffer.WellBuilt) {index length : Nat}
    (inside : index + length ≤ buffer.content.length) :
    Fresh buffer.order (sliced buffer index length { Indices.zero with writerIdx := length }) := by
  have capacity : buffer.capacity = buffer.content.length := built.answers.capacity
  have size : (window buffer.content index length).length = length := window_length inside
  constructor
  · exact .sliced built (by omega) ⟨Int.le_refl _, Int.natCast_nonneg _, Int.le_refl _⟩
  · unfold order
    rw [getters]
    rfl
  · rfl
  · rw [content, Int.toNat_natCast, Int.toNat_natCast, size]
    rfl

theorem truncated_fresh (built : buffer.WellBuilt) {length : Nat}
    (inside : length ≤ buffer.content.length) :
    Fresh buffer.order (truncated buffer length { Indices.zero with writerIdx := length }) := by
  have capacity : buffer.capacity = buffer.content.length := built.answers.capacity
  have size : (window buffer.content 0 length).length = length := window_length (by omega)
  constructor
  · exact .truncated built (by omega) ⟨Int.le_refl _, Int.natCast_nonneg _, Int.le_refl _⟩
  · unfold order
    rw [getters]
    rfl
  · rfl
  · rw [content, Int.toNat_natCast, size]
    rfl

theorem duplicated_capacity (idx : Indices) :
    (duplicated buffer idx).capacity = buffer.capacity := by
  unfold ChannelBuffer.capacity
  rw [getters]

theorem duplicated_content (idx : Indices) : (duplicated buffer idx).content = buffer.content := by
  rw [content]

theorem duplicated_order (idx : Indices) : (duplicated buffer idx).order = buffer.order := by
  unfold ChannelBuffer.order
  rw [getters]

theorem duplicated_fresh (built : buffer.WellBuilt) : Fresh buffer.order
    (duplicated buffer { Indices.zero with writerIdx := buffer.content.length }) := by
  constructor
  · have capacity : buffer.capacity = buffer.content.length := built.answers.capacity
    exact .duplicated built ⟨Int.le_refl _, Int.natCast_nonneg _, Int.le_of_eq capacity.symm⟩
  · exact duplicated_order _
  · rfl
  · rw [duplicated_content]
    rfl

theorem makeDuplicated_run (built : buffer.WellBuilt) : makeDuplicated buffer =
    .ok (duplicated buffer
      { Indices.zero with readerIdx := buffer.readerIdx, writerIdx := buffer.writerIdx }) := by
  have start := built.inside
  apply setIndex_of_inside start.reader start.writer
  rw [duplicated_capacity, show buffer.capacity = buffer.content.length from built.answers.capacity]
  exact start.bound

theorem duplicated_setIndex (built : buffer.WellBuilt) (idx : Indices) :
    (duplicated buffer idx).setIndex 0 buffer.content.length =
      .ok (duplicated buffer { idx with readerIdx := 0, writerIdx := buffer.content.length }) := by
  have capacity : (duplicated buffer idx).capacity = buffer.content.length :=
    (duplicated_capacity idx).trans built.answers.capacity
  exact setIndex_of_inside (Int.le_refl 0) (Int.natCast_nonneg _) (Int.le_of_eq capacity.symm)

end Fresh

/-- `slice` cuts the range `[index, index + length)` out. -/
def CutsAt (buffer : ChannelBuffer) (index length : Nat) : Prop :=
  ∃ part, buffer.slice index length = .ok part ∧ Fresh buffer.order part ∧
    part.content = window buffer.content index length

/-- `slice` cuts out every range that has bytes. -/
def Cuts (buffer : ChannelBuffer) : Prop :=
  ∀ index length : Nat, 0 < length → index + length ≤ buffer.content.length →
    buffer.CutsAt index length

section Cuts

variable {buffer : ChannelBuffer}

theorem makeSliced_cuts (built : buffer.WellBuilt) {index length : Nat}
    (inside : index + length ≤ buffer.content.length) :
    ∃ part, makeSliced buffer index length = .ok part ∧ Fresh buffer.order part ∧
      part.content = window buffer.content index length := by
  have capacity : buffer.capacity = buffer.content.length := built.answers.capacity
  have small := built.answers.small
  refine ⟨_, makeSliced_of_room (by omega) (by omega), sliced_fresh built inside, ?_⟩
  rw [content, Int.toNat_natCast, Int.toNat_natCast]

theorem directSlice_cuts (built : buffer.WellBuilt) {index length : Nat} (positive : 0 < length)
    (inside : index + length ≤ buffer.content.length) :
    ∃ part, directSlice buffer index length = .ok part ∧ Fresh buffer.order part ∧
      part.content = window buffer.content index length := by
  have capacity : buffer.capacity = buffer.content.length := built.answers.capacity
  unfold directSlice
  rw [if_neg (by omega)]
  by_cases front : index = 0
  · subst front
    rw [if_pos Int.natCast_zero]
    refine ⟨_, makeTruncated_of_room (by omega), truncated_fresh built (by omega), ?_⟩
    rw [content, Int.toNat_natCast]
  · rw [if_neg (by omega)]
    exact makeSliced_cuts built inside

/-- A heap buffer that is sliced as a whole is duplicated. -/
theorem heap_cuts {heap : HeapChannelBuffer} (built : (ChannelBuffer.heap heap).WellBuilt) :
    (ChannelBuffer.heap heap).Cuts := by
  intro index length positive inside
  have shown : (ChannelBuffer.heap heap).content = heap.arry := by rw [content]
  unfold CutsAt
  rw [slice]
  beta_reduce
  by_cases whole : (index : Int) = 0 ∧ (length : Int) ≠ 0 ∧ (length : Int) = heap.arry.length
  · have all : length = (ChannelBuffer.heap heap).content.length := by
      rw [shown]
      omega
    rw [if_pos whole, makeDuplicated_run built, ok_bind, all,
      duplicated_setIndex built]
    refine ⟨_, rfl, duplicated_fresh built, ?_⟩
    rw [duplicated_content, show index = 0 by omega, window_whole]
  · rw [if_neg whole]
    exact directSlice_cuts built positive inside

theorem dynamic_cuts {endianness factory : ByteOrder} {heap : HeapChannelBuffer} {idx : Indices}
    (built : (dynamic endianness factory heap idx).WellBuilt) :
    (dynamic endianness factory heap idx).Cuts := by
  intro index length positive inside
  unfold CutsAt
  rw [slice]
  exact directSlice_cuts built positive inside

theorem sliced_cuts {adjustment length : Nat} {idx : Indices} (parent : buffer.WellBuilt)
    (within : adjustment + length ≤ buffer.content.length) :
    (sliced buffer adjustment length idx).Cuts := by
  intro index count positive inside
  have size : (window buffer.content adjustment length).length = length := window_length within
  have shown : (sliced buffer adjustment length idx).content =
      window buffer.content adjustment length := by
    rw [content, Int.toNat_natCast, Int.toNat_natCast]
  have ordered : (sliced buffer adjustment length idx).order = buffer.order := by
    unfold order
    rw [getters]
    rfl
  rw [shown, size] at inside
  have checked := Getters.slicedCheck_of_inside parent.answers.small within inside
  have shifted := Getters.shifted_inside parent.answers.small within index (by omega)
  unfold CutsAt
  rw [slice_sliced _ _ _ _ _ _ checked, if_neg (by omega), shifted, shown, ordered,
    window_window _ _ _ _ _ inside]
  exact makeSliced_cuts parent (by omega)

theorem truncated_cuts {length : Nat} {idx : Indices} (parent : buffer.WellBuilt)
    (cuts : buffer.Cuts) (within : length ≤ buffer.content.length) :
    (truncated buffer length idx).Cuts := by
  intro index count positive inside
  have size : (window buffer.content 0 length).length = length := window_length (by omega)
  have shown : (truncated buffer length idx).content = window buffer.content 0 length := by
    rw [content, Int.toNat_natCast]
  have ordered : (truncated buffer length idx).order = buffer.order := by
    unfold order
    rw [getters]
    rfl
  rw [shown, size] at inside
  have checked := Getters.truncatedCheck_of_inside parent.answers.small within inside
  unfold CutsAt
  rw [slice_truncated _ _ _ _ _ checked, if_neg (by omega), shown, ordered,
    window_window _ _ _ _ _ inside, Nat.zero_add]
  exact cuts index count positive (by omega)

end Cuts

end ChannelBuffer

end Cetty
