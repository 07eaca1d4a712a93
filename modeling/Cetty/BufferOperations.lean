import Cetty.BufferContents

/-!
# What the buffer operations do to the readable bytes

A sound buffer is moved over by its reader index; the dynamic kind, in which a
frame decoder cumulates, also takes bytes in and drops those already read.
-/

namespace Cetty

open MachineInt ByteWindow

namespace ChannelBuffer

/-- The reader index moved over `count` bytes. -/
def advance (buffer : ChannelBuffer) (count : Nat) : ChannelBuffer :=
  buffer.withIdx { buffer.idx with readerIdx := buffer.readerIdx + count }

section

variable (buffer : ChannelBuffer)

include buffer

@[simp] theorem content_advance (count : Nat) :
    (buffer.advance count).content = buffer.content := by
  simp [advance]

@[simp] theorem readerIdx_advance (count : Nat) :
    (buffer.advance count).readerIdx = buffer.readerIdx + count := by
  simp [advance]

@[simp] theorem writerIdx_advance (count : Nat) :
    (buffer.advance count).writerIdx = buffer.writerIdx := by
  simp [advance, writerIdx]

theorem advance_zero : buffer.advance 0 = buffer := by
  unfold advance readerIdx
  rw [Int.natCast_zero, Int.add_zero]
  exact withIdx_idx buffer

theorem advance_advance (first second : Nat) :
    (buffer.advance first).advance second = buffer.advance (first + second) := by
  simp only [advance, withIdx_withIdx, readerIdx_withIdx, idx_withIdx]
  rw [Int.natCast_add, Int.add_assoc]

end

namespace Sound

variable {buffer : ChannelBuffer}

section

variable (sound : buffer.Sound)

include sound

theorem reader_nonneg : 0 ≤ buffer.readerIdx := sound.inside.reader

theorem reader_le_writer : buffer.readerIdx ≤ buffer.writerIdx :=
  sound.inside.writer

theorem writer_le_length : buffer.writerIdx ≤ buffer.content.length :=
  sound.inside.bound

theorem writer_le_maxInt : buffer.writerIdx ≤ maxInt :=
  Int.le_trans sound.writer_le_length sound.serves.small

theorem readable_length :
    (buffer.readableContent.length : Int) = buffer.writerIdx - buffer.readerIdx := by
  have reader := sound.reader_nonneg
  have order := sound.reader_le_writer
  have bound := sound.writer_le_length
  unfold readableContent
  rw [window_length (by omega)]
  omega

theorem readableBytes_eq :
    buffer.readableBytes = buffer.readableContent.length := by
  have reader := sound.reader_nonneg
  have order := sound.reader_le_writer
  have bound := sound.writer_le_maxInt
  rw [sound.readable_length]
  unfold readableBytes
  rw [int32_of_nonneg (by omega) (by omega)]

theorem readable_iff :
    buffer.readable = true ↔ buffer.readableContent ≠ [] := by
  unfold readable
  rw [decide_eq_true_iff, sound.readableBytes_eq, ← List.length_pos_iff]
  omega

theorem readable_eq_false_iff :
    buffer.readable = false ↔ buffer.readableContent = [] := by
  rw [← not_iff_not, Bool.not_eq_false]
  exact sound.readable_iff

section

variable {count : Nat} (bounded : count ≤ buffer.readableContent.length)

include bounded

theorem advance_inside :
    (buffer.advance count).idx.Inside buffer.content.length := by
  have size := sound.readable_length
  have reader := sound.reader_nonneg
  have bound := sound.writer_le_length
  unfold advance
  rw [idx_withIdx]
  refine ⟨?_, ?_, bound⟩
  · change 0 ≤ buffer.readerIdx + count
    omega
  · change buffer.readerIdx + count ≤ buffer.writerIdx
    omega

theorem advance : (buffer.advance count).Sound := by
  have inside := sound.advance_inside bounded
  unfold ChannelBuffer.advance at inside ⊢
  rw [idx_withIdx] at inside
  exact sound.withIdx inside

end

theorem readable_advance (count : Nat) :
    (buffer.advance count).readableContent = buffer.readableContent.drop count := by
  have reader := sound.reader_nonneg
  unfold readableContent
  rw [window_drop]
  simp only [content_advance, readerIdx_advance, writerIdx_advance]
  congr 1 <;> omega

section

variable {count : Nat} (bounded : count ≤ buffer.readableContent.length)

include bounded

theorem setReaderIndex :
    buffer.setReaderIndex (buffer.readerIdx + count) = .ok (buffer.advance count) := by
  have size := sound.readable_length
  have reader := sound.reader_nonneg
  unfold ChannelBuffer.setReaderIndex
  rw [if_neg (by omega)]
  rfl

/-- A sum of the reader index and a count of readable bytes does not wrap. -/
theorem int32_reader :
    int32 (buffer.readerIdx + count) = buffer.readerIdx + count := by
  have size := sound.readable_length
  have reader := sound.reader_nonneg
  have bound := sound.writer_le_maxInt
  exact int32_of_nonneg (by omega) (by omega)

end

/-- `getBytes` over the readable bytes copies them out. -/
theorem getBytes_readable {dst : CharArray} {dstIndex : Nat}
    (present : buffer.readableContent ≠ [])
    (target : dstIndex + buffer.readableContent.length ≤ dst.length)
    (small : (dst.length : Int) ≤ maxInt) :
    buffer.getters.getBytes buffer.readerIdx dst dstIndex buffer.readableContent.length =
      .ok (overwrite dst dstIndex buffer.readableContent) := by
  have size := sound.readable_length
  have reader := sound.reader_nonneg
  have bound := sound.writer_le_length
  have start : ((buffer.readerIdx.toNat : Nat) : Int) = buffer.readerIdx := by omega
  have amount : (buffer.writerIdx - buffer.readerIdx).toNat = buffer.readableContent.length := by
    omega
  rw [← start]
  rw [sound.serves.bytes _ _ dst dstIndex (List.length_pos_iff.mpr present) (by omega) target
    small]
  conv_rhs => unfold readableContent
  rw [amount]

end

end Sound

/-- What every dynamic buffer keeps: its cells are of its byte order, unless it holds the shared
empty buffer. -/
structure Queueing (endianness : ByteOrder) (buffer : HeapChannelBuffer) (idx : Indices) :
    Prop where
  ordered : buffer.byteOrder = endianness ∨ buffer.arry = []
  small : (buffer.arry.length : Int) ≤ maxInt
  inside : idx.Inside buffer.arry.length

theorem Queueing.sound {endianness factory : ByteOrder} {buffer : HeapChannelBuffer}
    {idx : Indices} (queueing : Queueing endianness buffer idx) :
    (dynamic endianness factory buffer idx).Sound :=
  dynamic_sound queueing.small queueing.ordered queueing.inside

/-- The cumulation of a frame decoder: a dynamic buffer of the factory's byte
order, whose capacity has only ever been doubled. -/
structure Growing (factory : ByteOrder) (buffer : HeapChannelBuffer) (idx : Indices) : Prop where
  power : ∃ exponent, exponent ≤ 30 ∧ buffer.arry.length = 2 ^ exponent
  ordered : buffer.byteOrder = factory
  inside : idx.Inside buffer.arry.length

section

variable {factory : ByteOrder} {buffer : HeapChannelBuffer} {idx : Indices}
  (growing : Growing factory buffer idx)

include growing

theorem Growing.limit : buffer.arry.length ≤ 1073741824 := by
  obtain ⟨exponent, bound, size⟩ := growing.power
  have below : 2 ^ exponent ≤ 2 ^ 30 := Nat.pow_le_pow_right (by decide) bound
  omega

theorem Growing.small : (buffer.arry.length : Int) ≤ maxInt := by
  have limit := growing.limit
  unfold maxInt
  omega

theorem Growing.filled : 0 < buffer.arry.length := by
  obtain ⟨exponent, -, size⟩ := growing.power
  rw [size]
  exact Nat.pow_pos (by decide)

theorem Growing.queueing : Queueing factory buffer idx :=
  ⟨Or.inl growing.ordered, growing.small, growing.inside⟩

end

def IsDynamic (factory : ByteOrder) (buffer : ChannelBuffer) : Prop :=
  ∃ heap idx, buffer = dynamic factory factory heap idx ∧ Growing factory heap idx

theorem IsDynamic.sound {factory : ByteOrder} {buffer : ChannelBuffer}
    (growing : buffer.IsDynamic factory) : buffer.Sound := by
  obtain ⟨heap, idx, rfl, shape⟩ := growing
  exact shape.queueing.sound

/-- Doubling stops at the first multiple that is large enough. -/
theorem growCapacity_enough (fuel : Nat) {newCapacity : Nat} {minNewCapacity : Int}
    (representable : (newCapacity : Int) ≤ maxInt) (bounded : minNewCapacity ≤ 1073741824)
    (reach : minNewCapacity ≤ ((newCapacity * 2 ^ fuel : Nat) : Int)) :
    ∃ doublings, growCapacity (fuel + 1) newCapacity minNewCapacity =
        .ok ((newCapacity * 2 ^ doublings : Nat) : Int) ∧
      minNewCapacity ≤ ((newCapacity * 2 ^ doublings : Nat) : Int) ∧
      ((newCapacity * 2 ^ doublings : Nat) : Int) ≤ maxInt := by
  induction fuel generalizing newCapacity with
  | zero =>
      rw [Nat.pow_zero, Nat.mul_one] at reach
      refine ⟨0, ?_, ?_, ?_⟩
      · rw [Nat.pow_zero, Nat.mul_one]
        unfold growCapacity
        rw [if_neg (by omega)]
        rfl
      · rw [Nat.pow_zero, Nat.mul_one]
        exact reach
      · rw [Nat.pow_zero, Nat.mul_one]
        exact representable
  | succ fuel ih =>
      by_cases short : (newCapacity : Int) < minNewCapacity
      · have limit : maxInt = 2147483647 := rfl
        have doubled : int32 ((newCapacity : Int) * 2) = ((newCapacity * 2 : Nat) : Int) := by
          rw [int32_of_nonneg (by omega) (by omega)]
          omega
        have onward : newCapacity * 2 ^ (fuel + 1) = newCapacity * 2 * 2 ^ fuel := by
          rw [Nat.pow_succ', Nat.mul_assoc]
        rw [onward] at reach
        have next : ((newCapacity * 2 : Nat) : Int) ≤ maxInt := by omega
        obtain ⟨doublings, ran, enough, small⟩ := ih next reach
        have shifted : newCapacity * 2 ^ (doublings + 1) = newCapacity * 2 * 2 ^ doublings := by
          rw [Nat.pow_succ', Nat.mul_assoc]
        refine ⟨doublings + 1, ?_, ?_, ?_⟩
        · rw [growCapacity, if_pos short, doubled, shifted]
          exact ran
        · rw [shifted]
          exact enough
        · rw [shifted]
          exact small
      · refine ⟨0, ?_, ?_, ?_⟩
        · rw [Nat.pow_zero, Nat.mul_one]
          unfold growCapacity
          rw [if_neg short]
          rfl
        · rw [Nat.pow_zero, Nat.mul_one]
          omega
        · rw [Nat.pow_zero, Nat.mul_one]
          exact representable

/-- Beyond the largest power of two of the range, the doubled capacity becomes
negative, then zero, and stays zero. -/
theorem growCapacity_never (fuel : Nat) {newCapacity minNewCapacity : Int}
    (doubled : (∃ exponent, exponent ≤ 30 ∧ newCapacity = ((2 ^ exponent : Nat) : Int)) ∨
      newCapacity = minInt ∨ newCapacity = 0)
    (beyond : 1073741824 < minNewCapacity) :
    growCapacity fuel newCapacity minNewCapacity = .error .diverges := by
  induction fuel generalizing newCapacity with
  | zero => rfl
  | succ fuel ih =>
      have short : newCapacity < minNewCapacity := by
        rcases doubled with ⟨exponent, low, rfl⟩ | rfl | rfl
        · have bound : 2 ^ exponent ≤ 2 ^ 30 := Nat.pow_le_pow_right (by decide) low
          omega
        · unfold minInt
          omega
        · omega
      rw [growCapacity, if_pos short]
      apply ih
      rcases doubled with ⟨exponent, low, rfl⟩ | rfl | rfl
      · rcases Nat.lt_or_eq_of_le low with less | full
        · left
          have half : 2 ^ exponent ≤ 2 ^ 29 := Nat.pow_le_pow_right (by decide) (by omega)
          have next : 2 ^ (exponent + 1) = 2 ^ exponent * 2 := Nat.pow_succ 2 exponent
          refine ⟨exponent + 1, by omega, ?_⟩
          rw [int32_of_nonneg (by omega) (by unfold maxInt; omega)]
          omega
        · right
          left
          subst full
          decide
      · right
        right
        decide
      · right
        right
        decide

/-- A fresh block takes over the cells in front of the writer index. -/
theorem allocate_copy (order : ByteOrder) (capacity count : Nat) (arry : CharArray)
    (source : ByteOrder) (positive : 0 < capacity) (fits : count ≤ capacity)
    (inside : count ≤ arry.length) (capacitySmall : (capacity : Int) ≤ maxInt)
    (small : (arry.length : Int) ≤ maxInt) :
    allocate order capacity = .ok ⟨order, List.replicate capacity 0, .zero⟩ ∧
      HeapChannelBuffer.setBytes ⟨order, List.replicate capacity 0, .zero⟩ 0
        (Getters.heap source arry) 0 count =
        .ok ⟨order, overwrite (List.replicate capacity 0) 0 (window arry 0 count), .zero⟩ := by
  constructor
  · unfold allocate
    rw [if_neg (by omega), if_neg (by omega), Int.toNat_natCast]
    rfl
  · unfold HeapChannelBuffer.setBytes
    simp only [Getters.heap]
    have copied : CharArray.copy (List.replicate capacity 0) (0 : Nat) arry (0 : Nat) count =
        .ok (overwrite (List.replicate capacity 0) 0 (window arry 0 count)) := by
      apply CharArray.copy_of_inside _ _ small
      · rw [List.length_replicate]
        exact capacitySmall
      · omega
      · rw [List.length_replicate]
        omega
    rw [Int.natCast_zero] at copied
    rw [copied, ok_bind]
    rfl

end ChannelBuffer

namespace BufferM

open ChannelBuffer

section Growth

variable {endianness factory : ByteOrder} {buffer : HeapChannelBuffer} {idx : Indices} {count : Nat}

variable {minWritableBytes : Int}

theorem ensureWritableBytes_short (short : ¬minWritableBytes ≤ (dynamic endianness factory buffer idx).writableBytes) :
    (ensureWritableBytes minWritableBytes).run (dynamic endianness factory buffer idx) = (do
      let newCapacity ← call (growCapacity growCapacityRounds
        ((max buffer.arry.length 1 : Nat) : Int) (int32 (idx.writerIdx + minWritableBytes)))
      let newBuffer ← call (allocate endianness newCapacity)
      let newBuffer ← call (newBuffer.setBytes 0 buffer.getters 0 idx.writerIdx)
      set (dynamic endianness factory
        { newBuffer with idx := { newBuffer.idx with writerIdx := idx.writerIdx } } idx) :
      BufferM Unit).run (dynamic endianness factory buffer idx) := by
  have start : (if (buffer.arry.length : Int) = 0 then 1 else (buffer.arry.length : Int)) =
      ((max buffer.arry.length 1 : Nat) : Int) := by
    split
    · omega
    · omega
  unfold ensureWritableBytes
  rw [run_bind_get]
  simp only
  rw [if_neg short, start]

/-- The loop has ended: the bytes in front of the writer index are copied over. -/
theorem ensureWritableBytes_copies {grown : Int}
    (small : (buffer.arry.length : Int) ≤ maxInt) (written : idx.writerIdx ≤ buffer.arry.length)
    (short : ¬minWritableBytes ≤ (dynamic endianness factory buffer idx).writableBytes)
    (nonneg : 0 ≤ idx.writerIdx)
    (ended : growCapacity growCapacityRounds ((max buffer.arry.length 1 : Nat) : Int)
      (int32 (idx.writerIdx + minWritableBytes)) = .ok grown)
    (larger : ((max buffer.arry.length 1 : Nat) : Int) ≤ grown) (upper : grown ≤ maxInt) :
    ∃ heap, (ensureWritableBytes minWritableBytes).run (dynamic endianness factory buffer idx) =
        .ok () (dynamic endianness factory heap idx) ∧
      heap.byteOrder = endianness ∧ (heap.arry.length : Int) = grown ∧
      window heap.arry 0 idx.writerIdx.toNat = window buffer.arry 0 idx.writerIdx.toNat := by
  obtain ⟨taken, kept⟩ : ∃ taken : Nat, idx.writerIdx = taken := ⟨idx.writerIdx.toNat, by omega⟩
  obtain ⟨newCapacity, rfl⟩ : ∃ newCapacity : Nat, grown = newCapacity :=
    ⟨grown.toNat, by omega⟩
  obtain ⟨fresh, copied⟩ := allocate_copy endianness newCapacity taken buffer.arry
    buffer.byteOrder (by omega) (by omega) (by omega) upper small
  have taken_window : (window buffer.arry 0 taken).length = taken := window_length (by omega)
  have cells_length : (overwrite (List.replicate newCapacity (0 : Byte)) 0
      (window buffer.arry 0 taken)).length = newCapacity := by
    rw [overwrite_length (by rw [taken_window, List.length_replicate]; omega),
      List.length_replicate]
  rw [ensureWritableBytes_short short, ended, run_bind_ok _ (run_call_ok _ _), fresh,
    run_bind_ok _ (run_call_ok _ _), kept]
  unfold HeapChannelBuffer.getters
  rw [copied, run_bind_ok _ (run_call_ok _ _)]
  refine ⟨_, rfl, rfl, ?_, ?_⟩
  · exact congrArg Nat.cast cells_length
  · have copy : window (overwrite (List.replicate newCapacity (0 : Byte)) 0
        (window buffer.arry 0 taken)) 0 (window buffer.arry 0 taken).length =
        window buffer.arry 0 taken := window_overwrite_same (Nat.zero_le _)
    rw [taken_window] at copy
    rw [Int.toNat_natCast]
    exact copy

section

variable (queueing : Queueing endianness buffer idx)

include queueing

theorem writableBytes_dynamic :
    (dynamic endianness factory buffer idx).writableBytes =
      buffer.arry.length - idx.writerIdx := by
  have reader := queueing.inside.reader
  have writer := queueing.inside.writer
  have bound := queueing.inside.bound
  have small := queueing.small
  have served : (dynamic endianness factory buffer idx).capacity = buffer.arry.length := by
    simp only [capacity, getters, HeapChannelBuffer.getters, Getters.heap]
  have written : (dynamic endianness factory buffer idx).writerIdx = idx.writerIdx := rfl
  unfold writableBytes
  rw [served, written, int32_of_nonneg (by omega) (by omega)]

/-- The two branches of the source. -/
theorem ensureWritableBytes_room (enough : idx.writerIdx + count ≤ buffer.arry.length) :
    (ensureWritableBytes count).run (dynamic endianness factory buffer idx) =
      .ok () (dynamic endianness factory buffer idx) := by
  have space : (dynamic endianness factory buffer idx).writableBytes = _ :=
    writableBytes_dynamic queueing
  unfold ensureWritableBytes
  rw [run_bind_get]
  simp only [space]
  rw [if_pos (by omega)]
  rfl

theorem no_room (short : (buffer.arry.length : Int) < idx.writerIdx + count) :
    ¬(count : Int) ≤ (dynamic endianness factory buffer idx).writableBytes := by
  rw [writableBytes_dynamic queueing]
  omega

/-- Up to 2^30 bytes there is room, and what was written stays. The capacity is doubled. -/
theorem ensureWritableBytes_run (bounded : idx.writerIdx + count ≤ 1073741824) :
    ∃ grown, (ensureWritableBytes count).run (dynamic endianness factory buffer idx) =
        .ok () (dynamic endianness factory grown idx) ∧
      Queueing endianness grown idx ∧
      idx.writerIdx + count ≤ grown.arry.length ∧
      window grown.arry 0 idx.writerIdx.toNat = window buffer.arry 0 idx.writerIdx.toNat ∧
      (grown = buffer ∨ grown.byteOrder = endianness ∧
        ∃ doublings, grown.arry.length = max buffer.arry.length 1 * 2 ^ doublings) := by
  have reader := queueing.inside.reader
  have writer := queueing.inside.writer
  have bound := queueing.inside.bound
  have small := queueing.small
  by_cases enough : idx.writerIdx + count ≤ buffer.arry.length
  · exact ⟨buffer, ensureWritableBytes_room queueing enough, queueing, enough, rfl, Or.inl rfl⟩
  · have limit : maxInt = 2147483647 := rfl
    have wanted : int32 (idx.writerIdx + count) = idx.writerIdx + count :=
      int32_of_nonneg (by omega) (by omega)
    have reach : idx.writerIdx + count ≤ ((max buffer.arry.length 1 * 2 ^ 32 : Nat) : Int) := by
      omega
    have start : ((max buffer.arry.length 1 : Nat) : Int) ≤ maxInt := by omega
    obtain ⟨doublings, ran, reached, fits⟩ := growCapacity_enough 32 start bounded reach
    generalize larger : max buffer.arry.length 1 * 2 ^ doublings = newCapacity at ran reached fits
    have ended : growCapacity growCapacityRounds ((max buffer.arry.length 1 : Nat) : Int)
        (int32 (idx.writerIdx + count)) = .ok (newCapacity : Int) := by
      rw [wanted]
      exact ran
    obtain ⟨grown, copied, ordered, size, kept⟩ : ∃ grown : HeapChannelBuffer, _ ∧ _ ∧
        (grown.arry.length : Int) = newCapacity ∧ _ :=
      ensureWritableBytes_copies small bound (no_room queueing (by omega)) (by omega) ended
        (by omega) fits
    refine ⟨grown, copied, ⟨Or.inl ordered, ?_, ⟨reader, writer, ?_⟩⟩, ?_, kept,
      Or.inr ⟨ordered, doublings, ?_⟩⟩
    · rw [size]
      exact fits
    · omega
    · omega
    · omega

end

/-- A power of two stays one. -/
theorem ensureWritableBytes_dynamic (growing : Growing endianness buffer idx)
    (bounded : idx.writerIdx + count ≤ 1073741824) :
    ∃ grown, (ensureWritableBytes count).run (dynamic endianness factory buffer idx) =
        .ok () (dynamic endianness factory grown idx) ∧
      Growing endianness grown idx ∧
      idx.writerIdx + count ≤ grown.arry.length ∧
      window grown.arry 0 idx.writerIdx.toNat = window buffer.arry 0 idx.writerIdx.toNat := by
  obtain ⟨grown, ran, shape, room, kept, same | ⟨ordered, doublings, size⟩⟩ :
      ∃ grown, (ensureWritableBytes count).run (dynamic endianness factory buffer idx) =
        .ok () (dynamic endianness factory grown idx) ∧ _ :=
    ensureWritableBytes_run growing.queueing bounded
  · rw [same] at ran room kept
    exact ⟨buffer, ran, growing, room, kept⟩
  · have filled := growing.filled
    have small := shape.small
    obtain ⟨exponent, -, started⟩ := growing.power
    rw [Nat.max_eq_left filled, started, ← Nat.pow_add] at size
    refine ⟨grown, ran, ⟨⟨exponent + doublings, ?_, size⟩, ordered, shape.inside⟩, room, kept⟩
    have below : 2 ^ (exponent + doublings) < 2 ^ 31 := by
      unfold maxInt at small
      omega
    have strict := (Nat.pow_lt_pow_iff_right (by decide)).mp below
    omega

end Growth

/-- Past 2^30 bytes the doubling never ends. -/
theorem ensureWritableBytes_never {factory : ByteOrder} {buffer : HeapChannelBuffer}
    {idx : Indices} {count : Nat} (growing : Growing factory buffer idx)
    (beyond : 1073741824 < idx.writerIdx + count)
    (representable : idx.writerIdx + count ≤ maxInt) :
    ∃ after, (ensureWritableBytes count).run (dynamic factory factory buffer idx) =
      .error .diverges after := by
  have limit := growing.limit
  have wanted : int32 (idx.writerIdx + count) = idx.writerIdx + count :=
    int32_of_nonneg (by omega) representable
  obtain ⟨exponent, low, size⟩ := growing.power
  have never : growCapacity growCapacityRounds ((max buffer.arry.length 1 : Nat) : Int)
      (idx.writerIdx + count) = .error .diverges := by
    rw [Nat.max_eq_left growing.filled]
    exact growCapacity_never growCapacityRounds (Or.inl ⟨exponent, low, by rw [size]⟩) beyond
  rw [ensureWritableBytes_short (no_room growing.queueing (by omega)), wanted, never,
    run_bind_error _ (run_call_error _ _)]
  exact ⟨_, rfl⟩

section Appending

variable {endianness factory : ByteOrder} {buffer grown : HeapChannelBuffer} {idx : Indices}
  {src : Getters} {srcIndex : Int} {bytes : CharArray}

/-- What a write leaves once there is room. -/
theorem writeFrom_room (queueing : Queueing endianness grown idx)
    (ensured : (ensureWritableBytes bytes.length).run (dynamic endianness factory buffer idx) =
      .ok () (dynamic endianness factory grown idx))
    (room : idx.writerIdx + bytes.length ≤ grown.arry.length)
    (copied : src.getBytes srcIndex grown.arry idx.writerIdx bytes.length =
      .ok (overwrite grown.arry idx.writerIdx.toNat bytes)) :
    (writeFrom src srcIndex bytes.length).run (dynamic endianness factory buffer idx) =
      .ok () (dynamic endianness factory
        { grown with arry := overwrite grown.arry idx.writerIdx.toNat bytes }
        { idx with writerIdx := idx.writerIdx + bytes.length }) := by
  have reader := queueing.inside.reader
  have writer := queueing.inside.writer
  have small := queueing.small
  have wrote : (dynamic endianness factory grown idx).setBytes idx.writerIdx src srcIndex
      bytes.length = .ok (dynamic endianness factory
        { grown with arry := overwrite grown.arry idx.writerIdx.toNat bytes } idx) := by
    rw [setBytes, HeapChannelBuffer.setBytes, copied]
    rfl
  have sum : int32 (idx.writerIdx + bytes.length) = idx.writerIdx + bytes.length :=
    int32_of_nonneg (by omega) (by omega)
  unfold writeFrom
  rw [run_bind_get]
  rw [run_bind_ok _ ensured, run_bind_get]
  have target : (dynamic endianness factory grown idx).writerIdx = idx.writerIdx := rfl
  simp only [target]
  rw [wrote, run_bind_ok _ (run_call_ok _ _)]
  have written : (dynamic endianness factory
      { grown with arry := overwrite grown.arry idx.writerIdx.toNat bytes } idx).writerIdx =
      idx.writerIdx := rfl
  rw [written, sum]
  rfl

/-- The cells behind the reader and in front of the new writer index. -/
theorem appended_queueing (queueing : Queueing endianness grown idx)
    (room : idx.writerIdx + bytes.length ≤ grown.arry.length) :
    Queueing endianness { grown with arry := overwrite grown.arry idx.writerIdx.toNat bytes }
      { idx with writerIdx := idx.writerIdx + bytes.length } ∧
    (overwrite grown.arry idx.writerIdx.toNat bytes).length = grown.arry.length ∧
    window (overwrite grown.arry idx.writerIdx.toNat bytes) 0
        (idx.writerIdx.toNat + bytes.length) =
      window grown.arry 0 idx.writerIdx.toNat ++ bytes := by
  have reader := queueing.inside.reader
  have writer := queueing.inside.writer
  have size : (overwrite grown.arry idx.writerIdx.toNat bytes).length = grown.arry.length :=
    overwrite_length (by omega)
  refine ⟨⟨?_, ?_, reader, ?_, ?_⟩, size, ?_⟩
  · rcases queueing.ordered with same | empty
    · exact Or.inl same
    · right
      rw [← List.length_eq_zero_iff]
      change (overwrite grown.arry idx.writerIdx.toNat bytes).length = 0
      rw [size, empty]
      rfl
  · change ((overwrite grown.arry idx.writerIdx.toNat bytes).length : Int) ≤ maxInt
    rw [size]
    exact queueing.small
  · change idx.readerIdx ≤ idx.writerIdx + bytes.length
    omega
  · change idx.writerIdx + bytes.length ≤ (overwrite grown.arry idx.writerIdx.toNat bytes).length
    rw [size]
    exact room
  · have extended : window (overwrite grown.arry (0 + idx.writerIdx.toNat) bytes) 0
        (idx.writerIdx.toNat + bytes.length) =
        window grown.arry 0 idx.writerIdx.toNat ++ bytes := window_overwrite_extend (by omega)
    rwa [Nat.zero_add] at extended

theorem writeFrom_dynamic (growing : Growing endianness buffer idx)
    (bounded : idx.writerIdx + bytes.length ≤ 1073741824)
    (copies : ∀ (dst : CharArray) (dstIndex : Nat), dstIndex + bytes.length ≤ dst.length →
      (dst.length : Int) ≤ maxInt →
      src.getBytes srcIndex dst dstIndex bytes.length = .ok (overwrite dst dstIndex bytes)) :
    ∃ written, (writeFrom src srcIndex bytes.length).run (dynamic endianness factory buffer idx) =
        .ok () (dynamic endianness factory written
          { idx with writerIdx := idx.writerIdx + bytes.length }) ∧
      Growing endianness written { idx with writerIdx := idx.writerIdx + bytes.length } ∧
      window written.arry 0 (idx.writerIdx.toNat + bytes.length) =
        window buffer.arry 0 idx.writerIdx.toNat ++ bytes := by
  obtain ⟨grown, ensured, shape, room, kept⟩ := ensureWritableBytes_dynamic growing bounded
  have reader := growing.inside.reader
  have writer := growing.inside.writer
  have copied := copies grown.arry idx.writerIdx.toNat (by omega) shape.small
  rw [Int.toNat_of_nonneg (by omega)] at copied
  obtain ⟨queueing, size, extended⟩ := appended_queueing shape.queueing room
  rw [kept] at extended
  refine ⟨_, writeFrom_room shape.queueing ensured room copied, ⟨?_, shape.ordered,
    queueing.inside⟩, extended⟩
  change ∃ exponent, exponent ≤ 30 ∧
    (overwrite grown.arry idx.writerIdx.toNat bytes).length = 2 ^ exponent
  rw [size]
  exact shape.power

/-- The readable bytes once cells were appended. -/
theorem appended_readable {written : HeapChannelBuffer} (inside : idx.Inside buffer.arry.length)
    (extended : window written.arry 0 (idx.writerIdx.toNat + bytes.length) =
      window buffer.arry 0 idx.writerIdx.toNat ++ bytes) :
    (dynamic endianness factory written
        { idx with writerIdx := idx.writerIdx + bytes.length }).readableContent =
      (dynamic endianness factory buffer idx).readableContent ++ bytes := by
  have reader := inside.reader
  have writer := inside.writer
  have bound := inside.bound
  obtain ⟨start, front⟩ : ∃ start : Nat, idx.readerIdx = start :=
    ⟨idx.readerIdx.toNat, by omega⟩
  obtain ⟨count, back⟩ : ∃ count : Nat, idx.writerIdx = (start + count : Nat) :=
    ⟨(idx.writerIdx - idx.readerIdx).toNat, by omega⟩
  rw [back, Int.toNat_natCast] at extended
  have tail := window_extend_drop extended (by omega)
  have before : (((start + count : Nat) : Int) - start).toNat = count := by omega
  have after : (((start + count : Nat) : Int) + bytes.length - start).toNat =
      count + bytes.length := by omega
  simp only [readableContent, content, readerIdx, writerIdx, ChannelBuffer.idx, front, back]
    at tail after ⊢
  rw [Int.toNat_natCast, before, after]
  exact tail

end Appending

/-- Appending to the cumulation: the readable bytes of the source follow those
that were already readable, and the source is drained. -/
theorem writeBytes_dynamic {factory : ByteOrder} {buffer src : ChannelBuffer}
    (growing : buffer.IsDynamic factory) (sound : src.Sound) (present : src.readableContent ≠ [])
    (bounded : buffer.writerIdx + src.readableContent.length ≤ 1073741824) :
    ∃ written, (writeBytes src).run buffer =
        .ok (src.advance src.readableContent.length) written ∧
      written.IsDynamic factory ∧
      written.readableContent = buffer.readableContent ++ src.readableContent ∧
      written.readerIdx = buffer.readerIdx ∧
      written.writerIdx = buffer.writerIdx + src.readableContent.length := by
  obtain ⟨heap, idx, rfl, shape⟩ := growing
  obtain ⟨grown, wrote, grown_shape, extended⟩ := writeFrom_dynamic shape bounded
    (fun dst dstIndex target small => sound.getBytes_readable present target small)
  have moved := sound.setReaderIndex (Nat.le_refl src.readableContent.length)
  have stepped := sound.int32_reader (Nat.le_refl src.readableContent.length)
  refine ⟨_, ?_, ⟨grown, _, rfl, grown_shape⟩, appended_readable shape.inside extended, rfl, rfl⟩
  unfold writeBytes
  simp only [sound.readableBytes_eq, stepped]
  rw [run_bind_ok _ wrote, moved, run_call_ok]

/-- How appending past 2^30 bytes ends. -/
def Refusal (stop : Stop) : Prop :=
  stop = .diverges ∨ stop = .outOfBounds ∨ stop = rangeException ""

/-- The sum of the indices wraps, the capacity stays, and the copy leaves the block. -/
theorem writeFrom_wraps {factory : ByteOrder} {buffer : HeapChannelBuffer} {idx : Indices}
    {src : Getters} {srcIndex : Int} {count : Nat} (growing : Growing factory buffer idx)
    (beyond : maxInt < idx.writerIdx + count) (small : (count : Int) ≤ maxInt)
    (overrun : ∀ (dst : CharArray) (dstIndex : Nat), dst.length < dstIndex + count →
      (dst.length : Int) ≤ maxInt →
      ∃ stop, src.getBytes srcIndex dst dstIndex count = .error stop ∧
        (stop = .outOfBounds ∨ stop = rangeException "")) :
    ∃ stop after, (writeFrom src srcIndex count).run (dynamic factory factory buffer idx) =
      .error stop after ∧ Refusal stop := by
  have reader := growing.inside.reader
  have writer := growing.inside.writer
  have bound := growing.inside.bound
  have limit := growing.limit
  have top : maxInt = 2147483647 := rfl
  have wrapped : int32 (idx.writerIdx + count) = idx.writerIdx + count - 4294967296 :=
    int32_of_overflow beyond (by omega)
  obtain ⟨exponent, low, size⟩ := growing.power
  have positive : 0 < 2 ^ exponent := Nat.pow_pos (by decide)
  have stays : growCapacity growCapacityRounds ((max buffer.arry.length 1 : Nat) : Int)
      (idx.writerIdx + count - 4294967296) = .ok (buffer.arry.length : Int) := by
    rw [Nat.max_eq_left growing.filled]
    unfold growCapacityRounds growCapacity
    rw [if_neg (by omega)]
    rfl
  obtain ⟨taken, kept⟩ : ∃ taken : Nat, idx.writerIdx = taken :=
    ⟨idx.writerIdx.toNat, by omega⟩
  obtain ⟨fresh, copied⟩ := allocate_copy factory buffer.arry.length taken buffer.arry
    buffer.byteOrder (by omega) (by omega) (by omega) growing.small growing.small
  let moved : CharArray := overwrite (List.replicate buffer.arry.length 0) 0
    (window buffer.arry 0 taken)
  have moved_length : moved.length = buffer.arry.length := by
    have taken_window : (window buffer.arry 0 taken).length = taken := window_length (by omega)
    rw [overwrite_length (by rw [taken_window, List.length_replicate]; omega),
      List.length_replicate]
  let remade : HeapChannelBuffer := ⟨factory, moved, { Indices.zero with writerIdx := taken }⟩
  have ensured : (ensureWritableBytes count).run (dynamic factory factory buffer idx) =
      .ok () (dynamic factory factory remade idx) := by
    rw [ensureWritableBytes_short (no_room growing.queueing (by omega)), wrapped, stays,
      run_bind_ok _ (run_call_ok _ _), fresh, run_bind_ok _ (run_call_ok _ _), kept]
    unfold HeapChannelBuffer.getters
    rw [copied, run_bind_ok _ (run_call_ok _ _)]
    rfl
  obtain ⟨stop, refused, kind⟩ := overrun moved taken (by rw [moved_length]; omega)
    (by rw [moved_length]; exact growing.small)
  have failed : (dynamic factory factory remade idx).setBytes taken src srcIndex count =
      .error stop := by
    rw [setBytes, HeapChannelBuffer.setBytes, refused]
    rfl
  refine ⟨stop, dynamic factory factory remade idx, ?_, ?_⟩
  · unfold writeFrom
    rw [run_bind_get]
    rw [run_bind_ok _ ensured, run_bind_get]
    have target : (dynamic factory factory remade idx).writerIdx = taken := kept
    simp only [target]
    rw [failed, run_bind_error _ (run_call_error _ _)]
  · rcases kind with outside | ranged
    · exact Or.inr (Or.inl outside)
    · exact Or.inr (Or.inr ranged)

/-- The cumulation cannot take in more than 2^30 bytes. -/
theorem writeBytes_beyond {factory : ByteOrder} {buffer src : ChannelBuffer}
    (growing : buffer.IsDynamic factory) (sound : src.Sound)
    (beyond : 1073741824 < buffer.writerIdx + src.readableContent.length) :
    ∃ stop after, (writeBytes src).run buffer = .error stop after ∧ Refusal stop := by
  obtain ⟨heap, idx, rfl, shape⟩ := growing
  have size := sound.readable_length
  have start := sound.reader_nonneg
  have bound := sound.writer_le_length
  have top := sound.writer_le_maxInt
  have limit : maxInt = 2147483647 := rfl
  have written : (dynamic factory factory heap idx).writerIdx = idx.writerIdx := rfl
  rw [written] at beyond
  unfold writeBytes
  simp only [sound.readableBytes_eq]
  by_cases representable : idx.writerIdx + src.readableContent.length ≤ maxInt
  · obtain ⟨after, never⟩ := ensureWritableBytes_never shape beyond representable
    refine ⟨.diverges, after, ?_, Or.inl rfl⟩
    rw [run_bind_error]
    unfold writeFrom
    rw [run_bind_get]
    rw [run_bind_error _ never]
  · have overrun : ∀ (dst : CharArray) (dstIndex : Nat),
        dst.length < dstIndex + src.readableContent.length → (dst.length : Int) ≤ maxInt →
        ∃ stop, src.getters.getBytes src.readerIdx dst dstIndex src.readableContent.length =
          .error stop ∧ (stop = .outOfBounds ∨ stop = rangeException "") := by
      intro dst dstIndex past dstSmall
      have overrun := sound.serves.overrun src.readerIdx.toNat src.readableContent.length dst
        dstIndex (by omega) past dstSmall
      rwa [Int.toNat_of_nonneg start] at overrun
    obtain ⟨stop, after, refused, kind⟩ := writeFrom_wraps shape (by omega) (by omega) overrun
    exact ⟨stop, after, run_bind_error _ refused, kind⟩

/-- Dropping the bytes already read keeps the readable ones. -/
theorem discardReadBytes_run {endianness factory : ByteOrder} {heap : HeapChannelBuffer}
    {idx : Indices} (queueing : Queueing endianness heap idx) :
    ∃ moved after, discardReadBytes.run (dynamic endianness factory heap idx) =
        .ok () (dynamic endianness factory moved after) ∧
      Queueing endianness moved after ∧
      moved.byteOrder = heap.byteOrder ∧ moved.arry.length = heap.arry.length ∧
      (dynamic endianness factory moved after).readableContent =
        (dynamic endianness factory heap idx).readableContent ∧
      after.readerIdx = 0 ∧
      after.writerIdx = (dynamic endianness factory heap idx).readableContent.length := by
  have sound : (dynamic endianness factory heap idx).Sound := queueing.sound
  have size := sound.readable_length
  have reader := queueing.inside.reader
  have bound := queueing.inside.bound
  have small := queueing.small
  have limit : maxInt = 2147483647 := rfl
  have read : (dynamic endianness factory heap idx).readerIdx = idx.readerIdx := rfl
  have written : (dynamic endianness factory heap idx).writerIdx = idx.writerIdx := rfl
  rw [read, written] at size
  by_cases front : idx.readerIdx = 0
  · refine ⟨heap, idx, ?_, queueing, rfl, rfl, rfl, front, by omega⟩
    unfold discardReadBytes
    rw [run_bind_get]
    simp only [read]
    rw [if_pos front]
    rfl
  · by_cases drained : idx.readerIdx = idx.writerIdx
    · have blank : (dynamic endianness factory heap idx).readableContent = [] := by
        rw [← List.length_eq_zero_iff]
        omega
      refine ⟨heap, { idx with readerIdx := 0, writerIdx := 0 }, ?_,
        ⟨queueing.ordered, small, ⟨Int.le_refl _, Int.le_refl _, Int.natCast_nonneg _⟩⟩, rfl, rfl,
        ?_, rfl, ?_⟩
      · unfold discardReadBytes
        rw [run_bind_get]
        simp only [read, written]
        rw [if_neg front, if_pos drained]
        rfl
      · rw [blank]
        simp [readableContent, readerIdx, writerIdx, ChannelBuffer.idx]
      · rw [blank]
        rfl
    · obtain ⟨start, left⟩ : ∃ start : Nat, idx.readerIdx = start :=
        ⟨idx.readerIdx.toNat, by omega⟩
      obtain ⟨count, right⟩ : ∃ count : Nat, idx.writerIdx = (start + count : Nat) :=
        ⟨(idx.writerIdx - idx.readerIdx).toNat, by omega⟩
      have amount : int32 (idx.writerIdx - idx.readerIdx) = count := by
        rw [int32_of_nonneg (by omega) (by omega)]
        omega
      have taken : (window heap.arry start count).length = count := window_length (by omega)
      have room : (overwrite heap.arry 0 (window heap.arry start count)).length =
          heap.arry.length := overwrite_length (by omega)
      have copied : CharArray.copy heap.arry (0 : Nat) heap.arry start count =
          .ok (overwrite heap.arry 0 (window heap.arry start count)) :=
        CharArray.copy_of_inside (by omega) (by omega) small small
      have moved : (dynamic endianness factory heap idx).setBytes 0
          (dynamic endianness factory heap idx).getters idx.readerIdx count =
          .ok (dynamic endianness factory
            { heap with arry := overwrite heap.arry 0 (window heap.arry start count) } idx) := by
        rw [setBytes, HeapChannelBuffer.setBytes]
        simp only [getters, HeapChannelBuffer.getters, Getters.heap, left]
        rw [Int.natCast_zero] at copied
        rw [copied]
        rfl
      have shown : (dynamic endianness factory heap idx).readableContent =
          window heap.arry start count := by
        have gap : (((start + count : Nat) : Int) - start).toNat = count := by omega
        simp only [readableContent, content, readerIdx, writerIdx, ChannelBuffer.idx, left, right,
          gap, Int.toNat_natCast]
      let relocate : Int → Int := fun marked =>
        if 0 < int32 (marked - idx.readerIdx) then int32 (marked - idx.readerIdx) else 0
      refine ⟨{ heap with arry := overwrite heap.arry 0 (window heap.arry start count) },
        { readerIdx := 0
          writerIdx := count
          markedReaderIndex := relocate idx.markedReaderIndex
          markedWriterIndex := relocate idx.markedWriterIndex }, ?_, ⟨?_, ?_, ?_⟩, rfl, room, ?_,
        rfl, ?_⟩
      · unfold discardReadBytes
        rw [run_bind_get]
        simp only [read, written, amount]
        rw [if_neg front, if_neg drained, moved, run_bind_ok _ (run_call_ok _ _)]
        rfl
      · rcases queueing.ordered with same | empty
        · exact Or.inl same
        · rw [empty, List.length_nil] at bound
          omega
      · change ((overwrite heap.arry 0 (window heap.arry start count)).length : Int) ≤ maxInt
        rw [room]
        exact small
      · refine ⟨Int.le_refl _, Int.natCast_nonneg _, ?_⟩
        rw [room]
        change (count : Int) ≤ _
        omega
      · have copy : window (overwrite heap.arry 0 (window heap.arry start count)) 0
            (window heap.arry start count).length = window heap.arry start count :=
          window_overwrite_same (Nat.zero_le _)
        rw [taken] at copy
        rw [shown]
        simp only [readableContent, content, readerIdx, writerIdx, ChannelBuffer.idx, Int.sub_zero,
          Int.toNat_natCast, Int.toNat_zero]
        exact copy
      · rw [shown, taken]

theorem discardReadBytes_dynamic {factory : ByteOrder} {buffer : ChannelBuffer}
    (growing : buffer.IsDynamic factory) :
    ∃ moved, discardReadBytes.run buffer = .ok () moved ∧
      moved.IsDynamic factory ∧
      moved.readableContent = buffer.readableContent ∧
      moved.readerIdx = 0 ∧
      moved.writerIdx = buffer.readableContent.length := by
  obtain ⟨heap, idx, rfl, shape⟩ := growing
  obtain ⟨moved, after, ran, queueing, ordered, size, same, front, back⟩ :
      ∃ moved after, discardReadBytes.run (dynamic factory factory heap idx) =
        .ok () (dynamic factory factory moved after) ∧ _ :=
    discardReadBytes_run shape.queueing
  refine ⟨dynamic factory factory moved after, ran,
    ⟨moved, after, rfl, ⟨?_, ?_, queueing.inside⟩⟩, same, front, back⟩
  · rw [size]
    exact shape.power
  · rw [ordered]
    exact shape.ordered

section Reading

variable {buffer : ChannelBuffer} {count : Nat}

section

variable (sound : buffer.Sound) (bounded : count ≤ buffer.readableContent.length)

include sound bounded

theorem skipBytes_run :
    (skipBytes count).run buffer = .ok () (buffer.advance count) := by
  have size := sound.readable_length
  unfold skipBytes
  rw [run_bind_get]
  rw [sound.int32_reader bounded, if_neg (by omega)]
  rfl

theorem readerIndex_run :
    (readerIndex (buffer.readerIdx + count)).run buffer = .ok () (buffer.advance count) := by
  unfold readerIndex
  rw [run_bind_get]
  rw [sound.setReaderIndex bounded, run_bind_ok _ (run_call_ok _ _)]
  rfl

theorem checkReadableBytes_run :
    (checkReadableBytes count).run buffer = .ok () buffer := by
  unfold checkReadableBytes
  rw [run_bind_get]
  rw [sound.readableBytes_eq, if_neg (by omega)]
  rfl

end

theorem readTyped_run {Value : Type} {get_ : Getters → Int → Except Stop Value} {value : Value}
    (sound : buffer.Sound) (bounded : count ≤ buffer.readableContent.length)
    (got : get_ buffer.getters buffer.readerIdx = .ok value) :
    (readTyped count get_).run buffer = .ok value (buffer.advance count) := by
  unfold readTyped
  rw [run_bind_ok _ (checkReadableBytes_run sound bounded), run_bind_get]
  rw [got, run_bind_ok _ (run_call_ok _ _), sound.int32_reader bounded]
  rfl

theorem readByte_run (sound : buffer.Sound) (present : 0 < buffer.readableContent.length) :
    readByte.run buffer =
      .ok (buffer.content.getD buffer.readerIdx.toNat 0) (buffer.advance 1) := by
  have size := sound.readable_length
  have start := sound.reader_nonneg
  have bound := sound.writer_le_length
  have moved : int32 (buffer.readerIdx + (1 : Nat)) = buffer.readerIdx + (1 : Nat) :=
    sound.int32_reader present
  rw [Int.natCast_one] at moved
  have got := sound.serves.byte buffer.readerIdx.toNat (by omega)
  rw [Int.toNat_of_nonneg start] at got
  unfold readByte
  rw [run_bind_get]
  rw [if_neg (by omega), moved]
  change (call (buffer.getters.getByte buffer.readerIdx) : BufferM Byte).run _ = _
  rw [got]
  rfl

/-- Both indices moved back to the front, as by a read that drains the buffer. -/
def compacted (buffer : ChannelBuffer) : ChannelBuffer :=
  buffer.withIdx { buffer.idx with readerIdx := 0, writerIdx := 0 }

theorem compacted_readable (buffer : ChannelBuffer) : (compacted buffer).readableContent = [] := by
  simp [compacted, readableContent]

theorem compacted_readerIdx (buffer : ChannelBuffer) : (compacted buffer).readerIdx = 0 := by
  simp [compacted]

theorem compacted_writerIdx (buffer : ChannelBuffer) : (compacted buffer).writerIdx = 0 := by
  simp [compacted, writerIdx]

theorem compacted_sound (sound : buffer.Sound) : (compacted buffer).Sound :=
  sound.withIdx ⟨Int.le_refl _, Int.le_refl _, Int.natCast_nonneg _⟩

/-- The buffer `readBytes(int)` returns. -/
def copyOf (order : ByteOrder) (bytes : CharArray) : ChannelBuffer :=
  .heap ⟨order, bytes, { Indices.zero with writerIdx := bytes.length }⟩

theorem copyOf_shows (order : ByteOrder) (bytes : CharArray) :
    (copyOf order bytes).readableContent = bytes := by
  simp [copyOf, readableContent, content, readerIdx, writerIdx, ChannelBuffer.idx, Indices.zero]

theorem readBytes_run (sound : buffer.Sound) (positive : 0 < count)
    (bounded : count ≤ buffer.readableContent.length) :
    (readBytes count).run buffer = .ok (copyOf buffer.order (buffer.readableContent.take count))
      (if count = buffer.readableContent.length then compacted buffer
        else buffer.advance count) := by
  have size := sound.readable_length
  have start := sound.reader_nonneg
  have bound := sound.writer_le_length
  have small := sound.serves.small
  have limit : maxInt = 2147483647 := rfl
  let cells : CharArray := List.replicate count 0
  have cells_length : cells.length = count := List.length_replicate
  have made : allocate buffer.order count = .ok ⟨buffer.order, cells, .zero⟩ := by
    unfold allocate
    rw [if_neg (by omega), if_neg (by omega), Int.toNat_natCast]
    rfl
  have taken : window buffer.content buffer.readerIdx.toNat count =
      buffer.readableContent.take count := by
    unfold readableContent
    rw [window_take]
    omega
  have taken_length : (buffer.readableContent.take count).length = count := by
    rw [List.length_take]
    omega
  have got : buffer.getters.getBytes buffer.readerIdx cells (0 : Nat) count =
      .ok (buffer.readableContent.take count) := by
    have served := sound.serves.bytes buffer.readerIdx.toNat count cells 0 positive (by omega)
      (by omega) (by omega)
    rw [Int.toNat_of_nonneg start, taken, overwrite_whole (by rw [cells_length, taken_length])]
      at served
    exact served
  have filled : HeapChannelBuffer.setBytes ⟨buffer.order, cells, .zero⟩ 0 buffer.getters
      buffer.readerIdx count =
      .ok ⟨buffer.order, buffer.readableContent.take count, .zero⟩ := by
    rw [Int.natCast_zero] at got
    unfold HeapChannelBuffer.setBytes
    rw [got]
    rfl
  have written : int32 (0 + (count : Int)) = ((buffer.readableContent.take count).length : Int) := by
    rw [taken_length, Int.zero_add]
    exact int32_of_nonneg (by omega) (by omega)
  unfold readBytes
  rw [if_neg (by omega), run_bind_ok _ (checkReadableBytes_run sound bounded), run_bind_get]
  rw [made, run_bind_ok _ (run_call_ok _ _)]
  simp only [Indices.zero] at filled ⊢
  rw [filled, run_bind_ok _ (run_call_ok _ _), sound.int32_reader bounded, written]
  by_cases drained : count = buffer.readableContent.length
  · rw [if_pos (by omega), if_pos drained]
    rfl
  · rw [if_neg (by omega), if_neg drained]
    rfl

theorem readSlice_run (sound : buffer.Sound) (bounded : count ≤ buffer.readableContent.length) :
    ∃ part, (readSlice count).run buffer = .ok part (buffer.advance count) ∧
      part.Shows (buffer.readableContent.take count) := by
  have size := sound.readable_length
  have start := sound.reader_nonneg
  have bound := sound.writer_le_length
  have within : buffer.readerIdx.toNat + count ≤ buffer.content.length := by omega
  obtain ⟨part, cut, shown⟩ := sound.slice within
  rw [Int.toNat_of_nonneg start] at cut
  have taken : window buffer.content buffer.readerIdx.toNat count =
      buffer.readableContent.take count := by
    unfold readableContent
    rw [window_take]
    omega
  rw [taken] at shown
  refine ⟨part, ?_, shown⟩
  unfold readSlice
  rw [run_bind_get]
  rw [cut, run_bind_ok _ (run_call_ok _ _), sound.int32_reader bounded]
  rfl

theorem readAllSlice_run (sound : buffer.Sound) :
    ∃ part, readAllSlice.run buffer = .ok part (compacted buffer) ∧
      part.Shows buffer.readableContent := by
  obtain ⟨part, ran, shown⟩ := readSlice_run sound (Nat.le_refl buffer.readableContent.length)
  rw [List.take_length] at shown
  refine ⟨part, ?_, shown⟩
  unfold readAllSlice
  rw [run_bind_get]
  rw [sound.readableBytes_eq, run_bind_ok _ ran, EStateM.run_bind, EStateM.run_modify]
  simp only [EStateM.run_pure, compacted, advance, withIdx_withIdx, idx_withIdx]

end Reading

end BufferM

end Cetty
