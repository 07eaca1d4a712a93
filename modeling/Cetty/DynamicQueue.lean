import Cetty.BufferFailures

/-!
# The dynamic buffer as a byte queue

What every write, every read and `discardReadBytes` do to the unread bytes of a dynamic buffer,
whatever its capacity is when they begin, and what a run of them makes of the bytes written.
-/

namespace Cetty

open MachineInt ByteWindow

namespace TypedValue

/-- The number a setter stores: the low bytes of its argument. -/
def stored : TypedValue → Nat
  | byte value => value.toNat % 2 ^ 8
  | short value => value.toNat % 2 ^ 16
  | medium value => value.toNat % 2 ^ 24
  | int value => value.toNat
  | long value => value.toNat

theorem part_toNat {bits : Nat} (value : BitVec bits) (shift : Nat) :
    (part value shift).toNat = value.toNat / 2 ^ shift % 256 := by
  unfold part
  rw [BitVec.extractLsb'_toNat, Nat.shiftRight_eq_div_pow]

theorem number_bytes (order : ByteOrder) (value : TypedValue) :
    order.number (value.bytes order) = value.stored := by
  cases order with
  | big =>
      cases value with
      | long value =>
          have bound := value.isLt
          simp only [bytes, ByteOrder.number, List.foldl_cons, List.foldl_nil, part_toNat, stored]
          omega
      | int value =>
          have bound := value.isLt
          simp only [bytes, ByteOrder.number, List.foldl_cons, List.foldl_nil, part_toNat, stored]
          omega
      | _ value =>
          simp only [bytes, ByteOrder.number, List.foldl_cons, List.foldl_nil, part_toNat, stored]
          omega
  | little =>
      cases value with
      | long value =>
          have bound := value.isLt
          simp only [bytes, ByteOrder.number, List.foldr_cons, List.foldr_nil, part_toNat, stored]
          omega
      | int value =>
          have bound := value.isLt
          simp only [bytes, ByteOrder.number, List.foldr_cons, List.foldr_nil, part_toNat, stored]
          omega
      | _ value =>
          simp only [bytes, ByteOrder.number, List.foldr_cons, List.foldr_nil, part_toNat, stored]
          omega

/-- The bytes of a value are the cells that hold its number. -/
theorem bytes_of_number (order : ByteOrder) (value : TypedValue) {cells : List Byte}
    (size : cells.length = value.width) (same : value.stored = order.number cells) :
    value.bytes order = cells := by
  apply number_injective order
  · rw [bytes_length, size]
  · rw [number_bytes, same]

end TypedValue

/-- A typed read of the queue. -/
inductive TypedRead where
  | byte
  | short
  | medium
  | int
  | long
  deriving DecidableEq, Repr

namespace TypedRead

def width : TypedRead → Nat
  | byte => 1
  | short => 2
  | medium => 3
  | int => 4
  | long => 8

/-- `readByte`, `readShort`, `readUnsignedMedium`, `readInt` and `readLong`. -/
def read : TypedRead → BufferM TypedValue
  | byte => do return .byte ((← BufferM.readByte).setWidth 32)
  | short => do return .short ((← BufferM.readShort).setWidth 32)
  | medium => do return .medium (← BufferM.readUnsignedMedium)
  | int => do return .int (← BufferM.readInt)
  | long => do return .long (← BufferM.readLong)

end TypedRead

/-- What `writeBytes` copies from: a range of an array or of a buffer. -/
structure Source where
  getters : Getters
  content : CharArray
  serves : getters.Serves content
  srcIndex : Nat
  length : Nat
  within : srcIndex + length ≤ content.length

namespace Source

def bytes (source : Source) : List Byte := window source.content source.srcIndex source.length

@[simp] theorem bytes_length (source : Source) : source.bytes.length = source.length :=
  window_length source.within

end Source

/-- The calls of a queue. -/
inductive QueueCall where
  | write (value : TypedValue)
  | writeBytes (source : Source)
  | writeZero (length : Int)
  | read (kind : TypedRead)
  | readBytes (length : Int)
  | readArray (dst : CharArray) (small : (dst.length : Int) ≤ maxInt) (dstIndex length : Int)
  | readSlice (length : Nat)
  | readAllSlice
  | discardReadBytes

namespace QueueCall

/-- The bytes a call puts behind the unread ones. -/
def written (order : ByteOrder) : QueueCall → List Byte
  | write value => value.bytes order
  | writeBytes source => source.bytes
  | writeZero length => List.replicate length.toNat 0
  | _ => []

/-- The call, with the bytes it hands out. -/
def perform : QueueCall → BufferM (List Byte)
  | write value => do
      BufferM.writeTyped value
      pure []
  | writeBytes source => do
      BufferM.writeFrom source.getters source.srcIndex source.length
      pure []
  | writeZero length => do
      BufferM.writeZero length
      pure []
  | read kind => do
      let order := (← get).order
      let value ← kind.read
      pure (value.bytes order)
  | readBytes length => do
      let part ← BufferM.readBytes length
      pure part.readableContent
  | readArray dst _ dstIndex length => do
      let filled ← BufferM.readArray dst dstIndex length
      pure (window filled dstIndex.toNat length.toNat)
  | readSlice length => do
      let part ← BufferM.readSlice length
      pure part.readableContent
  | readAllSlice => do
      let part ← BufferM.readAllSlice
      pure part.readableContent
  | discardReadBytes => do
      BufferM.discardReadBytes
      pure []

/-- How many bytes a call asks for. -/
def asked (readable : Nat) : QueueCall → Nat
  | read kind => kind.width
  | readBytes length => length.toNat
  | readArray _ _ _ length => length.toNat
  | readSlice length => length
  | readAllSlice => readable
  | _ => 0

/-- Whether the arguments are such that the call does not throw. -/
def Fits (readable : Nat) : QueueCall → Prop
  | writeBytes source => 0 < source.length
  | writeZero length => 0 ≤ length
  | read kind => kind.width ≤ readable
  | readBytes length => 0 ≤ length ∧ length ≤ readable
  | readArray dst _ dstIndex length => 0 ≤ length ∧ length ≤ readable ∧ 0 ≤ dstIndex ∧
      dstIndex + length ≤ dst.length
  | readSlice length => length ≤ readable
  | _ => True

/-- `readSlice(int)` moves the reader index by whatever it is given; the others check. -/
def Allowed (readable : Nat) : QueueCall → Prop
  | readSlice length => length ≤ readable
  | _ => True

end QueueCall

/-- The constructor `DynamicChannelBuffer(endianness, estimatedLength, factory)`. -/
def makeDynamic (endianness factory : ByteOrder) (estimatedLength : Int) :
    Except Stop ChannelBuffer := do
  if estimatedLength < 0 then throw (invalidArgumentException "estimatedLength is negative: ")
  let buffer ← ChannelBuffer.allocate endianness estimatedLength
  pure (.dynamic endianness factory buffer .zero)

namespace ChannelBuffer

/-- A dynamic buffer as its constructor and its calls leave it. -/
def IsQueue (endianness factory : ByteOrder) (buffer : ChannelBuffer) : Prop :=
  ∃ heap idx, buffer = dynamic endianness factory heap idx ∧ Queueing endianness heap idx

section Queues

variable {endianness factory : ByteOrder} {buffer : ChannelBuffer}

theorem IsQueue.sound (queue : buffer.IsQueue endianness factory) : buffer.Sound := by
  obtain ⟨heap, idx, rfl, queueing⟩ := queue
  exact queueing.sound

theorem IsQueue.withIdx (queue : buffer.IsQueue endianness factory) {idx : Indices}
    (inside : idx.Inside buffer.content.length) :
    (buffer.withIdx idx).IsQueue endianness factory := by
  obtain ⟨heap, before, rfl, queueing⟩ := queue
  rw [content] at inside
  exact ⟨heap, idx, rfl, queueing.ordered, queueing.small, inside⟩

/-- `after` has `bytes` behind the unread bytes of `before`. -/
structure Appended (endianness factory : ByteOrder) (before : ChannelBuffer) (bytes : List Byte)
    (after : ChannelBuffer) : Prop where
  queue : after.IsQueue endianness factory
  readable : after.readableContent = before.readableContent ++ bytes
  writer : after.writerIdx = before.writerIdx + bytes.length

theorem Appended.nothing (queue : buffer.IsQueue endianness factory) :
    Appended endianness factory buffer [] buffer where
  queue := queue
  readable := (List.append_nil _).symm
  writer := (Int.add_zero _).symm

theorem Appended.trans {middle after : ChannelBuffer} {first second : List Byte}
    (one : Appended endianness factory buffer first middle)
    (other : Appended endianness factory middle second after) :
    Appended endianness factory buffer (first ++ second) after where
  queue := other.queue
  readable := by rw [other.readable, one.readable, List.append_assoc]
  writer := by
    rw [other.writer, one.writer, List.length_append, Int.natCast_add, Int.add_assoc]

end Queues

end ChannelBuffer

namespace BufferM

open ChannelBuffer HeapChannelBuffer

section Writes

variable {endianness factory : ByteOrder} {buffer : ChannelBuffer}

/-- Room for `count` more bytes leaves the unread bytes alone. -/
theorem ensureWritableBytes_queue {count : Nat} (queue : buffer.IsQueue endianness factory)
    (bounded : buffer.writerIdx + count ≤ 1073741824) :
    ∃ after, (ensureWritableBytes count).run buffer = .ok () after ∧
      Appended endianness factory buffer [] after := by
  obtain ⟨heap, idx, rfl, queueing⟩ := queue
  obtain ⟨grown, ran, shape, room, kept, -⟩ :
      ∃ grown, (ensureWritableBytes count).run (dynamic endianness factory heap idx) =
        .ok () (dynamic endianness factory grown idx) ∧ _ :=
    ensureWritableBytes_run queueing bounded
  have same : (dynamic endianness factory grown idx).readableContent =
      (dynamic endianness factory heap idx).readableContent ++ [] := by
    rw [← List.append_nil (window heap.arry 0 idx.writerIdx.toNat)] at kept
    have shown : (dynamic endianness factory grown
        { idx with writerIdx := idx.writerIdx + ([] : List Byte).length }).readableContent =
        (dynamic endianness factory heap idx).readableContent ++ [] :=
      appended_readable queueing.inside kept
    rwa [List.length_nil, Int.natCast_zero, Int.add_zero] at shown
  exact ⟨_, ran, ⟨grown, idx, rfl, shape⟩, same, (Int.add_zero _).symm⟩

theorem writeFrom_queue {src : Getters} {srcIndex : Int} {bytes : CharArray}
    (queue : buffer.IsQueue endianness factory)
    (bounded : buffer.writerIdx + bytes.length ≤ 1073741824)
    (copies : ∀ (dst : CharArray) (dstIndex : Nat), dstIndex + bytes.length ≤ dst.length →
      (dst.length : Int) ≤ maxInt →
      src.getBytes srcIndex dst dstIndex bytes.length = .ok (overwrite dst dstIndex bytes)) :
    ∃ after, (writeFrom src srcIndex bytes.length).run buffer = .ok () after ∧
      Appended endianness factory buffer bytes after := by
  obtain ⟨heap, idx, rfl, queueing⟩ := queue
  have reader := queueing.inside.reader
  have writer := queueing.inside.writer
  obtain ⟨grown, ensured, shape, room, kept, -⟩ :
      ∃ grown, (ensureWritableBytes bytes.length).run (dynamic endianness factory heap idx) =
        .ok () (dynamic endianness factory grown idx) ∧ _ :=
    ensureWritableBytes_run queueing bounded
  have copied := copies grown.arry idx.writerIdx.toNat (by omega) shape.small
  rw [Int.toNat_of_nonneg (by omega)] at copied
  obtain ⟨appended, -, extended⟩ := appended_queueing shape room
  rw [kept] at extended
  exact ⟨_, writeFrom_room shape ensured room copied, ⟨_, _, rfl, appended⟩,
    appended_readable queueing.inside extended, rfl⟩

theorem setTyped_dynamic {heap : HeapChannelBuffer} {idx : Indices} {value : TypedValue}
    {index : Nat} (room : index + value.width ≤ heap.arry.length) :
    (setTyped index value).run (dynamic endianness factory heap idx) =
      .ok () (dynamic endianness factory
        { heap with arry := overwrite heap.arry index (value.bytes heap.byteOrder) } idx) := by
  have deep : (dynamic endianness factory heap idx).depth = 1 := by rw [depth]
  have shown : (setTyped index value).run (dynamic endianness factory heap idx) =
      (setTypedWithin (dynamic endianness factory heap idx).depth index value).run
        (dynamic endianness factory heap idx) := rfl
  have reached : (setTypedWithin 1 index value).run (dynamic endianness factory heap idx) =
      (focus (fun _ => heap) (fun _ written => dynamic endianness factory written idx)
        (HeapChannelBuffer.setTyped index value) : BufferM Unit).run
        (dynamic endianness factory heap idx) := by
    simp only [setTypedWithin]
    rfl
  rw [shown, deep, reached]
  exact run_focus_ok (setTyped_inside room)

/-- A typed write of the queue. -/
theorem writeTyped_queue (queue : buffer.IsQueue endianness factory) (value : TypedValue)
    (bounded : buffer.writerIdx + value.width ≤ 1073741824) :
    ∃ after, (writeTyped value).run buffer = .ok () after ∧
      Appended endianness factory buffer (value.bytes endianness) after := by
  obtain ⟨heap, idx, rfl, queueing⟩ := queue
  have reader := queueing.inside.reader
  have writer := queueing.inside.writer
  have positive := value.width_pos
  obtain ⟨grown, ensured, shape, room, kept, -⟩ :
      ∃ grown, (ensureWritableBytes value.width).run (dynamic endianness factory heap idx) =
        .ok () (dynamic endianness factory grown idx) ∧ _ :=
    ensureWritableBytes_run queueing bounded
  have small := shape.small
  have ordered : grown.byteOrder = endianness := by
    rcases shape.ordered with same | empty
    · exact same
    · rw [empty, List.length_nil] at room
      omega
  obtain ⟨start, front⟩ : ∃ start : Nat, idx.writerIdx = start :=
    ⟨idx.writerIdx.toNat, by omega⟩
  have moved : int32 (idx.writerIdx + value.width) = idx.writerIdx + value.width :=
    int32_of_nonneg (by omega) (by omega)
  have wide : idx.writerIdx + (value.bytes endianness).length ≤ grown.arry.length := by
    rw [TypedValue.bytes_length]
    exact room
  obtain ⟨appended, -, extended⟩ := appended_queueing shape wide
  rw [kept] at extended
  refine ⟨_, ?_, ⟨_, _, rfl, appended⟩, appended_readable queueing.inside extended, rfl⟩
  have begun : (writeTyped value).run (dynamic endianness factory heap idx) =
      (putTyped value).run (dynamic endianness factory grown idx) := run_bind_ok _ ensured
  rw [begun, TypedValue.bytes_length, ← moved]
  have stores (other : Indices) : (setTyped idx.writerIdx value).run
      (dynamic endianness factory grown other) = .ok () (dynamic endianness factory
        { grown with arry := overwrite grown.arry idx.writerIdx.toNat (value.bytes endianness) }
        other) := by
    rw [front, Int.toNat_natCast, ← ordered]
    exact setTyped_dynamic (by omega)
  cases when : early value with
  | true =>
      have late : (putTyped value).run (dynamic endianness factory grown idx) =
          (setTyped idx.writerIdx value).run (dynamic endianness factory grown
            { idx with writerIdx := int32 (idx.writerIdx + value.width) }) := by
        rw [width_of_early when]
        cases value with
        | byte number => rfl
        | _ => cases when
      rw [late]
      exact stores _
  | false =>
      have late : (putTyped value).run (dynamic endianness factory grown idx) =
          (setTyped idx.writerIdx value >>= fun _ => written value.width).run
            (dynamic endianness factory grown idx) := by
        cases value with
        | byte number => cases when
        | _ => rfl
      rw [late, run_bind_ok _ (stores idx)]
      rfl

/-- Typed writes one after the other. -/
theorem writeAll_queue (queue : buffer.IsQueue endianness factory) (values : List TypedValue)
    (bounded : buffer.writerIdx + totalWidth values ≤ 1073741824) :
    ∃ after, (writeAll values).run buffer = .ok () after ∧
      Appended endianness factory buffer (values.flatMap (TypedValue.bytes endianness)) after := by
  induction values generalizing buffer with
  | nil => exact ⟨buffer, rfl, .nothing queue⟩
  | cons value rest ih =>
      rw [totalWidth_cons, Int.natCast_add] at bounded
      obtain ⟨middle, first, one⟩ := writeTyped_queue queue value (by omega)
      have moved := one.writer
      rw [TypedValue.bytes_length] at moved
      obtain ⟨after, later, other⟩ := ih one.queue (by omega)
      refine ⟨after, ?_, one.trans other⟩
      have begun : (writeAll (value :: rest)).run buffer =
          (writeTyped value >>= fun _ => writeAll rest).run buffer := rfl
      rw [begun, run_bind_ok _ first, later]

theorem totalWidth_zeros (length : Nat) : totalWidth (wideZeros length ++
    List.replicate (singleBytes length) (TypedValue.byte 0)) = length := by
  have parts := totalWidth_wideZeros length
  have width : (TypedValue.byte 0).width = 1 := rfl
  rw [totalWidth_append, totalWidth_replicate, width, Nat.mul_one]
  exact parts

theorem zeros_bytes (order : ByteOrder) (length : Nat) :
    (wideZeros length ++ List.replicate (singleBytes length) (TypedValue.byte 0)).flatMap
      (TypedValue.bytes order) = List.replicate length (0 : Byte) := by
  have blank : ∀ value ∈ wideZeros length ++ List.replicate (singleBytes length) (TypedValue.byte 0),
      ∀ byte ∈ value.bytes order, byte = 0 := by
    intro value among byte held
    obtain ⟨one, four, eight⟩ := zero_bytes order
    rcases List.mem_append.mp among with wide | single
    · rcases List.mem_append.mp wide with long | int
      · rw [List.eq_of_mem_replicate long, eight] at held
        exact List.eq_of_mem_replicate held
      · split at int
        · cases int
        · rw [List.mem_singleton.mp int, four] at held
          exact List.eq_of_mem_replicate held
    · rw [List.eq_of_mem_replicate single, one] at held
      exact List.eq_of_mem_replicate held
  have size : ((wideZeros length ++ List.replicate (singleBytes length) (TypedValue.byte 0)).flatMap
      (TypedValue.bytes order)).length = length := by
    rw [List.length_flatMap]
    simp only [TypedValue.bytes_length]
    exact totalWidth_zeros length
  refine List.eq_replicate_iff.mpr ⟨size, ?_⟩
  intro byte among
  obtain ⟨value, listed, held⟩ := List.mem_flatMap.mp among
  exact blank value listed byte held

theorem writeZero_queue {length : Int} (queue : buffer.IsQueue endianness factory)
    (positive : 0 ≤ length) (bounded : buffer.writerIdx + length ≤ 1073741824) :
    ∃ after, (writeZero length).run buffer = .ok () after ∧
      Appended endianness factory buffer (List.replicate length.toNat 0) after := by
  have amount : ((length.toNat : Nat) : Int) = length := Int.toNat_of_nonneg positive
  obtain ⟨roomy, ensured, one⟩ := ensureWritableBytes_queue queue
    (show buffer.writerIdx + (length.toNat : Nat) ≤ 1073741824 by omega)
  rw [amount] at ensured
  have moved : roomy.writerIdx = buffer.writerIdx := by
    rw [one.writer]
    exact Int.add_zero _
  have begun : (writeZero length).run buffer = (putZero length).run roomy := by
    obtain ⟨heap, idx, rfl, queueing⟩ := queue
    exact run_bind_ok _ ensured
  rw [begun]
  by_cases none : length = 0
  · refine ⟨roomy, ?_, ?_⟩
    · unfold putZero
      rw [if_pos none]
      rfl
    · rw [none]
      exact one
  · rw [putZero_all (by omega)]
    have room : roomy.writerIdx + totalWidth (wideZeros length.toNat ++
        List.replicate (singleBytes length.toNat) (.byte 0)) ≤ 1073741824 := by
      rw [totalWidth_zeros]
      omega
    obtain ⟨after, ran, other⟩ := writeAll_queue one.queue _ room
    rw [zeros_bytes] at other
    exact ⟨after, ran, one.trans other⟩

end Writes

section Reads

variable {endianness factory : ByteOrder} {buffer : ChannelBuffer}

/-- `put` came in behind the unread bytes and `taken` left in front of them. -/
structure Passed (endianness factory : ByteOrder) (before : ChannelBuffer) (put taken : List Byte)
    (after : ChannelBuffer) : Prop where
  queue : after.IsQueue endianness factory
  bytes : before.readableContent ++ put = taken ++ after.readableContent
  writer : after.writerIdx ≤ before.writerIdx + put.length

theorem Passed.of_appended {before after : ChannelBuffer} {put : List Byte}
    (appended : Appended endianness factory before put after) :
    Passed endianness factory before put [] after where
  queue := appended.queue
  bytes := appended.readable.symm
  writer := Int.le_of_eq appended.writer

theorem Passed.nothing (queue : buffer.IsQueue endianness factory) :
    Passed endianness factory buffer [] [] buffer :=
  .of_appended (.nothing queue)

theorem Passed.advance (queue : buffer.IsQueue endianness factory) {count : Nat}
    (bounded : count ≤ buffer.readableContent.length) :
    Passed endianness factory buffer [] (buffer.readableContent.take count)
      (buffer.advance count) where
  queue := by
    have inside := queue.sound.advance_inside bounded
    unfold ChannelBuffer.advance at inside ⊢
    rw [idx_withIdx] at inside
    exact queue.withIdx inside
  bytes := by
    rw [queue.sound.readable_advance, List.append_nil, List.take_append_drop]
  writer := by
    rw [writerIdx_advance]
    exact Int.le_of_eq (Int.add_zero _).symm

theorem Passed.compacted (queue : buffer.IsQueue endianness factory) :
    Passed endianness factory buffer [] buffer.readableContent (compacted buffer) where
  queue := queue.withIdx ⟨Int.le_refl _, Int.le_refl _, Int.natCast_nonneg _⟩
  bytes := by rw [compacted_readable]
  writer := by
    have reader := queue.sound.reader_nonneg
    have writer := queue.sound.reader_le_writer
    rw [compacted_writerIdx]
    change 0 ≤ buffer.writerIdx + ((0 : Nat) : Int)
    omega

/-- The cells behind the reader index are the front of the unread bytes. -/
theorem window_readable {count : Nat} (sound : buffer.Sound)
    (bounded : count ≤ buffer.readableContent.length) :
    window buffer.content buffer.readerIdx.toNat count = buffer.readableContent.take count := by
  have size := sound.readable_length
  unfold readableContent at size bounded ⊢
  rw [window_take]
  omega

/-- A typed value of the cells behind the reader index, taken apart again. -/
theorem bytes_at_reader (sound : buffer.Sound) (value : TypedValue)
    (bounded : value.width ≤ buffer.readableContent.length)
    (same : value.stored =
      buffer.order.number (window buffer.content buffer.readerIdx.toNat value.width)) :
    value.bytes buffer.order = buffer.readableContent.take value.width := by
  rw [← window_readable sound bounded]
  apply value.bytes_of_number buffer.order _ same
  rw [window_readable sound bounded, List.length_take, Nat.min_eq_left bounded]

variable {kind : TypedRead} {dst : CharArray}

theorem read_of_value (value : TypedValue) (sound : buffer.Sound)
    (enough : kind.width ≤ buffer.readableContent.length) (wide : value.width = kind.width)
    (ran : kind.read.run buffer = .ok value (buffer.advance kind.width))
    (same : value.stored =
      buffer.order.number (window buffer.content buffer.readerIdx.toNat kind.width)) :
    (QueueCall.read kind).perform.run buffer =
      .ok (buffer.readableContent.take kind.width) (buffer.advance kind.width) := by
  rw [← wide] at enough same
  have cells := bytes_at_reader sound value enough same
  have begun : (QueueCall.read kind).perform.run buffer =
      (kind.read >>= fun value => pure (value.bytes buffer.order)).run buffer := rfl
  rw [begun, run_bind_ok _ ran, cells, wide]
  rfl

theorem read_queue (sound : buffer.Sound) (kind : TypedRead)
    (enough : kind.width ≤ buffer.readableContent.length) :
    (QueueCall.read kind).perform.run buffer =
      .ok (buffer.readableContent.take kind.width) (buffer.advance kind.width) := by
  have serves := sound.serves
  have size := sound.readable_length
  have bound := sound.writer_le_length
  have start := Int.toNat_of_nonneg sound.reader_nonneg
  cases kind with
  | byte =>
      change 1 ≤ _ at enough
      refine read_of_value (.byte _) sound enough rfl
        (run_bind_ok _ (readByte_run sound enough)) ?_
      change ((buffer.content.getD buffer.readerIdx.toNat 0).setWidth 32).toNat % 2 ^ 8 =
        buffer.order.number (window buffer.content buffer.readerIdx.toNat 1)
      have top := (buffer.content.getD buffer.readerIdx.toNat 0).isLt
      rw [window_cons (by omega), window_zero_count, number_cons, BitVec.toNat_setWidth]
      cases buffer.order with
      | big =>
          simp only [List.length_nil, ByteOrder.number, List.foldl_nil]
          omega
      | little =>
          simp only [ByteOrder.number, List.foldr_nil]
          omega
  | short =>
      change 2 ≤ _ at enough
      have got := serves.short buffer.readerIdx.toNat (by omega)
      rw [start] at got
      refine read_of_value (.short _) sound enough rfl
        (run_bind_ok _ (readTyped_run sound enough got)) ?_
      have number := shortAt_toNat buffer.order
        (show buffer.readerIdx.toNat + 2 ≤ buffer.content.length by omega)
      change ((buffer.order.shortAt buffer.content buffer.readerIdx.toNat).setWidth 32).toNat %
        2 ^ 16 = _
      have top := (buffer.order.shortAt buffer.content buffer.readerIdx.toNat).isLt
      rw [BitVec.toNat_setWidth]
      change _ = buffer.order.number (window buffer.content buffer.readerIdx.toNat 2)
      omega
  | medium =>
      change 3 ≤ _ at enough
      have got := serves.medium buffer.readerIdx.toNat (by omega)
      rw [start] at got
      refine read_of_value (.medium _) sound enough rfl
        (run_bind_ok _ (readTyped_run sound enough got)) ?_
      have number := mediumAt_toNat buffer.order
        (show buffer.readerIdx.toNat + 3 ≤ buffer.content.length by omega)
      change (buffer.order.mediumAt buffer.content buffer.readerIdx.toNat).toNat % 2 ^ 24 =
        buffer.order.number (window buffer.content buffer.readerIdx.toNat 3)
      have cells : (window buffer.content buffer.readerIdx.toNat 3).length = 3 :=
        window_length (by omega)
      have top := number_lt buffer.order cells
      omega
  | int =>
      change 4 ≤ _ at enough
      have got := serves.int buffer.readerIdx.toNat (by omega)
      rw [start] at got
      exact read_of_value (.int _) sound enough rfl
        (run_bind_ok _ (readTyped_run sound enough got))
        (intAt_toNat buffer.order (by omega))
  | long =>
      change 8 ≤ _ at enough
      have got := serves.long buffer.readerIdx.toNat (by omega)
      rw [start] at got
      exact read_of_value (.long _) sound enough rfl
        (run_bind_ok _ (readTyped_run sound enough got))
        (longAt_toNat buffer.order (by omega))

/-- `readBytes` into an array inside of which the bytes fit. -/
theorem readArray_queue {dstIndex count : Nat} (sound : buffer.Sound)
    (positive : 0 < count) (enough : count ≤ buffer.readableContent.length)
    (target : dstIndex + count ≤ dst.length) (small : (dst.length : Int) ≤ maxInt) :
    (readArray dst dstIndex count).run buffer =
      .ok (overwrite dst dstIndex (buffer.readableContent.take count)) (buffer.advance count) := by
  have size := sound.readable_length
  have bound := sound.writer_le_length
  have start := Int.toNat_of_nonneg sound.reader_nonneg
  have got := sound.serves.bytes buffer.readerIdx.toNat count dst dstIndex positive (by omega)
    target small
  rw [start, window_readable sound enough] at got
  unfold readArray
  rw [if_neg (by omega), run_bind_ok _ (checkReadableBytes_run sound enough), run_bind_get]
  rw [got, run_bind_ok _ (run_call_ok _ _), sound.int32_reader enough]
  rfl

theorem copy_ok {src filled : CharArray} {dstIndex srcIndex length : Int}
    (ran : CharArray.copy dst dstIndex src srcIndex length = .ok filled) :
    0 ≤ dstIndex ∧ 0 ≤ length ∧ dstIndex + length ≤ dst.length := by
  unfold CharArray.copy at ran
  dsimp only at ran
  split at ran
  · cases ran
  · split at ran
    · cases ran
    · omega

/-- A call outside of its arguments' range throws and leaves the queue as it is. -/
theorem refused {Value : Type} {program : BufferM Value} (stops : StopsUnchanged program)
    (never : ∀ value after, program.run buffer ≠ .ok value after) :
    ∃ stop, program.run buffer = .error stop buffer := by
  cases ran : program.run buffer with
  | ok value after => exact absurd ran (never value after)
  | error stop after => exact ⟨stop, by rw [stops buffer stop after ran]⟩

theorem readBytes_refused {length : Int} (sound : buffer.Sound)
    (misfit : length < 0 ∨ (buffer.readableContent.length : Int) < length) :
    ∃ stop, (readBytes length).run buffer = .error stop buffer := by
  apply refused (readBytes_stops length)
  intro value after ran
  unfold readBytes at ran
  rw [if_neg (by omega)] at ran
  rcases misfit with negative | beyond
  · have passes : ¬buffer.readableBytes < length := by
      rw [sound.readableBytes_eq]
      omega
    rw [run_bind_ok _ (checkReadableBytes_enough passes), run_bind_get] at ran
    simp only at ran
    have none : allocate buffer.order length =
        .error (invalidArgumentException "length must greater than 0.") := by
      unfold allocate
      rw [if_neg (by omega), if_pos negative]
      rfl
    rw [none, run_bind_error _ (run_call_error _ _)] at ran
    cases ran
  · have short : buffer.readableBytes < length := by
      rw [sound.readableBytes_eq]
      exact beyond
    rw [run_bind_error _ (checkReadableBytes_short short)] at ran
    cases ran

theorem readArray_refused {dstIndex length : Int}
    (queue : buffer.IsQueue endianness factory) (some : length ≠ 0)
    (misfit : ¬(0 ≤ length ∧ length ≤ buffer.readableContent.length ∧ 0 ≤ dstIndex ∧
      dstIndex + length ≤ dst.length)) :
    ∃ stop, (readArray dst dstIndex length).run buffer = .error stop buffer := by
  have sound := queue.sound
  apply refused (readArray_stops dst dstIndex length)
  intro value after ran
  unfold readArray at ran
  rw [if_neg some] at ran
  by_cases short : buffer.readableBytes < length
  · rw [run_bind_error _ (checkReadableBytes_short short)] at ran
    cases ran
  · rw [run_bind_ok _ (checkReadableBytes_enough short), run_bind_get] at ran
    simp only at ran
    rw [sound.readableBytes_eq] at short
    cases got : buffer.getters.getBytes buffer.readerIdx dst dstIndex length with
    | error stop =>
        rw [got, run_bind_error _ (run_call_error _ _)] at ran
        cases ran
    | ok filled =>
        obtain ⟨heap, idx, rfl, queueing⟩ := queue
        simp only [ChannelBuffer.getters, HeapChannelBuffer.getters, Getters.heap] at got
        have inside := copy_ok got
        omega

theorem readTyped_refused (sound : buffer.Sound)
    (short : buffer.readableContent.length < kind.width) :
    ∃ stop, kind.read.run buffer = .error stop buffer := by
  have less : buffer.readableBytes < kind.width := by
    rw [sound.readableBytes_eq]
    omega
  cases kind with
  | byte =>
      change _ < 1 at short
      have size := sound.readable_length
      have drained : buffer.readerIdx = buffer.writerIdx := by omega
      refine ⟨rangeException "no data to read", run_bind_error _ ?_⟩
      unfold readByte
      rw [run_bind_get]
      rw [if_pos drained]
      rfl
  | _ => exact ⟨_, run_bind_error _ (run_bind_error _ (checkReadableBytes_short less))⟩

end Reads

section Calls

variable {endianness factory : ByteOrder} {buffer : ChannelBuffer} {call : QueueCall}

theorem perform_unit {program : BufferM Unit} {after : ChannelBuffer}
    (ran : program.run buffer = .ok () after) :
    (do
      program
      pure ([] : List Byte) : BufferM (List Byte)).run buffer = .ok [] after := by
  rw [run_bind_ok _ ran]
  rfl

section

variable (queue : buffer.IsQueue endianness factory)

include queue

theorem writable_queue :
    ¬buffer.writableBytes < 0 := by
  obtain ⟨heap, idx, rfl, queueing⟩ := queue
  have bound := queueing.inside.bound
  have space : (dynamic endianness factory heap idx).writableBytes = _ :=
    writableBytes_dynamic queueing
  rw [space]
  omega

/-- Some buffers refuse to hand out no bytes. -/
theorem writeFrom_nothing (source : Source)
    (none : source.length = 0) :
    (∃ after, (writeFrom source.getters source.srcIndex source.length).run buffer = .ok () after ∧
      Appended endianness factory buffer [] after) ∨
    ∃ stop, (writeFrom source.getters source.srcIndex source.length).run buffer =
      .error stop buffer := by
  obtain ⟨heap, idx, rfl, queueing⟩ := queue
  have reader := queueing.inside.reader
  have writer := queueing.inside.writer
  have bound := queueing.inside.bound
  have room : idx.writerIdx + (([] : List Byte).length : Int) ≤ heap.arry.length := by
    rw [List.length_nil]
    omega
  have ensured : (ensureWritableBytes ([] : List Byte).length).run
      (dynamic endianness factory heap idx) = .ok () (dynamic endianness factory heap idx) :=
    ensureWritableBytes_room queueing room
  have within := source.within
  have start : ((idx.writerIdx.toNat : Nat) : Int) = idx.writerIdx := by omega
  have handed := source.serves.nothing source.srcIndex heap.arry idx.writerIdx.toNat (by omega)
    (by omega) queueing.small
  rw [start] at handed
  rw [none]
  rcases handed with copied | failed
  · left
    have whole : source.getters.getBytes source.srcIndex heap.arry idx.writerIdx
        (([] : List Byte).length : Int) = .ok (overwrite heap.arry idx.writerIdx.toNat []) := by
      rw [overwrite_nothing]
      exact copied
    obtain ⟨appended, -, extended⟩ := appended_queueing queueing room
    exact ⟨_, writeFrom_room queueing ensured room whole, ⟨_, _, rfl, appended⟩,
      appended_readable queueing.inside extended, rfl⟩
  · right
    refine ⟨rangeException "", ?_⟩
    have refused : (dynamic endianness factory heap idx).setBytes idx.writerIdx source.getters
        source.srcIndex 0 = .error (rangeException "") := by
      rw [ChannelBuffer.setBytes, HeapChannelBuffer.setBytes, failed]
      rfl
    have target : (dynamic endianness factory heap idx).writerIdx = idx.writerIdx := rfl
    have begun : (writeFrom source.getters source.srcIndex (0 : Nat)).run
        (dynamic endianness factory heap idx) = (do
          let written ← call ((dynamic endianness factory heap idx).setBytes
            (dynamic endianness factory heap idx).writerIdx source.getters source.srcIndex 0)
          set (written.withIdx
            { written.idx with writerIdx := int32 (written.writerIdx + (0 : Nat)) }) :
          BufferM Unit).run (dynamic endianness factory heap idx) := run_bind_ok _ ensured
    rw [begun, target, refused]
    exact run_bind_error _ (run_call_error _ _)

/-- A call whose arguments fit returns: what it writes is behind the unread bytes, what it hands
out was in front of them. -/
theorem perform_returns (bounded : buffer.writerIdx + (call.written endianness).length ≤ 1073741824)
    (fits : call.Fits buffer.readableContent.length) :
    ∃ taken after, call.perform.run buffer = .ok taken after ∧
      Passed endianness factory buffer (call.written endianness) taken after ∧
      taken.length = call.asked buffer.readableContent.length := by
  have sound := queue.sound
  cases call with
  | write value =>
      change _ + ((value.bytes endianness).length : Int) ≤ _ at bounded
      rw [TypedValue.bytes_length] at bounded
      obtain ⟨after, ran, appended⟩ := writeTyped_queue queue value bounded
      exact ⟨[], after, perform_unit ran, .of_appended appended, rfl⟩
  | writeBytes source =>
      change 0 < source.length at fits
      change _ + (source.bytes.length : Int) ≤ _ at bounded
      have copies : ∀ (dst : CharArray) (dstIndex : Nat),
          dstIndex + source.bytes.length ≤ dst.length → (dst.length : Int) ≤ maxInt →
          source.getters.getBytes source.srcIndex dst dstIndex source.bytes.length =
            .ok (overwrite dst dstIndex source.bytes) := by
        intro dst dstIndex target small
        rw [source.bytes_length] at target ⊢
        exact source.serves.bytes source.srcIndex source.length dst dstIndex fits source.within
          target small
      obtain ⟨after, ran, appended⟩ := writeFrom_queue queue bounded copies
      rw [source.bytes_length] at ran
      exact ⟨[], after, perform_unit ran, .of_appended appended, rfl⟩
  | writeZero length =>
      change 0 ≤ length at fits
      change _ + ((List.replicate length.toNat (0 : Byte)).length : Int) ≤ _ at bounded
      rw [List.length_replicate] at bounded
      obtain ⟨after, ran, appended⟩ := writeZero_queue queue fits (by omega)
      exact ⟨[], after, perform_unit ran, .of_appended appended, rfl⟩
  | read kind =>
      change kind.width ≤ _ at fits
      refine ⟨_, _, read_queue sound kind fits, Passed.advance queue fits, ?_⟩
      rw [List.length_take, Nat.min_eq_left fits]
      rfl
  | readBytes length =>
      change 0 ≤ length ∧ length ≤ _ at fits
      obtain ⟨count, amount⟩ := Int.eq_ofNat_of_zero_le fits.1
      subst amount
      have enough : count ≤ buffer.readableContent.length := Int.ofNat_le.mp fits.2
      have sized : (buffer.readableContent.take count).length = count := by
        rw [List.length_take, Nat.min_eq_left enough]
      by_cases none : count = 0
      · subst none
        exact ⟨[], buffer, rfl, .nothing queue, rfl⟩
      · have ran := readBytes_run sound (Nat.pos_of_ne_zero none) enough
        refine ⟨_, _, run_bind_ok _ ran, ?_, ?_⟩
        · rw [copyOf_shows]
          by_cases drained : count = buffer.readableContent.length
          · rw [if_pos drained, drained, List.take_length]
            exact .compacted queue
          · rw [if_neg drained]
            exact .advance queue enough
        · rw [copyOf_shows]
          exact sized
  | readArray dst small dstIndex length =>
      change 0 ≤ length ∧ length ≤ _ ∧ 0 ≤ dstIndex ∧ _ at fits
      obtain ⟨lower, upper, front, back⟩ := fits
      obtain ⟨count, amount⟩ := Int.eq_ofNat_of_zero_le lower
      obtain ⟨start, begins⟩ := Int.eq_ofNat_of_zero_le front
      subst amount begins
      have enough : count ≤ buffer.readableContent.length := Int.ofNat_le.mp upper
      have sized : (buffer.readableContent.take count).length = count := by
        rw [List.length_take, Nat.min_eq_left enough]
      by_cases none : count = 0
      · subst none
        refine ⟨[], buffer, ?_, .nothing queue, rfl⟩
        have blank : window dst (start : Int).toNat ((0 : Nat) : Int).toNat = [] :=
          window_zero_count dst _
        rw [← blank]
        rfl
      · have ran := readArray_queue sound (Nat.pos_of_ne_zero none) enough
          (show start + count ≤ dst.length by omega) small
        have shown : window (overwrite dst start (buffer.readableContent.take count)) start
            (buffer.readableContent.take count).length = buffer.readableContent.take count :=
          window_overwrite_same (by omega)
        rw [sized] at shown
        refine ⟨_, _, run_bind_ok _ ran, ?_, ?_⟩
        · rw [Int.toNat_natCast, Int.toNat_natCast, shown]
          exact .advance queue enough
        · rw [Int.toNat_natCast, Int.toNat_natCast, shown]
          exact sized
  | readSlice length =>
      change length ≤ _ at fits
      obtain ⟨part, ran, shown⟩ := readSlice_run sound fits
      refine ⟨_, _, run_bind_ok _ ran, ?_, ?_⟩
      · rw [shown.bytes]
        exact .advance queue fits
      · rw [shown.bytes, List.length_take, Nat.min_eq_left fits]
        rfl
  | readAllSlice =>
      obtain ⟨part, ran, shown⟩ := readAllSlice_run sound
      refine ⟨_, _, run_bind_ok _ ran, ?_, ?_⟩
      · rw [shown.bytes]
        exact .compacted queue
      · rw [shown.bytes]
        rfl
  | discardReadBytes =>
      obtain ⟨heap, idx, rfl, queueing⟩ := queue
      obtain ⟨moved, after, ran, shape, -, -, same, -, back⟩ :
          ∃ moved after, discardReadBytes.run (dynamic endianness factory heap idx) =
            .ok () (dynamic endianness factory moved after) ∧ _ :=
        discardReadBytes_run queueing
      refine ⟨[], _, perform_unit ran, ⟨⟨moved, after, rfl, shape⟩, ?_, ?_⟩, rfl⟩
      · rw [same]
        exact List.append_nil _
      · have size := sound.readable_length
        have reader := sound.reader_nonneg
        change after.writerIdx ≤ _ + ((0 : Nat) : Int)
        rw [back]
        omega

/-- Any other call throws or hands out nothing, and leaves the unread bytes alone. -/
theorem perform_refused (allowed : call.Allowed buffer.readableContent.length)
    (misfit : ¬call.Fits buffer.readableContent.length) :
    (∃ after, call.perform.run buffer = .ok [] after ∧
      Passed endianness factory buffer (call.written endianness) [] after) ∨
    ∃ stop, call.perform.run buffer = .error stop buffer := by
  have sound := queue.sound
  cases call with
  | writeBytes source =>
      have none : source.length = 0 := Nat.eq_zero_of_not_pos misfit
      have blank : source.bytes = [] := by
        rw [← List.length_eq_zero_iff, source.bytes_length]
        exact none
      rcases writeFrom_nothing queue source none with ⟨after, ran, appended⟩ | ⟨stop, ran⟩
      · left
        refine ⟨after, perform_unit ran, ?_⟩
        change Passed endianness factory buffer source.bytes [] after
        rw [blank]
        exact .of_appended appended
      · exact Or.inr ⟨stop, run_bind_error _ ran⟩
  | writeZero length =>
      have negative : length < 0 := Int.lt_of_not_ge misfit
      have writable : ¬buffer.writableBytes < 0 := writable_queue queue
      right
      refine ⟨invalidArgumentException "length must be 0 or greater than 0.", run_bind_error _ ?_⟩
      have refuses : (putZero length).run buffer =
          .error (invalidArgumentException "length must be 0 or greater than 0.") buffer := by
        unfold putZero
        rw [if_neg (by omega), if_pos negative]
        rfl
      have passes : (ensureWritableBytes length).run buffer = .ok () buffer := by
        unfold ensureWritableBytes
        rw [run_bind_get]
        rw [if_pos (by omega)]
        rfl
      obtain ⟨heap, idx, rfl, queueing⟩ := queue
      exact (run_bind_ok _ passes).trans refuses
  | read kind =>
      obtain ⟨stop, ran⟩ := readTyped_refused sound (Nat.lt_of_not_le misfit)
      have begun : (QueueCall.read kind).perform.run buffer =
          (kind.read >>= fun value => pure (value.bytes buffer.order)).run buffer := rfl
      exact Or.inr ⟨stop, by rw [begun, run_bind_error _ ran]⟩
  | readBytes length =>
      obtain ⟨stop, ran⟩ := readBytes_refused sound (show length < 0 ∨ _ by
        change ¬(0 ≤ length ∧ length ≤ _) at misfit
        omega)
      exact Or.inr ⟨stop, run_bind_error _ ran⟩
  | readArray dst small dstIndex length =>
      by_cases none : length = 0
      · subst none
        left
        refine ⟨buffer, ?_, .nothing queue⟩
        have blank : window dst dstIndex.toNat (0 : Int).toNat = [] := window_zero_count dst _
        rw [← blank]
        rfl
      · obtain ⟨stop, ran⟩ := readArray_refused queue none misfit
        exact Or.inr ⟨stop, run_bind_error _ ran⟩
  | readSlice length => exact absurd allowed misfit
  | _ => exact absurd trivial misfit

end

end Calls

end BufferM

/-- The calls on a buffer since its construction, with the bytes they wrote and the bytes they
handed out. A call that throws does neither. -/
inductive QueueRun (endianness factory : ByteOrder) (estimatedLength : Int) :
    ChannelBuffer → List Byte → List Byte → Prop where
  | made {buffer : ChannelBuffer}
      (built : makeDynamic endianness factory estimatedLength = .ok buffer) :
      QueueRun endianness factory estimatedLength buffer [] []
  | returned {buffer after : ChannelBuffer} {written read taken : List Byte} {call : QueueCall}
      (before : QueueRun endianness factory estimatedLength buffer written read)
      (allowed : call.Allowed buffer.readableContent.length)
      (bounded : (written ++ call.written endianness).length < 1073741824)
      (ran : call.perform.run buffer = .ok taken after) :
      QueueRun endianness factory estimatedLength after (written ++ call.written endianness)
        (read ++ taken)
  | threw {buffer after : ChannelBuffer} {written read : List Byte} {call : QueueCall} {stop : Stop}
      (before : QueueRun endianness factory estimatedLength buffer written read)
      (allowed : call.Allowed buffer.readableContent.length)
      (bounded : (written ++ call.written endianness).length < 1073741824)
      (ran : call.perform.run buffer = .error stop after) :
      QueueRun endianness factory estimatedLength after written read

section Runs

variable {endianness factory : ByteOrder} {buffer : ChannelBuffer} {written read : List Byte}

variable {estimatedLength : Nat}

theorem makeDynamic_queue (endianness factory : ByteOrder)
    (representable : (estimatedLength : Int) ≤ maxInt) :
    ∃ buffer, makeDynamic endianness factory estimatedLength = .ok buffer ∧
      buffer.IsQueue endianness factory ∧ buffer.readableContent = [] ∧ buffer.writerIdx = 0 := by
  by_cases none : estimatedLength = 0
  · subst none
    refine ⟨.dynamic endianness factory ⟨.big, [], .zero⟩ .zero, rfl,
      ⟨_, _, rfl, Or.inr rfl, ?_, ⟨Int.le_refl _, Int.le_refl _, Int.le_refl _⟩⟩, ?_, rfl⟩
    · exact representable
    · simp [ChannelBuffer.readableContent, ChannelBuffer.content, window]
  · refine ⟨.dynamic endianness factory
      ⟨endianness, List.replicate estimatedLength 0, .zero⟩ .zero, ?_,
      ⟨_, _, rfl, Or.inl rfl, ?_, ⟨Int.le_refl _, Int.le_refl _, Int.natCast_nonneg _⟩⟩, ?_, rfl⟩
    · unfold makeDynamic ChannelBuffer.allocate
      rw [if_neg (by omega), if_neg (by omega), if_neg (by omega), Int.toNat_natCast]
      rfl
    · rw [List.length_replicate]
      exact representable
    · simp [ChannelBuffer.readableContent, ChannelBuffer.readerIdx, ChannelBuffer.writerIdx,
        ChannelBuffer.idx, Indices.zero]

/-- What every run keeps. -/
structure Queued (endianness factory : ByteOrder) (buffer : ChannelBuffer)
    (written read : List Byte) : Prop where
  queue : buffer.IsQueue endianness factory
  bytes : written = read ++ buffer.readableContent
  writer : buffer.writerIdx ≤ written.length

theorem Queued.passed {after : ChannelBuffer} {put taken : List Byte}
    (queued : Queued endianness factory buffer written read)
    (passed : BufferM.Passed endianness factory buffer put taken after) :
    Queued endianness factory after (written ++ put) (read ++ taken) where
  queue := passed.queue
  bytes := by
    rw [queued.bytes, List.append_assoc, passed.bytes, ← List.append_assoc]
  writer := by
    have before := queued.writer
    have later := passed.writer
    rw [List.length_append]
    omega

theorem Queued.step {call : QueueCall} (queued : Queued endianness factory buffer written read)
    (allowed : call.Allowed buffer.readableContent.length)
    (bounded : (written ++ call.written endianness).length < 1073741824) :
    (∃ taken after, call.perform.run buffer = .ok taken after ∧
      BufferM.Passed endianness factory buffer (call.written endianness) taken after) ∨
    ∃ stop, call.perform.run buffer = .error stop buffer := by
  have writer := queued.writer
  rw [List.length_append] at bounded
  by_cases fits : call.Fits buffer.readableContent.length
  · obtain ⟨taken, after, ran, passed, -⟩ :=
      BufferM.perform_returns queued.queue (by omega) fits
    exact Or.inl ⟨taken, after, ran, passed⟩
  · rcases BufferM.perform_refused queued.queue allowed fits with ⟨after, ran, passed⟩ | threw
    · exact Or.inl ⟨[], after, ran, passed⟩
    · exact Or.inr threw

theorem queued_run (representable : (estimatedLength : Int) ≤ maxInt)
    (run : QueueRun endianness factory estimatedLength buffer written read) :
    Queued endianness factory buffer written read := by
  induction run with
  | made built =>
      obtain ⟨buffer, made, queue, blank, front⟩ :=
        makeDynamic_queue endianness factory representable
      cases made.symm.trans built
      exact ⟨queue, blank.symm, Int.le_of_eq front⟩
  | returned before allowed bounded ran queued =>
      rcases queued.step allowed bounded with ⟨taken, after, went, passed⟩ | ⟨stop, failed⟩
      · cases went.symm.trans ran
        exact queued.passed passed
      · cases failed.symm.trans ran
  | threw before allowed bounded ran queued =>
      rcases queued.step allowed bounded with ⟨taken, after, went, passed⟩ | ⟨stop, failed⟩
      · cases went.symm.trans ran
      · cases failed.symm.trans ran
        exact queued

theorem asked_le {call : QueueCall} {readable : Nat} (fits : call.Fits readable) :
    call.asked readable ≤ readable := by
  cases call with
  | read kind => exact fits
  | readBytes length =>
      change 0 ≤ length ∧ _ at fits
      change length.toNat ≤ readable
      omega
  | readArray dst small dstIndex length =>
      change 0 ≤ length ∧ _ at fits
      change length.toNat ≤ readable
      omega
  | readSlice length => exact fits
  | readAllSlice => exact Nat.le_refl _
  | _ => exact Nat.zero_le _

end Runs

/-- A dynamic buffer is a byte queue: what was written is what was read and the unread bytes, and
what a call hands out is taken from their front. Making room does not change them. -/
theorem byte_queue (endianness factory : ByteOrder) (estimatedLength : Nat)
    (representable : (estimatedLength : Int) ≤ maxInt) :
    (∃ buffer, makeDynamic endianness factory estimatedLength = .ok buffer) ∧
    ∀ buffer written read, QueueRun endianness factory estimatedLength buffer written read →
      written = read ++ buffer.readableContent ∧
      buffer.readableBytes = written.length - read.length ∧
      (∀ call : QueueCall, (written ++ call.written endianness).length < 1073741824 →
        call.Fits buffer.readableContent.length →
        ∃ after, call.perform.run buffer = .ok
          (buffer.readableContent.take (call.asked buffer.readableContent.length)) after) ∧
      ∀ count : Nat, written.length + count ≤ 1073741824 →
        ∃ after, (BufferM.ensureWritableBytes count).run buffer = .ok () after ∧
          after.readableContent = buffer.readableContent := by
  constructor
  · obtain ⟨buffer, made, -⟩ := makeDynamic_queue endianness factory representable
    exact ⟨buffer, made⟩
  · intro buffer written read run
    have queued := queued_run representable run
    have writer := queued.writer
    refine ⟨queued.bytes, ?_, ?_, ?_⟩
    · rw [queued.queue.sound.readableBytes_eq, queued.bytes, List.length_append]
      omega
    · intro call bounded fits
      rw [List.length_append] at bounded
      obtain ⟨taken, after, ran, passed, size⟩ :=
        BufferM.perform_returns queued.queue (by omega) fits
      have front : taken = (buffer.readableContent ++ call.written endianness).take
          taken.length := by
        rw [passed.bytes, List.take_left]
      rw [size, List.take_append_of_le_length (asked_le fits)] at front
      exact ⟨after, by rw [ran, ← front]⟩
    · intro count bounded
      obtain ⟨after, ran, appended⟩ :=
        BufferM.ensureWritableBytes_queue queued.queue (show _ + (count : Int) ≤ _ by omega)
      have same := appended.readable
      rw [List.append_nil] at same
      exact ⟨after, ran, same⟩

/-- A little-endian buffer of estimated length 0 starts on the shared big-endian one. -/
theorem byte_queue_unestimated :
    ∃ buffer, makeDynamic .little .little ((0 : Nat) : Int) = .ok buffer ∧
      ∃ after, (QueueCall.write (.short 0x0102)).perform.run buffer = .ok [] after := by
  obtain ⟨⟨buffer, made⟩, runs⟩ := byte_queue .little .little 0 (by decide)
  obtain ⟨-, -, returns, -⟩ := runs buffer [] [] (.made made)
  exact ⟨buffer, made, returns (.write (.short 0x0102)) (by decide) trivial⟩

end Cetty
