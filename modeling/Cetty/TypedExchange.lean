import Cetty.BufferComparison
import Cetty.DynamicQueue

/-!
# Typed values written and read back

A sequence of typed and bulk writes into a heap buffer stores the representation of every value
in the buffer's byte order, and the matching sequence of reads returns the values reduced to
their widths.
-/

namespace Cetty

open MachineInt ByteWindow

namespace ByteOrder

/-- The representation of a number in `width` bytes. -/
def digits (order : ByteOrder) (width value : Nat) : List Byte :=
  let ascending := (List.range width).map fun place => BitVec.ofNat 8 (value / 256 ^ place)
  match order with
  | .big => ascending.reverse
  | .little => ascending

theorem digits_length (order : ByteOrder) (width value : Nat) :
    (order.digits width value).length = width := by
  cases order <;> simp [digits]

theorem digits_little (width value : Nat) :
    ByteOrder.little.digits (width + 1) value =
      BitVec.ofNat 8 value :: ByteOrder.little.digits width (value / 256) := by
  simp only [digits, List.range_succ_eq_map, List.map_cons, List.map_map, Nat.pow_zero, Nat.div_one]
  congr 1
  apply List.map_congr_left
  intro place _
  simp only [Function.comp, Nat.pow_succ, Nat.mul_comm _ 256, Nat.div_div_eq_div_mul]

theorem number_reverse (bytes : List Byte) :
    ByteOrder.big.number bytes.reverse = ByteOrder.little.number bytes := by
  simp only [number, List.foldl_reverse]

theorem number_digits (order : ByteOrder) (width value : Nat) :
    order.number (order.digits width value) = value % 256 ^ width := by
  have little (width value : Nat) :
      ByteOrder.little.number (ByteOrder.little.digits width value) = value % 256 ^ width := by
    induction width generalizing value with
    | zero => rw [Nat.pow_zero, Nat.mod_one]; rfl
    | succ width ih =>
        have parts := Nat.mod_mul (x := value) (a := 256) (b := 256 ^ width)
        rw [digits_little, number_cons, ih, BitVec.toNat_ofNat]
        dsimp only
        have larger : 256 ^ (width + 1) = 256 * 256 ^ width := by
          rw [Nat.pow_succ, Nat.mul_comm]
        rw [larger, parts]
        omega
  cases order with
  | big =>
      rw [← little width value, ← number_reverse]
      rfl
  | little => exact little width value

end ByteOrder

namespace TypedValue

/-- The argument of the setter. -/
def argument : TypedValue → Int
  | byte value => value.toInt
  | short value => value.toInt
  | medium value => value.toInt
  | int value => value.toInt
  | long value => value.toInt

/-- The argument without its sign. -/
def unsignedArgument : TypedValue → Nat
  | byte value => value.toNat
  | short value => value.toNat
  | medium value => value.toNat
  | int value => value.toNat
  | long value => value.toNat

theorem stored_unsigned (value : TypedValue) :
    value.stored = value.unsignedArgument % 256 ^ value.width := by
  cases value with
  | int value =>
      have bound := value.isLt
      simp only [stored, unsignedArgument, width]
      omega
  | long value =>
      have bound := value.isLt
      simp only [stored, unsignedArgument, width]
      omega
  | _ value => rfl

theorem toInt_emod {bits : Nat} (value : BitVec bits) {modulus : Nat}
    (divides : modulus ∣ 2 ^ bits) :
    value.toInt % (modulus : Int) = ((value.toNat % modulus : Nat) : Int) := by
  have whole : (modulus : Int) ∣ ((2 ^ bits : Nat) : Int) := Int.natCast_dvd_natCast.mpr divides
  rw [BitVec.toInt_eq_toNat_bmod, ← Int.emod_emod_of_dvd _ whole, Int.bmod_emod,
    Int.emod_emod_of_dvd _ whole, Int.natCast_emod]

theorem argument_emod (value : TypedValue) :
    value.argument % ((256 ^ value.width : Nat) : Int) = value.stored := by
  rw [stored_unsigned]
  cases value with
  | byte value => exact toInt_emod value (show 256 ^ 1 ∣ 2 ^ 32 by decide)
  | short value => exact toInt_emod value (show 256 ^ 2 ∣ 2 ^ 32 by decide)
  | medium value => exact toInt_emod value (show 256 ^ 3 ∣ 2 ^ 32 by decide)
  | int value => exact toInt_emod value (show 256 ^ 4 ∣ 2 ^ 32 by decide)
  | long value => exact toInt_emod value (show 256 ^ 8 ∣ 2 ^ 64 by decide)

/-- A setter stores the representation of its argument in the buffer's order. -/
theorem bytes_digits (order : ByteOrder) (value : TypedValue) :
    value.bytes order = order.digits value.width value.unsignedArgument := by
  apply value.bytes_of_number order (order.digits_length _ _)
  rw [ByteOrder.number_digits, stored_unsigned]

end TypedValue

namespace BufferM

/-- The promoted char is masked before it is cast. -/
def readUnsignedByte : BufferM Byte := do
  return ((← readByte).signExtend 32 &&& 0xff#32).setWidth 8

def readUnsignedShort : BufferM (BitVec 16) := do
  return ((← readShort).signExtend 32 &&& 0xffff#32).setWidth 16

def readMedium : BufferM (BitVec 32) := do
  let value ← readUnsignedMedium
  pure (if value &&& 0x800000#32 ≠ 0 then value ||| 0xff000000#32 else value)

def readUnsignedInt : BufferM (BitVec 32) := do
  return (← readInt) &&& 0xffffffff#32

end BufferM

inductive Reader where
  | readByte
  | readUnsignedByte
  | readShort
  | readUnsignedShort
  | readMedium
  | readUnsignedMedium
  | readInt
  | readUnsignedInt
  | readLong
  deriving DecidableEq, Repr

namespace Reader

def width : Reader → Nat
  | readByte => 1
  | readUnsignedByte => 1
  | readShort => 2
  | readUnsignedShort => 2
  | readMedium => 3
  | readUnsignedMedium => 3
  | readInt => 4
  | readUnsignedInt => 4
  | readLong => 8

/-- The value a reader returns, by the type it returns it in. -/
def program : Reader → BufferM Int
  | readByte => do return (← BufferM.readByte).toInt
  | readUnsignedByte => do return (← BufferM.readUnsignedByte).toNat
  | readShort => do return (← BufferM.readShort).toInt
  | readUnsignedShort => do return (← BufferM.readUnsignedShort).toNat
  | readMedium => do return (← BufferM.readMedium).toInt
  | readUnsignedMedium => do return (← BufferM.readUnsignedMedium).toInt
  | readInt => do return (← BufferM.readInt).toInt
  | readUnsignedInt => do return (← BufferM.readUnsignedInt).toNat
  | readLong => do return (← BufferM.readLong).toInt

/-- A value reduced to the width of the reader, with its sign or without. -/
def reduced (reader : Reader) (value : Int) : Int :=
  match reader with
  | readUnsignedByte | readUnsignedShort | readUnsignedMedium | readUnsignedInt =>
      value % ((256 ^ reader.width : Nat) : Int)
  | _ => value.bmod (256 ^ reader.width)

theorem reduced_argument (reader : Reader) (value : TypedValue)
    (matching : reader.width = value.width) :
    reader.reduced value.stored = reader.reduced value.argument := by
  have same : (value.stored : Int) = value.argument % ((256 ^ reader.width : Nat) : Int) := by
    rw [matching, value.argument_emod]
  cases reader <;>
    first
      | exact (congrArg _ same).trans (Int.emod_emod _ _)
      | exact (congrArg _ same).trans (Int.emod_bmod _ _)

/-- Cast to its own width, a promoted and masked value is itself. -/
theorem masked_cast {bits wide : Nat} (narrow : bits ≤ wide) (value : BitVec bits) :
    (value.signExtend wide &&& BitVec.ofNat wide (2 ^ bits - 1)).setWidth bits = value := by
  apply BitVec.eq_of_getLsbD_eq
  intro place inside
  have mask : (BitVec.ofNat wide (2 ^ bits - 1)).getLsbD place = decide (place < bits) :=
    Cetty.ChannelBuffers.lowMask bits place (by omega)
  have within : place < wide := by omega
  rw [BitVec.getLsbD_setWidth, BitVec.getLsbD_and, mask, BitVec.getLsbD_signExtend]
  simp [inside, within]

/-- The sign of a 24 bit value. -/
theorem medium_sign {value : BitVec 32} (small : value.toNat < 2 ^ 24) :
    (if value &&& 0x800000#32 ≠ 0 then value ||| 0xff000000#32 else value).toInt =
      (value.toNat : Int).bmod (2 ^ 24) := by
  have bit : value &&& 0x800000#32 = if value.getLsbD 23 then 0x800000#32 else 0#32 :=
    BitVec.and_twoPow value 23
  have sign : value.getLsbD 23 = decide (2 ^ 23 ≤ value.toNat) := by
    unfold BitVec.getLsbD
    rw [Nat.testBit_eq_decide_div_mod_eq]
    simp only [decide_eq_decide]
    omega
  rw [bit, sign]
  by_cases negative : 2 ^ 23 ≤ value.toNat
  · have extended : (value ||| 0xff000000#32).toNat = value.toNat + 0xff000000 := by
      have joined := Nat.shiftLeft_add_eq_or_of_lt small 0xff
      rw [BitVec.or_comm, BitVec.toNat_or]
      change 0xff <<< 24 ||| value.toNat = _
      rw [← joined]
      omega
    rw [decide_eq_true negative, if_pos rfl, if_pos (by decide), BitVec.toInt_eq_toNat_bmod, extended]
    unfold Int.bmod
    dsimp only
    split <;> split <;> omega
  · rw [decide_eq_false negative, if_neg Bool.false_ne_true, if_neg (by simp),
      BitVec.toInt_eq_toNat_bmod]
    unfold Int.bmod
    dsimp only
    split <;> split <;> omega

section Reads

open ChannelBuffer BufferM

variable {buffer : ChannelBuffer}

theorem signed_value {bits width number : Nat} {value : BitVec bits} (same : value.toNat = number)
    (wide : 2 ^ bits = 256 ^ width) : value.toInt = (number : Int).bmod (256 ^ width) := by
  rw [BitVec.toInt_eq_toNat_bmod, same, wide]

theorem unsigned_value {width number : Nat} (below : number < 256 ^ width) :
    (number : Int) = (number : Int) % ((256 ^ width : Nat) : Int) := by
  rw [← Int.natCast_emod, Nat.mod_eq_of_lt below]

/-- A reader that converts what another one returns. -/
theorem converted_run {First Value : Type} {program : BufferM First} {convert : First → Value}
    {first : First} {value : Value} {after : ChannelBuffer}
    (ran : program.run buffer = .ok first after) (same : convert first = value) :
    (do return convert (← program) : BufferM Value).run buffer = .ok value after := by
  rw [run_bind_ok _ ran, same]
  rfl

theorem program_run (sound : buffer.Sound) (reader : Reader)
    (enough : reader.width ≤ buffer.readableContent.length) :
    reader.program.run buffer =
      .ok (reader.reduced (buffer.order.number (buffer.readableContent.take reader.width)))
        (buffer.advance reader.width) := by
  have serves := sound.serves
  have size := sound.readable_length
  have bound := sound.writer_le_length
  have start := Int.toNat_of_nonneg sound.reader_nonneg
  have cells := window_readable sound enough
  have within : buffer.readerIdx.toNat + reader.width ≤ buffer.content.length := by omega
  have length : (window buffer.content buffer.readerIdx.toNat reader.width).length = reader.width :=
    window_length within
  have top := number_lt buffer.order length
  rw [← cells]
  have single : buffer.readerIdx.toNat + 1 ≤ buffer.content.length →
      (buffer.content.getD buffer.readerIdx.toNat 0).toNat =
        buffer.order.number (window buffer.content buffer.readerIdx.toNat 1) := by
    intro present
    rw [window_cons present, window_zero_count, number_cons]
    cases buffer.order with
    | big =>
        simp only [List.length_nil, ByteOrder.number, List.foldl_nil]
        omega
    | little =>
        simp only [ByteOrder.number, List.foldr_nil]
        omega
  cases reader with
  | readByte =>
      have value := signed_value (single within) (show 2 ^ 8 = 256 ^ 1 by decide)
      exact converted_run (readByte_run sound enough) value
  | readUnsignedByte =>
      have read := readByte_run sound enough
      refine converted_run (converted_run read (masked_cast (show 8 ≤ 32 by decide) _)) ?_
      rw [single within]
      exact unsigned_value top
  | readShort =>
      have got := serves.short buffer.readerIdx.toNat within
      rw [start] at got
      change _ = Except.ok (buffer.order.shortAt _ _) at got
      have value := signed_value (shortAt_toNat buffer.order within) (show 2 ^ 16 = 256 ^ 2 by decide)
      exact converted_run (readTyped_run sound enough got) value
  | readUnsignedShort =>
      have got := serves.short buffer.readerIdx.toNat within
      rw [start] at got
      change _ = Except.ok (buffer.order.shortAt _ _) at got
      have read := readTyped_run sound enough got
      refine converted_run (converted_run read (masked_cast (show 16 ≤ 32 by decide) _)) ?_
      rw [shortAt_toNat buffer.order within]
      exact unsigned_value top
  | readMedium =>
      have got := serves.medium buffer.readerIdx.toNat within
      rw [start] at got
      change _ = Except.ok (buffer.order.mediumAt _ _) at got
      have number := mediumAt_toNat buffer.order within
      have read := readTyped_run sound enough got
      refine converted_run (converted_run read rfl) ?_
      rw [medium_sign (by rw [number]; exact top), number]
      rfl
  | readUnsignedMedium =>
      have got := serves.medium buffer.readerIdx.toNat within
      rw [start] at got
      change _ = Except.ok (buffer.order.mediumAt _ _) at got
      have number := mediumAt_toNat buffer.order within
      refine converted_run (readTyped_run sound enough got) ?_
      have positive : (buffer.order.mediumAt buffer.content buffer.readerIdx.toNat).toInt =
          (buffer.order.mediumAt buffer.content buffer.readerIdx.toNat).toNat := by
        apply BitVec.toInt_eq_toNat_of_lt
        rw [number]
        exact Nat.lt_trans (Nat.mul_lt_mul_of_pos_left top (Nat.succ_pos 1)) (by decide)
      rw [positive, number]
      exact unsigned_value top
  | readInt =>
      have got := serves.int buffer.readerIdx.toNat within
      rw [start] at got
      change _ = Except.ok (buffer.order.intAt _ _) at got
      have value := signed_value (intAt_toNat buffer.order within) (show 2 ^ 32 = 256 ^ 4 by decide)
      exact converted_run (readTyped_run sound enough got) value
  | readUnsignedInt =>
      have got := serves.int buffer.readerIdx.toNat within
      rw [start] at got
      change _ = Except.ok (buffer.order.intAt _ _) at got
      have read := readTyped_run sound enough got
      refine converted_run (converted_run read (BitVec.and_allOnes)) ?_
      rw [intAt_toNat buffer.order within]
      exact unsigned_value top
  | readLong =>
      have got := serves.long buffer.readerIdx.toNat within
      rw [start] at got
      change _ = Except.ok (buffer.order.longAt _ _) at got
      have value := signed_value (longAt_toNat buffer.order within) (show 2 ^ 64 = 256 ^ 8 by decide)
      exact converted_run (readTyped_run sound enough got) value

end Reads

end Reader

/-- An array that `readBytes` fills from `dstIndex` on. -/
structure Target (length : Nat) where
  dst : CharArray
  small : (dst.length : Int) ≤ maxInt
  dstIndex : Nat
  room : dstIndex + length ≤ dst.length

/-- Some bytes, or a range of an array, which may be empty. -/
def Source.Copied (source : Source) : Prop :=
  0 < source.length ∨ ∃ order, source.getters = Getters.heap order source.content

/-- A value that is written, and how it is read back: a bulk value into a new buffer or into an
array. -/
inductive TypedExchange where
  | typed (value : TypedValue) (reader : Reader) (matching : reader.width = value.width)
  | bytes (source : Source) (copied : source.Copied) (target : Option (Target source.length))

inductive Reading where
  | number (value : Int)
  | bytes (cells : CharArray)

namespace TypedExchange

def write : TypedExchange → BufferM Unit
  | typed value _ _ => BufferM.writeTyped value
  | bytes source _ _ => BufferM.writeFrom source.getters source.srcIndex source.length

def read : TypedExchange → BufferM Reading
  | typed _ reader _ => do return .number (← reader.program)
  | bytes source _ none => do
      let part ← BufferM.readBytes source.length
      pure (.bytes part.readableContent)
  | bytes source _ (some target) => do
      let filled ← BufferM.readArray target.dst target.dstIndex source.length
      pure (.bytes (window filled target.dstIndex source.length))

/-- What is stored for a value. -/
def representation (order : ByteOrder) : TypedExchange → List Byte
  | typed value _ _ => order.digits value.width value.unsignedArgument
  | bytes source _ _ => source.bytes

/-- What is read back. -/
def expected : TypedExchange → Reading
  | typed value reader _ => .number (reader.reduced value.argument)
  | bytes source _ _ => .bytes source.bytes

def writeAll : List TypedExchange → BufferM Unit
  | [] => pure ()
  | exchange :: rest => do
      exchange.write
      writeAll rest

def readAll : List TypedExchange → BufferM (List Reading)
  | [] => pure []
  | exchange :: rest => do
      let reading ← exchange.read
      let readings ← readAll rest
      pure (reading :: readings)

/-- The bytes stored for all values. -/
def stream (order : ByteOrder) (exchanges : List TypedExchange) : List Byte :=
  exchanges.flatMap (representation order)

end TypedExchange

namespace HeapChannelBuffer

/-- The buffer with bytes written at its writer index. -/
def extended (this : HeapChannelBuffer) (bytes : List Byte) : HeapChannelBuffer :=
  { this.withWriter (this.idx.writerIdx + bytes.length) with
    arry := overwrite this.arry this.idx.writerIdx.toNat bytes }

section Extending

variable {this : HeapChannelBuffer}

theorem extended_nil (this : HeapChannelBuffer) : this.extended [] = this := by
  unfold extended withWriter
  rw [overwrite_nothing, List.length_nil, Int.natCast_zero, Int.add_zero]

section

variable {bytes : List Byte} (inside : this.Inside)
  (room : this.idx.writerIdx + bytes.length ≤ this.arry.length)

include inside room

theorem extended_length :
    (this.extended bytes).arry.length = this.arry.length := by
  have writer := inside.writer
  apply overwrite_length
  omega

theorem extended_inside :
    (this.extended bytes).Inside := by
  have size := extended_length inside room
  have order := inside.indices.writer
  refine ⟨⟨inside.indices.reader, ?_, ?_⟩, ?_⟩
  · change this.idx.readerIdx ≤ this.idx.writerIdx + bytes.length
    omega
  · rw [size]
    exact room
  · rw [size]
    exact inside.small

end

theorem extended_extended {first second : List Byte} (inside : this.Inside)
    (room : this.idx.writerIdx + (first ++ second).length ≤ this.arry.length) :
    (this.extended first).extended second = this.extended (first ++ second) := by
  have writer := inside.writer
  rw [List.length_append] at room
  have moved : (this.idx.writerIdx + first.length).toNat = this.idx.writerIdx.toNat + first.length := by
    omega
  unfold extended withWriter
  dsimp only
  rw [moved, overwrite_append (by omega), List.length_append,
    Int.natCast_add, Int.add_assoc]

theorem extended_readable {bytes : List Byte} (inside : this.Inside)
    (unread : this.idx.readerIdx = this.idx.writerIdx) :
    (ChannelBuffer.heap (this.extended bytes)).readableContent = bytes := by
  have writer := inside.writer
  have start : this.idx.readerIdx.toNat = this.idx.writerIdx.toNat := by rw [unread]
  have amount : (this.idx.writerIdx + bytes.length - this.idx.readerIdx).toNat = bytes.length := by
    omega
  unfold ChannelBuffer.readableContent
  rw [ChannelBuffer.content]
  change window (overwrite this.arry this.idx.writerIdx.toNat bytes) this.idx.readerIdx.toNat
    (this.idx.writerIdx + bytes.length - this.idx.readerIdx).toNat = bytes
  rw [start, amount]
  exact window_overwrite_same (by omega)

end Extending

end HeapChannelBuffer

namespace TypedExchange

open ChannelBuffer HeapChannelBuffer

section Writes

variable {this : HeapChannelBuffer}

theorem source_copies {source : Source} (copied : source.Copied) {dst : CharArray} {dstIndex : Nat}
    (room : dstIndex + source.length ≤ dst.length) (small : (dst.length : Int) ≤ maxInt) :
    source.getters.getBytes source.srcIndex dst dstIndex source.length =
      .ok (overwrite dst dstIndex source.bytes) := by
  rcases copied with positive | ⟨order, array⟩
  · exact source.serves.bytes _ _ dst dstIndex positive source.within room small
  · have whole := CharArray.copy_of_inside source.within room source.serves.small small
    rw [array]
    simp only [Getters.heap]
    exact whole

theorem representation_typed (order : ByteOrder) (value : TypedValue) (reader : Reader)
    (matching : reader.width = value.width) :
    (typed value reader matching).representation order = value.bytes order :=
  (value.bytes_digits order).symm

/-- One write stores the representation of its value at the writer index. -/
theorem write_run (inside : this.Inside) (exchange : TypedExchange)
    (room : this.idx.writerIdx + (exchange.representation this.byteOrder).length ≤
      this.arry.length) :
    exchange.write.run (.heap this) =
      .ok () (.heap (this.extended (exchange.representation this.byteOrder))) := by
  have writer := inside.writer
  cases exchange with
  | typed value reader matching =>
      rw [representation_typed, TypedValue.bytes_length] at room
      have stores : stored this.arry this.idx.writerIdx (value.bytes this.byteOrder) =
          overwrite this.arry this.idx.writerIdx.toNat (value.bytes this.byteOrder) := by
        have inner : this.idx.writerIdx.toNat + (value.bytes this.byteOrder).length ≤
            this.arry.length := by
          rw [TypedValue.bytes_length]
          omega
        have fits := stored_fits inner
        rwa [Int.toNat_of_nonneg writer.1] at fits
      have same : this.wrote value = this.extended (value.bytes this.byteOrder) := by
        unfold wrote extended
        rw [stores, TypedValue.bytes_length]
      rw [representation_typed, ← same]
      exact BufferM.writeTyped_fits inside room
  | bytes source copied target =>
      have size : source.bytes.length = source.length := source.bytes_length
      have small := inside.small
      change this.idx.writerIdx + source.bytes.length ≤ _ at room
      have copies := source_copies copied
        (show this.idx.writerIdx.toNat + source.length ≤ this.arry.length by omega) small
      rw [Int.toNat_of_nonneg writer.1] at copies
      have filled : (ChannelBuffer.heap this).setBytes this.idx.writerIdx source.getters
          source.srcIndex source.length = .ok (.heap { this with
            arry := overwrite this.arry this.idx.writerIdx.toNat source.bytes }) := by
        rw [ChannelBuffer.setBytes, HeapChannelBuffer.setBytes, copies]
        rfl
      have moved : int32 (this.idx.writerIdx + source.length) =
          this.idx.writerIdx + source.bytes.length := by
        rw [size]
        exact int32_of_nonneg (by omega) (by omega)
      change (BufferM.writeFrom source.getters source.srcIndex source.length).run (.heap this) =
        .ok () (.heap (this.extended source.bytes))
      unfold BufferM.writeFrom extended withWriter
      rw [← moved]
      change ((call ((ChannelBuffer.heap this).setBytes this.idx.writerIdx source.getters
        source.srcIndex source.length) : BufferM ChannelBuffer) >>= _).run (.heap this) = _
      rw [filled, run_bind_ok _ (run_call_ok _ _)]
      rfl

theorem stream_cons (order : ByteOrder) (exchange : TypedExchange) (rest : List TypedExchange) :
    stream order (exchange :: rest) = exchange.representation order ++ stream order rest :=
  List.flatMap_cons

theorem writeAll_run (inside : this.Inside) {exchanges : List TypedExchange}
    (room : this.idx.writerIdx + (stream this.byteOrder exchanges).length ≤ this.arry.length) :
    (writeAll exchanges).run (.heap this) =
      .ok () (.heap (this.extended (stream this.byteOrder exchanges))) := by
  induction exchanges generalizing this with
  | nil =>
      rw [show stream this.byteOrder [] = [] from rfl, extended_nil]
      rfl
  | cons exchange rest ih =>
      have whole := room
      rw [stream_cons] at whole
      rw [stream_cons, List.length_append] at room
      have here : this.idx.writerIdx + (exchange.representation this.byteOrder).length ≤
          this.arry.length := by omega
      have size := extended_length inside here
      have next : (this.extended (exchange.representation this.byteOrder)).idx.writerIdx =
          this.idx.writerIdx + (exchange.representation this.byteOrder).length := rfl
      have first := write_run inside exchange here
      have later := ih (extended_inside inside here) (by
        rw [size, next]
        change _ + ((stream this.byteOrder rest).length : Int) ≤ _
        omega)
      rw [stream_cons, ← extended_extended inside whole]
      exact (run_bind_ok _ first).trans later

end Writes

section Reads

variable {buffer : ChannelBuffer} {order : ByteOrder}

/-- What is left to read. -/
structure Unread (order : ByteOrder) (buffer : ChannelBuffer) (bytes : List Byte) : Prop where
  sound : buffer.Sound
  ordered : buffer.order = order
  readable : buffer.readableContent = bytes

theorem Unread.advance {front back : List Byte} (unread : Unread order buffer (front ++ back)) :
    Unread order (buffer.advance front.length) back := by
  have bounded : front.length ≤ buffer.readableContent.length := by
    rw [unread.readable, List.length_append]
    omega
  refine ⟨unread.sound.advance bounded, ?_, ?_⟩
  · have same : (buffer.advance front.length).order = buffer.order := by
      unfold ChannelBuffer.advance ChannelBuffer.order
      rw [getters_withIdx]
    exact same.trans unread.ordered
  · rw [unread.sound.readable_advance, unread.readable, List.drop_left]

theorem Unread.compacted {bytes : List Byte} (unread : Unread order buffer bytes) :
    Unread order (BufferM.compacted buffer) [] := by
  refine ⟨BufferM.compacted_sound unread.sound, ?_, BufferM.compacted_readable buffer⟩
  have same : (BufferM.compacted buffer).order = buffer.order := by
    unfold BufferM.compacted ChannelBuffer.order
    rw [getters_withIdx]
  exact same.trans unread.ordered

/-- One read takes the representation of its value from the front. -/
theorem read_run {rest : List Byte} (exchange : TypedExchange)
    (unread : Unread order buffer (exchange.representation order ++ rest)) :
    ∃ after, exchange.read.run buffer = .ok exchange.expected after ∧ Unread order after rest := by
  have front : (buffer.readableContent).take (exchange.representation order).length =
      exchange.representation order := by
    rw [unread.readable, List.take_left]
  have bounded : (exchange.representation order).length ≤ buffer.readableContent.length := by
    rw [unread.readable, List.length_append]
    omega
  cases exchange with
  | typed value reader matching =>
      rw [representation_typed] at front bounded unread
      have size : (value.bytes order).length = reader.width := by
        rw [TypedValue.bytes_length, matching]
      have advanced := unread.advance
      rw [size] at front bounded advanced
      have ran := reader.program_run unread.sound bounded
      rw [front, unread.ordered, TypedValue.number_bytes, reader.reduced_argument value matching]
        at ran
      exact ⟨_, Reader.converted_run ran rfl, advanced⟩
  | bytes source copied target =>
      have size : source.bytes.length = source.length := source.bytes_length
      change buffer.readableContent.take source.bytes.length = source.bytes at front
      change source.bytes.length ≤ _ at bounded
      have advanced : Unread order (buffer.advance source.bytes.length) rest := unread.advance
      rw [size] at front bounded advanced
      by_cases nothing : source.length = 0
      · have empty : source.bytes = [] := List.length_eq_zero_iff.mp (size.trans nothing)
        have here : Unread order buffer rest := by
          rw [nothing, advance_zero] at advanced
          exact advanced
        refine ⟨buffer, ?_, here⟩
        unfold read expected
        cases target with
        | none =>
            dsimp only
            rw [empty, nothing]
            rfl
        | some target =>
            have taken : window target.dst target.dstIndex source.length = [] :=
              List.length_eq_zero_iff.mp ((window_length target.room).trans nothing)
            dsimp only
            unfold BufferM.readArray
            rw [if_pos (by omega), pure_bind, taken, empty]
            rfl
      · have positive : 0 < source.length := Nat.pos_of_ne_zero nothing
        cases target with
        | none =>
            have ran := BufferM.readBytes_run unread.sound positive bounded
            rw [front] at ran
            have read := BufferM.copyOf_shows buffer.order source.bytes
            have converted : (TypedExchange.read (.bytes source copied none)).run buffer =
                .ok (.bytes source.bytes) (if source.length = buffer.readableContent.length then
                  BufferM.compacted buffer else buffer.advance source.length) := by
              unfold TypedExchange.read
              dsimp only
              rw [run_bind_ok _ ran, read]
              rfl
            refine ⟨_, converted, ?_⟩
            split
            · rename_i drained
              have last : rest = [] := by
                have whole := congrArg List.length unread.readable
                change _ = (source.bytes ++ rest).length at whole
                rw [List.length_append] at whole
                exact List.length_eq_zero_iff.mp (by omega)
              rw [last]
              exact unread.compacted
            · exact advanced
        | some target =>
            have ran := BufferM.readArray_queue unread.sound positive bounded target.room target.small
            rw [front] at ran
            refine ⟨_, ?_, advanced⟩
            unfold read expected
            dsimp only
            rw [run_bind_ok _ ran]
            have back : window (overwrite target.dst target.dstIndex source.bytes) target.dstIndex
                source.bytes.length = source.bytes := by
              have room := target.room
              exact window_overwrite_same (by omega)
            rw [size] at back
            rw [back]
            rfl

theorem readAll_run {exchanges : List TypedExchange}
    (unread : Unread order buffer (stream order exchanges)) :
    ∃ after, (readAll exchanges).run buffer = .ok (exchanges.map expected) after := by
  induction exchanges generalizing buffer with
  | nil => exact ⟨buffer, rfl⟩
  | cons exchange rest ih =>
      rw [stream_cons] at unread
      obtain ⟨middle, first, left⟩ := read_run exchange unread
      obtain ⟨after, later⟩ := ih left
      refine ⟨after, ?_⟩
      unfold readAll
      rw [run_bind_ok _ first, run_bind_ok _ later]
      rfl

end Reads

/-- Values written behind each other into a heap buffer with room for them, and read back. -/
theorem written_read_back {this : HeapChannelBuffer} (inside : this.Inside)
    (unread : this.idx.readerIdx = this.idx.writerIdx) {exchanges : List TypedExchange}
    (room : this.idx.writerIdx + (stream this.byteOrder exchanges).length ≤ this.arry.length) :
    ∃ between after,
      (writeAll exchanges).run (.heap this) = .ok () (.heap between) ∧
      between.arry = overwrite this.arry this.idx.writerIdx.toNat (stream this.byteOrder exchanges) ∧
      (readAll exchanges).run (.heap between) = .ok (exchanges.map expected) after := by
  have filled := extended_inside inside room
  have left : Unread this.byteOrder (.heap (this.extended (stream this.byteOrder exchanges)))
      (stream this.byteOrder exchanges) := by
    refine ⟨heap_sound filled.small filled.indices, ?_, extended_readable inside unread⟩
    unfold ChannelBuffer.order
    rw [ChannelBuffer.getters]
    rfl
  obtain ⟨after, ran⟩ := readAll_run left
  exact ⟨_, after, writeAll_run inside room, rfl, ran⟩

/-- A negative medium and two chars of an array, little-endian. -/
def minusTwo : List TypedExchange :=
  [.typed (.medium (-2)) .readMedium rfl,
    .bytes ⟨.heap .big [1, 2], [1, 2], Getters.heap_serves .big (by decide), 0, 2, by decide⟩
      (Or.inr ⟨.big, rfl⟩) none]

theorem minusTwo_read_back :
    ∃ between after,
      (writeAll minusTwo).run (.heap ⟨.little, List.replicate 5 0, .zero⟩) =
        .ok () (.heap between) ∧
      between.arry = overwrite (List.replicate 5 0) 0 (stream .little minusTwo) ∧
      (readAll minusTwo).run (.heap between) = .ok (minusTwo.map expected) after := by
  have inside : HeapChannelBuffer.Inside ⟨.little, List.replicate 5 0, .zero⟩ :=
    ⟨⟨by decide, by decide, by decide⟩, by decide⟩
  exact written_read_back inside rfl (by decide)

end TypedExchange

end Cetty
