import Cetty.BufferOperations
import Cetty.HeapWrites

/-!
# What a failing operation of a heap buffer leaves

Every operation of a heap buffer that can throw a `RangeException`, and whether the
buffer is then as it was. The setters store byte by byte, `writeByte` moves its index
first and `writeZero` is several writes.
-/

namespace Cetty

open MachineInt ByteWindow

/-- The operations; `src` and `dst` are other buffers. -/
inductive HeapCall where
  | setTyped (index : Int) (value : TypedValue)
  | setFrom (index : Int) (src : Getters) (srcIndex length : Int)
  | setBuffer (index : Int) (src : ChannelBuffer) (length : Int)
  | setZero (index length : Int)
  | writeTyped (value : TypedValue)
  | writeFrom (src : Getters) (srcIndex length : Int)
  | writeBuffer (src : ChannelBuffer) (length : Int)
  | writeZero (length : Int)
  | readByte
  | readShort
  | readUnsignedMedium
  | readInt
  | readLong
  | readBytes (length : Int)
  | readArray (dst : CharArray) (dstIndex length : Int)
  | readBuffer (dst : ChannelBuffer) (length : Int)
  | skipBytes (length : Int)

namespace HeapCall

def program : HeapCall → BufferM Unit
  | setTyped index value => BufferM.setTyped index value
  | setFrom index src srcIndex length => BufferM.setFrom index src srcIndex length
  | setBuffer index src length => do let _ ← BufferM.setBuffer index src length
  | setZero index length => BufferM.setZero index length
  | writeTyped value => BufferM.writeTyped value
  | writeFrom src srcIndex length => BufferM.writeFrom src srcIndex length
  | writeBuffer src length => do let _ ← BufferM.writeBuffer src length
  | writeZero length => BufferM.writeZero length
  | readByte => do let _ ← BufferM.readByte
  | readShort => do let _ ← BufferM.readShort
  | readUnsignedMedium => do let _ ← BufferM.readUnsignedMedium
  | readInt => do let _ ← BufferM.readInt
  | readLong => do let _ ← BufferM.readLong
  | readBytes length => do let _ ← BufferM.readBytes length
  | readArray dst dstIndex length => do let _ ← BufferM.readArray dst dstIndex length
  | readBuffer dst length => do let _ ← BufferM.readBuffer dst length
  | skipBytes length => BufferM.skipBytes length

def IsInt (value : Int) : Prop := minInt ≤ value ∧ value ≤ maxInt

/-- A length that counts for the index of another buffer is an `int`, and that buffer is
one the library has built, its indices in order. -/
def WellFormed : HeapCall → Prop
  | setBuffer _ src length => IsInt length ∧ src.Sound
  | writeBuffer src length => IsInt length ∧ src.Sound
  | readBuffer dst length => IsInt length ∧ dst.Sound
  | _ => True

end HeapCall

namespace HeapChannelBuffer

/-- Where the operation throws a `RangeException`, the content and both indices are as
they were. -/
def Unharmed (this : HeapChannelBuffer) (call : HeapCall) : Prop :=
  ∀ message after, call.program.run (.heap this) = .error (rangeException message) after →
    after.content = this.arry ∧ after.readerIdx = this.idx.readerIdx ∧
      after.writerIdx = this.idx.writerIdx

/-- The bytes begin inside the array and leave it, and those inside are not there yet. -/
def Torn (arry : CharArray) (index : Int) (bytes : List Byte) : Prop :=
  0 ≤ index ∧ index < arry.length ∧ arry.length < index + bytes.length ∧
    window arry index.toNat (arry.length - index.toNat) ≠ bytes.take (arry.length - index.toNat)

/-- The width of the first write of `writeZero`. -/
def firstZeros (length : Int) : Nat := if 8 ≤ length then 8 else if 4 ≤ length then 4 else 1

/-- When an operation does no harm if it fails. The last two conditions are about negative
lengths, which buffers that wrap a composite one let through. -/
def Harmless (this : HeapChannelBuffer) : HeapCall → Prop
  | .setTyped index value => ¬Torn this.arry index (value.bytes this.byteOrder)
  | .setZero index length => ¬Torn this.arry index (List.replicate length.toNat 0)
  | .writeTyped value =>
      if early value then this.idx.writerIdx < this.arry.length
      else ¬Torn this.arry this.idx.writerIdx (value.bytes this.byteOrder)
  | .writeZero length =>
      length ≤ 0 ∨ this.idx.writerIdx + length ≤ this.arry.length ∨
        4 ≤ length ∧ this.arry.length < this.idx.writerIdx + firstZeros length ∧
          ¬Torn this.arry this.idx.writerIdx (List.replicate (firstZeros length) 0)
  | .writeBuffer src length =>
      0 ≤ length ∨ 0 ≤ src.readerIdx + length ∨
        ∃ stop, src.getters.getBytes src.readerIdx this.arry this.idx.writerIdx length = .error stop
  | .readBuffer dst length =>
      0 ≤ length ∨ dst.readerIdx ≤ dst.writerIdx + length ∨
        ∃ stop, dst.setBytes dst.writerIdx this.getters this.idx.readerIdx length = .error stop
  | _ => True

end HeapChannelBuffer

section Stopping

variable {Value Next : Type}

/-- A program that stops leaves the state as it was. -/
def StopsUnchanged {State : Type} (program : Exec State Value) : Prop :=
  ∀ before stop after, program.run before = .error stop after → after = before

variable {State : Type} {program : Exec State Value} {next : Value → Exec State Next}

/-- Only the last part of the program changes the state. -/
theorem StopsUnchanged.bind (keeps : ∀ kept, Keeps (fun state => state = kept) program)
    (later : ∀ value, StopsUnchanged (next value)) : StopsUnchanged (program >>= next) := by
  intro before stop after ran
  cases first : program.run before with
  | ok value middle =>
      rw [run_bind_ok _ first] at ran
      rw [later value middle stop after ran]
      exact (keeps before).after_ok rfl first
  | error early left =>
      rw [run_bind_error _ first] at ran
      cases ran
      exact (keeps before).after_error rfl first

theorem StopsUnchanged.map (stops : StopsUnchanged program) (change : Value → Next) :
    StopsUnchanged (program >>= fun value => pure (change value)) := by
  intro before stop after ran
  cases first : program.run before with
  | ok value middle =>
      rw [run_bind_ok _ first] at ran
      cases ran
  | error early left =>
      rw [run_bind_error _ first] at ran
      cases ran
      exact stops before _ _ first

theorem StopsUnchanged.sets (state : State) (value : Value) :
    StopsUnchanged (do set state; pure value : Exec State Value) := by
  intro before stop after ran
  cases ran

theorem StopsUnchanged.set_only (state : State) : StopsUnchanged (set state : Exec State Unit) := by
  intro before stop after ran
  cases ran

theorem StopsUnchanged.pure (value : Value) : StopsUnchanged (pure value : Exec State Value) := by
  intro before stop after ran
  cases ran

end Stopping

namespace BufferM

variable {minimumReadableBytes : Int}

theorem checkReadableBytes_short {buffer : ChannelBuffer}
    (short : buffer.readableBytes < minimumReadableBytes) :
    (checkReadableBytes minimumReadableBytes).run buffer =
      .error (rangeException "no data to read") buffer := by
  change (if buffer.readableBytes < minimumReadableBytes then throw (rangeException "no data to read")
    else pure () : BufferM Unit).run buffer = _
  rw [if_pos short]
  rfl

theorem checkReadableBytes_enough {buffer : ChannelBuffer}
    (enough : ¬buffer.readableBytes < minimumReadableBytes) :
    (checkReadableBytes minimumReadableBytes).run buffer = .ok () buffer := by
  change (if buffer.readableBytes < minimumReadableBytes then throw (rangeException "no data to read")
    else pure () : BufferM Unit).run buffer = _
  rw [if_neg enough]
  rfl

theorem checkReadableBytes_keeps (minimumReadableBytes : Int) (kept : ChannelBuffer) :
    Keeps (fun state => state = kept) (checkReadableBytes minimumReadableBytes) := by
  unfold checkReadableBytes
  apply Keeps.bind Keeps.get
  intro this
  split
  · exact Keeps.throw _
  · exact Keeps.pure _

theorem readTyped_stops {Value : Type} (width : Int) (get_ : Getters → Int → Except Stop Value) :
    StopsUnchanged (readTyped width get_) := by
  unfold readTyped
  apply StopsUnchanged.bind (checkReadableBytes_keeps width)
  intro _
  apply StopsUnchanged.bind fun _ => Keeps.get
  intro this
  apply StopsUnchanged.bind fun _ => Keeps.call _
  intro value
  exact .sets _ value

theorem readBytes_stops (length : Int) : StopsUnchanged (readBytes length) := by
  unfold readBytes
  split
  · exact .pure _
  · apply StopsUnchanged.bind (checkReadableBytes_keeps length)
    intro _
    apply StopsUnchanged.bind fun _ => Keeps.get
    intro this
    apply StopsUnchanged.bind fun _ => Keeps.call _
    intro fresh
    apply StopsUnchanged.bind fun _ => Keeps.call _
    intro filled
    dsimp only
    split
    · exact .sets _ _
    · exact .sets _ _

theorem readArray_stops (dst : CharArray) (dstIndex length : Int) :
    StopsUnchanged (readArray dst dstIndex length) := by
  unfold readArray
  split
  · exact .pure _
  · apply StopsUnchanged.bind (checkReadableBytes_keeps length)
    intro _
    apply StopsUnchanged.bind fun _ => Keeps.get
    intro this
    apply StopsUnchanged.bind fun _ => Keeps.call _
    intro filled
    exact .sets _ filled

theorem skipBytes_stops (length : Int) : StopsUnchanged (skipBytes length) := by
  unfold skipBytes
  apply StopsUnchanged.bind fun _ => Keeps.get
  intro this
  dsimp only
  split
  · apply StopsUnchanged.bind fun _ => Keeps.throw _
    intro _
    exact .set_only _
  · exact .set_only _

theorem setFrom_stops (index : Int) (src : Getters) (srcIndex length : Int) :
    StopsUnchanged (setFrom index src srcIndex length) := by
  unfold setFrom
  apply StopsUnchanged.bind fun _ => Keeps.get
  intro this
  apply StopsUnchanged.bind fun _ => Keeps.call _
  intro filled
  exact .set_only _

end BufferM

namespace ChannelBuffer

theorem copy_length {dst src filled : CharArray} {dstIndex srcIndex length : Int}
    (ran : CharArray.copy dst dstIndex src srcIndex length = .ok filled) :
    filled.length = dst.length := by
  unfold CharArray.copy at ran
  dsimp only at ran
  split at ran
  · cases ran
  · split at ran
    · cases ran
    · cases ran
      have size : (window src srcIndex.toNat length.toNat).length = length.toNat :=
        window_length (by omega)
      exact overwrite_length (by rw [size]; omega)

/-- A negative length is refused, or nothing is transferred. -/
theorem getBytes_negative : (buffer : ChannelBuffer) → ∀ {index dstIndex length : Int}
    {dst filled : CharArray}, length < 0 →
    buffer.getters.getBytes index dst dstIndex length = .ok filled → filled = dst
  | heap buffer, index, dstIndex, length, dst, filled, negative, ran => by
      simp only [getters, HeapChannelBuffer.getters, Getters.heap] at ran
      unfold CharArray.copy at ran
      rw [if_pos (Or.inr (Or.inr (Or.inl negative)))] at ran
      cases ran
  | dynamic endianness factory buffer idx, index, dstIndex, length, dst, filled, negative, ran => by
      simp only [getters, HeapChannelBuffer.getters, Getters.heap] at ran
      unfold CharArray.copy at ran
      rw [if_pos (Or.inr (Or.inr (Or.inl negative)))] at ran
      cases ran
  | sliced buffer adjustment capacity idx, index, dstIndex, length, dst, filled, negative, ran => by
      simp only [getters, Getters.sliced, Getters.view] at ran
      unfold Getters.slicedCheck at ran
      rw [if_pos negative] at ran
      cases ran
  | truncated buffer capacity idx, index, dstIndex, length, dst, filled, negative, ran => by
      simp only [getters, Getters.truncated, Getters.view] at ran
      unfold Getters.truncatedCheck at ran
      rw [if_pos negative] at ran
      cases ran
  | duplicated buffer idx, index, dstIndex, length, dst, filled, negative, ran => by
      simp only [getters] at ran
      exact getBytes_negative buffer negative ran
  | readOnly buffer idx, index, dstIndex, length, dst, filled, negative, ran => by
      simp only [getters] at ran
      exact getBytes_negative buffer negative ran
  | composite order components indices last idx, index, dstIndex, length, dst, filled,
      negative, ran => by
      simp only [getters, Getters.composite] at ran
      obtain ⟨componentId, -, rest⟩ := ok_of_bind ran
      split at rest
      · cases rest
      · generalize ((componentGetters components).zip indices).drop componentId = parts at rest
        cases parts with
        | nil =>
            rw [Getters.compositeCopy, if_neg (by omega)] at rest
            cases rest
            rfl
        | cons part parts =>
            rw [Getters.compositeCopy, if_neg (by omega)] at rest
            cases rest
            rfl

theorem setComponentBytes_length {components written : List ChannelBuffer} {indices : List Int}
    {skip : Nat} {index srcIndex length : Int} {src : Getters}
    (ran : setComponentBytes components indices skip index src srcIndex length = .ok written) :
    written.length = components.length := by
  induction components generalizing indices skip index srcIndex length written with
  | nil =>
      rw [setComponentBytes] at ran
      split at ran
      · cases ran
      · cases ran
        rfl
  | cons component rest ih =>
      cases skip with
      | zero =>
          rw [setComponentBytes] at ran
          split at ran
          · obtain ⟨first, -, more⟩ := ok_of_bind ran
            obtain ⟨others, later, made⟩ := ok_of_bind more
            cases made
            rw [List.length_cons, List.length_cons, ih later]
          · cases ran
            rfl
      | succ skip =>
          rw [setComponentBytes] at ran
          obtain ⟨others, later, made⟩ := ok_of_bind ran
          cases made
          rw [List.length_cons, List.length_cons, ih later]

/-- Stores keep the capacity and the indices. -/
theorem setBytes_shape : (buffer : ChannelBuffer) → ∀ {index srcIndex length : Int}
    {order : ByteOrder} {src : CharArray} {written : ChannelBuffer},
    buffer.setBytes index (.heap order src) srcIndex length = .ok written →
    written.idx = buffer.idx ∧ written.capacity = buffer.capacity
  | heap buffer, index, srcIndex, length, order, src, written, ran => by
      rw [setBytes] at ran
      obtain ⟨filled, first, made⟩ := ok_of_bind ran
      obtain ⟨arry, copied, stored⟩ := ok_of_bind first
      cases made
      cases stored
      have size := copy_length copied
      refine ⟨rfl, ?_⟩
      simp only [capacity, getters, HeapChannelBuffer.getters, Getters.heap, size]
  | dynamic endianness factory buffer idx, index, srcIndex, length, order, src, written, ran => by
      rw [setBytes] at ran
      obtain ⟨filled, first, made⟩ := ok_of_bind ran
      obtain ⟨arry, copied, stored⟩ := ok_of_bind first
      cases made
      cases stored
      have size := copy_length copied
      refine ⟨rfl, ?_⟩
      simp only [capacity, getters, HeapChannelBuffer.getters, Getters.heap, size]
  | sliced buffer adjustment capacity_ idx, index, srcIndex, length, order, src, written, ran => by
      rw [setBytes] at ran
      obtain ⟨checked, -, first⟩ := ok_of_bind ran
      obtain ⟨inner, -, made⟩ := ok_of_bind first
      cases made
      refine ⟨rfl, ?_⟩
      simp only [capacity, getters, Getters.sliced, Getters.view]
  | truncated buffer capacity_ idx, index, srcIndex, length, order, src, written, ran => by
      rw [setBytes] at ran
      obtain ⟨checked, -, first⟩ := ok_of_bind ran
      obtain ⟨inner, -, made⟩ := ok_of_bind first
      cases made
      refine ⟨rfl, ?_⟩
      simp only [capacity, getters, Getters.truncated, Getters.view]
  | duplicated buffer idx, index, srcIndex, length, order, src, written, ran => by
      rw [setBytes] at ran
      obtain ⟨inner, stored, made⟩ := ok_of_bind ran
      cases made
      have same := (setBytes_shape buffer stored).2
      refine ⟨rfl, ?_⟩
      simp only [capacity, getters] at same ⊢
      exact same
  | readOnly buffer idx, index, srcIndex, length, order, src, written, ran => by
      rw [setBytes] at ran
      cases ran
  | composite order_ components indices last idx, index, srcIndex, length, order, src, written,
      ran => by
      rw [setBytes] at ran
      obtain ⟨componentId, -, rest⟩ := ok_of_bind ran
      split at rest
      · cases rest
      · obtain ⟨others, stored, made⟩ := ok_of_bind rest
        cases made
        have size := setComponentBytes_length stored
        have counts : ∀ list : List ChannelBuffer, (componentGetters list).length = list.length := by
          intro list
          induction list with
          | nil => rw [componentGetters]; rfl
          | cons component rest ih => rw [componentGetters, List.length_cons, List.length_cons, ih]
        refine ⟨rfl, ?_⟩
        simp only [capacity, getters, Getters.composite, counts, size]

end ChannelBuffer

namespace HeapChannelBuffer

open BufferM

variable {this : HeapChannelBuffer}

section Outcomes

variable {call : HeapCall}

theorem unharmed_of_stops (stops : StopsUnchanged call.program) : this.Unharmed call := by
  intro message after ran
  rw [stops _ _ _ ran]
  exact ⟨rfl, rfl, rfl⟩

theorem unharmed_of_ok {after : ChannelBuffer}
    (ran : call.program.run (.heap this) = .ok () after) : this.Unharmed call := by
  intro message after failed
  rw [ran] at failed
  cases failed

theorem unharmed_iff_of_error {text : String} {left : HeapChannelBuffer}
    (ran : call.program.run (.heap this) = .error (rangeException text) (.heap left))
    (reader : left.idx.readerIdx = this.idx.readerIdx) :
    this.Unharmed call ↔ left.arry = this.arry ∧ left.idx.writerIdx = this.idx.writerIdx := by
  constructor
  · intro unharmed
    have same := unharmed text _ ran
    exact ⟨by simpa only [ChannelBuffer.content] using same.1, same.2.2⟩
  · rintro ⟨content, writer⟩ message after failed
    rw [ran] at failed
    cases failed
    exact ⟨by simpa only [ChannelBuffer.content] using content, reader, writer⟩

end Outcomes

section

variable {arry : CharArray} {index : Int} {bytes : List Byte}

theorem not_torn_of_fits (fits : Fits arry index bytes) : ¬Torn arry index bytes := by
  rintro ⟨lower, upper, beyond, -⟩
  rcases fits with none | inside
  · rw [none, List.length_nil] at beyond
    omega
  · omega

theorem stored_same_iff
    (full : ¬Fits arry index bytes) : stored arry index bytes = arry ↔ ¬Torn arry index bytes := by
  unfold Fits at full
  unfold stored Torn
  by_cases inside : 0 ≤ index ∧ index < arry.length
  · have beyond : arry.length < index + bytes.length := by
      by_contra room
      exact full (Or.inr ⟨inside.1, by omega⟩)
    have size : (bytes.take (arry.length - index.toNat)).length = arry.length - index.toNat := by
      rw [List.length_take]
      omega
    rw [if_pos inside, overwrite_same_iff (by omega), size]
    constructor
    · rintro same ⟨-, -, -, differs⟩
      exact differs same
    · intro whole
      by_contra differs
      exact whole ⟨inside.1, inside.2, beyond, differs⟩
  · rw [if_neg inside]
    refine ⟨?_, fun _ => rfl⟩
    rintro - ⟨lower, upper, -⟩
    exact inside ⟨lower, upper⟩

end

theorem int32_ne {value amount : Int} (moved : amount ≠ 0) (lower : -4294967296 < amount)
    (upper : amount < 4294967296) : int32 (value + amount) ≠ value := by
  intro same
  obtain ⟨turns, whole⟩ := int32_turns (value + amount)
  rw [same] at whole
  omega

/-- A run of stores that is not followed by anything. -/
theorem unharmed_stores {call : HeapCall} {index : Int} {bytes : List Byte}
    (mirrors : call.program.run (.heap this) = lifted ((storeAll index bytes).run this)) :
    this.Unharmed call ↔ ¬Torn this.arry index bytes := by
  rcases storeAll_run index bytes this with ⟨fits, ran⟩ | ⟨full, ran⟩
  · rw [ran] at mirrors
    exact ⟨fun _ => not_torn_of_fits fits, fun _ => unharmed_of_ok mirrors⟩
  · rw [ran] at mirrors
    rw [← stored_same_iff full]
    have outcome := unharmed_iff_of_error mirrors rfl
    exact outcome.trans ⟨fun same => same.1, fun same => ⟨same, rfl⟩⟩

theorem unharmed_setZero (index length : Int) :
    this.Unharmed (.setZero index length) ↔
      ¬Torn this.arry index (List.replicate length.toNat 0) := by
  by_cases positive : 0 < length
  · exact unharmed_stores (setZero_mirrors positive index this)
  · have nothing : List.replicate length.toNat (0 : Byte) = [] := by
      rw [show length.toNat = 0 by omega]
      rfl
    rw [nothing]
    refine ⟨fun _ => not_torn_of_fits (Or.inl rfl), fun _ => ?_⟩
    by_cases zero : length = 0
    · have ran : (HeapCall.setZero index length).program.run (.heap this) = .ok () (.heap this) := by
        change (BufferM.setZero index length).run _ = _
        unfold BufferM.setZero
        rw [if_pos zero]
        rfl
      exact unharmed_of_ok ran
    · intro message after ran
      change (BufferM.setZero index length).run _ = _ at ran
      unfold BufferM.setZero at ran
      rw [if_neg zero, if_pos (by omega)] at ran
      cases ran

theorem unharmed_writeTyped (inside : this.Inside) (value : TypedValue) :
    this.Unharmed (.writeTyped value) ↔ this.Harmless (.writeTyped value) := by
  have lower := inside.writer.1
  change _ ↔ if early value then this.idx.writerIdx < this.arry.length
    else ¬Torn this.arry this.idx.writerIdx (value.bytes this.byteOrder)
  by_cases fits : this.idx.writerIdx + value.width ≤ this.arry.length
  · refine ⟨fun _ => ?_, fun _ => unharmed_of_ok (writeTyped_fits inside fits)⟩
    split
    · have positive := value.width_pos
      omega
    · exact not_torn_of_fits ((fits_typed lower this.byteOrder).mpr fits)
  · have outcome : this.Unharmed (.writeTyped value) ↔ (this.stopped value).arry = this.arry ∧
        (this.stopped value).idx.writerIdx = this.idx.writerIdx :=
      unharmed_iff_of_error (writeTyped_full inside fits) rfl
    rw [outcome]
    cases when : early value with
    | true =>
        have width := width_of_early when
        rw [width] at fits
        have moved : (this.stopped value).idx.writerIdx = int32 (this.idx.writerIdx + 1) := by
          unfold stopped
          rw [when]
          rfl
        rw [moved, if_pos rfl]
        refine ⟨fun same => absurd same.2 (int32_ne (by omega) (by omega) (by omega)), fun room => ?_⟩
        omega
    | false =>
        have kept : (this.stopped value).idx.writerIdx = this.idx.writerIdx := by
          unfold stopped
          rw [when]
          rfl
        rw [kept, if_neg Bool.false_ne_true, ← stored_same_iff (fun whole =>
          fits ((fits_typed lower this.byteOrder).mp whole))]
        exact ⟨fun same => same.1, fun same => ⟨same, rfl⟩⟩

/-- The first of the writes that `writeZero` makes. -/
theorem zeros_head {length : Nat} (positive : 0 < length) :
    ∃ value rest, wideZeros length ++ List.replicate (singleBytes length) (.byte 0) = value :: rest ∧
      value.width = firstZeros length ∧ (early value = true ↔ length < 4) ∧
      ∀ order, value.bytes order = List.replicate (firstZeros length) 0 := by
  unfold wideZeros singleBytes firstZeros
  by_cases long : 8 ≤ length
  · obtain ⟨count, counted⟩ : ∃ count, length / 8 = count + 1 := ⟨length / 8 - 1, by omega⟩
    rw [counted, List.replicate_succ]
    refine ⟨.long 0, _, rfl, ?_, ?_, ?_⟩
    · rw [if_pos (by omega)]
      rfl
    · exact ⟨fun soon => (by cases soon), fun short => (by omega)⟩
    · intro order
      rw [if_pos (by omega)]
      exact (zero_bytes order).2.2
  · have none : length / 8 = 0 := by omega
    have same : length % 8 = length := by omega
    rw [none, same]
    by_cases four : 4 ≤ length
    · rw [if_neg (by omega)]
      refine ⟨.int 0, _, rfl, ?_, ?_, ?_⟩
      · rw [if_neg (by omega), if_pos (by omega)]
        rfl
      · exact ⟨fun soon => (by cases soon), fun short => (by omega)⟩
      · intro order
        rw [if_neg (by omega), if_pos (by omega)]
        exact (zero_bytes order).2.1
    · obtain ⟨count, counted⟩ : ∃ count, length = count + 1 := ⟨length - 1, by omega⟩
      rw [if_pos (by omega), if_pos (by omega), counted, List.replicate_succ]
      refine ⟨.byte 0, _, rfl, ?_, ?_, ?_⟩
      · rw [if_neg (by omega), if_neg (by omega)]
        rfl
      · exact ⟨fun _ => by omega, fun _ => rfl⟩
      · intro order
        rw [if_neg (by omega), if_neg (by omega)]
        exact (zero_bytes order).1

theorem wroteAll_reader (this : HeapChannelBuffer) (values : List TypedValue) :
    (wroteAll this values).idx.readerIdx = this.idx.readerIdx := by
  induction values generalizing this with
  | nil => rfl
  | cons value rest ih => exact ih (this.wrote value)

theorem unharmed_writeZero (inside : this.Inside) (length : Int) :
    this.Unharmed (.writeZero length) ↔ this.Harmless (.writeZero length) := by
  change _ ↔ length ≤ 0 ∨ this.idx.writerIdx + length ≤ this.arry.length ∨
    4 ≤ length ∧ this.arry.length < this.idx.writerIdx + firstZeros length ∧
      ¬Torn this.arry this.idx.writerIdx (List.replicate (firstZeros length) 0)
  have put : (HeapCall.writeZero length).program.run (.heap this) =
      (putZero length).run (.heap this) := rfl
  by_cases positive : 0 < length
  · have total := totalWidth_wideZeros length.toNat
    have single : totalWidth (List.replicate (singleBytes length.toNat) (.byte 0)) =
        singleBytes length.toNat := by
      rw [totalWidth_replicate]
      exact Nat.mul_one _
    rw [putZero_all positive] at put
    by_cases fits : this.idx.writerIdx + length ≤ this.arry.length
    · rw [writeAll_fits inside (by rw [totalWidth_append, single]; omega)] at put
      exact ⟨fun _ => Or.inr (Or.inl fits), fun _ => unharmed_of_ok put⟩
    · have beyond_ : ¬this.idx.writerIdx + totalWidth (wideZeros length.toNat ++
          List.replicate (singleBytes length.toNat) (.byte 0)) ≤ this.arry.length := by
        rw [totalWidth_append, single]
        omega
      obtain ⟨front, value, back, split_, before, beyond, ran⟩ :=
        writeAll_full inside beyond_
      obtain ⟨head, rest, whole, width, soon, zeros⟩ := zeros_head (show 0 < length.toNat by omega)
      rw [whole] at split_
      have length_ : ((length.toNat : Nat) : Int) = length := by omega
      rw [length_] at width zeros
      rw [ran] at put
      have reader : ((wroteAll this front).stopped value).idx.readerIdx = this.idx.readerIdx :=
        wroteAll_reader this front
      rw [unharmed_iff_of_error put reader]
      have refused : (length ≤ 0 ∨ this.idx.writerIdx + length ≤ this.arry.length ∨
          4 ≤ length ∧ this.arry.length < this.idx.writerIdx + firstZeros length ∧
            ¬Torn this.arry this.idx.writerIdx (List.replicate (firstZeros length) 0)) ↔
          4 ≤ length ∧ this.arry.length < this.idx.writerIdx + firstZeros length ∧
            ¬Torn this.arry this.idx.writerIdx (List.replicate (firstZeros length) 0) :=
        ⟨fun some => (some.resolve_left (by omega)).resolve_left fits, fun third => Or.inr (Or.inr third)⟩
      rw [refused]
      cases front with
      | nil =>
          obtain ⟨same, -⟩ := List.cons.inj split_
          subst same
          change ¬this.idx.writerIdx + ((0 : Nat) : Int) + head.width ≤ _ at beyond
          rw [width] at beyond
          change (this.stopped head).arry = _ ∧ (this.stopped head).idx.writerIdx = _ ↔ _
          cases when : early head with
          | true =>
              have short := soon.mp when
              have moved : (this.stopped head).idx.writerIdx = int32 (this.idx.writerIdx + 1) := by
                unfold stopped
                rw [when]
                rfl
              rw [moved]
              refine ⟨fun same => absurd same.2 (int32_ne (by omega) (by omega) (by omega)), fun third => ?_⟩
              omega
          | false =>
              have wide : 4 ≤ length := by
                by_contra short
                rw [soon.mpr (by omega)] at when
                cases when
              have kept : (this.stopped head).idx.writerIdx = this.idx.writerIdx := by
                unfold stopped
                rw [when]
                rfl
              have full : ¬Fits this.arry this.idx.writerIdx (head.bytes this.byteOrder) := by
                rw [fits_typed inside.writer.1, width]
                omega
              rw [kept, ← zeros this.byteOrder, ← stored_same_iff full]
              exact ⟨fun same => ⟨wide, by omega, same.1⟩, fun third => ⟨third.2.2, rfl⟩⟩
      | cons first front =>
          obtain ⟨same, -⟩ := List.cons.inj split_
          subst same
          rw [totalWidth_cons] at before
          have positive_ := head.width_pos
          have bound := inside.small
          constructor
          · rintro ⟨-, writer⟩
            have far := (wroteAll_writer this (head :: front)).1
            rw [totalWidth_cons] at far
            unfold stopped at writer
            change (if early value = true then int32 ((wroteAll this (head :: front)).idx.writerIdx + 1)
              else (wroteAll this (head :: front)).idx.writerIdx) = this.idx.writerIdx at writer
            rw [far] at writer
            unfold maxInt at bound
            have lower := inside.writer.1
            split at writer
            · rw [Int.add_assoc] at writer
              exact absurd writer (int32_ne (by omega) (by omega) (by omega))
            · omega
          · rintro ⟨-, short, -⟩
            rw [← width] at short
            omega
  · refine ⟨fun _ => Or.inl (by omega), fun _ => ?_⟩
    unfold putZero at put
    by_cases zero : length = 0
    · rw [if_pos zero] at put
      exact unharmed_of_ok put
    · intro message after ran
      rw [if_neg zero, if_pos (by omega)] at put
      rw [put] at ran
      cases ran

section Transfers

variable {index srcIndex length : Int} {src : Getters}

theorem setFrom_ok {after : ChannelBuffer}
    (ran : (setFrom index src srcIndex length).run (.heap this) = .ok () after) :
    ∃ filled, src.getBytes srcIndex this.arry index length = .ok filled ∧
      after = .heap { this with arry := filled } := by
  have core : (setFrom index src srcIndex length).run (.heap this) =
      (call ((ChannelBuffer.heap this).setBytes index src srcIndex length) >>= fun written =>
        set written : BufferM Unit).run (.heap this) := rfl
  rw [core] at ran
  obtain ⟨written, middle, called, stored⟩ := ok_of_run_bind ran
  obtain ⟨transferred, -⟩ := ok_of_run_call called
  cases stored
  rw [ChannelBuffer.setBytes] at transferred
  obtain ⟨inner, first, made⟩ := ok_of_bind transferred
  obtain ⟨filled, copied, wrapped⟩ := ok_of_bind first
  cases wrapped
  cases made
  exact ⟨filled, copied, rfl⟩

theorem writeFrom_heap (src : Getters) (srcIndex length : Int) (this : HeapChannelBuffer) :
    (∃ filled, src.getBytes srcIndex this.arry this.idx.writerIdx length = .ok filled ∧
      (writeFrom src srcIndex length).run (.heap this) =
        .ok () (.heap { this.withWriter (int32 (this.idx.writerIdx + length)) with arry := filled })) ∨
    ∃ stop, src.getBytes srcIndex this.arry this.idx.writerIdx length = .error stop ∧
      (writeFrom src srcIndex length).run (.heap this) = .error stop (.heap this) := by
  have core : (writeFrom src srcIndex length).run (.heap this) =
      (call ((ChannelBuffer.heap this).setBytes this.idx.writerIdx src srcIndex length) >>=
        fun written => set (written.withIdx
          { written.idx with writerIdx := int32 (written.writerIdx + length) }) :
        BufferM Unit).run (.heap this) := rfl
  rw [core, ChannelBuffer.setBytes]
  unfold HeapChannelBuffer.setBytes
  cases copied : src.getBytes srcIndex this.arry this.idx.writerIdx length with
  | ok filled => exact Or.inl ⟨filled, rfl, rfl⟩
  | error stop => exact Or.inr ⟨stop, rfl, rfl⟩

section

variable {source : ChannelBuffer}

/-- A source gives what it has between its indices. -/
theorem source_moves (sound : source.Sound) (int : HeapCall.IsInt length)
    (room : ¬source.readableBytes < length) :
    (0 ≤ source.readerIdx + length →
      ∃ moved, source.setReaderIndex (int32 (source.readerIdx + length)) = .ok moved) ∧
    (source.readerIdx + length < 0 →
      source.setReaderIndex (int32 (source.readerIdx + length)) =
        .error (rangeException "readerIndex")) := by
  have readable := sound.readableBytes_eq
  have size := sound.readable_length
  have lower := sound.reader_nonneg
  have upper := sound.writer_le_maxInt
  obtain ⟨least, most⟩ := int
  have exact_ : int32 (source.readerIdx + length) = source.readerIdx + length := by
    apply int32_of_bounds
    · unfold minInt at least ⊢
      omega
    · omega
  unfold ChannelBuffer.setReaderIndex
  rw [exact_]
  constructor
  · intro positive
    rw [if_neg (by omega)]
    exact ⟨_, rfl⟩
  · intro negative
    rw [if_pos (Or.inl negative)]
    rfl

theorem run_setBuffer_refused (refused : source.readableBytes < length) :
    (HeapCall.setBuffer index source length).program.run (.heap this) =
      .error (rangeException "exceed readable bytes") (.heap this) := by
  change (BufferM.setBuffer index source length >>= fun _ => pure () : BufferM Unit).run _ = _
  unfold BufferM.setBuffer
  rw [if_pos refused]
  rfl

theorem unharmed_setBuffer (sound : source.Sound)
    (int : HeapCall.IsInt length) : this.Unharmed (.setBuffer index source length) := by
  intro message after ran
  by_cases refused : source.readableBytes < length
  · rw [run_setBuffer_refused refused] at ran
    cases ran
    exact ⟨by rw [ChannelBuffer.content], rfl, rfl⟩
  · have program : (HeapCall.setBuffer index source length).program.run (.heap this) =
        (BufferM.setFrom index source.getters source.readerIdx length >>= fun _ =>
          (call (source.setReaderIndex (int32 (source.readerIdx + length))) >>= fun _ =>
            pure () : BufferM Unit)).run (.heap this) := by
      change (BufferM.setBuffer index source length >>= fun _ => pure () : BufferM Unit).run _ = _
      unfold BufferM.setBuffer
      rw [if_neg refused]
      simp only [bind_assoc]
    rw [program] at ran
    cases stored : (BufferM.setFrom index source.getters source.readerIdx length).run (.heap this) with
    | error stop left =>
        rw [run_bind_error _ stored] at ran
        cases ran
        rw [setFrom_stops _ _ _ _ _ _ _ stored]
        exact ⟨by rw [ChannelBuffer.content], rfl, rfl⟩
    | ok value middle =>
        rw [run_bind_ok _ stored] at ran
        obtain ⟨filled, copied, made⟩ := setFrom_ok stored
        obtain ⟨moves, stays⟩ := source_moves sound int refused
        by_cases positive : 0 ≤ source.readerIdx + length
        · obtain ⟨moved, fine⟩ := moves positive
          rw [fine] at ran
          cases ran
        · rw [stays (by omega)] at ran
          cases ran
          have lower := sound.reader_nonneg
          have same := source.getBytes_negative (by omega) copied
          rw [made, same]
          exact ⟨by rw [ChannelBuffer.content], rfl, rfl⟩

theorem unharmed_writeBuffer (sound : source.Sound)
    (int : HeapCall.IsInt length) :
    this.Unharmed (.writeBuffer source length) ↔ this.Harmless (.writeBuffer source length) := by
  change _ ↔ 0 ≤ length ∨ 0 ≤ source.readerIdx + length ∨
    ∃ stop, source.getters.getBytes source.readerIdx this.arry this.idx.writerIdx length = .error stop
  have lower := sound.reader_nonneg
  by_cases refused : source.readableBytes < length
  · have readable := sound.readableBytes_eq
    refine ⟨fun _ => Or.inl (by omega), fun _ => ?_⟩
    intro message after ran
    change (BufferM.writeBuffer source length >>= fun _ => pure () : BufferM Unit).run _ = _ at ran
    unfold BufferM.writeBuffer at ran
    rw [if_pos refused] at ran
    cases ran
    exact ⟨by rw [ChannelBuffer.content], rfl, rfl⟩
  · have program : (HeapCall.writeBuffer source length).program.run (.heap this) =
        (BufferM.writeFrom source.getters source.readerIdx length >>= fun _ =>
          (call (source.setReaderIndex (int32 (source.readerIdx + length))) >>= fun _ =>
            pure () : BufferM Unit)).run (.heap this) := by
      change (BufferM.writeBuffer source length >>= fun _ => pure () : BufferM Unit).run _ = _
      unfold BufferM.writeBuffer
      rw [if_neg refused]
      simp only [bind_assoc]
    obtain ⟨moves, stays⟩ := source_moves sound int refused
    rcases writeFrom_heap source.getters source.readerIdx length this with
      ⟨filled, copied, ran⟩ | ⟨stop, failed, ran⟩
    · rw [run_bind_ok _ ran] at program
      by_cases positive : 0 ≤ source.readerIdx + length
      · obtain ⟨moved, fine⟩ := moves positive
        rw [fine] at program
        exact ⟨fun _ => Or.inr (Or.inl positive), fun _ => unharmed_of_ok program⟩
      · rw [stays (by omega)] at program
        have outcome : this.Unharmed (.writeBuffer source length) ↔ filled = this.arry ∧
            int32 (this.idx.writerIdx + length) = this.idx.writerIdx :=
          unharmed_iff_of_error program rfl
        rw [outcome]
        obtain ⟨least, most⟩ := int
        unfold minInt at least
        unfold maxInt at most
        constructor
        · intro same
          exact absurd same.2 (int32_ne (by omega) (by omega) (by omega))
        · rintro (forward | far | ⟨stop, failed⟩)
          · omega
          · exact absurd far positive
          · rw [copied] at failed
            cases failed
    · rw [run_bind_error _ ran] at program
      refine ⟨fun _ => Or.inr (Or.inr ⟨stop, failed⟩), fun _ => ?_⟩
      intro message after ended
      rw [program] at ended
      cases ended
      exact ⟨by rw [ChannelBuffer.content], rfl, rfl⟩

end

theorem Inside.readableBytes (inside : this.Inside) :
    (ChannelBuffer.heap this).readableBytes = this.idx.writerIdx - this.idx.readerIdx := by
  have order := inside.indices
  have reader := order.reader
  have writer := order.writer
  have bound := order.bound
  have small := inside.small
  exact int32_of_nonneg (by change 0 ≤ this.idx.writerIdx - this.idx.readerIdx; omega)
    (by change this.idx.writerIdx - this.idx.readerIdx ≤ maxInt; omega)

theorem target_moves {target filled : ChannelBuffer} (sound : target.Sound)
    (int : HeapCall.IsInt length) (room : ¬target.writableBytes < length)
    (stored : target.setBytes target.writerIdx (ChannelBuffer.heap this).getters srcIndex length =
      .ok filled) :
    (target.readerIdx ≤ target.writerIdx + length →
      ∃ moved, filled.setWriterIndex (int32 (filled.writerIdx + length)) = .ok moved) ∧
    (target.writerIdx + length < target.readerIdx →
      filled.setWriterIndex (int32 (filled.writerIdx + length)) =
        .error (rangeException "writerIndex")) := by
  have heap : (ChannelBuffer.heap this).getters = .heap this.byteOrder this.arry := by
    rw [ChannelBuffer.getters]
    rfl
  rw [heap] at stored
  obtain ⟨indices, capacity⟩ := target.setBytes_shape stored
  have writer : filled.writerIdx = target.writerIdx := congrArg Indices.writerIdx indices
  have reader : filled.readerIdx = target.readerIdx := congrArg Indices.readerIdx indices
  have lower := sound.reader_nonneg
  have order := sound.reader_le_writer
  have bound := sound.writer_le_length
  have full := sound.capacity
  have small := sound.serves.small
  have writable : target.writableBytes = target.capacity - target.writerIdx :=
    int32_of_nonneg (by omega) (by omega)
  obtain ⟨least, most⟩ := int
  have exact_ : int32 (target.writerIdx + length) = target.writerIdx + length := by
    apply int32_of_bounds
    · unfold minInt at least ⊢
      omega
    · omega
  unfold ChannelBuffer.setWriterIndex
  rw [writer, reader, capacity, exact_]
  constructor
  · intro ordered
    rw [if_neg (by omega)]
    exact ⟨_, rfl⟩
  · intro disordered
    rw [if_pos (Or.inl disordered)]
    rfl

theorem unharmed_readBuffer (inside : this.Inside) {target : ChannelBuffer} (sound : target.Sound)
    (int : HeapCall.IsInt length) :
    this.Unharmed (.readBuffer target length) ↔ this.Harmless (.readBuffer target length) := by
  change _ ↔ 0 ≤ length ∨ target.readerIdx ≤ target.writerIdx + length ∨
    ∃ stop, target.setBytes target.writerIdx (ChannelBuffer.heap this).getters
      this.idx.readerIdx length = .error stop
  have order := sound.reader_le_writer
  have readable := inside.readableBytes
  have ordered := inside.indices.writer
  have program : (HeapCall.readBuffer target length).program.run (.heap this) =
      (BufferM.readBuffer target length >>= fun _ => pure () : BufferM Unit).run (.heap this) := rfl
  have unchanged : ∀ stop, (HeapCall.readBuffer target length).program.run (.heap this) =
      .error stop (.heap this) → this.Unharmed (.readBuffer target length) := by
    intro stop ran message after ended
    rw [ran] at ended
    cases ended
    exact ⟨by rw [ChannelBuffer.content], rfl, rfl⟩
  unfold BufferM.readBuffer at program
  have writable : 0 ≤ target.writableBytes := by
    have bound := sound.writer_le_length
    have full := sound.capacity
    have small := sound.serves.small
    have lower := sound.reader_nonneg
    have exact_ : target.writableBytes = target.capacity - target.writerIdx :=
      int32_of_nonneg (by omega) (by omega)
    omega
  by_cases refused : target.writableBytes < length
  · rw [if_pos refused] at program
    exact ⟨fun _ => Or.inl (by omega), fun _ => unchanged _ program⟩
  · rw [if_neg refused] at program
    simp only [bind_assoc] at program
    by_cases short : (ChannelBuffer.heap this).readableBytes < length
    · rw [run_bind_error _ (checkReadableBytes_short short)] at program
      exact ⟨fun _ => Or.inl (by omega), fun _ => unchanged _ program⟩
    · rw [run_bind_ok _ (checkReadableBytes_enough short)] at program
      cases stored : target.setBytes target.writerIdx (ChannelBuffer.heap this).getters
        this.idx.readerIdx length with
      | error stop =>
          have failed : (HeapCall.readBuffer target length).program.run (.heap this) =
              .error stop (.heap this) := by
            rw [program]
            change (call (target.setBytes target.writerIdx (ChannelBuffer.heap this).getters
              this.idx.readerIdx length) >>= _ : BufferM Unit).run (.heap this) = _
            rw [stored]
            rfl
          exact ⟨fun _ => Or.inr (Or.inr ⟨stop, rfl⟩), fun _ => unchanged _ failed⟩
      | ok filled =>
          have moved : (HeapCall.readBuffer target length).program.run (.heap this) =
              (call (filled.setWriterIndex (int32 (filled.writerIdx + length))) >>= fun _ =>
                pure () : BufferM Unit).run (.heap { this with
                  idx := { this.idx with readerIdx := int32 (this.idx.readerIdx + length) } }) := by
            rw [program]
            change (call (target.setBytes target.writerIdx (ChannelBuffer.heap this).getters
              this.idx.readerIdx length) >>= _ : BufferM Unit).run (.heap this) = _
            rw [stored]
            rfl
          obtain ⟨goes, stays⟩ := target_moves sound int refused stored
          by_cases far : target.readerIdx ≤ target.writerIdx + length
          · obtain ⟨last, fine⟩ := goes far
            rw [fine] at moved
            exact ⟨fun _ => Or.inr (Or.inl far), fun _ => unharmed_of_ok moved⟩
          · rw [stays (by omega)] at moved
            constructor
            · intro unharmed
              have same := (unharmed _ _ moved).2.1
              change int32 (this.idx.readerIdx + length) = this.idx.readerIdx at same
              obtain ⟨least, most⟩ := int
              unfold minInt at least
              unfold maxInt at most
              exact absurd same (int32_ne (by omega) (by omega) (by omega))
            · rintro (forward | near | ⟨stop, failed⟩)
              · omega
              · exact absurd near far
              · cases failed

/-- A byte that can be read is inside the array. -/
theorem readByte_heap (inside : this.Inside) :
    (this.idx.readerIdx = this.idx.writerIdx ∧ BufferM.readByte.run (.heap this) =
      .error (rangeException "no data to read") (.heap this)) ∨
    (this.idx.readerIdx ≠ this.idx.writerIdx ∧ BufferM.readByte.run (.heap this) =
      .ok (this.arry.getD this.idx.readerIdx.toNat 0)
        (.heap { this with idx := { this.idx with readerIdx := int32 (this.idx.readerIdx + 1) } })) := by
  by_cases empty : this.idx.readerIdx = this.idx.writerIdx
  · refine Or.inl ⟨empty, ?_⟩
    unfold BufferM.readByte
    rw [run_bind_get]
    rw [if_pos (show (ChannelBuffer.heap this).readerIdx = (ChannelBuffer.heap this).writerIdx
      from empty)]
    rfl
  · have reader := inside.indices.reader
    have order := inside.indices.writer
    have bound := inside.indices.bound
    have present : this.arry.at_ this.idx.readerIdx =
        .ok (this.arry.getD this.idx.readerIdx.toNat 0) := by
      unfold CharArray.at_
      rw [if_neg (by omega)]
      rfl
    refine Or.inr ⟨empty, ?_⟩
    unfold BufferM.readByte
    rw [run_bind_get]
    rw [if_neg (show ¬(ChannelBuffer.heap this).readerIdx = (ChannelBuffer.heap this).writerIdx
      from empty)]
    have getter : (ChannelBuffer.heap this).getters.getByte = this.arry.at_ := by
      rw [ChannelBuffer.getters]
      rfl
    rw [getter]
    change (call (this.arry.at_ this.idx.readerIdx) : BufferM Byte).run _ = _
    rw [present]
    rfl

theorem unharmed_readByte (inside : this.Inside) : this.Unharmed .readByte := by
  have program : HeapCall.readByte.program.run (.heap this) =
      (BufferM.readByte >>= fun _ => pure () : BufferM Unit).run (.heap this) := rfl
  rcases readByte_heap inside with ⟨-, ended⟩ | ⟨-, ended⟩
  · rw [run_bind_error _ ended] at program
    intro message after ran
    rw [program] at ran
    cases ran
    exact ⟨by rw [ChannelBuffer.content], rfl, rfl⟩
  · rw [run_bind_ok _ ended] at program
    exact unharmed_of_ok program

theorem unharmed_writeFrom (src : Getters) (srcIndex length : Int) :
    this.Unharmed (.writeFrom src srcIndex length) := by
  intro message after ran
  rcases writeFrom_heap src srcIndex length this with ⟨filled, -, ended⟩ | ⟨stop, -, ended⟩
  · have same : (writeFrom src srcIndex length).run (.heap this) = _ := ran
    rw [ended] at same
    cases same
  · have same : (writeFrom src srcIndex length).run (.heap this) = _ := ran
    rw [ended] at same
    cases same
    exact ⟨by rw [ChannelBuffer.content], rfl, rfl⟩

theorem unharmed_setTyped (index : Int) (value : TypedValue) :
    this.Unharmed (.setTyped index value) ↔ this.Harmless (.setTyped index value) :=
  unharmed_stores (setTyped_mirrors index value this)

end Transfers

/-- Four bytes, all of them written. -/
def fullBuffer : HeapChannelBuffer := ⟨.big, [1, 2, 3, 4], ⟨0, 4, 0, 0⟩⟩

theorem fullBuffer_inside : fullBuffer.Inside :=
  ⟨⟨by decide, by decide, by decide⟩, by decide⟩

end HeapChannelBuffer

end Cetty
