import Cetty.BufferAccesses

/-!
# Reading two buffers that differ behind the writer index

Two buffers with the same indices that hold the same bytes in front of the writer index: a read
ends in the same way on both, whatever the other cells hold.
-/

namespace Cetty

open MachineInt ByteWindow

/-- A run that ends with `outcome` in `state`. -/
def ending {State Value : Type} (outcome : Except Stop Value) (state : State) :
    EStateM.Result Stop State Value :=
  match outcome with
  | .ok value => .ok value state
  | .error stop => .error stop state

section Endings

variable {State Value Next : Type} {program : Exec State Value} {before after : State}
  {outcome : Except Stop Value}

theorem ending_map (ran : program.run before = ending outcome after) (change : Value → Next) :
    (do return change (← program) : Exec State Next).run before =
      ending (outcome.map change) after := by
  cases outcome with
  | ok value =>
      rw [run_bind_ok _ ran]
      rfl
  | error stop =>
      rw [run_bind_error _ ran]
      rfl

theorem ending_call (outcome : Except Stop Value) (state : State) :
    (call outcome : Exec State Value).run state = ending outcome state := by
  cases outcome <;> rfl

end Endings

/-- Indices of a buffer that has been read from; a skip may have gone in front of the cells. -/
structure Indices.Forward (idx : Indices) (room : Int) : Prop where
  lower : minInt ≤ idx.readerIdx
  order : idx.readerIdx ≤ idx.writerIdx
  front : 0 ≤ idx.writerIdx
  bound : idx.writerIdx ≤ room

namespace Getters

/-- Getters that answer alike below `bound`. -/
structure AgreeBelow (getters other : Getters) (bound : Int) : Prop where
  byte : ∀ index : Int, index + 1 ≤ bound → getters.getByte index = other.getByte index
  short : ∀ index : Int, index + 2 ≤ bound → getters.getShort index = other.getShort index
  medium : ∀ index : Int, index + 3 ≤ bound →
    getters.getUnsignedMedium index = other.getUnsignedMedium index
  int : ∀ index : Int, index + 4 ≤ bound → getters.getInt index = other.getInt index
  long : ∀ index : Int, index + 8 ≤ bound → getters.getLong index = other.getLong index
  bytes : ∀ (index : Int) (dst : CharArray) (dstIndex length : Int), index + length ≤ bound →
    getters.getBytes index dst dstIndex length = other.getBytes index dst dstIndex length

variable {order endianness : ByteOrder} {arry cells : CharArray} {bound : Nat}

theorem at_agree (length : cells.length = arry.length) (same : cells.take bound = arry.take bound)
    {index : Int} (below : index + 1 ≤ bound) : arry.at_ index = cells.at_ index := by
  unfold CharArray.at_
  rw [length]
  split
  · rfl
  · rename_i inside
    have entry : (cells.take bound)[index.toNat]? = (arry.take bound)[index.toNat]? := by rw [same]
    rw [List.getElem?_take_of_lt (by omega), List.getElem?_take_of_lt (by omega)] at entry
    rw [List.getD_eq_getElem?_getD, List.getD_eq_getElem?_getD, entry]

theorem window_of_take (array : CharArray) {start count : Nat} (inside : start + count ≤ bound) :
    window (array.take bound) start count = window array start count := by
  unfold window
  rw [List.drop_take, List.take_take, Nat.min_eq_left (by omega)]

theorem copy_forward {dst src filled : CharArray} {dstIndex srcIndex count : Int}
    (copied : CharArray.copy dst dstIndex src srcIndex count = .ok filled) : 0 ≤ count := by
  unfold CharArray.copy at copied
  dsimp only at copied
  split at copied
  · cases copied
  · omega

section

variable (length : cells.length = arry.length) (same : cells.take bound = arry.take bound)

include length same

theorem copy_agree (dst : CharArray) (dstIndex : Int)
    {index count : Int} (below : index + count ≤ bound) :
    CharArray.copy dst dstIndex arry index count = CharArray.copy dst dstIndex cells index count := by
  unfold CharArray.copy
  dsimp only
  rw [length]
  split
  · rfl
  · split
    · rfl
    · rename_i checked inside
      have early : index.toNat + count.toNat ≤ bound := by omega
      have front : window cells index.toNat count.toNat = window arry index.toNat count.toNat := by
        rw [← window_of_take cells early, same, window_of_take arry early]
      rw [front]

theorem heap_agree :
    AgreeBelow { heap order arry with order := endianness }
      { heap order cells with order := endianness } bound := by
  have byte : ∀ index : Int, index + 1 ≤ bound → arry.at_ index = cells.at_ index :=
    fun index below => at_agree length same below
  have short : ∀ index : Int, index + 2 ≤ bound →
      (heap order arry).getShort index = (heap order cells).getShort index := by
    intro index below
    change (do
      let first ← arry.at_ index
      let second ← arry.at_ (index + 1)
      pure (order.short first second)) = _
    rw [byte index (by omega), byte (index + 1) (by omega)]
    rfl
  have int : ∀ index : Int, index + 4 ≤ bound →
      (heap order arry).getInt index = (heap order cells).getInt index := by
    intro index below
    change (do
      let first ← (heap order arry).getShort index
      let second ← (heap order arry).getShort (index + 2)
      pure (order.int first second)) = _
    rw [short index (by omega), short (index + 2) (by omega)]
    rfl
  refine ⟨byte, short, ?_, int, ?_, ?_⟩
  · intro index below
    change (do
      let first ← arry.at_ index
      let second ← arry.at_ (index + 1)
      let third ← arry.at_ (index + 2)
      pure (order.medium first second third)) = _
    rw [byte index (by omega), byte (index + 1) (by omega), byte (index + 2) (by omega)]
    rfl
  · intro index below
    change (do
      let first ← (heap order arry).getInt index
      let second ← (heap order arry).getInt (index + 4)
      pure (order.long first second)) = _
    rw [int index (by omega), int (index + 4) (by omega)]
    rfl
  · intro index dst dstIndex count below
    exact copy_agree length same dst dstIndex below

end

end Getters

namespace ChannelBuffer

/-- The bytes a slice shows. -/
def shown (part : Except Stop ChannelBuffer) : Except Stop CharArray :=
  part.map readableContent

/-- Two buffers with the same indices that answer alike in front of the writer index. -/
structure Twins (first second : ChannelBuffer) : Prop where
  idx : second.idx = first.idx
  order : second.order = first.order
  agree : first.getters.AgreeBelow second.getters first.writerIdx
  slice : ∀ index length : Int, index + length ≤ first.writerIdx →
    shown (first.slice index length) = shown (second.slice index length)
  cut : ∀ (index length : Int) (part : ChannelBuffer),
    first.slice index length = .ok part → 0 ≤ length
  copied : ∀ (index : Int) (dst : CharArray) (dstIndex length : Int) (filled : CharArray),
    first.getters.getBytes index dst dstIndex length = .ok filled → 0 ≤ length

section Direct

variable {base : ChannelBuffer} {cells : CharArray}

/-- A view that has been made shows all its `length` cells. -/
theorem filled_view {view : ChannelBuffer} {length : Int} (capacity : view.capacity = length)
    (reader : view.readerIdx = 0) :
    view.setWriterIndex length =
      if length < 0 then .error (rangeException "writerIndex")
      else .ok (view.withIdx { view.idx with writerIdx := length }) := by
  unfold setWriterIndex
  rw [capacity, reader]
  by_cases negative : length < 0
  · rw [if_pos (Or.inl negative), if_pos negative]
    rfl
  · rw [if_neg (by omega), if_neg negative]
    rfl

theorem makeTruncated_eq (base : ChannelBuffer) (length : Int) :
    makeTruncated base length =
      if base.capacity < length then .error (rangeException "")
      else if length < 0 then .error (rangeException "writerIndex")
      else .ok (truncated base length { Indices.zero with writerIdx := length }) := by
  have capacity : (truncated base length .zero).capacity = length := by
    simp only [ChannelBuffer.capacity, getters, Getters.truncated, Getters.view]
  unfold makeTruncated
  rw [filled_view capacity rfl]
  rfl

theorem makeSliced_eq (base : ChannelBuffer) (index length : Int) :
    makeSliced base index length =
      if index < 0 ∨ base.capacity < index then .error (rangeException "index out range")
      else if base.capacity < int32 (index + length) then
        .error (rangeException "index + length out of range")
      else if length < 0 then .error (rangeException "writerIndex")
      else .ok (sliced base index length { Indices.zero with writerIdx := length }) := by
  have capacity : (sliced base index length .zero).capacity = length := by
    simp only [ChannelBuffer.capacity, getters, Getters.sliced, Getters.view]
  unfold makeSliced
  rw [filled_view capacity rfl]
  rfl

theorem sliced_shown (base : ChannelBuffer) {index length : Int} (start : 0 ≤ index)
    (positive : 0 ≤ length) :
    (sliced base index length { Indices.zero with writerIdx := length }).readableContent =
      window base.content index.toNat length.toNat := by
  have shows := (sliced_shows base index.toNat length.toNat).bytes
  rwa [Int.toNat_of_nonneg start, Int.toNat_of_nonneg positive] at shows

theorem truncated_shown (base : ChannelBuffer) {length : Int} (positive : 0 ≤ length) :
    (truncated base length { Indices.zero with writerIdx := length }).readableContent =
      window base.content 0 length.toNat := by
  have shows := (truncated_shows base length.toNat).bytes
  rwa [Int.toNat_of_nonneg positive] at shows

theorem directSlice_shown {twin : ChannelBuffer} {index length : Int} {bound : Nat}
    (capacity : twin.capacity = base.capacity)
    (same : twin.content.take bound = base.content.take bound) (below : index + length ≤ bound) :
    shown (directSlice base index length) = shown (directSlice twin index length) := by
  have front (start count : Nat) (early : start + count ≤ bound) :
      window base.content start count = window twin.content start count := by
    rw [← Getters.window_of_take base.content early, ← same, Getters.window_of_take _ early]
  unfold directSlice
  split
  · rfl
  · split
    · rw [makeTruncated_eq, makeTruncated_eq, capacity]
      split
      · rfl
      · split
        · rfl
        · change Except.ok _ = Except.ok _
          rw [truncated_shown base (by omega), truncated_shown twin (by omega),
            front 0 length.toNat (by omega)]
    · rw [makeSliced_eq, makeSliced_eq, capacity]
      split
      · rfl
      · split
        · rfl
        · split
          · rfl
          · change Except.ok _ = Except.ok _
            rw [sliced_shown base (by omega) (by omega), sliced_shown twin (by omega) (by omega),
              front index.toNat length.toNat (by omega)]

theorem directSlice_forward {index length : Int} {part : ChannelBuffer}
    (cut : directSlice base index length = .ok part) : 0 ≤ length := by
  unfold directSlice at cut
  split at cut
  · omega
  · split at cut
    · rw [makeTruncated_eq] at cut
      split at cut
      · cases cut
      · split at cut
        · cases cut
        · omega
    · rw [makeSliced_eq] at cut
      split at cut
      · cases cut
      · split at cut
        · cases cut
        · split at cut
          · cases cut
          · omega

theorem direct_slice_forward (direct : base.Direct) {index length : Int} {part : ChannelBuffer}
    (cut : base.slice index length = .ok part) : 0 ≤ length := by
  cases base with
  | heap buffer =>
      rw [slice] at cut
      beta_reduce at cut
      split at cut
      · omega
      · exact directSlice_forward cut
  | dynamic endianness factory buffer idx =>
      rw [slice] at cut
      exact directSlice_forward cut
  | _ => exact direct.elim

/-- Cells from the writer index on make no difference. -/
theorem direct_twins (direct : base.Direct) (writer : 0 ≤ base.writerIdx)
    (length : cells.length = base.content.length)
    (same : cells.take base.writerIdx.toNat = base.content.take base.writerIdx.toNat) :
    Twins base (base.withBytes cells) := by
  have bound : ((base.writerIdx.toNat : Nat) : Int) = base.writerIdx := Int.toNat_of_nonneg writer
  cases base with
  | heap buffer =>
      rw [content] at length same
      have capacity : (heap { buffer with arry := cells }).capacity = (heap buffer).capacity := by
        unfold ChannelBuffer.capacity
        rw [getters, getters]
        exact congrArg Nat.cast length
      rw [withBytes]
      refine ⟨rfl, ?_, ?_, ?_, ?_, ?_⟩
      · unfold order
        rw [getters, getters]
        rfl
      · rw [getters, getters, ← bound]
        exact Getters.heap_agree length same
      · intro index count below
        rw [slice, slice]
        beta_reduce
        dsimp only
        rw [length]
        split
        · rename_i whole
          have equal : cells = buffer.arry := by
            rw [List.take_of_length_le (by omega), List.take_of_length_le (by omega)] at same
            exact same
          rw [equal]
        · refine directSlice_shown capacity ?_ (by rw [bound]; exact below)
          rw [content, content]
          exact same
      · intro index count part cut
        exact direct_slice_forward direct cut
      · intro index dst dstIndex count filled copied
        rw [getters] at copied
        exact Getters.copy_forward copied
  | dynamic endianness factory buffer idx =>
      rw [content] at length same
      have capacity : (dynamic endianness factory { buffer with arry := cells } idx).capacity =
          (dynamic endianness factory buffer idx).capacity := by
        unfold ChannelBuffer.capacity
        rw [getters, getters]
        exact congrArg Nat.cast length
      rw [withBytes]
      refine ⟨rfl, ?_, ?_, ?_, ?_, ?_⟩
      · unfold order
        rw [getters, getters]
      · rw [getters, getters, ← bound]
        exact Getters.heap_agree length same
      · intro index count below
        rw [slice, slice]
        refine directSlice_shown capacity ?_ (by rw [bound]; exact below)
        rw [content, content]
        exact same
      · intro index count part cut
        exact direct_slice_forward direct cut
      · intro index dst dstIndex count filled copied
        rw [getters] at copied
        exact Getters.copy_forward copied
  | _ => exact direct.elim

end Direct

/-- A result that moves the indices when it is a value. -/
def taken {Value : Type} (outcome : Except Stop Value) (buffer : ChannelBuffer) (moved : Indices) :
    EStateM.Result Stop ChannelBuffer Value :=
  match outcome with
  | .ok value => .ok value (buffer.withIdx moved)
  | .error stop => .error stop buffer

section Taking

variable {buffer : ChannelBuffer}

open BufferM

theorem check_enough {count : Int} (enough : count ≤ buffer.readableBytes) :
    (checkReadableBytes count).run buffer = .ok () buffer := by
  unfold checkReadableBytes
  rw [run_bind_get]
  rw [if_neg (by omega)]
  rfl

theorem readTyped_taken {Value : Type} {width : Int} (get_ : Getters → Int → Except Stop Value)
    (enough : width ≤ buffer.readableBytes) :
    (readTyped width get_).run buffer = taken (get_ buffer.getters buffer.readerIdx) buffer
      { buffer.idx with readerIdx := int32 (buffer.readerIdx + width) } := by
  unfold readTyped
  rw [run_bind_ok _ (check_enough enough), run_bind_get]
  cases get_ buffer.getters buffer.readerIdx <;> rfl

theorem readByte_taken (enough : buffer.readerIdx ≠ buffer.writerIdx) :
    readByte.run buffer = ending (buffer.getters.getByte buffer.readerIdx)
      (buffer.withIdx { buffer.idx with readerIdx := int32 (buffer.readerIdx + 1) }) := by
  unfold readByte
  rw [run_bind_get]
  rw [if_neg enough]
  cases buffer.getters.getByte buffer.readerIdx <;> rfl

theorem readArray_taken {dst : CharArray} {dstIndex length : Int}
    (enough : length ≤ buffer.readableBytes) (some_ : length ≠ 0) :
    (readArray dst dstIndex length).run buffer =
      taken (buffer.getters.getBytes buffer.readerIdx dst dstIndex length) buffer
        { buffer.idx with readerIdx := int32 (buffer.readerIdx + length) } := by
  unfold readArray
  rw [if_neg some_, run_bind_ok _ (check_enough enough), run_bind_get]
  cases buffer.getters.getBytes buffer.readerIdx dst dstIndex length <;> rfl

theorem readSlice_taken {Value : Type} (change : CharArray → Value) (length : Int) :
    (do return change (← readSlice length).readableContent : BufferM Value).run buffer =
      taken ((shown (buffer.slice buffer.readerIdx length)).map change) buffer
        { buffer.idx with readerIdx := int32 (buffer.readerIdx + length) } := by
  unfold readSlice
  rw [EStateM.run_bind, run_bind_get]
  cases buffer.slice buffer.readerIdx length <;> rfl

/-- The buffer `readBytes(int)` returns. -/
def copied (order : ByteOrder) (getters : Getters) (readerIdx length : Int) :
    Except Stop ChannelBuffer := do
  let buf ← allocate order length
  let buf ← buf.setBytes buf.idx.writerIdx getters readerIdx length
  pure (.heap { buf with idx := { buf.idx with writerIdx := int32 (buf.idx.writerIdx + length) } })

theorem readBytes_taken {length : Int} (enough : length ≤ buffer.readableBytes)
    (some_ : length ≠ 0) :
    (readBytes length).run buffer =
      taken (copied buffer.order buffer.getters buffer.readerIdx length) buffer
        (if int32 (buffer.readerIdx + length) = buffer.writerIdx then
          { buffer.idx with readerIdx := 0, writerIdx := 0 }
        else { buffer.idx with readerIdx := int32 (buffer.readerIdx + length) }) := by
  unfold readBytes copied
  rw [if_neg some_, run_bind_ok _ (check_enough enough), run_bind_get]
  simp only
  cases allocate buffer.order length with
  | error stop => rfl
  | ok fresh =>
      rw [run_bind_ok _ (run_call_ok _ _), ok_bind]
      cases fresh.setBytes fresh.idx.writerIdx buffer.getters buffer.readerIdx length with
      | error stop => rfl
      | ok filled =>
          rw [run_bind_ok _ (run_call_ok _ _), ok_bind]
          split <;> rfl

theorem skipBytes_taken (length : Int) :
    (skipBytes length).run buffer =
      taken (if buffer.writerIdx < int32 (buffer.readerIdx + length) then
          .error (rangeException "") else .ok ()) buffer
        { buffer.idx with readerIdx := int32 (buffer.readerIdx + length) } := by
  unfold skipBytes
  rw [run_bind_get]
  simp only
  split <;> rfl

end Taking

/-- On both buffers the program ends in the same way, the indices moved alike. -/
def EndAlike {Value : Type} (first second : ChannelBuffer) (program : BufferM Value) : Prop :=
  ∃ (outcome : Except Stop Value) (idx : Indices),
    program.run first = ending outcome (first.withIdx idx) ∧
      program.run second = ending outcome (second.withIdx idx) ∧
      idx.Forward first.content.length

section Lockstep

variable {first second : ChannelBuffer} {Value Next : Type}

theorem EndAlike.map {program : BufferM Value} (alike : EndAlike first second program)
    (change : Value → Next) : EndAlike first second (do return change (← program)) := by
  obtain ⟨outcome, idx, one, other, forward⟩ := alike
  exact ⟨outcome.map change, idx, ending_map one change, ending_map other change, forward⟩

variable (twins : Twins first second) (forward : first.idx.Forward first.content.length)

include twins forward

theorem alike_taken {program : BufferM Value} {outcome : Except Stop Value} {moved : Indices}
    (one : program.run first = taken outcome first moved)
    (other : program.run second = taken outcome second moved)
    (kept : ∀ value, outcome = .ok value → moved.Forward first.content.length) :
    EndAlike first second program := by
  cases outcome with
  | ok value => exact ⟨.ok value, moved, one, other, kept value rfl⟩
  | error stop =>
      refine ⟨.error stop, first.idx, ?_, ?_, forward⟩
      · rw [one, withIdx_idx]
        rfl
      · rw [other, ← twins.idx, withIdx_idx]
        rfl

theorem alike_call (look : ChannelBuffer → Except Stop Value) (same : look first = look second) :
    EndAlike first second (do call (look (← get))) := by
  refine ⟨look first, first.idx, ?_, ?_, forward⟩
  · rw [withIdx_idx, run_bind_get]
    exact ending_call _ _
  · rw [same, ← twins.idx, withIdx_idx, run_bind_get]
    exact ending_call _ _

omit twins in
theorem readable_exact (small : first.writerIdx - first.readerIdx ≤ maxInt) :
    first.readableBytes = first.writerIdx - first.readerIdx := by
  have order := forward.order
  unfold readableBytes
  exact int32_of_nonneg (by unfold writerIdx readerIdx; omega) small

omit twins in
/-- A read that the readable bytes suffice for leaves the indices in order. -/
theorem moved_forward (room : (first.content.length : Int) ≤ maxInt)
    (small : first.writerIdx - first.readerIdx ≤ maxInt) {count : Int} (positive : 0 ≤ count)
    (enough : count ≤ first.readableBytes) :
    int32 (first.readerIdx + count) = first.readerIdx + count ∧
      ({ first.idx with readerIdx := int32 (first.readerIdx + count) } : Indices).Forward
        first.content.length := by
  have lower := forward.lower
  have front := forward.front
  have bound := forward.bound
  rw [readable_exact forward small] at enough
  change count ≤ first.idx.writerIdx - first.idx.readerIdx at enough
  have exact_ : int32 (first.readerIdx + count) = first.readerIdx + count := by
    apply int32_of_bounds
    · change minInt ≤ first.idx.readerIdx + count
      omega
    · change first.idx.readerIdx + count ≤ maxInt
      omega
  refine ⟨exact_, ?_⟩
  rw [exact_]
  refine ⟨?_, ?_, front, bound⟩
  · change minInt ≤ first.idx.readerIdx + count
    omega
  · change first.idx.readerIdx + count ≤ first.idx.writerIdx
    omega

omit forward in
theorem twin_reader : second.readerIdx = first.readerIdx := by
  unfold readerIdx
  rw [twins.idx]

omit forward in
theorem twin_writer : second.writerIdx = first.writerIdx := by
  unfold writerIdx
  rw [twins.idx]

omit forward in
theorem twin_readable : second.readableBytes = first.readableBytes := by
  unfold readableBytes
  rw [twin_reader twins, twin_writer twins]

variable (room : (first.content.length : Int) ≤ maxInt)
  (small : first.writerIdx - first.readerIdx ≤ maxInt)

include room small

theorem alike_readTyped {get_ : Getters → Int → Except Stop Value} {width : Nat}
    (enough : (width : Int) ≤ first.readableBytes)
    (agree : ∀ index : Int, index + width ≤ first.writerIdx →
      get_ first.getters index = get_ second.getters index) :
    EndAlike first second (BufferM.readTyped width get_) := by
  have exact_ := readable_exact forward small
  have one := readTyped_taken get_ enough
  have other := readTyped_taken get_ (show (width : Int) ≤ second.readableBytes by
    rw [twin_readable twins]
    exact enough)
  rw [twin_reader twins, ← agree first.readerIdx (by omega), twins.idx] at other
  exact alike_taken twins forward one other fun _ _ =>
    (moved_forward forward room small (Int.natCast_nonneg _) enough).2

theorem alike_readByte (enough : 1 ≤ first.readableBytes) :
    EndAlike first second BufferM.readByte := by
  have exact_ := readable_exact forward small
  have one := readByte_taken (show first.readerIdx ≠ first.writerIdx by omega)
  have other := readByte_taken (show second.readerIdx ≠ second.writerIdx by
    rw [twin_reader twins, twin_writer twins]
    omega)
  rw [twin_reader twins, ← twins.agree.byte first.readerIdx (by omega), twins.idx] at other
  exact ⟨_, _, one, other, (moved_forward forward room small Int.one_nonneg enough).2⟩

theorem alike_reader {reader : Reader} (enough : (reader.width : Int) ≤ first.readableBytes) :
    EndAlike first second reader.program := by
  have agree := twins.agree
  cases reader with
  | readByte => exact (alike_readByte twins forward room small enough).map _
  | readUnsignedByte => exact ((alike_readByte twins forward room small enough).map _).map _
  | readShort => exact (alike_readTyped twins forward room small enough agree.short).map _
  | readUnsignedShort =>
      exact ((alike_readTyped twins forward room small enough agree.short).map _).map _
  | readMedium =>
      exact ((alike_readTyped twins forward room small enough agree.medium).map _).map _
  | readUnsignedMedium => exact (alike_readTyped twins forward room small enough agree.medium).map _
  | readInt => exact (alike_readTyped twins forward room small enough agree.int).map _
  | readUnsignedInt =>
      exact ((alike_readTyped twins forward room small enough agree.int).map _).map _
  | readLong => exact (alike_readTyped twins forward room small enough agree.long).map _

omit room small in
theorem alike_pure (value : Value) : EndAlike first second (pure value) := by
  refine ⟨.ok value, first.idx, ?_, ?_, forward⟩
  · rw [withIdx_idx]
    rfl
  · rw [← twins.idx, withIdx_idx]
    rfl

theorem alike_readArray {dst : CharArray} {dstIndex length : Int}
    (enough : length ≤ first.readableBytes) :
    EndAlike first second (BufferM.readArray dst dstIndex length) := by
  have exact_ := readable_exact forward small
  have enough' : length ≤ second.readableBytes := by
    rw [twin_readable twins]
    exact enough
  by_cases none_ : length = 0
  · unfold BufferM.readArray
    rw [if_pos none_]
    exact alike_pure twins forward dst
  · have one : (BufferM.readArray dst dstIndex length).run first = _ :=
      readArray_taken enough none_
    have other : (BufferM.readArray dst dstIndex length).run second = _ :=
      readArray_taken enough' none_
    rw [twin_reader twins, ← twins.agree.bytes first.readerIdx dst dstIndex length (by omega),
      twins.idx] at other
    apply alike_taken twins forward one other
    intro filled got
    exact (moved_forward forward room small (twins.copied _ _ _ _ _ got) enough).2

theorem alike_readSlice (change : CharArray → Value) {length : Int}
    (enough : length ≤ first.readableBytes) :
    EndAlike first second (do return change (← BufferM.readSlice length).readableContent) := by
  have exact_ := readable_exact forward small
  have one : (do return change (← BufferM.readSlice length).readableContent : BufferM Value).run
      first = _ := readSlice_taken change length
  have other : (do return change (← BufferM.readSlice length).readableContent : BufferM Value).run
      second = _ := readSlice_taken change length
  rw [twin_reader twins, ← twins.slice first.readerIdx length (by omega), twins.idx] at other
  apply alike_taken twins forward one other
  intro bytes got
  cases cut : first.slice first.readerIdx length with
  | ok part => exact (moved_forward forward room small (twins.cut _ _ _ cut) enough).2
  | error stop =>
      rw [cut] at got
      cases got

theorem alike_readBytes {length : Int} (enough : length ≤ first.readableBytes) :
    EndAlike first second (BufferM.readBytes length) := by
  have exact_ := readable_exact forward small
  have enough' : length ≤ second.readableBytes := by
    rw [twin_readable twins]
    exact enough
  by_cases none_ : length = 0
  · unfold BufferM.readBytes
    rw [if_pos none_]
    exact alike_pure twins forward emptyBuffer
  · have one : (BufferM.readBytes length).run first = _ := readBytes_taken enough none_
    have other : (BufferM.readBytes length).run second = _ := readBytes_taken enough' none_
    have same : copied first.order first.getters first.readerIdx length =
        copied first.order second.getters first.readerIdx length := by
      unfold copied HeapChannelBuffer.setBytes
      simp only [twins.agree.bytes first.readerIdx _ _ length (by omega)]
    rw [twin_reader twins, twin_writer twins, twins.order, ← same, twins.idx] at other
    apply alike_taken twins forward one other
    intro part got
    have positive : 0 ≤ length := by
      unfold copied at got
      obtain ⟨fresh, made, -⟩ := ok_of_bind got
      unfold allocate at made
      split at made
      · omega
      · split at made
        · cases made
        · omega
    split
    · exact ⟨show minInt ≤ 0 by decide, Int.le_refl _, Int.le_refl _, Int.natCast_nonneg _⟩
    · exact (moved_forward forward room small positive enough).2

omit room small in
theorem alike_skipBytes (length : Int) : EndAlike first second (BufferM.skipBytes length) := by
  have one : (BufferM.skipBytes length).run first = _ := skipBytes_taken length
  have other : (BufferM.skipBytes length).run second = _ := skipBytes_taken length
  rw [twin_reader twins, twin_writer twins, twins.idx] at other
  apply alike_taken twins forward one other
  intro value got
  split at got
  · cases got
  · rename_i inside
    have early : int32 (first.readerIdx + length) ≤ first.writerIdx := by omega
    exact ⟨(int32_bounds _).1, early, forward.front, forward.bound⟩

end Lockstep

end ChannelBuffer

end Cetty
