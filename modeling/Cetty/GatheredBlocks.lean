import Cetty.CompositeCuts
import Cetty.WriteRequest

/-!
# The blocks of a write request

A buffer whose array begins with its own cells is written as it reads. A composite buffer is, if
each of its components is such a buffer and there are slots for all of them.
-/

namespace Cetty

open MachineInt ByteWindow

namespace ChannelBuffer

/-- The array of the buffer begins with the cells of the buffer. -/
def bared : ChannelBuffer → Bool
  | heap _ => true
  | dynamic _ _ _ _ => true
  | truncated buffer _ _ => bared buffer
  | duplicated buffer _ => bared buffer
  | _ => false

section Bared

variable {buffer : ChannelBuffer}

theorem bared_array (built : buffer.WellBuilt) (bare : buffer.bared = true) :
    buffer.hasArray = true ∧ ∃ behind, buffer.array = .ok (buffer.content ++ behind) := by
  induction built with
  | heap small inside =>
      rw [hasArray, array, content]
      exact ⟨rfl, [], congrArg Except.ok (List.append_nil _).symm⟩
  | dynamic ordered small inside =>
      rw [hasArray, array, content]
      exact ⟨rfl, [], congrArg Except.ok (List.append_nil _).symm⟩
  | @truncated base length idx parent within inside ih =>
      rw [bared] at bare
      obtain ⟨arrayed, behind, whole⟩ := ih bare
      rw [hasArray, array, content, Int.toNat_natCast, window_prefix]
      refine ⟨arrayed, base.content.drop length ++ behind, ?_⟩
      rw [← List.append_assoc, List.take_append_drop]
      exact whole
  | @duplicated base idx parent inside ih =>
      rw [bared] at bare
      rw [hasArray, array, content]
      exact ih bare
  | sliced parent within inside => simp [bared] at bare
  | readOnly parent inside => simp [bared] at bare
  | composite parts ordered cached small inside => simp [bared] at bare

/-- The block such a buffer shows is what it has to read. -/
theorem readSliceArray_bared (built : buffer.WellBuilt) (bare : buffer.bared = true)
    (readable : buffer.readable = true) (shown : CharArray) :
    ∃ moved, (BufferM.readSliceArray shown).run buffer = .ok buffer.readableContent moved := by
  obtain ⟨-, behind, whole⟩ := bared_array built bare
  obtain ⟨reader, count, starts, counted, held, inside⟩ := built.readable
  have cut : (buffer.content ++ behind).block buffer.readerIdx
      (int32 (buffer.writerIdx - buffer.readerIdx)) = .ok buffer.readableContent := by
    have some_ : 0 < count := by
      unfold ChannelBuffer.readable at readable
      rw [counted] at readable
      have positive := of_decide_eq_true readable
      omega
    have size : (buffer.content ++ behind).length = buffer.content.length + behind.length :=
      List.length_append
    have start : CharArray.data (buffer.content ++ behind) reader = .ok reader := by
      unfold CharArray.data
      rw [if_neg (by omega)]
      rfl
    rw [starts, held]
    rw [readableBytes, starts] at counted
    unfold CharArray.block
    rw [start, ok_bind, counted, if_neg (by omega), Int.toNat_natCast]
    unfold window
    rw [List.drop_append_of_le_length (by omega),
      List.take_append_of_le_length (by rw [List.length_drop]; omega)]
    rfl
  refine ⟨buffer.withIdx { buffer.idx with readerIdx := 0, writerIdx := 0 }, ?_⟩
  unfold BufferM.readSliceArray
  rw [run_bind_get]
  have plain : (do
      let arry ← call buffer.array
      let block ← call (arry.block buffer.readerIdx
        (int32 (buffer.writerIdx - buffer.readerIdx)))
      set (buffer.withIdx { buffer.idx with readerIdx := 0, writerIdx := 0 })
      pure block : BufferM CharArray).run buffer = .ok buffer.readableContent
        (buffer.withIdx { buffer.idx with readerIdx := 0, writerIdx := 0 }) := by
    rw [whole, EStateM.run_bind, run_call_ok]
    dsimp only
    rw [cut, EStateM.run_bind, run_call_ok]
    rfl
  cases built with
  | heap small within => exact plain
  | dynamic ordered small within => exact plain
  | truncated parent room within => exact plain
  | duplicated parent within => exact plain
  | sliced parent room within => simp [bared] at bare
  | readOnly parent within => simp [bared] at bare
  | composite parts ordered cached small within => simp [bared] at bare

@[simp] theorem bared_withIdx (idx : Indices) : (buffer.withIdx idx).bared = buffer.bared := by
  cases buffer with
  | heap buffer => simp [withIdx, bared]
  | dynamic endianness factory buffer before => simp [withIdx, bared]
  | sliced base adjustment length before => simp [withIdx, bared]
  | truncated base length before => simp [withIdx, bared]
  | duplicated base before => simp [withIdx, bared]
  | readOnly base before => simp [withIdx, bared]
  | composite order components indices last before => simp [withIdx, bared]

section

variable {part : ChannelBuffer}

theorem setIndex_shape {reader writer : Int}
    (made : buffer.setIndex reader writer = .ok part) : ∃ idx, part = buffer.withIdx idx := by
  unfold setIndex at made
  split at made
  · cases made
  · cases made
    exact ⟨_, rfl⟩

theorem makeTruncated_bared {length : Int}
    (made : makeTruncated buffer length = .ok part) : part.bared = buffer.bared := by
  unfold makeTruncated setWriterIndex at made
  split at made
  · cases made
  · split at made
    · cases made
    · cases made
      rw [bared_withIdx, bared]

theorem directSlice_bared {length : Int} (bare : buffer.bared = true)
    (some_ : length ≠ 0) (cut : directSlice buffer 0 length = .ok part) : part.bared = true := by
  unfold directSlice at cut
  rw [if_neg some_, if_pos rfl] at cut
  exact (makeTruncated_bared cut).trans bare

/-- A slice from the first cell on has the array of the buffer. -/
theorem slice_bared {length : Int} (built : buffer.WellBuilt)
    (bare : buffer.bared = true) (some_ : length ≠ 0) (cut : buffer.slice 0 length = .ok part) :
    part.bared = true := by
  induction built with
  | heap small inside =>
      rw [slice] at cut
      beta_reduce at cut
      split at cut
      · rw [makeDuplicated_run (.heap small inside), ok_bind] at cut
        obtain ⟨idx, rfl⟩ := setIndex_shape cut
        rw [bared_withIdx, bared, bared]
      · exact directSlice_bared bare some_ cut
  | dynamic ordered small inside =>
      rw [slice] at cut
      exact directSlice_bared bare some_ cut
  | truncated parent within inside ih =>
      rw [bared] at bare
      rw [slice] at cut
      obtain ⟨_, -, cut⟩ := ok_of_bind cut
      rw [if_neg some_] at cut
      exact ih bare cut
  | duplicated parent inside ih =>
      rw [bared] at bare
      rw [slice] at cut
      exact ih bare cut
  | sliced parent within inside => simp [bared] at bare
  | readOnly parent inside => simp [bared] at bare
  | composite parts ordered cached small inside => simp [bared] at bare

end

/-- The components `wrappedBuffer` makes of the buffer have bare arrays, and there are slots for them
beside three others. -/
def Gatherable (buffer : ChannelBuffer) : Prop :=
  ∀ parts, ChannelBuffers.wrapParts buffer = .ok parts →
    parts.length ≤ 4 ∧ ∀ part ∈ parts, part.bared = true

/-- A bare buffer that is read from its first cell on becomes one such component. -/
theorem wrapParts_bared {parts : List ChannelBuffer} (built : buffer.WellBuilt)
    (bare : buffer.bared = true) (front : buffer.readerIdx = 0) (readable : buffer.readable = true)
    (cut : ChannelBuffers.wrapParts buffer = .ok parts) :
    ∃ part, parts = [part] ∧ part.bared = true := by
  have some_ : buffer.readableBytes ≠ 0 := by
    unfold ChannelBuffer.readable at readable
    have positive := of_decide_eq_true readable
    omega
  have direct : (do
      let part ← buffer.slice buffer.readerIdx buffer.readableBytes
      pure [part] : Except Stop (List ChannelBuffer)) = .ok parts := by
    rw [← cut]
    cases built with
    | heap small inside => rfl
    | dynamic ordered small inside => rfl
    | truncated parent within inside => rfl
    | duplicated parent inside => rfl
    | sliced parent within inside => rfl
    | readOnly parent inside => rfl
    | composite together ordered cached small inside => simp [bared] at bare
  obtain ⟨part, sliced, made⟩ := ok_of_bind direct
  cases made
  rw [front] at sliced
  exact ⟨part, rfl, slice_bared built bare some_ sliced⟩

theorem gatherable_of_bared (built : buffer.WellBuilt) (bare : buffer.bared = true)
    (front : buffer.readerIdx = 0) (readable : buffer.readable = true) : buffer.Gatherable := by
  intro parts cut
  obtain ⟨part, rfl, same⟩ := wrapParts_bared built bare front readable cut
  refine ⟨by simp, ?_⟩
  intro other among
  rw [List.mem_singleton.mp among]
  exact same

end Bared

end ChannelBuffer

namespace ChannelBuffers

open ChannelBuffer

section

variable {order : ByteOrder}

theorem wrapFrom_cons {buffs parts rest : List ChannelBuffer}
    {buffer : ChannelBuffer} (same : ∀ other ∈ buffs, other.order = order)
    (ordered : buffer.order = order) (readable : buffer.readable = true)
    (cut : wrapParts buffer = .ok parts) :
    wrapFrom buffs (buffer :: rest) = wrapFrom (buffs ++ parts) rest := by
  rw [wrapFrom, readable, differs_of_same same ordered, cut]
  rfl

/-- What is wrapped of one buffer after another. -/
theorem wrapFrom_parts {buffers : List ChannelBuffer}
    {cuts : List (List ChannelBuffer)}
    (wraps : List.Forall₂ (fun buffer parts => buffer.order = order ∧ buffer.readable = true ∧
      wrapParts buffer = .ok parts ∧ ∀ part ∈ parts, Fresh order part) buffers cuts)
    {buffs : List ChannelBuffer} (same : ∀ other ∈ buffs, other.order = order) :
    wrapFrom buffs buffers = .ok (buffs ++ cuts.flatten) := by
  induction wraps generalizing buffs with
  | nil =>
      rw [List.flatten_nil, List.append_nil]
      rfl
  | @cons buffer parts rest others here later ih =>
      obtain ⟨ordered, readable, cut, fresh⟩ := here
      have longer : ∀ other ∈ buffs ++ parts, other.order = order := by
        intro other among
        rcases List.mem_append.mp among with before | added
        · exact same other before
        · exact (fresh other added).ordered
      rw [wrapFrom_cons same ordered readable cut, ih longer, List.flatten_cons, List.append_assoc]

theorem makeComposite_shape {components : List ChannelBuffer} {idx : Indices}
    {buffer : ChannelBuffer} (made : makeComposite order components idx = .ok buffer) :
    ∃ indices last moved, buffer = composite order components indices last moved := by
  unfold makeComposite at made
  cases empty : components.isEmpty with
  | true =>
      rw [empty] at made
      cases made
  | false =>
      cases mixed : components.any (fun component => component.order != order) with
      | true =>
          rw [empty, mixed] at made
          cases made
      | false =>
          cases touched : components.any (fun component =>
              component.readerIdx != 0 || component.writerIdx != component.capacity) with
          | true =>
              rw [empty, mixed, touched] at made
              cases made
          | false =>
              rw [empty, mixed, touched] at made
              obtain ⟨moved, rfl⟩ := setIndex_shape made
              exact ⟨_, _, moved, rfl⟩

/-- Two components or more are kept as they are. -/
theorem compositeBuffer_shape {first second : ChannelBuffer}
    {rest : List ChannelBuffer} {buffer : ChannelBuffer}
    (made : compositeBuffer order (first :: second :: rest) = .ok buffer) :
    ∃ indices last moved, buffer = composite order (first :: second :: rest) indices last moved := by
  unfold compositeBuffer at made
  dsimp only at made
  split at made
  · cases made
  · exact makeComposite_shape made

end

end ChannelBuffers

namespace AsioGatheringBuffer

theorem append_room {gathering : AsioGatheringBuffer} (slots : gathering.slots.length = maxBufferCount)
    (room : gathering.truncatedIndex < maxBufferCount) (block : CharArray) :
    ∃ after, gathering.append block = .ok after ∧ after.slots.length = maxBufferCount ∧
      after.blocks = gathering.blocks ++ [block] ∧
      after.truncatedIndex = gathering.truncatedIndex + 1 := by
  have appended : ∃ after, gathering.append block = .ok after ∧
      after.slots.length = maxBufferCount := by
    unfold append
    rw [if_pos room]
    exact ⟨_, rfl, List.length_set.trans slots⟩
  obtain ⟨after, made, kept⟩ := appended
  exact ⟨after, made, kept, append_blocks slots made⟩

end AsioGatheringBuffer

namespace BufferM

open ChannelBuffer AsioGatheringBuffer

/-- Every readable component takes a slot. -/
theorem gatherComponents_bared {order : ByteOrder} {components : List ChannelBuffer}
    (fresh : ∀ component ∈ components, Fresh order component)
    (bare : ∀ component ∈ components, component.bared = true) (shown : CharArray)
    {gathering : AsioGatheringBuffer} (slots : gathering.slots.length = maxBufferCount)
    (room : gathering.truncatedIndex + components.length ≤ maxBufferCount) :
    ∃ others after added, gatherComponents components shown gathering = .ok (others, after) ∧
      after.slots.length = maxBufferCount ∧ after.blocks = gathering.blocks ++ added ∧
      added.flatten = componentContent components ∧
      after.truncatedIndex = gathering.truncatedIndex + added.length := by
  induction components generalizing shown gathering with
  | nil =>
      rw [componentContent]
      exact ⟨[], gathering, [], rfl, slots, (List.append_nil _).symm, rfl, rfl⟩
  | cons component rest ih =>
      have here := fresh component List.mem_cons_self
      have later : ∀ other ∈ rest, Fresh order other :=
        fun other among => fresh other (List.mem_cons_of_mem _ among)
      have bared_ : ∀ other ∈ rest, other.bared = true :=
        fun other among => bare other (List.mem_cons_of_mem _ among)
      rw [List.length_cons] at room
      rw [gatherComponents]
      by_cases readable : component.readable = true
      · obtain ⟨moved, sliced⟩ := readSliceArray_bared here.built (bare component List.mem_cons_self)
          readable shown
        obtain ⟨grown, appended, kept, blocks, index⟩ :=
          append_room slots (by omega) component.readableContent
        obtain ⟨others, after, added, run, final, total, joined, count⟩ :=
          ih later bared_ component.readableContent kept (by omega)
        rw [if_pos readable, sliced]
        dsimp only
        rw [appended, ok_bind, run]
        refine ⟨moved :: others, after, component.readableContent :: added, rfl, final, ?_, ?_, ?_⟩
        · rw [total, blocks, List.append_assoc, List.singleton_append]
        · rw [List.flatten_cons, joined, componentContent, here.readableContent]
        · rw [count, index, List.length_cons]
          omega
      · obtain ⟨others, after, added, run, final, total, joined, count⟩ :=
          ih later bared_ shown slots (by omega)
        have empty : component.content = [] := by
          unfold ChannelBuffer.readable at readable
          rw [here.readableBytes] at readable
          apply List.eq_nil_of_length_eq_zero
          have none := of_decide_eq_false (Bool.eq_false_iff.mpr readable)
          omega
        rw [if_neg readable, run]
        refine ⟨component :: others, after, added, rfl, final, total, ?_, count⟩
        rw [joined, componentContent, empty, List.nil_append]

end BufferM

namespace AsioWriteRequest

open ChannelBuffer AsioGatheringBuffer

/-- A buffer with such an array is written as it reads. -/
theorem make_bared {buffer : ChannelBuffer} (built : buffer.WellBuilt)
    (bare : buffer.bared = true) (readable : buffer.readable = true) :
    ∃ request moved, make.run buffer = .ok request moved ∧
      request.bytes = buffer.readableContent := by
  obtain ⟨arrayed, -⟩ := bared_array built bare
  obtain ⟨moved, sliced⟩ := readSliceArray_bared built bare readable []
  refine ⟨ofArray buffer.readableContent, moved, ?_, ?_⟩
  · unfold make
    rw [run_bind_get]
    rw [if_pos arrayed, EStateM.run_bind, sliced]
    rfl
  · exact List.append_nil _

/-- So is a composite buffer of at most seven of them. -/
theorem make_composite {order : ByteOrder} {components : List ChannelBuffer}
    (indices : List Int) (last : Nat) (idx : Indices)
    (fresh : ∀ component ∈ components, Fresh order component)
    (bare : ∀ component ∈ components, component.bared = true) (few : components.length ≤ 7) :
    ∃ request moved, make.run (composite order components indices last idx) = .ok request moved ∧
      request.bytes = componentContent components := by
  obtain ⟨others, after, added, run, slots, total, joined, count⟩ :=
    BufferM.gatherComponents_bared fresh bare []
      (show AsioGatheringBuffer.make.slots.length = maxBufferCount from rfl)
      (show 1 + components.length ≤ 8 by omega)
  have gathered : (BufferM.readSliceGathering AsioGatheringBuffer.make).run
      (composite order components indices last idx) =
        .ok after (composite order others indices last idx) := by
    unfold BufferM.readSliceGathering
    rw [run_bind_get]
    dsimp only
    rw [run, EStateM.run_bind, run_call_ok]
    rfl
  have shown : after.blocks.flatten = componentContent components := by
    rw [total, List.flatten_append, joined]
    rfl
  have index : after.truncatedIndex = 1 + added.length := count
  unfold make
  rw [run_bind_get]
  rw [hasArray, if_neg Bool.false_ne_true, EStateM.run_bind, gathered]
  dsimp only
  by_cases single : after.truncatedIndex = 1
  · rw [if_pos single]
    refine ⟨_, _, rfl, ?_⟩
    rw [← shown, AsioGatheringBuffer.blocks_single slots single]
    rfl
  · rw [if_neg single]
    refine ⟨_, _, rfl, ?_⟩
    have used : 0 < after.truncatedIndex := by omega
    unfold bytes blocks hasBuffers
    rw [decide_eq_true used]
    exact shown

end AsioWriteRequest

end Cetty
