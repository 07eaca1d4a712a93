import Cetty.BufferCopies
import Cetty.LengthFieldHeader

/-!
# The frame length of the length field decoder

One call of `decode` against the sum of the length field, the adjustment and the end offset over
the integers. The field is read into an `int` whatever its width, the sum wraps, all that is
readable is thrown away with a frame that is too long, and a composite buffer may refuse to hand
out a frame; everywhere else the call does what the exact sum says.
-/

namespace Cetty

open MachineInt ByteWindow ChannelBuffer

namespace ChannelBuffer

variable {buffer : ChannelBuffer} {count : Nat}

/-- Whether `getBytes` copies `length` bytes out from `index` on. -/
def handsOut (buffer : ChannelBuffer) (index length : Nat) : Bool :=
  if length = 0 then buffer.passesNothing index else buffer.passes index length

structure Spans (buffer : ChannelBuffer) : Prop where
  reader : 0 ≤ buffer.readerIdx
  writer : buffer.readerIdx ≤ buffer.writerIdx
  bound : buffer.writerIdx ≤ buffer.content.length
  small : (buffer.content.length : Int) ≤ maxInt
  readable : (buffer.readableContent.length : Int) = buffer.writerIdx - buffer.readerIdx

theorem WellBuilt.spans (built : buffer.WellBuilt) : buffer.Spans := by
  have reader : 0 ≤ buffer.readerIdx := built.inside.reader
  have writer : buffer.readerIdx ≤ buffer.writerIdx := built.inside.writer
  have bound : buffer.writerIdx ≤ buffer.content.length := built.inside.bound
  refine ⟨reader, writer, bound, built.answers.small, ?_⟩
  unfold readableContent
  rw [window_length (by omega)]
  omega

theorem Spans.advance (spans : buffer.Spans) (bounded : count ≤ buffer.readableContent.length) :
    (buffer.advance count).Spans := by
  have reader := spans.reader
  have bound := spans.bound
  have readable := spans.readable
  refine ⟨?_, ?_, ?_, ?_, ?_⟩
  · rw [readerIdx_advance]
    omega
  · rw [readerIdx_advance, writerIdx_advance]
    omega
  · rw [writerIdx_advance, content_advance]
    exact bound
  · rw [content_advance]
    exact spans.small
  · unfold readableContent
    rw [content_advance, readerIdx_advance, writerIdx_advance, window_length (by omega)]
    omega

theorem Spans.readableBytes (spans : buffer.Spans) :
    buffer.readableBytes = buffer.readableContent.length := by
  have reader := spans.reader
  have writer := spans.writer
  have bound := spans.bound
  have small := spans.small
  rw [spans.readable]
  unfold ChannelBuffer.readableBytes
  exact int32_of_nonneg (by omega) (by omega)

section

variable (spans : buffer.Spans) (bounded : count ≤ buffer.readableContent.length)

include spans bounded

theorem Spans.int32_reader :
    int32 (buffer.readerIdx + count) = buffer.readerIdx + count := by
  have reader := spans.reader
  have bound := spans.bound
  have small := spans.small
  have readable := spans.readable
  exact int32_of_nonneg (by omega) (by omega)

theorem Spans.skipBytes :
    (BufferM.skipBytes count).run buffer = .ok () (buffer.advance count) := by
  have readable := spans.readable
  unfold BufferM.skipBytes
  rw [run_bind_get]
  rw [spans.int32_reader bounded, if_neg (by omega)]
  rfl

theorem Spans.readerIndex :
    (BufferM.readerIndex (buffer.readerIdx + count)).run buffer =
      .ok () (buffer.advance count) := by
  have reader := spans.reader
  have readable := spans.readable
  unfold BufferM.readerIndex
  rw [run_bind_get]
  simp only [setReaderIndex]
  rw [if_neg (by omega)]
  rfl

end

@[simp] theorem getters_advance (buffer : ChannelBuffer) (count : Nat) :
    (buffer.advance count).getters = buffer.getters := by
  unfold advance
  rw [getters_withIdx]

/-- `getBytes` into a block of the wanted length. -/
theorem Hands.copies_out (hands : buffer.Hands) {index length : Nat}
    (bounded : index + length ≤ buffer.content.length)
    (small : (buffer.content.length : Int) ≤ maxInt) :
    buffer.getters.getBytes index (List.replicate length 0) (0 : Nat) length =
      if buffer.handsOut index length then .ok (window buffer.content index length)
      else .error (rangeException "") := by
  have cells : (List.replicate length (0 : Byte)).length = length := List.length_replicate
  have size : (window buffer.content index length).length = length := window_length bounded
  unfold handsOut
  by_cases empty : length = 0
  · subst empty
    rw [if_pos rfl, window_zero_count]
    exact hands.nothing index [] 0 bounded (Nat.le_refl _) (by decide)
  · rw [if_neg empty, hands.bytes index length _ 0 (by omega) bounded (by omega) (by omega),
      overwrite_whole (by rw [cells, size])]

end ChannelBuffer

namespace LengthFieldBasedFrameDecoder

theorem allocate_cells (order : ByteOrder) (length : Nat) :
    ∃ given, allocate order length = .ok ⟨given, List.replicate length 0, .zero⟩ := by
  unfold allocate
  by_cases empty : length = 0
  · subst empty
    exact ⟨.big, rfl⟩
  · rw [if_neg (by omega), if_neg (by omega), Int.toNat_natCast]
    exact ⟨order, rfl⟩

section Frame

variable {source buffer : ChannelBuffer} {index length : Nat}

/-- The bytes go into a new block as `getBytes` hands them out. -/
theorem extractFrame_copies (same : source.getters = buffer.getters) (index : Nat)
    (small : (length : Int) ≤ maxInt) :
    ∃ given, extractFrame source index length = (do
      let arry ← buffer.getters.getBytes index (List.replicate length 0) (0 : Nat) length
      pure (.heap ⟨given, arry, .full length⟩)) := by
  obtain ⟨given, made⟩ := allocate_cells source.factory length
  refine ⟨given, ?_⟩
  unfold extractFrame
  rw [made, ok_bind, same]
  unfold BufferM.writeFrom
  rw [run_bind_get]
  rw [run_bind_get]
  simp only [setBytes, HeapChannelBuffer.setBytes, writerIdx, idx]
  have front : buffer.getters.getBytes index (List.replicate length 0) (0 : Nat) length =
      buffer.getters.getBytes index (List.replicate length 0) Indices.zero.writerIdx length := rfl
  rw [front]
  cases buffer.getters.getBytes index (List.replicate length 0) Indices.zero.writerIdx length with
  | error stop => rfl
  | ok arry =>
      have moved : int32 (Indices.zero.writerIdx + length) = length := by
        change int32 (0 + (length : Int)) = length
        rw [Int.zero_add]
        exact int32_of_nonneg (Int.natCast_nonneg _) small
      have full : Indices.full length =
          { Indices.zero with writerIdx := int32 (Indices.zero.writerIdx + length) } := by
        rw [moved]
        rfl
      rw [ok_bind, ok_bind, full]
      rfl

section

variable (same : source.getters = buffer.getters) (hands : buffer.Hands)
  (small : (buffer.content.length : Int) ≤ maxInt)
  (bounded : index + length ≤ buffer.content.length)

include same hands small bounded

theorem extractFrame_taken (handed : buffer.handsOut index length = true) :
    ∃ frame, extractFrame source index length = .ok frame ∧
      frame.readableContent = window buffer.content index length := by
  have limit : (length : Int) ≤ maxInt := by omega
  obtain ⟨given, ran⟩ := extractFrame_copies same index limit
  rw [hands.copies_out bounded small, if_pos handed, ok_bind] at ran
  refine ⟨_, ran, ?_⟩
  unfold readableContent readerIdx writerIdx
  rw [content, idx]
  change window (window buffer.content index length) 0 ((length : Int) - 0).toNat = _
  rw [Int.sub_zero, Int.toNat_natCast, window_window _ _ _ _ _ (by omega), Nat.add_zero]

theorem extractFrame_refused (kept : buffer.handsOut index length = false) :
    extractFrame source index length = .error (rangeException "") := by
  have limit : (length : Int) ≤ maxInt := by omega
  obtain ⟨given, ran⟩ := extractFrame_copies same index limit
  rw [hands.copies_out bounded small, if_neg (by rw [kept]; decide)] at ran
  exact ran

end

end Frame

section Sums

/-- The length field as a number: without a sign up to four bytes, with one in eight. -/
def fieldValue (order : ByteOrder) (decoder : LengthFieldBasedFrameDecoder)
    (bytes : List Byte) : Int :=
  if decoder.lengthFieldLength = 8 then
    Int.bmod (lengthField order decoder bytes) 18446744073709551616
  else lengthField order decoder bytes

/-- The length of the frame over the integers. -/
def frameSum (order : ByteOrder) (decoder : LengthFieldBasedFrameDecoder)
    (bytes : List Byte) : Int :=
  fieldValue order decoder bytes + decoder.lengthAdjustment + decoder.lengthFieldEndOffset

/-- The number in the low four bytes of the field. -/
def lowValue (order : ByteOrder) (decoder : LengthFieldBasedFrameDecoder)
    (bytes : List Byte) : Int :=
  fieldValue order decoder bytes % 4294967296

def lowSum (order : ByteOrder) (decoder : LengthFieldBasedFrameDecoder)
    (bytes : List Byte) : Int :=
  lowValue order decoder bytes + decoder.lengthAdjustment + decoder.lengthFieldEndOffset

variable {decoder : LengthFieldBasedFrameDecoder} {order : ByteOrder} {bytes : List Byte}

/-- What is read differs from the field by whole turns, whatever the width. -/
theorem readLength_eq (order : ByteOrder) (decoder : LengthFieldBasedFrameDecoder)
    (bytes : List Byte) :
    readLength order decoder bytes = int32 (fieldValue order decoder bytes) := by
  unfold readLength fieldValue
  by_cases eight : decoder.lengthFieldLength = 8
  · rw [if_pos eight]
    exact (Int.bmod_bmod_of_dvd (by decide)).symm
  · rw [if_neg eight]

theorem computedLength_sum (order : ByteOrder) (decoder : LengthFieldBasedFrameDecoder)
    (bytes : List Byte) :
    computedLength order decoder bytes = int32 (frameSum order decoder bytes) := by
  unfold computedLength frameSum
  rw [readLength_eq, int32_add_right, int32_add_left, Int.add_assoc]

end Sums

abbrev Outcome := EStateM.Result Stop (DecodeContext LengthFieldBasedFrameDecoder) ChannelMessage

def Outcome.Corrupted (outcome : Outcome) : Prop :=
  ∃ exception after, outcome = .error (.thrown exception) after ∧ exception.cls = .corruptedFrame

/-- Discarding has started: of `count` bytes as many as were readable are gone, and no others. -/
def Outcome.Discards (before : DecodeContext LengthFieldBasedFrameDecoder) (count : Int)
    (outcome : Outcome) : Prop :=
  ∃ after taken, outcome = .ok .empty after ∧ after.buffer = before.buffer.advance taken ∧
    after.fields.discardingTooLongFrame = true ∧ after.fields.tooLongFrameLength = count ∧
    (taken : Int) = min count before.buffer.readableContent.length ∧
    after.fields.bytesToDiscard = count - taken ∧ after.fired = before.fired

/-- The bytes from `first` to `last` have been returned, and `last` bytes are consumed. -/
def Outcome.Returns (before : DecodeContext LengthFieldBasedFrameDecoder) (first last : Int)
    (outcome : Outcome) : Prop :=
  ∃ frame, outcome = .ok (.buffer frame)
      { before with buffer := before.buffer.advance last.toNat } ∧
    frame.readableContent =
      window before.buffer.readableContent first.toNat (last - first).toNat

section Branches

variable {decoder : LengthFieldBasedFrameDecoder} {buffer : ChannelBuffer}
  {fired : List UpstreamEvent} {order : ByteOrder}

theorem skipBytes_spans {fields : LengthFieldBasedFrameDecoder} {count : Nat}
    (spans : buffer.Spans) (bounded : count ≤ buffer.readableContent.length) :
    (skipBytes count).run ⟨fields, buffer, fired⟩ =
      .ok () ⟨fields, buffer.advance count, fired⟩ :=
  onBuffer_ok (spans.skipBytes bounded)

/-- A header that is readable is read first. -/
theorem decode_reads (constructed : Constructed decoder) (built : buffer.WellBuilt)
    (complete : decoder.lengthFieldEndOffset ≤ buffer.readableContent.length) :
    decode.run ⟨decoder, buffer, fired⟩ =
      (decodeBody (readLength buffer.order decoder buffer.readableContent)).run
        ⟨decoder, buffer, fired⟩ := by
  unfold decode
  rw [run_bind_get]
  simp only [constructed.normal, Bool.false_eq_true, if_false]
  rw [built.spans.readableBytes, if_neg (by omega),
    getLength_answers constructed built.answers built.inside complete,
    run_bind_ok _ (run_call_ok _ _)]

/-- The skip before an exception does not fail. -/
theorem skip_then_corrupted (spans : buffer.Spans) {count : Int} (positive : 0 ≤ count)
    (bounded : count ≤ buffer.readableContent.length) (message : String) :
    Outcome.Corrupted ((do skipBytes count; throw (corruptedFrame message) :
      Decode ChannelMessage).run ⟨decoder, buffer, fired⟩) := by
  have skipped : (skipBytes count.toNat).run ⟨decoder, buffer, fired⟩ =
      .ok () ⟨decoder, buffer.advance count.toNat, fired⟩ := skipBytes_spans spans (by omega)
  rw [Int.toNat_of_nonneg positive] at skipped
  rw [run_bind_ok _ skipped]
  exact ⟨_, _, rfl, rfl⟩

variable {length frameLength : Int}

theorem decodeBody_refuses (constructed : Constructed decoder) (spans : buffer.Spans)
    (complete : decoder.lengthFieldEndOffset ≤ buffer.readableContent.length)
    (sum : int32 (length + int32 (decoder.lengthAdjustment + decoder.lengthFieldEndOffset)) =
      frameLength)
    (refused : length < 0 ∨ frameLength < decoder.lengthFieldEndOffset) :
    Outcome.Corrupted ((decodeBody length).run ⟨decoder, buffer, fired⟩) := by
  have ends := constructed.end_eq
  have offset := constructed.offset
  have width := constructed.width
  unfold decodeBody
  rw [run_bind_get]
  simp only [sum]
  by_cases negative : length < 0
  · rw [if_pos negative]
    exact skip_then_corrupted spans (by omega) complete _
  · rw [if_neg negative, if_pos (by omega)]
    exact skip_then_corrupted spans (by omega) complete _

theorem decodeBody_discards (fired : List UpstreamEvent) (spans : buffer.Spans)
    (positive : 0 ≤ length)
    (sum : int32 (length + int32 (decoder.lengthAdjustment + decoder.lengthFieldEndOffset)) =
      frameLength)
    (least : decoder.lengthFieldEndOffset ≤ frameLength)
    (long : decoder.maxFrameLength < frameLength) :
    (decodeBody length).run ⟨decoder, buffer, fired⟩ = .ok .empty
      ⟨entered decoder frameLength buffer.readableContent.length,
        buffer.advance buffer.readableContent.length, fired⟩ := by
  unfold decodeBody
  rw [run_bind_get]
  simp only [sum]
  rw [if_neg (by omega), if_neg (by omega), if_pos long]
  unfold enterDiscarding
  rw [run_bind_get]
  simp only [spans.readableBytes]
  rw [run_bind_ok _ (update_run _ _), run_bind_ok _ (skipBytes_spans spans (Nat.le_refl _))]
  rfl

section

variable (spans : buffer.Spans) (positive : 0 ≤ length)
  (sum : int32 (length + int32 (decoder.lengthAdjustment + decoder.lengthFieldEndOffset)) =
    frameLength)
  (least : decoder.lengthFieldEndOffset ≤ frameLength)
  (fits : frameLength ≤ decoder.maxFrameLength)

include spans positive sum least fits

theorem decodeBody_waits (short : (buffer.readableContent.length : Int) < frameLength) :
    (decodeBody length).run ⟨decoder, buffer, fired⟩ =
      .ok .empty ⟨decoder, buffer, fired⟩ := by
  unfold decodeBody
  rw [run_bind_get]
  simp only [sum]
  rw [if_neg (by omega), if_neg (by omega), if_neg (by omega), spans.readableBytes, if_pos short]
  rfl

theorem decodeBody_takes (present : frameLength ≤ buffer.readableContent.length) :
    (decodeBody length).run ⟨decoder, buffer, fired⟩ =
      (takeFrame frameLength).run ⟨decoder, buffer, fired⟩ := by
  unfold decodeBody
  rw [run_bind_get]
  simp only [sum]
  rw [if_neg (by omega), if_neg (by omega), if_neg (by omega), spans.readableBytes,
    if_neg (by omega)]

end

theorem takeFrame_strips (spans : buffer.Spans) (positive : 0 ≤ frameLength)
    (present : frameLength ≤ buffer.readableContent.length)
    (stripped : frameLength < decoder.initialBytesToStrip) :
    Outcome.Corrupted ((takeFrame frameLength).run ⟨decoder, buffer, fired⟩) := by
  unfold takeFrame
  rw [run_bind_get]
  rw [if_pos stripped]
  exact skip_then_corrupted spans positive present _

/-- The frame is cut out behind the stripped bytes. -/
theorem takeFrame_cuts (spans : buffer.Spans) {strip count : Nat}
    (stripping : decoder.initialBytesToStrip = strip)
    (present : strip + count ≤ buffer.readableContent.length) :
    (takeFrame ((strip + count : Nat) : Int)).run ⟨decoder, buffer, fired⟩ = (do
      let frame ← call (extractFrame (buffer.advance strip)
        ((buffer.readerIdx.toNat + strip : Nat) : Int) count)
      onBuffer (BufferM.readerIndex
        ((buffer.advance strip).readerIdx + count))
      pure (.buffer frame) : Decode ChannelMessage).run
        ⟨decoder, buffer.advance strip, fired⟩ := by
  have reader := spans.reader
  have bound := spans.bound
  have small := spans.small
  have readable := spans.readable
  have stripped : strip ≤ buffer.readableContent.length := by omega
  have moved := spans.advance stripped
  have behind := moved.readable
  have after : (buffer.advance strip).readerIdx = ((buffer.readerIdx.toNat + strip : Nat) : Int) := by
    rw [readerIdx_advance]
    omega
  have left : count ≤ (buffer.advance strip).readableContent.length := by
    rw [readerIdx_advance, writerIdx_advance] at behind
    omega
  have actual : int32 (((strip + count : Nat) : Int) - strip) = count := by
    rw [int32_of_nonneg (by omega) (by omega)]
    omega
  unfold takeFrame
  rw [run_bind_get]
  simp only [stripping]
  rw [if_neg (by omega), run_bind_ok _ (skipBytes_spans spans (by omega)), run_bind_get]
  simp only [actual, moved.int32_reader left]
  rw [after]

variable {strip count : Nat}

theorem takeFrame_returns (fired : List UpstreamEvent) (built : buffer.WellBuilt)
    (stripping : decoder.initialBytesToStrip = strip)
    (present : strip + count ≤ buffer.readableContent.length)
    (handed : buffer.handsOut (buffer.readerIdx.toNat + strip) count = true) :
    Outcome.Returns ⟨decoder, buffer, fired⟩ strip ((strip + count : Nat) : Int)
      ((takeFrame ((strip + count : Nat) : Int)).run ⟨decoder, buffer, fired⟩) := by
  have spans := built.spans
  have reader := spans.reader
  have bound := spans.bound
  have readable := spans.readable
  have stripped : strip ≤ buffer.readableContent.length := by omega
  have moved := spans.advance stripped
  have behind := moved.readable
  have left : count ≤ (buffer.advance strip).readableContent.length := by
    rw [readerIdx_advance, writerIdx_advance] at behind
    omega
  have inside : buffer.readerIdx.toNat + strip + count ≤ buffer.content.length := by omega
  obtain ⟨frame, taken, shown⟩ := extractFrame_taken (getters_advance buffer strip) built.hands
    spans.small inside handed
  have placed : (onBuffer (BufferM.readerIndex ((buffer.advance strip).readerIdx + count))).run
      (⟨decoder, buffer.advance strip, fired⟩ : DecodeContext _) =
      .ok () ⟨decoder, (buffer.advance strip).advance count, fired⟩ :=
    onBuffer_ok (moved.readerIndex left)
  rw [takeFrame_cuts spans stripping present, taken, run_bind_ok _ (run_call_ok _ _),
    run_bind_ok _ placed, advance_advance]
  refine ⟨frame, rfl, ?_⟩
  have amount : (((strip + count : Nat) : Int) - strip).toNat = count := by omega
  rw [shown, amount, Int.toNat_natCast]
  change _ = window (window buffer.content buffer.readerIdx.toNat
    (buffer.writerIdx - buffer.readerIdx).toNat) strip count
  rw [window_window _ _ _ _ _ (by omega)]

theorem takeFrame_refused (built : buffer.WellBuilt)
    (stripping : decoder.initialBytesToStrip = strip)
    (present : strip + count ≤ buffer.readableContent.length)
    (kept : buffer.handsOut (buffer.readerIdx.toNat + strip) count = false) :
    (takeFrame ((strip + count : Nat) : Int)).run ⟨decoder, buffer, fired⟩ =
      .error (rangeException "") ⟨decoder, buffer.advance strip, fired⟩ := by
  have spans := built.spans
  have reader := spans.reader
  have bound := spans.bound
  have readable := spans.readable
  have inside : buffer.readerIdx.toNat + strip + count ≤ buffer.content.length := by omega
  have refused := extractFrame_refused (getters_advance buffer strip) built.hands
    spans.small inside kept
  rw [takeFrame_cuts spans stripping present, refused, run_bind_error _ (run_call_error _ _)]

end Branches

/-- The exact sum refuses the frame. -/
def Refused (decoder : LengthFieldBasedFrameDecoder) (buffer : ChannelBuffer) : Prop :=
  let sum := frameSum buffer.order decoder buffer.readableContent
  fieldValue buffer.order decoder buffer.readableContent < 0 ∨
    sum < decoder.lengthFieldEndOffset ∨
    (sum < decoder.initialBytesToStrip ∧ sum ≤ buffer.readableContent.length ∧
      sum ≤ decoder.maxFrameLength)

/-- The outcome is the one the exact sum asks for. -/
structure Exact (before : DecodeContext LengthFieldBasedFrameDecoder) (sum : Int)
    (outcome : Outcome) : Prop where
  corrupted : outcome.Corrupted ↔ Refused before.fields before.buffer
  discards : ¬Refused before.fields before.buffer → before.fields.maxFrameLength < sum →
    outcome.Discards before sum
  waits : ¬Refused before.fields before.buffer → sum ≤ before.fields.maxFrameLength →
    (before.buffer.readableContent.length : Int) < sum → outcome = .ok .empty before
  returns : ¬Refused before.fields before.buffer → sum ≤ before.fields.maxFrameLength →
    sum ≤ before.buffer.readableContent.length →
    outcome.Returns before before.fields.initialBytesToStrip sum

/-- A negative field whose low half is refused as well, or a field and a sum that fit into an
`int`, with nothing readable behind a frame that is too long and a frame the buffer hands out. -/
def FitsInt (decoder : LengthFieldBasedFrameDecoder) (buffer : ChannelBuffer) : Prop :=
  let value := fieldValue buffer.order decoder buffer.readableContent
  let sum := frameSum buffer.order decoder buffer.readableContent
  let low := lowSum buffer.order decoder buffer.readableContent
  let strip := decoder.initialBytesToStrip
  if value < 0 then
    maxInt < lowValue buffer.order decoder buffer.readableContent ∨
      low < decoder.lengthFieldEndOffset ∨ maxInt < low ∨
      (low < strip ∧ low ≤ buffer.readableContent.length ∧ low ≤ decoder.maxFrameLength)
  else
    Refused decoder buffer ∨
      (value ≤ maxInt ∧ sum ≤ maxInt ∧
        (decoder.maxFrameLength < sum → sum ≥ buffer.readableContent.length) ∧
        (sum ≤ decoder.maxFrameLength → sum ≤ buffer.readableContent.length →
          buffer.handsOut (buffer.readerIdx + strip).toNat (sum - strip).toNat = true))

section Exactness

variable {decoder : LengthFieldBasedFrameDecoder} {buffer : ChannelBuffer}
  {fired : List UpstreamEvent} {sum : Int} {outcome : Outcome}
  {before : DecodeContext LengthFieldBasedFrameDecoder}

theorem exact_of_corrupted (corrupted : outcome.Corrupted) :
    Exact before sum outcome ↔ Refused before.fields before.buffer := by
  constructor
  · intro exact_
    exact exact_.corrupted.mp corrupted
  · intro refused
    exact ⟨⟨fun _ => refused, fun _ => corrupted⟩, fun kept => absurd refused kept,
      fun kept => absurd refused kept, fun kept => absurd refused kept⟩

theorem not_corrupted_of_ok {message : ChannelMessage}
    {after : DecodeContext LengthFieldBasedFrameDecoder} (ran : outcome = .ok message after) :
    ¬outcome.Corrupted := by
  intro corrupted
  obtain ⟨exception, left, same, -⟩ := corrupted
  rw [ran] at same
  cases same

/-- An empty message in a state that discards. -/
theorem exact_of_entered {after : DecodeContext LengthFieldBasedFrameDecoder}
    (ran : outcome = .ok .empty after) (normal : before.fields.discardingTooLongFrame = false)
    (started : after.fields.discardingTooLongFrame = true) :
    Exact before sum outcome ↔ ¬Refused before.fields before.buffer ∧
      before.fields.maxFrameLength < sum ∧ outcome.Discards before sum := by
  have valid := not_corrupted_of_ok ran
  constructor
  · intro exact_
    have kept : ¬Refused before.fields before.buffer := fun refused =>
      valid (exact_.corrupted.mpr refused)
    by_cases long : before.fields.maxFrameLength < sum
    · exact ⟨kept, long, exact_.discards kept long⟩
    · exfalso
      by_cases short : (before.buffer.readableContent.length : Int) < sum
      · have waits := exact_.waits kept (by omega) short
        rw [ran] at waits
        cases waits
        rw [normal] at started
        cases started
      · obtain ⟨frame, same, -⟩ := exact_.returns kept (by omega) (by omega)
        rw [ran] at same
        cases same
  · intro held
    obtain ⟨kept, long, discards⟩ := held
    refine ⟨⟨fun corrupted => absurd corrupted valid, fun refused => absurd refused kept⟩,
      fun _ _ => discards, fun _ fits => ?_, fun _ fits => ?_⟩
    · omega
    · omega

theorem exact_of_waiting (ran : outcome = .ok .empty before)
    (normal : before.fields.discardingTooLongFrame = false) :
    Exact before sum outcome ↔ ¬Refused before.fields before.buffer ∧
      sum ≤ before.fields.maxFrameLength ∧
      (before.buffer.readableContent.length : Int) < sum := by
  have valid := not_corrupted_of_ok ran
  constructor
  · intro exact_
    have kept : ¬Refused before.fields before.buffer := fun refused =>
      valid (exact_.corrupted.mpr refused)
    refine ⟨kept, ?_⟩
    by_cases long : before.fields.maxFrameLength < sum
    · obtain ⟨after, taken, same, -, started, -⟩ := exact_.discards kept long
      rw [ran] at same
      cases same
      rw [normal] at started
      cases started
    · refine ⟨by omega, ?_⟩
      by_contra enough
      obtain ⟨frame, same, -⟩ := exact_.returns kept (by omega) (by omega)
      rw [ran] at same
      cases same
  · intro held
    obtain ⟨kept, fits, short⟩ := held
    refine ⟨⟨fun corrupted => absurd corrupted valid, fun refused => absurd refused kept⟩,
      fun _ long => ?_, fun _ _ _ => ran, fun _ _ enough => ?_⟩
    · omega
    · omega

theorem exact_of_returned {frameLength : Int} (bounded : 0 ≤ frameLength)
    (least : ¬Refused before.fields before.buffer → 0 ≤ sum)
    (ran : outcome.Returns before before.fields.initialBytesToStrip frameLength) :
    Exact before sum outcome ↔ ¬Refused before.fields before.buffer ∧
      sum ≤ before.fields.maxFrameLength ∧
      sum ≤ before.buffer.readableContent.length ∧ sum = frameLength := by
  obtain ⟨frame, returned, -⟩ := id ran
  have valid := not_corrupted_of_ok returned
  constructor
  · intro exact_
    have kept : ¬Refused before.fields before.buffer := fun refused =>
      valid (exact_.corrupted.mpr refused)
    by_cases long : before.fields.maxFrameLength < sum
    · obtain ⟨after, taken, same, -⟩ := exact_.discards kept long
      rw [returned] at same
      cases same
    by_cases short : (before.buffer.readableContent.length : Int) < sum
    · have waits := exact_.waits kept (by omega) short
      rw [returned] at waits
      cases waits
    refine ⟨kept, by omega, by omega, ?_⟩
    obtain ⟨other, same, -⟩ := exact_.returns kept (by omega) (by omega)
    rw [returned] at same
    have buffers := congrArg DecodeContext.buffer (EStateM.Result.ok.inj same).2
    have readers := congrArg readerIdx buffers
    rw [readerIdx_advance, readerIdx_advance] at readers
    have positive := least kept
    omega
  · intro held
    obtain ⟨kept, fits, enough, same⟩ := held
    refine ⟨⟨fun corrupted => absurd corrupted valid, fun refused => absurd refused kept⟩,
      fun _ long => ?_, fun _ _ short => ?_, fun _ _ _ => ?_⟩
    · omega
    · omega
    · rw [same]
      exact ran

/-- A refusal of the buffer is none of the outcomes. -/
theorem not_exact_of_range {after : DecodeContext LengthFieldBasedFrameDecoder}
    (ran : outcome = .error (rangeException "") after) : ¬Exact before sum outcome := by
  intro exact_
  have kept : ¬Refused before.fields before.buffer := by
    intro refused
    obtain ⟨exception, left, same, shown⟩ := exact_.corrupted.mpr refused
    rw [ran] at same
    cases same
    cases shown
  by_cases long : before.fields.maxFrameLength < sum
  · obtain ⟨later, taken, same, -⟩ := exact_.discards kept long
    rw [ran] at same
    cases same
  by_cases short : (before.buffer.readableContent.length : Int) < sum
  · have waits := exact_.waits kept (by omega) short
    rw [ran] at waits
    cases waits
  · obtain ⟨frame, same, -⟩ := exact_.returns kept (by omega) (by omega)
    rw [ran] at same
    cases same

end Exactness

section Turns

variable {decoder : LengthFieldBasedFrameDecoder} {order : ByteOrder} {bytes : List Byte}

section

variable (constructed : Constructed decoder)

include constructed

/-- What is read as a positive number is the low half, and what is computed is the sum over it. -/
theorem low_of_read (read : 0 ≤ readLength order decoder bytes)
    (least : decoder.lengthFieldEndOffset ≤ computedLength order decoder bytes) :
    lowValue order decoder bytes = readLength order decoder bytes ∧
      lowSum order decoder bytes = computedLength order decoder bytes := by
  have ends := constructed.end_eq
  have offset := constructed.offset
  have width := constructed.width
  have adjusted := constructed.adjustmentLower
  have adjustedUpper := constructed.adjustmentUpper
  obtain ⟨turns, turned⟩ := int32_turns (fieldValue order decoder bytes)
  obtain ⟨others, sumTurned⟩ := int32_turns (frameSum order decoder bytes)
  have bounds := int32_bounds (fieldValue order decoder bytes)
  have sumBounds := int32_bounds (frameSum order decoder bytes)
  rw [← readLength_eq] at turned bounds
  rw [← computedLength_sum] at sumTurned sumBounds
  unfold frameSum at sumTurned
  unfold minInt maxInt at *
  have low : lowValue order decoder bytes = readLength order decoder bytes := by
    unfold lowValue
    omega
  refine ⟨low, ?_⟩
  unfold lowSum
  rw [low]
  omega

/-- A sum that fits into an `int` is computed as it is. -/
theorem computed_of_bounded (positive : 0 ≤ fieldValue order decoder bytes)
    (bounded : frameSum order decoder bytes ≤ maxInt) :
    computedLength order decoder bytes = frameSum order decoder bytes := by
  have ends := constructed.end_eq
  have offset := constructed.offset
  have width := constructed.width
  have adjusted := constructed.adjustmentLower
  rw [computedLength_sum]
  apply int32_of_bounds _ bounded
  unfold frameSum minInt at *
  omega

/-- No field below 2^32 - 1 is read as a positive number unless it is that number. -/
theorem small_of_bounded (bounded : frameSum order decoder bytes ≤ maxInt)
    (read : 0 ≤ readLength order decoder bytes) :
    fieldValue order decoder bytes ≤ maxInt := by
  have ends := constructed.end_eq
  have offset := constructed.offset
  have width := constructed.width
  have adjusted := constructed.adjustmentLower
  obtain ⟨turns, turned⟩ := int32_turns (fieldValue order decoder bytes)
  have bounds := int32_bounds (fieldValue order decoder bytes)
  rw [← readLength_eq] at turned bounds
  unfold frameSum at bounded
  unfold minInt maxInt at *
  omega

/-- A sum below the end offset comes from a small field. -/
theorem small_of_short (short : frameSum order decoder bytes < decoder.lengthFieldEndOffset) :
    fieldValue order decoder bytes ≤ maxInt ∧ frameSum order decoder bytes ≤ maxInt := by
  have ends := constructed.end_eq
  have adjusted := constructed.adjustmentLower
  have largest := constructed.maxFrame
  unfold frameSum at *
  unfold minInt maxInt at *
  omega

/-- The sum over the low half that is neither short nor wraps is what is computed. -/
theorem computed_of_low (refused : readLength order decoder bytes < 0 ∨
      computedLength order decoder bytes < decoder.lengthFieldEndOffset) :
    maxInt < lowValue order decoder bytes ∨
      lowSum order decoder bytes < decoder.lengthFieldEndOffset ∨
      maxInt < lowSum order decoder bytes := by
  have ends := constructed.end_eq
  have offset := constructed.offset
  have width := constructed.width
  have largest := constructed.maxFrame
  obtain ⟨turns, turned⟩ := int32_turns (fieldValue order decoder bytes)
  obtain ⟨others, sumTurned⟩ := int32_turns (frameSum order decoder bytes)
  have bounds := int32_bounds (fieldValue order decoder bytes)
  have sumBounds := int32_bounds (frameSum order decoder bytes)
  rw [← readLength_eq] at turned bounds
  rw [← computedLength_sum] at sumTurned sumBounds
  unfold lowSum lowValue
  unfold frameSum at sumTurned
  unfold minInt maxInt at *
  omega

end

end Turns

section Calls

variable {decoder : LengthFieldBasedFrameDecoder} {buffer : ChannelBuffer}

/-- With a field that is not negative, what the exact sum refuses is computed exactly. -/
theorem bounded_of_refused (constructed : Constructed decoder)
    (positive : 0 ≤ fieldValue buffer.order decoder buffer.readableContent)
    (refused : Refused decoder buffer) :
    frameSum buffer.order decoder buffer.readableContent < decoder.lengthFieldEndOffset ∧
        frameSum buffer.order decoder buffer.readableContent ≤ maxInt ∨
      frameSum buffer.order decoder buffer.readableContent < decoder.initialBytesToStrip ∧
        frameSum buffer.order decoder buffer.readableContent ≤ buffer.readableContent.length ∧
        frameSum buffer.order decoder buffer.readableContent ≤ decoder.maxFrameLength ∧
        frameSum buffer.order decoder buffer.readableContent ≤ maxInt := by
  have largest := constructed.maxFrame
  rcases refused with negative | short | stripped
  · omega
  · exact Or.inl ⟨short, (small_of_short constructed short).2⟩
  · exact Or.inr ⟨stripped.1, stripped.2.1, stripped.2.2, by omega⟩

theorem fitsInt_negative (negative : fieldValue buffer.order decoder buffer.readableContent < 0) :
    FitsInt decoder buffer ↔
      maxInt < lowValue buffer.order decoder buffer.readableContent ∨
        lowSum buffer.order decoder buffer.readableContent < decoder.lengthFieldEndOffset ∨
        maxInt < lowSum buffer.order decoder buffer.readableContent ∨
        (lowSum buffer.order decoder buffer.readableContent < decoder.initialBytesToStrip ∧
          lowSum buffer.order decoder buffer.readableContent ≤ buffer.readableContent.length ∧
          lowSum buffer.order decoder buffer.readableContent ≤ decoder.maxFrameLength) := by
  unfold FitsInt
  simp only
  rw [if_pos negative]

theorem fitsInt_positive (positive : 0 ≤ fieldValue buffer.order decoder buffer.readableContent) :
    FitsInt decoder buffer ↔ Refused decoder buffer ∨
      (fieldValue buffer.order decoder buffer.readableContent ≤ maxInt ∧
        frameSum buffer.order decoder buffer.readableContent ≤ maxInt ∧
        (decoder.maxFrameLength < frameSum buffer.order decoder buffer.readableContent →
          frameSum buffer.order decoder buffer.readableContent ≥ buffer.readableContent.length) ∧
        (frameSum buffer.order decoder buffer.readableContent ≤ decoder.maxFrameLength →
          frameSum buffer.order decoder buffer.readableContent ≤ buffer.readableContent.length →
          buffer.handsOut (buffer.readerIdx + decoder.initialBytesToStrip).toNat
            (frameSum buffer.order decoder buffer.readableContent -
              decoder.initialBytesToStrip).toNat = true)) := by
  unfold FitsInt
  simp only
  rw [if_neg (by omega)]

section

variable (constructed : Constructed decoder)

include constructed

/-- A frame that is refused at the length field. -/
theorem refused_early (early : readLength buffer.order decoder buffer.readableContent < 0 ∨
      computedLength buffer.order decoder buffer.readableContent < decoder.lengthFieldEndOffset) :
    Refused decoder buffer ↔ FitsInt decoder buffer := by
  by_cases negative : fieldValue buffer.order decoder buffer.readableContent < 0
  · rw [fitsInt_negative negative]
    have low := computed_of_low constructed early
    constructor
    · intro _
      omega
    · intro _
      exact Or.inl negative
  · rw [fitsInt_positive (by omega)]
    constructor
    · intro refused
      exact Or.inl refused
    · intro fits
      rcases fits with refused | ⟨small, bounded, -, -⟩
      · exact refused
      · have read := readLength_eq buffer.order decoder buffer.readableContent
        have computed := computed_of_bounded constructed (by omega) bounded
        rw [int32_of_nonneg (by omega) small] at read
        right
        left
        omega

/-- A frame that is refused for the bytes to strip. -/
theorem refused_late (read : 0 ≤ readLength buffer.order decoder buffer.readableContent)
    (least : decoder.lengthFieldEndOffset ≤
      computedLength buffer.order decoder buffer.readableContent)
    (fitted : computedLength buffer.order decoder buffer.readableContent ≤ decoder.maxFrameLength)
    (present : computedLength buffer.order decoder buffer.readableContent ≤
      buffer.readableContent.length)
    (stripped : computedLength buffer.order decoder buffer.readableContent <
      decoder.initialBytesToStrip) :
    Refused decoder buffer ↔ FitsInt decoder buffer := by
  by_cases negative : fieldValue buffer.order decoder buffer.readableContent < 0
  · rw [fitsInt_negative negative]
    obtain ⟨-, low⟩ := low_of_read constructed read least
    constructor
    · intro _
      omega
    · intro _
      exact Or.inl negative
  · rw [fitsInt_positive (by omega)]
    constructor
    · intro refused
      exact Or.inl refused
    · intro fits
      rcases fits with refused | ⟨small, bounded, -, -⟩
      · exact refused
      · have computed := computed_of_bounded constructed (by omega) bounded
        right
        right
        omega

/-- Nothing that is computed as a possible length stands for a refused frame or for a negative
field. -/
theorem not_fitsInt_negative (negative : fieldValue buffer.order decoder buffer.readableContent < 0)
    (read : 0 ≤ readLength buffer.order decoder buffer.readableContent)
    (least : decoder.lengthFieldEndOffset ≤
      computedLength buffer.order decoder buffer.readableContent)
    (other : decoder.maxFrameLength < computedLength buffer.order decoder buffer.readableContent ∨
      (buffer.readableContent.length : Int) <
        computedLength buffer.order decoder buffer.readableContent ∨
      decoder.initialBytesToStrip ≤
        computedLength buffer.order decoder buffer.readableContent) :
    ¬FitsInt decoder buffer := by
  obtain ⟨value, low⟩ := low_of_read constructed read least
  have bounds := int32_bounds (fieldValue buffer.order decoder buffer.readableContent)
  have sums := int32_bounds (frameSum buffer.order decoder buffer.readableContent)
  rw [← readLength_eq] at bounds
  rw [← computedLength_sum] at sums
  rw [fitsInt_negative negative]
  omega

section

variable (read : 0 ≤ readLength buffer.order decoder buffer.readableContent)
  (least : decoder.lengthFieldEndOffset ≤ computedLength buffer.order decoder
    buffer.readableContent)

include read least

theorem discards_exactly
    (long : decoder.maxFrameLength < computedLength buffer.order decoder buffer.readableContent) :
    (¬Refused decoder buffer ∧
      decoder.maxFrameLength < frameSum buffer.order decoder buffer.readableContent ∧
      frameSum buffer.order decoder buffer.readableContent =
        computedLength buffer.order decoder buffer.readableContent ∧
      (buffer.readableContent.length : Int) ≤
        frameSum buffer.order decoder buffer.readableContent) ↔ FitsInt decoder buffer := by
  have sums := int32_bounds (frameSum buffer.order decoder buffer.readableContent)
  rw [← computedLength_sum] at sums
  by_cases negative : fieldValue buffer.order decoder buffer.readableContent < 0
  · constructor
    · intro held
      exact absurd (Or.inl negative) held.1
    · intro fits
      exact absurd fits (not_fitsInt_negative constructed negative read least (Or.inl long))
  rw [fitsInt_positive (by omega)]
  constructor
  · intro held
    obtain ⟨-, above, same, behind⟩ := held
    have small : fieldValue buffer.order decoder buffer.readableContent ≤ maxInt :=
      small_of_bounded constructed (by omega) read
    exact Or.inr ⟨small, by omega, fun _ => behind, fun within => by omega⟩
  · intro fits
    have kept : ¬Refused decoder buffer := by
      intro refused
      rcases bounded_of_refused constructed (by omega) refused with short | stripped
      · have computed := computed_of_bounded constructed (by omega) short.2
        omega
      · have computed := computed_of_bounded constructed (by omega) stripped.2.2.2
        omega
    rcases fits with refused | ⟨small, bounded, behind, -⟩
    · exact absurd refused kept
    have computed := computed_of_bounded constructed (by omega) bounded
    exact ⟨kept, by omega, computed.symm, behind (by omega)⟩

section

variable (fitted : computedLength buffer.order decoder buffer.readableContent ≤
    decoder.maxFrameLength)

include fitted

theorem waits_exactly (short : (buffer.readableContent.length : Int) <
      computedLength buffer.order decoder buffer.readableContent) :
    (¬Refused decoder buffer ∧
      frameSum buffer.order decoder buffer.readableContent ≤ decoder.maxFrameLength ∧
      (buffer.readableContent.length : Int) <
        frameSum buffer.order decoder buffer.readableContent) ↔ FitsInt decoder buffer := by
  have largest := constructed.maxFrame
  by_cases negative : fieldValue buffer.order decoder buffer.readableContent < 0
  · constructor
    · intro held
      exact absurd (Or.inl negative) held.1
    · intro fits
      exact absurd fits
        (not_fitsInt_negative constructed negative read least (Or.inr (Or.inl short)))
  rw [fitsInt_positive (by omega)]
  constructor
  · intro held
    obtain ⟨-, within, behind⟩ := held
    have small : fieldValue buffer.order decoder buffer.readableContent ≤ maxInt :=
      small_of_bounded constructed (by omega) read
    exact Or.inr ⟨small, by omega, fun above => by omega, fun _ present => by omega⟩
  · intro fits
    have kept : ¬Refused decoder buffer := by
      intro refused
      rcases bounded_of_refused constructed (by omega) refused with early | stripped
      · have computed := computed_of_bounded constructed (by omega) early.2
        omega
      · have computed := computed_of_bounded constructed (by omega) stripped.2.2.2
        omega
    rcases fits with refused | ⟨small, bounded, -, -⟩
    · exact absurd refused kept
    have computed := computed_of_bounded constructed (by omega) bounded
    exact ⟨kept, by omega, by omega⟩

theorem returns_exactly (present : computedLength buffer.order decoder buffer.readableContent ≤
      buffer.readableContent.length)
    (unstripped : decoder.initialBytesToStrip ≤
      computedLength buffer.order decoder buffer.readableContent) :
    (¬Refused decoder buffer ∧
      frameSum buffer.order decoder buffer.readableContent ≤ decoder.maxFrameLength ∧
      frameSum buffer.order decoder buffer.readableContent ≤ buffer.readableContent.length ∧
      frameSum buffer.order decoder buffer.readableContent =
        computedLength buffer.order decoder buffer.readableContent) ∧
      buffer.handsOut (buffer.readerIdx + decoder.initialBytesToStrip).toNat
        (computedLength buffer.order decoder buffer.readableContent -
          decoder.initialBytesToStrip).toNat = true ↔ FitsInt decoder buffer := by
  have largest := constructed.maxFrame
  by_cases negative : fieldValue buffer.order decoder buffer.readableContent < 0
  · constructor
    · intro held
      exact absurd (Or.inl negative) held.1.1
    · intro fits
      exact absurd fits
        (not_fitsInt_negative constructed negative read least (Or.inr (Or.inr unstripped)))
  rw [fitsInt_positive (by omega)]
  constructor
  · intro held
    obtain ⟨⟨-, within, enough, same⟩, handed⟩ := held
    have small : fieldValue buffer.order decoder buffer.readableContent ≤ maxInt :=
      small_of_bounded constructed (by omega) read
    rw [← same] at handed
    exact Or.inr ⟨small, by omega, fun above => by omega, fun _ _ => handed⟩
  · intro fits
    have kept : ¬Refused decoder buffer := by
      intro refused
      rcases bounded_of_refused constructed (by omega) refused with early | stripped
      · have computed := computed_of_bounded constructed (by omega) early.2
        omega
      · have computed := computed_of_bounded constructed (by omega) stripped.2.2.2
        omega
    rcases fits with refused | ⟨small, bounded, -, hands⟩
    · exact absurd refused kept
    have computed := computed_of_bounded constructed (by omega) bounded
    rw [computed]
    exact ⟨⟨kept, by omega, by omega, rfl⟩, hands (by omega) (by omega)⟩

end

end

end

/-- What `decode` has done when it starts to discard is right for the exact length only. -/
theorem entered_discards {frameLength sum : Int} (bounded : frameLength ≤ maxInt)
    (fired : List UpstreamEvent) {outcome : Outcome}
    (ran : outcome = .ok .empty ⟨entered decoder frameLength buffer.readableContent.length,
      buffer.advance buffer.readableContent.length, fired⟩) :
    outcome.Discards ⟨decoder, buffer, fired⟩ sum ↔
      sum = frameLength ∧ (buffer.readableContent.length : Int) ≤ sum := by
  constructor
  · intro discards
    obtain ⟨after, taken, same, moved, -, total, most, -⟩ := discards
    rw [ran] at same
    cases same
    have shifted : buffer.advance buffer.readableContent.length = buffer.advance taken := moved
    have readers := congrArg readerIdx shifted
    rw [readerIdx_advance, readerIdx_advance] at readers
    have whole : frameLength = sum := total
    have limit : (taken : Int) = min sum (buffer.readableContent.length : Int) := most
    clear most
    exact ⟨whole.symm, by omega⟩
  · intro held
    obtain ⟨same, behind⟩ := held
    subst same
    refine ⟨_, buffer.readableContent.length, ran, rfl, rfl, rfl, ?_, ?_, rfl⟩
    · exact (Int.min_eq_right behind).symm
    · rw [entered_left]
      exact int32_of_nonneg (by omega) (by omega)

/-- A frame that is readable is returned as far as the buffer hands it out. -/
theorem takeFrame_exactly (built : buffer.WellBuilt) (fired : List UpstreamEvent)
    {frameLength sum : Int} (stripping : 0 ≤ decoder.initialBytesToStrip)
    (unstripped : decoder.initialBytesToStrip ≤ frameLength)
    (present : frameLength ≤ buffer.readableContent.length)
    (least : ¬Refused decoder buffer → 0 ≤ sum) :
    Exact ⟨decoder, buffer, fired⟩ sum ((takeFrame frameLength).run ⟨decoder, buffer, fired⟩) ↔
      (¬Refused decoder buffer ∧ sum ≤ decoder.maxFrameLength ∧
        sum ≤ buffer.readableContent.length ∧ sum = frameLength) ∧
      buffer.handsOut (buffer.readerIdx + decoder.initialBytesToStrip).toNat
        (frameLength - decoder.initialBytesToStrip).toNat = true := by
  have reader := built.spans.reader
  obtain ⟨first, first_eq⟩ : ∃ first : Nat, decoder.initialBytesToStrip = first :=
    ⟨decoder.initialBytesToStrip.toNat, by omega⟩
  obtain ⟨count, rfl⟩ : ∃ count : Nat, frameLength = ((first + count : Nat) : Int) :=
    ⟨(frameLength - first).toNat, by omega⟩
  have place : (buffer.readerIdx + decoder.initialBytesToStrip).toNat =
      buffer.readerIdx.toNat + first := by omega
  have amount : (((first + count : Nat) : Int) - decoder.initialBytesToStrip).toNat = count := by
    omega
  have inside : first + count ≤ buffer.readableContent.length := by omega
  rw [place, amount]
  by_cases handed : buffer.handsOut (buffer.readerIdx.toNat + first) count = true
  · have returned := takeFrame_returns fired built first_eq inside handed
    rw [← first_eq] at returned
    rw [exact_of_returned (Int.natCast_nonneg _) least returned]
    exact ⟨fun held => ⟨held, handed⟩, fun held => held.1⟩
  · rw [takeFrame_refused built first_eq inside (Bool.eq_false_iff.mpr handed)]
    constructor
    · intro exact_
      exact absurd exact_ (not_exact_of_range rfl)
    · intro held
      exact absurd held.2 handed

theorem computedLength_steps (order : ByteOrder) (decoder : LengthFieldBasedFrameDecoder)
    (bytes : List Byte) :
    int32 (readLength order decoder bytes +
      int32 (decoder.lengthAdjustment + decoder.lengthFieldEndOffset)) =
      computedLength order decoder bytes := rfl

/-- The call does what the exact sum says exactly when the field and the sum fit. -/
theorem decode_exact_iff (constructed : Constructed decoder) (built : buffer.WellBuilt)
    (complete : decoder.lengthFieldEndOffset ≤ buffer.readableContent.length)
    (fired : List UpstreamEvent) :
    Exact ⟨decoder, buffer, fired⟩ (frameSum buffer.order decoder buffer.readableContent)
      (decode.run ⟨decoder, buffer, fired⟩) ↔ FitsInt decoder buffer := by
  have spans := built.spans
  have ends := constructed.end_eq
  have offset := constructed.offset
  have width := constructed.width
  have strip := constructed.strip
  have reader := spans.reader
  rw [decode_reads constructed built complete]
  by_cases early : readLength buffer.order decoder buffer.readableContent < 0 ∨
      computedLength buffer.order decoder buffer.readableContent < decoder.lengthFieldEndOffset
  · rw [exact_of_corrupted (decodeBody_refuses constructed spans complete (computedLength_steps _ _ _) early)]
    exact refused_early constructed early
  have read : 0 ≤ readLength buffer.order decoder buffer.readableContent := by omega
  have least : decoder.lengthFieldEndOffset ≤
      computedLength buffer.order decoder buffer.readableContent := by omega
  by_cases long : decoder.maxFrameLength <
      computedLength buffer.order decoder buffer.readableContent
  · have ran := decodeBody_discards fired spans read
      (computedLength_steps _ _ _) least long
    rw [exact_of_entered ran constructed.normal (entered_flag _ _)]
    refine Iff.trans ?_ (discards_exactly constructed read least long)
    have bounds := int32_bounds (frameSum buffer.order decoder buffer.readableContent)
    rw [← computedLength_sum] at bounds
    exact and_congr_right fun _ => and_congr_right fun _ =>
      entered_discards bounds.2 fired ran
  have fitted : computedLength buffer.order decoder buffer.readableContent ≤
      decoder.maxFrameLength := by omega
  by_cases short : (buffer.readableContent.length : Int) <
      computedLength buffer.order decoder buffer.readableContent
  · rw [exact_of_waiting (decodeBody_waits spans read (computedLength_steps _ _ _) least fitted short)
      constructed.normal]
    exact waits_exactly constructed read least fitted short
  have present : computedLength buffer.order decoder buffer.readableContent ≤
      buffer.readableContent.length := by omega
  rw [decodeBody_takes spans read (computedLength_steps _ _ _) least fitted present]
  by_cases stripped : computedLength buffer.order decoder buffer.readableContent <
      decoder.initialBytesToStrip
  · rw [exact_of_corrupted (takeFrame_strips spans (by omega) present stripped)]
    exact refused_late constructed read least fitted present stripped
  have unstripped : decoder.initialBytesToStrip ≤
      computedLength buffer.order decoder buffer.readableContent := by omega
  refine Iff.trans (takeFrame_exactly built fired strip unstripped present ?_)
    (returns_exactly constructed read least fitted present unstripped)
  intro kept
  by_contra negative
  exact kept (Or.inr (Or.inl (by omega)))

end Calls

/-- A decoder past the constructor, of the given maximum and width. -/
def accepting (maxFrameLength lengthFieldLength : Int) : LengthFieldBasedFrameDecoder :=
  { initialised maxFrameLength 0 lengthFieldLength 0 0 ⟨0, 0⟩ with discardingTooLongFrame := false }

/-- A received buffer with all of its bytes readable. -/
def wholly (bytes : CharArray) : ChannelBuffer := .heap ⟨.big, bytes, ⟨0, bytes.length, 0, 0⟩⟩

theorem accepting_constructed : Constructed (accepting 10 4) ∧ Constructed (accepting 10 1) := by
  constructor <;>
  exact ⟨⟨by decide, by decide, by decide, by decide, by decide⟩, by decide, by decide, by decide,
    by decide, rfl⟩

theorem wholly_built (bytes : CharArray) (small : (bytes.length : Int) ≤ maxInt) :
    (wholly bytes).WellBuilt :=
  .heap small ⟨Int.le_refl _, Int.natCast_nonneg _, Int.le_refl _⟩

/-- Four length bytes are not read as a number without a sign: the frame of 2^31 + 4 bytes is
refused instead of discarded. -/
theorem long_frame_refused :
    Constructed (accepting 10 4) ∧ (wholly [128, 0, 0, 0]).WellBuilt ∧
      (accepting 10 4).lengthFieldEndOffset ≤ (wholly [128, 0, 0, 0]).readableContent.length ∧
      frameSum (wholly [128, 0, 0, 0]).order (accepting 10 4)
        (wholly [128, 0, 0, 0]).readableContent = 2147483652 ∧
      ¬Exact ⟨accepting 10 4, wholly [128, 0, 0, 0], []⟩ 2147483652
        (decode.run ⟨accepting 10 4, wholly [128, 0, 0, 0], []⟩) := by
  have constructed := accepting_constructed.1
  have built : (wholly [128, 0, 0, 0]).WellBuilt := wholly_built _ (by decide)
  have complete : (accepting 10 4).lengthFieldEndOffset ≤
      (wholly [128, 0, 0, 0]).readableContent.length := by decide
  refine ⟨constructed, built, complete, by decide, ?_⟩
  have negative : readLength (wholly [128, 0, 0, 0]).order (accepting 10 4)
      (wholly [128, 0, 0, 0]).readableContent < 0 := by decide
  rw [decode_reads constructed built complete, exact_of_corrupted
    (decodeBody_refuses constructed built.spans complete (computedLength_steps _ _ _)
      (Or.inl negative))]
  simp only [Refused]
  decide

/-- A frame of two bytes that is readable with one byte more. -/
theorem decode_exact_two :
    Exact ⟨accepting 10 1, wholly [1, 7, 9], []⟩
      (frameSum (wholly [1, 7, 9]).order (accepting 10 1) (wholly [1, 7, 9]).readableContent)
      (decode.run ⟨accepting 10 1, wholly [1, 7, 9], []⟩) := by
  have built : (wholly [1, 7, 9]).WellBuilt := wholly_built _ (by decide)
  have fits : FitsInt (accepting 10 1) (wholly [1, 7, 9]) := by
    simp only [FitsInt, Refused]
    decide
  exact (decode_exact_iff accepting_constructed.2 built (by decide) []).mpr fits

end LengthFieldBasedFrameDecoder

end Cetty
