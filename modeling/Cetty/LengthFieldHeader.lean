import Cetty.LengthFieldFrameDecoder

/-!
# One call of the length field decoder

The length field is read as a 32-bit value whatever its width, so a header decides
once whether discarding starts. The lemmas say what `decode` does on a sound buffer:
wait, start to discard, go on discarding, or end in something that is no report of a
frame that is too long.
-/

namespace Cetty

open MachineInt ByteWindow ChannelBuffer

theorem toInt_eq_int32 (value : BitVec 32) : value.toInt = int32 value.toNat := by
  rw [BitVec.toInt_eq_toNat_bmod]
  rfl

theorem narrowed_eq_int32 (value : BitVec 64) :
    (value.setWidth 32).toInt = int32 value.toNat := by
  rw [BitVec.toInt_eq_toNat_bmod, BitVec.toNat_setWidth]
  unfold int32
  rw [Int.natCast_emod]
  exact Int.emod_bmod _ _

namespace LengthFieldBasedFrameDecoder

/-- What `validateParameters` lets through. -/
structure Validated (decoder : LengthFieldBasedFrameDecoder) : Prop where
  positive : 0 < decoder.maxFrameLength
  offset : 0 ≤ decoder.lengthFieldOffset
  strip : 0 ≤ decoder.initialBytesToStrip
  width : decoder.lengthFieldLength = 1 ∨ decoder.lengthFieldLength = 2 ∨
    decoder.lengthFieldLength = 3 ∨ decoder.lengthFieldLength = 4 ∨
    decoder.lengthFieldLength = 8
  reach : decoder.lengthFieldOffset ≤
    int32 (decoder.maxFrameLength - decoder.lengthFieldLength)

theorem validated_of_ok {decoder : LengthFieldBasedFrameDecoder}
    (checked : validateParameters decoder = .ok ()) : Validated decoder := by
  unfold validateParameters at checked
  split at checked
  · cases checked
  split at checked
  · cases checked
  split at checked
  · cases checked
  split at checked
  · cases checked
  split at checked
  · cases checked
  constructor <;> omega

/-- A decoder that a constructor made and that is not discarding; its parameters are `int`s. -/
structure Constructed (decoder : LengthFieldBasedFrameDecoder) : Prop extends
    Validated decoder where
  maxFrame : decoder.maxFrameLength ≤ maxInt
  adjustmentLower : minInt ≤ decoder.lengthAdjustment
  adjustmentUpper : decoder.lengthAdjustment ≤ maxInt
  endOffset : decoder.lengthFieldEndOffset =
    int32 (decoder.lengthFieldOffset + decoder.lengthFieldLength)
  normal : decoder.discardingTooLongFrame = false

variable {decoder : LengthFieldBasedFrameDecoder}

theorem Constructed.end_eq (constructed : Constructed decoder) :
    decoder.lengthFieldEndOffset = decoder.lengthFieldOffset + decoder.lengthFieldLength ∧
      decoder.lengthFieldEndOffset ≤ decoder.maxFrameLength := by
  have positive := constructed.positive
  have offset := constructed.offset
  have width := constructed.width
  have upper := constructed.maxFrame
  have reach := constructed.reach
  have difference : int32 (decoder.maxFrameLength - decoder.lengthFieldLength) =
      decoder.maxFrameLength - decoder.lengthFieldLength := by
    apply int32_of_bounds
    · unfold minInt
      omega
    · omega
  rw [difference] at reach
  rw [constructed.endOffset, int32_of_nonneg (by omega) (by omega)]
  omega

/-- The `int` the length field is read as. -/
def readLength (order : ByteOrder) (decoder : LengthFieldBasedFrameDecoder)
    (bytes : List Byte) : Int :=
  int32 (lengthField order decoder bytes)

/-- The frame length `decode` computes from the header. -/
def computedLength (order : ByteOrder) (decoder : LengthFieldBasedFrameDecoder)
    (bytes : List Byte) : Int :=
  int32 (readLength order decoder bytes +
    int32 (decoder.lengthAdjustment + decoder.lengthFieldEndOffset))

theorem computedLength_eq (order : ByteOrder) (decoder : LengthFieldBasedFrameDecoder)
    (bytes : List Byte) :
    computedLength order decoder bytes = int32 (declaredLength order decoder bytes) := by
  unfold computedLength readLength declaredLength
  rw [int32_add_right, int32_add_left, Int.add_assoc]

/-- The header makes `decode` start to discard. -/
def Oversized (order : ByteOrder) (decoder : LengthFieldBasedFrameDecoder)
    (bytes : List Byte) : Prop :=
  0 ≤ readLength order decoder bytes ∧ decoder.maxFrameLength < computedLength order decoder bytes

section

variable (constructed : Constructed decoder)

include constructed

theorem lengthField_append (order : ByteOrder)
    {bytes : List Byte} (more : List Byte)
    (complete : decoder.lengthFieldEndOffset ≤ bytes.length) :
    lengthField order decoder (bytes ++ more) = lengthField order decoder bytes := by
  have ends := constructed.end_eq
  have offset := constructed.offset
  have width := constructed.width
  unfold lengthField window
  rw [List.drop_append_of_le_length (by omega), List.take_append_of_le_length]
  rw [List.length_drop]
  omega

theorem getLength_answers {buffer : ChannelBuffer}
    (answers : buffer.getters.Answers buffer.content)
    (inside : buffer.idx.Inside buffer.content.length)
    (complete : decoder.lengthFieldEndOffset ≤ buffer.readableContent.length) :
    getLength decoder.lengthFieldLength buffer.getters
        (int32 (buffer.readerIdx + decoder.lengthFieldOffset)) =
      .ok (readLength buffer.order decoder buffer.readableContent) := by
  have ends := constructed.end_eq
  have offset := constructed.offset
  have width := constructed.width
  have start : 0 ≤ buffer.readerIdx := inside.reader
  have written : buffer.readerIdx ≤ buffer.writerIdx := inside.writer
  have bound : buffer.writerIdx ≤ buffer.content.length := inside.bound
  have small := answers.small
  have size : (buffer.readableContent.length : Int) = buffer.writerIdx - buffer.readerIdx := by
    unfold readableContent
    rw [window_length (by omega)]
    omega
  obtain ⟨skipped, skipped_eq⟩ : ∃ skipped : Nat, decoder.lengthFieldOffset = skipped :=
    ⟨decoder.lengthFieldOffset.toNat, by omega⟩
  obtain ⟨reader, reader_eq⟩ : ∃ reader : Nat, buffer.readerIdx = reader :=
    ⟨buffer.readerIdx.toNat, by omega⟩
  have position : int32 (buffer.readerIdx + decoder.lengthFieldOffset) =
      ((reader + skipped : Nat) : Int) := by
    rw [int32_of_nonneg (by omega) (by omega)]
    omega
  have field : lengthField buffer.order decoder buffer.readableContent =
      buffer.order.number (window buffer.content (reader + skipped)
        decoder.lengthFieldLength.toNat) := by
    unfold lengthField readableContent
    rw [window_window _ _ _ _ _ (by omega), skipped_eq, reader_eq, Int.toNat_natCast,
      Int.toNat_natCast]
  rw [position]
  unfold readLength
  rw [field]
  have small : ∀ value : Nat, value < 16777216 → int32 value = value := by
    intro value below
    apply int32_of_nonneg
    · omega
    · unfold maxInt
      omega
  rcases width with one | two | three | four | eight
  · have got := answers.byte (reader + skipped) (by omega)
    have value : buffer.order.number (window buffer.content (reader + skipped) 1) =
        (buffer.content.getD (reader + skipped) 0).toNat := by
      rw [window_cons (by omega), window_zero_count]
      cases buffer.order <;> simp [ByteOrder.number]
    simp only [one, getLength, got, ok_bind, Int.toNat_one]
    rw [value, small _ (by omega)]
    rfl
  · have got := answers.short (reader + skipped) (by omega)
    have value : _ = buffer.order.number (window buffer.content (reader + skipped) 2) :=
      shortAt_toNat buffer.order (by omega)
    simp only [two, getLength, got, ok_bind, Int.reduceToNat]
    rw [← value, small _ (by omega)]
    rfl
  · have got := answers.medium (reader + skipped) (by omega)
    have value : _ = buffer.order.number (window buffer.content (reader + skipped) 3) :=
      mediumAt_toNat buffer.order (by omega)
    have below : (buffer.order.mediumAt buffer.content (reader + skipped)).toNat < 16777216 := by
      rw [value]
      exact number_lt buffer.order (window_length (by omega))
    simp only [three, getLength, got, ok_bind, Int.reduceToNat]
    rw [← value, small _ below]
    rfl
  · have got := answers.int (reader + skipped) (by omega)
    have value : _ = buffer.order.number (window buffer.content (reader + skipped) 4) :=
      intAt_toNat buffer.order (by omega)
    simp only [four, getLength, got, ok_bind, Int.reduceToNat]
    rw [← value, ← toInt_eq_int32]
    rfl
  · have got := answers.long (reader + skipped) (by omega)
    have value : _ = buffer.order.number (window buffer.content (reader + skipped) 8) :=
      longAt_toNat buffer.order (by omega)
    simp only [eight, getLength, got, ok_bind, Int.reduceToNat]
    rw [← value, ← narrowed_eq_int32]
    rfl

theorem getLength_run {buffer : ChannelBuffer}
    (sound : buffer.Sound)
    (complete : decoder.lengthFieldEndOffset ≤ buffer.readableContent.length) :
    getLength decoder.lengthFieldLength buffer.getters
        (int32 (buffer.readerIdx + decoder.lengthFieldOffset)) =
      .ok (readLength buffer.order decoder buffer.readableContent) :=
  getLength_answers constructed sound.serves.answers sound.inside complete

end

section Normal

variable {buffer : ChannelBuffer} {fired : List UpstreamEvent}

theorem update_run (change : LengthFieldBasedFrameDecoder → LengthFieldBasedFrameDecoder)
    (context : DecodeContext LengthFieldBasedFrameDecoder) :
    (update change).run context = .ok () { context with fields := change context.fields } := rfl

theorem skipBytes_run {fields : LengthFieldBasedFrameDecoder} {count : Nat} (sound : buffer.Sound)
    (bounded : count ≤ buffer.readableContent.length) :
    (skipBytes count).run ⟨fields, buffer, fired⟩ =
      .ok () ⟨fields, buffer.advance count, fired⟩ :=
  onBuffer_ok (BufferM.skipBytes_run sound bounded)

theorem decode_short (constructed : Constructed decoder) (sound : buffer.Sound)
    (short : (buffer.readableContent.length : Int) < decoder.lengthFieldEndOffset) :
    decode.run ⟨decoder, buffer, fired⟩ = .ok .empty ⟨decoder, buffer, fired⟩ := by
  unfold decode
  rw [run_bind_get]
  simp only [constructed.normal, Bool.false_eq_true, if_false]
  rw [sound.readableBytes_eq, if_pos short]
  rfl

theorem decode_header (constructed : Constructed decoder) (sound : buffer.Sound)
    (complete : decoder.lengthFieldEndOffset ≤ buffer.readableContent.length) :
    decode.run ⟨decoder, buffer, fired⟩ =
      (decodeBody (readLength buffer.order decoder buffer.readableContent)).run
        ⟨decoder, buffer, fired⟩ := by
  unfold decode
  rw [run_bind_get]
  simp only [constructed.normal, Bool.false_eq_true, if_false]
  rw [sound.readableBytes_eq, if_neg (by omega), getLength_run constructed sound complete,
    run_bind_ok _ (run_call_ok _ _)]

/-- The decoder after it has met the header of a frame that is too long. -/
def entered (decoder : LengthFieldBasedFrameDecoder) (frameLength buffered : Int) :
    LengthFieldBasedFrameDecoder :=
  { decoder with
    discardingTooLongFrame := true
    tooLongFrameLength := frameLength
    bytesToDiscard := int32 (frameLength - buffered) }

@[simp] theorem entered_flag (frameLength buffered : Int) :
    (entered decoder frameLength buffered).discardingTooLongFrame = true := rfl

@[simp] theorem entered_left (frameLength buffered : Int) :
    (entered decoder frameLength buffered).bytesToDiscard = int32 (frameLength - buffered) := rfl

theorem decode_enters (constructed : Constructed decoder) (sound : buffer.Sound)
    (complete : decoder.lengthFieldEndOffset ≤ buffer.readableContent.length)
    (oversized : Oversized buffer.order decoder buffer.readableContent) :
    decode.run ⟨decoder, buffer, fired⟩ = .ok .empty
      ⟨entered decoder (computedLength buffer.order decoder buffer.readableContent)
          buffer.readableContent.length,
        buffer.advance buffer.readableContent.length, fired⟩ := by
  have ends := constructed.end_eq
  obtain ⟨positive, long⟩ := oversized
  have same : int32 (readLength buffer.order decoder buffer.readableContent +
      int32 (decoder.lengthAdjustment + decoder.lengthFieldEndOffset)) =
      computedLength buffer.order decoder buffer.readableContent := rfl
  rw [decode_header constructed sound complete]
  unfold decodeBody
  rw [run_bind_get]
  simp only [same]
  rw [if_neg (by omega), if_neg (by omega), if_pos long]
  unfold enterDiscarding
  rw [run_bind_get]
  simp only [sound.readableBytes_eq]
  rw [run_bind_ok _ (update_run _ _), run_bind_ok _ (skipBytes_run sound (Nat.le_refl _))]
  rfl

/-- An outcome of `decode` that neither starts to discard nor reports a frame that
is too long. -/
def Harmless (context : DecodeContext LengthFieldBasedFrameDecoder) : Prop :=
  decode.run context = .ok .empty context ∨
    (∃ frame after, decode.run context = .ok (.buffer frame) after ∧
      after.fired = context.fired) ∨
    ∃ exception after, decode.run context = .error (.thrown exception) after ∧
      exception.cls ≠ .tooLongFrame ∧ after.fired = context.fired

/-- The copy of the frame is made, or the empty frame at the end is refused. -/
theorem extractFrame_run (sound : buffer.Sound) {length : Nat}
    (bounded : length ≤ buffer.readableContent.length) :
    (∃ frame, extractFrame buffer buffer.readerIdx length = .ok frame) ∨
      extractFrame buffer buffer.readerIdx length = .error (rangeException "") := by
  have size := sound.readable_length
  have start := sound.reader_nonneg
  have bound := sound.writer_le_length
  have small := sound.serves.small
  obtain ⟨reader, reader_eq⟩ : ∃ reader : Nat, buffer.readerIdx = reader :=
    ⟨buffer.readerIdx.toNat, by omega⟩
  -- the fresh frame is not dynamic, so the bytes are written without growing it
  have writes : ∀ frame : HeapChannelBuffer, frame.idx = .zero →
      (BufferM.writeFrom buffer.getters buffer.readerIdx length).run (.heap frame) =
      (do
        let written ← call ((ChannelBuffer.heap frame).setBytes 0 buffer.getters
          buffer.readerIdx length)
        set (written.withIdx
          { written.idx with writerIdx := int32 (written.writerIdx + length) }) :
        BufferM Unit).run (.heap frame) := by
    intro frame unwritten
    unfold BufferM.writeFrom
    rw [run_bind_get]
    rw [run_bind_get]
    simp only [writerIdx, idx, unwritten]
    rfl
  unfold extractFrame
  by_cases blank : length = 0
  · subst blank
    have made : allocate buffer.factory (0 : Nat) = .ok ⟨.big, [], .zero⟩ := rfl
    rw [made, ok_bind, writes _ rfl, setBytes, HeapChannelBuffer.setBytes, reader_eq]
    rcases sound.serves.nothing reader [] 0 (by omega) (Nat.le_refl _) (by decide)
      with copied | refused
    · left
      rw [Int.natCast_zero] at copied
      simp only [Int.natCast_zero]
      rw [copied]
      exact ⟨_, rfl⟩
    · right
      rw [Int.natCast_zero] at refused
      simp only [Int.natCast_zero]
      rw [refused]
      rfl
  · have made : allocate buffer.factory length =
        .ok ⟨buffer.factory, List.replicate length 0, .zero⟩ := by
      unfold allocate
      rw [if_neg (by omega), if_neg (by omega), Int.toNat_natCast]
      rfl
    have cells : (List.replicate length (0 : Byte)).length = length := List.length_replicate
    have copied := sound.serves.bytes reader length (List.replicate length 0) 0 (by omega)
      (by omega) (by omega) (by omega)
    left
    rw [made, ok_bind, writes _ rfl, setBytes, HeapChannelBuffer.setBytes, reader_eq]
    rw [Int.natCast_zero] at copied
    rw [copied]
    exact ⟨_, rfl⟩

theorem takeFrame_harmless (constructed : Constructed decoder) (sound : buffer.Sound)
    {frameLength : Int} (positive : 0 < frameLength)
    (bounded : frameLength ≤ buffer.readableContent.length) :
    (∃ frame after, (takeFrame frameLength).run ⟨decoder, buffer, fired⟩ =
        .ok (.buffer frame) after ∧ after.fired = fired) ∨
      ∃ exception after, (takeFrame frameLength).run ⟨decoder, buffer, fired⟩ =
        .error (.thrown exception) after ∧ exception.cls ≠ .tooLongFrame ∧
        after.fired = fired := by
  obtain ⟨length, rfl⟩ : ∃ length : Nat, frameLength = length :=
    ⟨frameLength.toNat, by omega⟩
  obtain ⟨strip, strip_eq⟩ : ∃ strip : Nat, decoder.initialBytesToStrip = strip :=
    ⟨decoder.initialBytesToStrip.toNat, by have := constructed.strip; omega⟩
  unfold takeFrame
  rw [run_bind_get]
  simp only [strip_eq]
  by_cases stripped : (length : Int) < strip
  · right
    rw [if_pos stripped]
    have skipped : length ≤ buffer.readableContent.length := by omega
    rw [run_bind_ok _ (skipBytes_run sound skipped)]
    refine ⟨_, _, rfl, ?_, rfl⟩
    intro same
    cases same
  · rw [if_neg stripped]
    have fits : strip ≤ buffer.readableContent.length := by omega
    have moved := sound.advance fits
    have left := sound.readable_advance strip
    have left_length : (buffer.advance strip).readableContent.length =
        buffer.readableContent.length - strip := by
      rw [left, List.length_drop]
    have small := sound.writer_le_maxInt
    have size := sound.readable_length
    have start := sound.reader_nonneg
    have actual : int32 ((length : Int) - strip) = ((length - strip : Nat) : Int) := by
      rw [int32_of_nonneg (by omega) (by omega)]
      omega
    rw [run_bind_ok _ (skipBytes_run sound fits), run_bind_get]
    simp only [actual]
    have within : length - strip ≤ (buffer.advance strip).readableContent.length := by omega
    rcases extractFrame_run moved within with ⟨frame, made⟩ | refused
    · left
      have repositioned : (onBuffer (BufferM.readerIndex
          ((buffer.advance strip).readerIdx + ((length - strip : Nat) : Int)))).run
          (⟨decoder, buffer.advance strip, fired⟩ : DecodeContext _) =
          .ok () ⟨decoder, (buffer.advance strip).advance (length - strip), fired⟩ :=
        onBuffer_ok (BufferM.readerIndex_run moved within)
      rw [made, run_bind_ok _ (run_call_ok _ _), moved.int32_reader within,
        run_bind_ok _ repositioned]
      exact ⟨frame, _, rfl, rfl⟩
    · right
      rw [refused, run_bind_error _ (run_call_error _ _)]
      exact ⟨_, _, rfl, by decide, rfl⟩

theorem decode_harmless (constructed : Constructed decoder) (sound : buffer.Sound)
    (complete : decoder.lengthFieldEndOffset ≤ buffer.readableContent.length)
    (harmless : ¬Oversized buffer.order decoder buffer.readableContent) :
    Harmless ⟨decoder, buffer, fired⟩ := by
  have ends := constructed.end_eq
  have offset := constructed.offset
  have width := constructed.width
  have skips : ∀ stop : Stop,
      (do skipBytes decoder.lengthFieldEndOffset; throw stop : Decode ChannelMessage).run
        ⟨decoder, buffer, fired⟩ = .error stop
          ⟨decoder, buffer.advance decoder.lengthFieldEndOffset.toNat, fired⟩ := by
    intro stop
    have skipped : (skipBytes decoder.lengthFieldEndOffset.toNat).run ⟨decoder, buffer, fired⟩ =
        .ok () ⟨decoder, buffer.advance decoder.lengthFieldEndOffset.toNat, fired⟩ :=
      skipBytes_run sound (by omega)
    rw [Int.toNat_of_nonneg (by omega)] at skipped
    rw [run_bind_ok _ skipped]
    rfl
  have same : int32 (readLength buffer.order decoder buffer.readableContent +
      int32 (decoder.lengthAdjustment + decoder.lengthFieldEndOffset)) =
      computedLength buffer.order decoder buffer.readableContent := rfl
  unfold Harmless
  rw [decode_header constructed sound complete]
  unfold decodeBody
  rw [run_bind_get]
  simp only [same]
  by_cases negative : readLength buffer.order decoder buffer.readableContent < 0
  · rw [if_pos negative]
    right
    right
    refine ⟨_, _, skips _, ?_, rfl⟩
    intro same_class
    cases same_class
  rw [if_neg negative]
  by_cases short : computedLength buffer.order decoder buffer.readableContent <
      decoder.lengthFieldEndOffset
  · rw [if_pos short]
    right
    right
    refine ⟨_, _, skips _, ?_, rfl⟩
    intro same_class
    cases same_class
  rw [if_neg short]
  have fits : ¬decoder.maxFrameLength <
      computedLength buffer.order decoder buffer.readableContent := by
    intro long
    exact harmless ⟨by omega, long⟩
  rw [if_neg fits, sound.readableBytes_eq]
  by_cases waits : (buffer.readableContent.length : Int) <
      computedLength buffer.order decoder buffer.readableContent
  · rw [if_pos waits]
    left
    rfl
  rw [if_neg waits]
  right
  exact takeFrame_harmless constructed sound (by omega) (by omega)

end Normal

theorem decode_appends : Handler.Appends decode := by
  intro start
  have fires : ∀ events : List UpstreamEvent,
      Keeps (fun context : DecodeContext LengthFieldBasedFrameDecoder =>
        start <+: context.fired) (fire events) := by
    intro events
    apply Keeps.modify
    intro before begun
    exact begun.trans (List.prefix_append _ _)
  have updates : ∀ change, Keeps (fun context : DecodeContext LengthFieldBasedFrameDecoder =>
      start <+: context.fired) (update change) := by
    intro change
    apply Keeps.modify
    intro before begun
    exact begun
  have skips : ∀ length, Keeps (fun context : DecodeContext LengthFieldBasedFrameDecoder =>
      start <+: context.fired) (skipBytes length) := by
    intro length
    apply Keeps.focus
    intro outer inner begun
    exact begun
  have discards : Keeps (fun context : DecodeContext LengthFieldBasedFrameDecoder =>
      start <+: context.fired) discardTooLongFrame := by
    apply Keeps.bind Keeps.get
    intro context
    apply Keeps.bind (skips _)
    intro _
    apply Keeps.bind (updates _)
    intro _
    apply Keeps.ite
    · intro _
      apply Keeps.bind Keeps.get
      intro context
      apply Keeps.bind (updates _)
      intro _
      apply Keeps.bind Keeps.get
      intro context
      exact fires _
    · intro _
      exact Keeps.pure _
  have enters : ∀ frameLength, Keeps (fun context : DecodeContext LengthFieldBasedFrameDecoder =>
      start <+: context.fired) (enterDiscarding frameLength) := by
    intro frameLength
    apply Keeps.bind Keeps.get
    intro context
    apply Keeps.bind (updates _)
    intro _
    apply Keeps.bind (skips _)
    intro _
    exact Keeps.pure _
  have takes : ∀ frameLength, Keeps (fun context : DecodeContext LengthFieldBasedFrameDecoder =>
      start <+: context.fired) (takeFrame frameLength) := by
    intro frameLength
    apply Keeps.bind Keeps.get
    intro context
    apply Keeps.ite
    · intro _
      apply Keeps.bind (skips _)
      intro _
      exact Keeps.throw _
    · intro _
      apply Keeps.bind (skips _)
      intro _
      apply Keeps.bind Keeps.get
      intro context
      apply Keeps.bind (Keeps.call _)
      intro frame
      refine Keeps.bind (Keeps.focus _ ?_) ?_
      · intro outer inner begun
        exact begun
      · intro _
        exact Keeps.pure _
  apply Keeps.bind Keeps.get
  intro context
  apply Keeps.ite
  · intro _
    apply Keeps.bind discards
    intro _
    exact Keeps.pure _
  · intro _
    apply Keeps.ite
    · intro _
      exact Keeps.pure _
    · intro _
      apply Keeps.bind (Keeps.call _)
      intro length
      apply Keeps.bind Keeps.get
      intro context
      apply Keeps.ite
      · intro _
        apply Keeps.bind (skips _)
        intro _
        exact Keeps.throw _
      · intro _
        apply Keeps.ite
        · intro _
          apply Keeps.bind (skips _)
          intro _
          exact Keeps.throw _
        · intro _
          apply Keeps.ite
          · intro _
            exact enters _
          · intro _
            apply Keeps.ite
            · intro _
              exact Keeps.pure _
            · intro _
              exact takes _

theorem oversized_append (constructed : Constructed decoder) (order : ByteOrder)
    {bytes : List Byte} (more : List Byte)
    (complete : decoder.lengthFieldEndOffset ≤ bytes.length) :
    (Oversized order decoder (bytes ++ more) ↔ Oversized order decoder bytes) ∧
      computedLength order decoder (bytes ++ more) = computedLength order decoder bytes := by
  have same : readLength order decoder (bytes ++ more) = readLength order decoder bytes := by
    unfold readLength
    rw [lengthField_append constructed order more complete]
  have total : computedLength order decoder (bytes ++ more) =
      computedLength order decoder bytes := by
    unfold computedLength
    rw [same]
  unfold Oversized
  rw [same, total]
  exact ⟨Iff.rfl, rfl⟩

/-- The decoder when nothing is left to discard; the flag stays set. -/
def finished (fields : LengthFieldBasedFrameDecoder) : LengthFieldBasedFrameDecoder :=
  { fields with bytesToDiscard := 0, tooLongFrameLength := 0 }

@[simp] theorem finished_flag (fields : LengthFieldBasedFrameDecoder) :
    (finished fields).discardingTooLongFrame = fields.discardingTooLongFrame := rfl

@[simp] theorem finished_left (fields : LengthFieldBasedFrameDecoder) :
    (finished fields).bytesToDiscard = 0 := rfl

def report (fields : LengthFieldBasedFrameDecoder) : Exception :=
  tooLongFrame fields.maxFrameLength fields.tooLongFrameLength

theorem report_cls (fields : LengthFieldBasedFrameDecoder) :
    (report fields).cls = .tooLongFrame := by
  unfold report tooLongFrame
  split <;> rfl

section Discard

variable {fields : LengthFieldBasedFrameDecoder} {buffer : ChannelBuffer}
  {fired : List UpstreamEvent} {left : Int}

theorem decode_discards_less (flag : fields.discardingTooLongFrame = true)
    (remaining : fields.bytesToDiscard = left) (sound : buffer.Sound)
    (less : (buffer.readableContent.length : Int) < left) (small : left ≤ maxInt) :
    decode.run ⟨fields, buffer, fired⟩ = .ok .empty
      ⟨{ fields with bytesToDiscard := left - buffer.readableContent.length },
        buffer.advance buffer.readableContent.length, fired⟩ := by
  have taken : min left (buffer.readableContent.length : Int) = buffer.readableContent.length :=
    Int.min_eq_right (Int.le_of_lt less)
  have after : int32 (left - buffer.readableContent.length) =
      left - buffer.readableContent.length := int32_of_nonneg (by omega) (by omega)
  rw [decode_discarding flag]
  unfold discardTooLongFrame
  rw [run_bind_ok]
  · rfl
  rw [run_bind_get]
  simp only [remaining, sound.readableBytes_eq, taken, after]
  rw [run_bind_ok _ (skipBytes_run sound (Nat.le_refl _)), run_bind_ok _ (update_run _ _),
    if_neg (by omega)]
  rfl

theorem decode_discards_all (fired : List UpstreamEvent) {count : Nat}
    (flag : fields.discardingTooLongFrame = true)
    (remaining : fields.bytesToDiscard = count) (sound : buffer.Sound)
    (enough : count ≤ buffer.readableContent.length) :
    decode.run ⟨fields, buffer, fired⟩ = .ok .empty
      ⟨finished fields, buffer.advance count, fired ++ [.exceptionCaught (report fields)]⟩ := by
  have taken : min (count : Int) (buffer.readableContent.length : Int) = count :=
    Int.min_eq_left (by omega)
  have after : int32 ((count : Int) - count) = 0 := by
    rw [Int.sub_self]
    rfl
  rw [decode_discarding flag]
  unfold discardTooLongFrame
  rw [run_bind_ok]
  · rfl
  rw [run_bind_get]
  simp only [remaining, sound.readableBytes_eq, taken, after]
  rw [run_bind_ok _ (skipBytes_run sound enough), run_bind_ok _ (update_run _ _), if_pos trivial]
  rfl

end Discard

end LengthFieldBasedFrameDecoder

end Cetty
