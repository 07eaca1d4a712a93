import Cetty.FrameReception

/-!
# The progress check of the decoding loop

`callDecode` compares the reader index before and after `decode`. Most read
operations advance it; `readBytes(int)` and `readSlice()` move both indices to
the front when they drain the buffer, and a frame that was read from the front
then looks as if nothing had been read. The channels receive into a heap buffer of
their own, out of which the handlers of the pipeline read.
-/

namespace Cetty

open MachineInt ByteWindow ChannelBuffer

/-- The operations by which a subclass can read a frame. -/
inductive ReadOp where
  | readByte
  | readShort
  | readUnsignedMedium
  | readInt
  | readLong
  | readBytes (length : Nat)
  | readAllBytes
  | readSlice (length : Nat)
  | readAllSlice
  | skipBytes (length : Nat)
  | readerIndex (advance : Nat)
  deriving DecidableEq, Repr

namespace ReadOp

def run : ReadOp → BufferM Unit
  | readByte => discard BufferM.readByte
  | readShort => discard BufferM.readShort
  | readUnsignedMedium => discard BufferM.readUnsignedMedium
  | readInt => discard BufferM.readInt
  | readLong => discard BufferM.readLong
  | readBytes length => discard (BufferM.readBytes length)
  | readAllBytes => discard BufferM.readAllBytes
  | readSlice length => discard (BufferM.readSlice length)
  | readAllSlice => discard BufferM.readAllSlice
  | skipBytes length => BufferM.skipBytes length
  | readerIndex advance => do BufferM.readerIndex ((← get).readerIdx + advance)

/-- The bytes the operation reads when `left` bytes are readable. -/
def amount : ReadOp → Nat → Nat
  | readByte, _ => 1
  | readShort, _ => 2
  | readUnsignedMedium, _ => 3
  | readInt, _ => 4
  | readLong, _ => 8
  | readBytes length, _ => length
  | readAllBytes, left => left
  | readSlice length, _ => length
  | readAllSlice, left => left
  | skipBytes length, _ => length
  | readerIndex advance, _ => advance

/-- Whether the operation moves the indices to the front. -/
def compacts : ReadOp → Nat → Bool
  | readBytes length, left => 0 < length && length == left
  | readAllBytes, left => 0 < left
  | readAllSlice, _ => true
  | _, _ => false

/-- What the operation makes of a buffer with `left` readable bytes. -/
def effect (op : ReadOp) (left : Nat) (buffer : ChannelBuffer) : ChannelBuffer :=
  if op.compacts left then BufferM.compacted buffer else buffer.advance (op.amount left)

theorem effect_compacts {op : ReadOp} {left : Nat} {buffer : ChannelBuffer}
    (drains : op.compacts left = true) : op.effect left buffer = BufferM.compacted buffer :=
  if_pos drains

theorem effect_advances {op : ReadOp} {left : Nat} {buffer : ChannelBuffer}
    (plain : op.compacts left = false) :
    op.effect left buffer = buffer.advance (op.amount left) := by
  unfold effect
  rw [plain]
  rfl

/-- An operation that compacts has read everything. -/
theorem amount_of_compacts {op : ReadOp} {left : Nat} (drains : op.compacts left = true) :
    op.amount left = left := by
  cases op with
  | readBytes length =>
      simp only [compacts, Bool.and_eq_true, beq_iff_eq] at drains
      exact drains.2
  | readAllBytes => rfl
  | readAllSlice => rfl
  | _ => simp [compacts] at drains

theorem run_discard_ok {State Value : Type} {program : Exec State Value} {value : Value}
    {before after : State} (ran : program.run before = .ok value after) :
    (discard program).run before = .ok () after := by
  change (program >>= fun _ => pure ()).run before = _
  rw [run_bind_ok _ ran]
  rfl

section Effects

variable {buffer : ChannelBuffer} {left : Nat}

theorem readBytes_value (sound : buffer.Sound) (length : Nat)
    (size : buffer.readableContent.length = left) (fits : length ≤ left) :
    ∃ value after, (BufferM.readBytes length).run buffer = .ok value after ∧
      after = (readBytes length).effect left buffer := by
  by_cases blank : length = 0
  · subst blank
    refine ⟨emptyBuffer, buffer, ?_, ?_⟩
    · unfold BufferM.readBytes
      rw [if_pos (by omega)]
      rfl
    · rw [effect_advances rfl]
      simp only [amount, advance_zero]
  · have positive : 0 < length := by omega
    refine ⟨_, _, BufferM.readBytes_run sound positive (by omega), ?_⟩
    rw [size]
    by_cases drained : length = left
    · have drains : (readBytes length).compacts left = true := by
        rw [← drained]
        simp [compacts, positive]
      rw [if_pos drained, effect_compacts drains]
    · have plain : (readBytes length).compacts left = false := by
        simp [compacts, drained]
      rw [if_neg drained, effect_advances plain]
      rfl

theorem readTyped_effect {Value : Type} {get_ : Getters → Int → Except Stop Value}
    {value : Value} (width : Nat) (sound : buffer.Sound)
    (size : buffer.readableContent.length = left) (fits : width ≤ left)
    (got : get_ buffer.getters buffer.readerIdx.toNat = .ok value) :
    (discard (BufferM.readTyped width get_)).run buffer = .ok () (buffer.advance width) := by
  rw [Int.toNat_of_nonneg sound.reader_nonneg] at got
  exact run_discard_ok (BufferM.readTyped_run sound (by omega) got)

section

variable (op : ReadOp) (sound : buffer.Sound) (size : buffer.readableContent.length = left)

include op sound size

/-- Each operation within the readable bytes returns, with the effect said above. -/
theorem run_effect (fits : op.amount left ≤ left) :
    op.run.run buffer = .ok () (op.effect left buffer) := by
  have start := sound.reader_nonneg
  have bound := sound.writer_le_length
  have extent := sound.readable_length
  cases op with
  | readByte =>
      simp only [amount] at fits
      exact run_discard_ok (BufferM.readByte_run sound (by omega))
  | readShort =>
      simp only [amount] at fits
      exact readTyped_effect 2 sound size fits (sound.serves.short _ (by omega))
  | readUnsignedMedium =>
      simp only [amount] at fits
      exact readTyped_effect 3 sound size fits (sound.serves.medium _ (by omega))
  | readInt =>
      simp only [amount] at fits
      exact readTyped_effect 4 sound size fits (sound.serves.int _ (by omega))
  | readLong =>
      simp only [amount] at fits
      exact readTyped_effect 8 sound size fits (sound.serves.long _ (by omega))
  | readBytes length =>
      obtain ⟨value, after, ran, effect_eq⟩ := readBytes_value sound length size fits
      rw [← effect_eq]
      exact run_discard_ok ran
  | readAllBytes =>
      have whole : BufferM.readAllBytes.run buffer =
          (BufferM.readBytes (left : Int)).run buffer := by
        unfold BufferM.readAllBytes
        rw [run_bind_get]
        rw [sound.readableBytes_eq, size]
      have same : (readAllBytes).effect left buffer = (readBytes left).effect left buffer := by
        simp [effect, compacts, amount]
      obtain ⟨value, after, ran, effect_eq⟩ := readBytes_value sound left size (Nat.le_refl left)
      rw [← whole] at ran
      rw [same, ← effect_eq]
      exact run_discard_ok ran
  | readSlice length =>
      simp only [amount] at fits
      obtain ⟨part, ran, -⟩ := BufferM.readSlice_run sound (size.symm ▸ fits)
      exact run_discard_ok ran
  | readAllSlice =>
      obtain ⟨part, whole, -⟩ := BufferM.readAllSlice_run sound
      rw [effect_compacts rfl]
      exact run_discard_ok whole
  | skipBytes length =>
      simp only [amount] at fits
      exact BufferM.skipBytes_run sound (by omega)
  | readerIndex advance =>
      simp only [amount] at fits
      change (do BufferM.readerIndex ((← get).readerIdx + advance) : BufferM Unit).run buffer = _
      rw [run_bind_get]
      exact BufferM.readerIndex_run sound (by omega)

theorem effect_sound (fits : op.amount left ≤ left) :
    (op.effect left buffer).Sound := by
  cases drains : op.compacts left with
  | true =>
      rw [effect_compacts drains]
      exact BufferM.compacted_sound sound
  | false =>
      rw [effect_advances drains]
      exact sound.advance (by omega)

theorem effect_left :
    (op.effect left buffer).readableContent.length = left - op.amount left := by
  cases drains : op.compacts left with
  | true =>
      rw [effect_compacts drains, BufferM.compacted_readable, amount_of_compacts drains,
        List.length_nil, Nat.sub_self]
  | false => rw [effect_advances drains, sound.readable_advance, List.length_drop, size]

end

theorem effect_readerIdx (op : ReadOp) (left : Nat) (buffer : ChannelBuffer) :
    (op.effect left buffer).readerIdx =
      if op.compacts left then 0 else buffer.readerIdx + op.amount left := by
  cases drains : op.compacts left with
  | true => rw [effect_compacts drains, BufferM.compacted_readerIdx, if_pos rfl]
  | false => rw [effect_advances drains, readerIdx_advance, if_neg Bool.false_ne_true]

theorem effect_writerIdx (op : ReadOp) (left : Nat) (buffer : ChannelBuffer) :
    (op.effect left buffer).writerIdx = if op.compacts left then 0 else buffer.writerIdx := by
  cases drains : op.compacts left with
  | true => rw [effect_compacts drains, BufferM.compacted_writerIdx, if_pos rfl]
  | false => rw [effect_advances drains, writerIdx_advance, if_neg Bool.false_ne_true]

@[simp] theorem effect_withIdx (op : ReadOp) (left : Nat) (buffer : ChannelBuffer)
    (idx : Indices) : (op.effect left buffer).withIdx idx = buffer.withIdx idx := by
  cases drains : op.compacts left with
  | true => rw [effect_compacts drains, BufferM.compacted, withIdx_withIdx]
  | false => rw [effect_advances drains, advance, withIdx_withIdx]

end Effects

def program : List ReadOp → BufferM Unit
  | [] => pure ()
  | op :: rest => do
      op.run
      program rest

def total : List ReadOp → Nat → Nat
  | [], _ => 0
  | op :: rest, left => op.amount left + total rest (left - op.amount left)

/-- No operation asks for more than is left. -/
def Fits : List ReadOp → Nat → Prop
  | [], _ => True
  | op :: rest, left => op.amount left ≤ left ∧ Fits rest (left - op.amount left)

/-- Some operation of the sequence moves the indices to the front. -/
def compacting : List ReadOp → Nat → Bool
  | [], _ => false
  | op :: rest, left => op.compacts left || compacting rest (left - op.amount left)

theorem total_le (ops : List ReadOp) {left : Nat} (fits : Fits ops left) :
    total ops left ≤ left := by
  induction ops generalizing left with
  | nil => exact Nat.zero_le _
  | cons op rest ih =>
      have later := ih fits.2
      have first := fits.1
      simp only [total]
      omega

section

variable (ops : List ReadOp) {buffer : ChannelBuffer} {left : Nat} (sound : buffer.Sound)
  (size : buffer.readableContent.length = left) (fits : Fits ops left)

include ops sound size fits

/-- Where a sequence of reads leaves the indices; nothing else changes. -/
theorem program_moves :
    ∃ idx, (program ops).run buffer = .ok () (buffer.withIdx idx) ∧
      (buffer.withIdx idx).Sound ∧
      idx.readerIdx = (if compacting ops left then 0 else buffer.readerIdx + total ops left) ∧
      idx.writerIdx = (if compacting ops left then 0 else buffer.writerIdx) := by
  induction ops generalizing buffer left with
  | nil =>
      refine ⟨buffer.idx, ?_, ?_, ?_, ?_⟩
      · rw [withIdx_idx]
        rfl
      · rwa [withIdx_idx]
      · simp [compacting, total, readerIdx]
      · simp [compacting, writerIdx]
  | cons op rest ih =>
      have ran := run_effect op sound size fits.1
      obtain ⟨idx, ran', sound', reader, writer⟩ := ih (effect_sound op sound size fits.1)
        (effect_left op sound size) fits.2
      rw [effect_withIdx] at ran' sound'
      refine ⟨idx, ?_, sound', ?_, ?_⟩
      · unfold program
        rw [run_bind_ok _ ran, ran']
      · rw [reader, effect_readerIdx]
        cases drains : op.compacts left with
        | true =>
            have nothing : total rest (left - op.amount left) = 0 := by
              have bounded := total_le rest fits.2
              have all := amount_of_compacts drains
              omega
            simp [compacting, drains, nothing]
        | false =>
            simp only [compacting, total, drains, Bool.false_or]
            rw [if_neg Bool.false_ne_true, Int.natCast_add, Int.add_assoc]
      · rw [writer, effect_writerIdx]
        cases drains : op.compacts left <;> simp [compacting, drains]

theorem program_run :
    ∃ after, (program ops).run buffer = .ok () after ∧ after.Sound ∧
      after.readerIdx =
        if compacting ops left then 0 else buffer.readerIdx + total ops left := by
  obtain ⟨idx, ran, sound', reader, -⟩ := program_moves ops sound size fits
  exact ⟨buffer.withIdx idx, ran, sound', by rw [readerIdx_withIdx, reader]⟩

end

/-- A sequence that compacts has read everything that was readable. -/
theorem total_of_compacting (ops : List ReadOp) {left : Nat} (fits : Fits ops left)
    (drains : compacting ops left = true) : total ops left = left := by
  induction ops generalizing left with
  | nil => cases drains
  | cons op rest ih =>
      have bounded := total_le rest fits.2
      have first := fits.1
      simp only [compacting, Bool.or_eq_true] at drains
      simp only [total]
      rcases drains with now | later
      · have all := amount_of_compacts now
        omega
      · have all := ih fits.2 later
        omega

end ReadOp

section Check

variable {Fields : Type}

/-- The loop stops in this round with the exception of the progress check. -/
def Raises (decode : DecodeM Fields ChannelMessage) (unfold_ : Bool)
    (context after : DecodeContext Fields) : Prop :=
  ∀ own fuel, (callDecode decode unfold_ own (fuel + 1)).run context = .error noProgress after

/-- The loop hands the frame on and goes on behind it. -/
def Delivers (decode : DecodeM Fields ChannelMessage) (unfold_ : Bool)
    (context after : DecodeContext Fields) (frame : ChannelMessage) : Prop :=
  ∀ own fuel, (callDecode decode unfold_ own (fuel + 1)).run context =
    (callDecode decode unfold_ own fuel).run
      { after with fired := after.fired ++ unfolded unfold_ frame }

/-- The check as it is documented, for a `decode` that has read `consumed` bytes. -/
def ProgressChecked (decode : DecodeM Fields ChannelMessage) (unfold_ : Bool)
    (context after : DecodeContext Fields) (frame : ChannelMessage) (consumed : Nat) : Prop :=
  (Raises decode unfold_ context after ↔ frame.isEmpty = false ∧ consumed = 0) ∧
    (frame.isEmpty = false → 0 < consumed → Delivers decode unfold_ context after frame)

variable {decode : DecodeM Fields ChannelMessage} {unfold_ : Bool}
  {context after : DecodeContext Fields} {frame : ChannelMessage}

theorem delivers_not_raises (delivers : Delivers decode unfold_ context after frame) :
    ¬Raises decode unfold_ context after := by
  intro raises
  have stopped := raises false 0
  rw [delivers false 0] at stopped
  cases stopped

theorem raises_of_unmoved (unfold_ : Bool) (readable : context.buffer.readable = true)
    (decoded : decode.run context = .ok frame after) (shown : frame.isEmpty = false)
    (unmoved : context.buffer.readerIdx = after.buffer.readerIdx) :
    Raises decode unfold_ context after := by
  intro own fuel
  exact callDecode_stops (decodeRound_noProgress readable decoded shown unmoved)

theorem delivers_of_moved (readable : context.buffer.readable = true)
    (decoded : decode.run context = .ok frame after) (shown : frame.isEmpty = false)
    (moved : context.buffer.readerIdx ≠ after.buffer.readerIdx) :
    Delivers decode unfold_ context after frame := by
  intro own fuel
  exact callDecode_goes_on (decodeRound_fires readable decoded shown moved)

theorem empty_not_raises (unfold_ : Bool) (readable : context.buffer.readable = true)
    (decoded : decode.run context = .ok .empty after) : ¬Raises decode unfold_ context after := by
  intro raises
  have stopped := raises false 0
  rw [callDecode, run_bind_ok _ (decodeRound_empty readable decoded)] at stopped
  by_cases moved : context.buffer.readerIdx ≠ after.buffer.readerIdx
  · rw [decide_eq_true moved] at stopped
    cases stopped
  · rw [decide_eq_false moved] at stopped
    cases stopped

theorem checked_of_delivers {consumed : Nat} (positive : 0 < consumed)
    (delivers : Delivers decode unfold_ context after frame) :
    ProgressChecked decode unfold_ context after frame consumed := by
  refine ⟨⟨?_, ?_⟩, fun _ _ => delivers⟩
  · intro raises
    exact absurd raises (delivers_not_raises delivers)
  · intro unread
    omega

theorem checked_of_raises (shown : frame.isEmpty = false)
    (raises : Raises decode unfold_ context after) :
    ProgressChecked decode unfold_ context after frame 0 :=
  ⟨⟨fun _ => ⟨shown, rfl⟩, fun _ => raises⟩, fun _ positive => absurd positive (Nat.lt_irrefl 0)⟩

theorem checked_of_empty {consumed : Nat} (blank : frame.isEmpty = true)
    (quiet : ¬Raises decode unfold_ context after) :
    ProgressChecked decode unfold_ context after frame consumed := by
  refine ⟨⟨fun raises => absurd raises quiet, ?_⟩, ?_⟩
  · intro unread
    rw [blank] at unread
    cases unread.1
  · intro shown
    rw [blank] at shown
    cases shown

/-- For a subclass that reads its frame from any buffer by any operations: the
check is exact unless the frame was read from index zero and one of the reads
drained the buffer by moving the indices to the front. -/
theorem progress_checked_iff (unfold_ : Bool) (ops : List ReadOp)
    (decoded : decode.run context = .ok frame after) (sound : context.buffer.Sound)
    (present : context.buffer.readableContent ≠ [])
    (fits : ReadOp.Fits ops context.buffer.readableContent.length)
    {read : ChannelBuffer} (reads : (ReadOp.program ops).run context.buffer = .ok () read)
    (stands : after.buffer.readerIdx = read.readerIdx) :
    ProgressChecked decode unfold_ context after frame
        (ReadOp.total ops context.buffer.readableContent.length) ↔
      ¬(frame.isEmpty = false ∧ context.buffer.readerIdx = 0 ∧
        ReadOp.compacting ops context.buffer.readableContent.length = true) := by
  have readable : context.buffer.readable = true := sound.readable_iff.mpr present
  have some_left := List.length_pos_iff.mpr present
  obtain ⟨final, ran, -, position⟩ := ReadOp.program_run ops sound rfl fits
  rw [reads] at ran
  cases ran
  rw [← stands] at position
  cases blank : frame.isEmpty with
  | true =>
      have nothing : frame = .empty := by
        cases frame with
        | empty => rfl
        | _ => cases blank
      rw [nothing] at decoded
      have quiet := empty_not_raises unfold_ readable decoded
      exact ⟨fun _ bad => Bool.noConfusion bad.1, fun _ => checked_of_empty blank quiet⟩
  | false =>
      cases drains : ReadOp.compacting ops context.buffer.readableContent.length with
      | true =>
          have all := ReadOp.total_of_compacting ops fits drains
          rw [drains, if_pos rfl] at position
          by_cases front : context.buffer.readerIdx = 0
          · have raises := raises_of_unmoved unfold_ readable decoded blank
              (front.trans position.symm)
            constructor
            · intro checked
              have unread := (checked.1.mp raises).2
              omega
            · intro fine
              exact absurd ⟨rfl, front, rfl⟩ fine
          · have moved : context.buffer.readerIdx ≠ after.buffer.readerIdx := by
              rw [position]
              exact front
            constructor
            · intro _ bad
              exact front bad.2.1
            · intro _
              exact checked_of_delivers (by omega) (delivers_of_moved readable decoded blank moved)
      | false =>
          rw [drains, if_neg Bool.false_ne_true] at position
          refine ⟨fun _ bad => Bool.noConfusion bad.2.2, fun _ => ?_⟩
          by_cases unread : ReadOp.total ops context.buffer.readableContent.length = 0
          · rw [unread] at position ⊢
            have unmoved : context.buffer.readerIdx = after.buffer.readerIdx := by omega
            exact checked_of_raises blank (raises_of_unmoved unfold_ readable decoded blank unmoved)
          · have moved : context.buffer.readerIdx ≠ after.buffer.readerIdx := by omega
            exact checked_of_delivers (by omega) (delivers_of_moved readable decoded blank moved)

end Check

/-- The decoder the documentation of `FrameDecoder` gives as its example. -/
def integerHeaderDecode : DecodeM Unit ChannelMessage := do
  if (← get).buffer.readableBytes < 4 then pure .empty
  else
    onBuffer BufferM.markReaderIndex
    let length ← onBuffer BufferM.readInt
    if (← get).buffer.readableBytes < length.toInt then
      onBuffer BufferM.resetReaderIndex
      pure .empty
    else
      let frame ← onBuffer (BufferM.readBytes length.toInt)
      pure (.buffer frame)

/-- The documented decoder on one frame that is all the buffer holds. -/
theorem progress_check_misfires :
    let context : DecodeContext Unit := ⟨(), .heap ⟨.big, [0, 0, 0, 1, 7], ⟨0, 5, 0, 0⟩⟩, []⟩
    let after : DecodeContext Unit := ⟨(), .heap ⟨.big, [0, 0, 0, 1, 7], ⟨0, 0, 0, 0⟩⟩, []⟩
    integerHeaderDecode.run context = .ok (.buffer (.heap ⟨.big, [7], ⟨0, 1, 0, 0⟩⟩)) after ∧
      (ReadOp.program [.readInt, .readBytes 1]).run context.buffer = .ok () after.buffer ∧
      Raises integerHeaderDecode false context after ∧
      ¬ProgressChecked integerHeaderDecode false context after
        (.buffer (.heap ⟨.big, [7], ⟨0, 1, 0, 0⟩⟩)) 5 := by
  have decoded : integerHeaderDecode.run ⟨(), .heap ⟨.big, [0, 0, 0, 1, 7], ⟨0, 5, 0, 0⟩⟩, []⟩ =
      .ok (.buffer (.heap ⟨.big, [7], ⟨0, 1, 0, 0⟩⟩))
        ⟨(), .heap ⟨.big, [0, 0, 0, 1, 7], ⟨0, 0, 0, 0⟩⟩, []⟩ := rfl
  have raises := raises_of_unmoved false rfl decoded rfl rfl
  refine ⟨decoded, rfl, raises, ?_⟩
  intro checked
  cases (checked.1.mp raises).2

/-- The same frame read behind another byte is delivered. -/
theorem progress_checked_behind :
    ProgressChecked integerHeaderDecode false
      ⟨(), .heap ⟨.big, [9, 0, 0, 0, 1, 7], ⟨1, 6, 0, 0⟩⟩, []⟩
      ⟨(), .heap ⟨.big, [9, 0, 0, 0, 1, 7], ⟨0, 0, 1, 0⟩⟩, []⟩
      (.buffer (.heap ⟨.big, [7], ⟨0, 1, 0, 0⟩⟩)) 5 := by
  have sound : (ChannelBuffer.heap ⟨.big, [9, 0, 0, 0, 1, 7], ⟨1, 6, 0, 0⟩⟩).Sound :=
    heap_sound (by decide) ⟨by decide, by decide, by decide⟩
  have fits : ReadOp.Fits [.readInt, .readBytes 1] 5 := ⟨by decide, by decide, trivial⟩
  have reads : (ReadOp.program [.readInt, .readBytes 1]).run
      (.heap ⟨.big, [9, 0, 0, 0, 1, 7], ⟨1, 6, 0, 0⟩⟩) =
      .ok () (.heap ⟨.big, [9, 0, 0, 0, 1, 7], ⟨0, 0, 0, 0⟩⟩) := rfl
  have decoded : integerHeaderDecode.run
      ⟨(), .heap ⟨.big, [9, 0, 0, 0, 1, 7], ⟨1, 6, 0, 0⟩⟩, []⟩ =
      .ok (.buffer (.heap ⟨.big, [7], ⟨0, 1, 0, 0⟩⟩))
        ⟨(), .heap ⟨.big, [9, 0, 0, 0, 1, 7], ⟨0, 0, 1, 0⟩⟩, []⟩ := rfl
  exact (progress_checked_iff false [.readInt, .readBytes 1] decoded sound (by decide) fits reads
    rfl).mpr (fun bad => absurd bad.2.1 (by decide))

/-- What `boost::asio::buffer` makes of an `Array`. -/
structure ReadWindow where
  offset : Nat
  length : Nat
  deriving DecidableEq, Repr

namespace HeapChannelBuffer

def offsetWriterIndex (buffer : HeapChannelBuffer) (offset : Int) :
    Except Stop HeapChannelBuffer :=
  let newWriterIdx := int32 (buffer.idx.writerIdx + offset)
  if newWriterIdx < buffer.idx.readerIdx ∨ (buffer.arry.length : Int) < newWriterIdx then
    throw (rangeException "writerIndex")
  else pure { buffer with idx := { buffer.idx with writerIdx := newWriterIdx } }

/-- `writableBytes(Array&)`. The length is taken from the reader index. -/
def writableArray (buffer : HeapChannelBuffer) : Except Stop ReadWindow := do
  let data ← buffer.arry.data buffer.idx.writerIdx
  pure ⟨data, (buffer.arry.length - buffer.idx.readerIdx).toNat⟩

/-- What a transfer into the window leaves in the array. Bytes that do not fit
in it go to memory behind it. -/
def fill (buffer : HeapChannelBuffer) (window : ReadWindow) (bytes : CharArray) :
    HeapChannelBuffer :=
  { buffer with
    arry := overwrite buffer.arry window.offset
      (bytes.take (buffer.arry.length - window.offset)) }

/-- No method of `AbstractChannelBuffer` changes the kind of its buffer. -/
def handled (program : BufferM Unit) : Exec HeapChannelBuffer Unit :=
  focus ChannelBuffer.heap
    (fun buffer after =>
      match after with
      | .heap moved => moved
      | _ => buffer)
    program

/-- The buffer after a handler; what it throws is caught by the pipeline. -/
def afterReads (buffer : HeapChannelBuffer) (ops : List ReadOp) : HeapChannelBuffer :=
  stateAfter (handled (ReadOp.program ops)) buffer

def readable (buffer : HeapChannelBuffer) : CharArray :=
  (ChannelBuffer.heap buffer).readableContent

/-- Where the indices of a buffer stand. -/
structure Stands (buffer : HeapChannelBuffer) (reader writer : Nat) : Prop where
  small : (buffer.arry.length : Int) ≤ maxInt
  readerIdx : buffer.idx.readerIdx = reader
  writerIdx : buffer.idx.writerIdx = writer
  ordered : reader ≤ writer
  bound : writer ≤ buffer.arry.length

namespace Stands

variable {buffer : HeapChannelBuffer} {reader writer : Nat}

section

variable (stands : buffer.Stands reader writer)

include stands

theorem sound : (ChannelBuffer.heap buffer).Sound := by
  have start := stands.readerIdx
  have stop := stands.writerIdx
  have ordered := stands.ordered
  have bound := stands.bound
  exact ChannelBuffer.heap_sound stands.small ⟨by omega, by omega, by omega⟩

theorem readable_eq :
    buffer.readable = window buffer.arry reader (writer - reader) := by
  have ordered := stands.ordered
  have amount : ((writer : Int) - (reader : Int)).toNat = writer - reader := by omega
  simp only [readable, ChannelBuffer.readableContent, ChannelBuffer.content,
    ChannelBuffer.readerIdx, ChannelBuffer.writerIdx, ChannelBuffer.idx]
  rw [stands.readerIdx, stands.writerIdx, Int.toNat_natCast, amount]

theorem readable_length :
    buffer.readable.length = writer - reader := by
  have ordered := stands.ordered
  have bound := stands.bound
  rw [stands.readable_eq, window_length (by omega)]

theorem fill (bytes : CharArray) (length : Nat) :
    (buffer.fill ⟨writer, length⟩ bytes).arry.length = buffer.arry.length ∧
      (buffer.fill ⟨writer, length⟩ bytes).Stands reader writer := by
  have bound := stands.bound
  have same : (buffer.fill ⟨writer, length⟩ bytes).arry.length = buffer.arry.length := by
    have cut : writer + (bytes.take (buffer.arry.length - writer)).length ≤
        buffer.arry.length := by
      rw [List.length_take]
      omega
    exact overwrite_length cut
  refine ⟨same, ⟨?_, stands.readerIdx, stands.writerIdx, stands.ordered, ?_⟩⟩
  · rw [same]
    exact stands.small
  · rw [same]
    exact bound

/-- A transfer that fits into the array is readable behind what was there. -/
theorem filled (bytes : CharArray) (length : Nat)
    (fits : writer + bytes.length ≤ buffer.arry.length) :
    window (buffer.fill ⟨writer, length⟩ bytes).arry reader (writer + bytes.length - reader) =
      buffer.readable ++ bytes := by
  have ordered := stands.ordered
  have all : bytes.take (buffer.arry.length - writer) = bytes :=
    List.take_of_length_le (by omega)
  have amount : writer + bytes.length - reader = writer - reader + bytes.length := by omega
  have place : writer = reader + (writer - reader) := by omega
  rw [stands.readable_eq, amount]
  simp only [HeapChannelBuffer.fill]
  rw [all]
  conv_lhs => rw [place]
  rw [Nat.add_sub_cancel_left]
  exact window_overwrite_extend (by omega)

theorem offsetWriterIndex (count : Nat)
    (fits : writer + count ≤ buffer.arry.length) :
    ∃ moved, buffer.offsetWriterIndex count = .ok moved ∧ moved.arry = buffer.arry ∧
      moved.Stands reader (writer + count) := by
  have small := stands.small
  have start := stands.readerIdx
  have ordered := stands.ordered
  have sum : int32 (buffer.idx.writerIdx + count) = ((writer + count : Nat) : Int) := by
    rw [stands.writerIdx, ← Int.natCast_add]
    exact int32_of_nonneg (Int.natCast_nonneg _) (by omega)
  refine ⟨{ buffer with idx := { buffer.idx with writerIdx := (writer + count : Nat) } },
    ?_, rfl, ?_⟩
  · unfold HeapChannelBuffer.offsetWriterIndex
    simp only [sum]
    rw [if_neg (by omega)]
    rfl
  · exact ⟨small, start, rfl, by omega, fits⟩

theorem offsetWriterIndex_beyond (count : Nat)
    (single : count ≤ buffer.arry.length) (outside : buffer.arry.length < writer + count) :
    buffer.offsetWriterIndex count = .error (rangeException "writerIndex") := by
  have small := stands.small
  have start := stands.readerIdx
  have bound := stands.bound
  unfold HeapChannelBuffer.offsetWriterIndex
  simp only [stands.writerIdx, start]
  unfold maxInt at small
  by_cases wraps : (writer : Int) + count ≤ maxInt
  · rw [int32_of_nonneg (by omega) wraps, if_pos (by omega)]
    rfl
  · -- the sum is taken for a negative index
    have negative := int32_of_overflow (Int.not_le.mp wraps) (by unfold maxInt; omega)
    rw [negative, if_pos (by omega)]
    rfl

theorem writableArray (room : writer = 0 ∨ writer < buffer.arry.length) :
    buffer.writableArray = .ok ⟨writer, buffer.arry.length - reader⟩ := by
  have stop := stands.writerIdx
  have amount : ((buffer.arry.length : Int) - buffer.idx.readerIdx).toNat =
      buffer.arry.length - reader := by
    rw [stands.readerIdx]
    omega
  unfold HeapChannelBuffer.writableArray CharArray.data
  rw [if_neg (by omega), amount, stop]
  rfl

theorem writableArray_full (some_ : writer ≠ 0)
    (full : buffer.arry.length ≤ writer) :
    buffer.writableArray = .error (rangeException "out of range in array") := by
  have stop := stands.writerIdx
  unfold HeapChannelBuffer.writableArray CharArray.data
  rw [if_pos (by omega)]
  rfl

/-- Reads move the indices: a read that drains by compacting puts both to the
front, all others move the reader index alone. -/
theorem afterReads {ops : List ReadOp}
    (fits : ReadOp.Fits ops (writer - reader)) :
    (buffer.afterReads ops).arry = buffer.arry ∧
      if ReadOp.compacting ops (writer - reader) then (buffer.afterReads ops).Stands 0 0
      else (buffer.afterReads ops).Stands (reader + ReadOp.total ops (writer - reader)) writer := by
  have ordered := stands.ordered
  obtain ⟨idx, ran, -, start, stop⟩ :=
    ReadOp.program_moves ops stands.sound stands.readable_length fits
  have moved : buffer.afterReads ops = { buffer with idx := idx } := by
    have handles : (handled (ReadOp.program ops)).run buffer =
        .ok () { buffer with idx := idx } := by
      unfold handled
      rw [run_focus_ok ran]
      rfl
    unfold HeapChannelBuffer.afterReads stateAfter
    rw [handles]
  have within := ReadOp.total_le ops fits
  have first : (ChannelBuffer.heap buffer).readerIdx = reader := stands.readerIdx
  have last : (ChannelBuffer.heap buffer).writerIdx = writer := stands.writerIdx
  rw [first] at start
  rw [last] at stop
  rw [moved]
  refine ⟨rfl, ?_⟩
  cases drains : ReadOp.compacting ops (writer - reader) with
  | true =>
      rw [drains, if_pos rfl] at start stop
      rw [if_pos rfl]
      exact ⟨stands.small, start, stop, Nat.le_refl _, Nat.zero_le _⟩
  | false =>
      rw [drains, if_neg Bool.false_ne_true] at start stop
      rw [if_neg Bool.false_ne_true]
      exact ⟨stands.small, by rw [start, Int.natCast_add], stop, by omega, stands.bound⟩

end

end Stands

end HeapChannelBuffer

end Cetty
