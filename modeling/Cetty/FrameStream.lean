import Cetty.FrameReception
import Cetty.PrefixDecoding

/-!
# Frames do not depend on how the stream was cut

A subclass whose `decode` looks at the readable bytes only, and never revises a
frame when more bytes follow, is a prefix decoder of the byte stream. The frames
it fires and the bytes it leaves in the cumulation are those of draining the
whole stream, for every cut of the stream into received buffers.
-/

namespace Cetty

open MachineInt ByteWindow ChannelBuffer

namespace FrameStream

variable {Fields : Type}

/-- `decode` answers as `decoder` does on the readable bytes, moves over the bytes
of the frame and changes nothing else but its own fields, which stay `valid`. -/
def Lawful (decode : DecodeM Fields ChannelMessage) (valid : Fields → Prop)
    (decoder : PrefixDecoder Byte (List Byte)) : Prop :=
  ∀ context : DecodeContext Fields, valid context.fields → context.buffer.Sound →
    match decoder.next context.buffer.readableContent with
    | none => ∃ fields, valid fields ∧
        decode.run context = .ok .empty { context with fields := fields }
    | some (bytes, count) => ∃ fields frame, valid fields ∧ frame.readableContent = bytes ∧
        decode.run context = .ok (.buffer frame)
          { context with fields := fields, buffer := context.buffer.advance count }

section Loop

variable {decode : DecodeM Fields ChannelMessage} {valid : Fields → Prop}
  {decoder : PrefixDecoder Byte (List Byte)}

theorem Lawful.absent (lawful : Lawful decode valid decoder) {context : DecodeContext Fields}
    (known : valid context.fields) (sound : context.buffer.Sound)
    (absent : decoder.next context.buffer.readableContent = none) :
    ∃ fields, valid fields ∧ decode.run context = .ok .empty { context with fields := fields } := by
  have answer := lawful context known sound
  rw [absent] at answer
  exact answer

theorem Lawful.present (lawful : Lawful decode valid decoder) {context : DecodeContext Fields}
    {bytes : List Byte} {count : Nat} (known : valid context.fields)
    (sound : context.buffer.Sound)
    (present : decoder.next context.buffer.readableContent = some (bytes, count)) :
    ∃ fields frame, valid fields ∧ frame.readableContent = bytes ∧
      decode.run context = .ok (.buffer frame)
        { context with fields := fields, buffer := context.buffer.advance count } := by
  have answer := lawful context known sound
  rw [present] at answer
  exact answer

/-- The loop fires the frames at the front of the buffer and stops in front of the
first incomplete one. -/
theorem callDecode_drains (lawful : Lawful decode valid decoder) (unfold_ : Bool) (fuel : Nat)
    (context : DecodeContext Fields) (known : valid context.fields)
    (sound : context.buffer.Sound) (enough : context.buffer.readableContent.length < fuel) :
    ∃ fields events count,
      (callDecode decode unfold_ false fuel).run context = .ok ()
        { fields := fields
          buffer := context.buffer.advance count
          fired := context.fired ++ events } ∧
      valid fields ∧
      count ≤ context.buffer.readableContent.length ∧
      events.map UpstreamEvent.frameBytes =
        (decoder.drain context.buffer.readableContent).1.map some ∧
      (context.buffer.advance count).readableContent =
        (decoder.drain context.buffer.readableContent).2 := by
  generalize input : context.buffer.readableContent = bytes at enough
  induction bytes using decoder.drain_induction generalizing fuel context with
  | stuck bytes absent =>
      obtain ⟨fuel, rfl⟩ : ∃ less, fuel = less + 1 := ⟨fuel - 1, by omega⟩
      rw [decoder.drain_of_none absent]
      by_cases blank : bytes = []
      · have unreadable : context.buffer.readable = false :=
          sound.readable_eq_false_iff.mpr (by rw [input, blank])
        refine ⟨context.fields, [], 0, ?_, known, Nat.zero_le _, rfl, ?_⟩
        · rw [callDecode_unreadable unreadable, List.append_nil, advance_zero]
        · rw [advance_zero, input]
      · have readable : context.buffer.readable = true :=
          sound.readable_iff.mpr (by rw [input]; exact blank)
        obtain ⟨fields, still, decoded⟩ := lawful.absent known sound (by rw [input]; exact absent)
        refine ⟨fields, [], 0, ?_, still, Nat.zero_le _, rfl, ?_⟩
        · rw [callDecode_waits readable decoded rfl, List.append_nil, advance_zero]
        · rw [advance_zero, input]
  | step bytes value count present ih =>
      obtain ⟨fuel, rfl⟩ : ∃ less, fuel = less + 1 := ⟨fuel - 1, by omega⟩
      have progress := decoder.progress present
      have bounded : count ≤ context.buffer.readableContent.length := by
        rw [input]
        exact progress.2
      have readable : context.buffer.readable = true := by
        apply sound.readable_iff.mpr
        rw [input]
        exact List.length_pos_iff.mp (by omega)
      obtain ⟨fields, frame, still, shown, decoded⟩ :=
        lawful.present known sound (by rw [input]; exact present)
      have moved : context.buffer.readerIdx ≠ (context.buffer.advance count).readerIdx := by
        rw [ChannelBuffer.readerIdx_advance]
        omega
      have left : (context.buffer.advance count).readableContent = bytes.drop count := by
        rw [sound.readable_advance, input]
      have shorter : (bytes.drop count).length < fuel := by
        rw [List.length_drop]
        omega
      obtain ⟨fields', events, more, ran, valid', fits, frames, rest⟩ := ih fuel
        { fields := fields
          buffer := context.buffer.advance count
          fired := context.fired ++ [.messageReceived (.buffer frame)] }
        still (sound.advance bounded) left shorter
      rw [decoder.drain_of_some present]
      rw [List.length_drop] at fits
      refine ⟨fields', .messageReceived (.buffer frame) :: events, count + more, ?_, valid',
        by omega, ?_, ?_⟩
      · rw [callDecode_fires readable decoded moved, ran, advance_advance, List.append_assoc]
        rfl
      · rw [List.map_cons, List.map_cons, frames]
        exact congrArg (fun bytes => some bytes :: _) shown
      · rw [← advance_advance]
        exact rest

end Loop

/-- After `stream` has been received: the frames of the stream were fired, nothing
else was, and the cumulation keeps the bytes of no frame yet. -/
structure Streamed (factory : ByteOrder) (valid : Fields → Prop)
    (decoder : PrefixDecoder Byte (List Byte)) (stream : List Byte) (handler : Handler Fields) :
    Prop where
  known : valid handler.decoder.fields
  holding : handler.decoder.Holding factory stream.length
  frames : handler.fired.map UpstreamEvent.frameBytes = (decoder.drain stream).1.map some
  rest : handler.decoder.unread = (decoder.drain stream).2

section Delivery

variable {decode : DecodeM Fields ChannelMessage} {valid : Fields → Prop}
  {decoder : PrefixDecoder Byte (List Byte)} {config : ChannelConfig} {fuel : Nat}

theorem streamed_fresh (factory : ByteOrder) (decoder : PrefixDecoder Byte (List Byte))
    (own unfold_ : Bool) {fields : Fields} (known : valid fields) :
    Streamed factory valid decoder [] (FrameDecoder.fresh own unfold_ fields) := by
  refine ⟨known, ?_, ?_, ?_⟩
  · constructor
    · intro cumulation stored
      cases stored
    · exact Int.le_refl _
  · rw [decoder.drain_nil]
    rfl
  · rw [decoder.drain_nil]
    rfl

section

variable (lawful : Lawful decode valid decoder) (own : config.channelOwnBuffer = false)

include lawful own

variable {handler : Handler Fields}

/-- One delivery feeds its bytes to the stream decoder. -/
theorem streamed_step {stream : List Byte}
    {input : ChannelBuffer} (streamed : Streamed config.bufferFactory valid decoder stream handler)
    (sound : input.Sound) (present : input.readableContent ≠ [])
    (bounded : (stream ++ input.readableContent).length ≤ 1073741824)
    (enough : (stream ++ input.readableContent).length < fuel) :
    ∃ next, handler.messageReceived decode config fuel (.buffer input) = .ok next ∧
      Streamed config.bufferFactory valid decoder (stream ++ input.readableContent) next := by
  rw [List.length_append] at bounded enough
  obtain ⟨buffer, loop, delivers⟩ := Handler.delivery decode fuel own sound present
    streamed.holding (Handler.admits_of_bounded streamed.holding bounded)
  have whole : buffer.readableContent = (decoder.drain stream).2 ++ input.readableContent := by
    rw [loop.content, streamed.rest]
  have tail := decoder.drain_tail_length stream
  have size : buffer.readableContent.length < fuel := by
    rw [whole, List.length_append]
    omega
  obtain ⟨fields, events, count, ran, still, fits, frames, rest⟩ :=
    callDecode_drains lawful handler.decoder.unfold_ fuel
      ⟨handler.decoder.fields, buffer, handler.fired⟩ streamed.known loop.sound size
  have moved := loop.sound.advance_repositioned fits
  obtain ⟨decoder', received, fields_eq, -, holding, unread⟩ := delivers.keeps _ ran moved
    (Handler.stores_of_bounded streamed.holding bounded loop moved)
  refine ⟨_, received, ?_, ?_, ?_, ?_⟩
  · rw [fields_eq]
    exact still
  · rw [List.length_append]
    exact holding
  · rw [decoder.drain_append, ← whole, List.map_append, streamed.frames, List.map_append]
    exact congrArg _ frames
  · rw [decoder.drain_append, ← whole, unread]
    exact rest

theorem streamed_run (received : List ChannelBuffer) {stream : List Byte}
    (streamed : Streamed config.bufferFactory valid decoder stream handler)
    (sound : ∀ input ∈ received, input.Sound ∧ input.readableContent ≠ [])
    (bounded : (stream ++ (received.map readableContent).flatten).length ≤ 1073741824)
    (enough : (stream ++ (received.map readableContent).flatten).length < fuel) :
    ∃ final, handler.receiveAll decode config fuel received = .ok final ∧
      Streamed config.bufferFactory valid decoder
        (stream ++ (received.map readableContent).flatten) final := by
  induction received generalizing stream handler with
  | nil =>
      refine ⟨handler, rfl, ?_⟩
      rw [List.map_nil, List.flatten_nil, List.append_nil]
      exact streamed
  | cons input rest ih =>
      rw [List.map_cons, List.flatten_cons, ← List.append_assoc] at bounded enough ⊢
      have first := sound input List.mem_cons_self
      have within : (stream ++ input.readableContent).length ≤
          (stream ++ input.readableContent ++ (rest.map readableContent).flatten).length := by
        simp only [List.length_append]
        omega
      obtain ⟨next, ran, streamed'⟩ := streamed_step lawful own streamed first.1 first.2
        (Nat.le_trans within bounded) (Nat.lt_of_le_of_lt within enough)
      obtain ⟨final, ran', final_streamed⟩ := ih streamed'
        (fun later member => sound later (List.mem_cons_of_mem _ member)) bounded enough
      refine ⟨final, ?_, final_streamed⟩
      unfold Handler.receiveAll at ran' ⊢
      rw [List.foldlM_cons, ran, ok_bind, ran']

end

end Delivery

end FrameStream

structure FixedLengthFrameDecoder where
  frameLength : Int

namespace FixedLengthFrameDecoder

/-- The constructor. -/
def make (frameLength : Int) : Except Stop FixedLengthFrameDecoder :=
  if frameLength ≤ 0 then
    throw (invalidArgumentException
      ("frameLength must be a positive integer: " ++ toString frameLength))
  else pure ⟨frameLength⟩

def decode : DecodeM FixedLengthFrameDecoder ChannelMessage := do
  let context ← get
  let frameLength := context.fields.frameLength
  let buffer := context.buffer
  if buffer.readableBytes < frameLength then pure .empty
  else
    let sub ← call (buffer.slice buffer.readerIdx frameLength)
    onBuffer (BufferM.readerIndex (int32 (buffer.readerIdx + frameLength)))
    pure (.buffer sub)

/-- The stream decoder of frames of `length` bytes. -/
def blocks (length : Nat) (positive : 0 < length) : PrefixDecoder Byte (List Byte) where
  next input := if length ≤ input.length then some (input.take length, length) else none
  progress := by
    intro input value count found
    split at found
    · cases found
      omega
    · cases found
  stable := by
    intro input value count more found
    split at found
    · rename_i enough
      cases found
      rw [if_pos (by rw [List.length_append]; omega), List.take_append_of_le_length enough]
    · cases found

section

variable {context : DecodeContext FixedLengthFrameDecoder}

theorem decode_waits (short : context.buffer.readableBytes < context.fields.frameLength) :
    decode.run context = .ok .empty context := by
  unfold decode
  rw [run_bind_get]
  simp [short]

theorem decode_frame {length : Nat}
    (sound : context.buffer.Sound) (positive : 0 < length)
    (constant : context.fields.frameLength = length)
    (enough : length ≤ context.buffer.readableContent.length) :
    ∃ frame, frame.readableContent = context.buffer.readableContent.take length ∧
      decode.run context =
        .ok (.buffer frame) { context with buffer := context.buffer.advance length } := by
  have size := sound.readable_length
  have start := sound.reader_nonneg
  have bound := sound.writer_le_length
  have front : ((context.buffer.readerIdx.toNat : Nat) : Int) = context.buffer.readerIdx := by
    omega
  obtain ⟨frame, cut, shown⟩ := sound.slice
    (show context.buffer.readerIdx.toNat + length ≤ context.buffer.content.length by omega)
  rw [front] at cut
  have long : ¬context.buffer.readableBytes < length := by
    rw [sound.readableBytes_eq]
    omega
  have moves : (BufferM.readerIndex (int32 (context.buffer.readerIdx + length))).run
      context.buffer = .ok () (context.buffer.advance length) := by
    unfold BufferM.readerIndex
    rw [run_bind_get]
    rw [sound.int32_reader enough, sound.setReaderIndex enough, run_bind_ok _ (run_call_ok _ _)]
    rfl
  refine ⟨frame, ?_, ?_⟩
  · rw [shown.bytes]
    unfold readableContent
    rw [window_take]
    omega
  · unfold decode
    rw [run_bind_get]
    simp only [constant]
    rw [if_neg long, cut, run_bind_ok _ (run_call_ok _ _), run_bind_ok _ (onBuffer_ok moves)]
    rfl

end

theorem make_of_pos {length : Nat} (positive : 0 < length) : make length = .ok ⟨length⟩ := by
  unfold make
  rw [if_neg (by omega)]
  rfl

theorem lawful {length : Nat} (positive : 0 < length) :
    FrameStream.Lawful decode (fun fields => make length = .ok fields)
      (blocks length positive) := by
  intro context constructed sound
  have constant : context.fields.frameLength = length := by
    rw [make_of_pos positive] at constructed
    rw [← Except.ok.inj constructed]
  by_cases enough : length ≤ context.buffer.readableContent.length
  · obtain ⟨frame, shown, decoded⟩ := decode_frame sound positive constant enough
    have found : (blocks length positive).next context.buffer.readableContent =
        some (context.buffer.readableContent.take length, length) := if_pos enough
    rw [found]
    exact ⟨context.fields, frame, constructed, shown, decoded⟩
  · have absent : (blocks length positive).next context.buffer.readableContent = none :=
      if_neg enough
    rw [absent]
    refine ⟨context.fields, constructed, decode_waits ?_⟩
    rw [constant, sound.readableBytes_eq]
    omega

end FixedLengthFrameDecoder

/-- The cut of the stream into received buffers does not show: what is fired and
what is kept are functions of the whole stream. -/
theorem frames_independent_of_cuts :
    (∀ (Fields : Type) (decode : DecodeM Fields ChannelMessage) (valid : Fields → Prop)
      (decoder : PrefixDecoder Byte (List Byte)), FrameStream.Lawful decode valid decoder →
      ∀ (config : ChannelConfig), config.channelOwnBuffer = false →
      ∀ (own unfold_ : Bool) (fields : Fields), valid fields →
      ∀ received : List ChannelBuffer,
        (∀ input ∈ received, input.Sound ∧ input.readableContent ≠ []) →
        (received.map readableContent).flatten.length < 2 ^ 30 →
      ∀ fuel, (received.map readableContent).flatten.length < fuel →
        ∃ handler,
          (FrameDecoder.fresh own unfold_ fields).receiveAll decode config fuel received =
            .ok handler ∧
          handler.fired.map UpstreamEvent.frameBytes =
            (decoder.drain (received.map readableContent).flatten).1.map some ∧
          handler.decoder.unread = (decoder.drain (received.map readableContent).flatten).2) ∧
    (∀ (length : Nat) (positive : 0 < length),
      FrameStream.Lawful FixedLengthFrameDecoder.decode
        (fun fields => FixedLengthFrameDecoder.make length = .ok fields)
        (FixedLengthFrameDecoder.blocks length positive)) := by
  constructor
  · intro Fields decode valid decoder lawful config shared own unfold_ fields known received sound
      small fuel enough
    have start := FrameStream.streamed_fresh config.bufferFactory decoder own unfold_ known
    obtain ⟨handler, ran, streamed⟩ := FrameStream.streamed_run lawful shared received start sound
      (by rw [List.nil_append]; omega) (by rw [List.nil_append]; omega)
    exact ⟨handler, ran, streamed.frames, streamed.rest⟩
  · intro length positive
    exact FixedLengthFrameDecoder.lawful positive

/-- Frames of two bytes, the second one cut in the middle. -/
theorem frames_independent_of_cuts_pairs :
    ∃ handler, (FrameDecoder.fresh true false (⟨2⟩ : FixedLengthFrameDecoder)).receiveAll
        FixedLengthFrameDecoder.decode ⟨false, .big⟩ 6
        [.heap ⟨.big, [1, 2, 3], ⟨0, 3, 0, 0⟩⟩, .heap ⟨.little, [9, 4, 5], ⟨1, 3, 0, 0⟩⟩] =
          .ok handler ∧
      handler.fired.map UpstreamEvent.frameBytes = [some [1, 2], some [3, 4]] ∧
      handler.decoder.unread = [5] := by
  have received : ∀ input ∈ [ChannelBuffer.heap ⟨.big, [1, 2, 3], ⟨0, 3, 0, 0⟩⟩,
      .heap ⟨.little, [9, 4, 5], ⟨1, 3, 0, 0⟩⟩], input.Sound ∧ input.readableContent ≠ [] := by
    intro input member
    simp only [List.mem_cons, List.not_mem_nil, or_false] at member
    rcases member with rfl | rfl
    · refine ⟨heap_sound (by decide) ⟨by decide, by decide, by decide⟩, ?_⟩
      decide
    · refine ⟨heap_sound (by decide) ⟨by decide, by decide, by decide⟩, ?_⟩
      decide
  let blocks := FixedLengthFrameDecoder.blocks 2 (by decide)
  have third : blocks.drain [5] = ([], [5]) := blocks.drain_of_none rfl
  have second : blocks.drain [3, 4, 5] = ([[3, 4]], [5]) := by
    rw [blocks.drain_of_some (show blocks.next [3, 4, 5] = some ([3, 4], 2) from rfl)]
    exact congrArg (fun drained => ([3, 4] :: drained.1, drained.2)) third
  have first : blocks.drain [1, 2, 3, 4, 5] = ([[1, 2], [3, 4]], [5]) := by
    rw [blocks.drain_of_some (show blocks.next [1, 2, 3, 4, 5] = some ([1, 2], 2) from rfl)]
    exact congrArg (fun drained => ([1, 2] :: drained.1, drained.2)) second
  obtain ⟨handler, ran, frames, rest⟩ := frames_independent_of_cuts.1 FixedLengthFrameDecoder
    FixedLengthFrameDecoder.decode _ _ (frames_independent_of_cuts.2 2 (by decide)) ⟨false, .big⟩
    rfl true false ⟨2⟩ rfl _ received (by decide) 6 (by decide)
  refine ⟨handler, ran, ?_, ?_⟩
  · rw [frames]
    exact congrArg (fun drained => drained.1.map some) first
  · rw [rest]
    exact congrArg Prod.snd first

end Cetty
