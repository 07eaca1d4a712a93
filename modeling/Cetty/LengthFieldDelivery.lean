import Cetty.LengthFieldHeader

/-!
# One delivery to the length field decoder

Before the header of a frame that is too long is complete the decoder waits and has
fired nothing; behind it the decoder discards and the number of bytes left tells what
the next delivery does.
-/

namespace Cetty

open MachineInt ByteWindow ChannelBuffer

namespace LengthFieldBasedFrameDecoder

variable {decoder : LengthFieldBasedFrameDecoder}

/-- A buffer as it comes in from the channel, in the byte order of the channel's factory. -/
structure Received (config : ChannelConfig) (input : ChannelBuffer) : Prop where
  sound : input.Sound
  present : input.readableContent ≠ []
  ordered : input.order = config.bufferFactory

/-- The report of a frame that is too long. -/
def Reports (event : UpstreamEvent) : Prop :=
  ∃ exception, event = .exceptionCaught exception ∧ exception.cls = .tooLongFrame

/-- The first event is something else. -/
def Foreign (fired : List UpstreamEvent) : Prop :=
  ∃ event rest, fired = event :: rest ∧ ¬Reports event

theorem Foreign.stays {fired more : List UpstreamEvent} (foreign : Foreign fired)
    (front : fired <+: more) : Foreign more := by
  obtain ⟨event, rest, rfl, other⟩ := foreign
  obtain ⟨tail, rfl⟩ := front
  exact ⟨event, rest ++ tail, rfl, other⟩

theorem foreign_exception {exception : Exception} (other : exception.cls ≠ .tooLongFrame) :
    Foreign [.exceptionCaught exception] := by
  refine ⟨_, _, rfl, ?_⟩
  intro reports
  obtain ⟨reported, same, cls⟩ := reports
  cases same
  exact other cls

theorem foreign_message (message : ChannelMessage) : Foreign [.messageReceived message] := by
  refine ⟨_, _, rfl, ?_⟩
  intro reports
  obtain ⟨_, same, _⟩ := reports
  cases same

/-- Nothing has been fired; the bytes received so far are all kept. -/
structure Waiting (factory : ByteOrder) (decoder : LengthFieldBasedFrameDecoder)
    (stream : List Byte) (handler : Handler LengthFieldBasedFrameDecoder) : Prop where
  fields : handler.decoder.fields = decoder
  fired : handler.fired = []
  unread : handler.decoder.unread = stream
  holding : handler.decoder.Holding factory stream.length

section Waiting

variable {config : ChannelConfig} {fuel : Nat} {stream : List Byte}
  {handler next : Handler LengthFieldBasedFrameDecoder} {input : ChannelBuffer}

theorem loopBuffer_order {buffer : ChannelBuffer} (received : Received config input)
    (loop : Handler.LoopBuffer config handler input buffer) :
    buffer.order = config.bufferFactory := by
  rcases loop.place with ⟨_, rfl⟩ | ⟨_, growing, _⟩
  · exact received.ordered
  · obtain ⟨heap, idx, rfl, _⟩ := growing
    simp only [order, getters]

variable {fired : List UpstreamEvent}

theorem foreign_of_refused (blank : fired = [])
    (refused : Handler.Refused decode config fuel handler input fired)
    (delivered : handler.messageReceived decode config fuel (.buffer input) = .ok next) :
    Foreign next.fired := by
  rcases refused with ⟨stop, failed⟩ | ⟨decoder, reported⟩
  · rw [failed] at delivered
    cases delivered
  · rw [reported] at delivered
    cases delivered
    rw [blank]
    apply foreign_exception
    decide

section

variable (waiting : Waiting config.bufferFactory decoder stream handler)

include waiting

/-- The cumulation takes in at most 2^30 bytes. -/
theorem admits_of_room
    (room : stream = [] ∨ (stream ++ input.readableContent).length ≤ 1073741824) :
    handler.Admits input := by
  unfold Handler.Admits
  rw [waiting.unread]
  rw [List.length_append] at room
  exact room

theorem stores_of_room (room : (stream ++ input.readableContent).length ≤ 1073741824) :
    handler.Stores (stream ++ input.readableContent) := by
  have filled := waiting.holding.filled
  by_cases blank : stream = []
  · subst blank
    right
    right
    rw [List.length_nil] at filled
    omega
  · left
    rw [waiting.unread]
    exact blank

end

theorem repositioned_self {buffer : ChannelBuffer} (sound : buffer.Sound) :
    buffer.Repositioned buffer :=
  ⟨buffer.idx, (withIdx_idx buffer).symm, sound.inside, Int.le_refl _, Nat.le_refl _⟩

section

variable (own : config.channelOwnBuffer = false) (enough : 0 < fuel)
  (waiting : Waiting config.bufferFactory decoder stream handler)
  (received : Received config input)

include own enough waiting received

/-- A delivery on which `decode` waits for more. -/
theorem waiting_step (room : (stream ++ input.readableContent).length ≤ 1073741824)
    (waits : ∀ buffer : ChannelBuffer, buffer.Sound → buffer.order = config.bufferFactory →
      buffer.readableContent = stream ++ input.readableContent →
      decode.run ⟨decoder, buffer, []⟩ = .ok .empty ⟨decoder, buffer, []⟩) :
    ∃ next, handler.messageReceived decode config fuel (.buffer input) = .ok next ∧
      Waiting config.bufferFactory decoder (stream ++ input.readableContent) next := by
  obtain ⟨fuel, rfl⟩ : ∃ less, fuel = less + 1 := ⟨fuel - 1, by omega⟩
  obtain ⟨buffer, loop, delivers⟩ := Handler.delivery decode (fuel + 1) own received.sound
    received.present waiting.holding (admits_of_room waiting (Or.inr room))
  have content := loop.content
  rw [waiting.unread] at content
  have decoded := waits buffer loop.sound (loopBuffer_order received loop) content
  have readable : buffer.readable = true := by
    apply loop.sound.readable_iff.mpr
    rw [content]
    exact List.append_ne_nil_of_right_ne_nil _ received.present
  have looped : (callDecode decode handler.decoder.unfold_ false (fuel + 1)).run
      ⟨handler.decoder.fields, buffer, handler.fired⟩ = .ok () ⟨decoder, buffer, []⟩ := by
    rw [waiting.fields, waiting.fired]
    exact callDecode_waits readable decoded rfl
  have stores : handler.Stores buffer.readableContent := by
    rw [content]
    exact stores_of_room waiting room
  obtain ⟨decoder', delivered, fields, -, holding, unread⟩ :=
    delivers.keeps _ looped (repositioned_self loop.sound) stores
  refine ⟨_, delivered, fields, rfl, unread.trans content, ?_⟩
  rw [List.length_append]
  exact holding

/-- Where the decoder is after a delivery that did not start to discard. -/
theorem harmless_step
    (harmless : ∀ buffer : ChannelBuffer, buffer.Sound → buffer.order = config.bufferFactory →
      buffer.readableContent = stream ++ input.readableContent →
      Harmless ⟨decoder, buffer, []⟩)
    (delivered : handler.messageReceived decode config fuel (.buffer input) = .ok next) :
    Waiting config.bufferFactory decoder (stream ++ input.readableContent) next ∨
      Foreign next.fired := by
  obtain ⟨fuel, rfl⟩ : ∃ less, fuel = less + 1 := ⟨fuel - 1, by omega⟩
  by_cases admits : handler.Admits input
  · obtain ⟨buffer, loop, delivers⟩ := Handler.delivery decode (fuel + 1) own received.sound
      received.present waiting.holding admits
    have content := loop.content
    rw [waiting.unread] at content
    have readable : buffer.readable = true := by
      apply loop.sound.readable_iff.mpr
      rw [content]
      exact List.append_ne_nil_of_right_ne_nil _ received.present
    have begins : (callDecode decode handler.decoder.unfold_ false (fuel + 1)).run
        ⟨handler.decoder.fields, buffer, handler.fired⟩ =
        (callDecode decode handler.decoder.unfold_ false (fuel + 1)).run
          ⟨decoder, buffer, []⟩ := by
      rw [waiting.fields, waiting.fired]
    rcases harmless buffer loop.sound (loopBuffer_order received loop) content with
      waits | ⟨frame, after, decoded, same⟩ | ⟨exception, after, decoded, other, same⟩
    · have looped := begins.trans (callDecode_waits readable waits rfl)
      by_cases stores : handler.Stores buffer.readableContent
      · left
        obtain ⟨decoder', kept, fields, -, holding, unread⟩ :=
          delivers.keeps _ looped (repositioned_self loop.sound) stores
        rw [kept] at delivered
        cases delivered
        refine ⟨fields, rfl, unread.trans content, ?_⟩
        rw [List.length_append]
        exact holding
      · right
        exact foreign_of_refused rfl
          (delivers.refuses _ looped (repositioned_self loop.sound) stores) delivered
    · right
      -- the frame is fired, or the round ends with the exception about missing progress
      by_cases unmoved : buffer.readerIdx = after.buffer.readerIdx
      · have stopped := begins.trans
          (callDecode_stops (decodeRound_noProgress readable decoded rfl unmoved))
        obtain ⟨decoder', raised, -⟩ := delivers.raises _ _ stopped
        rw [raised] at delivered
        cases delivered
        rw [same]
        apply foreign_exception
        decide
      · have goes_on := begins.trans (callDecode_fires readable decoded unmoved)
        have stays := callDecode_keeps (decode_appends.keeps [.messageReceived (.buffer frame)])
          handler.decoder.unfold_ false fuel
        have begun : [UpstreamEvent.messageReceived (.buffer frame)] <+:
            after.fired ++ [.messageReceived (.buffer frame)] := by
          rw [same]
          exact List.prefix_refl _
        rcases delivers.follows next delivered with ⟨final, ran, front⟩ | ⟨stop, final, ran, front⟩
        · exact (foreign_message _).stays
            ((stays.after_ok begun (goes_on.symm.trans ran)).trans front)
        · exact (foreign_message _).stays
            ((stays.after_error begun (goes_on.symm.trans ran)).trans front)
    · right
      have stopped := begins.trans (callDecode_stops (decodeRound_stops readable decoded))
      obtain ⟨decoder', raised, -⟩ := delivers.raises _ _ stopped
      rw [raised] at delivered
      cases delivered
      rw [same]
      exact foreign_exception other
  · right
    exact foreign_of_refused waiting.fired (Handler.delivery_refused decode (fuel + 1) own
      received.sound received.present waiting.holding admits) delivered

end

/-- Without room for the bytes received so far nothing is decoded. -/
theorem full_step (own : config.channelOwnBuffer = false) (enough : 0 < fuel)
    (constructed : Constructed decoder)
    (waiting : Waiting config.bufferFactory decoder stream handler)
    (received : Received config input)
    (full : 1073741824 < (stream ++ input.readableContent).length)
    (cut : stream ≠ [] ∨
      ((stream ++ input.readableContent).length : Int) < decoder.lengthFieldEndOffset)
    (delivered : handler.messageReceived decode config fuel (.buffer input) = .ok next) :
    Foreign next.fired := by
  by_cases blank : stream = []
  · subst blank
    have short : (input.readableContent.length : Int) < decoder.lengthFieldEndOffset := by
      rcases cut with kept | short
      · exact absurd rfl kept
      · exact short
    obtain ⟨fuel, rfl⟩ : ∃ less, fuel = less + 1 := ⟨fuel - 1, by omega⟩
    have delivers := Handler.delivers_direct decode (fuel + 1) own received.sound
      received.present waiting.holding waiting.unread
    have readable : input.readable = true := received.sound.readable_iff.mpr received.present
    have looped : (callDecode decode handler.decoder.unfold_ false (fuel + 1)).run
        ⟨handler.decoder.fields, input, handler.fired⟩ = .ok () ⟨decoder, input, []⟩ := by
      rw [waiting.fields, waiting.fired]
      exact callDecode_waits readable (decode_short constructed received.sound short) rfl
    have overflows : ¬handler.Stores input.readableContent := by
      intro stores
      have filled := waiting.holding.filled_nonneg
      rw [List.nil_append] at full
      rcases stores with kept | nothing | room
      · exact kept waiting.unread
      · exact received.present nothing
      · omega
    exact foreign_of_refused rfl
      (delivers.refuses _ looped (repositioned_self received.sound) overflows) delivered
  · apply foreign_of_refused waiting.fired _ delivered
    apply Handler.delivery_refused decode fuel own received.sound received.present waiting.holding
    intro admits
    rcases admits with drained | room
    · rw [waiting.unread] at drained
      exact blank drained
    · rw [waiting.unread] at room
      rw [List.length_append] at full
      omega

/-- Discarding, with `left` bytes to go and nothing kept. -/
structure Discarding (factory : ByteOrder) (left : Int) (fired : List UpstreamEvent)
    (handler : Handler LengthFieldBasedFrameDecoder) : Prop where
  flag : handler.decoder.fields.discardingTooLongFrame = true
  left : handler.decoder.fields.bytesToDiscard = left
  fired : handler.fired = fired
  unread : handler.decoder.unread = []
  holding : ∃ received, handler.decoder.Holding factory received

/-- The loop reads the whole buffer in one round and stops on the drained one. -/
theorem drained_step {fields after : LengthFieldBasedFrameDecoder}
    {received_bytes : Nat} (own : config.channelOwnBuffer = false) (enough : 2 ≤ fuel)
    (holding : handler.decoder.Holding config.bufferFactory received_bytes)
    (admits : handler.Admits input) (received : Received config input)
    (start : handler.decoder.fields = fields)
    (drains : ∀ buffer : ChannelBuffer, buffer.Sound → buffer.order = config.bufferFactory →
      buffer.readableContent = handler.decoder.unread ++ input.readableContent →
      decode.run ⟨fields, buffer, handler.fired⟩ =
        .ok .empty ⟨after, buffer.advance buffer.readableContent.length, fired⟩) :
    ∃ next, handler.messageReceived decode config fuel (.buffer input) = .ok next ∧
      next.decoder.fields = after ∧ next.fired = fired ∧ next.decoder.unread = [] ∧
      ∃ total, next.decoder.Holding config.bufferFactory total := by
  obtain ⟨fuel, rfl⟩ : ∃ less, fuel = less + 2 := ⟨fuel - 2, by omega⟩
  obtain ⟨buffer, loop, delivers⟩ := Handler.delivery decode (fuel + 2) own received.sound
    received.present holding admits
  have content := loop.content
  have sound := loop.sound
  have present : buffer.readableContent ≠ [] := by
    rw [content]
    exact List.append_ne_nil_of_right_ne_nil _ received.present
  have size : 0 < buffer.readableContent.length := List.length_pos_iff.mpr present
  have readable : buffer.readable = true := sound.readable_iff.mpr present
  have moved := sound.advance_repositioned (Nat.le_refl _)
  have nothing : (buffer.advance buffer.readableContent.length).readableContent = [] := by
    rw [sound.readable_advance, List.drop_length]
  have unreadable : (buffer.advance buffer.readableContent.length).readable = false :=
    (sound.advance (Nat.le_refl _)).readable_eq_false_iff.mpr nothing
  have progress : buffer.readerIdx ≠ (buffer.advance buffer.readableContent.length).readerIdx := by
    rw [readerIdx_advance]
    omega
  have decoded := drains buffer sound (loopBuffer_order received loop) content
  have looped : (callDecode decode handler.decoder.unfold_ false (fuel + 2)).run
      ⟨handler.decoder.fields, buffer, handler.fired⟩ =
      .ok () ⟨after, buffer.advance buffer.readableContent.length, fired⟩ := by
    have ends : (callDecode decode handler.decoder.unfold_ false (fuel + 1)).run
        ⟨after, buffer.advance buffer.readableContent.length, fired⟩ =
        .ok () ⟨after, buffer.advance buffer.readableContent.length, fired⟩ :=
      callDecode_unreadable unreadable
    have goes_on : (callDecode decode handler.decoder.unfold_ false (fuel + 1 + 1)).run
        ⟨fields, buffer, handler.fired⟩ =
        (callDecode decode handler.decoder.unfold_ false (fuel + 1)).run
          ⟨after, buffer.advance buffer.readableContent.length, fired⟩ :=
      callDecode_continues readable decoded progress
    rw [start]
    exact goes_on.trans ends
  have stores : handler.Stores (buffer.advance buffer.readableContent.length).readableContent := by
    rw [nothing]
    right
    left
    rfl
  obtain ⟨decoder', delivered, fields', -, holding', unread⟩ :=
    delivers.keeps _ looped moved stores
  refine ⟨⟨decoder', fired⟩, delivered, fields', rfl, ?_, _, holding'⟩
  rw [unread]
  exact nothing

theorem enter_step (own : config.channelOwnBuffer = false) (enough : 2 ≤ fuel)
    (constructed : Constructed decoder)
    (waiting : Waiting config.bufferFactory decoder stream handler)
    (received : Received config input)
    (room : stream = [] ∨ (stream ++ input.readableContent).length ≤ 1073741824)
    (complete : decoder.lengthFieldEndOffset ≤ (stream ++ input.readableContent).length)
    (oversized : Oversized config.bufferFactory decoder (stream ++ input.readableContent)) :
    ∃ next, handler.messageReceived decode config fuel (.buffer input) = .ok next ∧
      Discarding config.bufferFactory
        (int32 (computedLength config.bufferFactory decoder (stream ++ input.readableContent) -
          (stream ++ input.readableContent).length)) [] next := by
  have drains : ∀ buffer : ChannelBuffer, buffer.Sound → buffer.order = config.bufferFactory →
      buffer.readableContent = handler.decoder.unread ++ input.readableContent →
      decode.run ⟨decoder, buffer, handler.fired⟩ = .ok .empty
        ⟨entered decoder (computedLength config.bufferFactory decoder
            (stream ++ input.readableContent)) (stream ++ input.readableContent).length,
          buffer.advance buffer.readableContent.length, []⟩ := by
    intro buffer sound ordered content
    rw [waiting.unread] at content
    rw [waiting.fired, decode_enters constructed sound (by rw [content]; exact complete)
      (by rw [content, ordered]; exact oversized), content, ordered]
  obtain ⟨next, delivered, fields, fired, unread, holding⟩ := drained_step own enough
    waiting.holding (admits_of_room waiting room) received waiting.fields drains
  refine ⟨next, delivered, ?_, ?_, fired, unread, holding⟩
  · rw [fields, entered_flag]
  · rw [fields, entered_left]

section Discarding

variable {fields : LengthFieldBasedFrameDecoder} {buffer : ChannelBuffer}
  {fired : List UpstreamEvent} {left : Int}

section

variable (own : config.channelOwnBuffer = false) (enough : 2 ≤ fuel)
  (discarding : Discarding config.bufferFactory left fired handler)
  (received : Received config input)

include own enough discarding received

theorem discard_less (less : (input.readableContent.length : Int) < left)
    (small : left ≤ maxInt) :
    ∃ next, handler.messageReceived decode config fuel (.buffer input) = .ok next ∧
      Discarding config.bufferFactory (left - input.readableContent.length) fired next := by
  obtain ⟨total, holding⟩ := discarding.holding
  have drains : ∀ buffer : ChannelBuffer, buffer.Sound → buffer.order = config.bufferFactory →
      buffer.readableContent = handler.decoder.unread ++ input.readableContent →
      decode.run ⟨handler.decoder.fields, buffer, handler.fired⟩ = .ok .empty
        ⟨{ handler.decoder.fields with
            bytesToDiscard := left - input.readableContent.length },
          buffer.advance buffer.readableContent.length, fired⟩ := by
    intro buffer sound _ content
    rw [discarding.unread, List.nil_append] at content
    rw [discarding.fired, decode_discards_less discarding.flag discarding.left sound
      (by rw [content]; exact less) small, content]
  obtain ⟨next, delivered, after, events, unread, holding'⟩ := drained_step own enough holding
    (Or.inl discarding.unread) received rfl drains
  refine ⟨next, delivered, ?_, ?_, events, unread, holding'⟩
  · rw [after]
    exact discarding.flag
  · rw [after]

theorem discard_exact (all : (input.readableContent.length : Int) = left) :
    ∃ next exception, handler.messageReceived decode config fuel (.buffer input) = .ok next ∧
      exception.cls = .tooLongFrame ∧
      Discarding config.bufferFactory 0 (fired ++ [.exceptionCaught exception]) next := by
  obtain ⟨total, holding⟩ := discarding.holding
  have drains : ∀ buffer : ChannelBuffer, buffer.Sound → buffer.order = config.bufferFactory →
      buffer.readableContent = handler.decoder.unread ++ input.readableContent →
      decode.run ⟨handler.decoder.fields, buffer, handler.fired⟩ = .ok .empty
        ⟨finished handler.decoder.fields, buffer.advance buffer.readableContent.length,
          fired ++ [.exceptionCaught (report handler.decoder.fields)]⟩ := by
    intro buffer sound _ content
    rw [discarding.unread, List.nil_append] at content
    rw [discarding.fired]
    apply decode_discards_all _ discarding.flag _ sound (Nat.le_refl _)
    rw [discarding.left, content, all]
  obtain ⟨next, delivered, after, events, unread, holding'⟩ := drained_step own enough holding
    (Or.inl discarding.unread) received rfl drains
  refine ⟨next, _, delivered, report_cls _, ?_, ?_, events, unread, holding'⟩
  · rw [after, finished_flag]
    exact discarding.flag
  · rw [after, finished_left]

end

/-- With nothing left to discard every round reports once more. -/
theorem round_reports (unfold_ : Bool) (fuel : Nat) (fired : List UpstreamEvent)
    (flag : fields.discardingTooLongFrame = true) (none_left : fields.bytesToDiscard = 0)
    (sound : buffer.Sound) (present : buffer.readableContent ≠ []) :
    (callDecode decode unfold_ false (fuel + 1)).run ⟨fields, buffer, fired⟩ = .ok ()
      ⟨finished fields, buffer, fired ++ [.exceptionCaught (report fields)]⟩ := by
  have remaining : fields.bytesToDiscard = (0 : Nat) := none_left
  have decoded := decode_discards_all fired flag remaining sound (Nat.zero_le _)
  have readable : buffer.readable = true := sound.readable_iff.mpr present
  rw [advance_zero] at decoded
  exact callDecode_waits readable decoded rfl

/-- More than the discarded bytes have arrived: a second report was fired, or the
bytes are kept and the next delivery fires it. -/
def Overrun (factory : ByteOrder) (handler : Handler LengthFieldBasedFrameDecoder) : Prop :=
  2 ≤ handler.fired.length ∨
    handler.fired.length = 1 ∧ handler.decoder.unread ≠ [] ∧
      handler.decoder.fields.discardingTooLongFrame = true ∧
      handler.decoder.fields.bytesToDiscard = 0 ∧
      ∃ received, handler.decoder.Holding factory received

section

variable (own : config.channelOwnBuffer = false)

include own

theorem zero_fires (enough : 0 < fuel)
    (flag : handler.decoder.fields.discardingTooLongFrame = true)
    (none_left : handler.decoder.fields.bytesToDiscard = 0) {total : Nat}
    (holding : handler.decoder.Holding config.bufferFactory total)
    (received : Received config input)
    (delivered : handler.messageReceived decode config fuel (.buffer input) = .ok next) :
    handler.fired.length < next.fired.length := by
  obtain ⟨fuel, rfl⟩ : ∃ less, fuel = less + 1 := ⟨fuel - 1, by omega⟩
  by_cases admits : handler.Admits input
  · obtain ⟨buffer, loop, delivers⟩ := Handler.delivery decode (fuel + 1) own received.sound
      received.present holding admits
    have present : buffer.readableContent ≠ [] := by
      rw [loop.content]
      exact List.append_ne_nil_of_right_ne_nil _ received.present
    have looped := round_reports handler.decoder.unfold_ fuel handler.fired flag none_left
      loop.sound present
    rcases delivers.follows next delivered with ⟨after, ran, front⟩ | ⟨stop, after, ran, front⟩
    · rw [looped] at ran
      cases ran
      have size := front.length_le
      rw [List.length_append, List.length_singleton] at size
      omega
    · rw [looped] at ran
      cases ran
  · rcases Handler.delivery_refused decode (fuel + 1) own received.sound received.present holding
      admits with ⟨stop, failed⟩ | ⟨decoder, reported⟩
    · rw [failed] at delivered
      cases delivered
    · rw [reported] at delivered
      cases delivered
      rw [List.length_append, List.length_singleton]
      omega

theorem overrun_step (enough : 0 < fuel)
    (overrun : Overrun config.bufferFactory handler) (received : Received config input)
    (delivered : handler.messageReceived decode config fuel (.buffer input) = .ok next) :
    2 ≤ next.fired.length := by
  rcases overrun with two | ⟨one, -, flag, none_left, total, holding⟩
  · have single : handler.receiveAll decode config fuel [input] = .ok next := by
      rw [Handler.receiveAll_cons delivered]
      rfl
    have front := Handler.fired_stays decode_appends [input] single
    exact Nat.le_trans two front.length_le
  · have more := zero_fires own enough flag none_left holding received delivered
    omega

theorem discard_beyond (enough : 2 ≤ fuel)
    (discarding : Discarding config.bufferFactory left [] handler) (nonneg : 0 ≤ left)
    (received : Received config input) (beyond : left < input.readableContent.length)
    (delivered : handler.messageReceived decode config fuel (.buffer input) = .ok next) :
    Overrun config.bufferFactory next := by
  obtain ⟨count, rfl⟩ : ∃ count : Nat, left = count := ⟨left.toNat, by omega⟩
  obtain ⟨fuel, rfl⟩ : ∃ less, fuel = less + 2 := ⟨fuel - 2, by omega⟩
  obtain ⟨total, holding⟩ := discarding.holding
  have delivers := Handler.delivers_direct decode (fuel + 2) own received.sound
    received.present holding discarding.unread
  have sound := received.sound
  have readable : input.readable = true := sound.readable_iff.mpr received.present
  by_cases blank : count = 0
  · subst blank
    have looped := round_reports handler.decoder.unfold_ (fuel + 1) handler.fired
      discarding.flag discarding.left sound received.present
    by_cases stores : handler.Stores input.readableContent
    · right
      obtain ⟨decoder', kept, fields, -, holding', unread⟩ :=
        delivers.keeps _ looped (repositioned_self sound) stores
      rw [kept] at delivered
      cases delivered
      refine ⟨?_, ?_, ?_, ?_, _, holding'⟩
      · rw [discarding.fired]
        rfl
      · rw [unread]
        exact received.present
      · rw [fields, finished_flag]
        exact discarding.flag
      · rw [fields, finished_left]
    · left
      rcases delivers.refuses _ looped (repositioned_self sound) stores with
        ⟨stop, failed⟩ | ⟨decoder, reported⟩
      · rw [failed] at delivered
        cases delivered
      · rw [reported] at delivered
        cases delivered
        rw [List.length_append, List.length_append, List.length_singleton, List.length_singleton]
        omega
  · left
    have within : count ≤ input.readableContent.length := by omega
    have decoded := decode_discards_all handler.fired discarding.flag discarding.left
      sound within
    have progress : input.readerIdx ≠ (input.advance count).readerIdx := by
      rw [readerIdx_advance]
      omega
    have rest : (input.advance count).readableContent ≠ [] := by
      rw [sound.readable_advance, ← List.length_pos_iff, List.length_drop]
      omega
    have flag : (finished handler.decoder.fields).discardingTooLongFrame = true :=
      discarding.flag
    have again := round_reports handler.decoder.unfold_ fuel
      (handler.fired ++ [.exceptionCaught (report handler.decoder.fields)]) flag rfl
      (sound.advance within) rest
    have goes_on : (callDecode decode handler.decoder.unfold_ false (fuel + 1 + 1)).run
        ⟨handler.decoder.fields, input, handler.fired⟩ =
        (callDecode decode handler.decoder.unfold_ false (fuel + 1)).run
          ⟨finished handler.decoder.fields, input.advance count,
            handler.fired ++ [.exceptionCaught (report handler.decoder.fields)]⟩ :=
      callDecode_continues readable decoded progress
    have looped := goes_on.trans again
    rcases delivers.follows next delivered with ⟨after, ran, front⟩ | ⟨stop, after, ran, front⟩
    · rw [looped] at ran
      cases ran
      have size := front.length_le
      rw [List.length_append, List.length_append, List.length_singleton,
        List.length_singleton] at size
      omega
    · rw [looped] at ran
      cases ran

end

end Discarding

end Waiting

end LengthFieldBasedFrameDecoder

end Cetty
