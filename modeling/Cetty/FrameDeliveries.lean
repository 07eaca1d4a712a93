import Cetty.FrameReception

/-!
# Frames in deliveries of any size

A subclass that waits for the rest of a frame and takes a whole one off the front of the buffer
fires the frames of a stream one by one, however the stream is cut, as long as the cumulation has
room for what is kept between two deliveries. It is moved to its front only when something is kept.
-/

namespace Cetty

open MachineInt ByteWindow ChannelBuffer

namespace FrameDeliveries

variable {Fields : Type}

/-- What `decode` does with the bytes of one frame at the front of the buffer. -/
structure Decodes (decode : DecodeM Fields ChannelMessage) (fields : Fields) (factory : ByteOrder)
    (payload : List Byte → List Byte) (frame : List Byte) : Prop where
  present : 0 < frame.length
  waits : ∀ (buffer : ChannelBuffer) (fired : List UpstreamEvent), buffer.Sound →
    buffer.order = factory → buffer.readableContent <+: frame →
    buffer.readableContent.length < frame.length →
    decode.run ⟨fields, buffer, fired⟩ = .ok .empty ⟨fields, buffer, fired⟩
  takes : ∀ (buffer : ChannelBuffer) (fired : List UpstreamEvent), buffer.Sound →
    buffer.order = factory → frame <+: buffer.readableContent →
    ∃ taken, decode.run ⟨fields, buffer, fired⟩ =
        .ok (.buffer taken) ⟨fields, buffer.advance frame.length, fired⟩ ∧
      taken.readableContent = payload frame

/-- The frames that `count` bytes do not complete, and the bytes behind the complete ones. -/
def settle : List (List Byte) → Nat → List (List Byte) × Nat
  | [], count => ([], count)
  | frame :: rest, count =>
      if frame.length ≤ count then settle rest (count - frame.length) else (frame :: rest, count)

theorem settle_again (frames : List (List Byte)) (count : Nat) :
    settle (settle frames count).1 (settle frames count).2 = settle frames count := by
  induction frames generalizing count with
  | nil => rfl
  | cons frame rest ih =>
      by_cases enough : frame.length ≤ count
      · rw [settle, if_pos enough]
        exact ih _
      · have left : settle (frame :: rest) count = (frame :: rest, count) := by
          rw [settle, if_neg enough]
        rw [left]
        exact left

theorem settle_all (frames : List (List Byte)) :
    settle frames frames.flatten.length = ([], 0) := by
  induction frames with
  | nil => rfl
  | cons frame rest ih =>
      rw [settle, List.flatten_cons, List.length_append, if_pos (Nat.le_add_right _ _),
        Nat.add_sub_cancel_left]
      exact ih

/-- Whether a delivery of `count` bytes, `after` of which stay unread, fits: behind kept bytes
the whole input is written at once, else only what the loop leaves, behind everything before. -/
def Room (kept filled count after : Nat) : Prop :=
  if kept = 0 then after = 0 ∨ filled + after ≤ 1073741824 else kept + count ≤ 1073741824

/-- Where the cumulation's writer is afterwards. -/
def fill (kept filled count after : Nat) : Nat :=
  if kept = 0 then filled + after else kept + count

/-- Every delivery of a run fits, `frames` being what is still to come. -/
def Rooms : List (List Byte) → Nat → Nat → List Nat → Prop
  | _, _, _, [] => True
  | frames, kept, filled, count :: rest =>
      Room kept filled count (settle frames (kept + count)).2 ∧
        Rooms (settle frames (kept + count)).1 (settle frames (kept + count)).2
          (fill kept filled count (settle frames (kept + count)).2) rest

instance (kept filled count after : Nat) : Decidable (Room kept filled count after) :=
  inferInstanceAs (Decidable (if kept = 0 then _ else _))

instance decidableRooms : ∀ (frames : List (List Byte)) (kept filled : Nat) (counts : List Nat),
    Decidable (Rooms frames kept filled counts)
  | _, _, _, [] => isTrue trivial
  | frames, kept, filled, count :: rest =>
      have := decidableRooms (settle frames (kept + count)).1 (settle frames (kept + count)).2
        (fill kept filled count (settle frames (kept + count)).2) rest
      inferInstanceAs (Decidable (_ ∧ _))

section Loop

variable {decode : DecodeM Fields ChannelMessage} {fields : Fields} {factory : ByteOrder}
  {payload : List Byte → List Byte} {frame : List Byte} {rest : List (List Byte)}
  {fuel : Nat} {buffer : ChannelBuffer}

theorem order_advance (buffer : ChannelBuffer) (count : Nat) :
    (buffer.advance count).order = buffer.order := by
  unfold order
  unfold ChannelBuffer.advance
  rw [getters_withIdx]

theorem settle_whole (rest : List (List Byte)) {frame : List Byte} {count : Nat}
    (complete : frame.length ≤ count) :
    settle (frame :: rest) count = settle rest (count - frame.length) := by
  rw [settle, if_pos complete]

theorem settle_part (rest : List (List Byte)) {frame : List Byte} {count : Nat}
    (short : count < frame.length) : settle (frame :: rest) count = (frame :: rest, count) := by
  rw [settle, if_neg (Nat.not_le.mpr short)]

/-- A round on the bytes of an incomplete frame is the last one. -/
theorem callDecode_stays (unfold_ : Bool) (fuel : Nat) (fired : List UpstreamEvent)
    (decodes : Decodes decode fields factory payload frame) (sound : buffer.Sound)
    (ordered : buffer.order = factory) (part : buffer.readableContent <+: frame)
    (short : buffer.readableContent.length < frame.length) :
    (callDecode decode unfold_ false (fuel + 1)).run ⟨fields, buffer, fired⟩ =
      .ok () ⟨fields, buffer, fired⟩ := by
  have decoded := decodes.waits buffer fired sound ordered part short
  cases readable : buffer.readable with
  | false => exact callDecode_unreadable readable
  | true => exact callDecode_waits readable decoded rfl

/-- A round on a whole frame fires it and goes on behind it. -/
theorem callDecode_round (unfold_ : Bool) (fuel : Nat) (fired : List UpstreamEvent)
    (decodes : Decodes decode fields factory payload frame) (sound : buffer.Sound)
    (ordered : buffer.order = factory) (leads : frame <+: buffer.readableContent) :
    ∃ taken, taken.readableContent = payload frame ∧
      (callDecode decode unfold_ false (fuel + 1)).run ⟨fields, buffer, fired⟩ =
        (callDecode decode unfold_ false fuel).run ⟨fields, buffer.advance frame.length,
          fired ++ [.messageReceived (.buffer taken)]⟩ := by
  have positive := decodes.present
  have complete := leads.length_le
  have readable : buffer.readable = true :=
    sound.readable_iff.mpr (List.ne_nil_of_length_pos (by omega))
  have moved : buffer.readerIdx ≠ (buffer.advance frame.length).readerIdx := by
    rw [readerIdx_advance]
    omega
  obtain ⟨taken, decoded, shown⟩ := decodes.takes buffer fired sound ordered leads
  let before : DecodeContext Fields := ⟨fields, buffer, fired⟩
  let after : DecodeContext Fields := ⟨fields, buffer.advance frame.length, fired⟩
  exact ⟨taken, shown, @callDecode_fires Fields decode unfold_ false fuel before after taken
    readable decoded moved⟩

/-- What the loop does with the bytes at the front of `frames`: the complete frames are fired,
and the reader stops in front of the first incomplete one. -/
structure Takes (decode : DecodeM Fields ChannelMessage) (unfold_ : Bool) (fuel : Nat)
    (fields : Fields) (payload : List Byte → List Byte) (frames : List (List Byte))
    (buffer : ChannelBuffer) (fired : List UpstreamEvent) (done : List (List Byte))
    (events : List UpstreamEvent) : Prop where
  whole : frames = done ++ (settle frames buffer.readableContent.length).1
  size : buffer.readableContent.length =
    done.flatten.length + (settle frames buffer.readableContent.length).2
  ran : (callDecode decode unfold_ false fuel).run ⟨fields, buffer, fired⟩ =
    .ok () ⟨fields, buffer.advance done.flatten.length, fired ++ events⟩
  shown : events.map UpstreamEvent.frameBytes = (done.map payload).map some

variable {frames : List (List Byte)}

theorem takes_nothing {unfold_ : Bool} {fuel : Nat}
    {fired : List UpstreamEvent}
    (settled : settle frames buffer.readableContent.length =
      (frames, buffer.readableContent.length))
    (ran : (callDecode decode unfold_ false fuel).run ⟨fields, buffer, fired⟩ =
      .ok () ⟨fields, buffer, fired⟩) :
    Takes decode unfold_ fuel fields payload frames buffer fired [] [] := by
  constructor
  · rw [settled]
    rfl
  · rw [settled]
    exact (Nat.zero_add _).symm
  · rw [List.flatten_nil, List.length_nil, advance_zero, List.append_nil]
    exact ran
  · rfl

/-- The loop fires the complete frames and stops in front of the first incomplete one. -/
theorem callDecode_takes (unfold_ : Bool) (fuel : Nat)
    (fired : List UpstreamEvent)
    (decodes : ∀ frame ∈ frames, Decodes decode fields factory payload frame)
    (sound : buffer.Sound) (ordered : buffer.order = factory)
    (front : buffer.readableContent <+: frames.flatten)
    (enough : buffer.readableContent.length ≤ fuel) :
    ∃ done events,
      Takes decode unfold_ (fuel + 1) fields payload frames buffer fired done events := by
  induction frames generalizing fuel buffer fired with
  | nil =>
      have nothing : buffer.readableContent = [] := List.prefix_nil.mp front
      have unreadable : buffer.readable = false := sound.readable_eq_false_iff.mpr nothing
      exact ⟨[], [], takes_nothing rfl (callDecode_unreadable unreadable)⟩
  | cons frame rest ih =>
      have here := decodes frame List.mem_cons_self
      rw [List.flatten_cons] at front
      by_cases complete : frame.length ≤ buffer.readableContent.length
      · have leads : frame <+: buffer.readableContent :=
          List.prefix_of_prefix_length_le (List.prefix_append _ _) front complete
        have positive := here.present
        obtain ⟨fuel, rfl⟩ : ∃ less, fuel = less + 1 := ⟨fuel - 1, by omega⟩
        obtain ⟨taken, shown, round⟩ :=
          callDecode_round unfold_ (fuel + 1) fired here sound ordered leads
        have behind : (buffer.advance frame.length).readableContent <+: rest.flatten := by
          obtain ⟨more, split⟩ := leads
          rw [sound.readable_advance, ← split, List.drop_left]
          rw [← split] at front
          exact (List.prefix_append_right_inj frame).mp front
        have left : (buffer.advance frame.length).readableContent.length =
            buffer.readableContent.length - frame.length := by
          rw [sound.readable_advance, List.length_drop]
        obtain ⟨done, events, takes⟩ := ih fuel (fired ++ [.messageReceived (.buffer taken)])
          (fun other among => decodes other (List.mem_cons_of_mem _ among))
          (sound.advance complete) ((order_advance _ _).trans ordered) behind (by omega)
        have whole := takes.whole
        have size := takes.size
        rw [left] at whole size
        refine ⟨frame :: done, .messageReceived (.buffer taken) :: events, ?_, ?_, ?_, ?_⟩
        · rw [settle_whole rest complete, List.cons_append, ← whole]
        · rw [settle_whole rest complete, List.flatten_cons, List.length_append]
          omega
        · rw [round, takes.ran, advance_advance, List.flatten_cons, List.length_append,
            List.append_assoc]
          rfl
        · rw [List.map_cons, List.map_cons, List.map_cons, takes.shown]
          exact congrArg (fun bytes => some bytes :: _) shown
      · have short : buffer.readableContent.length < frame.length := Nat.not_le.mp complete
        have part : buffer.readableContent <+: frame :=
          List.prefix_of_prefix_length_le front (List.prefix_append _ _) (Nat.le_of_lt short)
        exact ⟨[], [], takes_nothing (settle_part rest short)
          (callDecode_stays unfold_ fuel fired here sound ordered part short)⟩

end Loop

section Delivery

variable {decode : DecodeM Fields ChannelMessage} {config : ChannelConfig} {fuel received : Nat}
  {handler : Handler Fields} {input : ChannelBuffer}

/-- A delivery that keeps what the loop leaves, with the cumulation's writer known exactly. -/
structure Settles (decode : DecodeM Fields ChannelMessage) (config : ChannelConfig)
    (fuel received : Nat) (handler : Handler Fields) (input : ChannelBuffer)
    (after : DecodeContext Fields) (next : FrameDecoder Fields) : Prop where
  delivered : handler.messageReceived decode config fuel (.buffer input) =
    .ok ⟨next, after.fired⟩
  fields : next.fields = after.fields
  holding : next.Holding config.bufferFactory (received + input.readableContent.length)
  unread : next.unread = after.buffer.readableContent
  filled : next.filled =
    if handler.decoder.unread = [] then
      handler.decoder.filled + after.buffer.readableContent.length
    else (handler.decoder.unread.length : Int) + input.readableContent.length

/-- A loop that ran on the input leaves its rest behind everything the cumulation has seen. -/
theorem filled_direct {after : DecodeContext Fields} {next : FrameDecoder Fields}
    {events : List UpstreamEvent} (own : config.channelOwnBuffer = false) (sound : input.Sound)
    (present : input.readableContent ≠ [])
    (holding : handler.decoder.Holding config.bufferFactory received)
    (empty : handler.decoder.unread = []) (rest : after.buffer.Sound)
    (looped : (callDecode decode handler.decoder.unfold_ false fuel).run
      ⟨handler.decoder.fields, input, handler.fired⟩ = .ok () after)
    (stores : handler.Stores after.buffer.readableContent)
    (delivered : handler.messageReceived decode config fuel (.buffer input) =
      .ok ⟨next, events⟩) :
    next.filled = handler.decoder.filled + after.buffer.readableContent.length := by
  obtain ⟨cumulation, growing, written, nothing, ran⟩ :=
    FrameDecoder.receiveBuffer_direct decode fuel handler.fired own sound present holding empty
  have received_run := FrameDecoder.receiveBuffer_stash after ran looped
  by_cases left : after.buffer.readableContent = []
  · have drained : after.buffer.readable = false := rest.readable_eq_false_iff.mpr left
    rw [drained, if_neg Bool.false_ne_true] at received_run
    rw [Handler.messageReceived_ok received_run] at delivered
    cases delivered
    rw [FrameDecoder.filled_of_kept rfl, left]
    exact written.trans (Int.add_zero _).symm
  · have remains : after.buffer.readable = true := rest.readable_iff.mpr left
    have room : cumulation.writerIdx + after.buffer.readableContent.length ≤ 1073741824 := by
      rw [written]
      rcases stores with kept | blank | room
      · exact absurd empty kept
      · exact absurd blank left
      · exact room
    obtain ⟨stored, wrote, -, -, -, writer⟩ := FrameDecoder.cumulate_run
      { handler.decoder.cumulating with fields := after.fields, cumulation := some cumulation }
      after.fired rfl growing rest left room
    rw [remains, if_pos rfl, wrote] at received_run
    rw [Handler.messageReceived_ok received_run] at delivered
    cases delivered
    rw [FrameDecoder.filled_of_kept rfl, writer, written]

/-- A loop that ran behind the kept bytes leaves the writer where it was. -/
theorem settles_behind {stored drained : ChannelBuffer} {after : DecodeContext Fields}
    (holding : handler.decoder.Holding config.bufferFactory received)
    (kept : handler.decoder.unread ≠ []) (growing : stored.IsDynamic config.bufferFactory)
    (writer : stored.writerIdx =
      (handler.decoder.unread.length : Int) + input.readableContent.length)
    (ran : (FrameDecoder.receiveBuffer decode config fuel).run
        ⟨handler.decoder, input, handler.fired⟩ =
      (FrameDecoder.onCumulation (callDecode decode handler.decoder.unfold_ false fuel)).run
        ⟨{ handler.decoder.cumulating with cumulation := some stored }, drained, handler.fired⟩)
    (looped : (callDecode decode handler.decoder.unfold_ false fuel).run
      ⟨handler.decoder.fields, stored, handler.fired⟩ = .ok () after)
    (moved : stored.Repositioned after.buffer)
    (stays : after.buffer.writerIdx = stored.writerIdx) :
    ∃ next, Settles decode config fuel received handler input after next := by
  have received_run := ran.trans (FrameDecoder.onCumulation_ok rfl looped)
  have unread := holding.unread_le
  refine ⟨_, Handler.messageReceived_ok received_run, rfl, ?_, rfl, ?_⟩
  · exact FrameDecoder.holding_of_kept rfl (growing.repositioned moved) (by omega)
  · rw [FrameDecoder.filled_of_kept rfl, if_neg kept, stays, writer]

/-- Both paths of a delivery whose loop reads some of the buffer. -/
theorem delivery_settles (decode : DecodeM Fields ChannelMessage) (fuel : Nat)
    (own : config.channelOwnBuffer = false) (sound : input.Sound)
    (present : input.readableContent ≠ [])
    (holding : handler.decoder.Holding config.bufferFactory received)
    (admits : handler.Admits input) :
    ∃ buffer, Handler.LoopBuffer config handler input buffer ∧
      ∀ (after : DecodeContext Fields) (count : Nat),
        (callDecode decode handler.decoder.unfold_ false fuel).run
          ⟨handler.decoder.fields, buffer, handler.fired⟩ = .ok () after →
        after.buffer = buffer.advance count → count ≤ buffer.readableContent.length →
        (handler.Stores after.buffer.readableContent →
          ∃ next, Settles decode config fuel received handler input after next) ∧
        (¬handler.Stores after.buffer.readableContent →
          Handler.Refused decode config fuel handler input after.fired) := by
  by_cases empty : handler.decoder.unread = []
  · have delivers := Handler.delivers_direct decode fuel own sound present holding empty
    refine ⟨input, ⟨sound, ?_, Or.inl ⟨empty, rfl⟩⟩, ?_⟩
    · rw [empty, List.nil_append]
    intro after count looped stands bounded
    have moved : input.Repositioned after.buffer := by
      rw [stands]
      exact sound.advance_repositioned bounded
    refine ⟨?_, delivers.refuses after looped moved⟩
    intro stores
    obtain ⟨next, delivered, fields, -, holding', unread⟩ :=
      delivers.keeps after looped moved stores
    refine ⟨next, delivered, fields, holding', unread, ?_⟩
    rw [if_pos empty]
    exact filled_direct own sound present holding empty (sound.repositioned moved) looped stores
      delivered
  · have room := admits.resolve_left empty
    obtain ⟨stored, drained, loop, growing, writer, ran⟩ :=
      Handler.receiveBuffer_behind decode fuel own sound present holding empty room
    refine ⟨stored, loop, ?_⟩
    intro after count looped stands bounded
    have moved : stored.Repositioned after.buffer := by
      rw [stands]
      exact loop.sound.advance_repositioned bounded
    have stays : after.buffer.writerIdx = stored.writerIdx := by
      rw [stands, writerIdx_advance]
    refine ⟨?_, ?_⟩
    · intro _
      exact settles_behind holding empty growing writer ran looped moved stays
    · intro full
      exact absurd (Or.inl empty) full

end Delivery

section Runs

variable {decode : DecodeM Fields ChannelMessage} {config : ChannelConfig} {fuel : Nat}
  {handler : Handler Fields} {input : ChannelBuffer} {fields : Fields}
  {payload : List Byte → List Byte} {done left : List (List Byte)} {kept filled : Nat}

/-- A decoder between two deliveries: `done` is fired, and the bytes at the front of `left` that
have arrived are kept. -/
structure Midway (factory : ByteOrder) (fields : Fields) (payload : List Byte → List Byte)
    (done left : List (List Byte)) (kept filled : Nat) (handler : Handler Fields) : Prop where
  fields : handler.decoder.fields = fields
  holding : ∃ received, handler.decoder.Holding factory received
  unread : handler.decoder.unread.length = kept
  settled : settle left kept = (left, kept)
  filled : handler.decoder.filled = filled
  fired : handler.fired.map UpstreamEvent.frameBytes = (done.map payload).map some

theorem unread_nil_iff (midway : Midway config.bufferFactory fields payload done left kept filled
    handler) : handler.decoder.unread = [] ↔ kept = 0 := by
  rw [← midway.unread, List.length_eq_zero_iff]

theorem admits_of_room {after : Nat}
    (midway : Midway config.bufferFactory fields payload done left kept filled handler)
    (room : Room kept filled input.readableContent.length after) : handler.Admits input := by
  unfold Handler.Admits
  rw [unread_nil_iff midway, midway.unread]
  unfold Room at room
  split at room
  · left
    assumption
  · right
    exact room

/-- With the input admitted, the room asked for is the room of what the loop leaves. -/
theorem stores_iff {more : List Byte} (admits : handler.Admits input)
    (midway : Midway config.bufferFactory fields payload done left kept filled handler) :
    handler.Stores more ↔ Room kept filled input.readableContent.length more.length := by
  unfold Handler.Admits at admits
  rw [unread_nil_iff midway, midway.unread] at admits
  unfold Handler.Stores Room
  rw [Ne, unread_nil_iff midway, midway.filled, ← List.length_eq_zero_iff]
  split <;> omega

/-- One delivery: with room the complete frames are fired and the rest is kept. -/
theorem midway_step (own : config.channelOwnBuffer = false)
    (midway : Midway config.bufferFactory fields payload done left kept filled handler)
    (decodes : ∀ frame ∈ left, Decodes decode fields config.bufferFactory payload frame)
    (sound : input.Sound) (present : input.readableContent ≠ [])
    (ordered : input.order = config.bufferFactory)
    (front : handler.decoder.unread ++ input.readableContent <+: left.flatten)
    (enough : kept + input.readableContent.length < fuel) :
    (Room kept filled input.readableContent.length
        (settle left (kept + input.readableContent.length)).2 →
      ∃ next fresh, handler.messageReceived decode config fuel (.buffer input) = .ok next ∧
        left = fresh ++ (settle left (kept + input.readableContent.length)).1 ∧
        next.decoder.unread =
          (handler.decoder.unread ++ input.readableContent).drop fresh.flatten.length ∧
        fresh.flatten.length ≤ (handler.decoder.unread ++ input.readableContent).length ∧
        Midway config.bufferFactory fields payload (done ++ fresh)
          (settle left (kept + input.readableContent.length)).1
          (settle left (kept + input.readableContent.length)).2
          (fill kept filled input.readableContent.length
            (settle left (kept + input.readableContent.length)).2) next) ∧
    (¬Room kept filled input.readableContent.length
        (settle left (kept + input.readableContent.length)).2 →
      ∃ events, Handler.Refused decode config fuel handler input events) := by
  obtain ⟨total, holding⟩ := midway.holding
  obtain ⟨fuel, rfl⟩ : ∃ less, fuel = less + 1 := ⟨fuel - 1, by omega⟩
  by_cases admits : handler.Admits input
  · obtain ⟨buffer, loop, settles⟩ :=
      delivery_settles decode (fuel + 1) own sound present holding admits
    have content := loop.content
    have size : buffer.readableContent.length = kept + input.readableContent.length := by
      rw [content, List.length_append, midway.unread]
    have same : buffer.order = config.bufferFactory := by
      rcases loop.place with ⟨_, rfl⟩ | ⟨_, growing, _⟩
      · exact ordered
      · obtain ⟨heap, idx, rfl, _⟩ := growing
        simp only [order, getters]
    obtain ⟨fresh, events, takes⟩ := callDecode_takes handler.decoder.unfold_ fuel handler.fired
      decodes loop.sound same (by rw [content]; exact front) (by omega)
    have whole := takes.whole
    have total_size := takes.size
    have ran := takes.ran
    rw [← midway.fields] at ran
    rw [size] at whole total_size
    have bounded : fresh.flatten.length ≤ buffer.readableContent.length := by omega
    have rest : (buffer.advance fresh.flatten.length).readableContent =
        (handler.decoder.unread ++ input.readableContent).drop fresh.flatten.length := by
      rw [loop.sound.readable_advance, content]
    have behind : (buffer.advance fresh.flatten.length).readableContent.length =
        (settle left (kept + input.readableContent.length)).2 := by
      rw [loop.sound.readable_advance, List.length_drop]
      omega
    obtain ⟨keeps, refuses⟩ := settles _ fresh.flatten.length ran rfl bounded
    rw [stores_iff admits midway, behind] at keeps refuses
    refine ⟨?_, fun full => ⟨_, refuses full⟩⟩
    intro room
    obtain ⟨next, settled⟩ := keeps room
    refine ⟨_, fresh, settled.delivered, whole, settled.unread.trans rest, ?_, ?_⟩
    · rw [← content]
      exact bounded
    constructor
    · exact settled.fields.trans midway.fields
    · exact ⟨_, settled.holding⟩
    · rw [settled.unread]
      exact behind
    · exact settle_again _ _
    · rw [settled.filled]
      simp only [unread_nil_iff midway, behind, midway.filled, midway.unread]
      unfold fill
      split <;> push_cast <;> rfl
    · rw [List.map_append, midway.fired, takes.shown, List.map_append, List.map_append]
  · refine ⟨?_, ?_⟩
    · intro room
      exact absurd (admits_of_room midway room) admits
    · intro _
      exact ⟨_, Handler.delivery_refused decode (fuel + 1) own sound present holding admits⟩

/-- After a refusal an exception stays among the events, or the run has ended. -/
theorem refused_ends {final : Handler Fields} {events : List UpstreamEvent}
    {rest : List ChannelBuffer} (wanted : List (List Byte)) (appends : Handler.Appends decode)
    (refused : Handler.Refused decode config fuel handler input events)
    (ran : handler.receiveAll decode config fuel (input :: rest) = .ok final) :
    final.fired.map UpstreamEvent.frameBytes ≠ wanted.map some := by
  intro shown
  obtain ⟨next, step, later⟩ := Handler.receiveAll_step ran
  rcases refused with ⟨stop, failed⟩ | ⟨decoder, raised⟩
  · rw [failed] at step
    cases step
  · rw [raised] at step
    cases step
    have front := Handler.fired_stays appends rest later
    have among : UpstreamEvent.exceptionCaught ⟨.range, ""⟩ ∈ final.fired := by
      apply front.subset
      exact List.mem_append_right _ List.mem_cons_self
    have unshown : (none : Option (List Byte)) ∈ wanted.map some := by
      rw [← shown]
      exact List.mem_map.mpr ⟨_, among, rfl⟩
    obtain ⟨frame, _, absent⟩ := List.mem_map.mp unshown
    cases absent

/-- From any decoder between two deliveries, the frames come out, and nothing else does, if and
only if every delivery has room. -/
theorem receiveAll_iff {received : List ChannelBuffer} (wanted : List (List Byte))
    (appends : Handler.Appends decode) (own : config.channelOwnBuffer = false)
    (midway : Midway config.bufferFactory fields payload done left kept filled handler)
    (decodes : ∀ frame ∈ left, Decodes decode fields config.bufferFactory payload frame)
    (arrives : ∀ input ∈ received, input.Sound ∧ input.readableContent ≠ [] ∧
      input.order = config.bufferFactory)
    (cut : handler.decoder.unread ++ (received.map readableContent).flatten = left.flatten)
    (enough : left.flatten.length < fuel) :
    (∃ final, handler.receiveAll decode config fuel received = .ok final ∧
        final.fired.map UpstreamEvent.frameBytes = wanted.map some) ↔
      (done ++ left).map payload = wanted ∧
        Rooms left kept filled (received.map fun input => input.readableContent.length) := by
  induction received generalizing handler done left kept filled with
  | nil =>
      rw [List.map_nil, List.flatten_nil, List.append_nil] at cut
      have all : kept = left.flatten.length := by
        rw [← midway.unread, cut]
      have settled := midway.settled
      rw [all, settle_all] at settled
      have nothing : left = [] := (congrArg Prod.fst settled).symm
      have injective : Function.Injective (List.map (some : List Byte → Option (List Byte))) :=
        List.map_injective_iff.mpr fun _ _ same => Option.some.inj same
      rw [nothing, List.append_nil]
      constructor
      · intro run
        obtain ⟨final, ran, shown⟩ := run
        cases ran
        exact ⟨injective (midway.fired.symm.trans shown), trivial⟩
      · intro held
        refine ⟨handler, rfl, ?_⟩
        rw [midway.fired, held.1]
  | cons input rest ih =>
      obtain ⟨sound, present, ordered⟩ := arrives input List.mem_cons_self
      rw [List.map_cons, List.flatten_cons, ← List.append_assoc] at cut
      have total := congrArg List.length cut
      rw [List.length_append, List.length_append, midway.unread] at total
      have inside : kept + input.readableContent.length < fuel := by omega
      obtain ⟨keeps, refuses⟩ :=
        midway_step own midway decodes sound present ordered ⟨_, cut⟩ inside
      rw [List.map_cons, Rooms]
      by_cases room : Room kept filled input.readableContent.length
          (settle left (kept + input.readableContent.length)).2
      · obtain ⟨next, fresh, delivered, whole, unread, bounded, midway'⟩ := keeps room
        have behind : next.decoder.unread ++ (rest.map readableContent).flatten =
            (settle left (kept + input.readableContent.length)).1.flatten := by
          rw [unread, ← List.drop_append_of_le_length bounded, cut]
          nth_rewrite 1 [whole]
          rw [List.flatten_append, List.drop_left]
        have shorter : (settle left (kept + input.readableContent.length)).1.flatten.length ≤
            left.flatten.length := by
          nth_rewrite 2 [whole]
          rw [List.flatten_append, List.length_append]
          exact Nat.le_add_left _ _
        have later := ih midway' (fun frame among => decodes frame (by
            rw [whole]
            exact List.mem_append_right _ among))
          (fun other among => arrives other (List.mem_cons_of_mem _ among)) behind
          (by omega)
        rw [List.append_assoc, ← whole] at later
        rw [Handler.receiveAll_cons delivered, later]
        exact and_congr_right fun _ => ⟨fun rooms => ⟨room, rooms⟩, And.right⟩
      · refine ⟨?_, fun held => absurd held.2.1 room⟩
        intro run
        obtain ⟨final, ran, shown⟩ := run
        obtain ⟨events, refused⟩ := refuses room
        exact absurd shown (refused_ends wanted appends refused ran)

/-- The same from a decoder that holds no bytes and has fired nothing yet. -/
theorem deliveries_iff {frames : List (List Byte)} {received : List ChannelBuffer} {total : Nat}
    (wanted : List (List Byte)) (appends : Handler.Appends decode)
    (own : config.channelOwnBuffer = false) (start : handler.decoder.fields = fields)
    (nothing : handler.decoder.unread = [])
    (holding : handler.decoder.Holding config.bufferFactory total) (unfired : handler.fired = [])
    (decodes : ∀ frame ∈ frames, Decodes decode fields config.bufferFactory payload frame)
    (arrives : ∀ input ∈ received, input.Sound ∧ input.readableContent ≠ [] ∧
      input.order = config.bufferFactory)
    (cut : (received.map readableContent).flatten = frames.flatten)
    (enough : frames.flatten.length < fuel) :
    (∃ final, handler.receiveAll decode config fuel received = .ok final ∧
        final.fired.map UpstreamEvent.frameBytes = wanted.map some) ↔
      frames.map payload = wanted ∧
        Rooms frames 0 handler.decoder.filled.toNat
          (received.map fun input => input.readableContent.length) := by
  have untouched : settle frames 0 = (frames, 0) := by
    cases frames with
    | nil => rfl
    | cons frame rest => exact settle_part rest (decodes frame List.mem_cons_self).present
  have midway : Midway config.bufferFactory fields payload [] frames 0
      handler.decoder.filled.toNat handler := by
    refine ⟨start, ⟨total, holding⟩, ?_, untouched, ?_, ?_⟩
    · rw [nothing]
      rfl
    · exact (Int.toNat_of_nonneg holding.filled_nonneg).symm
    · rw [unfired]
      rfl
  refine receiveAll_iff wanted appends own midway decodes arrives ?_ enough
  rw [nothing, List.nil_append]
  exact cut

end Runs

end FrameDeliveries

end Cetty
