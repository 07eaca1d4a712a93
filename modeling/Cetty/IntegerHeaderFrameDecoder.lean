import Cetty.ReplayReception

/-!
# IntegerHeaderFrameDecoder

The documented example of a replaying decoder: a length of four bytes, a checkpoint, that many
bytes of content, a checkpoint. The states are those of the example.
-/

namespace Cetty

open MachineInt ByteWindow ChannelBuffer

structure IntegerHeaderFrameDecoder where
  length : Int

namespace IntegerHeaderFrameDecoder

abbrev READ_LENGTH : Int := 0

abbrev READ_CONTENT : Int := 1

abbrev Decode (Value : Type) := ReplayDecodeM IntegerHeaderFrameDecoder Value

def readContent : Decode ChannelMessage := do
  let length := (← get).fields.length
  let frame ← onReplayable (ReplayingDecoderBuffer.readBytes length)
  if (← get).replayable.needMore then pure .empty
  else
    checkpointAt READ_LENGTH
    pure (.buffer frame)

def decode (state : Int) : Decode ChannelMessage :=
  if state = READ_LENGTH then do
    let length ← onReplayable (ReplayingDecoderBuffer.read .readInt)
    if (← get).replayable.needMore then pure .empty
    else
      modify fun context => { context with fields := ⟨length⟩ }
      checkpointAt READ_CONTENT
      readContent
  else if state = READ_CONTENT then readContent
  else throw (.thrown ⟨.system, "Shouldn't reach here."⟩)

def subclass : ReplayingSubclass IntegerHeaderFrameDecoder :=
  ⟨decode, decode, "IntegerHeaderFrameDecoder"⟩

/-- The decoder as it is constructed; `length` is whatever the memory holds. -/
def fresh (unfold_ : Bool) (length : Int) : ReplayReception IntegerHeaderFrameDecoder :=
  ⟨⟨false, unfold_, READ_LENGTH, -1, none, ⟨length⟩⟩, []⟩

/-- A frame behind its length. -/
def encode (order : ByteOrder) (frame : List Byte) : List Byte :=
  order.digits 4 frame.length ++ frame

def encodeAll (order : ByteOrder) (frames : List (List Byte)) : List Byte :=
  (frames.map (encode order)).flatten

theorem encode_length (order : ByteOrder) (frame : List Byte) :
    (encode order frame).length = 4 + frame.length := by
  simp [encode, ByteOrder.digits_length]

@[simp] theorem encodeAll_cons (order : ByteOrder) (frame : List Byte)
    (rest : List (List Byte)) :
    encodeAll order (frame :: rest) = encode order frame ++ encodeAll order rest := by
  simp [encodeAll]

@[simp] theorem encodeAll_append (order : ByteOrder) (first second : List (List Byte)) :
    encodeAll order (first ++ second) = encodeAll order first ++ encodeAll order second := by
  simp [encodeAll]

/-- A frame that the four bytes can announce. -/
structure Announced (frame : List Byte) : Prop where
  present : frame ≠ []
  small : (frame.length : Int) ≤ maxInt

variable {frame : List Byte}

theorem Announced.positive (announced : Announced frame) :
    0 < frame.length := List.length_pos_iff.mpr announced.present

/-- The length as `readInt` returns it. -/
theorem announced_length (order : ByteOrder) (announced : Announced frame) :
    Reader.readInt.reduced (order.number (order.digits 4 frame.length)) = frame.length := by
  have small := announced.small
  have limit : maxInt = 2147483647 := rfl
  rw [ByteOrder.number_digits, Nat.mod_eq_of_lt (by omega)]
  exact int32_of_nonneg (Int.natCast_nonneg _) small

section Decoding

variable {order : ByteOrder} {context : ReplayContext IntegerHeaderFrameDecoder} {count : Nat}

/-- The context after a read that was short. -/
def lacking (context : ReplayContext IntegerHeaderFrameDecoder) :
    ReplayContext IntegerHeaderFrameDecoder :=
  { context with replayable := { context.replayable with needMore := true } }

/-- The context after a read that was not. -/
def moved (context : ReplayContext IntegerHeaderFrameDecoder) (buffer : ChannelBuffer) :
    ReplayContext IntegerHeaderFrameDecoder :=
  { context with
    replayable := { context.replayable with needMore := false, buffer := buffer } }

/-- A buffer of which `count` bytes have been read by `readBytes`. -/
def rewound (buffer : ChannelBuffer) (count : Nat) : ChannelBuffer :=
  if count = buffer.readableContent.length then BufferM.compacted buffer else buffer.advance count

/-- A read of the replaying buffer that has the bytes. -/
theorem read_enough {Value : Type} {program : BufferM Value} {value : Value}
    {after : ChannelBuffer} (otherwise : Value) (sound : context.replayable.buffer.Sound)
    (enough : count ≤ context.replayable.buffer.readableContent.length)
    (ran : program.run context.replayable.buffer = .ok value after) :
    (onReplayable (ReplayingDecoderBuffer.guarded
      (ReplayingDecoderBuffer.checkReadableBytes count) program otherwise)).run context =
      .ok value (moved context after) := by
  have fits : decide ((count : Int) ≤ context.replayable.buffer.readableBytes) = true := by
    rw [sound.readableBytes_eq]
    exact decide_eq_true (by omega)
  have whole : program.run context.replayable.buffer = ending (.ok value) after := ran
  exact run_focus_ok (ReplayingDecoderBuffer.guarded_passed _ fits whole otherwise)

theorem read_short {Value : Type} (program : BufferM Value) (otherwise : Value)
    (sound : context.replayable.buffer.Sound)
    (short : context.replayable.buffer.readableContent.length < count) :
    (onReplayable (ReplayingDecoderBuffer.guarded
      (ReplayingDecoderBuffer.checkReadableBytes count) program otherwise)).run context =
      .ok otherwise (lacking context) := by
  have lacks : decide ((count : Int) ≤ context.replayable.buffer.readableBytes) = false := by
    rw [sound.readableBytes_eq]
    exact decide_eq_false (by omega)
  exact run_focus_ok (ReplayingDecoderBuffer.guarded_short lacks program otherwise)

theorem readContent_short (sound : context.replayable.buffer.Sound)
    (known : context.fields.length = count)
    (short : context.replayable.buffer.readableContent.length < count) :
    readContent.run context = .ok .empty (lacking context) := by
  unfold readContent
  rw [run_bind_get]
  rw [known]
  unfold ReplayingDecoderBuffer.readBytes
  rw [run_bind_ok _ (read_short _ _ sound short), run_bind_get]
  rfl

/-- The context at a checkpoint. -/
def atCheckpoint (context : ReplayContext IntegerHeaderFrameDecoder) (state : Int) :
    ReplayContext IntegerHeaderFrameDecoder :=
  { context with state := state, checkedPoint := context.replayable.buffer.readerIdx }

theorem checkpointAt_run (state : Int) (cumulated : context.cumulated = true) :
    (checkpointAt state : Decode Unit).run context = .ok () (atCheckpoint context state) := by
  obtain ⟨fields, before, checkedPoint, present, replayable, fired⟩ := context
  cases cumulated
  rfl

theorem readContent_whole (sound : context.replayable.buffer.Sound)
    (cumulated : context.cumulated = true) (known : context.fields.length = count)
    (positive : 0 < count) (enough : count ≤ context.replayable.buffer.readableContent.length) :
    readContent.run context =
      .ok (.buffer (BufferM.copyOf context.replayable.buffer.order
          (context.replayable.buffer.readableContent.take count)))
        (atCheckpoint (moved context (rewound context.replayable.buffer count)) READ_LENGTH) := by
  have read := BufferM.readBytes_run sound positive enough
  unfold readContent
  rw [run_bind_get]
  rw [known]
  unfold ReplayingDecoderBuffer.readBytes
  rw [run_bind_ok _ (read_enough _ sound enough read), run_bind_get]
  have passed : (moved context (rewound context.replayable.buffer count)).replayable.needMore =
      false := rfl
  have checked : (checkpointAt READ_LENGTH : Decode Unit).run
      (moved context (rewound context.replayable.buffer count)) = .ok () _ :=
    checkpointAt_run READ_LENGTH cumulated
  rw [← rewound, passed, if_neg Bool.false_ne_true, run_bind_ok _ checked]
  rfl

/-- The context behind the length. -/
def announced (context : ReplayContext IntegerHeaderFrameDecoder) (length : Int) :
    ReplayContext IntegerHeaderFrameDecoder :=
  atCheckpoint
    { moved context (context.replayable.buffer.advance 4) with fields := ⟨length⟩ } READ_CONTENT

theorem decode_short (sound : context.replayable.buffer.Sound)
    (short : context.replayable.buffer.readableContent.length < 4) :
    (decode READ_LENGTH).run context = .ok .empty (lacking context) := by
  unfold decode
  rw [if_pos rfl]
  unfold ReplayingDecoderBuffer.read
  have lacks : context.replayable.buffer.readableContent.length < Reader.readInt.width := short
  rw [run_bind_ok _ (read_short _ _ sound lacks), run_bind_get]
  rfl

/-- Behind the length the content is read. -/
theorem decode_length (sound : context.replayable.buffer.Sound)
    (cumulated : context.cumulated = true) {frame : List Byte} (fits : Announced frame)
    (header : context.replayable.buffer.readableContent.take 4 =
      context.replayable.buffer.order.digits 4 frame.length) :
    (decode READ_LENGTH).run context = readContent.run (announced context frame.length) := by
  have enough : Reader.readInt.width ≤ context.replayable.buffer.readableContent.length := by
    have size := congrArg List.length header
    rw [ByteOrder.digits_length, List.length_take] at size
    show 4 ≤ _
    omega
  have read := Reader.program_run sound Reader.readInt enough
  have value : Reader.readInt.reduced (context.replayable.buffer.order.number
      (context.replayable.buffer.readableContent.take Reader.readInt.width)) = frame.length := by
    show Reader.readInt.reduced (context.replayable.buffer.order.number
      (context.replayable.buffer.readableContent.take 4)) = frame.length
    rw [header]
    exact announced_length _ fits
  rw [value] at read
  unfold decode
  rw [if_pos rfl]
  unfold ReplayingDecoderBuffer.read
  rw [run_bind_ok _ (read_enough _ sound enough read), run_bind_get]
  have passed : (moved context (context.replayable.buffer.advance 4)).replayable.needMore =
      false := rfl
  show EStateM.run (if (moved context (context.replayable.buffer.advance 4)).replayable.needMore then
    _ else _) _ = _
  rw [passed, if_neg Bool.false_ne_true, EStateM.run_bind, EStateM.run_modify]
  show (checkpointAt READ_CONTENT >>= fun _ => readContent).run
    { moved context (context.replayable.buffer.advance 4) with fields := ⟨frame.length⟩ } = _
  have checked : (checkpointAt READ_CONTENT : Decode Unit).run
      { moved context (context.replayable.buffer.advance 4) with fields := ⟨frame.length⟩ } =
      .ok () (announced context frame.length) := checkpointAt_run _ cumulated
  rw [run_bind_ok _ checked]

end Decoding

section Buffers

variable {factory : ByteOrder} {buffer : ChannelBuffer} {count : Nat}

section

variable (growing : buffer.IsDynamic factory)

include growing

theorem order_of_dynamic : buffer.order = factory := by
  obtain ⟨heap, idx, rfl, -⟩ := growing
  rfl

theorem rewound_dynamic (enough : count ≤ buffer.readableContent.length) :
    (rewound buffer count).IsDynamic factory := by
  have sound := growing.sound
  unfold rewound
  split
  · obtain ⟨heap, idx, rfl, shape⟩ := growing
    exact ⟨heap, _, rfl, shape.power, shape.ordered, Int.le_refl _, Int.le_refl _,
      Int.natCast_nonneg _⟩
  · exact growing.repositioned (sound.advance_repositioned enough)

theorem rewound_content (count : Nat) :
    (rewound buffer count).readableContent = buffer.readableContent.drop count := by
  unfold rewound
  split
  · rename_i all
    rw [BufferM.compacted_readable, List.drop_of_length_le (by omega)]
  · exact growing.sound.readable_advance count

end

/-- A buffer that is not drained has its reader index behind the front. -/
theorem rewound_reader (buffer : ChannelBuffer) (count : Nat) :
    (rewound buffer count).readerIdx = 0 ∧ buffer.readableContent.length = count ∨
      (rewound buffer count).readerIdx = buffer.readerIdx + count := by
  unfold rewound
  split
  · rename_i all
    exact Or.inl ⟨BufferM.compacted_readerIdx buffer, all.symm⟩
  · exact Or.inr (readerIdx_advance buffer count)

end Buffers

/-- The bytes of a frame that is not complete. -/
structure Pending (factory : ByteOrder) (left : List (List Byte)) (pending : List Byte) : Prop where
  begins : pending <+: encodeAll factory left
  incomplete : ∀ frame rest, left = frame :: rest → pending.length < 4 + frame.length

/-- Between two deliveries: `pending` has been received of the frames that are left. -/
inductive Rests (left : List (List Byte)) (pending : List Byte) (state length : Int)
    (kept : List Byte) : Prop where
  | length (short : pending.length < 4) (begins : state = READ_LENGTH) (same : kept = pending)
  | content {frame : List Byte} {rest : List (List Byte)} (first : left = frame :: rest)
      (long : 4 ≤ pending.length) (begun : state = READ_CONTENT) (known : length = frame.length)
      (same : kept = pending.drop 4)

/-- The loop has fired the frames that were complete and waits for more. -/
structure Consumed (factory : ByteOrder) (left done later : List (List Byte))
    (bytes pending : List Byte) (before after : ReplayContext IntegerHeaderFrameDecoder) :
    Prop where
  frames : left = done ++ later
  split : bytes = encodeAll factory done ++ pending
  pends : Pending factory later pending
  fired : ∃ events, after.fired = before.fired ++ events ∧
    events.map UpstreamEvent.frameBytes = done.map some
  cumulated : after.cumulated = true
  growing : after.replayable.buffer.IsDynamic factory
  rests : Rests later pending after.state after.fields.length
    after.replayable.buffer.readableContent

section Loop

variable {factory : ByteOrder} {unfold_ : Bool} {fuel : Nat}
  {context after : ReplayContext IntegerHeaderFrameDecoder}

variable {frame : List Byte}

/-- A frame that is fired comes before those of the rest of the loop. -/
theorem Consumed.fire {left done later : List (List Byte)}
    {bytes pending : List Byte} {middle : ReplayContext IntegerHeaderFrameDecoder}
    {order : ByteOrder} (fires : middle.fired = context.fired ++
      unfolded unfold_ (.buffer (BufferM.copyOf order frame)))
    (consumed : Consumed factory left done later bytes pending middle after) :
    Consumed factory (frame :: left) (frame :: done) later (encode factory frame ++ bytes) pending
      context after := by
  have plain : unfolded unfold_ (.buffer (BufferM.copyOf order frame)) =
      [.messageReceived (.buffer (BufferM.copyOf order frame))] := by
    cases unfold_ <;> rfl
  obtain ⟨events, fired, shown⟩ := consumed.fired
  refine ⟨?_, ?_, consumed.pends, ?_, consumed.cumulated, consumed.growing, consumed.rests⟩
  · rw [consumed.frames]
    rfl
  · rw [consumed.split, encodeAll_cons, List.append_assoc]
  · refine ⟨.messageReceived (.buffer (BufferM.copyOf order frame)) :: events, ?_, ?_⟩
    · rw [fired, fires, plain, List.append_assoc]
      rfl
    · rw [List.map_cons, List.map_cons, shown]
      exact congrArg (fun bytes => some bytes :: _) (BufferM.copyOf_shows order frame)

/-- The loop ends and has consumed `bytes`. -/
def Settles (factory : ByteOrder) (unfold_ : Bool) (fuel : Nat) (left : List (List Byte))
    (bytes : List Byte) (context : ReplayContext IntegerHeaderFrameDecoder) : Prop :=
  ∃ done later pending after,
    (ReplayingDecoder.callDecode subclass unfold_ fuel).run context = .ok () after ∧
    Consumed factory left done later bytes pending context after

/-- Nothing is complete. -/
theorem settles_nothing {left : List (List Byte)} {bytes : List Byte}
    (ran : (ReplayingDecoder.callDecode subclass unfold_ fuel).run context = .ok () after)
    (pends : Pending factory left bytes) (fired : after.fired = context.fired)
    (cumulated : after.cumulated = true) (growing : after.replayable.buffer.IsDynamic factory)
    (rests : Rests left bytes after.state after.fields.length
      after.replayable.buffer.readableContent) : Settles factory unfold_ fuel left bytes context := by
  refine ⟨[], left, bytes, after, ran, rfl, rfl, pends, ⟨[], ?_, rfl⟩, cumulated, growing, rests⟩
  rw [List.append_nil]
  exact fired

theorem settles_unreadable {left : List (List Byte)}
    (growing : context.replayable.buffer.IsDynamic factory) (cumulated : context.cumulated = true)
    (state : context.state = READ_LENGTH)
    (nothing : context.replayable.buffer.readableContent = []) :
    Settles factory unfold_ (fuel + 1) left [] context := by
  have unreadable : context.replayable.buffer.readable = false :=
    growing.sound.readable_eq_false_iff.mpr nothing
  refine settles_nothing (ReplayingDecoder.callDecode_ends
    (ReplayingDecoder.decodeRound_unreadable unreadable)) ⟨List.nil_prefix, ?_⟩ rfl cumulated growing
    (.length (by decide) state nothing)
  intro frame rest _
  rw [List.length_nil]
  omega

/-- The reader index is where the checkpoint is. -/
theorem stays {buffer : ChannelBuffer} (sound : buffer.Sound) :
    (BufferM.readerIndex buffer.readerIdx).run buffer = .ok () buffer := by
  have ran := BufferM.readerIndex_run sound (Nat.zero_le _)
  rw [Int.natCast_zero, Int.add_zero, advance_zero] at ran
  exact ran

/-- A round that lacks bytes ends where it has set its last checkpoint. -/
theorem round_waits (growing : context.replayable.buffer.IsDynamic factory)
    (present : context.replayable.buffer.readableContent ≠ [])
    (decoded : (decode context.state).run (ReplayingDecoder.checked context) =
      .ok .empty (lacking after))
    (sound : after.replayable.buffer.Sound)
    (at_ : after.checkedPoint = after.replayable.buffer.readerIdx) :
    (ReplayingDecoder.decodeRound subclass unfold_).run context = .ok false (lacking after) := by
  have readable : context.replayable.buffer.readable = true :=
    growing.sound.readable_iff.mpr present
  have short : (lacking after).replayable.needMore = true := rfl
  have kept : 0 ≤ (lacking after).checkedPoint := by
    show 0 ≤ after.checkedPoint
    rw [at_]
    exact sound.reader_nonneg
  have returned : (BufferM.readerIndex (lacking after).checkedPoint).run
      (lacking after).replayable.buffer = .ok () after.replayable.buffer := by
    show (BufferM.readerIndex after.checkedPoint).run after.replayable.buffer = _
    rw [at_]
    exact stays sound
  rw [ReplayingDecoder.decodeRound_short readable decoded short kept returned]
  rfl

/-- What starts with a whole part goes on with the rest. -/
theorem split_prefix {bytes first second : List Byte} (begins : bytes <+: first ++ second)
    (enough : first.length ≤ bytes.length) :
    ∃ more, bytes = first ++ more ∧ more <+: second := by
  obtain ⟨more, rfl⟩ := List.prefix_of_prefix_length_le (List.prefix_append first second) begins
    enough
  exact ⟨more, rfl, (List.prefix_append_right_inj first).mp begins⟩

section Content

variable {frame : List Byte}

theorem round_content_short (growing : context.replayable.buffer.IsDynamic factory)
    (state : context.state = READ_CONTENT) (known : context.fields.length = frame.length)
    (present : context.replayable.buffer.readableContent ≠ [])
    (short : context.replayable.buffer.readableContent.length < frame.length) :
    (ReplayingDecoder.decodeRound subclass unfold_).run context =
      .ok false (lacking (ReplayingDecoder.checked context)) := by
  have sound := growing.sound
  have decoded : (decode context.state).run (ReplayingDecoder.checked context) =
      .ok .empty (lacking (ReplayingDecoder.checked context)) := by
    rw [state]
    exact readContent_short sound known short
  exact round_waits growing present decoded sound rfl

theorem round_content_whole (growing : context.replayable.buffer.IsDynamic factory)
    (cumulated : context.cumulated = true) (state : context.state = READ_CONTENT)
    (known : context.fields.length = frame.length) (present : frame ≠ []) {more : List Byte}
    (content : context.replayable.buffer.readableContent = frame ++ more) :
    (ReplayingDecoder.decodeRound subclass unfold_).run context =
      .ok true { atCheckpoint (moved (ReplayingDecoder.checked context)
          (rewound context.replayable.buffer frame.length)) READ_LENGTH with
        fired := context.fired ++ unfolded unfold_ (.buffer
          (BufferM.copyOf context.replayable.buffer.order frame)) } := by
  have sound := growing.sound
  have readable : context.replayable.buffer.readable = true := by
    apply sound.readable_iff.mpr
    rw [content]
    simp [present]
  have enough : frame.length ≤ context.replayable.buffer.readableContent.length := by
    rw [content, List.length_append]
    omega
  have taken : context.replayable.buffer.readableContent.take frame.length = frame := by
    rw [content, List.take_left]
  have decoded : (decode context.state).run (ReplayingDecoder.checked context) =
      .ok (.buffer (BufferM.copyOf context.replayable.buffer.order frame))
        (atCheckpoint (moved (ReplayingDecoder.checked context)
          (rewound context.replayable.buffer frame.length)) READ_LENGTH) := by
    have read : readContent.run (ReplayingDecoder.checked context) = _ :=
      readContent_whole sound cumulated known (List.length_pos_iff.mpr present) enough
    rw [state]
    show readContent.run (ReplayingDecoder.checked context) = _
    rw [read]
    show EStateM.Result.ok (ChannelMessage.buffer (BufferM.copyOf _
      (context.replayable.buffer.readableContent.take frame.length))) _ = _
    rw [taken]
    rfl
  refine ReplayingDecoder.decodeRound_fires readable decoded rfl ?_
  intro same
  have states : READ_LENGTH = context.state := same.2
  rw [state] at states
  cases states

end Content

section Length

variable {frame : List Byte}

theorem round_length_short (growing : context.replayable.buffer.IsDynamic factory)
    (state : context.state = READ_LENGTH)
    (present : context.replayable.buffer.readableContent ≠ [])
    (short : context.replayable.buffer.readableContent.length < 4) :
    (ReplayingDecoder.decodeRound subclass unfold_).run context =
      .ok false (lacking (ReplayingDecoder.checked context)) := by
  have sound := growing.sound
  have decoded : (decode context.state).run (ReplayingDecoder.checked context) =
      .ok .empty (lacking (ReplayingDecoder.checked context)) := by
    rw [state]
    exact decode_short sound short
  exact round_waits growing present decoded sound rfl

/-- The context of a round that has read the length. -/
def headed (context : ReplayContext IntegerHeaderFrameDecoder) (frame : List Byte) :
    ReplayContext IntegerHeaderFrameDecoder :=
  announced (ReplayingDecoder.checked context) frame.length

variable {more : List Byte}

theorem decode_headed (growing : context.replayable.buffer.IsDynamic factory)
    (cumulated : context.cumulated = true) (state : context.state = READ_LENGTH)
    (fits : Announced frame)
    (content : context.replayable.buffer.readableContent =
      factory.digits 4 frame.length ++ more) :
    (decode context.state).run (ReplayingDecoder.checked context) =
      readContent.run (headed context frame) := by
  have sound : (ReplayingDecoder.checked context).replayable.buffer.Sound := growing.sound
  have present : (ReplayingDecoder.checked context).cumulated = true := cumulated
  rw [state]
  apply decode_length sound present fits
  show context.replayable.buffer.readableContent.take 4 =
    context.replayable.buffer.order.digits 4 frame.length
  rw [order_of_dynamic growing, content]
  exact List.take_left' (ByteOrder.digits_length factory 4 frame.length)

theorem headed_dynamic (frame : List Byte) (growing : context.replayable.buffer.IsDynamic factory)
    (enough : 4 ≤ context.replayable.buffer.readableContent.length) :
    (headed context frame).replayable.buffer.IsDynamic factory :=
  growing.repositioned (growing.sound.advance_repositioned enough)

theorem headed_content (growing : context.replayable.buffer.IsDynamic factory)
    (content : context.replayable.buffer.readableContent =
      factory.digits 4 frame.length ++ more) :
    (headed context frame).replayable.buffer.readableContent = more := by
  show (context.replayable.buffer.advance 4).readableContent = more
  rw [growing.sound.readable_advance, content]
  exact List.drop_left' (ByteOrder.digits_length factory 4 frame.length)

theorem round_length_header (growing : context.replayable.buffer.IsDynamic factory)
    (cumulated : context.cumulated = true) (state : context.state = READ_LENGTH)
    (fits : Announced frame)
    (content : context.replayable.buffer.readableContent =
      factory.digits 4 frame.length ++ more) (short : more.length < frame.length) :
    (ReplayingDecoder.decodeRound subclass unfold_).run context =
      .ok false (lacking (headed context frame)) := by
  have size : context.replayable.buffer.readableContent.length = 4 + more.length := by
    rw [content, List.length_append, ByteOrder.digits_length]
  have present : context.replayable.buffer.readableContent ≠ [] := by
    apply List.length_pos_iff.mp
    omega
  have sound : (headed context frame).replayable.buffer.Sound :=
    (headed_dynamic frame growing (by omega)).sound
  have left : (headed context frame).replayable.buffer.readableContent.length < frame.length := by
    rw [headed_content growing content]
    exact short
  have decoded := decode_headed growing cumulated state fits content
  rw [readContent_short sound rfl left] at decoded
  exact round_waits growing present decoded sound rfl

/-- The context of a round that has read a whole frame. -/
def framed (context : ReplayContext IntegerHeaderFrameDecoder) (frame : List Byte) :
    ReplayContext IntegerHeaderFrameDecoder :=
  atCheckpoint (moved (headed context frame)
    (rewound (headed context frame).replayable.buffer frame.length)) READ_LENGTH

section

variable (growing : context.replayable.buffer.IsDynamic factory)

include growing

theorem decode_framed (cumulated : context.cumulated = true) (state : context.state = READ_LENGTH)
    (fits : Announced frame) {more : List Byte}
    (content : context.replayable.buffer.readableContent = encode factory frame ++ more) :
    (decode context.state).run (ReplayingDecoder.checked context) =
      .ok (.buffer (BufferM.copyOf factory frame)) (framed context frame) := by
  have parts : context.replayable.buffer.readableContent =
      factory.digits 4 frame.length ++ (frame ++ more) := by
    rw [content, encode, List.append_assoc]
  have size : 4 ≤ context.replayable.buffer.readableContent.length := by
    rw [parts, List.length_append, ByteOrder.digits_length]
    omega
  have growing' : (headed context frame).replayable.buffer.IsDynamic factory :=
    headed_dynamic frame growing size
  have rest := headed_content growing parts
  have enough : frame.length ≤ (headed context frame).replayable.buffer.readableContent.length := by
    rw [rest, List.length_append]
    omega
  have read : readContent.run (headed context frame) = _ :=
    readContent_whole growing'.sound cumulated rfl fits.positive enough
  rw [decode_headed growing cumulated state fits parts, read, rest, List.take_left,
    order_of_dynamic growing']
  rfl

section

variable {more : List Byte}
  (content : context.replayable.buffer.readableContent = encode factory frame ++ more)

include content

theorem framed_dynamic :
    (framed context frame).replayable.buffer.IsDynamic factory ∧
      (framed context frame).replayable.buffer.readableContent = more := by
  have parts : context.replayable.buffer.readableContent =
      factory.digits 4 frame.length ++ (frame ++ more) := by
    rw [content, encode, List.append_assoc]
  have size : 4 ≤ context.replayable.buffer.readableContent.length := by
    rw [parts, List.length_append, ByteOrder.digits_length]
    omega
  have growing' : (headed context frame).replayable.buffer.IsDynamic factory :=
    headed_dynamic frame growing size
  have rest := headed_content growing parts
  constructor
  · apply rewound_dynamic growing'
    rw [rest, List.length_append]
    omega
  · have left := rewound_content growing' frame.length
    rw [rest, List.drop_left] at left
    exact left

/-- The reader index goes back to the front when the frame drains the buffer, and on otherwise. -/
theorem framed_reader :
    (framed context frame).replayable.buffer.readerIdx = 0 ∧ more = [] ∨
      (framed context frame).replayable.buffer.readerIdx =
        context.replayable.buffer.readerIdx + 4 + frame.length := by
  have parts : context.replayable.buffer.readableContent =
      factory.digits 4 frame.length ++ (frame ++ more) := by
    rw [content, encode, List.append_assoc]
  have rest := headed_content growing parts
  rcases rewound_reader (headed context frame).replayable.buffer frame.length with
    ⟨front, all⟩ | further
  · left
    rw [rest, List.length_append] at all
    exact ⟨front, List.length_eq_zero_iff.mp (by omega)⟩
  · right
    have ahead : (headed context frame).replayable.buffer.readerIdx =
        context.replayable.buffer.readerIdx + 4 := readerIdx_advance _ 4
    rw [ahead] at further
    exact further

end

section

variable (cumulated : context.cumulated = true) (state : context.state = READ_LENGTH)
  (fits : Announced frame)

include cumulated state fits

theorem round_length_whole {more : List Byte}
    (content : context.replayable.buffer.readableContent = encode factory frame ++ more)
    (clear : 0 < context.replayable.buffer.readerIdx ∨ more ≠ []) :
    (ReplayingDecoder.decodeRound subclass unfold_).run context =
      .ok true { framed context frame with
        fired := context.fired ++ unfolded unfold_ (.buffer (BufferM.copyOf factory frame)) } := by
  have readable : context.replayable.buffer.readable = true := by
    apply growing.sound.readable_iff.mpr
    rw [content]
    simp [fits.present, encode]
  refine ReplayingDecoder.decodeRound_fires readable
    (decode_framed growing cumulated state fits content) rfl ?_
  intro same
  rcases framed_reader growing content with ⟨front, drained⟩ | further
  · rcases clear with behind | remains
    · rw [front] at same
      omega
    · exact remains drained
  · rw [further] at same
    omega

/-- A frame that fills the buffer from the front on is read and not fired. -/
theorem round_length_swallowed
    (content : context.replayable.buffer.readableContent = encode factory frame)
    (front : context.replayable.buffer.readerIdx = 0) :
    (ReplayingDecoder.decodeRound subclass unfold_).run context =
      .error (ReplayingDecoder.noProgress subclass.typeName) (framed context frame) := by
  have whole : context.replayable.buffer.readableContent = encode factory frame ++ [] := by
    rw [content, List.append_nil]
  have readable : context.replayable.buffer.readable = true := by
    apply growing.sound.readable_iff.mpr
    rw [content]
    simp [fits.present, encode]
  refine ReplayingDecoder.decodeRound_unmoved readable
    (decode_framed growing cumulated state fits whole) rfl ⟨?_, state.symm⟩
  have rest : (headed context frame).replayable.buffer.readableContent = frame :=
    headed_content growing content
  rw [front]
  show (rewound (headed context frame).replayable.buffer frame.length).readerIdx = 0
  unfold rewound
  rw [if_pos (by rw [rest]), BufferM.compacted_readerIdx]

end

end

end Length

/-- The loop, when a frame is to start where it reads. -/
theorem settles_from_length (unfold_ : Bool) {left : List (List Byte)} (fuel : Nat)
    (context : ReplayContext IntegerHeaderFrameDecoder) {bytes : List Byte}
    (fits : ∀ frame ∈ left, Announced frame)
    (growing : context.replayable.buffer.IsDynamic factory)
    (cumulated : context.cumulated = true) (state : context.state = READ_LENGTH)
    (shown : context.replayable.buffer.readableContent = bytes)
    (begins : bytes <+: encodeAll factory left)
    (clear : 0 < context.replayable.buffer.readerIdx ∨ ∀ frame rest, left = frame :: rest →
      bytes ≠ encode factory frame) (enough : bytes.length < fuel) :
    Settles factory unfold_ fuel left bytes context := by
  induction left generalizing fuel context bytes with
  | nil =>
      obtain ⟨fuel, rfl⟩ : ∃ less, fuel = less + 1 := ⟨fuel - 1, by omega⟩
      have nothing : bytes = [] := List.prefix_nil.mp begins
      subst nothing
      exact settles_unreadable growing cumulated state shown
  | cons frame rest ih =>
      obtain ⟨fuel, rfl⟩ : ∃ less, fuel = less + 1 := ⟨fuel - 1, by omega⟩
      have known := fits frame List.mem_cons_self
      by_cases nothing : bytes = []
      · subst nothing
        exact settles_unreadable growing cumulated state shown
      have present : context.replayable.buffer.readableContent ≠ [] := by
        rw [shown]
        exact nothing
      by_cases short : bytes.length < 4
      · refine settles_nothing (ReplayingDecoder.callDecode_ends
          (round_length_short growing state present (by rw [shown]; exact short)))
          ⟨begins, ?_⟩ rfl cumulated growing (.length short state shown)
        intro first others _
        omega
      have parts := begins
      rw [encodeAll_cons, encode, List.append_assoc] at parts
      obtain ⟨more, content, onward⟩ := split_prefix parts
        (by rw [ByteOrder.digits_length]; omega)
      have size : bytes.length = 4 + more.length := by
        rw [content, List.length_append, ByteOrder.digits_length]
      have header := shown.trans content
      by_cases part : more.length < frame.length
      · refine settles_nothing (ReplayingDecoder.callDecode_ends
          (round_length_header growing cumulated state known header part))
          ⟨begins, ?_⟩ rfl cumulated (headed_dynamic frame growing (by rw [shown]; omega))
          (.content rfl (by omega) rfl rfl ?_)
        · intro first others same
          cases same
          omega
        · rw [content, List.drop_left' (ByteOrder.digits_length factory 4 frame.length)]
          exact headed_content growing header
      · obtain ⟨later, whole, further⟩ := split_prefix onward (by omega)
        have full : bytes = encode factory frame ++ later := by
          rw [content, whole, encode, List.append_assoc]
        have filled := shown.trans full
        have remains : 0 < context.replayable.buffer.readerIdx ∨ later ≠ [] := by
          rcases clear with behind | different
          · exact Or.inl behind
          · right
            intro drained
            rw [drained, List.append_nil] at full
            exact different frame rest rfl full
        obtain ⟨growing', left_over⟩ := framed_dynamic growing filled
        have start := growing.sound.reader_nonneg
        have smaller : later.length < fuel := by
          rw [full, List.length_append, encode_length] at enough
          omega
        let next : ReplayContext IntegerHeaderFrameDecoder := { framed context frame with
          fired := context.fired ++ unfolded unfold_ (.buffer (BufferM.copyOf factory frame)) }
        have clear' : 0 < next.replayable.buffer.readerIdx ∨ ∀ first others,
            rest = first :: others → later ≠ encode factory first := by
          rcases framed_reader growing filled with ⟨-, drained⟩ | ahead
          · right
            intro first others _ equal
            have length := congrArg List.length equal
            rw [drained, encode_length, List.length_nil] at length
            omega
          · left
            show 0 < (framed context frame).replayable.buffer.readerIdx
            omega
        obtain ⟨done, others, pending, after, ran, consumed⟩ := ih fuel next
          (fun frame member => fits frame (List.mem_cons_of_mem _ member)) growing' cumulated rfl
          left_over further clear' smaller
        refine ⟨frame :: done, others, pending, after, ?_, ?_⟩
        · rw [ReplayingDecoder.callDecode_goes_on
            (round_length_whole growing cumulated state known filled remains)]
          exact ran
        · rw [full]
          exact consumed.fire rfl

/-- The loop behind a length that has been read. -/
theorem settles_from_content (unfold_ : Bool) {rest : List (List Byte)}
    (fuel : Nat) (context : ReplayContext IntegerHeaderFrameDecoder) {bytes : List Byte}
    (fits : ∀ first ∈ frame :: rest, Announced first)
    (growing : context.replayable.buffer.IsDynamic factory)
    (cumulated : context.cumulated = true) (state : context.state = READ_CONTENT)
    (known : context.fields.length = frame.length)
    (shown : context.replayable.buffer.readableContent = bytes) (present : bytes ≠ [])
    (begins : bytes <+: frame ++ encodeAll factory rest) (enough : bytes.length < fuel) :
    Settles factory unfold_ fuel (frame :: rest) (factory.digits 4 frame.length ++ bytes)
      context := by
  obtain ⟨fuel, rfl⟩ : ∃ less, fuel = less + 1 := ⟨fuel - 1, by omega⟩
  have announces := fits frame List.mem_cons_self
  have readable : context.replayable.buffer.readableContent ≠ [] := by
    rw [shown]
    exact present
  have header := ByteOrder.digits_length factory 4 frame.length
  by_cases part : bytes.length < frame.length
  · refine settles_nothing (ReplayingDecoder.callDecode_ends
      (round_content_short growing state known readable (by rw [shown]; exact part)))
      ⟨?_, ?_⟩ rfl cumulated growing (.content rfl ?_ state known ?_)
    · rw [encodeAll_cons, encode, List.append_assoc]
      exact (List.prefix_append_right_inj _).mpr begins
    · intro first others same
      cases same
      rw [List.length_append, header]
      omega
    · rw [List.length_append, header]
      omega
    · rw [List.drop_left' header]
      exact shown
  · obtain ⟨later, whole, further⟩ := split_prefix begins (by omega)
    have filled := shown.trans whole
    have positive := announces.positive
    have start := growing.sound.reader_nonneg
    have full : frame.length ≤ context.replayable.buffer.readableContent.length := by
      rw [shown]
      omega
    have growing' := rewound_dynamic growing full
    have left_over : (rewound context.replayable.buffer frame.length).readableContent = later := by
      rw [rewound_content growing, filled, List.drop_left]
    have smaller : later.length < fuel := by
      rw [whole, List.length_append] at enough
      omega
    let next : ReplayContext IntegerHeaderFrameDecoder :=
      { atCheckpoint (moved (ReplayingDecoder.checked context)
          (rewound context.replayable.buffer frame.length)) READ_LENGTH with
        fired := context.fired ++ unfolded unfold_ (.buffer
          (BufferM.copyOf context.replayable.buffer.order frame)) }
    have clear : 0 < next.replayable.buffer.readerIdx ∨ ∀ first others,
        rest = first :: others → later ≠ encode factory first := by
      rcases rewound_reader context.replayable.buffer frame.length with ⟨-, all⟩ | ahead
      · right
        intro first others _ equal
        have length := congrArg List.length equal
        have sum := congrArg List.length filled
        rw [List.length_append] at sum
        rw [encode_length] at length
        omega
      · left
        show 0 < (rewound context.replayable.buffer frame.length).readerIdx
        omega
    obtain ⟨done, others, pending, after, ran, consumed⟩ := settles_from_length unfold_ fuel next
      (fun frame member => fits frame (List.mem_cons_of_mem _ member)) growing' cumulated rfl
      left_over further clear smaller
    refine ⟨frame :: done, others, pending, after, ?_, ?_⟩
    · rw [ReplayingDecoder.callDecode_goes_on
        (round_content_whole growing cumulated state known announces.present filled)]
      exact ran
    · rw [whole, ← List.append_assoc]
      exact consumed.fire rfl

end Loop

end IntegerHeaderFrameDecoder

end Cetty
