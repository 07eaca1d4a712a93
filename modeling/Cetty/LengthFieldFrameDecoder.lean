import Cetty.FrameReception

/-!
# LengthFieldBasedFrameDecoder

The decoder as its constructors leave it and as `decode` runs it. Two of its
fields are not initialised by any constructor; the model takes them as arguments
that may be any integers.
-/

namespace Cetty

open MachineInt ByteWindow ChannelBuffer

structure LengthFieldBasedFrameDecoder where
  discardingTooLongFrame : Bool
  maxFrameLength : Int
  lengthFieldOffset : Int
  lengthFieldLength : Int
  lengthFieldEndOffset : Int
  lengthAdjustment : Int
  initialBytesToStrip : Int
  tooLongFrameLength : Int
  bytesToDiscard : Int

namespace LengthFieldBasedFrameDecoder

/-- What the fields hold before a constructor runs. -/
structure Uninitialised where
  tooLongFrameLength : Int
  bytesToDiscard : Int

def validateParameters (decoder : LengthFieldBasedFrameDecoder) : Except Stop Unit :=
  if decoder.maxFrameLength ≤ 0 then
    throw (invalidArgumentException
      ("maxFrameLength must be a positive integer: " ++ toString decoder.maxFrameLength))
  else if decoder.lengthFieldOffset < 0 then
    throw (invalidArgumentException
      ("lengthFieldOffset must be a non-negative integer: " ++
        toString decoder.lengthFieldOffset))
  else if decoder.initialBytesToStrip < 0 then
    throw (invalidArgumentException
      ("initialBytesToStrip must be a non-negative integer: " ++
        toString decoder.initialBytesToStrip))
  else if decoder.lengthFieldLength ≠ 1 ∧ decoder.lengthFieldLength ≠ 2 ∧
      decoder.lengthFieldLength ≠ 3 ∧ decoder.lengthFieldLength ≠ 4 ∧
      decoder.lengthFieldLength ≠ 8 then
    throw (invalidArgumentException
      ("lengthFieldLength must be either 1, 2, 3, 4, or 8: " ++
        toString decoder.lengthFieldLength))
  else if int32 (decoder.maxFrameLength - decoder.lengthFieldLength) <
      decoder.lengthFieldOffset then
    throw (invalidArgumentException
      ("maxFrameLength (" ++ toString decoder.maxFrameLength ++
        ") must be equal to or greater than lengthFieldOffset (" ++
        toString decoder.lengthFieldOffset ++ ") + lengthFieldLength (" ++
        toString decoder.lengthFieldLength ++ ")."))
  else pure ()

/-- The initialisers of the five-argument constructor; the three-argument one has
zero for the last two parameters. -/
def initialised (maxFrameLength lengthFieldOffset lengthFieldLength lengthAdjustment
    initialBytesToStrip : Int) (memory : Uninitialised) : LengthFieldBasedFrameDecoder :=
  { discardingTooLongFrame := true
    maxFrameLength := maxFrameLength
    lengthFieldOffset := lengthFieldOffset
    lengthFieldLength := lengthFieldLength
    lengthFieldEndOffset := int32 (lengthFieldOffset + lengthFieldLength)
    lengthAdjustment := lengthAdjustment
    initialBytesToStrip := initialBytesToStrip
    tooLongFrameLength := memory.tooLongFrameLength
    bytesToDiscard := memory.bytesToDiscard }

def make (maxFrameLength lengthFieldOffset lengthFieldLength lengthAdjustment
    initialBytesToStrip : Int) (memory : Uninitialised) :
    Except Stop LengthFieldBasedFrameDecoder := do
  let decoder := initialised maxFrameLength lengthFieldOffset lengthFieldLength lengthAdjustment
    initialBytesToStrip memory
  validateParameters decoder
  pure decoder

/-- The length field; the two widest ones are narrowed to an `int`. -/
def getLength (lengthFieldLength : Int) (buffer : Getters) (index : Int) : Except Stop Int :=
  match lengthFieldLength with
  | 1 => do pure ((← buffer.getByte index).toNat : Int)
  | 2 => do pure ((← buffer.getShort index).toNat : Int)
  | 3 => do pure ((← buffer.getUnsignedMedium index).toNat : Int)
  | 4 => do pure (← buffer.getInt index).toInt
  | 8 => do pure ((← buffer.getLong index).setWidth 32).toInt
  | _ => throw (.thrown ⟨.system, "should not reach here"⟩)

def tooLongFrame (maxFrameLength frameLength : Int) : Exception :=
  if 0 < frameLength then
    ⟨.tooLongFrame, "Adjusted frame length exceeds " ++ toString maxFrameLength ++ ": " ++
      toString frameLength ++ " - discarded"⟩
  else
    ⟨.tooLongFrame, "Adjusted frame length exceeds " ++ toString maxFrameLength ++
      " - discarded"⟩

def corruptedFrame (message : String) : Stop := .thrown ⟨.corruptedFrame, message⟩

abbrev Decode (Value : Type) := DecodeM LengthFieldBasedFrameDecoder Value

def update (change : LengthFieldBasedFrameDecoder → LengthFieldBasedFrameDecoder) :
    Decode Unit :=
  modify fun context => { context with fields := change context.fields }

def skipBytes (length : Int) : Decode Unit := onBuffer (BufferM.skipBytes length)

def fail (frameLength : Int) : Decode Unit := do
  let maxFrameLength := (← get).fields.maxFrameLength
  fire [.exceptionCaught (tooLongFrame maxFrameLength frameLength)]

def extractFrame (buffer : ChannelBuffer) (index length : Int) : Except Stop ChannelBuffer := do
  let frame ← ChannelBuffer.allocate buffer.factory length
  match (BufferM.writeFrom buffer.getters index length).run (.heap frame) with
  | .ok _ written => pure written
  | .error stop _ => throw stop

/-- The branch of `decode` that is left over from a frame that was too long. -/
def discardTooLongFrame : Decode Unit := do
  let context ← get
  let localBytesToDiscard := min context.fields.bytesToDiscard context.buffer.readableBytes
  skipBytes localBytesToDiscard
  let bytesToDiscard := int32 (context.fields.bytesToDiscard - localBytesToDiscard)
  update fun fields => { fields with bytesToDiscard := bytesToDiscard }
  if bytesToDiscard = 0 then
    let tooLongFrameLength := (← get).fields.tooLongFrameLength
    update fun fields => { fields with tooLongFrameLength := 0 }
    fail tooLongFrameLength

/-- The branch of `decode` that starts to discard. -/
def enterDiscarding (frameLength : Int) : Decode ChannelMessage := do
  let buffer := (← get).buffer
  update fun fields =>
    { fields with
      discardingTooLongFrame := true
      tooLongFrameLength := frameLength
      bytesToDiscard := int32 (frameLength - buffer.readableBytes) }
  skipBytes buffer.readableBytes
  pure .empty

/-- The end of `decode`: the whole frame is readable. -/
def takeFrame (frameLength : Int) : Decode ChannelMessage := do
  let fields := (← get).fields
  if frameLength < fields.initialBytesToStrip then
    skipBytes frameLength
    throw (corruptedFrame ("Adjusted frame length (" ++ toString frameLength ++
      ") is less than initialBytesToStrip: " ++ toString fields.initialBytesToStrip))
  else
    skipBytes fields.initialBytesToStrip
    let buffer := (← get).buffer
    let actualFrameLength := int32 (frameLength - fields.initialBytesToStrip)
    let frame ← call (extractFrame buffer buffer.readerIdx actualFrameLength)
    onBuffer (BufferM.readerIndex (int32 (buffer.readerIdx + actualFrameLength)))
    pure (.buffer frame)

/-- The part of `decode` behind the length field. -/
def decodeBody (length : Int) : Decode ChannelMessage := do
  let context ← get
  let fields := context.fields
  let frameLength :=
    int32 (length + int32 (fields.lengthAdjustment + fields.lengthFieldEndOffset))
  if length < 0 then
    skipBytes fields.lengthFieldEndOffset
    throw (corruptedFrame ("negative pre-adjustment length field: " ++ toString length))
  else if frameLength < fields.lengthFieldEndOffset then
    skipBytes fields.lengthFieldEndOffset
    throw (corruptedFrame ("Adjusted frame length (" ++ toString frameLength ++
      ") is less than lengthFieldEndOffset: " ++ toString fields.lengthFieldEndOffset))
  else if fields.maxFrameLength < frameLength then enterDiscarding frameLength
  else if context.buffer.readableBytes < frameLength then pure .empty
  else takeFrame frameLength

def decode : Decode ChannelMessage := do
  let context ← get
  let fields := context.fields
  let buffer := context.buffer
  if fields.discardingTooLongFrame then
    discardTooLongFrame
    pure .empty
  else if buffer.readableBytes < fields.lengthFieldEndOffset then pure .empty
  else
    let actualLengthFieldOffset := int32 (buffer.readerIdx + fields.lengthFieldOffset)
    let length ← call
      (getLength fields.lengthFieldLength buffer.getters actualLengthFieldOffset)
    decodeBody length

theorem skipBytes_keeps {invariant : LengthFieldBasedFrameDecoder → List UpstreamEvent → Prop}
    (length : Int) :
    Keeps (fun context => invariant context.fields context.fired) (skipBytes length) :=
  onBuffer_keeps _

/-- Discarding, and no frame fired so far. -/
def Silent (decoder : LengthFieldBasedFrameDecoder) (fired : List UpstreamEvent) : Prop :=
  decoder.discardingTooLongFrame = true ∧ ∀ event ∈ fired, event.frameBytes = none

variable {fired : List UpstreamEvent}

theorem silent_exception {decoder : LengthFieldBasedFrameDecoder}
    {exception : Exception} (silent : Silent decoder fired) :
    Silent decoder (fired ++ [.exceptionCaught exception]) := by
  refine ⟨silent.1, ?_⟩
  intro event member
  rcases List.mem_append.mp member with old | new
  · exact silent.2 event old
  · rw [List.mem_singleton.mp new]
    rfl

theorem discardTooLongFrame_keeps :
    Keeps (fun context => Silent context.fields context.fired) discardTooLongFrame := by
  apply Keeps.bind Keeps.get
  intro context
  apply Keeps.bind (skipBytes_keeps _)
  intro _
  refine Keeps.bind (Keeps.modify ?_) ?_
  · intro before silent
    exact silent
  intro _
  apply Keeps.ite
  · intro _
    apply Keeps.bind Keeps.get
    intro context
    refine Keeps.bind (Keeps.modify ?_) ?_
    · intro before silent
      exact silent
    intro _
    apply Keeps.bind Keeps.get
    intro context
    apply Keeps.modify
    intro before silent
    exact silent_exception silent
  · intro _
    exact Keeps.pure _

theorem decode_discarding {context : DecodeContext LengthFieldBasedFrameDecoder}
    (flag : context.fields.discardingTooLongFrame = true) :
    decode.run context =
      (do discardTooLongFrame; pure .empty : Decode ChannelMessage).run context := by
  unfold decode
  rw [run_bind_get]
  simp only [flag, if_true]

/-- The flag is set by every constructor and no branch of `decode` clears it. -/
theorem silent_kept : DecodeKeeps Silent decode := by
  intro context silent
  have kept := discardTooLongFrame_keeps context silent
  rw [decode_discarding silent.1]
  cases ran : discardTooLongFrame.run context with
  | ok _ after =>
      rw [ran] at kept
      rw [run_bind_ok _ ran]
      refine ⟨kept, ?_⟩
      intro shown
      cases shown
  | error stop after =>
      rw [ran] at kept
      rw [run_bind_error _ ran]
      exact kept

section

variable {maxFrameLength lengthFieldOffset lengthFieldLength lengthAdjustment initialBytesToStrip
    : Int}
  {memory : Uninitialised} {decoder : LengthFieldBasedFrameDecoder}
  (made : make maxFrameLength lengthFieldOffset lengthFieldLength lengthAdjustment
    initialBytesToStrip memory = .ok decoder)

include made

theorem make_ok :
    decoder = initialised maxFrameLength lengthFieldOffset lengthFieldLength lengthAdjustment
        initialBytesToStrip memory ∧
      validateParameters decoder = .ok () := by
  unfold make at made
  simp only at made
  cases checked : validateParameters (initialised maxFrameLength lengthFieldOffset
      lengthFieldLength lengthAdjustment initialBytesToStrip memory) with
  | error stop =>
      rw [checked, error_bind] at made
      cases made
  | ok _ =>
      rw [checked, ok_bind] at made
      cases made
      exact ⟨rfl, checked⟩

/-- Whatever arrives, a constructed decoder fires no frame. -/
theorem constructed_fires_no_frame
    {config : ChannelConfig} {own unfold_ : Bool} {fuel : Nat} {received : List ChannelBuffer}
    {final : Handler LengthFieldBasedFrameDecoder}
    (ran : (FrameDecoder.fresh own unfold_ decoder).receiveAll decode config fuel received =
      .ok final) : ∀ event ∈ final.fired, event.frameBytes = none := by
  have start : Silent (FrameDecoder.fresh own unfold_ decoder).decoder.fields
      (FrameDecoder.fresh own unfold_ decoder).fired := by
    refine ⟨?_, ?_⟩
    · rw [(make_ok made).1]
      rfl
    intro event member
    cases member
  exact (Handler.receiveAll_keeps silent_kept (fun _ _ _ => silent_exception) received start
    ran).2

end

/-- The unadjusted length at the front of `bytes`. -/
def lengthField (order : ByteOrder) (decoder : LengthFieldBasedFrameDecoder)
    (bytes : List Byte) : Nat :=
  order.number (window bytes decoder.lengthFieldOffset.toNat decoder.lengthFieldLength.toNat)

/-- The total length of the frame that starts with `bytes`. -/
def declaredLength (order : ByteOrder) (decoder : LengthFieldBasedFrameDecoder)
    (bytes : List Byte) : Int :=
  lengthField order decoder bytes + decoder.lengthAdjustment + decoder.lengthFieldEndOffset

structure WellFormed (order : ByteOrder) (decoder : LengthFieldBasedFrameDecoder)
    (frame : List Byte) : Prop where
  lower : decoder.lengthFieldEndOffset ≤ frame.length
  upper : (frame.length : Int) ≤ decoder.maxFrameLength
  strip : decoder.initialBytesToStrip ≤ frame.length
  declared : declaredLength order decoder frame = frame.length

/-- The run returns, and every event is one of the frames, stripped, in order. -/
def EmitsExactly (handler : Handler LengthFieldBasedFrameDecoder) (config : ChannelConfig)
    (fuel : Nat) (received : List ChannelBuffer) (frames : List (List Byte)) : Prop :=
  ∃ final, handler.receiveAll decode config fuel received = .ok final ∧
    final.fired.map UpstreamEvent.frameBytes =
      frames.map fun frame =>
        some (frame.drop handler.decoder.fields.initialBytesToStrip.toNat)

theorem no_frames_of_silent {frames : List (List Byte)} {strip : Nat}
    (silent : ∀ event ∈ fired, event.frameBytes = none)
    (shown : fired.map UpstreamEvent.frameBytes = frames.map fun frame => some (frame.drop strip)) :
    frames = [] := by
  cases frames with
  | nil => rfl
  | cons frame rest =>
      rw [List.map_cons] at shown
      obtain ⟨event, others, fired_eq, bytes, -⟩ := List.map_eq_cons_iff.mp shown
      have hidden := silent event (by rw [fired_eq]; exact List.mem_cons_self)
      rw [hidden] at bytes
      cases bytes

theorem receiveAll_unreadable {handler : Handler LengthFieldBasedFrameDecoder}
    {config : ChannelConfig} {fuel : Nat} (received : List ChannelBuffer)
    (blank : ∀ input ∈ received, input.readable = false) :
    handler.receiveAll decode config fuel received = .ok handler := by
  unfold Handler.receiveAll
  induction received with
  | nil => rfl
  | cons input rest ih =>
      rw [List.foldlM_cons,
        Handler.messageReceived_unreadable (blank input List.mem_cons_self), ok_bind]
      exact ih (fun later member => blank later (List.mem_cons_of_mem _ member))

/-- A constructed decoder meets its documentation on the empty sequence of frames only. -/
theorem emits_exactly_iff {maxFrameLength lengthFieldOffset lengthFieldLength lengthAdjustment
    initialBytesToStrip : Int} {memory : Uninitialised} {decoder : LengthFieldBasedFrameDecoder}
    (made : make maxFrameLength lengthFieldOffset lengthFieldLength lengthAdjustment
      initialBytesToStrip memory = .ok decoder)
    (order : ByteOrder) (frames : List (List Byte))
    (_wellFormed : ∀ frame ∈ frames, WellFormed order decoder frame)
    (config : ChannelConfig) (own unfold_ : Bool) (fuel : Nat) (received : List ChannelBuffer)
    (sound : ∀ input ∈ received, input.Sound)
    (cut : (received.map readableContent).flatten = frames.flatten) :
    EmitsExactly (FrameDecoder.fresh own unfold_ decoder) config fuel received frames ↔
      frames = [] := by
  constructor
  · intro emits
    obtain ⟨final, ran, shown⟩ := emits
    exact no_frames_of_silent (constructed_fires_no_frame made ran) shown
  · intro empty
    subst empty
    have blank : ∀ input ∈ received, input.readable = false := by
      intro input member
      apply (sound input member).readable_eq_false_iff.mpr
      rw [List.flatten_nil, List.flatten_eq_nil_iff] at cut
      exact cut _ (List.mem_map_of_mem member)
    exact ⟨_, receiveAll_unreadable received blank, rfl⟩

/-- A frame of one length byte and one more, received at once. -/
theorem frame_not_emitted :
    ∃ decoder, make 10 0 1 0 0 ⟨0, 0⟩ = .ok decoder ∧ WellFormed .big decoder [1, 7] ∧
      ¬EmitsExactly (FrameDecoder.fresh false false decoder) ⟨false, .big⟩ 9
        [.heap ⟨.big, [1, 7], ⟨0, 2, 0, 0⟩⟩] [[1, 7]] := by
  have made : make 10 0 1 0 0 ⟨0, 0⟩ = .ok (initialised 10 0 1 0 0 ⟨0, 0⟩) := rfl
  refine ⟨initialised 10 0 1 0 0 ⟨0, 0⟩, made, ⟨by decide, by decide, by decide, by decide⟩, ?_⟩
  intro emits
  obtain ⟨final, ran, shown⟩ := emits
  cases no_frames_of_silent (constructed_fires_no_frame made ran) shown

/-- The same frame under the general result. -/
theorem emits_exactly_iff_single :
    ¬EmitsExactly (FrameDecoder.fresh false false (initialised 10 0 1 0 0 ⟨0, 0⟩)) ⟨false, .big⟩ 9
      [.heap ⟨.big, [1, 7], ⟨0, 2, 0, 0⟩⟩] [[1, 7]] := by
  have made : make 10 0 1 0 0 ⟨0, 0⟩ = .ok (initialised 10 0 1 0 0 ⟨0, 0⟩) := rfl
  have wellFormed : ∀ frame ∈ [[1, 7]],
      WellFormed .big (initialised 10 0 1 0 0 ⟨0, 0⟩) frame := by
    intro frame member
    rw [List.mem_singleton.mp member]
    exact ⟨by decide, by decide, by decide, by decide⟩
  have sound : ∀ input ∈ [ChannelBuffer.heap ⟨.big, [1, 7], ⟨0, 2, 0, 0⟩⟩], input.Sound := by
    intro input member
    rw [List.mem_singleton.mp member]
    exact heap_sound (by decide) ⟨by decide, by decide, by decide⟩
  intro emits
  cases (emits_exactly_iff made .big _ wellFormed _ _ _ _ _ sound rfl).mp emits

end LengthFieldBasedFrameDecoder

end Cetty
