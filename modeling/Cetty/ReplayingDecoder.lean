import Cetty.FrameDecoder
import Cetty.ReplayingDecoderBuffer

/-!
# The replaying decoder

The subclass is its fields, its `decode`, which reads through the replaying buffer and sets
checkpoints, and its `decodeLast`. The cumulation and the replaying buffer around it are made and
dropped together, so the decoder holds both as one.
-/

namespace Cetty

structure ReplayContext (Fields : Type) where
  fields : Fields
  state : Int
  checkedPoint : Int
  /-- The member `cumulation` is set, which it is not any more during `cleanup`. -/
  cumulated : Bool
  replayable : ReplayingDecoderBuffer
  fired : List UpstreamEvent

abbrev ReplayDecodeM (Fields Value : Type) := Exec (ReplayContext Fields) Value

structure ReplayingSubclass (Fields : Type) where
  decode : Int → ReplayDecodeM Fields ChannelMessage
  decodeLast : Int → ReplayDecodeM Fields ChannelMessage
  typeName : String

section Decode

variable {Fields Value : Type}

def onReplayable (program : ReplayM Value) : ReplayDecodeM Fields Value :=
  focus ReplayContext.replayable
    (fun context replayable => { context with replayable := replayable }) program

def onCumulated (program : BufferM Value) : ReplayDecodeM Fields Value :=
  onReplayable (ReplayingDecoderBuffer.onBuffer program)

def checkpoint : ReplayDecodeM Fields Unit :=
  modify fun context =>
    { context with
      checkedPoint := if context.cumulated then context.replayable.buffer.readerIdx else -1 }

def checkpointAt (state : Int) : ReplayDecodeM Fields Unit := do
  checkpoint
  modify fun context => { context with state := state }

namespace ReplayingDecoder

def unfoldAndfireMessageReceived (unfold_ : Bool) (result : ChannelMessage) :
    ReplayDecodeM Fields Unit :=
  modify fun context => { context with fired := context.fired ++ unfolded unfold_ result }

def nothingConsumed : Stop := .thrown ⟨.illegalState,
  "null cannot be returned if no data is consumed and state didn't change."⟩

def noProgress (typeName : String) : Stop := .thrown ⟨.illegalState,
  "decode() method must consume at least one byte " ++
    "                            if it returned a decoded message (caused by: " ++ typeName ++ ")"⟩

/-- One round of the `while` loop; the result says whether the loop goes on. -/
def decodeRound (subclass : ReplayingSubclass Fields) (unfold_ : Bool) :
    ReplayDecodeM Fields Bool := do
  let before ← get
  if before.replayable.buffer.readable then
    let oldReaderIndex := before.replayable.buffer.readerIdx
    set { before with checkedPoint := oldReaderIndex }
    let result ← subclass.decode before.state
    let after ← get
    let unmoved := after.replayable.buffer.readerIdx = oldReaderIndex ∧ after.state = before.state
    if result.isEmpty then
      if after.replayable.needMore then
        if 0 ≤ after.checkedPoint then onCumulated (BufferM.readerIndex after.checkedPoint)
        pure false
      else if unmoved then throw nothingConsumed
      else pure true
    else if unmoved then throw (noProgress subclass.typeName)
    else
      unfoldAndfireMessageReceived unfold_ result
      pure true
  else pure false

/-- `fuel` bounds the rounds of the `while` loop. -/
def callDecode (subclass : ReplayingSubclass Fields) (unfold_ : Bool) :
    Nat → ReplayDecodeM Fields Unit
  | 0 => throw .outOfFuel
  | fuel + 1 => do
      if ← decodeRound subclass unfold_ then callDecode subclass unfold_ fuel

end ReplayingDecoder

end Decode

structure ReplayingDecoder (Fields : Type) where
  channelOwnBuffer : Bool
  unfold_ : Bool
  state : Int
  checkedPoint : Int
  cumulation : Option ReplayingDecoderBuffer
  fields : Fields

structure ReplayReception (Fields : Type) where
  decoder : ReplayingDecoder Fields
  fired : List UpstreamEvent

namespace ReplayingDecoder

variable {Fields Value : Type}

def context (decoder : ReplayingDecoder Fields) (cumulated : Bool)
    (replayable : ReplayingDecoderBuffer) (fired : List UpstreamEvent) : ReplayContext Fields where
  fields := decoder.fields
  state := decoder.state
  checkedPoint := decoder.checkedPoint
  cumulated := cumulated
  replayable := replayable
  fired := fired

def onCumulation (program : ReplayDecodeM Fields Value) : Exec (ReplayReception Fields) Value :=
  focus
    (fun reception => reception.decoder.context true
      (reception.decoder.cumulation.getD (.make .emptyBuffer)) reception.fired)
    (fun reception context =>
      { decoder := { reception.decoder with
          fields := context.fields
          state := context.state
          checkedPoint := context.checkedPoint
          cumulation := some context.replayable }
        fired := context.fired })
    program

/-- `UnsafeDynamicChannelBuffer(factory)`; the check it leaves out is made by the replaying buffer. -/
def unsafeDynamicBuffer (factory : ByteOrder) : Except Stop ChannelBuffer := dynamicBuffer factory

def store (replayable : ReplayingDecoderBuffer) : Exec (ReplayReception Fields) Unit :=
  modify fun reception =>
    { reception with decoder := { reception.decoder with cumulation := some replayable } }

/-- `getCumulation`. `same` says that the input is the very buffer that is cumulated in, which the
channel has written to meanwhile. -/
def getCumulation (config : ChannelConfig) (input : ChannelBuffer) (same : Bool) :
    Exec (ReplayReception Fields) Unit := do
  modify fun reception =>
    { reception with
      decoder := { reception.decoder with channelOwnBuffer := config.channelOwnBuffer } }
  match (← get).decoder.cumulation with
  | none =>
      if config.channelOwnBuffer then store (.make input)
      else store (.make (← call (unsafeDynamicBuffer config.bufferFactory)))
  | some replayable =>
      if config.channelOwnBuffer then
        if same then store { replayable with buffer := input }
        else
          let equal ← call (ChannelBuffers.equals replayable.buffer input)
          if !equal then store (.make input)
  if !config.channelOwnBuffer then
    onCumulation (onCumulated BufferM.discardReadBytes)
    onCumulation (onCumulated (do let _ ← BufferM.writeBytes input))

/-- `messageReceived` for a message that is a buffer. -/
def receiveBuffer (subclass : ReplayingSubclass Fields) (config : ChannelConfig) (fuel : Nat)
    (input : ChannelBuffer) (same : Bool) : Exec (ReplayReception Fields) Unit := do
  if input.readable then
    getCumulation config input same
    let unfold_ := (← get).decoder.unfold_
    onCumulation (callDecode subclass unfold_ fuel)

end ReplayingDecoder

end Cetty
