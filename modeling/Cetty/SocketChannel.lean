import Cetty.WriteRequest

/-!
# AsioSocketChannel

The write half of a socket channel: its queue of write operations, the two water
marks, the handler of a completed write and the closing of the channel. Events for
the pipeline and completions of futures are recorded in the order they are made;
handlers of the pipeline and listeners of the futures run as later steps.
-/

namespace Cetty

open MachineInt

/-- `closeFuture` is the channel's own; a write's future carries the write's number. -/
inductive ChannelFuture where
  | closeFuture
  | ofWrite (number : Nat)
  | other (number : Nat)
  deriving DecidableEq, Repr

structure Cause where
  exception : Exception
  code : Int
  deriving DecidableEq, Repr

inductive Outcome where
  | success
  | failure (cause : Cause)
  deriving DecidableEq, Repr

/-- The flags `OP_READ` and `OP_WRITE`. A set write flag means: not writable. -/
structure InterestOps where
  read : Bool
  write : Bool
  deriving DecidableEq, Repr

inductive ChannelEvent where
  | interestChanged (interestOps : InterestOps)
  | writeComplete (amount : Nat)
  | disconnected
  | unbound
  | closed
  | exceptionCaught (cause : Cause)
  deriving DecidableEq, Repr

structure MessageEvent where
  message : ChannelBuffer
  future : Option ChannelFuture
  /-- Which write call this is; the source keeps no such number. -/
  number : Nat

structure AsioWriteOperation where
  writeBufferSize : Int
  future : Option ChannelFuture
  number : Nat
  deriving DecidableEq, Repr

structure AsioWriteOperationQueue where
  writeBufferSize : Int
  ops : List AsioWriteOperation
  deriving Repr

inductive ConnectionState where
  | closed
  | opened
  | bound
  | connected
  deriving DecidableEq, Repr

structure AsioSocketChannel where
  state : ConnectionState
  tcpSocketOpen : Bool
  closeFutureDone : Bool
  writeQueue : AsioWriteOperationQueue
  isWriting : Bool
  highWaterMarkCounter : Int
  lowWaterMark : Int
  highWaterMark : Int
  rawInterestOps : InterestOps
  fired : List ChannelEvent
  completed : List (ChannelFuture × Outcome)
  deriving Repr

structure EndpointType where
  address : String
  port : Nat
  deriving DecidableEq, Repr

/-- What `write` hands to the io service. -/
inductive ServiceCall where
  | post
  | asyncWrite (bytes : CharArray)
  deriving DecidableEq, Repr

/-- The error of a `shutdown` or `close` of the socket that throws. -/
structure CloseFault where
  code : Int
  stillOpen : Bool
  deriving DecidableEq, Repr

def AsioWriteRequest.ofEvent (evt : MessageEvent) : Except Stop AsioWriteRequest :=
  match AsioWriteRequest.make.run evt.message with
  | .ok request _ => pure request
  | .error stop _ => throw stop

theorem AsioWriteRequest.ofEvent_size {evt : MessageEvent} {request : AsioWriteRequest}
    (made : AsioWriteRequest.ofEvent evt = .ok request)
    (fits : (request.bytes.length : Int) ≤ maxInt) :
    request.writeBufferSize = request.bytes.length := by
  unfold ofEvent at made
  cases ran : AsioWriteRequest.make.run evt.message with
  | ok result moved =>
      simp only [ran] at made
      cases made
      exact AsioWriteRequest.writeBufferSize_eq ran fits
  | error stop moved =>
      simp only [ran] at made
      cases made

namespace AsioSocketChannel

/-- As `handleConnect` leaves a channel with the given water marks. -/
def justConnected (lowWaterMark highWaterMark : Int) : AsioSocketChannel :=
  { state := .connected
    tcpSocketOpen := true
    closeFutureDone := false
    writeQueue := ⟨0, []⟩
    isWriting := false
    highWaterMarkCounter := 0
    lowWaterMark := lowWaterMark
    highWaterMark := highWaterMark
    rawInterestOps := ⟨true, false⟩
    fired := []
    completed := [] }

def isOpen (this : AsioSocketChannel) : Bool := this.state ≠ .closed

def isBound (this : AsioSocketChannel) : Bool :=
  this.state = .bound ∨ this.state = .connected

def isConnected (this : AsioSocketChannel) : Bool := this.state = .connected

def fire (this : AsioSocketChannel) (event : ChannelEvent) : AsioSocketChannel :=
  { this with fired := this.fired ++ [event] }

/-- `setSuccess` and `setFailure`. The close future ignores both. -/
def complete (this : AsioSocketChannel) (future : Option ChannelFuture) (outcome : Outcome) :
    AsioSocketChannel :=
  match future with
  | none => this
  | some .closeFuture => this
  | some future => { this with completed := this.completed ++ [(future, outcome)] }

def setClosed (this : AsioSocketChannel) : AsioSocketChannel :=
  { this with state := .closed, closeFutureDone := true }

def getInterestOps (this : AsioSocketChannel) : InterestOps :=
  if ¬this.isOpen then ⟨false, true⟩
  else
    let interestOps := this.rawInterestOps
    let writeBufferSize := this.writeQueue.writeBufferSize
    if writeBufferSize ≠ 0 then
      if this.highWaterMarkCounter > 0 then
        { interestOps with write := writeBufferSize ≥ this.lowWaterMark }
      else { interestOps with write := writeBufferSize ≥ this.highWaterMark }
    else { interestOps with write := false }

def handleAtHighWaterMark (this : AsioSocketChannel) : AsioSocketChannel :=
  let this := { this with highWaterMarkCounter := int32 (this.highWaterMarkCounter + 1) }
  this.fire (.interestChanged this.getInterestOps)

def handleAtLowWaterMark (this : AsioSocketChannel) : AsioSocketChannel :=
  let this := { this with highWaterMarkCounter := int32 (this.highWaterMarkCounter - 1) }
  if this.isConnected then this.fire (.interestChanged this.getInterestOps) else this

def setWriteBufferSize (this : AsioSocketChannel) (size : Int) : AsioSocketChannel :=
  { this with writeQueue := { this.writeQueue with writeBufferSize := size } }

def setOps (this : AsioSocketChannel) (ops : List AsioWriteOperation) : AsioSocketChannel :=
  { this with writeQueue := { this.writeQueue with ops := ops } }

def plusWriteBufferSize (this : AsioSocketChannel) (messageSize : Int) : AsioSocketChannel :=
  let writeBufferSize := int32 (this.writeQueue.writeBufferSize + messageSize)
  let this := this.setWriteBufferSize writeBufferSize
  if writeBufferSize ≥ this.highWaterMark ∧
      int32 (writeBufferSize - messageSize) < this.highWaterMark then
    this.handleAtHighWaterMark
  else this

def minusWriteBufferSize (this : AsioSocketChannel) (messageSize : Int) : AsioSocketChannel :=
  let writeBufferSize := int32 (this.writeQueue.writeBufferSize - messageSize)
  let this := this.setWriteBufferSize writeBufferSize
  if (writeBufferSize = 0 ∨ writeBufferSize < this.lowWaterMark) ∧
      int32 (writeBufferSize + messageSize) ≥ this.lowWaterMark then
    this.handleAtLowWaterMark
  else this

def offer (this : AsioSocketChannel) (request : AsioWriteRequest)
    (future : Option ChannelFuture) (number : Nat) : AsioSocketChannel :=
  (this.setOps (this.writeQueue.ops ++ [⟨request.writeBufferSize, future, number⟩])).plusWriteBufferSize
    request.writeBufferSize

/-- `front` and `pop_front` of an empty queue are outside the language. -/
def poll (this : AsioSocketChannel) : Except Stop (AsioWriteOperation × AsioSocketChannel) :=
  match this.writeQueue.ops with
  | [] => throw .outOfBounds
  | polledOp :: ops =>
      pure (polledOp, (this.setOps ops).minusWriteBufferSize polledOp.writeBufferSize)

/-- The loop of `cleanUpWriteBuffer`; its result is `fireExceptionCaught`. -/
def pollStale (cause : Cause) : Nat → AsioSocketChannel → Except Stop (Bool × AsioSocketChannel)
  | 0, _ => throw .outOfFuel
  | fuel + 1, this =>
      if 1 < this.writeQueue.ops.length then do
        let (polledOp, this) ← this.poll
        let (_, this) ← pollStale cause fuel (this.complete polledOp.future (.failure cause))
        pure (true, this)
      else pure (false, this)

def cleanUpCause (this : AsioSocketChannel) : Cause :=
  if this.isOpen then ⟨⟨.channel, "Channel has not close yet."⟩, 0⟩
  else ⟨⟨.channel, "Channel has closed."⟩, 0⟩

/-- The last entry stays: its write is taken to be under way. -/
def cleanUpWriteBuffer (this : AsioSocketChannel) : Except Stop AsioSocketChannel := do
  let cause := this.cleanUpCause
  let (fireExceptionCaught, this) ← pollStale cause (this.writeQueue.ops.length + 1) this
  if fireExceptionCaught then pure (this.fire (.exceptionCaught cause)) else pure this

def fireStateLost (this : AsioSocketChannel) (connected bound : Bool) : AsioSocketChannel :=
  let this := if connected then this.fire .disconnected else this
  if bound then this.fire .unbound else this

/-- `close(future)`. -/
def closeWith (this : AsioSocketChannel) (future : ChannelFuture) (fault : Option CloseFault) :
    Except Stop AsioSocketChannel :=
  let connected := this.isConnected
  let bound := this.isBound
  if ¬this.isOpen ∨ ¬this.tcpSocketOpen then pure this
  else
    match fault with
    | none => do
        let first := ¬this.closeFutureDone
        let this := { this with tcpSocketOpen := false }.setClosed
        let this := this.complete (some future) .success
        if first then
          let this ← (this.fireStateLost connected bound).cleanUpWriteBuffer
          pure (this.fire .closed)
        else pure this
    | some fault =>
        let cause : Cause :=
          ⟨⟨.io, "closing tcp socket has thrown an exception"⟩, fault.code⟩
        let this := { this with tcpSocketOpen := fault.stillOpen }.setClosed
        let this := this.complete (some future) (.failure cause)
        pure (this.fire (.exceptionCaught cause))

/-- `close()`, called on the io thread. -/
def close (this : AsioSocketChannel) (fault : Option CloseFault) :
    Except Stop AsioSocketChannel :=
  if this.closeFutureDone then pure this else this.closeWith .closeFuture fault

/-- The polled operation is returned for the reader of a run; the source drops it. -/
def handleWrite (this : AsioSocketChannel) (error : Option Int) (bytesTransferred : Nat)
    (fault : Option CloseFault) : Except Stop (AsioWriteOperation × AsioSocketChannel) := do
  let (polledOp, this) ← this.poll
  match error with
  | none =>
      let this := this.complete polledOp.future .success
      let this := this.fire (.writeComplete bytesTransferred)
      if this.writeQueue.ops = [] then pure (polledOp, { this with isWriting := false })
      else pure (polledOp, this)
  | some value =>
      let this := this.complete polledOp.future
        (.failure ⟨⟨.runtime, "write buffer failed, code=" ++ toString value⟩, 0⟩)
      let this ← this.close fault
      pure (polledOp, this)

def write (this : AsioSocketChannel) (evt : MessageEvent) :
    Except Stop (Option ServiceCall × AsioSocketChannel) :=
  if ¬this.isConnected then do
    let this ← this.cleanUpWriteBuffer
    pure (none, this.complete evt.future
      (.failure ⟨⟨.channel, "Channel has been closed."⟩, 0⟩))
  else do
    let this := { this with isWriting := true }
    let writeRequest ← AsioWriteRequest.ofEvent evt
    let this := this.offer writeRequest evt.future evt.number
    if writeRequest.writeBufferSize = 0 then pure (some .post, this)
    else pure (some (.asyncWrite writeRequest.bytes), this)

end AsioSocketChannel

end Cetty
