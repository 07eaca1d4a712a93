import Cetty.DatagramReception
import Cetty.SocketChannel
import Cetty.ActionRuns

/-!
# Requests on a datagram channel

The requests `AsioDatagramPipelineSink` serves, the writes made of the channel and the completions
of its sends. What a socket call answers is an argument; what is thrown under the sink ends in the
pipeline. The writes are numbered, and a send completion polls the write queue by position.
-/

namespace Cetty

open MachineInt

/-- What can be thrown under the sink. `boost::system::system_error` is none of the
library's exceptions, and `catch (const Exception&)` does not see it. -/
inductive Thrown where
  | library (stop : Stop)
  | systemError (code : Int)
  deriving DecidableEq, Repr

inductive DatagramEvent where
  | bound
  | connected
  | unbound
  | closed
  | writeComplete (amount : Nat)
  | exceptionCaught (cause : Cause)
  /-- `notifyHandlerException` of the pipeline. -/
  | pipelineException (thrown : Thrown)
  deriving DecidableEq, Repr

/-- Without an endpoint it is `NULL_ADDRESS`. The address of an endpoint is numeric. -/
abbrev SocketAddress := Option EndpointType

/-- How the calls of the socket end. -/
structure SocketAnswers where
  bind : Option Int
  connect : Option Int
  close : Option CloseFault
  deriving DecidableEq, Repr

structure AsioDatagramChannel where
  closeFutureDone : Bool
  udpSocketOpen : Bool
  receiver : DatagramReceiver
  writeQueue : AsioWriteOperationQueue
  /-- The writes whose `async_send_to`, or post, has not been completed. -/
  sending : List Nat
  fired : List DatagramEvent
  completed : List (ChannelFuture × Outcome)
  deriving Repr

abbrev SinkM := EStateM Thrown AsioDatagramChannel

namespace AsioDatagramChannel

def isOpen (this : AsioDatagramChannel) : Bool := !this.closeFutureDone

def isBound (this : AsioDatagramChannel) : Bool := this.isOpen && this.udpSocketOpen

def fire (this : AsioDatagramChannel) (event : DatagramEvent) : AsioDatagramChannel :=
  { this with fired := this.fired ++ [event] }

def isDone (this : AsioDatagramChannel) (future : ChannelFuture) : Bool :=
  match future with
  | .closeFuture => this.closeFutureDone
  | future => future ∈ this.completed.map Prod.fst

/-- `setSuccess` and `setFailure`: the first one counts. The close future ignores both. -/
def complete (this : AsioDatagramChannel) (future : ChannelFuture) (outcome : Outcome) :
    AsioDatagramChannel :=
  match future with
  | .closeFuture => this
  | future =>
      if this.isDone future then this
      else { this with completed := this.completed ++ [(future, outcome)] }

def completeIfAny (this : AsioDatagramChannel) (future : Option ChannelFuture)
    (outcome : Outcome) : AsioDatagramChannel :=
  match future with
  | none => this
  | some future => this.complete future outcome

def setClosed (this : AsioDatagramChannel) : AsioDatagramChannel :=
  { this with closeFutureDone := true }

def cleanUpWriteBuffer (this : AsioDatagramChannel) : AsioDatagramChannel := this

/-- `AsioDatagramPipelineSink::close`. -/
def closeWith (this : AsioDatagramChannel) (future : ChannelFuture) (fault : Option CloseFault) :
    AsioDatagramChannel :=
  if ¬this.isOpen ∨ ¬this.udpSocketOpen then this
  else
    match fault with
    | none =>
        let first := ¬this.closeFutureDone
        let this := { this with udpSocketOpen := false }.setClosed
        let this := this.complete future .success
        if first then
          let this := if this.isBound then this.fire .unbound else this
          this.cleanUpWriteBuffer.fire .closed
        else this
    | some fault =>
        let cause : Cause :=
          ⟨⟨.io, "closing udp socket has thrown an exception"⟩, fault.code⟩
        let this := { this with udpSocketOpen := fault.stillOpen }.setClosed
        (this.complete future (.failure cause)).fire (.exceptionCaught cause)

/-- `close()` of the channel. -/
def close (this : AsioDatagramChannel) (fault : Option CloseFault) : AsioDatagramChannel :=
  if this.closeFutureDone then this else this.closeWith .closeFuture fault

/-- `future->setFailure(e)` of a future with the listener `CLOSE_ON_FAILURE`. -/
def failAndClose (this : AsioDatagramChannel) (future : ChannelFuture) (cause : Cause)
    (fault : Option CloseFault) : AsioDatagramChannel :=
  if this.isDone future then this else (this.complete future (.failure cause)).close fault

def offer (this : AsioDatagramChannel) (request : AsioWriteRequest)
    (future : Option ChannelFuture) (number : Nat) : AsioDatagramChannel :=
  { this with
    writeQueue :=
      { writeBufferSize := int32 (this.writeQueue.writeBufferSize + request.writeBufferSize)
        ops := this.writeQueue.ops ++ [⟨request.writeBufferSize, future, number⟩] } }

end AsioDatagramChannel

namespace SinkM

open AsioDatagramChannel

/-- `address.address()` of the null address is empty, and `from_string` throws. -/
def fromString (address : SocketAddress) : SinkM EndpointType :=
  match address with
  | some endpoint => pure endpoint
  | none => throw (.systemError 22)

def socketCall (answer : Option Int) : SinkM Unit :=
  match answer with
  | none => pure ()
  | some code => throw (.systemError code)

/-- `try { first; flag = true; second } catch (const Exception& e) { handler }`. -/
def tryMarked (first second : SinkM Unit) (handler : Bool → Exception → SinkM Unit) :
    SinkM Unit := fun this =>
  match first.run this with
  | .error (.library (.thrown e)) after => (handler false e).run after
  | .error thrown after => .error thrown after
  | .ok _ middle =>
      match second.run middle with
      | .error (.library (.thrown e)) after => (handler true e).run after
      | result => result

/-- In the pools of one thread the factory runs the service here; its handlers are
later steps. -/
def startChannel : SinkM Unit := fun this =>
  match DatagramReceiver.startChannel.run this.receiver with
  | .ok _ receiver => .ok () { this with receiver := receiver }
  | .error stop receiver => .error (.library stop) { this with receiver := receiver }

def bind (future : ChannelFuture) (address : SocketAddress) (socket : SocketAnswers) :
    SinkM Unit :=
  tryMarked
    (do
      let _endpoint ← fromString address
      socketCall socket.bind)
    (do
      modify fun this => (this.complete future .success).fire .bound
      startChannel)
    (fun bound e => do
      modify fun this =>
        (this.complete future (.failure ⟨e, 0⟩)).fire (.exceptionCaught ⟨e, 0⟩)
      modify fun this => if bound then this.closeWith future socket.close else this)

def connect (future : ChannelFuture) (remoteAddress : SocketAddress) (socket : SocketAnswers) :
    SinkM Unit := do
  let bound := (← get).isBound
  tryMarked
    (do
      let _endpoint ← fromString remoteAddress
      socketCall socket.connect)
    (do
      modify fun this => this.complete future .success
      modify fun this => if bound then this else this.fire .bound
      modify fun this => this.fire .connected
      if bound then pure () else startChannel)
    (fun connected e => do
      modify fun this =>
        (this.failAndClose future ⟨e, 0⟩ socket.close).fire (.exceptionCaught ⟨e, 0⟩)
      modify fun this => if connected then this.closeWith future socket.close else this)

/-- The address an `any` holds; `other` is a value of another type. -/
inductive Value where
  | empty
  | address (address : SocketAddress)
  | other
  deriving DecidableEq, Repr

inductive ChannelState where
  | opened
  | bound
  | connected
  | interestOps
  deriving DecidableEq, Repr

def handleStateChange (state : ChannelState) (value : Value) (future : ChannelFuture)
    (socket : SocketAnswers) : SinkM Unit :=
  match state, value with
  | .opened, .empty => modify fun this => this.closeWith future socket.close
  | .opened, _ => pure ()
  | .bound, .empty => modify fun this => this.closeWith future socket.close
  | .bound, .address address => bind future address socket
  | .bound, .other => modify fun this => this.closeWith future socket.close
  | .connected, .empty => pure ()
  | .connected, .address address => connect future address socket
  | .connected, .other => modify fun this => this.closeWith future socket.close
  | .interestOps, _ => pure ()

/-- After telling the handlers about a missing address, the write goes on. -/
def sendto (evt : MessageEvent) (address : SocketAddress) : SinkM Unit := do
  modify fun this =>
    if address.isSome then this
    else this.fire (.exceptionCaught ⟨⟨.runtime, "Not yet Connected"⟩, 0⟩)
  let writeRequest ← (fun this =>
    match AsioWriteRequest.ofEvent evt with
    | .ok request => .ok request this
    | .error stop => .error (.library stop) this : SinkM AsioWriteRequest)
  let _endpoint ← fromString address
  modify fun this => this.offer writeRequest evt.future evt.number
  modify fun this => { this with sending := this.sending ++ [evt.number] }

/-- What leaves the sink is caught by the pipeline, but for what has no meaning. -/
def sunk (program : SinkM Unit) (this : AsioDatagramChannel) :
    Except Stop AsioDatagramChannel :=
  match program.run this with
  | .ok _ after => pure after
  | .error (.systemError code) after => pure (after.fire (.pipelineException (.systemError code)))
  | .error (.library (.thrown e)) after =>
      pure (after.fire (.pipelineException (.library (.thrown e))))
  | .error (.library stop) _ => throw stop

end SinkM

namespace AsioDatagramChannel

/-- The outcome `handleSendTo` gives the write it polls. -/
def sendOutcome (error : Option Int) : Outcome :=
  match error with
  | none => .success
  | some value => .failure ⟨⟨.runtime, "write buffer failed, code=" ++ toString value⟩, 0⟩

def handleSendTo (this : AsioDatagramChannel) (error : Option Int) (bytesTransferred : Nat)
    (fault : Option CloseFault) : Except Stop AsioDatagramChannel :=
  match this.writeQueue.ops with
  | [] => throw .outOfBounds
  | polledOp :: ops =>
      let this := { this with
        writeQueue := ⟨int32 (this.writeQueue.writeBufferSize - polledOp.writeBufferSize), ops⟩ }
      let this := this.completeIfAny polledOp.future (sendOutcome error)
      match error with
      | none => pure (this.fire (.writeComplete bytesTransferred))
      | some _ => pure (this.close fault)

end AsioDatagramChannel

open ActionRuns AsioDatagramChannel

namespace AsioDatagramChannel

/-- Until it is closed the channel has its socket. -/
def Sound (this : AsioDatagramChannel) : Prop :=
  this.closeFutureDone = false → this.udpSocketOpen = true

/-- What was fired after `before`. -/
def firedSince (before after : AsioDatagramChannel) : List DatagramEvent :=
  after.fired.drop before.fired.length

/-- What serving a request with this future can change. -/
structure Extends (future : ChannelFuture) (before after : AsioDatagramChannel) : Prop where
  queue : after.writeQueue = before.writeQueue
  sending : after.sending = before.sending
  closed : before.closeFutureDone = true → after.closeFutureDone = true
  sound : before.Sound → after.Sound
  bound : after.isBound = true → before.isBound = true
  completed : after.completed = before.completed ∨
    ∃ outcome, future ≠ .closeFuture ∧ future ∉ before.completed.map Prod.fst ∧
      after.completed = before.completed ++ [(future, outcome)]
  fired : ∃ new, after.fired = before.fired ++ new ∧ DatagramEvent.unbound ∉ new ∧
    (DatagramEvent.closed ∈ new → before.isBound = true)

namespace Extends

variable {future : ChannelFuture} {before middle after : AsioDatagramChannel}

theorem refl (this : AsioDatagramChannel) : Extends future this this where
  queue := rfl
  sending := rfl
  closed := id
  sound := id
  bound := id
  completed := Or.inl rfl
  fired := ⟨[], by simp, List.not_mem_nil, by simp⟩

theorem trans (first : Extends future before middle) (second : Extends future middle after) :
    Extends future before after where
  queue := second.queue.trans first.queue
  sending := second.sending.trans first.sending
  closed := fun done => second.closed (first.closed done)
  sound := fun holds => second.sound (first.sound holds)
  bound := fun open_ => first.bound (second.bound open_)
  completed := by
    rcases first.completed with same | ⟨outcome, own, fresh, appended⟩
    · rcases second.completed with same' | ⟨outcome, own, fresh, appended⟩
      · exact Or.inl (same'.trans same)
      · rw [same] at fresh appended
        exact Or.inr ⟨outcome, own, fresh, appended⟩
    · rcases second.completed with same' | ⟨outcome', own', fresh', appended'⟩
      · exact Or.inr ⟨outcome, own, fresh, same'.trans appended⟩
      · -- the first completion was the last one
        rw [appended] at fresh'
        exact absurd (by simp) fresh'
  fired := by
    obtain ⟨new, grown, quiet, from_⟩ := first.fired
    obtain ⟨new', grown', quiet', from_'⟩ := second.fired
    refine ⟨new ++ new', ?_, ?_, ?_⟩
    · rw [grown', grown, List.append_assoc]
    · intro among
      rcases List.mem_append.mp among with early | late
      · exact quiet early
      · exact quiet' late
    · intro among
      rcases List.mem_append.mp among with early | late
      · exact from_ early
      · exact first.bound (from_' late)

theorem done (extends_ : Extends future before after) {other : ChannelFuture}
    (done : before.isDone other = true) : after.isDone other = true := by
  cases other with
  | closeFuture => exact extends_.closed done
  | ofWrite number =>
      simp only [isDone, decide_eq_true_eq] at done ⊢
      rcases extends_.completed with same | ⟨outcome, -, -, appended⟩
      · rwa [same]
      · rw [appended, List.map_append]
        exact List.mem_append_left _ done
  | other number =>
      simp only [isDone, decide_eq_true_eq] at done ⊢
      rcases extends_.completed with same | ⟨outcome, -, -, appended⟩
      · rwa [same]
      · rw [appended, List.map_append]
        exact List.mem_append_left _ done

end Extends

section Operations

variable {future : ChannelFuture}

theorem extends_fire (this : AsioDatagramChannel) {event : DatagramEvent}
    (notUnbound : event ≠ .unbound) (notClosed : event ≠ .closed) :
    Extends future this (this.fire event) where
  queue := rfl
  sending := rfl
  closed := id
  sound := id
  bound := id
  completed := Or.inl rfl
  fired := ⟨[event], rfl, fun among => notUnbound (List.mem_singleton.mp among).symm,
    fun among => absurd (List.mem_singleton.mp among).symm notClosed⟩

theorem isDone_iff (this : AsioDatagramChannel) (own : future ≠ .closeFuture) :
    this.isDone future = true ↔ future ∈ this.completed.map Prod.fst := by
  cases future with
  | closeFuture => exact absurd rfl own
  | ofWrite number => exact decide_eq_true_iff
  | other number => exact decide_eq_true_iff

theorem complete_known {this : AsioDatagramChannel} (known : this.isDone future = true)
    (outcome : Outcome) : this.complete future outcome = this := by
  cases future with
  | closeFuture => rfl
  | ofWrite number => exact if_pos known
  | other number => exact if_pos known

theorem complete_fresh {this : AsioDatagramChannel} (own : future ≠ .closeFuture)
    (fresh : this.isDone future = false) (outcome : Outcome) :
    this.complete future outcome =
      { this with completed := this.completed ++ [(future, outcome)] } := by
  have undone : ¬this.isDone future = true := by
    rw [fresh]
    exact Bool.false_ne_true
  cases future with
  | closeFuture => exact absurd rfl own
  | ofWrite number => exact if_neg undone
  | other number => exact if_neg undone

theorem extends_complete (this : AsioDatagramChannel) (outcome : Outcome) :
    Extends future this (this.complete future outcome) := by
  cases known : this.isDone future with
  | true =>
      rw [complete_known known]
      exact Extends.refl this
  | false =>
      by_cases own : future = .closeFuture
      · rw [own]
        exact Extends.refl this
      · have fresh : future ∉ this.completed.map Prod.fst := by
          rw [← isDone_iff this own, known]
          exact Bool.false_ne_true
        rw [complete_fresh own known]
        exact ⟨rfl, rfl, id, id, id, Or.inr ⟨outcome, own, fresh, rfl⟩,
          [], by simp, List.not_mem_nil, by simp⟩

theorem complete_done (this : AsioDatagramChannel) (own : future ≠ .closeFuture)
    (outcome : Outcome) : (this.complete future outcome).isDone future = true := by
  cases known : this.isDone future with
  | true => rw [complete_known known, known]
  | false =>
      rw [complete_fresh own known, isDone_iff _ own]
      simp

theorem closeWith_unbound {this : AsioDatagramChannel} (unbound : this.isBound = false)
    (fault : Option CloseFault) : this.closeWith future fault = this := by
  unfold closeWith
  rw [if_pos]
  simp only [isBound, Bool.and_eq_false_iff] at unbound
  rcases unbound with closed | gone
  · exact Or.inl (by rw [closed]; exact Bool.false_ne_true)
  · exact Or.inr (by rw [gone]; exact Bool.false_ne_true)

theorem closeWith_guard {this : AsioDatagramChannel} (bound : this.isBound = true) :
    ¬(¬this.isOpen = true ∨ ¬this.udpSocketOpen = true) := by
  simp only [isBound, Bool.and_eq_true] at bound
  rw [bound.1, bound.2]
  simp

/-- The test whether the channel is bound is made when it is closed already. -/
theorem closeWith_closes {this : AsioDatagramChannel} (bound : this.isBound = true) :
    this.closeWith future none =
      ({ this with udpSocketOpen := false }.setClosed.complete future .success).fire .closed := by
  have unmarked : this.closeFutureDone = false := by
    simp only [isBound, isOpen, Bool.and_eq_true, Bool.not_eq_true'] at bound
    exact bound.1
  have marked : ({ this with udpSocketOpen := false }.setClosed.complete future
      .success).closeFutureDone = true :=
    (extends_complete _ _).closed rfl
  have unbound : ({ this with udpSocketOpen := false }.setClosed.complete future
      .success).isBound = false := by
    unfold isBound isOpen
    rw [marked]
    rfl
  unfold closeWith
  rw [if_neg (closeWith_guard bound)]
  simp only
  rw [if_pos (by rw [unmarked]; exact Bool.false_ne_true), unbound, if_neg Bool.false_ne_true]
  rfl

theorem closeWith_fails (future : ChannelFuture) {this : AsioDatagramChannel} (bound : this.isBound = true)
    (fault : CloseFault) :
    ∃ cause, this.closeWith future (some fault) =
      ({ this with udpSocketOpen := fault.stillOpen }.setClosed.complete future
        (.failure cause)).fire (.exceptionCaught cause) := by
  refine ⟨⟨⟨.io, "closing udp socket has thrown an exception"⟩, fault.code⟩, ?_⟩
  unfold closeWith
  rw [if_neg (closeWith_guard bound)]

theorem extends_closing {this : AsioDatagramChannel} (bound : this.isBound = true)
    (stillOpen : Bool) : Extends future this { this with udpSocketOpen := stillOpen }.setClosed where
  queue := rfl
  sending := rfl
  closed := fun _ => rfl
  sound := fun _ undone => Bool.noConfusion undone
  bound := fun _ => bound
  completed := Or.inl rfl
  fired := ⟨[], by simp [setClosed], List.not_mem_nil, by simp⟩

theorem extends_closed {this here : AsioDatagramChannel} (bound : this.isBound = true)
    (reached : Extends future this here) : Extends future this (here.fire .closed) where
  queue := reached.queue
  sending := reached.sending
  closed := reached.closed
  sound := reached.sound
  bound := reached.bound
  completed := reached.completed
  fired := by
    obtain ⟨new, grown, quiet, -⟩ := reached.fired
    refine ⟨new ++ [.closed], ?_, ?_, fun _ => bound⟩
    · change here.fired ++ _ = _
      rw [grown, List.append_assoc]
    · intro among
      rcases List.mem_append.mp among with early | late
      · exact quiet early
      · cases List.mem_singleton.mp late

section

variable (this : AsioDatagramChannel)

include this

theorem extends_closeWith (fault : Option CloseFault) :
    Extends future this (this.closeWith future fault) := by
  cases bound : this.isBound with
  | false =>
      rw [closeWith_unbound bound]
      exact Extends.refl this
  | true =>
      cases fault with
      | none =>
          rw [closeWith_closes bound]
          exact extends_closed bound ((extends_closing bound false).trans (extends_complete _ _))
      | some fault =>
          obtain ⟨cause, closed⟩ := closeWith_fails future bound fault
          rw [closed]
          exact ((extends_closing bound fault.stillOpen).trans (extends_complete _ _)).trans
            (extends_fire _ nofun nofun)

theorem extends_close (fault : Option CloseFault) :
    Extends future this (this.close fault) := by
  unfold close
  split
  · exact Extends.refl this
  · have closing : Extends .closeFuture this (this.closeWith .closeFuture fault) :=
      extends_closeWith this fault
    refine ⟨closing.queue, closing.sending, closing.closed, closing.sound, closing.bound, ?_,
      closing.fired⟩
    rcases closing.completed with same | ⟨outcome, own, -⟩
    · exact Or.inl same
    · exact absurd rfl own

theorem extends_failAndClose (cause : Cause)
    (fault : Option CloseFault) : Extends future this (this.failAndClose future cause fault) := by
  unfold failAndClose
  split
  · exact Extends.refl this
  · exact (extends_complete this _).trans (extends_close _ fault)

theorem fire_done (event : DatagramEvent) :
    (this.fire event).isDone future = this.isDone future := by
  cases future <;> rfl

end

/-- A channel that has just been marked as closed completes the future of the close. -/
theorem closing_done {this : AsioDatagramChannel} (marked : this.closeFutureDone = true)
    (outcome : Outcome) : (this.complete future outcome).isDone future = true := by
  by_cases own : future = .closeFuture
  · rw [own]
    exact marked
  · exact complete_done this own outcome

/-- A close of a bound channel completes the future it was given. -/
theorem closeWith_done {this : AsioDatagramChannel} (bound : this.isBound = true)
    (fault : Option CloseFault) : (this.closeWith future fault).isDone future = true := by
  cases fault with
  | none =>
      rw [closeWith_closes bound, fire_done]
      exact closing_done rfl _
  | some fault =>
      obtain ⟨cause, closed⟩ := closeWith_fails future bound fault
      rw [closed, fire_done]
      exact closing_done rfl _

end Operations

end AsioDatagramChannel

namespace SinkM

open AsioDatagramChannel

/-- The state a program ends in, also when it throws. -/
def endOf {Value : Type} (program : SinkM Value) (before : AsioDatagramChannel) :
    AsioDatagramChannel :=
  match program.run before with
  | .ok _ after => after
  | .error _ after => after

/-- Wherever a program ends, it has changed no more than serving the future does. -/
def Serves {Value : Type} (future : ChannelFuture) (program : SinkM Value) : Prop :=
  ∀ before, Extends future before (endOf program before)

section Programs

variable {Value Next : Type} {future : ChannelFuture}

theorem serves_pure (value : Value) : Serves future (pure value : SinkM Value) :=
  fun before => Extends.refl before

theorem serves_get : Serves future (get : SinkM AsioDatagramChannel) :=
  fun before => Extends.refl before

theorem serves_throw (thrown : Thrown) : Serves future (throw thrown : SinkM Value) :=
  fun before => Extends.refl before

theorem serves_modify {change : AsioDatagramChannel → AsioDatagramChannel}
    (small : ∀ before, Extends future before (change before)) :
    Serves future (modify change : SinkM Unit) := small

theorem serves_bind {program : SinkM Value} {next : Value → SinkM Next}
    (first : Serves future program) (later : ∀ value, Serves future (next value)) :
    Serves future (program >>= next) := by
  intro before
  have start := first before
  unfold endOf at start ⊢
  rw [EStateM.run_bind]
  cases ran : program.run before with
  | ok value middle =>
      rw [ran] at start
      exact start.trans (later value middle)
  | error thrown middle =>
      rw [ran] at start
      exact start

theorem serves_tryMarked {first second : SinkM Unit} {handler : Bool → Exception → SinkM Unit}
    (start : Serves future first) (rest : Serves future second)
    (handles : ∀ flag e, Serves future (handler flag e)) :
    Serves future (tryMarked first second handler) := by
  intro before
  have head := start before
  have tail_ := rest (endOf first before)
  unfold endOf at head tail_ ⊢
  simp only [tryMarked, EStateM.run] at head tail_ ⊢
  cases ran : first before with
  | ok value middle =>
      rw [ran] at head tail_
      cases ran' : second middle with
      | ok value after =>
          rw [ran'] at tail_
          simp only [ran']
          exact head.trans tail_
      | error thrown after =>
          rw [ran'] at tail_
          cases thrown with
          | systemError code =>
              simp only [ran']
              exact head.trans tail_
          | library stop =>
              cases stop with
              | thrown e =>
                  simp only [ran']
                  exact (head.trans tail_).trans (handles true e after)
              | _ =>
                  simp only [ran']
                  exact head.trans tail_
  | error thrown middle =>
      rw [ran] at head
      cases thrown with
      | systemError code => exact head
      | library stop =>
          cases stop with
          | thrown e => exact head.trans (handles false e middle)
          | _ => exact head

theorem serves_fromString (address : SocketAddress) : Serves future (fromString address) := by
  cases address with
  | none => exact serves_throw _
  | some endpoint => exact serves_pure endpoint

theorem serves_socketCall (answer : Option Int) : Serves future (socketCall answer) := by
  cases answer with
  | none => exact serves_pure ()
  | some code => exact serves_throw _

theorem serves_startChannel : Serves future startChannel := by
  intro before
  have moved : ∀ receiver, Extends future before { before with receiver := receiver } :=
    fun receiver => ⟨rfl, rfl, id, id, id, Or.inl rfl, [], by simp, List.not_mem_nil, by simp⟩
  simp only [endOf, startChannel, EStateM.run]
  cases DatagramReceiver.startChannel before.receiver with
  | ok value receiver => exact moved receiver
  | error stop receiver => exact moved receiver

theorem serves_bindFailure (socket : SocketAnswers) (bound : Bool) (e : Exception) :
    Serves future (do
      modify fun this =>
        (this.complete future (.failure ⟨e, 0⟩)).fire (.exceptionCaught ⟨e, 0⟩)
      modify fun this => if bound then this.closeWith future socket.close else this) := by
  apply serves_bind
  · exact serves_modify fun this => (extends_complete this _).trans (extends_fire _ nofun nofun)
  · intro _
    apply serves_modify
    intro this
    split
    · exact extends_closeWith this _
    · exact Extends.refl this

theorem serves_bindRequest (address : SocketAddress) (socket : SocketAnswers) :
    Serves future (bind future address socket) := by
  apply serves_tryMarked
  · exact serves_bind (serves_fromString address) (fun _ => serves_socketCall _)
  · apply serves_bind
    · exact serves_modify fun this => (extends_complete this _).trans (extends_fire _ nofun nofun)
    · exact fun _ => serves_startChannel
  · exact serves_bindFailure socket

theorem serves_connected (bound : Bool) :
    Serves future (do
      modify fun this => if bound then this else this.fire .bound
      modify fun this => this.fire .connected
      if bound then pure () else startChannel) := by
  apply serves_bind
  · apply serves_modify
    intro this
    split
    · exact Extends.refl this
    · exact extends_fire this nofun nofun
  · intro _
    apply serves_bind
    · exact serves_modify fun this => extends_fire this nofun nofun
    · intro _
      split
      · exact serves_pure ()
      · exact serves_startChannel

theorem serves_connectFailure (socket : SocketAnswers) (connected : Bool) (e : Exception) :
    Serves future (do
      modify fun this =>
        (this.failAndClose future ⟨e, 0⟩ socket.close).fire (.exceptionCaught ⟨e, 0⟩)
      modify fun this => if connected then this.closeWith future socket.close else this) := by
  apply serves_bind
  · exact serves_modify fun this =>
      (extends_failAndClose this _ _).trans (extends_fire _ nofun nofun)
  · intro _
    apply serves_modify
    intro this
    split
    · exact extends_closeWith this _
    · exact Extends.refl this

theorem serves_connectRequest (address : SocketAddress) (socket : SocketAnswers) :
    Serves future (connect future address socket) := by
  apply serves_bind serves_get
  intro here
  apply serves_tryMarked
  · exact serves_bind (serves_fromString address) (fun _ => serves_socketCall _)
  · apply serves_bind
    · exact serves_modify fun this => extends_complete this _
    · exact fun _ => serves_connected here.isBound
  · exact serves_connectFailure socket

theorem serves_handleStateChange (state : ChannelState) (value : SinkM.Value)
    (socket : SocketAnswers) : Serves future (handleStateChange state value future socket) := by
  have closing : Serves future
      (modify fun this => this.closeWith future socket.close : SinkM Unit) :=
    serves_modify fun this => extends_closeWith this socket.close
  cases state with
  | opened =>
      cases value with
      | empty => exact closing
      | _ => exact serves_pure ()
  | bound =>
      cases value with
      | address address => exact serves_bindRequest address socket
      | _ => exact closing
  | connected =>
      cases value with
      | empty => exact serves_pure ()
      | address address => exact serves_connectRequest address socket
      | other => exact closing
  | interestOps => exact serves_pure ()

section Completions

variable {before : AsioDatagramChannel}

/-- Once the socket call has passed, the future is completed first. -/
theorem done_tryMarked {first rest : SinkM Unit}
    {change : AsioDatagramChannel → AsioDatagramChannel}
    {handler : Bool → Exception → SinkM Unit} (passes : first.run before = .ok () before)
    (done : (change before).isDone future = true) (later : Serves future rest)
    (handles : ∀ flag e, Serves future (handler flag e)) :
    (endOf (tryMarked first (do modify change; rest) handler) before).isDone future = true := by
  have shifted : endOf (tryMarked first (do modify change; rest) handler) before =
      endOf (tryMarked (pure ()) rest handler) (change before) := by
    simp only [endOf, tryMarked, EStateM.run] at passes ⊢
    rw [passes]
    rfl
  rw [shifted]
  exact (serves_tryMarked (serves_pure ()) later handles (change before)).done done

theorem passes_call (endpoint : EndpointType) {answer : Option Int} (answers : answer = none) :
    (do
      let _endpoint ← fromString (some endpoint)
      socketCall answer : SinkM Unit).run before = .ok () before := by
  rw [answers]
  rfl

section

variable (own : future ≠ .closeFuture) (endpoint : EndpointType) {socket : SocketAnswers}

include own endpoint

theorem bind_done (answers : socket.bind = none) :
    (endOf (bind future (some endpoint) socket) before).isDone future = true := by
  unfold bind
  apply done_tryMarked (passes_call endpoint answers)
  · rw [fire_done]
    exact complete_done _ own _
  · exact serves_startChannel
  · exact serves_bindFailure socket

theorem connect_done (answers : socket.connect = none) :
    (endOf (connect future (some endpoint) socket) before).isDone future = true := by
  unfold connect endOf
  rw [run_bind_get]
  apply done_tryMarked (passes_call endpoint answers)
  · exact complete_done before own .success
  · exact serves_connected before.isBound
  · exact serves_connectFailure socket

end

end Completions

end Programs

end SinkM

end Cetty
