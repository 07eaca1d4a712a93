import Cetty.DatagramRequests

/-!
# Completion of datagram requests

The requests and writes made of one channel, with the completions of its sends in
any order. Which requests get their future completed, and what a close announces.
-/

namespace Cetty

open MachineInt ActionRuns AsioDatagramChannel

inductive Request where
  | bind (address : SocketAddress)
  | connect (address : SocketAddress)
  | disconnect
  | unbind
  | close
  | setInterestOps
  deriving DecidableEq, Repr

namespace Request

def state : Request → SinkM.ChannelState
  | bind _ => .bound
  | connect _ => .connected
  | disconnect => .connected
  | unbind => .bound
  | close => .opened
  | setInterestOps => .interestOps

def value : Request → SinkM.Value
  | bind address => .address address
  | connect address => .address address
  | disconnect => .empty
  | unbind => .empty
  | close => .empty
  | setInterestOps => .other

end Request

structure DatagramService where
  channel : AsioDatagramChannel
  issued : Nat
  /-- The futures of the state requests the sink has processed. -/
  processed : List ChannelFuture
  /-- The writes that were made with a future. -/
  offered : List Nat
  /-- The writes whose own send has been completed, and how. -/
  finished : List (Nat × Outcome)
  deriving Repr

namespace DatagramService

inductive Action where
  | request (request : Request) (socket : SocketAnswers)
  | write (message : ChannelBuffer) (address : SocketAddress) (withFuture : Bool)
  | sent (position : Nat) (error : Option Int) (amount : Nat) (fault : Option CloseFault)
  | received (arrival : Arrival)
  | receiveFailed (fault : Option CloseFault)

def future (this : DatagramService) : Request → ChannelFuture
  | .close => .closeFuture
  | _ => .other this.issued

def event (this : DatagramService) (message : ChannelBuffer) (withFuture : Bool) :
    MessageEvent :=
  ⟨message, if withFuture then some (.ofWrite this.issued) else none, this.issued⟩

/-- The request on its way through an empty pipeline. A closed channel makes no
request of `close()`. -/
def submit (this : DatagramService) (request : Request) (socket : SocketAnswers) :
    Except Stop AsioDatagramChannel :=
  if request = .close ∧ this.channel.closeFutureDone = true then pure this.channel
  else
    SinkM.sunk
      (SinkM.handleStateChange request.state request.value (this.future request) socket)
      this.channel

def next (this : DatagramService) : Action → Except Stop DatagramService
  | .request request socket => do
      let channel ← this.submit request socket
      pure { this with
        channel := channel
        issued := this.issued + 1
        processed := this.processed ++ [this.future request] }
  | .write message address withFuture => do
      let channel ← SinkM.sunk (SinkM.sendto (this.event message withFuture) address) this.channel
      pure { this with
        channel := channel
        issued := this.issued + 1
        offered := if withFuture then this.offered ++ [this.issued] else this.offered }
  | .sent position error amount fault =>
      match this.channel.sending[position]? with
      | none => throw .outOfBounds
      | some number => do
          let channel ← { this.channel with
            sending := this.channel.sending.eraseIdx position }.handleSendTo error amount fault
          pure { this with
            channel := channel
            finished := this.finished ++ [(number, sendOutcome error)] }
  | .received arrival =>
      pure { this with
        channel := { this.channel with receiver := this.channel.receiver.arrive arrival } }
  | .receiveFailed fault => pure { this with channel := this.channel.close fault }

def Step (before : DatagramService) (action : Action) (after : DatagramService) : Prop :=
  before.next action = .ok after

/-- As the constructor of the channel leaves it. -/
def opened (receiver : DatagramReceiver) : DatagramService where
  channel := ⟨false, true, receiver, ⟨0, []⟩, [], [], []⟩
  issued := 0
  processed := []
  offered := []
  finished := []

/-- Every request that was processed has its future completed; a write is either
still being sent, or completed as its own send was. No future is completed twice. -/
structure Completes (this : DatagramService) : Prop where
  requests : ∀ future ∈ this.processed, this.channel.isDone future = true
  writes : ∀ number ∈ this.offered,
    (number ∈ this.channel.sending ∧ this.channel.isDone (.ofWrite number) = false) ∨
      ∃ outcome, (number, outcome) ∈ this.finished ∧
        (.ofWrite number, outcome) ∈ this.channel.completed
  once : (this.channel.completed.map Prod.fst).Nodup

/-- The requests the sink completes, and the sends that complete in order. -/
def Answers (this : DatagramService) : Action → Prop
  | .request (.bind address) socket => address.isSome = true ∧ socket.bind = none
  | .request (.connect address) socket => address.isSome = true ∧ socket.connect = none
  | .request .disconnect _ => False
  | .request .unbind _ => this.channel.isBound = true
  | .request .close _ => True
  | .request .setInterestOps _ => False
  | .write message address withFuture => withFuture = true →
      address.isSome = true ∧
        ∃ request, AsioWriteRequest.ofEvent (this.event message withFuture) = .ok request
  | .sent position _ _ _ => position = 0
  | .received _ => True
  | .receiveFailed _ => True

end DatagramService

def ChannelFuture.IssuedBefore (bound : Nat) : ChannelFuture → Prop
  | closeFuture => True
  | ofWrite number => number < bound
  | other number => number < bound

theorem ChannelFuture.IssuedBefore.mono {future : ChannelFuture} {bound later : Nat}
    (issued : future.IssuedBefore bound) (le : bound ≤ later) : future.IssuedBefore later := by
  cases future with
  | closeFuture => trivial
  | ofWrite number => exact Nat.lt_of_lt_of_le issued le
  | other number => exact Nat.lt_of_lt_of_le issued le

namespace DatagramService

structure Accounted (this : DatagramService) : Prop where
  sound : this.channel.Sound
  requests : ∀ future ∈ this.processed, this.channel.isDone future = true
  once : (this.channel.completed.map Prod.fst).Nodup
  issued : ∀ future ∈ this.channel.completed.map Prod.fst, future.IssuedBefore this.issued
  numbers : this.channel.writeQueue.ops.map AsioWriteOperation.number = this.channel.sending
  carried : ∀ op ∈ this.channel.writeQueue.ops,
    op.future = none ∨ op.future = some (.ofWrite op.number)
  offers : ∀ op ∈ this.channel.writeQueue.ops, op.number ∈ this.offered →
    op.future = some (.ofWrite op.number)
  distinct : this.channel.sending.Nodup
  sending : ∀ number ∈ this.channel.sending, number < this.issued ∧
    ChannelFuture.ofWrite number ∉ this.channel.completed.map Prod.fst
  offered : ∀ number ∈ this.offered, number < this.issued
  settled : ∀ number ∈ this.offered, number ∈ this.channel.sending ∨
    ∃ outcome, (number, outcome) ∈ this.finished ∧
      (.ofWrite number, outcome) ∈ this.channel.completed

theorem Accounted.completes {this : DatagramService} (accounted : this.Accounted) :
    this.Completes where
  requests := accounted.requests
  once := accounted.once
  writes := by
    intro number among
    rcases accounted.settled number among with pending | done
    · have undone := (accounted.sending number pending).2
      exact Or.inl ⟨pending, decide_eq_false undone⟩
    · exact Or.inr done

theorem opened_accounted (receiver : DatagramReceiver) : (opened receiver).Accounted where
  sound := fun _ => rfl
  requests := by simp [opened]
  once := .nil
  issued := by simp [opened]
  numbers := rfl
  carried := by simp [opened]
  offers := by simp [opened]
  distinct := .nil
  sending := by simp [opened]
  offered := by simp [opened]
  settled := by simp [opened]

section Steps

variable {this : DatagramService} {channel : AsioDatagramChannel} {future : ChannelFuture}

theorem completed_of_extends (extends_ : Extends future this.channel channel)
    {entry : ChannelFuture × Outcome} (among : entry ∈ this.channel.completed) :
    entry ∈ channel.completed := by
  rcases extends_.completed with same | ⟨outcome, -, -, appended⟩
  · rwa [same]
  · rw [appended]
    exact List.mem_append_left _ among

/-- Serving a request keeps the account, whatever its future is. -/
theorem Accounted.served (accounted : this.Accounted)
    (extends_ : Extends future this.channel channel) {issued : Nat} (later : this.issued ≤ issued)
    (own : future.IssuedBefore issued) (notWrite : ∀ number, future ≠ .ofWrite number)
    {processed : List ChannelFuture} (done : ∀ future ∈ processed, channel.isDone future = true) :
    Accounted { this with channel := channel, issued := issued, processed := processed } where
  sound := extends_.sound accounted.sound
  requests := done
  once := by
    change (channel.completed.map Prod.fst).Nodup
    rcases extends_.completed with same | ⟨outcome, -, fresh, appended⟩
    · rw [same]
      exact accounted.once
    · rw [appended, List.map_append, List.nodup_append]
      refine ⟨accounted.once, List.pairwise_singleton _ _, ?_⟩
      intro one among other last equal
      cases List.mem_singleton.mp last
      subst equal
      exact fresh among
  issued := by
    intro one among
    change one ∈ channel.completed.map Prod.fst at among
    rcases extends_.completed with same | ⟨outcome, -, -, appended⟩
    · rw [same] at among
      exact (accounted.issued one among).mono later
    · rw [appended, List.map_append] at among
      rcases List.mem_append.mp among with earlier | last
      · exact (accounted.issued one earlier).mono later
      · cases List.mem_singleton.mp last
        exact own
  numbers := by
    change channel.writeQueue.ops.map _ = channel.sending
    rw [extends_.queue, extends_.sending]
    exact accounted.numbers
  carried := by
    change ∀ op ∈ channel.writeQueue.ops, _
    rw [extends_.queue]
    exact accounted.carried
  offers := by
    change ∀ op ∈ channel.writeQueue.ops, _
    rw [extends_.queue]
    exact accounted.offers
  distinct := by
    change channel.sending.Nodup
    rw [extends_.sending]
    exact accounted.distinct
  sending := by
    intro number among
    change number ∈ channel.sending at among
    rw [extends_.sending] at among
    obtain ⟨small, undone⟩ := accounted.sending number among
    refine ⟨Nat.lt_of_lt_of_le small later, ?_⟩
    change _ ∉ channel.completed.map Prod.fst
    rcases extends_.completed with same | ⟨outcome, -, -, appended⟩
    · rwa [same]
    · rw [appended, List.map_append]
      intro found
      rcases List.mem_append.mp found with earlier | last
      · exact undone earlier
      · exact notWrite number (List.mem_singleton.mp last).symm
  offered := fun number among => Nat.lt_of_lt_of_le (accounted.offered number among) later
  settled := by
    intro number among
    rcases accounted.settled number among with pending | ⟨outcome, own, completed⟩
    · refine Or.inl ?_
      change number ∈ channel.sending
      rwa [extends_.sending]
    · exact Or.inr ⟨outcome, own, completed_of_extends extends_ completed⟩

theorem extends_sunk {program : SinkM Unit} {before after : AsioDatagramChannel}
    (serves : SinkM.Serves future program) (ran : SinkM.sunk program before = .ok after) :
    Extends future before after ∧
      ((SinkM.endOf program before).isDone future = true → after.isDone future = true) := by
  have reached := serves before
  unfold SinkM.endOf at reached ⊢
  unfold SinkM.sunk at ran
  cases result : program.run before with
  | ok value end_ =>
      rw [result] at reached ran
      cases ran
      exact ⟨reached, id⟩
  | error thrown end_ =>
      rw [result] at reached ran
      have told : ∀ thrown, Extends future end_ (end_.fire (.pipelineException thrown)) :=
        fun thrown => extends_fire end_ nofun nofun
      cases thrown with
      | systemError code =>
          cases ran
          exact ⟨reached.trans (told _), (told _).done⟩
      | library stop =>
          cases stop with
          | thrown e =>
              cases ran
              exact ⟨reached.trans (told _), (told _).done⟩
          | _ => cases ran

variable {socket : SocketAnswers}

theorem submit_extends {request : Request}
    (ran : this.submit request socket = .ok channel) :
    Extends (this.future request) this.channel channel := by
  unfold submit at ran
  split at ran
  · cases ran
    exact Extends.refl _
  · exact (extends_sunk (SinkM.serves_handleStateChange _ _ _) ran).1

/-- The future of an answered request is completed when the sink returns. -/
theorem submit_done (sound : this.channel.Sound) {request : Request}
    (answered : this.Answers (.request request socket))
    (ran : this.submit request socket = .ok channel) :
    channel.isDone (this.future request) = true := by
  unfold submit at ran
  split at ran
  · rename_i closed
    cases ran
    rw [closed.1]
    exact closed.2
  · rename_i open_
    have own : ChannelFuture.other this.issued ≠ .closeFuture := ChannelFuture.noConfusion
    apply (extends_sunk (SinkM.serves_handleStateChange _ _ _) ran).2
    cases request with
    | bind address =>
        obtain ⟨valid, answers⟩ := answered
        obtain ⟨endpoint, rfl⟩ := Option.isSome_iff_exists.mp valid
        exact SinkM.bind_done own endpoint answers
    | connect address =>
        obtain ⟨valid, answers⟩ := answered
        obtain ⟨endpoint, rfl⟩ := Option.isSome_iff_exists.mp valid
        exact SinkM.connect_done own endpoint answers
    | disconnect => exact absurd answered id
    | unbind => exact closeWith_done answered _
    | close =>
        have unmarked : this.channel.closeFutureDone = false := by
          cases marked : this.channel.closeFutureDone with
          | true => exact absurd ⟨rfl, marked⟩ open_
          | false => rfl
        apply closeWith_done
        unfold isBound isOpen
        rw [unmarked, sound unmarked]
        rfl
    | setInterestOps => exact absurd answered id

/-- The handlers have been told, but the channel is the same. -/
theorem extends_told (this : AsioDatagramChannel) (address : SocketAddress) (cause : Cause) :
    Extends future this (if address.isSome then this else this.fire (.exceptionCaught cause)) := by
  split
  · exact Extends.refl this
  · exact extends_fire this nofun nofun

/-- A write to a valid address is queued and handed to the socket; any other one is
dropped with its exception. -/
theorem sunk_sendto {before after : AsioDatagramChannel} {evt : MessageEvent}
    {address : SocketAddress} (ran : SinkM.sunk (SinkM.sendto evt address) before = .ok after) :
    (∃ request, AsioWriteRequest.ofEvent evt = .ok request ∧ address.isSome = true ∧
      after = { before.offer request evt.future evt.number with
        sending := before.sending ++ [evt.number] }) ∨
    (Extends .closeFuture before after ∧
      (address.isSome = true → ∃ stop, AsioWriteRequest.ofEvent evt = .error stop)) := by
  have told : Extends .closeFuture before
      (if address.isSome then before
        else before.fire (.exceptionCaught ⟨⟨.runtime, "Not yet Connected"⟩, 0⟩)) :=
    extends_told before address _
  have thrown : ∀ here thrown, Extends .closeFuture before here →
      Extends .closeFuture before (here.fire (.pipelineException thrown)) := by
    intro here thrown reached
    exact reached.trans (extends_fire here (by simp) (by simp))
  unfold SinkM.sunk SinkM.sendto at ran
  simp only [EStateM.run_bind, EStateM.run_modify] at ran
  cases made : AsioWriteRequest.ofEvent evt with
  | error stop =>
      simp only [made, EStateM.run] at ran
      cases stop with
      | thrown e =>
          cases ran
          exact Or.inr ⟨thrown _ _ told, fun _ => ⟨_, rfl⟩⟩
      | _ => cases ran
  | ok request =>
      simp only [made, EStateM.run] at ran
      cases address with
      | none =>
          cases ran
          exact Or.inr ⟨thrown _ _ told, fun valid => Bool.noConfusion valid⟩
      | some endpoint =>
          cases ran
          exact Or.inl ⟨request, rfl, rfl, rfl⟩

theorem completed_of_close {before after : AsioDatagramChannel}
    (extends_ : Extends .closeFuture before after) : after.completed = before.completed := by
  rcases extends_.completed with same | ⟨outcome, own, -⟩
  · exact same
  · exact absurd rfl own

end Steps

section Preserved

variable {before after : DatagramService}

theorem Accounted.request (accounted : before.Accounted) {request : Request}
    {socket : SocketAnswers} (answered : before.Answers (.request request socket))
    (stepped : Step before (.request request socket) after) : after.Accounted := by
  obtain ⟨channel, submitted, made⟩ := ok_of_bind stepped
  cases made
  have extends_ := submit_extends submitted
  have done := submit_done accounted.sound answered submitted
  apply accounted.served extends_ (Nat.le_succ _)
  · cases request <;> first | trivial | exact Nat.lt_succ_self _
  · cases request <;> simp [DatagramService.future]
  · intro future among
    rcases List.mem_append.mp among with earlier | last
    · exact extends_.done (accounted.requests future earlier)
    · rw [List.mem_singleton.mp last]
      exact done

theorem Accounted.sends (accounted : before.Accounted) (message : ChannelBuffer)
    (withFuture : Bool) (request : AsioWriteRequest) :
    Accounted { before with
      channel := { before.channel.offer request (before.event message withFuture).future
          before.issued with
        sending := before.channel.sending ++ [before.issued] }
      issued := before.issued + 1
      offered := if withFuture then before.offered ++ [before.issued] else before.offered } where
  sound := accounted.sound
  requests := accounted.requests
  once := accounted.once
  issued := fun future among => (accounted.issued future among).mono (Nat.le_succ _)
  numbers := by
    simp only [offer, List.map_append, List.map_cons, List.map_nil]
    rw [accounted.numbers]
  carried := by
    intro op among
    rcases List.mem_append.mp among with earlier | last
    · exact accounted.carried op earlier
    · rw [List.mem_singleton.mp last]
      cases withFuture with
      | false => exact Or.inl rfl
      | true => exact Or.inr rfl
  offers := by
    intro op among offered
    rcases List.mem_append.mp among with earlier | last
    · apply accounted.offers op earlier
      have pending : op.number ∈ before.channel.sending := by
        rw [← accounted.numbers]
        exact List.mem_map_of_mem earlier
      have small := (accounted.sending op.number pending).1
      cases withFuture with
      | false => exact offered
      | true =>
          rcases List.mem_append.mp offered with old | own
          · exact old
          · rw [List.mem_singleton.mp own] at small
            exact absurd small (Nat.lt_irrefl _)
    · cases List.mem_singleton.mp last
      cases withFuture with
      | false => exact absurd (accounted.offered before.issued offered) (Nat.lt_irrefl _)
      | true => rfl
  distinct := by
    apply List.nodup_append.mpr
    refine ⟨accounted.distinct, List.pairwise_singleton _ _, ?_⟩
    intro number pending other own equal
    rw [List.mem_singleton.mp own] at equal
    rw [equal] at pending
    exact absurd (accounted.sending before.issued pending).1 (Nat.lt_irrefl _)
  sending := by
    intro number among
    rcases List.mem_append.mp among with earlier | last
    · obtain ⟨small, undone⟩ := accounted.sending number earlier
      exact ⟨Nat.lt_succ_of_lt small, undone⟩
    · rw [List.mem_singleton.mp last]
      refine ⟨Nat.lt_succ_self _, ?_⟩
      intro done
      exact absurd (accounted.issued _ done) (Nat.lt_irrefl _)
  offered := by
    intro number among
    cases withFuture with
    | false => exact Nat.lt_succ_of_lt (accounted.offered number among)
    | true =>
        rcases List.mem_append.mp among with earlier | last
        · exact Nat.lt_succ_of_lt (accounted.offered number earlier)
        · rw [List.mem_singleton.mp last]
          exact Nat.lt_succ_self _
  settled := by
    have kept : ∀ number ∈ before.offered, number ∈ before.channel.sending ++ [before.issued] ∨
        ∃ outcome, (number, outcome) ∈ before.finished ∧
          (.ofWrite number, outcome) ∈ before.channel.completed := by
      intro number among
      rcases accounted.settled number among with pending | done
      · exact Or.inl (List.mem_append_left _ pending)
      · exact Or.inr done
    intro number among
    cases withFuture with
    | false => exact kept number among
    | true =>
        rcases List.mem_append.mp among with earlier | last
        · exact kept number earlier
        · exact Or.inl (List.mem_append_right _ last)

theorem Accounted.write (accounted : before.Accounted) {message : ChannelBuffer}
    {address : SocketAddress} {withFuture : Bool}
    (answered : before.Answers (.write message address withFuture))
    (stepped : Step before (.write message address withFuture) after) : after.Accounted := by
  obtain ⟨channel, ran, made⟩ := ok_of_bind stepped
  cases made
  rcases sunk_sendto ran with ⟨request, -, -, sent⟩ | ⟨extends_, dropped⟩
  · rw [sent]
    exact accounted.sends message withFuture request
  · cases withFuture with
    | true =>
        obtain ⟨valid, request, made⟩ := answered rfl
        obtain ⟨stop, failed⟩ := dropped valid
        rw [made] at failed
        cases failed
    | false =>
        exact accounted.served extends_ (Nat.le_succ _) trivial (by simp)
          (fun future among => extends_.done (accounted.requests future among))

/-- The state in which `handleSendTo` tells of the write it polled. -/
def polled (this : AsioDatagramChannel) (op : AsioWriteOperation)
    (ops : List AsioWriteOperation) (sending : List Nat) : AsioDatagramChannel :=
  { this with
    sending := sending
    writeQueue := ⟨int32 (this.writeQueue.writeBufferSize - op.writeBufferSize), ops⟩ }

variable {fault : Option CloseFault}

/-- Behind the completion of the polled write the channel is closed at most. -/
theorem sent_cases {position : Nat} {error : Option Int} {amount : Nat}
    (stepped : Step before (.sent position error amount fault) after) :
    ∃ number op ops channel, before.channel.sending[position]? = some number ∧
      before.channel.writeQueue.ops = op :: ops ∧
      Extends .closeFuture ((polled before.channel op ops
        (before.channel.sending.eraseIdx position)).completeIfAny op.future (sendOutcome error))
        channel ∧
      after = { before with
        channel := channel
        finished := before.finished ++ [(number, sendOutcome error)] } := by
  unfold Step next at stepped
  cases found : before.channel.sending[position]? with
  | none =>
      simp only [found] at stepped
      cases stepped
  | some number =>
      simp only [found] at stepped
      obtain ⟨channel, handled, made⟩ := ok_of_bind stepped
      cases made
      unfold handleSendTo at handled
      cases queued : before.channel.writeQueue.ops with
      | nil =>
          simp only [queued] at handled
          cases handled
      | cons op ops =>
          simp only [queued] at handled
          refine ⟨number, op, ops, channel, rfl, rfl, ?_, rfl⟩
          cases error with
          | none =>
              cases handled
              exact extends_fire _ (by simp) (by simp)
          | some value =>
              cases handled
              exact extends_close _ fault

theorem extends_completeIfAny (this : AsioDatagramChannel) (future : Option ChannelFuture)
    (outcome : Outcome) :
    Extends (future.getD .closeFuture) this (this.completeIfAny future outcome) := by
  cases future with
  | none => exact Extends.refl this
  | some future => exact extends_complete this outcome

/-- The entry a polled write adds to the completions. -/
def completion (op : AsioWriteOperation) (outcome : Outcome) : List (ChannelFuture × Outcome) :=
  match op.future with
  | none => []
  | some future => [(future, outcome)]

theorem completed_completeIfAny {this : AsioDatagramChannel} {op : AsioWriteOperation}
    (carried : op.future = none ∨ op.future = some (.ofWrite op.number))
    (fresh : ChannelFuture.ofWrite op.number ∉ this.completed.map Prod.fst) (outcome : Outcome) :
    (this.completeIfAny op.future outcome).completed =
      this.completed ++ completion op outcome := by
  unfold completion
  rcases carried with bare | own
  · rw [bare]
    exact (List.append_nil _).symm
  · rw [own]
    have undone : this.isDone (.ofWrite op.number) = false := decide_eq_false fresh
    simp only [completeIfAny]
    rw [complete_fresh ChannelFuture.noConfusion undone]

/-- The send completion of the oldest write settles that write. -/
theorem Accounted.sent (accounted : before.Accounted) {error : Option Int} {amount : Nat}
    (stepped : Step before (.sent 0 error amount fault) after) :
    after.Accounted := by
  obtain ⟨number, op, ops, channel, found, queued, extends_, made⟩ := sent_cases stepped
  have numbers := accounted.numbers
  have distinct := accounted.distinct
  have pendings := accounted.sending
  cases sending : before.channel.sending with
  | nil =>
      rw [sending] at found
      cases found
  | cons first rest =>
      rw [sending] at found numbers distinct pendings
      cases found
      rw [queued] at numbers
      rw [sending] at extends_
      change Extends .closeFuture ((polled before.channel op ops rest).completeIfAny op.future
        (sendOutcome error)) channel at extends_
      have own : op.number = number := (List.cons.inj numbers).1
      have others : ops.map AsioWriteOperation.number = rest := (List.cons.inj numbers).2
      have entry : op ∈ before.channel.writeQueue.ops := by
        rw [queued]
        exact List.mem_cons_self
      have carried := accounted.carried op entry
      have fresh := (pendings number List.mem_cons_self).2
      have completing := extends_completeIfAny (polled before.channel op ops rest) op.future
        (sendOutcome error)
      have completed : channel.completed =
          before.channel.completed ++ completion op (sendOutcome error) := by
        rw [completed_of_close extends_]
        exact completed_completeIfAny carried (own ▸ fresh) _
      have left : channel.writeQueue.ops = ops := by
        rw [extends_.queue, completing.queue]
        rfl
      have remaining : channel.sending = rest := by
        rw [extends_.sending, completing.sending]
        rfl
      have keys : ∀ future ∈ channel.completed.map Prod.fst,
          future ∈ before.channel.completed.map Prod.fst ∨ future = .ofWrite number := by
        intro future among
        rw [completed, List.map_append] at among
        rcases List.mem_append.mp among with earlier | last
        · exact Or.inl earlier
        · unfold completion at last
          rcases carried with bare | mine
          · rw [bare] at last
            cases last
          · rw [mine] at last
            rw [← own]
            exact Or.inr (List.mem_singleton.mp last)
      rw [made]
      refine ⟨?_, ?_, ?_, ?_, ?_, ?_, ?_, ?_, ?_, accounted.offered, ?_⟩
      · exact extends_.sound (completing.sound accounted.sound)
      · intro future among
        exact extends_.done (completing.done (accounted.requests future among))
      · change (channel.completed.map Prod.fst).Nodup
        rw [completed, List.map_append, List.nodup_append]
        refine ⟨accounted.once, ?_, ?_⟩
        · unfold completion
          cases op.future with
          | none => exact .nil
          | some future => exact List.pairwise_singleton _ _
        · intro future among other last equal
          subst equal
          unfold completion at last
          rcases carried with bare | mine
          · rw [bare] at last
            cases last
          · rw [mine] at last
            rw [List.mem_singleton.mp last, own] at among
            exact fresh among
      · intro future among
        rcases keys future among with earlier | last
        · exact accounted.issued future earlier
        · rw [last]
          exact (pendings number List.mem_cons_self).1
      · change channel.writeQueue.ops.map _ = channel.sending
        rw [left, remaining, others]
      · intro other among
        change other ∈ channel.writeQueue.ops at among
        rw [left] at among
        exact accounted.carried other (queued ▸ List.mem_cons_of_mem _ among)
      · intro other among
        change other ∈ channel.writeQueue.ops at among
        rw [left] at among
        exact accounted.offers other (queued ▸ List.mem_cons_of_mem _ among)
      · change channel.sending.Nodup
        rw [remaining]
        exact (List.nodup_cons.mp distinct).2
      · intro other among
        change other ∈ channel.sending at among
        rw [remaining] at among
        obtain ⟨small, undone⟩ := pendings other (List.mem_cons_of_mem _ among)
        refine ⟨small, ?_⟩
        intro done
        rcases keys _ done with earlier | last
        · exact undone earlier
        · cases last
          exact (List.nodup_cons.mp distinct).1 among
      · intro other among
        change other ∈ channel.sending ∨ ∃ outcome, _ ∧ _ ∈ channel.completed
        rw [completed, remaining]
        rcases accounted.settled other among with pending | ⟨outcome, ended, done⟩
        · rw [sending] at pending
          rcases List.mem_cons.mp pending with this_ | later
          · refine Or.inr ⟨sendOutcome error, ?_, ?_⟩
            · rw [this_]
              simp
            · have mine := accounted.offers op entry (by rw [own, ← this_]; exact among)
              unfold completion
              rw [mine, own, this_]
              simp
          · exact Or.inl later
        · exact Or.inr ⟨outcome, List.mem_append_left _ ended, List.mem_append_left _ done⟩

theorem Accounted.step (accounted : before.Accounted) {action : Action}
    (answered : before.Answers action) (stepped : Step before action after) :
    after.Accounted := by
  cases action with
  | request request socket => exact accounted.request answered stepped
  | write message address withFuture => exact accounted.write answered stepped
  | sent position error amount fault =>
      cases answered
      exact accounted.sent stepped
  | received arrival =>
      cases stepped
      exact ⟨accounted.sound, accounted.requests, accounted.once, accounted.issued,
        accounted.numbers, accounted.carried, accounted.offers, accounted.distinct,
        accounted.sending, accounted.offered, accounted.settled⟩
  | receiveFailed fault =>
      cases stepped
      have extends_ : Extends .closeFuture before.channel (before.channel.close fault) :=
        extends_close _ fault
      exact accounted.served extends_ (Nat.le_refl _) trivial (by simp)
        (fun future among => extends_.done (accounted.requests future among))

/-- What was fired in a step: never `ChannelUnbound`, and `ChannelClosed` only from a
channel that was bound. -/
theorem step_fires {action : Action} (stepped : Step before action after) :
    ∃ new, after.channel.fired = before.channel.fired ++ new ∧ DatagramEvent.unbound ∉ new ∧
      (DatagramEvent.closed ∈ new → before.channel.isBound = true) := by
  cases action with
  | request request socket =>
      obtain ⟨channel, submitted, made⟩ := ok_of_bind stepped
      cases made
      exact (submit_extends submitted).fired
  | write message address withFuture =>
      obtain ⟨channel, ran, made⟩ := ok_of_bind stepped
      cases made
      rcases sunk_sendto ran with ⟨request, -, -, sent⟩ | ⟨extends_, -⟩
      · rw [sent]
        exact ⟨[], (List.append_nil _).symm, List.not_mem_nil, fun among => by cases among⟩
      · exact extends_.fired
  | sent position error amount fault =>
      obtain ⟨number, op, ops, channel, -, -, extends_, made⟩ := sent_cases stepped
      rw [made]
      have completing := extends_completeIfAny (polled before.channel op ops
        (before.channel.sending.eraseIdx position)) op.future (sendOutcome error)
      obtain ⟨new, grown, quiet, from_⟩ := completing.fired
      obtain ⟨new', grown', quiet', from_'⟩ := extends_.fired
      refine ⟨new ++ new', ?_, ?_, ?_⟩
      · change channel.fired = _
        rw [grown', grown, List.append_assoc]
        rfl
      · intro among
        rcases List.mem_append.mp among with early | late
        · exact quiet early
        · exact quiet' late
      · intro among
        rcases List.mem_append.mp among with early | late
        · exact from_ early
        · exact completing.bound (from_' late)
  | received arrival =>
      cases stepped
      exact ⟨[], (List.append_nil _).symm, List.not_mem_nil, fun among => by cases among⟩
  | receiveFailed fault =>
      cases stepped
      have extends_ : Extends .closeFuture before.channel (before.channel.close fault) :=
        extends_close _ fault
      exact extends_.fired

end Preserved

/-- `ChannelUnbound` is fired before `ChannelClosed` exactly when the channel was bound
before the close. -/
def Announces (before after : AsioDatagramChannel) : Prop :=
  .closed ∈ firedSince before after →
    (before.isBound = true ↔ [.unbound, .closed].Sublist (firedSince before after))

theorem announces_iff {before after : DatagramService} {action : Action}
    (stepped : Step before action after) :
    Announces before.channel after.channel ↔
      .closed ∉ firedSince before.channel after.channel := by
  obtain ⟨new, grown, quiet, from_⟩ := step_fires stepped
  have since : firedSince before.channel after.channel = new := by
    unfold firedSince
    rw [grown, List.drop_left]
  unfold Announces
  rw [since]
  constructor
  · intro announces closes
    have both := (announces closes).mp (from_ closes)
    exact quiet (both.subset List.mem_cons_self)
  · intro open_ closes
    exact absurd closes open_

/-- In every run of answered requests and of sends that complete in order the futures
are completed as they should be. A close announces no unbinding: in every run a step
keeps the promise about `ChannelUnbound` exactly when it fires no `ChannelClosed`. -/
theorem requests_complete (receiver : DatagramReceiver) :
    (∀ actions final, Run (Guarded Answers Step) (opened receiver) actions final →
      final.Completes) ∧
    (∀ actions middle action final, Run Step (opened receiver) actions middle →
      Step middle action final → (Announces middle.channel final.channel ↔
        .closed ∉ firedSince middle.channel final.channel)) := by
  constructor
  · intro actions final run
    have accounted : final.Accounted := by
      apply run.invariant _ (opened_accounted receiver)
      intro before action after holds stepped
      exact holds.step stepped.1 stepped.2
    exact accounted.completes
  · intro actions middle action final _ stepped
    exact announces_iff stepped

/-- A channel with a read buffer of two bytes. -/
def small : DatagramReceiver := ⟨⟨.big, [0, 0], .zero⟩, none, [], [], 0⟩

/-- All calls of the socket succeed. -/
def obliging : SocketAnswers := ⟨none, none, none⟩

/-- The future of a disconnect stays open, and a bound channel is closed without
`ChannelUnbound`. -/
theorem requests_unanswered :
    (∃ final, Run Step (opened small) [.request .disconnect obliging] final ∧
      ¬final.Completes) ∧
    ∃ middle final,
      Run Step (opened small) [.request (.bind (some ⟨"127.0.0.1", 9999⟩)) obliging] middle ∧
      Step middle (.request .close obliging) final ∧
      ¬Announces middle.channel final.channel := by
  constructor
  · refine ⟨_, .cons rfl (.nil _), ?_⟩
    intro completes
    have done := completes.requests (.other 0) (by decide)
    revert done
    decide
  · refine ⟨_, _, .cons rfl (.nil _), rfl, ?_⟩
    intro announces
    have both := (announces (by decide)).mp (by decide)
    revert both
    decide

/-- A bound channel sends two bytes and is closed. -/
theorem requests_complete_sending :
    (∃ final, Run (Guarded Answers Step) (opened small)
      [.request (.bind (some ⟨"127.0.0.1", 9999⟩)) obliging,
        .write (.heap ⟨.big, [1, 2], ⟨0, 2, 0, 0⟩⟩) (some ⟨"127.0.0.1", 8888⟩) true,
        .sent 0 none 2 none, .request .close obliging] final ∧ final.Completes) ∧
    ∃ final, Step (opened small) (.receiveFailed (some ⟨9, false⟩)) final ∧
      Announces (opened small).channel final.channel := by
  constructor
  · have run : Run (Guarded Answers Step) (opened small)
        [.request (.bind (some ⟨"127.0.0.1", 9999⟩)) obliging,
          .write (.heap ⟨.big, [1, 2], ⟨0, 2, 0, 0⟩⟩) (some ⟨"127.0.0.1", 8888⟩) true,
          .sent 0 none 2 none, .request .close obliging] _ :=
      .cons ⟨⟨rfl, rfl⟩, rfl⟩ (.cons ⟨fun _ => ⟨rfl, _, rfl⟩, rfl⟩
        (.cons ⟨rfl, rfl⟩ (.cons ⟨trivial, rfl⟩ (.nil _))))
    exact ⟨_, run, (requests_complete small).1 _ _ run⟩
  · have failed : Step (opened small) (.receiveFailed (some ⟨9, false⟩)) _ := rfl
    refine ⟨_, failed, ?_⟩
    exact ((requests_complete small).2 [] _ _ _ (.nil _) failed).mpr (by decide)

end DatagramService

end Cetty
