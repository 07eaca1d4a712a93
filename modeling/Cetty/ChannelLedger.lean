import Cetty.SocketChannel

/-!
# What a channel's operations do to its writes

The ledger of a channel: its connection state, the queued write operations and the
futures completed so far. Each operation of the channel has one lemma about it.
-/

namespace Cetty

namespace AsioSocketChannel

/-- What the pipeline's events and the water marks have no part in. -/
structure Ledger where
  state : ConnectionState
  tcpSocketOpen : Bool
  closeFutureDone : Bool
  ops : List AsioWriteOperation
  completed : List (ChannelFuture × Outcome)

def ledger (this : AsioSocketChannel) : Ledger :=
  { state := this.state
    tcpSocketOpen := this.tcpSocketOpen
    closeFutureDone := this.closeFutureDone
    ops := this.writeQueue.ops
    completed := this.completed }

/-- The record of one completion. -/
def completion (future : Option ChannelFuture) (outcome : Outcome) :
    List (ChannelFuture × Outcome) :=
  match future with
  | none => []
  | some .closeFuture => []
  | some future => [(future, outcome)]

section Ledgers

variable (this : AsioSocketChannel)

theorem ledger_ops : this.ledger.ops = this.writeQueue.ops := rfl

@[simp] theorem ledger_fire (event : ChannelEvent) : (this.fire event).ledger = this.ledger := rfl

@[simp] theorem ledger_setOps (ops : List AsioWriteOperation) :
    (this.setOps ops).ledger = { this.ledger with ops := ops } := rfl

@[simp] theorem ledger_plusWriteBufferSize (messageSize : Int) :
    (this.plusWriteBufferSize messageSize).ledger = this.ledger := by
  simp only [plusWriteBufferSize]
  split
  · rfl
  · rfl

@[simp] theorem ledger_minusWriteBufferSize (messageSize : Int) :
    (this.minusWriteBufferSize messageSize).ledger = this.ledger := by
  simp only [minusWriteBufferSize, handleAtLowWaterMark]
  split
  · split
    · rfl
    · rfl
  · rfl

@[simp] theorem ledger_offer (request : AsioWriteRequest) (future : Option ChannelFuture)
    (number : Nat) :
    (this.offer request future number).ledger =
      { this.ledger with
        ops := this.ledger.ops ++ [⟨request.writeBufferSize, future, number⟩] } := by
  unfold offer
  rw [ledger_plusWriteBufferSize, ledger_setOps]
  rfl

@[simp] theorem ledger_complete (future : Option ChannelFuture) (outcome : Outcome) :
    (this.complete future outcome).ledger =
      { this.ledger with completed := this.ledger.completed ++ completion future outcome } := by
  cases future with
  | none => simp only [complete, completion, List.append_nil]
  | some future =>
      cases future with
      | closeFuture => simp only [complete, completion, List.append_nil]
      | ofWrite number => rfl
      | other number => rfl

@[simp] theorem ledger_fireStateLost (connected bound : Bool) :
    (this.fireStateLost connected bound).ledger = this.ledger := by
  cases connected with
  | false =>
      cases bound with
      | false => rfl
      | true => rfl
  | true =>
      cases bound with
      | false => rfl
      | true => rfl

section

variable {op : AsioWriteOperation} {rest : List AsioWriteOperation}
  (queued : this.writeQueue.ops = op :: rest)

include queued

theorem poll_eq :
    this.poll = .ok (op, (this.setOps rest).minusWriteBufferSize op.writeBufferSize) := by
  unfold poll
  rw [queued]
  rfl

theorem poll_cons :
    ∃ after, this.poll = .ok (op, after) ∧ after.ledger = { this.ledger with ops := rest } :=
  ⟨_, this.poll_eq queued, by simp⟩

end

theorem poll_nil (queued : this.writeQueue.ops = []) : this.poll = .error .outOfBounds := by
  unfold poll
  rw [queued]
  rfl

end Ledgers

def failures (cause : Cause) (ops : List AsioWriteOperation) : List (ChannelFuture × Outcome) :=
  ops.flatMap (fun op => completion op.future (.failure cause))

/-- The loop fails every entry but the last one. -/
theorem pollStale_ok (cause : Cause) (fuel : Nat) (this : AsioSocketChannel)
    (enough : this.ledger.ops.length < fuel) :
    ∃ after, pollStale cause fuel this =
        .ok (decide (1 < this.ledger.ops.length), after) ∧
      after.ledger =
        { this.ledger with
          ops := this.ledger.ops.drop (this.ledger.ops.length - 1)
          completed := this.ledger.completed ++
            failures cause (this.ledger.ops.take (this.ledger.ops.length - 1)) } := by
  induction fuel generalizing this with
  | zero => omega
  | succ fuel ih =>
      unfold pollStale
      cases queued : this.writeQueue.ops with
      | nil => exact ⟨this, by simp [ledger_ops, queued]; rfl, by simp [queued, failures, ledger]⟩
      | cons op rest =>
          cases rest with
          | nil => exact ⟨this, by simp [ledger_ops, queued]; rfl, by simp [queued, failures, ledger]⟩
          | cons next later =>
              rcases this.poll_cons queued with ⟨polled, ran, left⟩
              have shorter : (polled.complete op.future (.failure cause)).ledger.ops =
                  next :: later := by
                rw [ledger_complete, left]
              have fits : (polled.complete op.future (.failure cause)).ledger.ops.length < fuel := by
                rw [ledger_ops, queued] at enough
                rw [shorter]
                simp only [List.length_cons] at enough ⊢
                omega
              rcases ih _ fits with ⟨after, loop, final⟩
              refine ⟨after, ?_, ?_⟩
              · simp only [List.length_cons, ran, ok_bind, ledger_ops, queued]
                rw [loop]
                simp
              · rw [final, shorter, ledger_complete, left]
                simp [queued, failures, ledger]

theorem cleanUpWriteBuffer_ok (this : AsioSocketChannel) :
    ∃ after, this.cleanUpWriteBuffer = .ok after ∧
      after.ledger =
        { this.ledger with
          ops := this.ledger.ops.drop (this.ledger.ops.length - 1)
          completed := this.ledger.completed ++
            failures this.cleanUpCause (this.ledger.ops.take (this.ledger.ops.length - 1)) } := by
  have enough : this.ledger.ops.length < this.writeQueue.ops.length + 1 := Nat.lt_succ_self _
  rcases pollStale_ok this.cleanUpCause _ this enough with ⟨after, loop, final⟩
  unfold cleanUpWriteBuffer
  simp only [loop, ok_bind]
  split
  · exact ⟨_, rfl, final⟩
  · exact ⟨_, rfl, final⟩

/-- With one entry at most the clean up finds nothing stale. -/
theorem cleanUpWriteBuffer_short (this : AsioSocketChannel)
    (short : this.writeQueue.ops.length ≤ 1) :
    ∃ after, this.cleanUpWriteBuffer = .ok after ∧ after.ledger = this.ledger := by
  rcases this.cleanUpWriteBuffer_ok with ⟨after, ran, final⟩
  refine ⟨after, ran, ?_⟩
  have none_stale : this.ledger.ops.length - 1 = 0 := by
    rw [ledger_ops]
    omega
  rw [final, none_stale]
  simp [failures, ledger]

namespace Ledger

/-- A connected channel has an open socket, and nobody has closed it. -/
def Lawful (ledger : Ledger) : Prop :=
  ledger.state = .connected → ledger.tcpSocketOpen = true ∧ ledger.closeFutureDone = false

/-- Whether closing the channel runs the clean up of its write queue. -/
def CleansUp (ledger : Ledger) (fault : Option CloseFault) : Prop :=
  ledger.state ≠ .closed ∧ ledger.tcpSocketOpen = true ∧ ledger.closeFutureDone = false ∧
    fault = none

instance (ledger : Ledger) (fault : Option CloseFault) : Decidable (ledger.CleansUp fault) :=
  inferInstanceAs (Decidable (_ ∧ _))

/-- A closing leaves no connected channel behind. -/
structure Ends (before after : Ledger) : Prop where
  lawful : before.Lawful → after.Lawful
  disconnected : before.Lawful → after.state ≠ .connected

theorem Ends.of_closed {before after : Ledger} (closed : after.state = .closed) :
    before.Ends after := by
  constructor
  · intro _ connected
    rw [closed] at connected
    cases connected
  · intro _ connected
    rw [closed] at connected
    cases connected

/-- What closing does when nothing is cleaned up. -/
structure ClosedFrom (before : Ledger) (future : ChannelFuture) (after : Ledger) : Prop where
  ops : after.ops = before.ops
  completed : after.completed = before.completed ∨
    ∃ outcome, after.completed = before.completed ++ completion (some future) outcome

end Ledger

theorem isOpen_iff (this : AsioSocketChannel) : this.isOpen = true ↔ this.ledger.state ≠ .closed :=
  decide_eq_true_iff

def shutDown (this : AsioSocketChannel) (future : ChannelFuture) : AsioSocketChannel :=
  ({ this with tcpSocketOpen := false }.setClosed.complete (some future)
    .success).fireStateLost this.isConnected this.isBound

section

variable (this : AsioSocketChannel) (future : ChannelFuture)

include this future

theorem ledger_shutDown :
    (this.shutDown future).ledger =
      { this.ledger with
        state := .closed
        tcpSocketOpen := false
        closeFutureDone := true
        completed := this.ledger.completed ++ completion (some future) .success } := by
  unfold shutDown
  rw [ledger_fireStateLost, ledger_complete]
  rfl

theorem closeWith_first
    (usable : ¬(¬this.isOpen ∨ ¬this.tcpSocketOpen)) (undone : ¬this.closeFutureDone = true) :
    this.closeWith future none =
      ((this.shutDown future).cleanUpWriteBuffer >>= fun this => pure (this.fire .closed)) := by
  unfold closeWith
  simp only [if_neg usable]
  exact if_pos undone

theorem closeWith_again
    (usable : ¬(¬this.isOpen ∨ ¬this.tcpSocketOpen)) (done : this.closeFutureDone = true) :
    this.closeWith future none =
      .ok ({ this with tcpSocketOpen := false }.setClosed.complete (some future) .success) := by
  unfold closeWith
  simp only [if_neg usable]
  exact if_neg (not_not_intro done)

theorem closeWith_ends (fault : Option CloseFault) :
    ∃ after, this.closeWith future fault = .ok after ∧ this.ledger.Ends after.ledger := by
  by_cases useless : ¬this.isOpen ∨ ¬this.tcpSocketOpen
  · refine ⟨this, if_pos useless, id, ?_⟩
    intro lawful connected
    rcases useless with unopened | shut
    · apply unopened
      rw [isOpen_iff, connected]
      nofun
    · exact shut (lawful connected).1
  · cases fault with
    | some fault =>
        unfold closeWith
        simp only [if_neg useless]
        refine ⟨_, rfl, ?_⟩
        rw [ledger_fire, ledger_complete]
        exact .of_closed rfl
    | none =>
        by_cases done : this.closeFutureDone = true
        · refine ⟨_, this.closeWith_again future useless done, ?_⟩
          rw [ledger_complete]
          exact .of_closed rfl
        · rcases (this.shutDown future).cleanUpWriteBuffer_ok with ⟨cleaned, ran, kept⟩
          refine ⟨cleaned.fire .closed, ?_, ?_⟩
          · rw [this.closeWith_first future useless done, ran, ok_bind]
            rfl
          · rw [ledger_fire, kept, this.ledger_shutDown future]
            exact .of_closed rfl

theorem closeWith_short (fault : Option CloseFault)
    (short : this.ledger.CleansUp fault → this.writeQueue.ops.length ≤ 1) :
    ∃ after, this.closeWith future fault = .ok after ∧
      this.ledger.ClosedFrom future after.ledger := by
  by_cases useless : ¬this.isOpen ∨ ¬this.tcpSocketOpen
  · exact ⟨this, if_pos useless, rfl, Or.inl rfl⟩
  · cases fault with
    | some fault =>
        unfold closeWith
        simp only [if_neg useless]
        refine ⟨_, rfl, ?_⟩
        rw [ledger_fire, ledger_complete]
        exact ⟨rfl, Or.inr ⟨_, rfl⟩⟩
    | none =>
        by_cases done : this.closeFutureDone = true
        · refine ⟨_, this.closeWith_again future useless done, ?_⟩
          rw [ledger_complete]
          exact ⟨rfl, Or.inr ⟨_, rfl⟩⟩
        · have usable := not_or.mp useless
          have cleans : this.ledger.CleansUp none :=
            ⟨(isOpen_iff this).mp (Classical.not_not.mp usable.1),
              Classical.not_not.mp usable.2, Bool.eq_false_iff.mpr done, rfl⟩
          have told := this.ledger_shutDown future
          have still_short : (this.shutDown future).writeQueue.ops.length ≤ 1 := by
            rw [← ledger_ops, told]
            exact short cleans
          rcases (this.shutDown future).cleanUpWriteBuffer_short still_short
            with ⟨cleaned, ran, kept⟩
          refine ⟨cleaned.fire .closed, ?_, ?_⟩
          · rw [this.closeWith_first future useless done, ran, ok_bind]
            rfl
          · rw [ledger_fire, kept, told]
            exact ⟨rfl, Or.inr ⟨_, rfl⟩⟩

end

theorem close_ends (this : AsioSocketChannel) (fault : Option CloseFault) :
    ∃ after, this.close fault = .ok after ∧ this.ledger.Ends after.ledger := by
  unfold close
  by_cases done : this.closeFutureDone = true
  · rw [if_pos done]
    refine ⟨this, rfl, id, ?_⟩
    intro lawful connected
    have undone : this.closeFutureDone = false := (lawful connected).2
    rw [undone] at done
    cases done
  · rw [if_neg done]
    exact this.closeWith_ends .closeFuture fault

theorem close_short (this : AsioSocketChannel) (fault : Option CloseFault)
    (short : this.ledger.CleansUp fault → this.writeQueue.ops.length ≤ 1) :
    ∃ after, this.close fault = .ok after ∧
      this.ledger.ClosedFrom .closeFuture after.ledger := by
  unfold close
  by_cases done : this.closeFutureDone = true
  · rw [if_pos done]
    exact ⟨this, rfl, rfl, Or.inl rfl⟩
  · rw [if_neg done]
    exact this.closeWith_short .closeFuture fault short

variable {op : AsioWriteOperation}

theorem handleWrite_success (this : AsioSocketChannel)
    {rest : List AsioWriteOperation} (queued : this.writeQueue.ops = op :: rest)
    (bytesTransferred : Nat) (fault : Option CloseFault) :
    ∃ after, this.handleWrite none bytesTransferred fault = .ok (op, after) ∧
      after.ledger =
        { this.ledger with
          ops := rest
          completed := this.ledger.completed ++ completion op.future .success } := by
  rcases this.poll_cons queued with ⟨polled, ran, left⟩
  have told : ((polled.complete op.future .success).fire
      (.writeComplete bytesTransferred)).ledger =
        { this.ledger with
          ops := rest
          completed := this.ledger.completed ++ completion op.future .success } := by
    rw [ledger_fire, ledger_complete, left]
  unfold handleWrite
  simp only [ran, ok_bind]
  split
  · exact ⟨_, rfl, told⟩
  · exact ⟨_, rfl, told⟩

def writeFailed (error : Int) : Cause :=
  ⟨⟨.runtime, "write buffer failed, code=" ++ toString error⟩, 0⟩

theorem handleWrite_error (this : AsioSocketChannel) {polled after : AsioSocketChannel}
    {error : Int} {fault : Option CloseFault}
    (ran : this.poll = .ok (op, polled))
    (shut : (polled.complete op.future (.failure (writeFailed error))).close fault = .ok after)
    (bytesTransferred : Nat) :
    this.handleWrite (some error) bytesTransferred fault = .ok (op, after) := by
  unfold writeFailed at shut
  unfold handleWrite
  simp only [ran, ok_bind, shut]
  rfl

section

variable (this : AsioSocketChannel) {op : AsioWriteOperation} {rest : List AsioWriteOperation}
  (queued : this.writeQueue.ops = op :: rest) (error : Int) (bytesTransferred : Nat)
  (fault : Option CloseFault)

include this queued error bytesTransferred fault

theorem handleWrite_ends :
    ∃ after, this.handleWrite (some error) bytesTransferred fault = .ok (op, after) ∧
      this.ledger.Ends after.ledger := by
  rcases this.poll_cons queued with ⟨polled, ran, left⟩
  rcases (polled.complete op.future (.failure (writeFailed error))).close_ends fault
    with ⟨after, shut, ends⟩
  refine ⟨after, this.handleWrite_error ran shut bytesTransferred, ?_⟩
  rw [ledger_complete, left] at ends
  exact ⟨ends.lawful, ends.disconnected⟩

theorem handleWrite_failure (short : this.ledger.CleansUp fault → rest.length ≤ 1) :
    ∃ after, this.handleWrite (some error) bytesTransferred fault = .ok (op, after) ∧
      Ledger.ClosedFrom
        { this.ledger with
          ops := rest
          completed := this.ledger.completed ++
            completion op.future (.failure (writeFailed error)) }
        .closeFuture after.ledger := by
  rcases this.poll_cons queued with ⟨polled, ran, left⟩
  have told : (polled.complete op.future (.failure (writeFailed error))).ledger =
        { this.ledger with
          ops := rest
          completed := this.ledger.completed ++
            completion op.future (.failure (writeFailed error)) } := by
    rw [ledger_complete, left]
  have still_short :
      (polled.complete op.future (.failure (writeFailed error))).ledger.CleansUp fault →
        (polled.complete op.future (.failure (writeFailed error))).writeQueue.ops.length ≤ 1 := by
    rw [← ledger_ops, told]
    exact short
  rcases (polled.complete op.future (.failure (writeFailed error))).close_short fault still_short
    with ⟨after, shut, closing⟩
  rw [told] at closing
  exact ⟨after, this.handleWrite_error ran shut bytesTransferred, closing⟩

end

/-- The handler of a write returns exactly when it finds an entry in the queue. -/
theorem handleWrite_returns_iff (this : AsioSocketChannel) (error : Option Int)
    (bytesTransferred : Nat) (fault : Option CloseFault) :
    (∃ outcome, this.handleWrite error bytesTransferred fault = .ok outcome) ↔
      this.writeQueue.ops ≠ [] := by
  cases queued : this.writeQueue.ops with
  | nil =>
      unfold handleWrite
      rw [this.poll_nil queued, error_bind]
      simp
  | cons op rest =>
      simp only [ne_eq, reduceCtorEq, not_false_eq_true, iff_true]
      cases error with
      | none =>
          rcases this.handleWrite_success queued bytesTransferred fault with ⟨after, ran, _⟩
          exact ⟨_, ran⟩
      | some error =>
          rcases this.handleWrite_ends queued error bytesTransferred fault with ⟨after, ran, _⟩
          exact ⟨_, ran⟩

theorem isConnected_iff (this : AsioSocketChannel) :
    this.isConnected = true ↔ this.ledger.state = .connected := decide_eq_true_iff

def serviceCall (request : AsioWriteRequest) : ServiceCall :=
  if request.writeBufferSize = 0 then .post else .asyncWrite request.bytes

section

variable (this : AsioSocketChannel) (evt : MessageEvent) (connected : this.state = .connected)

include this evt connected

theorem write_connected {request : AsioWriteRequest}
    (made : AsioWriteRequest.ofEvent evt = .ok request) :
    ∃ after, this.write evt = .ok (some (serviceCall request), after) ∧
      after.ledger =
        { this.ledger with
          ops := this.ledger.ops ++ [⟨request.writeBufferSize, evt.future, evt.number⟩] } := by
  have reached : this.isConnected = true := (isConnected_iff this).mpr connected
  refine ⟨({ this with isWriting := true } : AsioSocketChannel).offer request evt.future
    evt.number, ?_, ?_⟩
  · unfold write serviceCall
    simp only [reached, not_true_eq_false, if_false, made, ok_bind]
    split
    · rfl
    · rfl
  · rw [ledger_offer]
    rfl

theorem write_refused {stop : Stop}
    (failed : AsioWriteRequest.ofEvent evt = .error stop) : this.write evt = .error stop := by
  have reached : this.isConnected = true := (isConnected_iff this).mpr connected
  unfold write
  simp only [reached, not_true_eq_false, if_false, failed, error_bind]

end

def beenClosed : Cause := ⟨⟨.channel, "Channel has been closed."⟩, 0⟩

section

variable (this : AsioSocketChannel) (evt : MessageEvent) (unconnected : this.state ≠ .connected)

include this evt unconnected

theorem write_unconnected {cleaned : AsioSocketChannel}
    (ran : this.cleanUpWriteBuffer = .ok cleaned) :
    this.write evt = .ok (none, cleaned.complete evt.future (.failure beenClosed)) := by
  have unreached : this.isConnected = false := decide_eq_false unconnected
  unfold write
  simp only [unreached, ran, ok_bind]
  rfl

theorem write_unconnected_state :
    ∃ after, this.write evt = .ok (none, after) ∧ after.ledger.state = this.ledger.state := by
  rcases this.cleanUpWriteBuffer_ok with ⟨cleaned, ran, kept⟩
  refine ⟨_, this.write_unconnected evt unconnected ran, ?_⟩
  rw [ledger_complete, kept]

theorem write_unconnected_short (short : this.writeQueue.ops.length ≤ 1) :
    ∃ after, this.write evt = .ok (none, after) ∧
      after.ledger =
        { this.ledger with
          completed := this.ledger.completed ++
            completion evt.future (.failure beenClosed) } := by
  rcases this.cleanUpWriteBuffer_short short with ⟨cleaned, ran, kept⟩
  refine ⟨_, this.write_unconnected evt unconnected ran, ?_⟩
  rw [ledger_complete, kept]

end

end AsioSocketChannel

end Cetty
