import Cetty.IoService
import Cetty.ReadProgress

/-!
# Connecting, reading and closing

`AsioSocketChannel` with its asynchronous operations: the requests the client and
the server sink pass to it, the handlers of its connection attempts and reads, and
`start` of an accepted channel. Where a handler of the channel fires an event or
completes a future in its middle, the rest of it is a step of its own: what the
handlers of the pipeline do comes in between. Closing is one function on what the writes
have no part in.
-/

namespace Cetty

open MachineInt

def ChannelEvent.endsLife : ChannelEvent → Bool
  | disconnected => true
  | unbound => true
  | closed => true
  | _ => false

structure Life where
  state : ConnectionState
  tcpSocketOpen : Bool
  closeFutureDone : Bool
  reads : Bool
  /-- `ChannelDisconnected`, `ChannelUnbound` and `ChannelClosed`, as fired. -/
  ending : List ChannelEvent
  deriving DecidableEq, Repr

namespace Life

/-- The channel is neither closed nor without a socket. -/
def closable (life : Life) : Bool := decide (life.state ≠ .closed) && life.tcpSocketOpen

theorem closable_alive {life : Life} (closable_ : life.closable = true) :
    life.state ≠ .closed := by
  simp only [closable, Bool.and_eq_true, decide_eq_true_eq] at closable_
  exact closable_.1

/-- The events of a first closing, by the state before it. -/
def lastEvents : ConnectionState → List ChannelEvent
  | .closed => [.closed]
  | .opened => [.closed]
  | .bound => [.unbound, .closed]
  | .connected => [.disconnected, .unbound, .closed]

def close (life : Life) (fault : Option CloseFault) : Life :=
  if life.closable then
    match fault with
    | none =>
        { life with
          state := .closed
          tcpSocketOpen := false
          closeFutureDone := true
          ending :=
            if life.closeFutureDone then life.ending else life.ending ++ lastEvents life.state }
    | some fault =>
        { life with
          state := .closed
          tcpSocketOpen := fault.stillOpen
          closeFutureDone := true }
  else life

/-- `close()`, which does nothing once the close future is done. -/
def closeOnce (life : Life) (fault : Option CloseFault) : Life :=
  if life.closeFutureDone then life else life.close fault

theorem close_unclosable {life : Life} (gone : life.closable = false)
    (fault : Option CloseFault) : life.close fault = life := by
  unfold close
  rw [gone, if_neg Bool.false_ne_true]

theorem close_closes {life : Life} (closable : life.closable = true)
    (fault : Option CloseFault) :
    (life.close fault).state = .closed ∧ (life.close fault).closeFutureDone = true := by
  unfold close
  rw [if_pos closable]
  cases fault <;> exact ⟨rfl, rfl⟩

end Life

namespace AsioSocketChannel

def life (this : AsioSocketChannel) : Life where
  state := this.state
  tcpSocketOpen := this.tcpSocketOpen
  closeFutureDone := this.closeFutureDone
  reads := this.rawInterestOps.read
  ending := this.fired.filter ChannelEvent.endsLife

section Lives

variable (this : AsioSocketChannel)

theorem life_fire {event : ChannelEvent} (other : event.endsLife = false) :
    (this.fire event).life = this.life := by
  simp [life, fire, other]

@[simp] theorem life_setOps (ops : List AsioWriteOperation) :
    (this.setOps ops).life = this.life := rfl

@[simp] theorem life_complete (future : Option ChannelFuture) (outcome : Outcome) :
    (this.complete future outcome).life = this.life := by
  cases future with
  | none => rfl
  | some future => cases future <;> rfl

@[simp] theorem life_plusWriteBufferSize (messageSize : Int) :
    (this.plusWriteBufferSize messageSize).life = this.life := by
  unfold plusWriteBufferSize
  simp only
  split
  · unfold handleAtHighWaterMark
    rw [life_fire _ rfl]
    rfl
  · rfl

@[simp] theorem life_minusWriteBufferSize (messageSize : Int) :
    (this.minusWriteBufferSize messageSize).life = this.life := by
  unfold minusWriteBufferSize
  simp only
  split
  · unfold handleAtLowWaterMark
    simp only
    split
    · rw [life_fire _ rfl]
      rfl
    · rfl
  · rfl

@[simp] theorem life_offer (request : AsioWriteRequest) (future : Option ChannelFuture)
    (number : Nat) : (this.offer request future number).life = this.life := by
  unfold offer
  rw [life_plusWriteBufferSize, life_setOps]

variable {op : AsioWriteOperation}

theorem life_poll {polled : AsioSocketChannel}
    (ran : this.poll = .ok (op, polled)) : polled.life = this.life := by
  unfold poll at ran
  split at ran
  · cases ran
  · cases ran
    rw [life_minusWriteBufferSize, life_setOps]

theorem life_pollStale (cause : Cause) (fuel : Nat) {this after : AsioSocketChannel}
    {found : Bool} (ran : pollStale cause fuel this = .ok (found, after)) :
    after.life = this.life := by
  induction fuel generalizing this found with
  | zero => cases ran
  | succ fuel ih =>
      unfold pollStale at ran
      split at ran
      · obtain ⟨⟨op, polled⟩, first, rest⟩ := ok_of_bind ran
        obtain ⟨⟨more, last⟩, later, made⟩ := ok_of_bind rest
        cases made
        rw [ih later, life_complete, this.life_poll first]
      · cases ran
        rfl

theorem life_cleanUpWriteBuffer {after : AsioSocketChannel}
    (ran : this.cleanUpWriteBuffer = .ok after) : after.life = this.life := by
  unfold cleanUpWriteBuffer at ran
  obtain ⟨⟨found, polled⟩, stale, made⟩ := ok_of_bind ran
  simp only at made
  split at made
  · cases made
    rw [life_fire _ rfl, life_pollStale _ _ stale]
  · cases made
    exact life_pollStale _ _ stale

theorem closable_iff : this.life.closable = true ↔ ¬(¬this.isOpen ∨ ¬this.tcpSocketOpen) := by
  unfold Life.closable life isOpen
  simp

theorem life_shutDown (future : ChannelFuture) :
    ((this.shutDown future).fire .closed).life =
      { this.life with
        state := .closed
        tcpSocketOpen := false
        closeFutureDone := true
        ending := this.life.ending ++ Life.lastEvents this.state } := by
  have kept : ∀ here : AsioSocketChannel, (here.complete (some future) .success).life = here.life :=
    fun here => here.life_complete _ _
  cases future <;> cases known : this.state <;>
    simp [shutDown, fireStateLost, isConnected, isBound, known, life, fire, complete, setClosed,
      Life.lastEvents, ChannelEvent.endsLife]

/-- The queue holds futures of writes. -/
def WriteFutures (ops : List AsioWriteOperation) : Prop :=
  ∀ op ∈ ops, op.future = none ∨ ∃ number, op.future = some (.ofWrite number)

/-- Besides `future` only futures of writes are completed. -/
structure Settles (future : Option ChannelFuture) (before after : AsioSocketChannel) : Prop where
  completed : ∃ more, after.completed = before.completed ++ more ∧
    ∀ entry ∈ more, some entry.1 = future ∨ ∃ number, entry.1 = .ofWrite number
  queue : WriteFutures after.writeQueue.ops

section

variable {future : Option ChannelFuture}

theorem Settles.refl {this : AsioSocketChannel}
    (writes : WriteFutures this.writeQueue.ops) : Settles future this this :=
  ⟨⟨[], (List.append_nil _).symm, by simp⟩, writes⟩

theorem Settles.trans {first second third : AsioSocketChannel}
    (before : Settles future first second) (after : Settles future second third) :
    Settles future first third := by
  obtain ⟨more, grown, own⟩ := before.completed
  obtain ⟨more', grown', own'⟩ := after.completed
  refine ⟨⟨more ++ more', ?_, ?_⟩, after.queue⟩
  · rw [grown', grown, List.append_assoc]
  · intro entry among
    rcases List.mem_append.mp among with early | late
    · exact own entry early
    · exact own' entry late

theorem Settles.of_ledger {before after : AsioSocketChannel}
    {more : List (ChannelFuture × Outcome)}
    (completed : after.ledger.completed = before.ledger.completed ++ more)
    (own : ∀ entry ∈ more, some entry.1 = future ∨ ∃ number, entry.1 = .ofWrite number)
    (queue : WriteFutures after.ledger.ops) : Settles future before after :=
  ⟨⟨more, completed, own⟩, queue⟩

end

theorem completion_own (future : Option ChannelFuture) (outcome : Outcome) :
    ∀ entry ∈ completion future outcome, some entry.1 = future := by
  intro entry among
  cases future with
  | none => cases among
  | some future =>
      cases future with
      | closeFuture => cases among
      | _ =>
          rw [List.mem_singleton.mp among]

theorem failures_own {ops : List AsioWriteOperation} (writes : WriteFutures ops) (cause : Cause) :
    ∀ entry ∈ failures cause ops, ∃ number, entry.1 = .ofWrite number := by
  intro entry among
  obtain ⟨op, member, failed⟩ := List.mem_flatMap.mp among
  have own := completion_own op.future _ entry failed
  rcases writes op member with bare | ⟨number, numbered⟩
  · rw [bare] at own
    cases own
  · rw [numbered] at own
    exact ⟨number, Option.some.inj own⟩

theorem writeFutures_sublist {ops part : List AsioWriteOperation} (writes : WriteFutures ops)
    (inside : ∀ op ∈ part, op ∈ ops) : WriteFutures part :=
  fun op among => writes op (inside op among)

theorem settles_cleanUpWriteBuffer (writes : WriteFutures this.writeQueue.ops) :
    ∃ after, this.cleanUpWriteBuffer = .ok after ∧ after.life = this.life ∧
      Settles none this after := by
  obtain ⟨after, ran, final⟩ := this.cleanUpWriteBuffer_ok
  refine ⟨after, ran, this.life_cleanUpWriteBuffer ran, ?_⟩
  refine Settles.of_ledger (congrArg Ledger.completed final) ?_ ?_
  · intro entry among
    exact Or.inr (failures_own
      (writeFutures_sublist writes (fun op member => List.mem_of_mem_take member)) _ entry among)
  · rw [final]
    exact writeFutures_sublist writes (fun op member => List.mem_of_mem_drop member)

/-- A completion made beside the queue. -/
theorem settles_complete (future : Option ChannelFuture) (outcome : Outcome)
    (writes : WriteFutures this.writeQueue.ops) :
    Settles future this (this.complete future outcome) := by
  have kept := this.ledger_complete future outcome
  refine Settles.of_ledger (congrArg Ledger.completed kept) ?_ ?_
  · exact fun entry among => Or.inl (completion_own future outcome entry among)
  · rw [kept]
    exact writes

theorem Settles.weaken {future : Option ChannelFuture} {before after : AsioSocketChannel}
    (settles : Settles none before after) : Settles future before after := by
  obtain ⟨more, grown, own⟩ := settles.completed
  refine ⟨⟨more, grown, ?_⟩, settles.queue⟩
  intro entry among
  rcases own entry among with bare | write
  · cases bare
  · exact Or.inr write

theorem settles_shutDown (future : ChannelFuture) (writes : WriteFutures this.writeQueue.ops) :
    Settles (some future) this (this.shutDown future) := by
  have told := this.ledger_shutDown future
  refine Settles.of_ledger (congrArg Ledger.completed told) ?_ ?_
  · exact fun entry among => Or.inl (completion_own (some future) .success entry among)
  · rw [told]
    exact writes

/-- A closing as the life cycle sees it; the future it was given is completed unless
the closing returns at once. -/
structure ClosesAs (future : ChannelFuture) (fault : Option CloseFault)
    (before after : AsioSocketChannel) : Prop where
  life : after.life = before.life.close fault
  settles : WriteFutures before.writeQueue.ops → Settles (some future) before after
  done : before.life.closable = true → future ≠ .closeFuture →
    ∃ outcome, (future, outcome) ∈ after.completed

theorem completed_complete {this : AsioSocketChannel} {future : ChannelFuture}
    (own : future ≠ .closeFuture) (outcome : Outcome) :
    (future, outcome) ∈ (this.complete (some future) outcome).completed := by
  cases future with
  | closeFuture => exact absurd rfl own
  | _ => exact List.mem_append_right _ List.mem_cons_self

theorem closeWith_as (future : ChannelFuture) (fault : Option CloseFault) :
    ∃ after, this.closeWith future fault = .ok after ∧ ClosesAs future fault this after := by
  by_cases useless : ¬this.isOpen ∨ ¬this.tcpSocketOpen
  · have gone : this.life.closable = false := by
      cases known : this.life.closable with
      | false => rfl
      | true => exact absurd useless (this.closable_iff.mp known)
    refine ⟨this, if_pos useless, (Life.close_unclosable gone fault).symm, Settles.refl, ?_⟩
    intro closable
    rw [gone] at closable
    cases closable
  · have closable := this.closable_iff.mpr useless
    cases fault with
    | some fault =>
        refine ⟨_, by unfold closeWith; exact if_neg useless, ?_, ?_, ?_⟩
        · rw [life_fire _ rfl, life_complete]
          unfold Life.close
          rw [if_pos closable]
          rfl
        · intro writes
          have settles := settles_complete { this with tcpSocketOpen := fault.stillOpen }.setClosed
            (some future) (.failure ⟨⟨.io, "closing tcp socket has thrown an exception"⟩,
              fault.code⟩) writes
          exact ⟨settles.completed, settles.queue⟩
        · intro _ own
          exact ⟨_, completed_complete own _⟩
    | none =>
        by_cases done : this.closeFutureDone = true
        · refine ⟨_, this.closeWith_again future useless done, ?_, ?_, ?_⟩
          · rw [life_complete]
            unfold Life.close
            rw [if_pos closable]
            simp only [life, done, if_true]
            rfl
          · intro writes
            have settles := settles_complete { this with tcpSocketOpen := false }.setClosed
              (some future) .success writes
            exact ⟨settles.completed, settles.queue⟩
          · intro _ own
            exact ⟨_, completed_complete own _⟩
        · obtain ⟨cleaned, ran, kept⟩ := (this.shutDown future).cleanUpWriteBuffer_ok
          have life_ : (cleaned.fire .closed).life = this.life.close none := by
            have same := (this.shutDown future).life_cleanUpWriteBuffer ran
            have told := this.life_shutDown future
            have fired : (cleaned.fire .closed).life =
                ((this.shutDown future).fire .closed).life := by
              have ending := congrArg Life.ending same
              simp only [life] at same ending ⊢
              simp only [fire, List.filter_append, ending]
              simp only [Life.mk.injEq] at same ⊢
              exact ⟨same.1, same.2.1, same.2.2.1, same.2.2.2.1, trivial⟩
            rw [fired, told]
            unfold Life.close
            rw [if_pos closable]
            simp only [life, Bool.eq_false_iff.mpr done]
            rfl
          refine ⟨cleaned.fire .closed, ?_, life_, ?_, ?_⟩
          · rw [this.closeWith_first future useless done, ran, ok_bind]
            rfl
          · intro writes
            have first := this.settles_shutDown future writes
            obtain ⟨cleaned', ran', -, second⟩ :=
              (this.shutDown future).settles_cleanUpWriteBuffer first.queue
            rw [ran] at ran'
            cases ran'
            have both := first.trans second.weaken
            exact ⟨both.completed, both.queue⟩
          · intro _ own
            have among : (future, Outcome.success) ∈ cleaned.ledger.completed := by
              rw [kept, this.ledger_shutDown future]
              apply List.mem_append_left
              apply List.mem_append_right
              cases future with
              | closeFuture => exact absurd rfl own
              | _ => exact List.mem_cons_self
            exact ⟨_, among⟩

/-- `close()` of the channel, as the life cycle sees it. -/
theorem close_as (fault : Option CloseFault) :
    ∃ after, this.close fault = .ok after ∧ after.life = this.life.closeOnce fault ∧
      (WriteFutures this.writeQueue.ops → Settles (some .closeFuture) this after) := by
  unfold close Life.closeOnce
  by_cases done : this.closeFutureDone = true
  · have known : this.life.closeFutureDone = true := done
    rw [if_pos done, if_pos known]
    exact ⟨this, rfl, rfl, Settles.refl⟩
  · have known : ¬this.life.closeFutureDone = true := done
    rw [if_neg done, if_neg known]
    obtain ⟨after, ran, closes⟩ := this.closeWith_as .closeFuture fault
    exact ⟨after, ran, closes.life, closes.settles⟩

theorem poll_as {polled : AsioSocketChannel}
    (ran : this.poll = .ok (op, polled)) (writes : WriteFutures this.writeQueue.ops) :
    (op.future = none ∨ ∃ number, op.future = some (.ofWrite number)) ∧
      Settles none this polled := by
  cases queued : this.writeQueue.ops with
  | nil =>
      rw [this.poll_nil queued] at ran
      cases ran
  | cons first rest =>
      obtain ⟨after, ran', ledger⟩ := this.poll_cons queued
      rw [ran] at ran'
      cases ran'
      have member : op ∈ this.writeQueue.ops := by
        rw [queued]
        exact List.mem_cons_self
      refine ⟨writes op member, ?_⟩
      have same : polled.completed = this.completed := congrArg Ledger.completed ledger
      have left : polled.writeQueue.ops = rest := congrArg Ledger.ops ledger
      refine ⟨⟨[], by rw [same, List.append_nil], by simp⟩, ?_⟩
      rw [left]
      intro other among
      exact writes other (queued ▸ List.mem_cons_of_mem _ among)

theorem settles_completeWrite {future : Option ChannelFuture} (outcome : Outcome)
    (write : future = none ∨ ∃ number, future = some (.ofWrite number))
    (writes : WriteFutures this.writeQueue.ops) :
    Settles none this (this.complete future outcome) := by
  have settles := this.settles_complete future outcome writes
  obtain ⟨more, grown, own⟩ := settles.completed
  refine ⟨⟨more, grown, ?_⟩, settles.queue⟩
  intro entry among
  rcases own entry among with same | number
  · rcases write with bare | ⟨number, numbered⟩
    · rw [bare] at same
      cases same
    · rw [numbered] at same
      exact Or.inr ⟨number, Option.some.inj same⟩
  · exact Or.inr number

/-- The handler of a write; with an error it closes the channel. -/
theorem handleWrite_as (error : Option Int) (bytesTransferred : Nat) (fault : Option CloseFault)
    {after : AsioSocketChannel}
    (ran : this.handleWrite error bytesTransferred fault = .ok (op, after)) :
    after.life = (if error = none then this.life else this.life.closeOnce fault) ∧
      (WriteFutures this.writeQueue.ops → Settles (some .closeFuture) this after) := by
  unfold handleWrite at ran
  obtain ⟨⟨polledOp, polled⟩, first, rest⟩ := ok_of_bind ran
  have same := this.life_poll first
  cases error with
  | none =>
      simp only at rest
      rw [if_pos rfl]
      have settled : WriteFutures this.writeQueue.ops → Settles none this
          (polled.complete polledOp.future .success) := by
        intro writes
        obtain ⟨write, polls⟩ := this.poll_as first writes
        exact polls.trans (polled.settles_completeWrite .success write polls.queue)
      have lived : ((polled.complete polledOp.future .success).fire
          (.writeComplete bytesTransferred)).life = this.life := by
        rw [life_fire _ rfl, life_complete, same]
      split at rest
      · cases rest
        refine ⟨lived, fun writes => ?_⟩
        have weak : Settles (some .closeFuture) this _ := (settled writes).weaken
        exact ⟨weak.completed, weak.queue⟩
      · cases rest
        refine ⟨lived, fun writes => ?_⟩
        have weak : Settles (some .closeFuture) this _ := (settled writes).weaken
        exact ⟨weak.completed, weak.queue⟩
  | some value =>
      simp only at rest
      obtain ⟨closed, closing, made⟩ := ok_of_bind rest
      cases made
      rw [if_neg nofun]
      obtain ⟨after, ran', lived, settles⟩ := close_as _ fault
      rw [closing] at ran'
      cases ran'
      refine ⟨?_, ?_⟩
      · rw [lived, life_complete, same]
      · intro writes
        obtain ⟨write, polls⟩ := this.poll_as first writes
        have completes : Settles none this
            (polled.complete op.future (.failure (writeFailed value))) :=
          polls.trans (polled.settles_completeWrite _ write polls.queue)
        exact completes.weaken.trans (settles completes.queue)

theorem write_as {evt : MessageEvent} {call : Option ServiceCall} {after : AsioSocketChannel}
    (own : evt.future = none ∨ ∃ number, evt.future = some (.ofWrite number))
    (ran : this.write evt = .ok (call, after)) :
    after.life = this.life ∧
      (WriteFutures this.writeQueue.ops → Settles (some .closeFuture) this after) := by
  by_cases connected : this.state = .connected
  · have reached : this.isConnected = true := (isConnected_iff this).mpr connected
    cases made : AsioWriteRequest.ofEvent evt with
    | error stop =>
        rw [this.write_refused evt connected made] at ran
        cases ran
    | ok request =>
        have life_ : after.life = this.life := by
          unfold write at ran
          simp only [reached, not_true_eq_false, if_false, made, ok_bind] at ran
          split at ran
          · cases ran
            rw [life_offer]
            rfl
          · cases ran
            rw [life_offer]
            rfl
        obtain ⟨after', ran', ledger⟩ := this.write_connected evt connected made
        rw [ran] at ran'
        cases ran'
        refine ⟨life_, fun writes => ?_⟩
        have same : after.completed = this.completed := congrArg Ledger.completed ledger
        have queue : after.writeQueue.ops =
            this.writeQueue.ops ++ [⟨request.writeBufferSize, evt.future, evt.number⟩] :=
          congrArg Ledger.ops ledger
        refine ⟨⟨[], by rw [same, List.append_nil], by simp⟩, ?_⟩
        rw [queue]
        intro op among
        rcases List.mem_append.mp among with earlier | last
        · exact writes op earlier
        · rw [List.mem_singleton.mp last]
          exact own
  · obtain ⟨cleaned, cleans, -⟩ := this.cleanUpWriteBuffer_ok
    rw [this.write_unconnected evt connected cleans] at ran
    cases ran
    refine ⟨?_, fun writes => ?_⟩
    · rw [life_complete, this.life_cleanUpWriteBuffer cleans]
    · obtain ⟨cleaned', cleans', -, first⟩ := this.settles_cleanUpWriteBuffer writes
      rw [cleans] at cleans'
      cases cleans'
      exact (first.trans (cleaned.settles_completeWrite _ own first.queue)).weaken

end Lives

end AsioSocketChannel

namespace IoService

open AsioSocketChannel

/-- Whether the step runs `close()` on its way, and with what fault. -/
def closing : Action → Option (Option CloseFault)
  | .write _ _ => none
  | .transfer _ _ => none
  | .complete _ none _ => none
  | .complete _ (some _) fault => some fault
  | .close none fault => some fault
  | .close (some _) _ => none

/-- The calls and completions of writes. -/
def ofWrites : Action → Bool
  | .close _ _ => false
  | _ => true

/-- The io service calls a handler of the channel. -/
def isHandler : Action → Bool
  | .complete _ _ _ => true
  | _ => false

/-- A step of the writes changes the life cycle by one closing at most. -/
theorem step_as {before after : IoService} {action : Action} (writes : ofWrites action = true)
    (stepped : Step before action after) :
    after.channel.life =
      (match closing action with
        | none => before.channel.life
        | some fault => before.channel.life.closeOnce fault) ∧
      (WriteFutures before.channel.writeQueue.ops →
        Settles (some .closeFuture) before.channel after.channel) := by
  unfold Step next at stepped
  cases action with
  | write message withFuture =>
      simp only at stepped
      split at stepped
      · rename_i call channel ran
        cases stepped
        apply write_as _ _ ran
        cases withFuture with
        | false => exact Or.inl rfl
        | true => exact Or.inr ⟨_, rfl⟩
      · cases stepped
  | transfer position count =>
      simp only at stepped
      split at stepped
      · split at stepped
        · cases stepped
          exact ⟨rfl, Settles.refl⟩
        · cases stepped
      · cases stepped
  | complete position error fault =>
      simp only at stepped
      split at stepped
      · split at stepped
        · split at stepped
          · rename_i polled channel ran
            cases stepped
            have handled := handleWrite_as _ _ _ _ ran
            cases error with
            | none => exact handled
            | some value => exact handled
          · cases stepped
        · cases stepped
      · cases stepped
  | close future fault => cases writes

end IoService

/-- An outstanding `async_connect`, with the endpoints behind its own. -/
structure Attempt where
  left : List EndpointType
  future : ChannelFuture
  /-- The socket has been closed in the meantime. -/
  cancelled : Bool
  deriving DecidableEq, Repr

def Attempt.cancel (this : Attempt) : Attempt := { this with cancelled := true }

/-- Which handler of the channel waits for the handlers of the pipeline. -/
inductive Routine where
  /-- `start` has been called. -/
  | accepted
  | openFired
  | boundFired
  | acceptedFired
  | connectFired (future : ChannelFuture)
  | connectSettled
  | messageFired
  deriving DecidableEq, Repr

inductive SocketRequest where
  | close (fault : Option CloseFault)
  | disconnect (fault : Option CloseFault)
  | unbind (fault : Option CloseFault)
  | setInterestOps (read : Bool)
  /-- With what the resolver answers. -/
  | connect (endpoints : List EndpointType)
  deriving DecidableEq, Repr

structure SocketService where
  /-- The requests go through the sink of a server. -/
  server : Bool
  service : IoService
  readBuffer : HeapChannelBuffer
  /-- The windows of the outstanding `async_read_some`. -/
  reads : List ReadWindow
  attempts : List Attempt
  routine : Option Routine
  /-- The number of the next request. -/
  requests : Nat
  /-- The futures of the closing requests that have been processed. -/
  processed : List ChannelFuture
  /-- The windows of all reads so far. -/
  windows : List ReadWindow
  /-- The endpoints of all connection attempts so far. -/
  tried : List EndpointType
  /-- How often `ChannelConnected` has been fired. -/
  connectedFired : Nat
  /-- The futures whose attempt succeeded while the channel was open. -/
  reached : List ChannelFuture

namespace SocketService

inductive Action where
  | request (request : SocketRequest)
  | io (action : IoService.Action)
  | connectDone (position : Nat) (succeeds : Bool) (fault : Option CloseFault)
  | readDone (position : Nat) (bytes : CharArray)
  | readFailed (position : Nat) (fault : Option CloseFault)
  /-- The handlers of the pipeline have returned; `validated` is what the next test
  of an address gives. -/
  | proceed (validated : Bool)
  /-- A handler reads from the read buffer. -/
  | consume (ops : List ReadOp)

def channel (this : SocketService) : AsioSocketChannel := this.service.channel

def setChannel (this : SocketService) (channel : AsioSocketChannel) : SocketService :=
  { this with service := { this.service with channel := channel } }

/-- Closing the socket makes the outstanding attempts fail. -/
def dropAttempts (this : SocketService) : SocketService :=
  if this.channel.tcpSocketOpen then this
  else { this with attempts := this.attempts.map Attempt.cancel }

def isReadable (this : SocketService) : Bool := this.channel.getInterestOps.read

def asyncReadSome (this : SocketService) : Except Stop SocketService := do
  let window ← this.readBuffer.writableArray
  pure { this with reads := this.reads ++ [window], windows := this.windows ++ [window] }

/-- In a handler of the io service nobody catches the exception of a read that
cannot be started; the handler ends. -/
def startReading (this : SocketService) : SocketService :=
  match this.asyncReadSome with
  | .ok this => this
  | .error _ => this

def complete (this : SocketService) (future : ChannelFuture) (outcome : Outcome) :
    SocketService :=
  this.setChannel (this.channel.complete (some future) outcome)

/-- The write flag is kept as it is. -/
def setRawInterestOps (this : SocketService) (read : Bool) : SocketService :=
  this.setChannel { this.channel with
    rawInterestOps := ⟨read, this.channel.rawInterestOps.write⟩ }

/-- `setInterestOps(future, interestOps)`. An exception of it ends in the pipeline. -/
def setInterestOps (this : SocketService) (future : ChannelFuture) (read : Bool) :
    SocketService :=
  let isOrgReadable := this.isReadable
  let this := this.setRawInterestOps read
  let isNowReadable := this.isReadable
  let changed := isOrgReadable != isNowReadable
  let reading := if changed && isNowReadable then this.asyncReadSome else pure this
  match reading with
  | .ok this =>
      let this := this.complete future .success
      if changed then
        this.setChannel (this.channel.fire
          (.interestChanged ⟨read, this.channel.rawInterestOps.write⟩))
      else this
  | .error (.thrown e) => this.setChannel (this.channel.fire (.exceptionCaught ⟨e, 0⟩))
  | .error _ => this

def setConnected (this : SocketService) : SocketService :=
  if this.channel.state ≠ .closed then
    this.setChannel { this.channel with state := .connected }
  else this

def closeWith (this : SocketService) (future : ChannelFuture) (fault : Option CloseFault) :
    Except Stop SocketService := do
  let channel ← this.channel.closeWith future fault
  pure (this.setChannel channel).dropAttempts

def close (this : SocketService) (fault : Option CloseFault) : Except Stop SocketService := do
  let channel ← this.channel.close fault
  pure (this.setChannel channel).dropAttempts

/-- `async_connect` opens a socket that is closed. -/
def asyncConnect (this : SocketService) (endpoint : EndpointType) (left : List EndpointType)
    (future : ChannelFuture) : SocketService :=
  { this.setChannel { this.channel with tcpSocketOpen := true } with
    attempts := this.attempts ++ [⟨left, future, false⟩]
    tried := this.tried ++ [endpoint] }

/-- The number of the future each request comes with; `close()` has the close future. -/
def newFuture (this : SocketService) : ChannelFuture := .other this.requests

def answered (this : SocketService) (future : ChannelFuture) : SocketService :=
  { this with requests := this.requests + 1, processed := this.processed ++ [future] }

/-- `handleStateChange` of the two sinks. The server's takes a `connect` for a request
it does not know. To look at the first of no endpoints has no meaning. -/
def handleStateChange (this : SocketService) : SocketRequest → Except Stop SocketService
  | .close fault => do
      let closed ← this.close fault
      pure (closed.answered .closeFuture)
  | .disconnect fault => do
      let closed ← this.closeWith this.newFuture fault
      pure (closed.answered this.newFuture)
  | .unbind fault => do
      let closed ← this.closeWith this.newFuture fault
      pure (closed.answered this.newFuture)
  | .setInterestOps read =>
      pure { this.setInterestOps this.newFuture read with requests := this.requests + 1 }
  | .connect endpoints =>
      if this.server then pure { this with requests := this.requests + 1 }
      else
        match endpoints with
        | [] => throw .outOfBounds
        | endpoint :: left =>
            pure { this.asyncConnect endpoint left this.newFuture with
              requests := this.requests + 1 }

/-- The attempt of `handleConnect` has succeeded. -/
def connectSucceeds (this : SocketService) (attempt : Attempt) : SocketService :=
  let reached :=
    if this.channel.isOpen then this.reached ++ [attempt.future] else this.reached
  { this.setConnected with
    connectedFired := this.connectedFired + 1
    routine := some (.connectFired attempt.future)
    reached := reached }

/-- It has failed, for whatever reason: the next endpoint is tried. -/
def connectFails (this : SocketService) (attempt : Attempt) (fault : Option CloseFault) :
    Except Stop SocketService :=
  match attempt.left with
  | endpoint :: left =>
      let this := this.setChannel { this.channel with tcpSocketOpen := false }
      pure (this.dropAttempts.asyncConnect endpoint left attempt.future)
  | [] =>
      let cause : Cause := ⟨⟨.runtime, "can't connect to server"⟩, 0⟩
      (this.complete attempt.future (.failure cause)).closeWith attempt.future fault

def withoutAttempt (this : SocketService) (position : Nat) : SocketService :=
  { this with attempts := this.attempts.eraseIdx position }

/-- `handleConnect`. An attempt whose socket was closed does not succeed. -/
def handleConnect (this : SocketService) (position : Nat) (succeeds : Bool)
    (fault : Option CloseFault) : Except Stop SocketService :=
  match this.attempts[position]? with
  | none => throw .outOfBounds
  | some attempt =>
      if succeeds then
        if attempt.cancelled then throw .outOfBounds
        else pure ((this.withoutAttempt position).connectSucceeds attempt)
      else (this.withoutAttempt position).connectFails attempt fault

/-- The bytes are in the window when `handleRead` is called. -/
def handleRead (this : SocketService) (position : Nat) (bytes : CharArray) :
    Except Stop SocketService :=
  match this.reads[position]? with
  | none => throw .outOfBounds
  | some window =>
      if window.length < bytes.length then throw .outOfBounds
      else
        let this := { this with
          reads := this.reads.eraseIdx position
          readBuffer := this.readBuffer.fill window bytes }
        match this.readBuffer.offsetWriterIndex bytes.length with
        | .ok moved => pure { this with readBuffer := moved, routine := some .messageFired }
        | .error _ => pure this

def handleReadError (this : SocketService) (position : Nat) (fault : Option CloseFault) :
    Except Stop SocketService :=
  match this.reads[position]? with
  | none => throw .outOfBounds
  | some _ => { this with reads := this.reads.eraseIdx position }.close fault

/-- The rest of a handler, up to the next event it fires. -/
def resume (this : SocketService) (validated : Bool) : Routine → SocketService
  | .accepted => { this with routine := some .openFired }
  | .openFired => { this with routine := if validated then some .boundFired else none }
  | .boundFired =>
      if validated then
        { this.setConnected with
          connectedFired := this.connectedFired + 1
          routine := some .acceptedFired }
      else { this with routine := none }
  | .acceptedFired =>
      { if this.isReadable then this.startReading else this with routine := none }
  | .connectFired future =>
      { this.complete future .success with routine := some .connectSettled }
  | .connectSettled =>
      { if this.isReadable then this.startReading else this with routine := none }
  | .messageFired =>
      { if this.channel.rawInterestOps.read then this.startReading else this with
        routine := none }

/-- Handlers of the io service run one at a time. -/
def next (this : SocketService) : Action → Except Stop SocketService
  | .request request => this.handleStateChange request
  | .io action =>
      if IoService.ofWrites action = true ∧
          (IoService.isHandler action = true → this.routine = none) then
        match this.service.next action with
        | some service => pure { this with service := service }.dropAttempts
        | none => throw .outOfBounds
      else throw .outOfBounds
  | .connectDone position succeeds fault =>
      if this.routine = none then this.handleConnect position succeeds fault
      else throw .outOfBounds
  | .readDone position bytes =>
      if this.routine = none then this.handleRead position bytes else throw .outOfBounds
  | .readFailed position fault =>
      if this.routine = none then this.handleReadError position fault else throw .outOfBounds
  | .proceed validated =>
      match this.routine with
      | none => throw .outOfBounds
      | some routine => pure (this.resume validated routine)
  | .consume ops => pure { this with readBuffer := this.readBuffer.afterReads ops }

def Step (before : SocketService) (action : Action) (after : SocketService) : Prop :=
  before.next action = .ok after

/-- A new channel: the client's has no socket yet, an accepted one is about to be
started. -/
def opened (server : Bool) (lowWaterMark highWaterMark : Int)
    (readBuffer : HeapChannelBuffer) : SocketService where
  server := server
  service :=
    { IoService.idle lowWaterMark highWaterMark with
      channel := { AsioSocketChannel.justConnected lowWaterMark highWaterMark with
        state := .opened
        tcpSocketOpen := server } }
  readBuffer := readBuffer
  reads := []
  attempts := []
  routine := if server then some .accepted else none
  requests := 0
  processed := []
  windows := []
  tried := []
  connectedFired := 0
  reached := []

section Channels

variable (this : SocketService)

@[simp] theorem setChannel_channel (channel : AsioSocketChannel) :
    (this.setChannel channel).channel = channel := rfl

@[simp] theorem dropAttempts_channel : this.dropAttempts.channel = this.channel := by
  unfold dropAttempts
  split <;> rfl

theorem asyncReadSome_ok {after : SocketService} (ran : this.asyncReadSome = .ok after) :
    ∃ window, this.readBuffer.writableArray = .ok window ∧
      after = { this with reads := this.reads ++ [window], windows := this.windows ++ [window] } := by
  obtain ⟨window, found, made⟩ := ok_of_bind ran
  cases made
  exact ⟨window, found, rfl⟩

/-- A read is started, or the handler ends without one. -/
theorem startReading_cases :
    (∃ window, this.startReading =
        { this with reads := this.reads ++ [window], windows := this.windows ++ [window] }) ∨
      this.startReading = this := by
  unfold startReading
  cases ran : this.asyncReadSome with
  | ok after =>
      obtain ⟨window, -, made⟩ := this.asyncReadSome_ok ran
      exact Or.inl ⟨window, made⟩
  | error stop => exact Or.inr rfl

@[simp] theorem startReading_channel : this.startReading.channel = this.channel := by
  rcases this.startReading_cases with ⟨window, started⟩ | same
  · rw [started]
    rfl
  · rw [same]

variable {fault : Option CloseFault}

theorem closeWith_ok {future : ChannelFuture}
    {after : SocketService} (ran : this.closeWith future fault = .ok after) :
    ∃ channel, AsioSocketChannel.ClosesAs future fault this.channel channel ∧
      after = (this.setChannel channel).dropAttempts := by
  obtain ⟨channel, closed, made⟩ := ok_of_bind ran
  cases made
  obtain ⟨channel', closed', closes⟩ := this.channel.closeWith_as future fault
  rw [closed] at closed'
  cases closed'
  exact ⟨channel, closes, rfl⟩

theorem close_ok {after : SocketService}
    (ran : this.close fault = .ok after) :
    ∃ channel, channel.life = this.channel.life.closeOnce fault ∧
      (AsioSocketChannel.WriteFutures this.channel.writeQueue.ops →
        AsioSocketChannel.Settles (some .closeFuture) this.channel channel) ∧
      after = (this.setChannel channel).dropAttempts := by
  obtain ⟨channel, closed, made⟩ := ok_of_bind ran
  cases made
  obtain ⟨channel', closed', life, settles⟩ := this.channel.close_as fault
  rw [closed] at closed'
  cases closed'
  exact ⟨channel, life, settles, rfl⟩

theorem setRawInterestOps_settles (future : ChannelFuture) (read : Bool)
    (writes : AsioSocketChannel.WriteFutures this.channel.writeQueue.ops) :
    AsioSocketChannel.Settles (some future) this.channel
      (this.setRawInterestOps read).channel :=
  ⟨⟨[], (List.append_nil _).symm, by simp⟩, writes⟩

/-- The answer to a request for reads: the flag is set, and where it was switched on a
read is started if the buffer has room. -/
theorem setInterestOps_cases (future : ChannelFuture) (read : Bool) :
    ∃ channel, channel.life = { this.channel.life with reads := read } ∧
      (AsioSocketChannel.WriteFutures this.channel.writeQueue.ops →
        AsioSocketChannel.Settles (some future) this.channel channel) ∧
      (this.setInterestOps future read = this.setChannel channel ∧
          (this.isReadable = false → (this.setRawInterestOps read).isReadable = true →
            ∃ stop, this.readBuffer.writableArray = .error stop) ∨
        ∃ window, this.isReadable = false ∧ (this.setRawInterestOps read).isReadable = true ∧
          this.readBuffer.writableArray = .ok window ∧
          this.setInterestOps future read =
            { this.setChannel channel with
              reads := this.reads ++ [window]
              windows := this.windows ++ [window] }) := by
  have completed : ∀ event : ChannelEvent, event.endsLife = false →
      (((this.setRawInterestOps read).channel.complete (some future) .success).fire event).life =
          { this.channel.life with reads := read } ∧
        (AsioSocketChannel.WriteFutures this.channel.writeQueue.ops →
          AsioSocketChannel.Settles (some future) this.channel
            (((this.setRawInterestOps read).channel.complete (some future) .success).fire
              event)) := by
    intro event other
    refine ⟨?_, fun writes => ?_⟩
    · rw [AsioSocketChannel.life_fire _ other, AsioSocketChannel.life_complete]
      rfl
    · have first := this.setRawInterestOps_settles future read writes
      have both := first.trans ((this.setRawInterestOps read).channel.settles_complete
        (some future) .success first.queue)
      exact ⟨both.completed, both.queue⟩
  have quiet : ((this.setRawInterestOps read).channel.complete (some future) .success).life =
      { this.channel.life with reads := read } := by
    rw [AsioSocketChannel.life_complete]
    rfl
  have settled : AsioSocketChannel.WriteFutures this.channel.writeQueue.ops →
      AsioSocketChannel.Settles (some future) this.channel
        ((this.setRawInterestOps read).channel.complete (some future) .success) := by
    intro writes
    have first := this.setRawInterestOps_settles future read writes
    exact first.trans ((this.setRawInterestOps read).channel.settles_complete
      (some future) .success first.queue)
  unfold setInterestOps
  dsimp only
  cases before : this.isReadable <;> cases now : (this.setRawInterestOps read).isReadable
  · exact ⟨_, quiet, settled, Or.inl ⟨rfl, fun _ impossible => Bool.noConfusion impossible⟩⟩
  · -- reads are switched on
    cases started : (this.setRawInterestOps read).asyncReadSome with
    | ok after =>
        obtain ⟨window, found, made⟩ := asyncReadSome_ok _ started
        have told := completed (.interestChanged ⟨read, ((this.setRawInterestOps read).complete
          future .success).channel.rawInterestOps.write⟩) rfl
        refine ⟨_, told.1, told.2, Or.inr ⟨window, rfl, rfl, found, ?_⟩⟩
        rw [made]
        rfl
    | error stop =>
        have full : ∃ stop, this.readBuffer.writableArray = .error stop := by
          cases found : this.readBuffer.writableArray with
          | ok window =>
              unfold asyncReadSome at started
              have same : (this.setRawInterestOps read).readBuffer = this.readBuffer := rfl
              rw [same, found] at started
              cases started
          | error stop => exact ⟨stop, rfl⟩
        have raw : (this.setRawInterestOps read).channel.life =
            { this.channel.life with reads := read } := rfl
        cases stop with
        | thrown e =>
            refine ⟨(this.setRawInterestOps read).channel.fire (.exceptionCaught ⟨e, 0⟩), ?_, ?_,
              Or.inl ⟨?_, fun _ _ => full⟩⟩
            · rw [AsioSocketChannel.life_fire _ rfl]
              exact raw
            · intro writes
              have first := this.setRawInterestOps_settles future read writes
              exact ⟨first.completed, first.queue⟩
            · rfl
        | _ =>
            exact ⟨(this.setRawInterestOps read).channel, raw,
              this.setRawInterestOps_settles future read, Or.inl ⟨rfl, fun _ _ => full⟩⟩
  · have told := completed (.interestChanged ⟨read, ((this.setRawInterestOps read).complete
      future .success).channel.rawInterestOps.write⟩) rfl
    exact ⟨_, told.1, told.2, Or.inl ⟨rfl, fun impossible => Bool.noConfusion impossible⟩⟩
  · exact ⟨_, quiet, settled, Or.inl ⟨rfl, fun impossible => Bool.noConfusion impossible⟩⟩

end Channels

end SocketService

end Cetty
