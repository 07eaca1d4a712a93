import Cetty.SocketService

/-!
# The reads of a channel

Reads, connection attempts and a handler that waits for the pipeline hand one token on. Only
a request to connect and one that switches reads on bring a new one into a channel.
-/

namespace Cetty

open ActionRuns

namespace SocketService

/-- The reads, the attempts and the waiting handler. -/
def tokens (this : SocketService) : Nat :=
  this.reads.length + this.attempts.length + this.routine.toList.length

/-- The tokens that an action may bring in. -/
def Action.brings : Action → Nat
  | .request (.setInterestOps read) => read.toNat
  | .request (.connect _) => 1
  | _ => 0

section Steps

variable {before after : SocketService} {fault : Option CloseFault} {position : Nat}

@[simp] theorem tokens_dropAttempts (this : SocketService) :
    this.dropAttempts.tokens = this.tokens := by
  unfold dropAttempts
  split
  · rfl
  · unfold tokens
    rw [List.length_map]

theorem tokens_closeWith {future : ChannelFuture}
    (ran : before.closeWith future fault = .ok after) : after.tokens = before.tokens := by
  obtain ⟨channel, -, made⟩ := before.closeWith_ok ran
  rw [made, tokens_dropAttempts]
  rfl

theorem tokens_close (ran : before.close fault = .ok after) : after.tokens = before.tokens := by
  obtain ⟨channel, -, -, made⟩ := before.close_ok ran
  rw [made, tokens_dropAttempts]
  rfl

theorem tokens_asyncConnect (this : SocketService) (endpoint : EndpointType)
    (left : List EndpointType) (future : ChannelFuture) :
    (this.asyncConnect endpoint left future).tokens = this.tokens + 1 := by
  unfold asyncConnect tokens
  rw [List.length_append, List.length_singleton]
  exact Nat.add_right_comm _ 1 _

theorem tokens_reading (this : SocketService) (window : ReadWindow) :
    { this with
      reads := this.reads ++ [window]
      windows := this.windows ++ [window] }.tokens = this.tokens + 1 := by
  unfold tokens
  dsimp only
  rw [List.length_append, List.length_singleton]
  omega

theorem isReadable_off (this : SocketService) :
    (this.setRawInterestOps false).isReadable = false := by
  have off : (this.setRawInterestOps false).channel.rawInterestOps.read = false := rfl
  unfold isReadable AsioSocketChannel.getInterestOps
  generalize (this.setRawInterestOps false).channel = channel at off
  split
  · rfl
  · dsimp only
    split
    · split <;> exact off
    · exact off

theorem tokens_setInterestOps (this : SocketService) (future : ChannelFuture) (read : Bool) :
    (this.setInterestOps future read).tokens ≤ this.tokens + read.toNat := by
  obtain ⟨channel, -, -, ⟨quiet, -⟩ | ⟨window, -, switched, -, started⟩⟩ :=
    this.setInterestOps_cases future read
  · rw [quiet]
    exact Nat.le_add_right _ _
  · cases read with
    | false =>
        rw [isReadable_off] at switched
        cases switched
    | true =>
        rw [started]
        exact Nat.le_of_eq ((this.setChannel channel).tokens_reading window)

theorem tokens_request {request : SocketRequest}
    (ran : before.handleStateChange request = .ok after) :
    after.tokens ≤ before.tokens + (Action.request request).brings := by
  unfold handleStateChange at ran
  cases request with
  | setInterestOps read =>
      cases ran
      exact before.tokens_setInterestOps before.newFuture read
  | connect endpoints =>
      dsimp only at ran
      split at ran
      · cases ran
        exact Nat.le_add_right _ _
      · cases endpoints with
        | nil => cases ran
        | cons endpoint left =>
            cases ran
            exact Nat.le_of_eq (before.tokens_asyncConnect endpoint left _)
  | close fault =>
      obtain ⟨closed, made, same⟩ := ok_of_bind ran
      cases same
      have kept := tokens_close made
      exact Nat.le_of_eq kept
  | disconnect fault | unbind fault =>
      obtain ⟨closed, made, same⟩ := ok_of_bind ran
      cases same
      have kept := tokens_closeWith made
      exact Nat.le_of_eq kept

theorem setConnected_outstanding (this : SocketService) :
    this.setConnected.reads = this.reads ∧ this.setConnected.attempts = this.attempts := by
  unfold setConnected
  split <;> exact ⟨rfl, rfl⟩

/-- The attempt becomes the waiting handler, or the next attempt. -/
theorem tokens_connect {succeeds : Bool} (idle : before.routine = none)
    (ran : before.handleConnect position succeeds fault = .ok after) :
    after.tokens ≤ before.tokens := by
  unfold handleConnect at ran
  cases found : before.attempts[position]? with
  | none =>
      rw [found] at ran
      cases ran
  | some attempt =>
      obtain ⟨inside, -⟩ := List.getElem?_eq_some_iff.mp found
      have fewer := List.length_eraseIdx_add_one inside
      have freed : (before.withoutAttempt position).tokens + 1 = before.tokens := by
        unfold tokens withoutAttempt
        dsimp only
        omega
      rw [found] at ran
      dsimp only at ran
      split at ran
      · split at ran
        · cases ran
        · cases ran
          have waits : (before.withoutAttempt position).routine = none := idle
          obtain ⟨reads, attempts⟩ := (before.withoutAttempt position).setConnected_outstanding
          unfold tokens at freed ⊢
          unfold connectSucceeds
          dsimp only
          rw [reads, attempts]
          rw [waits] at freed
          exact Nat.le_of_eq freed
      · unfold connectFails at ran
        split at ran
        · cases ran
          rw [tokens_asyncConnect, tokens_dropAttempts]
          exact Nat.le_of_eq freed
        · rw [tokens_closeWith ran]
          exact Nat.le.intro freed

theorem tokens_read (idle : before.routine = none) {bytes : CharArray}
    (ran : before.handleRead position bytes = .ok after) : after.tokens ≤ before.tokens := by
  unfold handleRead at ran
  split at ran
  · cases ran
  · rename_i window found
    obtain ⟨inside, -⟩ := List.getElem?_eq_some_iff.mp found
    have fewer := List.length_eraseIdx_add_one inside
    unfold tokens
    rw [idle]
    split at ran
    · cases ran
    · dsimp only at ran
      split at ran
      · cases ran
        dsimp only [Option.toList, List.length_singleton, List.length_nil]
        omega
      · cases ran
        dsimp only
        rw [idle]
        omega

theorem tokens_readError (ran : before.handleReadError position fault = .ok after) :
    after.tokens ≤ before.tokens := by
  unfold handleReadError at ran
  split at ran
  · cases ran
  · rw [tokens_close ran]
    unfold tokens
    have fewer := List.length_eraseIdx_le before.reads position
    dsimp only
    omega

/-- The last part of a handler gives its token to a read. -/
theorem tokens_resume {routine : Routine} (waiting : before.routine = some routine)
    (validated : Bool) : (before.resume validated routine).tokens ≤ before.tokens := by
  have whole : before.tokens = before.reads.length + before.attempts.length + 1 := by
    unfold tokens
    rw [waiting]
    rfl
  have last : ∀ condition : Bool,
      (if condition then before.startReading else before).reads.length +
          (if condition then before.startReading else before).attempts.length ≤
        before.reads.length + before.attempts.length + 1 := by
    intro condition
    cases condition
    · exact Nat.le_succ _
    · rcases before.startReading_cases with ⟨window, started⟩ | same
      · rw [if_pos rfl, started, List.length_append]
        exact Nat.le_of_eq (Nat.add_right_comm _ 1 _)
      · rw [if_pos rfl, same]
        exact Nat.le_succ _
  rw [whole]
  unfold resume tokens
  cases routine with
  | openFired =>
      cases validated
      · exact Nat.le_succ _
      · exact Nat.le_refl _
  | boundFired =>
      cases validated
      · exact Nat.le_succ _
      · obtain ⟨reads, attempts⟩ := before.setConnected_outstanding
        dsimp only
        rw [if_pos rfl, reads, attempts]
        exact Nat.le_refl _
  | acceptedFired => exact last _
  | connectSettled => exact last _
  | messageFired => exact last _
  | _ => exact Nat.le_refl _

theorem tokens_next {action : Action} (stepped : Step before action after) :
    after.tokens ≤ before.tokens + action.brings := by
  unfold Step next at stepped
  cases action with
  | request request => exact tokens_request stepped
  | io action =>
      dsimp only at stepped
      split at stepped
      · split at stepped
        · cases stepped
          rw [tokens_dropAttempts]
          exact Nat.le_add_right _ _
        · cases stepped
      · cases stepped
  | connectDone position succeeds fault =>
      dsimp only at stepped
      split at stepped
      · exact tokens_connect (by assumption) stepped
      · cases stepped
  | readDone position bytes =>
      dsimp only at stepped
      split at stepped
      · exact tokens_read (by assumption) stepped
      · cases stepped
  | readFailed position fault =>
      dsimp only at stepped
      split at stepped
      · exact tokens_readError stepped
      · cases stepped
  | proceed validated =>
      dsimp only at stepped
      split at stepped
      · cases stepped
      · cases stepped
        exact tokens_resume (by assumption) validated
  | consume ops =>
      cases stepped
      exact Nat.le_add_right _ _

theorem tokens_run {actions : List Action} (run : Run Step before actions after) :
    after.tokens ≤ before.tokens + (actions.map Action.brings).sum := by
  induction run with
  | nil => exact Nat.le_add_right _ _
  | cons first later ih =>
      have step := tokens_next first
      rw [List.map_cons, List.sum_cons]
      omega

end Steps

/-- An accepted channel whose reads no request switches on has never two outstanding. -/
theorem reads_bounded {server : Bool} {lowWaterMark highWaterMark : Int}
    {readBuffer : HeapChannelBuffer} {actions : List Action} {final : SocketService}
    (run : Run Step (opened server lowWaterMark highWaterMark readBuffer) actions final) :
    final.reads.length + final.attempts.length + final.routine.toList.length ≤
      server.toNat + (actions.map Action.brings).sum := by
  have bounded := tokens_run run
  have begun : (opened server lowWaterMark highWaterMark readBuffer).tokens = server.toNat := by
    cases server <;> rfl
  rw [begun] at bounded
  exact bounded

/-- An accepted channel has been started and reads twice. -/
theorem reads_bounded_started :
    ∃ final, Run Step (opened true 32768 65536 ⟨.big, [0], .zero⟩)
      [.proceed true, .proceed true, .proceed true, .proceed true, .readDone 0 [7]] final ∧
      final.reads.length + final.attempts.length + final.routine.toList.length ≤ 1 := by
  have run : Run Step (opened true 32768 65536 ⟨.big, [0], .zero⟩)
      [.proceed true, .proceed true, .proceed true, .proceed true, .readDone 0 [7]] _ :=
    .cons rfl (.cons rfl (.cons rfl (.cons rfl (.cons rfl (.nil _)))))
  exact ⟨_, run, reads_bounded run⟩

end SocketService

end Cetty
