import Cetty.SocketService

/-!
# Shutting a channel down

Every step of a channel is one move of its life cycle, and no move announces the
end of a channel twice. Which closing requests get their future completed.
-/

namespace Cetty

open MachineInt ActionRuns AsioSocketChannel

namespace Life

inductive Moves : Life → Life → Prop where
  | stays (life : Life) : Moves life life
  | connects (life : Life) (notClosed : life.state ≠ .closed) :
      Moves life { life with state := .connected }
  | wants (life : Life) (read : Bool) : Moves life { life with reads := read }
  | socket (life : Life) : Moves life { life with tcpSocketOpen := true }
  | closes (life : Life) (fault : Option CloseFault) : Moves life (life.close fault)

theorem moves_closeOnce (life : Life) (fault : Option CloseFault) :
    Moves life (life.closeOnce fault) := by
  unfold closeOnce
  split
  · exact .stays life
  · exact .closes life fault

/-- The events of an end in the order of the source, each at most once. -/
def AtMostOnce (life : Life) : Prop := life.ending.Sublist [.disconnected, .unbound, .closed]

/-- The close future is done exactly when the channel is closed, and until then
nothing of its end has been announced. -/
structure Consistent (life : Life) : Prop where
  living : life.state ≠ .closed → life.ending = [] ∧ life.closeFutureDone = false
  marked : life.state = .closed → life.closeFutureDone = true
  once : life.AtMostOnce

theorem lastEvents_once (state : ConnectionState) :
    (lastEvents state).Sublist [.disconnected, .unbound, .closed] := by
  cases state <;> decide

theorem Consistent.close {life : Life} (consistent : life.Consistent)
    (fault : Option CloseFault) : (life.close fault).Consistent := by
  cases closable : life.closable with
  | false => rwa [close_unclosable closable]
  | true =>
      obtain ⟨silent, undone⟩ := consistent.living (closable_alive closable)
      obtain ⟨closed, done⟩ := close_closes closable fault
      refine ⟨fun open_ => absurd closed open_, fun _ => done, ?_⟩
      unfold AtMostOnce Life.close
      rw [if_pos closable]
      cases fault with
      | none =>
          simp only [undone, silent, List.nil_append]
          exact lastEvents_once life.state
      | some fault => exact consistent.once

theorem Consistent.moves {before after : Life} (consistent : before.Consistent)
    (moves : Moves before after) : after.Consistent := by
  cases moves with
  | stays => exact consistent
  | connects notClosed =>
      obtain ⟨silent, undone⟩ := consistent.living notClosed
      exact ⟨fun _ => ⟨silent, undone⟩, fun closed => ConnectionState.noConfusion closed,
        consistent.once⟩
  | wants read => exact ⟨consistent.living, consistent.marked, consistent.once⟩
  | socket => exact ⟨consistent.living, consistent.marked, consistent.once⟩
  | closes fault => exact consistent.close fault

/-- The close future stays done. -/
theorem Moves.done {before after : Life} (moves : Moves before after)
    (done : before.closeFutureDone = true) : after.closeFutureDone = true := by
  cases moves with
  | closes fault =>
      cases closable : before.closable with
      | false => rwa [close_unclosable closable]
      | true => exact (close_closes closable fault).2
  | _ => exact done

end Life

namespace SocketService

/-- The future, besides those of writes, that a step can complete. -/
def touches (this : SocketService) : Action → ChannelFuture
  | .request (.close _) => .closeFuture
  | .request _ => this.newFuture
  | .connectDone position _ _ =>
      match this.attempts[position]? with
      | some attempt => attempt.future
      | none => .closeFuture
  | .proceed _ =>
      match this.routine with
      | some (.connectFired future) => future
      | _ => .closeFuture
  | _ => .closeFuture

/-- One move of the life cycle, and completions of one future and of writes. -/
structure Advances (future : ChannelFuture) (before after : AsioSocketChannel) : Prop where
  moves : Life.Moves before.life after.life
  settles : WriteFutures before.writeQueue.ops → Settles (some future) before after

theorem Advances.refl {future : ChannelFuture} (channel : AsioSocketChannel) :
    Advances future channel channel := ⟨.stays _, Settles.refl⟩

section

variable {future : ChannelFuture} {before after : AsioSocketChannel}

theorem Advances.of_life
    (moves : Life.Moves before.life after.life) (queue : after.writeQueue = before.writeQueue)
    (completed : after.completed = before.completed) : Advances future before after := by
  refine ⟨moves, fun writes => ⟨⟨[], ?_, by simp⟩, ?_⟩⟩
  · rw [completed, List.append_nil]
  · rw [queue]
    exact writes

theorem Advances.completes (advances : Advances future before after) (outcome : Outcome) :
    Advances future before (after.complete (some future) outcome) := by
  refine ⟨?_, fun writes => ?_⟩
  · rw [life_complete]
    exact advances.moves
  · have first := advances.settles writes
    exact first.trans (after.settles_complete (some future) outcome first.queue)

end

section Advancing

variable {this after : SocketService}

variable {fault : Option CloseFault} {position : Nat}

theorem advances_closeWith {future : ChannelFuture}
    (ran : this.closeWith future fault = .ok after) :
    Advances future this.channel after.channel := by
  obtain ⟨channel, closes, made⟩ := this.closeWith_ok ran
  rw [made, dropAttempts_channel, setChannel_channel]
  refine ⟨?_, closes.settles⟩
  rw [closes.life]
  exact .closes _ fault

theorem advances_close (ran : this.close fault = .ok after) :
    Advances .closeFuture this.channel after.channel := by
  obtain ⟨channel, life, settles, made⟩ := this.close_ok ran
  rw [made, dropAttempts_channel, setChannel_channel]
  refine ⟨?_, settles⟩
  rw [life]
  exact Life.moves_closeOnce _ fault

theorem advances_setInterestOps (future : ChannelFuture) (read : Bool) :
    Advances future this.channel (this.setInterestOps future read).channel := by
  obtain ⟨channel, life, settles, outcome⟩ := this.setInterestOps_cases future read
  have same : (this.setInterestOps future read).channel = channel := by
    rcases outcome with ⟨quiet, -⟩ | ⟨window, -, -, -, started⟩
    · rw [quiet]
      rfl
    · rw [started]
      rfl
  rw [same]
  refine ⟨?_, settles⟩
  rw [life]
  exact .wants _ read

theorem advances_setConnected {future : ChannelFuture} :
    Advances future this.channel this.setConnected.channel := by
  unfold setConnected
  split
  · rename_i alive
    exact Advances.of_life (.connects this.channel.life alive) rfl rfl
  · exact Advances.refl _

theorem advances_asyncConnect {future : ChannelFuture} (endpoint : EndpointType)
    (left : List EndpointType) :
    Advances future this.channel (this.asyncConnect endpoint left future).channel :=
  Advances.of_life (.socket this.channel.life) rfl rfl

theorem advances_request {request : SocketRequest}
    (ran : this.handleStateChange request = .ok after) :
    Advances (this.touches (.request request)) this.channel after.channel := by
  unfold handleStateChange at ran
  cases request with
  | close fault =>
      obtain ⟨closed, closing, made⟩ := ok_of_bind ran
      cases made
      have advances := advances_close closing
      exact advances
  | disconnect fault =>
      obtain ⟨closed, closing, made⟩ := ok_of_bind ran
      cases made
      have advances := advances_closeWith closing
      exact advances
  | unbind fault =>
      obtain ⟨closed, closing, made⟩ := ok_of_bind ran
      cases made
      have advances := advances_closeWith closing
      exact advances
  | setInterestOps read =>
      cases ran
      exact advances_setInterestOps this.newFuture read
  | connect endpoints =>
      simp only at ran
      split at ran
      · cases ran
        exact Advances.refl _
      · cases endpoints with
        | nil => cases ran
        | cons endpoint left =>
            cases ran
            exact advances_asyncConnect endpoint left

theorem advances_handleConnect {succeeds : Bool}
    (ran : this.handleConnect position succeeds fault = .ok after) :
    Advances (this.touches (.connectDone position succeeds fault)) this.channel
      after.channel := by
  unfold handleConnect at ran
  unfold touches
  cases found : this.attempts[position]? with
  | none =>
      simp only [found] at ran
      cases ran
  | some attempt =>
      simp only [found] at ran ⊢
      split at ran
      · split at ran
        · cases ran
        · cases ran
          have advances : Advances attempt.future (this.withoutAttempt position).channel
              (this.withoutAttempt position).setConnected.channel := advances_setConnected
          exact advances
      · unfold connectFails at ran
        cases left : attempt.left with
        | nil =>
            simp only [left] at ran
            have failed : Advances attempt.future this.channel
                (this.channel.complete (some attempt.future)
                  (.failure ⟨⟨.runtime, "can't connect to server"⟩, 0⟩)) :=
              (Advances.refl this.channel).completes _
            obtain ⟨channel, closes, made⟩ := closeWith_ok _ ran
            rw [made, dropAttempts_channel, setChannel_channel]
            refine ⟨?_, fun writes => ?_⟩
            · rw [closes.life]
              change Life.Moves _ ((this.channel.complete _ _).life.close fault)
              rw [life_complete]
              exact .closes _ fault
            · have first := failed.settles writes
              exact first.trans (closes.settles first.queue)
        | cons endpoint rest =>
            simp only [left] at ran
            cases ran
            exact Advances.of_life (.socket this.channel.life) (by
              change ((this.withoutAttempt position).setChannel _).dropAttempts.channel.writeQueue = _
              rw [dropAttempts_channel]
              rfl) (by
              change ((this.withoutAttempt position).setChannel _).dropAttempts.channel.completed = _
              rw [dropAttempts_channel]
              rfl)

theorem advances_reads {bytes : CharArray}
    (ran : this.handleRead position bytes = .ok after) : after.channel = this.channel := by
  unfold handleRead at ran
  split at ran
  · cases ran
  · split at ran
    · cases ran
    · simp only at ran
      split at ran
      · cases ran
        rfl
      · cases ran
        rfl

theorem advances_resume (validated : Bool) {routine : Routine}
    (waits : this.routine = some routine) :
    Advances (this.touches (.proceed validated)) this.channel
      (this.resume validated routine).channel := by
  have reading : ∀ condition : Bool,
      (if condition then this.startReading else this).channel = this.channel := by
    intro condition
    cases condition
    · rfl
    · exact this.startReading_channel
  unfold touches
  simp only [waits]
  cases routine with
  | accepted => exact Advances.refl _
  | openFired => exact Advances.refl _
  | boundFired =>
      unfold resume
      cases validated with
      | false => exact Advances.refl _
      | true => exact advances_setConnected
  | acceptedFired =>
      change Advances _ _ (if this.isReadable then this.startReading else this).channel
      rw [reading]
      exact Advances.refl _
  | connectFired future => exact (Advances.refl this.channel).completes .success
  | connectSettled =>
      change Advances _ _ (if this.isReadable then this.startReading else this).channel
      rw [reading]
      exact Advances.refl _
  | messageFired =>
      change Advances _ _
        (if this.channel.rawInterestOps.read then this.startReading else this).channel
      rw [reading]
      exact Advances.refl _

/-- Every step is one move of the life cycle. -/
theorem step_advances {action : Action} (stepped : Step this action after) :
    Advances (this.touches action) this.channel after.channel := by
  unfold Step next at stepped
  cases action with
  | request request => exact advances_request stepped
  | io action =>
      simp only at stepped
      split at stepped
      · rename_i allowed
        cases ran : this.service.next action with
        | none =>
            simp only [ran] at stepped
            cases stepped
        | some service =>
            simp only [ran] at stepped
            cases stepped
            obtain ⟨life, settles⟩ := IoService.step_as allowed.1 ran
            rw [dropAttempts_channel]
            refine ⟨?_, settles⟩
            change Life.Moves this.channel.life service.channel.life
            rw [life]
            cases IoService.closing action with
            | none => exact .stays _
            | some fault => exact Life.moves_closeOnce _ fault
      · cases stepped
  | connectDone position succeeds fault =>
      simp only at stepped
      split at stepped
      · exact advances_handleConnect stepped
      · cases stepped
  | readDone position bytes =>
      simp only at stepped
      split at stepped
      · rw [advances_reads stepped]
        exact Advances.refl _
      · cases stepped
  | readFailed position fault =>
      simp only at stepped
      split at stepped
      · unfold handleReadError at stepped
        split at stepped
        · cases stepped
        · have advances := advances_close stepped
          exact advances
      · cases stepped
  | proceed validated =>
      cases waits : this.routine with
      | none =>
          simp only [waits] at stepped
          cases stepped
      | some routine =>
          simp only [waits] at stepped
          cases stepped
          exact advances_resume validated waits
  | consume ops =>
      cases stepped
      exact Advances.refl _

end Advancing

/-- The future has been completed. -/
def isDone (this : SocketService) (future : ChannelFuture) : Prop :=
  if future = .closeFuture then this.channel.closeFutureDone = true
  else future ∈ this.channel.completed.map Prod.fst

/-- A channel that is not yet closed has a socket, and `disconnect` and `unbind` come
before the channel is closed. -/
def Completable (this : SocketService) : Action → Prop
  | .request (.close _) => this.channel.closeFutureDone = true ∨ this.channel.life.closable = true
  | .request (.disconnect _) => this.channel.life.closable = true
  | .request (.unbind _) => this.channel.life.closable = true
  | _ => True

/-- Every closing request that has been processed has its future done. -/
structure Answered (this : SocketService) : Prop where
  writes : WriteFutures this.channel.writeQueue.ops
  done : ∀ future ∈ this.processed, this.isDone future

section Runs

variable {before after : SocketService}

theorem isDone_grows {future touched : ChannelFuture}
    (advances : Advances touched before.channel after.channel)
    (writes : WriteFutures before.channel.writeQueue.ops) (done : before.isDone future) :
    after.isDone future := by
  unfold isDone at done ⊢
  split
  · rename_i close
    rw [if_pos close] at done
    have kept : after.channel.life.closeFutureDone = true := advances.moves.done done
    exact kept
  · rename_i other
    rw [if_neg other] at done
    obtain ⟨more, grown, -⟩ := (advances.settles writes).completed
    rw [grown, List.map_append]
    exact List.mem_append_left _ done

theorem dropAttempts_processed (this : SocketService) :
    this.dropAttempts.processed = this.processed := by
  unfold dropAttempts
  split <;> rfl

variable {fault : Option CloseFault} {position : Nat}

theorem closeWith_processed {future : ChannelFuture}
    (ran : before.closeWith future fault = .ok after) : after.processed = before.processed := by
  obtain ⟨channel, -, made⟩ := before.closeWith_ok ran
  rw [made, dropAttempts_processed]
  rfl

theorem close_processed (ran : before.close fault = .ok after) :
    after.processed = before.processed := by
  obtain ⟨channel, -, -, made⟩ := before.close_ok ran
  rw [made, dropAttempts_processed]
  rfl

theorem startReading_processed (this : SocketService) :
    this.startReading.processed = this.processed := by
  rcases this.startReading_cases with ⟨window, started⟩ | same
  · rw [started]
  · rw [same]

theorem setConnected_processed (this : SocketService) :
    this.setConnected.processed = this.processed := by
  unfold setConnected
  split <;> rfl

theorem setInterestOps_processed (this : SocketService) (future : ChannelFuture) (read : Bool) :
    (this.setInterestOps future read).processed = this.processed := by
  obtain ⟨channel, -, -, ⟨quiet, -⟩ | ⟨window, -, -, -, started⟩⟩ :=
    this.setInterestOps_cases future read
  · rw [quiet]
    rfl
  · rw [started]
    rfl

/-- A request to close leaves its own future done, where it is not turned away. -/
theorem closeWith_answers {number : Nat}
    (closable : before.channel.life.closable = true)
    (ran : before.closeWith (.other number) fault = .ok after) : after.isDone (.other number) := by
  obtain ⟨channel, closes, made⟩ := before.closeWith_ok ran
  obtain ⟨outcome, entered⟩ := closes.done closable ChannelFuture.noConfusion
  rw [made]
  unfold isDone
  rw [if_neg ChannelFuture.noConfusion, dropAttempts_channel, setChannel_channel]
  exact List.mem_map_of_mem entered

theorem close_answers (completable : before.Completable (.request (.close fault)))
    (ran : before.close fault = .ok after) : after.isDone .closeFuture := by
  obtain ⟨channel, life, -, made⟩ := before.close_ok ran
  have done : channel.life.closeFutureDone = true := by
    rw [life]
    unfold Life.closeOnce
    split
    · assumption
    · rename_i undone
      rcases completable with done | closable
      · exact absurd done undone
      · exact (Life.close_closes closable fault).2
  rw [made]
  unfold isDone
  rw [if_pos rfl, dropAttempts_channel, setChannel_channel]
  exact done

theorem request_processed {request : SocketRequest}
    (completable : before.Completable (.request request))
    (ran : before.handleStateChange request = .ok after) :
    ∀ future ∈ after.processed, future ∈ before.processed ∨ after.isDone future := by
  have answered : ∀ (closed : SocketService) (own : ChannelFuture),
      closed.processed = before.processed → closed.isDone own →
      ∀ future ∈ (closed.answered own).processed,
        future ∈ before.processed ∨ (closed.answered own).isDone future := by
    intro closed own same done future among
    rcases List.mem_append.mp among with earlier | new
    · rw [same] at earlier
      exact Or.inl earlier
    · rw [List.mem_singleton.mp new]
      exact Or.inr done
  unfold handleStateChange at ran
  cases request with
  | close fault =>
      obtain ⟨closed, closing, made⟩ := ok_of_bind ran
      cases made
      exact answered closed _ (close_processed closing) (close_answers completable closing)
  | disconnect fault =>
      obtain ⟨closed, closing, made⟩ := ok_of_bind ran
      cases made
      exact answered closed _ (closeWith_processed closing)
        (closeWith_answers completable closing)
  | unbind fault =>
      obtain ⟨closed, closing, made⟩ := ok_of_bind ran
      cases made
      exact answered closed _ (closeWith_processed closing)
        (closeWith_answers completable closing)
  | setInterestOps read =>
      cases ran
      intro future among
      have same := before.setInterestOps_processed before.newFuture read
      exact Or.inl (same ▸ among)
  | connect endpoints =>
      simp only at ran
      split at ran
      · cases ran
        exact fun future among => Or.inl among
      · cases endpoints with
        | nil => cases ran
        | cons endpoint left =>
            cases ran
            exact fun future among => Or.inl among

theorem handleConnect_processed {succeeds : Bool}
    (ran : before.handleConnect position succeeds fault = .ok after) :
    after.processed = before.processed := by
  unfold handleConnect at ran
  split at ran
  · cases ran
  · rename_i attempt found
    split at ran
    · split at ran
      · cases ran
      · cases ran
        exact (before.withoutAttempt position).setConnected_processed
    · unfold connectFails at ran
      split at ran
      · cases ran
        exact dropAttempts_processed _
      · have same := closeWith_processed ran
        exact same

theorem handleRead_processed {bytes : CharArray}
    (ran : before.handleRead position bytes = .ok after) : after.processed = before.processed := by
  unfold handleRead at ran
  split at ran
  · cases ran
  · split at ran
    · cases ran
    · simp only at ran
      split at ran
      · cases ran
        rfl
      · cases ran
        rfl

theorem resume_processed (this : SocketService) (validated : Bool) (routine : Routine) :
    (this.resume validated routine).processed = this.processed := by
  have reading : ∀ condition : Bool,
      (if condition then this.startReading else this).processed = this.processed := by
    intro condition
    cases condition
    · rfl
    · exact this.startReading_processed
  cases routine with
  | boundFired =>
      unfold resume
      cases validated
      · rfl
      · exact this.setConnected_processed
  | acceptedFired => exact reading this.isReadable
  | connectSettled => exact reading this.isReadable
  | messageFired => exact reading this.channel.rawInterestOps.read
  | _ => rfl

/-- Only a closing request adds to the processed futures, and its own is done. -/
theorem step_processed {action : Action} (completable : before.Completable action)
    (stepped : Step before action after) :
    ∀ future ∈ after.processed, future ∈ before.processed ∨ after.isDone future := by
  have unchanged : after.processed = before.processed →
      ∀ future ∈ after.processed, future ∈ before.processed ∨ after.isDone future :=
    fun same future among => Or.inl (same ▸ among)
  unfold Step next at stepped
  cases action with
  | request request => exact request_processed completable stepped
  | io action =>
      simp only at stepped
      split at stepped
      · split at stepped
        · cases stepped
          exact unchanged (dropAttempts_processed _)
        · cases stepped
      · cases stepped
  | connectDone position succeeds fault =>
      simp only at stepped
      split at stepped
      · exact unchanged (handleConnect_processed stepped)
      · cases stepped
  | readDone position bytes =>
      simp only at stepped
      split at stepped
      · exact unchanged (handleRead_processed stepped)
      · cases stepped
  | readFailed position fault =>
      simp only at stepped
      split at stepped
      · unfold handleReadError at stepped
        split at stepped
        · cases stepped
        · have same := close_processed stepped
          exact unchanged same
      · cases stepped
  | proceed validated =>
      simp only at stepped
      split at stepped
      · cases stepped
      · cases stepped
        exact unchanged (resume_processed before validated _)
  | consume ops =>
      cases stepped
      exact unchanged rfl

theorem Answered.step {action : Action} (answered : before.Answered)
    (stepped : Guarded Completable Step before action after) : after.Answered := by
  have advances := step_advances stepped.2
  refine ⟨(advances.settles answered.writes).queue, ?_⟩
  intro future among
  rcases step_processed stepped.1 stepped.2 future among with earlier | done
  · exact isDone_grows advances answered.writes (answered.done future earlier)
  · exact done

end Runs

theorem opened_consistent (server : Bool) (low high : Int) (readBuffer : HeapChannelBuffer) :
    (opened server low high readBuffer).channel.life.Consistent :=
  ⟨fun _ => ⟨rfl, rfl⟩, fun closed => ConnectionState.noConfusion closed, List.nil_sublist _⟩

theorem opened_answered (server : Bool) (low high : Int) (readBuffer : HeapChannelBuffer) :
    (opened server low high readBuffer).Answered := by
  constructor
  · intro op among
    cases among
  · intro future among
    cases among

theorem run_consistent {server : Bool} {low high : Int} {readBuffer : HeapChannelBuffer}
    {actions : List Action} {final : SocketService}
    (run : Run Step (opened server low high readBuffer) actions final) :
    final.channel.life.Consistent := by
  apply run.invariant _ (opened_consistent server low high readBuffer)
  intro before action after consistent stepped
  exact consistent.moves (step_advances stepped).moves

/-- The end of a channel is announced in order and once, in every run. Where each
closing request comes to a channel that it can close, or asks again for the close
future, its future is done when it has been processed. -/
theorem shutdown_answered (server : Bool) (low high : Int) (readBuffer : HeapChannelBuffer) :
    (∀ actions final, Run Step (opened server low high readBuffer) actions final →
      final.channel.life.AtMostOnce) ∧
    (∀ actions final,
      Run (Guarded Completable Step) (opened server low high readBuffer) actions final →
      ∀ future ∈ final.processed, final.isDone future) := by
  constructor
  · intro actions final run
    exact (run_consistent run).once
  · intro actions final run
    have answered : final.Answered := by
      apply run.invariant _ (opened_answered server low high readBuffer)
      intro before action after holds stepped
      exact holds.step stepped
    exact answered.done

/-- `disconnect` of a client channel before it is connected, and of an accepted channel
that has been closed. -/
theorem disconnect_unanswered :
    (∃ final, Run Step (opened false 32768 65536 ⟨.big, [0], .zero⟩)
      [.request (.disconnect none)] final ∧ ¬∀ future ∈ final.processed, final.isDone future) ∧
    ∃ final, Run Step (opened true 32768 65536 ⟨.big, [0], .zero⟩)
      [.request (.close none), .request (.disconnect none)] final ∧
      ¬∀ future ∈ final.processed, final.isDone future := by
  constructor
  · refine ⟨_, .cons rfl (.nil _), ?_⟩
    intro done
    have first := done (.other 0) (by decide)
    revert first
    unfold isDone
    decide
  · refine ⟨_, .cons rfl (.cons rfl (.nil _)), ?_⟩
    intro done
    have second := done (.other 1) (by decide)
    revert second
    unfold isDone
    decide

/-- An accepted channel is started and disconnected, then `close()` is called. -/
theorem shutdown_answered_started :
    ∃ final, Run (Guarded Completable Step) (opened true 32768 65536 ⟨.big, [0], .zero⟩)
      [.proceed true, .proceed true, .proceed true, .proceed true,
        .request (.disconnect none), .request (.close none)] final ∧
      final.channel.life.AtMostOnce ∧ ∀ future ∈ final.processed, final.isDone future := by
  have run : Run (Guarded Completable Step) (opened true 32768 65536 ⟨.big, [0], .zero⟩)
      [.proceed true, .proceed true, .proceed true, .proceed true,
        .request (.disconnect none), .request (.close none)] _ :=
    .cons ⟨trivial, rfl⟩ (.cons ⟨trivial, rfl⟩ (.cons ⟨trivial, rfl⟩ (.cons ⟨trivial, rfl⟩
      (.cons ⟨rfl, rfl⟩ (.cons ⟨Or.inl rfl, rfl⟩ (.nil _))))))
  have shutdown := shutdown_answered true 32768 65536 ⟨.big, [0], .zero⟩
  exact ⟨_, run, shutdown.1 _ _ run.unguarded, shutdown.2 _ _ run⟩

end SocketService

end Cetty
