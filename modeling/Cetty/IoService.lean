import Cetty.ActionRuns
import Cetty.ChannelLedger

/-!
# A channel and its io service

The service keeps the completion handlers it has been given: one posted by a write
of no bytes, or one of an `async_write` whose bytes go to the wire piece by piece.
A posted handler may run at any later point; the handler of an `async_write` runs
once, without an error only after its own bytes are on the wire. Writes carry the
number of the call, so that a run shows which write each handler reports.
-/

namespace Cetty

open MachineInt ActionRuns

/-- A completion handler that has not run yet. -/
inductive Pending where
  | posted (number : Nat)
  | sending (number sent : Nat) (left : CharArray)
  deriving DecidableEq, Repr

namespace Pending

def number : Pending → Nat
  | posted number => number
  | sending number _ _ => number

def sent : Pending → Nat
  | posted _ => 0
  | sending _ sent _ => sent

def left : Pending → CharArray
  | posted _ => []
  | sending _ _ left => left

def MayReport (pending : Pending) (error : Option Int) : Prop :=
  match pending with
  | posted _ => error = none
  | sending _ _ left => error = none → left = []

instance (pending : Pending) (error : Option Int) : Decidable (pending.MayReport error) :=
  match pending with
  | posted _ => inferInstanceAs (Decidable (error = none))
  | sending _ _ left => inferInstanceAs (Decidable (error = none → left = []))

theorem left_of_success {pending : Pending} (reports : pending.MayReport none) :
    pending.left = [] := by
  cases pending with
  | posted number => rfl
  | sending number sent left => exact reports rfl

def ofCall (number : Nat) : Option ServiceCall → List Pending
  | none => []
  | some .post => [posted number]
  | some (.asyncWrite bytes) => [sending number 0 bytes]

end Pending

/-- One run of a completion handler: the write it belongs to and the write whose
entry it polled. -/
structure Report where
  number : Nat
  polled : Nat
  deriving DecidableEq, Repr

structure IoService where
  channel : AsioSocketChannel
  /-- The number of the next write. -/
  issued : Nat
  outstanding : List Pending
  /-- What the socket has transferred. -/
  wire : CharArray
  /-- The payloads of the writes the channel has accepted, in order. -/
  payloads : List CharArray
  /-- The accepted writes with nothing left to transfer. -/
  finished : List Nat
  /-- The writes that came with a future. -/
  offered : List Nat
  reports : List Report

namespace IoService

inductive Action where
  | write (message : ChannelBuffer) (withFuture : Bool)
  | transfer (position count : Nat)
  | complete (position : Nat) (error : Option Int) (fault : Option CloseFault)
  /-- `close()`, or `close(future)` with a future that is no write's. -/
  | close (future : Option Nat) (fault : Option CloseFault)

def event (this : IoService) (message : ChannelBuffer) (withFuture : Bool) : MessageEvent :=
  { message := message
    future := if withFuture then some (.ofWrite this.issued) else none
    number := this.issued }

def payload (evt : MessageEvent) : CharArray :=
  match AsioWriteRequest.ofEvent evt with
  | .ok request => request.bytes
  | .error _ => []

/-- The write has been called; `call` is what it has handed to the service. -/
def written (this : IoService) (evt : MessageEvent) (call : Option ServiceCall)
    (channel : AsioSocketChannel) : IoService :=
  { this with
    channel := channel
    issued := this.issued + 1
    outstanding := this.outstanding ++ Pending.ofCall this.issued call
    payloads := if call = none then this.payloads else this.payloads ++ [payload evt]
    finished :=
      if call ≠ none ∧ payload evt = [] then this.finished ++ [this.issued] else this.finished
    offered := if evt.future = none then this.offered else this.offered ++ [this.issued] }

def transferred (this : IoService) (position number sent : Nat) (left : CharArray)
    (count : Nat) : IoService :=
  { this with
    outstanding :=
      this.outstanding.set position (.sending number (sent + count) (left.drop count))
    wire := this.wire ++ left.take count
    finished := if left.drop count = [] then this.finished ++ [number] else this.finished }

def reported (this : IoService) (position : Nat) (pending : Pending)
    (polledOp : AsioWriteOperation) (channel : AsioSocketChannel) : IoService :=
  { this with
    channel := channel
    outstanding := this.outstanding.eraseIdx position
    reports := this.reports ++ [⟨pending.number, polledOp.number⟩] }

def next (this : IoService) : Action → Option IoService
  | .write message withFuture =>
      let evt := this.event message withFuture
      match this.channel.write evt with
      | .ok (call, channel) => some (this.written evt call channel)
      | .error _ => none
  | .transfer position count =>
      match this.outstanding[position]? with
      | some (.sending number sent left) =>
          if this.channel.tcpSocketOpen ∧ 0 < count ∧ count ≤ left.length then
            some (this.transferred position number sent left count)
          else none
      | _ => none
  | .complete position error fault =>
      match this.outstanding[position]? with
      | some pending =>
          if pending.MayReport error then
            match this.channel.handleWrite error pending.sent fault with
            | .ok (polledOp, channel) => some (this.reported position pending polledOp channel)
            | .error _ => none
          else none
      | none => none
  | .close future fault =>
      let closed :=
        match future with
        | none => this.channel.close fault
        | some number => this.channel.closeWith (.other number) fault
      match closed with
      | .ok channel => some { this with channel := channel }
      | .error _ => none

def Step (before : IoService) (action : Action) (after : IoService) : Prop :=
  before.next action = some after

/-- A connected channel to which nothing has been written. -/
structure Fresh (this : IoService) : Prop where
  connected : this.channel.state = .connected
  lawful : this.channel.ledger.Lawful
  ops : this.channel.writeQueue.ops = []
  completed : this.channel.completed = []
  outstanding : this.outstanding = []
  wire : this.wire = []
  payloads : this.payloads = []
  finished : this.finished = []
  offered : this.offered = []
  reports : this.reports = []

def idle (low high : Int) : IoService :=
  { channel := .justConnected low high
    issued := 0
    outstanding := []
    wire := []
    payloads := []
    finished := []
    offered := []
    reports := [] }

theorem idle_fresh (low high : Int) : (idle low high).Fresh :=
  ⟨rfl, fun _ => ⟨rfl, rfl⟩, rfl, rfl, rfl, rfl, rfl, rfl, rfl, rfl⟩

section Steps

variable {before after : IoService} {message : ChannelBuffer} {withFuture : Bool}

section

variable (stepped : Step before (.write message withFuture) after)

include stepped

/-- A write on a connected channel: the constructor of the request has returned. -/
theorem write_connected_cases (connected : before.channel.state = .connected) :
    ∃ request channel, AsioWriteRequest.ofEvent (before.event message withFuture) = .ok request ∧
      after = before.written (before.event message withFuture)
        (some (AsioSocketChannel.serviceCall request)) channel ∧
      channel.ledger =
        { before.channel.ledger with
          ops := before.channel.ledger.ops ++
            [⟨request.writeBufferSize, (before.event message withFuture).future,
              before.issued⟩] } := by
  cases made : AsioWriteRequest.ofEvent (before.event message withFuture) with
  | ok request =>
      rcases before.channel.write_connected (before.event message withFuture) connected made
        with ⟨channel, ran, ledger⟩
      refine ⟨request, channel, rfl, ?_, ledger⟩
      unfold Step next at stepped
      simp only [ran] at stepped
      exact (Option.some.inj stepped).symm
  | error stop =>
      have refused := before.channel.write_refused (before.event message withFuture) connected made
      unfold Step next at stepped
      simp only [refused] at stepped
      cases stepped

theorem write_unconnected_cases (unconnected : before.channel.state ≠ .connected)
    (short : before.channel.writeQueue.ops.length ≤ 1) :
    ∃ channel, after = before.written (before.event message withFuture) none channel ∧
      channel.ledger =
        { before.channel.ledger with
          completed := before.channel.ledger.completed ++
            AsioSocketChannel.completion (before.event message withFuture).future
              (.failure AsioSocketChannel.beenClosed) } := by
  rcases before.channel.write_unconnected_short (before.event message withFuture) unconnected
    short with ⟨channel, ran, ledger⟩
  refine ⟨channel, ?_, ledger⟩
  unfold Step next at stepped
  simp only [ran] at stepped
  exact (Option.some.inj stepped).symm

theorem write_unconnected_state (unconnected : before.channel.state ≠ .connected) :
    ∃ channel, after = before.written (before.event message withFuture) none channel ∧
      channel.ledger.state = before.channel.ledger.state := by
  rcases before.channel.write_unconnected_state (before.event message withFuture) unconnected
    with ⟨channel, ran, state⟩
  refine ⟨channel, ?_, state⟩
  unfold Step next at stepped
  simp only [ran] at stepped
  exact (Option.some.inj stepped).symm

end

variable {position : Nat} {fault : Option CloseFault}

theorem transfer_cases {count : Nat}
    (stepped : Step before (.transfer position count) after) :
    ∃ number sent left, before.outstanding[position]? = some (.sending number sent left) ∧
      count ≤ left.length ∧ after = before.transferred position number sent left count := by
  unfold Step next at stepped
  cases found : before.outstanding[position]? with
  | none =>
      simp only [found] at stepped
      cases stepped
  | some pending =>
      cases pending with
      | posted number =>
          simp only [found] at stepped
          cases stepped
      | sending number sent left =>
          simp only [found] at stepped
          split at stepped
          · rename_i possible
            exact ⟨number, sent, left, rfl, possible.2.2, (Option.some.inj stepped).symm⟩
          · cases stepped

theorem complete_cases {error : Option Int}
    (stepped : Step before (.complete position error fault) after) :
    ∃ pending polledOp channel, before.outstanding[position]? = some pending ∧
      pending.MayReport error ∧
      before.channel.handleWrite error pending.sent fault = .ok (polledOp, channel) ∧
      after = before.reported position pending polledOp channel := by
  unfold Step next at stepped
  cases found : before.outstanding[position]? with
  | none =>
      simp only [found] at stepped
      cases stepped
  | some pending =>
      simp only [found] at stepped
      split at stepped
      · rename_i reports
        cases ran : before.channel.handleWrite error pending.sent fault with
        | error stop =>
            simp only [ran] at stepped
            cases stepped
        | ok outcome =>
            simp only [ran] at stepped
            exact ⟨pending, outcome.1, outcome.2, rfl, reports, ran,
              (Option.some.inj stepped).symm⟩
      · cases stepped

section

variable {future : Option Nat} {fault : Option CloseFault}
  (stepped : Step before (.close future fault) after)

include stepped

theorem close_cases
    (short : before.channel.ledger.CleansUp fault → before.channel.writeQueue.ops.length ≤ 1) :
    ∃ channel, after = { before with channel := channel } ∧
      before.channel.ledger.ClosedFrom (future.elim .closeFuture .other) channel.ledger := by
  unfold Step next at stepped
  cases future with
  | none =>
      rcases before.channel.close_short fault short with ⟨channel, ran, closing⟩
      simp only [ran] at stepped
      exact ⟨channel, (Option.some.inj stepped).symm, closing⟩
  | some number =>
      rcases before.channel.closeWith_short (.other number) fault short with ⟨channel, ran, closing⟩
      simp only [ran] at stepped
      exact ⟨channel, (Option.some.inj stepped).symm, closing⟩

theorem close_ends :
    ∃ channel, after = { before with channel := channel } ∧
      before.channel.ledger.Ends channel.ledger := by
  unfold Step next at stepped
  cases future with
  | none =>
      rcases before.channel.close_ends fault with ⟨channel, ran, ends⟩
      simp only [ran] at stepped
      exact ⟨channel, (Option.some.inj stepped).symm, ends⟩
  | some number =>
      rcases before.channel.closeWith_ends (.other number) fault with ⟨channel, ran, ends⟩
      simp only [ran] at stepped
      exact ⟨channel, (Option.some.inj stepped).symm, ends⟩

end

/-- A completion without an error leaves the connection as it is; one with an error
ends it. -/
theorem complete_ends {error : Option Int}
    (stepped : Step before (.complete position error fault) after) :
    ∃ pending polledOp channel, before.outstanding[position]? = some pending ∧
      pending.MayReport error ∧ after = before.reported position pending polledOp channel ∧
      (before.channel.ledger.Lawful → channel.ledger.Lawful) ∧
      (error = none → channel.ledger.state = before.channel.ledger.state) ∧
      (error ≠ none → before.channel.ledger.Lawful → channel.ledger.state ≠ .connected) := by
  rcases complete_cases stepped with ⟨pending, polledOp, channel, found, reports, ran, after_eq⟩
  refine ⟨pending, polledOp, channel, found, reports, after_eq, ?_⟩
  cases queued : before.channel.writeQueue.ops with
  | nil =>
      have stuck := (before.channel.handleWrite_returns_iff error pending.sent fault).mp ⟨_, ran⟩
      exact absurd queued stuck
  | cons op rest =>
      cases error with
      | none =>
          rcases before.channel.handleWrite_success queued pending.sent fault
            with ⟨done, returned, ledger⟩
          rw [ran] at returned
          cases returned
          rw [ledger]
          exact ⟨id, fun _ => rfl, fun some_error => absurd rfl some_error⟩
      | some error =>
          rcases before.channel.handleWrite_ends queued error pending.sent fault
            with ⟨done, returned, ends⟩
          rw [ran] at returned
          cases returned
          exact ⟨ends.lawful, nofun, fun _ => ends.disconnected⟩

end Steps

end IoService

end Cetty
