import Cetty.IoService

/-!
# The byte stream on the wire

What the socket has transferred against the payloads of the accepted writes. While
a write of some bytes finds no `async_write` outstanding there is never more than
one, and the wire carries the payloads in the order of the writes.
-/

namespace Cetty

open MachineInt ActionRuns AsioSocketChannel

namespace Pending

def isSending : Pending → Bool
  | posted _ => false
  | sending _ _ _ => true

end Pending

namespace IoService

def sendings (outstanding : List Pending) : List Pending := outstanding.filter Pending.isSending

/-- The bytes the outstanding writes have still to transfer. -/
def leftover (outstanding : List Pending) : CharArray :=
  (outstanding.map Pending.left).flatten

theorem sendings_append (first second : List Pending) :
    sendings (first ++ second) = sendings first ++ sendings second := List.filter_append ..

theorem leftover_append (first second : List Pending) :
    leftover (first ++ second) = leftover first ++ leftover second := by
  unfold leftover
  rw [List.map_append, List.flatten_append]

theorem leftover_nil_of_sendings {outstanding : List Pending}
    (quiet : sendings outstanding = []) : leftover outstanding = [] := by
  induction outstanding with
  | nil => rfl
  | cons pending rest ih =>
      cases pending with
      | posted number => exact ih quiet
      | sending number sent left => cases quiet

/-- The other handlers beside the only `async_write`. -/
theorem quiet_around {front back : List Pending} {pending : Pending}
    (sends : pending.isSending = true)
    (single : (sendings (front ++ pending :: back)).length ≤ 1) :
    sendings front = [] ∧ sendings back = [] := by
  have whole : sendings (front ++ pending :: back) =
      sendings front ++ pending :: sendings back := by
    rw [sendings_append]
    unfold sendings
    rw [List.filter_cons_of_pos sends]
  rw [whole, List.length_append, List.length_cons] at single
  exact ⟨List.eq_nil_of_length_eq_zero (by omega), List.eq_nil_of_length_eq_zero (by omega)⟩

/-- A write of some bytes finds no `async_write` outstanding, and an `int` holds the
size of its payload. -/
def Serial (this : IoService) : Action → Prop
  | .write message withFuture =>
      this.channel.state = .connected →
        ((payload (this.event message withFuture)).length : Int) ≤ maxInt ∧
          (payload (this.event message withFuture) ≠ [] → sendings this.outstanding = [])
  | _ => True

instance (this : IoService) (action : Action) : Decidable (this.Serial action) :=
  match action with
  | .write message withFuture => inferInstanceAs (Decidable
      (this.channel.state = .connected →
        ((payload (this.event message withFuture)).length : Int) ≤ maxInt ∧
          (payload (this.event message withFuture) ≠ [] → sendings this.outstanding = [])))
  | .transfer _ _ => .isTrue trivial
  | .complete _ _ _ => .isTrue trivial
  | .close _ _ => .isTrue trivial

structure Serialised (this : IoService) : Prop where
  lawful : this.channel.ledger.Lawful
  single : (sendings this.outstanding).length ≤ 1
  stream : ∃ lost, this.wire ++ leftover this.outstanding ++ lost = this.payloads.flatten ∧
    (this.channel.ledger.state = .connected → lost = [])

namespace Serialised

variable {before after : IoService}

theorem fresh (fresh : before.Fresh) : Serialised before := by
  constructor
  · exact fresh.lawful
  · rw [fresh.outstanding]
    exact Nat.zero_le 1
  · refine ⟨[], ?_, fun _ => rfl⟩
    rw [fresh.outstanding, fresh.wire, fresh.payloads]
    rfl

section

variable (serialised : Serialised before)

include serialised

variable {withFuture : Bool} {position : Nat} {fault : Option CloseFault}

theorem write_connected {message : ChannelBuffer} (connected : before.channel.state = .connected)
    (serial : before.Serial (.write message withFuture))
    (stepped : Step before (.write message withFuture) after) : Serialised after := by
  rcases write_connected_cases stepped connected with ⟨request, channel, made, after_eq, ledger⟩
  subst after_eq
  rcases serialised.stream with ⟨lost, stream, whole⟩
  cases whole connected
  have sent : payload (before.event message withFuture) = request.bytes := by
    unfold payload
    rw [made]
  have guard := serial connected
  rw [sent] at guard
  have size := AsioWriteRequest.ofEvent_size made guard.1
  have payloads : (before.written (before.event message withFuture)
      (some (serviceCall request)) channel).payloads = before.payloads ++ [request.bytes] := by
    rw [← sent]
    rfl
  have lawful : channel.ledger.Lawful := by
    rw [ledger]
    exact serialised.lawful
  by_cases empty : request.writeBufferSize = 0
  · have nothing : request.bytes = [] := by
      rw [empty] at size
      exact List.eq_nil_of_length_eq_zero (by omega)
    have called : serviceCall request = .post := if_pos empty
    have outstanding : (before.written (before.event message withFuture)
        (some (serviceCall request)) channel).outstanding =
          before.outstanding ++ [.posted before.issued] := by
      rw [called]
      rfl
    constructor
    · exact lawful
    · rw [outstanding, sendings_append]
      exact (List.append_nil _).symm ▸ serialised.single
    · refine ⟨[], ?_, fun _ => rfl⟩
      rw [outstanding, payloads, leftover_append, nothing]
      change before.wire ++ (leftover before.outstanding ++ []) ++ [] = _
      rw [List.append_nil] at stream
      rw [List.append_nil, List.append_nil, stream, List.flatten_append]
      exact (List.append_nil _).symm
  · have something : request.bytes ≠ [] := by
      intro nothing
      rw [nothing] at size
      exact empty size
    have called : serviceCall request = .asyncWrite request.bytes := if_neg empty
    have quiet := guard.2 something
    have outstanding : (before.written (before.event message withFuture)
        (some (serviceCall request)) channel).outstanding =
          before.outstanding ++ [.sending before.issued 0 request.bytes] := by
      rw [called]
      rfl
    constructor
    · exact lawful
    · rw [outstanding, sendings_append, quiet]
      exact Nat.le_refl 1
    · refine ⟨[], ?_, fun _ => rfl⟩
      rw [leftover_nil_of_sendings quiet, List.append_nil, List.append_nil] at stream
      rw [outstanding, payloads, leftover_append, leftover_nil_of_sendings quiet]
      change before.wire ++ _ ++ [] = _
      rw [stream]
      simp [leftover, Pending.left]

theorem write_unconnected {message : ChannelBuffer}
    (unconnected : before.channel.state ≠ .connected)
    (stepped : Step before (.write message withFuture) after) : Serialised after := by
  rcases write_unconnected_state stepped unconnected with ⟨channel, after_eq, state⟩
  subst after_eq
  have still : channel.ledger.state ≠ .connected := by
    rw [state]
    exact unconnected
  rcases serialised.stream with ⟨lost, stream, whole⟩
  have outstanding : (before.written (before.event message withFuture) none channel).outstanding =
      before.outstanding := List.append_nil _
  constructor
  · intro connected
    exact absurd connected still
  · rw [outstanding]
    exact serialised.single
  · refine ⟨lost, ?_, fun connected => absurd connected still⟩
    rw [outstanding]
    exact stream

theorem transfer {count : Nat}
    (stepped : Step before (.transfer position count) after) : Serialised after := by
  rcases transfer_cases stepped with ⟨number, sent, left, found, within, after_eq⟩
  subst after_eq
  rcases split_at found with ⟨front, back, whole, replaced, erased⟩
  have single := serialised.single
  rw [whole] at single
  rcases quiet_around rfl single with ⟨quiet_front, quiet_back⟩
  have outstanding : (before.transferred position number sent left count).outstanding =
      front ++ .sending number (sent + count) (left.drop count) :: back := replaced _
  rcases serialised.stream with ⟨lost, stream, kept⟩
  constructor
  · exact serialised.lawful
  · rw [outstanding, sendings_append, quiet_front]
    change (.sending number (sent + count) (left.drop count) :: sendings back).length ≤ 1
    rw [quiet_back]
    exact Nat.le_refl 1
  · refine ⟨lost, ?_, kept⟩
    rw [outstanding, leftover_append, leftover_nil_of_sendings quiet_front]
    rw [whole, leftover_append, leftover_nil_of_sendings quiet_front] at stream
    change before.wire ++ left.take count ++ (left.drop count ++ leftover back) ++ lost = _
    change before.wire ++ (left ++ leftover back) ++ lost = _ at stream
    change _ = before.payloads.flatten
    rw [← stream, leftover_nil_of_sendings quiet_back, List.append_nil, List.append_nil,
      List.append_assoc before.wire, List.take_append_drop]

theorem complete {error : Option Int}
    (stepped : Step before (.complete position error fault) after) :
    Serialised after := by
  rcases complete_ends stepped with
    ⟨pending, polledOp, channel, found, reports, after_eq, lawful, same, ended⟩
  subst after_eq
  rcases split_at found with ⟨front, back, whole, replaced, erased⟩
  have outstanding : (before.reported position pending polledOp channel).outstanding =
      front ++ back := erased
  have single := serialised.single
  rcases serialised.stream with ⟨lost, stream, kept⟩
  rw [whole] at single stream
  constructor
  · exact lawful serialised.lawful
  · have fewer : List.Sublist (front ++ back) (front ++ pending :: back) :=
      List.Sublist.append_left (List.sublist_cons_self pending back) front
    rw [outstanding]
    exact Nat.le_trans (fewer.filter Pending.isSending).length_le single
  · rw [outstanding]
    by_cases succeeded : error = none
    · -- Nothing of this write was left.
      subst succeeded
      have nothing := Pending.left_of_success reports
      refine ⟨lost, ?_, ?_⟩
      · rw [leftover_append] at stream ⊢
        change before.wire ++ (leftover front ++ (pending.left ++ leftover back)) ++ lost = _
          at stream
        rw [nothing] at stream
        exact stream
      · intro connected
        exact kept ((same rfl).symm.trans connected)
    · -- What was left of this write is lost, and the channel is not connected any more.
      cases pending with
      | posted number => exact absurd reports succeeded
      | sending number sent left =>
          rcases quiet_around rfl single with ⟨quiet_front, quiet_back⟩
          refine ⟨left ++ lost, ?_, ?_⟩
          · rw [leftover_append, leftover_nil_of_sendings quiet_front] at stream ⊢
            rw [leftover_nil_of_sendings quiet_back]
            change before.wire ++ (left ++ leftover back) ++ lost = _ at stream
            rw [leftover_nil_of_sendings quiet_back, List.append_nil, List.append_assoc] at stream
            change before.wire ++ [] ++ (left ++ lost) = before.payloads.flatten
            rw [List.append_nil]
            exact stream
          · intro connected
            exact absurd connected (ended succeeded serialised.lawful)

theorem close {future : Option Nat}
    (stepped : Step before (.close future fault) after) : Serialised after := by
  rcases close_ends stepped with ⟨channel, after_eq, ends⟩
  subst after_eq
  rcases serialised.stream with ⟨lost, stream, kept⟩
  refine ⟨ends.lawful serialised.lawful, serialised.single, lost, stream, ?_⟩
  intro connected
  exact absurd connected (ends.disconnected serialised.lawful)

theorem step {action : Action} (serial : before.Serial action)
    (stepped : Step before action after) : Serialised after := by
  cases action with
  | write message withFuture =>
      by_cases connected : before.channel.state = .connected
      · exact serialised.write_connected connected serial stepped
      · exact serialised.write_unconnected connected stepped
  | transfer position count => exact serialised.transfer stepped
  | complete position error fault => exact serialised.complete stepped
  | close future fault => exact serialised.close stepped

end

end Serialised

/-- While every write of some bytes finds no `async_write` outstanding there is at
most one, the wire carries a front part of the payloads in the order of the writes,
and on a connected channel all of them but what that one has left. -/
theorem wire_in_write_order {start final : IoService} {actions : List Action}
    (fresh : start.Fresh) (run : Run (Guarded Serial Step) start actions final) :
    (sendings final.outstanding).length ≤ 1 ∧
      (∃ rest, final.wire ++ rest = final.payloads.flatten) ∧
      (final.channel.state = .connected →
        final.wire ++ leftover final.outstanding = final.payloads.flatten) := by
  have serialised : Serialised final :=
    run.invariant (fun _ _ _ before taken => before.step taken.1 taken.2) (.fresh fresh)
  rcases serialised.stream with ⟨lost, stream, whole⟩
  refine ⟨serialised.single, ⟨leftover final.outstanding ++ lost, ?_⟩, ?_⟩
  · rw [← List.append_assoc]
    exact stream
  · intro connected
    rw [whole connected, List.append_nil] at stream
    exact stream

/-- Two writes, the second after the handler of the first has run. -/
theorem wire_in_write_order_pair :
    ∃ final, Run (Guarded Serial Step) (idle 2 10)
        [.write (.heap ⟨.big, [1, 2], ⟨0, 2, 0, 0⟩⟩) true, .transfer 0 1, .transfer 0 1,
          .complete 0 none none, .write (.heap ⟨.big, [3], ⟨0, 1, 0, 0⟩⟩) true] final ∧
      (sendings final.outstanding).length ≤ 1 ∧
      (∃ rest, final.wire ++ rest = final.payloads.flatten) ∧
      (final.channel.state = .connected →
        final.wire ++ leftover final.outstanding = final.payloads.flatten) := by
  have run : ∃ final, Run (Guarded Serial Step) (idle 2 10)
      [.write (.heap ⟨.big, [1, 2], ⟨0, 2, 0, 0⟩⟩) true, .transfer 0 1, .transfer 0 1,
        .complete 0 none none, .write (.heap ⟨.big, [3], ⟨0, 1, 0, 0⟩⟩) true] final :=
    ⟨_, .cons ⟨by decide, rfl⟩ (.cons ⟨trivial, rfl⟩ (.cons ⟨trivial, rfl⟩
      (.cons ⟨trivial, rfl⟩ (.cons ⟨by decide, rfl⟩ (.nil _)))))⟩
  rcases run with ⟨final, run⟩
  exact ⟨final, run, wire_in_write_order (idle_fresh 2 10) run⟩

/-- Two writes in a row are both under way, and the bytes of the second may reach the
wire first. -/
theorem two_writes_under_way :
    ∃ final, Run Step (idle 2 10)
        [.write (.heap ⟨.big, [1, 2], ⟨0, 2, 0, 0⟩⟩) true,
          .write (.heap ⟨.big, [3], ⟨0, 1, 0, 0⟩⟩) true, .transfer 1 1] final ∧
      (sendings final.outstanding).length = 2 ∧ final.wire = [3] ∧
      final.payloads = [[1, 2], [3]] ∧ ¬∃ rest, final.wire ++ rest = final.payloads.flatten := by
  refine ⟨_, .cons rfl (.cons rfl (.cons rfl (.nil _))), rfl, rfl, rfl, ?_⟩
  intro ordered
  rcases ordered with ⟨rest, same⟩
  cases same

end IoService

end Cetty
