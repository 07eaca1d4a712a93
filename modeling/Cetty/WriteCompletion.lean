import Cetty.IoService

/-!
# Completion handlers and the write queue

The queue matches a completion handler to its entry by position alone. The match
holds over every run in which the handlers run in the order of their writes and the
clean up never finds two entries; then each future is completed once, by its own
handler or by the failure of its own write.
-/

namespace Cetty

open MachineInt ActionRuns AsioSocketChannel

def ChannelFuture.writeNumber : ChannelFuture → Option Nat
  | closeFuture => none
  | ofWrite number => some number
  | other _ => none

/-- The writes whose futures have been completed, with repetition. -/
def settled (completed : List (ChannelFuture × Outcome)) : List Nat :=
  completed.filterMap (fun entry => entry.1.writeNumber)

/-- The writes whose futures the queue holds. -/
def awaiting (ops : List AsioWriteOperation) : List Nat :=
  ops.filterMap (fun op => op.future.bind ChannelFuture.writeNumber)

theorem settled_append (first second : List (ChannelFuture × Outcome)) :
    settled (first ++ second) = settled first ++ settled second := List.filterMap_append

theorem awaiting_append (first second : List AsioWriteOperation) :
    awaiting (first ++ second) = awaiting first ++ awaiting second := List.filterMap_append

theorem awaiting_cons (op : AsioWriteOperation) (rest : List AsioWriteOperation) :
    awaiting (op :: rest) = awaiting [op] ++ awaiting rest := awaiting_append [op] rest

/-- A future is settled by the completion made of it. -/
theorem settled_completion (future : Option ChannelFuture) (outcome : Outcome)
    (size : Int) (number : Nat) :
    settled (completion future outcome) = awaiting [⟨size, future, number⟩] := by
  cases future with
  | none => rfl
  | some future =>
      cases future with
      | closeFuture => rfl
      | ofWrite number => rfl
      | other number => rfl

theorem mem_completion {future : Option ChannelFuture} {outcome : Outcome} {number : Nat}
    (among : (ChannelFuture.ofWrite number, Outcome.success) ∈ completion future outcome) :
    future = some (.ofWrite number) ∧ outcome = .success := by
  cases future with
  | none => cases among
  | some future =>
      cases future with
      | closeFuture => cases among
      | ofWrite own =>
          have same := List.mem_singleton.mp among
          cases same
          exact ⟨rfl, rfl⟩
      | other own => cases List.mem_singleton.mp among

namespace IoService

/-- The handlers run in the order of their writes, whenever the write queue is
cleaned up it holds one entry at most, and an `int` holds the size of each payload. -/
def Orderly (this : IoService) : Action → Prop
  | .write message withFuture =>
      if this.channel.state = .connected then
        ((payload (this.event message withFuture)).length : Int) ≤ maxInt
      else this.channel.writeQueue.ops.length ≤ 1
  | .transfer _ _ => True
  | .complete position error fault =>
      position = 0 ∧ (error ≠ none → this.channel.ledger.CleansUp fault →
        this.channel.writeQueue.ops.length ≤ 2)
  | .close _ fault =>
      this.channel.ledger.CleansUp fault → this.channel.writeQueue.ops.length ≤ 1

instance (this : IoService) (action : Action) : Decidable (this.Orderly action) :=
  match action with
  | .write message withFuture => inferInstanceAs (Decidable
      (if this.channel.state = .connected then
        ((payload (this.event message withFuture)).length : Int) ≤ maxInt
      else this.channel.writeQueue.ops.length ≤ 1))
  | .transfer _ _ => .isTrue trivial
  | .complete position error fault => inferInstanceAs (Decidable
      (position = 0 ∧ (error ≠ none → this.channel.ledger.CleansUp fault →
        this.channel.writeQueue.ops.length ≤ 2)))
  | .close _ fault => inferInstanceAs (Decidable
      (this.channel.ledger.CleansUp fault → this.channel.writeQueue.ops.length ≤ 1))

structure Matched (this : IoService) : Prop where
  numbers : this.channel.ledger.ops.map AsioWriteOperation.number =
    this.outstanding.map Pending.number
  futures : ∀ op ∈ this.channel.ledger.ops,
    op.future = none ∨ op.future = some (.ofWrite op.number)
  partition : (settled this.channel.ledger.completed ++ awaiting this.channel.ledger.ops).Perm
    this.offered
  issued : ∀ number ∈ this.offered, number < this.issued
  distinct : this.offered.Nodup
  finished : ∀ pending ∈ this.outstanding, pending.left = [] →
    pending.number ∈ this.finished
  truthful : ∀ number, (.ofWrite number, .success) ∈ this.channel.ledger.completed →
    number ∈ this.finished
  own : ∀ report ∈ this.reports, report.polled = report.number

namespace Matched

variable {before after : IoService}

theorem fresh (fresh : before.Fresh) : Matched before := by
  have ops : before.channel.ledger.ops = [] := fresh.ops
  have completed : before.channel.ledger.completed = [] := fresh.completed
  constructor
  · rw [ops, fresh.outstanding]
    rfl
  · rw [ops]
    nofun
  · rw [ops, completed, fresh.offered]
    exact .refl []
  · rw [fresh.offered]
    nofun
  · rw [fresh.offered]
    exact .nil
  · rw [fresh.outstanding]
    nofun
  · rw [completed]
    nofun
  · rw [fresh.reports]
    nofun

theorem event_awaiting (this : IoService) (message : ChannelBuffer) (withFuture : Bool)
    (size : Int) :
    awaiting [⟨size, (this.event message withFuture).future, this.issued⟩] =
      if (this.event message withFuture).future = none then [] else [this.issued] := by
  cases withFuture with
  | false => rfl
  | true => rfl

theorem offered_written (this : IoService) (evt : MessageEvent) (call : Option ServiceCall)
    (channel : AsioSocketChannel) :
    (this.written evt call channel).offered =
      this.offered ++ if evt.future = none then [] else [this.issued] := by
  unfold written
  by_cases bare : evt.future = none
  · simp [bare]
  · simp [bare]

section

variable (matched : Matched before) (evt : MessageEvent) (call : Option ServiceCall)
  (channel : AsioSocketChannel)

include matched evt call channel

theorem written_issued :
    ∀ number ∈ (before.written evt call channel).offered, number < before.issued + 1 := by
  intro number among
  rw [offered_written] at among
  rcases List.mem_append.mp among with earlier | own
  · exact Nat.lt_succ_of_lt (matched.issued number earlier)
  · split at own
    · cases own
    · cases List.mem_singleton.mp own
      exact Nat.lt_succ_self _

theorem written_distinct :
    (before.written evt call channel).offered.Nodup := by
  rw [offered_written]
  apply List.nodup_append.mpr
  refine ⟨matched.distinct, ?_, ?_⟩
  · split
    · exact .nil
    · exact List.pairwise_singleton _ _
  · intro number earlier other own same
    subst same
    split at own
    · cases own
    · cases List.mem_singleton.mp own
      exact absurd (matched.issued _ earlier) (Nat.lt_irrefl _)

end

theorem mem_finished_written {number : Nat} (evt : MessageEvent) (call : Option ServiceCall)
    (channel : AsioSocketChannel) (among : number ∈ before.finished) :
    number ∈ (before.written evt call channel).finished := by
  unfold written
  simp only
  split
  · exact List.mem_append_left _ among
  · exact among

/-- The payload of a write that is handed to the service whole and empty. -/
theorem payload_of_call {evt : MessageEvent} {request : AsioWriteRequest} {pending : Pending}
    {number : Nat} (made : AsioWriteRequest.ofEvent evt = .ok request)
    (fits : ((payload evt).length : Int) ≤ maxInt)
    (called : pending ∈ Pending.ofCall number (some (serviceCall request)))
    (nothing : pending.left = []) : pending.number = number ∧ payload evt = [] := by
  have same : payload evt = request.bytes := by
    unfold payload
    rw [made]
  rw [same] at fits ⊢
  unfold serviceCall at called
  by_cases empty : request.writeBufferSize = 0
  · rw [if_pos empty] at called
    cases List.mem_singleton.mp called
    refine ⟨rfl, ?_⟩
    have size := AsioWriteRequest.ofEvent_size made fits
    rw [empty] at size
    exact List.eq_nil_of_length_eq_zero (by omega)
  · rw [if_neg empty] at called
    cases List.mem_singleton.mp called
    exact ⟨rfl, nothing⟩

section

variable (matched : Matched before)

include matched

variable {withFuture : Bool} {op : AsioWriteOperation} {ops : List AsioWriteOperation}

theorem write_connected {message : ChannelBuffer} (connected : before.channel.state = .connected)
    (fits : ((payload (before.event message withFuture)).length : Int) ≤ maxInt)
    (stepped : Step before (.write message withFuture) after) : Matched after := by
  rcases write_connected_cases stepped connected with ⟨request, channel, made, after_eq, ledger⟩
  subst after_eq
  constructor
  · change channel.ledger.ops.map _ = (before.outstanding ++ _).map _
    rw [ledger, List.map_append, List.map_append, matched.numbers]
    unfold serviceCall
    split
    · rfl
    · rfl
  · change ∀ op ∈ channel.ledger.ops, _
    rw [ledger]
    intro op among
    rcases List.mem_append.mp among with earlier | own
    · exact matched.futures op earlier
    · cases List.mem_singleton.mp own
      cases withFuture with
      | false => exact Or.inl rfl
      | true => exact Or.inr rfl
  · change (settled channel.ledger.completed ++ awaiting channel.ledger.ops).Perm _
    rw [ledger, offered_written, awaiting_append, event_awaiting, ← List.append_assoc]
    exact matched.partition.append_right _
  · exact matched.written_issued _ _ _
  · exact matched.written_distinct _ _ _
  · intro pending among nothing
    rcases List.mem_append.mp among with earlier | own
    · exact mem_finished_written _ _ _ (matched.finished pending earlier nothing)
    · have empty := payload_of_call made fits own nothing
      rw [empty.1]
      unfold written
      simp [empty.2]
  · intro number among
    change _ ∈ channel.ledger.completed at among
    rw [ledger] at among
    exact mem_finished_written _ _ _ (matched.truthful number among)
  · exact matched.own

theorem write_unconnected {message : ChannelBuffer}
    (unconnected : before.channel.state ≠ .connected)
    (short : before.channel.writeQueue.ops.length ≤ 1)
    (stepped : Step before (.write message withFuture) after) : Matched after := by
  rcases write_unconnected_cases stepped unconnected short with ⟨channel, after_eq, ledger⟩
  subst after_eq
  constructor
  · change channel.ledger.ops.map _ = (before.outstanding ++ []).map _
    rw [ledger, List.append_nil]
    exact matched.numbers
  · change ∀ op ∈ channel.ledger.ops, _
    rw [ledger]
    exact matched.futures
  · change (settled channel.ledger.completed ++ awaiting channel.ledger.ops).Perm _
    rw [ledger, offered_written, settled_append, settled_completion _ _ 0 before.issued,
      event_awaiting, List.append_assoc]
    apply (List.Perm.append_left _ List.perm_append_comm).trans
    rw [← List.append_assoc]
    exact matched.partition.append_right _
  · exact matched.written_issued _ _ _
  · exact matched.written_distinct _ _ _
  · intro pending among nothing
    have earlier : pending ∈ before.outstanding := by
      rcases List.mem_append.mp among with earlier | own
      · exact earlier
      · cases own
    exact mem_finished_written _ _ _ (matched.finished pending earlier nothing)
  · intro number among
    change _ ∈ channel.ledger.completed at among
    rw [ledger] at among
    rcases List.mem_append.mp among with earlier | own
    · exact mem_finished_written _ _ _ (matched.truthful number earlier)
    · cases (mem_completion own).2
  · exact matched.own

theorem transfer {position count : Nat}
    (stepped : Step before (.transfer position count) after) : Matched after := by
  rcases transfer_cases stepped with ⟨number, sent, left, found, within, after_eq⟩
  subst after_eq
  have kept : ∀ other ∈ before.finished,
      other ∈ (before.transferred position number sent left count).finished := by
    intro other among
    unfold transferred
    simp only
    split
    · exact List.mem_append_left _ among
    · exact among
  constructor
  · apply matched.numbers.trans
    change before.outstanding.map _ = (before.outstanding.set position _).map _
    rcases List.getElem?_eq_some_iff.mp found with ⟨inside, same⟩
    rw [List.map_set]
    have numbered : position < (before.outstanding.map Pending.number).length := by
      rw [List.length_map]
      exact inside
    have own : Pending.number (.sending number (sent + count) (left.drop count)) =
        (before.outstanding.map Pending.number)[position] := by
      rw [List.getElem_map, same]
      rfl
    rw [own, List.set_getElem_self]
  · exact matched.futures
  · exact matched.partition
  · exact matched.issued
  · exact matched.distinct
  · intro pending among nothing
    rcases List.mem_or_eq_of_mem_set among with earlier | own
    · exact kept _ (matched.finished pending earlier nothing)
    · subst own
      change left.drop count = [] at nothing
      unfold transferred
      simp [nothing, Pending.number]
  · intro other among
    exact kept other (matched.truthful other among)
  · exact matched.own

theorem head {pending : Pending}
    (found : before.outstanding[0]? = some pending) :
    ∃ op ops rest, before.channel.writeQueue.ops = op :: ops ∧
      before.outstanding = pending :: rest ∧ op.number = pending.number ∧
      ops.map AsioWriteOperation.number = rest.map Pending.number := by
  cases waiting : before.outstanding with
  | nil =>
      rw [waiting] at found
      cases found
  | cons first rest =>
      rw [waiting] at found
      cases found
      have numbers := matched.numbers
      rw [ledger_ops, waiting] at numbers
      cases queued : before.channel.writeQueue.ops with
      | nil =>
          rw [queued] at numbers
          cases numbers
      | cons op ops =>
          rw [queued, List.map_cons, List.map_cons] at numbers
          rcases List.cons.inj numbers with ⟨same, others⟩
          exact ⟨op, ops, rest, rfl, rfl, same, others⟩

/-- What is kept when the first entry is polled and its future completed. -/
theorem polled (queued : before.channel.writeQueue.ops = op :: ops)
    (outcome : Outcome) :
    (settled (before.channel.ledger.completed ++ completion op.future outcome) ++
      awaiting ops).Perm before.offered := by
  have partition := matched.partition
  rw [ledger_ops, queued, awaiting_cons] at partition
  rw [settled_append, settled_completion op.future outcome op.writeBufferSize op.number,
    List.append_assoc]
  exact partition

/-- What the run of the oldest handler keeps: it takes its own entry, and reports
success only when its bytes are all on the wire. -/
theorem reported {pending : Pending} {rest : List Pending} {channel : AsioSocketChannel}
    {outcome : Outcome} (queued : before.channel.writeQueue.ops = op :: ops)
    (waiting : before.outstanding = pending :: rest) (same : op.number = pending.number)
    (others : ops.map AsioWriteOperation.number = rest.map Pending.number)
    (left : channel.ledger.ops = ops)
    (completed : channel.ledger.completed =
      before.channel.ledger.completed ++ completion op.future outcome)
    (honest : outcome = .success → pending.left = []) :
    Matched (before.reported 0 pending op channel) := by
  have rested : (before.reported 0 pending op channel).outstanding = rest := by
    change before.outstanding.eraseIdx 0 = rest
    rw [waiting]
    rfl
  constructor
  · rw [rested]
    change channel.ledger.ops.map _ = _
    rw [left]
    exact others
  · change ∀ other ∈ channel.ledger.ops, _
    rw [left]
    intro other among
    exact matched.futures other (by
      rw [ledger_ops, queued]
      exact List.mem_cons_of_mem _ among)
  · change (settled channel.ledger.completed ++ awaiting channel.ledger.ops).Perm _
    rw [left, completed]
    exact matched.polled queued outcome
  · exact matched.issued
  · exact matched.distinct
  · rw [rested]
    intro other among
    exact matched.finished other (by
      rw [waiting]
      exact List.mem_cons_of_mem _ among)
  · intro number among
    change _ ∈ channel.ledger.completed at among
    rw [completed] at among
    rcases List.mem_append.mp among with earlier | own
    · exact matched.truthful number earlier
    · have made := mem_completion own
      have entry : op ∈ before.channel.ledger.ops := by
        rw [ledger_ops, queued]
        exact List.mem_cons_self ..
      rcases matched.futures op entry with bare | numbered
      · rw [bare] at made
        cases made.1
      · rw [numbered] at made
        cases made.1
        rw [same]
        exact matched.finished pending (by rw [waiting]; exact List.mem_cons_self ..)
          (honest made.2)
  · intro report among
    rcases List.mem_append.mp among with earlier | own
    · exact matched.own report earlier
    · cases List.mem_singleton.mp own
      exact same

theorem complete {error : Option Int} {fault : Option CloseFault}
    (short : error ≠ none → before.channel.ledger.CleansUp fault →
      before.channel.writeQueue.ops.length ≤ 2)
    (stepped : Step before (.complete 0 error fault) after) : Matched after := by
  rcases complete_cases stepped with ⟨pending, polledOp, channel, found, reports, ran, after_eq⟩
  rcases matched.head found with ⟨op, ops, rest, queued, waiting, same, others⟩
  subst after_eq
  cases error with
  | none =>
      rcases before.channel.handleWrite_success queued pending.sent fault
        with ⟨done, returned, ledger⟩
      rw [ran] at returned
      cases returned
      have completed : channel.ledger.completed =
          before.channel.ledger.completed ++ completion polledOp.future .success := by
        rw [ledger]
      exact matched.reported queued waiting same others (by rw [ledger]) completed
        (fun _ => Pending.left_of_success reports)
  | some error =>
      have still_short : before.channel.ledger.CleansUp fault → ops.length ≤ 1 := by
        intro cleans
        have two := short nofun cleans
        rw [queued, List.length_cons] at two
        omega
      rcases before.channel.handleWrite_failure queued error pending.sent fault still_short
        with ⟨done, returned, closing⟩
      rw [ran] at returned
      cases returned
      have completed : channel.ledger.completed =
          before.channel.ledger.completed ++
            completion polledOp.future (.failure (writeFailed error)) := by
        rcases closing.completed with same | ⟨outcome, more⟩
        · exact same
        · exact more.trans (List.append_nil _)
      exact matched.reported queued waiting same others closing.ops completed nofun

end

theorem close (matched : Matched before) {future : Option Nat} {fault : Option CloseFault}
    (short : before.channel.ledger.CleansUp fault →
      before.channel.writeQueue.ops.length ≤ 1)
    (stepped : Step before (.close future fault) after) : Matched after := by
  rcases close_cases stepped short with ⟨channel, after_eq, closing⟩
  subst after_eq
  -- The future of a close is no write's.
  have apart : ∀ outcome, settled (completion (some (future.elim .closeFuture .other)) outcome) = [] := by
    intro outcome
    cases future with
    | none => rfl
    | some number => rfl
  have settled_same : settled channel.ledger.completed = settled before.channel.ledger.completed := by
    rcases closing.completed with same | ⟨outcome, more⟩
    · rw [same]
    · rw [more, settled_append, apart, List.append_nil]
  constructor
  · change channel.ledger.ops.map _ = _
    rw [closing.ops]
    exact matched.numbers
  · change ∀ op ∈ channel.ledger.ops, _
    rw [closing.ops]
    exact matched.futures
  · change (settled channel.ledger.completed ++ awaiting channel.ledger.ops).Perm _
    rw [settled_same, closing.ops]
    exact matched.partition
  · exact matched.issued
  · exact matched.distinct
  · exact matched.finished
  · intro number among
    change _ ∈ channel.ledger.completed at among
    rcases closing.completed with same | ⟨outcome, more⟩
    · rw [same] at among
      exact matched.truthful number among
    · rw [more] at among
      rcases List.mem_append.mp among with earlier | own
      · exact matched.truthful number earlier
      · have made := (mem_completion own).1
        cases future with
        | none => cases made
        | some other => cases made
  · exact matched.own

theorem step (matched : Matched before) {action : Action} (orderly : before.Orderly action)
    (stepped : Step before action after) : Matched after := by
  cases action with
  | write message withFuture =>
      by_cases connected : before.channel.state = .connected
      · have fits : ((payload (before.event message withFuture)).length : Int) ≤ maxInt := by
          simpa only [Orderly, connected, if_true] using orderly
        exact matched.write_connected connected fits stepped
      · have short : before.channel.writeQueue.ops.length ≤ 1 := by
          simpa only [Orderly, connected, if_false] using orderly
        exact matched.write_unconnected connected short stepped
  | transfer position count => exact matched.transfer stepped
  | complete position error fault =>
      rcases orderly with ⟨oldest, short⟩
      subst oldest
      exact matched.complete short stepped
  | close future fault => exact matched.close orderly stepped

theorem run {start final : IoService} {actions : List Action} (fresh : start.Fresh)
    (run : Run (Guarded Orderly Step) start actions final) : Matched final :=
  run.invariant (fun _ _ _ matched taken => matched.step taken.1 taken.2) (.fresh fresh)

end Matched

/-- Over an orderly run every handler polls the entry of its own write, and a future
is marked successful only after all bytes of its write have been transferred. -/
theorem completions_matched {start final : IoService} {actions : List Action}
    (fresh : start.Fresh) (run : Run (Guarded Orderly Step) start actions final) :
    (∀ report ∈ final.reports, report.polled = report.number) ∧
      ∀ number, (ChannelFuture.ofWrite number, Outcome.success) ∈ final.channel.completed →
        number ∈ final.finished := by
  have matched := Matched.run fresh run
  exact ⟨matched.own, matched.truthful⟩

/-- One write of two bytes, whose handler runs after both are on the wire. -/
theorem completions_matched_single :
    ∃ final, Run (Guarded Orderly Step) (idle 2 10)
        [.write (.heap ⟨.big, [1, 2], ⟨0, 2, 0, 0⟩⟩) true, .transfer 0 2,
          .complete 0 none none] final ∧
      (∀ report ∈ final.reports, report.polled = report.number) ∧
      ∀ number, (ChannelFuture.ofWrite number, Outcome.success) ∈ final.channel.completed →
        number ∈ final.finished := by
  have run : ∃ final, Run (Guarded Orderly Step) (idle 2 10)
      [.write (.heap ⟨.big, [1, 2], ⟨0, 2, 0, 0⟩⟩) true, .transfer 0 2,
        .complete 0 none none] final :=
    ⟨_, .cons ⟨by decide, rfl⟩ (.cons ⟨trivial, rfl⟩ (.cons ⟨by decide, rfl⟩ (.nil _)))⟩
  rcases run with ⟨final, run⟩
  exact ⟨final, run, completions_matched (idle_fresh 2 10) run⟩

/-- The posted handler of an empty write runs first and takes the entry of the write
before it, whose future becomes successful with nothing on the wire. -/
theorem empty_write_overtakes :
    ∃ final, Run Step (idle 2 10)
        [.write (.heap ⟨.big, [1, 2], ⟨0, 2, 0, 0⟩⟩) true,
          .write (.heap ⟨.big, [], ⟨0, 0, 0, 0⟩⟩) true, .complete 1 none none] final ∧
      final.reports = [⟨1, 0⟩] ∧ final.channel.completed = [(.ofWrite 0, .success)] ∧
      final.finished = [1] ∧ final.wire = [] :=
  ⟨_, .cons rfl (.cons rfl (.cons rfl (.nil _))), rfl, rfl, rfl, rfl⟩

/-- Over an orderly run the queue has one entry for each handler still to run, no
handler finds it empty, and each future offered is completed once: not yet while its
entry is queued, and exactly once when it is not. -/
theorem queue_matches_handlers {start final : IoService} {actions : List Action}
    (fresh : start.Fresh) (run : Run (Guarded Orderly Step) start actions final) :
    final.channel.writeQueue.ops.length = final.outstanding.length ∧
      (∀ pending ∈ final.outstanding, ∀ error fault, ∃ outcome,
        final.channel.handleWrite error pending.sent fault = .ok outcome) ∧
      (∀ number ∈ final.offered,
        (settled final.channel.completed).count number +
          (awaiting final.channel.writeQueue.ops).count number = 1) ∧
      ∀ report ∈ final.reports, report.polled = report.number := by
  have matched := Matched.run fresh run
  have lengths : final.channel.writeQueue.ops.length = final.outstanding.length := by
    have mapped := congrArg List.length matched.numbers
    rw [List.length_map, List.length_map] at mapped
    exact mapped
  refine ⟨lengths, ?_, ?_, matched.own⟩
  · intro pending among error fault
    apply (final.channel.handleWrite_returns_iff error pending.sent fault).mpr
    intro empty
    rw [empty] at lengths
    have none_left := List.eq_nil_of_length_eq_zero lengths.symm
    rw [none_left] at among
    cases among
  · intro number among
    have counted := matched.partition.count_eq number
    rw [List.count_append, List.Nodup.count matched.distinct, if_pos among] at counted
    exact counted

/-- A write under way when the channel is closed, and a write after that. -/
theorem queue_matches_handlers_closed :
    ∃ final, Run (Guarded Orderly Step) (idle 2 10)
        [.write (.heap ⟨.big, [1, 2], ⟨0, 2, 0, 0⟩⟩) true, .close none none,
          .write (.heap ⟨.big, [3], ⟨0, 1, 0, 0⟩⟩) true, .complete 0 (some 125) none] final ∧
      final.channel.writeQueue.ops.length = final.outstanding.length ∧
      (∀ pending ∈ final.outstanding, ∀ error fault, ∃ outcome,
        final.channel.handleWrite error pending.sent fault = .ok outcome) ∧
      (∀ number ∈ final.offered,
        (settled final.channel.completed).count number +
          (awaiting final.channel.writeQueue.ops).count number = 1) ∧
      ∀ report ∈ final.reports, report.polled = report.number := by
  have run : ∃ final, Run (Guarded Orderly Step) (idle 2 10)
      [.write (.heap ⟨.big, [1, 2], ⟨0, 2, 0, 0⟩⟩) true, .close none none,
        .write (.heap ⟨.big, [3], ⟨0, 1, 0, 0⟩⟩) true, .complete 0 (some 125) none] final :=
    ⟨_, .cons ⟨by decide, rfl⟩ (.cons ⟨by decide, rfl⟩ (.cons ⟨by decide, rfl⟩
      (.cons ⟨by decide, rfl⟩ (.nil _))))⟩
  rcases run with ⟨final, run⟩
  exact ⟨final, run, queue_matches_handlers (idle_fresh 2 10) run⟩

/-- Closing with two writes under way fails the first of them; its handler then takes
the entry of the second, and the second handler finds the queue empty. -/
theorem handler_finds_queue_empty :
    ∃ final, Run Step (idle 2 10)
        [.write (.heap ⟨.big, [1], ⟨0, 1, 0, 0⟩⟩) true,
          .write (.heap ⟨.big, [2], ⟨0, 1, 0, 0⟩⟩) true, .close none none,
          .complete 0 (some 125) none] final ∧
      final.channel.writeQueue.ops = [] ∧ final.outstanding = [.sending 1 0 [2]] ∧
      final.reports = [⟨0, 1⟩] ∧
      final.channel.handleWrite (some 125) 0 none = .error .outOfBounds :=
  ⟨_, .cons rfl (.cons rfl (.cons rfl (.cons rfl (.nil _)))), rfl, rfl, rfl, rfl⟩

end IoService

end Cetty
