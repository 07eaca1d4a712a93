import Cetty.ActionRuns
import Cetty.ChannelLedger
import Cetty.Hysteresis

/-!
# The water marks of the write queue

The counter behind `getInterestOps` against the switch the two marks are meant to
be: on since the queued total reached the high mark, off once it has dropped below
the low mark or to zero. The counter follows the switch as long as every crossing
the queue counts is one at which the switch turns.
-/

namespace Cetty

open MachineInt Hysteresis ActionRuns

namespace AsioSocketChannel

/-- What the crossings of the marks are found from and counted in. -/
structure Gauge where
  lowWaterMark : Int
  highWaterMark : Int
  writeBufferSize : Int
  counter : Int

def gauge (this : AsioSocketChannel) : Gauge :=
  { lowWaterMark := this.lowWaterMark
    highWaterMark := this.highWaterMark
    writeBufferSize := this.writeQueue.writeBufferSize
    counter := this.highWaterMarkCounter }

section

variable (this : AsioSocketChannel)

include this

theorem gauge_setOps (ops : List AsioWriteOperation) :
    (this.setOps ops).gauge = this.gauge := rfl

variable {messageSize : Int}

theorem gauge_plusWriteBufferSize (nonneg : 0 ≤ this.gauge.writeBufferSize)
    (grows : 0 ≤ messageSize)
    (fits : this.gauge.writeBufferSize + messageSize ≤ maxInt) :
    (this.plusWriteBufferSize messageSize).gauge =
      { this.gauge with
        writeBufferSize := this.gauge.writeBufferSize + messageSize
        counter :=
          if this.gauge.highWaterMark ≤ this.gauge.writeBufferSize + messageSize ∧
              this.gauge.writeBufferSize < this.gauge.highWaterMark then
            int32 (this.gauge.counter + 1)
          else this.gauge.counter } := by
  have sum : int32 (this.writeQueue.writeBufferSize + messageSize) =
      this.gauge.writeBufferSize + messageSize :=
    int32_of_nonneg (Int.add_nonneg nonneg grows) fits
  have before : int32 (this.gauge.writeBufferSize + messageSize - messageSize) =
      this.gauge.writeBufferSize := by
    rw [Int.add_sub_cancel]
    exact int32_of_nonneg nonneg (by omega)
  simp only [plusWriteBufferSize, sum, before]
  by_cases crosses : this.gauge.highWaterMark ≤ this.gauge.writeBufferSize + messageSize ∧
      this.gauge.writeBufferSize < this.gauge.highWaterMark
  · rw [if_pos crosses]
    exact congrArg gauge (if_pos crosses)
  · rw [if_neg crosses]
    exact congrArg gauge (if_neg crosses)

theorem gauge_offer (request : AsioWriteRequest)
    (future : Option ChannelFuture) (number : Nat)
    (nonneg : 0 ≤ this.gauge.writeBufferSize) (grows : 0 ≤ request.writeBufferSize)
    (fits : this.gauge.writeBufferSize + request.writeBufferSize ≤ maxInt) :
    (this.offer request future number).gauge =
      { this.gauge with
        writeBufferSize := this.gauge.writeBufferSize + request.writeBufferSize
        counter :=
          if this.gauge.highWaterMark ≤ this.gauge.writeBufferSize + request.writeBufferSize ∧
              this.gauge.writeBufferSize < this.gauge.highWaterMark then
            int32 (this.gauge.counter + 1)
          else this.gauge.counter } :=
  gauge_plusWriteBufferSize (this.setOps _) nonneg grows fits

theorem gauge_minusWriteBufferSize (fits : this.gauge.writeBufferSize ≤ maxInt)
    (shrinks : 0 ≤ messageSize)
    (within : messageSize ≤ this.gauge.writeBufferSize) :
    (this.minusWriteBufferSize messageSize).gauge =
      { this.gauge with
        writeBufferSize := this.gauge.writeBufferSize - messageSize
        counter :=
          if Released this.gauge.lowWaterMark (this.gauge.writeBufferSize - messageSize) ∧
              this.gauge.lowWaterMark ≤ this.gauge.writeBufferSize then
            int32 (this.gauge.counter - 1)
          else this.gauge.counter } := by
  have difference : int32 (this.writeQueue.writeBufferSize - messageSize) =
      this.gauge.writeBufferSize - messageSize :=
    int32_of_nonneg (Int.sub_nonneg.mpr within) (by change this.gauge.writeBufferSize - _ ≤ _; omega)
  have before : int32 (this.gauge.writeBufferSize - messageSize + messageSize) =
      this.gauge.writeBufferSize := by
    rw [Int.sub_add_cancel]
    exact int32_of_nonneg (Int.le_trans shrinks within) fits
  simp only [minusWriteBufferSize, difference, before]
  have same : ((this.gauge.writeBufferSize - messageSize = 0 ∨
      this.gauge.writeBufferSize - messageSize < this.gauge.lowWaterMark) ∧
        this.gauge.lowWaterMark ≤ this.gauge.writeBufferSize) ↔
      Released this.gauge.lowWaterMark (this.gauge.writeBufferSize - messageSize) ∧
        this.gauge.lowWaterMark ≤ this.gauge.writeBufferSize := by
    unfold Released
    rw [or_comm]
  by_cases crosses : Released this.gauge.lowWaterMark
      (this.gauge.writeBufferSize - messageSize) ∧
        this.gauge.lowWaterMark ≤ this.gauge.writeBufferSize
  · rw [if_pos crosses]
    apply (congrArg gauge (if_pos (same.mpr crosses))).trans
    simp only [handleAtLowWaterMark]
    split
    · rfl
    · rfl
  · rw [if_neg crosses]
    exact congrArg gauge (if_neg (fun holds => crosses (same.mp holds)))

/-- The write flag of an open channel. -/
theorem getInterestOps_write (connected : this.state = .connected) :
    this.getInterestOps.write = true ↔
      this.gauge.writeBufferSize ≠ 0 ∧
        (if 0 < this.gauge.counter then this.gauge.lowWaterMark else this.gauge.highWaterMark) ≤
          this.gauge.writeBufferSize := by
  have reached : this.isOpen = true := by
    unfold isOpen
    rw [connected]
    rfl
  unfold getInterestOps
  simp only [reached, not_true_eq_false, if_false]
  by_cases empty : this.writeQueue.writeBufferSize = 0
  · simp [empty, gauge]
  · by_cases counted : 0 < this.highWaterMarkCounter
    · simp [empty, counted, gauge]
    · simp [empty, counted, gauge]

end

end AsioSocketChannel

namespace WriteWaterMark

inductive Action where
  | offer (request : AsioWriteRequest) (future : Option ChannelFuture) (number : Nat)
  | poll

/-- The bytes of the queued operations. -/
def queuedTotal (channel : AsioSocketChannel) : Int :=
  (channel.writeQueue.ops.map AsioWriteOperation.writeBufferSize).sum

/-- A channel with the totals its queue has had, the present one first. -/
structure Watched where
  channel : AsioSocketChannel
  totals : List Int

def Watched.record (watched : Watched) (channel : AsioSocketChannel) : Watched :=
  ⟨channel, queuedTotal channel :: watched.totals⟩

def next (watched : Watched) : Action → Option Watched
  | .offer request future number =>
      some (watched.record (watched.channel.offer request future number))
  | .poll =>
      match watched.channel.poll with
      | .ok (_, channel) => some (watched.record channel)
      | .error _ => none

def Action.NonNegative : Action → Prop
  | .offer request _ _ => 0 ≤ request.writeBufferSize
  | .poll => True

instance (action : Action) : Decidable action.NonNegative :=
  match action with
  | .offer request _ _ => inferInstanceAs (Decidable (0 ≤ request.writeBufferSize))
  | .poll => .isTrue trivial

def Step (before : Watched) (action : Action) (after : Watched) : Prop :=
  action.NonNegative ∧ next before action = some after

/-- Nothing queued yet on a connected channel. -/
structure Fresh (low high : Int) (watched : Watched) : Prop where
  connected : watched.channel.state = .connected
  lowWaterMark : watched.channel.lowWaterMark = low
  highWaterMark : watched.channel.highWaterMark = high
  ops : watched.channel.writeQueue.ops = []
  size : watched.channel.writeQueue.writeBufferSize = 0
  counter : watched.channel.highWaterMarkCounter = 0
  totals : watched.totals = [0]

/-- The size of the operation a poll takes. -/
def frontSize (channel : AsioSocketChannel) : Int :=
  (channel.writeQueue.ops.map AsioWriteOperation.writeBufferSize).headD 0

/-- An offer reaches the high mark only while the switch is off, within the range of
an `int`; a poll leaves the low mark only while the switch is on. -/
def Timely (low high : Int) (watched : Watched) : Action → Prop
  | .offer request _ _ =>
      let total := queuedTotal watched.channel
      total + request.writeBufferSize ≤ maxInt ∧
        (total < high → high ≤ total + request.writeBufferSize →
          ¬Engaged low high watched.totals)
  | .poll =>
      let total := queuedTotal watched.channel
      low ≤ total → Released low (total - frontSize watched.channel) →
        Engaged low high watched.totals ∧ 0 < high

instance (low high : Int) (watched : Watched) (action : Action) :
    Decidable (Timely low high watched action) :=
  match action with
  | .offer request _ _ => inferInstanceAs (Decidable
      (queuedTotal watched.channel + request.writeBufferSize ≤ maxInt ∧
        (queuedTotal watched.channel < high →
          high ≤ queuedTotal watched.channel + request.writeBufferSize →
            ¬Engaged low high watched.totals)))
  | .poll => inferInstanceAs (Decidable
      (low ≤ queuedTotal watched.channel →
        Released low (queuedTotal watched.channel - frontSize watched.channel) →
          Engaged low high watched.totals ∧ 0 < high))

/-- The counter is the switch. -/
structure Tracks (low high : Int) (watched : Watched) : Prop where
  connected : watched.channel.state = .connected
  lowWaterMark : watched.channel.lowWaterMark = low
  highWaterMark : watched.channel.highWaterMark = high
  nonneg : ∀ op ∈ watched.channel.writeQueue.ops, 0 ≤ op.writeBufferSize
  size : watched.channel.writeQueue.writeBufferSize = queuedTotal watched.channel
  fits : queuedTotal watched.channel ≤ maxInt
  newest : ∃ older, watched.totals = queuedTotal watched.channel :: older
  counter : watched.channel.highWaterMarkCounter = balance low high watched.totals

theorem queuedTotal_append (channel : AsioSocketChannel) (request : AsioWriteRequest)
    (future : Option ChannelFuture) (number : Nat) :
    queuedTotal (channel.offer request future number) =
      queuedTotal channel + request.writeBufferSize := by
  unfold queuedTotal
  rw [← AsioSocketChannel.ledger_ops, AsioSocketChannel.ledger_offer]
  simp [AsioSocketChannel.ledger]

theorem total_nonneg {ops : List AsioWriteOperation}
    (nonneg : ∀ op ∈ ops, 0 ≤ op.writeBufferSize) :
    0 ≤ (ops.map AsioWriteOperation.writeBufferSize).sum := by
  induction ops with
  | nil => exact Int.le_refl 0
  | cons op ops ih =>
      rw [List.map_cons, List.sum_cons]
      exact Int.add_nonneg (nonneg op (List.mem_cons_self ..))
        (ih (fun other among => nonneg other (List.mem_cons_of_mem _ among)))

namespace Tracks

variable {low high : Int} {before : Watched}

section

variable (tracks : Tracks low high before)

include tracks

theorem gauge :
    before.channel.gauge =
      { lowWaterMark := low
        highWaterMark := high
        writeBufferSize := queuedTotal before.channel
        counter := balance low high before.totals } := by
  unfold AsioSocketChannel.gauge
  rw [tracks.lowWaterMark, tracks.highWaterMark, tracks.size, tracks.counter]

theorem offer (ordered : low ≤ high)
    {request : AsioWriteRequest} (future : Option ChannelFuture) (number : Nat)
    (grows : 0 ≤ request.writeBufferSize)
    (timely : Timely low high before (.offer request future number)) :
    Tracks low high (before.record (before.channel.offer request future number)) := by
  rcases tracks.newest with ⟨older, newest⟩
  have nonneg : 0 ≤ queuedTotal before.channel := total_nonneg tracks.nonneg
  have ledger := before.channel.ledger_offer request future number
  have gauge := before.channel.gauge_offer request future number
    (by rw [tracks.gauge]; exact nonneg) grows (by rw [tracks.gauge]; exact timely.1)
  rw [tracks.gauge] at gauge
  have total := queuedTotal_append before.channel request future number
  have turned := balance_rise low high older ordered nonneg
    (Int.le_add_of_nonneg_right grows) (by rw [← newest]; exact timely.2)
  rw [← newest] at turned
  constructor
  · exact (congrArg AsioSocketChannel.Ledger.state ledger).trans tracks.connected
  · exact congrArg AsioSocketChannel.Gauge.lowWaterMark gauge
  · exact congrArg AsioSocketChannel.Gauge.highWaterMark gauge
  · intro op among
    have split := congrArg AsioSocketChannel.Ledger.ops ledger
    change (before.channel.offer request future number).writeQueue.ops = _ at split
    change op ∈ (before.channel.offer request future number).writeQueue.ops at among
    rw [split] at among
    rcases List.mem_append.mp among with earlier | added
    · exact tracks.nonneg op earlier
    · rw [List.mem_singleton.mp added]
      exact grows
  · exact (congrArg AsioSocketChannel.Gauge.writeBufferSize gauge).trans total.symm
  · change queuedTotal (before.channel.offer request future number) ≤ maxInt
    rw [total]
    exact timely.1
  · exact ⟨before.totals, rfl⟩
  · change (before.channel.offer request future number).gauge.counter =
      balance low high (queuedTotal (before.channel.offer request future number) :: before.totals)
    rw [gauge, total, turned]
    rcases balance_cases low high before.totals with off | on
    · rw [off]
      rfl
    · rw [on]
      rfl

theorem poll (ordered : low ≤ high)
    (timely : Timely low high before .poll) {op : AsioWriteOperation}
    {channel : AsioSocketChannel} (polled : before.channel.poll = .ok (op, channel)) :
    Tracks low high (before.record channel) := by
  rcases tracks.newest with ⟨older, newest⟩
  cases queued : before.channel.writeQueue.ops with
  | nil =>
      rw [before.channel.poll_nil queued] at polled
      cases polled
  | cons front rest =>
      rw [before.channel.poll_eq queued] at polled
      cases polled
      have fronted : 0 ≤ op.writeBufferSize :=
        tracks.nonneg op (by rw [queued]; exact List.mem_cons_self ..)
      have rested : ∀ other ∈ rest, 0 ≤ other.writeBufferSize := by
        intro other among
        exact tracks.nonneg other (by rw [queued]; exact List.mem_cons_of_mem _ among)
      have parts : queuedTotal before.channel =
          op.writeBufferSize + (rest.map AsioWriteOperation.writeBufferSize).sum := by
        unfold queuedTotal
        rw [queued, List.map_cons, List.sum_cons]
      have left := total_nonneg rested
      have gauge := (before.channel.setOps rest).gauge_minusWriteBufferSize
        (by rw [AsioSocketChannel.gauge_setOps, tracks.gauge]; exact tracks.fits) fronted
        (by rw [AsioSocketChannel.gauge_setOps, tracks.gauge]
            change op.writeBufferSize ≤ queuedTotal before.channel
            omega)
      rw [AsioSocketChannel.gauge_setOps, tracks.gauge] at gauge
      have ledger := (before.channel.setOps rest).ledger_minusWriteBufferSize op.writeBufferSize
      have ops : ((before.channel.setOps rest).minusWriteBufferSize op.writeBufferSize).writeQueue.ops
          = rest := congrArg AsioSocketChannel.Ledger.ops ledger
      have total : queuedTotal ((before.channel.setOps rest).minusWriteBufferSize
          op.writeBufferSize) = queuedTotal before.channel - op.writeBufferSize := by
        rw [parts]
        unfold queuedTotal
        rw [ops]
        omega
      have front_size : frontSize before.channel = op.writeBufferSize := by
        unfold frontSize
        rw [queued]
        rfl
      have turned := balance_fall low high older ordered
        (Int.sub_le_self (queuedTotal before.channel) fronted)
        (by rw [← newest, ← front_size]; exact timely)
      rw [← newest] at turned
      constructor
      · exact (congrArg AsioSocketChannel.Ledger.state ledger).trans tracks.connected
      · exact congrArg AsioSocketChannel.Gauge.lowWaterMark gauge
      · exact congrArg AsioSocketChannel.Gauge.highWaterMark gauge
      · intro other among
        change other ∈ ((before.channel.setOps rest).minusWriteBufferSize
          op.writeBufferSize).writeQueue.ops at among
        rw [ops] at among
        exact rested other among
      · exact (congrArg AsioSocketChannel.Gauge.writeBufferSize gauge).trans total.symm
      · change queuedTotal ((before.channel.setOps rest).minusWriteBufferSize
          op.writeBufferSize) ≤ maxInt
        have fits := tracks.fits
        omega
      · exact ⟨before.totals, rfl⟩
      · change ((before.channel.setOps rest).minusWriteBufferSize
          op.writeBufferSize).gauge.counter = balance low high (queuedTotal
            ((before.channel.setOps rest).minusWriteBufferSize op.writeBufferSize) ::
              before.totals)
        rw [gauge, total, turned]
        rcases balance_cases low high before.totals with off | on
        · rw [off]
          rfl
        · rw [on]
          rfl

theorem step (ordered : low ≤ high) {action : Action}
    {after : Watched} (timely : Timely low high before action) (stepped : Step before action after) :
    Tracks low high after := by
  cases action with
  | offer request future number =>
      cases stepped.2
      exact tracks.offer ordered future number stepped.1 timely
  | poll =>
      have went := stepped.2
      unfold next at went
      cases polled : before.channel.poll with
      | error stop =>
          simp only [polled] at went
          cases went
      | ok outcome =>
          simp only [polled] at went
          cases went
          exact tracks.poll ordered timely polled

end

theorem fresh {watched : Watched} (fresh : Fresh low high watched) : Tracks low high watched := by
  have empty : queuedTotal watched.channel = 0 := by
    unfold queuedTotal
    rw [fresh.ops]
    rfl
  constructor
  · exact fresh.connected
  · exact fresh.lowWaterMark
  · exact fresh.highWaterMark
  · rw [fresh.ops]
    nofun
  · rw [fresh.size, empty]
  · rw [empty]
    decide
  · exact ⟨[], by rw [fresh.totals, empty]⟩
  · rw [fresh.counter, fresh.totals]
    unfold balance
    rw [if_neg]
    intro on
    exact not_released_of_engaged low high on.2 (Or.inr rfl)

/-- The write flag shows the switch. -/
theorem flag (tracks : Tracks low high before) (ordered : low ≤ high) :
    before.channel.getInterestOps.write = true ↔ Engaged low high before.totals := by
  rcases tracks.newest with ⟨older, newest⟩
  have nonneg : 0 ≤ queuedTotal before.channel := total_nonneg tracks.nonneg
  rw [before.channel.getInterestOps_write tracks.connected, tracks.gauge]
  simp only
  constructor
  · intro shown
    by_cases on : Engaged low high before.totals
    · exact on
    · have zero : balance low high before.totals = 0 := if_neg (fun both => on both.2)
      rw [zero, if_neg (Int.lt_irrefl 0)] at shown
      rw [newest, engaged_cons]
      refine ⟨?_, Or.inl shown.2⟩
      intro released
      rcases released with below | empty
      · exact absurd (Int.le_trans ordered shown.2) (by omega)
      · exact shown.1 empty
  · intro on
    have kept := not_released_of_engaged low high (newest ▸ on)
    have above : low ≤ queuedTotal before.channel := by
      by_cases below : queuedTotal before.channel < low
      · exact absurd (Or.inl below) kept
      · omega
    refine ⟨fun empty => kept (Or.inr empty), ?_⟩
    by_cases positive : 0 < high
    · have one : balance low high before.totals = 1 := if_pos ⟨positive, on⟩
      rw [one, if_pos Int.zero_lt_one]
      exact above
    · have zero : balance low high before.totals = 0 := if_neg (fun both => positive both.1)
      rw [zero, if_neg (Int.lt_irrefl 0)]
      omega

end Tracks

/-- While every counted crossing is a turn of the switch, the counter is zero or one
and the channel is shown as not writable exactly while the switch is on. -/
theorem interest_follows_marks {low high : Int} {start final : Watched} {actions : List Action}
    (ordered : low ≤ high) (fresh : Fresh low high start)
    (run : Run (Guarded (Timely low high) Step) start actions final) :
    (final.channel.highWaterMarkCounter = 0 ∨ final.channel.highWaterMarkCounter = 1) ∧
      (final.channel.getInterestOps.write = true ↔ Engaged low high final.totals) := by
  have kept : ∀ before action after, Tracks low high before →
      Guarded (Timely low high) Step before action after → Tracks low high after := by
    intro before action after tracks taken
    exact tracks.step ordered taken.1 taken.2
  have tracks := run.invariant kept (.fresh fresh)
  refine ⟨?_, tracks.flag ordered⟩
  rw [tracks.counter]
  exact balance_cases low high final.totals

def idle (low high : Int) : Watched := ⟨.justConnected low high, [0]⟩

theorem idle_fresh (low high : Int) : Fresh low high (idle low high) :=
  ⟨rfl, rfl, rfl, rfl, rfl, rfl, rfl⟩

/-- Ten bytes queued at once and taken at once, with marks at two and ten. -/
theorem interest_follows_marks_once :
    ∃ final, Run (Guarded (Timely 2 10) Step) (idle 2 10)
        [.offer (.ofArray (List.replicate 10 0)) none 0, .poll] final ∧
      (final.channel.highWaterMarkCounter = 0 ∨ final.channel.highWaterMarkCounter = 1) ∧
      (final.channel.getInterestOps.write = true ↔ Engaged 2 10 final.totals) := by
  have run : ∃ final, Run (Guarded (Timely 2 10) Step) (idle 2 10)
      [.offer (.ofArray (List.replicate 10 0)) none 0, .poll] final :=
    ⟨_, .cons ⟨by decide, by decide, rfl⟩
      (.cons ⟨by decide, trivial, rfl⟩ (.nil _))⟩
  rcases run with ⟨final, run⟩
  exact ⟨final, run, interest_follows_marks (by decide) (idle_fresh 2 10) run⟩

/-- Five bytes queued and taken leave the counter below zero; after that a total that
has reached the high mark and stayed above the low one is shown as writable. -/
theorem crossing_counted_while_off :
    (∃ final, Run Step (idle 2 10)
        [.offer (.ofArray (List.replicate 5 0)) none 0, .poll] final ∧
      final.channel.highWaterMarkCounter = -1) ∧
    ∃ final, Run Step (idle 2 10)
        [.offer (.ofArray (List.replicate 5 0)) none 0, .poll,
          .offer (.ofArray (List.replicate 10 0)) none 1,
          .offer (.ofArray (List.replicate 3 0)) none 2, .poll] final ∧
      Engaged 2 10 final.totals ∧ final.channel.getInterestOps.write = false := by
  constructor
  · exact ⟨_, .cons ⟨by decide, rfl⟩ (.cons ⟨trivial, rfl⟩ (.nil _)), rfl⟩
  · exact ⟨_, .cons ⟨by decide, rfl⟩ (.cons ⟨trivial, rfl⟩ (.cons ⟨by decide, rfl⟩
      (.cons ⟨by decide, rfl⟩ (.cons ⟨trivial, rfl⟩ (.nil _))))), by decide, rfl⟩

end WriteWaterMark

end Cetty
