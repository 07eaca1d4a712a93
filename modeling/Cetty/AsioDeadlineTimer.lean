import Cetty.ActionRuns

/-!
# The deadline timer

`AsioDeadlineTimer` and its timeouts over the waits of `boost::asio`. A wait expires or is
cancelled, whichever comes first, and its handler runs once at some later time. `cancel` leaves the
state of a timeout to that handler, so it is active until then, and a handler that an expiry has
queued runs the task although the timeout has been cancelled.
-/

namespace Cetty

open ActionRuns

/-- The wait of a `boost::asio::deadline_timer`: in the timer queue, with its handler queued (with
`operation_aborted` or without an error), or over. -/
inductive Wait where
  | pending
  | queued (aborted : Bool)
  | invoked
  deriving DecidableEq, Repr

namespace Wait

/-- `deadline_timer::cancel`: a handler that is queued already is not withdrawn. -/
def cancel : Wait → Wait
  | pending => queued true
  | wait => wait

end Wait

/-- The states a constructed timeout takes. -/
inductive TimeoutState where
  | cancelled
  | expired
  | active
  deriving DecidableEq, Repr

structure AsioDeadlineTimeout where
  state : TimeoutState
  wait : Wait
  deriving DecidableEq, Repr

namespace AsioDeadlineTimeout

/-- What both constructors leave. -/
def scheduled : AsioDeadlineTimeout := ⟨.active, .pending⟩

def isExpired (timeout : AsioDeadlineTimeout) : Bool := timeout.state = .expired

def isCancelled (timeout : AsioDeadlineTimeout) : Bool := timeout.state = .cancelled

def isActive (timeout : AsioDeadlineTimeout) : Bool := timeout.state = .active

def cancel (timeout : AsioDeadlineTimeout) : AsioDeadlineTimeout :=
  { timeout with wait := timeout.wait.cancel }

/-- The time is over while the wait is in the timer queue. -/
def expire (timeout : AsioDeadlineTimeout) : Option AsioDeadlineTimeout :=
  match timeout.wait with
  | .pending => some { timeout with wait := .queued false }
  | _ => none

/-- `TimerFunctionHandler` and `TimerTaskHandler`, with whether the task is run. -/
def handle (timeout : AsioDeadlineTimeout) : Option (AsioDeadlineTimeout × Bool) :=
  match timeout.wait with
  | .queued true => some (⟨.cancelled, .invoked⟩, false)
  | .queued false => some (⟨.expired, .invoked⟩, true)
  | _ => none

end AsioDeadlineTimeout

/-- What has happened to the timeout at a position: `cancel` or `stop` has returned while it was
active, or its task has been run. -/
inductive TimeoutMark where
  | revoked (position : Nat)
  | ran (position : Nat)
  deriving DecidableEq, Repr

structure AsioDeadlineTimer where
  timeouts : List AsioDeadlineTimeout
  history : List TimeoutMark
  deriving DecidableEq, Repr

/-- A call of the timer, an expiry, or the io service running a queued handler. -/
inductive TimerEvent where
  | newTimeout
  | expire (position : Nat)
  | cancel (position : Nat)
  | stop
  | handle (position : Nat)
  deriving DecidableEq, Repr

namespace AsioDeadlineTimer

def unused : AsioDeadlineTimer := ⟨[], []⟩

def activeAt (timer : AsioDeadlineTimer) (position : Nat) : Bool :=
  match timer.timeouts[position]? with
  | some timeout => timeout.isActive
  | none => false

def newTimeout (timer : AsioDeadlineTimer) : AsioDeadlineTimer :=
  { timer with timeouts := timer.timeouts ++ [.scheduled] }

def cancelAt (timer : AsioDeadlineTimer) (position : Nat) : AsioDeadlineTimer where
  timeouts := timer.timeouts.modify position AsioDeadlineTimeout.cancel
  history := timer.history ++ if timer.activeAt position then [.revoked position] else []

/-- The body of the loop of `stop`. -/
def stopAt (timer : AsioDeadlineTimer) (position : Nat) : AsioDeadlineTimer :=
  if timer.activeAt position then timer.cancelAt position else timer

def stop (timer : AsioDeadlineTimer) : AsioDeadlineTimer :=
  (List.range timer.timeouts.length).foldl stopAt timer

def expireAt (timer : AsioDeadlineTimer) (position : Nat) : Option AsioDeadlineTimer := do
  let timeout ← timer.timeouts[position]?
  let expired ← timeout.expire
  pure { timer with timeouts := timer.timeouts.set position expired }

def handleAt (timer : AsioDeadlineTimer) (position : Nat) : Option AsioDeadlineTimer := do
  let timeout ← timer.timeouts[position]?
  let (handled, ran) ← timeout.handle
  pure
    { timeouts := timer.timeouts.set position handled
      history := timer.history ++ if ran then [.ran position] else [] }

def next (timer : AsioDeadlineTimer) : TimerEvent → Option AsioDeadlineTimer
  | .newTimeout => some timer.newTimeout
  | .expire position => timer.expireAt position
  | .cancel position =>
      if position < timer.timeouts.length then some (timer.cancelAt position) else none
  | .stop => some timer.stop
  | .handle position => timer.handleAt position

def timerStep (before : AsioDeadlineTimer) (event : TimerEvent) (after : AsioDeadlineTimer) : Prop :=
  before.next event = some after

/-- No task has been run behind its revocation. -/
def Silent (history : List TimeoutMark) : Prop :=
  ∀ front back position, history = front ++ .revoked position :: back → .ran position ∉ back

/-- Every task has run at most once and never behind a revocation, and what has been revoked is
cancelled. -/
structure Effective (timer : AsioDeadlineTimer) : Prop where
  once : ∀ position, timer.history.count (.ran position) ≤ 1
  silent : Silent timer.history
  cancelled : ∀ position, .revoked position ∈ timer.history →
    ∃ timeout, timer.timeouts[position]? = some timeout ∧ timeout.isCancelled = true

/-- The call finds no timeout active. -/
def Spares (timer : AsioDeadlineTimer) : TimerEvent → Prop
  | .cancel position => timer.activeAt position = false
  | .stop => ∀ position, timer.activeAt position = false
  | _ => True

/-- How often the task at a position may have been run: once its wait is over. -/
def spent (timer : AsioDeadlineTimer) (position : Nat) : Nat :=
  match timer.timeouts[position]? with
  | some timeout => if timeout.wait = .invoked then 1 else 0
  | none => 0

def Once (timer : AsioDeadlineTimer) : Prop :=
  ∀ position, timer.history.count (.ran position) ≤ timer.spent position

section Steps

variable {timer after : AsioDeadlineTimer} {position : Nat}

theorem cancel_invoked (timeout : AsioDeadlineTimeout) :
    timeout.cancel.wait = .invoked ↔ timeout.wait = .invoked := by
  unfold AsioDeadlineTimeout.cancel Wait.cancel
  cases timeout.wait with
  | pending => simp
  | queued aborted => exact Iff.rfl
  | invoked => exact Iff.rfl

theorem spent_cancelAt (other : Nat) : (timer.cancelAt position).spent other = timer.spent other := by
  unfold spent cancelAt
  rw [List.getElem?_modify]
  cases timer.timeouts[other]? with
  | none => rfl
  | some timeout =>
      by_cases same : position = other
      · simp [same, cancel_invoked]
      · simp [same]

theorem once_cancelAt (once : Once timer) : Once (timer.cancelAt position) := by
  intro other
  rw [spent_cancelAt]
  have unchanged : (timer.cancelAt position).history.count (.ran other) =
      timer.history.count (.ran other) := by
    unfold cancelAt
    cases timer.activeAt position with
    | false => simp
    | true => simp
  rw [unchanged]
  exact once other

theorem once_stopAt (once : Once timer) : Once (timer.stopAt position) := by
  unfold stopAt
  split
  · exact once_cancelAt once
  · exact once

theorem once_stop (once : Once timer) : Once timer.stop := by
  unfold stop
  generalize List.range timer.timeouts.length = positions
  induction positions generalizing timer with
  | nil => exact once
  | cons position rest ih =>
      rw [List.foldl_cons]
      exact ih (once_stopAt once)

theorem once_newTimeout (once : Once timer) : Once timer.newTimeout := by
  intro other
  have same : timer.newTimeout.spent other = timer.spent other := by
    unfold spent newTimeout
    by_cases inside : other < timer.timeouts.length
    · rw [List.getElem?_append_left inside]
    · rw [List.getElem?_append_right (Nat.le_of_not_lt inside),
        List.getElem?_eq_none (Nat.le_of_not_lt inside)]
      cases other - timer.timeouts.length with
      | zero => rfl
      | succ more => rfl
  rw [same]
  exact once other

/-- What an expiry does. -/
theorem expireAt_cases (expired : timer.expireAt position = some after) :
    ∃ timeout, timer.timeouts[position]? = some timeout ∧ timeout.wait = .pending ∧
      after = { timer with
        timeouts := timer.timeouts.set position { timeout with wait := .queued false } } := by
  unfold expireAt at expired
  cases found : timer.timeouts[position]? with
  | none =>
      rw [found] at expired
      cases expired
  | some timeout =>
      rw [found] at expired
      cases waits : timeout.wait with
      | pending =>
          simp [AsioDeadlineTimeout.expire, waits] at expired
          exact ⟨timeout, rfl, waits, expired.symm⟩
      | queued aborted => simp [AsioDeadlineTimeout.expire, waits] at expired
      | invoked => simp [AsioDeadlineTimeout.expire, waits] at expired

/-- What a handler does. -/
theorem handleAt_cases (handled : timer.handleAt position = some after) :
    ∃ timeout, timer.timeouts[position]? = some timeout ∧
      ((timeout.wait = .queued true ∧ after = { timer with
          timeouts := timer.timeouts.set position ⟨.cancelled, .invoked⟩ }) ∨
        (timeout.wait = .queued false ∧ after =
          { timeouts := timer.timeouts.set position ⟨.expired, .invoked⟩
            history := timer.history ++ [.ran position] })) := by
  unfold handleAt at handled
  cases found : timer.timeouts[position]? with
  | none =>
      rw [found] at handled
      cases handled
  | some timeout =>
      rw [found] at handled
      refine ⟨timeout, rfl, ?_⟩
      cases waits : timeout.wait with
      | pending => simp [AsioDeadlineTimeout.handle, waits] at handled
      | queued aborted =>
          cases aborted with
          | false =>
              simp [AsioDeadlineTimeout.handle, waits] at handled
              exact Or.inr ⟨rfl, handled.symm⟩
          | true =>
              simp [AsioDeadlineTimeout.handle, waits] at handled
              exact Or.inl ⟨rfl, handled.symm⟩
      | invoked => simp [AsioDeadlineTimeout.handle, waits] at handled

theorem spent_set {timeout other : AsioDeadlineTimeout} (history : List TimeoutMark)
    (found : timer.timeouts[position]? = some timeout) (place : Nat) :
    spent ⟨timer.timeouts.set position other, history⟩ place =
      if place = position then (if other.wait = .invoked then 1 else 0)
      else timer.spent place := by
  have inside := (List.getElem?_eq_some_iff.mp found).1
  unfold spent
  by_cases same : place = position
  · subst same
    rw [List.getElem?_set_self inside, if_pos rfl]
  · rw [List.getElem?_set_ne (Ne.symm same), if_neg same]

theorem spent_waiting {timeout : AsioDeadlineTimeout}
    (found : timer.timeouts[position]? = some timeout) (waits : timeout.wait ≠ .invoked) :
    timer.spent position = 0 := by
  unfold spent
  rw [found]
  exact if_neg waits

theorem once_expireAt (once : Once timer) (expired : timer.expireAt position = some after) :
    Once after := by
  rcases expireAt_cases expired with ⟨timeout, found, waits, rfl⟩
  intro place
  rw [spent_set _ found]
  have before := once place
  by_cases same : place = position
  · subst same
    rw [spent_waiting found (by rw [waits]; decide)] at before
    rw [if_pos rfl]
    exact Nat.le_trans before (Nat.zero_le _)
  · rw [if_neg same]
    exact before

theorem once_handleAt (once : Once timer) (handled : timer.handleAt position = some after) :
    Once after := by
  rcases handleAt_cases handled with ⟨timeout, found, ⟨waits, rfl⟩ | ⟨waits, rfl⟩⟩
  · intro place
    rw [spent_set _ found]
    have before := once place
    by_cases same : place = position
    · subst same
      rw [spent_waiting found (by rw [waits]; decide)] at before
      rw [if_pos rfl]
      exact Nat.le_trans before (Nat.zero_le _)
    · rw [if_neg same]
      exact before
  · intro place
    rw [spent_set _ found]
    have before := once place
    by_cases same : place = position
    · subst same
      rw [spent_waiting found (by rw [waits]; decide)] at before
      rw [if_pos rfl, if_pos rfl, List.count_append, List.count_singleton_self]
      omega
    · have apart : (TimeoutMark.ran position == .ran place) = false := by
        rw [beq_eq_false_iff_ne]
        intro wrong
        cases wrong
        exact same rfl
      rw [if_neg same, List.count_append, List.count_singleton, if_neg (by rw [apart]; decide)]
      exact before

theorem once_next {event : TimerEvent} (once : Once timer) (step : timerStep timer event after) :
    Once after := by
  unfold timerStep at step
  cases event with
  | newTimeout =>
      cases step
      exact once_newTimeout once
  | expire position => exact once_expireAt once step
  | cancel position =>
      rw [next] at step
      split at step
      · cases step
        exact once_cancelAt once
      · cases step
  | stop =>
      cases step
      exact once_stop once
  | handle position => exact once_handleAt once step

theorem activeAt_cancelAt (other : Nat) :
    (timer.cancelAt position).activeAt other = timer.activeAt other := by
  unfold activeAt cancelAt
  rw [List.getElem?_modify]
  cases timer.timeouts[other]? with
  | none => rfl
  | some timeout =>
      by_cases same : position = other
      · simp [same, AsioDeadlineTimeout.cancel, AsioDeadlineTimeout.isActive]
      · simp [same]

theorem activeAt_stopAt (other : Nat) :
    (timer.stopAt position).activeAt other = timer.activeAt other := by
  unfold stopAt
  split
  · exact activeAt_cancelAt other
  · rfl

theorem revoked_cancelAt (active : timer.activeAt position = true) :
    .revoked position ∈ (timer.cancelAt position).history := by
  unfold cancelAt
  rw [if_pos active]
  exact List.mem_append_right _ List.mem_cons_self

theorem history_stopAt {mark : TimeoutMark} (marked : mark ∈ timer.history) :
    mark ∈ (timer.stopAt position).history := by
  unfold stopAt
  split
  · exact List.mem_append_left _ marked
  · exact marked

theorem revoked_stopAt (active : timer.activeAt position = true) :
    .revoked position ∈ (timer.stopAt position).history := by
  unfold stopAt
  rw [if_pos active]
  exact revoked_cancelAt active

/-- `stop` revokes what is active, and it stays active. -/
theorem stopped_over {positions : List Nat} (among : position ∈ positions)
    (active : timer.activeAt position = true) :
    (positions.foldl stopAt timer).activeAt position = true ∧
      .revoked position ∈ (positions.foldl stopAt timer).history := by
  have passed : ∀ (rest : List Nat) (state : AsioDeadlineTimer), state.activeAt position = true →
      .revoked position ∈ state.history →
      (rest.foldl stopAt state).activeAt position = true ∧
        .revoked position ∈ (rest.foldl stopAt state).history := by
    intro rest
    induction rest with
    | nil =>
        intro state live marked
        exact ⟨live, marked⟩
    | cons first rest ih =>
        intro state live marked
        rw [List.foldl_cons]
        exact ih _ ((activeAt_stopAt position).trans live) (history_stopAt marked)
  induction positions generalizing timer with
  | nil => cases among
  | cons first rest ih =>
      rw [List.foldl_cons]
      rcases List.mem_cons.mp among with same | later
      · subst same
        exact passed rest _ ((activeAt_stopAt position).trans active) (revoked_stopAt active)
      · exact ih later ((activeAt_stopAt position).trans active)

theorem activeAt_inside (active : timer.activeAt position = true) :
    position < timer.timeouts.length := by
  apply Classical.byContradiction
  intro outside
  unfold activeAt at active
  rw [List.getElem?_eq_none (Nat.le_of_not_lt outside)] at active
  cases active

/-- What is revoked and active is not cancelled. -/
theorem not_effective (active : timer.activeAt position = true)
    (marked : .revoked position ∈ timer.history) : ¬ Effective timer := by
  intro effective
  rcases effective.cancelled position marked with ⟨timeout, found, gone⟩
  unfold activeAt at active
  rw [found] at active
  unfold AsioDeadlineTimeout.isActive at active
  unfold AsioDeadlineTimeout.isCancelled at gone
  rw [of_decide_eq_true active] at gone
  cases gone

theorem spares_of_effective {event : TimerEvent} (step : timerStep timer event after)
    (effective : Effective after) : Spares timer event := by
  cases event with
  | newTimeout => trivial
  | expire position => trivial
  | cancel position =>
      apply Bool.eq_false_iff.mpr
      intro active
      have inside := activeAt_inside active
      unfold timerStep at step
      rw [next, if_pos inside] at step
      cases step
      exact not_effective ((activeAt_cancelAt position).trans active) (revoked_cancelAt active)
        effective
  | stop =>
      intro position
      apply Bool.eq_false_iff.mpr
      intro active
      cases step
      rcases stopped_over (List.mem_range.mpr (activeAt_inside active)) active with ⟨live, marked⟩
      exact not_effective live marked effective
  | handle position => trivial

/-- No `cancel` or `stop` has found an active timeout. -/
def Unrevoked (timer : AsioDeadlineTimer) : Prop :=
  ∀ position, .revoked position ∉ timer.history

theorem stop_spared (inactive : ∀ position, timer.activeAt position = false) :
    timer.stop = timer := by
  unfold stop
  generalize List.range timer.timeouts.length = positions
  induction positions with
  | nil => rfl
  | cons first rest ih =>
      have passed : timer.stopAt first = timer := by
        unfold stopAt
        rw [inactive first]
        rfl
      rw [List.foldl_cons, passed]
      exact ih

theorem unrevoked_next {event : TimerEvent} (free : Unrevoked timer)
    (spared : Spares timer event) (step : timerStep timer event after) : Unrevoked after := by
  cases event with
  | newTimeout =>
      cases step
      exact free
  | expire position =>
      rcases expireAt_cases step with ⟨timeout, found, waits, rfl⟩
      exact free
  | cancel position =>
      unfold timerStep at step
      rw [next] at step
      split at step
      · cases step
        have same : (timer.cancelAt position).history = timer.history := by
          unfold cancelAt
          rw [show timer.activeAt position = false from spared]
          exact List.append_nil _
        unfold Unrevoked
        rw [same]
        exact free
      · cases step
  | stop =>
      cases step
      rw [stop_spared spared]
      exact free
  | handle position =>
      rcases handleAt_cases step with ⟨timeout, found, ⟨waits, rfl⟩ | ⟨waits, rfl⟩⟩
      · exact free
      · intro place marked
        rcases List.mem_append.mp marked with old | fresh
        · exact free place old
        · cases List.mem_singleton.mp fresh

theorem once_bounded (once : Once timer) (place : Nat) :
    timer.history.count (.ran place) ≤ 1 := by
  apply Nat.le_trans (once place)
  unfold spent
  split
  · split
    · exact Nat.le_refl 1
    · exact Nat.zero_le 1
  · exact Nat.zero_le 1

theorem effective_unrevoked (once : Once timer) (free : Unrevoked timer) : Effective timer where
  once := once_bounded once
  silent := by
    intro front back place whole
    exfalso
    apply free place
    rw [whole]
    exact List.mem_append_right _ List.mem_cons_self
  cancelled := by
    intro place marked
    exact absurd marked (free place)

end Steps

theorem once_unused : Once unused := by
  intro place
  exact Nat.le_of_eq (by rfl)

theorem unrevoked_unused : Unrevoked unused := by
  intro place marked
  cases marked

theorem timerStep_functional (before : AsioDeadlineTimer) (event : TimerEvent)
    (first second : AsioDeadlineTimer) (one : timerStep before event first)
    (two : timerStep before event second) : first = second := by
  unfold timerStep at one two
  rw [one] at two
  exact Option.some.inj two

theorem cancellation_effective_iff {events : List TimerEvent} {final : AsioDeadlineTimer}
    (run : Run timerStep unused events final) :
    (∀ front back middle, events = front ++ back → Run timerStep unused front middle →
      Effective middle) ↔
      ∀ front event back middle, events = front ++ event :: back →
        Run timerStep unused front middle → Spares middle event := by
  constructor
  · intro effective front event back middle whole early
    subst whole
    rcases run.split with ⟨other, before, rest⟩
    cases rest with
    | cons step later =>
        obtain rfl := before.unique timerStep_functional early
        apply spares_of_effective step
        apply effective (front ++ [event]) back _ _ (before.snoc step)
        rw [List.append_assoc, List.singleton_append]
  · intro spared front back middle whole early
    have keeps : ∀ before event after, Once before ∧ Unrevoked before → Spares before event →
        timerStep before event after → Once after ∧ Unrevoked after := by
      intro before event after kept spare step
      exact ⟨once_next kept.1 step, unrevoked_next kept.2 spare step⟩
    have meets : ∀ start event rest between, front = start ++ event :: rest →
        Run timerStep unused start between → Spares between event := by
      intro start event rest between cut begun
      apply spared start event (rest ++ back) between _ begun
      rw [whole, cut, List.append_assoc, List.cons_append]
    have holds := Run.everywhere keeps ⟨once_unused, unrevoked_unused⟩ meets early
    exact effective_unrevoked holds.1 holds.2

theorem cancellation_effective_three :
    ∃ final, Run timerStep unused [.newTimeout, .expire 0, .handle 0] final ∧
      ((∀ front back middle, [TimerEvent.newTimeout, .expire 0, .handle 0] = front ++ back →
          Run timerStep unused front middle → Effective middle) ↔
        ∀ front event back middle,
          [TimerEvent.newTimeout, .expire 0, .handle 0] = front ++ event :: back →
          Run timerStep unused front middle → Spares middle event) := by
  have run : Run timerStep unused [.newTimeout, .expire 0, .handle 0]
      ⟨[⟨.expired, .invoked⟩], [.ran 0]⟩ := .cons rfl (.cons rfl (.cons rfl (.nil _)))
  exact ⟨_, run, cancellation_effective_iff run⟩

/-- A task that an expiry has queued runs behind the `cancel` of its active timeout. -/
theorem task_runs_cancelled :
    Run timerStep unused [.newTimeout, .expire 0, .cancel 0, .handle 0]
        ⟨[⟨.expired, .invoked⟩], [.revoked 0, .ran 0]⟩ ∧
      ¬ Effective ⟨[⟨.expired, .invoked⟩], [.revoked 0, .ran 0]⟩ := by
  refine ⟨.cons rfl (.cons rfl (.cons rfl (.cons rfl (.nil _)))), ?_⟩
  intro effective
  exact effective.silent [] [.ran 0] 0 rfl List.mem_cons_self

end AsioDeadlineTimer

end Cetty
