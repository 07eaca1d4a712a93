import Cetty.AsioDeadlineTimer

/-!
# IdleStateHandler

The handler with its timer, its three idle kinds and the events that reach it. A timeout is due
while its task is still to be run. The task pointers are left as the storage had them by both
constructors, the tasks are deleted by `destroy`, and a task that is run although it has been
deleted, or never was one, is a fault.
-/

namespace Cetty

inductive TimeUnit where
  | seconds
  | milliseconds
  | microseconds
  | nanoseconds
  deriving DecidableEq, Repr

namespace TimeUnit

/-- The value of a `boost::int64_t` register. -/
def int64 (value : Int) : Int := Int.bmod value 18446744073709551616

def toMillis (unit : TimeUnit) (duration : Int) : Int :=
  match unit with
  | seconds => int64 (duration * 1000)
  | milliseconds => duration
  | microseconds => duration.tdiv 1000
  | nanoseconds => duration.tdiv 1000000

theorem toMillis_seconds {duration : Int} (lower : -2147483648 ≤ duration)
    (upper : duration ≤ 2147483647) : toMillis .seconds duration = duration * 1000 := by
  unfold toMillis int64
  apply Int.bmod_eq_of_le <;> omega

end TimeUnit

/-- The task is still to be run. -/
def AsioDeadlineTimeout.isDue (timeout : AsioDeadlineTimeout) : Bool :=
  match timeout.wait with
  | .pending => true
  | .queued aborted => !aborted
  | .invoked => false

structure ArmedTimeout (Task : Type) where
  task : Task
  delay : Int
  timeout : AsioDeadlineTimeout
  deriving DecidableEq, Repr

namespace ArmedTimeout

variable {Task : Type}

def newTimeout (armed : List (ArmedTimeout Task)) (task : Task) (delay : Int) :
    List (ArmedTimeout Task) := armed ++ [⟨task, delay, .scheduled⟩]

def cancelAt (armed : List (ArmedTimeout Task)) (position : Nat) : List (ArmedTimeout Task) :=
  armed.modify position fun one => { one with timeout := one.timeout.cancel }

def expireAt (armed : List (ArmedTimeout Task)) (position : Nat) :
    Option (List (ArmedTimeout Task)) := do
  let one ← armed[position]?
  let expired ← one.timeout.expire
  pure (armed.set position { one with timeout := expired })

/-- The completion handler of the timeout at a position, with the task it goes on to run. -/
def handleAt (armed : List (ArmedTimeout Task)) (position : Nat) :
    Option (List (ArmedTimeout Task) × Option Task) := do
  let one ← armed[position]?
  let (handled, ran) ← one.timeout.handle
  pure (armed.set position { one with timeout := handled }, if ran then some one.task else none)

def DueAt (armed : List (ArmedTimeout Task)) (position : Nat) (task : Task) : Prop :=
  ∃ one, armed[position]? = some one ∧ one.task = task ∧ one.timeout.isDue = true

/-- No expiry has queued its handler. -/
def Settled (armed : List (ArmedTimeout Task)) : Prop :=
  ∀ one ∈ armed, one.timeout.wait ≠ .queued false

section Due

variable {armed after : List (ArmedTimeout Task)} {position place : Nat} {task other : Task}
  {delay : Int}

theorem dueAt_task (due : DueAt armed position task) (again : DueAt armed position other) :
    task = other := by
  rcases due with ⟨one, found, rfl, live⟩
  rcases again with ⟨two, held, rfl, lives⟩
  rw [found] at held
  cases held
  rfl

theorem dueAt_newTimeout :
    DueAt (newTimeout armed task delay) position other ↔
      DueAt armed position other ∨ (position = armed.length ∧ other = task) := by
  unfold newTimeout
  constructor
  · rintro ⟨one, found, rfl, live⟩
    by_cases inside : position < armed.length
    · rw [List.getElem?_append_left inside] at found
      exact Or.inl ⟨one, found, rfl, live⟩
    · have bound := (List.getElem?_eq_some_iff.mp found).1
      rw [List.length_append, List.length_singleton] at bound
      obtain rfl : position = armed.length := by omega
      rw [List.getElem?_concat_length] at found
      cases found
      exact Or.inr ⟨rfl, rfl⟩
  · rintro (⟨one, found, same, live⟩ | ⟨rfl, rfl⟩)
    · refine ⟨one, ?_, same, live⟩
      rw [List.getElem?_append_left (List.getElem?_eq_some_iff.mp found).1]
      exact found
    · exact ⟨_, List.getElem?_concat_length, rfl, rfl⟩

variable {timeout : AsioDeadlineTimeout}

theorem cancel_due (settled : timeout.wait ≠ .queued false) :
    timeout.cancel.isDue = false := by
  cases timeout with
  | mk state wait =>
      cases wait with
      | pending => rfl
      | queued aborted =>
          cases aborted with
          | false => exact absurd rfl settled
          | true => rfl
      | invoked => rfl

theorem cancelAt_getElem (index : Nat) :
    (cancelAt armed place)[index]? =
      if place = index then armed[index]?.map fun one => { one with timeout := one.timeout.cancel }
      else armed[index]? := by
  unfold cancelAt
  rw [List.getElem?_modify]
  by_cases same : place = index
  · simp [same]
  · simp [same]

/-- A cancelled timeout is no longer due, unless its expiry has been queued. -/
theorem dueAt_cancelAt (settled : Settled armed) :
    DueAt (cancelAt armed place) position task ↔ DueAt armed position task ∧ position ≠ place := by
  unfold DueAt
  rw [cancelAt_getElem]
  by_cases same : place = position
  · rw [if_pos same]
    constructor
    · rintro ⟨one, found, known, live⟩
      rcases Option.map_eq_some_iff.mp found with ⟨old, held, rfl⟩
      rw [cancel_due (settled old (List.mem_of_getElem? held))] at live
      cases live
    · rintro ⟨due, apart⟩
      exact absurd same.symm apart
  · rw [if_neg same]
    constructor
    · intro due
      exact ⟨due, Ne.symm same⟩
    · exact And.left

theorem settled_cancelAt (settled : Settled armed) : Settled (cancelAt armed place) := by
  intro one among
  rcases List.mem_iff_getElem?.mp among with ⟨index, found⟩
  rw [cancelAt_getElem] at found
  split at found
  · rcases Option.map_eq_some_iff.mp found with ⟨old, held, rfl⟩
    intro queued
    have gone := cancel_due (settled old (List.mem_of_getElem? held))
    unfold AsioDeadlineTimeout.isDue at gone
    rw [queued] at gone
    cases gone
  · exact settled one (List.mem_of_getElem? found)

/-- Replacing the timeout at a position decides about that position only. -/
theorem dueAt_set {one : ArmedTimeout Task}
    (found : armed[place]? = some one) :
    DueAt (armed.set place { one with timeout := timeout }) position task ↔
      if position = place then one.task = task ∧ timeout.isDue = true
      else DueAt armed position task := by
  have inside := (List.getElem?_eq_some_iff.mp found).1
  unfold DueAt
  by_cases same : position = place
  · subst same
    rw [if_pos rfl, List.getElem?_set_self inside]
    constructor
    · rintro ⟨other, replaced, known, live⟩
      cases replaced
      exact ⟨known, live⟩
    · rintro ⟨known, live⟩
      exact ⟨_, rfl, known, live⟩
  · rw [if_neg same, List.getElem?_set_ne (Ne.symm same)]

theorem dueAt_expireAt (expired : expireAt armed place = some after) :
    DueAt after position task ↔ DueAt armed position task := by
  unfold expireAt at expired
  cases found : armed[place]? with
  | none =>
      rw [found] at expired
      cases expired
  | some one =>
      rw [found] at expired
      cases waits : one.timeout.wait with
      | pending =>
          simp [AsioDeadlineTimeout.expire, waits] at expired
          subst expired
          rw [dueAt_set found]
          split
          · rename_i same
            subst same
            unfold DueAt
            rw [found]
            simp [AsioDeadlineTimeout.isDue, waits]
          · exact Iff.rfl
      | queued aborted => simp [AsioDeadlineTimeout.expire, waits] at expired
      | invoked => simp [AsioDeadlineTimeout.expire, waits] at expired

/-- A completion handler runs no task, or the task of a timeout that is due no more. -/
theorem handleAt_cases {ran : Option Task} (handled : handleAt armed place = some (after, ran)) :
    (ran = none ∧ ∀ position task, DueAt after position task ↔ DueAt armed position task) ∨
      ∃ task, ran = some task ∧ DueAt armed place task ∧
        ∀ position other, DueAt after position other ↔
          DueAt armed position other ∧ position ≠ place := by
  unfold handleAt at handled
  cases found : armed[place]? with
  | none =>
      rw [found] at handled
      cases handled
  | some one =>
      rw [found] at handled
      cases waits : one.timeout.wait with
      | pending => simp [AsioDeadlineTimeout.handle, waits] at handled
      | queued aborted =>
          cases aborted with
          | true =>
              simp [AsioDeadlineTimeout.handle, waits] at handled
              rcases handled with ⟨rfl, rfl⟩
              refine Or.inl ⟨rfl, ?_⟩
              intro position task
              rw [dueAt_set found]
              split
              · rename_i same
                subst same
                unfold DueAt
                rw [found]
                simp [AsioDeadlineTimeout.isDue, waits]
              · exact Iff.rfl
          | false =>
              simp [AsioDeadlineTimeout.handle, waits] at handled
              rcases handled with ⟨rfl, rfl⟩
              refine Or.inr ⟨one.task, rfl, ⟨one, found, rfl, ?_⟩, ?_⟩
              · unfold AsioDeadlineTimeout.isDue
                rw [waits]
                rfl
              · intro position other
                rw [dueAt_set found]
                split
                · rename_i same
                  constructor
                  · rintro ⟨known, live⟩
                    cases live
                  · rintro ⟨due, apart⟩
                    exact absurd same apart
                · rename_i apart
                  constructor
                  · intro due
                    exact ⟨due, apart⟩
                  · exact And.left
      | invoked => simp [AsioDeadlineTimeout.handle, waits] at handled

end Due

end ArmedTimeout

open ActionRuns ArmedTimeout

inductive IdleState where
  | readerIdle
  | writerIdle
  | allIdle
  deriving DecidableEq, Repr

/-- A `TimerTask*`: null, what the storage held before the constructor, or the task that was
created with a number. -/
inductive TaskPointer where
  | null
  | stale
  | task (number : Nat)
  deriving DecidableEq, Repr

/-- The arguments of the two constructors. -/
inductive IdleTimes where
  | seconds (times : IdleState → Int32)
  | within (times : IdleState → Int) (unit : TimeUnit)

namespace IdleTimes

def unit : IdleTimes → TimeUnit
  | seconds _ => .seconds
  | within _ unit => unit

def time (times : IdleTimes) (idle : IdleState) : Int :=
  match times with
  | seconds times => (times idle).toInt
  | within times _ => times idle

/-- The branch of the constructor for `readerIdleTime` and `writerIdleTime`. -/
def someMillis (unit : TimeUnit) (time : Int) : Int :=
  if time ≤ 0 then 0
  else if unit.toMillis time = 0 then 1 else unit.toMillis time

/-- The branch for `allIdleTime`, where the argument is tested and set in place of the field. -/
def allMillis (unit : TimeUnit) (time : Int) : Int :=
  if time ≤ 0 then 0 else unit.toMillis time

def millis (times : IdleTimes) (idle : IdleState) : Int :=
  match times with
  | seconds times => TimeUnit.seconds.toMillis (times idle).toInt
  | within times unit =>
      match idle with
      | .readerIdle => someMillis unit (times .readerIdle)
      | .writerIdle => someMillis unit (times .writerIdle)
      | .allIdle => allMillis unit (times .allIdle)

/-- Every positive time that is configured is a time in milliseconds. -/
def Scales (times : IdleTimes) : Prop :=
  ∀ idle, 0 < times.time idle →
    match idle with
    | .allIdle => 0 < times.unit.toMillis (times.time idle)
    | _ => 0 ≤ times.unit.toMillis (times.time idle)

theorem someMillis_positive {unit : TimeUnit} {time : Int} (enabled : 0 < time)
    (scales : 0 ≤ unit.toMillis time) : 0 < someMillis unit time := by
  unfold someMillis
  rw [if_neg (by omega)]
  split
  · decide
  · omega

theorem seconds_positive (time : Int32) (enabled : 0 < time.toInt) :
    0 < TimeUnit.seconds.toMillis time.toInt := by
  have upper := Int32.toInt_lt time
  rw [TimeUnit.toMillis_seconds (by omega) (by omega)]
  omega

/-- What is enabled is armed. -/
theorem millis_positive {times : IdleTimes} (scales : times.Scales) {idle : IdleState}
    (enabled : 0 < times.time idle) : 0 < times.millis idle := by
  have scaled := scales idle enabled
  cases times with
  | seconds times => exact seconds_positive _ enabled
  | within times unit =>
      cases idle with
      | readerIdle => exact someMillis_positive enabled scaled
      | writerIdle => exact someMillis_positive enabled scaled
      | allIdle =>
          unfold millis allMillis
          dsimp only
          rw [if_neg (show ¬times .allIdle ≤ 0 from Int.not_le.mpr enabled)]
          exact scaled

end IdleTimes

/-- The handler; the timeouts it has created, the channel and what has been sent upstream stand
beside its fields. Times are in microseconds. -/
structure IdleStateHandler where
  timer : Bool
  idleTimeMillis : IdleState → Int
  idleTimeout : IdleState → Option Nat
  timeoutTask : IdleState → TaskPointer
  lastReadTime : Int
  lastWriteTime : Int
  isOpen : Bool
  armed : List (ArmedTimeout (IdleState × TaskPointer))
  created : Nat
  idled : List (IdleState × Int)
  initialised : Bool
  faulted : Bool

inductive IdleEvent where
  | beforeAdd (attached : Bool) (now : Int)
  | channelOpen (now : Int)
  | messageReceived (now : Int)
  | writeCompleted (writtenAmount : Int) (now : Int)
  | expire (position : Nat)
  | handle (position : Nat) (now : Int)
  | close
  | channelClosed
  | beforeRemove
  deriving DecidableEq, Repr

namespace IdleStateHandler

/-- The order in which the three kinds are dealt with. -/
def kinds : List IdleState := [.readerIdle, .writerIdle, .allIdle]

def constructed (times : IdleTimes) (storage : IdleState → TaskPointer) : IdleStateHandler where
  timer := false
  idleTimeMillis := times.millis
  idleTimeout := fun _ => none
  timeoutTask := storage
  lastReadTime := 0
  lastWriteTime := 0
  isOpen := true
  armed := []
  created := 0
  idled := []
  initialised := false
  faulted := false

/-- `timer->newTimeout(task, delay)`, stored as the timeout of the kind. -/
def newTimeout (handler : IdleStateHandler) (idle : IdleState) (task : TaskPointer)
    (delay : Int) : IdleStateHandler :=
  if handler.timer then
    { handler with
      armed := ArmedTimeout.newTimeout handler.armed (idle, task) delay
      idleTimeout := Function.update handler.idleTimeout idle (some handler.armed.length) }
  else { handler with faulted := true }

def newTask (handler : IdleStateHandler) (idle : IdleState) : IdleStateHandler :=
  if handler.timeoutTask idle = .null then
    { handler with
      timeoutTask := Function.update handler.timeoutTask idle (.task handler.created)
      created := handler.created + 1 }
  else handler

def arm (handler : IdleStateHandler) (idle : IdleState) : IdleStateHandler :=
  if 0 < handler.idleTimeMillis idle then
    handler.newTimeout idle (handler.timeoutTask idle) (handler.idleTimeMillis idle)
  else handler

def initializeAt (handler : IdleStateHandler) (now : Int) : IdleStateHandler :=
  let timed := { handler with
    lastReadTime := now, lastWriteTime := now, timer := true, initialised := true }
  kinds.foldl arm (kinds.foldl newTask timed)

def cancelTimeout (handler : IdleStateHandler) (idle : IdleState) : IdleStateHandler :=
  match handler.idleTimeout idle with
  | some position =>
      { handler with
        armed := cancelAt handler.armed position
        idleTimeout := Function.update handler.idleTimeout idle none }
  | none => handler

def deleteTask (handler : IdleStateHandler) (idle : IdleState) : IdleStateHandler :=
  { handler with
    timeoutTask := Function.update handler.timeoutTask idle .null
    faulted := handler.faulted || handler.timeoutTask idle = .stale }

def destroy (handler : IdleStateHandler) : IdleStateHandler :=
  kinds.foldl deleteTask
    (kinds.foldl cancelTimeout { handler with timer := false, initialised := false })

def channelIdle (handler : IdleStateHandler) (idle : IdleState) (lastActivityTime : Int) :
    IdleStateHandler :=
  { handler with idled := handler.idled ++ [(idle, lastActivityTime)] }

/-- The body that the three tasks share. -/
def timeoutTaskRun (handler : IdleStateHandler) (idle : IdleState) (task : TaskPointer)
    (lastActivityTime now : Int) : IdleStateHandler :=
  if handler.isOpen then
    let nextDelay := handler.idleTimeMillis idle - (now - lastActivityTime).tdiv 1000
    if nextDelay ≤ 0 then
      (handler.newTimeout idle task (handler.idleTimeMillis idle)).channelIdle idle lastActivityTime
    else handler.newTimeout idle task nextDelay
  else handler

def readerIdleTimeoutTaskRun (handler : IdleStateHandler) (task : TaskPointer) (now : Int) :
    IdleStateHandler :=
  handler.timeoutTaskRun .readerIdle task handler.lastReadTime now

def writerIdleTimeoutTaskRun (handler : IdleStateHandler) (task : TaskPointer) (now : Int) :
    IdleStateHandler :=
  handler.timeoutTaskRun .writerIdle task handler.lastWriteTime now

def allIdleTimeoutTaskRun (handler : IdleStateHandler) (task : TaskPointer) (now : Int) :
    IdleStateHandler :=
  handler.timeoutTaskRun .allIdle task (max handler.lastWriteTime handler.lastReadTime) now

/-- `task.run(*this)` of a completion handler: the task must be one that has not been deleted. -/
def runTask (handler : IdleStateHandler) (idle : IdleState) (task : TaskPointer) (now : Int) :
    IdleStateHandler :=
  if task ≠ .stale ∧ handler.timeoutTask idle = task then
    match idle with
    | .readerIdle => handler.readerIdleTimeoutTaskRun task now
    | .writerIdle => handler.writerIdleTimeoutTaskRun task now
    | .allIdle => handler.allIdleTimeoutTaskRun task now
  else { handler with faulted := true }

def handleAt (handler : IdleStateHandler) (position : Nat) (now : Int) :
    Option IdleStateHandler := do
  let (armed, ran) ← ArmedTimeout.handleAt handler.armed position
  let handled := { handler with armed := armed }
  match ran with
  | none => pure handled
  | some (idle, task) => pure (handled.runTask idle task now)

def expireAt (handler : IdleStateHandler) (position : Nat) : Option IdleStateHandler := do
  let armed ← ArmedTimeout.expireAt handler.armed position
  pure { handler with armed := armed }

/-- Nothing is said of what follows a fault. -/
def next (handler : IdleStateHandler) (event : IdleEvent) : Option IdleStateHandler :=
  if handler.faulted then none
  else
    match event with
    | .beforeAdd attached now => some (if attached then handler.initializeAt now else handler)
    | .channelOpen now => some (handler.initializeAt now)
    | .messageReceived now => some { handler with lastReadTime := now }
    | .writeCompleted writtenAmount now =>
        some (if 0 < writtenAmount then { handler with lastWriteTime := now } else handler)
    | .expire position => handler.expireAt position
    | .handle position now => handler.handleAt position now
    | .close => some { handler with isOpen := false }
    | .channelClosed => some handler.destroy
    | .beforeRemove => some handler.destroy

def idleStep (before : IdleStateHandler) (event : IdleEvent) (after : IdleStateHandler) : Prop :=
  before.next event = some after

/-- One due timeout of every enabled kind while the channel is open and the handler initialised,
and no timeout that is due and not cancelled when the handler is destroyed. -/
structure Disciplined (times : IdleTimes) (handler : IdleStateHandler) : Prop where
  sound : handler.faulted = false
  single : handler.isOpen = true → handler.initialised = true → ∀ idle, 0 < times.time idle →
    ∃! position, ∃ task, DueAt handler.armed position (idle, task)
  dismissed : handler.initialised = false →
    ∀ one ∈ handler.armed, ¬(one.timeout.isDue = true ∧ one.timeout.isCancelled = false)

/-- An initialisation finds no timeout due, and `destroy` no expiry queued. -/
def Orderly (handler : IdleStateHandler) : IdleEvent → Prop
  | .beforeAdd true _ => ∀ position task, ¬DueAt handler.armed position task
  | .channelOpen _ => ∀ position task, ¬DueAt handler.armed position task
  | .channelClosed => ArmedTimeout.Settled handler.armed
  | .beforeRemove => ArmedTimeout.Settled handler.armed
  | _ => True

/-- The invariant of the runs whose events are orderly. -/
structure Tended (times : IdleTimes) (handler : IdleStateHandler) : Prop where
  sound : handler.faulted = false
  configured : handler.idleTimeMillis = times.millis
  ready : handler.initialised = true → handler.timer = true ∧
    ∀ idle, ∃ number, handler.timeoutTask idle = .task number
  gone : handler.initialised = false → ∀ idle, handler.timeoutTask idle = .null
  stored : ∀ position idle task, DueAt handler.armed position (idle, task) →
    handler.initialised = true ∧ handler.idleTimeout idle = some position ∧
      handler.timeoutTask idle = task
  live : handler.isOpen = true → handler.initialised = true → ∀ idle,
    0 < handler.idleTimeMillis idle →
    ∃ position task, DueAt handler.armed position (idle, task)

section Steps

variable {times : IdleTimes} {handler after : IdleStateHandler} {idle : IdleState}
  {armed : List (ArmedTimeout (IdleState × TaskPointer))} {place : Nat} {task : TaskPointer}
  {delay now : Int}

theorem newTimeout_timed (timed : handler.timer = true) :
    handler.newTimeout idle task delay = { handler with
      armed := ArmedTimeout.newTimeout handler.armed (idle, task) delay
      idleTimeout := Function.update handler.idleTimeout idle (some handler.armed.length) } :=
  if_pos timed

/-- The task of one kind is created, and what another kind has stays. -/
theorem newTask_creates (idle : IdleState) (clean : ∀ other, handler.timeoutTask other ≠ .stale) :
    ∃ tasks created, handler.newTask idle =
        { handler with timeoutTask := tasks, created := created } ∧
      (∃ number, tasks idle = .task number) ∧
      (∀ other, tasks other ≠ .stale) ∧
      ∀ other, (∃ number, handler.timeoutTask other = .task number) →
        ∃ number, tasks other = .task number := by
  unfold newTask
  split
  · rename_i empty
    refine ⟨_, _, rfl, ⟨handler.created, Function.update_self _ _ _⟩, ?_, ?_⟩
    · intro other
      by_cases same : other = idle
      · subst same
        rw [Function.update_self]
        exact TaskPointer.noConfusion
      · rw [Function.update_of_ne same]
        exact clean other
    · rintro other ⟨number, held⟩
      have apart : other ≠ idle := by
        intro same
        rw [same, empty] at held
        cases held
      exact ⟨number, (Function.update_of_ne apart _ _).trans held⟩
  · rename_i filled
    refine ⟨handler.timeoutTask, handler.created, rfl, ?_, clean, fun other held => held⟩
    cases holds : handler.timeoutTask idle with
    | null => exact absurd holds filled
    | stale => exact absurd holds (clean idle)
    | task number => exact ⟨number, rfl⟩

theorem newTasks_create (clean : ∀ other, handler.timeoutTask other ≠ .stale) :
    ∃ tasks created, kinds.foldl newTask handler =
        { handler with timeoutTask := tasks, created := created } ∧
      ∀ other, ∃ number, tasks other = .task number := by
  rcases newTask_creates .readerIdle clean with ⟨one, _, made, reads, cleaned, _⟩
  have cleans : ∀ other, (handler.newTask .readerIdle).timeoutTask other ≠ .stale := by
    rw [made]
    exact cleaned
  rcases newTask_creates .writerIdle cleans with ⟨two, _, makes, writes, clear, keeps⟩
  have clears : ∀ other,
      ((handler.newTask .readerIdle).newTask .writerIdle).timeoutTask other ≠ .stale := by
    rw [makes]
    exact clear
  rcases newTask_creates .allIdle clears with ⟨three, created, wholly, alls, _, holds⟩
  refine ⟨three, created, ?_, ?_⟩
  · unfold kinds
    rw [List.foldl_cons, List.foldl_cons, List.foldl_cons, List.foldl_nil, wholly, makes, made]
  · rw [makes] at holds
    rw [made] at keeps
    intro other
    cases other with
    | readerIdle => exact holds _ (keeps _ reads)
    | writerIdle => exact holds _ writes
    | allIdle => exact alls

/-- The kinds that have been armed, each with the one timeout that is stored. -/
structure Arming (handler : IdleStateHandler) (done : IdleState → Prop) : Prop where
  timed : handler.timer = true
  stored : ∀ position idle task, DueAt handler.armed position (idle, task) →
    done idle ∧ handler.idleTimeout idle = some position ∧ handler.timeoutTask idle = task
  live : ∀ idle, done idle → 0 < handler.idleTimeMillis idle →
    ∃ position task, DueAt handler.armed position (idle, task)

theorem arm_frame (idle : IdleState) (timed : handler.timer = true) :
    ∃ armed stored, handler.arm idle = { handler with armed := armed, idleTimeout := stored } := by
  unfold arm
  split
  · rw [newTimeout_timed timed]
    exact ⟨_, _, rfl⟩
  · exact ⟨handler.armed, handler.idleTimeout, rfl⟩

theorem arming_newTimeout {done : IdleState → Prop} (arming : Arming handler done)
    (fresh : ¬done idle) :
    Arming (handler.newTimeout idle (handler.timeoutTask idle) delay)
      fun other => other = idle ∨ done other := by
  rw [newTimeout_timed arming.timed]
  refine ⟨arming.timed, ?_, ?_⟩
  · intro position other task due
    rcases dueAt_newTimeout.mp due with old | ⟨rfl, made⟩
    · have known := arming.stored position other task old
      have apart : other ≠ idle := by
        intro same
        exact fresh (same ▸ known.1)
      exact ⟨Or.inr known.1, (Function.update_of_ne apart _ _).trans known.2.1, known.2.2⟩
    · cases made
      exact ⟨Or.inl rfl, Function.update_self _ _ _, rfl⟩
  · intro other among enabled
    rcases among with rfl | old
    · exact ⟨_, _, dueAt_newTimeout.mpr (Or.inr ⟨rfl, rfl⟩)⟩
    · rcases arming.live other old enabled with ⟨position, task, due⟩
      exact ⟨position, task, dueAt_newTimeout.mpr (Or.inl due)⟩

theorem arming_arm {done : IdleState → Prop} (idle : IdleState) (arming : Arming handler done)
    (fresh : ¬done idle) :
    Arming (handler.arm idle) fun other => other = idle ∨ done other := by
  unfold arm
  split
  · exact arming_newTimeout arming fresh
  · rename_i disabled
    refine ⟨arming.timed, ?_, ?_⟩
    · intro position other task due
      have known := arming.stored position other task due
      exact ⟨Or.inr known.1, known.2⟩
    · intro other among enabled
      rcases among with rfl | old
      · exact absurd enabled disabled
      · exact arming.live other old enabled

/-- All kinds are armed by one pass. -/
theorem armed_all (timed : handler.timer = true)
    (quiet : ∀ position task, ¬DueAt handler.armed position task) :
    ∃ armed stored, kinds.foldl arm handler =
        { handler with armed := armed, idleTimeout := stored } ∧
      Arming { handler with armed := armed, idleTimeout := stored } fun _ => True := by
  have begun : Arming handler fun _ => False := by
    refine ⟨timed, ?_, ?_⟩
    · intro position idle task due
      exact absurd due (quiet position (idle, task))
    · intro idle among
      exact among.elim
  have one := arming_arm .readerIdle begun id
  have two := arming_arm .writerIdle one (by simp)
  have three := arming_arm .allIdle two (by simp)
  rcases arm_frame .readerIdle timed with ⟨_, _, reads⟩
  rcases arm_frame .writerIdle one.timed with ⟨_, _, writes⟩
  rcases arm_frame .allIdle two.timed with ⟨armed, stored, alls⟩
  have whole : kinds.foldl arm handler =
      { handler with armed := armed, idleTimeout := stored } := by
    unfold kinds
    rw [List.foldl_cons, List.foldl_cons, List.foldl_cons, List.foldl_nil, alls, writes, reads]
  have passed : ((handler.arm .readerIdle).arm .writerIdle).arm .allIdle =
      { handler with armed := armed, idleTimeout := stored } := whole
  refine ⟨armed, stored, whole, ?_⟩
  rw [passed] at three
  refine ⟨three.timed, ?_, ?_⟩
  · intro position idle task due
    exact ⟨trivial, (three.stored position idle task due).2⟩
  · intro idle among
    apply three.live idle
    cases idle with
    | readerIdle => exact Or.inr (Or.inr (Or.inl rfl))
    | writerIdle => exact Or.inr (Or.inl rfl)
    | allIdle => exact Or.inl rfl

/-- A handler that is tended holds no wild task pointer. -/
theorem tended_clean (tended : Tended times handler) (idle : IdleState) :
    handler.timeoutTask idle ≠ .stale := by
  intro wrong
  cases begun : handler.initialised with
  | true =>
      rcases (tended.ready begun).2 idle with ⟨number, held⟩
      rw [wrong] at held
      cases held
  | false =>
      rw [tended.gone begun idle] at wrong
      cases wrong

theorem tended_initializeAt (tended : Tended times handler)
    (quiet : ∀ position task, ¬DueAt handler.armed position task) :
    Tended times (handler.initializeAt now) := by
  have clean := tended_clean tended
  unfold initializeAt
  dsimp only
  generalize held : ({ handler with
    lastReadTime := now, lastWriteTime := now, timer := true, initialised := true } :
      IdleStateHandler) = timed
  have cleans : ∀ idle, timed.timeoutTask idle ≠ .stale := by
    rw [← held]
    exact clean
  rcases newTasks_create cleans with ⟨tasks, created, made, numbered⟩
  rw [made]
  generalize holds : ({ timed with timeoutTask := tasks, created := created } :
      IdleStateHandler) = ready
  subst held
  have quiets : ∀ position task, ¬DueAt ready.armed position task := by
    rw [← holds]
    exact quiet
  have timer : ready.timer = true := by rw [← holds]
  rcases armed_all timer quiets with ⟨armed, stored, whole, arming⟩
  rw [whole]
  subst holds
  exact
    { sound := tended.sound
      configured := tended.configured
      ready := fun _ => ⟨rfl, numbered⟩
      gone := fun wrong => absurd wrong (by simp)
      stored := fun position idle task due => ⟨rfl, (arming.stored position idle task due).2⟩
      live := fun _ _ idle enabled => arming.live idle trivial enabled }

/-- The kinds whose timeout is left to cancel. -/
structure Cancelling (handler : IdleStateHandler) (left : IdleState → Prop) : Prop where
  settled : ArmedTimeout.Settled handler.armed
  stored : ∀ position idle task, DueAt handler.armed position (idle, task) →
    left idle ∧ handler.idleTimeout idle = some position

theorem cancelTimeout_frame (handler : IdleStateHandler) (idle : IdleState) :
    ∃ armed stored, handler.cancelTimeout idle =
      { handler with armed := armed, idleTimeout := stored } := by
  unfold cancelTimeout
  split
  · exact ⟨_, _, rfl⟩
  · exact ⟨handler.armed, handler.idleTimeout, rfl⟩

theorem cancelling_cancelTimeout {left : IdleState → Prop} (idle : IdleState)
    (cancelling : Cancelling handler left) :
    Cancelling (handler.cancelTimeout idle) fun other => left other ∧ other ≠ idle := by
  unfold cancelTimeout
  cases held : handler.idleTimeout idle with
  | none =>
      refine ⟨cancelling.settled, ?_⟩
      intro position other task due
      have known := cancelling.stored position other task due
      refine ⟨⟨known.1, ?_⟩, known.2⟩
      intro same
      rw [same, held] at known
      cases known.2
  | some cancelled =>
      refine ⟨settled_cancelAt cancelling.settled, ?_⟩
      intro position other task due
      rcases (dueAt_cancelAt cancelling.settled).mp due with ⟨old, apart⟩
      have known := cancelling.stored position other task old
      have differs : other ≠ idle := by
        intro same
        rw [same, held] at known
        exact apart (Option.some.inj known.2).symm
      exact ⟨⟨known.1, differs⟩, (Function.update_of_ne differs _ _).trans known.2⟩

/-- Where no expiry is queued, cancelling the stored timeouts leaves none due. -/
theorem cancelled_all (settled : ArmedTimeout.Settled handler.armed)
    (stored : ∀ position idle task, DueAt handler.armed position (idle, task) →
      handler.idleTimeout idle = some position) :
    ∃ armed timeouts, kinds.foldl cancelTimeout handler =
        { handler with armed := armed, idleTimeout := timeouts } ∧
      ∀ position task, ¬DueAt armed position task := by
  have begun : Cancelling handler fun _ => True := by
    refine ⟨settled, ?_⟩
    intro position idle task due
    exact ⟨trivial, stored position idle task due⟩
  have one := cancelling_cancelTimeout .readerIdle begun
  have two := cancelling_cancelTimeout .writerIdle one
  have three := cancelling_cancelTimeout .allIdle two
  rcases cancelTimeout_frame handler .readerIdle with ⟨_, _, reads⟩
  rcases cancelTimeout_frame (handler.cancelTimeout .readerIdle) .writerIdle with ⟨_, _, writes⟩
  rcases cancelTimeout_frame ((handler.cancelTimeout .readerIdle).cancelTimeout .writerIdle)
    .allIdle with ⟨armed, timeouts, alls⟩
  have whole : kinds.foldl cancelTimeout handler =
      { handler with armed := armed, idleTimeout := timeouts } := by
    unfold kinds
    rw [List.foldl_cons, List.foldl_cons, List.foldl_cons, List.foldl_nil, alls, writes, reads]
  have passed : ((handler.cancelTimeout .readerIdle).cancelTimeout .writerIdle).cancelTimeout
      .allIdle = { handler with armed := armed, idleTimeout := timeouts } := whole
  refine ⟨armed, timeouts, whole, ?_⟩
  rw [passed] at three
  rintro position ⟨idle, task⟩ due
  have left := (three.stored position idle task due).1
  cases idle with
  | readerIdle => exact left.1.1.2 rfl
  | writerIdle => exact left.1.2 rfl
  | allIdle => exact left.2 rfl

/-- Deleting tasks that are no wild pointers. -/
theorem deleted_all (clean : ∀ idle, handler.timeoutTask idle ≠ .stale) :
    kinds.foldl deleteTask handler = { handler with timeoutTask := fun _ => .null } := by
  have one : handler.deleteTask .readerIdle =
      { handler with timeoutTask := Function.update handler.timeoutTask .readerIdle .null } := by
    simp [deleteTask, clean]
  unfold kinds
  rw [List.foldl_cons, List.foldl_cons, List.foldl_cons, List.foldl_nil, one]
  simp only [deleteTask, ne_eq, reduceCtorEq, not_false_eq_true, Function.update_of_ne, clean,
    decide_false, Bool.or_false]
  congr 1
  funext idle
  cases idle with
  | readerIdle => rfl
  | writerIdle => rfl
  | allIdle => rfl

section

variable (tended : Tended times handler)

include tended

theorem tended_destroy (settled : ArmedTimeout.Settled handler.armed) :
    Tended times handler.destroy := by
  have clean := tended_clean tended
  unfold destroy
  generalize held : ({ handler with timer := false, initialised := false } :
      IdleStateHandler) = closed
  have settles : ArmedTimeout.Settled closed.armed := by
    rw [← held]
    exact settled
  have stored : ∀ position idle task, DueAt closed.armed position (idle, task) →
      closed.idleTimeout idle = some position := by
    rw [← held]
    intro position idle task due
    exact (tended.stored position idle task due).2.1
  rcases cancelled_all settles stored with ⟨armed, timeouts, whole, quiet⟩
  rw [whole]
  subst held
  rw [deleted_all (by exact clean)]
  exact
    { sound := tended.sound
      configured := tended.configured
      ready := fun wrong => absurd wrong (by simp)
      gone := fun _ _ => rfl
      stored := fun position idle task due => absurd due (quiet position (idle, task))
      live := fun _ wrong => absurd wrong (by simp) }

/-- A timeout that has fired is replaced by a new one of its kind. -/
theorem tended_rearmed (due : DueAt handler.armed place (idle, task))
    (shrunk : ∀ position other, DueAt armed position other ↔
      DueAt handler.armed position other ∧ position ≠ place) :
    Tended times (({ handler with armed := armed } : IdleStateHandler).newTimeout idle task
      delay) := by
  have known := tended.stored place idle task due
  have timed : ({ handler with armed := armed } : IdleStateHandler).timer = true :=
    (tended.ready known.1).1
  rw [newTimeout_timed timed]
  exact
    { sound := tended.sound
      configured := tended.configured
      ready := tended.ready
      gone := tended.gone
      stored := by
        intro position other held armed_
        rcases dueAt_newTimeout.mp armed_ with old | ⟨rfl, made⟩
        · have before := (shrunk position _).mp old
          have stays := tended.stored position other held before.1
          have apart : other ≠ idle := by
            intro same
            rw [same, known.2.1] at stays
            exact before.2 (Option.some.inj stays.2.1).symm
          exact ⟨stays.1, (Function.update_of_ne apart _ _).trans stays.2.1, stays.2.2⟩
        · cases made
          exact ⟨known.1, Function.update_self _ _ _, known.2.2⟩
      live := by
        intro opened begun other enabled
        by_cases same : other = idle
        · subst same
          exact ⟨_, _, dueAt_newTimeout.mpr (Or.inr ⟨rfl, rfl⟩)⟩
        · rcases tended.live opened begun other enabled with ⟨position, held, lives⟩
          refine ⟨position, held, dueAt_newTimeout.mpr (Or.inl ((shrunk _ _).mpr ⟨lives, ?_⟩))⟩
          intro here
          rw [here] at lives
          exact same (congrArg Prod.fst (dueAt_task lives due)) }

theorem tended_channelIdle :
    Tended times (handler.channelIdle idle now) :=
  ⟨tended.sound, tended.configured, tended.ready, tended.gone, tended.stored, tended.live⟩

end

/-- The task of a due timeout arms one timeout on an open channel, and none on a closed one. -/
theorem tended_timeoutTaskRun {lastActivityTime : Int} (tended : Tended times handler)
    (due : DueAt handler.armed place (idle, task))
    (shrunk : ∀ position other, DueAt armed position other ↔
      DueAt handler.armed position other ∧ position ≠ place) :
    Tended times (({ handler with armed := armed } : IdleStateHandler).timeoutTaskRun idle task
      lastActivityTime now) := by
  unfold timeoutTaskRun
  split
  · dsimp only
    split
    · exact tended_channelIdle (tended_rearmed tended due shrunk)
    · exact tended_rearmed tended due shrunk
  · rename_i closed
    exact
      { sound := tended.sound
        configured := tended.configured
        ready := tended.ready
        gone := tended.gone
        stored := by
          intro position other held lives
          exact tended.stored position other held ((shrunk _ _).mp lives).1
        live := by
          intro opened
          exact absurd opened closed }

section

variable (tended : Tended times handler)

include tended

theorem tended_runTask (due : DueAt handler.armed place (idle, task))
    (shrunk : ∀ position other, DueAt armed position other ↔
      DueAt handler.armed position other ∧ position ≠ place) :
    Tended times (({ handler with armed := armed } : IdleStateHandler).runTask idle task now) := by
  have known := tended.stored place idle task due
  have created : task ≠ .stale := by
    rw [← known.2.2]
    exact tended_clean tended idle
  unfold runTask
  rw [if_pos ⟨created, known.2.2⟩]
  cases idle with
  | readerIdle => exact tended_timeoutTaskRun tended due shrunk
  | writerIdle => exact tended_timeoutTaskRun tended due shrunk
  | allIdle => exact tended_timeoutTaskRun tended due shrunk

/-- Timeouts that are due at the same places. -/
theorem tended_same
    (same : ∀ position other, DueAt armed position other ↔ DueAt handler.armed position other) :
    Tended times { handler with armed := armed } where
  sound := tended.sound
  configured := tended.configured
  ready := tended.ready
  gone := tended.gone
  stored := by
    intro position idle task due
    exact tended.stored position idle task ((same _ _).mp due)
  live := by
    intro opened begun idle enabled
    rcases tended.live opened begun idle enabled with ⟨position, task, due⟩
    exact ⟨position, task, (same _ _).mpr due⟩

theorem tended_expireAt (expired : handler.expireAt place = some after) : Tended times after := by
  unfold expireAt at expired
  cases made : ArmedTimeout.expireAt handler.armed place with
  | none =>
      rw [made] at expired
      cases expired
  | some armed =>
      rw [made] at expired
      cases expired
      exact tended_same tended (fun _ _ => dueAt_expireAt made)

theorem tended_handleAt
    (handled : handler.handleAt place now = some after) : Tended times after := by
  unfold handleAt at handled
  cases made : ArmedTimeout.handleAt handler.armed place with
  | none =>
      rw [made] at handled
      cases handled
  | some result =>
      rcases result with ⟨armed, ran⟩
      rw [made] at handled
      rcases handleAt_cases made with ⟨rfl, same⟩ | ⟨⟨idle, task⟩, rfl, due, shrunk⟩
      · cases handled
        exact tended_same tended same
      · cases handled
        exact tended_runTask tended due shrunk

end

theorem tended_next {event : IdleEvent} (tended : Tended times handler)
    (orderly : Orderly handler event) (step : idleStep handler event after) :
    Tended times after := by
  unfold idleStep next at step
  rw [if_neg (Bool.eq_false_iff.mp tended.sound)] at step
  cases event with
  | beforeAdd attached now =>
      rw [← Option.some.inj step]
      cases attached with
      | true =>
          rw [if_pos rfl]
          exact tended_initializeAt tended orderly
      | false =>
          rw [if_neg Bool.false_ne_true]
          exact tended
  | channelOpen now =>
      rw [← Option.some.inj step]
      exact tended_initializeAt tended orderly
  | messageReceived now =>
      rw [← Option.some.inj step]
      exact ⟨tended.sound, tended.configured, tended.ready, tended.gone, tended.stored,
        tended.live⟩
  | writeCompleted writtenAmount now =>
      rw [← Option.some.inj step]
      split
      · exact ⟨tended.sound, tended.configured, tended.ready, tended.gone, tended.stored,
          tended.live⟩
      · exact tended
  | expire position => exact tended_expireAt tended step
  | handle position now => exact tended_handleAt tended step
  | close =>
      rw [← Option.some.inj step]
      exact ⟨tended.sound, tended.configured, tended.ready, tended.gone, tended.stored,
        fun wrong => absurd wrong (by simp)⟩
  | channelClosed =>
      rw [← Option.some.inj step]
      exact tended_destroy tended orderly
  | beforeRemove =>
      rw [← Option.some.inj step]
      exact tended_destroy tended orderly

theorem disciplined (scales : times.Scales) (tended : Tended times handler) :
    Disciplined times handler where
  sound := tended.sound
  single := by
    intro opened begun idle enabled
    have armed : 0 < handler.idleTimeMillis idle := by
      rw [tended.configured]
      exact IdleTimes.millis_positive scales enabled
    rcases tended.live opened begun idle armed with ⟨position, task, due⟩
    refine ⟨position, ⟨task, due⟩, ?_⟩
    rintro other ⟨held, lives⟩
    have one := (tended.stored position idle task due).2.1
    have two := (tended.stored other idle held lives).2.1
    exact Option.some.inj (two.symm.trans one)
  dismissed := by
    rintro ended ⟨⟨idle, task⟩, delay, timeout⟩ among ⟨due, active⟩
    rcases List.mem_iff_getElem?.mp among with ⟨position, found⟩
    have begun := (tended.stored position idle task ⟨_, found, rfl, due⟩).1
    rw [ended] at begun
    cases begun

theorem tended_constructed : Tended times (constructed times fun _ => .null) where
  sound := rfl
  configured := rfl
  ready := fun wrong => absurd wrong (by simp [constructed])
  gone := fun _ _ => rfl
  stored := by
    rintro position idle task ⟨one, found, same, due⟩
    cases found
  live := fun _ wrong => absurd wrong (by simp [constructed])

end Steps

/-- Every state reached by orderly events is disciplined. -/
theorem disciplined_run {times : IdleTimes} (scales : times.Scales) {events : List IdleEvent}
    {final : IdleStateHandler}
    (run : Run (Guarded Orderly idleStep) (constructed times fun _ => .null) events final) :
    Disciplined times final := by
  apply disciplined scales
  apply run.invariant _ tended_constructed
  intro before event after tended guarded
  exact tended_next tended guarded.1 guarded.2

end IdleStateHandler

end Cetty
