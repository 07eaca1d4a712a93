import Cetty.IdleStateHandler

/-!
# ReadTimeoutHandler

The handler with the one timeout it keeps. Its task is bound to the handler, and `destroy` leaves
the timer in place.
-/

namespace Cetty

open ActionRuns ArmedTimeout

/-- The arguments of the two constructors. -/
inductive ReadTime where
  | seconds (time : Int32)
  | within (time : Int) (unit : TimeUnit)

namespace ReadTime

def time : ReadTime → Int
  | seconds time => time.toInt
  | within time _ => time

def millis : ReadTime → Int
  | seconds time => if time.toInt ≤ 0 then 0 else TimeUnit.seconds.toMillis time.toInt
  | within time unit => IdleTimes.someMillis unit time

/-- A positive time is armed, whatever its conversion makes of it. -/
theorem millis_armed {read : ReadTime} (enabled : 0 < read.time) : read.millis ≠ 0 := by
  cases read with
  | seconds time =>
      have positive := IdleTimes.seconds_positive time enabled
      unfold ReadTime.time at enabled
      unfold millis
      dsimp only at enabled ⊢
      rw [if_neg (by omega)]
      omega
  | within time unit =>
      unfold ReadTime.time at enabled
      unfold millis IdleTimes.someMillis
      dsimp only at enabled ⊢
      rw [if_neg (by omega)]
      split
      · decide
      · assumption

end ReadTime

/-- The handler, with its timeouts, the channel and the number of exceptions it has raised. -/
structure ReadTimeoutHandler where
  timer : Bool
  timeout : Option Nat
  timeoutMillis : Int
  lastReadTime : Int
  isOpen : Bool
  armed : List (ArmedTimeout Unit)
  raised : Nat
  initialised : Bool
  faulted : Bool

inductive ReadEvent where
  | beforeAdd (attached : Bool) (now : Int)
  | channelOpen (now : Int)
  | messageReceived (now : Int)
  | writeCompleted
  | expire (position : Nat)
  | handle (position : Nat) (now : Int)
  | close
  | channelClosed
  | beforeRemove
  deriving DecidableEq, Repr

namespace ReadTimeoutHandler

def constructed (read : ReadTime) : ReadTimeoutHandler where
  timer := false
  timeout := none
  timeoutMillis := read.millis
  lastReadTime := 0
  isOpen := true
  armed := []
  raised := 0
  initialised := false
  faulted := false

/-- `timer->newTimeout(…, delay)`, stored as the timeout. -/
def newTimeout (handler : ReadTimeoutHandler) (delay : Int) : ReadTimeoutHandler :=
  if handler.timer then
    { handler with
      armed := ArmedTimeout.newTimeout handler.armed () delay
      timeout := some handler.armed.length }
  else { handler with faulted := true }

def initializeAt (handler : ReadTimeoutHandler) (now : Int) : ReadTimeoutHandler :=
  if handler.timeoutMillis = 0 then { handler with initialised := true }
  else
    let timed := { handler with lastReadTime := now, timer := true, initialised := true }
    timed.newTimeout timed.timeoutMillis

def destroy (handler : ReadTimeoutHandler) : ReadTimeoutHandler :=
  match handler.timeout with
  | some position =>
      { handler with
        armed := cancelAt handler.armed position
        timeout := none
        initialised := false }
  | none => { handler with initialised := false }

def readTimedOut (handler : ReadTimeoutHandler) : ReadTimeoutHandler :=
  { handler with raised := handler.raised + 1 }

def handleReadTimeout (handler : ReadTimeoutHandler) (now : Int) : ReadTimeoutHandler :=
  if handler.isOpen then
    let nextDelay := handler.timeoutMillis - (now - handler.lastReadTime).tdiv 1000
    if nextDelay ≤ 0 then (handler.newTimeout handler.timeoutMillis).readTimedOut
    else handler.newTimeout nextDelay
  else handler

def handleAt (handler : ReadTimeoutHandler) (position : Nat) (now : Int) :
    Option ReadTimeoutHandler := do
  let (armed, ran) ← ArmedTimeout.handleAt handler.armed position
  let handled := { handler with armed := armed }
  match ran with
  | none => pure handled
  | some () => pure (handled.handleReadTimeout now)

def expireAt (handler : ReadTimeoutHandler) (position : Nat) : Option ReadTimeoutHandler := do
  let armed ← ArmedTimeout.expireAt handler.armed position
  pure { handler with armed := armed }

def next (handler : ReadTimeoutHandler) (event : ReadEvent) : Option ReadTimeoutHandler :=
  if handler.faulted then none
  else
    match event with
    | .beforeAdd attached now => some (if attached then handler.initializeAt now else handler)
    | .channelOpen now => some (handler.initializeAt now)
    | .messageReceived now => some { handler with lastReadTime := now }
    | .writeCompleted => some handler
    | .expire position => handler.expireAt position
    | .handle position now => handler.handleAt position now
    | .close => some { handler with isOpen := false }
    | .channelClosed => some handler.destroy
    | .beforeRemove => some handler.destroy

def readStep (before : ReadTimeoutHandler) (event : ReadEvent) (after : ReadTimeoutHandler) : Prop :=
  before.next event = some after

/-- As for the idle kinds, with the one timeout. -/
structure Disciplined (read : ReadTime) (handler : ReadTimeoutHandler) : Prop where
  sound : handler.faulted = false
  single : handler.isOpen = true → handler.initialised = true → 0 < read.time →
    ∃! position, DueAt handler.armed position ()
  dismissed : handler.initialised = false →
    ∀ one ∈ handler.armed, ¬(one.timeout.isDue = true ∧ one.timeout.isCancelled = false)

/-- An initialisation finds no timeout due, and `destroy` no expiry queued. -/
def Orderly (handler : ReadTimeoutHandler) : ReadEvent → Prop
  | .beforeAdd true _ => ∀ position, ¬DueAt handler.armed position ()
  | .channelOpen _ => ∀ position, ¬DueAt handler.armed position ()
  | .channelClosed => ArmedTimeout.Settled handler.armed
  | .beforeRemove => ArmedTimeout.Settled handler.armed
  | _ => True

/-- The invariant of the runs whose events are orderly. -/
structure Tended (read : ReadTime) (handler : ReadTimeoutHandler) : Prop where
  sound : handler.faulted = false
  configured : handler.timeoutMillis = read.millis
  stored : ∀ position, DueAt handler.armed position () →
    handler.initialised = true ∧ handler.timer = true ∧ handler.timeout = some position
  live : handler.isOpen = true → handler.initialised = true → handler.timeoutMillis ≠ 0 →
    ∃ position, DueAt handler.armed position ()

section Steps

variable {read : ReadTime} {handler after : ReadTimeoutHandler} {armed : List (ArmedTimeout Unit)}
  {place : Nat} {delay now : Int}

/-- What arms the timeout where no other is due. -/
theorem tended_newTimeout (sound : handler.faulted = false)
    (configured : handler.timeoutMillis = read.millis) (begun : handler.initialised = true)
    (timed : handler.timer = true) (quiet : ∀ position, ¬DueAt handler.armed position ()) :
    Tended read (handler.newTimeout delay) := by
  unfold newTimeout
  rw [if_pos timed]
  refine ⟨sound, configured, ?_, ?_⟩
  · intro position due
    rcases dueAt_newTimeout.mp due with old | ⟨rfl, made⟩
    · exact absurd old (quiet position)
    · exact ⟨begun, timed, rfl⟩
  · intro opened started enabled
    exact ⟨_, dueAt_newTimeout.mpr (Or.inr ⟨rfl, rfl⟩)⟩

section

variable (tended : Tended read handler)

include tended

theorem tended_initializeAt (quiet : ∀ position, ¬DueAt handler.armed position ()) :
    Tended read (handler.initializeAt now) := by
  unfold initializeAt
  split
  · rename_i disabled
    refine ⟨tended.sound, tended.configured, ?_, ?_⟩
    · intro position due
      exact absurd due (quiet position)
    · intro opened begun enabled
      exact absurd disabled enabled
  · dsimp only
    apply tended_newTimeout
    · exact tended.sound
    · exact tended.configured
    · rfl
    · rfl
    · exact quiet

theorem tended_destroy (settled : ArmedTimeout.Settled handler.armed) :
    Tended read handler.destroy := by
  unfold destroy
  cases held : handler.timeout with
  | none =>
      refine ⟨tended.sound, tended.configured, ?_, fun _ wrong => absurd wrong (by simp)⟩
      intro position due
      have known := (tended.stored position due).2.2
      rw [held] at known
      cases known
  | some cancelled =>
      refine ⟨tended.sound, tended.configured, ?_, fun _ wrong => absurd wrong (by simp)⟩
      intro position due
      rcases (dueAt_cancelAt settled).mp due with ⟨old, apart⟩
      have known := (tended.stored position old).2.2
      rw [held] at known
      exact absurd (Option.some.inj known).symm apart

theorem tended_same
    (same : ∀ position other, DueAt armed position other ↔ DueAt handler.armed position other) :
    Tended read { handler with armed := armed } where
  sound := tended.sound
  configured := tended.configured
  stored := by
    intro position due
    exact tended.stored position ((same _ _).mp due)
  live := by
    intro opened begun enabled
    rcases tended.live opened begun enabled with ⟨position, due⟩
    exact ⟨position, (same _ _).mpr due⟩

/-- The one timeout that was due has fired. -/
theorem tended_handleReadTimeout (due : DueAt handler.armed place ())
    (shrunk : ∀ position other, DueAt armed position other ↔
      DueAt handler.armed position other ∧ position ≠ place) :
    Tended read (({ handler with armed := armed } : ReadTimeoutHandler).handleReadTimeout now) := by
  have known := tended.stored place due
  have quiet : ∀ position, ¬DueAt armed position () := by
    intro position lives
    have before := (shrunk position ()).mp lives
    have held := (tended.stored position before.1).2.2
    rw [known.2.2] at held
    exact before.2 (Option.some.inj held).symm
  unfold handleReadTimeout
  split
  · dsimp only
    split
    · have rearmed : Tended read (({ handler with armed := armed } :
          ReadTimeoutHandler).newTimeout handler.timeoutMillis) :=
        tended_newTimeout tended.sound tended.configured known.1 known.2.1 quiet
      exact ⟨rearmed.sound, rearmed.configured, rearmed.stored, rearmed.live⟩
    · exact tended_newTimeout tended.sound tended.configured known.1 known.2.1 quiet
  · rename_i closed
    refine ⟨tended.sound, tended.configured, ?_, fun opened => absurd opened closed⟩
    intro position lives
    exact absurd lives (quiet position)

theorem tended_expireAt (expired : handler.expireAt place = some after) : Tended read after := by
  unfold expireAt at expired
  cases made : ArmedTimeout.expireAt handler.armed place with
  | none =>
      rw [made] at expired
      cases expired
  | some armed =>
      rw [made] at expired
      cases expired
      exact tended_same tended (fun _ _ => dueAt_expireAt made)

theorem tended_handleAt
    (handled : handler.handleAt place now = some after) : Tended read after := by
  unfold handleAt at handled
  cases made : ArmedTimeout.handleAt handler.armed place with
  | none =>
      rw [made] at handled
      cases handled
  | some result =>
      rcases result with ⟨armed, ran⟩
      rw [made] at handled
      rcases handleAt_cases made with ⟨rfl, same⟩ | ⟨task, rfl, due, shrunk⟩
      · cases handled
        exact tended_same tended same
      · cases handled
        exact tended_handleReadTimeout tended due shrunk

end

theorem tended_next {event : ReadEvent} (tended : Tended read handler)
    (orderly : Orderly handler event) (step : readStep handler event after) :
    Tended read after := by
  unfold readStep next at step
  rw [if_neg (Bool.eq_false_iff.mp tended.sound)] at step
  cases event with
  | beforeAdd attached now =>
      rw [← Option.some.inj step]
      cases attached with
      | true =>
          rw [if_pos rfl]
          exact tended_initializeAt tended orderly
      | false =>
          rw [if_neg Bool.false_ne_true]
          exact tended
  | channelOpen now =>
      rw [← Option.some.inj step]
      exact tended_initializeAt tended orderly
  | messageReceived now =>
      rw [← Option.some.inj step]
      exact ⟨tended.sound, tended.configured, tended.stored, tended.live⟩
  | writeCompleted =>
      rw [← Option.some.inj step]
      exact tended
  | expire position => exact tended_expireAt tended step
  | handle position now => exact tended_handleAt tended step
  | close =>
      rw [← Option.some.inj step]
      exact ⟨tended.sound, tended.configured, tended.stored,
        fun wrong => absurd wrong (by simp)⟩
  | channelClosed =>
      rw [← Option.some.inj step]
      exact tended_destroy tended orderly
  | beforeRemove =>
      rw [← Option.some.inj step]
      exact tended_destroy tended orderly

theorem disciplined (tended : Tended read handler) : Disciplined read handler where
  sound := tended.sound
  single := by
    intro opened begun enabled
    have armed : handler.timeoutMillis ≠ 0 := by
      rw [tended.configured]
      exact ReadTime.millis_armed enabled
    rcases tended.live opened begun armed with ⟨position, due⟩
    refine ⟨position, due, ?_⟩
    intro other lives
    have one := (tended.stored position due).2.2
    have two := (tended.stored other lives).2.2
    exact Option.some.inj (two.symm.trans one)
  dismissed := by
    rintro ended one among ⟨due, active⟩
    rcases List.mem_iff_getElem?.mp among with ⟨position, found⟩
    have begun := (tended.stored position ⟨one, found, rfl, due⟩).1
    rw [ended] at begun
    cases begun

theorem tended_constructed : Tended read (constructed read) where
  sound := rfl
  configured := rfl
  stored := by
    rintro position ⟨one, found, same, due⟩
    cases found
  live := fun _ wrong => absurd wrong (by simp [constructed])

end Steps

/-- Every state reached by orderly events is disciplined. -/
theorem disciplined_run {read : ReadTime} {events : List ReadEvent} {final : ReadTimeoutHandler}
    (run : Run (Guarded Orderly readStep) (constructed read) events final) :
    Disciplined read final := by
  apply disciplined
  apply run.invariant _ tended_constructed
  intro before event after tended guarded
  exact tended_next tended guarded.1 guarded.2

end ReadTimeoutHandler

/-- Both handlers, over every order of orderly events. -/
theorem timeouts_disciplined (times : IdleTimes) (read : ReadTime) :
    (∀ (events : List IdleEvent) (final : IdleStateHandler), times.Scales →
      Run (Guarded IdleStateHandler.Orderly IdleStateHandler.idleStep)
        (IdleStateHandler.constructed times fun _ => .null) events final →
      IdleStateHandler.Disciplined times final) ∧
    ∀ (events : List ReadEvent) (final : ReadTimeoutHandler),
      Run (Guarded ReadTimeoutHandler.Orderly ReadTimeoutHandler.readStep)
        (ReadTimeoutHandler.constructed read) events final →
      ReadTimeoutHandler.Disciplined read final := by
  constructor
  · intro events final scales run
    exact IdleStateHandler.disciplined_run scales run
  · intro events final run
    exact ReadTimeoutHandler.disciplined_run run

theorem timeouts_disciplined_opened :
    ∃ idle read, IdleStateHandler.Disciplined (.within (fun _ => 1) .milliseconds) idle ∧
      idle.initialised = true ∧ ReadTimeoutHandler.Disciplined (.within 1 .nanoseconds) read ∧
      read.initialised = true := by
  have scales : (IdleTimes.within (fun _ => 1) .milliseconds).Scales := by
    intro idle enabled
    cases idle with
    | readerIdle => decide
    | writerIdle => decide
    | allIdle => decide
  have quiet : ∀ position (task : IdleState × TaskPointer), ¬DueAt [] position task := by
    rintro position task ⟨one, found, same, due⟩
    cases found
  have still : ∀ position, ¬DueAt ([] : List (ArmedTimeout Unit)) position () := by
    rintro position ⟨one, found, same, due⟩
    cases found
  have both := timeouts_disciplined (.within (fun _ => 1) .milliseconds) (.within 1 .nanoseconds)
  refine ⟨_, _, both.1 [.beforeAdd false 0, .channelOpen 0] _ scales
    (.cons ⟨trivial, rfl⟩ (.cons ⟨quiet, rfl⟩ (.nil _))), rfl,
    both.2 [.channelOpen 0] _ (.cons ⟨still, rfl⟩ (.nil _)), rfl⟩

/-- A handler that joins an attached pipeline and then meets `channelOpen` has armed every kind
twice. -/
theorem timeouts_armed_twice :
    ∃ final, Run IdleStateHandler.idleStep
        (IdleStateHandler.constructed (.within (fun _ => 1) .milliseconds) fun _ => .null)
        [.beforeAdd true 0, .channelOpen 0] final ∧
      ¬IdleStateHandler.Disciplined (.within (fun _ => 1) .milliseconds) final := by
  refine ⟨_, .cons rfl (.cons rfl (.nil _)), ?_⟩
  intro disciplined
  rcases disciplined.single rfl rfl .readerIdle (by decide) with ⟨position, due, only⟩
  have first := only 0 ⟨.task 0, _, rfl, rfl, rfl⟩
  have second := only 3 ⟨.task 0, _, rfl, rfl, rfl⟩
  cases first.trans second.symm

end Cetty
