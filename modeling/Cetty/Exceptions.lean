import Mathlib.Init

/-!
# How a method of the library can end

A method returns, throws one of the library's exceptions, or does something the
language gives no meaning to. The last kind is kept apart from the exceptions:
no `catch` of the library sees it. The object state reached before a throw stays,
as in the source, so methods are `EStateM` programs.
-/

namespace Cetty

inductive ExceptionClass where
  | range
  | invalidArgument
  | illegalState
  | unsupportedOperation
  | readOnlyBuffer
  | system
  | runtime
  | io
  | channel
  | corruptedFrame
  | tooLongFrame
  | lifeCycle
  | syntaxError
  deriving DecidableEq, Repr

structure Exception where
  cls : ExceptionClass
  message : String
  deriving DecidableEq, Repr

inductive Stop where
  | thrown (exception : Exception)
  /-- An access outside the memory block it was meant for. -/
  | outOfBounds
  /-- A failed `BOOST_ASSERT`. -/
  | assertion
  /-- A loop that never ends. -/
  | diverges
  /-- The step budget of a run was too small; says nothing about the code. -/
  | outOfFuel
  deriving DecidableEq, Repr

def rangeException (message : String) : Stop := .thrown ⟨.range, message⟩

def invalidArgumentException (message : String) : Stop := .thrown ⟨.invalidArgument, message⟩

def lifeCycleException (message : String) : Stop := .thrown ⟨.lifeCycle, message⟩

/-- `TooLongFrameException`. -/
def Stop.isTooLong : Stop → Bool
  | thrown exception => exception.cls == .tooLongFrame
  | _ => false

theorem ok_bind {Value Next : Type} (value : Value) (next : Value → Except Stop Next) :
    (Except.ok value >>= next) = next value := rfl

theorem error_bind {Value Next : Type} (stop : Stop) (next : Value → Except Stop Next) :
    (Except.error stop >>= next) = .error stop := rfl

theorem ok_of_bind {Value Next : Type} {result : Except Stop Value}
    {next : Value → Except Stop Next} {value : Next} (ran : (result >>= next) = .ok value) :
    ∃ first, result = .ok first ∧ next first = .ok value := by
  cases result with
  | ok first => exact ⟨first, rfl, ran⟩
  | error stop => cases ran

abbrev Exec (State Value : Type) := EStateM Stop State Value

/-- A const method called on part of the state. -/
def call {State Value : Type} (result : Except Stop Value) : Exec State Value :=
  match result with
  | .ok value => pure value
  | .error stop => throw stop

/-- A program on a part of the state; the part is stored back also when it stops. -/
def focus {Outer Inner Value : Type} (look : Outer → Inner) (store : Outer → Inner → Outer)
    (program : Exec Inner Value) : Exec Outer Value := fun outer =>
  match program.run (look outer) with
  | .ok value inner => .ok value (store outer inner)
  | .error stop inner => .error stop (store outer inner)

section Running

variable {State Value Next : Type} {program : Exec State Value} {before after : State}

theorem run_bind_ok {value : Value} (next : Value → Exec State Next)
    (ran : program.run before = .ok value after) :
    (program >>= next).run before = (next value).run after := by
  rw [EStateM.run_bind, ran]

theorem run_bind_error {stop : Stop} (next : Value → Exec State Next)
    (ran : program.run before = .error stop after) :
    (program >>= next).run before = .error stop after := by
  rw [EStateM.run_bind, ran]

theorem run_bind_get {Failure Kept Result : Type} (next : Kept → EStateM Failure Kept Result)
    (kept : Kept) : (get >>= next).run kept = (next kept).run kept := rfl

theorem run_tryCatch_ok {value : Value} (handler : Stop → Exec State Value)
    (ran : program.run before = .ok value after) :
    (tryCatch program handler).run before = .ok value after := by
  change EStateM.tryCatch program handler before = _
  unfold EStateM.tryCatch
  change program before = _ at ran
  rw [ran]

theorem run_tryCatch_error {stop : Stop} (handler : Stop → Exec State Value)
    (ran : program.run before = .error stop after) :
    (tryCatch program handler).run before = (handler stop).run after := by
  change EStateM.tryCatch program handler before = _
  unfold EStateM.tryCatch
  change program before = _ at ran
  rw [ran]
  rfl

/-- Why a program ends, if it does not return. -/
def stopOf (program : Exec State Unit) (before : State) : Option Stop :=
  match program.run before with
  | .ok _ _ => none
  | .error stop _ => some stop

/-- The state a program ends in. -/
def stateAfter (program : Exec State Unit) (before : State) : State :=
  match program.run before with
  | .ok _ after => after
  | .error _ after => after

theorem run_of_stopOf_none {program : Exec State Unit} (returns : stopOf program before = none) :
    program.run before = .ok () (stateAfter program before) := by
  unfold stopOf at returns
  unfold stateAfter
  cases ran : program.run before with
  | ok value after => rfl
  | error stop after =>
      rw [ran] at returns
      cases returns

theorem run_of_stopOf_some {program : Exec State Unit} {stop : Stop}
    (stops : stopOf program before = some stop) :
    program.run before = .error stop (stateAfter program before) := by
  unfold stopOf at stops
  unfold stateAfter
  cases ran : program.run before with
  | ok value after =>
      rw [ran] at stops
      cases stops
  | error early after =>
      rw [ran] at stops
      cases stops
      rfl

theorem ok_of_run_bind {next : Value → Exec State Next} {value : Next}
    (ran : (program >>= next).run before = .ok value after) :
    ∃ first middle, program.run before = .ok first middle ∧
      (next first).run middle = .ok value after := by
  cases result : program.run before with
  | ok first middle =>
      rw [run_bind_ok next result] at ran
      exact ⟨first, middle, rfl, ran⟩
  | error stop middle =>
      rw [run_bind_error next result] at ran
      cases ran

theorem ok_of_run_call {result : Except Stop Value} {value : Value}
    (ran : (call result : Exec State Value).run before = .ok value after) :
    result = .ok value ∧ after = before := by
  cases result with
  | ok first =>
      cases ran
      exact ⟨rfl, rfl⟩
  | error stop => cases ran

variable {Outer : Type} {look : Outer → State} {store : Outer → State → Outer} {outer : Outer}

theorem run_focus_ok {value : Value} (ran : program.run (look outer) = .ok value after) :
    (focus look store program).run outer = .ok value (store outer after) := by
  change (match program.run (look outer) with
    | .ok value inner => EStateM.Result.ok value (store outer inner)
    | .error stop inner => .error stop (store outer inner)) = _
  rw [ran]

theorem run_focus_error {stop : Stop} (ran : program.run (look outer) = .error stop after) :
    (focus look store program).run outer = .error stop (store outer after) := by
  change (match program.run (look outer) with
    | .ok value inner => EStateM.Result.ok value (store outer inner)
    | .error stop inner => .error stop (store outer inner)) = _
  rw [ran]

end Running

@[simp] theorem run_call_ok {State Value : Type} (value : Value) (state : State) :
    (call (.ok value) : Exec State Value).run state = .ok value state := rfl

@[simp] theorem run_call_error {State Value : Type} (stop : Stop) (state : State) :
    (call (.error stop) : Exec State Value).run state = .error stop state := rfl

/-- An assertion about the state that a program leaves true, however it ends. -/
def Keeps {State Value : Type} (invariant : State → Prop) (program : Exec State Value) : Prop :=
  ∀ before, invariant before →
    match program.run before with
    | .ok _ after => invariant after
    | .error _ after => invariant after

namespace Keeps

variable {State Value Next : Type} {invariant : State → Prop}

section

variable {program : Exec State Value} (keeps : Keeps invariant program) {before after : State}

include keeps

theorem after_ok {value : Value} (holds : invariant before)
    (ran : program.run before = .ok value after) : invariant after := by
  have outcome := keeps before holds
  rw [ran] at outcome
  exact outcome

theorem after_error {stop : Stop} (holds : invariant before)
    (ran : program.run before = .error stop after) : invariant after := by
  have outcome := keeps before holds
  rw [ran] at outcome
  exact outcome

end

theorem pure (value : Value) : Keeps invariant (Pure.pure value : Exec State Value) :=
  fun _ holds => holds

theorem throw (stop : Stop) : Keeps invariant (throw stop : Exec State Value) :=
  fun _ holds => holds

theorem get : Keeps invariant (MonadState.get : Exec State State) :=
  fun _ holds => holds

theorem modify {change : State → State}
    (kept : ∀ before, invariant before → invariant (change before)) :
    Keeps invariant (modify change : Exec State Unit) :=
  fun before holds => kept before holds

theorem call (result : Except Stop Value) : Keeps invariant (call result : Exec State Value) := by
  cases result with
  | ok value => exact pure value
  | error stop => exact throw stop

theorem bind {first : Exec State Value} {next : Value → Exec State Next}
    (now : Keeps invariant first) (later : ∀ value, Keeps invariant (next value)) :
    Keeps invariant (first >>= next) := by
  intro before holds
  cases ran : first.run before with
  | ok value after =>
      rw [run_bind_ok _ ran]
      exact later value after (now.after_ok holds ran)
  | error stop after =>
      rw [run_bind_error _ ran]
      exact now.after_error holds ran

theorem ite {condition : Prop} [Decidable condition] {yes no : Exec State Value}
    (positive : condition → Keeps invariant yes) (negative : ¬condition → Keeps invariant no) :
    Keeps invariant (if condition then yes else no) := by
  by_cases holds : condition
  · rw [if_pos holds]
    exact positive holds
  · rw [if_neg holds]
    exact negative holds

theorem tryCatch {program : Exec State Value} {handler : Stop → Exec State Value}
    (now : Keeps invariant program) (later : ∀ stop, Keeps invariant (handler stop)) :
    Keeps invariant (MonadExcept.tryCatch program handler) := by
  intro before holds
  cases ran : program.run before with
  | ok value after =>
      rw [run_tryCatch_ok _ ran]
      exact now.after_ok holds ran
  | error stop after =>
      rw [run_tryCatch_error _ ran]
      exact later stop after (now.after_error holds ran)

variable {Inner : Type} {look : State → Inner}

/-- A program on a part the assertion does not speak of. -/
theorem focus {store : State → Inner → State}
    (program : Exec Inner Value)
    (apart : ∀ outer inner, invariant outer → invariant (store outer inner)) :
    Keeps invariant (focus look store program) := by
  intro before holds
  cases ran : program.run (look before) with
  | ok value after =>
      rw [run_focus_ok ran]
      exact apart before after holds
  | error stop after =>
      rw [run_focus_error ran]
      exact apart before after holds

/-- A program that keeps an assertion about the part keeps it for the whole. -/
theorem focus_on {part : Inner → Prop}
    {store : State → Inner → State} {program : Exec Inner Value} (keeps : Keeps part program)
    (enter : ∀ outer, invariant outer → part (look outer))
    (leave : ∀ outer inner, invariant outer → part inner → invariant (store outer inner)) :
    Keeps invariant (Cetty.focus look store program) := by
  intro before holds
  cases ran : program.run (look before) with
  | ok value after =>
      rw [run_focus_ok ran]
      exact leave before after holds (keeps.after_ok (enter before holds) ran)
  | error stop after =>
      rw [run_focus_error ran]
      exact leave before after holds (keeps.after_error (enter before holds) ran)

end Keeps

/-- An assertion about the stops of a program. -/
def StopsWith {State Value : Type} (allowed : Stop → Prop) (program : Exec State Value) : Prop :=
  ∀ before stop after, program.run before = .error stop after → allowed stop

namespace StopsWith

variable {State Value Next : Type} {allowed : Stop → Prop}

theorem pure (value : Value) : StopsWith allowed (Pure.pure value : Exec State Value) := by
  intro before stop after ran
  cases ran

theorem throw {stop : Stop} (may : allowed stop) :
    StopsWith allowed (throw stop : Exec State Value) := by
  intro before stop' after ran
  cases ran
  exact may

theorem get : StopsWith allowed (MonadState.get : Exec State State) := by
  intro before stop after ran
  cases ran

theorem modify (change : State → State) :
    StopsWith allowed (modify change : Exec State Unit) := by
  intro before stop after ran
  cases ran

theorem call {result : Except Stop Value} (may : ∀ stop, result = .error stop → allowed stop) :
    StopsWith allowed (call result : Exec State Value) := by
  cases result with
  | ok value => exact pure value
  | error stop => exact throw (may stop rfl)

theorem bind {first : Exec State Value} {next : Value → Exec State Next}
    (now : StopsWith allowed first) (later : ∀ value, StopsWith allowed (next value)) :
    StopsWith allowed (first >>= next) := by
  intro before stop after ran
  cases began : first.run before with
  | ok value middle =>
      rw [run_bind_ok _ began] at ran
      exact later value middle stop after ran
  | error stop' middle =>
      rw [run_bind_error _ began] at ran
      cases ran
      exact now before stop after began

theorem ite {condition : Prop} [Decidable condition] {yes no : Exec State Value}
    (positive : condition → StopsWith allowed yes) (negative : ¬condition → StopsWith allowed no) :
    StopsWith allowed (if condition then yes else no) := by
  by_cases holds : condition
  · rw [if_pos holds]
    exact positive holds
  · rw [if_neg holds]
    exact negative holds

theorem focus {Inner : Type} {look : State → Inner} {store : State → Inner → State}
    {program : Exec Inner Value} (stops : StopsWith allowed program) :
    StopsWith allowed (focus look store program) := by
  intro before stop after ran
  cases inner : program.run (look before) with
  | ok value middle =>
      rw [run_focus_ok inner] at ran
      cases ran
  | error stop' middle =>
      rw [run_focus_error inner] at ran
      cases ran
      exact stops _ _ _ inner

end StopsWith

end Cetty
