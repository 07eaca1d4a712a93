import Cetty.Exceptions

/-!
# Outcomes of a program

A program is told about by what holds before it, what holds of its value and the state when it
returns, and what holds of the state when it stops.
-/

namespace Cetty

def Leads {State Value : Type} (before : State → Prop) (program : Exec State Value)
    (after : Value → State → Prop) (stopped : State → Prop) : Prop :=
  ∀ state, before state →
    match program.run state with
    | .ok value next => after value next
    | .error _ next => stopped next

namespace Leads

variable {State Value Next : Type} {before : State → Prop} {after : Value → State → Prop}
  {stopped : State → Prop}

section

variable {program : Exec State Value} (leads : Leads before program after stopped)
  {state next : State}

include leads

theorem ok {value : Value} (holds : before state)
    (ran : program.run state = .ok value next) : after value next := by
  have outcome := leads state holds
  rw [ran] at outcome
  exact outcome

theorem error {stop : Stop} (holds : before state)
    (ran : program.run state = .error stop next) : stopped next := by
  have outcome := leads state holds
  rw [ran] at outcome
  exact outcome

end

theorem pure {value : Value} (holds : ∀ state, before state → after value state) :
    Leads before (Pure.pure value : Exec State Value) after stopped :=
  holds

theorem throw {stop : Stop} (holds : ∀ state, before state → stopped state) :
    Leads before (throw stop : Exec State Value) after stopped :=
  holds

theorem modify {change : State → State} {after : Unit → State → Prop}
    (holds : ∀ state, before state → after () (change state)) :
    Leads before (modify change : Exec State Unit) after stopped :=
  holds

theorem set {next : State} {after : Unit → State → Prop} (holds : after () next) :
    Leads before (MonadStateOf.set next : Exec State Unit) after stopped :=
  fun _ _ => holds

theorem bind {first : Exec State Value} {next : Value → Exec State Next}
    {middle : Value → State → Prop} {after : Next → State → Prop}
    (now : Leads before first middle stopped)
    (later : ∀ value, Leads (middle value) (next value) after stopped) :
    Leads before (first >>= next) after stopped := by
  intro state holds
  cases ran : first.run state with
  | ok value between =>
      rw [run_bind_ok _ ran]
      exact later value between (now.ok holds ran)
  | error stop between =>
      rw [run_bind_error _ ran]
      exact now.error holds ran

theorem ite {condition : Prop} [Decidable condition] {yes no : Exec State Value}
    (positive : condition → Leads before yes after stopped)
    (negative : ¬condition → Leads before no after stopped) :
    Leads before (if condition then yes else no) after stopped := by
  by_cases holds : condition
  · rw [if_pos holds]
    exact positive holds
  · rw [if_neg holds]
    exact negative holds

/-- A program that keeps an assertion, whatever it returns. -/
theorem of_keeps {program : Exec State Value} (keeps : Keeps before program)
    (returns : ∀ value state, before state → after value state)
    (stops : ∀ state, before state → stopped state) : Leads before program after stopped := by
  intro state holds
  cases ran : program.run state with
  | ok value next => exact returns value next (keeps.after_ok holds ran)
  | error stop next => exact stops next (keeps.after_error holds ran)

/-- A program on a part of the state. -/
theorem focus {Inner : Type} {look : State → Inner} {store : State → Inner → State}
    {program : Exec Inner Value} {start : Inner → Prop} {returned : Value → Inner → Prop}
    {left : Inner → Prop} (leads : Leads start program returned left)
    (enters : ∀ outer, before outer → start (look outer))
    (returns : ∀ outer value inner, before outer → returned value inner →
      after value (store outer inner))
    (stops : ∀ outer inner, before outer → left inner → stopped (store outer inner)) :
    Leads before (focus look store program) after stopped := by
  intro outer holds
  cases ran : program.run (look outer) with
  | ok value inner =>
      rw [run_focus_ok ran]
      exact returns outer value inner holds (leads.ok (enters outer holds) ran)
  | error stop inner =>
      rw [run_focus_error ran]
      exact stops outer inner holds (leads.error (enters outer holds) ran)

theorem weaken {program : Exec State Value} {stronger : State → Prop}
    (leads : Leads before program after stopped) (enters : ∀ state, stronger state → before state) :
    Leads stronger program after stopped :=
  fun state holds => leads state (enters state holds)

theorem strengthen {program : Exec State Value} {weaker : Value → State → Prop}
    {looser : State → Prop} (leads : Leads before program after stopped)
    (returns : ∀ value state, after value state → weaker value state)
    (stops : ∀ state, stopped state → looser state) : Leads before program weaker looser := by
  intro state holds
  cases ran : program.run state with
  | ok value next => exact returns value next (leads.ok holds ran)
  | error stop next => exact stops next (leads.error holds ran)

end Leads

section Leaving

variable {State Value Next : Type} {program : Exec State Value} {before after : State}

/-- The state that a program leaves, however it ends. -/
def leaves (program : Exec State Value) (before : State) : State :=
  match program.run before with
  | .ok _ after => after
  | .error _ after => after

theorem leaves_ok {value : Value} (ran : program.run before = .ok value after) :
    leaves program before = after := by
  unfold leaves
  rw [ran]

theorem leaves_error {stop : Stop} (ran : program.run before = .error stop after) :
    leaves program before = after := by
  unfold leaves
  rw [ran]

theorem leaves_same {other : Exec State Value} {start : State}
    (same : other.run start = program.run before) : leaves other start = leaves program before := by
  unfold leaves
  rw [same]

theorem leaves_ite {condition : Prop} [Decidable condition] {yes no : Exec State Value}
    {invariant : State → Prop} (positive : condition → invariant (leaves yes before))
    (negative : ¬condition → invariant (leaves no before)) :
    invariant (leaves (if condition then yes else no) before) := by
  by_cases holds : condition
  · rw [if_pos holds]
    exact positive holds
  · rw [if_neg holds]
    exact negative holds

theorem leaves_focus {Outer : Type} {look : Outer → State} {store : Outer → State → Outer}
    (program : Exec State Value) (outer : Outer) :
    leaves (focus look store program) outer = store outer (leaves program (look outer)) := by
  cases ran : program.run (look outer) with
  | ok value after => rw [leaves_ok ran, leaves_ok (run_focus_ok ran)]
  | error stop after => rw [leaves_error ran, leaves_error (run_focus_error ran)]

theorem Keeps.leaves {invariant : State → Prop} (keeps : Keeps invariant program)
    (holds : invariant before) : invariant (leaves program before) := by
  cases ran : program.run before with
  | ok value after =>
      rw [leaves_ok ran]
      exact keeps.after_ok holds ran
  | error stop after =>
      rw [leaves_error ran]
      exact keeps.after_error holds ran

theorem Leads.leaves {start invariant : State → Prop}
    (leads : Leads start program (fun _ => invariant) invariant) (holds : start before) :
    invariant (leaves program before) := by
  cases ran : program.run before with
  | ok value after =>
      rw [leaves_ok ran]
      exact leads.ok holds ran
  | error stop after =>
      rw [leaves_error ran]
      exact leads.error holds ran

end Leaving

end Cetty
