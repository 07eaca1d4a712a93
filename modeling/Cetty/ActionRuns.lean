import Mathlib.Data.List.Induction

/-!
# Runs of a step relation

A run is a sequence of actions, each with the state before and after it. An
assertion that every step keeps holds at the end of every run; a step relation may
be restricted to the steps that meet a condition on the state before them.
-/

namespace ActionRuns

variable {State Action : Type}

inductive Run (step : State → Action → State → Prop) : State → List Action → State → Prop where
  | nil (state : State) : Run step state [] state
  | cons {before middle after : State} {action : Action} {rest : List Action}
      (first : step before action middle) (later : Run step middle rest after) :
      Run step before (action :: rest) after

/-- The steps whose state before and action meet `condition`. -/
def Guarded (condition : State → Action → Prop) (step : State → Action → State → Prop) :
    State → Action → State → Prop :=
  fun before action after => condition before action ∧ step before action after

namespace Run

variable {step : State → Action → State → Prop} {start final : State} {actions : List Action}

variable {assertion : State → Prop} {middle : State} {condition : State → Action → Prop}

theorem invariant (preserved : ∀ before action after, assertion before → step before action after →
      assertion after)
    (run : Run step start actions final) (holds : assertion start) : assertion final := by
  induction run with
  | nil state => exact holds
  | cons first later ih => exact ih (preserved _ _ _ holds first)

theorem snoc {action : Action} (run : Run step start actions middle)
    (last : step middle action final) : Run step start (actions ++ [action]) final := by
  induction run with
  | nil state => exact .cons last (.nil final)
  | cons first later ih => exact .cons first (ih last)

theorem unguarded (run : Run (Guarded condition step) start actions final)
    : Run step start actions final := by
  induction run with
  | nil state => exact .nil state
  | cons first later ih => exact .cons first.2 ih

theorem split {front back : List Action} (run : Run step start (front ++ back) final) :
    ∃ middle, Run step start front middle ∧ Run step middle back final := by
  induction front generalizing start with
  | nil => exact ⟨start, .nil start, run⟩
  | cons action rest ih =>
      cases run with
      | cons first later =>
          rcases ih later with ⟨middle, early, late⟩
          exact ⟨middle, .cons first early, late⟩

/-- A step relation that leaves no choice has one run for a list of actions. -/
theorem unique (functional : ∀ before action first second, step before action first →
      step before action second → first = second) {other : State}
    (run : Run step start actions final) (again : Run step start actions other) :
    final = other := by
  induction run with
  | nil state =>
      cases again
      rfl
  | cons first later ih =>
      cases again with
      | cons second rest =>
          have same := functional _ _ _ _ first second
          subst same
          exact ih rest

/-- An assertion about the state between any two parts of a run. -/
theorem everywhere (preserved : ∀ before action after, assertion before → condition before action →
      step before action after → assertion after)
    (holds : assertion start) {front : List Action}
    (meets : ∀ early action late between, front = early ++ action :: late →
      Run step start early between → condition between action)
    (run : Run step start front middle) : assertion middle := by
  induction front using List.reverseRecOn generalizing middle with
  | nil =>
      cases run
      exact holds
  | append_singleton early action ih =>
      rcases run.split with ⟨between, before, last⟩
      cases last with
      | cons step_ rest =>
          cases rest
          have kept : assertion between := by
            apply ih _ before
            intro first other late state cut begun
            apply meets first other (late ++ [action]) state _ begun
            rw [cut, List.append_assoc, List.cons_append]
          exact preserved _ _ _ kept (meets early action [] between rfl before) step_

end Run

/-- The item at a position, with what replacing or removing it leaves. -/
theorem split_at {Item : Type} {items : List Item} {position : Nat} {item : Item}
    (found : items[position]? = some item) :
    ∃ front back, items = front ++ item :: back ∧
      (∀ other, items.set position other = front ++ other :: back) ∧
      items.eraseIdx position = front ++ back := by
  induction items generalizing position with
  | nil => cases found
  | cons first rest ih =>
      cases position with
      | zero =>
          cases found
          exact ⟨[], rest, rfl, fun _ => rfl, rfl⟩
      | succ position =>
          rcases ih found with ⟨front, back, whole, replaced, erased⟩
          refine ⟨first :: front, back, congrArg _ whole, ?_, congrArg _ erased⟩
          intro other
          exact congrArg _ (replaced other)

end ActionRuns
