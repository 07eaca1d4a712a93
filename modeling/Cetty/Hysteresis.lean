import Mathlib.Init

/-!
# A switch with two thresholds

The history of a level, newest value first. The switch is on when the level has
reached the upper threshold and has since neither dropped below the lower one nor
been zero.
-/

namespace Hysteresis

variable (low high : Int)

def Released (level : Int) : Prop := level < low ∨ level = 0

instance (level : Int) : Decidable (Released low level) :=
  inferInstanceAs (Decidable (level < low ∨ level = 0))

def Engaged (levels : List Int) : Prop :=
  ∃ newer reached older, levels = newer ++ reached :: older ∧ high ≤ reached ∧
    ∀ level ∈ newer ++ [reached], ¬Released low level

theorem not_engaged_nil : ¬Engaged low high [] := by
  intro engaged
  rcases engaged with ⟨newer, reached, older, split, _⟩
  cases newer with
  | nil => cases split
  | cons level newer => cases split

theorem engaged_cons (level : Int) (levels : List Int) :
    Engaged low high (level :: levels) ↔
      ¬Released low level ∧ (high ≤ level ∨ Engaged low high levels) := by
  constructor
  · intro engaged
    rcases engaged with ⟨newer, reached, older, split, reaches, held⟩
    cases newer with
    | nil =>
        cases split
        exact ⟨held level (List.mem_singleton.mpr rfl), Or.inl reaches⟩
    | cons newest newer =>
        cases split
        refine ⟨held level (List.mem_cons_self ..), Or.inr ⟨newer, reached, older, rfl, reaches, ?_⟩⟩
        intro other among
        exact held other (List.mem_cons_of_mem _ among)
  · intro holds
    rcases holds with ⟨kept, reaches | before⟩
    · refine ⟨[], level, levels, rfl, reaches, ?_⟩
      intro other among
      cases List.mem_singleton.mp among
      exact kept
    · rcases before with ⟨newer, reached, older, split, reaches, held⟩
      refine ⟨level :: newer, reached, older, by rw [split]; rfl, reaches, ?_⟩
      intro other among
      rcases List.mem_cons.mp among with same | later
      · rw [same]
        exact kept
      · exact held other later

/-- The switch is a fold over the history. -/
def engagedNow : List Int → Bool
  | [] => false
  | level :: levels => ¬Released low level ∧ (high ≤ level ∨ engagedNow levels = true)

theorem engagedNow_iff (levels : List Int) :
    engagedNow low high levels = true ↔ Engaged low high levels := by
  induction levels with
  | nil =>
      constructor
      · nofun
      · intro engaged
        exact absurd engaged (not_engaged_nil low high)
  | cons level levels ih =>
      rw [engaged_cons, ← ih]
      exact decide_eq_true_iff

instance (levels : List Int) : Decidable (Engaged low high levels) :=
  decidable_of_iff _ (engagedNow_iff low high levels)

variable {level : Int} {levels : List Int}

theorem not_released_of_engaged (engaged : Engaged low high (level :: levels))
    : ¬Released low level :=
  ((engaged_cons low high level levels).mp engaged).1

/-- While the switch is off a level above zero stays below the upper threshold. -/
theorem below_of_not_engaged (ordered : low ≤ high)
    (positive : 0 < high) (off : ¬Engaged low high (level :: levels)) : level < high := by
  rw [engaged_cons] at off
  by_cases released : Released low level
  · rcases released with below | zero
    · omega
    · omega
  · by_cases reaches : high ≤ level
    · exact absurd ⟨released, Or.inl reaches⟩ off
    · omega

theorem not_released_of_high (ordered : low ≤ high) (positive : 0 < high)
    (reaches : high ≤ level) : ¬Released low level := by
  intro released
  rcases released with below | zero
  · omega
  · omega

section

variable {level next : Int} {levels : List Int} (ordered : low ≤ high) (positive : 0 < high)

include ordered positive

/-- A rise turns the switch on exactly by reaching the upper threshold. -/
theorem engaged_rise (nonneg : 0 ≤ level) (rises : level ≤ next) :
    Engaged low high (next :: level :: levels) ↔
      high ≤ next ∨ Engaged low high (level :: levels) := by
  rw [engaged_cons]
  constructor
  · intro holds
    exact holds.2
  · intro holds
    refine ⟨?_, holds⟩
    rcases holds with reaches | engaged
    · exact not_released_of_high low high ordered positive reaches
    · have kept := not_released_of_engaged low high engaged
      intro released
      apply kept
      rcases released with below | zero
      · exact Or.inl (Int.lt_of_le_of_lt rises below)
      · exact Or.inr (by omega)

/-- A fall only ever turns the switch off. -/
theorem engaged_fall (falls : next ≤ level) :
    Engaged low high (next :: level :: levels) ↔
      ¬Released low next ∧ Engaged low high (level :: levels) := by
  rw [engaged_cons]
  constructor
  · intro holds
    refine ⟨holds.1, ?_⟩
    rcases holds.2 with reaches | engaged
    · have above : high ≤ level := Int.le_trans reaches falls
      exact (engaged_cons low high level levels).mpr
        ⟨not_released_of_high low high ordered positive above, Or.inl above⟩
    · exact engaged
  · intro holds
    exact ⟨holds.1, Or.inr holds.2⟩

end

/-- The switch as a count of the crossings up less the crossings down. -/
def balance (levels : List Int) : Int := if 0 < high ∧ Engaged low high levels then 1 else 0

theorem balance_cases (levels : List Int) :
    balance low high levels = 0 ∨ balance low high levels = 1 := by
  unfold balance
  split
  · exact Or.inr rfl
  · exact Or.inl rfl

theorem balance_congr {first second : List Int}
    (same : 0 < high → (Engaged low high first ↔ Engaged low high second)) :
    balance low high first = balance low high second := by
  unfold balance
  by_cases positive : 0 < high
  · simp only [positive, true_and, same positive]
  · simp only [positive, false_and, if_false]

/-- A rise counts one crossing if it comes to the upper threshold from below. -/
theorem balance_rise {next : Int} (levels : List Int) (ordered : low ≤ high)
    (nonneg : 0 ≤ level) (rises : level ≤ next)
    (timely : level < high → high ≤ next → ¬Engaged low high (level :: levels)) :
    balance low high (next :: level :: levels) =
      if high ≤ next ∧ level < high then balance low high (level :: levels) + 1
      else balance low high (level :: levels) := by
  by_cases crosses : high ≤ next ∧ level < high
  · have positive : 0 < high := Int.lt_of_le_of_lt nonneg crosses.2
    have off := timely crosses.2 crosses.1
    have turned : Engaged low high (next :: level :: levels) :=
      (engaged_rise low high ordered positive nonneg rises).mpr (Or.inl crosses.1)
    have one : balance low high (next :: level :: levels) = 1 := if_pos ⟨positive, turned⟩
    have zero : balance low high (level :: levels) = 0 := if_neg (fun on => off on.2)
    rw [if_pos crosses, one, zero]
    rfl
  · rw [if_neg crosses]
    apply balance_congr
    intro positive
    rw [engaged_rise low high ordered positive nonneg rises]
    constructor
    · intro holds
      rcases holds with reaches | engaged
      · by_cases off : Engaged low high (level :: levels)
        · exact off
        · exact absurd ⟨reaches, below_of_not_engaged low high ordered positive off⟩ crosses
      · exact engaged
    · exact Or.inr

/-- A fall counts one crossing if it leaves the lower threshold. -/
theorem balance_fall {next : Int} (levels : List Int) (ordered : low ≤ high)
    (falls : next ≤ level)
    (timely : low ≤ level → Released low next → Engaged low high (level :: levels) ∧ 0 < high) :
    balance low high (next :: level :: levels) =
      if Released low next ∧ low ≤ level then balance low high (level :: levels) - 1
      else balance low high (level :: levels) := by
  by_cases crosses : Released low next ∧ low ≤ level
  · have on := timely crosses.2 crosses.1
    have one : balance low high (level :: levels) = 1 := if_pos ⟨on.2, on.1⟩
    have zero : balance low high (next :: level :: levels) = 0 :=
      if_neg (fun still => not_released_of_engaged low high still.2 crosses.1)
    rw [if_pos crosses, one, zero]
    rfl
  · rw [if_neg crosses]
    apply balance_congr
    intro positive
    rw [engaged_fall low high ordered positive falls]
    constructor
    · intro holds
      exact holds.2
    · intro engaged
      refine ⟨?_, engaged⟩
      intro released
      apply not_released_of_engaged low high engaged
      by_cases below : level < low
      · exact Or.inl below
      · exact absurd ⟨released, by omega⟩ crosses

end Hysteresis
