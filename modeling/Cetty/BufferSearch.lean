import Cetty.BufferContents

/-!
# Searching a buffer for a byte

The default `indexOf` and `bytesBefore`, which scan up or down by the order of the two indices.
A finder looks at the byte of the index it is asked about.
-/

namespace Cetty

open MachineInt ByteWindow

abbrev Finder := Byte → Bool

namespace Getters

def scanUp (getters : Getters) (find : Finder) : Nat → Int → Except Stop Int
  | 0, _ => pure (-1)
  | rounds + 1, i => do
      if find (← getters.getByte i) then pure i else scanUp getters find rounds (i + 1)

def scanDown (getters : Getters) (find : Finder) : Nat → Int → Except Stop Int
  | 0, _ => pure (-1)
  | rounds + 1, i => do
      if find (← getters.getByte i) then pure i else scanDown getters find rounds (i - 1)

def firstIndexOf (getters : Getters) (fromIndex toIndex : Int) (find : Finder) : Except Stop Int :=
  let fromIndex := max fromIndex 0
  if toIndex ≤ fromIndex ∨ getters.capacity = 0 then pure (-1)
  else scanUp getters find (toIndex - fromIndex).toNat fromIndex

def lastIndexOf (getters : Getters) (fromIndex toIndex : Int) (find : Finder) : Except Stop Int :=
  let fromIndex := min fromIndex getters.capacity
  if fromIndex < 0 ∨ getters.capacity = 0 then pure (-1)
  else scanDown getters find (fromIndex - toIndex).toNat (fromIndex - 1)

def indexOf (getters : Getters) (fromIndex toIndex : Int) (find : Finder) : Except Stop Int :=
  if fromIndex ≤ toIndex then firstIndexOf getters fromIndex toIndex find
  else lastIndexOf getters fromIndex toIndex find

def bytesBefore (getters : Getters) (index length : Int) (find : Finder) : Except Stop Int := do
  let endIndex ← indexOf getters index (int32 (index + length)) find
  if endIndex < 0 then pure (-1) else pure (int32 (endIndex - index))

end Getters

/-- A byte that is looked for lies in `cells` from `fromIndex` on and in front of `toIndex`. -/
def Found (cells : CharArray) (find : Finder) (fromIndex toIndex : Int) : Prop :=
  ∃ i, i < cells.length ∧ fromIndex ≤ i ∧ (i : Int) < toIndex ∧ find (cells.getD i 0) = true

instance (cells : CharArray) (find : Finder) (fromIndex toIndex : Int) :
    Decidable (Found cells find fromIndex toIndex) :=
  inferInstanceAs (Decidable (∃ i, i < cells.length ∧ _))

theorem found_below {cells : CharArray} {find : Finder} {fromIndex toIndex : Int}
    (found : Found cells find fromIndex toIndex) : fromIndex < cells.length := by
  obtain ⟨i, inside, lower, -, -⟩ := found
  omega

namespace Getters

/-- The bytes the buffer begins with are those of `cells`. -/
structure Begins (getters : Getters) (cells : CharArray) : Prop where
  room : (cells.length : Int) ≤ getters.capacity
  byte : ∀ i : Nat, i < cells.length → getters.getByte i = .ok (cells.getD i 0)

variable {getters other : Getters} {find : Finder} {cells : CharArray}

section

variable (begins : getters.Begins cells)

include begins

theorem scanUp_step {start : Nat} (inside : start < cells.length)
    (rounds : Nat) :
    scanUp getters find (rounds + 1) start =
      if find (cells.getD start 0) then .ok (start : Int)
      else scanUp getters find rounds ((start + 1 : Nat) : Int) := by
  rw [scanUp, begins.byte start inside, ok_bind]
  rfl

theorem scanDown_step {start : Nat}
    (inside : start < cells.length) (rounds : Nat) :
    scanDown getters find (rounds + 1) start =
      if find (cells.getD start 0) then .ok (start : Int)
      else scanDown getters find rounds (start - 1) := by
  rw [scanDown, begins.byte start inside, ok_bind]
  rfl

/-- What lies behind the first byte that is found has no part in the result. -/
theorem scanUp_found (same : other.Begins cells) (rounds start : Nat)
    (found : Found cells find start (start + rounds)) :
    ∃ i : Nat, start ≤ i ∧ i < start + rounds ∧ scanUp getters find rounds start = .ok (i : Int) ∧
      scanUp other find rounds start = .ok (i : Int) := by
  induction rounds generalizing start with
  | zero =>
      obtain ⟨i, -, lower, upper, -⟩ := found
      omega
  | succ rounds ih =>
      have inside : start < cells.length := by
        have below := found_below found
        omega
      rw [scanUp_step begins inside, scanUp_step same inside]
      cases here : find (cells.getD start 0) with
      | true => exact ⟨start, by omega, by omega, rfl, rfl⟩
      | false =>
          have later : Found cells find ((start + 1 : Nat) : Int) ((start + 1 : Nat) + rounds) := by
            obtain ⟨i, within, lower, upper, matched⟩ := found
            have other_ : i ≠ start := by
              intro equal
              rw [equal, here] at matched
              cases matched
            exact ⟨i, within, by omega, by omega, matched⟩
          obtain ⟨i, lower, upper, first, second⟩ := ih (start + 1) later
          exact ⟨i, by omega, by omega, first, second⟩

theorem scanUp_missing (rounds start : Nat)
    (inside : start + rounds ≤ cells.length)
    (missing : ¬Found cells find start (start + rounds)) :
    scanUp getters find rounds start = .ok (-1) := by
  induction rounds generalizing start with
  | zero => rfl
  | succ rounds ih =>
      rw [scanUp_step begins (by omega)]
      cases here : find (cells.getD start 0) with
      | true => exact absurd ⟨start, by omega, by omega, by omega, here⟩ missing
      | false =>
          apply ih (start + 1) (by omega)
          intro found
          obtain ⟨i, within, lower, upper, matched⟩ := found
          exact missing ⟨i, within, by omega, by omega, matched⟩

theorem scanDown_found (same : other.Begins cells)
    (rounds start : Nat) (inside : start < cells.length)
    (found : Found cells find (start + 1 - rounds) (start + 1)) :
    ∃ i : Nat, scanDown getters find rounds start = .ok (i : Int) ∧
      scanDown other find rounds start = .ok (i : Int) := by
  induction rounds generalizing start with
  | zero =>
      obtain ⟨i, -, lower, upper, -⟩ := found
      omega
  | succ rounds ih =>
      rw [scanDown_step begins inside, scanDown_step same inside]
      cases here : find (cells.getD start 0) with
      | true => exact ⟨start, rfl, rfl⟩
      | false =>
          obtain ⟨i, within, lower, upper, matched⟩ := found
          have other_ : i ≠ start := by
            intro equal
            rw [equal, here] at matched
            cases matched
          have before : ((start : Int) - 1) = ((start - 1 : Nat) : Int) := by omega
          rw [before]
          exact ih (start - 1) (by omega) ⟨i, within, by omega, by omega, matched⟩

variable {fromIndex toIndex : Int}

theorem firstIndexOf_found (same : other.Begins cells)
    (found : Found cells find (max fromIndex 0) toIndex) :
    ∃ i : Nat, fromIndex ≤ i ∧ (i : Int) < toIndex ∧
      firstIndexOf getters fromIndex toIndex find = .ok (i : Int) ∧
      firstIndexOf other fromIndex toIndex find = .ok (i : Int) := by
  have below := found_below found
  have room := begins.room
  have room' := same.room
  obtain ⟨start, begin⟩ : ∃ start : Nat, max fromIndex 0 = start := ⟨(max fromIndex 0).toNat, by omega⟩
  have ahead : max fromIndex 0 < toIndex := by
    obtain ⟨i, -, lower, upper, -⟩ := found
    omega
  have whole : (start : Int) + (toIndex - start).toNat = toIndex := by omega
  unfold firstIndexOf
  dsimp only
  rw [if_neg (by omega), if_neg (by omega), begin]
  rw [begin, ← whole] at found
  obtain ⟨i, lower, upper, first, second⟩ := scanUp_found begins same _ start found
  exact ⟨i, by omega, by omega, first, second⟩

theorem firstIndexOf_missing (inside : toIndex ≤ cells.length)
    (missing : ¬Found cells find (max fromIndex 0) toIndex) :
    firstIndexOf getters fromIndex toIndex find = .ok (-1) := by
  obtain ⟨start, begin⟩ : ∃ start : Nat, max fromIndex 0 = start := ⟨(max fromIndex 0).toNat, by omega⟩
  unfold firstIndexOf
  dsimp only
  rw [begin] at missing ⊢
  by_cases empty : toIndex ≤ (start : Int) ∨ getters.capacity = 0
  · rw [if_pos empty]
    rfl
  · rw [if_neg empty]
    have whole : (start : Int) + (toIndex - start).toNat = toIndex := by omega
    rw [← whole] at missing
    exact scanUp_missing begins _ start (by omega) missing

theorem lastIndexOf_found (same : other.Begins cells) (inside : fromIndex ≤ cells.length)
    (found : Found cells find toIndex fromIndex) :
    ∃ i : Nat, lastIndexOf getters fromIndex toIndex find = .ok (i : Int) ∧
      lastIndexOf other fromIndex toIndex find = .ok (i : Int) := by
  have room := begins.room
  have room' := same.room
  obtain ⟨i, within, lower, upper, matched⟩ := found
  obtain ⟨start, begin⟩ : ∃ start : Nat, fromIndex = start + 1 := ⟨(fromIndex - 1).toNat, by omega⟩
  have small : min fromIndex getters.capacity = start + 1 := by omega
  have small' : min fromIndex other.capacity = start + 1 := by omega
  have last : (start : Int) + 1 - 1 = start := by omega
  unfold lastIndexOf
  dsimp only
  rw [small, small', if_neg (by omega), if_neg (by omega), last]
  exact scanDown_found begins same _ start (by omega) ⟨i, within, by omega, by omega, matched⟩

end

end Getters

end Cetty
