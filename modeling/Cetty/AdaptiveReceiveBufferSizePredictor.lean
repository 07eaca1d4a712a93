import Mathlib.Data.List.Range
import Mathlib.Algebra.Order.Ring.Int
import Cetty.Exceptions
import Cetty.MachineInt
import Mathlib.Data.List.GetD

/-!
# The adaptive receive buffer size

The predicted size is an entry of a table, and feedback moves an index into it. The bounds are
rounded to the table inwards, the initial size downwards.
-/

namespace Cetty

open MachineInt

structure AdaptiveReceiveBufferSizePredictor where
  decreaseNow : Bool
  minIndex : Int
  maxIndex : Int
  index : Int
  nextReceiveBuffSz : Int
  deriving DecidableEq, Repr

namespace AdaptiveReceiveBufferSizePredictor

def indexIncrement : Int := 4

def indexDecrement : Int := 1

def sizeTableCount : Nat := 8 + (32 - 4) * 8

/-- `SIZE_TABLE` as `initSizeTable` leaves it, with a `long` of 64 bits. The last entry is 2^31,
which is no `int`. -/
def sizeTable : List Int :=
  (List.range' 1 8).map (fun i : Nat => (i : Int)) ++
  (List.range' 4 28).flatMap fun i =>
    let inc : Int := 2 ^ i / 2 ^ 4
    (List.range' 1 8).map fun j =>
      let v : Int := 2 ^ i - inc * 2 ^ 3 + j * inc
      if 0xefffffff ≤ v then int32 0xefffffff else int32 v

/-- `SIZE_TABLE[index]`. -/
def sizeAt (index : Int) : Except Stop Int :=
  if 0 ≤ index ∧ index < sizeTableCount then pure (sizeTable.getD index.toNat 0)
  else throw .outOfBounds

/-- `do { v >>= 1; bits ++; } while (v != 0);`, for at most so many rounds. -/
def countBits : Nat → Int → Except Stop Int
  | 0, _ => throw .diverges
  | fuel + 1, v =>
      let v := v / 2
      if v = 0 then pure 1
      else do
        let bits ← countBits fuel v
        pure (bits + 1)

/-- The scan downwards over so many entries. -/
def scanSizeTable (size : Int) : Nat → Int → Except Stop Int
  | 0, _ => throw (.thrown ⟨.runtime, "shouldn't reach here; please file a bug report."⟩)
  | entries + 1, i => do
      let entry ← sizeAt i
      if entry ≤ size then pure i else scanSizeTable size entries (i - 1)

def getSizeTableIndex (size : Int) : Except Stop Int :=
  if size ≤ 16 then pure (size - 1)
  else do
    let bits ← countBits 32 size
    let baseIdx := bits * 8
    let startIdx := baseIdx - 18
    let endIdx := baseIdx - 25
    scanSizeTable size (startIdx - endIdx + 1).toNat startIdx

/-- The constructors leave `decreaseNow` as it is in the fresh memory. -/
def init (decreaseNow : Bool) (minimum initial maximum : Int) :
    Except Stop AdaptiveReceiveBufferSizePredictor := do
  let lowest ← getSizeTableIndex minimum
  let lowestSize ← sizeAt lowest
  let highest ← getSizeTableIndex maximum
  let highestSize ← sizeAt highest
  let index ← getSizeTableIndex initial
  let nextReceiveBuffSz ← sizeAt index
  pure
    { decreaseNow := decreaseNow
      minIndex := if lowestSize < minimum then lowest + 1 else lowest
      maxIndex := if maximum < highestSize then highest - 1 else highest
      index := index
      nextReceiveBuffSz := nextReceiveBuffSz }

/-- The constructor with bounds. -/
def make (decreaseNow : Bool) (minimum initial maximum : Int) :
    Except Stop AdaptiveReceiveBufferSizePredictor := do
  if minimum ≤ 0 then throw (invalidArgumentException "minimum is less than zero.")
  if initial < minimum then throw (invalidArgumentException "initial is less than zero.")
  if maximum < initial then throw (invalidArgumentException "maximum is less than zero.")
  init decreaseNow minimum initial maximum

def defaultMinimum : Int := 64

def defaultInitial : Int := 1024

def defaultMaximum : Int := 65536

/-- The constructor without arguments. -/
def makeDefault (decreaseNow : Bool) : Except Stop AdaptiveReceiveBufferSizePredictor :=
  init decreaseNow defaultMinimum defaultInitial defaultMaximum

def previousReceiveBufferSize (this : AdaptiveReceiveBufferSizePredictor)
    (previousReceiveBufferSize : Int) : Except Stop AdaptiveReceiveBufferSizePredictor := do
  let small ← sizeAt (max 0 (this.index - indexDecrement - 1))
  if previousReceiveBufferSize ≤ small then
    if this.decreaseNow then
      let index := max (this.index - indexDecrement) this.minIndex
      let nextReceiveBuffSz ← sizeAt index
      pure { this with
        index := index, nextReceiveBuffSz := nextReceiveBuffSz, decreaseNow := false }
    else pure { this with decreaseNow := true }
  else if this.nextReceiveBuffSz ≤ previousReceiveBufferSize then
    let index := min (this.index + indexIncrement) this.maxIndex
    let nextReceiveBuffSz ← sizeAt index
    pure { this with
      index := index, nextReceiveBuffSz := nextReceiveBuffSz, decreaseNow := false }
  else pure this

def nextReceiveBufferSize (this : AdaptiveReceiveBufferSizePredictor) : Int :=
  this.nextReceiveBuffSz

/-- The predictor after a sequence of feedback calls. -/
def feed (this : AdaptiveReceiveBufferSizePredictor) :
    List Int → Except Stop AdaptiveReceiveBufferSizePredictor
  | [] => pure this
  | previous :: rest => do
      let next ← this.previousReceiveBufferSize previous
      next.feed rest

/-- `SIZE_TABLE[index]` for an index of the table. -/
def entry (index : Int) : Int := sizeTable.getD index.toNat 0

theorem sizeTable_length : sizeTable.length = sizeTableCount := by decide +kernel

theorem sizeAt_ok {index : Int} (lower : 0 ≤ index) (upper : index ≤ 231) :
    sizeAt index = .ok (entry index) := by
  have count : (sizeTableCount : Int) = 232 := rfl
  unfold sizeAt
  rw [if_pos ⟨lower, by omega⟩]
  rfl

/-- The entries grow, up to the last but one. -/
theorem sizeTable_grows : (sizeTable.take 231).Pairwise (· < ·) := by decide +kernel

theorem entry_last : entry 231 = -2147483648 := by decide +kernel

/-- The powers of two stand at every eighth place. -/
theorem sizeTable_powers : ∀ octave < 27,
    sizeTable.getD (8 * octave + 15) 0 = 2 ^ (octave + 4) := by
  decide +kernel

theorem sizeTable_small : ∀ place < 16, sizeTable.getD place 0 = (place : Int) + 1 := by
  decide +kernel

theorem entry_grows {index later : Int} (lower : 0 ≤ index) (less : index < later)
    (upper : later ≤ 230) : entry index < entry later := by
  have size : (sizeTable.take 231).length = 231 := by
    rw [List.length_take, sizeTable_length]
    rfl
  have taken : ∀ place : Nat, place < 231 →
      (sizeTable.take 231).getD place 0 = sizeTable.getD place 0 := by
    intro place below
    rw [List.getD_eq_getElem?_getD, List.getD_eq_getElem?_getD, List.getElem?_take, if_pos below]
  have ordered := List.pairwise_iff_getElem.mp sizeTable_grows index.toNat later.toNat
    (by omega) (by omega) (by omega)
  unfold entry
  rw [← taken _ (by omega), ← taken _ (by omega), List.getD_eq_getElem _ _ (by omega),
    List.getD_eq_getElem _ _ (by omega)]
  exact ordered

theorem entry_monotone {index later : Int} (lower : 0 ≤ index) (le : index ≤ later)
    (upper : later ≤ 230) : entry index ≤ entry later := by
  rcases Int.lt_or_eq_of_le le with less | rfl
  · exact Int.le_of_lt (entry_grows lower less upper)
  · exact Int.le_refl _

/-- The last of the growing entries that is at most a size. -/
structure IsFloor (size index : Int) : Prop where
  lower : 0 ≤ index
  upper : index ≤ 230
  below : entry index ≤ size
  last : ∀ later, 0 ≤ later → later ≤ 230 → entry later ≤ size → later ≤ index

theorem countBits_run (fuel : Nat) {v : Int} (positive : 0 < v) (small : v < 2 ^ fuel) :
    ∃ bits : Nat, countBits fuel v = .ok ((bits : Int) + 1) ∧ 2 ^ bits ≤ v ∧ v < 2 ^ (bits + 1) := by
  induction fuel generalizing v with
  | zero =>
      rw [Int.pow_zero] at small
      omega
  | succ fuel ih =>
      rw [Int.pow_succ] at small
      by_cases last : v / 2 = 0
      · refine ⟨0, ?_, ?_, ?_⟩
        · unfold countBits
          simp only
          rw [if_pos last]
          rfl
        · rw [Int.pow_zero]
          omega
        · rw [Nat.zero_add, Int.pow_succ, Int.pow_zero]
          omega
      · obtain ⟨bits, counted, lower, upper⟩ := ih (show 0 < v / 2 by omega) (by omega)
        rw [Int.pow_succ] at upper
        refine ⟨bits + 1, ?_, ?_, ?_⟩
        · unfold countBits
          simp only
          rw [if_neg last, counted]
          rfl
        · rw [Int.pow_succ]
          omega
        · rw [Int.pow_succ, Int.pow_succ]
          omega

/-- The scan stops at the first entry that is small enough. -/
theorem scanSizeTable_run (entries : Nat) {size i : Int} (upper : i ≤ 230)
    (lower : 0 ≤ i - entries) (hit : entry (i - entries) ≤ size) :
    ∃ index, scanSizeTable size (entries + 1) i = .ok index ∧ i - entries ≤ index ∧ index ≤ i ∧
      entry index ≤ size ∧ ∀ later, index < later → later ≤ i → size < entry later := by
  induction entries generalizing i with
  | zero =>
      rw [Int.natCast_zero, Int.sub_zero] at hit lower
      refine ⟨i, ?_, by omega, Int.le_refl _, hit, ?_⟩
      · rw [scanSizeTable, sizeAt_ok lower (by omega), ok_bind, if_pos hit]
        rfl
      · intro later above within
        omega
  | succ entries ih =>
      by_cases enough : entry i ≤ size
      · refine ⟨i, ?_, by omega, Int.le_refl _, enough, ?_⟩
        · rw [scanSizeTable, sizeAt_ok (by omega) (by omega), ok_bind, if_pos enough]
          rfl
        · intro later above within
          omega
      · have next : i - 1 - (entries : Int) = i - ((entries + 1 : Nat) : Int) := by omega
        have found := @ih (i - 1) (by omega) (by omega) (by rw [next]; exact hit)
        obtain ⟨index, scanned, after, before, small, passed⟩ := found
        refine ⟨index, ?_, by omega, by omega, small, ?_⟩
        · rw [scanSizeTable, sizeAt_ok (by omega) (by omega), ok_bind, if_neg enough]
          exact scanned
        · intro later above within
          by_cases first : later = i
          · subst first
            omega
          · exact passed later above (by omega)

theorem getSizeTableIndex_floor {size : Int} (positive : 0 < size) (small : size ≤ maxInt) :
    ∃ index, getSizeTableIndex size = .ok index ∧ IsFloor size index := by
  have limit : maxInt = 2147483647 := rfl
  unfold getSizeTableIndex
  by_cases tiny : size ≤ 16
  · rw [if_pos tiny]
    have there : entry (size - 1) = size := by
      have listed := sizeTable_small (size - 1).toNat (by omega)
      unfold entry
      omega
    refine ⟨size - 1, rfl, by omega, by omega, by omega, ?_⟩
    intro later lower upper below
    by_contra beyond
    have more := entry_grows (show 0 ≤ size - 1 by omega) (show size - 1 < later by omega) upper
    omega
  · rw [if_neg tiny]
    obtain ⟨bits, counted, low, high⟩ := countBits_run 32 positive
      (show size < 2 ^ 32 by omega)
    have least : 4 ≤ bits := by
      by_contra few
      have bound : (2 : Int) ^ (bits + 1) ≤ 2 ^ 4 :=
        pow_le_pow_right₀ (by decide) (by omega)
      omega
    have most : bits ≤ 30 := by
      by_contra many
      have bound : (2 : Int) ^ 31 ≤ 2 ^ bits := pow_le_pow_right₀ (by decide) (by omega)
      omega
    rw [counted, ok_bind]
    dsimp only
    have count : (((bits : Int) + 1) * 8 - 18 - (((bits : Int) + 1) * 8 - 25) + 1).toNat =
        7 + 1 := by omega
    rw [count]
    have power := sizeTable_powers (bits - 4) (by omega)
    have first : entry (((bits : Int) + 1) * 8 - 18 - (7 : Nat)) ≤ size := by
      have place : (((bits : Int) + 1) * 8 - 18 - (7 : Nat)).toNat = 8 * (bits - 4) + 15 := by
        omega
      unfold entry
      rw [place, power, Nat.sub_add_cancel least]
      exact low
    obtain ⟨index, scanned, after, before, below, passed⟩ :=
      scanSizeTable_run 7 (show ((bits : Int) + 1) * 8 - 18 ≤ 230 by omega) (by omega) first
    refine ⟨index, scanned, by omega, by omega, below, ?_⟩
    intro later nonneg upper fits
    by_contra beyond
    by_cases scanned_over : later ≤ ((bits : Int) + 1) * 8 - 18
    · have larger := passed later (by omega) scanned_over
      omega
    · -- behind the scan the entries start at the next power of two
      have next := sizeTable_powers (bits - 3) (by omega)
      have place : (((bits : Int) + 1) * 8 - 17).toNat = 8 * (bits - 3) + 15 := by omega
      have exponent : bits - 3 + 4 = bits + 1 := by omega
      have larger : entry (((bits : Int) + 1) * 8 - 17) ≤ entry later :=
        entry_monotone (by omega) (by omega) upper
      unfold entry at larger fits
      rw [place, next, exponent] at larger
      omega

/-- What `initSizeTable` computes for a place, before it becomes an `int`. -/
def computed (place : Nat) : Int :=
  if place < 8 then (place : Int) + 1
  else
    let v : Int := 2 ^ ((place - 8) / 8 + 4)
    let inc : Int := v / 2 ^ 4
    v - inc * 2 ^ 3 + ((place - 8) % 8 + 1 : Nat) * inc

/-- Every place but the last holds it. -/
theorem sizeTable_computed : ∀ place < 231, sizeTable.getD place 0 = computed place := by
  decide +kernel

/-- The index is that of the greatest entry that is at most the size, when the next one holds what was
computed for it, and up to it the entries grow. -/
theorem getSizeTableIndex_exact (size : Int) (positive : 1 ≤ size) (small : size ≤ maxInt) :
    ∃ index : Int, getSizeTableIndex size = .ok index ∧ 0 ≤ index ∧ index < sizeTableCount ∧
      entry index = computed index.toNat ∧ entry index ≤ size ∧
      (entry (index + 1) = computed (index + 1).toNat → size < entry (index + 1)) ∧
      ∀ lower, 0 ≤ lower → lower < index → entry lower < entry index := by
  have count : (sizeTableCount : Int) = 232 := rfl
  obtain ⟨index, found, floor⟩ := getSizeTableIndex_floor positive small
  have lower := floor.lower
  have upper := floor.upper
  refine ⟨index, found, lower, by omega, sizeTable_computed _ (by omega), floor.below,
    fun kept => ?_, fun earlier least less => entry_grows least less upper⟩
  have within : index + 1 ≤ 230 := by
    by_contra last
    rw [show index + 1 = 231 by omega, entry_last] at kept
    exact absurd kept (by decide)
  by_contra fits
  have beyond := floor.last (index + 1) (by omega) within (by omega)
  omega

theorem getSizeTableIndex_maximum :
    ∃ index : Int, getSizeTableIndex maxInt = .ok index ∧ 0 ≤ index ∧ index < sizeTableCount ∧
      entry index = computed index.toNat ∧ entry index ≤ maxInt ∧
      (entry (index + 1) = computed (index + 1).toNat → maxInt < entry (index + 1)) ∧
      ∀ lower, 0 ≤ lower → lower < index → entry lower < entry index :=
  getSizeTableIndex_exact maxInt (by decide) (by decide)

/-- The index and the two it is clamped by are places of the table. -/
structure InTable (this : AdaptiveReceiveBufferSizePredictor) : Prop where
  minLower : 0 ≤ this.minIndex
  minUpper : this.minIndex ≤ 231
  maxLower : 0 ≤ this.maxIndex
  maxUpper : this.maxIndex ≤ 230
  lower : 0 ≤ this.index
  upper : this.index ≤ 231
  predicted : this.nextReceiveBuffSz = entry this.index

/-- The index lies between the two it is clamped by, and these keep the bounds. -/
structure Clamped (minimum maximum : Int) (this : AdaptiveReceiveBufferSizePredictor) : Prop where
  inTable : this.InTable
  least : minimum ≤ entry this.minIndex
  most : entry this.maxIndex ≤ maximum
  above : this.minIndex ≤ this.index
  below : this.index ≤ this.maxIndex

section Feedback

variable {this : AdaptiveReceiveBufferSizePredictor} {minimum maximum : Int}

/-- Feedback leaves the index, or moves it one down or four up within the two clamps. -/
theorem previousReceiveBufferSize_run (inTable : this.InTable) (previous : Int) :
    ∃ next, this.previousReceiveBufferSize previous = .ok next ∧
      next.minIndex = this.minIndex ∧ next.maxIndex = this.maxIndex ∧
      next.nextReceiveBuffSz = entry next.index ∧
      (next.index = this.index ∨ next.index = max (this.index - 1) this.minIndex ∨
        next.index = min (this.index + 4) this.maxIndex) := by
  have minLower := inTable.minLower
  have minUpper := inTable.minUpper
  have maxLower := inTable.maxLower
  have maxUpper := inTable.maxUpper
  have lower := inTable.lower
  have upper := inTable.upper
  have down : indexDecrement = 1 := rfl
  have up : indexIncrement = 4 := rfl
  unfold previousReceiveBufferSize
  rw [down, up, sizeAt_ok (by omega) (by omega), ok_bind]
  by_cases small : previous ≤ entry (max 0 (this.index - 1 - 1))
  · rw [if_pos small]
    by_cases twice : this.decreaseNow = true
    · rw [if_pos twice]
      dsimp only
      rw [sizeAt_ok (by omega) (by omega), ok_bind]
      exact ⟨_, rfl, rfl, rfl, rfl, Or.inr (Or.inl rfl)⟩
    · rw [if_neg twice]
      exact ⟨_, rfl, rfl, rfl, inTable.predicted, Or.inl rfl⟩
  · rw [if_neg small]
    by_cases large : this.nextReceiveBuffSz ≤ previous
    · rw [if_pos large]
      dsimp only
      rw [sizeAt_ok (by omega) (by omega), ok_bind]
      exact ⟨_, rfl, rfl, rfl, rfl, Or.inr (Or.inr rfl)⟩
    · rw [if_neg large]
      exact ⟨_, rfl, rfl, rfl, inTable.predicted, Or.inl rfl⟩

theorem inTable_kept (inTable : this.InTable) (previous : Int) :
    ∃ next, this.previousReceiveBufferSize previous = .ok next ∧ next.InTable := by
  obtain ⟨next, ran, sameMin, sameMax, predicted, moved⟩ :=
    previousReceiveBufferSize_run inTable previous
  have minLower := inTable.minLower
  have minUpper := inTable.minUpper
  have maxLower := inTable.maxLower
  have maxUpper := inTable.maxUpper
  have lower := inTable.lower
  have upper := inTable.upper
  exact ⟨next, ran, by omega, by omega, by omega, by omega, by omega, by omega, predicted⟩

theorem clamped_kept (clamped : this.Clamped minimum maximum) (previous : Int) :
    ∃ next, this.previousReceiveBufferSize previous = .ok next ∧ next.Clamped minimum maximum := by
  obtain ⟨kept, keptRan, inTable⟩ := inTable_kept clamped.inTable previous
  obtain ⟨next, ran, sameMin, sameMax, predicted, moved⟩ :=
    previousReceiveBufferSize_run clamped.inTable previous
  have same : kept = next := by
    rw [keptRan] at ran
    exact Except.ok.inj ran
  have above := clamped.above
  have below := clamped.below
  have least := clamped.least
  have most := clamped.most
  refine ⟨next, ran, same ▸ inTable, ?_, ?_, by omega, by omega⟩
  · rw [sameMin]
    exact least
  · rw [sameMax]
    exact most

/-- What every feedback call keeps, a whole run of them keeps. -/
theorem feed_keeps {invariant : AdaptiveReceiveBufferSizePredictor → Prop}
    (step : ∀ this previous, invariant this →
      ∃ next, this.previousReceiveBufferSize previous = .ok next ∧ invariant next)
    (start : invariant this) (feedback : List Int) :
    ∃ final, this.feed feedback = .ok final ∧ invariant final := by
  induction feedback generalizing this with
  | nil => exact ⟨this, rfl, start⟩
  | cons previous rest ih =>
      obtain ⟨next, ran, kept⟩ := step this previous start
      obtain ⟨final, fed, holds⟩ := ih kept
      refine ⟨final, ?_, holds⟩
      rw [feed, ran, ok_bind]
      exact fed

theorem Clamped.bounds (clamped : this.Clamped minimum maximum) :
    minimum ≤ this.nextReceiveBufferSize ∧ this.nextReceiveBufferSize ≤ maximum := by
  have inTable := clamped.inTable
  have predicted := inTable.predicted
  have least := clamped.least
  have most := clamped.most
  have lower := entry_monotone inTable.minLower clamped.above
    (Int.le_trans clamped.below inTable.maxUpper)
  have upper := entry_monotone inTable.lower clamped.below inTable.maxUpper
  unfold nextReceiveBufferSize
  omega

end Feedback

section Construction

variable {minimum initial maximum : Int}

section

variable (decreaseNow : Bool) (positive : 0 < minimum) (first : minimum ≤ initial)
  (second : initial ≤ maximum)

include decreaseNow positive first second

/-- Each bound is rounded inwards and the initial size downwards. -/
theorem init_run (small : maximum ≤ maxInt) :
    ∃ this, init decreaseNow minimum initial maximum = .ok this ∧ this.InTable ∧
      IsFloor initial this.index ∧ IsFloor maximum this.maxIndex ∧
      (∀ later, 0 ≤ later → later ≤ 230 → (minimum ≤ entry later ↔ this.minIndex ≤ later)) := by
  obtain ⟨lowest, lowFound, low⟩ :=
    getSizeTableIndex_floor positive (show minimum ≤ maxInt by omega)
  obtain ⟨highest, highFound, high⟩ :=
    getSizeTableIndex_floor (show 0 < maximum by omega) small
  obtain ⟨index, found, floor⟩ :=
    getSizeTableIndex_floor (show 0 < initial by omega) (show initial ≤ maxInt by omega)
  have lowLower := low.lower
  have lowUpper := low.upper
  have lowBelow := low.below
  have highLower := high.lower
  have highUpper := high.upper
  have highBelow := high.below
  have lower := floor.lower
  have upper := floor.upper
  have notAbove : ¬maximum < entry highest := by omega
  unfold init
  rw [lowFound, ok_bind, sizeAt_ok low.lower (by omega), ok_bind, highFound, ok_bind,
    sizeAt_ok high.lower (by omega), ok_bind, found, ok_bind, sizeAt_ok floor.lower (by omega),
    ok_bind, if_neg notAbove]
  by_cases between : entry lowest < minimum
  · rw [if_pos between]
    refine ⟨_, rfl, ⟨?_, ?_, highLower, highUpper, lower, ?_, rfl⟩, floor, high, ?_⟩
    · show 0 ≤ lowest + 1
      omega
    · show lowest + 1 ≤ 231
      omega
    · show index ≤ 231
      omega
    · intro later nonneg within
      show minimum ≤ entry later ↔ lowest + 1 ≤ later
      constructor
      · intro reached
        by_contra before
        have less := entry_monotone nonneg (show later ≤ lowest by omega) lowUpper
        omega
      · intro after
        by_contra short
        have last := low.last later nonneg within (by omega)
        omega
  · rw [if_neg between]
    refine ⟨_, rfl, ⟨lowLower, ?_, highLower, highUpper, lower, ?_, rfl⟩, floor, high, ?_⟩
    · show lowest ≤ 231
      omega
    · show index ≤ 231
      omega
    · intro later nonneg within
      show minimum ≤ entry later ↔ lowest ≤ later
      constructor
      · intro reached
        by_contra before
        have less := entry_grows nonneg (show later < lowest by omega) lowUpper
        omega
      · intro after
        have more := entry_monotone lowLower after within
        omega

theorem make_init :
    make decreaseNow minimum initial maximum = init decreaseNow minimum initial maximum := by
  unfold make
  rw [if_neg (by omega), if_neg (by omega), if_neg (by omega)]

end

theorem exists_entry_iff : (∃ size ∈ sizeTable, minimum ≤ size ∧ size ≤ initial) ↔
    ∃ index, 0 ≤ index ∧ index ≤ 231 ∧ minimum ≤ entry index ∧ entry index ≤ initial := by
  have count : sizeTableCount = 232 := rfl
  have size := sizeTable_length
  constructor
  · rintro ⟨size, listed, least, most⟩
    obtain ⟨place, below, rfl⟩ := List.getElem_of_mem listed
    have same : entry place = sizeTable[place] := by
      unfold entry
      rw [Int.toNat_natCast, List.getD_eq_getElem _ _ below]
    refine ⟨place, by omega, by omega, ?_, ?_⟩
    · rw [same]
      exact least
    · rw [same]
      exact most
  · rintro ⟨index, lower, upper, least, most⟩
    have below : index.toNat < sizeTable.length := by omega
    have same : entry index = sizeTable[index.toNat] := by
      unfold entry
      rw [List.getD_eq_getElem _ _ below]
    rw [same] at least most
    exact ⟨_, List.getElem_mem below, least, most⟩

end Construction

/-- The predicted size lies within the bounds and the index in the table, after construction and
after every feedback call. -/
def StaysWithin (minimum initial maximum : Int) : Prop :=
  ∀ (decreaseNow : Bool) (feedback : List Int),
    ∃ fresh this, make decreaseNow minimum initial maximum = .ok fresh ∧
      fresh.feed feedback = .ok this ∧
      minimum ≤ this.nextReceiveBufferSize ∧ this.nextReceiveBufferSize ≤ maximum ∧
      0 ≤ this.index ∧ this.index < sizeTableCount

section Bounds

variable {minimum initial maximum : Int}

theorem staysWithin_of_entry (positive : 0 < minimum) (first : minimum ≤ initial)
    (second : initial ≤ maximum) (small : maximum ≤ maxInt)
    (listed : ∃ size ∈ sizeTable, minimum ≤ size ∧ size ≤ initial) :
    StaysWithin minimum initial maximum := by
  intro decreaseNow feedback
  obtain ⟨fresh, made, inTable, floor, high, low⟩ :=
    init_run decreaseNow positive first second small
  obtain ⟨index, lower, upper, least, most⟩ := exists_entry_iff.mp listed
  have grown : index ≤ 230 := by
    by_contra last
    have wrapped : entry index = -2147483648 := by
      rw [show index = 231 by omega]
      exact entry_last
    omega
  have reached := floor.last index lower grown most
  have after := (low index lower grown).mp least
  have minLower := inTable.minLower
  have floorBelow := floor.below
  have topped := high.last fresh.index floor.lower floor.upper (by omega)
  have clamped : fresh.Clamped minimum maximum := by
    refine ⟨inTable, ?_, high.below, by omega, topped⟩
    exact (low fresh.minIndex minLower (by omega)).mpr (Int.le_refl _)
  obtain ⟨this, fed, kept⟩ :=
    feed_keeps (fun this previous holds => clamped_kept holds previous) clamped feedback
  have count : (sizeTableCount : Int) = 232 := rfl
  have inside := kept.inTable
  have final := inside.upper
  refine ⟨fresh, this, ?_, fed, kept.bounds.1, kept.bounds.2, inside.lower, by omega⟩
  rw [make_init decreaseNow positive first second, made]

/-- The bounds are kept exactly when some entry of the table lies between the minimum and the
initial size. -/
theorem staysWithin_iff (positive : 0 < minimum) (first : minimum ≤ initial)
    (second : initial ≤ maximum) (small : maximum ≤ maxInt) :
    StaysWithin minimum initial maximum ↔
      ∃ size ∈ sizeTable, minimum ≤ size ∧ size ≤ initial := by
  constructor
  · intro stays
    obtain ⟨fresh, this, made, fed, least, -⟩ := stays false []
    obtain ⟨there, found, inTable, floor, -, -⟩ := init_run false positive first second small
    rw [make_init false positive first second, found] at made
    have same : there = this := by
      rw [← Except.ok.inj made] at fed
      exact Except.ok.inj fed
    subst same
    have predicted := inTable.predicted
    unfold nextReceiveBufferSize at least
    rw [predicted] at least
    exact exists_entry_iff.mpr ⟨_, inTable.lower, inTable.upper, least, floor.below⟩
  · exact staysWithin_of_entry positive first second small

/-- 18 is an entry of the table. -/
theorem staysWithin_seventeen_eighteen : StaysWithin 17 18 19 := by
  apply (staysWithin_iff (by decide) (by decide) (by decide) (by decide)).mpr
  exact ⟨18, by decide +kernel, by decide, by decide⟩

/-- 17 is none: the first prediction is 16. -/
theorem sixteen_for_seventeen : ¬StaysWithin 17 17 17 := by
  intro stays
  obtain ⟨fresh, this, made, fed, least, -⟩ := stays false []
  have start : make false 17 17 17 = .ok ⟨false, 16, 15, 15, 16⟩ := by decide +kernel
  rw [start] at made
  rw [← Except.ok.inj made] at fed
  rw [← Except.ok.inj fed] at least
  revert least
  decide

end Bounds

end AdaptiveReceiveBufferSizePredictor

end Cetty
