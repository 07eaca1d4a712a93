import Mathlib.Data.List.Basic

/-!
# Prefix-stable decoding

A decoder that recognises one value at the front of its input, says how many
cells the value used, and never revises that answer when more input follows.
Draining such a decoder does not depend on where the input was cut: the values
found so far and the unconsumed tail are all the state there is.
-/

variable {Cell Value : Type*}

/-- The two laws are fields, so every decoder at hand can be drained and cut. -/
structure PrefixDecoder (Cell Value : Type*) where
  next : List Cell → Option (Value × Nat)
  progress : ∀ {input value count}, next input = some (value, count) →
    0 < count ∧ count ≤ input.length
  stable : ∀ {input value count} (more : List Cell), next input = some (value, count) →
    next (input ++ more) = some (value, count)

namespace PrefixDecoder

/-- All values at the front of the input, in order, and the tail in which none is complete. -/
def drain (decoder : PrefixDecoder Cell Value) (input : List Cell) : List Value × List Cell :=
  match _found : decoder.next input with
  | none => ([], input)
  | some (value, count) =>
      let rest := decoder.drain (input.drop count)
      (value :: rest.1, rest.2)
termination_by input.length
decreasing_by
  have moved := decoder.progress _found
  rw [List.length_drop]
  omega

variable (decoder : PrefixDecoder Cell Value)

variable {input : List Cell}

theorem drain_of_none (absent : decoder.next input = none) :
    decoder.drain input = ([], input) := by
  unfold drain
  split
  · rfl
  · rename_i found
    rw [absent] at found
    cases found

theorem drain_of_some {value : Value} {count : Nat}
    (present : decoder.next input = some (value, count)) :
    decoder.drain input =
      (value :: (decoder.drain (input.drop count)).1, (decoder.drain (input.drop count)).2) := by
  conv_lhs => unfold drain
  split
  · rename_i found
    rw [present] at found
    cases found
  · rename_i found
    rw [present] at found
    cases found
    rfl

/-- Induction on the values still to be found. -/
theorem drain_induction {motive : List Cell → Prop}
    (stuck : ∀ input, decoder.next input = none → motive input)
    (step : ∀ input value count, decoder.next input = some (value, count) →
      motive (input.drop count) → motive input) (input : List Cell) : motive input := by
  generalize size : input.length = bound
  induction bound using Nat.strongRecOn generalizing input with
  | _ bound smaller =>
      cases found : decoder.next input with
      | none => exact stuck input found
      | some pair =>
          obtain ⟨value, count⟩ := pair
          have moved := decoder.progress found
          refine step input value count found (smaller (input.drop count).length ?_ _ rfl)
          rw [List.length_drop]
          omega

@[simp] theorem drain_nil : decoder.drain [] = ([], []) := by
  apply decoder.drain_of_none
  cases found : decoder.next [] with
  | none => rfl
  | some pair =>
      obtain ⟨value, count⟩ := pair
      have moved := decoder.progress found
      simp at moved
      omega

theorem drain_tail_length (input : List Cell) :
    (decoder.drain input).2.length ≤ input.length := by
  induction input using decoder.drain_induction with
  | stuck input absent => simp [decoder.drain_of_none absent]
  | step input value count present ih =>
      rw [decoder.drain_of_some present]
      rw [List.length_drop] at ih
      exact Nat.le_trans ih (Nat.sub_le _ _)

/-- Draining a longer input first drains the shorter one, then goes on from its tail. -/
theorem drain_append (input more : List Cell) :
    decoder.drain (input ++ more) =
      ((decoder.drain input).1 ++ (decoder.drain ((decoder.drain input).2 ++ more)).1,
        (decoder.drain ((decoder.drain input).2 ++ more)).2) := by
  induction input using decoder.drain_induction with
  | stuck input absent => simp [decoder.drain_of_none absent]
  | step input value count present ih =>
      have moved := decoder.progress present
      rw [decoder.drain_of_some (decoder.stable more present), decoder.drain_of_some present,
        List.drop_append_of_le_length moved.2, ih]
      rfl

/-- One delivery: the tail kept so far, extended by a piece, is drained again. -/
def feed (state : List Value × List Cell) (piece : List Cell) : List Value × List Cell :=
  (state.1 ++ (decoder.drain (state.2 ++ piece)).1, (decoder.drain (state.2 ++ piece)).2)

end PrefixDecoder
