import Cetty.ByteWindow

/-!
# A list kept in segments

A list of segments stands for their concatenation. `offset` is where a segment begins,
`Holds` says which segment has the cell of an index; the lemmas say what a window or a
replaced run inside a segment is in the whole. Nothing here knows what the cells hold.
-/

namespace ListSegments

open ByteWindow

variable {Cell : Type*} {segments : List (List Cell)}

def offset (segments : List (List Cell)) (position : Nat) : Nat :=
  (segments.take position).flatten.length

/-- The cell at `index` lies in the segment at `position`. -/
structure Holds (segments : List (List Cell)) (index position : Nat) : Prop where
  present : position < segments.length
  lower : offset segments position ≤ index
  upper : index < offset segments (position + 1)

@[simp] theorem offset_zero (segments : List (List Cell)) : offset segments 0 = 0 := by
  simp [offset]

@[simp] theorem offset_cons_succ (first : List Cell) (rest : List (List Cell)) (position : Nat) :
    offset (first :: rest) (position + 1) = first.length + offset rest position := by
  simp [offset]

theorem offset_end (segments : List (List Cell)) :
    offset segments segments.length = segments.flatten.length := by
  simp [offset]

variable {position : Nat}

theorem offset_next {segment : List Cell}
    (found : segments[position]? = some segment) :
    offset segments (position + 1) = offset segments position + segment.length := by
  induction segments generalizing position with
  | nil => cases found
  | cons first rest ih =>
      cases position with
      | zero =>
          cases found
          simp
      | succ position =>
          rw [offset_cons_succ, ih found, offset_cons_succ, Nat.add_assoc]

theorem offset_step (segments : List (List Cell)) (position : Nat) :
    offset segments position ≤ offset segments (position + 1) := by
  cases found : segments[position]? with
  | none =>
      have beyond := List.getElem?_eq_none_iff.mp found
      have same : offset segments position = offset segments (position + 1) := by
        unfold offset
        rw [List.take_of_length_le beyond, List.take_of_length_le (Nat.le_succ_of_le beyond)]
      exact Nat.le_of_eq same
  | some segment =>
      rw [offset_next found]
      omega

theorem offset_mono (segments : List (List Cell)) {first second : Nat} (ordered : first ≤ second) :
    offset segments first ≤ offset segments second := by
  induction ordered with
  | refl => exact Nat.le_refl _
  | step before ih => exact Nat.le_trans ih (offset_step segments _)

theorem exists_holds {index : Nat} (inside : index < segments.flatten.length) :
    ∃ position, Holds segments index position := by
  induction segments generalizing index with
  | nil => cases inside
  | cons first rest ih =>
      by_cases here : index < first.length
      · refine ⟨0, Nat.succ_pos _, by simp, ?_⟩
        rw [offset_cons_succ, offset_zero]
        omega
      · rw [List.flatten_cons, List.length_append] at inside
        obtain ⟨position, held⟩ := ih (show index - first.length < rest.flatten.length by omega)
        have lower := held.lower
        have upper := held.upper
        refine ⟨position + 1, Nat.succ_lt_succ held.present, ?_, ?_⟩
        · rw [offset_cons_succ]
          omega
        · rw [offset_cons_succ]
          omega

theorem Holds.unique {index first second : Nat} (here : Holds segments index first)
    (there : Holds segments index second) : first = second := by
  by_contra differs
  rcases Nat.lt_or_gt_of_ne differs with before | behind
  · have ordered := offset_mono segments (show first + 1 ≤ second from before)
    have upper := here.upper
    have lower := there.lower
    omega
  · have ordered := offset_mono segments (show second + 1 ≤ first from behind)
    have upper := there.upper
    have lower := here.lower
    omega

theorem Holds.segment {index : Nat} (held : Holds segments index position) :
    ∃ segment, segments[position]? = some segment ∧
      index - offset segments position < segment.length := by
  have present := held.present
  refine ⟨segments[position], List.getElem?_eq_getElem present, ?_⟩
  have next := offset_next (List.getElem?_eq_getElem present)
  have lower := held.lower
  have upper := held.upper
  omega

/-- The whole around a segment. -/
theorem flatten_split {segment : List Cell}
    (found : segments[position]? = some segment) :
    ∃ front back, segments.flatten = front ++ segment ++ back ∧
      front.length = offset segments position ∧
      ∀ other, (segments.set position other).flatten = front ++ other ++ back := by
  induction segments generalizing position with
  | nil => cases found
  | cons first rest ih =>
      cases position with
      | zero =>
          cases found
          exact ⟨[], rest.flatten, by simp, by simp, by simp⟩
      | succ position =>
          obtain ⟨front, back, whole, size, replaced⟩ := ih found
          refine ⟨first ++ front, back, ?_, ?_, ?_⟩
          · rw [List.flatten_cons, whole]
            simp
          · rw [List.length_append, size, offset_cons_succ]
          · intro other
            rw [List.set_cons_succ, List.flatten_cons, replaced]
            simp

/-- A window inside a segment is a window of the whole. -/
theorem window_segment {start count : Nat} {segment : List Cell}
    (found : segments[position]? = some segment) (within : start + count ≤ segment.length) :
    window segments.flatten (offset segments position + start) count =
      window segment start count := by
  obtain ⟨front, back, whole, size, -⟩ := flatten_split found
  rw [whole, ← size]
  unfold window
  rw [List.append_assoc, ← List.drop_drop, List.drop_left' rfl,
    List.drop_append_of_le_length (by omega),
    List.take_append_of_le_length (by rw [List.length_drop]; omega)]

/-- A run replaced inside a segment is replaced in the whole. -/
theorem overwrite_segment {start : Nat} {segment source : List Cell}
    (found : segments[position]? = some segment) (within : start + source.length ≤ segment.length) :
    (segments.set position (overwrite segment start source)).flatten =
      overwrite segments.flatten (offset segments position + start) source := by
  obtain ⟨front, back, whole, size, replaced⟩ := flatten_split found
  rw [replaced, whole, ← size, overwrite_middle within]

end ListSegments
