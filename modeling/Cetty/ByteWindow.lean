import Mathlib.Data.List.Basic

/-!
# Windows of a list

A memory block is a list of cells. `window` reads a run of consecutive cells,
`overwrite` replaces one; the lemmas say how the two meet. Nothing here knows
what the cells hold.
-/

namespace ByteWindow

variable {Cell : Type*}

def window (cells : List Cell) (start count : Nat) : List Cell :=
  (cells.drop start).take count

def overwrite (cells : List Cell) (start : Nat) (source : List Cell) : List Cell :=
  cells.take start ++ source ++ cells.drop (start + source.length)

@[simp] theorem window_zero_count (cells : List Cell) (start : Nat) :
    window cells start 0 = [] := by
  simp [window]

@[simp] theorem window_whole (cells : List Cell) : window cells 0 cells.length = cells := by
  simp [window]

theorem window_length {cells : List Cell} {start count : Nat}
    (inside : start + count ≤ cells.length) : (window cells start count).length = count := by
  simp only [window, List.length_take, List.length_drop]
  omega

section

variable (cells : List Cell)

include cells

theorem window_prefix (count : Nat) :
    window cells 0 count = cells.take count := by
  simp [window]

theorem window_drop (start count : Nat) (amount : Nat) :
    (window cells start count).drop amount = window cells (start + amount) (count - amount) := by
  simp only [window, List.drop_take, List.drop_drop]

theorem window_take (start count amount : Nat) (within : amount ≤ count) :
    (window cells start count).take amount = window cells start amount := by
  simp only [window, List.take_take]
  rw [Nat.min_eq_left within]

/-- A window of a window is a window of the original block. -/
theorem window_window (start count inner amount : Nat)
    (within : inner + amount ≤ count) :
    window (window cells start count) inner amount = window cells (start + inner) amount := by
  change ((window cells start count).drop inner).take amount = _
  rw [window_drop, window_take _ _ _ _ (by omega)]

theorem window_append (start first second : Nat) :
    window cells start (first + second) =
      window cells start first ++ window cells (start + first) second := by
  simp only [window, List.take_add, List.drop_drop]

end

theorem overwrite_length {cells source : List Cell} {start : Nat}
    (inside : start + source.length ≤ cells.length) :
    (overwrite cells start source).length = cells.length := by
  simp only [overwrite, List.length_append, List.length_take, List.length_drop]
  omega

@[simp] theorem overwrite_nothing (cells : List Cell) (start : Nat) :
    overwrite cells start [] = cells := by
  simp [overwrite]

section

variable {cells source : List Cell}

/-- A block replaced as a whole is the source. -/
theorem overwrite_whole (full : cells.length = source.length) :
    overwrite cells 0 source = source := by
  simp [overwrite, full]

theorem window_overwrite_same {start : Nat}
    (inside : start ≤ cells.length) :
    window (overwrite cells start source) start source.length = source := by
  unfold window overwrite
  rw [List.append_assoc, List.drop_append_of_le_length (by rw [List.length_take]; omega)]
  simp

/-- Cells before the replaced run keep their values. -/
theorem window_overwrite_before {start count target : Nat}
    (before : start + count ≤ target) (inside : target ≤ cells.length) :
    window (overwrite cells target source) start count = window cells start count := by
  unfold window overwrite
  rw [List.append_assoc, List.drop_append_of_le_length (by rw [List.length_take]; omega),
    List.take_append_of_le_length (by rw [List.length_drop, List.length_take]; omega),
    List.drop_take, List.take_take, Nat.min_eq_left (by omega)]

/-- A run written directly behind a window extends it. -/
theorem window_overwrite_extend {start count : Nat}
    (inside : start + count ≤ cells.length) :
    window (overwrite cells (start + count) source) start (count + source.length) =
      window cells start count ++ source := by
  rw [window_append, window_overwrite_before (Nat.le_refl _) inside, window_overwrite_same inside]

end

/-- Dropping a front that two blocks share keeps the extension visible. -/
theorem window_extend_drop {first second source : List Cell} {start count : Nat}
    (extended : window first 0 (start + count + source.length) =
      window second 0 (start + count) ++ source)
    (inside : start + count ≤ second.length) :
    window first start (count + source.length) = window second start count ++ source := by
  have size : (window second 0 (start + count)).length = start + count := window_length (by omega)
  have dropped := congrArg (List.drop start) extended
  rw [List.drop_append_of_le_length (by omega), window_drop, window_drop] at dropped
  have front : start + count + source.length - start = count + source.length := by omega
  have back : start + count - start = count := by omega
  rwa [Nat.zero_add, front, back] at dropped

theorem overwrite_cons {cells : List Cell} {start : Nat} (first : Cell) (rest : List Cell)
    (inside : start < cells.length) :
    overwrite (cells.set start first) (start + 1) rest = overwrite cells start (first :: rest) := by
  unfold overwrite
  have front : (cells.set start first).take (start + 1) = cells.take start ++ [first] := by
    rw [List.take_set, List.take_add_one, List.getElem?_eq_getElem inside]
    have size : (cells.take start).length = start := by
      rw [List.length_take]
      omega
    rw [List.set_append_right _ _ (by omega), size, Nat.sub_self]
    rfl
  have back : (cells.set start first).drop (start + 1 + rest.length) =
      cells.drop (start + (first :: rest).length) := by
    rw [List.drop_set_of_lt (by omega), List.length_cons]
    congr 1
    omega
  rw [front, back, List.append_assoc (cells.take start)]
  rfl

theorem overwrite_append {cells first second : List Cell} {start : Nat}
    (inside : start + first.length ≤ cells.length) :
    overwrite (overwrite cells start first) (start + first.length) second =
      overwrite cells start (first ++ second) := by
  induction first generalizing cells start with
  | nil => simp
  | cons head tail ih =>
      rw [List.length_cons] at inside
      rw [← overwrite_cons head tail (by omega), List.cons_append, ← overwrite_cons head _ (by omega),
        ← ih (by rw [List.length_set]; omega)]
      congr 1
      rw [List.length_cons]
      omega

theorem overwrite_middle {front middle back source : List Cell} {start : Nat}
    (inside : start + source.length ≤ middle.length) :
    overwrite (front ++ middle ++ back) (front.length + start) source =
      front ++ overwrite middle start source ++ back := by
  unfold overwrite
  have head : (front ++ middle ++ back).take (front.length + start) =
      front ++ middle.take start := by
    rw [List.append_assoc, List.take_append, List.take_of_length_le (by omega),
      Nat.add_sub_cancel_left, List.take_append_of_le_length (by omega)]
  have tail : (front ++ middle ++ back).drop (front.length + start + source.length) =
      middle.drop (start + source.length) ++ back := by
    rw [List.append_assoc, Nat.add_assoc, ← List.drop_drop, List.drop_left' rfl,
      List.drop_append_of_le_length (by omega)]
  rw [head, tail]
  simp

/-- A run replaced in a window is replaced in the block. -/
theorem overwrite_window {cells source : List Cell} {start count inner : Nat}
    (within : start + count ≤ cells.length) (inside : inner + source.length ≤ count) :
    window (overwrite cells (start + inner) source) start count =
      overwrite (window cells start count) inner source := by
  have size : (window cells start count).length = count := window_length within
  have front : (cells.take start).length = start := by
    rw [List.length_take]
    omega
  have split : cells.take start ++ window cells start count ++ cells.drop (start + count) =
      cells := by
    unfold window
    rw [List.append_assoc, ← List.drop_drop, List.take_append_drop, List.take_append_drop]
  have replaced : overwrite cells (start + inner) source =
      cells.take start ++ overwrite (window cells start count) inner source ++
        cells.drop (start + count) := by
    have middle : overwrite (cells.take start ++ window cells start count ++
        cells.drop (start + count)) ((cells.take start).length + inner) source =
        cells.take start ++ overwrite (window cells start count) inner source ++
          cells.drop (start + count) := overwrite_middle (by omega)
    rw [front, split] at middle
    exact middle
  have long : (overwrite (window cells start count) inner source).length = count := by
    rw [overwrite_length (by omega), size]
  rw [replaced]
  unfold window at long ⊢
  rw [List.append_assoc, List.drop_left' front, List.take_left' long]

/-- A run of cells that are there already changes nothing. -/
theorem overwrite_same_iff {cells source : List Cell} {start : Nat}
    (inside : start + source.length ≤ cells.length) :
    overwrite cells start source = cells ↔ window cells start source.length = source := by
  constructor
  · intro same
    have kept : window (overwrite cells start source) start source.length = source :=
      window_overwrite_same (by omega)
    rw [same] at kept
    exact kept
  · intro same
    unfold overwrite
    unfold window at same
    have rest : cells.drop (start + source.length) = (cells.drop start).drop source.length :=
      List.drop_drop.symm
    rw [rest, List.append_assoc]
    calc cells.take start ++ (source ++ (cells.drop start).drop source.length)
        = cells.take start ++ ((cells.drop start).take source.length ++
            (cells.drop start).drop source.length) := by rw [same]
      _ = cells := by rw [List.take_append_drop, List.take_append_drop]

end ByteWindow
