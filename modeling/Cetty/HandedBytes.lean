import Cetty.DiscardedBytes

/-!
# The bytes of a slice

What the slice of a range holds. A composite buffer cuts its components between the indices they
have now, so the slice of one whose components were moved after they were composed holds other
bytes than the range does.
-/

namespace Cetty

open MachineInt ByteWindow

namespace ChannelBuffer

mutual

/-- The bytes of the slice of a range. -/
def slicedBytes : ChannelBuffer → Nat → Nat → List Byte
  | heap buffer, index, length => window buffer.arry index length
  | dynamic _ _ buffer _, index, length => window buffer.arry index length
  | sliced buffer adjustment _ _, index, length =>
      window buffer.content (adjustment.toNat + index) length
  | truncated buffer _ _, index, length => slicedBytes buffer index length
  | duplicated buffer _, index, length => slicedBytes buffer index length
  | readOnly buffer _, index, length => slicedBytes buffer index length
  | composite _ components _ _ _, index, length => enteredBytes components index length

/-- The component of the index is cut from there on, up to its writer index. -/
def enteredBytes : List ChannelBuffer → Nat → Nat → List Byte
  | [], _, _ => []
  | component :: rest, index, length =>
      if component.content.length ≤ index then
        enteredBytes rest (index - component.content.length) length
      else if length ≤ component.indexed.writerIdx.toNat - index then
        slicedBytes component index length
      else
        slicedBytes component index (component.indexed.writerIdx.toNat - index) ++
          followingBytes rest (length - (component.indexed.writerIdx.toNat - index))

/-- The components behind it are cut between their own indices. -/
def followingBytes : List ChannelBuffer → Nat → List Byte
  | [], _ => []
  | component :: rest, length =>
      if length ≤ component.indexed.writerIdx.toNat - component.indexed.readerIdx.toNat then
        slicedBytes component component.indexed.readerIdx.toNat length
      else
        slicedBytes component component.indexed.readerIdx.toNat
            (component.indexed.writerIdx.toNat - component.indexed.readerIdx.toNat) ++
          followingBytes rest (length -
            (component.indexed.writerIdx.toNat - component.indexed.readerIdx.toNat))

end

/-- The slices of a buffer are known. -/
def SlicesKnown (buffer : ChannelBuffer) : Prop :=
  ∀ index length : Nat, index + length ≤ buffer.content.length →
    ∀ part, buffer.slice index length = .ok part →
      part.content = buffer.slicedBytes index length

section Slices

variable {components parts : List ChannelBuffer}

/-- The loop of `decompose` behind the component it starts at. -/
theorem decomposeFrom_following (built : ∀ component ∈ components, component.WellBuilt)
    (known : ∀ component ∈ components, component.SlicesKnown) {length : Nat}
    (ran : decomposeFrom (slicers components) none length = .ok parts) :
    componentContent parts = followingBytes components length := by
  induction components generalizing length parts with
  | nil =>
      rw [slicers, decomposeFrom] at ran
      cases ran
  | cons component rest ih =>
      have ran_ : decomposeFrom ((component, slice component) :: slicers rest)
          ((none : Option Nat).map Nat.cast) length = .ok parts := ran
      obtain ⟨-, -, most⟩ := indexed_inside (built component List.mem_cons_self)
      rw [decomposeFrom_cons_iff (built component List.mem_cons_self)] at ran_
      obtain ⟨first, count, starts, total, held⟩ := ran_
      have starts_ : (first : Int) = component.indexed.readerIdx := starts
      have here := known component List.mem_cons_self
      have reader : component.indexed.readerIdx.toNat = first := by omega
      have shown : component.indexed.writerIdx.toNat - component.indexed.readerIdx.toNat =
          count := by omega
      rw [followingBytes, shown, reader]
      rcases held with ⟨fits, part, cut, rfl⟩ | ⟨beyond, part, others, cut, behind, rfl⟩
      · rw [if_pos fits, componentContent, componentContent, List.append_nil]
        exact here first length (by omega) part cut
      · rw [if_neg (by omega), componentContent, here first count (by omega) part cut,
          ih (fun other among => built other (List.mem_cons_of_mem _ among))
            (fun other among => known other (List.mem_cons_of_mem _ among)) behind]

theorem enteredBytes_skipped {skipped rest : List ChannelBuffer} {component : ChannelBuffer}
    {inner : Nat} (within : inner < component.content.length) (length : Nat) :
    enteredBytes (skipped ++ component :: rest) ((componentContent skipped).length + inner)
        length =
      if length ≤ component.indexed.writerIdx.toNat - inner then
        slicedBytes component inner length
      else
        slicedBytes component inner (component.indexed.writerIdx.toNat - inner) ++
          followingBytes rest (length - (component.indexed.writerIdx.toNat - inner)) := by
  induction skipped with
  | nil =>
      rw [componentContent, List.length_nil, Nat.zero_add, List.nil_append, enteredBytes,
        if_neg (by omega)]
  | cons first others ih =>
      rw [List.cons_append, enteredBytes, componentContent, List.length_append,
        if_pos (by omega), ← ih]
      congr 1
      omega

/-- What `decompose` cuts out of a range that is not empty. -/
theorem decompose_entered {last start length : Nat}
    (built : ∀ component ∈ components, component.WellBuilt)
    (known : ∀ component ∈ components, component.SlicesKnown) (cached : last < components.length)
    (positive : 0 < length) (inside : start + length ≤ (componentContent components).length)
    (small : ((componentContent components).length : Int) ≤ maxInt)
    (ran : decompose (slicers components) ((components.map capacity).scanl (· + ·) 0) last start
      length = .ok parts) :
    componentContent parts = enteredBytes components start length := by
  obtain ⟨skipped, component, rest, inner, whole, place, within, from_⟩ :=
    decompose_from built cached positive inside small
  have there : component ∈ components := by
    rw [whole]
    exact List.mem_append_right _ List.mem_cons_self
  have behind_ : ∀ other ∈ rest, other ∈ components := by
    intro other among
    rw [whole]
    exact List.mem_append_right _ (List.mem_cons_of_mem _ among)
  obtain ⟨-, -, most⟩ := indexed_inside (built component there)
  have here := known component there
  rw [from_, slicers, decomposeFrom_cons_iff (built component there)] at ran
  obtain ⟨first, count, starts, total, held⟩ := ran
  have starts_ : (first : Int) = inner := starts
  obtain rfl : first = inner := by omega
  have shown : component.indexed.writerIdx.toNat - first = count := by omega
  rw [whole, place, enteredBytes_skipped within, shown]
  rcases held with ⟨fits, part, cut, rfl⟩ | ⟨beyond, part, others, cut, behind, rfl⟩
  · rw [if_pos fits, componentContent, componentContent, List.append_nil]
    exact here first length (by omega) part cut
  · rw [if_neg (by omega), componentContent, here first count (by omega) part cut,
      decomposeFrom_following (fun other among => built other (behind_ other among))
        (fun other among => known other (behind_ other among)) behind]

theorem makeComposite_content {order : ByteOrder} {idx : Indices} {part : ChannelBuffer}
    (made : makeComposite order components idx = .ok part) :
    part.content = componentContent components := by
  unfold makeComposite at made
  cases shape : components.isEmpty with
  | true =>
      rw [shape] at made
      cases made
  | false =>
      cases mixed : (components.any fun component => component.order != order) with
      | true =>
          rw [shape, mixed] at made
          cases made
      | false =>
          cases moved : (components.any fun component =>
              component.readerIdx != 0 || component.writerIdx != component.capacity) with
          | true =>
              rw [shape, mixed, moved] at made
              cases made
          | false =>
              rw [shape, mixed, moved] at made
              have placed : (ChannelBuffer.composite order components
                  ((components.map capacity).scanl (· + ·) 0) 0 idx).setIndex 0
                  (ChannelBuffer.composite order components
                    ((components.map capacity).scanl (· + ·) 0) 0 idx).capacity = .ok part := made
              unfold setIndex at placed
              split at placed
              · cases placed
              · cases placed
                rw [content_withIdx, content]

/-- The parts of a range composed again hold the same bytes. -/
theorem composed_content {order : ByteOrder} {part : ChannelBuffer}
    (composed : (match parts with
      | [] => pure emptyBuffer
      | [part] => pure part
      | components => makeComposite order components .zero) = Except.ok part) :
    part.content = componentContent parts := by
  cases parts with
  | nil =>
      cases composed
      rw [componentContent, emptyBuffer_content]
  | cons first rest =>
      cases rest with
      | nil =>
          cases composed
          rw [componentContent, componentContent, List.append_nil]
      | cons second rest => exact makeComposite_content composed

theorem enteredBytes_nothing (nothing : ∀ component ∈ components, ∀ index : Nat,
      component.slicedBytes index 0 = []) (index : Nat) : enteredBytes components index 0 = [] := by
  induction components generalizing index with
  | nil => rw [enteredBytes]
  | cons component rest ih =>
      rw [enteredBytes]
      split
      · exact ih (fun other among => nothing other (List.mem_cons_of_mem _ among)) _
      · rw [if_pos (Nat.zero_le _)]
        exact nothing component List.mem_cons_self index

variable {buffer : ChannelBuffer}

section

variable (built : buffer.WellBuilt)

include built

theorem WellBuilt.slicedBytes_nothing (index : Nat) :
    buffer.slicedBytes index 0 = [] := by
  induction built generalizing index with
  | heap small inside => rw [slicedBytes, window_zero_count]
  | dynamic ordered small inside => rw [slicedBytes, window_zero_count]
  | sliced parent within inside ih => rw [slicedBytes, window_zero_count]
  | truncated parent within inside ih => rw [slicedBytes, ih]
  | duplicated parent inside ih => rw [slicedBytes, ih]
  | readOnly parent inside ih => rw [slicedBytes, ih]
  | composite parts ordered cached small inside ih =>
      rw [slicedBytes]
      exact enteredBytes_nothing ih index

/-- Only slices that are not empty ask for more than the length. -/
theorem known_of_positive
    (known : ∀ index length : Nat, 0 < length → index + length ≤ buffer.content.length →
      ∀ part, buffer.slice index length = .ok part →
        part.content = buffer.slicedBytes index length) : buffer.SlicesKnown := by
  intro index length inside part cut
  by_cases none : length = 0
  · subst none
    rw [built.slicedBytes_nothing]
    exact List.eq_nil_of_length_eq_zero (built.pieces index 0 inside part cut).size
  · exact known index length (Nat.pos_of_ne_zero none) inside part cut

theorem known_of_cuts (cuts : buffer.Cuts)
    (same : ∀ index length : Nat, index + length ≤ buffer.content.length →
      buffer.slicedBytes index length = window buffer.content index length) :
    buffer.SlicesKnown := by
  apply known_of_positive built
  intro index length positive inside part cut
  obtain ⟨other, made, -, shown⟩ := cuts index length positive inside
  obtain rfl : other = part := Except.ok.inj (made.symm.trans cut)
  rw [shown, same index length inside]

/-- The slices of every buffer, for each kind from those of the buffers in it. -/
theorem WellBuilt.slicesKnown : buffer.SlicesKnown := by
  induction built with
  | heap small inside =>
      apply known_of_cuts (.heap small inside) (heap_cuts (.heap small inside))
      intro index length _
      rw [slicedBytes, content]
  | dynamic ordered small inside =>
      apply known_of_cuts (.dynamic ordered small inside)
        (dynamic_cuts (.dynamic ordered small inside))
      intro index length _
      rw [slicedBytes, content]
  | @sliced base adjustment length idx parent within inside ih =>
      have capacity : base.capacity = base.content.length := parent.answers.capacity
      have room : adjustment + length ≤ base.content.length := by omega
      apply known_of_cuts (.sliced parent within inside) (sliced_cuts parent room)
      intro index count below
      rw [content, Int.toNat_natCast, Int.toNat_natCast] at below ⊢
      rw [window_length room] at below
      rw [slicedBytes, Int.toNat_natCast, window_window _ _ _ _ _ below]
  | @truncated base length idx parent within inside ih =>
      have capacity : base.capacity = base.content.length := parent.answers.capacity
      have room : length ≤ base.content.length := by omega
      apply known_of_positive (.truncated parent within inside)
      intro index count positive below part cut
      rw [content, Int.toNat_natCast, window_length (by omega)] at below
      rw [slice_truncated _ _ _ _ _
        (Getters.truncatedCheck_of_inside parent.answers.small room below), if_neg (by omega)] at cut
      rw [slicedBytes]
      exact ih index count (by omega) part cut
  | @duplicated base idx parent inside ih =>
      intro index count below part cut
      rw [duplicated_content] at below
      rw [slice] at cut
      rw [slicedBytes]
      exact ih index count below part cut
  | @readOnly base idx parent inside ih =>
      intro index count below part cut
      rw [readOnly_content] at below
      rw [slice] at cut
      beta_reduce at cut
      obtain ⟨inner, taken, wrapped⟩ := ok_of_bind cut
      have piece := parent.pieces index count below inner taken
      rw [makeReadOnly_run piece.fresh.built] at wrapped
      cases wrapped
      rw [readOnly_content, slicedBytes]
      exact ih index count below inner taken
  | @composite order components last idx parts ordered cached small inside ih =>
      have built : (ChannelBuffer.composite order components ((components.map capacity).scanl (· + ·) 0) last
        idx).WellBuilt := .composite parts ordered cached small inside
      have answers := fun component among => (parts component among).answers
      rw [map_capacity answers, sum_lengths, ← componentContent_flatten] at small
      apply known_of_positive built
      intro index count positive below part cut
      rw [content] at below
      rw [slice] at cut
      unfold compositeSlice at cut
      by_cases refused : (index : Int) ≠ 0 ∧ ((index : Int) < 0 ∨
          int32 (((components.map capacity).scanl (· + ·) 0).getD (slicers components).length 0 -
            count) < index)
      · rw [if_pos refused] at cut
        cases cut
      rw [if_neg refused, if_neg (by omega)] at cut
      obtain ⟨cuts, dealt, composed⟩ := ok_of_bind cut
      rw [slicedBytes, ← decompose_entered parts ih cached positive below small dealt]
      exact composed_content composed

end

/-- A slice that holds the bytes of its range. -/
def SlicesExactly (buffer : ChannelBuffer) : Prop :=
  ∀ index length : Nat, index + length ≤ buffer.content.length →
    buffer.slicedBytes index length = window buffer.content index length

/-- A component that is as it was reaches from its beginning to its end. -/
theorem Spread.reach {component : ChannelBuffer} (spread : component.Spread)
    (built : component.WellBuilt) : component.indexed.readerIdx.toNat = 0 ∧
      component.indexed.writerIdx.toNat = component.content.length := by
  have capacity : component.capacity = component.content.length := built.answers.capacity
  obtain ⟨reader, writer⟩ := indexed_of_inStep spread.inStep
  rw [reader, writer, spread.reader, spread.writer, capacity]
  exact ⟨rfl, Int.toNat_natCast _⟩

section

variable (built : ∀ component ∈ components, component.WellBuilt)
  (spread : ∀ component ∈ components, component.Spread)
  (exactly : ∀ component ∈ components, component.SlicesExactly)

include built spread exactly

theorem followingBytes_spread {length : Nat}
    (inside : length ≤ (componentContent components).length) :
    followingBytes components length = (componentContent components).take length := by
  induction components generalizing length with
  | nil =>
      rw [followingBytes, componentContent, List.take_nil]
  | cons component rest ih =>
      obtain ⟨reader, writer⟩ :=
        (spread component List.mem_cons_self).reach (built component List.mem_cons_self)
      have here := exactly component List.mem_cons_self
      rw [componentContent, List.length_append] at inside
      rw [followingBytes, reader, writer, Nat.sub_zero, componentContent]
      by_cases fits : length ≤ component.content.length
      · rw [if_pos fits, here 0 length (by omega), window_prefix, List.take_append_of_le_length fits]
      · have all : component.content.take length = component.content :=
          List.take_of_length_le (by omega)
        rw [if_neg fits, here 0 component.content.length (by omega), window_whole,
          ih (fun other among => built other (List.mem_cons_of_mem _ among))
            (fun other among => spread other (List.mem_cons_of_mem _ among))
            (fun other among => exactly other (List.mem_cons_of_mem _ among)) (by omega),
          List.take_append, all]

theorem enteredBytes_spread {index length : Nat}
    (inside : index + length ≤ (componentContent components).length) :
    enteredBytes components index length = window (componentContent components) index length := by
  induction components generalizing index with
  | nil =>
      rw [enteredBytes, componentContent]
      unfold window
      rw [List.drop_nil, List.take_nil]
  | cons component rest ih =>
      obtain ⟨reader, writer⟩ :=
        (spread component List.mem_cons_self).reach (built component List.mem_cons_self)
      have here := exactly component List.mem_cons_self
      rw [componentContent, List.length_append] at inside
      rw [enteredBytes, writer, componentContent]
      unfold window
      by_cases skipped : component.content.length ≤ index
      · rw [if_pos skipped, ih (fun other among => built other (List.mem_cons_of_mem _ among))
          (fun other among => spread other (List.mem_cons_of_mem _ among))
          (fun other among => exactly other (List.mem_cons_of_mem _ among)) (by omega)]
        unfold window
        rw [List.drop_append, List.drop_of_length_le skipped, List.nil_append]
      · rw [if_neg skipped, List.drop_append_of_le_length (by omega), List.take_append,
          List.length_drop]
        by_cases fits : length ≤ component.content.length - index
        · rw [if_pos fits, here index length (by omega), Nat.sub_eq_zero_of_le fits, List.take_zero,
            List.append_nil]
          rfl
        · have size : (component.content.drop index).length = component.content.length - index :=
            List.length_drop
          have all : (component.content.drop index).take length = component.content.drop index :=
            List.take_of_length_le (by omega)
          have whole : (component.content.drop index).take (component.content.length - index) =
              component.content.drop index := List.take_of_length_le (by omega)
          rw [if_neg fits, here index _ (by omega), followingBytes_spread
              (fun other among => built other (List.mem_cons_of_mem _ among))
              (fun other among => spread other (List.mem_cons_of_mem _ among))
              (fun other among => exactly other (List.mem_cons_of_mem _ among)) (by omega)]
          unfold window
          rw [all, whole]

end

/-- A buffer no component of which has been moved since holds in its slices what it shows. -/
theorem Undisturbed.slicesExactly (undisturbed : buffer.Undisturbed) (built : buffer.WellBuilt) :
    buffer.SlicesExactly := by
  induction built with
  | heap small inside =>
      intro index length _
      rw [slicedBytes, content]
  | dynamic ordered small inside =>
      intro index length _
      rw [slicedBytes, content]
  | @sliced base adjustment length idx parent within inside ih =>
      have capacity : base.capacity = base.content.length := parent.answers.capacity
      intro index count below
      rw [content, Int.toNat_natCast, Int.toNat_natCast] at below ⊢
      rw [window_length (by omega)] at below
      rw [slicedBytes, Int.toNat_natCast, window_window _ _ _ _ _ below]
  | @truncated base length idx parent within inside ih =>
      have capacity : base.capacity = base.content.length := parent.answers.capacity
      cases undisturbed with
      | truncated below_ =>
          intro index count below
          rw [content, Int.toNat_natCast] at below ⊢
          rw [window_length (by omega)] at below
          rw [slicedBytes, window_window _ _ _ _ _ below, Nat.zero_add]
          exact ih below_ index count (by omega)
  | @duplicated base idx parent inside ih =>
      cases undisturbed with
      | duplicated below_ =>
          intro index count below
          rw [duplicated_content] at below ⊢
          rw [slicedBytes]
          exact ih below_ index count below
  | @readOnly base idx parent inside ih =>
      cases undisturbed with
      | readOnly below_ =>
          intro index count below
          rw [readOnly_content] at below ⊢
          rw [slicedBytes]
          exact ih below_ index count below
  | @composite order components last idx parts ordered cached small inside ih =>
      cases undisturbed with
      | composite below_ spread =>
          intro index count below
          rw [content] at below ⊢
          rw [slicedBytes]
          exact enteredBytes_spread parts spread
            (fun component among => ih component among (below_ component among)) below

end Slices

end ChannelBuffer

end Cetty
