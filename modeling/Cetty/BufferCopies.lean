import Cetty.BuiltBuffers

/-!
# Transfers out of a buffer and copies of it

When `getBytes` of a buffer hands out a range: a composite buffer passes it on to its components,
also the part without bytes of an empty one. A copy is a heap buffer, or a dynamic one when a dynamic
buffer is copied; a range that is not handed out is not copied either.
-/

namespace Cetty

open MachineInt ByteWindow ListSegments

namespace ChannelBuffer

/-- Whether a transfer of no bytes from `index` on returns. -/
def passesNothing : ChannelBuffer → Nat → Bool
  | heap _, _ => true
  | dynamic _ _ _ _, _ => true
  | sliced buffer adjustment _ _, index => passesNothing buffer (adjustment.toNat + index)
  | truncated buffer _ _, index => passesNothing buffer index
  | duplicated buffer _, index => passesNothing buffer index
  | readOnly buffer _, index => passesNothing buffer index
  | composite _ components _ _ _, index => index < (componentContent components).length

mutual

/-- Whether a transfer of `length` bytes from `index` on returns. -/
def passes : ChannelBuffer → Nat → Nat → Bool
  | heap _, _, _ => true
  | dynamic _ _ _ _, _, _ => true
  | sliced buffer adjustment _ _, index, length => passes buffer (adjustment.toNat + index) length
  | truncated buffer _ _, index, length => passes buffer index length
  | duplicated buffer _, index, length => passes buffer index length
  | readOnly buffer _, index, length => passes buffer index length
  | composite _ components _ _ _, index, length => componentsPass components index length

/-- The components up to the one of the index are not asked. -/
def componentsPass : List ChannelBuffer → Nat → Nat → Bool
  | [], _, _ => true
  | component :: rest, index, length =>
      if component.content.length ≤ index then
        componentsPass rest (index - component.content.length) length
      else
        passes component index (min length (component.content.length - index)) &&
          restPasses rest (length - (component.content.length - index))

/-- The components behind it are asked for what is left, from their beginning on. -/
def restPasses : List ChannelBuffer → Nat → Bool
  | [], _ => true
  | component :: rest, length =>
      if length = 0 then true
      else if component.content.length = 0 then
        passesNothing component 0 && restPasses rest length
      else
        passes component 0 (min length component.content.length) &&
          restPasses rest (length - component.content.length)

end

/-- `getBytes` hands out `content` where it returns. -/
structure Hands (buffer : ChannelBuffer) : Prop where
  bytes : ∀ (index length : Nat) (dst : CharArray) (dstIndex : Nat), 0 < length →
    index + length ≤ buffer.content.length → dstIndex + length ≤ dst.length →
    (dst.length : Int) ≤ maxInt →
    buffer.getters.getBytes index dst dstIndex length =
      if buffer.passes index length then
        .ok (overwrite dst dstIndex (window buffer.content index length))
      else .error (rangeException "")
  nothing : ∀ (index : Nat) (dst : CharArray) (dstIndex : Nat), index ≤ buffer.content.length →
    dstIndex ≤ dst.length → (dst.length : Int) ≤ maxInt →
    buffer.getters.getBytes index dst dstIndex 0 =
      if buffer.passesNothing index then .ok dst else .error (rangeException "")

/-- The components with where each begins. -/
def placed : Nat → List ChannelBuffer → List (Getters × Int)
  | _, [] => []
  | base, component :: rest =>
      (component.getters, (base : Int)) :: placed (base + component.content.length) rest

theorem placed_drop (base count : Nat) (components : List ChannelBuffer) :
    (placed base components).drop count =
      placed (base + offset (components.map content) count) (components.drop count) := by
  induction components generalizing base count with
  | nil => simp [placed]
  | cons component rest ih =>
      cases count with
      | zero => simp
      | succ count =>
          rw [placed, List.drop_succ_cons, ih, List.map_cons, offset_cons_succ, List.drop_succ_cons,
            Nat.add_assoc]

theorem zip_placed (base : Nat) (components : List ChannelBuffer)
    (answers : ∀ component ∈ components, component.getters.Answers component.content) :
    (components.map getters).zip ((components.map capacity).scanl (· + ·) (base : Int)) =
      placed base components := by
  induction components generalizing base with
  | nil => rfl
  | cons component rest ih =>
      have capacity : component.capacity = component.content.length :=
        (answers component List.mem_cons_self).capacity
      rw [List.map_cons, List.map_cons, List.scanl_cons, List.zip_cons_cons, placed, capacity,
        ← Int.natCast_add, ih _ fun other among => answers other (List.mem_cons_of_mem _ among)]

section Loops

variable {components : List ChannelBuffer}

theorem compositeCopy_done (parts : List (Getters × Int)) (index : Int) (dst : CharArray)
    (dstIndex : Int) : Getters.compositeCopy parts index dst dstIndex 0 = .ok dst := by
  cases parts with
  | nil => rfl
  | cons part rest => rfl

theorem restPasses_zero (components : List ChannelBuffer) : restPasses components 0 = true := by
  cases components with
  | nil => rw [restPasses]
  | cons component rest => rw [restPasses, if_pos rfl]

/-- One round of the loop: what the component hands out and what is left. -/
theorem compositeCopy_cons {component : ChannelBuffer} (capacity :
      component.getters.capacity = component.content.length) (rest : List (Getters × Int))
    {base start length : Nat} (dst : CharArray) (dstIndex : Nat) (positive : 0 < length)
    (within : start ≤ component.content.length) :
    Getters.compositeCopy ((component.getters, (base : Int)) :: rest) ((base + start : Nat) : Int)
        dst dstIndex length = (do
      let dst ← component.getters.getBytes start dst dstIndex
        ((min length (component.content.length - start) : Nat) : Int)
      Getters.compositeCopy rest
        ((base + start + min length (component.content.length - start) : Nat) : Int) dst
        ((dstIndex + min length (component.content.length - start) : Nat) : Int)
        ((length - (component.content.length - start) : Nat) : Int)) := by
  have place : ((base + start : Nat) : Int) - base = (start : Int) := by omega
  have amount : min (length : Int) (component.getters.capacity - (start : Int)) =
      ((min length (component.content.length - start) : Nat) : Int) := by
    rw [capacity]
    omega
  have left : (length : Int) - ((min length (component.content.length - start) : Nat) : Int) =
      ((length - (component.content.length - start) : Nat) : Int) := by omega
  rw [Getters.compositeCopy, if_pos (by omega)]
  dsimp only
  rw [place, amount, left]
  rfl

variable {dst : CharArray} {dstIndex : Nat}

/-- What a component hands out, whether or not that are bytes. -/
theorem Hands.part {component : ChannelBuffer} (hands : component.Hands) {start length : Nat}
    (inside : start + length ≤ component.content.length)
    (target : dstIndex + length ≤ dst.length) (small : (dst.length : Int) ≤ maxInt) :
    component.getters.getBytes start dst dstIndex length =
      if (if length = 0 then component.passesNothing start else component.passes start length) then
        .ok (overwrite dst dstIndex (window component.content start length))
      else .error (rangeException "") := by
  by_cases none : length = 0
  · subst none
    rw [if_pos rfl, window_zero_count, overwrite_nothing]
    exact hands.nothing start dst dstIndex inside target small
  · rw [if_neg none]
    exact hands.bytes start length dst dstIndex (Nat.pos_of_ne_zero none) inside target small

/-- Whether a part of a component is handed out, whether or not that are bytes. -/
def partPasses (component : ChannelBuffer) (start length : Nat) : Bool :=
  if length = 0 then component.passesNothing start else component.passes start length

/-- What the loop hands out from the components behind one. -/
def Rests (components : List ChannelBuffer) (base : Nat) : Prop :=
  ∀ (index length : Nat) (dst : CharArray) (dstIndex : Nat), length = 0 ∨ index = base →
    length ≤ (componentContent components).length → dstIndex + length ≤ dst.length →
    (dst.length : Int) ≤ maxInt →
    Getters.compositeCopy (placed base components) index dst dstIndex length =
      if restPasses components length then
        .ok (overwrite dst dstIndex ((componentContent components).take length))
      else .error (rangeException "")

/-- The loop from a place in a component on. -/
theorem compositeCopy_from {component : ChannelBuffer} {rest : List ChannelBuffer}
    (hands : component.Hands)
    (capacity : component.getters.capacity = component.content.length) {base start length : Nat}
    (rests : Rests rest (base + component.content.length)) (positive : 0 < length)
    (within : start ≤ component.content.length)
    (inside : start + length ≤ component.content.length + (componentContent rest).length)
    (target : dstIndex + length ≤ dst.length) (small : (dst.length : Int) ≤ maxInt) :
    Getters.compositeCopy
        ((component.getters, (base : Int)) :: placed (base + component.content.length) rest)
        ((base + start : Nat) : Int) dst dstIndex length =
      if partPasses component start (min length (component.content.length - start)) &&
          restPasses rest (length - (component.content.length - start)) then
        .ok (overwrite dst dstIndex
          ((component.content.drop start ++ componentContent rest).take length))
      else .error (rangeException "") := by
  let here := min length (component.content.length - start)
  have fits : start + here ≤ component.content.length := by omega
  have piece : (window component.content start here).length = here := window_length fits
  have whole : (overwrite dst dstIndex (window component.content start here)).length =
      dst.length := overwrite_length (by rw [piece]; omega)
  have later := rests (base + start + here) (length - (component.content.length - start))
    (overwrite dst dstIndex (window component.content start here)) (dstIndex + here) (by omega)
    (by omega) (by rw [whole]; omega) (by rw [whole]; exact small)
  have joined : window component.content start here ++
      (componentContent rest).take (length - (component.content.length - start)) =
      (component.content.drop start ++ componentContent rest).take length := by
    rw [List.take_append, List.length_drop]
    congr 1
    unfold window
    rcases Nat.le_total length (component.content.length - start) with short | long
    · rw [show here = length from Nat.min_eq_left short]
    · rw [show here = component.content.length - start from Nat.min_eq_right long,
        List.take_of_length_le (by rw [List.length_drop]),
        List.take_of_length_le (by rw [List.length_drop]; exact long)]
  have glued : overwrite (overwrite dst dstIndex (window component.content start here))
      (dstIndex + here) ((componentContent rest).take
        (length - (component.content.length - start))) =
      overwrite dst dstIndex
        ((component.content.drop start ++ componentContent rest).take length) := by
    rw [← joined, ← overwrite_append (by rw [piece]; omega), piece]
  rw [compositeCopy_cons capacity _ dst dstIndex positive within,
    hands.part fits (by omega) small]
  change (if partPasses component start here then _ else _) >>= _ = _
  cases part : partPasses component start here with
  | false =>
      rw [if_neg (by decide), Bool.false_and, if_neg (by decide)]
      rfl
  | true =>
      rw [if_pos rfl, ok_bind, later, glued, Bool.true_and]

/-- The loop from the beginning of a component on. -/
theorem compositeCopy_rest (hands : ∀ component ∈ components, component.Hands)
    (answers : ∀ component ∈ components, component.getters.Answers component.content)
    (base : Nat) : Rests components base := by
  induction components generalizing base with
  | nil =>
      intro index length dst dstIndex reached inside target small
      rw [componentContent, List.length_nil] at inside
      rw [Nat.le_zero.mp inside, Int.natCast_zero, compositeCopy_done, List.take_zero,
        overwrite_nothing, restPasses, if_pos rfl]
  | cons component rest ih =>
      intro index length dst dstIndex reached inside target small
      by_cases none : length = 0
      · subst none
        rw [Int.natCast_zero, compositeCopy_done, List.take_zero, overwrite_nothing,
          restPasses_zero, if_pos rfl]
      · have rests := ih (fun other among => hands other (List.mem_cons_of_mem _ among))
          (fun other among => answers other (List.mem_cons_of_mem _ among))
          (base + component.content.length)
        have capacity := (answers component List.mem_cons_self).capacity
        rw [componentContent, List.length_append] at inside
        have ran := compositeCopy_from (hands component List.mem_cons_self) capacity rests
          (Nat.pos_of_ne_zero none) (Nat.zero_le _) (by omega) target small
        have begins : index = base + 0 := by omega
        rw [placed, begins, ran, componentContent, Nat.sub_zero, List.drop_zero, restPasses,
          if_neg none]
        have same : (partPasses component 0 (min length component.content.length) &&
            restPasses rest (length - component.content.length)) =
            (if component.content.length = 0 then
              passesNothing component 0 && restPasses rest length
            else passes component 0 (min length component.content.length) &&
              restPasses rest (length - component.content.length)) := by
          unfold partPasses
          by_cases empty : component.content.length = 0
          · rw [empty, Nat.min_zero, if_pos rfl, if_pos rfl, Nat.sub_zero]
          · rw [if_neg (by omega), if_neg empty]
        rw [same]

/-- The components up to the one of an index are skipped. -/
theorem componentsPass_held {index position : Nat} (length : Nat)
    (held : Holds (components.map content) index position) :
    ∃ component rest, components.drop position = component :: rest ∧
      index - offset (components.map content) position < component.content.length ∧
      componentContent components = (componentContent components).take
        (offset (components.map content) position) ++ (component.content ++ componentContent rest) ∧
      componentsPass components index length =
        (component.passes (index - offset (components.map content) position)
            (min length (component.content.length -
              (index - offset (components.map content) position))) &&
          restPasses rest (length - (component.content.length -
            (index - offset (components.map content) position)))) := by
  induction components generalizing index position with
  | nil => cases held.present
  | cons component rest ih =>
      have lower := held.lower
      have upper := held.upper
      rw [List.map_cons] at lower upper
      cases position with
      | zero =>
          rw [offset_cons_succ, offset_zero] at upper
          refine ⟨component, rest, rfl, ?_, ?_, ?_⟩
          · rw [offset_zero]
            exact upper
          · rw [offset_zero, List.take_zero, List.nil_append, componentContent]
          · rw [offset_zero, Nat.sub_zero, componentsPass, if_neg (by omega)]
      | succ position =>
          rw [offset_cons_succ] at lower upper
          have present : position < (rest.map content).length := by
            have before := held.present
            rw [List.map_cons, List.length_cons] at before
            omega
          have further : Holds (rest.map content) (index - component.content.length) position :=
            ⟨present, by omega, by omega⟩
          obtain ⟨found, behind, dropped, start, whole, same⟩ := ih further
          have place : index - component.content.length - offset (rest.map content) position =
              index - (component.content.length + offset (rest.map content) position) := by omega
          rw [place] at start same
          refine ⟨found, behind, dropped, ?_, ?_, ?_⟩
          · rw [List.map_cons, offset_cons_succ]
            exact start
          · rw [List.map_cons, offset_cons_succ, componentContent, List.take_length_add_append,
              List.append_assoc, ← whole]
          · rw [List.map_cons, offset_cons_succ, componentsPass, if_pos (by omega)]
            exact same

end Loops

section Search

/-- Behind the last component nothing is found. -/
theorem getComponentId_beyond {indices : List Int} {contents : List CharArray} {last index : Nat}
    (indexed : Indexed indices contents) (cached : last < contents.length)
    (beyond : contents.flatten.length ≤ index) :
    getComponentId indices contents.length last index = .error (rangeException "") := by
  have at_ : ∀ place ≤ contents.length, indices.getD place 0 = (offset contents place : Int) := indexed
  have below : ∀ place ≤ contents.length, offset contents place ≤ index := by
    intro place within
    have ordered := offset_mono contents within
    rw [offset_end] at ordered
    omega
  have none : (List.range' (last + 1) (contents.length - (last + 1))).find?
      (fun place => (index : Int) < indices.getD (place + 1) 0) = none := by
    rw [List.find?_eq_none]
    intro place among
    have within := List.mem_range'_1.mp among
    have bound := below (place + 1) (by omega)
    rw [at_ (place + 1) (by omega)]
    simp only [decide_eq_true_eq]
    omega
  have here := below last (by omega)
  have next := below (last + 1) (by omega)
  unfold getComponentId
  rw [if_neg (by omega), at_ last (by omega), at_ (last + 1) (by omega), if_pos (by omega),
    if_neg (by omega), none]
  rfl

end Search

section Kinds

variable {buffer : ChannelBuffer}

theorem heap_hands {heap : HeapChannelBuffer} (small : (heap.arry.length : Int) ≤ maxInt) :
    (ChannelBuffer.heap heap).Hands := by
  constructor
  · intro index length dst dstIndex positive inside target dstSmall
    rw [content] at inside
    rw [getters, content, passes, if_pos rfl]
    exact (Getters.heap_serves _ small).bytes index length dst dstIndex positive inside target
      dstSmall
  · intro index dst dstIndex inside target dstSmall
    rw [content] at inside
    rw [getters, passesNothing, if_pos rfl]
    have copied : CharArray.copy dst dstIndex heap.arry index (0 : Nat) =
        .ok (overwrite dst dstIndex (window heap.arry index 0)) :=
      CharArray.copy_of_inside inside target small dstSmall
    rw [window_zero_count, overwrite_nothing, Int.natCast_zero] at copied
    simp only [HeapChannelBuffer.getters, Getters.heap]
    exact copied

theorem dynamic_hands {endianness factory : ByteOrder} {heap : HeapChannelBuffer} {idx : Indices}
    (small : (heap.arry.length : Int) ≤ maxInt) : (dynamic endianness factory heap idx).Hands := by
  have here := heap_hands small
  have same : (dynamic endianness factory heap idx).getters.getBytes =
      (ChannelBuffer.heap heap).getters.getBytes := by rw [getters, getters]
  have shown : (dynamic endianness factory heap idx).content = (ChannelBuffer.heap heap).content := by
    rw [content, content]
  constructor
  · intro index length dst dstIndex positive inside target dstSmall
    rw [shown] at inside ⊢
    rw [same, here.bytes index length dst dstIndex positive inside target dstSmall, passes, passes]
  · intro index dst dstIndex inside target dstSmall
    rw [shown] at inside
    rw [same, here.nothing index dst dstIndex inside target dstSmall, passesNothing, passesNothing]

/-- A view shifts the range. -/
theorem view_hands {view : ChannelBuffer} {check : Int → Int → Except Stop Unit}
    {shift : Int → Int} {adjustment length : Nat} (hands : buffer.Hands)
    (within : adjustment + length ≤ buffer.content.length)
    (shown : view.content = window buffer.content adjustment length)
    (answers : view.getters = buffer.getters.view check shift length)
    (checked : ∀ index width : Nat, index + width ≤ length → check index width = .ok ())
    (shifted : ∀ index : Nat, index ≤ length → shift index = ((adjustment + index : Nat) : Int))
    (same : ∀ index count, view.passes index count = buffer.passes (adjustment + index) count)
    (none : ∀ index, view.passesNothing index = buffer.passesNothing (adjustment + index)) :
    view.Hands := by
  have size : view.content.length = length := by
    rw [shown]
    exact window_length within
  constructor
  · intro index count dst dstIndex positive inside target dstSmall
    rw [size] at inside
    rw [answers, shown, same]
    simp only [Getters.view]
    rw [checked index count inside, ok_bind, shifted index (by omega),
      hands.bytes (adjustment + index) count dst dstIndex positive (by omega) target dstSmall,
      window_window _ _ _ _ _ inside]
  · intro index dst dstIndex inside target dstSmall
    rw [size] at inside
    have passes : check index 0 = .ok () := checked index 0 inside
    rw [answers, none]
    simp only [Getters.view]
    rw [passes, ok_bind, shifted index inside,
      hands.nothing (adjustment + index) dst dstIndex (by omega) target dstSmall]

theorem Hands.of_same {view : ChannelBuffer} (hands : buffer.Hands)
    (answers : view.getters = buffer.getters) (shown : view.content = buffer.content)
    (same : ∀ index count, view.passes index count = buffer.passes index count)
    (none : ∀ index, view.passesNothing index = buffer.passesNothing index) : view.Hands := by
  constructor
  · intro index count dst dstIndex positive inside target dstSmall
    rw [shown] at inside
    rw [answers, shown, same]
    exact hands.bytes index count dst dstIndex positive inside target dstSmall
  · intro index dst dstIndex inside target dstSmall
    rw [shown] at inside
    rw [answers, none]
    exact hands.nothing index dst dstIndex inside target dstSmall

theorem composite_hands {order : ByteOrder} {components : List ChannelBuffer} {last : Nat}
    {idx : Indices} (hands : ∀ component ∈ components, component.Hands)
    (answers : ∀ component ∈ components, component.getters.Answers component.content)
    (cached : last < components.length) (small : (components.map capacity).sum ≤ maxInt) :
    (composite order components ((components.map capacity).scanl (· + ·) 0) last idx).Hands := by
  have indexed := indexed_of_answers answers
  have counted : (components.map content).length = components.length := List.length_map _
  have there : last < (components.map content).length := by
    rw [counted]
    exact cached
  have total : ((components.map capacity).scanl (· + ·) 0).getD components.length 0 =
      ((componentContent components).length : Int) := by
    have top := indexed (components.map content).length (Nat.le_refl _)
    rw [offset_end, counted, ← componentContent_flatten] at top
    exact top
  have little : ((componentContent components).length : Int) ≤ maxInt := by
    rw [componentContent_flatten, ← sum_lengths, ← map_capacity answers]
    exact small
  have limit : maxInt = 2147483647 := rfl
  have searched (index : Int) : getComponentId ((components.map capacity).scanl (· + ·) 0)
      (components.map getters).length last index =
      getComponentId ((components.map capacity).scanl (· + ·) 0) (components.map content).length last
        index := by
    rw [counted, List.length_map]
  have taken (index length : Nat) (dst : CharArray) (dstIndex : Nat) :
      (composite order components ((components.map capacity).scanl (· + ·) 0) last
        idx).getters.getBytes index dst dstIndex length = (do
      let componentId ← getComponentId ((components.map capacity).scanl (· + ·) 0)
        (components.map content).length last index
      if int32 ((componentContent components).length - length) < index ∨
          int32 (dst.length - length) < dstIndex then
        throw (rangeException "")
      else
        Getters.compositeCopy ((placed 0 components).drop componentId) index dst dstIndex length) := by
    rw [getters, componentGetters_map]
    simp only [Getters.composite]
    rw [searched, ← zip_placed 0 components answers, Int.natCast_zero]
    simp only [List.length_map]
    rw [total]
  have held {index : Nat} (inside : index < (componentContent components).length) :
      ∃ position, Holds (components.map content) index position := by
    rw [componentContent_flatten] at inside
    exact exists_holds inside
  constructor
  · intro index length dst dstIndex positive inside target dstSmall
    rw [content] at inside
    obtain ⟨position, holds⟩ := held (show index < (componentContent components).length by omega)
    obtain ⟨component, rest, dropped, start, whole, same⟩ :=
      componentsPass_held length holds
    have lower := holds.lower
    have amongDropped : ∀ other ∈ component :: rest, other ∈ components := by
      intro other among
      rw [← dropped] at among
      exact List.mem_of_mem_drop among
    have capacity := (answers component (amongDropped component List.mem_cons_self)).capacity
    have rests := compositeCopy_rest
      (fun other among => hands other (amongDropped other (List.mem_cons_of_mem _ among)))
      (fun other among => answers other (amongDropped other (List.mem_cons_of_mem _ among)))
      (offset (components.map content) position + component.content.length)
    have size := congrArg List.length whole
    rw [taken, getComponentId_holds indexed there holds, ok_bind, int32_of_nonneg (by omega)
      (by omega), int32_of_nonneg (by omega) (by omega), if_neg (by omega), placed_drop, dropped,
      placed, Nat.zero_add]
    let begin_ := offset (components.map content) position
    have front : ((componentContent components).take begin_).length = begin_ := by
      have bound : begin_ ≤ (componentContent components).length := by omega
      rw [List.length_take, Nat.min_eq_left bound]
    rw [List.length_append, List.length_append, front] at size
    have ran := compositeCopy_from (hands component (amongDropped component List.mem_cons_self))
      capacity rests positive (Nat.le_of_lt start) (by omega) target dstSmall
    have place : begin_ + (index - begin_) = index := by omega
    rw [place] at ran
    have jump : (componentContent components).drop begin_ =
        component.content ++ componentContent rest := by
      conv_lhs => rw [whole]
      exact List.drop_left' front
    have cells : (component.content.drop (index - begin_) ++ componentContent rest).take length =
        window (componentContent components) index length := by
      unfold window
      rw [← List.drop_append_of_le_length (Nat.le_of_lt start), ← jump, List.drop_drop, place]
    have part : partPasses component (index - begin_)
        (min length (component.content.length - (index - begin_))) =
        component.passes (index - begin_)
          (min length (component.content.length - (index - begin_))) := if_neg (by omega)
    rw [ran, content, passes, same, part, cells]
  · intro index dst dstIndex inside target dstSmall
    rw [content] at inside
    have ran := taken index 0 dst dstIndex
    rw [Int.natCast_zero] at ran
    rw [ran, passesNothing]
    by_cases here : index < (componentContent components).length
    · obtain ⟨position, holds⟩ := held here
      rw [getComponentId_holds indexed there holds, ok_bind, Int.sub_zero, Int.sub_zero,
        int32_of_nonneg (by omega) (by omega), int32_of_nonneg (by omega) (by omega),
        if_neg (by omega), compositeCopy_done, if_pos (decide_eq_true here)]
    · rw [componentContent_flatten] at here
      rw [getComponentId_beyond indexed there (by omega), error_bind, if_neg]
      rw [componentContent_flatten, decide_eq_true_eq]
      exact here

theorem WellBuilt.hands (built : buffer.WellBuilt) : buffer.Hands := by
  induction built with
  | heap small inside => exact heap_hands small
  | dynamic ordered small inside => exact dynamic_hands small
  | @sliced buffer adjustment length idx parent within inside ih =>
      have answers := parent.answers
      have capacity := answers.capacity
      unfold ChannelBuffer.capacity at within
      have fits : adjustment + length ≤ buffer.content.length := by omega
      apply view_hands ih fits
      · rw [content, Int.toNat_natCast, Int.toNat_natCast]
      · rw [getters, Getters.sliced]
      · intro index width bounded
        exact Getters.slicedCheck_of_inside answers.small fits bounded
      · exact Getters.shifted_inside answers.small fits
      · intro index count
        rw [passes, Int.toNat_natCast]
      · intro index
        rw [passesNothing, Int.toNat_natCast]
  | @truncated buffer length idx parent within inside ih =>
      have answers := parent.answers
      have capacity := answers.capacity
      unfold ChannelBuffer.capacity at within
      have fits : 0 + length ≤ buffer.content.length := by omega
      apply view_hands ih fits
      · rw [content, Int.toNat_natCast]
      · rw [getters, Getters.truncated]
      · intro index width bounded
        exact Getters.truncatedCheck_of_inside answers.small (by omega) bounded
      · intro index _
        rw [Nat.zero_add]
      · intro index count
        rw [passes, Nat.zero_add]
      · intro index
        rw [passesNothing, Nat.zero_add]
  | duplicated parent inside ih =>
      apply ih.of_same
      · rw [getters]
      · rw [content]
      · intro index count
        rw [passes]
      · intro index
        rw [passesNothing]
  | readOnly parent inside ih =>
      apply ih.of_same
      · rw [getters]
      · rw [content]
      · intro index count
        rw [passes]
      · intro index
        rw [passesNothing]
  | composite parts ordered cached small inside ih =>
      exact composite_hands ih (fun component among => (parts component among).answers) cached small

end Kinds

end ChannelBuffer

/-- The indices of a new buffer full of readable bytes. -/
def Indices.full (length : Int) : Indices := { Indices.zero with writerIdx := length }

/-- `copy(index, length)` of both byte orders. -/
def HeapChannelBuffer.copy (buffer : HeapChannelBuffer) (index length : Int) :
    Except Stop HeapChannelBuffer :=
  if index < 0 ∨ length < 0 ∨ (buffer.arry.length : Int) < int32 (index + length) then
    throw (rangeException "")
  else do
    let copiedArray ← CharArray.copy (List.replicate length.toNat 0) 0 buffer.arry index length
    pure ⟨buffer.byteOrder, copiedArray, .full length⟩

namespace ChannelBuffer

/-- `copy(index, length)`. -/
def copy : ChannelBuffer → Int → Int → Except Stop ChannelBuffer
  | heap buffer, index, length => do
      let copied ← buffer.copy index length
      pure (heap copied)
  | dynamic endianness factory buffer _, index, length => do
      -- the block of the new buffer is replaced by the copy
      let _ ← allocate endianness (max length 64)
      let copied ← buffer.copy index length
      (dynamic endianness factory copied .zero).setIndex 0 length
  | sliced buffer adjustment capacity _, index, length => do
      Getters.slicedCheck capacity index length
      copy buffer (int32 (index + adjustment)) length
  | truncated buffer capacity _, index, length => do
      Getters.truncatedCheck capacity index length
      copy buffer index length
  | duplicated buffer _, index, length => copy buffer index length
  | readOnly buffer _, index, length => copy buffer index length
  | composite order components indices last _, index, length => do
      let componentId ← getComponentId indices components.length last index
      if int32 (indices.getD components.length 0 - length) < index then throw (rangeException "")
      let dst ← allocate order length
      let arry ← Getters.compositeCopy (((componentGetters components).zip indices).drop componentId)
        index dst.arry 0 length
      (heap { dst with arry := arry }).setWriterIndex arry.length

/-- `copy()`. -/
def readableCopy (buffer : ChannelBuffer) : Except Stop ChannelBuffer :=
  buffer.copy buffer.readerIdx buffer.readableBytes

/-- What `copy` returns. -/
inductive IsCopy (order : ByteOrder) (bytes : CharArray) : ChannelBuffer → Prop where
  | heap : IsCopy order bytes (.heap ⟨order, bytes, .full bytes.length⟩)
  | dynamic (factory : ByteOrder) : IsCopy order bytes
      (.dynamic order factory ⟨order, bytes, .full bytes.length⟩ (.full bytes.length))

section Copies

variable {buffer : ChannelBuffer}

theorem heap_copy {heap : HeapChannelBuffer} (small : (heap.arry.length : Int) ≤ maxInt)
    {index length : Nat} (inside : index + length ≤ heap.arry.length) :
    heap.copy index length = .ok ⟨heap.byteOrder, window heap.arry index length,
      .full (window heap.arry index length).length⟩ := by
  have limit : maxInt = 2147483647 := rfl
  have size : (window heap.arry index length).length = length := window_length inside
  have copied : CharArray.copy (List.replicate length 0) (0 : Nat) heap.arry index length =
      .ok (overwrite (List.replicate length 0) 0 (window heap.arry index length)) := by
    apply CharArray.copy_of_inside inside
    · rw [List.length_replicate]
      omega
    · exact small
    · rw [List.length_replicate]
      omega
  rw [overwrite_whole (by rw [List.length_replicate, size]), Int.natCast_zero] at copied
  unfold HeapChannelBuffer.copy
  rw [int32_of_nonneg (by omega) (by omega), if_neg (by omega), Int.toNat_natCast, copied, size]
  rfl

/-- A copy is taken exactly when the range is handed out. -/
structure Copies (buffer : ChannelBuffer) : Prop where
  taken : ∀ index length : Nat, 0 < length → index + length ≤ buffer.content.length →
    buffer.passes index length = true →
    ∃ copied, buffer.copy index length = .ok copied ∧
      IsCopy buffer.order (window buffer.content index length) copied
  refused : ∀ index length : Nat, 0 < length → index + length ≤ buffer.content.length →
    buffer.passes index length = false → buffer.copy index length = .error (rangeException "")

theorem Copies.view {view : ChannelBuffer} {check : Int → Int → Except Stop Unit}
    {shift : Int → Int} {adjustment length : Nat} (copies : buffer.Copies)
    (within : adjustment + length ≤ buffer.content.length)
    (shown : view.content = window buffer.content adjustment length)
    (ordered : view.order = buffer.order)
    (passed : ∀ index count : Int, view.copy index count = (do
      check index count
      buffer.copy (shift index) count))
    (checked : ∀ index width : Nat, index + width ≤ length → check index width = .ok ())
    (shifted : ∀ index : Nat, index ≤ length → shift index = ((adjustment + index : Nat) : Int))
    (same : ∀ index count, view.passes index count = buffer.passes (adjustment + index) count) :
    view.Copies := by
  have size : view.content.length = length := by
    rw [shown]
    exact window_length within
  constructor
  · intro index count positive inside handed
    rw [size] at inside
    rw [same] at handed
    rw [passed, checked index count inside, ok_bind, shifted index (by omega), shown, ordered,
      window_window _ _ _ _ _ inside]
    exact copies.taken (adjustment + index) count positive (by omega) handed
  · intro index count positive inside handed
    rw [size] at inside
    rw [same] at handed
    rw [passed, checked index count inside, ok_bind, shifted index (by omega)]
    exact copies.refused (adjustment + index) count positive (by omega) handed

theorem Copies.of_same {view : ChannelBuffer} (copies : buffer.Copies)
    (shown : view.content = buffer.content) (ordered : view.order = buffer.order)
    (passed : ∀ index count : Int, view.copy index count = buffer.copy index count)
    (same : ∀ index count, view.passes index count = buffer.passes index count) :
    view.Copies := by
  constructor
  · intro index count positive inside handed
    rw [shown] at inside
    rw [same] at handed
    rw [passed, shown, ordered]
    exact copies.taken index count positive inside handed
  · intro index count positive inside handed
    rw [shown] at inside
    rw [same] at handed
    rw [passed]
    exact copies.refused index count positive inside handed

section

variable {order : ByteOrder} {components : List ChannelBuffer} {indices : List Int} {last : Nat}
  {idx : Indices}

/-- The order of a copy is the order of the block that `getBytes` fills. -/
theorem composite_copy (index : Int) {length : Nat} (positive : 0 < length) :
    (composite order components indices last idx).copy index length = (do
      let arry ← (composite order components indices last idx).getters.getBytes index
        (List.replicate length 0) 0 length
      (heap ⟨order, arry, .zero⟩).setWriterIndex arry.length) := by
  have allocated : allocate order (length : Int) =
      .ok ⟨order, List.replicate length 0, .zero⟩ := by
    unfold allocate
    rw [if_neg (by omega), if_neg (by omega), Int.toNat_natCast]
    rfl
  have counted : (componentGetters components).length = components.length := by
    rw [componentGetters_map, List.length_map]
  have none : int32 ((List.replicate length (0 : Byte)).length - (length : Int)) = 0 := by
    rw [List.length_replicate, Int.sub_self]
    rfl
  rw [copy, getters]
  simp only [Getters.composite]
  rw [counted, none, allocated]
  cases getComponentId indices components.length last index with
  | error stop => rfl
  | ok componentId =>
      rw [ok_bind, ok_bind]
      by_cases beyond : int32 (indices.getD components.length 0 - length) < index
      · rw [if_pos beyond]
        change _ = ((if _ ∨ _ then _ else _ : Except Stop CharArray) >>= _)
        rw [if_pos (Or.inl beyond)]
        rfl
      · rw [if_neg beyond]
        change _ = ((if _ ∨ _ then _ else _ : Except Stop CharArray) >>= _)
        rw [if_neg (by omega)]

theorem composite_copies (hands : (composite order components indices last idx).Hands)
    (small : ((composite order components indices last idx).content.length : Int) ≤ maxInt) :
    (composite order components indices last idx).Copies := by
  have ordered : (composite order components indices last idx).order = order := by
    unfold ChannelBuffer.order
    rw [getters]
    rfl
  constructor
  · intro index length positive inside handed
    have taken := hands.bytes index length (List.replicate length 0) 0 positive inside
      (by rw [List.length_replicate]; omega) (by rw [List.length_replicate]; omega)
    have size : (window (composite order components indices last idx).content index length).length =
        length := window_length inside
    rw [if_pos handed, overwrite_whole (by rw [List.length_replicate, size]),
      Int.natCast_zero] at taken
    refine ⟨.heap ⟨order, window (composite order components indices last idx).content index length,
      .full (window (composite order components indices last idx).content index length).length⟩,
      ?_, ?_⟩
    · rw [composite_copy index positive, taken, ok_bind]
      unfold setWriterIndex
      rw [if_neg]
      · rfl
      · unfold ChannelBuffer.capacity readerIdx
        rw [getters]
        intro beyond
        rcases beyond with before | beyond
        · exact absurd before (Int.not_lt.mpr (Int.natCast_nonneg _))
        · exact absurd beyond (Int.lt_irrefl _)
    · rw [ordered]
      exact .heap
  · intro index length positive inside handed
    have taken := hands.bytes index length (List.replicate length 0) 0 positive inside
      (by rw [List.length_replicate]; omega) (by rw [List.length_replicate]; omega)
    rw [if_neg (by rw [handed]; decide), Int.natCast_zero] at taken
    rw [composite_copy index positive, taken]
    rfl

end

theorem dynamic_copies {endianness factory : ByteOrder} {buffer : HeapChannelBuffer} {idx : Indices}
    (ordered : buffer.byteOrder = endianness ∨ buffer.arry = [])
    (small : (buffer.arry.length : Int) ≤ maxInt) :
    (dynamic endianness factory buffer idx).Copies := by
  have shown : (dynamic endianness factory buffer idx).content = buffer.arry := by rw [content]
  have direct : (dynamic endianness factory buffer idx).order = endianness := by
    unfold ChannelBuffer.order
    rw [getters]
  constructor
  · intro index length positive inside handed
    rw [shown] at inside
    have size : (window buffer.arry index length).length = length := window_length inside
    have same : buffer.byteOrder = endianness := by
      rcases ordered with same | empty
      · exact same
      · rw [empty, List.length_nil] at inside
        omega
    have allocated : allocate endianness (max (length : Int) 64) =
        .ok ⟨endianness, List.replicate (max (length : Int) 64).toNat 0, .zero⟩ := by
      unfold allocate
      rw [if_neg (by omega), if_neg (by omega)]
      rfl
    refine ⟨.dynamic endianness factory ⟨endianness, window buffer.arry index length,
      .full (window buffer.arry index length).length⟩ (.full (window buffer.arry index length).length),
      ?_, ?_⟩
    · rw [copy, allocated, ok_bind, heap_copy small inside, ok_bind, same, size]
      unfold setIndex
      rw [if_neg]
      · rfl
      · unfold ChannelBuffer.capacity
        rw [getters]
        change ¬ ((0 : Int) < 0 ∨ (length : Int) < 0 ∨
          (((window buffer.arry index length).length : Nat) : Int) < length)
        omega
    · rw [direct, shown]
      exact .dynamic factory
  · intro index length positive inside handed
    rw [passes] at handed
    cases handed

theorem WellBuilt.copies (built : buffer.WellBuilt) : buffer.Copies := by
  induction built with
  | @heap buffer small inside =>
      constructor
      · intro index length positive within handed
        rw [content] at within
        refine ⟨.heap ⟨buffer.byteOrder, window buffer.arry index length,
          .full (window buffer.arry index length).length⟩, ?_, ?_⟩
        · rw [copy, heap_copy small within]
          rfl
        · rw [content]
          unfold order
          rw [getters]
          exact .heap
      · intro index length positive within handed
        rw [passes] at handed
        cases handed
  | dynamic ordered small inside => exact dynamic_copies ordered small
  | @sliced buffer adjustment length idx parent within inside ih =>
      have answers := parent.answers
      have capacity := answers.capacity
      unfold ChannelBuffer.capacity at within
      have fits : adjustment + length ≤ buffer.content.length := by omega
      apply Copies.view ih fits
      · rw [content, Int.toNat_natCast, Int.toNat_natCast]
      · unfold order
        rw [getters]
        rfl
      · intro index count
        rw [copy]
      · intro index width bounded
        exact Getters.slicedCheck_of_inside answers.small fits bounded
      · exact Getters.shifted_inside answers.small fits
      · intro index count
        rw [passes, Int.toNat_natCast]
  | @truncated buffer length idx parent within inside ih =>
      have answers := parent.answers
      have capacity := answers.capacity
      unfold ChannelBuffer.capacity at within
      have fits : 0 + length ≤ buffer.content.length := by omega
      apply Copies.view ih fits
      · rw [content, Int.toNat_natCast]
      · unfold order
        rw [getters]
        rfl
      · intro index count
        rw [copy]
      · intro index width bounded
        exact Getters.truncatedCheck_of_inside answers.small (by omega) bounded
      · intro index _
        rw [Nat.zero_add]
      · intro index count
        rw [passes, Nat.zero_add]
  | duplicated parent inside ih =>
      apply ih.of_same
      · rw [content]
      · unfold order
        rw [getters]
      · intro index count
        rw [copy]
      · intro index count
        rw [passes]
  | readOnly parent inside ih =>
      apply ih.of_same
      · rw [content]
      · unfold order
        rw [getters]
      · intro index count
        rw [copy]
      · intro index count
        rw [passes]
  | composite parts ordered cached small inside ih =>
      have built := WellBuilt.composite parts ordered cached small inside
      exact composite_copies built.hands built.answers.small

end Copies

end ChannelBuffer

end Cetty
