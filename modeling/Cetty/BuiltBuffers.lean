import Mathlib.Data.List.Forall2
import Cetty.BufferContents
import Cetty.ListSegments

/-!
# Buffers as the library builds them

`WellBuilt` is what the constructors of every buffer kind establish and the operations
keep: views lie inside what they are views of, the components of a composite buffer have
its order, the indices are in order. The typed getters of such a buffer answer from its
content. That of a composite buffer is the concatenation of what its components hold.
-/

namespace Cetty

open MachineInt ByteWindow ListSegments

/-- The lookup table of a composite buffer. -/
def Indexed (indices : List Int) (contents : List CharArray) : Prop :=
  ∀ position : Nat, position ≤ contents.length →
    indices.getD position 0 = (offset contents position : Int)

theorem scanl_offset (contents : List CharArray) (start : Int) (position : Nat)
    (bounded : position ≤ contents.length) :
    ((contents.map fun content => (content.length : Int)).scanl (· + ·) start).getD position 0 =
      start + offset contents position := by
  induction contents generalizing start position with
  | nil =>
      have front : position = 0 := Nat.le_zero.mp bounded
      rw [front, offset_zero]
      simp
  | cons first rest ih =>
      cases position with
      | zero =>
          rw [offset_zero]
          simp
      | succ position =>
          rw [List.map_cons, List.scanl_cons, List.getD_cons_succ,
            ih _ _ (Nat.le_of_succ_le_succ bounded), offset_cons_succ]
          omega

/-- The table that `setComponents` builds. -/
theorem indexed_scanl (contents : List CharArray) :
    Indexed ((contents.map fun content => (content.length : Int)).scanl (· + ·) 0) contents := by
  intro position bounded
  rw [scanl_offset contents 0 position bounded, Int.zero_add]

section Search

variable {indices : List Int} {contents : List CharArray} {index position last : Nat}

theorem find_downwards {count : Nat} {wanted : Nat → Bool} (here : wanted position = true)
    (below : position < count) (above : ∀ other, position < other → other < count →
      wanted other = false) : (List.range count).reverse.find? wanted = some position := by
  induction count with
  | zero => omega
  | succ count ih =>
      rw [List.range_succ, List.reverse_append, List.reverse_singleton, List.singleton_append,
        List.find?_cons]
      by_cases top : position = count
      · rw [← top, here]
      · rw [above count (by omega) (by omega)]
        exact ih (by omega) (fun other after within => above other after (by omega))

/-- The search ends at the component of the index, wherever it starts. -/
theorem getComponentId_holds (indexed : Indexed indices contents) (cached : last < contents.length)
    (held : Holds contents index position) :
    getComponentId indices contents.length last index = .ok position := by
  have present := held.present
  have lower := held.lower
  have upper := held.upper
  have at_ : ∀ place ≤ contents.length, indices.getD place 0 = (offset contents place : Int) := indexed
  unfold getComponentId
  rw [if_neg (by omega), at_ last (by omega), at_ (last + 1) (by omega)]
  by_cases right : (offset contents last : Int) ≤ index
  · rw [if_pos right]
    by_cases same : (index : Int) < offset contents (last + 1)
    · rw [if_pos same]
      have holds : Holds contents index last := ⟨cached, by omega, by omega⟩
      rw [holds.unique held]
      rfl
    · rw [if_neg same]
      have behind : last + 1 ≤ position := by
        by_contra before
        have ordered := offset_mono contents (show position + 1 ≤ last + 1 by omega)
        omega
      have found : (List.range' (last + 1) (contents.length - (last + 1))).find?
          (fun place => (index : Int) < indices.getD (place + 1) 0) = some position := by
        rw [List.find?_range'_eq_some]
        refine ⟨?_, ?_, ?_⟩
        · rw [at_ (position + 1) (by omega)]
          exact decide_eq_true (by omega)
        · rw [List.mem_range'_1]
          omega
        · intro other _ before
          have ordered := offset_mono contents (show other + 1 ≤ position by omega)
          rw [at_ (other + 1) (by omega), decide_eq_false (by omega)]
          rfl
      rw [found]
      rfl
  · rw [if_neg right]
    have before : position < last := by
      by_contra behind
      have ordered := offset_mono contents (show last ≤ position by omega)
      omega
    have found : (List.range last).reverse.find?
        (fun place => indices.getD place 0 ≤ (index : Int)) = some position := by
      apply find_downwards _ before
      · intro other after within
        have ordered := offset_mono contents (show position + 1 ≤ other by omega)
        rw [at_ other (by omega)]
        exact decide_eq_false (by omega)
      · rw [at_ position (by omega)]
        exact decide_eq_true (by omega)
    rw [found]
    rfl

end Search

/-- Three bytes as two and one. -/
theorem medium_of_short (order : ByteOrder) (cells : CharArray) (index : Nat) :
    (match order with
      | .big => 0#8 ++ order.shortAt cells index ++ cells.getD (index + 2) 0
      | .little => 0#8 ++ cells.getD (index + 2) 0 ++ order.shortAt cells index :
        BitVec 32) = order.mediumAt cells index := by
  apply BitVec.eq_of_toNat_eq
  cases order with
  | big =>
      change ((0#8 ++ (cells.getD index 0 ++ cells.getD (index + 1) 0)) ++
        cells.getD (index + 2) 0 : BitVec (8 + (8 + 8) + 8)).toNat =
          (ByteOrder.big.medium _ _ _).toNat
      rw [medium_toNat, toNat_append, toNat_append, toNat_append]
      change (0 * _ + _) * _ + _ = _
      rw [Nat.zero_mul, Nat.zero_add]
      omega
  | little =>
      change ((0#8 ++ cells.getD (index + 2) 0) ++
        (cells.getD (index + 1) 0 ++ cells.getD index 0) : BitVec (8 + 8 + (8 + 8))).toNat =
          (ByteOrder.big.medium _ _ _).toNat
      rw [medium_toNat, toNat_append, toNat_append, toNat_append]
      change (0 * _ + _) * _ + _ = _
      rw [Nat.zero_mul, Nat.zero_add]
      omega

namespace Getters

/-- The components of a composite buffer with the bytes they hold. -/
structure Holding (order : ByteOrder) (components : List Getters) (contents : List CharArray) :
    Prop where
  answers : List.Forall₂ (fun component content => component.Answers content) components contents
  ordered : ∀ component ∈ components, component.order = order
  small : (contents.flatten.length : Int) ≤ maxInt

section Composite

variable {order : ByteOrder} {components : List Getters} {contents : List CharArray}
  {indices : List Int} {last : Nat}

theorem Holding.count (holding : Holding order components contents) :
    components.length = contents.length := holding.answers.length_eq

theorem Holding.found (holding : Holding order components contents) {position : Nat}
    {content : CharArray} (found : contents[position]? = some content) :
    ∃ component, components[position]? = some component ∧ component.Answers content ∧
      component.order = order := by
  obtain ⟨inside, same⟩ := List.getElem?_eq_some_iff.mp found
  have inside_ : position < components.length := by rw [holding.count]; exact inside
  have answers := holding.answers.get inside_ inside
  rw [List.get_eq_getElem, List.get_eq_getElem, same] at answers
  exact ⟨components[position], List.getElem?_eq_getElem inside_, answers,
    holding.ordered _ (List.getElem_mem inside_)⟩

/-- What the search at an index in range finds. -/
theorem Holding.located (holding : Holding order components contents)
    (indexed : Indexed indices contents) (cached : last < components.length) {index : Nat}
    (inside : index < contents.flatten.length) :
    ∃ position content component, getComponentId indices components.length last index = .ok position ∧
      contents[position]? = some content ∧ components[position]? = some component ∧
      component.Answers content ∧ component.order = order ∧
      indices.getD position 0 = (offset contents position : Int) ∧
      indices.getD (position + 1) 0 = ((offset contents position + content.length : Nat) : Int) ∧
      offset contents position ≤ index ∧ index < offset contents position + content.length := by
  obtain ⟨position, held⟩ := exists_holds inside
  obtain ⟨content, found, here⟩ := held.segment
  obtain ⟨component, there, answers, ordered⟩ := holding.found found
  have lower := held.lower
  have search := getComponentId_holds indexed (by rw [← holding.count]; exact cached) held
  rw [← holding.count] at search
  have next := offset_next found
  refine ⟨position, content, component, search, found, there, answers, ordered,
    indexed position (Nat.le_of_lt held.present), ?_, lower, by omega⟩
  rw [indexed (position + 1) held.present, next]

theorem segment_window {position : Nat} {content : CharArray}
    (found : contents[position]? = some content) :
    content = window contents.flatten (offset contents position) content.length := by
  have inner := window_segment found (show 0 + content.length ≤ content.length by omega)
  rw [Nat.add_zero, window_whole] at inner
  exact inner.symm

/-- A typed access: inside one component, or put together from `parts`. -/
theorem Holding.within (holding : Holding order components contents)
    (indexed : Indexed indices contents) (cached : last < components.length) {Value : Type}
    {whole : Getters → Int → Except Stop Value} {parts : Except Stop Value}
    {typedAt : CharArray → Nat → Value} {index width : Nat} (positive : 0 < width)
    (inside : index + width ≤ contents.flatten.length)
    (one : ∀ component content, component.Answers content → component.order = order →
      ∀ start : Nat, start + width ≤ content.length →
        whole component start = .ok (typedAt content start))
    (shifted : ∀ (cells : CharArray) (start count place : Nat), place + width ≤ count →
      typedAt (window cells start count) place = typedAt cells (start + place))
    (split_ : parts = .ok (typedAt contents.flatten index)) :
    (do
      let componentId ← getComponentId indices components.length last index
      if (index : Int) + width ≤ indices.getD (componentId + 1) 0 then
        let component ← component components componentId
        whole component (index - indices.getD componentId 0)
      else parts) = .ok (typedAt contents.flatten index) := by
  obtain ⟨position, content, component, search, found, there, answers, ordered, start, stop, lower,
    upper⟩ := holding.located indexed cached (show index < contents.flatten.length by omega)
  rw [search, ok_bind, stop]
  by_cases within : (index : Int) + width ≤ ((offset contents position + content.length : Nat) : Int)
  · rw [if_pos within]
    unfold Getters.component
    rw [there]
    change whole component (index - indices.getD position 0) = _
    have place : (index : Int) - indices.getD position 0 =
        ((index - offset contents position : Nat) : Int) := by
      rw [start]
      omega
    rw [place, one component content answers ordered _ (by omega)]
    have same : typedAt content (index - offset contents position) =
        typedAt contents.flatten index := by
      have window_ := segment_window found
      have moved := shifted contents.flatten (offset contents position) content.length
        (index - offset contents position) (by omega)
      rw [← window_] at moved
      rw [moved]
      congr 1
      omega
    rw [same]
  · rw [if_neg within]
    exact split_

variable (holding : Holding order components contents) (indexed : Indexed indices contents)
  (cached : last < components.length)

include holding indexed cached

theorem composite_byte {index : Nat} (inside : index < contents.flatten.length) :
    (composite order components indices last).getByte index =
      .ok (contents.flatten.getD index 0) := by
  obtain ⟨position, content, component, search, found, there, answers, -, start, -, lower,
    upper⟩ := holding.located indexed cached inside
  change (do
    let componentId ← getComponentId indices components.length last index
    let component ← Getters.component components componentId
    component.getByte (index - indices.getD componentId 0)) = _
  rw [search, ok_bind]
  unfold Getters.component
  rw [there]
  change component.getByte (index - indices.getD position 0) = _
  have place : (index : Int) - indices.getD position 0 =
      ((index - offset contents position : Nat) : Int) := by
    rw [start]
    omega
  rw [place, answers.byte _ (by omega)]
  have moved : (window contents.flatten (offset contents position) content.length).getD
      (index - offset contents position) 0 =
        contents.flatten.getD (offset contents position + (index - offset contents position)) 0 :=
    getD_window (by omega)
  rw [← segment_window found] at moved
  rw [moved]
  congr 2
  omega

theorem composite_short {index : Nat} (inside : index + 2 ≤ contents.flatten.length) :
    (composite order components indices last).getShort index =
      .ok (order.shortAt contents.flatten index) := by
  have next : ((index : Int) + 1) = ((index + 1 : Nat) : Int) := by omega
  apply holding.within indexed cached (show 0 < 2 by omega) inside
  · intro component content answers ordered start within
    rw [answers.short start within, ordered]
  · intro cells start count place within
    exact short_at_window order within
  · change (do
      let first ← (composite order components indices last).getByte index
      let second ← (composite order components indices last).getByte (index + 1)
      pure (order.short first second)) = _
    rw [next, composite_byte holding indexed cached (by omega),
      composite_byte holding indexed cached (by omega)]
    rfl

theorem composite_int {index : Nat} (inside : index + 4 ≤ contents.flatten.length) :
    (composite order components indices last).getInt index =
      .ok (order.intAt contents.flatten index) := by
  have next : ((index : Int) + 2) = ((index + 2 : Nat) : Int) := by omega
  apply holding.within indexed cached (show 0 < 4 by omega) inside
  · intro component content answers ordered start within
    rw [answers.int start within, ordered]
  · intro cells start count place within
    exact int_at_window order within
  · change (do
      let first ← (composite order components indices last).getShort index
      let second ← (composite order components indices last).getShort (index + 2)
      pure (order.int first second)) = _
    rw [next, composite_short holding indexed cached (by omega),
      composite_short holding indexed cached (by omega)]
    rfl

/-- A composite buffer answers from the bytes of its components, one after the other. -/
theorem composite_answers :
    (composite order components indices last).Answers contents.flatten := by
  constructor
  · change indices.getD components.length 0 = _
    rw [holding.count, indexed _ (Nat.le_refl _), offset_end]
  · exact holding.small
  · intro index inside
    exact composite_byte holding indexed cached inside
  · intro index inside
    exact composite_short holding indexed cached inside
  · intro index inside
    apply holding.within indexed cached (show 0 < 3 by omega) inside
    · intro component content answers ordered start within
      rw [answers.medium start within, ordered]
      rfl
    · intro cells start count place within
      exact medium_at_window order within
    · have next : ((index : Int) + 2) = ((index + 2 : Nat) : Int) := by omega
      change (do
        let pair ← (composite order components indices last).getShort index
        let third ← (composite order components indices last).getByte (index + 2)
        pure (match order with
          | .big => 0#8 ++ pair ++ third
          | .little => 0#8 ++ third ++ pair)) = _
      rw [next, composite_short holding indexed cached (by omega),
        composite_byte holding indexed cached (by omega)]
      exact congrArg Except.ok (medium_of_short order contents.flatten index)
  · intro index inside
    exact composite_int holding indexed cached inside
  · intro index inside
    have next : ((index : Int) + 4) = ((index + 4 : Nat) : Int) := by omega
    apply holding.within indexed cached (show 0 < 8 by omega) inside
    · intro component content answers ordered start within
      rw [answers.long start within, ordered]
      rfl
    · intro cells start count place within
      exact long_at_window order within
    · change (do
        let first ← (composite order components indices last).getInt index
        let second ← (composite order components indices last).getInt (index + 4)
        pure (order.long first second)) = _
      rw [next, composite_int holding indexed cached (by omega),
        composite_int holding indexed cached (by omega)]
      rfl

end Composite

end Getters

namespace ChannelBuffer

/-- A dynamic buffer of estimated length 0 holds the shared empty buffer, which is big-endian. -/
inductive WellBuilt : ChannelBuffer → Prop where
  | heap {buffer : HeapChannelBuffer} (small : (buffer.arry.length : Int) ≤ maxInt)
      (inside : buffer.idx.Inside buffer.arry.length) : WellBuilt (.heap buffer)
  | dynamic {endianness factory : ByteOrder} {buffer : HeapChannelBuffer} {idx : Indices}
      (ordered : buffer.byteOrder = endianness ∨ buffer.arry = [])
      (small : (buffer.arry.length : Int) ≤ maxInt) (inside : idx.Inside buffer.arry.length) :
      WellBuilt (.dynamic endianness factory buffer idx)
  | sliced {buffer : ChannelBuffer} {adjustment length : Nat} {idx : Indices}
      (parent : WellBuilt buffer) (within : ((adjustment + length : Nat) : Int) ≤ buffer.capacity)
      (inside : idx.Inside length) : WellBuilt (.sliced buffer adjustment length idx)
  | truncated {buffer : ChannelBuffer} {length : Nat} {idx : Indices} (parent : WellBuilt buffer)
      (within : (length : Int) ≤ buffer.capacity) (inside : idx.Inside length) :
      WellBuilt (.truncated buffer length idx)
  | duplicated {buffer : ChannelBuffer} {idx : Indices} (parent : WellBuilt buffer)
      (inside : idx.Inside buffer.capacity) : WellBuilt (.duplicated buffer idx)
  | readOnly {buffer : ChannelBuffer} {idx : Indices} (parent : WellBuilt buffer)
      (inside : idx.Inside buffer.capacity) : WellBuilt (.readOnly buffer idx)
  | composite {order : ByteOrder} {components : List ChannelBuffer} {last : Nat} {idx : Indices}
      (parts : ∀ component ∈ components, WellBuilt component)
      (ordered : ∀ component ∈ components, component.order = order)
      (cached : last < components.length) (small : (components.map capacity).sum ≤ maxInt)
      (inside : idx.Inside (components.map capacity).sum) :
      WellBuilt (.composite order components ((components.map capacity).scanl (· + ·) 0) last idx)

theorem componentGetters_map (components : List ChannelBuffer) :
    componentGetters components = components.map getters := by
  induction components with
  | nil => rw [componentGetters, List.map_nil]
  | cons component rest ih => rw [componentGetters, List.map_cons, ih]

theorem componentContent_flatten (components : List ChannelBuffer) :
    componentContent components = (components.map content).flatten := by
  induction components with
  | nil =>
      rw [componentContent]
      rfl
  | cons component rest ih => rw [componentContent, List.map_cons, List.flatten_cons, ih]

variable {components : List ChannelBuffer}

/-- Capacities of buffers that answer. -/
theorem map_capacity (answers : ∀ component ∈ components, component.getters.Answers component.content) :
    components.map capacity = (components.map content).map fun bytes => (bytes.length : Int) := by
  rw [List.map_map]
  apply List.map_congr_left
  intro component among
  exact (answers component among).capacity

theorem sum_lengths (contents : List CharArray) :
    (contents.map fun bytes => (bytes.length : Int)).sum = contents.flatten.length := by
  induction contents with
  | nil => rfl
  | cons first rest ih =>
      rw [List.map_cons, List.sum_cons, ih, List.flatten_cons, List.length_append]
      omega

theorem holding_of_answers {order : ByteOrder}
    (answers : ∀ component ∈ components, component.getters.Answers component.content)
    (ordered : ∀ component ∈ components, component.order = order)
    (small : (components.map capacity).sum ≤ maxInt) :
    Getters.Holding order (components.map getters) (components.map content) := by
  refine ⟨?_, ?_, ?_⟩
  · rw [List.forall₂_map_left_iff, List.forall₂_map_right_iff, List.forall₂_same]
    exact answers
  · intro getters among
    obtain ⟨component, there, rfl⟩ := List.mem_map.mp among
    exact ordered component there
  · rwa [map_capacity answers, sum_lengths] at small

theorem indexed_of_answers (answers : ∀ component ∈ components, component.getters.Answers component.content) :
    Indexed ((components.map capacity).scanl (· + ·) 0) (components.map content) := by
  rw [map_capacity answers]
  exact indexed_scanl _

/-- The typed getters of every buffer kind answer from the content. -/
theorem WellBuilt.answers {buffer : ChannelBuffer} (built : buffer.WellBuilt) :
    buffer.getters.Answers buffer.content := by
  induction built with
  | heap small inside =>
      rw [getters, content]
      exact (Getters.heap_serves _ small).answers
  | dynamic ordered small inside =>
      rw [getters, content]
      exact (dynamic_serves small ordered).answers
  | sliced parent within inside ih =>
      rw [getters, content, Int.toNat_natCast, Int.toNat_natCast]
      have capacity := ih.capacity
      unfold ChannelBuffer.capacity at within
      exact Getters.sliced_answers ih (by omega)
  | truncated parent within inside ih =>
      rw [getters, content, Int.toNat_natCast]
      have capacity := ih.capacity
      unfold ChannelBuffer.capacity at within
      exact Getters.truncated_answers ih (by omega)
  | duplicated parent inside ih =>
      rw [getters, content]
      exact ih
  | readOnly parent inside ih =>
      rw [getters, content]
      exact ih
  | composite parts ordered cached small inside ih =>
      rw [getters, content, componentGetters_map, componentContent_flatten]
      apply Getters.composite_answers (holding_of_answers ih ordered small) (indexed_of_answers ih)
      rw [List.length_map]
      exact cached

theorem WellBuilt.inside {buffer : ChannelBuffer} (built : buffer.WellBuilt) :
    buffer.idx.Inside buffer.content.length := by
  have capacity := built.answers.capacity
  cases built with
  | heap small inside =>
      rw [content]
      exact inside
  | dynamic ordered small inside =>
      rw [content]
      exact inside
  | sliced parent within inside =>
      rw [← capacity, getters]
      exact inside
  | truncated parent within inside =>
      rw [← capacity, getters]
      exact inside
  | duplicated parent inside =>
      rw [← capacity, getters]
      exact inside
  | readOnly parent inside =>
      rw [← capacity, getters]
      exact inside
  | composite parts ordered cached small inside =>
      have answers := fun component among => (parts component among).answers
      rw [content, componentContent_flatten, ← sum_lengths, ← map_capacity answers]
      exact inside

/-- The readable bytes and where the indices are. -/
theorem WellBuilt.readable {buffer : ChannelBuffer} (built : buffer.WellBuilt) :
    ∃ reader count : Nat, buffer.readerIdx = reader ∧ buffer.readableBytes = (count : Int) ∧
      buffer.readableContent = window buffer.content reader count ∧
      reader + count ≤ buffer.content.length := by
  have inside := built.inside
  have reader : 0 ≤ buffer.readerIdx := inside.reader
  have writer : buffer.readerIdx ≤ buffer.writerIdx := inside.writer
  have bound : buffer.writerIdx ≤ buffer.content.length := inside.bound
  have small := built.answers.small
  refine ⟨buffer.readerIdx.toNat, (buffer.writerIdx - buffer.readerIdx).toNat, by omega, ?_, rfl,
    by omega⟩
  unfold readableBytes
  rw [int32_of_nonneg (by omega) (by omega)]
  omega

end ChannelBuffer

end Cetty
