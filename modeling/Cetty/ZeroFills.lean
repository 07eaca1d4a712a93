import Cetty.BufferSlices
import Cetty.DynamicQueue

/-!
# Zero filling

`setZero` and `writeZero` take a length apart into longs, at most one int and single bytes. Such a
zero replaces its bytes in the content, also where a composite buffer has to take it apart; next to
each other these fill the whole range, in whatever part of a composite buffer they lie.
-/

namespace Cetty

open MachineInt ByteWindow ListSegments

/-- The zeros of the widths that are taken apart. -/
inductive TypedValue.Blank : TypedValue → Prop where
  | byte : Blank (.byte 0)
  | short : Blank (.short 0)
  | int : Blank (.int 0)
  | long : Blank (.long 0)

theorem TypedValue.Blank.bytes {value : TypedValue} (blank : value.Blank) (order : ByteOrder) :
    value.bytes order = List.replicate value.width 0 := by
  cases blank <;> cases order <;> decide

namespace ChannelBuffer

mutual

/-- Nothing in it is a read-only buffer. -/
def writable : ChannelBuffer → Bool
  | heap _ => true
  | dynamic _ _ _ _ => true
  | sliced buffer _ _ _ => writable buffer
  | truncated buffer _ _ => writable buffer
  | duplicated buffer _ => writable buffer
  | readOnly _ _ => false
  | composite _ components _ _ _ => allWritable components

def allWritable : List ChannelBuffer → Bool
  | [] => true
  | component :: rest => writable component && allWritable rest

end

theorem allWritable_iff (components : List ChannelBuffer) :
    allWritable components = true ↔ ∀ component ∈ components, component.writable = true := by
  induction components with
  | nil =>
      rw [allWritable]
      simp
  | cons component rest ih =>
      rw [allWritable, Bool.and_eq_true, ih, List.forall_mem_cons]

def isComposite : ChannelBuffer → Bool
  | composite _ _ _ _ _ => true
  | _ => false

section Replacing

variable {order : ByteOrder} {components others : List ChannelBuffer} {last : Nat} {idx : Indices}

/-- A buffer as it is after a write. -/
structure Rewritten (after before : ChannelBuffer) : Prop where
  built : after.WellBuilt
  size : after.content.length = before.content.length
  order : after.order = before.order
  depth : after.depth = before.depth
  writable : after.writable = before.writable
  idx : after.idx = before.idx
  kind : after.isComposite = before.isComposite

theorem WellBuilt.rewritten {buffer : ChannelBuffer} (built : buffer.WellBuilt) :
    Rewritten buffer buffer := ⟨built, rfl, rfl, rfl, rfl, rfl, rfl⟩

theorem Rewritten.trans {first second third : ChannelBuffer} (later : Rewritten third second)
    (here : Rewritten second first) : Rewritten third first :=
  ⟨later.built, later.size.trans here.size, later.order.trans here.order,
    later.depth.trans here.depth, later.writable.trans here.writable, later.idx.trans here.idx,
    later.kind.trans here.kind⟩

theorem Rewritten.capacity {after before : ChannelBuffer} (rewritten : Rewritten after before)
    (built : before.WellBuilt) : after.capacity = before.capacity := by
  have now : after.capacity = after.content.length := rewritten.built.answers.capacity
  have earlier : before.capacity = before.content.length := built.answers.capacity
  rw [now, earlier, rewritten.size]

section

variable (rewritten : List.Forall₂ Rewritten others components)

include rewritten

theorem rewritten_capacities (built : ∀ component ∈ components, component.WellBuilt) :
    others.map ChannelBuffer.capacity = components.map ChannelBuffer.capacity := by
  induction rewritten with
  | nil => rfl
  | cons here later ih =>
      rw [List.map_cons, List.map_cons, here.capacity (built _ List.mem_cons_self),
        ih fun component among => built component (List.mem_cons_of_mem _ among)]

theorem rewritten_sizes :
    (componentContent others).length = (componentContent components).length ∧
      componentDepth others = componentDepth components ∧
      allWritable others = allWritable components := by
  induction rewritten with
  | nil => exact ⟨rfl, rfl, rfl⟩
  | cons here later ih =>
      rcases ih with ⟨size, depth, writable⟩
      refine ⟨?_, ?_, ?_⟩
      · rw [componentContent, componentContent, List.length_append, List.length_append, here.size, size]
      · rw [componentDepth, componentDepth, here.depth, depth]
      · rw [allWritable, allWritable, here.writable, writable]

theorem rewritten_ordered (ordered : ∀ component ∈ components, component.order = order) :
    ∀ component ∈ others, component.order = order := by
  induction rewritten with
  | nil => exact ordered
  | cons here later ih =>
      intro component among
      rcases List.mem_cons.mp among with first | behind
      · rw [first, here.order]
        exact ordered _ List.mem_cons_self
      · exact ih (fun other there => ordered other (List.mem_cons_of_mem _ there)) component behind

theorem rewritten_built :
    ∀ component ∈ others, component.WellBuilt := by
  induction rewritten with
  | nil =>
      intro component none
      cases none
  | cons here later ih =>
      intro component among
      rcases List.mem_cons.mp among with first | behind
      · rw [first]
        exact here.built
      · exact ih component behind

end

/-- A composite buffer whose components are rewritten is. -/
theorem composite_rewritten {indices : List Int} {place : Nat}
    (built : (composite order components indices last idx).WellBuilt)
    (rewritten : List.Forall₂ Rewritten others components) (cached : place < components.length) :
    Rewritten (composite order others indices place idx)
      (composite order components indices last idx) := by
  constructor
  · cases built with
    | composite parts ordered before small inside =>
        have same := rewritten_capacities rewritten parts
        have count := rewritten.length_eq
        rw [← same] at small inside ⊢
        exact .composite (rewritten_built rewritten) (rewritten_ordered rewritten ordered)
          (by rw [count]; exact cached) small inside
  · rw [content, content]
    exact (rewritten_sizes rewritten).1
  · rfl
  · rw [depth, depth, (rewritten_sizes rewritten).2.1]
  · rw [writable, writable]
    exact (rewritten_sizes rewritten).2.2
  · rfl
  · rfl

theorem rewritten_same (built : ∀ component ∈ components, component.WellBuilt) :
    List.Forall₂ Rewritten components components := by
  rw [List.forall₂_same]
  exact fun component among => (built component among).rewritten

theorem rewritten_set {place : Nat} {component after : ChannelBuffer}
    (built : ∀ component ∈ components, component.WellBuilt)
    (found : components[place]? = some component) (rewritten : Rewritten after component) :
    List.Forall₂ Rewritten (components.set place after) components := by
  induction components generalizing place with
  | nil => cases found
  | cons first rest ih =>
      have behind : ∀ component ∈ rest, component.WellBuilt :=
        fun component among => built component (List.mem_cons_of_mem _ among)
      cases place with
      | zero =>
          cases found
          exact .cons rewritten (rewritten_same behind)
      | succ place =>
          exact .cons (built first List.mem_cons_self).rewritten (ih behind found)

end Replacing

/-- The program sets the bytes of a range to zero and changes nothing else. -/
def Blanked (program : BufferM Unit) (buffer : ChannelBuffer) (index count : Nat) : Prop :=
  ∃ after, program.run buffer = .ok () after ∧ Rewritten after buffer ∧
    after.content = overwrite buffer.content index (List.replicate count 0)

/-- Where nothing is read-only, in buffers that wrap fewer than `fuel` others. -/
structure Free (fuel : Nat) (buffer : ChannelBuffer) : Prop where
  built : buffer.WellBuilt
  writable : buffer.writable = true
  depth : buffer.depth ≤ fuel

/-- The program does so in every buffer of a kind. -/
def Zeroes (kind : ChannelBuffer → Prop) (program : BufferM Unit) (index count : Nat) : Prop :=
  ∀ buffer, kind buffer → index + count ≤ buffer.content.length → Blanked program buffer index count

/-- A kind that a write does not leave. -/
def Lasting (kind : ChannelBuffer → Prop) : Prop :=
  ∀ after before, Rewritten after before → kind before → kind after

theorem free_lasting (fuel : Nat) : Lasting (Free fuel) := by
  intro after before rewritten free
  constructor
  · exact rewritten.built
  · rw [rewritten.writable, free.writable]
  · rw [rewritten.depth]
    exact free.depth

/-- A composite buffer whose components wrap fewer than `fuel` others. -/
def Target (fuel : Nat) (buffer : ChannelBuffer) : Prop :=
  Free (fuel + 1) buffer ∧ buffer.isComposite = true

theorem target_lasting (fuel : Nat) : Lasting (Target fuel) := by
  intro after before rewritten target
  constructor
  · exact free_lasting (fuel + 1) after before rewritten target.1
  · rw [rewritten.kind, target.2]

section Zeroes

variable {kind : ChannelBuffer → Prop} {program : BufferM Unit} {index count more : Nat}

/-- Two ranges side by side. -/
theorem Zeroes.bind {first second : BufferM Unit} (lasting : Lasting kind)
    (here : Zeroes kind first index count) (later : Zeroes kind second (index + count) more) :
    Zeroes kind (first >>= fun _ => second) index (count + more) := by
  intro buffer holds inside
  obtain ⟨middle, ran, kept, shown⟩ := here buffer holds (by omega)
  have size := kept.size
  obtain ⟨after, last, rest, final⟩ := later middle (lasting middle buffer kept holds) (by omega)
  refine ⟨after, ?_, rest.trans kept, ?_⟩
  · rw [run_bind_ok _ ran, last]
  · have width : (List.replicate count (0 : Byte)).length = count := List.length_replicate
    have place : index + count = index + (List.replicate count (0 : Byte)).length := by rw [width]
    rw [final, shown, place, overwrite_append, List.replicate_add]
    omega

theorem Zeroes.sized (zeroes : Zeroes kind program index count) (same : count = more) :
    Zeroes kind program index more := by
  rw [← same]
  exact zeroes

/-- The order of the buffer decides. -/
theorem zeroes_ordered {big little : BufferM Unit} (one : Zeroes kind big index count)
    (other : Zeroes kind little index count) :
    Zeroes kind (do
      match (← get).order with
      | .big => big
      | .little => little) index count := by
  intro buffer holds inside
  have run : (do
      match (← get).order with
      | .big => big
      | .little => little : BufferM Unit).run buffer =
      (match buffer.order with
      | .big => big
      | .little => little).run buffer := rfl
  unfold Blanked
  rw [run]
  cases buffer.order with
  | big => exact one buffer holds inside
  | little => exact other buffer holds inside

theorem Blanked.congr {other : BufferM Unit} {buffer : ChannelBuffer}
    (blanked : Blanked program buffer index count) (same : other.run buffer = program.run buffer) :
    Blanked other buffer index count := by
  obtain ⟨after, ran, rest⟩ := blanked
  exact ⟨after, same.trans ran, rest⟩

end Zeroes

section Composite

variable {fuel : Nat} {setter : Int → TypedValue → BufferM Unit}

/-- The typed setters of the buffers that wrap fewer than `fuel` others. -/
def Setter (fuel : Nat) (setter : Int → TypedValue → BufferM Unit) : Prop :=
  ∀ (value : TypedValue), value.Blank → ∀ index : Nat,
    Zeroes (Free fuel) (setter index value) index value.width

theorem shape_of_composite {buffer : ChannelBuffer} (kind : buffer.isComposite = true) :
    ∃ order components indices last idx, buffer = composite order components indices last idx := by
  cases buffer with
  | composite order components indices last idx => exact ⟨_, _, _, _, _, rfl⟩
  | _ => cases kind

variable {components : List ChannelBuffer}

theorem components_depth {component : ChannelBuffer}
    (among : component ∈ components) : component.depth ≤ componentDepth components := by
  induction components with
  | nil => cases among
  | cons first rest ih =>
      rw [componentDepth]
      rcases List.mem_cons.mp among with here | behind
      · rw [here]
        exact Nat.le_max_left _ _
      · exact Nat.le_trans (ih behind) (Nat.le_max_right _ _)

/-- What is left of `inComponent` when the search is over. -/
theorem inComponent_run {order : ByteOrder} {indices : List Int}
    {last place : Nat} {idx : Indices} {component : ChannelBuffer} {start : Int}
    {stores : Int → BufferM Unit} {fits : Int → Bool} {parts : BufferM Unit}
    (search : getComponentId indices components.length last start = .ok place)
    (found : components[place]? = some component) :
    (BufferM.inComponent start stores fits parts).run
        (composite order components indices last idx) =
      if fits (indices.getD (place + 1) 0) then
        (focus (fun _ => component)
          (fun _ written => composite order (components.set place written) indices place idx)
          (stores (start - indices.getD place 0)) : BufferM Unit).run
            (composite order components indices last idx)
      else parts.run (composite order components indices place idx) := by
  have searched : (call (getComponentId indices components.length last start) : BufferM Nat).run
      (composite order components indices last idx) =
      .ok place (composite order components indices last idx) := by
    rw [search]
    exact run_call_ok _ _
  unfold BufferM.inComponent
  rw [run_bind_get]
  rw [run_bind_ok _ searched, found]
  cases fits (indices.getD (place + 1) 0) with
  | false => rfl
  | true => rfl

/-- A setter of the component that holds the index, or the parts of the value behind it. -/
theorem inComponent_zeroes {index : Nat} (given : Setter fuel setter) {value : TypedValue}
    (blank : value.Blank) {fits : Int → Bool} {parts : BufferM Unit}
    (fit : ∀ next : Nat, index < next → (next : Int) ≤ maxInt → index + value.width ≤ maxInt →
      (fits next = true ↔ index + value.width ≤ next))
    (apart : 1 < value.width → Zeroes (Target fuel) parts index value.width) :
    Zeroes (Target fuel) (BufferM.inComponent index (fun local_ => setter local_ value) fits parts)
      index value.width := by
  intro buffer target inside
  have small := target.1.built.answers.small
  have wide := value.width_pos
  have deep := target.1.depth
  have free := target.1.writable
  obtain ⟨order, components, indices, last, idx, rfl⟩ := shape_of_composite target.2
  have built := target.1.built
  rw [writable] at free
  rw [depth] at deep
  have shown : ∀ (components : List ChannelBuffer) (last : Nat),
      (composite order components indices last idx).content =
        (components.map content).flatten := by
    intro components last
    rw [content, componentContent_flatten]
  rw [shown] at inside small
  have limit : maxInt = 2147483647 := rfl
  cases built with
  | composite built ordered cached bounded within =>
      have answers := fun component among => (built component among).answers
      have indexed := indexed_of_answers answers
      have counted : (components.map content).length = components.length := List.length_map _
      obtain ⟨place, held⟩ := exists_holds (show index < (components.map content).flatten.length by
        omega)
      have found := getComponentId_holds indexed (by rw [counted]; exact cached) held
      rw [counted] at found
      have lower := held.lower
      have upper := held.upper
      have present := held.present
      rw [counted] at present
      have here := indexed place (by omega)
      have next := indexed (place + 1) (by omega)
      have end_ : ListSegments.offset (components.map content) (place + 1) ≤
          (components.map content).flatten.length := by
        rw [← offset_end]
        exact offset_mono _ held.present
      have component : components[place]? = some components[place] :=
        List.getElem?_eq_getElem present
      have among := List.getElem_mem present
      have holds : (components.map content)[place]? = some components[place].content := by
        rw [List.getElem?_map, component]
        rfl
      have width := offset_next holds
      have place_ : (index : Int) - (ListSegments.offset (components.map content) place : Int) =
          ((index - ListSegments.offset (components.map content) place : Nat) : Int) := by omega
      have original : (composite order components ((components.map capacity).scanl (· + ·) 0) last
          idx).WellBuilt := .composite built ordered cached bounded within
      unfold Blanked
      rw [inComponent_run found component, next, here, place_]
      have known := fit (ListSegments.offset (components.map content) (place + 1)) upper (by omega)
        (by omega)
      by_cases whole :
          index + value.width ≤ ListSegments.offset (components.map content) (place + 1)
      · have inner : Free fuel components[place] := by
          constructor
          · exact built _ among
          · exact (allWritable_iff components).mp free _ among
          · exact Nat.le_trans (components_depth among) (by omega)
        obtain ⟨after, ran, rewritten, final⟩ := given value blank
          (index - ListSegments.offset (components.map content) place) components[place] inner
            (by omega)
        rw [if_pos (known.mpr whole)]
        refine ⟨composite order (components.set place after)
          ((components.map capacity).scanl (· + ·) 0) place idx, run_focus_ok ran, ?_, ?_⟩
        · exact composite_rewritten original (rewritten_set built component rewritten) present
        · have start : ListSegments.offset (components.map content) place +
              (index - ListSegments.offset (components.map content) place) = index := by omega
          have fitting : index - ListSegments.offset (components.map content) place +
              (List.replicate value.width (0 : Byte)).length ≤ components[place].content.length := by
            rw [List.length_replicate]
            omega
          have replaced := overwrite_segment holds fitting
          rw [start] at replaced
          rw [shown, shown, List.map_set, final, replaced]
      · have split :
            ¬ fits (ListSegments.offset (components.map content) (place + 1)) = true :=
          fun wrong => whole (known.mp wrong)
        have moved : Rewritten
            (composite order components ((components.map capacity).scanl (· + ·) 0) place idx)
            (composite order components ((components.map capacity).scanl (· + ·) 0) last idx) :=
          composite_rewritten original (rewritten_same built) present
        obtain ⟨after, ran, rewritten, final⟩ :=
          apart (by omega) _ (target_lasting fuel _ _ moved target) (by rw [shown]; exact inside)
        rw [if_neg split]
        refine ⟨after, ran, rewritten.trans moved, ?_⟩
        rw [final, shown, shown]

theorem fits_width {index width next : Nat} (bounded : (index : Int) + width ≤ maxInt) :
    decide (int32 ((index : Int) + width) ≤ next) = true ↔ index + width ≤ next := by
  rw [int32_of_nonneg (by omega) bounded, decide_eq_true_eq]
  omega

section

variable (given : Setter fuel setter) (index : Nat)

include given index

theorem compositeSetByte_zeroes :
    Zeroes (Target fuel) (BufferM.compositeSetByte setter index 0) index 1 := by
  apply inComponent_zeroes given .byte
  · intro next before _ _
    exact ⟨fun _ => before, fun _ => rfl⟩
  · intro wide
    exact absurd wide (Nat.lt_irrefl 1)

theorem compositeSetShort_zeroes :
    Zeroes (Target fuel) (BufferM.compositeSetShort setter index 0) index 2 := by
  apply inComponent_zeroes given .short
  · intro next _ _ bounded
    exact fits_width bounded
  · intro _
    have both := (compositeSetByte_zeroes given index).bind (target_lasting fuel)
      (compositeSetByte_zeroes given (index + 1))
    exact zeroes_ordered both both

theorem compositeSetInt_zeroes :
    Zeroes (Target fuel) (BufferM.compositeSetInt setter index 0) index 4 := by
  apply inComponent_zeroes given .int
  · intro next _ _ bounded
    exact fits_width bounded
  · intro _
    have both := (compositeSetShort_zeroes given index).bind (target_lasting fuel)
      (compositeSetShort_zeroes given (index + 2))
    exact zeroes_ordered both both

theorem compositeSetLong_zeroes :
    Zeroes (Target fuel) (BufferM.compositeSetLong setter index 0) index 8 := by
  apply inComponent_zeroes given .long
  · intro next _ _ bounded
    exact fits_width bounded
  · intro _
    have both := (compositeSetInt_zeroes given index).bind (target_lasting fuel)
      (compositeSetInt_zeroes given (index + 4))
    exact zeroes_ordered both both

end

theorem compositeSetTyped_zeroes (given : Setter fuel setter) {value : TypedValue}
    (blank : value.Blank) (index : Nat) :
    Zeroes (Target fuel) (BufferM.compositeSetTyped setter index value) index value.width := by
  cases blank with
  | byte => exact compositeSetByte_zeroes given index
  | short => exact compositeSetShort_zeroes given index
  | int => exact compositeSetInt_zeroes given index
  | long => exact compositeSetLong_zeroes given index

end Composite

section Kinds

variable {fuel index count : Nat} {value : TypedValue} {buffer after : ChannelBuffer}
  {program : BufferM Unit}

/-- A block with other bytes of the same number. -/
theorem heap_rewritten {heap : HeapChannelBuffer} {arry : CharArray}
    (built : (ChannelBuffer.heap heap).WellBuilt) (sized : arry.length = heap.arry.length) :
    Rewritten (.heap { heap with arry := arry }) (.heap heap) := by
  refine ⟨?_, ?_, rfl, rfl, rfl, rfl, rfl⟩
  · cases built with
    | heap small inside =>
        rw [← sized] at small inside
        exact .heap small inside
  · rw [content, content]
    exact sized

theorem dynamic_rewritten {endianness factory : ByteOrder} {heap : HeapChannelBuffer}
    {idx : Indices} {arry : CharArray} (built : (dynamic endianness factory heap idx).WellBuilt)
    (sized : arry.length = heap.arry.length) :
    Rewritten (dynamic endianness factory { heap with arry := arry } idx)
      (dynamic endianness factory heap idx) := by
  refine ⟨?_, ?_, rfl, rfl, rfl, rfl, rfl⟩
  · cases built with
    | dynamic ordered small inside =>
        have empty : heap.arry = [] → arry = [] := by
          intro none
          rw [none] at sized
          exact List.eq_nil_of_length_eq_zero sized
        rw [← sized] at small inside
        exact .dynamic (ordered.imp_right empty) small inside
  · rw [content, content]
    exact sized

theorem window_size {cells other : CharArray} (same : other.length = cells.length)
    (start length : Nat) : (window other start length).length = (window cells start length).length := by
  simp only [window, List.length_take, List.length_drop, same]

theorem typedCheck_inside {check : Int → Int → Except Stop Unit} {capacity : Nat}
    (checked : ∀ index width : Nat, index + width ≤ capacity → check index width = .ok ())
    (inside : index + value.width ≤ capacity) :
    typedCheck check capacity index value = .ok () := by
  cases value with
  | byte value =>
      have here : index < capacity := inside
      unfold typedCheck Getters.checkByte
      dsimp only
      rw [if_neg (by omega)]
      rfl
  | short value => exact checked index 2 inside
  | medium value => exact checked index 3 inside
  | int value => exact checked index 4 inside
  | long value => exact checked index 8 inside

theorem sliced_blanked {adjustment length : Nat} {idx : Indices}
    (built : (sliced buffer adjustment length idx).WellBuilt) (inside : index + count ≤ length)
    (blanked : Blanked program buffer (adjustment + index) count) :
    Blanked (focus (fun _ => buffer) (fun _ written => sliced written adjustment length idx)
      program) (sliced buffer adjustment length idx) index count := by
  obtain ⟨after, ran, rewritten, shown⟩ := blanked
  cases built with
  | @sliced _ adjustment length _ parent within bounded =>
      have capacity : buffer.capacity = buffer.content.length := parent.answers.capacity
      refine ⟨sliced after adjustment length idx, run_focus_ok ran, ⟨?_, ?_, rewritten.order,
        congrArg (· + 1) rewritten.depth, rewritten.writable, rfl, rfl⟩, ?_⟩
      · exact .sliced rewritten.built (by rw [rewritten.capacity parent]; exact within) bounded
      · rw [content, content]
        exact window_size rewritten.size _ _
      · rw [content, content, Int.toNat_natCast, Int.toNat_natCast, shown]
        exact overwrite_window (by omega) (by rw [List.length_replicate]; exact inside)

theorem truncated_blanked {length : Nat} {idx : Indices}
    (built : (truncated buffer length idx).WellBuilt) (inside : index + count ≤ length)
    (blanked : Blanked program buffer index count) :
    Blanked (focus (fun _ => buffer) (fun _ written => truncated written length idx) program)
      (truncated buffer length idx) index count := by
  obtain ⟨after, ran, rewritten, shown⟩ := blanked
  cases built with
  | truncated parent within bounded =>
      have capacity : buffer.capacity = buffer.content.length := parent.answers.capacity
      refine ⟨truncated after length idx, run_focus_ok ran, ⟨?_, ?_, rewritten.order,
        congrArg (· + 1) rewritten.depth, rewritten.writable, rfl, rfl⟩, ?_⟩
      · exact .truncated rewritten.built (by rw [rewritten.capacity parent]; exact within) bounded
      · rw [content, content]
        exact window_size rewritten.size _ _
      · have replaced := @overwrite_window _ buffer.content (List.replicate count 0) 0 length index
          (by omega) (by rw [List.length_replicate]; exact inside)
        rw [Nat.zero_add] at replaced
        rw [content, content, Int.toNat_natCast, shown]
        exact replaced

theorem duplicated_blanked {idx : Indices} (built : (duplicated buffer idx).WellBuilt)
    (blanked : Blanked program buffer index count) :
    Blanked (focus (fun _ => buffer) (fun _ written => duplicated written idx) program)
      (duplicated buffer idx) index count := by
  obtain ⟨after, ran, rewritten, shown⟩ := blanked
  cases built with
  | duplicated parent bounded =>
      refine ⟨duplicated after idx, run_focus_ok ran, ⟨?_, ?_, rewritten.order,
        congrArg (· + 1) rewritten.depth, rewritten.writable, rfl, rfl⟩, ?_⟩
      · exact .duplicated rewritten.built (by rw [rewritten.capacity parent]; exact bounded)
      · rw [content, content]
        exact rewritten.size
      · rw [content, content, shown]

end Kinds

theorem depth_pos (buffer : ChannelBuffer) : 0 < buffer.depth := by
  cases buffer <;> rw [depth] <;> exact Nat.succ_pos _

/-- The typed setters write through. -/
theorem setTypedWithin_blanked (fuel : Nat) : Setter fuel (BufferM.setTypedWithin fuel) := by
  induction fuel with
  | zero =>
      intro value blank index buffer free
      exact absurd buffer.depth_pos (Nat.not_lt.mpr free.depth)
  | succ fuel ih =>
      intro value blank index buffer free inside
      have built := free.built
      have deep := free.depth
      have open_ := free.writable
      have block : ∀ heap : HeapChannelBuffer, index + value.width ≤ heap.arry.length →
          (HeapChannelBuffer.setTyped index value).run heap = .ok ()
              { heap with arry := overwrite heap.arry index (List.replicate value.width 0) } ∧
            (overwrite heap.arry index (List.replicate value.width 0)).length = heap.arry.length := by
        intro heap fits
        constructor
        · rw [← blank.bytes heap.byteOrder]
          exact HeapChannelBuffer.setTyped_inside fits
        · exact overwrite_length (by rw [List.length_replicate]; exact fits)
      cases buffer with
      | heap heap =>
          have reached : (BufferM.setTypedWithin (fuel + 1) index value).run (.heap heap) =
              (focus (fun _ => heap) (fun _ => ChannelBuffer.heap)
                (HeapChannelBuffer.setTyped index value) : BufferM Unit).run (.heap heap) := by
            simp only [BufferM.setTypedWithin]
            rfl
          rw [content] at inside
          rcases block heap inside with ⟨ran, size⟩
          refine ⟨_, reached.trans (run_focus_ok ran), heap_rewritten built size, ?_⟩
          rw [content, content]
      | dynamic endianness factory heap idx =>
          have reached : (BufferM.setTypedWithin (fuel + 1) index value).run
              (dynamic endianness factory heap idx) =
              (focus (fun _ => heap) (fun _ written => dynamic endianness factory written idx)
                (HeapChannelBuffer.setTyped index value) : BufferM Unit).run
                (dynamic endianness factory heap idx) := by
            simp only [BufferM.setTypedWithin]
            rfl
          rw [content] at inside
          rcases block heap inside with ⟨ran, size⟩
          refine ⟨_, reached.trans (run_focus_ok ran), dynamic_rewritten built size, ?_⟩
          rw [content, content]
      | sliced parent adjustment length idx =>
          have reached : (BufferM.setTypedWithin (fuel + 1) index value).run
              (sliced parent adjustment length idx) =
              ((call (typedCheck (Getters.slicedCheck length) length index value) : BufferM Unit) >>=
                fun _ => focus (fun _ => parent)
                  (fun _ written => sliced written adjustment length idx)
                  (BufferM.setTypedWithin fuel (int32 (index + adjustment)) value)).run
                (sliced parent adjustment length idx) := by
            simp only [BufferM.setTypedWithin]
            rfl
          rw [writable] at open_
          rw [depth] at deep
          have original := built
          cases built with
          | @sliced _ adjustment length _ below within bounded =>
              have capacity : parent.capacity = parent.content.length := below.answers.capacity
              have size : (window parent.content adjustment length).length = length :=
                window_length (by omega)
              rw [content, Int.toNat_natCast, Int.toNat_natCast, size] at inside
              have fits : adjustment + length ≤ parent.content.length := by omega
              have checked := typedCheck_inside (fun index width bounded =>
                Getters.slicedCheck_of_inside below.answers.small fits bounded) inside
              have shifted := Getters.shifted_inside below.answers.small fits index (by omega)
              rw [checked, shifted, run_bind_ok _ (run_call_ok _ _)] at reached
              exact (sliced_blanked original inside (ih value blank (adjustment + index) parent
                ⟨below, open_, by omega⟩ (by omega))).congr reached
      | truncated parent length idx =>
          have reached : (BufferM.setTypedWithin (fuel + 1) index value).run
              (truncated parent length idx) =
              ((call (typedCheck (Getters.truncatedCheck length) length index value) :
                BufferM Unit) >>= fun _ => focus (fun _ => parent)
                  (fun _ written => truncated written length idx)
                  (BufferM.setTypedWithin fuel index value)).run (truncated parent length idx) := by
            simp only [BufferM.setTypedWithin]
            rfl
          rw [writable] at open_
          rw [depth] at deep
          have original := built
          cases built with
          | @truncated _ length _ below within bounded =>
              have capacity : parent.capacity = parent.content.length := below.answers.capacity
              have size : (window parent.content 0 length).length = length :=
                window_length (by omega)
              rw [content, Int.toNat_natCast, size] at inside
              have fits : length ≤ parent.content.length := by omega
              have checked := typedCheck_inside (fun index width bounded =>
                Getters.truncatedCheck_of_inside below.answers.small fits bounded) inside
              rw [checked, run_bind_ok _ (run_call_ok _ _)] at reached
              exact (truncated_blanked original inside (ih value blank index parent
                ⟨below, open_, by omega⟩ (by omega))).congr reached
      | duplicated parent idx =>
          have reached : (BufferM.setTypedWithin (fuel + 1) index value).run
              (duplicated parent idx) =
              (focus (fun _ => parent) (fun _ written => duplicated written idx)
                (BufferM.setTypedWithin fuel index value) : BufferM Unit).run
                (duplicated parent idx) := by
            simp only [BufferM.setTypedWithin]
            rfl
          rw [content] at inside
          rw [writable] at open_
          rw [depth] at deep
          have below : parent.WellBuilt := by
            cases built with
            | duplicated below within => exact below
          exact (duplicated_blanked built (ih value blank index parent ⟨below, open_, by omega⟩
            inside)).congr reached
      | readOnly parent idx =>
          rw [writable] at open_
          cases open_
      | composite order components indices last idx =>
          have reached : (BufferM.setTypedWithin (fuel + 1) index value).run
              (composite order components indices last idx) =
              (BufferM.compositeSetTyped (BufferM.setTypedWithin fuel) index value).run
                (composite order components indices last idx) := by
            simp only [BufferM.setTypedWithin]
            rfl
          exact (compositeSetTyped_zeroes ih blank index _ ⟨free, rfl⟩ inside).congr reached

/-- `setByte` to `setLong` of any buffer in which nothing is read-only. -/
theorem setTyped_blanked {value : TypedValue} (blank : value.Blank) {buffer : ChannelBuffer}
    (built : buffer.WellBuilt) (free : buffer.writable = true) {index : Nat}
    (inside : index + value.width ≤ buffer.content.length) :
    Blanked (BufferM.setTyped index value) buffer index value.width := by
  have reached : (BufferM.setTyped index value).run buffer =
      (BufferM.setTypedWithin buffer.depth index value).run buffer := rfl
  exact (setTypedWithin_blanked buffer.depth value blank index buffer
    ⟨built, free, Nat.le_refl _⟩ inside).congr reached

end ChannelBuffer

open BufferM

namespace ChannelBuffer

/-- The bytes of the range are zero, and every other byte is as it was. -/
structure ZeroFilled (after before : ChannelBuffer) (index length : Nat) : Prop where
  built : after.WellBuilt
  size : after.content.length = before.content.length
  zero : ∀ i, index ≤ i → i < index + length → after.content[i]? = some 0
  other : ∀ i, i < index ∨ index + length ≤ i → after.content[i]? = before.content[i]?

theorem zeroFilled_overwrite {after before : ChannelBuffer} {index length : Nat}
    (built : after.WellBuilt) (inside : index + length ≤ before.content.length)
    (content : after.content = overwrite before.content index (List.replicate length 0)) :
    ZeroFilled after before index length := by
  have front : (before.content.take index).length = index := List.length_take_of_le (by omega)
  have size : after.content.length = before.content.length := by
    rw [content]
    exact overwrite_length (by rw [List.length_replicate]; exact inside)
  refine ⟨built, size, ?_, ?_⟩
  · intro i lower upper
    rw [content, overwrite, List.append_assoc, List.getElem?_append_right (by omega), front,
      List.getElem?_append_left (by rw [List.length_replicate]; omega)]
    exact List.getElem?_replicate_of_lt (by omega)
  · intro i apart
    rw [content, overwrite, List.length_replicate, List.append_assoc]
    by_cases before_ : i < index
    · rw [List.getElem?_append_left (by omega)]
      exact List.getElem?_take_of_lt before_
    · rw [List.getElem?_append_right (by omega), front,
        List.getElem?_append_right (by rw [List.length_replicate]; omega), List.length_replicate,
        List.getElem?_drop, show index + length + (i - index - length) = i by omega]

section Setting

variable {index length more count : Nat}

/-- Where nothing is read-only. -/
def Open (buffer : ChannelBuffer) : Prop := buffer.WellBuilt ∧ buffer.writable = true

theorem open_lasting : Lasting Open := by
  intro after before rewritten holds
  exact ⟨rewritten.built, by rw [rewritten.writable, holds.2]⟩

theorem zeroes_nothing (index : Nat) : Zeroes Open (pure ()) index 0 := by
  intro buffer holds inside
  exact ⟨buffer, rfl, holds.1.rewritten, (overwrite_nothing _ _).symm⟩

theorem zeroes_typed {value : TypedValue} (blank : value.Blank) (index : Nat) :
    Zeroes Open (setTyped index value) index value.width := by
  intro buffer holds inside
  exact setTyped_blanked blank holds.1 holds.2 inside

theorem zeroes_bytes (count index : Nat) : Zeroes Open (zeroBytes count index) index count := by
  induction count generalizing index with
  | zero => exact zeroes_nothing index
  | succ count ih =>
      have first : Zeroes Open (setTyped index (.byte 0)) index 1 := zeroes_typed .byte index
      exact Zeroes.sized (first.bind open_lasting (ih (index + 1))) (Nat.add_comm 1 count)

/-- The longs, with what comes behind them. -/
theorem zeroes_longs {rest : Int → BufferM Unit} (count index : Nat)
    (behind : Zeroes Open (rest ((index + 8 * count : Nat) : Int)) (index + 8 * count) more) :
    Zeroes Open (zeroLongs count index >>= rest) index (8 * count + more) := by
  induction count generalizing index with
  | zero =>
      rw [Nat.mul_zero, Nat.zero_add]
      exact behind
  | succ count ih =>
      have first : Zeroes Open (setTyped index (.long 0)) index 8 := zeroes_typed .long index
      have place : index + 8 + 8 * count = index + 8 * (count + 1) := by omega
      have total : 8 * (count + 1) + more = 8 + (8 * count + more) := by omega
      rw [← place] at behind
      rw [total]
      have both := first.bind open_lasting (ih (index + 8) behind)
      rw [← bind_assoc] at both
      exact both

theorem zeroes_range (index length : Nat) : Zeroes Open (setZero index length) index length := by
  have four : ∀ start : Nat, Zeroes Open (setTyped start (.int 0)) start 4 := by
    intro start
    exact zeroes_typed .int start
  by_cases none : length = 0
  · subst none
    exact zeroes_nothing index
  · have parts := Nat.div_add_mod length 8
    unfold BufferM.setZero
    rw [if_neg (by omega), if_neg (by omega), Int.toNat_natCast]
    have tail : ∀ start : Nat, Zeroes Open
        (if length % 8 = 4 then setTyped start (.int 0)
          else if length % 8 < 4 then zeroBytes (length % 8) start
          else do
            setTyped start (.int 0)
            zeroBytes (length % 8 - 4) (start + 4)) start (length % 8) := by
      intro start
      split
      · rename_i whole
        rw [whole]
        exact four start
      · split
        · exact zeroes_bytes _ start
        · exact Zeroes.sized ((four start).bind open_lasting
            (zeroes_bytes (length % 8 - 4) (start + 4))) (by omega)
    exact Zeroes.sized (zeroes_longs (length / 8) index (tail (index + 8 * (length / 8)))) parts

end Setting

section Writing

variable {buffer after before : ChannelBuffer} {start : Nat}

theorem WellBuilt.withIdx (built : buffer.WellBuilt) {idx : Indices}
    (inside : idx.Inside buffer.content.length) : (buffer.withIdx idx).WellBuilt := by
  rw [← built.answers.capacity] at inside
  have capacity := built.answers.capacity
  cases built with
  | composite parts ordered cached small _ =>
      have answers := fun component among => (parts component among).answers
      rw [capacity, content, componentContent_flatten, ← sum_lengths, ← map_capacity answers] at inside
      exact .composite parts ordered cached small inside
  | _ =>
      rw [getters] at inside
      constructor <;> assumption

theorem writable_withIdx (buffer : ChannelBuffer) (idx : Indices) :
    (buffer.withIdx idx).writable = buffer.writable := by
  cases buffer <;> rfl

/-- Zeros stand at the writer index, which has moved behind them. -/
structure Wrote (after before : ChannelBuffer) (start count : Nat) : Prop where
  holds : Open after
  idx : after.idx = { before.idx with writerIdx := (start + count : Nat) }
  content : after.content = overwrite before.content start (List.replicate count 0)

/-- Where the writer index goes when a value is written. -/
theorem advanced_inside (built : buffer.WellBuilt) (here : buffer.writerIdx = start) {width : Nat}
    (fits : start + width ≤ buffer.content.length) :
    int32 (buffer.writerIdx + width) = (start + width : Nat) ∧
      ({ buffer.idx with writerIdx := ((start + width : Nat) : Int) } : Indices).Inside
        buffer.content.length := by
  have small := built.answers.small
  have inside := built.inside
  have writer : buffer.idx.readerIdx ≤ buffer.idx.writerIdx := inside.writer
  have same : buffer.idx.writerIdx = start := here
  constructor
  · rw [here, ← Int.natCast_add]
    exact int32_of_nonneg (by omega) (by omega)
  · constructor
    · exact inside.reader
    · change buffer.idx.readerIdx ≤ ((start + width : Nat) : Int)
      omega
    · change ((start + width : Nat) : Int) ≤ buffer.content.length
      omega

theorem putTyped_wrote (holds : Open buffer) (here : buffer.writerIdx = start) {value : TypedValue}
    (blank : value.Blank) (fits : start + value.width ≤ buffer.content.length) :
    ∃ after, (putTyped value).run buffer = .ok () after ∧ Wrote after buffer start value.width := by
  obtain ⟨built, free⟩ := holds
  obtain ⟨moved, inside⟩ := advanced_inside built here fits
  by_cases soon : value = .byte 0
  · subst soon
    have ahead : (BufferM.written 1).run buffer = .ok ()
        (buffer.withIdx { buffer.idx with writerIdx := ((start + 1 : Nat) : Int) }) := by
      change int32 (buffer.writerIdx + 1) = (start + 1 : Nat) at moved
      rw [← moved]
      rfl
    obtain ⟨after, ran, kept, shown⟩ := setTyped_blanked .byte (built.withIdx inside)
      (by rw [writable_withIdx, free]) (by rw [content_withIdx]; exact fits)
    refine ⟨after, ?_, ⟨kept.built, ?_⟩, ?_, ?_⟩
    · change (BufferM.written 1 >>= fun _ => setTyped buffer.writerIdx (.byte 0)).run buffer = _
      rw [run_bind_ok _ ahead, here]
      exact ran
    · rw [kept.writable, writable_withIdx, free]
    · rw [kept.idx, idx_withIdx]
    · rw [shown, content_withIdx]
  · obtain ⟨after, ran, kept, shown⟩ := setTyped_blanked blank built free fits
    have same : after.writerIdx = buffer.writerIdx := congrArg Indices.writerIdx kept.idx
    have late : (BufferM.written value.width).run after = .ok ()
        (after.withIdx { buffer.idx with writerIdx := ((start + value.width : Nat) : Int) }) := by
      rw [← moved, ← same, ← kept.idx]
      rfl
    have begun : (putTyped value).run buffer =
        (setTyped buffer.writerIdx value >>= fun _ => BufferM.written value.width).run buffer := by
      cases blank with
      | byte => exact absurd rfl soon
      | _ => rfl
    rw [← here] at ran
    refine ⟨_, begun.trans ((run_bind_ok _ ran).trans late), ⟨?_, ?_⟩, ?_, ?_⟩
    · exact kept.built.withIdx (by rw [kept.size]; exact inside)
    · rw [writable_withIdx, kept.writable, free]
    · rw [idx_withIdx]
    · rw [content_withIdx, shown]

/-- A dynamic buffer with room stays as it is. -/
theorem ensured_room (built : buffer.WellBuilt) (here : buffer.writerIdx = start) {amount : Nat}
    (fits : start + amount ≤ buffer.content.length) :
    (ensureWritableBytes amount).run buffer = .ok () buffer := by
  have small := built.answers.small
  have capacity : buffer.capacity = buffer.content.length := built.answers.capacity
  have space : buffer.writableBytes = buffer.content.length - start := by
    unfold writableBytes
    rw [capacity, here]
    exact int32_of_nonneg (by omega) (by omega)
  unfold ensureWritableBytes
  rw [run_bind_get, if_pos (by omega)]
  rfl

theorem writeTyped_wrote (holds : Open buffer) (here : buffer.writerIdx = start) {value : TypedValue}
    (blank : value.Blank) (fits : start + value.width ≤ buffer.content.length) :
    ∃ after, (writeTyped value).run buffer = .ok () after ∧ Wrote after buffer start value.width := by
  have begun : (writeTyped value).run buffer = (putTyped value).run buffer := by
    cases buffer with
    | dynamic endianness factory heap idx => exact run_bind_ok _ (ensured_room holds.1 here fits)
    | _ => rfl
  rw [begun]
  exact putTyped_wrote holds here blank fits

/-- Zeros one behind the other. -/
theorem writeAll_wrote (holds : Open buffer) (here : buffer.writerIdx = start)
    (values : List TypedValue) (blank : ∀ value ∈ values, value.Blank)
    (fits : start + totalWidth values ≤ buffer.content.length) :
    ∃ after, (writeAll values).run buffer = .ok () after ∧
      Wrote after buffer start (totalWidth values) := by
  induction values generalizing buffer start with
  | nil =>
      refine ⟨buffer, rfl, holds, ?_, (overwrite_nothing _ _).symm⟩
      change buffer.idx = { buffer.idx with writerIdx := (start : Int) }
      rw [← here]
      rfl
  | cons value rest ih =>
      rw [totalWidth_cons] at fits ⊢
      obtain ⟨middle, ran, one⟩ := writeTyped_wrote holds here (blank value List.mem_cons_self)
        (show start + value.width ≤ buffer.content.length by omega)
      have width : (List.replicate value.width (0 : Byte)).length = value.width :=
        List.length_replicate
      have size : middle.content.length = buffer.content.length := by
        rw [one.content]
        exact overwrite_length (by rw [width]; omega)
      obtain ⟨after, later, other⟩ := ih one.holds (congrArg Indices.writerIdx one.idx)
        (fun value among => blank value (List.mem_cons_of_mem _ among)) (by rw [size]; omega)
      have content := other.content
      refine ⟨after, ?_, other.holds, ?_, ?_⟩
      · change (writeTyped value >>= fun _ => writeAll rest).run buffer = _
        rw [run_bind_ok _ ran, later]
      · rw [other.idx, one.idx, Nat.add_assoc]
      · have place : start + value.width = start + (List.replicate value.width (0 : Byte)).length := by
          rw [width]
        rw [content, one.content, place, overwrite_append, List.replicate_add]
        rw [width]
        omega

/-- `writeZero` first makes room for the whole range. -/
theorem writeZero_run (built : buffer.WellBuilt) (here : buffer.writerIdx = start) {length : Nat}
    (fits : start + length ≤ buffer.content.length) :
    (writeZero length).run buffer = (putZero length).run buffer := by
  cases buffer with
  | dynamic endianness factory heap idx => exact run_bind_ok _ (ensured_room built here fits)
  | _ => rfl

theorem zeros_blank (length : Nat) :
    ∀ value ∈ wideZeros length ++ List.replicate (singleBytes length) (TypedValue.byte 0),
      value.Blank := by
  intro value among
  rcases List.mem_append.mp among with wide | single
  · rcases List.mem_append.mp wide with long | int
    · rw [List.eq_of_mem_replicate long]
      exact .long
    · split at int
      · cases int
      · rw [List.mem_singleton.mp int]
        exact .int
  · rw [List.eq_of_mem_replicate single]
    exact .byte

theorem writeZero_wrote (holds : Open buffer) (here : buffer.writerIdx = start) {length : Nat}
    (positive : 0 < length) (fits : start + length ≤ buffer.content.length) :
    ∃ after, (writeZero length).run buffer = .ok () after ∧ Wrote after buffer start length := by
  have width := totalWidth_zeros length
  rw [writeZero_run holds.1 here fits, putZero_all (by omega), Int.toNat_natCast]
  obtain ⟨after, ran, wrote⟩ := writeAll_wrote holds here _ (zeros_blank length)
    (by rw [width]; exact fits)
  rw [width] at wrote
  exact ⟨after, ran, wrote⟩

end Writing

/-- Every kind but the read-only one, which refuses all that writes a byte. -/
theorem zero_fill_exact {buffer : ChannelBuffer} (built : buffer.WellBuilt) {index length : Nat}
    (free : buffer.writable = true ∨ length = 0)
    (inside : ((index + length : Nat) : Int) ≤ buffer.capacity) :
    (∃ after, (setZero index length).run buffer = .ok () after ∧
      ZeroFilled after buffer index length ∧ after.idx = buffer.idx) ∧
    (buffer.writerIdx = index → ∃ after, (writeZero length).run buffer = .ok () after ∧
      ZeroFilled after buffer index length ∧
      after.idx = { buffer.idx with writerIdx := buffer.writerIdx + length }) := by
  have capacity : buffer.capacity = buffer.content.length := built.answers.capacity
  have fits : index + length ≤ buffer.content.length := by omega
  by_cases none : length = 0
  · subst none
    have same : ZeroFilled buffer buffer index 0 := ⟨built, rfl, by omega, fun _ _ => rfl⟩
    refine ⟨⟨buffer, rfl, same, rfl⟩, ?_⟩
    intro here
    refine ⟨buffer, writeZero_run built here fits, same, ?_⟩
    rw [show buffer.writerIdx + ((0 : Nat) : Int) = buffer.writerIdx by omega]
    rfl
  · have free := free.resolve_right none
    constructor
    · obtain ⟨after, ran, kept, content⟩ := zeroes_range index length buffer ⟨built, free⟩ fits
      exact ⟨after, ran, zeroFilled_overwrite kept.built fits content, kept.idx⟩
    · intro here
      obtain ⟨after, ran, wrote⟩ := writeZero_wrote ⟨built, free⟩ here (by omega) fits
      refine ⟨after, ran, zeroFilled_overwrite wrote.holds.1 fits wrote.content, ?_⟩
      rw [wrote.idx, here]
      rfl

def sevens (count : Nat) : ChannelBuffer := heap ⟨.little, List.replicate count 7, .zero⟩

theorem sevens_built {count : Nat} (small : (count : Int) ≤ maxInt) : (sevens count).WellBuilt := by
  refine .heap ?_ ⟨Int.le_refl 0, Int.le_refl 0, Int.natCast_nonneg _⟩
  rw [List.length_replicate]
  exact small

/-- A long that straddles two components, an int and a byte. -/
theorem zero_fill_exact_thirteen :
    (∃ after, (setZero (1 : Nat) (13 : Nat)).run
        (composite .little [sevens 5, sevens 10] [0, 5, 15] 0 ⟨0, 1, 0, 0⟩) = .ok () after ∧
      ZeroFilled after (composite .little [sevens 5, sevens 10] [0, 5, 15] 0 ⟨0, 1, 0, 0⟩) 1 13 ∧
      after.idx = ⟨0, 1, 0, 0⟩) ∧
    ((1 : Int) = (1 : Nat) → ∃ after, (writeZero (13 : Nat)).run
        (composite .little [sevens 5, sevens 10] [0, 5, 15] 0 ⟨0, 1, 0, 0⟩) = .ok () after ∧
      ZeroFilled after (composite .little [sevens 5, sevens 10] [0, 5, 15] 0 ⟨0, 1, 0, 0⟩) 1 13 ∧
      after.idx = ⟨0, 14, 0, 0⟩) := by
  have parts : ∀ component ∈ [sevens 5, sevens 10], component.WellBuilt := by
    intro component among
    simp only [List.mem_cons, List.not_mem_nil, or_false] at among
    rcases among with rfl | rfl
    · exact sevens_built (by decide)
    · exact sevens_built (by decide)
  have ordered : ∀ component ∈ [sevens 5, sevens 10], component.order = .little := by
    intro component among
    simp only [List.mem_cons, List.not_mem_nil, or_false] at among
    rcases among with rfl | rfl <;> rfl
  have built : (composite .little [sevens 5, sevens 10] [0, 5, 15] 0 ⟨0, 1, 0, 0⟩).WellBuilt :=
    .composite parts ordered (by decide) (by decide) ⟨by decide, by decide, by decide⟩
  exact zero_fill_exact built (.inl rfl) (by decide)

/-- The read-only kind throws at the first byte. -/
theorem zero_fill_refused :
    (readOnly (heap ⟨.big, [1], .zero⟩) .zero).WellBuilt ∧
      ((0 + 1 : Nat) : Int) ≤ (readOnly (heap ⟨.big, [1], .zero⟩) .zero).capacity ∧
      (setZero 0 1).run (readOnly (heap ⟨.big, [1], .zero⟩) .zero) =
        .error (.thrown ⟨.readOnlyBuffer, ""⟩) (readOnly (heap ⟨.big, [1], .zero⟩) .zero) := by
  refine ⟨.readOnly (.heap (by decide) ?_) ?_, by decide, rfl⟩
  · exact ⟨by decide, by decide, by decide⟩
  · exact ⟨by decide, by decide, by decide⟩

end ChannelBuffer

end Cetty
