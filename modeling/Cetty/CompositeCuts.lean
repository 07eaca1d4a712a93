import Cetty.FactoryContents
import Cetty.DerivedViews

/-!
# Cutting composite buffers

`decompose` takes the components of a range one by one, each as its own duplicate shows it. As
long as every component shows all of its cells, the parts hold the bytes of the range.
-/

namespace Cetty

open MachineInt ByteWindow

namespace ChannelBuffer

/-- A component that is as `setComponents` has found it. -/
structure Spread (component : ChannelBuffer) : Prop where
  reader : component.readerIdx = 0
  writer : component.writerIdx = component.capacity
  inStep : component.InStep

/-- A buffer whose components are as they were when it was composed. -/
inductive Undisturbed : ChannelBuffer → Prop where
  | heap {buffer : HeapChannelBuffer} : Undisturbed (.heap buffer)
  | dynamic {endianness factory : ByteOrder} {buffer : HeapChannelBuffer} {idx : Indices} :
      Undisturbed (.dynamic endianness factory buffer idx)
  | sliced {buffer : ChannelBuffer} {adjustment length : Int} {idx : Indices}
      (parent : Undisturbed buffer) : Undisturbed (.sliced buffer adjustment length idx)
  | truncated {buffer : ChannelBuffer} {length : Int} {idx : Indices}
      (parent : Undisturbed buffer) : Undisturbed (.truncated buffer length idx)
  | duplicated {buffer : ChannelBuffer} {idx : Indices} (parent : Undisturbed buffer) :
      Undisturbed (.duplicated buffer idx)
  | readOnly {buffer : ChannelBuffer} {idx : Indices} (parent : Undisturbed buffer) :
      Undisturbed (.readOnly buffer idx)
  | composite {order : ByteOrder} {components : List ChannelBuffer} {indices : List Int}
      {last : Nat} {idx : Indices} (parts : ∀ component ∈ components, Undisturbed component)
      (spread : ∀ component ∈ components, Spread component) :
      Undisturbed (.composite order components indices last idx)

/-- `slice` cuts out every range, also an empty one. -/
def CutsAll (buffer : ChannelBuffer) : Prop :=
  ∀ index length : Nat, index + length ≤ buffer.content.length → buffer.CutsAt index length

section Decomposition

theorem emptyBuffer_fresh : Fresh .big emptyBuffer :=
  heap_fresh (by decide)

theorem emptyBuffer_content : emptyBuffer.content = [] := by
  unfold emptyBuffer
  rw [content]

/-- An empty range is the shared empty buffer, which is big-endian. -/
theorem cutsAt_nothing {buffer : ChannelBuffer} {index : Nat} (ordered : buffer.order = .big)
    (empty : buffer.slice index (0 : Nat) = .ok emptyBuffer) : buffer.CutsAt index 0 := by
  refine ⟨emptyBuffer, empty, ?_, ?_⟩
  · rw [ordered]
    exact emptyBuffer_fresh
  · rw [emptyBuffer_content, window_zero_count]

/-- What a composite buffer relies on to be cut. -/
structure Component (component : ChannelBuffer) : Prop where
  built : component.WellBuilt
  ordered : component.order = .big
  spread : component.Spread
  cuts : component.CutsAll

theorem slicers_cons (component : ChannelBuffer) (rest : List ChannelBuffer) :
    slicers (component :: rest) = (component, component.slice) :: slicers rest := by
  rw [slicers]

theorem slicers_length (components : List ChannelBuffer) :
    (slicers components).length = components.length := by
  induction components with
  | nil =>
      rw [slicers]
      rfl
  | cons component rest ih => rw [slicers_cons, List.length_cons, List.length_cons, ih]

theorem slicers_drop (components : List ChannelBuffer) (count : Nat) :
    (slicers components).drop count = slicers (components.drop count) := by
  induction components generalizing count with
  | nil =>
      rw [slicers, List.drop_nil, List.drop_nil, slicers]
  | cons component rest ih =>
      cases count with
      | zero => rfl
      | succ count =>
          rw [slicers_cons, List.drop_succ_cons, List.drop_succ_cons]
          exact ih count

/-- Where the first component is entered. -/
def Enters (entry : Option Int) (start : Nat) : Prop :=
  entry = some (start : Int) ∨ entry = none ∧ start = 0

theorem Component.entered {component : ChannelBuffer} (here : component.Component)
    {entry : Option Int} {start : Nat} (enters : Enters entry start)
    (inside : start ≤ component.content.length) :
    ∃ copied buf : ChannelBuffer, component.duplicate = .ok copied ∧
      (match entry with
        | some readerIndex => copied.setReaderIndex readerIndex
        | none => pure copied) = .ok buf ∧
      buf.readerIdx = start ∧ buf.writerIdx = component.content.length ∧
      buf.capacity = component.content.length := by
  obtain ⟨copied, made, same⟩ := (duplicate_shown_iff here.built).mpr here.spread.inStep
  have capacity : component.capacity = component.content.length := here.built.answers.capacity
  have reader : copied.readerIdx = 0 := same.reader.trans here.spread.reader
  have writer : copied.writerIdx = component.content.length := by
    rw [same.writer, here.spread.writer, capacity]
  have size : copied.capacity = component.content.length := same.capacity.trans capacity
  rcases enters with rfl | ⟨rfl, rfl⟩
  · refine ⟨copied, copied.withIdx { copied.idx with readerIdx := start }, made, ?_, ?_, ?_, ?_⟩
    · dsimp only
      unfold setReaderIndex
      rw [if_neg (by omega)]
      rfl
    · rw [readerIdx_withIdx]
    · rw [writerIdx_withIdx]
      exact writer
    · rw [capacity_withIdx]
      exact size
  · exact ⟨copied, copied, made, rfl, reader, writer, size⟩

/-- What follows once the component has been entered. -/
theorem decomposeFrom_entered {component copied buf : ChannelBuffer} {slice : Slicer}
    {rest : List (ChannelBuffer × Slicer)} {entry : Option Int} {length : Int}
    (made : component.duplicate = .ok copied)
    (entered : (match entry with
      | some readerIndex => copied.setReaderIndex readerIndex
      | none => pure copied) = .ok buf) :
    decomposeFrom ((component, slice) :: rest) entry length =
      (if length ≤ buf.readableBytes then do
        let last ← buf.setWriterIndex (int32 (buf.readerIdx + length))
        let part ← slice last.readerIdx last.readableBytes
        pure [part]
      else do
        let parts ← decomposeFrom rest none (length - buf.readableBytes)
        let part ← slice buf.readerIdx buf.readableBytes
        pure (part :: parts)) := by
  rw [decomposeFrom, made, ok_bind]
  cases entry with
  | some readerIndex =>
      dsimp only at entered ⊢
      rw [entered, ok_bind]
  | none =>
      cases entered
      rfl

theorem decomposeFrom_run {components : List ChannelBuffer}
    (each : ∀ component ∈ components, component.Component) {entry : Option Int}
    {start length : Nat} (enters : Enters entry start)
    (front : ∀ component ∈ components.head?, start ≤ component.content.length)
    (positive : 0 < length) (inside : start + length ≤ (componentContent components).length)
    (small : ((componentContent components).length : Int) ≤ maxInt) :
    ∃ parts, decomposeFrom (slicers components) entry length = .ok parts ∧
      (∀ part ∈ parts, Fresh .big part) ∧
      componentContent parts = window (componentContent components) start length := by
  induction components generalizing entry start length with
  | nil =>
      rw [componentContent, List.length_nil] at inside
      omega
  | cons component rest ih =>
      have here := each component List.mem_cons_self
      have within : start ≤ component.content.length := front component rfl
      rw [componentContent, List.length_append] at inside small
      obtain ⟨left, split⟩ : ∃ left, component.content.length = start + left :=
        ⟨_, (Nat.add_sub_cancel' within).symm⟩
      obtain ⟨copied, buf, made, entered, reader, writer, capacity⟩ := here.entered enters within
      have readable : buf.readableBytes = left := by
        unfold readableBytes
        rw [reader, writer, int32_of_nonneg (by omega) (by omega)]
        omega
      rw [slicers_cons, decomposeFrom_entered made entered, readable]
      rw [split] at capacity inside small
      clear readable
      by_cases fits : (length : Int) ≤ left
      · have stop : int32 ((start : Int) + length) = start + length :=
          int32_of_nonneg (by omega) (by omega)
        have cut : buf.setWriterIndex (start + length) =
            .ok (buf.withIdx { buf.idx with writerIdx := start + length }) := by
          unfold setWriterIndex
          rw [reader, capacity, if_neg (by omega)]
          rfl
        have place : (buf.withIdx { buf.idx with writerIdx := start + length }).readerIdx = start := by
          rw [readerIdx_withIdx]
          exact reader
        have limit : (buf.withIdx { buf.idx with writerIdx := start + length }).writerIdx =
            start + length := by rw [writerIdx_withIdx]
        have count : (buf.withIdx { buf.idx with writerIdx := start + length }).readableBytes =
            length := by
          unfold readableBytes
          rw [place, limit, int32_of_nonneg (by omega) (by omega)]
          omega
        obtain ⟨part, sliced, fresh, shown⟩ := here.cuts start length (by omega)
        rw [if_pos fits, reader, stop, cut, ok_bind, place, count, sliced, ok_bind]
        rw [here.ordered] at fresh
        refine ⟨[part], rfl, ?_, ?_⟩
        · intro other among
          rw [List.mem_singleton.mp among]
          exact fresh
        · rw [componentContent, componentContent, List.append_nil, shown, componentContent]
          unfold window
          rw [List.drop_append_of_le_length within, List.take_append_of_le_length]
          rw [List.length_drop]
          omega
      · obtain ⟨part, sliced, fresh, shown⟩ := here.cuts start left (by omega)
        have later : ∀ other ∈ rest, other.Component :=
          fun other among => each other (List.mem_cons_of_mem _ among)
        obtain ⟨more, beyond⟩ : ∃ more, length = left + more := ⟨length - left, by omega⟩
        obtain ⟨parts, run, news, held⟩ := ih later (Or.inr ⟨rfl, rfl⟩)
          (fun _ _ => Nat.zero_le _) (show 0 < more by omega) (by omega) (by omega)
        have remaining : (length : Int) - left = more := by omega
        rw [if_neg fits, remaining, run, ok_bind, reader, sliced, ok_bind]
        rw [here.ordered] at fresh
        refine ⟨part :: parts, rfl, ?_, ?_⟩
        · intro other among
          rcases List.mem_cons.mp among with same | behind
          · rw [same]
            exact fresh
          · exact news other behind
        · have whole : (component.content.drop start).length = left := by
            rw [List.length_drop, split, Nat.add_sub_cancel_left]
          rw [componentContent, shown, held, componentContent, beyond, window_append]
          unfold window
          rw [List.drop_append_of_le_length within, List.take_append_of_le_length (by omega),
            ← split, List.drop_left, List.drop_zero]

end Decomposition

section Slices

variable {buffer : ChannelBuffer}

variable {components : List ChannelBuffer}

theorem whole_indexed (each : ∀ component ∈ components, component.Component) :
    ((components.map capacity).scanl (· + ·) 0).getD components.length 0 =
      ((componentContent components).length : Int) := by
  have answers : ∀ component ∈ components, component.getters.Answers component.content :=
    fun component among => (each component among).built.answers
  have counted : (components.map content).length = components.length := List.length_map _
  have at_ := indexed_of_answers answers components.length (Nat.le_of_eq counted.symm)
  rwa [← counted, ListSegments.offset_end, ← componentContent_flatten, counted] at at_

/-- A composite buffer of such components is cut into parts that hold the range. -/
theorem decompose_run {last start length : Nat}
    (each : ∀ component ∈ components, component.Component) (cached : last < components.length)
    (positive : 0 < length) (inside : start + length ≤ (componentContent components).length)
    (small : ((componentContent components).length : Int) ≤ maxInt) :
    ∃ parts, decompose (slicers components) ((components.map capacity).scanl (· + ·) 0) last
        start length = .ok parts ∧
      (∀ part ∈ parts, Fresh .big part) ∧
      componentContent parts = window (componentContent components) start length := by
  have answers : ∀ component ∈ components, component.getters.Answers component.content :=
    fun component among => (each component among).built.answers
  have indexed := indexed_of_answers answers
  have counted : (components.map content).length = components.length := List.length_map _
  rw [componentContent_flatten] at inside small ⊢
  have whole := whole_indexed each
  rw [componentContent_flatten] at whole
  have some_ : (length : Int) ≠ 0 := by omega
  have within : (start : Int) + length ≤ (components.map content).flatten.length := by omega
  have stop : int32 ((start : Int) + length) = start + length :=
    int32_of_nonneg (by omega) (by omega)
  obtain ⟨position, held⟩ := ListSegments.exists_holds
    (show start < (components.map content).flatten.length by omega)
  have search := getComponentId_holds indexed (by rw [counted]; exact cached) held
  have lower := held.lower
  have front : ((components.map content).take position).flatten.length =
      ListSegments.offset (components.map content) position := rfl
  have joined : (components.map content).flatten =
      ((components.map content).take position).flatten ++
        componentContent (components.drop position) := by
    rw [componentContent_flatten, List.map_drop, ← List.flatten_append, List.take_append_drop]
  have size := congrArg List.length joined
  rw [List.length_append, front] at size
  obtain ⟨inner, place⟩ := Nat.exists_eq_add_of_le lower
  have among : ∀ component ∈ components.drop position, component.Component :=
    fun component there => each component (List.mem_of_mem_drop there)
  have first : ∀ component ∈ (components.drop position).head?,
      inner ≤ component.content.length := by
    intro component head
    obtain ⟨segment, found, within⟩ := held.segment
    rw [List.head?_drop] at head
    rw [List.getElem?_map, head] at found
    cases found
    omega
  obtain ⟨parts, run, fresh, shown⟩ := decomposeFrom_run among
    (show Enters (some (inner : Int)) inner from Or.inl rfl) first positive (by omega) (by omega)
  refine ⟨parts, ?_, fresh, ?_⟩
  · have entry : (start : Int) - ListSegments.offset (components.map content) position = inner := by
      omega
    have table : ((components.map capacity).scanl (· + ·) 0).getD position 0 =
        (ListSegments.offset (components.map content) position : Int) :=
      indexed position (Nat.le_of_lt held.present)
    rw [counted] at search
    unfold decompose
    rw [slicers_length, whole, stop, if_neg some_, if_neg (Int.not_lt.mpr within), search, ok_bind,
      table, entry, slicers_drop]
    exact run
  · rw [shown, joined, place]
    unfold window
    rw [← List.drop_drop, List.drop_left' front]

theorem readOnly_fresh {order : ByteOrder} (fresh : Fresh order buffer) :
    Fresh order (readOnly buffer
      { Indices.zero with readerIdx := buffer.readerIdx, writerIdx := buffer.writerIdx }) := by
  have inside := fresh.built.inside
  rw [← fresh.capacity] at inside
  constructor
  · exact .readOnly fresh.built ⟨inside.reader, inside.writer, inside.bound⟩
  · unfold ChannelBuffer.order
    rw [getters]
    exact fresh.ordered
  · exact fresh.reader
  · rw [readOnly_content]
    exact fresh.writer

theorem readOnly_cuts {idx : Indices} (cuts : buffer.CutsAll) :
    (readOnly buffer idx).CutsAll := by
  intro index length inside
  rw [readOnly_content] at inside
  obtain ⟨part, cut, fresh, shown⟩ := cuts index length inside
  have ordered : (readOnly buffer idx).order = buffer.order := by
    unfold order
    rw [getters]
  refine ⟨readOnly part
    { Indices.zero with readerIdx := part.readerIdx, writerIdx := part.writerIdx }, ?_, ?_, ?_⟩
  · rw [slice]
    beta_reduce
    rw [cut, ok_bind, makeReadOnly_run fresh.built]
  · rw [ordered]
    exact readOnly_fresh fresh
  · rw [readOnly_content, readOnly_content, shown]

/-- The parts of a range are composed again, unless there is but one. -/
theorem compose_parts {parts : List ChannelBuffer} {bytes : CharArray}
    (fresh : ∀ part ∈ parts, Fresh .big part) (shown : componentContent parts = bytes)
    (small : (bytes.length : Int) ≤ maxInt) :
    ∃ composed, (match parts with
        | [] => pure emptyBuffer
        | [part] => pure part
        | components => makeComposite .big components .zero) = Except.ok composed ∧
      Fresh .big composed ∧ composed.content = bytes := by
  cases parts with
  | nil =>
      rw [componentContent] at shown
      exact ⟨emptyBuffer, rfl, emptyBuffer_fresh, emptyBuffer_content.trans shown⟩
  | cons first rest =>
      cases rest with
      | nil =>
          rw [componentContent, componentContent, List.append_nil] at shown
          exact ⟨first, rfl, fresh first List.mem_cons_self, shown⟩
      | cons second rest =>
          rw [← shown] at small
          obtain ⟨composed, made, new, held⟩ :=
            ChannelBuffers.makeComposite_fresh fresh (List.cons_ne_nil _ _) small
          exact ⟨composed, made, new, held.trans shown⟩

theorem composite_cuts {last : Nat} {idx : Indices}
    (each : ∀ component ∈ components, component.Component) (cached : last < components.length)
    (small : ((componentContent components).length : Int) ≤ maxInt) :
    (composite .big components ((components.map capacity).scanl (· + ·) 0) last idx).CutsAll := by
  intro index length inside
  have shown : (composite .big components ((components.map capacity).scanl (· + ·) 0) last
      idx).content = componentContent components := by rw [content]
  have ordered : (composite .big components ((components.map capacity).scanl (· + ·) 0) last
      idx).order = .big := by
    unfold order
    rw [getters]
    rfl
  rw [shown] at inside
  unfold CutsAt
  rw [shown, ordered, slice]
  unfold compositeSlice
  have total : ((components.map capacity).scanl (· + ·) 0).getD (slicers components).length 0 =
      ((componentContent components).length : Int) := by
    rw [slicers_length]
    exact whole_indexed each
  have room : int32 (((componentContent components).length : Int) - length) =
      (componentContent components).length - length := int32_of_nonneg (by omega) (by omega)
  rw [total, room, if_neg (by omega)]
  by_cases none : length = 0
  · subst none
    rw [if_pos Int.natCast_zero]
    exact ⟨emptyBuffer, rfl, emptyBuffer_fresh, emptyBuffer_content.trans (window_zero_count _ _).symm⟩
  · obtain ⟨parts, run, fresh, held⟩ := decompose_run each cached (by omega) inside small
    have size : ((window (componentContent components) index length).length : Int) ≤ maxInt := by
      rw [window_length inside]
      omega
    rw [if_neg (by omega), run]
    exact compose_parts fresh held size

theorem cutsAll_of_cuts (ordered : buffer.order = .big) (cuts : buffer.Cuts)
    (empty : ∀ index : Nat, index ≤ buffer.content.length →
      buffer.slice index (0 : Nat) = .ok emptyBuffer) : buffer.CutsAll := by
  intro index length inside
  by_cases none : length = 0
  · subst none
    exact cutsAt_nothing ordered (empty index inside)
  · exact cuts index length (Nat.pos_of_ne_zero none) inside

/-- An undisturbed buffer is cut everywhere. -/
theorem WellBuilt.cuts (built : buffer.WellBuilt) (undisturbed : buffer.Undisturbed)
    (ordered : buffer.order = .big) : buffer.CutsAll := by
  induction built with
  | heap small inside =>
      apply cutsAll_of_cuts ordered (heap_cuts (.heap small inside))
      intro index _
      rw [slice]
      beta_reduce
      rw [if_neg (by omega)]
      rfl
  | dynamic same small inside =>
      apply cutsAll_of_cuts ordered (dynamic_cuts (.dynamic same small inside))
      intro index _
      rw [slice]
      rfl
  | @sliced base adjustment length idx parent within inside ih =>
      have capacity : base.capacity = base.content.length := parent.answers.capacity
      have room : adjustment + length ≤ base.content.length := by omega
      apply cutsAll_of_cuts ordered (sliced_cuts parent room)
      intro index below
      rw [content, Int.toNat_natCast, Int.toNat_natCast, window_length room] at below
      rw [slice_sliced _ _ _ _ _ _
        (Getters.slicedCheck_of_inside parent.answers.small room (by omega))]
      rfl
  | @truncated base length idx parent within inside ih =>
      have capacity : base.capacity = base.content.length := parent.answers.capacity
      have room : length ≤ base.content.length := by omega
      have ordered_ : base.order = .big := by
        unfold order at ordered ⊢
        rw [getters] at ordered
        exact ordered
      cases undisturbed with
      | truncated below_ =>
          have cuts := ih below_ ordered_
          apply cutsAll_of_cuts ordered
            (truncated_cuts parent (fun index length _ inside => cuts index length inside) room)
          intro index below
          rw [content, Int.toNat_natCast, window_length (by omega)] at below
          rw [slice_truncated _ _ _ _ _
            (Getters.truncatedCheck_of_inside parent.answers.small room (by omega))]
          rfl
  | @duplicated base idx parent inside ih =>
      have same : (ChannelBuffer.duplicated base idx).order = base.order := duplicated_order idx
      cases undisturbed with
      | duplicated below =>
          have cuts := ih below (same.symm.trans ordered)
          intro index length inside
          rw [duplicated_content] at inside
          obtain ⟨part, cut, fresh, shown⟩ := cuts index length inside
          refine ⟨part, ?_, ?_, ?_⟩
          · rw [slice]
            exact cut
          · rw [same]
            exact fresh
          · rw [duplicated_content]
            exact shown
  | @readOnly base idx parent inside ih =>
      have ordered_ : base.order = .big := by
        unfold order at ordered ⊢
        rw [getters] at ordered
        exact ordered
      cases undisturbed with
      | readOnly below => exact readOnly_cuts (ih below ordered_)
  | @composite order components last idx parts same cached small inside ih =>
      have order_ : order = .big := by
        unfold ChannelBuffer.order at ordered
        rw [getters] at ordered
        exact ordered
      subst order_
      cases undisturbed with
      | composite below spread =>
          have each : ∀ component ∈ components, component.Component :=
            fun component among => ⟨parts component among, same component among,
              spread component among, ih component among (below component among)
                (same component among)⟩
          apply composite_cuts each cached
          have answers := fun component among => (parts component among).answers
          rw [map_capacity answers, sum_lengths] at small
          rw [componentContent_flatten]
          exact small

/-- What `wrappedBuffer` makes of a buffer: parts that hold its readable bytes. -/
theorem WellBuilt.parts (built : buffer.WellBuilt) (undisturbed : buffer.Undisturbed)
    (ordered : buffer.order = .big) (readable : buffer.readable = true) :
    ∃ parts, ChannelBuffers.wrapParts buffer = .ok parts ∧ (∀ part ∈ parts, Fresh .big part) ∧
      componentContent parts = buffer.readableContent := by
  have cuts := built.cuts undisturbed ordered
  obtain ⟨reader, count, starts, counted, held, inside⟩ := built.readable
  have positive : 0 < count := by
    unfold ChannelBuffer.readable at readable
    rw [counted] at readable
    have some_ := of_decide_eq_true readable
    omega
  have one (part : ChannelBuffer) (fresh : Fresh buffer.order part)
      (shown : part.content = window buffer.content reader count) :
      (∀ other ∈ [part], Fresh .big other) ∧ componentContent [part] = buffer.readableContent := by
    constructor
    · intro other among
      rw [List.mem_singleton.mp among, ← ordered]
      exact fresh
    · rw [componentContent, componentContent, List.append_nil, shown, held]
  obtain ⟨part, cut, fresh, shown⟩ := cuts reader count inside
  rw [held] at one ⊢
  unfold ChannelBuffers.wrapParts
  cases built with
  | @composite order components last idx parts same cached small within =>
      cases undisturbed with
      | composite below spread =>
          have big : order = .big := by
            unfold ChannelBuffer.order at ordered
            rw [getters] at ordered
            exact ordered
          subst big
          have each : ∀ component ∈ components, component.Component :=
            fun component among => ⟨parts component among, same component among,
              spread component among, (parts component among).cuts (below component among)
                (same component among)⟩
          have answers := fun component among => (parts component among).answers
          rw [map_capacity answers, sum_lengths, ← componentContent_flatten] at small
          rw [content] at inside ⊢
          dsimp only
          rw [starts, counted]
          exact decompose_run each cached positive inside small
  | heap small within =>
      dsimp only
      rw [starts, counted, cut]
      exact ⟨[part], rfl, one part fresh shown⟩
  | dynamic same small within =>
      dsimp only
      rw [starts, counted, cut]
      exact ⟨[part], rfl, one part fresh shown⟩
  | sliced parent room within =>
      dsimp only
      rw [starts, counted, cut]
      exact ⟨[part], rfl, one part fresh shown⟩
  | truncated parent room within =>
      dsimp only
      rw [starts, counted, cut]
      exact ⟨[part], rfl, one part fresh shown⟩
  | duplicated parent within =>
      dsimp only
      rw [starts, counted, cut]
      exact ⟨[part], rfl, one part fresh shown⟩
  | readOnly parent within =>
      dsimp only
      rw [starts, counted, cut]
      exact ⟨[part], rfl, one part fresh shown⟩

end Slices

end ChannelBuffer

namespace ChannelBuffers

open ChannelBuffer

/-- `wrappedBuffer(buffers)` reads as the bytes of all buffers in one array, also across edges. -/
theorem wrapped_answers {buffers : List ChannelBuffer} {flat : CharArray}
    (inputs : ∀ buffer ∈ buffers, buffer.WellBuilt ∧ buffer.Undisturbed ∧ buffer.order = .big)
    (whole : (buffers.map readableContent).flatten = flat) (some_ : flat ≠ [])
    (small : (flat.length : Int) ≤ maxInt) :
    ∃ buffer, wrappedBuffers buffers = .ok buffer ∧ buffer.order = .big ∧
      buffer.readableContent = flat ∧ buffer.getters.Answers flat := by
  have wraps : List.Forall₂ (Wraps .big) buffers (buffers.map readableContent) := by
    rw [List.forall₂_map_right_iff, List.forall₂_same]
    intro buffer among
    obtain ⟨built, undisturbed, ordered⟩ := inputs buffer among
    cases readable : buffer.readable with
    | false =>
        rw [unreadable_content built readable]
        exact .skipped readable
    | true =>
        obtain ⟨parts, cut, fresh, held⟩ := built.parts undisturbed ordered readable
        rw [← held]
        exact .taken readable ordered cut fresh
  have none (other : ChannelBuffer) (among : other ∈ []) : other.order = .big := by cases among
  obtain ⟨parts, run, fresh, shown⟩ := wrapFrom_run wraps none
  rw [whole] at shown
  unfold wrappedBuffers
  rw [run, ok_bind, List.nil_append]
  cases parts with
  | nil =>
      rw [componentContent] at shown
      exact absurd shown.symm some_
  | cons first rest =>
      dsimp only
      rw [(fresh first List.mem_cons_self).ordered]
      obtain ⟨buffer, made, new, held⟩ := compositeBuffer_fresh fresh (List.cons_ne_nil _ _)
        (by rw [shown]; exact small)
      rw [shown] at held
      refine ⟨buffer, made, new.ordered, ?_, ?_⟩
      · rw [new.readableContent, held]
      · rw [← held]
        exact new.built.answers

theorem wrapped_answers_two :
    ∃ buffer, wrappedBuffers [heap ⟨.big, [1, 2, 3], .full 3⟩,
        truncated (heap ⟨.big, [4, 5], .full 2⟩) 1 (.full 1)] = .ok buffer ∧ buffer.order = .big ∧
      buffer.readableContent = [1, 2, 3, 4] ∧ buffer.getters.Answers [1, 2, 3, 4] := by
  apply wrapped_answers _ (by decide) (by decide) (by decide)
  rw [List.forall_mem_cons, List.forall_mem_singleton]
  exact ⟨⟨.heap (by decide) ⟨by decide, by decide, by decide⟩, .heap, rfl⟩,
    .truncated (.heap (by decide) ⟨by decide, by decide, by decide⟩) (by decide)
      ⟨by decide, by decide, by decide⟩, .truncated .heap, rfl⟩

end ChannelBuffers

end Cetty
