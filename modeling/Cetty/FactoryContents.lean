import Cetty.BufferFactories

/-!
# What the factory methods make

Every overload of `wrappedBuffer` for arrays and of `copiedBuffer` for arrays, for a part of an
array and for buffers, beside what it is documented to return: the concatenated bytes in the
byte order asked for, or in the one the buffers share.
-/

namespace Cetty

open MachineInt ByteWindow

namespace ChannelBuffers

open ChannelBuffer

/-- The arguments of an overload. -/
inductive Operands (Input : Type) where
  | two (first second : Input)
  | three (first second third : Input)
  | four (first second third fourth : Input)
  | vector (inputs : List Input)

def Operands.list {Input : Type} : Operands Input → List Input
  | two first second => [first, second]
  | three first second third => [first, second, third]
  | four first second third fourth => [first, second, third, fourth]
  | vector inputs => inputs

inductive FactoryCall where
  | copiedRange (order : ByteOrder) (array : Option CharArray) (offset length : Int)
  | copiedArrays (order : ByteOrder) (arrays : Operands (Option CharArray))
  | wrappedArrays (order : ByteOrder) (arrays : Operands (Option CharArray))
  | copiedBuffers (buffers : Operands ChannelBuffer)

/-- The bytes of arrays one after the other. -/
def joined (arrays : List (Option CharArray)) : CharArray := (arrays.map cells).flatten

/-- The readable bytes of buffers one after the other. -/
def readableJoined (buffers : List ChannelBuffer) : CharArray :=
  (buffers.map readableContent).flatten

/-- The readable ones of the buffers have one byte order. -/
def OneOrder (buffers : List ChannelBuffer) : Prop :=
  ∀ first ∈ buffers, ∀ second ∈ buffers, first.readable = true → second.readable = true →
    first.order = second.order

namespace FactoryCall

def run : FactoryCall → Except Stop ChannelBuffer
  | copiedRange order array offset length =>
      .ok (ChannelBuffers.copiedRange order array offset length)
  | copiedArrays order (.two first second) => copiedTwo order first second
  | copiedArrays order (.three first second third) => copiedThree order first second third
  | copiedArrays order (.four first second third fourth) =>
      copiedFour order first second third fourth
  | copiedArrays order (.vector arrays) => ChannelBuffers.copiedArrays order arrays
  | wrappedArrays order (.two first second) => wrappedTwo order first second
  | wrappedArrays order (.three first second third) => wrappedThree order first second third
  | wrappedArrays order (.four first second third fourth) =>
      wrappedFour order first second third fourth
  | wrappedArrays order (.vector arrays) => ChannelBuffers.wrappedArrays order arrays
  | copiedBuffers (.two first second) => copiedTwoBuffers first second
  | copiedBuffers (.three first second third) => copiedThreeBuffers first second third
  | copiedBuffers (.four first second third fourth) =>
      copiedFourBuffers first second third fourth
  | copiedBuffers (.vector buffers) => ChannelBuffers.copiedBuffers buffers

/-- Lengths are `int`, a part of an array lies inside it. -/
def InRange : FactoryCall → Prop
  | copiedRange _ array offset length =>
      ((cells array).length : Int) ≤ maxInt ∧ 0 ≤ offset ∧ 0 ≤ length ∧
        offset + length ≤ (cells array).length
  | copiedArrays _ arrays => ∀ array ∈ arrays.list, ((cells array).length : Int) ≤ maxInt
  | wrappedArrays _ arrays => ∀ array ∈ arrays.list, ((cells array).length : Int) ≤ maxInt
  | copiedBuffers buffers => ∀ buffer ∈ buffers.list, buffer.WellBuilt

end FactoryCall

/-- A buffer of an order that holds bytes is returned. -/
def Holds (order : ByteOrder) (bytes : CharArray) (result : Except Stop ChannelBuffer) : Prop :=
  ∃ buffer, result = .ok buffer ∧ buffer.readableContent = bytes ∧ buffer.order = order

/-- What the documentation promises. Without readable bytes the buffers share no order. -/
def FactoryCall.Agrees (call : FactoryCall) : Prop :=
  match call with
  | copiedRange order array offset length =>
      Holds order (window (cells array) offset.toNat length.toNat) call.run
  | copiedArrays order arrays => Holds order (joined arrays.list) call.run
  | wrappedArrays order arrays => Holds order (joined arrays.list) call.run
  | copiedBuffers buffers =>
      (∀ order, (∀ buffer ∈ buffers.list, buffer.readable = true → buffer.order = order) →
        ∃ buffer, call.run = .ok buffer ∧ buffer.readableContent = readableJoined buffers.list ∧
          (readableJoined buffers.list ≠ [] → buffer.order = order)) ∧
      (call.run = .error inconsistent → ¬ OneOrder buffers.list)

/-- The readable bytes of a buffer can be taken out of it. -/
def copyable (buffer : ChannelBuffer) : Bool :=
  buffer.passes buffer.readerIdx.toNat buffer.readableBytes.toNat

/-- The buffers behind the first one have its order, or that of the empty buffer kept for it. -/
def FollowFirst : List ChannelBuffer → Prop
  | [] => True
  | first :: rest =>
      ∀ later ∈ rest, later.order = if first.readable then first.order else .big

def FactoryCall.Fine : FactoryCall → Prop
  | copiedRange order array offset length =>
      if length = 0 then order = .big else offset = 0 ∧ length = (cells array).length
  | copiedArrays order arrays =>
      ((joined arrays.list).length : Int) ≤ maxInt ∧ (order = .big ∨ joined arrays.list ≠ []) ∧
        match arrays with
        | .vector arrays => 1 < arrays.length → joined arrays ≠ [] → none ∉ arrays
        | _ => True
  | wrappedArrays order arrays =>
      ((joined arrays.list).length : Int) ≤ maxInt ∧
        match arrays with
        | .two first second => order = .big ∨ ((cells first).isEmpty ^^ (cells second).isEmpty)
        | arrays => order = .big ∨ joined arrays.list ≠ []
  | copiedBuffers buffers => OneOrder buffers.list →
      ((readableJoined buffers.list).length : Int) ≤ maxInt ∧
        (∀ buffer ∈ buffers.list, buffer.readable = true → copyable buffer = true) ∧
        match buffers with
        | .vector buffers => FollowFirst buffers
        | _ => True

/-- What an overload for arrays returns, which makes buffers of `order`. -/
structure Makes (order : ByteOrder) (bytes : CharArray) (result : Except Stop ChannelBuffer) :
    Prop where
  nothing : bytes = [] → result = .ok emptyBuffer
  made : bytes ≠ [] → (bytes.length : Int) ≤ maxInt →
    ∃ buffer, result = .ok buffer ∧ Fresh order buffer ∧ buffer.content = bytes
  beyond : maxInt < (bytes.length : Int) → ∀ buffer, result ≠ .ok buffer

section Arrays

variable {order wanted : ByteOrder} {bytes : CharArray} {result : Except Stop ChannelBuffer}

theorem Makes.holds_iff (makes : Makes order bytes result) :
    Holds wanted bytes result ↔ (bytes.length : Int) ≤ maxInt ∧
      wanted = if bytes = [] then .big else order := by
  constructor
  · rintro ⟨buffer, run, shown, ordered⟩
    have small : (bytes.length : Int) ≤ maxInt := by
      by_contra beyond
      exact makes.beyond (by omega) buffer run
    refine ⟨small, ?_⟩
    by_cases none : bytes = []
    · rw [makes.nothing none] at run
      cases run
      rw [if_pos none, ← ordered]
      rfl
    · obtain ⟨made, same, fresh, -⟩ := makes.made none small
      rw [same] at run
      cases run
      rw [if_neg none, ← ordered, fresh.ordered]
  · rintro ⟨small, rfl⟩
    by_cases none : bytes = []
    · rw [if_pos none]
      refine ⟨emptyBuffer, makes.nothing none, ?_, rfl⟩
      rw [none]
      rfl
    · rw [if_neg none]
      obtain ⟨made, same, fresh, shown⟩ := makes.made none small
      exact ⟨made, same, by rw [fresh.readableContent, shown], fresh.ordered⟩

theorem Makes.holds_same_iff (makes : Makes order bytes result) :
    Holds order bytes result ↔
      (bytes.length : Int) ≤ maxInt ∧ (order = .big ∨ bytes ≠ []) := by
  rw [makes.holds_iff]
  by_cases none : bytes = []
  · rw [if_pos none]
    simp only [none, ne_eq, not_true_eq_false, or_false]
  · rw [if_neg none]
    simp only [none, ne_eq, not_false_eq_true, or_true]

theorem makes_nothing : Makes order [] (.ok emptyBuffer) := by
  constructor
  · intro none
    rfl
  · intro some_
    exact absurd rfl some_
  · intro beyond
    have limit : maxInt = 2147483647 := rfl
    rw [List.length_nil] at beyond
    omega

theorem makes_wrappedBuffer {array : Option CharArray}
    (small : ((cells array).length : Int) ≤ maxInt) :
    Makes order (cells array) (.ok (wrappedBuffer order array)) := by
  constructor
  · intro none
    unfold wrappedBuffer
    rw [none]
    rfl
  · intro some_ _
    exact ⟨_, rfl, wrappedBuffer_fresh some_ small⟩
  · intro beyond
    omega

theorem joined_cons (array : Option CharArray) (rest : List (Option CharArray)) :
    joined (array :: rest) = cells array ++ joined rest := by
  unfold joined
  rw [List.map_cons, List.flatten_cons]

theorem joined_filled (arrays : List (Option CharArray)) : joined (filled arrays) = joined arrays := by
  unfold filled
  induction arrays with
  | nil => rfl
  | cons array rest ih =>
      cases shape : cells array with
      | nil =>
          rw [List.filter_cons_of_neg (by rw [shape]; decide), ih, joined_cons, shape,
            List.nil_append]
      | cons byte bytes =>
          rw [List.filter_cons_of_pos (by rw [shape]; rfl), joined_cons, joined_cons, ih]

theorem filled_nil_iff (arrays : List (Option CharArray)) :
    filled arrays = [] ↔ joined arrays = [] := by
  constructor
  · intro none
    rw [← joined_filled, none]
    rfl
  · intro none
    unfold filled
    rw [List.filter_eq_nil_iff]
    intro array among
    unfold joined at none
    have empty := List.flatten_eq_nil_iff.mp none (cells array) (List.mem_map_of_mem among)
    rw [empty]
    decide

theorem mem_filled {arrays : List (Option CharArray)} {array : Option CharArray}
    (among : array ∈ filled arrays) : array ∈ arrays ∧ cells array ≠ [] := by
  obtain ⟨there, some_⟩ := List.mem_filter.mp among
  refine ⟨there, ?_⟩
  intro none
  rw [none] at some_
  cases some_

section

variable {arrays : List (Option CharArray)}
  (small : ∀ array ∈ arrays, ((cells array).length : Int) ≤ maxInt)

include small

/-- The wrapped arrays are the components. -/
theorem makes_wrappedArrays :
    Makes order (joined arrays) (wrappedArrays order arrays) := by
  have fresh : ∀ component ∈ (filled arrays).map (wrappedBuffer order), Fresh order component := by
    intro component among
    obtain ⟨array, there, rfl⟩ := List.mem_map.mp among
    obtain ⟨given, some_⟩ := mem_filled there
    exact (wrappedBuffer_fresh some_ (small array given)).left
  have shown : componentContent ((filled arrays).map (wrappedBuffer order)) = joined arrays := by
    rw [componentContent_flatten, List.map_map, ← joined_filled]
    unfold joined
    congr 1
    apply List.map_congr_left
    intro array there
    obtain ⟨given, some_⟩ := mem_filled there
    exact (wrappedBuffer_fresh some_ (small array given)).right
  have whole (some_ : joined arrays ≠ []) : wrappedArrays order arrays =
      compositeBuffer order ((filled arrays).map (wrappedBuffer order)) := by
    unfold wrappedArrays
    cases shape : (filled arrays).map (wrappedBuffer order) with
    | nil =>
        rw [shape] at shown
        rw [← shown, componentContent] at some_
        exact absurd rfl some_
    | cons first rest => rfl
  constructor
  · intro none
    unfold wrappedArrays
    rw [(filled_nil_iff arrays).mpr none]
    rfl
  · intro some_ little
    rw [whole some_, ← shown]
    apply compositeBuffer_fresh fresh
    · intro none
      rw [none, componentContent] at shown
      exact some_ shown.symm
    · rw [shown]
      exact little
  · intro beyond
    have some_ : joined arrays ≠ [] := by
      intro none
      have limit : maxInt = 2147483647 := rfl
      rw [none, List.length_nil] at beyond
      omega
    rw [whole some_]
    exact compositeBuffer_beyond fresh (by rw [shown]; exact beyond)

theorem makes_wrappedMore :
    Makes order (joined arrays) (wrappedMore order arrays) := by
  have makes : Makes order (joined (filled arrays)) (wrappedArrays order (filled arrays)) :=
    makes_wrappedArrays fun array among => small array (mem_filled among).left
  have same : wrappedMore order arrays = wrappedArrays order (filled arrays) := by
    unfold wrappedMore
    cases shape : filled arrays with
    | nil => rfl
    | cons first rest => rfl
  rw [same, ← joined_filled]
  exact makes

end

end Arrays

section Merging

theorem totalLength_eq (arrays : List (Option CharArray)) :
    totalLength arrays = (joined arrays).length := by
  unfold totalLength joined
  rw [List.length_flatten, List.map_map]
  rfl

variable {merged : CharArray} {j : Nat} {arrays : List (Option CharArray)}

theorem mergeArray_run {array : CharArray}
    (inside : j + array.length ≤ merged.length) (small : (merged.length : Int) ≤ maxInt) :
    mergeArray merged j (some array) = .ok (overwrite merged j array) := by
  have copied : CharArray.copy merged j array (0 : Nat) array.length =
      .ok (overwrite merged j (window array 0 array.length)) :=
    CharArray.copy_of_inside (by omega) inside (by omega) small
  rw [window_whole, Int.natCast_zero] at copied
  unfold mergeArray cells
  rw [Option.getD_some, copied]
  rfl

theorem mergeFrom_run (there : none ∉ arrays) (inside : j + (joined arrays).length ≤ merged.length)
    (small : (merged.length : Int) ≤ maxInt) :
    mergeFrom merged j arrays = .ok (overwrite merged j (joined arrays)) := by
  induction arrays generalizing merged j with
  | nil =>
      unfold joined
      rw [mergeFrom, List.map_nil, List.flatten_nil, overwrite_nothing]
      rfl
  | cons array rest ih =>
      cases array with
      | none => exact absurd List.mem_cons_self there
      | some array =>
          rw [joined_cons, List.length_append] at inside
          unfold cells at inside
          rw [Option.getD_some] at inside
          have size : (overwrite merged j array).length = merged.length :=
            overwrite_length (by omega)
          have later : mergeFrom (overwrite merged j array) (j + array.length) rest =
              .ok (overwrite (overwrite merged j array) (j + array.length) (joined rest)) :=
            ih (fun among => there (List.mem_cons_of_mem _ among)) (by omega) (by omega)
          rw [mergeFrom, mergeArray_run (by omega) small, ok_bind, joined_cons]
          unfold cells
          rw [Option.getD_some, later, overwrite_append (by omega)]

/-- An array that points nowhere is not merged. -/
theorem mergeFrom_nowhere (nowhere : none ∈ arrays)
    (merged : CharArray) (j : Nat) (result : CharArray) : mergeFrom merged j arrays ≠ .ok result := by
  induction arrays generalizing merged j with
  | nil => cases nowhere
  | cons array rest ih =>
      intro run
      rw [mergeFrom] at run
      cases here : mergeArray merged j array with
      | error stop =>
          rw [here] at run
          cases run
      | ok after =>
          rw [here] at run
          rcases List.mem_cons.mp nowhere with first | later
          · rw [← first] at here
            unfold mergeArray at here
            cases copied : CharArray.copy merged j (cells none) 0 (cells none).length with
            | error stop =>
                rw [copied] at here
                cases here
            | ok bytes =>
                rw [copied] at here
                cases here
          · exact ih later after _ run

theorem copiedArrays_merge (order : ByteOrder)
    (several : 1 < arrays.length) (some_ : joined arrays ≠ [])
    (small : ((joined arrays).length : Int) ≤ maxInt) :
    copiedArrays order arrays = (do
      let mergedArray ← mergeFrom (List.replicate (joined arrays).length 0) 0 arrays
      pure (wrappedBuffer order (some mergedArray))) := by
  have positive := List.length_pos_of_ne_nil some_
  have total := totalLength_eq arrays
  match arrays, several with
  | first :: second :: rest, _ =>
      unfold copiedArrays
      dsimp only
      rw [total, if_neg (by omega), if_neg (by omega)]

variable {order : ByteOrder}

section

variable {arrays : List (Option CharArray)}

theorem copiedArrays_beyond (several : 1 < arrays.length)
    (beyond : maxInt < ((joined arrays).length : Int)) (buffer : ChannelBuffer) :
    copiedArrays order arrays ≠ .ok buffer := by
  match arrays, several with
  | first :: second :: rest, _ =>
      unfold copiedArrays
      dsimp only
      rw [totalLength_eq, if_pos beyond]
      intro made
      cases made

theorem copiedArrays_nowhere (several : 1 < arrays.length)
    (some_ : joined arrays ≠ []) (nowhere : none ∈ arrays) (buffer : ChannelBuffer) :
    copiedArrays order arrays ≠ .ok buffer := by
  by_cases small : ((joined arrays).length : Int) ≤ maxInt
  · intro run
    rw [copiedArrays_merge order several some_ small] at run
    cases merged : mergeFrom (List.replicate (joined arrays).length 0) 0 arrays with
    | error stop =>
        rw [merged] at run
        cases run
    | ok bytes => exact mergeFrom_nowhere nowhere _ _ bytes merged
  · exact copiedArrays_beyond several (by omega) buffer

theorem makes_copiedArrays (small : ∀ array ∈ arrays, ((cells array).length : Int) ≤ maxInt)
    (there : 1 < arrays.length → joined arrays ≠ [] → none ∉ arrays) :
    Makes order (joined arrays) (copiedArrays order arrays) := by
  have limit : maxInt = 2147483647 := rfl
  match arrays with
  | [] => exact makes_nothing
  | [array] =>
      have makes : Makes order (cells array) (.ok (wrappedBuffer order array)) :=
        makes_wrappedBuffer (small array List.mem_cons_self)
      have single : joined [array] = cells array := by
        rw [joined_cons]
        exact List.append_nil _
      have same : copiedArrays order [array] = .ok (wrappedBuffer order array) := by
        unfold copiedArrays
        dsimp only
        rw [copiedBuffer_eq]
        by_cases none : (cells array).isEmpty = true
        · rw [if_pos none]
          have empty := makes.nothing (List.isEmpty_iff.mp none)
          exact empty.symm
        · rw [if_neg none]
          rfl
      rw [single, same]
      exact makes
  | first :: second :: rest =>
      let arrays := first :: second :: rest
      have several : 1 < arrays.length := Nat.succ_lt_succ (Nat.succ_pos _)
      constructor
      · intro none
        unfold copiedArrays
        dsimp only
        rw [show totalLength (first :: second :: rest) = 0 by rw [totalLength_eq, none]; rfl,
          if_neg (by omega), if_pos rfl]
        rfl
      · intro some_ little
        have size : (List.replicate (joined arrays).length (0 : Byte)).length =
            (joined arrays).length := List.length_replicate
        have merged : mergeFrom (List.replicate (joined arrays).length 0) 0 arrays =
            .ok (overwrite (List.replicate (joined arrays).length 0) 0 (joined arrays)) :=
          mergeFrom_run (there several some_) (by rw [size]; omega) (by rw [size]; exact little)
        rw [overwrite_whole size] at merged
        have bytes : cells (some (joined arrays)) = joined arrays := rfl
        rw [copiedArrays_merge order several some_ little, merged, ok_bind]
        exact ⟨_, rfl, wrappedBuffer_fresh (by rw [bytes]; exact some_) (by rw [bytes]; exact little)⟩
      · intro beyond
        exact copiedArrays_beyond several beyond

end

theorem none_not_filled (arrays : List (Option CharArray)) : none ∉ filled arrays := by
  intro among
  exact (mem_filled among).right rfl

theorem makes_copiedFilled (small : ∀ array ∈ arrays, ((cells array).length : Int) ≤ maxInt) :
    Makes order (joined arrays) (copiedArrays order (filled arrays)) := by
  rw [← joined_filled]
  exact makes_copiedArrays (fun array among => small array (mem_filled among).left)
    fun _ _ => none_not_filled arrays

/-- Two arrays of which at most one has bytes. -/
theorem joined_two (first second : Option CharArray) :
    joined [first, second] = cells first ++ cells second := by
  rw [joined_cons, joined_cons]
  exact congrArg _ (List.append_nil _)

section

variable {first second : Option CharArray}
  (small : ∀ array ∈ [first, second], ((cells array).length : Int) ≤ maxInt)

include small

theorem makes_copiedTwo :
    Makes order (joined [first, second]) (copiedTwo order first second) := by
  have one (array : Option CharArray) (among : array ∈ [first, second]) :
      Makes order (cells array) (.ok (copiedBuffer order array)) := by
    rw [copiedBuffer_eq]
    exact makes_wrappedBuffer (small array among)
  have front := one first List.mem_cons_self
  have back := one second (List.mem_cons_of_mem _ List.mem_cons_self)
  unfold copiedTwo
  by_cases firstNone : (cells first).isEmpty = true
  · rw [if_pos firstNone, joined_two, List.isEmpty_iff.mp firstNone, List.nil_append]
    by_cases secondNone : (cells second).isEmpty = true
    · rw [if_pos secondNone, List.isEmpty_iff.mp secondNone]
      exact makes_nothing
    · rw [if_neg secondNone]
      exact back
  · rw [if_neg firstNone]
    by_cases secondNone : (cells second).isEmpty = true
    · rw [if_pos secondNone, joined_two, List.isEmpty_iff.mp secondNone, List.append_nil]
      exact front
    · rw [if_neg secondNone]
      apply makes_copiedArrays small
      intro _ _ among
      rcases List.mem_cons.mp among with here | later
      · rw [← here] at firstNone
        exact firstNone rfl
      · rw [← List.mem_singleton.mp later] at secondNone
        exact secondNone rfl

/-- The byte order asked for is lost where both arrays have bytes. -/
theorem makes_wrappedTwo :
    Makes (if (cells first).isEmpty ∨ (cells second).isEmpty then order else .big)
      (joined [first, second]) (wrappedTwo order first second) := by
  have front : Makes order (cells first) (.ok (wrappedBuffer order first)) :=
    makes_wrappedBuffer (small first List.mem_cons_self)
  have back : Makes order (cells second) (.ok (wrappedBuffer order second)) :=
    makes_wrappedBuffer (small second (List.mem_cons_of_mem _ List.mem_cons_self))
  unfold wrappedTwo
  by_cases firstNone : (cells first).isEmpty = true
  · rw [if_pos firstNone, if_pos (Or.inl firstNone), joined_two, List.isEmpty_iff.mp firstNone,
      List.nil_append]
    by_cases secondNone : (cells second).isEmpty = true
    · rw [if_pos secondNone, List.isEmpty_iff.mp secondNone]
      exact makes_nothing
    · rw [if_neg secondNone]
      exact back
  · rw [if_neg firstNone]
    by_cases secondNone : (cells second).isEmpty = true
    · rw [if_pos secondNone, if_pos (Or.inr secondNone), joined_two,
        List.isEmpty_iff.mp secondNone, List.append_nil]
      exact front
    · rw [if_neg secondNone, if_neg (by rintro (none | none); exacts [firstNone none, secondNone none])]
      exact makes_wrappedArrays small

end

end Merging

section ArrayCalls

variable {order : ByteOrder}

/-- The array is cloned as a whole, whatever part of it is asked for. -/
theorem copiedRange_agrees_iff {array : Option CharArray} {offset length : Int}
    (inRange : (FactoryCall.copiedRange order array offset length).InRange) :
    (FactoryCall.copiedRange order array offset length).Agrees ↔
      (FactoryCall.copiedRange order array offset length).Fine := by
  obtain ⟨small, lower, positive, upper⟩ := inRange
  change Holds order (window (cells array) offset.toNat length.toNat)
    (.ok (copiedRange order array offset length)) ↔
      if length = 0 then order = .big else offset = 0 ∧ length = (cells array).length
  by_cases none : length = 0
  · have made : copiedRange order array offset length = emptyBuffer := by
      unfold copiedRange
      rw [if_pos (Or.inl (by omega))]
    rw [if_pos none, made, none, Int.toNat_zero, window_zero_count, makes_nothing.holds_same_iff]
    constructor
    · rintro ⟨-, big | some_⟩
      · exact big
      · exact absurd rfl some_
    · intro big
      have limit : maxInt = 2147483647 := rfl
      refine ⟨?_, Or.inl big⟩
      rw [List.length_nil]
      omega
  · have some_ : cells array ≠ [] := by
      intro empty
      rw [empty, List.length_nil] at upper
      omega
    have made : copiedRange order array offset length = wrappedBuffer order (clone array) := by
      unfold copiedRange
      rw [if_neg]
      rintro (blank | empty | behind)
      · omega
      · exact some_ (List.isEmpty_iff.mp empty)
      · omega
    have copied := cells_clone array
    have new : Fresh order (wrappedBuffer order (clone array)) ∧
        (wrappedBuffer order (clone array)).content = cells (clone array) :=
      wrappedBuffer_fresh (by rw [copied]; exact some_) (by rw [copied]; exact small)
    obtain ⟨fresh, shown⟩ := new
    rw [if_neg none, made]
    have size : (window (cells array) offset.toNat length.toNat).length = length.toNat :=
      window_length (by omega)
    constructor
    · rintro ⟨buffer, run, bytes, -⟩
      cases run
      rw [fresh.readableContent, shown, copied] at bytes
      rw [← bytes] at size
      omega
    · rintro ⟨rfl, rfl⟩
      refine ⟨_, rfl, ?_, fresh.ordered⟩
      rw [fresh.readableContent, shown, copied, Int.toNat_zero, Int.toNat_natCast, window_whole]

variable {arrays : Operands (Option CharArray)}

theorem copiedArrays_agrees_iff (inRange : (FactoryCall.copiedArrays order arrays).InRange) :
    (FactoryCall.copiedArrays order arrays).Agrees ↔
      (FactoryCall.copiedArrays order arrays).Fine := by
  have small : ∀ array ∈ arrays.list, ((cells array).length : Int) ≤ maxInt := inRange
  change Holds order (joined arrays.list) (FactoryCall.copiedArrays order arrays).run ↔ _ ∧ _ ∧ _
  have fewer (makes : Makes order (joined arrays.list)
      (FactoryCall.copiedArrays order arrays).run) :
      Holds order (joined arrays.list) (FactoryCall.copiedArrays order arrays).run ↔
        ((joined arrays.list).length : Int) ≤ maxInt ∧
          (order = .big ∨ joined arrays.list ≠ []) ∧ True := by
    rw [makes.holds_same_iff, and_true]
  cases arrays with
  | two first second => exact fewer (makes_copiedTwo small)
  | three first second third => exact fewer (makes_copiedFilled small)
  | four first second third fourth => exact fewer (makes_copiedFilled small)
  | vector arrays =>
      by_cases there : 1 < arrays.length → joined arrays ≠ [] → none ∉ arrays
      · have makes : Makes order (joined arrays) (copiedArrays order arrays) :=
          makes_copiedArrays small there
        have same := makes.holds_same_iff
        constructor
        · intro holds
          have fine := same.mp holds
          exact ⟨fine.left, fine.right, there⟩
        · intro fine
          exact same.mpr ⟨fine.left, fine.right.left⟩
      · constructor
        · rintro ⟨buffer, run, -, -⟩
          exfalso
          push Not at there
          obtain ⟨several, some_, nowhere⟩ := there
          exact copiedArrays_nowhere several some_ nowhere buffer run
        · intro fine
          exact absurd fine.right.right there

theorem wrappedArrays_agrees_iff (inRange : (FactoryCall.wrappedArrays order arrays).InRange) :
    (FactoryCall.wrappedArrays order arrays).Agrees ↔
      (FactoryCall.wrappedArrays order arrays).Fine := by
  have small : ∀ array ∈ arrays.list, ((cells array).length : Int) ≤ maxInt := inRange
  cases arrays with
  | two first second =>
      change Holds order (joined [first, second]) (wrappedTwo order first second) ↔ _ ∧ _
      have makes : Makes (if (cells first).isEmpty ∨ (cells second).isEmpty then order else .big)
          (joined [first, second]) (wrappedTwo order first second) := makes_wrappedTwo small
      rw [makes.holds_iff]
      apply and_congr_right
      intro _
      rw [joined_two]
      dsimp only
      cases firstNone : cells first with
      | nil =>
          cases secondNone : cells second with
          | nil => simp
          | cons byte bytes => simp
      | cons byte bytes =>
          cases secondNone : cells second with
          | nil => simp
          | cons byte bytes => simp
  | three first second third => exact (makes_wrappedMore small).holds_same_iff
  | four first second third fourth => exact (makes_wrappedMore small).holds_same_iff
  | vector arrays => exact (makes_wrappedArrays small).holds_same_iff

end ArrayCalls

section Copies

variable {order : ByteOrder} {buffer : ChannelBuffer}

/-- One of the buffers a copy is gathered from. -/
inductive Gathers (order : ByteOrder) : ChannelBuffer → CharArray → Prop where
  | none : Gathers order emptyBuffer []
  | copy {copied : ChannelBuffer} {bytes : CharArray} (is : IsCopy order bytes copied)
      (some_ : 0 < bytes.length) (small : (bytes.length : Int) ≤ maxInt) :
      Gathers order copied bytes

theorem wraps_of_copy {bytes : CharArray} (is : IsCopy order bytes buffer)
    (some_ : 0 < bytes.length) (small : (bytes.length : Int) ≤ maxInt) :
    Wraps order buffer bytes := by
  have fresh := is.fresh small
  have shown := is.content
  have count := fresh.readableBytes
  have readable : buffer.readable = true := by
    unfold ChannelBuffer.readable
    rw [count, shown]
    exact decide_eq_true (by omega)
  have cuts : buffer.Cuts := by
    cases is with
    | heap => exact heap_cuts fresh.built
    | dynamic factory => exact dynamic_cuts fresh.built
  obtain ⟨part, cut, new, same⟩ := cuts 0 bytes.length some_ (by rw [shown]; omega)
  have parts : wrapParts buffer = .ok [part] := by
    have sliced : buffer.slice buffer.readerIdx buffer.readableBytes = .ok part := by
      rw [fresh.reader, count, shown]
      exact cut
    cases is with
    | heap =>
        unfold wrapParts
        dsimp only
        rw [sliced]
        rfl
    | dynamic factory =>
        unfold wrapParts
        dsimp only
        rw [sliced]
        rfl
  have bytes_ : componentContent [part] = bytes := by
    rw [componentContent, componentContent, List.append_nil, same, shown, window_whole]
  rw [← bytes_]
  apply Wraps.taken readable fresh.ordered parts
  intro other among
  rw [List.mem_singleton.mp among, ← fresh.ordered]
  exact new

theorem Gathers.wraps {bytes : CharArray} (gathers : Gathers order buffer bytes) :
    Wraps order buffer bytes := by
  cases gathers with
  | none => exact .skipped rfl
  | copy is some_ small => exact wraps_of_copy is some_ small

section

variable {buffers : List ChannelBuffer} {contents : List CharArray}
  (gathers : List.Forall₂ (Gathers order) buffers contents)

include gathers

/-- What is gathered is one of the buffers, or wraps them. -/
theorem gathered_run (small : (contents.flatten.length : Int) ≤ maxInt) :
    ∃ buffer, gathered buffers = .ok buffer ∧ buffer.readableContent = contents.flatten ∧
      (contents.flatten ≠ [] → buffer.order = order) := by
  have wraps : List.Forall₂ (Wraps order) buffers contents :=
    gathers.imp fun _ _ here => here.wraps
  cases gathers with
  | nil => exact ⟨emptyBuffer, rfl, rfl, fun some_ => absurd rfl some_⟩
  | @cons first bytes rest behind here later =>
      cases later with
      | nil =>
          rw [List.flatten_singleton] at small ⊢
          refine ⟨first, rfl, ?_⟩
          cases here with
          | none => exact ⟨rfl, fun some_ => absurd rfl some_⟩
          | copy is some_ little =>
              have fresh := is.fresh little
              exact ⟨by rw [fresh.readableContent, is.content], fun _ => fresh.ordered⟩
      | cons next more => exact wrappedBuffers_run wraps small

theorem gathered_beyond
    (beyond : maxInt < (contents.flatten.length : Int)) (buffer : ChannelBuffer) :
    gathered buffers ≠ .ok buffer := by
  have limit : maxInt = 2147483647 := rfl
  have wraps : List.Forall₂ (Wraps order) buffers contents :=
    gathers.imp fun _ _ here => here.wraps
  cases gathers with
  | nil =>
      rw [List.flatten_nil, List.length_nil] at beyond
      omega
  | @cons first bytes rest behind here later =>
      cases later with
      | nil =>
          rw [List.flatten_singleton] at beyond
          cases here with
          | none =>
              rw [List.length_nil] at beyond
              omega
          | copy is some_ little => omega
      | cons next more => exact wrappedBuffers_beyond wraps beyond buffer

end

/-- Copies gathered of readable bytes. -/
def Gathered (order : ByteOrder) (buffers : List ChannelBuffer) (bytes : CharArray) : Prop :=
  ∃ contents, List.Forall₂ (Gathers order) buffers contents ∧ contents.flatten = bytes

theorem Gathered.append {first second : List ChannelBuffer} {front back : CharArray}
    (here : Gathered order first front) (later : Gathered order second back) :
    Gathered order (first ++ second) (front ++ back) := by
  obtain ⟨contents, gathers, rfl⟩ := here
  obtain ⟨others, more, rfl⟩ := later
  exact ⟨contents ++ others, List.rel_append gathers more, List.flatten_append⟩

theorem gathered_nil : Gathered order [] [] := ⟨[], .nil, rfl⟩

theorem gathered_one {bytes : CharArray} (gathers : Gathers order buffer bytes) :
    Gathered order [buffer] bytes := ⟨[bytes], .cons gathers .nil, List.flatten_singleton⟩

section

variable (built : buffer.WellBuilt)

include built

/-- Where the readable bytes of a buffer lie that has some. -/
theorem readable_window (readable : buffer.readable = true) :
    ∃ reader count : Nat, buffer.readerIdx = reader ∧ buffer.readableBytes = (count : Int) ∧
      buffer.readableContent = window buffer.content reader count ∧
      reader + count ≤ buffer.content.length ∧ 0 < count := by
  obtain ⟨reader, count, start, amount, bytes, inside⟩ := built.readable
  refine ⟨reader, count, start, amount, bytes, inside, ?_⟩
  unfold ChannelBuffer.readable at readable
  rw [amount, decide_eq_true_eq] at readable
  omega

theorem unreadable_content (unreadable : buffer.readable = false) :
    buffer.readableContent = [] := by
  obtain ⟨reader, count, start, amount, bytes, inside⟩ := built.readable
  unfold ChannelBuffer.readable at unreadable
  rw [amount, decide_eq_false_iff_not] at unreadable
  rw [bytes, show count = 0 by omega, window_zero_count]

theorem readableCopy_run (readable : buffer.readable = true)
    (taken : copyable buffer = true) : ∃ copied, buffer.readableCopy = .ok copied ∧
      copied.order = buffer.order ∧ Gathers buffer.order copied buffer.readableContent := by
  obtain ⟨reader, count, start, amount, bytes, inside, some_⟩ := readable_window built readable
  unfold copyable at taken
  rw [start, amount, Int.toNat_natCast, Int.toNat_natCast] at taken
  obtain ⟨copied, run, is⟩ := built.copies.taken reader count some_ inside taken
  have small := built.answers.small
  have size : (window buffer.content reader count).length = count := window_length inside
  have little : ((window buffer.content reader count).length : Int) ≤ maxInt := by
    rw [size]
    omega
  unfold readableCopy
  rw [start, amount, bytes]
  exact ⟨copied, run, (is.fresh little).ordered, .copy is (by rw [size]; exact some_) little⟩

theorem copyable_of_run (readable : buffer.readable = true)
    {copied : ChannelBuffer} (run : buffer.readableCopy = .ok copied) : copyable buffer = true := by
  obtain ⟨reader, count, start, amount, bytes, inside, some_⟩ := readable_window built readable
  by_contra refused
  rw [Bool.not_eq_true] at refused
  unfold copyable at refused
  rw [start, amount, Int.toNat_natCast, Int.toNat_natCast] at refused
  unfold readableCopy at run
  rw [start, amount, built.copies.refused reader count some_ inside refused] at run
  cases run

end

section

variable {step : List ChannelBuffer → ChannelBuffer → Except Stop (List ChannelBuffer)}
  (Kept : List ChannelBuffer → Prop)

include Kept

variable {inputs : List ChannelBuffer}

/-- Copies gathered input by input, under what the step keeps of the list. -/
theorem foldlM_gathers (one : ∀ buffer ∈ inputs, ∀ buffs, Kept buffs → ∃ copies, step buffs buffer =
      .ok (buffs ++ copies) ∧ Kept (buffs ++ copies) ∧
      Gathered order copies buffer.readableContent)
    {buffs : List ChannelBuffer} (start : Kept buffs) :
    ∃ copies, inputs.foldlM step buffs = .ok (buffs ++ copies) ∧
      Gathered order copies (readableJoined inputs) := by
  induction inputs generalizing buffs with
  | nil =>
      refine ⟨[], ?_, gathered_nil⟩
      rw [List.append_nil]
      rfl
  | cons input rest ih =>
      obtain ⟨copies, run, kept, gathers⟩ := one input List.mem_cons_self buffs start
      obtain ⟨later, more, others⟩ :=
        ih (fun other among => one other (List.mem_cons_of_mem _ among)) kept
      refine ⟨copies ++ later, ?_, ?_⟩
      · rw [List.foldlM_cons, run, ok_bind, more, List.append_assoc]
      · unfold readableJoined
        rw [List.map_cons, List.flatten_cons]
        exact gathers.append others

/-- A loop that returned has made every step. -/
theorem foldlM_steps (kept : ∀ buffs buffer after, Kept buffs → step buffs buffer = .ok after → Kept after) {buffs final : List ChannelBuffer} (start : Kept buffs)
    (run : inputs.foldlM step buffs = .ok final) :
    ∀ buffer ∈ inputs, ∃ before after, Kept before ∧ step before buffer = .ok after := by
  induction inputs generalizing buffs with
  | nil =>
      intro buffer among
      cases among
  | cons input rest ih =>
      rw [List.foldlM_cons] at run
      cases here : step buffs input with
      | error stop =>
          rw [here] at run
          cases run
      | ok after =>
          rw [here] at run
          intro buffer among
          rcases List.mem_cons.mp among with first | later
          · rw [first]
            exact ⟨buffs, after, start, here⟩
          · exact ih (kept buffs input after start here) run buffer later

end

end Copies

section BufferCalls

variable {order : ByteOrder} {inputs : List ChannelBuffer}

/-- Inputs whose readable ones have one order. -/
structure Inputs (order : ByteOrder) (inputs : List ChannelBuffer) : Prop where
  built : ∀ buffer ∈ inputs, buffer.WellBuilt
  ordered : ∀ buffer ∈ inputs, buffer.readable = true → buffer.order = order

/-- All readable bytes can be taken. -/
def Copyable (inputs : List ChannelBuffer) : Prop :=
  ∀ buffer ∈ inputs, buffer.readable = true → copyable buffer = true

/-- What a `copiedBuffer` for buffers returns, and what it takes for that. -/
structure Joins (order : ByteOrder) (inputs : List ChannelBuffer) (further : Prop)
    (result : Except Stop ChannelBuffer) : Prop where
  holds : ((readableJoined inputs).length : Int) ≤ maxInt → Copyable inputs → further →
    ∃ buffer, result = .ok buffer ∧ buffer.readableContent = readableJoined inputs ∧
      (readableJoined inputs ≠ [] → buffer.order = order)
  needs : ∀ buffer, result = .ok buffer →
    ((readableJoined inputs).length : Int) ≤ maxInt ∧ Copyable inputs ∧ further

section

variable {buffer : ChannelBuffer} (built : buffer.WellBuilt)
  (ordered : buffer.readable = true → buffer.order = order)
  (taken : buffer.readable = true → copyable buffer = true)

include built ordered taken

theorem copiedOne_run : ∃ copied,
    copiedOne buffer = .ok copied ∧ Gathers order copied buffer.readableContent := by
  unfold copiedOne
  cases readable : buffer.readable with
  | false =>
      rw [if_neg (by decide), unreadable_content built readable]
      exact ⟨emptyBuffer, rfl, .none⟩
  | true =>
      obtain ⟨copied, run, -, gathers⟩ := readableCopy_run built readable (taken readable)
      rw [ordered readable] at gathers
      rw [if_pos rfl]
      exact ⟨copied, run, gathers⟩

theorem collect_run {buffs : List ChannelBuffer}
    (same : ∀ other ∈ buffs, other.order = order) :
    ∃ copies, collect buffs buffer = .ok (buffs ++ copies) ∧
      (∀ other ∈ buffs ++ copies, other.order = order) ∧
      Gathered order copies buffer.readableContent := by
  unfold collect
  cases readable : buffer.readable with
  | false =>
      rw [if_neg (by decide), unreadable_content built readable]
      refine ⟨[], ?_, ?_, gathered_nil⟩
      · rw [List.append_nil]
        rfl
      · rw [List.append_nil]
        exact same
  | true =>
      obtain ⟨copied, run, direct, gathers⟩ := readableCopy_run built readable (taken readable)
      rw [ordered readable] at direct gathers
      have equal := differs_of_same same (ordered readable)
      rw [if_pos rfl, equal, if_neg (by rintro ⟨-, wrong⟩; cases wrong), run]
      refine ⟨[copied], rfl, ?_, gathered_one gathers⟩
      intro other among
      rcases List.mem_append.mp among with before | added
      · exact same other before
      · rw [List.mem_singleton.mp added]
        exact direct

end

variable {buffs final : List ChannelBuffer} {buffers : Operands ChannelBuffer}

/-- What a step that returned has copied. -/
theorem collect_copies {after : List ChannelBuffer} {buffer : ChannelBuffer}
    (readable : buffer.readable = true) (run : collect buffs buffer = .ok after) :
    ∃ copied, buffer.readableCopy = .ok copied := by
  unfold collect at run
  rw [if_pos readable] at run
  by_cases wrong : 1 < buffs.length ∧ differs buffs buffer = true
  · rw [if_pos wrong] at run
    cases run
  · rw [if_neg wrong] at run
    cases copied : buffer.readableCopy with
    | error stop =>
        rw [copied] at run
        cases run
    | ok copy => exact ⟨copy, rfl⟩

theorem copiedMoreBuffers_joins (given : Inputs order inputs) :
    Joins order inputs True (copiedMoreBuffers inputs) := by
  have copies (taken : Copyable inputs) : ∃ copies, inputs.foldlM collect [] = .ok copies ∧
      Gathered order copies (readableJoined inputs) := by
    have none : ∀ other ∈ ([] : List ChannelBuffer), other.order = order := by
      intro other among
      cases among
    exact foldlM_gathers (fun buffs => ∀ other ∈ buffs, other.order = order)
      (fun buffer among buffs same => collect_run (given.built buffer among)
        (given.ordered buffer among) (taken buffer among) same) none
  unfold copiedMoreBuffers
  constructor
  · intro small taken _
    obtain ⟨copied, run, contents, gathers, bytes⟩ := copies taken
    rw [← bytes] at small ⊢
    rw [run, ok_bind]
    exact gathered_run gathers small
  · intro buffer made
    cases run : inputs.foldlM collect [] with
    | error stop =>
        rw [run] at made
        cases made
    | ok final =>
        have taken : Copyable inputs := by
          intro input among readable
          obtain ⟨before, after, -, here⟩ :=
            foldlM_steps (fun _ => True) (fun _ _ _ _ _ => trivial) trivial run input among
          obtain ⟨copied, copy⟩ := collect_copies readable here
          exact copyable_of_run (given.built input among) readable copy
        obtain ⟨copied, same, contents, gathers, bytes⟩ := copies taken
        refine ⟨?_, taken, trivial⟩
        by_contra beyond
        rw [same, ok_bind] at made
        rw [← bytes] at beyond
        exact gathered_beyond gathers (by omega) buffer made

/-- The step of the overload for a vector. -/
theorem collectAll_run {buffer first : ChannelBuffer} {tail : List ChannelBuffer}
    (built : buffer.WellBuilt) (ordered : buffer.readable = true → buffer.order = order)
    (taken : buffer.readable = true → copyable buffer = true) (same : buffer.order = first.order) :
    ∃ copies, collectAll (first :: tail) buffer = .ok (first :: tail ++ copies) ∧
      (∃ longer, first :: tail ++ copies = first :: longer) ∧
      Gathered order copies buffer.readableContent := by
  obtain ⟨copied, run, gathers⟩ := copiedOne_run built ordered taken
  have equal : differs (first :: tail) buffer = false := by
    unfold differs
    dsimp only
    rw [same, bne_self_eq_false]
  refine ⟨[copied], ?_, ⟨tail ++ [copied], rfl⟩, gathered_one gathers⟩
  unfold collectAll
  rw [equal, run]
  rfl

theorem collectAll_steps {buffer : ChannelBuffer} {after : List ChannelBuffer}
    (run : collectAll buffs buffer = .ok after) : differs buffs buffer = false ∧
      ∃ copied, copiedOne buffer = .ok copied ∧ after = buffs ++ [copied] := by
  unfold collectAll at run
  cases same : differs buffs buffer with
  | true =>
      rw [same] at run
      cases run
  | false =>
      rw [same] at run
      cases copied : copiedOne buffer with
      | error stop =>
          rw [copied] at run
          cases run
      | ok copy =>
          rw [copied] at run
          cases run
          exact ⟨rfl, copy, rfl, rfl⟩

/-- The order of what is kept for the first buffer. -/
theorem copiedOne_order {buffer copied : ChannelBuffer} (built : buffer.WellBuilt)
    (run : copiedOne buffer = .ok copied) :
    (buffer.readable = true → copyable buffer = true) ∧
      copied.order = if buffer.readable then buffer.order else .big := by
  unfold copiedOne at run
  cases readable : buffer.readable with
  | false =>
      rw [readable] at run
      cases run
      refine ⟨?_, rfl⟩
      intro wrong
      cases wrong
  | true =>
      rw [if_pos readable] at run
      have taken := copyable_of_run built readable run
      obtain ⟨copy, same, direct, -⟩ := readableCopy_run built readable taken
      rw [same] at run
      cases run
      exact ⟨fun _ => taken, direct⟩

theorem collectAll_cons (first : ChannelBuffer) (rest : List ChannelBuffer) :
    (first :: rest).foldlM collectAll [] = (do
      let copied ← copiedOne first
      rest.foldlM collectAll [copied]) := by
  rw [List.foldlM_cons]
  unfold collectAll
  cases copiedOne first with
  | error stop => rfl
  | ok copied => rfl

/-- The buffers behind the first one, whose copy is in the list. -/
theorem collectAll_behind {copied : ChannelBuffer} (given : Inputs order inputs)
    (taken : Copyable inputs) (follow : ∀ later ∈ inputs, later.order = copied.order) :
    ∃ others, inputs.foldlM collectAll [copied] = .ok (copied :: others) ∧
      Gathered order others (readableJoined inputs) := by
  apply foldlM_gathers (fun buffs => ∃ tail, buffs = copied :: tail)
  · rintro buffer among - ⟨tail, rfl⟩
    exact collectAll_run (given.built buffer among) (given.ordered buffer among)
      (taken buffer among) (follow buffer among)
  · exact ⟨[], rfl⟩

theorem collectAll_followed {copied : ChannelBuffer}
    (run : inputs.foldlM collectAll [copied] = .ok final) :
    ∀ later ∈ inputs, later.order = copied.order ∧ ∃ copy, copiedOne later = .ok copy := by
  have kept : ∀ buffs buffer after, (∃ tail, buffs = copied :: tail) →
      collectAll buffs buffer = .ok after → ∃ tail, after = copied :: tail := by
    rintro - buffer after ⟨tail, rfl⟩ here
    obtain ⟨-, copy, -, rfl⟩ := collectAll_steps here
    exact ⟨tail ++ [copy], rfl⟩
  intro later among
  obtain ⟨-, after, ⟨tail, rfl⟩, here⟩ :=
    foldlM_steps (fun buffs => ∃ tail, buffs = copied :: tail) kept ⟨[], rfl⟩ run later among
  obtain ⟨same, copy, one, -⟩ := collectAll_steps here
  unfold differs at same
  dsimp only at same
  rw [bne_eq_false_iff_eq] at same
  exact ⟨same, copy, one⟩

theorem collectAll_copies (given : Inputs order inputs) (taken : Copyable inputs)
    (follow : FollowFirst inputs) : ∃ copies, inputs.foldlM collectAll [] = .ok copies ∧
      Gathered order copies (readableJoined inputs) := by
  cases inputs with
  | nil => exact ⟨[], rfl, gathered_nil⟩
  | cons first rest =>
      have built := given.built first List.mem_cons_self
      obtain ⟨copied, run, gathers⟩ := copiedOne_run built (given.ordered first List.mem_cons_self)
        (taken first List.mem_cons_self)
      have head := (copiedOne_order built run).right
      have behind : Inputs order rest :=
        ⟨fun buffer among => given.built buffer (List.mem_cons_of_mem _ among),
          fun buffer among => given.ordered buffer (List.mem_cons_of_mem _ among)⟩
      obtain ⟨others, more, later⟩ := collectAll_behind behind
        (fun buffer among => taken buffer (List.mem_cons_of_mem _ among))
        (fun buffer among => by rw [head]; exact follow buffer among)
      refine ⟨copied :: others, ?_, ?_⟩
      · rw [collectAll_cons, run, ok_bind, more]
      · unfold readableJoined
        rw [List.map_cons, List.flatten_cons]
        exact (gathered_one gathers).append later

theorem collectAll_needs (built : ∀ buffer ∈ inputs, buffer.WellBuilt)
    (run : inputs.foldlM collectAll [] = .ok final) : Copyable inputs ∧ FollowFirst inputs := by
  cases inputs with
  | nil =>
      refine ⟨?_, trivial⟩
      intro buffer among
      cases among
  | cons first rest =>
      rw [collectAll_cons] at run
      cases copy : copiedOne first with
      | error stop =>
          rw [copy] at run
          cases run
      | ok copied =>
          rw [copy] at run
          obtain ⟨front, head⟩ := copiedOne_order (built first List.mem_cons_self) copy
          have followed := collectAll_followed run
          constructor
          · intro input among
            rcases List.mem_cons.mp among with here | later
            · rw [here]
              exact front
            · obtain ⟨-, one, same⟩ := followed input later
              exact (copiedOne_order (built input among) same).left
          · intro later among
            rw [(followed later among).left, head]

theorem copiedBuffers_joins (given : Inputs order inputs) :
    Joins order inputs (FollowFirst inputs) (copiedBuffers inputs) := by
  unfold copiedBuffers
  constructor
  · intro small taken follow
    obtain ⟨copied, run, contents, gathers, bytes⟩ := collectAll_copies given taken follow
    rw [← bytes] at small ⊢
    rw [run, ok_bind]
    exact gathered_run gathers small
  · intro buffer made
    cases run : inputs.foldlM collectAll [] with
    | error stop =>
        rw [run] at made
        cases made
    | ok final =>
        obtain ⟨taken, follow⟩ := collectAll_needs given.built run
        obtain ⟨copied, same, contents, gathers, bytes⟩ := collectAll_copies given taken follow
        refine ⟨?_, taken, follow⟩
        by_contra beyond
        rw [run] at same
        cases same
        rw [run, ok_bind] at made
        rw [← bytes] at beyond
        exact gathered_beyond gathers (by omega) buffer made

theorem wrapFrom_filter (buffs inputs : List ChannelBuffer) :
    wrapFrom buffs (inputs.filter readable) = wrapFrom buffs inputs := by
  induction inputs generalizing buffs with
  | nil => rfl
  | cons input rest ih =>
      cases shape : input.readable with
      | false =>
          rw [List.filter_cons_of_neg (by rw [shape]; decide), ih, wrapFrom, shape]
          rfl
      | true =>
          rw [List.filter_cons_of_pos shape, wrapFrom, wrapFrom]
          simp only [ih]

theorem wrappedTwoBuffers_eq (buffer0 buffer1 : ChannelBuffer) :
    wrappedTwoBuffers buffer0 buffer1 = wrappedBuffers [buffer0, buffer1] := by
  have same : wrappedBuffers ([buffer0, buffer1].filter readable) =
      wrappedBuffers [buffer0, buffer1] := by
    unfold wrappedBuffers
    rw [wrapFrom_filter]
  rw [← same]
  unfold wrappedTwoBuffers
  cases [buffer0, buffer1].filter readable with
  | nil => rfl
  | cons first rest => rfl

theorem collect_skip {buffer : ChannelBuffer} (unreadable : buffer.readable = false)
    (buffs : List ChannelBuffer) : collect buffs buffer = .ok buffs := by
  unfold collect
  rw [unreadable]
  rfl

/-- Behind at most one buffer the order is not compared. -/
theorem collect_short {buffer : ChannelBuffer}
    (readable : buffer.readable = true) (short : buffs.length ≤ 1) :
    collect buffs buffer = (do
      let copied ← buffer.readableCopy
      pure (buffs ++ [copied])) := by
  unfold collect
  rw [if_pos readable, if_neg (by omega)]

/-- Where the orders agree the overload for two does what those for more buffers do. -/
theorem copiedTwoBuffers_eq {buffer0 buffer1 : ChannelBuffer}
    (same : buffer0.readable = true → buffer1.readable = true → buffer1.order = buffer0.order) :
    copiedTwoBuffers buffer0 buffer1 = copiedMoreBuffers [buffer0, buffer1] := by
  have none : ([] : List ChannelBuffer).length ≤ 1 := Nat.zero_le 1
  unfold copiedTwoBuffers copiedOne copiedMoreBuffers
  cases front : buffer0.readable with
  | false =>
      rw [List.foldlM_cons, collect_skip front, ok_bind, List.foldlM_cons]
      cases back : buffer1.readable with
      | false =>
          rw [collect_skip back]
          rfl
      | true =>
          rw [collect_short back none]
          cases buffer1.readableCopy with
          | error stop => rfl
          | ok copied => rfl
  | true =>
      rw [List.foldlM_cons, collect_short front none]
      cases buffer0.readableCopy with
      | error stop =>
          cases back : buffer1.readable with
          | false => rfl
          | true =>
              rw [if_pos rfl, if_pos rfl, if_neg (by rw [same front back]; exact fun wrong => wrong rfl)]
              rfl
      | ok copied0 =>
          cases back : buffer1.readable with
          | false =>
              rw [if_pos rfl, if_neg (by decide)]
              change .ok copied0 = (([buffer1].foldlM collect [copied0]) >>= gathered)
              rw [List.foldlM_cons, collect_skip back]
              rfl
          | true =>
              rw [if_pos rfl, if_pos rfl, if_neg (by rw [same front back]; exact fun wrong => wrong rfl)]
              change (buffer1.readableCopy >>= wrappedTwoBuffers copied0) =
                (([buffer1].foldlM collect [copied0]) >>= gathered)
              have single : [copied0].length ≤ 1 := Nat.le_refl 1
              rw [List.foldlM_cons, collect_short back single]
              cases buffer1.readableCopy with
              | error stop => rfl
              | ok copied1 => exact wrappedTwoBuffers_eq copied0 copied1

theorem copiedTwoBuffers_joins {buffer0 buffer1 : ChannelBuffer}
    (given : Inputs order [buffer0, buffer1]) :
    Joins order [buffer0, buffer1] True (copiedTwoBuffers buffer0 buffer1) := by
  have first := given.ordered buffer0 List.mem_cons_self
  have second := given.ordered buffer1 (List.mem_cons_of_mem _ List.mem_cons_self)
  rw [copiedTwoBuffers_eq fun front back => (second back).trans (first front).symm]
  exact copiedMoreBuffers_joins given

/-- What each overload for buffers takes besides. -/
def Further : Operands ChannelBuffer → Prop
  | .vector buffers => FollowFirst buffers
  | _ => True

theorem copiedBuffers_call (given : Inputs order buffers.list) :
    Joins order buffers.list (Further buffers) (FactoryCall.copiedBuffers buffers).run := by
  cases buffers with
  | two first second => exact copiedTwoBuffers_joins given
  | three first second third => exact copiedMoreBuffers_joins given
  | four first second third fourth => exact copiedMoreBuffers_joins given
  | vector buffers => exact copiedBuffers_joins given

/-- An order that the readable buffers share. -/
theorem common_order {buffers : List ChannelBuffer} (one : OneOrder buffers) :
    ∃ order, ∀ buffer ∈ buffers, buffer.readable = true → buffer.order = order := by
  by_cases some_ : ∃ buffer ∈ buffers, buffer.readable = true
  · obtain ⟨first, among, readable⟩ := some_
    exact ⟨first.order, fun buffer there shown => one buffer there first among shown readable⟩
  · refine ⟨.big, fun buffer there shown => ?_⟩
    exact absurd ⟨buffer, there, shown⟩ some_

theorem copiedBuffers_agrees_iff (inRange : (FactoryCall.copiedBuffers buffers).InRange) :
    (FactoryCall.copiedBuffers buffers).Agrees ↔ (FactoryCall.copiedBuffers buffers).Fine := by
  have built : ∀ buffer ∈ buffers.list, buffer.WellBuilt := inRange
  have joins {order : ByteOrder}
      (ordered : ∀ buffer ∈ buffers.list, buffer.readable = true → buffer.order = order) :
      Joins order buffers.list (Further buffers) (FactoryCall.copiedBuffers buffers).run :=
    copiedBuffers_call ⟨built, ordered⟩
  have same : (FactoryCall.copiedBuffers buffers).Fine ↔ (OneOrder buffers.list →
      ((readableJoined buffers.list).length : Int) ≤ maxInt ∧ Copyable buffers.list ∧
        Further buffers) := by
    cases buffers <;> rfl
  rw [same]
  constructor
  · rintro ⟨holds, -⟩ one
    obtain ⟨order, ordered⟩ := common_order one
    obtain ⟨buffer, run, -⟩ := holds order ordered
    exact (joins ordered).needs buffer run
  · intro fine
    constructor
    · intro order ordered
      have one : OneOrder buffers.list := by
        intro first among second there readable shown
        rw [ordered first among readable, ordered second there shown]
      obtain ⟨small, taken, further⟩ := fine one
      exact (joins ordered).holds small taken further
    · intro failed one
      obtain ⟨order, ordered⟩ := common_order one
      obtain ⟨small, taken, further⟩ := fine one
      obtain ⟨buffer, run, -⟩ := (joins ordered).holds small taken further
      rw [run] at failed
      cases failed

end BufferCalls

/-- The factory methods do what they are documented to do exactly where nothing of this is in
the way: a part of an array, two arrays with bytes in little-endian order, no bytes in
little-endian order, an array that points nowhere, a composite buffer that does not hand its
bytes out, an unreadable buffer of another order in a vector. -/
theorem factory_agrees_iff {call : FactoryCall} (inRange : call.InRange) :
    call.Agrees ↔ call.Fine := by
  cases call with
  | copiedRange order array offset length => exact copiedRange_agrees_iff inRange
  | copiedArrays order arrays => exact copiedArrays_agrees_iff inRange
  | wrappedArrays order arrays => exact wrappedArrays_agrees_iff inRange
  | copiedBuffers buffers => exact copiedBuffers_agrees_iff inRange

theorem whole_range_agrees : (FactoryCall.copiedRange .little (some [7, 9]) 0 2).InRange ∧
    (FactoryCall.copiedRange .little (some [7, 9]) 0 2).Agrees := by
  have inRange : (FactoryCall.copiedRange .little (some [7, 9]) 0 2).InRange :=
    ⟨by decide, by decide, by decide, by decide⟩
  exact ⟨inRange, (factory_agrees_iff inRange).mpr ⟨rfl, rfl⟩⟩

/-- A little-endian buffer of two bytes of which those from `reader` on are readable. -/
def littlePair (reader : Int) : ChannelBuffer := heap ⟨.little, [7, 9], ⟨reader, 2, 0, 0⟩⟩

theorem littlePair_built {reader : Int} (lower : 0 ≤ reader) (upper : reader ≤ 2) :
    (littlePair reader).WellBuilt :=
  .heap (show (2 : Int) ≤ maxInt by decide) ⟨lower, upper, Int.le_refl 2⟩

theorem littlePair_order (reader : Int) : (littlePair reader).order = .little := by
  unfold littlePair order
  rw [getters]
  rfl

/-- The second of three bytes is asked for and all are copied; two little-endian arrays make a
big-endian buffer; a read out buffer before another one of its order is refused. -/
theorem factory_disagrees :
    ((FactoryCall.copiedRange .big (some [7, 8, 9]) 1 1).InRange ∧
      ¬ (FactoryCall.copiedRange .big (some [7, 8, 9]) 1 1).Agrees) ∧
    ((FactoryCall.wrappedArrays .little (.two (some [7]) (some [9]))).InRange ∧
      ¬ (FactoryCall.wrappedArrays .little (.two (some [7]) (some [9]))).Agrees) ∧
    ((FactoryCall.copiedBuffers (.vector [littlePair 2, littlePair 0])).InRange ∧
      ¬ (FactoryCall.copiedBuffers (.vector [littlePair 2, littlePair 0])).Agrees) := by
  refine ⟨?_, ?_, ?_⟩
  · have inRange : (FactoryCall.copiedRange .big (some [7, 8, 9]) 1 1).InRange :=
      ⟨by decide, by decide, by decide, by decide⟩
    refine ⟨inRange, fun agrees => ?_⟩
    have fine := (copiedRange_agrees_iff inRange).mp agrees
    exact absurd fine.left (by decide)
  · have inRange : (FactoryCall.wrappedArrays .little (.two (some [7]) (some [9]))).InRange := by
      intro array among
      rcases List.mem_cons.mp among with rfl | later
      · decide
      · rw [List.mem_singleton.mp later]
        decide
    refine ⟨inRange, fun agrees => ?_⟩
    have fine := (wrappedArrays_agrees_iff inRange).mp agrees
    exact absurd fine.right (by decide)
  · have inRange : (FactoryCall.copiedBuffers (.vector [littlePair 2, littlePair 0])).InRange := by
      intro buffer among
      rcases List.mem_cons.mp among with rfl | later
      · exact littlePair_built (by decide) (by decide)
      · rw [List.mem_singleton.mp later]
        exact littlePair_built (by decide) (by decide)
    refine ⟨inRange, fun agrees => ?_⟩
    have fine := (copiedBuffers_agrees_iff inRange).mp agrees
    have one : OneOrder [littlePair 2, littlePair 0] := by
      intro first among second there _ _
      have little : ∀ buffer ∈ [littlePair 2, littlePair 0], buffer.order = .little := by
        intro buffer here
        rcases List.mem_cons.mp here with rfl | later
        · exact littlePair_order 2
        · rw [List.mem_singleton.mp later]
          exact littlePair_order 0
      rw [little first among, little second there]
    have follow : FollowFirst [littlePair 2, littlePair 0] := (fine one).right.right
    have big : (littlePair 0).order = .big := follow (littlePair 0) List.mem_cons_self
    rw [littlePair_order] at big
    cases big

end ChannelBuffers

end Cetty
