import Cetty.ReplayingDecoderBuffer
import Cetty.TwinBuffers

/-!
# What a replaying decoder is told about missing bytes

An operation is compared with itself on a buffer whose cells from the writer index on hold anything
else, and the flag with the bytes the operations of a decode call have asked for.
-/

namespace Cetty

open MachineInt ByteWindow

namespace ReplayingDecoderBuffer

open ChannelBuffer

section Steps

variable {this : ReplayingDecoderBuffer} {second : ChannelBuffer} {needs : Prop} {Value Next : Type}

/-- Through either buffer the operation ends in the same way, and the flag it leaves is about `needs`. -/
def Faithful (this : ReplayingDecoderBuffer) (second : ChannelBuffer) (needs : Prop)
    (program : ReplayM Value) : Prop :=
  ∃ (outcome : Except Stop Value) (flag : Bool) (idx : Indices),
    program.run this =
        ending outcome { this with needMore := flag, buffer := this.buffer.withIdx idx } ∧
      program.run { this with buffer := second } =
        ending outcome { this with needMore := flag, buffer := second.withIdx idx } ∧
      idx.Forward this.buffer.content.length ∧ (flag = true ↔ needs)

theorem Faithful.map {program : ReplayM Value} (faithful : Faithful this second needs program)
    (change : Value → Next) :
    Faithful this second needs (do return change (← program)) := by
  obtain ⟨outcome, flag, idx, one, other, forward, about⟩ := faithful
  exact ⟨outcome.map change, flag, idx, ending_map one change, ending_map other change, forward,
    about⟩

theorem Faithful.congr {program other : ReplayM Value}
    (faithful : Faithful this second needs other)
    (same : ∀ state, program.run state = other.run state) :
    Faithful this second needs program := by
  obtain ⟨outcome, flag, idx, first, last, forward, about⟩ := faithful
  exact ⟨outcome, flag, idx, (same _).trans first, (same _).trans last, forward, about⟩

theorem check_run (received : ChannelBuffer → Bool) (this : ReplayingDecoderBuffer) :
    (check received).run this =
      .ok (received this.buffer) { this with needMore := !received this.buffer } := rfl

theorem onBuffer_run {program : BufferM Value} {outcome : Except Stop Value}
    {after : ChannelBuffer} (ran : program.run this.buffer = ending outcome after) :
    (onBuffer program).run this = ending outcome { this with buffer := after } := by
  cases outcome with
  | ok value => exact run_focus_ok ran
  | error stop => exact run_focus_error ran

theorem guarded_short {received : ChannelBuffer → Bool} (short : received this.buffer = false)
    (program : BufferM Value) (otherwise : Value) :
    (guarded (check received) program otherwise).run this =
      .ok otherwise { this with needMore := true } := by
  unfold guarded
  rw [run_bind_ok _ (check_run received this), short]
  rfl

theorem guarded_passed (received : ChannelBuffer → Bool) {program : BufferM Value}
    {outcome : Except Stop Value} {after : ChannelBuffer}
    (enough : received this.buffer = true) (ran : program.run this.buffer = ending outcome after)
    (otherwise : Value) :
    (guarded (check received) program otherwise).run this =
      ending outcome { this with needMore := false, buffer := after } := by
  unfold guarded
  rw [run_bind_ok _ (check_run received this), enough, if_pos rfl]
  have passed : (onBuffer program).run { this with needMore := false } =
      ending outcome { this with needMore := false, buffer := after } := onBuffer_run ran
  exact passed

/-- A converted result is that of the converted program. -/
theorem guarded_map (received : ChannelBuffer → Bool) (program : BufferM Value)
    (otherwise : Value) (change : Value → Next) (this : ReplayingDecoderBuffer) :
    (do return change (← guarded (check received) program otherwise) : ReplayM Next).run this =
      (guarded (check received) (do return change (← program)) (change otherwise)).run this := by
  cases enough : received this.buffer with
  | false =>
      rw [guarded_short enough, run_bind_ok _ (guarded_short enough program otherwise)]
      rfl
  | true =>
      cases ran : program.run this.buffer with
      | ok value after =>
          have whole : program.run this.buffer = ending (.ok value) after := ran
          rw [ending_map (guarded_passed received enough whole otherwise) change,
            guarded_passed received enough (ending_map whole change) _]
      | error stop after =>
          have whole : program.run this.buffer = ending (.error stop) after := ran
          rw [ending_map (guarded_passed received enough whole otherwise) change,
            guarded_passed received enough (ending_map whole change) _]

theorem faithful_guarded {received : ChannelBuffer → Bool} {program : BufferM Value}
    {otherwise : Value} (forward : this.buffer.idx.Forward this.buffer.content.length)
    (idx : second.idx = this.buffer.idx) (same : received second = received this.buffer)
    (alike : received this.buffer = true → EndAlike this.buffer second program)
    (short : received this.buffer = false ↔ needs) :
    Faithful this second needs (guarded (check received) program otherwise) := by
  cases enough : received this.buffer with
  | false =>
      refine ⟨.ok otherwise, true, this.buffer.idx, ?_, ?_, forward, ?_⟩
      · rw [guarded_short enough, withIdx_idx]
        rfl
      · rw [← idx, withIdx_idx]
        exact guarded_short (same.trans enough) program otherwise
      · exact iff_of_true rfl (short.mp enough)
  | true =>
      obtain ⟨outcome, moved, one, other, kept⟩ := alike enough
      refine ⟨outcome, false, moved, guarded_passed received enough one otherwise,
        guarded_passed received (same.trans enough) other otherwise, kept, ?_⟩
      apply iff_of_false Bool.false_ne_true
      intro needed
      have missing := short.mpr needed
      rw [enough] at missing
      cases missing

variable {look : ChannelBuffer → Except Stop Int} {endIndex : Int}

theorem searched_run (found : look this.buffer = .ok endIndex) :
    (searched look).run this = .ok endIndex { this with needMore := decide (endIndex < 0) } := by
  unfold searched
  rw [run_bind_get]
  rw [found, run_bind_ok _ (run_call_ok _ _)]
  rfl

theorem faithful_searched (forward : this.buffer.idx.Forward this.buffer.content.length)
    (idx : second.idx = this.buffer.idx) (found : look this.buffer = .ok endIndex)
    (same : look second = .ok endIndex) (missing : endIndex < 0 ↔ needs) :
    Faithful this second needs (searched look) := by
  refine ⟨.ok endIndex, decide (endIndex < 0), this.buffer.idx, ?_, ?_, forward, ?_⟩
  · rw [searched_run found, withIdx_idx]
    rfl
  · rw [← idx, withIdx_idx]
    exact searched_run same
  · rw [decide_eq_true_iff]
    exact missing

/-- A search behind a check that has passed. -/
theorem faithful_within {received : ChannelBuffer → Bool}
    (forward : this.buffer.idx.Forward this.buffer.content.length)
    (idx : second.idx = this.buffer.idx) (same : received second = received this.buffer)
    (short : received this.buffer = false ↔ needs)
    (found : received this.buffer = true →
      ∃ endIndex : Nat, look this.buffer = .ok (endIndex : Int) ∧ look second = .ok (endIndex : Int)) :
    Faithful this second needs (do
      if ← check received then searched look else pure (-1)) := by
  cases enough : received this.buffer with
  | false =>
      refine ⟨.ok (-1), true, this.buffer.idx, ?_, ?_, forward, iff_of_true rfl (short.mp enough)⟩
      · rw [run_bind_ok _ (check_run received this), enough, withIdx_idx]
        rfl
      · rw [run_bind_ok _ (check_run received { this with buffer := second }), ← idx, withIdx_idx]
        dsimp only
        rw [same, enough]
        rfl
  | true =>
      obtain ⟨endIndex, one, other⟩ := found enough
      have some_ : decide ((endIndex : Int) < 0) = false := by
        rw [decide_eq_false_iff_not]
        omega
      refine ⟨.ok (endIndex : Int), false, this.buffer.idx, ?_, ?_, forward, ?_⟩
      · have ran : (searched look).run { this with needMore := false } = _ := searched_run one
        rw [run_bind_ok _ (check_run received this), enough, if_pos rfl, withIdx_idx]
        refine ran.trans ?_
        rw [some_]
        rfl
      · have ran : (searched look).run { this with needMore := false, buffer := second } = _ :=
          searched_run other
        rw [run_bind_ok _ (check_run received { this with buffer := second }), ← idx, withIdx_idx]
        dsimp only
        rw [same, enough, if_pos rfl]
        refine ran.trans ?_
        rw [some_]
        rfl
      · apply iff_of_false Bool.false_ne_true
        intro needed
        have missing := short.mpr needed
        rw [enough] at missing
        cases missing

end Steps

/-- The indices of the buffer are in order, but for a skip in front of its cells. -/
structure Held (this : ReplayingDecoderBuffer) : Prop where
  direct : this.buffer.Direct
  room : (this.buffer.content.length : Int) ≤ maxInt
  forward : this.buffer.idx.Forward this.buffer.content.length

section Held

variable {this : ReplayingDecoderBuffer}

theorem Held.received_length (held : this.Held) :
    (this.received.length : Int) = this.buffer.writerIdx := by
  have front : 0 ≤ this.buffer.writerIdx := held.forward.front
  have bound : this.buffer.writerIdx ≤ this.buffer.content.length := held.forward.bound
  unfold received
  rw [List.length_take]
  omega

section

variable {base : ChannelBuffer} (direct : base.Direct)

include direct

theorem direct_begins {count : Nat}
    (inside : count ≤ base.content.length) : base.getters.Begins (base.content.take count) := by
  have cell (arry : CharArray) (bounded : count ≤ arry.length) (i : Nat)
      (early : i < (arry.take count).length) : arry.at_ i = .ok ((arry.take count).getD i 0) := by
    rw [List.length_take] at early
    rw [CharArray.at_of_lt (by omega), List.getD_eq_getElem?_getD, List.getD_eq_getElem?_getD,
      List.getElem?_take_of_lt (by omega)]
  cases base with
  | heap buffer =>
      rw [content] at inside ⊢
      refine ⟨?_, cell buffer.arry inside⟩
      rw [getters, List.length_take]
      change ((min count buffer.arry.length : Nat) : Int) ≤ (buffer.arry.length : Int)
      omega
  | dynamic endianness factory buffer idx =>
      rw [content] at inside ⊢
      refine ⟨?_, cell buffer.arry inside⟩
      rw [getters, List.length_take]
      change ((min count buffer.arry.length : Nat) : Int) ≤ (buffer.arry.length : Int)
      omega
  | _ => exact direct.elim

theorem direct_withBytes (cells : CharArray) :
    (base.withBytes cells).Direct ∧ (base.withBytes cells).content = cells := by
  cases base with
  | heap buffer =>
      rw [withBytes, content]
      exact ⟨trivial, rfl⟩
  | dynamic endianness factory buffer idx =>
      rw [withBytes, content]
      exact ⟨trivial, rfl⟩
  | _ => exact direct.elim

theorem direct_withIdx (idx : Indices) :
    (base.withIdx idx).Direct := by
  cases base with
  | heap => exact trivial
  | dynamic => exact trivial
  | _ => exact direct.elim

end

theorem fetch_agree {getters other : Getters} {bound : Int} (agree : getters.AgreeBelow other bound)
    (kind : TypedRead) {index : Int} (below : index + kind.width ≤ bound) :
    kind.fetch getters index = kind.fetch other index := by
  cases kind with
  | byte =>
      have same := agree.byte index below
      unfold TypedRead.fetch
      dsimp only
      rw [same]
  | short =>
      have same := agree.short index below
      unfold TypedRead.fetch
      dsimp only
      rw [same]
  | medium =>
      have same := agree.medium index below
      unfold TypedRead.fetch
      dsimp only
      rw [same]
  | int =>
      have same := agree.int index below
      unfold TypedRead.fetch
      dsimp only
      rw [same]
  | long =>
      have same := agree.long index below
      unfold TypedRead.fetch
      dsimp only
      rw [same]

theorem Held.short_readable (held : this.Held)
    (small : this.buffer.writerIdx - this.buffer.readerIdx ≤ maxInt) (length : Int) :
    decide (length ≤ this.buffer.readableBytes) = false ↔
      ReplayCall.Beyond this this.buffer.readerIdx length := by
  have order : this.buffer.readerIdx ≤ this.buffer.writerIdx := held.forward.order
  rw [readable_exact held.forward small, decide_eq_false_iff_not]
  unfold ReplayCall.Beyond
  omega

section Calls

variable {second : ChannelBuffer} (held : this.Held) (twins : Twins this.buffer second)
  (shows : this.buffer.getters.Begins this.received) (same : second.getters.Begins this.received)

include held twins

theorem faithful_readable {Value : Type} {program : BufferM Value} (otherwise : Value)
    (small : this.buffer.writerIdx - this.buffer.readerIdx ≤ maxInt) (length : Int)
    (alike : length ≤ this.buffer.readableBytes → EndAlike this.buffer second program) :
    Faithful this second (ReplayCall.Beyond this this.buffer.readerIdx length)
      (guarded (checkReadableBytes length) program otherwise) := by
  unfold checkReadableBytes
  apply faithful_guarded held.forward twins.idx
  · rw [twin_readable twins]
  · intro enough
    exact alike (of_decide_eq_true enough)
  · exact held.short_readable small length

theorem faithful_range {Value : Type} {program : BufferM Value} (otherwise : Value)
    {index length : Int} (lower : minInt ≤ index + length) (upper : index + length ≤ maxInt)
    (proper : 0 < length ∨ index + length ≤ this.buffer.writerIdx)
    (alike : index + length ≤ this.buffer.writerIdx → EndAlike this.buffer second program) :
    Faithful this second (ReplayCall.Beyond this index length)
      (guarded (checkRange index length) program otherwise) := by
  have exact_ : int32 (index + length) = index + length := int32_of_bounds lower upper
  unfold checkRange
  apply faithful_guarded held.forward twins.idx
  · rw [twin_writer twins]
  · intro enough
    rw [decide_eq_true_iff, exact_] at enough
    exact alike enough
  · rw [decide_eq_false_iff_not, exact_]
    unfold ReplayCall.Beyond
    omega

theorem faithful_getTyped {kind : TypedRead} {index : Int}
    (proper : (ReplayCall.getTyped kind index).Proper this) :
    Faithful this second (ReplayCall.Beyond this index kind.width) (getTyped kind index) := by
  have alike : index + kind.width ≤ this.buffer.writerIdx →
      EndAlike this.buffer second (do call (kind.fetch (← get).getters index)) :=
    fun below => alike_call twins held.forward (fun buffer => kind.fetch buffer.getters index)
      (fetch_agree twins.agree kind below)
  have wide : kind ≠ .byte → minInt ≤ index ∧ index + kind.width ≤ maxInt := by
    intro wide
    cases kind with
    | byte => exact absurd rfl wide
    | _ => exact proper
  have positive : (0 : Int) < kind.width := by
    cases kind <;> decide
  unfold getTyped
  by_cases single : kind = .byte
  · subst single
    change index ≠ this.buffer.writerIdx at proper
    change Faithful this second _ (guarded (checkIndex index) _ 0)
    unfold checkIndex
    apply faithful_guarded held.forward twins.idx
    · rw [twin_writer twins]
    · intro enough
      have early := of_decide_eq_true enough
      apply alike
      change index + 1 ≤ this.buffer.writerIdx
      omega
    · rw [decide_eq_false_iff_not]
      change _ ↔ (0 : Int) < 1 ∧ this.buffer.writerIdx < index + 1
      omega
  · obtain ⟨lower, upper⟩ := wide single
    have checked : checkTyped kind index = checkRange index kind.width := by
      cases kind with
      | byte => exact absurd rfl single
      | _ => rfl
    rw [checked]
    exact faithful_range held twins 0 (by omega) upper (Or.inl positive) alike

omit held twins in
/-- What a search returns in front of the index it started from. -/
theorem bytesBefore_of_index {getters : Getters} {find : Finder} {index length : Int} {endIndex : Int}
    (found : getters.indexOf index (int32 (index + length)) find = .ok endIndex) :
    getters.bytesBefore index length find =
      .ok (if endIndex < 0 then -1 else int32 (endIndex - index)) := by
  unfold Getters.bytesBefore
  rw [found, ok_bind]
  split <;> rfl

include shows same

omit held twins in
theorem found_between {find : Finder} {index length : Int} (small : length ≤ maxInt)
    (range : index + length ≤ maxInt)
    (found : Found this.received find (max index 0) (index + length)) :
    ∃ count : Nat, this.buffer.getters.bytesBefore index length find = .ok (count : Int) ∧
      second.getters.bytesBefore index length find = .ok (count : Int) := by
  have ahead : max index 0 < index + length := by
    obtain ⟨i, -, lower, upper, -⟩ := found
    omega
  have exact_ : int32 (index + length) = index + length := int32_of_nonneg (by omega) range
  obtain ⟨i, lower, upper, one, other⟩ := Getters.firstIndexOf_found shows same found
  have first_ : this.buffer.getters.indexOf index (int32 (index + length)) find = .ok (i : Int) := by
    unfold Getters.indexOf
    rw [exact_, if_pos (by omega)]
    exact one
  have second_ : second.getters.indexOf index (int32 (index + length)) find = .ok (i : Int) := by
    unfold Getters.indexOf
    rw [exact_, if_pos (by omega)]
    exact other
  have counted : int32 ((i : Int) - index) = (((i : Int) - index).toNat : Nat) := by
    rw [int32_of_nonneg (by omega) (by omega)]
    omega
  refine ⟨((i : Int) - index).toNat, ?_, ?_⟩
  · rw [bytesBefore_of_index first_, if_neg (by omega), counted]
  · rw [bytesBefore_of_index second_, if_neg (by omega), counted]

theorem faithful_bytesBefore {find : Finder}
    (small : this.buffer.writerIdx - this.buffer.readerIdx ≤ maxInt) :
    Faithful this second ((ReplayCall.bytesBefore find).Needs this) (bytesBefore find) := by
  have forward := held.forward
  have order : this.buffer.readerIdx ≤ this.buffer.writerIdx := forward.order
  have length := held.received_length
  have readable := readable_exact forward small
  have top : this.buffer.readerIdx + this.buffer.readableBytes = this.buffer.writerIdx := by
    omega
  have limit : this.buffer.writerIdx ≤ maxInt := Int.le_trans forward.bound held.room
  unfold ReplayCall.Needs bytesBefore
  dsimp only
  by_cases found : Found this.received find (max this.buffer.readerIdx 0) this.buffer.writerIdx
  · rw [← top] at found
    obtain ⟨count, one, other⟩ := found_between shows same (by omega) (by omega) found
    rw [← twin_reader twins, ← twin_readable twins] at other
    rw [top] at found
    exact faithful_searched forward twins.idx one other
      (iff_of_false (by omega) fun needed => needed found)
  · have exact_ : int32 (this.buffer.readerIdx + this.buffer.readableBytes) =
        this.buffer.writerIdx := by
      rw [top]
      exact int32_of_nonneg forward.front limit
    have missing (getters : Getters) (begins : getters.Begins this.received) :
        getters.bytesBefore this.buffer.readerIdx this.buffer.readableBytes find = .ok (-1) := by
      have none_ := Getters.firstIndexOf_missing begins (by omega) found
      have index : getters.indexOf this.buffer.readerIdx
          (int32 (this.buffer.readerIdx + this.buffer.readableBytes)) find = .ok (-1) := by
        unfold Getters.indexOf
        rw [exact_, if_pos order]
        exact none_
      exact bytesBefore_of_index index
    have other := missing _ same
    rw [← twin_reader twins, ← twin_readable twins] at other
    exact faithful_searched forward twins.idx (missing _ shows) other (iff_of_true (by decide) found)

/-- One operation: its outcome is that of the received bytes, and the flag says what it needed. -/
theorem faithful_call {call_ : ReplayCall} (proper : call_.Proper this) :
    Faithful this second (call_.Needs this) call_.program := by
  have forward := held.forward
  have length := held.received_length
  cases call_ with
  | read reader =>
      exact (faithful_readable held twins 0 proper _
        (alike_reader twins forward held.room proper)).map _
  | readBytes length =>
      exact (faithful_readable held twins _ proper _
        (alike_readBytes twins forward held.room proper)).map _
  | readArray dst dstIndex length =>
      exact (faithful_readable held twins _ proper _
        (alike_readArray twins forward held.room proper)).map _
  | readSlice length =>
      have slices := faithful_readable held twins
        (ReplayAnswer.bytes ChannelBuffer.emptyBuffer.readableContent) proper length
        (alike_readSlice twins forward held.room proper ReplayAnswer.bytes)
      exact slices.congr (guarded_map _ (BufferM.readSlice length) _
        fun part => ReplayAnswer.bytes part.readableContent)
  | skipBytes length =>
      have skips := faithful_readable held twins () proper length
        fun _ => alike_skipBytes twins forward length
      exact skips.map fun _ => ReplayAnswer.nothing
  | getTyped kind index => exact (faithful_getTyped held twins proper).map _
  | getBytes index dst dstIndex length =>
      obtain ⟨lower, upper, positive⟩ := proper
      exact (faithful_range held twins dst lower upper positive fun below =>
        alike_call twins forward
          (fun buffer => buffer.getters.getBytes index dst dstIndex length)
          (twins.agree.bytes index dst dstIndex length below)).map _
  | indexOf fromIndex toIndex find =>
      have search : Faithful this second ((ReplayCall.indexOf fromIndex toIndex find).Needs this)
          (indexOf fromIndex toIndex find) := by
        unfold ReplayCall.Proper at proper
        unfold ReplayCall.Needs indexOf Getters.indexOf
        dsimp only at proper ⊢
        by_cases up : fromIndex ≤ toIndex
        · rw [if_pos up] at proper ⊢
          simp only [if_pos up]
          obtain ⟨i, lower, upper, one, other⟩ := Getters.firstIndexOf_found shows same proper
          exact faithful_searched forward twins.idx one other
            (iff_of_false (by omega) fun needed => needed.2 proper)
        · rw [if_neg up] at proper ⊢
          simp only [if_neg up]
          obtain ⟨early, found⟩ := proper
          obtain ⟨i, one, other⟩ := Getters.lastIndexOf_found shows same (by omega) found
          exact faithful_searched forward twins.idx one other (iff_of_false (by omega) (by omega))
      exact search.map _
  | bytesBefore find =>
      exact (faithful_bytesBefore held twins shows same proper).map _
  | bytesBeforeWithin length find =>
      obtain ⟨small, enough⟩ := proper
      have search : Faithful this second (ReplayCall.Beyond this this.buffer.readerIdx length)
          (bytesBeforeWithin length find) := by
        unfold bytesBeforeWithin checkReadableBytes
        apply faithful_within forward twins.idx
        · rw [twin_readable twins]
        · exact held.short_readable small length
        · intro passed
          have readable := readable_exact forward small
          have limit : this.buffer.writerIdx ≤ maxInt := Int.le_trans forward.bound held.room
          have inside := of_decide_eq_true passed
          rw [readable] at inside
          have found := enough.resolve_left (by
            unfold ReplayCall.Beyond
            omega)
          obtain ⟨count, one, other⟩ := found_between shows same (by omega) (by omega) found
          refine ⟨count, one, ?_⟩
          rw [twin_reader twins]
          exact other
      exact search.map _
  | bytesBeforeFrom index length find =>
      obtain ⟨small, range, found⟩ := proper
      have search : Faithful this second ((ReplayCall.bytesBeforeFrom index length find).Needs this)
          (bytesBeforeFrom index length find) := by
        unfold ReplayCall.Needs bytesBeforeFrom
        dsimp only
        have ahead : max index 0 < index + length := by
          obtain ⟨i, -, lower, upper, -⟩ := found
          omega
        obtain ⟨count, one, other⟩ := found_between shows same small range found
        rw [if_pos (by omega)]
        exact faithful_searched forward twins.idx one other
          (iff_of_false (by omega) fun needed => needed.2 found)
      exact search.map _

end Calls

theorem Held.twins (held : this.Held) {cells : CharArray}
    (length : cells.length = this.buffer.content.length)
    (same : cells.take this.buffer.writerIdx.toNat = this.received) :
    Twins this.buffer (this.buffer.withBytes cells) ∧
      this.buffer.getters.Begins this.received ∧
      (this.buffer.withBytes cells).getters.Begins this.received := by
  have front : 0 ≤ this.buffer.writerIdx := held.forward.front
  have bound : this.buffer.writerIdx ≤ this.buffer.content.length := held.forward.bound
  obtain ⟨direct, shown⟩ := direct_withBytes held.direct cells
  have other := direct_begins direct (show this.buffer.writerIdx.toNat ≤
    (this.buffer.withBytes cells).content.length by
      rw [shown]
      omega)
  rw [shown, same] at other
  exact ⟨direct_twins held.direct front length same, direct_begins held.direct (by omega), other⟩

/-- What an operation that is proper leaves behind. -/
theorem proper_step (held : this.Held) {call_ : ReplayCall} (proper : call_.Proper this) :
    call_.Blind this ∧ ((call_.after this).needMore = true ↔ call_.Needs this) ∧
      (call_.after this).Held := by
  refine ⟨?_, ?_⟩
  · intro cells length same
    obtain ⟨twins, shows, other⟩ := held.twins length same
    obtain ⟨outcome, flag, idx, one, twin, -, -⟩ := faithful_call held twins shows other proper
    unfold ReplayCall.outcome
    rw [one, twin]
    cases outcome <;> rfl
  · obtain ⟨twins, shows, other⟩ := held.twins rfl rfl
    obtain ⟨outcome, flag, idx, one, -, forward, about⟩ :=
      faithful_call held twins shows other proper
    have left : call_.after this =
        { this with needMore := flag, buffer := this.buffer.withIdx idx } := by
      unfold ReplayCall.after
      rw [one]
      cases outcome <;> rfl
    rw [left]
    refine ⟨about, ⟨?_, ?_, ?_⟩⟩
    · exact direct_withIdx held.direct idx
    · rw [content_withIdx]
      exact held.room
    · rw [idx_withIdx, content_withIdx]
      exact forward

/-- A run of proper operations: the flag remembers whether one of them fell short. -/
theorem follows_run (held : this.Held) {calls : List ReplayCall} (follows : this.Follows calls) :
    (∀ made ∈ this.trace calls, made.2.Blind made.1) ∧
      ((this.finish calls).needMore = true ↔
        this.needMore = true ∨ ∃ made ∈ this.trace calls, made.2.Needs made.1) := by
  induction calls generalizing this with
  | nil =>
      constructor
      · intro made inside
        cases inside
      · constructor
        · exact Or.inl
        · rintro (short | ⟨made, inside, -⟩)
          · exact short
          · cases inside
  | cons call_ rest ih =>
      obtain ⟨proper, kept, later⟩ := follows
      obtain ⟨blind, flag, next⟩ := proper_step held proper
      obtain ⟨values, last⟩ := ih next later
      constructor
      · intro made inside
        rcases List.mem_cons.mp inside with here | further
        · rw [here]
          exact blind
        · exact values made further
      · change ((call_.after this).finish rest).needMore = true ↔ _
        rw [last, flag]
        constructor
        · rintro (now | ⟨made, inside, needed⟩)
          · exact Or.inr ⟨(this, call_), List.mem_cons_self, now⟩
          · exact Or.inr ⟨made, List.mem_cons_of_mem _ inside, needed⟩
        · rintro (before | ⟨made, inside, needed⟩)
          · exact Or.inl (kept before)
          · rcases List.mem_cons.mp inside with here | further
            · rw [here] at needed
              exact Or.inl needed
            · exact Or.inr ⟨made, further, needed⟩

/-- Through a buffer that has only been read, a guided sequence of operations is told the truth. -/
theorem guided_tells_truth (held : this.Held) {calls : List ReplayCall}
    (guided : this.Guided calls) : this.TellsTruth calls := by
  cases calls with
  | nil =>
      constructor
      · intro made inside
        cases inside
      · apply iff_of_false
        · intro short
          change this.needMore = true at short
          rw [show this.needMore = false from guided] at short
          cases short
        · rintro ⟨made, inside, -⟩
          cases inside
  | cons call_ rest =>
      obtain ⟨proper, later⟩ := guided
      obtain ⟨blind, flag, next⟩ := proper_step held proper
      obtain ⟨values, last⟩ := follows_run next later
      constructor
      · intro made inside
        rcases List.mem_cons.mp inside with here | further
        · rw [here]
          exact blind
        · exact values made further
      · change ((call_.after this).finish rest).needMore = true ↔ _
        rw [last, flag]
        constructor
        · rintro (now | ⟨made, inside, needed⟩)
          · exact ⟨(this, call_), List.mem_cons_self, now⟩
          · exact ⟨made, List.mem_cons_of_mem _ inside, needed⟩
        · rintro ⟨made, inside, needed⟩
          rcases List.mem_cons.mp inside with here | further
          · rw [here] at needed
            exact Or.inl needed
          · exact Or.inr ⟨made, further, needed⟩

end Held

/-- One byte has been received; the cell behind it holds a nine. -/
def oneByte : ReplayingDecoderBuffer := make (.heap ⟨.big, [7, 9], ⟨0, 1, 0, 0⟩⟩)

theorem oneByte_held : oneByte.Held where
  direct := trivial
  room := by
    unfold oneByte make
    rw [content]
    decide
  forward := by
    unfold oneByte make
    rw [content]
    exact ⟨by decide, by decide, by decide, by decide⟩

theorem after_ending {this next : ReplayingDecoderBuffer} {call_ : ReplayCall}
    {outcome : Except Stop ReplayAnswer} (ran : call_.program.run this = ending outcome next) :
    call_.after this = next := by
  unfold ReplayCall.after
  rw [ran]
  cases outcome <;> rfl

/-- The same buffer after an operation that fell short. -/
def shortByte : ReplayingDecoderBuffer := { oneByte with needMore := true }

/-- The byte at the writer index is handed out, and a good read hides a short one. -/
theorem stale_byte_returned :
    oneByte.Held ∧ ¬oneByte.TellsTruth [.getTyped .byte 1] ∧
      ¬oneByte.TellsTruth [.read .readInt, .read .readByte] := by
  refine ⟨oneByte_held, ?_, ?_⟩
  · intro told
    have needed := told.flag.mpr ⟨(oneByte, .getTyped .byte 1), List.mem_cons_self,
      show ReplayCall.Needs oneByte (.getTyped .byte 1) by decide⟩
    have looked : (do call (TypedRead.byte.fetch (← get).getters 1) : BufferM Nat).run
        oneByte.buffer = ending (TypedRead.byte.fetch oneByte.buffer.getters 1) oneByte.buffer := by
      rw [run_bind_get]
      exact ending_call _ _
    have passed : (getTyped .byte 1).run oneByte = ending _ _ :=
      guarded_passed (fun buffer => decide (1 ≤ buffer.writerIdx)) rfl looked 0
    have ran : (ReplayCall.program (.getTyped .byte 1)).run oneByte = _ :=
      ending_map passed ReplayAnswer.bits
    change (ReplayCall.after (.getTyped .byte 1) oneByte).needMore = true at needed
    rw [after_ending ran] at needed
    cases needed
  · intro told
    have needed := told.flag.mpr ⟨(oneByte, .read .readInt), List.mem_cons_self,
      show ReplayCall.Needs oneByte (.read .readInt) by decide⟩
    have short : (ReplayCall.program (.read .readInt)).run oneByte =
        ending (.ok (.value 0)) shortByte := rfl
    have read : Reader.readByte.program.run shortByte.buffer = ending _ _ :=
      ending_map (readByte_taken (show shortByte.buffer.readerIdx ≠ shortByte.buffer.writerIdx by
        decide)) BitVec.toInt
    have passed : (ReplayingDecoderBuffer.read .readByte).run shortByte = ending _ _ :=
      guarded_passed (fun buffer => decide (1 ≤ buffer.readableBytes)) rfl read 0
    have ran : (ReplayCall.program (.read .readByte)).run shortByte = _ :=
      ending_map passed ReplayAnswer.value
    change (ReplayCall.after (.read .readByte)
      (ReplayCall.after (.read .readInt) oneByte)).needMore = true at needed
    rw [after_ending short, after_ending ran] at needed
    cases needed

theorem short_reads_told :
    oneByte.TellsTruth [.read .readInt, .getTyped .short 0, .bytesBefore fun byte => byte == 9] := by
  have first : (ReplayCall.read .readInt).Proper oneByte := show (1 : Int) - 0 ≤ maxInt by decide
  have second : (ReplayCall.getTyped .short 0).Proper shortByte :=
    show minInt ≤ 0 ∧ (0 : Int) + 2 ≤ maxInt by decide
  have third : (ReplayCall.bytesBefore fun byte => byte == 9).Proper shortByte :=
    show (1 : Int) - 0 ≤ maxInt by decide
  have missing : (ReplayCall.getTyped .short 0).Needs shortByte := by decide
  have absent : ReplayCall.Needs shortByte (.bytesBefore fun byte => byte == 9) := by
    change ¬Found shortByte.received (fun byte => byte == 9) (max 0 0) 1
    unfold shortByte oneByte make received
    rw [content]
    decide
  exact guided_tells_truth oneByte_held
    ⟨first, ⟨second, fun _ => missing, third, fun _ => absent, trivial⟩⟩

end ReplayingDecoderBuffer

end Cetty
