import Cetty.BufferAccesses
import Cetty.BufferSlices

/-!
# Slices of slices

What a chain of `slice` calls on a heap or a dynamic buffer leads to, and what an access of the
last view does to the buffer at the bottom.
-/

namespace Cetty

open MachineInt ByteWindow

namespace ChannelBuffer

/-- The buffer a view is of, after an access of the view. A view without bytes is of no buffer. -/
def beneath (base : ChannelBuffer) : ChannelBuffer → ChannelBuffer
  | sliced buffer _ _ _ => buffer
  | truncated buffer _ _ => buffer
  | duplicated buffer _ => buffer
  | _ => base

/-- Slices of slices. -/
def slices (buffer : ChannelBuffer) : List (Nat × Nat) → Except Stop ChannelBuffer
  | [] => pure buffer
  | (index, length) :: rest => do
      let part ← buffer.slice index length
      part.slices rest

/-- Every slice is inside the one it is cut from. -/
def InRange (length : Nat) : List (Nat × Nat) → Prop
  | [] => True
  | (index, count) :: rest => index + count ≤ length ∧ InRange count rest

/-- Where the last slice begins and how long it is. -/
def offset (ranges : List (Nat × Nat)) : Nat := (ranges.map Prod.fst).sum

def extent (length : Nat) : List (Nat × Nat) → Nat
  | [] => length
  | (_, count) :: rest => extent count rest

/-- Inside the view, the access does what it does to the bottom buffer at the accumulated offset,
and nothing else; outside it throws and the bottom buffer is as before. -/
def Behaves (base view : ChannelBuffer) (start length : Nat) (access : Access) (index : Int) : Prop :=
  if 0 ≤ index ∧ index + access.width ≤ length then
    ∃ fetched after, (access.program index).run view = .ok fetched after ∧
      (access.program (start + index)).run base = .ok fetched (beneath base after) ∧
      beneath base after =
        base.withBytes (overwrite base.content (start + index.toNat) (access.stores base.order))
  else
    ∃ exception after, (access.program index).run view = .error (.thrown exception) after ∧
      beneath base after = base

/-- A slice of all bytes of a heap buffer: a duplicate, which checks no range itself. -/
def Whole (base : ChannelBuffer) (start length : Nat) : Prop :=
  match base with
  | heap buffer => start = 0 ∧ length = buffer.arry.length
  | _ => False

/-- A typed write that no check of the view stops begins inside the bottom buffer, crosses its
end and stores other bytes than those that are there; or a transfer whose end is no `int` is
passed on. -/
def Spills (base : ChannelBuffer) (start length : Nat) (access : Access) (index : Int) : Prop :=
  match access with
  | .get _ => False
  | .set value =>
      0 < length ∧ (Whole base start length ∨ maxInt < index + value.width) ∧ 0 ≤ index ∧
        start + index < base.content.length ∧ base.content.length < start + index + value.width ∧
        window base.content (start + index.toNat) (base.content.length - (start + index.toNat)) ≠
          (value.bytes base.order).take (base.content.length - (start + index.toNat))
  | .getBytes count _ => maxInt < index + count ∧ (length = 0 ∨ start + index ≤ maxInt)
  | .setBytes source _ => maxInt < index + source.length ∧ (length = 0 ∨ start + index ≤ maxInt)

section Wrapping

variable {base view : ChannelBuffer}

/-- The range check a view makes before an access. -/
def guardOf (check : Int → Int → Except Stop Unit) (length : Int) :
    Access → Int → Except Stop Unit
  | .get .byte, index => Getters.checkByte length index
  | .get kind, index => check index kind.width
  | .set value, index => typedCheck check length index value
  | .getBytes count _, index => check index count
  | .setBytes source _, index => check index source.length

/-- What an access of the bottom buffer ends in, seen through a view. -/
def rewrapped {Value : Type} (wrap : ChannelBuffer → ChannelBuffer) :
    EStateM.Result Stop ChannelBuffer Value → EStateM.Result Stop ChannelBuffer Value
  | .ok value after => .ok value (wrap after)
  | .error stop after => .error stop (wrap after)

/-- A view checks an access and passes it on at a shifted index. -/
structure Wraps (base view : ChannelBuffer) (wrap : ChannelBuffer → ChannelBuffer)
    (guard : Access → Int → Except Stop Unit) (shift : Int → Int) : Prop where
  wrapped : view = wrap base
  under : ∀ buffer, beneath base (wrap buffer) = buffer
  refused : ∀ access index stop, guard access index = .error stop →
    (Access.program index access).run view = .error stop view
  passed : ∀ access index, guard access index = .ok () →
    (Access.program index access).run view =
      rewrapped wrap ((Access.program (shift index) access).run base)

variable {wrap : ChannelBuffer → ChannelBuffer} {shift : Int → Int} {access : Access}
  {arry : CharArray}

theorem wraps_of {guard : Access → Int → Except Stop Unit} (direct : base.Direct)
    (wrapped : view = wrap base) (under : ∀ buffer, beneath base (wrap buffer) = buffer)
    (get : ∀ (kind : TypedRead) (index : Int), kind.fetch view.getters index = (do
      guard (.get kind) index
      kind.fetch base.getters (shift index)))
    (set : ∀ (value : TypedValue) (index : Int), (BufferM.setTyped index value).run view =
      ((call (guard (.set value) index) : BufferM Unit) >>= fun _ =>
        focus (fun _ => base) (fun _ written => wrap written)
          (BufferM.setTypedWithin 1 (shift index) value)).run view)
    (getBytes : ∀ (length : Nat) (target : Cetty.Target length) (index : Int),
      view.getters.getBytes index target.dst target.dstIndex length = (do
        guard (.getBytes length target) index
        base.getters.getBytes (shift index) target.dst target.dstIndex length))
    (setBytes : ∀ (source : Source) (array : source.IsArray) (index : Int),
      view.setBytes index source.getters source.srcIndex source.length = (do
        guard (.setBytes source array) index
        let written ← base.setBytes (shift index) source.getters source.srcIndex source.length
        pure (wrap written))) :
    Wraps base view wrap guard shift := by
  have depth := depth_direct direct
  have inner (value : TypedValue) (index : Int) : (BufferM.setTyped index value).run base =
      (BufferM.setTypedWithin 1 index value).run base := by
    have whole : (BufferM.setTyped index value).run base =
        (BufferM.setTypedWithin base.depth index value).run base := rfl
    rw [depth] at whole
    exact whole
  refine ⟨wrapped, under, ?_, ?_⟩
  · intro access index stop stops
    cases access with
    | get kind =>
        unfold Access.program
        dsimp only
        rw [EStateM.run_bind, EStateM.run_get]
        dsimp only
        rw [get, stops, error_bind, run_bind_error _ (run_call_error _ _)]
    | set value =>
        refine run_bind_error _ ((set value index).trans ?_)
        rw [stops, run_bind_error _ (run_call_error _ _)]
    | getBytes length target =>
        unfold Access.program
        dsimp only
        rw [EStateM.run_bind, EStateM.run_get]
        dsimp only
        rw [getBytes, stops, error_bind, run_bind_error _ (run_call_error _ _)]
    | setBytes source array =>
        unfold Access.program BufferM.setFrom
        dsimp only
        rw [EStateM.run_bind, EStateM.run_bind, EStateM.run_get]
        dsimp only
        rw [setBytes source array, stops, error_bind, run_bind_error _ (run_call_error _ _)]
  · intro access index passes
    cases access with
    | get kind =>
        unfold Access.program
        dsimp only
        rw [EStateM.run_bind, EStateM.run_bind, EStateM.run_get, EStateM.run_get]
        dsimp only
        rw [get, passes, ok_bind, wrapped]
        cases kind.fetch base.getters (shift index) with
        | ok number => rfl
        | error stop => rfl
    | set value =>
        have stored := set value index
        rw [passes, run_bind_ok _ (run_call_ok _ _)] at stored
        unfold Access.program
        dsimp only
        cases ran : (BufferM.setTypedWithin 1 (shift index) value).run base with
        | ok done after =>
            rw [run_bind_ok _ (stored.trans (run_focus_ok ran)),
              run_bind_ok _ ((inner value (shift index)).trans ran)]
            rfl
        | error stop after =>
            rw [run_bind_error _ (stored.trans (run_focus_error ran)),
              run_bind_error _ ((inner value (shift index)).trans ran)]
            rfl
    | getBytes length target =>
        unfold Access.program
        dsimp only
        rw [EStateM.run_bind, EStateM.run_bind, EStateM.run_get, EStateM.run_get]
        dsimp only
        rw [getBytes, passes, ok_bind, wrapped]
        cases base.getters.getBytes (shift index) target.dst target.dstIndex length with
        | ok filled => rfl
        | error stop => rfl
    | setBytes source array =>
        unfold Access.program BufferM.setFrom
        dsimp only
        simp only [EStateM.run_bind, EStateM.run_get]
        rw [setBytes source array, passes, ok_bind, wrapped]
        cases base.setBytes (shift index) source.getters source.srcIndex source.length with
        | ok written => rfl
        | error stop => rfl

theorem withBytes_eq_iff (direct : base.Direct) (arry : CharArray) :
    base.withBytes arry = base ↔ arry = base.content := by
  constructor
  · intro same
    have shown := congrArg content same
    cases base with
    | heap buffer =>
        rw [withBytes, content] at shown
        exact shown
    | dynamic endianness factory buffer idx =>
        rw [withBytes, content] at shown
        exact shown
    | _ => exact direct.elim
  · intro same
    rw [same, withBytes_content]

/-- How an access that is not inside the view gets past its check: in front of the view, at its
place because nothing was checked or because the end overflowed, or wrapped around. -/
inductive Slips (base : ChannelBuffer) (start length : Nat) (width : Nat) (index shifted : Int) : Prop
  | front (negative : index < 0) (same : shifted = index)
  | place (lower : 0 ≤ index) (same : shifted = start + index) (int : start + index ≤ maxInt)
      (unchecked : Whole base start length ∨ maxInt < index + width)
  | around (negative : shifted < 0) (lower : minInt ≤ shifted) (beyond : maxInt < start + index)

theorem Slips.outside {start length width : Nat} {index shifted : Int} (built : base.WellBuilt)
    (slips : Slips base start length width index shifted)
    (outside : ¬(0 ≤ index ∧ index + width ≤ length)) :
    shifted < 0 ∨ (base.content.length : Int) < shifted + width := by
  have small := built.answers.small
  cases slips with
  | front negative same => omega
  | place lower same int unchecked =>
      rcases unchecked with whole | beyond
      · cases base with
        | heap buffer =>
            obtain ⟨first, all⟩ := whole
            rw [content]
            omega
        | _ => exact whole.elim
      · omega
  | around negative lower beyond => omega

theorem thrown_behaves {start length : Nat} {index : Int} {exception : Exception}
    (under : beneath base view = base) (outside : ¬(0 ≤ index ∧ index + access.width ≤ length))
    (ran : (access.program index).run view = .error (.thrown exception) view) :
    Behaves base view start length access index := by
  unfold Behaves
  rw [if_neg outside]
  exact ⟨exception, view, ran, under⟩

/-- Stores up to the end of the cells leave them alone if the bytes are there already. -/
theorem stored_kept_iff {index : Int} {bytes : List Byte} (lower : 0 ≤ index)
    (upper : index < arry.length) (crosses : (arry.length : Int) ≤ index + bytes.length) :
    HeapChannelBuffer.stored arry index bytes = arry ↔
      window arry index.toNat (arry.length - index.toNat) = bytes.take (arry.length - index.toNat) := by
  have size : (bytes.take (arry.length - index.toNat)).length = arry.length - index.toNat := by
    rw [List.length_take]
    omega
  have same : HeapChannelBuffer.stored arry index bytes =
      overwrite arry index.toNat (bytes.take (arry.length - index.toNat)) := if_pos ⟨lower, upper⟩
  have kept := overwrite_same_iff (show index.toNat +
    (bytes.take (arry.length - index.toNat)).length ≤ arry.length by omega)
  rw [size] at kept
  rw [same]
  exact kept

theorem stored_nowhere {index : Int} {bytes : List Byte}
    (outside : ¬(0 ≤ index ∧ index < arry.length)) :
    HeapChannelBuffer.stored arry index bytes = arry := if_neg outside

section Slipping

variable {wrap : ChannelBuffer → ChannelBuffer} {guard : Access → Int → Except Stop Unit}
  {shift : Int → Int} {start length : Nat} {index : Int}

section

variable (direct : base.Direct) (built : base.WellBuilt)
  (wraps : Wraps base view wrap guard shift)

include direct built wraps

/-- A typed write that slips through changes the bytes up to the end of the bottom buffer. -/
theorem slipped_set (value : TypedValue) (some : 0 < length)
    (passes : guard (.set value) index = .ok ())
    (outside : ¬(0 ≤ index ∧ index + (Access.set value).width ≤ length))
    (slips : Slips base start length value.width index (shift index)) :
    Behaves base view start length (.set value) index ↔
      ¬Spills base start length (.set value) index := by
  have small := built.answers.small
  have beyond := slips.outside built outside
  have ran := wraps.passed (.set value) index passes
  rw [direct_set_outside direct built value beyond] at ran
  have behaves : Behaves base view start length (.set value) index ↔
      HeapChannelBuffer.stored base.content (shift index) (value.bytes base.order) = base.content := by
    unfold Behaves
    rw [if_neg outside, ran]
    constructor
    · intro ⟨exception, after, ended, same⟩
      cases ended
      rw [wraps.under] at same
      exact (withBytes_eq_iff direct _).mp same
    · intro same
      refine ⟨_, _, rfl, ?_⟩
      rw [wraps.under]
      exact (withBytes_eq_iff direct _).mpr same
  rw [behaves]
  unfold Spills
  dsimp only
  cases slips with
  | front negative same =>
      constructor
      · intro _ ⟨_, _, lower, _⟩
        omega
      · intro _
        exact stored_nowhere (by omega)
  | around negative lower far =>
      constructor
      · intro _ ⟨_, _, _, inside, _⟩
        omega
      · intro _
        exact stored_nowhere (by omega)
  | place lower same int unchecked =>
      have place : (shift index).toNat = start + index.toNat := by omega
      by_cases inside : shift index < base.content.length
      · have kept := stored_kept_iff (show 0 ≤ shift index by omega) inside
          (show (base.content.length : Int) ≤ shift index + (value.bytes base.order).length by
            rw [TypedValue.bytes_length]
            omega)
        rw [place] at kept
        rw [kept]
        constructor
        · intro there ⟨_, _, _, _, _, differ⟩
          exact differ there
        · intro none
          by_contra differ
          exact none ⟨some, unchecked, lower, by omega, by omega, differ⟩
      · constructor
        · intro _ ⟨_, _, _, within, _⟩
          omega
        · intro _
          exact stored_nowhere (by omega)

variable {access : Access}

theorem slipped_bulk (bulk : access.Bulk)
    (some : 0 < length) (int : minInt ≤ index) (passes : guard access index = .ok ())
    (outside : ¬(0 ≤ index ∧ index + access.width ≤ length))
    (slips : Slips base start length access.width index (shift index)) :
    Behaves base view start length access index ↔ ¬Spills base start length access index := by
  have small := built.answers.small
  have beyond := slips.outside built outside
  have width := access.width_small
  have ran := wraps.passed access index passes
  have spills : Spills base start length access index ↔
      maxInt < index + access.width ∧ (length = 0 ∨ start + index ≤ maxInt) := by
    cases access with
    | get kind => exact bulk.elim
    | set value => exact bulk.elim
    | getBytes count target => exact Iff.rfl
    | setBytes source array => exact Iff.rfl
  have refused (lower : minInt ≤ shift index) (fits : shift index + access.width ≤ maxInt) :
      Behaves base view start length access index := by
    rw [direct_bulk_refused direct bulk lower fits beyond] at ran
    unfold Behaves
    rw [if_neg outside]
    exact ⟨_, _, ran, wraps.under base⟩
  rw [spills]
  cases slips with
  | front negative same =>
      exact ⟨fun _ spilled => by omega, fun _ => refused (by omega) (by omega)⟩
  | around negative lower far =>
      exact ⟨fun _ spilled => by omega, fun _ => refused lower (by omega)⟩
  | place lower same fits unchecked =>
      by_cases above : maxInt < index + access.width
      · rw [direct_bulk_overflows direct built bulk (by omega) (by omega) (by omega)] at ran
        constructor
        · intro behaved
          unfold Behaves at behaved
          rw [if_neg outside] at behaved
          obtain ⟨exception, after, ended, -⟩ := behaved
          rw [ran] at ended
          cases ended
        · intro none
          exact absurd ⟨above, Or.inr fits⟩ none
      · refine ⟨fun _ spilled => above spilled.1, fun _ => ?_⟩
        have whole : start = 0 := by
          rcases unchecked with whole | far
          · cases base with
            | heap buffer => exact whole.1
            | _ => exact whole.elim
          · exact absurd far above
        exact refused (by unfold minInt; omega) (by omega)

/-- The accesses outside of a view. -/
theorem slipped (some : 0 < length)
    (int : minInt ≤ index) (passes : guard access index = .ok ())
    (outside : ¬(0 ≤ index ∧ index + access.width ≤ length))
    (slips : Slips base start length access.width index (shift index)) :
    Behaves base view start length access index ↔ ¬Spills base start length access index := by
  cases access with
  | get kind =>
      have beyond := slips.outside built outside
      have ran := wraps.passed (.get kind) index passes
      rw [direct_get_outside direct kind beyond] at ran
      refine ⟨fun _ spilled => spilled, fun _ => ?_⟩
      unfold Behaves
      rw [if_neg outside]
      exact ⟨_, _, ran, wraps.under base⟩
  | set value => exact slipped_set direct built wraps value some passes outside slips
  | getBytes count target =>
      exact slipped_bulk direct built wraps trivial some int passes outside slips
  | setBytes source array =>
      exact slipped_bulk direct built wraps trivial some int passes outside slips

/-- The accesses inside of a view. -/
theorem inside_behaves (within : start + length ≤ base.content.length)
    (passes : guard access index = .ok ()) (moved : shift index = start + index)
    (inside : 0 ≤ index ∧ index + access.width ≤ length) :
    Behaves base view start length access index := by
  obtain ⟨fetched, ran⟩ := direct_inside direct built access
    (show 0 ≤ start + index by omega) (show start + index + access.width ≤ base.content.length by omega)
  have place : (start + index).toNat = start + index.toNat := by omega
  rw [place] at ran
  have passed := wraps.passed access index passes
  rw [moved, ran] at passed
  unfold Behaves
  rw [if_pos inside]
  refine ⟨fetched, _, passed, ?_, ?_⟩
  · rw [wraps.under]
    exact ran
  · rw [wraps.under]

end

end Slipping

/-- A range check that only a negative index, if it is not looked at, and an end that is no `int`
get past. -/
structure Checks (check : Int → Int → Except Stop Unit) (length : Nat) (lenient : Prop) : Prop where
  inside : ∀ index width : Nat, index + width ≤ length → check index width = .ok ()
  thrown : ∀ (index : Int) (width : Nat) stop, check index width = .error stop →
    stop = rangeException ""
  slips : ∀ (index : Int) (width : Nat), minInt ≤ index → (width : Int) ≤ maxInt →
    check index width = .ok () → ¬(0 ≤ index ∧ index + width ≤ length) →
    lenient ∧ index < 0 ∨ 0 ≤ index ∧ maxInt < index + width
  overflow : ∀ (index : Int) (width : Nat), 0 ≤ index → index ≤ maxInt → (width : Int) ≤ maxInt →
    maxInt < index + width → check index width = .ok ()

theorem wrapped_end {index : Int} {width : Nat} (top : index ≤ maxInt) (wide : (width : Int) ≤ maxInt)
    (beyond : maxInt < index + width) : int32 (index + width) < 0 := by
  have limit : maxInt = 2147483647 := rfl
  rw [int32_of_overflow beyond (by omega)]
  omega

theorem sliced_checks {content : CharArray} {start length : Nat}
    (small : (content.length : Int) ≤ maxInt) (within : start + length ≤ content.length) :
    Checks (Getters.slicedCheck length) length False := by
  constructor
  · intro index width bounded
    exact Getters.slicedCheck_of_inside small within bounded
  · intro index width stop refused
    unfold Getters.slicedCheck at refused
    rw [if_neg (by omega)] at refused
    split at refused
    · cases refused
      rfl
    · split at refused
      · cases refused
        rfl
      · cases refused
  · intro index width lower wide passes outside
    unfold Getters.slicedCheck at passes
    rw [if_neg (by omega)] at passes
    split at passes
    · cases passes
    · split at passes
      · cases passes
      · refine Or.inr ⟨by omega, ?_⟩
        by_contra fits
        have kept : int32 (index + width) = index + width := int32_of_nonneg (by omega) (by omega)
        omega
  · intro index width lower top wide beyond
    have negative := wrapped_end top wide beyond
    unfold Getters.slicedCheck
    rw [if_neg (by omega), if_neg (by omega), if_neg (by omega)]
    rfl

theorem truncated_checks {content : CharArray} {length : Nat}
    (small : (content.length : Int) ≤ maxInt) (within : length ≤ content.length) :
    Checks (Getters.truncatedCheck length) length True := by
  constructor
  · intro index width bounded
    exact Getters.truncatedCheck_of_inside small within bounded
  · intro index width stop refused
    unfold Getters.truncatedCheck at refused
    rw [if_neg (by omega)] at refused
    split at refused
    · cases refused
      rfl
    · cases refused
  · intro index width lower wide passes outside
    unfold Getters.truncatedCheck at passes
    rw [if_neg (by omega)] at passes
    split at passes
    · cases passes
    · by_cases negative : index < 0
      · exact Or.inl ⟨trivial, negative⟩
      · refine Or.inr ⟨by omega, ?_⟩
        by_contra fits
        have kept : int32 (index + width) = index + width := int32_of_nonneg (by omega) (by omega)
        omega
  · intro index width lower top wide beyond
    have negative := wrapped_end top wide beyond
    unfold Getters.truncatedCheck
    rw [if_neg (by omega), if_neg (by omega)]
    rfl

section Guards

variable {check : Int → Int → Except Stop Unit} {lenient : Prop} {start length : Nat}
  {access : Access} {index : Int}

/-- A byte is checked by itself. -/
theorem guardOf_cases (check : Int → Int → Except Stop Unit) (length index : Int)
    (access : Access) :
    access.width = 1 ∧ guardOf check length access index = Getters.checkByte length index ∨
      guardOf check length access index = check index access.width := by
  cases access with
  | get kind =>
      cases kind with
      | byte => exact Or.inl ⟨rfl, rfl⟩
      | _ => exact Or.inr rfl
  | set value =>
      cases value with
      | byte value => exact Or.inl ⟨rfl, rfl⟩
      | _ => exact Or.inr rfl
  | getBytes count target => exact Or.inr rfl
  | setBytes source array => exact Or.inr rfl

section

variable (checks : Checks check length lenient)

include checks

theorem guardOf_inside (inside : 0 ≤ index ∧ index + access.width ≤ length) :
    guardOf check length access index = .ok () := by
  have start := Int.toNat_of_nonneg inside.1
  rcases guardOf_cases check length index access with ⟨one, byte⟩ | whole
  · rw [byte]
    unfold Getters.checkByte
    rw [if_neg (by omega)]
    rfl
  · have checked := checks.inside index.toNat access.width (by omega)
    rw [start] at checked
    rw [whole, checked]

theorem guardOf_thrown {stop : Stop}
    (refused : guardOf check length access index = .error stop) : stop = rangeException "" := by
  rcases guardOf_cases check length index access with ⟨one, byte⟩ | whole
  · rw [byte] at refused
    unfold Getters.checkByte at refused
    split at refused
    · cases refused
      rfl
    · cases refused
  · rw [whole] at refused
    exact checks.thrown index access.width stop refused

theorem guardOf_slips (int : minInt ≤ index)
    (passes : guardOf check length access index = .ok ())
    (outside : ¬(0 ≤ index ∧ index + access.width ≤ length)) :
    lenient ∧ index < 0 ∨ 0 ≤ index ∧ maxInt < index + access.width := by
  rcases guardOf_cases check length index access with ⟨one, byte⟩ | whole
  · rw [byte] at passes
    unfold Getters.checkByte at passes
    split at passes
    · cases passes
    · omega
  · rw [whole] at passes
    exact checks.slips index access.width int access.width_small passes outside

end

/-- What spills has passed the check. -/
theorem guardOf_spills {base : ChannelBuffer}
    (checks : Checks check length lenient) (top : index ≤ maxInt)
    (part : ¬Whole base start length) (spills : Spills base start length access index) :
    guardOf check length access index = .ok () := by
  have width := access.width_small
  cases access with
  | get kind => exact spills.elim
  | set value =>
      obtain ⟨_, unchecked, lower, inside, _, _⟩ := spills
      have beyond : maxInt < index + value.width := unchecked.resolve_left part
      rcases guardOf_cases check length index (.set value) with ⟨one, -⟩ | whole
      · change value.width = 1 at one
        omega
      · rw [whole]
        exact checks.overflow index value.width lower top width beyond
  | getBytes count target =>
      change (count : Int) ≤ maxInt at width
      exact checks.overflow index count (by have far := spills.1; omega) top width spills.1
  | setBytes source array =>
      change (source.length : Int) ≤ maxInt at width
      exact checks.overflow index source.length (by have far := spills.1; omega) top width spills.1

end Guards

/-- Nothing spills from inside of a view. -/
theorem inside_keeps {start length : Nat} {index : Int} (built : base.WellBuilt)
    (within : start + length ≤ base.content.length)
    (inside : 0 ≤ index ∧ index + access.width ≤ length) :
    ¬Spills base start length access index := by
  have small := built.answers.small
  intro spills
  cases access with
  | get kind => exact spills
  | set value =>
      obtain ⟨_, _, _, _, beyond, _⟩ := spills
      change 0 ≤ index ∧ index + value.width ≤ length at inside
      omega
  | getBytes count target =>
      obtain ⟨beyond, _⟩ := spills
      change 0 ≤ index ∧ index + count ≤ length at inside
      omega
  | setBytes source array =>
      obtain ⟨beyond, _⟩ := spills
      change 0 ≤ index ∧ index + source.length ≤ length at inside
      omega

/-- A view with a check of its own. -/
theorem checked_behaves {check : Int → Int → Except Stop Unit} {lenient : Prop} {start length : Nat}
    (direct : base.Direct) (built : base.WellBuilt)
    (wraps : Wraps base view wrap (guardOf check length) shift)
    (checks : Checks check length lenient) (some : 0 < length) (part : ¬Whole base start length)
    (within : start + length ≤ base.content.length)
    (front : lenient → ∀ index : Int, index < 0 → shift index = index)
    (placed : ∀ index : Int, 0 ≤ index → index ≤ maxInt → start + index ≤ maxInt →
      shift index = start + index)
    (around : ∀ index : Int, 0 ≤ index → index ≤ maxInt → maxInt < start + index →
      shift index < 0 ∧ minInt ≤ shift index)
    (access : Access) {index : Int} (int : minInt ≤ index) (top : index ≤ maxInt) :
    Behaves base view start length access index ↔ ¬Spills base start length access index := by
  have small := built.answers.small
  by_cases inside : 0 ≤ index ∧ index + access.width ≤ length
  · have passes := guardOf_inside checks inside
    have moved := placed index inside.1 top (by omega)
    exact ⟨fun _ => inside_keeps built within inside,
      fun _ => inside_behaves direct built wraps within passes moved inside⟩
  · cases checked : guardOf check length access index with
    | error stop =>
        have ran := wraps.refused access index stop checked
        rw [guardOf_thrown checks checked] at ran
        refine ⟨fun _ spills => ?_, fun _ => ?_⟩
        · rw [guardOf_spills checks top part spills] at checked
          cases checked
        · have under : beneath base view = base := by
            rw [wraps.wrapped]
            exact wraps.under base
          exact thrown_behaves under inside ran
    | ok passed =>
        have slips : Slips base start length access.width index (shift index) := by
          rcases guardOf_slips checks int checked inside with ⟨lenient, negative⟩ | ⟨lower, beyond⟩
          · exact .front negative (front lenient index negative)
          · by_cases fits : start + index ≤ maxInt
            · exact .place lower (placed index lower top fits) fits (Or.inr beyond)
            · obtain ⟨below, bound⟩ := around index lower top (by omega)
              exact .around below bound (by omega)
        exact slipped direct built wraps some int checked inside slips

theorem fetch_view (kind : TypedRead) (parent : Getters) (check : Int → Int → Except Stop Unit)
    (shift : Int → Int) (length index : Int) :
    kind.fetch (parent.view check shift length) index = (do
      guardOf check length (.get kind) index
      kind.fetch parent (shift index)) := by
  cases kind <;>
    simp only [TypedRead.fetch, Getters.view, guardOf, TypedRead.width, bind_assoc] <;> rfl

theorem sliced_wraps (direct : base.Direct) (start length : Nat) (idx : Indices) :
    Wraps base (sliced base start length idx) (fun buffer => sliced buffer start length idx)
      (guardOf (Getters.slicedCheck length) length) (fun index => int32 (index + start)) := by
  have deep : (sliced base start length idx).depth = 2 := by
    rw [depth, depth_direct direct]
  apply wraps_of direct rfl
  · intro buffer
    rfl
  · intro kind index
    rw [getters]
    exact fetch_view kind base.getters _ _ _ index
  · intro value index
    have whole : (BufferM.setTyped index value).run (sliced base start length idx) =
        (BufferM.setTypedWithin (sliced base start length idx).depth index value).run
          (sliced base start length idx) := rfl
    rw [whole, deep]
    simp only [BufferM.setTypedWithin]
    rfl
  · intro count target index
    rw [getters]
    rfl
  · intro source array index
    rw [setBytes]
    rfl

theorem truncated_wraps (direct : base.Direct) (length : Nat) (idx : Indices) :
    Wraps base (truncated base length idx) (fun buffer => truncated buffer length idx)
      (guardOf (Getters.truncatedCheck length) length) (fun index => index) := by
  have deep : (truncated base length idx).depth = 2 := by
    rw [depth, depth_direct direct]
  apply wraps_of direct rfl
  · intro buffer
    rfl
  · intro kind index
    rw [getters]
    exact fetch_view kind base.getters _ _ _ index
  · intro value index
    have whole : (BufferM.setTyped index value).run (truncated base length idx) =
        (BufferM.setTypedWithin (truncated base length idx).depth index value).run
          (truncated base length idx) := rfl
    rw [whole, deep]
    simp only [BufferM.setTypedWithin]
    rfl
  · intro count target index
    rw [getters]
    rfl
  · intro source array index
    rw [setBytes]
    rfl

theorem duplicated_wraps (direct : base.Direct) (idx : Indices) :
    Wraps base (duplicated base idx) (fun buffer => duplicated buffer idx)
      (fun _ _ => .ok ()) (fun index => index) := by
  have deep : (duplicated base idx).depth = 2 := by
    rw [depth, depth_direct direct]
  apply wraps_of direct rfl
  · intro buffer
    rfl
  · intro kind index
    rw [getters]
    rfl
  · intro value index
    have whole : (BufferM.setTyped index value).run (duplicated base idx) =
        (BufferM.setTypedWithin (duplicated base idx).depth index value).run
          (duplicated base idx) := rfl
    rw [whole, deep]
    simp only [BufferM.setTypedWithin]
    rfl
  · intro count target index
    rw [getters]
    rfl
  · intro source array index
    rw [setBytes]
    rfl

end Wrapping

/-- What a chain of slices ends in. -/
inductive Cut (base : ChannelBuffer) (start length : Nat) : ChannelBuffer → Prop
  | nothing (none : length = 0) : Cut base start length emptyBuffer
  | whole (idx : Indices) (some : 0 < length) (all : Whole base start length) :
      Cut base start length (duplicated base idx)
  | front (idx : Indices) (some : 0 < length) (first : start = 0)
      (part : ¬Whole base start length) : Cut base start length (truncated base length idx)
  | behind (idx : Indices) (some : 0 < length) (later : 0 < start) :
      Cut base start length (sliced base start length idx)

section Cutting

variable {base view part : ChannelBuffer} {start length : Nat}

section

variable (direct : base.Direct) (built : base.WellBuilt)
  (within : start + length ≤ base.content.length)

include direct built within

/-- A slice of the bottom buffer. -/
theorem slice_direct :
    ∃ part, base.slice start length = .ok part ∧ Cut base start length part := by
  have capacity : base.capacity = base.content.length := built.answers.capacity
  have small := built.answers.small
  have plain (partly : ¬Whole base start length) : ∃ part,
      directSlice base start length = .ok part ∧ Cut base start length part := by
    unfold directSlice
    by_cases none : length = 0
    · rw [if_pos (by omega)]
      exact ⟨_, rfl, .nothing none⟩
    · rw [if_neg (by omega)]
      by_cases first : start = 0
      · rw [if_pos (by omega)]
        exact ⟨_, makeTruncated_of_room (by omega), .front _ (by omega) first partly⟩
      · rw [if_neg (by omega)]
        exact ⟨_, makeSliced_of_room (by omega) (by omega), .behind _ (by omega) (by omega)⟩
  cases base with
  | heap buffer =>
      rw [slice]
      beta_reduce
      have shown : (heap buffer).content = buffer.arry := by rw [content]
      by_cases all : (start : Int) = 0 ∧ (length : Int) ≠ 0 ∧ (length : Int) = buffer.arry.length
      · have size : (length : Int) = (heap buffer).content.length := by
          rw [shown]
          exact all.2.2
        rw [if_pos all, makeDuplicated_run built, ok_bind, size, duplicated_setIndex built]
        exact ⟨_, rfl, .whole _ (by omega) ⟨by omega, by omega⟩⟩
      · rw [if_neg all]
        by_cases none : length = 0
        · unfold directSlice
          rw [if_pos (by omega)]
          exact ⟨_, rfl, .nothing none⟩
        · apply plain
          intro whole
          have first : start = 0 := whole.1
          have size : length = buffer.arry.length := by
            rw [← shown]
            exact whole.2
          exact all ⟨by omega, by omega, by omega⟩
  | dynamic endianness factory buffer idx =>
      rw [slice]
      exact plain fun whole => whole
  | _ => exact direct.elim

/-- A slice of a slice is a slice of the bottom buffer. -/
theorem slice_cut (cut : Cut base start length view)
    {index count : Nat} (inside : index + count ≤ length) :
    ∃ part, view.slice index count = .ok part ∧ Cut base (start + index) count part := by
  have small := built.answers.small
  cases cut with
  | nothing none =>
      have blank : count = 0 := by omega
      refine ⟨emptyBuffer, ?_, .nothing blank⟩
      unfold emptyBuffer
      rw [slice]
      beta_reduce
      rw [if_neg (by omega)]
      unfold directSlice
      rw [if_pos (by omega)]
      rfl
  | whole idx some all =>
      have first : start = 0 := by
        cases base with
        | heap buffer => exact all.1
        | _ => exact all.elim
      rw [slice, first, Nat.zero_add]
      exact slice_direct direct built (by omega)
  | front idx some first partly =>
      have checked := Getters.truncatedCheck_of_inside small
        (show length ≤ base.content.length by omega) inside
      rw [slice_truncated _ _ _ _ _ checked]
      by_cases none : count = 0
      · rw [if_pos (by omega)]
        exact ⟨_, rfl, .nothing none⟩
      · rw [if_neg (by omega), first, Nat.zero_add]
        exact slice_direct direct built (by omega)
  | behind idx some later =>
      have checked := Getters.slicedCheck_of_inside small within inside
      have capacity : base.capacity = base.content.length := built.answers.capacity
      rw [slice_sliced _ _ _ _ _ _ checked]
      by_cases none : count = 0
      · rw [if_pos (by omega)]
        exact ⟨_, rfl, .nothing none⟩
      · rw [if_neg (by omega), Getters.shifted_inside small within index (by omega)]
        exact ⟨_, makeSliced_of_room (by omega) (by omega), .behind _ (by omega) (by omega)⟩

theorem slices_cut (cut : Cut base start length view)
    {ranges : List (Nat × Nat)} (inRange : InRange length ranges) :
    ∃ part, view.slices ranges = .ok part ∧
      Cut base (start + offset ranges) (extent length ranges) part ∧
      start + offset ranges + extent length ranges ≤ base.content.length := by
  induction ranges generalizing view start length with
  | nil => exact ⟨view, rfl, cut, within⟩
  | cons range rest ih =>
      obtain ⟨index, count⟩ := range
      obtain ⟨inside, later⟩ := inRange
      obtain ⟨middle, first, deeper⟩ := slice_cut direct built within cut inside
      obtain ⟨part, ran, last, bounded⟩ := ih (by omega) deeper later
      have moved : start + offset ((index, count) :: rest) = start + index + offset rest := by
        unfold offset
        rw [List.map_cons, List.sum_cons]
        omega
      have size : extent length ((index, count) :: rest) = extent count rest := rfl
      rw [moved, size]
      refine ⟨part, ?_, last, bounded⟩
      unfold slices
      rw [first, ok_bind, ran]

end

end Cutting

section Outcome

variable {base view : ChannelBuffer} {start length : Nat} {index : Int}

theorem emptyBuffer_built : emptyBuffer.WellBuilt :=
  .heap (by decide) ⟨by decide, by decide, by decide⟩

/-- No bytes are transferred between blocks. -/
theorem copy_nothing {dst src : CharArray} {dstIndex srcIndex : Nat} (source : srcIndex ≤ src.length)
    (target : dstIndex ≤ dst.length) (srcSmall : (src.length : Int) ≤ maxInt)
    (dstSmall : (dst.length : Int) ≤ maxInt) :
    CharArray.copy dst dstIndex src srcIndex (0 : Nat) = .ok dst := by
  have copied : CharArray.copy dst dstIndex src srcIndex (0 : Nat) = .ok (overwrite dst dstIndex
      (window src srcIndex 0)) := CharArray.copy_of_inside source target srcSmall dstSmall
  rw [window_zero_count, overwrite_nothing] at copied
  exact copied

/-- An access of no bytes at an index that is there. -/
theorem direct_nothing {buffer : ChannelBuffer} (direct : buffer.Direct) (built : buffer.WellBuilt)
    {access : Access} (none : access.width = 0) {place : Nat}
    (there : place ≤ buffer.content.length) :
    (access.program place).run buffer = .ok (match access with
      | .getBytes _ target => .cells target.dst
      | _ => .nothing) buffer := by
  have small := built.answers.small
  cases access with
  | get kind => cases kind <;> cases none
  | set value => exact absurd none (Nat.ne_of_gt value.width_pos)
  | getBytes count target =>
      change count = 0 at none
      subst none
      have copied := copy_nothing there (show target.dstIndex ≤ target.dst.length from target.room)
        small target.small
      unfold Access.program
      dsimp only
      rw [EStateM.run_bind, EStateM.run_get]
      dsimp only
      rw [getBytes_direct direct, copied, run_bind_ok _ (run_call_ok _ _)]
      rfl
  | setBytes source array =>
      change source.length = 0 at none
      have within := source.within
      have copied := copy_nothing (show source.srcIndex ≤ source.content.length by omega) there
        source.serves.small small
      have written : buffer.setBytes place source.getters source.srcIndex source.length =
          .ok buffer := by
        rw [setBytes_direct direct array, none, copied, ok_bind, withBytes_content]
        rfl
      unfold Access.program BufferM.setFrom
      dsimp only
      rw [EStateM.run_bind, EStateM.run_bind, EStateM.run_get]
      dsimp only
      rw [written, run_bind_ok _ (run_call_ok _ _)]
      rfl

theorem stores_nothing {access : Access} (none : access.width = 0) (order : ByteOrder) :
    access.stores order = [] := by
  cases access with
  | get kind => rfl
  | set value => exact absurd none (Nat.ne_of_gt value.width_pos)
  | getBytes count target => rfl
  | setBytes source array => exact List.length_eq_zero_iff.mp (source.bytes_length.trans none)

/-- A slice without bytes is the shared empty buffer. -/
theorem empty_behaves (direct : base.Direct) (built : base.WellBuilt)
    (within : start ≤ base.content.length) (access : Access) (int : minInt ≤ index)
    (top : index ≤ maxInt) :
    Behaves base emptyBuffer start 0 access index ↔ ¬Spills base start 0 access index := by
  have width := access.width_small
  have held : emptyBuffer.Direct := trivial
  have blank : emptyBuffer.content = [] := by
    unfold emptyBuffer
    rw [content]
  have size : emptyBuffer.content.length = 0 := by
    rw [blank]
    rfl
  by_cases inside : 0 ≤ index ∧ index + access.width ≤ (0 : Nat)
  · have first : index = ((0 : Nat) : Int) := by omega
    have none : access.width = 0 := by omega
    refine ⟨fun _ => inside_keeps built (show start + 0 ≤ _ by omega) inside, fun _ => ?_⟩
    have here := direct_nothing held emptyBuffer_built none
      (show 0 ≤ emptyBuffer.content.length by omega)
    have there := direct_nothing direct built none within
    have place : (start : Int) + index = start := by omega
    unfold Behaves
    rw [if_pos inside, place, stores_nothing none, overwrite_nothing, withBytes_content, first]
    exact ⟨_, emptyBuffer, here, there, rfl⟩
  · have outside : index < 0 ∨ (emptyBuffer.content.length : Int) < index + access.width := by
      rw [size]
      omega
    have thrown {after : ChannelBuffer} (under : beneath base after = base)
        (ran : (access.program index).run emptyBuffer = .error (rangeException "") after) :
        Behaves base emptyBuffer start 0 access index := by
      unfold Behaves
      rw [if_neg inside]
      exact ⟨_, after, ran, under⟩
    have bulk (transfer : access.Bulk) (spills : Spills base start 0 access index ↔
        maxInt < index + access.width) :
        Behaves base emptyBuffer start 0 access index ↔ ¬Spills base start 0 access index := by
      rw [spills]
      by_cases above : maxInt < index + access.width
      · have ran := direct_bulk_overflows held emptyBuffer_built
          transfer (show 0 ≤ index by omega) top above
        constructor
        · intro behaved
          unfold Behaves at behaved
          rw [if_neg inside] at behaved
          obtain ⟨exception, after, ended, -⟩ := behaved
          rw [ran] at ended
          cases ended
        · intro none
          exact absurd above none
      · exact ⟨fun _ => above, fun _ => thrown rfl
          (direct_bulk_refused held transfer int (by omega) outside)⟩
    cases access with
    | get kind =>
        exact ⟨fun _ spilled => spilled, fun _ => thrown rfl (direct_get_outside held kind outside)⟩
    | set value =>
        exact ⟨fun _ spilled => absurd spilled.1 (Nat.lt_irrefl 0),
          fun _ => thrown rfl (direct_set_outside held emptyBuffer_built value outside)⟩
    | getBytes count target => exact bulk trivial ⟨fun spills => spills.1, fun above => ⟨above, Or.inl rfl⟩⟩
    | setBytes source array => exact bulk trivial ⟨fun spills => spills.1, fun above => ⟨above, Or.inl rfl⟩⟩

theorem cut_behaves (direct : base.Direct) (built : base.WellBuilt)
    (within : start + length ≤ base.content.length) (cut : Cut base start length view)
    (access : Access) (int : minInt ≤ index) (top : index ≤ maxInt) :
    Behaves base view start length access index ↔ ¬Spills base start length access index := by
  have small := built.answers.small
  have limit : maxInt = 2147483647 := rfl
  cases cut with
  | nothing none =>
      subst none
      exact empty_behaves direct built within access int top
  | whole idx some all =>
      have wraps := duplicated_wraps direct idx
      have first : start = 0 := by
        cases base with
        | heap buffer => exact all.1
        | _ => exact all.elim
      by_cases inside : 0 ≤ index ∧ index + access.width ≤ length
      · exact ⟨fun _ => inside_keeps built within inside, fun _ =>
          inside_behaves direct built wraps within rfl (by omega) inside⟩
      · apply slipped direct built wraps some int rfl inside
        by_cases negative : index < 0
        · exact .front negative rfl
        · exact .place (by omega) (by omega) (by omega) (Or.inl all)
  | front idx some first part =>
      apply checked_behaves direct built (truncated_wraps direct length idx)
        (truncated_checks small (by omega)) some part within _ _ _ access int top
      · intro _ index _
        rfl
      · intro index _ _ _
        omega
      · intro index _ _ _
        omega
  | behind idx some later =>
      have part : ¬Whole base start length := by
        cases base with
        | heap buffer => exact fun all => Nat.ne_of_gt later all.1
        | _ => exact id
      apply checked_behaves direct built (sliced_wraps direct start length idx)
        (sliced_checks small within) some part within _ _ _ access int top
      · exact False.elim
      · intro index lower upper fits
        have kept : int32 (index + start) = index + start := int32_of_nonneg (by omega) (by omega)
        omega
      · intro index lower upper beyond
        have wrapped := int32_of_overflow (show maxInt < index + start by omega) (by omega)
        unfold minInt
        omega

end Outcome

/-- The last view of a chain of slices, and the accesses it takes as one expects of it. -/
theorem nested_views_iff {base : ChannelBuffer} (direct : base.Direct) (built : base.WellBuilt)
    {range : Nat × Nat} {rest : List (Nat × Nat)}
    (inRange : InRange base.content.length (range :: rest)) :
    ∃ view, base.slices (range :: rest) = .ok view ∧
      ∀ (access : Access) (index : Int), minInt ≤ index → index ≤ maxInt →
        (Behaves base view (offset (range :: rest)) (extent base.content.length (range :: rest))
            access index ↔
          ¬Spills base (offset (range :: rest)) (extent base.content.length (range :: rest))
            access index) := by
  obtain ⟨index, count⟩ := range
  obtain ⟨inside, later⟩ := inRange
  obtain ⟨first, sliced, cut⟩ := slice_direct direct built inside
  obtain ⟨view, ran, last, bounded⟩ := slices_cut direct built inside cut later
  have moved : offset ((index, count) :: rest) = index + offset rest := List.sum_cons
  have size : extent base.content.length ((index, count) :: rest) = extent count rest := rfl
  rw [moved, size]
  refine ⟨view, ?_, fun access place int top => cut_behaves direct built bounded last access int top⟩
  unfold slices
  rw [sliced, ok_bind, ran]

def fourBytes : ChannelBuffer := heap ⟨.big, [1, 2, 3, 4], .full 4⟩

theorem fourBytes_built : fourBytes.WellBuilt := by
  have small : (([1, 2, 3, 4] : CharArray).length : Int) ≤ maxInt := by decide
  exact .heap small ⟨by decide, by decide, by decide⟩

theorem fourBytes_length : fourBytes.content.length = 4 := by
  unfold fourBytes
  rw [content]
  rfl

theorem inner_view_behaves :
    ∃ view, fourBytes.slices [(1, 3), (1, 2)] = .ok view ∧
      ∀ (access : Access) (index : Int), minInt ≤ index → index ≤ maxInt →
        (Behaves fourBytes view (offset [(1, 3), (1, 2)])
            (extent fourBytes.content.length [(1, 3), (1, 2)]) access index ↔
          ¬Spills fourBytes (offset [(1, 3), (1, 2)])
            (extent fourBytes.content.length [(1, 3), (1, 2)]) access index) := by
  have inRange : InRange fourBytes.content.length [(1, 3), (1, 2)] := by
    rw [fourBytes_length]
    exact ⟨by decide, by decide, trivial⟩
  exact nested_views_iff (show fourBytes.Direct from trivial) fourBytes_built inRange

/-- A slice of all four bytes lets an int be written over the last three of them. -/
theorem whole_view_spills :
    ∃ view, fourBytes.slices [(0, 4)] = .ok view ∧
      ¬Behaves fourBytes view 0 4 (.set (.int 0)) 1 := by
  obtain ⟨view, sliced, cut⟩ := slice_direct (show fourBytes.Direct from trivial) fourBytes_built
    (show 0 + 4 ≤ fourBytes.content.length by rw [fourBytes_length])
  have shown : fourBytes.content = [1, 2, 3, 4] := by
    unfold fourBytes
    rw [content]
  have ordered : fourBytes.order = .big := by
    unfold order fourBytes
    rw [getters]
    rfl
  have within : 0 + 4 ≤ fourBytes.content.length := by rw [fourBytes_length]
  have spills : Spills fourBytes 0 4 (.set (.int 0)) 1 := by
    unfold Spills
    dsimp only
    rw [shown, ordered]
    exact ⟨by decide, Or.inl ⟨rfl, rfl⟩, by decide, by decide, by decide, by decide⟩
  refine ⟨view, ?_, fun behaves => ?_⟩
  · unfold slices slices
    rw [sliced]
    rfl
  · exact (cut_behaves (show fourBytes.Direct from trivial) fourBytes_built within cut (.set (.int 0)) (by decide)
      (by decide)).mp behaves spills

end ChannelBuffer

end Cetty
