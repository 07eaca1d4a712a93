import Cetty.TypedExchange

/-!
# Random accesses of a buffer that holds its cells

What the getters and the setters of a heap or a dynamic buffer do at any index: inside the cells,
in front of them, across their end, and where the end of a transfer is no `int`.
-/

namespace Cetty

open MachineInt ByteWindow

namespace CharArray

theorem at_outside {array : CharArray} {index : Int}
    (outside : index < 0 ∨ (array.length : Int) ≤ index) :
    array.at_ index = .error (rangeException "") := by
  unfold at_
  rw [if_pos outside]
  rfl

section

variable {dst src : CharArray} {dstIndex srcIndex length : Int}

/-- A transfer that stays outside is refused, unless its end overflows. -/
theorem copy_refused
    (outside : dstIndex < 0 ∨ srcIndex < 0 ∨ (src.length : Int) < int32 (srcIndex + length) ∨
      (dst.length : Int) < int32 (dstIndex + length)) :
    copy dst dstIndex src srcIndex length = .error (rangeException "") := by
  unfold copy
  dsimp only
  rw [if_pos (by omega)]
  rfl

/-- An end beyond the largest `int` is taken for a negative one. -/
theorem copy_overflows (inDst : 0 ≤ dstIndex) (inSrc : 0 ≤ srcIndex) (positive : 0 ≤ length)
    (srcEnd : int32 (srcIndex + length) ≤ src.length)
    (dstEnd : int32 (dstIndex + length) ≤ dst.length)
    (beyond : (src.length : Int) < srcIndex + length ∨ (dst.length : Int) < dstIndex + length) :
    copy dst dstIndex src srcIndex length = .error .outOfBounds := by
  unfold copy
  dsimp only
  rw [if_neg (by omega), if_pos beyond]
  rfl

end

end CharArray

/-- A getter of `width` cells that throws unless all of them are there. -/
structure Reads {Value : Type} (get_ : Int → Except Stop Value) (width length : Nat) : Prop where
  inside : ∀ index : Int, 0 ≤ index → index + width ≤ length → ∃ value, get_ index = .ok value
  outside : ∀ index : Int, index < 0 ∨ (length : Int) < index + width →
    get_ index = .error (rangeException "")

section Reading

variable {First Second Value : Type} {length : Nat}

theorem Reads.pair {first : Int → Except Stop First} {second : Int → Except Stop Second}
    {front back : Nat} (one : Reads first front length) (other : Reads second back length)
    (join : First → Second → Value) :
    Reads (fun index => do
      let value ← first index
      let next ← second (index + front)
      pure (join value next)) (front + back) length := by
  constructor
  · intro index lower upper
    obtain ⟨value, got⟩ := one.inside index lower (by omega)
    obtain ⟨next, more⟩ := other.inside (index + front) (by omega) (by omega)
    refine ⟨join value next, ?_⟩
    rw [got, more]
    rfl
  · intro index beyond
    by_cases here : 0 ≤ index ∧ index + front ≤ length
    · obtain ⟨value, got⟩ := one.inside index here.1 here.2
      rw [got, other.outside (index + front) (by omega)]
      rfl
    · rw [one.outside index (by omega)]
      rfl

theorem at_reads (arry : CharArray) : Reads arry.at_ 1 arry.length := by
  constructor
  · intro index lower upper
    refine ⟨arry.getD index.toNat 0, ?_⟩
    have got := CharArray.at_of_lt (show index.toNat < arry.length by omega)
    rwa [Int.toNat_of_nonneg lower] at got
  · intro index beyond
    exact CharArray.at_outside (by omega)

variable (order : ByteOrder) (arry : CharArray)

theorem short_reads : Reads (Getters.heap order arry).getShort 2 arry.length :=
  (at_reads arry).pair (at_reads arry) order.short

theorem int_reads : Reads (Getters.heap order arry).getInt 4 arry.length :=
  (short_reads order arry).pair (short_reads order arry) order.int

theorem long_reads : Reads (Getters.heap order arry).getLong 8 arry.length :=
  (int_reads order arry).pair (int_reads order arry) order.long

theorem medium_reads : Reads (Getters.heap order arry).getUnsignedMedium 3 arry.length := by
  have pair := (at_reads arry).pair (at_reads arry) Prod.mk
  have triple := pair.pair (at_reads arry) fun front third => order.medium front.1 front.2 third
  have same : (Getters.heap order arry).getUnsignedMedium = fun index => (do
      let front ← (do
        let value ← arry.at_ index
        let next ← arry.at_ (index + (1 : Nat))
        pure (value, next))
      let third ← arry.at_ (index + (1 + 1 : Nat))
      pure (order.medium front.1 front.2 third)) := by
    funext index
    simp only [Getters.heap, bind_assoc, pure_bind]
    rfl
  rw [same]
  exact triple

end Reading

namespace TypedRead

/-- The bits the getter of the kind returns. -/
def fetch (kind : TypedRead) (getters : Getters) (index : Int) : Except Stop Nat :=
  match kind with
  | byte => do return (← getters.getByte index).toNat
  | short => do return (← getters.getShort index).toNat
  | medium => do return (← getters.getUnsignedMedium index).toNat
  | int => do return (← getters.getInt index).toNat
  | long => do return (← getters.getLong index).toNat

end TypedRead

/-- The source is an array or a heap buffer. -/
def Source.IsArray (source : Source) : Prop := ∃ order, source.getters = .heap order source.content

/-- An access of a buffer, but for its index. -/
inductive Access where
  | get (kind : TypedRead)
  | set (value : TypedValue)
  | getBytes (length : Nat) (target : Cetty.Target length)
  | setBytes (source : Source) (array : source.IsArray)

inductive Fetched where
  | bits (number : Nat)
  | cells (arry : CharArray)
  | nothing

namespace Access

def width : Access → Nat
  | get kind => kind.width
  | set value => value.width
  | getBytes length _ => length
  | setBytes source _ => source.length

/-- A transfer between two blocks. -/
def Bulk : Access → Prop
  | getBytes _ _ => True
  | setBytes _ _ => True
  | _ => False

def program (index : Int) : Access → BufferM Fetched
  | get kind => do
      let number ← call (kind.fetch (← MonadState.get).getters index)
      pure (.bits number)
  | set value => do
      BufferM.setTyped index value
      pure .nothing
  | getBytes length target => do
      let filled ← call ((← MonadState.get).getters.getBytes index target.dst target.dstIndex length)
      pure (.cells filled)
  | setBytes source _ => do
      BufferM.setFrom index source.getters source.srcIndex source.length
      pure .nothing

/-- The bytes the access stores. -/
def stores (order : ByteOrder) : Access → List Byte
  | set value => value.bytes order
  | setBytes source _ => source.bytes
  | _ => []

/-- An `int` counts the bytes of an access. -/
theorem width_small (access : Access) : (access.width : Int) ≤ maxInt := by
  cases access with
  | get kind => cases kind <;> decide
  | set value =>
      have width := value.width_le
      change (value.width : Int) ≤ 2147483647
      omega
  | getBytes length target =>
      have room := target.room
      have small := target.small
      change (length : Int) ≤ maxInt
      omega
  | setBytes source array =>
      have within := source.within
      have small := source.serves.small
      change (source.length : Int) ≤ maxInt
      omega

end Access

namespace ChannelBuffer

/-- A buffer that holds its cells itself. -/
def Direct : ChannelBuffer → Prop
  | heap _ => True
  | dynamic _ _ _ _ => True
  | _ => False

def withBytes : ChannelBuffer → CharArray → ChannelBuffer
  | heap buffer, arry => heap { buffer with arry := arry }
  | dynamic endianness factory buffer idx, arry =>
      dynamic endianness factory { buffer with arry := arry } idx
  | buffer, _ => buffer

section Bases

variable {base : ChannelBuffer}

theorem withBytes_content (base : ChannelBuffer) : base.withBytes base.content = base := by
  cases base with
  | heap buffer => rw [content, withBytes]
  | dynamic endianness factory buffer idx => rw [content, withBytes]
  | _ => rfl

/-- The typed getters of the kinds that hold their cells. -/
theorem fetch_reads (direct : base.Direct) (kind : TypedRead) :
    Reads (kind.fetch base.getters) kind.width base.content.length := by
  have mapped {Value : Type} {get_ : Int → Except Stop Value} {width : Nat} {arry : CharArray}
      (reads : Reads get_ width arry.length) (bits : Value → Nat) :
      Reads (fun index => do return bits (← get_ index)) width arry.length := by
    constructor
    · intro index lower upper
      obtain ⟨value, got⟩ := reads.inside index lower upper
      exact ⟨bits value, by rw [got]; rfl⟩
    · intro index beyond
      rw [reads.outside index beyond]
      rfl
  have held (order : ByteOrder) (arry : CharArray) (getters : Getters)
      (byte : getters.getByte = arry.at_) (short : getters.getShort = (Getters.heap order arry).getShort)
      (medium : getters.getUnsignedMedium = (Getters.heap order arry).getUnsignedMedium)
      (int : getters.getInt = (Getters.heap order arry).getInt)
      (long : getters.getLong = (Getters.heap order arry).getLong) :
      Reads (kind.fetch getters) kind.width arry.length := by
    cases kind with
    | byte =>
        unfold TypedRead.fetch
        dsimp only
        rw [byte]
        exact mapped (at_reads arry) BitVec.toNat
    | short =>
        unfold TypedRead.fetch
        dsimp only
        rw [short]
        exact mapped (short_reads order arry) BitVec.toNat
    | medium =>
        unfold TypedRead.fetch
        dsimp only
        rw [medium]
        exact mapped (medium_reads order arry) BitVec.toNat
    | int =>
        unfold TypedRead.fetch
        dsimp only
        rw [int]
        exact mapped (int_reads order arry) BitVec.toNat
    | long =>
        unfold TypedRead.fetch
        dsimp only
        rw [long]
        exact mapped (long_reads order arry) BitVec.toNat
  cases base with
  | heap buffer =>
      rw [content, getters]
      exact held buffer.byteOrder buffer.arry _ rfl rfl rfl rfl rfl
  | dynamic endianness factory buffer idx =>
      rw [content, getters]
      exact held buffer.byteOrder buffer.arry _ rfl rfl rfl rfl rfl
  | _ => exact direct.elim

open HeapChannelBuffer in
/-- A typed setter of a kind that holds its cells stores up to the end of them. -/
theorem set_direct (direct : base.Direct) (built : base.WellBuilt) (index : Int)
    (value : TypedValue) :
    (Fits base.content index (value.bytes base.order) ∧
      (BufferM.setTypedWithin 1 index value).run base =
        .ok () (base.withBytes (stored base.content index (value.bytes base.order)))) ∨
    (¬Fits base.content index (value.bytes base.order) ∧
      (BufferM.setTypedWithin 1 index value).run base = .error (rangeException "")
        (base.withBytes (stored base.content index (value.bytes base.order)))) := by
  cases base with
  | heap buffer =>
      have ordered : (heap buffer).order = buffer.byteOrder := by
        unfold order
        rw [getters]
        rfl
      have reached : (BufferM.setTypedWithin 1 index value).run (heap buffer) =
          (focus (fun _ => buffer) (fun _ => .heap)
            (storeAll index (value.bytes buffer.byteOrder)) : BufferM Unit).run (heap buffer) := by
        simp only [BufferM.setTypedWithin]
        rfl
      rw [content, withBytes, ordered, reached]
      rcases storeAll_run index (value.bytes buffer.byteOrder) buffer with ⟨fits, ran⟩ | ⟨full, ran⟩
      · exact Or.inl ⟨fits, run_focus_ok ran⟩
      · exact Or.inr ⟨full, run_focus_error ran⟩
  | dynamic endianness factory buffer idx =>
      have direct_ : (dynamic endianness factory buffer idx).order = endianness := by
        unfold order
        rw [getters]
      have reached : (BufferM.setTypedWithin 1 index value).run
          (dynamic endianness factory buffer idx) =
          (focus (fun _ => buffer) (fun _ written => .dynamic endianness factory written idx)
            (storeAll index (value.bytes buffer.byteOrder)) : BufferM Unit).run
            (dynamic endianness factory buffer idx) := by
        simp only [BufferM.setTypedWithin]
        rfl
      have same : stored buffer.arry index (value.bytes endianness) =
            stored buffer.arry index (value.bytes buffer.byteOrder) ∧
          (Fits buffer.arry index (value.bytes endianness) ↔
            Fits buffer.arry index (value.bytes buffer.byteOrder)) := by
        cases built with
        | dynamic ordered small inside =>
            rcases ordered with same | empty
            · rw [same]
              exact ⟨rfl, Iff.rfl⟩
            · have blank (bytes : List Byte) : stored buffer.arry index bytes = [] := by
                apply List.length_eq_zero_iff.mp
                rw [stored_length, empty, List.length_nil]
              have sizes : (value.bytes endianness).length = (value.bytes buffer.byteOrder).length := by
                rw [TypedValue.bytes_length, TypedValue.bytes_length]
              refine ⟨by rw [blank, blank], ?_⟩
              unfold Fits
              rw [← List.length_eq_zero_iff, ← List.length_eq_zero_iff, sizes]
      rw [content, withBytes, direct_, reached, same.1, same.2]
      rcases storeAll_run index (value.bytes buffer.byteOrder) buffer with ⟨fits, ran⟩ | ⟨full, ran⟩
      · exact Or.inl ⟨fits, run_focus_ok ran⟩
      · exact Or.inr ⟨full, run_focus_error ran⟩
  | _ => exact direct.elim

section

variable (direct : base.Direct)

include direct

theorem depth_direct : base.depth = 1 := by
  cases base with
  | heap buffer => rw [depth]
  | dynamic endianness factory buffer idx => rw [depth]
  | _ => exact direct.elim

theorem getBytes_direct (index : Int) (dst : CharArray)
    (dstIndex length : Int) :
    base.getters.getBytes index dst dstIndex length =
      CharArray.copy dst dstIndex base.content index length := by
  cases base with
  | heap buffer =>
      rw [getters, content]
      rfl
  | dynamic endianness factory buffer idx =>
      rw [getters, content]
      rfl
  | _ => exact direct.elim

theorem setBytes_direct {source : Source} (array : source.IsArray)
    (index : Int) :
    base.setBytes index source.getters source.srcIndex source.length = (do
      let arry ← CharArray.copy base.content index source.content source.srcIndex source.length
      pure (base.withBytes arry)) := by
  obtain ⟨order, array⟩ := array
  rw [array]
  have copied (buffer : HeapChannelBuffer) :
      buffer.setBytes index (.heap order source.content) source.srcIndex source.length = (do
        let arry ← CharArray.copy buffer.arry index source.content source.srcIndex source.length
        pure { buffer with arry := arry }) := rfl
  cases base with
  | heap buffer =>
      rw [setBytes, content, copied, bind_assoc]
      simp only [pure_bind, withBytes]
  | dynamic endianness factory buffer idx =>
      rw [setBytes, content, copied, bind_assoc]
      simp only [pure_bind, withBytes]
  | _ => exact direct.elim

/-- How the bottom buffer takes an access. -/
theorem direct_inside (built : base.WellBuilt) (access : Access) {index : Int}
    (lower : 0 ≤ index) (upper : index + access.width ≤ base.content.length) :
    ∃ fetched, (access.program index).run base = .ok fetched
      (base.withBytes (overwrite base.content index.toNat (access.stores base.order))) := by
  have start := Int.toNat_of_nonneg lower
  have small := built.answers.small
  cases access with
  | get kind =>
      obtain ⟨number, got⟩ := (fetch_reads direct kind).inside index lower upper
      refine ⟨.bits number, ?_⟩
      unfold Access.program Access.stores
      dsimp only
      rw [overwrite_nothing, withBytes_content, run_bind_get]
      rw [got, run_bind_ok _ (run_call_ok _ _)]
      rfl
  | set value =>
      have whole : (BufferM.setTyped index value).run base =
          (BufferM.setTypedWithin base.depth index value).run base := rfl
      have room : index.toNat + (value.bytes base.order).length ≤ base.content.length := by
        rw [TypedValue.bytes_length]
        change index + value.width ≤ _ at upper
        omega
      rw [depth_direct direct] at whole
      rcases set_direct direct built index value with ⟨-, ran⟩ | ⟨full, -⟩
      · have stores := HeapChannelBuffer.stored_fits room
        rw [start] at stores
        rw [stores] at ran
        exact ⟨.nothing, (run_bind_ok _ (whole.trans ran)).trans rfl⟩
      · exact absurd (Or.inr ⟨lower, by omega⟩) full
  | getBytes length target =>
      have copied := CharArray.copy_of_inside
        (show index.toNat + length ≤ base.content.length by
          change index + (length : Int) ≤ _ at upper
          omega) target.room small target.small
      rw [start] at copied
      refine ⟨.cells (overwrite target.dst target.dstIndex (window base.content index.toNat length)),
        ?_⟩
      unfold Access.program Access.stores
      dsimp only
      rw [overwrite_nothing, withBytes_content, run_bind_get]
      rw [getBytes_direct direct, copied, run_bind_ok _ (run_call_ok _ _)]
      rfl
  | setBytes source array =>
      have copied := CharArray.copy_of_inside source.within
        (show index.toNat + source.length ≤ base.content.length by
          change index + (source.length : Int) ≤ _ at upper
          omega) source.serves.small small
      rw [start] at copied
      have written : base.setBytes index source.getters source.srcIndex source.length =
          .ok (base.withBytes (overwrite base.content index.toNat source.bytes)) := by
        rw [setBytes_direct direct array, copied]
        rfl
      refine ⟨.nothing, ?_⟩
      unfold Access.program Access.stores BufferM.setFrom
      dsimp only
      rw [EStateM.run_bind, run_bind_get]
      rw [written, run_bind_ok _ (run_call_ok _ _)]
      rfl

/-- A typed read that is not inside throws. -/
theorem direct_get_outside (kind : TypedRead) {index : Int}
    (outside : index < 0 ∨ (base.content.length : Int) < index + kind.width) :
    ((Access.get kind).program index).run base = .error (rangeException "") base := by
  have got := (fetch_reads direct kind).outside index outside
  unfold Access.program
  dsimp only
  rw [run_bind_get]
  rw [got, run_bind_error _ (run_call_error _ _)]

/-- A typed write that is not inside throws behind the last byte it could store. -/
theorem direct_set_outside (built : base.WellBuilt) (value : TypedValue)
    {index : Int} (outside : index < 0 ∨ (base.content.length : Int) < index + value.width) :
    ((Access.set value).program index).run base = .error (rangeException "")
      (base.withBytes (HeapChannelBuffer.stored base.content index (value.bytes base.order))) := by
  have whole : (BufferM.setTyped index value).run base =
      (BufferM.setTypedWithin base.depth index value).run base := rfl
  rw [depth_direct direct] at whole
  rcases set_direct direct built index value with ⟨fits, -⟩ | ⟨-, ran⟩
  · have size := TypedValue.bytes_length base.order value
    have positive := value.width_pos
    rcases fits with none | some
    · rw [none, List.length_nil] at size
      omega
    · omega
  · exact run_bind_error _ (whole.trans ran)

theorem direct_getBytes_stop {length : Nat} (target : Cetty.Target length)
    {index : Int} {stop : Stop}
    (copied : CharArray.copy target.dst target.dstIndex base.content index length = .error stop) :
    ((Access.getBytes length target).program index).run base = .error stop base := by
  unfold Access.program
  dsimp only
  rw [run_bind_get]
  rw [getBytes_direct direct, copied, run_bind_error _ (run_call_error _ _)]

theorem direct_setBytes_stop {source : Source} (array : source.IsArray)
    {index : Int} {stop : Stop}
    (copied : CharArray.copy base.content index source.content source.srcIndex source.length =
      .error stop) :
    ((Access.setBytes source array).program index).run base = .error stop base := by
  have written : base.setBytes index source.getters source.srcIndex source.length =
      .error stop := by
    rw [setBytes_direct direct array, copied]
    rfl
  unfold Access.program BufferM.setFrom
  dsimp only
  rw [EStateM.run_bind, run_bind_get]
  rw [written, run_bind_error _ (run_call_error _ _)]

/-- A transfer that is not inside is refused if its end is an `int`. -/
theorem direct_bulk_refused {access : Access} {index : Int}
    (bulk : access.Bulk) (int : minInt ≤ index) (fits : index + access.width ≤ maxInt)
    (outside : index < 0 ∨ (base.content.length : Int) < index + access.width) :
    (access.program index).run base = .error (rangeException "") base := by
  have limit : minInt = -2147483648 := rfl
  have kept : int32 (index + access.width) = index + access.width :=
    int32_of_bounds (by omega) fits
  cases access with
  | get kind => exact bulk.elim
  | set value => exact bulk.elim
  | getBytes length target =>
      apply direct_getBytes_stop direct
      apply CharArray.copy_refused
      change int32 (index + (length : Int)) = index + (length : Int) at kept
      change index < 0 ∨ _ < index + (length : Int) at outside
      omega
  | setBytes source array =>
      apply direct_setBytes_stop direct
      apply CharArray.copy_refused
      change int32 (index + (source.length : Int)) = index + (source.length : Int) at kept
      change index < 0 ∨ _ < index + (source.length : Int) at outside
      omega

theorem direct_bulk_overflows (built : base.WellBuilt) {access : Access}
    {index : Int} (bulk : access.Bulk) (lower : 0 ≤ index) (upper : index ≤ maxInt)
    (beyond : maxInt < index + access.width) :
    (access.program index).run base = .error .outOfBounds base := by
  have limit : maxInt = 2147483647 := rfl
  have width := access.width_small
  have small := built.answers.small
  have wrapped : int32 (index + access.width) = index + access.width - 4294967296 :=
    int32_of_overflow beyond (by omega)
  cases access with
  | get kind => exact bulk.elim
  | set value => exact bulk.elim
  | getBytes length target =>
      have room := target.room
      have fits := target.small
      change int32 (index + (length : Int)) = index + (length : Int) - 4294967296 at wrapped
      change maxInt < index + (length : Int) at beyond
      apply direct_getBytes_stop direct
      have other : int32 ((target.dstIndex : Int) + length) = target.dstIndex + length :=
        int32_of_nonneg (by omega) (by omega)
      apply CharArray.copy_overflows <;> omega
  | setBytes source array =>
      have within := source.within
      have fits := source.serves.small
      change int32 (index + (source.length : Int)) = index + (source.length : Int) - 4294967296
        at wrapped
      change maxInt < index + (source.length : Int) at beyond
      apply direct_setBytes_stop direct
      have other : int32 ((source.srcIndex : Int) + source.length) = source.srcIndex + source.length :=
        int32_of_nonneg (by omega) (by omega)
      apply CharArray.copy_overflows <;> omega

end

end Bases

end ChannelBuffer

end Cetty
