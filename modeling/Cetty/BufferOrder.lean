import Mathlib.Order.Lattice
import Cetty.BufferComparison

/-!
# The order of channel buffers

When `ChannelBuffers::compare` gives the order of the readable bytes as unsigned values. It
compares words as the first buffer reads them, and the bytes behind the last word as signed
values.
-/

namespace Cetty

open MachineInt ByteWindow

/-- The first place where two byte strings differ. -/
structure DifferAt (first second : List Byte) (place : Nat) : Prop where
  left : place < first.length
  right : place < second.length
  before : ∀ earlier, earlier < place → first.getD earlier 0 = second.getD earlier 0
  differs : first.getD place 0 ≠ second.getD place 0

/-- The unsigned lexicographic order, a proper prefix first. -/
def unsignedOrder (first second : List Byte) : Ordering :=
  List.compareLex (fun one other : Byte => compare one.toNat other.toNat) first second

section Lexicographic

variable {first second : List Byte} {place : Nat}

theorem unsignedOrder_cons (one other : Byte) (first second : List Byte) :
    unsignedOrder (one :: first) (other :: second) =
      (compare one.toNat other.toNat).then (unsignedOrder first second) :=
  List.compareLex_cons_cons

theorem unsignedOrder_differ (differ : DifferAt first second place) :
    unsignedOrder first second =
      compare (first.getD place 0).toNat (second.getD place 0).toNat := by
  induction first generalizing second place with
  | nil => exact absurd differ.left (Nat.not_lt_zero _)
  | cons one rest ih =>
      cases second with
      | nil => exact absurd differ.right (Nat.not_lt_zero _)
      | cons other more =>
          rw [unsignedOrder_cons]
          cases place with
          | zero =>
              have differs : one ≠ other := differ.differs
              have unequal : compare one.toNat other.toNat ≠ .eq := by
                intro same
                exact differs (BitVec.eq_of_toNat_eq (Nat.compare_eq_eq.mp same))
              rw [List.getD_cons_zero, List.getD_cons_zero]
              cases kind : compare one.toNat other.toNat with
              | eq => exact absurd kind unequal
              | lt => rfl
              | gt => rfl
          | succ place =>
              have head : one = other := differ.before 0 (Nat.succ_pos _)
              have tail : DifferAt rest more place :=
                ⟨Nat.lt_of_succ_lt_succ differ.left, Nat.lt_of_succ_lt_succ differ.right,
                  fun earlier within => differ.before (earlier + 1) (Nat.succ_lt_succ within),
                  differ.differs⟩
              rw [head, Nat.compare_eq_eq.mpr rfl, List.getD_cons_succ, List.getD_cons_succ]
              exact ih tail

theorem unsignedOrder_same
    (same : ∀ place, place < first.length → place < second.length →
      first.getD place 0 = second.getD place 0) :
    unsignedOrder first second = compare first.length second.length := by
  induction first generalizing second with
  | nil =>
      cases second with
      | nil => rfl
      | cons other more => exact (Nat.compare_eq_lt.mpr (Nat.succ_pos _)).symm
  | cons one rest ih =>
      cases second with
      | nil => exact (Nat.compare_eq_gt.mpr (Nat.succ_pos _)).symm
      | cons other more =>
          have head : one = other := same 0 (Nat.succ_pos _) (Nat.succ_pos _)
          have tail := ih fun place left right =>
            same (place + 1) (Nat.succ_lt_succ left) (Nat.succ_lt_succ right)
          rw [unsignedOrder_cons, head, Nat.compare_eq_eq.mpr rfl, List.length_cons, List.length_cons]
          change unsignedOrder rest more = _
          rw [tail, Nat.compare_eq_ite_lt, Nat.compare_eq_ite_lt]
          simp only [Nat.add_lt_add_iff_right]

theorem differ_or_same (first second : List Byte) :
    (∃ place, DifferAt first second place) ∨
      ∀ place, place < first.length → place < second.length →
        first.getD place 0 = second.getD place 0 := by
  by_cases some : ∃ place, DifferAt first second place
  · exact Or.inl some
  · refine Or.inr fun place => ?_
    induction place using Nat.strongRecOn with
    | ind place ih =>
        intro left right
        by_contra differs
        exact some ⟨place, left, right,
          fun earlier within => ih earlier within (by omega) (by omega), differs⟩

end Lexicographic

section Numbers

variable {first second : List Byte} {place : Nat}

theorem getD_beyond {cells : List Byte} {index : Nat} (beyond : cells.length ≤ index) :
    cells.getD index 0 = 0 := by
  rw [List.getD_eq_getElem?_getD, List.getElem?_eq_none beyond]
  rfl

/-- Big-endian numbers are ordered as the first bytes that differ. -/
theorem big_number_lt (sizes : first.length = second.length) (differ : DifferAt first second place) :
    ByteOrder.big.number first < ByteOrder.big.number second ↔
      (first.getD place 0).toNat < (second.getD place 0).toNat := by
  induction first generalizing second place with
  | nil => exact absurd differ.left (Nat.not_lt_zero _)
  | cons one rest ih =>
      cases second with
      | nil => cases sizes
      | cons other more =>
          have lengths := Nat.succ.inj sizes
          have low := number_lt ByteOrder.big lengths
          have low_ := number_lt ByteOrder.big (show more.length = more.length from rfl)
          rw [number_cons, number_cons]
          dsimp only
          rw [lengths, digits_lt low low_]
          cases place with
          | zero =>
              have differs : one ≠ other := differ.differs
              have unequal : one.toNat ≠ other.toNat := fun same => differs (BitVec.eq_of_toNat_eq same)
              rw [List.getD_cons_zero, List.getD_cons_zero]
              omega
          | succ place =>
              have head : one = other := differ.before 0 (Nat.succ_pos _)
              have tail : DifferAt rest more place :=
                ⟨Nat.lt_of_succ_lt_succ differ.left, Nat.lt_of_succ_lt_succ differ.right,
                  fun earlier within => differ.before (earlier + 1) (Nat.succ_lt_succ within),
                  differ.differs⟩
              rw [head, List.getD_cons_succ, List.getD_cons_succ, ← ih lengths tail]
              omega

theorem window_ext {start count : Nat} (inside : start + count ≤ first.length)
    (inside_ : start + count ≤ second.length)
    (same : ∀ place, place < count → first.getD (start + place) 0 = second.getD (start + place) 0) :
    window first start count = window second start count := by
  induction count generalizing start with
  | zero => rw [window_zero_count, window_zero_count]
  | succ count ih =>
      have head := same 0 (Nat.succ_pos _)
      rw [Nat.add_zero] at head
      rw [window_cons (by omega), window_cons (by omega), head,
        ih (by omega) (by omega) fun place within => by
          rw [Nat.add_assoc, Nat.add_comm 1]
          exact same (place + 1) (Nat.succ_lt_succ within)]

/-- Little-endian numbers are ordered as the last bytes that differ. -/
theorem little_number_lt (sizes : first.length = second.length)
    (differs : first.getD place 0 ≠ second.getD place 0)
    (behind : ∀ later, place < later → first.getD later 0 = second.getD later 0) :
    ByteOrder.little.number first < ByteOrder.little.number second ↔
      (first.getD place 0).toNat < (second.getD place 0).toNat := by
  induction first generalizing second place with
  | nil =>
      rw [List.length_eq_zero_iff.mp sizes.symm] at differs
      exact absurd rfl differs
  | cons one rest ih =>
      cases second with
      | nil => cases sizes
      | cons other more =>
          have lengths := Nat.succ.inj sizes
          rw [number_cons, number_cons]
          dsimp only
          rw [digits_lt one.isLt other.isLt]
          cases place with
          | zero =>
              have same : rest = more := by
                have equal : window rest 0 rest.length = window more 0 rest.length := by
                  apply window_ext (by omega) (by omega)
                  intro position inside
                  have later := behind (position + 1) (Nat.succ_pos _)
                  rw [List.getD_cons_succ, List.getD_cons_succ] at later
                  rw [Nat.zero_add]
                  exact later
                rw [window_whole, lengths, window_whole] at equal
                exact equal
              rw [same, List.getD_cons_zero, List.getD_cons_zero]
              omega
          | succ place =>
              rw [List.getD_cons_succ, List.getD_cons_succ] at differs
              have tail := ih lengths differs fun later within =>
                behind (later + 1) (Nat.succ_lt_succ within)
              have unequal : ByteOrder.little.number rest ≠ ByteOrder.little.number more := by
                intro same
                exact differs (by rw [number_injective _ lengths same])
              rw [List.getD_cons_succ, List.getD_cons_succ, ← tail]
              omega

theorem last_of_some {wanted : Nat → Prop} {count : Nat} (some : ∃ place, place < count ∧ wanted place) :
    ∃ last, last < count ∧ wanted last ∧ ∀ later, last < later → later < count → ¬wanted later := by
  induction count with
  | zero =>
      obtain ⟨place, within, -⟩ := some
      omega
  | succ count ih =>
      by_cases top : wanted count
      · exact ⟨count, Nat.lt_succ_self _, top, fun later above within => by omega⟩
      · obtain ⟨place, within, here⟩ := some
        have below : place < count := by
          rcases Nat.lt_or_ge place count with below | above
          · exact below
          · have same : place = count := by omega
            rw [same] at here
            exact absurd here top
        obtain ⟨last, inside, holds, none⟩ := ih ⟨place, below, here⟩
        refine ⟨last, Nat.lt_succ_of_lt inside, holds, fun later above within => ?_⟩
        by_cases end_ : later = count
        · rw [end_]
          exact top
        · exact none later above (by omega)

end Numbers

/-- When comparing words of `order` and then signed bytes orders two byte strings as unsigned
values: the bytes that differ first decide it in the same way. -/
def ComparesUnsigned (order : ByteOrder) (first second : List Byte) : Prop :=
  ∀ place, DifferAt first second place →
    if place / 4 < min first.length second.length / 4 then
      order = .big ∨ ∀ last, last / 4 = place / 4 → first.getD last 0 ≠ second.getD last 0 →
        (∀ later, last < later → later / 4 = place / 4 →
          first.getD later 0 = second.getD later 0) →
        ((first.getD last 0).toNat < (second.getD last 0).toNat ↔
          (first.getD place 0).toNat < (second.getD place 0).toNat)
    else (first.getD place 0).toNat < 128 ↔ (second.getD place 0).toNat < 128

namespace ChannelBuffers

section Rounds

variable {getA getB : Int → Except Stop Int} {width count aIndex bIndex : Nat}
  {valueA valueB : Nat → Int}

theorem comparing_none (givesA : Gives getA width aIndex count valueA)
    (givesB : Gives getB width bIndex count valueB)
    (same : ∀ round, round < count → valueA round = valueB round) :
    comparing getA getB width count aIndex bIndex = .ok 0 := by
  induction count generalizing aIndex bIndex valueA valueB with
  | zero => rfl
  | succ count ih =>
      have rest := ih givesA.later givesB.later
        fun round within => same (round + 1) (Nat.succ_lt_succ within)
      rw [Int.natCast_add, Int.natCast_add] at rest
      have equal := same 0 (Nat.succ_pos _)
      rw [comparing, givesA.first, ok_bind, givesB.first, ok_bind, if_neg (by omega),
        if_neg (by omega), rest]

/-- The first round with different values ends the loop. -/
theorem comparing_first {round : Nat} (within : round < count)
    (givesA : Gives getA width aIndex count valueA) (givesB : Gives getB width bIndex count valueB)
    (before : ∀ earlier, earlier < round → valueA earlier = valueB earlier)
    (differs : valueA round ≠ valueB round) :
    comparing getA getB width count aIndex bIndex =
      .ok (if valueB round < valueA round then 1 else -1) := by
  induction count generalizing aIndex bIndex valueA valueB round with
  | zero => omega
  | succ count ih =>
      rw [comparing, givesA.first, ok_bind, givesB.first, ok_bind]
      cases round with
      | zero =>
          by_cases above : valueB 0 < valueA 0
          · rw [if_pos above, if_pos above]
            rfl
          · rw [if_neg above, if_neg above, if_pos (by omega)]
            rfl
      | succ round =>
          have rest := ih (Nat.lt_of_succ_lt_succ within) givesA.later givesB.later
            (fun earlier within => before (earlier + 1) (Nat.succ_lt_succ within)) differs
          rw [Int.natCast_add, Int.natCast_add] at rest
          have equal := before 0 (Nat.succ_pos _)
          rw [if_neg (by omega), if_neg (by omega), rest]

end Rounds

section Built

/-- The words of a buffer in a given order, as the loop sees them. -/
theorem gives_words {buffer : ChannelBuffer} {get_ : Int → Except Stop (BitVec 32)}
    {order : ByteOrder} {reader count : Nat} (rounds : Nat)
    (bound : reader + count ≤ buffer.content.length) (fewer : 4 * rounds ≤ count)
    (got : ∀ index : Nat, index + 4 ≤ buffer.content.length →
      get_ index = .ok (order.intAt buffer.content index)) :
    Gives (unsignedAt get_) 4 reader rounds fun round =>
      (order.number (window (window buffer.content reader count) (4 * round) 4) : Int) := by
  intro round within
  unfold unsignedAt
  dsimp only
  rw [got _ (by omega), window_window _ _ _ _ _ (by omega), ← intAt_toNat order (by omega)]
  rfl

theorem gives_bytes {buffer : ChannelBuffer} (built : buffer.WellBuilt) {reader count : Nat}
    (front rounds : Nat) (bound : reader + count ≤ buffer.content.length)
    (fewer : front + rounds ≤ count) :
    Gives (signedAt buffer.getters.getByte) 1 (reader + front) rounds
      fun round => ((window buffer.content reader count).getD (front + round) 0).toInt := by
  intro round within
  unfold signedAt
  dsimp only
  rw [built.answers.byte _ (by omega), getD_window (by omega), Nat.one_mul, Nat.add_assoc]
  rfl

theorem toInt_lt_iff {one other : Byte} :
    (one.toInt < other.toInt ↔ one.toNat < other.toNat) ↔ (one.toNat < 128 ↔ other.toNat < 128) := by
  have top := one.isLt
  have top_ := other.isLt
  rw [BitVec.toInt_eq_toNat_cond, BitVec.toInt_eq_toNat_cond]
  split <;> split <;> omega

/-- What the sign of a result says about two different values. -/
theorem sign_iff {Value : Type} [LinearOrder Value] {valueA valueB : Value} {one other : Nat}
    (differs : valueA ≠ valueB) (differs_ : one ≠ other) :
    (Ord.compare (if valueB < valueA then (1 : Int) else -1) 0 = Ord.compare one other) ↔
      (valueA < valueB ↔ one < other) := by
  have positive : Ord.compare (1 : Int) 0 = .gt := by decide
  have negative : Ord.compare (-1 : Int) 0 = .lt := by decide
  rcases Nat.lt_or_gt_of_ne differs_ with below | above
  · rw [Nat.compare_eq_lt.mpr below]
    by_cases greater : valueB < valueA
    · rw [if_pos greater, positive]
      constructor
      · intro wrong
        cases wrong
      · intro same
        exact absurd (same.mpr below) (lt_asymm greater)
    · have less : valueA < valueB := lt_of_le_of_ne (not_lt.mp greater) differs
      rw [if_neg greater, negative]
      exact ⟨fun _ => ⟨fun _ => below, fun _ => less⟩, fun _ => rfl⟩
  · rw [Nat.compare_eq_gt.mpr above]
    by_cases greater : valueB < valueA
    · rw [if_pos greater, positive]
      exact ⟨fun _ => ⟨fun less => absurd less (lt_asymm greater), fun less => by omega⟩,
        fun _ => rfl⟩
    · have less : valueA < valueB := lt_of_le_of_ne (not_lt.mp greater) differs
      rw [if_neg greater, negative]
      constructor
      · intro wrong
        cases wrong
      · intro same
        have below := same.mp less
        omega

/-- The order of two words with a byte that differs, as the first buffer reads them. -/
theorem words_order (order : ByteOrder) {first second : List Byte} {place : Nat}
    (differ : DifferAt first second place)
    (word : place / 4 < min first.length second.length / 4) :
    order.number (window first (4 * (place / 4)) 4) ≠ order.number (window second (4 * (place / 4)) 4) ∧
    ((order.number (window first (4 * (place / 4)) 4) < order.number (window second (4 * (place / 4)) 4) ↔
      (first.getD place 0).toNat < (second.getD place 0).toNat) ↔
      order = .big ∨ ∀ last, last / 4 = place / 4 → first.getD last 0 ≠ second.getD last 0 →
        (∀ later, last < later → later / 4 = place / 4 →
          first.getD later 0 = second.getD later 0) →
        ((first.getD last 0).toNat < (second.getD last 0).toNat ↔
          (first.getD place 0).toNat < (second.getD place 0).toNat)) := by
  have parts := Nat.div_add_mod place 4
  have small := Nat.mod_lt place (show 4 > 0 by decide)
  have left : (window first (4 * (place / 4)) 4).length = 4 := window_length (by omega)
  have right : (window second (4 * (place / 4)) 4).length = 4 := window_length (by omega)
  have sizes := left.trans right.symm
  have seen : ∀ offset, offset < 4 →
      (window first (4 * (place / 4)) 4).getD offset 0 = first.getD (4 * (place / 4) + offset) 0 ∧
      (window second (4 * (place / 4)) 4).getD offset 0 = second.getD (4 * (place / 4) + offset) 0 :=
    fun offset within => ⟨getD_window within, getD_window within⟩
  have here := seen (place % 4) small
  rw [parts] at here
  have unequal : order.number (window first (4 * (place / 4)) 4) ≠
      order.number (window second (4 * (place / 4)) 4) := by
    intro same
    have equal := number_injective order sizes same
    exact differ.differs (by rw [← here.1, ← here.2, equal])
  refine ⟨unequal, ?_⟩
  cases order with
  | big =>
      have inner : DifferAt (window first (4 * (place / 4)) 4) (window second (4 * (place / 4)) 4)
          (place % 4) := by
        refine ⟨by omega, by omega, ?_, ?_⟩
        · intro earlier within
          rw [(seen earlier (by omega)).1, (seen earlier (by omega)).2]
          exact differ.before _ (by omega)
        · rw [here.1, here.2]
          exact differ.differs
      have ordered := big_number_lt sizes inner
      rw [here.1, here.2] at ordered
      exact ⟨fun _ => Or.inl rfl, fun _ => ordered⟩
  | little =>
      have some : ∃ offset, offset < 4 ∧ first.getD (4 * (place / 4) + offset) 0 ≠
          second.getD (4 * (place / 4) + offset) 0 :=
        ⟨place % 4, small, by rw [parts]; exact differ.differs⟩
      obtain ⟨offset, within, differs, none⟩ := last_of_some some
      have lastOrder : ByteOrder.little.number (window first (4 * (place / 4)) 4) <
          ByteOrder.little.number (window second (4 * (place / 4)) 4) ↔
          (first.getD (4 * (place / 4) + offset) 0).toNat <
            (second.getD (4 * (place / 4) + offset) 0).toNat := by
        rw [← (seen offset within).1, ← (seen offset within).2]
        apply little_number_lt sizes
        · rw [(seen offset within).1, (seen offset within).2]
          exact differs
        · intro later above
          by_cases inside : later < 4
          · rw [(seen later inside).1, (seen later inside).2]
            exact not_not.mp (none later above inside)
          · rw [getD_beyond (by omega), getD_beyond (by omega)]
      rw [lastOrder]
      constructor
      · intro same
        refine Or.inr fun last group differs_ behind => ?_
        have position : last = 4 * (place / 4) + offset := by
          have low := Nat.mod_lt last (show 4 > 0 by decide)
          rcases Nat.lt_trichotomy (last % 4) offset with below | equal | above
          · exact absurd (behind (4 * (place / 4) + offset) (by omega) (by omega)) differs
          · omega
          · have unlike := none (last % 4) above low
            rw [show 4 * (place / 4) + last % 4 = last by omega] at unlike
            exact absurd differs_ unlike
        rw [position]
        exact same
      · rintro (big | all)
        · cases big
        · apply all _ (by omega) differs
          intro later above group
          have low := Nat.mod_lt later (show 4 > 0 by decide)
          have equal := not_not.mp (none (later % 4) (by omega) low)
          rwa [show 4 * (place / 4) + later % 4 = later by omega] at equal

/-- What the loops of `compare` see. -/
theorem compare_loops {bufferA bufferB : ChannelBuffer} (builtA : bufferA.WellBuilt)
    (builtB : bufferB.WellBuilt) {least : Nat}
    (shorter : least = min bufferA.readableContent.length bufferB.readableContent.length) :
    ∃ readerA readerB : Nat,
      Gives (unsignedAt bufferA.getters.getInt) 4 readerA (least / 4)
        (fun round => (bufferA.order.number (window bufferA.readableContent (4 * round) 4) : Int)) ∧
      Gives (unsignedAt (intIn bufferA.order bufferB.getters)) 4 readerB (least / 4)
        (fun round => (bufferA.order.number (window bufferB.readableContent (4 * round) 4) : Int)) ∧
      Gives (signedAt bufferA.getters.getByte) 1 (readerA + 4 * (least / 4)) (least % 4)
        (fun round => (bufferA.readableContent.getD (4 * (least / 4) + round) 0).toInt) ∧
      Gives (signedAt bufferB.getters.getByte) 1 (readerB + 4 * (least / 4)) (least % 4)
        (fun round => (bufferB.readableContent.getD (4 * (least / 4) + round) 0).toInt) ∧
      compare bufferA bufferB = (do
        let words ← comparing (unsignedAt bufferA.getters.getInt)
          (unsignedAt (intIn bufferA.order bufferB.getters)) ((4 : Nat) : Int) (least / 4) readerA readerB
        if words ≠ 0 then pure words
        else do
          let bytes ← comparing (signedAt bufferA.getters.getByte) (signedAt bufferB.getters.getByte)
            ((1 : Nat) : Int) (least % 4) ((readerA + 4 * (least / 4) : Nat) : Int)
            ((readerB + 4 * (least / 4) : Nat) : Int)
          if bytes ≠ 0 then pure bytes
          else pure ((bufferA.readableContent.length : Int) - bufferB.readableContent.length)) := by
  obtain ⟨readerA, countA, startA, sizeA, shownA, boundA⟩ := builtA.readable
  obtain ⟨readerB, countB, startB, sizeB, shownB, boundB⟩ := builtB.readable
  have lengthA : bufferA.readableContent.length = countA := by
    rw [shownA]
    exact window_length boundA
  have lengthB : bufferB.readableContent.length = countB := by
    rw [shownB]
    exact window_length boundB
  rw [lengthA, lengthB] at shorter
  have smallA := builtA.answers.small
  have smallB := builtB.answers.small
  refine ⟨readerA, readerB, ?_, ?_, ?_, ?_, ?_⟩
  · rw [shownA]
    exact gives_words (least / 4) boundA (by omega) builtA.answers.int
  · rw [shownB]
    exact gives_words (least / 4) boundB (by omega)
      fun index inside => intIn_answers builtB.answers bufferA.order inside
  · rw [shownA]
    exact gives_bytes builtA (4 * (least / 4)) (least % 4) boundA (by omega)
  · rw [shownB]
    exact gives_bytes builtB (4 * (least / 4)) (least % 4) boundB (by omega)
  · have lesser : (if (countA : Int) < countB then (countA : Int) else countB) = (least : Nat) := by
      split <;> omega
    have uintCount : ((least : Int) / 4).toNat = least / 4 := by omega
    have byteCount : ((least : Int) % 4).toNat = least % 4 := by omega
    have behindA : (readerA : Int) + 4 * ((least / 4 : Nat) : Int) =
        ((readerA + 4 * (least / 4) : Nat) : Int) := by omega
    have behindB : (readerB : Int) + 4 * ((least / 4 : Nat) : Int) =
        ((readerB + 4 * (least / 4) : Nat) : Int) := by omega
    have exact_ : int32 ((countA : Int) - countB) = countA - countB := by
      unfold maxInt at smallA smallB
      exact int32_of_bounds (by unfold minInt; omega) (by unfold maxInt; omega)
    unfold compare
    simp only [sizeA, sizeB, startA, startB, lesser, uintCount, byteCount, behindA, behindB, exact_,
      lengthA, lengthB]
    rfl

section Outcomes

variable {bufferA bufferB : ChannelBuffer} (builtA : bufferA.WellBuilt) (builtB : bufferB.WellBuilt)
  {place : Nat}

include builtA builtB

section

variable (differ : DifferAt bufferA.readableContent bufferB.readableContent place)

include differ

/-- The first difference is in a word. -/
theorem compare_word (word : place / 4 <
      min bufferA.readableContent.length bufferB.readableContent.length / 4) :
    compare bufferA bufferB = .ok
      (if bufferA.order.number (window bufferB.readableContent (4 * (place / 4)) 4) <
          bufferA.order.number (window bufferA.readableContent (4 * (place / 4)) 4) then 1 else -1) := by
  obtain ⟨readerA, readerB, wordsA, wordsB, -, -, ran⟩ := compare_loops builtA builtB rfl
  have found := comparing_first word wordsA wordsB
    (fun earlier within => by
      rw [window_ext (by omega) (by omega) fun offset inside => differ.before _ (by omega)])
    (fun equal => (words_order bufferA.order differ word).1 (Int.ofNat.inj equal))
  rw [found, ok_bind] at ran
  rw [ran, if_pos (by split <;> decide)]
  simp only [Int.ofNat_lt]
  rfl

/-- The first difference is behind the words. -/
theorem compare_byte (behind : ¬place / 4 <
      min bufferA.readableContent.length bufferB.readableContent.length / 4) :
    compare bufferA bufferB = .ok
      (if (bufferB.readableContent.getD place 0).toInt < (bufferA.readableContent.getD place 0).toInt
        then 1 else -1) := by
  obtain ⟨readerA, readerB, wordsA, wordsB, bytesA, bytesB, ran⟩ := compare_loops builtA builtB rfl
  have left := differ.left
  have right := differ.right
  generalize least_ : min bufferA.readableContent.length bufferB.readableContent.length = least at *
  obtain ⟨round, position⟩ : ∃ round, place = 4 * (least / 4) + round :=
    ⟨place - 4 * (least / 4), by omega⟩
  have none := comparing_none wordsA wordsB fun round within => by
    rw [window_ext (by omega) (by omega) fun offset inside => differ.before _ (by omega)]
  have found := comparing_first (show round < least % 4 by omega) bytesA bytesB
    (fun earlier within => by rw [differ.before _ (by omega)])
    (by
      rw [← position]
      exact fun equal => differ.differs (BitVec.eq_of_toInt_eq equal))
  rw [none, ok_bind, if_neg (by decide), found, ok_bind, ← position] at ran
  rw [ran, if_pos (by split <;> decide)]
  rfl

end

theorem compare_none
    (same : ∀ place, place < bufferA.readableContent.length → place < bufferB.readableContent.length →
      bufferA.readableContent.getD place 0 = bufferB.readableContent.getD place 0) :
    compare bufferA bufferB =
      .ok ((bufferA.readableContent.length : Int) - bufferB.readableContent.length) := by
  obtain ⟨readerA, readerB, wordsA, wordsB, bytesA, bytesB, ran⟩ := compare_loops builtA builtB rfl
  generalize least_ : min bufferA.readableContent.length bufferB.readableContent.length = least at *
  have none := comparing_none wordsA wordsB fun round within => by
    rw [window_ext (by omega) (by omega) fun offset inside => same _ (by omega) (by omega)]
  have none_ := comparing_none bytesA bytesB fun round within => by
    rw [same _ (by omega) (by omega)]
  rw [none, ok_bind, if_neg (by decide), none_, ok_bind, if_neg (by decide)] at ran
  exact ran

end Outcomes

/-- `compare` orders two buffers as unsigned byte strings exactly when the bytes that decide it
allow it. -/
theorem compare_unsigned_iff (first second : BuiltBuffer) :
    ∃ result, compare first.val second.val = .ok result ∧
      (Ord.compare result 0 =
          unsignedOrder first.val.readableContent second.val.readableContent ↔
        ComparesUnsigned first.val.order first.val.readableContent second.val.readableContent) := by
  rcases differ_or_same first.val.readableContent second.val.readableContent with
    ⟨place, differ⟩ | same
  · have bytesDiffer : (first.val.readableContent.getD place 0).toNat ≠
        (second.val.readableContent.getD place 0).toNat :=
      fun equal => differ.differs (BitVec.eq_of_toNat_eq equal)
    have unique : ∀ other, DifferAt first.val.readableContent second.val.readableContent other →
        other = place := by
      intro other there
      rcases Nat.lt_trichotomy other place with below | equal | above
      · exact absurd (differ.before other below) there.differs
      · exact equal
      · exact absurd (there.before place above) differ.differs
    rw [unsignedOrder_differ differ]
    unfold ComparesUnsigned
    by_cases word : place / 4 <
        min first.val.readableContent.length second.val.readableContent.length / 4
    · obtain ⟨unequal, ordered⟩ := words_order first.val.order differ word
      refine ⟨_, compare_word first.property second.property differ word, ?_⟩
      rw [sign_iff unequal bytesDiffer, ordered]
      constructor
      · intro holds other there
        rw [unique other there, if_pos word]
        exact holds
      · intro all
        have here := all place differ
        rw [if_pos word] at here
        exact here
    · refine ⟨_, compare_byte first.property second.property differ word, ?_⟩
      have signed : (first.val.readableContent.getD place 0).toInt ≠
          (second.val.readableContent.getD place 0).toInt :=
        fun equal => differ.differs (BitVec.eq_of_toInt_eq equal)
      rw [sign_iff signed bytesDiffer, toInt_lt_iff]
      constructor
      · intro holds other there
        rw [unique other there, if_neg word]
        exact holds
      · intro all
        have here := all place differ
        rw [if_neg word] at here
        exact here
  · refine ⟨_, compare_none first.property second.property same, ?_⟩
    have vacuous : ComparesUnsigned first.val.order first.val.readableContent
        second.val.readableContent := by
      intro place differ
      exact absurd (same place differ.left differ.right) differ.differs
    refine ⟨fun _ => vacuous, fun _ => ?_⟩
    rw [unsignedOrder_same same]
    rcases Nat.lt_trichotomy first.val.readableContent.length second.val.readableContent.length with
      below | equal | above
    · rw [Nat.compare_eq_lt.mpr below]
      exact Int.compare_eq_lt.mpr (by omega)
    · rw [Nat.compare_eq_eq.mpr equal]
      exact Int.compare_eq_eq.mpr (by omega)
    · rw [Nat.compare_eq_gt.mpr above]
      exact Int.compare_eq_gt.mpr (by omega)

end Built

/-- A heap buffer of which everything is readable. -/
def wholeBuffer (order : ByteOrder) (bytes : CharArray) (small : (bytes.length : Int) ≤ maxInt) :
    BuiltBuffer :=
  ⟨.heap ⟨order, bytes, { Indices.zero with writerIdx := bytes.length }⟩,
    .heap small ⟨Int.le_refl _, Int.natCast_nonneg _, Int.le_refl _⟩⟩

theorem wholeBuffer_readable (order : ByteOrder) (bytes : CharArray)
    (small : (bytes.length : Int) ≤ maxInt) :
    (wholeBuffer order bytes small).val.readableContent = bytes := by
  unfold ChannelBuffer.readableContent wholeBuffer
  rw [ChannelBuffer.content]
  exact window_whole bytes

/-- Behind the last word 0x80 is below 0x7f, and words of little-endian buffers are ordered by
their last bytes. -/
theorem compare_misorders :
    (∃ result, compare (wholeBuffer .big [0x80] (by decide)).val
        (wholeBuffer .big [0x7f] (by decide)).val = .ok result ∧
      Ord.compare result 0 ≠ unsignedOrder [0x80] [0x7f]) ∧
    ∃ result, compare (wholeBuffer .little [1, 0, 0, 2] (by decide)).val
        (wholeBuffer .little [2, 0, 0, 1] (by decide)).val = .ok result ∧
      Ord.compare result 0 ≠ unsignedOrder [1, 0, 0, 2] [2, 0, 0, 1] := by
  constructor
  · have first : DifferAt (wholeBuffer .big [0x80] (by decide)).val.readableContent
        (wholeBuffer .big [0x7f] (by decide)).val.readableContent 0 := by
      rw [wholeBuffer_readable, wholeBuffer_readable]
      exact ⟨by decide, by decide, fun earlier within => by omega, by decide⟩
    have ran := compare_byte (Subtype.property _) (Subtype.property _) first
    rw [wholeBuffer_readable, wholeBuffer_readable] at ran
    exact ⟨_, ran (by decide), by decide⟩
  · have first : DifferAt (wholeBuffer .little [1, 0, 0, 2] (by decide)).val.readableContent
        (wholeBuffer .little [2, 0, 0, 1] (by decide)).val.readableContent 0 := by
      rw [wholeBuffer_readable, wholeBuffer_readable]
      exact ⟨by decide, by decide, fun earlier within => by omega, by decide⟩
    have ran := compare_word (Subtype.property _) (Subtype.property _) first
    have order : (wholeBuffer .little [1, 0, 0, 2] (by decide)).val.order = .little := by
      unfold wholeBuffer ChannelBuffer.order
      rw [ChannelBuffer.getters]
      rfl
    rw [wholeBuffer_readable, wholeBuffer_readable, order] at ran
    exact ⟨_, ran (by decide), by decide⟩

end ChannelBuffers

end Cetty
