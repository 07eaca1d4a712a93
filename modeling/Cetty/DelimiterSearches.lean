import Cetty.BufferSearch
import Cetty.BuiltBuffers
import Cetty.DelimiterFrameDecoder

/-!
# Searching a buffer for a delimiter

A comparison that comes to the writer index gives the whole search up. There is no room for the
delimiter from there on, so nothing is missed.
-/

namespace Cetty

open MachineInt ByteWindow

namespace DelimiterBasedFrameDecoder

/-- The first place at which the whole needle stands, or -1 when there is none. -/
def FirstAt (cells whole : List Byte) (result : Int) : Prop :=
  (∃ i : Nat, result = i ∧ whole <+: cells.drop i ∧ ∀ j < i, ¬whole <+: cells.drop j) ∨
    (result = -1 ∧ ∀ i, ¬whole <+: cells.drop i)

/-- `searchNeedle`, with what it reads as a parameter. -/
def searchIn (haystack needle : Getters) (readerIdx writerIdx : Int) :
    Nat → Int → Except Stop Int
  | 0, _ => pure (-1)
  | rounds + 1, i => do
      match ← compareNeedle haystack needle writerIdx needle.capacity.toNat i 0 with
      | .found => pure (i - readerIdx)
      | .ends => pure (-1)
      | .differs => searchIn haystack needle readerIdx writerIdx rounds (i + 1)

theorem searchNeedle_eq (haystack : ChannelBuffer) (needle : Getters) (rounds : Nat) (i : Int) :
    searchNeedle haystack needle rounds i =
      searchIn haystack.getters needle haystack.readerIdx haystack.writerIdx rounds i := by
  induction rounds generalizing i with
  | zero => rfl
  | succ rounds induction =>
      rw [searchNeedle, searchIn]
      apply bind_congr
      intro outcome
      cases outcome with
      | found => rfl
      | ends => rfl
      | differs => exact induction (i + 1)

/-- The inner loop on the bytes themselves. -/
def compared : List Byte → List Byte → Comparison
  | _, [] => .found
  | [], _ :: _ => .ends
  | c :: cells, d :: whole =>
      if c ≠ d then .differs
      else if cells = [] ∧ whole ≠ [] then .ends
      else compared cells whole

section Comparing

variable {haystack needle : Getters} {cells front whole : List Byte} {readerIdx : Nat}

theorem compared_found_iff (cells whole : List Byte) :
    compared cells whole = .found ↔ whole <+: cells := by
  induction cells, whole using compared.induct with
  | case1 cells =>
      rw [compared]
      exact ⟨fun _ => List.nil_prefix, fun _ => rfl⟩
  | case2 d whole =>
      rw [compared]
      exact ⟨nofun, fun wrong => absurd (List.prefix_nil.mp wrong) nofun⟩
  | case3 c cells d whole differs =>
      rw [compared, if_pos differs]
      exact ⟨nofun, fun wrong => absurd (List.cons_prefix_cons.mp wrong).1.symm differs⟩
  | case4 c cells d whole same ended =>
      rw [compared, if_neg same, if_pos ended, ended.1]
      refine ⟨nofun, fun wrong => absurd (List.cons_prefix_cons.mp wrong).2 ?_⟩
      exact fun nothing => ended.2 (List.prefix_nil.mp nothing)
  | case5 c cells d whole same more induction =>
      rw [compared, if_neg same, if_neg more, induction, List.cons_prefix_cons]
      exact ⟨fun within => ⟨(not_not.mp same).symm, within⟩, And.right⟩

/-- When the bytes give out, there are fewer of them than of the needle. -/
theorem shorter_of_ends {cells whole : List Byte} (ends : compared cells whole = .ends) :
    cells.length < whole.length := by
  induction cells, whole using compared.induct with
  | case1 cells =>
      rw [compared] at ends
      cases ends
  | case2 d whole => exact Nat.succ_pos _
  | case3 c cells d whole differs =>
      rw [compared, if_pos differs] at ends
      cases ends
  | case4 c cells d whole same ended =>
      have positive := List.length_pos_iff.mpr ended.2
      rw [ended.1, List.length_cons, List.length_cons]
      exact Nat.succ_lt_succ positive
  | case5 c cells d whole same more induction =>
      rw [compared, if_neg same, if_neg more] at ends
      exact Nat.succ_lt_succ (induction ends)

theorem compareNeedle_run (begins : haystack.Begins cells) (shown : needle.Begins (front ++ whole))
    (start : Nat) (inside : start < cells.length ∨ whole = []) :
    compareNeedle haystack needle cells.length whole.length start front.length =
      .ok (compared (cells.drop start) whole) := by
  induction whole generalizing front start with
  | nil =>
      rw [compared]
      rfl
  | cons d whole induction =>
      have inside := inside.resolve_right (List.cons_ne_nil d whole)
      have second := shown.byte front.length (by rw [List.length_append, List.length_cons]; omega)
      have here : (front ++ d :: whole).getD front.length 0 = d := by simp
      have behind : cells.drop start = cells.getD start 0 :: cells.drop (start + 1) := by
        rw [List.drop_eq_getElem_cons inside]
        simp [inside]
      have gone : cells.drop (start + 1) = [] ↔ ((start : Int) + 1 = cells.length) := by
        rw [List.drop_eq_nil_iff]
        omega
      have left : whole.length ≠ 0 ↔ whole ≠ [] := List.length_eq_zero_iff.not
      rw [List.length_cons, compareNeedle, begins.byte start inside, ok_bind, second, ok_bind, here,
        behind, compared]
      by_cases differs : cells.getD start 0 ≠ d
      · rw [if_pos differs, if_pos differs]
        rfl
      · rw [if_neg differs, if_neg differs]
        by_cases ended : cells.drop (start + 1) = [] ∧ whole ≠ []
        · rw [if_pos ended, if_pos ⟨gone.mp ended.1, left.mpr ended.2⟩]
          rfl
        · rw [if_neg ended, if_neg fun wrong => ended ⟨gone.mpr wrong.1, left.mp wrong.2⟩]
          have parts : front ++ d :: whole = front ++ [d] ++ whole := by simp
          have onward := @induction (front ++ [d]) (parts ▸ shown) (start + 1) (by
            by_cases none : whole = []
            · exact Or.inr none
            · refine Or.inl ?_
              by_contra far
              exact ended ⟨List.drop_eq_nil_iff.mpr (by omega), none⟩)
          rw [List.length_append, List.length_singleton] at onward
          exact onward

/-- The search from a place on: nothing in front of the result is passed over. -/
theorem searchIn_run (shown : needle.Begins whole) (all : needle.capacity = whole.length)
    (some_ : whole ≠ []) (rounds start : Nat) (ending : start + rounds = cells.length) :
    (∃ i : Nat, start ≤ i ∧ whole <+: cells.drop i ∧
        (∀ j, start ≤ j → j < i → ¬whole <+: cells.drop j) ∧
        ∀ haystack : Getters, haystack.Begins cells →
          searchIn haystack needle readerIdx cells.length rounds start = .ok ((i : Int) - readerIdx)) ∨
      ((∀ j, start ≤ j → ¬whole <+: cells.drop j) ∧
        ∀ haystack : Getters, haystack.Begins cells →
          searchIn haystack needle readerIdx cells.length rounds start = .ok (-1)) := by
  have positive := List.length_pos_iff.mpr some_
  have room : ∀ {j}, whole <+: cells.drop j → j + whole.length ≤ cells.length := by
    intro j within
    have counted := within.length_le
    rw [List.length_drop] at counted
    omega
  induction rounds generalizing start with
  | zero =>
      refine Or.inr ⟨fun j beyond within => ?_, fun _ _ => rfl⟩
      have counted := room within
      omega
  | succ rounds induction =>
      have step : ∀ haystack : Getters, haystack.Begins cells →
          compareNeedle haystack needle cells.length needle.capacity.toNat start 0 =
            .ok (compared (cells.drop start) whole) := by
        intro haystack begins
        rw [all, Int.toNat_natCast]
        exact @compareNeedle_run haystack needle cells [] whole begins shown start
          (Or.inl (by omega))
      cases how : compared (cells.drop start) whole with
      | found =>
          refine Or.inl ⟨start, Nat.le_refl _, (compared_found_iff _ _).mp how,
            fun j lower upper => absurd lower (by omega), fun haystack begins => ?_⟩
          rw [searchIn, step haystack begins, how]
          rfl
      | ends =>
          have few := shorter_of_ends how
          rw [List.length_drop] at few
          refine Or.inr ⟨fun j beyond within => ?_, fun haystack begins => ?_⟩
          · have counted := room within
            omega
          · rw [searchIn, step haystack begins, how]
            rfl
      | differs =>
          have apart : ∀ {j}, start ≤ j → whole <+: cells.drop j → start + 1 ≤ j := by
            intro j beyond within
            rcases Nat.lt_or_eq_of_le beyond with after | rfl
            · exact after
            · rw [(compared_found_iff _ _).mpr within] at how
              cases how
          have onward : ∀ haystack : Getters, haystack.Begins cells →
              searchIn haystack needle readerIdx cells.length (rounds + 1) start =
                searchIn haystack needle readerIdx cells.length rounds ((start + 1 : Nat) : Int) := by
            intro haystack begins
            rw [searchIn, step haystack begins, how]
            rfl
          rcases induction (start + 1) (by omega) with ⟨i, beyond, within, first, ran⟩ | ⟨none, ran⟩
          · exact Or.inl ⟨i, by omega, within,
              fun j lower upper here => first j (apart lower here) upper here,
              fun haystack begins => (onward haystack begins).trans (ran haystack begins)⟩
          · exact Or.inr ⟨fun j lower here => none j (apart lower here) here,
              fun haystack begins => (onward haystack begins).trans (ran haystack begins)⟩

end Comparing

/-- The search gives the first place of the needle in the readable bytes. What lies behind the writer
index has no part in it, whatever a read of it would do. -/
structure Locates (haystack needle : ChannelBuffer) (result : Int) : Prop where
  ran : indexOf haystack needle = .ok result
  first : FirstAt haystack.readableContent needle.content result
  alone : ∀ other : Getters, other.Begins (haystack.content.take haystack.writerIdx.toNat) →
    searchIn other needle.getters haystack.readerIdx haystack.writerIdx
      (haystack.writerIdx - haystack.readerIdx).toNat haystack.readerIdx = .ok result

theorem indexOf_first (haystack needle : ChannelBuffer) (built : haystack.WellBuilt)
    (built' : needle.WellBuilt) (some_ : needle.content ≠ []) :
    ∃ result, Locates haystack needle result := by
  have inside := built.inside
  have lower : 0 ≤ haystack.readerIdx := inside.reader
  have ordered : haystack.readerIdx ≤ haystack.writerIdx := inside.writer
  have bound : haystack.writerIdx ≤ haystack.content.length := inside.bound
  have answers := built.answers
  have answers' := built'.answers
  obtain ⟨reader, start⟩ : ∃ reader : Nat, haystack.readerIdx = reader := ⟨_, (Int.toNat_of_nonneg lower).symm⟩
  obtain ⟨writer, ending⟩ : ∃ writer : Nat, haystack.writerIdx = writer :=
    ⟨_, (Int.toNat_of_nonneg (by omega)).symm⟩
  have readable : haystack.readableContent = (haystack.content.take writer).drop reader := by
    unfold ChannelBuffer.readableContent window
    rw [List.drop_take, start, ending]
    congr 1
    omega
  have searched : ∀ rounds, searchNeedle haystack needle.getters rounds haystack.readerIdx =
      searchIn haystack.getters needle.getters reader writer rounds reader := by
    intro rounds
    rw [searchNeedle_eq, start, ending]
  suffices located : ∃ result,
      searchIn haystack.getters needle.getters reader writer ((writer : Int) - reader).toNat reader =
        .ok result ∧
      FirstAt ((haystack.content.take writer).drop reader) needle.content result ∧
      ∀ other : Getters, other.Begins (haystack.content.take writer) →
        searchIn other needle.getters reader writer ((writer : Int) - reader).toNat reader =
          .ok result by
    obtain ⟨result, ran, first, alone⟩ := located
    refine ⟨result, ?_, ?_, ?_⟩
    · rw [indexOf, searched, start, ending]
      exact ran
    · rw [readable]
      exact first
    · rw [start, ending, Int.toNat_natCast]
      exact alone
  generalize window_ : haystack.content.take writer = cells
  have size : cells.length = writer := by
    rw [← window_]
    exact List.length_take_of_le (by omega)
  have begins : haystack.getters.Begins cells := by
    refine ⟨by rw [answers.capacity]; omega, fun i early => ?_⟩
    rw [answers.byte i (by omega), ← window_]
    simp [show i < writer by omega]
  have shown : needle.getters.Begins needle.content := ⟨Int.le_of_eq answers'.capacity.symm, answers'.byte⟩
  have shift : ∀ i, ((cells.drop reader).drop i) = cells.drop (reader + i) := fun i => List.drop_drop
  rw [← size]
  rcases @searchIn_run needle.getters cells needle.content reader shown answers'.capacity some_
    ((cells.length : Int) - reader).toNat reader (by omega) with
    ⟨i, beyond, within, first, ran⟩ | ⟨none, ran⟩
  · refine ⟨_, ran _ begins, Or.inl ⟨i - reader, by omega, ?_, fun j early here => ?_⟩, ran⟩
    · rw [shift, Nat.add_sub_cancel' beyond]
      exact within
    · rw [shift] at here
      exact first (reader + j) (by omega) (by omega) here
  · refine ⟨_, ran _ begins, Or.inr ⟨rfl, fun i here => ?_⟩, ran⟩
    rw [shift] at here
    exact none (reader + i) (by omega) here

/-- Behind a carriage return that comes too early. -/
theorem indexOf_first_line :
    ∃ result, Locates (.heap ⟨.big, [13, 13, 10, 13], ⟨0, 4, 0, 0⟩⟩)
      (.heap ⟨.big, [13, 10], ⟨0, 2, 0, 0⟩⟩) result :=
  indexOf_first _ _ (.heap (by decide) ⟨by decide, by decide, by decide⟩)
    (.heap (by decide) ⟨by decide, by decide, by decide⟩) (by
      rw [ChannelBuffer.content]
      exact List.cons_ne_nil _ _)

end DelimiterBasedFrameDecoder

end Cetty
