import Cetty.HeaderSections

/-!
# How the trailing headers are read

No trailing header is ever added, so that a line that continues one has nothing to continue. What is
left of a trailer section is where its lines end.
-/

namespace Cetty

open CLocale MachineInt ByteWindow

/-- The lines of a trailer section behind its first, up to the empty one. -/
def trailerSection (limit : Int) : Nat → Int → List Byte → LineRead
  | 0, _, _ => .short
  | rounds + 1, headerSize, bytes =>
      match headerScan limit headerSize bytes with
      | .short => .short
      | .tooLarge => .tooLarge
      | .ended characters counted =>
          if characters = 1 then .ended 0 counted
          else
            (trailerSection limit rounds (headerSize + counted) (bytes.drop counted)).behind 0 counted

namespace HttpMessageDecoder

/-- A string that has a terminator, unless it is empty. -/
def Terminated (cells : CharArray) (str : FastString) : Prop :=
  str.empty = true ∨ ∃ address : Nat, str.data = some (address : Int) ∧ (0 : Byte) ∈ cells.drop address

/-- The loop over the trailing lines ends so, and the trailer has no header. -/
inductive TrailersEnd (limits : HttpLimits) (desk : Desk) : LineRead →
    EStateM.Result Stop (ReplayContext HttpMessageDecoder) DefaultHttpHeader → Prop
  | short (context : ReplayContext HttpMessageDecoder) :
      TrailersEnd limits desk .short (.ok .fresh context)
  | full (context : ReplayContext HttpMessageDecoder) :
      TrailersEnd limits desk .short (.error (rangeException "out of range in array") context)
  | tooLarge (context : ReplayContext HttpMessageDecoder) :
      TrailersEnd limits desk .tooLarge (.error (headerTooLarge limits) context)
  | ended (characters counted : Nat) (cells : CharArray) (headerSize : Int) :
      TrailersEnd limits desk (.ended characters counted) (.ok .fresh
        (desk.moved counted cells { desk.fields with headerSize := headerSize }).context)

section Trailers

variable {limits : HttpLimits} {desk : Desk}

section

variable {cells : CharArray} {str : FastString} (terminated : Terminated cells str)

include terminated

theorem Terminated.set (position : Nat) : Terminated (cells.set position 0) str := by
  rcases terminated with empty | ⟨address, pointed, among⟩
  · exact Or.inl empty
  · refine Or.inr ⟨address, pointed, ?_⟩
    rw [List.drop_set]
    split
    · exact among
    · obtain ⟨index, inside, same⟩ := List.mem_iff_getElem.mp among
      rw [List.mem_iff_getElem]
      refine ⟨index, by rw [List.length_set]; exact inside, ?_⟩
      rw [List.getElem_set]
      split
      · rfl
      · exact same

theorem Terminated.toString (present : str.empty = false) :
    ∃ characters, str.toString.run cells = .ok characters cells := by
  rcases terminated with empty | ⟨address, pointed, among⟩
  · rw [present] at empty
    cases empty
  · unfold FastString.toString FastString.stringAt
    rw [pointed]
    dsimp only
    rw [run_bind_get]
    rw [Int.toNat_natCast,
      if_neg (by rintro (negative | missing) <;> [omega; exact missing among])]
    exact ⟨_, rfl⟩

end

section

variable {cells : CharArray} {data : Nat} {line : Text} (holds : Holds cells data (line ++ [0]))

include holds

theorem namePart_terminated :
    Terminated cells (FastString.namePart data line) := by
  unfold FastString.namePart
  by_cases empty : (splitText line).name = []
  · rw [if_pos empty]
    exact Or.inl rfl
  · rw [if_neg empty]
    have blanks : line.takeWhile Character.isWhitespace ++ line.dropWhile Character.isWhitespace =
      line := List.takeWhile_append_dropWhile
    rw [← blanks, List.append_assoc] at holds
    exact Or.inr ⟨_, rfl, FastString.mem_drop_of_holds holds.back⟩

theorem splitHeader_name :
    ∃ value cells', (FastString.lineAt data line.length).splitHeader.run cells =
        .ok (FastString.namePart data line, value) cells' ∧
      SameFrom (data + line.length) cells cells' ∧
      Terminated cells' (FastString.namePart data line) := by
  have terminated := namePart_terminated holds
  obtain ⟨lead, behind, whole, starts, valued⟩ := FastString.splitText_name line
  have counted := congrArg List.length whole
  rw [List.length_append, List.length_append, starts] at counted
  by_cases empty : valueText behind = []
  · rw [if_pos empty] at valued
    exact ⟨_, _, FastString.splitHeader_valueless holds.front valued, SameFrom.refl _ _,
      terminated⟩
  · rw [if_neg empty] at valued
    obtain ⟨size, ran⟩ := FastString.splitHeader_valued holds.front valued
    obtain ⟨mid, suffix, positive⟩ := FastString.valueText_suffix behind
    have positive := positive empty
    have counted' := congrArg List.length suffix
    rw [List.length_append] at counted'
    exact ⟨_, _, ran, SameFrom.set (by omega) _ _, terminated.set _⟩

end

theorem gets_fresh (name : Text) : DefaultHttpHeader.fresh.gets name = [] := by
  unfold DefaultHttpHeader.gets DefaultHttpHeader.bucket DefaultHttpHeader.fresh
  split
  · rfl
  · rfl

/-- What has been read before. -/
theorem TrailersEnd.behind {counted : Nat} {cells : CharArray} {headerSize : Int} {read : LineRead}
    {result : EStateM.Result Stop (ReplayContext HttpMessageDecoder) DefaultHttpHeader}
    (later : TrailersEnd limits (desk.moved counted cells
      { desk.fields with headerSize := headerSize }) read result) :
    TrailersEnd limits desk (read.behind 0 counted) result := by
  cases later with
  | short context => exact .short context
  | full context => exact .full context
  | tooLarge context => exact .tooLarge context
  | ended characters n cells' headerSize' =>
      rw [Desk.moved_moved, LineRead.behind_ended]
      exact .ended _ _ cells' headerSize'

section

variable {line : Text} {str last : FastString} {rounds : Nat}

/-- A trailing line adds nothing, whether it continues another or not. -/
theorem readTrailerLoop_step
    (there : LineAt desk line str) (some_ : line ≠ []) (terminated : Terminated desk.cells last) :
    ∃ last' cells', SameFrom desk.reader desk.cells cells' ∧ Terminated cells' last' ∧
      (readTrailerLoop limits (rounds + 1) str last .fresh).run desk.context =
        (do
          let line ← readHeader limits
          if line.length = 0 then pure .fresh
          else readTrailerLoop limits rounds line last' .fresh :
            Decode DefaultHttpHeader).run { desk with cells := cells' }.context := by
  obtain ⟨c, back, begins⟩ := List.exists_cons_of_ne_nil some_
  have first := firstChar_run there begins
  obtain ⟨data, rfl, holds, before⟩ := there
  by_cases folded : (!last.empty && FastString.blank c) = true
  · have present : last.empty = false := by
      rw [Bool.and_eq_true, Bool.not_eq_true'] at folded
      exact folded.1
    obtain ⟨characters, read⟩ := terminated.toString present
    refine ⟨last, desk.cells, SameFrom.refl _ _, terminated, ?_⟩
    rw [readTrailerLoop, run_bind_ok _ first, if_pos folded]
    rw [run_bind_ok _ (onArray_run read)]
    dsimp only
    rw [if_neg (not_not.mpr (gets_fresh characters))]
    rfl
  · obtain ⟨value, cells', splits, same, terminated'⟩ := splitHeader_name holds
    refine ⟨FastString.namePart data line, cells', same.weaken (by omega), terminated', ?_⟩
    rw [readTrailerLoop, run_bind_ok _ first, if_neg folded]
    rw [run_bind_ok _ (onArray_run splits)]
    rfl

theorem readTrailerLoop_section
    (fits : desk.Fits) (there : LineAt desk line str) (some_ : line ≠ [])
    (terminated : Terminated desk.cells last) (enough : desk.unread.length < rounds) :
    TrailersEnd limits desk
      (trailerSection limits.maxHeaderSize rounds desk.fields.headerSize desk.unread)
      ((readTrailerLoop limits rounds str last .fresh).run desk.context) := by
  induction rounds generalizing desk line str last with
  | zero => omega
  | succ rounds induction =>
      obtain ⟨last', cells', same, terminated', step⟩ :=
        @readTrailerLoop_step limits desk line str last rounds there some_ terminated
      let cut : Desk := { desk with cells := cells' }
      have fits' : cut.Fits :=
        ⟨fits.ordered, Nat.le_trans (Nat.le_of_eq same.1) fits.small, fits.order,
          Nat.le_trans fits.bound (Nat.le_of_eq same.1.symm)⟩
      have unread : cut.unread = desk.unread := same.window
      have scan := @readHeader_scan limits cut fits'
      have header : cut.fields.headerSize = desk.fields.headerSize := rfl
      rw [step, trailerSection, ← unread, ← header]
      generalize scanned : headerScan limits.maxHeaderSize cut.fields.headerSize cut.unread = how
        at scan
      generalize ran : (readHeader limits).run cut.context = result at scan
      cases scan with
      | full full =>
          rw [run_bind_error _ ran]
          exact .full _
      | short count inside =>
          rw [run_bind_ok _ ran]
          exact .short _
      | tooLarge count inside =>
          rw [run_bind_error _ ran]
          exact .tooLarge _
      | ended characters counted =>
          obtain ⟨positive, less, inside⟩ := headerScan_ended scanned
          obtain ⟨fits'', unread', -, line'⟩ := fits'.lined scanned
          rw [run_bind_ok _ ran]
          dsimp only
          by_cases empty : characters = 1
          · have zero : (FastString.lineAt cut.reader (characters - 1)).length = 0 := by
              rw [empty]
              rfl
            rw [if_pos zero, if_pos empty]
            exact .ended 0 counted _ _
          · have apart : ¬(FastString.lineAt cut.reader (characters - 1)).length = 0 := by
              show ¬((characters - 1 : Nat) : Int) = 0
              omega
            have present : cut.unread.take (characters - 1) ≠ [] := by
              apply List.length_pos_iff.mp
              rw [List.length_take]
              omega
            have later := @induction (cut.lined characters counted) _ _ last' fits'' line' present
              (terminated'.set _) (by rw [unread', List.length_drop]; rw [unread] at inside ⊢; omega)
            rw [unread'] at later
            rw [if_neg apart, if_neg empty]
            exact .behind later

end

/-- A trailer section. -/
def trailersSection (limit : Int) (bytes : List Byte) : LineRead :=
  match headerScan limit 0 bytes with
  | .short => .short
  | .tooLarge => .tooLarge
  | .ended characters counted =>
      if characters = 1 then .ended 0 counted
      else (trailerSection limit (bytes.length - counted + 2) counted (bytes.drop counted)).behind 0
        counted

/-- The reading of the trailing headers ends so; the chunk that is returned shows none. -/
inductive TrailingEnds (limits : HttpLimits) (desk : Desk) : LineRead →
    EStateM.Result Stop (ReplayContext HttpMessageDecoder) HttpChunk → Prop
  | short (context : ReplayContext HttpMessageDecoder) :
      TrailingEnds limits desk .short (.ok .LAST_CHUNK context)
  | full (context : ReplayContext HttpMessageDecoder) :
      TrailingEnds limits desk .short (.error (rangeException "out of range in array") context)
  | tooLarge (context : ReplayContext HttpMessageDecoder) :
      TrailingEnds limits desk .tooLarge (.error (headerTooLarge limits) context)
  | ended (characters counted : Nat) (cells : CharArray) (headerSize : Int) :
      TrailingEnds limits desk (.ended characters counted) (.ok .LAST_CHUNK
        (desk.moved counted cells { desk.fields with headerSize := headerSize }).context)

/-- The trailing headers behind a line that is not empty. -/
theorem trailing_of_lines {characters counted : Nat} {cells : CharArray} {size : Int}
    {read : LineRead}
    {result : EStateM.Result Stop (ReplayContext HttpMessageDecoder) DefaultHttpHeader}
    (later : TrailersEnd limits (desk.moved counted cells
      { desk.fields with headerSize := size }) read result) :
    (∃ context, result = .ok .fresh context ∧
        TrailingEnds limits desk (read.behind characters counted) (.ok .LAST_CHUNK context)) ∨
      ∃ stop context, result = .error stop context ∧
        TrailingEnds limits desk (read.behind characters counted) (.error stop context) := by
  cases later with
  | short context => exact Or.inl ⟨context, rfl, .short context⟩
  | full context => exact Or.inr ⟨_, context, rfl, .full context⟩
  | tooLarge context => exact Or.inr ⟨_, context, rfl, .tooLarge context⟩
  | ended c n cells' headerSize' =>
      rw [Desk.moved_moved, LineRead.behind_ended]
      exact Or.inl ⟨_, rfl, .ended _ _ cells' headerSize'⟩

theorem readTrailingHeaders_section (fits : desk.Fits) :
    TrailingEnds limits desk (trailersSection limits.maxHeaderSize desk.unread)
      ((readTrailingHeaders limits).run desk.context) := by
  let cleared : Desk := { desk with fields := { desk.fields with headerSize := 0 } }
  have clearedFits : cleared.Fits := ⟨fits.ordered, fits.small, fits.order, fits.bound⟩
  have scan := @readHeader_scan limits cleared clearedFits
  have unread : cleared.unread = desk.unread := rfl
  have size : cleared.fields.headerSize = 0 := rfl
  have opens : (readTrailingHeaders limits).run desk.context =
      (do
        let line ← readHeader limits
        if line.length = 0 then pure .LAST_CHUNK
        else return .trailer (← readTrailerLoop limits ((← rounds) + 1) line .fresh .fresh) :
          Decode HttpChunk).run cleared.context := by
    unfold readTrailingHeaders
    exact run_bind_ok _ (update_run _ _)
  rw [opens, trailersSection]
  rw [unread, size] at scan
  generalize scanned : headerScan limits.maxHeaderSize 0 desk.unread = how at scan
  generalize ran : (readHeader limits).run cleared.context = result at scan
  cases scan with
  | full full =>
      rw [run_bind_error _ ran]
      exact .full _
  | short count inside =>
      rw [run_bind_ok _ ran]
      exact .short _
  | tooLarge count inside =>
      rw [run_bind_error _ ran]
      exact .tooLarge _
  | ended characters counted =>
      obtain ⟨positive, less, inside⟩ := headerScan_ended scanned
      obtain ⟨fits', unread', -, line'⟩ := @Desk.Fits.lined cleared characters counted clearedFits
        limits.maxHeaderSize 0 scanned
      rw [run_bind_ok _ ran]
      dsimp only
      by_cases empty : characters = 1
      · have zero : (FastString.lineAt cleared.reader (characters - 1)).length = 0 := by
          rw [empty]
          rfl
        rw [if_pos zero, if_pos empty]
        exact .ended 0 counted _ _
      · have apart : ¬(FastString.lineAt cleared.reader (characters - 1)).length = 0 := by
          show ¬((characters - 1 : Nat) : Int) = 0
          omega
        have present : cleared.unread.take (characters - 1) ≠ [] := by
          apply List.length_pos_iff.mp
          rw [List.length_take]
          have same : cleared.unread.length = desk.unread.length := rfl
          omega
        have length := fits.unread_length
        have counts : (cleared.lined characters counted).writer -
            (cleared.lined characters counted).reader + 1 + 1 =
            desk.unread.length - counted + 2 := by
          show desk.writer - (desk.reader + counted) + 1 + 1 = _
          omega
        have later := @readTrailerLoop_section limits (cleared.lined characters counted) _ _ .fresh
          (desk.unread.length - counted + 2) fits' line' present (Or.inl rfl)
          (by rw [unread', List.length_drop, unread]; omega)
        rw [if_neg apart, if_neg empty, run_bind_ok _ (rounds_run fits'), counts]
        rw [unread'] at later
        have header : (cleared.lined characters counted).fields.headerSize = counted :=
          Int.zero_add _
        rw [header] at later
        rcases @trailing_of_lines limits desk 0 counted _ _ _ _ later with
          ⟨context, looped, ends⟩ | ⟨stop, context, looped, ends⟩
        · rw [run_bind_ok _ looped]
          exact ends
        · rw [run_bind_error _ looped]
          exact ends

end Trailers

end HttpMessageDecoder

end Cetty
