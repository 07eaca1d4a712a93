import Mathlib.Data.List.Induction
import Cetty.BufferSlices
import Cetty.HttpMessageDecoder
import Cetty.ReplayReception

/-!
# A decode call written out

The context of a decode call with the cells and the two indices of its buffer. The buffer is one the
decoder has made or the one its channel reads into. What the members of the decoder do to such a
context is computed here once, on an array that holds a known line at a known address.
-/

namespace Cetty

open CLocale

/-- The bytes stand in the array from an address on. -/
def Holds (cells : CharArray) (start : Nat) (bytes : List Byte) : Prop :=
  bytes <+: cells.drop start

section Holding

variable {cells : CharArray} {start : Nat} {first second bytes : List Byte} {c : Byte}

theorem holds_append (cells : CharArray) (start : Nat) (first second : List Byte) :
    Holds cells start (first ++ second) ↔
      Holds cells start first ∧ Holds cells (start + first.length) second := by
  unfold Holds
  rw [← List.drop_drop]
  constructor
  · intro holds
    refine ⟨(List.prefix_append _ _).trans holds, ?_⟩
    obtain ⟨rest, whole⟩ := holds
    rw [← whole, List.append_assoc, List.drop_left]
    exact List.prefix_append _ _
  · rintro ⟨⟨rest, whole⟩, holds⟩
    rw [← whole, List.drop_left] at holds
    rw [← whole]
    exact (List.prefix_append_right_inj _).mpr holds

theorem Holds.front (holds : Holds cells start (first ++ second)) : Holds cells start first :=
  ((holds_append cells start first second).mp holds).1

theorem Holds.back (holds : Holds cells start (first ++ second)) :
    Holds cells (start + first.length) second :=
  ((holds_append cells start first second).mp holds).2

theorem Holds.bound (holds : Holds cells start bytes) (present : bytes ≠ []) :
    start + bytes.length ≤ cells.length := by
  have short : bytes.length ≤ (cells.drop start).length := List.IsPrefix.length_le holds
  have positive := List.length_pos_iff.mpr present
  rw [List.length_drop] at short
  omega

theorem Holds.get (holds : Holds cells start (first ++ c :: second)) :
    start + first.length < cells.length ∧ cells.getD (start + first.length) 0 = c := by
  have back := holds.back
  have room := back.bound (List.cons_ne_nil _ _)
  rw [List.length_cons] at room
  obtain ⟨rest, whole⟩ := back
  refine ⟨by omega, ?_⟩
  have head := congrArg List.head? whole
  rw [List.head?_drop] at head
  rw [List.getD_eq_getElem?_getD, ← head]
  rfl

theorem Holds.set_behind {index : Nat} (holds : Holds cells start bytes)
    (behind : start + bytes.length ≤ index) (value : Byte) :
    Holds (cells.set index value) start bytes := by
  unfold Holds at holds ⊢
  obtain ⟨rest, whole⟩ := holds
  rw [List.drop_set, if_neg (by omega), ← whole, List.set_append_right _ _ (by omega)]
  exact List.prefix_append _ _

theorem Holds.set_at (holds : Holds cells start (first ++ c :: second)) (value : Byte) :
    Holds (cells.set (start + first.length) value) start (first ++ value :: second) := by
  unfold Holds at holds ⊢
  obtain ⟨rest, whole⟩ := holds
  rw [List.drop_set, if_neg (by omega), ← whole, Nat.add_sub_cancel_left, List.append_assoc,
    List.set_append_right _ _ (Nat.le_refl _), Nat.sub_self]
  exact ⟨rest, by rw [List.append_assoc]; rfl⟩

theorem load_run (holds : Holds cells start (first ++ c :: second)) :
    (Memory.load ((start + first.length : Nat) : Int)).run cells = .ok c cells := by
  obtain ⟨inside, same⟩ := holds.get
  unfold Memory.load
  rw [run_bind_get]
  rw [if_pos ⟨Int.natCast_nonneg _, by omega⟩, Int.toNat_natCast, same]
  rfl

theorem store_run {index : Nat} (inside : index < cells.length) (value : Byte) :
    (Memory.store index value).run cells = .ok () (cells.set index value) := by
  unfold Memory.store
  rw [run_bind_get]
  rw [if_pos ⟨Int.natCast_nonneg _, by omega⟩, Int.toNat_natCast]
  rfl

end Holding

namespace FastString

/-- The string of a line at an address. -/
def lineAt (data size : Nat) : FastString := ⟨some data, size⟩

section Scanning

variable {cells : CharArray} {data size : Nat} {front skip rest bytes : List Byte} {c : Byte}
  {found : Byte → Bool}

theorem at_run (holds : Holds cells data (front ++ c :: rest)) (inside : front.length < size) :
    ((lineAt data size).at_ front.length).run cells = .ok c cells := by
  unfold at_
  rw [if_pos (show (front.length : Int) < (lineAt data size).size from Int.ofNat_lt.mpr inside)]
  have loaded := load_run holds
  rw [Int.natCast_add] at loaded
  exact loaded

theorem setChar_run {index : Nat} (inside : data + index < cells.length) (value : Byte) :
    ((lineAt data size).setChar index value).run cells =
      .ok () (cells.set (data + index) value) := by
  have stored := store_run inside value
  rw [Int.natCast_add] at stored
  exact stored

/-- The scan stops at the first character that is looked for. -/
theorem scan_found (holds : Holds cells data (front ++ skip ++ c :: rest))
    (none : ∀ x ∈ skip, found x = false) (wanted : found c = true) {rounds : Nat}
    (enough : skip.length < rounds) (inside : front.length + skip.length < size) :
    (scan found (lineAt data size) rounds front.length).run cells =
      .ok ((front.length + skip.length : Nat) : Int) cells := by
  induction skip generalizing front rounds with
  | nil =>
      rw [List.append_nil] at holds
      obtain ⟨rounds, rfl⟩ : ∃ more, rounds = more + 1 := ⟨rounds - 1, by simp at enough; omega⟩
      rw [scan, run_bind_ok _ (at_run holds (by simpa using inside)), if_pos wanted]
      rfl
  | cons x skip ih =>
      obtain ⟨rounds, rfl⟩ : ∃ more, rounds = more + 1 := ⟨rounds - 1, by omega⟩
      rw [List.length_cons] at enough inside
      have here : Holds cells data (front ++ x :: (skip ++ c :: rest)) := by
        rw [List.append_assoc, List.cons_append] at holds
        exact holds
      rw [scan, run_bind_ok _ (at_run here (by omega)), none x List.mem_cons_self,
        if_neg Bool.false_ne_true]
      have onward : (scan found (lineAt data size) rounds (front ++ [x]).length).run cells =
          .ok (((front ++ [x]).length + skip.length : Nat) : Int) cells := ih (by simpa using holds)
        (fun y member => none y (List.mem_cons_of_mem _ member)) (by omega)
        (by rw [List.length_append, List.length_singleton]; omega)
      rw [List.length_append, List.length_singleton] at onward
      rw [Int.natCast_add, Int.natCast_one] at onward
      rw [onward, List.length_cons]
      congr 2
      omega

/-- Without such a character the scan ends with the line. -/
theorem scan_none (holds : Holds cells data (front ++ skip))
    (none : ∀ x ∈ skip, found x = false) (whole : size = front.length + skip.length) :
    (scan found (lineAt data size) skip.length front.length).run cells = .ok (size : Int) cells := by
  induction skip generalizing front with
  | nil =>
      rw [whole]
      rfl
  | cons x skip ih =>
      rw [List.length_cons] at whole
      rw [List.length_cons, scan, run_bind_ok _ (at_run holds (by omega)),
        none x List.mem_cons_self, if_neg Bool.false_ne_true]
      have onward : (scan found (lineAt data size) skip.length (front ++ [x]).length).run cells =
          .ok (size : Int) cells := ih (by simpa using holds)
        (fun y member => none y (List.mem_cons_of_mem _ member))
        (by rw [List.length_append, List.length_singleton]; omega)
      rw [List.length_append, List.length_singleton, Int.natCast_add, Int.natCast_one] at onward
      exact onward

theorem scanFrom_found (front skip : List Byte)
    (holds : Holds cells data (front ++ skip ++ c :: rest))
    (none : ∀ x ∈ skip, found x = false) (wanted : found c = true)
    (inside : front.length + skip.length < size) :
    (scanFrom found (lineAt data size) front.length).run cells =
      .ok ((front.length + skip.length : Nat) : Int) cells := by
  unfold scanFrom
  apply scan_found holds none wanted _ inside
  show skip.length < ((size : Int) - front.length).toNat
  omega

theorem scanFrom_none (front skip : List Byte) (holds : Holds cells data (front ++ skip))
    (none : ∀ x ∈ skip, found x = false) (whole : size = front.length + skip.length) :
    (scanFrom found (lineAt data size) front.length).run cells = .ok (size : Int) cells := by
  have left : ((lineAt data size).length - front.length).toNat = skip.length := by
    show ((size : Int) - front.length).toNat = skip.length
    omega
  unfold scanFrom
  rw [left]
  exact scan_none holds none whole

/-- The scan from the back stops behind a character that is not blank, or earlier. -/
theorem scanBack_run (size : Nat) (front back : List Byte)
    (holds : Holds cells data (front ++ c :: back)) (solid : Character.isWhitespace c = false)
    (inside : front.length + 1 + back.length ≤ size) :
    ∃ end_ : Nat, front.length < end_ ∧ end_ ≤ front.length + 1 + back.length ∧
      (scanBack (lineAt data size) (front.length + 1 + back.length)).run cells =
        .ok (end_ : Int) cells := by
  induction back using List.reverseRecOn with
  | nil =>
      refine ⟨front.length + 1, by omega, by simp, ?_⟩
      rw [List.length_nil, Nat.add_zero, scanBack,
        run_bind_ok _ (at_run holds (by simp at inside; omega)), solid, if_neg Bool.false_ne_true]
      rfl
  | append_singleton back d ih =>
      rw [List.length_append, List.length_singleton] at inside ⊢
      have here : Holds cells data (front ++ c :: back ++ d :: []) := by
        simpa using holds
      have index : (front ++ c :: back).length = front.length + 1 + back.length := by
        rw [List.length_append, List.length_cons]
        omega
      have read := at_run here (show (front ++ c :: back).length < size by omega)
      rw [index] at read
      rw [← Nat.add_assoc, scanBack, run_bind_ok _ read]
      by_cases blank : Character.isWhitespace d = true
      · obtain ⟨end_, later, bound, ran⟩ := ih here.front (by omega)
        rw [if_pos blank]
        exact ⟨end_, later, by omega, ran⟩
      · rw [if_neg blank]
        exact ⟨front.length + 1 + back.length + 1, by omega, Nat.le_refl _, rfl⟩

theorem findEndOfString_run (front back : List Byte)
    (holds : Holds cells data (front ++ c :: back)) (solid : Character.isWhitespace c = false)
    (whole : size = front.length + 1 + back.length) :
    ∃ end_ : Nat, front.length < end_ ∧ end_ ≤ size ∧
      (findEndOfString (lineAt data size)).run cells = .ok (end_ : Int) cells := by
  obtain ⟨end_, later, bound, ran⟩ := scanBack_run size front back holds solid (by omega)
  have length : (lineAt data size).length = (size : Int) := rfl
  refine ⟨end_, later, by omega, ?_⟩
  unfold findEndOfString
  rw [length, if_pos (by omega), Int.toNat_natCast]
  have counted : scanBack (lineAt data size) size =
      scanBack (lineAt data size) (front.length + 1 + back.length) := by
    congr 1
  rw [counted]
  exact ran

theorem mem_drop_of_holds (holds : Holds cells data (bytes ++ [0])) :
    (0 : Byte) ∈ cells.drop data := by
  obtain ⟨rest, whole⟩ := holds
  rw [← whole]
  simp

end Scanning

end FastString

/-- A header that is read without a change: the name, the blanks behind the colon and the value. -/
structure PlainHeader (name gap value : Text) : Prop where
  named : ∀ c ∈ name, c ≠ 0 ∧ HttpCodecUtil.prohibitedInName c = false
  spaced : ∀ c ∈ gap, FastString.blank c = true
  valued : ∀ c ∈ value, c ≠ 0 ∧ c ≠ 10 ∧ c ≠ 11 ∧ c ≠ 12 ∧ c ≠ 13
  solid : ∃ c rest, value = c :: rest ∧ Character.isWhitespace c = false

/-- A header line without its end. -/
def headerLine (name gap value : Text) : Text := name ++ HttpCodecUtil.COLON :: (gap ++ value)

theorem headerLine_length (name gap value : Text) :
    (headerLine name gap value).length = name.length + 1 + gap.length + value.length := by
  unfold headerLine
  rw [List.length_append, List.length_cons, List.length_append]
  omega

theorem isWhitespace_of_blank {c : Byte} (blank : FastString.blank c = true) :
    Character.isWhitespace c = true := by
  revert c
  decide

/-- No blank and no colon stands in a name. -/
theorem solid_of_allowed {c : Byte} (allowed : HttpCodecUtil.prohibitedInName c = false) :
    Character.isWhitespace c = false ∧ (c == HttpCodecUtil.COLON) = false := by
  revert c
  decide

namespace FastString

section Splitting

variable {cells : CharArray} {data : Nat} {name gap value : Text}

theorem substring_of (data size start end_ : Nat) :
    (lineAt data size).substring start end_ =
      if start < end_ then lineAt (data + start) (end_ - start) else fresh := by
  unfold substring
  by_cases some_ : start < end_
  · rw [if_pos (Int.ofNat_lt.mpr some_), if_pos some_]
    unfold lineAt
    congr 1
    omega
  · rw [if_neg (fun less => some_ (Int.ofNat_lt.mp less)), if_neg some_]

/-- A word of an initial line. -/
def Word (word : Text) : Prop :=
  word ≠ [] ∧ ∀ c ∈ word, c ≠ 0 ∧ Character.isWhitespace c = false

/-- An initial line without its end. -/
def initialLine (method uri version : Text) : Text :=
  method ++ HttpCodecUtil.SP :: (uri ++ HttpCodecUtil.SP :: version)

end Splitting

end FastString

open MachineInt ByteWindow

namespace HttpMessageDecoder

/-- The kinds of buffer that hold their cells themselves. -/
inductive Shell where
  | heap (order : ByteOrder)
  | dynamic (endianness factory order : ByteOrder) (heapIdx : Indices)

namespace Shell

def buffer : Shell → CharArray → Indices → ChannelBuffer
  | heap order, cells, idx => .heap ⟨order, cells, idx⟩
  | dynamic endianness factory order heapIdx, cells, idx =>
      .dynamic endianness factory ⟨order, cells, heapIdx⟩ idx

def Ordered : Shell → Prop
  | heap _ => True
  | dynamic endianness _ order _ => order = endianness

variable (shell : Shell) (cells : CharArray) (idx : Indices)

@[simp] theorem buffer_array : (shell.buffer cells idx).array = .ok cells := by
  cases shell <;> rfl

@[simp] theorem buffer_idx : (shell.buffer cells idx).idx = idx := by
  cases shell <;> rfl

@[simp] theorem buffer_content : (shell.buffer cells idx).content = cells := by
  cases shell <;> rw [buffer, ChannelBuffer.content]

@[simp] theorem buffer_withIdx (next : Indices) :
    (shell.buffer cells idx).withIdx next = shell.buffer cells next := by
  cases shell <;> rfl

@[simp] theorem buffer_withArray (next : CharArray) :
    (shell.buffer cells idx).withArray next = shell.buffer next idx := by
  cases shell <;> rfl

theorem Ordered.sound {shell : Shell} (ordered : shell.Ordered)
    (small : (cells.length : Int) ≤ maxInt) (inside : idx.Inside cells.length) :
    (shell.buffer cells idx).Sound := by
  cases shell with
  | heap order => exact ChannelBuffer.heap_sound small inside
  | dynamic endianness factory order heapIdx =>
      exact ChannelBuffer.dynamic_sound small (Or.inl ordered) inside

end Shell

structure Desk where
  fields : HttpMessageDecoder
  state : Int
  checkedPoint : Int
  cumulated : Bool
  short : Bool
  ended : Bool
  shell : Shell
  cells : CharArray
  reader : Nat
  writer : Nat
  markedReaderIndex : Int
  markedWriterIndex : Int
  fired : List UpstreamEvent

namespace Desk

def buffer (desk : Desk) : ChannelBuffer :=
  desk.shell.buffer desk.cells
    ⟨desk.reader, desk.writer, desk.markedReaderIndex, desk.markedWriterIndex⟩

def context (desk : Desk) : ReplayContext HttpMessageDecoder :=
  ⟨desk.fields, desk.state, desk.checkedPoint, desk.cumulated,
    ⟨desk.short, desk.ended, desk.buffer⟩, desk.fired⟩

/-- The indices lie in the array, in order. -/
structure Fits (desk : Desk) : Prop where
  ordered : desk.shell.Ordered
  small : desk.cells.length ≤ 2147483647
  order : desk.reader ≤ desk.writer
  bound : desk.writer ≤ desk.cells.length

section

variable {desk : Desk} (fits : desk.Fits)

include fits

theorem Fits.inside :
    Indices.Inside ⟨desk.reader, desk.writer, desk.markedReaderIndex, desk.markedWriterIndex⟩
      desk.cells.length :=
  ⟨Int.natCast_nonneg _, Int.ofNat_le.mpr fits.order, Int.ofNat_le.mpr fits.bound⟩

theorem Fits.sound : desk.buffer.Sound := by
  have small := fits.small
  exact fits.ordered.sound _ _ (by unfold maxInt; omega) fits.inside

theorem Fits.built : desk.buffer.WellBuilt := by
  have small : (desk.cells.length : Int) ≤ maxInt := by
    have small := fits.small
    unfold maxInt
    omega
  have ordered := fits.ordered
  unfold Desk.buffer
  cases shell : desk.shell with
  | heap order => exact .heap small fits.inside
  | dynamic endianness factory order heapIdx =>
      rw [shell] at ordered
      exact .dynamic (Or.inl ordered) small fits.inside

end

@[simp] theorem buffer_readerIdx (desk : Desk) : desk.buffer.readerIdx = desk.reader := by
  unfold buffer ChannelBuffer.readerIdx
  rw [Shell.buffer_idx]

@[simp] theorem buffer_writerIdx (desk : Desk) : desk.buffer.writerIdx = desk.writer := by
  unfold buffer ChannelBuffer.writerIdx
  rw [Shell.buffer_idx]

/-- The bytes between the indices. -/
def unread (desk : Desk) : List Byte :=
  window desk.cells desk.reader (desk.writer - desk.reader)

theorem readableContent_eq (desk : Desk) : desk.buffer.readableContent = desk.unread := by
  unfold ChannelBuffer.readableContent unread
  rw [buffer_readerIdx, buffer_writerIdx, Int.toNat_natCast]
  unfold buffer
  rw [Shell.buffer_content]
  congr 1
  omega

variable {desk : Desk}

theorem Fits.unread_length (fits : desk.Fits) :
    desk.unread.length = desk.writer - desk.reader := by
  have order := fits.order
  have bound := fits.bound
  exact window_length (by omega)

theorem Fits.readableBytes (fits : desk.Fits) :
    desk.buffer.readableBytes = ((desk.writer - desk.reader : Nat) : Int) := by
  rw [fits.sound.readableBytes_eq, desk.readableContent_eq, fits.unread_length]

/-- Some bytes have been read. -/
def pass (desk : Desk) (count : Nat) : Desk :=
  { desk with reader := desk.reader + count, short := false }

theorem pass_buffer (desk : Desk) (count : Nat) :
    (desk.pass count).buffer = desk.buffer.advance count := by
  unfold ChannelBuffer.advance buffer
  rw [Shell.buffer_withIdx, Shell.buffer_idx]
  unfold ChannelBuffer.readerIdx
  rw [Shell.buffer_idx]
  rfl

theorem pass_pass (desk : Desk) (first second : Nat) :
    (desk.pass first).pass second = desk.pass (first + second) := by
  unfold Desk.pass
  rw [Nat.add_assoc]

theorem Fits.pass (fits : desk.Fits) {count : Nat}
    (there : desk.reader + count ≤ desk.writer) : (desk.pass count).Fits :=
  ⟨fits.ordered, fits.small, there, fits.bound⟩

theorem Fits.unread_pass (fits : desk.Fits) {front rest : List Byte}
    (parts : desk.unread = front ++ rest) : (desk.pass front.length).unread = rest := by
  have dropped : (desk.pass front.length).unread = desk.unread.drop front.length := by
    rw [← readableContent_eq, ← readableContent_eq, pass_buffer, fits.sound.readable_advance]
  rw [dropped, parts, List.drop_left]

/-- Every direct buffer that shows something is written out so. -/
theorem of_direct {buffer : ChannelBuffer} (direct : buffer.Direct) (built : buffer.WellBuilt)
    (present : buffer.readableContent ≠ []) (fields : HttpMessageDecoder) (state checkedPoint : Int)
    (cumulated short ended : Bool) (fired : List UpstreamEvent) :
    ∃ desk : Desk, desk.Fits ∧ desk.buffer = buffer ∧
      desk.context = ⟨fields, state, checkedPoint, cumulated, ⟨short, ended, buffer⟩, fired⟩ := by
  cases built with
  | heap small inside =>
      rename_i heap
      obtain ⟨order, cells, reader, writer, markedReader, markedWriter⟩ := heap
      obtain ⟨lower, middle, upper⟩ := inside
      dsimp only at small lower middle upper
      obtain ⟨reader, rfl⟩ := Int.eq_ofNat_of_zero_le lower
      obtain ⟨writer, rfl⟩ := Int.eq_ofNat_of_zero_le (Int.le_trans lower middle)
      refine ⟨⟨fields, state, checkedPoint, cumulated, short, ended, .heap order, cells, reader,
        writer, markedReader, markedWriter, fired⟩, ⟨trivial, ?_, ?_, ?_⟩, rfl, rfl⟩
      · unfold maxInt at small
        exact Int.ofNat_le.mp small
      · exact Int.ofNat_le.mp middle
      · exact Int.ofNat_le.mp upper
  | dynamic ordered small inside =>
      rename_i endianness factory heap idx
      obtain ⟨order, cells, heapIdx⟩ := heap
      obtain ⟨reader, writer, markedReader, markedWriter⟩ := idx
      obtain ⟨lower, middle, upper⟩ := inside
      dsimp only at ordered small lower middle upper
      obtain ⟨reader, rfl⟩ := Int.eq_ofNat_of_zero_le lower
      obtain ⟨writer, rfl⟩ := Int.eq_ofNat_of_zero_le (Int.le_trans lower middle)
      have same : order = endianness := by
        rcases ordered with same | empty
        · exact same
        · subst empty
          exfalso
          apply present
          unfold ChannelBuffer.readableContent
          rw [ChannelBuffer.content]
          unfold window
          rw [List.drop_nil, List.take_nil]
      refine ⟨⟨fields, state, checkedPoint, cumulated, short, ended,
        .dynamic endianness factory order heapIdx, cells, reader, writer, markedReader,
        markedWriter, fired⟩, ⟨same, ?_, ?_, ?_⟩, rfl, rfl⟩
      · unfold maxInt at small
        exact Int.ofNat_le.mp small
      · exact Int.ofNat_le.mp middle
      · exact Int.ofNat_le.mp upper
  | _ => exact direct.elim

theorem readerIndex_run (desk : Desk) {index : Nat} (inside : index ≤ desk.writer) :
    (BufferM.readerIndex index).run desk.buffer = .ok () { desk with reader := index }.buffer := by
  have moved : desk.buffer.setReaderIndex index = .ok { desk with reader := index }.buffer := by
    unfold ChannelBuffer.setReaderIndex
    rw [buffer_writerIdx, if_neg (by omega)]
    unfold buffer
    rw [Shell.buffer_withIdx, Shell.buffer_idx]
    rfl
  unfold BufferM.readerIndex
  rw [run_bind_get]
  rw [moved, run_bind_ok _ (run_call_ok _ _)]
  rfl

theorem onCumulated_readerIndex (desk : Desk) {index : Nat} (inside : index ≤ desk.writer) :
    (onCumulated (BufferM.readerIndex index) : Decode Unit).run desk.context =
      .ok () { desk with reader := index }.context := by
  have through : (ReplayingDecoderBuffer.onBuffer (BufferM.readerIndex index)).run
      desk.context.replayable = .ok () { desk.context.replayable with
        buffer := { desk with reader := index }.buffer } :=
    run_focus_ok (desk.readerIndex_run inside)
  exact run_focus_ok through

end Desk

section Members

variable {desk : Desk} {Value : Type}

theorem needMoreBytes_run (desk : Desk) :
    needMoreBytes.run desk.context = .ok desk.short desk.context := rfl

theorem update_run (desk : Desk) (change : HttpMessageDecoder → HttpMessageDecoder) :
    (update change).run desk.context = .ok () { desk with fields := change desk.fields }.context :=
  rfl

/-- The checkpoint is no index any more once the cumulation has been dropped. -/
theorem checkpoint_run (desk : Desk) :
    (checkpoint : Decode Unit).run desk.context =
      .ok () { desk with checkedPoint := if desk.cumulated then (desk.reader : Int) else -1 }.context := by
  have ran : (checkpoint : Decode Unit).run desk.context =
      .ok () { desk with
        checkedPoint := if desk.cumulated then desk.buffer.readerIdx else -1 }.context := rfl
  rw [ran, Desk.buffer_readerIdx]

theorem checkpointAt_run (desk : Desk) (state : Int) :
    (checkpointAt state).run desk.context = .ok () { desk with
      state := state
      checkedPoint := if desk.cumulated then (desk.reader : Int) else -1 }.context := by
  unfold checkpointAt
  rw [run_bind_ok _ (checkpoint_run desk)]
  rfl

/-- The part of `onArray` behind the look at the array. -/
def onCells (desk : Desk) (program : Memory Value) : Decode Value :=
  focus (fun _ => desk.cells)
    (fun context cells =>
      { context with
        replayable := { context.replayable with
          buffer := context.replayable.buffer.withArray cells } })
    program

theorem onArray_run {program : Memory Value} {value : Value} {cells : CharArray}
    (ran : program.run desk.cells = .ok value cells) :
    (onArray program).run desk.context = .ok value { desk with cells := cells }.context := by
  have array : desk.context.replayable.buffer.array = .ok desk.cells := Shell.buffer_array _ _ _
  have stored : desk.buffer.withArray cells = { desk with cells := cells }.buffer :=
    Shell.buffer_withArray _ _ _ _
  unfold onArray
  rw [run_bind_get]
  rw [array, run_bind_ok _ (run_call_ok _ _)]
  have through : (onCells desk program).run desk.context = .ok value { desk.context with
      replayable := { desk.context.replayable with buffer := desk.buffer.withArray cells } } :=
    run_focus_ok ran
  rw [stored] at through
  exact through

theorem onArray_stops {program : Memory Value} {stop : Stop} {cells : CharArray}
    (ran : program.run desk.cells = .error stop cells) :
    (onArray program).run desk.context = .error stop { desk with cells := cells }.context := by
  have array : desk.context.replayable.buffer.array = .ok desk.cells := Shell.buffer_array _ _ _
  have stored : desk.buffer.withArray cells = { desk with cells := cells }.buffer :=
    Shell.buffer_withArray _ _ _ _
  unfold onArray
  rw [run_bind_get]
  rw [array, run_bind_ok _ (run_call_ok _ _)]
  have through : (onCells desk program).run desk.context = .error stop { desk.context with
      replayable := { desk.context.replayable with buffer := desk.buffer.withArray cells } } :=
    run_focus_error ran
  rw [stored] at through
  exact through

theorem rounds_run (fits : desk.Fits) :
    rounds.run desk.context = .ok (desk.writer - desk.reader + 1) desk.context := by
  have readable : desk.context.replayable.buffer.readableBytes =
      ((desk.writer - desk.reader : Nat) : Int) := fits.readableBytes
  unfold rounds
  rw [run_bind_get]
  rw [readable, Int.toNat_natCast]
  rfl

theorem dataAtReader_run (inside : desk.reader = 0 ∨ desk.reader < desk.cells.length) :
    dataAtReader.run desk.context = .ok (desk.reader : Int) desk.context := by
  have array : desk.context.replayable.buffer.array = .ok desk.cells := Shell.buffer_array _ _ _
  have index : desk.context.replayable.buffer.readerIdx = desk.reader := desk.buffer_readerIdx
  have pointed : CharArray.data desk.cells (desk.reader : Int) = .ok desk.reader := by
    unfold CharArray.data
    rw [if_neg (by omega), Int.toNat_natCast]
    rfl
  unfold dataAtReader
  rw [run_bind_get]
  dsimp only
  rw [array, index, run_bind_ok _ (run_call_ok _ _), pointed, run_bind_ok _ (run_call_ok _ _)]
  rfl

theorem theMessage_at {message : HttpMessage} (pointed : desk.fields.message = true)
    (made : desk.fields.object = some message) :
    theMessage.run desk.context = .ok message desk.context := by
  unfold theMessage
  rw [run_bind_get]
  dsimp only [Desk.context]
  rw [pointed, made]
  rfl

theorem onMessage_run {message changed : HttpMessage}
    {change : HttpMessage → Except Stop HttpMessage} (pointed : desk.fields.message = true)
    (made : desk.fields.object = some message) (changes : change message = .ok changed) :
    (onMessage change).run desk.context =
      .ok () { desk with fields := { desk.fields with object := some changed } }.context := by
  unfold onMessage
  rw [run_bind_ok _ (theMessage_at pointed made), changes, run_bind_ok _ (run_call_ok _ _)]
  rfl

theorem publish_run (desk : Desk) (object : HttpObject) :
    (publish object).run desk.context = .ok (.object desk.fields.published.length)
      { desk with
        fields := { desk.fields with
          published := desk.fields.published ++ [object] } }.context := rfl

theorem publishMessage_run {message : HttpMessage} (pointed : desk.fields.message = true)
    (made : desk.fields.object = some message) :
    publishMessage.run desk.context = .ok (.object desk.fields.published.length)
      { desk with
        fields := { desk.fields with
          published := desk.fields.published ++ [HttpObject.message message] } }.context := by
  unfold publishMessage
  rw [run_bind_ok _ (theMessage_at pointed made)]
  rfl

end Members

section Reading

variable {desk : Desk}

/-- An operation on the buffer behind its check. -/
theorem onReplayable_enough {Value : Type} {program : BufferM Value} {value : Value} {length : Int}
    (fits : desk.Fits) (there : length ≤ ((desk.writer - desk.reader : Nat) : Int)) (count : Nat)
    (ran : program.run desk.buffer = .ok value (desk.buffer.advance count)) (otherwise : Value) :
    (onReplayable (ReplayingDecoderBuffer.guarded
      (ReplayingDecoderBuffer.checkReadableBytes length) program otherwise) :
      Decode Value).run desk.context = .ok value (desk.pass count).context := by
  have passed : decide (length ≤ desk.context.replayable.buffer.readableBytes) = true := by
    show decide (length ≤ desk.buffer.readableBytes) = true
    rw [fits.readableBytes]
    exact decide_eq_true there
  have through : (ReplayingDecoderBuffer.guarded
      (ReplayingDecoderBuffer.checkReadableBytes length) program
      otherwise).run desk.context.replayable =
      ending (.ok value) { desk.context.replayable with
        needMore := false, buffer := desk.buffer.advance count } :=
    ReplayingDecoderBuffer.guarded_passed (fun buffer => decide (length ≤ buffer.readableBytes))
      passed ran otherwise
  refine (run_focus_ok through).trans ?_
  rw [← desk.pass_buffer]
  rfl

theorem onReplayable_lacks {Value : Type} {length : Int} (fits : desk.Fits)
    (lacking : ((desk.writer - desk.reader : Nat) : Int) < length) (program : BufferM Value)
    (otherwise : Value) :
    (onReplayable (ReplayingDecoderBuffer.guarded
      (ReplayingDecoderBuffer.checkReadableBytes length) program otherwise) :
      Decode Value).run desk.context = .ok otherwise { desk with short := true }.context := by
  have lacks : decide (length ≤ desk.context.replayable.buffer.readableBytes) = false := by
    show decide (length ≤ desk.buffer.readableBytes) = false
    rw [fits.readableBytes]
    exact decide_eq_false (Int.not_le.mpr lacking)
  have through : (ReplayingDecoderBuffer.guarded
      (ReplayingDecoderBuffer.checkReadableBytes length) program
      otherwise).run desk.context.replayable =
      .ok otherwise { desk.context.replayable with needMore := true } :=
    ReplayingDecoderBuffer.guarded_short lacks program otherwise
  exact run_focus_ok through

theorem content_at (desk : Desk) (index : Nat) :
    desk.buffer.content.getD index 0 = desk.cells.getD index 0 := by
  unfold Desk.buffer
  rw [Shell.buffer_content]

theorem byte_of_toInt (c : Byte) : BitVec.ofInt 8 c.toInt = c := BitVec.ofInt_toInt

theorem byte_of_toNat (c : Byte) : BitVec.ofInt 8 (c.toNat : Int) = c := by
  rw [BitVec.ofInt_natCast, BitVec.ofNat_toNat, BitVec.setWidth_eq]

/-- A byte that is there, as the buffer reads it. -/
theorem buffered_byte (fits : desk.Fits) (there : desk.reader < desk.writer) :
    BufferM.readByte.run desk.buffer =
      .ok (desk.cells.getD desk.reader 0) (desk.buffer.advance 1) := by
  have present : 0 < desk.buffer.readableContent.length := by
    rw [desk.readableContent_eq, fits.unread_length]
    omega
  rw [BufferM.readByte_run fits.sound present, desk.buffer_readerIdx, Int.toNat_natCast,
    content_at]

theorem readByte_run (fits : desk.Fits) (there : desk.reader < desk.writer) :
    readByte.run desk.context = .ok (desk.cells.getD desk.reader 0) (desk.pass 1).context := by
  have got : Reader.readByte.program.run desk.buffer =
      .ok (desk.cells.getD desk.reader 0).toInt (desk.buffer.advance 1) := by
    show (do return (← BufferM.readByte).toInt : BufferM Int).run desk.buffer = _
    rw [run_bind_ok _ (buffered_byte fits there)]
    rfl
  have enough : ((Reader.readByte.width : Nat) : Int) ≤ ((desk.writer - desk.reader : Nat) : Int) := by
    have width : Reader.readByte.width = 1 := rfl
    omega
  have ran := onReplayable_enough fits enough 1 got 0
  unfold readByte
  refine (run_bind_ok _ ran).trans ?_
  show EStateM.Result.ok (BitVec.ofInt 8 (desk.cells.getD desk.reader 0).toInt) _ = _
  rw [byte_of_toInt]

/-- A cast to a wider type and back. -/
theorem unsigned_byte (c : Byte) : ((c.signExtend 32 &&& 0xff#32).setWidth 8 : Byte) = c := by
  revert c
  decide

section

variable (fits : desk.Fits)

include fits

theorem readUnsignedByte_run (there : desk.reader < desk.writer) :
    readUnsignedByte.run desk.context =
      .ok (desk.cells.getD desk.reader 0) (desk.pass 1).context := by
  have got : Reader.readUnsignedByte.program.run desk.buffer =
      .ok ((desk.cells.getD desk.reader 0).toNat : Int) (desk.buffer.advance 1) := by
    show (do return (← BufferM.readUnsignedByte).toNat : BufferM Int).run desk.buffer = _
    have byte : BufferM.readUnsignedByte.run desk.buffer =
        .ok (desk.cells.getD desk.reader 0) (desk.buffer.advance 1) := by
      unfold BufferM.readUnsignedByte
      rw [run_bind_ok _ (buffered_byte fits there)]
      show EStateM.Result.ok (((desk.cells.getD desk.reader 0).signExtend 32 &&& 0xff#32).setWidth 8 :
        Byte) _ = _
      rw [unsigned_byte]
    rw [run_bind_ok _ byte]
    rfl
  have enough : ((Reader.readUnsignedByte.width : Nat) : Int) ≤
      ((desk.writer - desk.reader : Nat) : Int) := by
    have width : Reader.readUnsignedByte.width = 1 := rfl
    omega
  have ran := onReplayable_enough fits enough 1 got 0
  unfold readUnsignedByte
  refine (run_bind_ok _ ran).trans ?_
  show EStateM.Result.ok (BitVec.ofInt 8 ((desk.cells.getD desk.reader 0).toNat : Int)) _ = _
  rw [byte_of_toNat]

theorem readUnsignedByte_short (none : desk.writer - desk.reader = 0) :
    readUnsignedByte.run desk.context = .ok 0 { desk with short := true }.context := by
  have lacking : ((desk.writer - desk.reader : Nat) : Int) <
      ((Reader.readUnsignedByte.width : Nat) : Int) := by
    have width : Reader.readUnsignedByte.width = 1 := rfl
    omega
  have ran := onReplayable_lacks fits lacking Reader.readUnsignedByte.program 0
  unfold readUnsignedByte
  exact run_bind_ok _ ran

/-- What a slice of the buffer shows. -/
theorem slice_run {count : Nat} (there : count ≤ desk.writer - desk.reader) :
    ∃ part : ChannelBuffer, desk.buffer.slice desk.reader count = .ok part ∧
      part.readableContent = desk.unread.take count ∧ part.readable = decide (0 < count) := by
  have order := fits.order
  have bound := fits.bound
  have content : desk.buffer.content = desk.cells := Shell.buffer_content _ _ _
  have taken : window desk.cells desk.reader count = desk.unread.take count := by
    unfold Desk.unread
    rw [window_take _ _ _ _ there]
  by_cases none : count = 0
  · subst none
    refine ⟨.emptyBuffer, ?_, rfl, rfl⟩
    unfold Desk.buffer
    cases desk.shell with
    | heap order =>
        rw [Shell.buffer, ChannelBuffer.slice]
        beta_reduce
        rw [if_neg (by omega)]
        rfl
    | dynamic endianness factory order heapIdx =>
        rw [Shell.buffer, ChannelBuffer.slice]
        rfl
  · have inside : desk.reader + count ≤ desk.buffer.content.length := by
      rw [content]
      omega
    have cuts : desk.buffer.Cuts := by
      have built := fits.built
      unfold Desk.buffer at built ⊢
      cases shell : desk.shell with
      | heap order =>
          rw [shell] at built
          exact ChannelBuffer.heap_cuts built
      | dynamic endianness factory order heapIdx =>
          rw [shell] at built
          exact ChannelBuffer.dynamic_cuts built
    obtain ⟨part, cut, fresh, shown⟩ := cuts desk.reader count (by omega) inside
    rw [content] at shown
    have size : part.content.length = count := by
      rw [shown]
      exact window_length (by omega)
    refine ⟨part, cut, ?_, ?_⟩
    · rw [fresh.readableContent, shown, taken]
    · unfold ChannelBuffer.readable
      rw [fresh.readableBytes, size]
      exact decide_eq_decide.mpr (by omega)

/-- A slice of bytes that are there. -/
theorem readSlice_run {count : Nat} (there : count ≤ desk.writer - desk.reader) :
    ∃ part : ChannelBuffer, part.readableContent = desk.unread.take count ∧
      part.readable = decide (0 < count) ∧
      (readSlice count).run desk.context = .ok part (desk.pass count).context := by
  have bounded : count ≤ desk.buffer.readableContent.length := by
    rw [desk.readableContent_eq, fits.unread_length]
    exact there
  obtain ⟨part, sliced, shown, readable⟩ := slice_run fits there
  have ran : (BufferM.readSlice count).run desk.buffer = .ok part (desk.buffer.advance count) := by
    unfold BufferM.readSlice
    rw [run_bind_get]
    rw [desk.buffer_readerIdx, sliced, run_bind_ok _ (run_call_ok _ _), ← desk.buffer_readerIdx,
      fits.sound.int32_reader bounded]
    rfl
  exact ⟨part, shown, readable,
    onReplayable_enough fits (Int.ofNat_le.mpr there) count ran .emptyBuffer⟩

theorem readSlice_short {length : Int}
    (lacking : ((desk.writer - desk.reader : Nat) : Int) < length) :
    (readSlice length).run desk.context =
      .ok .emptyBuffer { desk with short := true }.context :=
  onReplayable_lacks fits lacking _ _

end

end Reading

end HttpMessageDecoder

end Cetty
