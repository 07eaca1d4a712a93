import Cetty.HttpDesk

/-!
# The head of an HTTP message

The lines and the states in front of the content, on a head that has been received whole. A line is
terminated in front of what has not been read, and each header line is read before the one in front
of it is added to the message. A header with an empty name is dropped.
-/

namespace Cetty

open CLocale MachineInt ByteWindow

/-- Writes to the array in front of an index. -/
def SameFrom (index : Nat) (before after : CharArray) : Prop :=
  after.length = before.length ∧ after.drop index = before.drop index

namespace SameFrom

variable {index : Nat} {cells before after later : CharArray}

theorem refl (index : Nat) (cells : CharArray) : SameFrom index cells cells := ⟨rfl, rfl⟩

theorem trans (first : SameFrom index before after) (second : SameFrom index after later) :
    SameFrom index before later :=
  ⟨second.1.trans first.1, second.2.trans first.2⟩

theorem set {position : Nat} (early : position < index) (cells : CharArray) (value : Byte) :
    SameFrom index cells (cells.set position value) :=
  ⟨List.length_set, List.drop_set_of_lt early⟩

theorem weaken {further : Nat} (same : SameFrom index before after) (beyond : index ≤ further) :
    SameFrom further before after := by
  refine ⟨same.1, ?_⟩
  have split : further = index + (further - index) := by omega
  rw [split, ← List.drop_drop, ← List.drop_drop, same.2]

theorem window {count : Nat} (same : SameFrom index before after) :
    window after index count = ByteWindow.window before index count := by
  unfold ByteWindow.window
  rw [same.2]

end SameFrom

namespace HttpMessageDecoder

namespace Desk

/-- The bytes come next. -/
structure Ahead (desk : Desk) (bytes : List Byte) : Prop where
  holds : Holds desk.cells desk.reader bytes
  there : desk.reader + bytes.length ≤ desk.writer

variable {desk : Desk} {front rest bytes : List Byte} {c : Byte}

theorem Ahead.readByte_run (fits : desk.Fits) (ahead : desk.Ahead (c :: rest)) :
    readByte.run desk.context = .ok c (desk.pass 1).context := by
  have there := ahead.there
  rw [List.length_cons] at there
  have here : Holds desk.cells desk.reader ([] ++ c :: rest) := ahead.holds
  have same := here.get.2
  rw [List.length_nil, Nat.add_zero] at same
  rw [HttpMessageDecoder.readByte_run fits (by omega), same]

theorem Ahead.fits_next (ahead : desk.Ahead (c :: rest)) (fits : desk.Fits) : (desk.pass 1).Fits := by
  have there := ahead.there
  rw [List.length_cons] at there
  exact fits.pass (by omega)

/-- What is unread comes next. -/
theorem Fits.ahead (fits : desk.Fits) (parts : desk.unread = front ++ rest) : desk.Ahead front := by
  have length := fits.unread_length
  have order := fits.order
  rw [parts, List.length_append] at length
  refine ⟨?_, by omega⟩
  have begins : front ++ rest <+: desk.cells.drop desk.reader := by
    rw [← parts]
    exact List.take_prefix _ _
  exact (List.prefix_append front rest).trans begins

/-- Bytes have been read, and the array and the fields changed. -/
def moved (desk : Desk) (count : Nat) (cells : CharArray) (fields : HttpMessageDecoder) : Desk :=
  { desk with reader := desk.reader + count, short := false, cells := cells, fields := fields }

theorem moved_moved (desk : Desk) (first second : Nat) (cells cells' : CharArray)
    (fields fields' : HttpMessageDecoder) :
    (desk.moved first cells fields).moved second cells' fields' =
      desk.moved (first + second) cells' fields' := by
  unfold moved
  rw [Nat.add_assoc]

theorem Fits.moved {count : Nat} {cells : CharArray} (fits : desk.Fits)
    (there : desk.reader + count ≤ desk.writer) (size : cells.length = desk.cells.length)
    (fields : HttpMessageDecoder) : (desk.moved count cells fields).Fits :=
  ⟨fits.ordered, Nat.le_trans (Nat.le_of_eq size) fits.small, there,
    Nat.le_trans fits.bound (Nat.le_of_eq size.symm)⟩

/-- Behind a read no shortage is reported. -/
theorem needMoreBytes_pass (desk : Desk) (count : Nat) :
    needMoreBytes.run (desk.pass count).context = .ok false (desk.pass count).context := rfl

end Desk

section Lines

variable {limits : HttpLimits} {desk : Desk} {line rest : List Byte}

/-- The end of a line. -/
def lineEnd : List Byte := [HttpCodecUtil.CR, HttpCodecUtil.LF]

/-- The characters of a line in front of its end. -/
def Unbroken (line : List Byte) : Prop := ∀ c ∈ line, c ≠ HttpCodecUtil.CR ∧ c ≠ HttpCodecUtil.LF

theorem Unbroken.tail {c : Byte} (unbroken : Unbroken (c :: line)) : Unbroken line :=
  fun other among => unbroken other (List.mem_cons_of_mem _ among)

end Lines

end HttpMessageDecoder

namespace HttpMessageDecoder

namespace Desk

variable {desk : Desk}

/-- The checkpoint that a decode call sets at the reader index. -/
def checkpointed (desk : Desk) (state : Int) : Desk :=
  { desk with
    state := state
    checkedPoint := if desk.cumulated then (desk.reader : Int) else -1 }

end Desk

section Initial

variable {limits : HttpLimits} {subclass : HttpSubclass} {desk : Desk} {rest : List Byte} {c : Byte}

/-- A character that begins a message. -/
def Begins (c : Byte) : Prop :=
  Character.isISOControl c = false ∧ Character.isWhitespace c = false

theorem skipState_run (fits : desk.Fits) (ahead : desk.Ahead (c :: rest)) (begins : Begins c) :
    skipState.run desk.context = .ok .empty ((desk.pass 0).checkpointed READ_INITIAL).context := by
  have there := ahead.there
  rw [List.length_cons] at there
  have here : Holds desk.cells desk.reader ([] ++ c :: rest) := ahead.holds
  have same := here.get.2
  rw [List.length_nil, Nat.add_zero] at same
  have read : readUnsignedByte.run desk.context = .ok c (desk.pass 1).context := by
    rw [readUnsignedByte_run fits (by omega), same]
  have back : (desk.pass 1).context.replayable.buffer.readerIdx - 1 = ((desk.reader : Nat) : Int) := by
    have index : (desk.pass 1).context.replayable.buffer.readerIdx = ((desk.reader + 1 : Nat) : Int) :=
      (desk.pass 1).buffer_readerIdx
    omega
  have looped : (skipLoop (desk.writer - desk.reader + 1)).run desk.context =
      .ok true (desk.pass 0).context := by
    rw [skipLoop, run_bind_ok _ read, run_bind_ok _ (desk.needMoreBytes_pass 1),
      if_neg Bool.false_ne_true, begins.1, begins.2, if_pos (by rfl)]
    rw [run_bind_get]
    rw [back]
    exact run_bind_ok _ ((desk.pass 1).onCumulated_readerIndex (by show desk.reader ≤ desk.writer; omega))
  have skipped : skipControlCharacters.run desk.context = .ok true (desk.pass 0).context := by
    unfold skipControlCharacters
    rw [run_bind_ok _ (rounds_run fits)]
    exact looped
  unfold skipState
  rw [run_bind_ok _ skipped, if_pos rfl, run_bind_ok _ (checkpointAt_run _ _)]
  rfl

section

variable {str1 str2 str3 : FastString} {first second third : Text} {object : Option HttpMessage}
  (one : str1.toString.run desk.cells = .ok first desk.cells)
  (two : str2.toString.run desk.cells = .ok second desk.cells)
  (three : str3.toString.run desk.cells = .ok third desk.cells)
  (pointed : str1.data ≠ none ∧ str2.data ≠ none ∧ str3.data ≠ none)

include one two three pointed

/-- With three strings in place, the subclass makes the message. -/
theorem createMessage_made :
    (createMessage subclass str1 str2 str3).run desk.context =
      (focus (fun context => context.fields.object)
        (fun context object => { context with fields := { context.fields with object := object } })
        (subclass.createMessage first second third)).run desk.context := by
  have allowed : ¬(str1.data = none ∨ str2.data = none ∨ str3.data = none) := by
    rintro (null | null | null)
    · exact pointed.1 null
    · exact pointed.2.1 null
    · exact pointed.2.2 null
  unfold createMessage
  rw [if_neg allowed]
  refine (run_bind_ok _ (onArray_run one)).trans ?_
  refine (run_bind_ok _ (onArray_run two)).trans ?_
  exact run_bind_ok _ (onArray_run three)

theorem createMessage_run
    (made : (subclass.createMessage first second third).run desk.fields.object = .ok () object) :
    (createMessage subclass str1 str2 str3).run desk.context =
      .ok () { desk with fields := { desk.fields with object := object } }.context := by
  rw [createMessage_made one two three pointed]
  exact run_focus_ok made

theorem createMessage_error {stop : Stop}
    (stopped : (subclass.createMessage first second third).run desk.fields.object =
      .error stop object) :
    (createMessage subclass str1 str2 str3).run desk.context =
      .error stop { desk with fields := { desk.fields with object := object } }.context := by
  rw [createMessage_made one two three pointed]
  exact run_focus_error stopped

end

/-- The three parts of an initial line as they are taken apart. Blanks in front of the third are
skipped, and it has another character behind the first that is not blank. -/
structure PlainStart (first second third : Text) : Prop where
  word : FastString.Word first
  word' : FastString.Word second
  solid : ∃ lead c tail, third = lead ++ c :: tail ∧
    (∀ x ∈ lead, Character.isWhitespace x = true) ∧ Character.isWhitespace c = false ∧ tail ≠ []
  unbroken : ∀ c ∈ third, c ≠ 0 ∧ c ≠ HttpCodecUtil.CR ∧ c ≠ HttpCodecUtil.LF

/-- The third part without the blanks in front of it. -/
def trimmed (third : Text) : Text := third.dropWhile Character.isWhitespace

theorem trimmed_of {lead tail : Text} {c : Byte}
    (blanks : ∀ x ∈ lead, Character.isWhitespace x = true)
    (solid : Character.isWhitespace c = false) : trimmed (lead ++ c :: tail) = c :: tail := by
  unfold trimmed
  rw [List.dropWhile_append_of_pos blanks, List.dropWhile_cons_of_neg (by rw [solid]; decide)]

theorem not_end_of_solid {c : Byte} (solid : Character.isWhitespace c = false) :
    c ≠ HttpCodecUtil.CR ∧ c ≠ HttpCodecUtil.LF := by
  revert c
  decide

theorem PlainStart.line {first second third : Text} (plain : PlainStart first second third) :
    Unbroken (FastString.initialLine first second third) := by
  intro c among
  unfold FastString.initialLine at among
  rcases List.mem_append.mp among with one | among
  · exact not_end_of_solid (plain.word.2 c one).2
  · rcases List.mem_cons.mp among with rfl | among
    · decide
    · rcases List.mem_append.mp among with two | among
      · exact not_end_of_solid (plain.word'.2 c two).2
      · rcases List.mem_cons.mp among with rfl | three
        · decide
        · exact (plain.unbroken c three).2

end Initial

end HttpMessageDecoder

/-- A header line: the name, the blanks behind the colon and the value. -/
structure HttpField where
  name : Text
  gap : Text
  value : Text
  deriving DecidableEq, Repr

namespace HttpField

def line (field : HttpField) : Text := headerLine field.name field.gap field.value

def entry (field : HttpField) : DefaultHttpHeader.Entry := ⟨field.name, field.value⟩

def Plain (field : HttpField) : Prop := PlainHeader field.name field.gap field.value

/-- What a decoder makes of the lines. -/
def entries (fields : List HttpField) : List DefaultHttpHeader.Entry :=
  (fields.filter fun field => field.name ≠ []).map entry

theorem entries_cons (field : HttpField) (fields : List HttpField) :
    entries (field :: fields) = (if field.name = [] then [] else [field.entry]) ++ entries fields := by
  unfold entries
  by_cases empty : field.name = []
  · rw [List.filter_cons_of_neg (by simpa using empty), if_pos empty, List.nil_append]
  · rw [List.filter_cons_of_pos (by simpa using empty), if_neg empty]
    rfl

/-- The lines with their ends. -/
def lines (fields : List HttpField) : Text :=
  (fields.map fun field => field.line ++ HttpMessageDecoder.lineEnd).flatten

theorem not_end_of_blank {c : Byte} (blank : FastString.blank c = true) :
    c ≠ HttpCodecUtil.CR ∧ c ≠ HttpCodecUtil.LF := by
  revert c
  decide

variable {field : HttpField}

theorem Plain.unbroken (plain : field.Plain) :
    HttpMessageDecoder.Unbroken field.line := by
  intro c among
  unfold line headerLine at among
  rcases List.mem_append.mp among with named | among
  · exact HttpMessageDecoder.not_end_of_solid (solid_of_allowed (plain.named c named).2).1
  · rcases List.mem_cons.mp among with rfl | among
    · decide
    · rcases List.mem_append.mp among with spaced | valued
      · exact not_end_of_blank (plain.spaced c spaced)
      · have allowed := plain.valued c valued
        exact ⟨allowed.2.2.2.2, allowed.2.1⟩

/-- A line does not begin with a blank, so that it continues no other. -/
theorem Plain.begins (plain : field.Plain) :
    ∃ c rest, field.line = c :: rest ∧ FastString.blank c = false := by
  unfold line headerLine
  cases named : field.name with
  | nil => exact ⟨_, _, rfl, by decide⟩
  | cons c rest =>
      refine ⟨c, _, rfl, ?_⟩
      have allowed := (plain.named c (by rw [named]; exact List.mem_cons_self)).2
      have solid := (solid_of_allowed allowed).1
      by_contra blank
      rw [Bool.not_eq_false] at blank
      rw [isWhitespace_of_blank blank] at solid
      cases solid

end HttpField

namespace DefaultHttpHeader

theorem validateHeaderName_ok {name : Text}
    (allowed : ∀ c ∈ name, HttpCodecUtil.prohibitedInName c = false) :
    HttpCodecUtil.validateHeaderName name = .ok () := by
  have none : name.any HttpCodecUtil.prohibitedInName = false := by
    rw [List.any_eq_false]
    intro c among
    rw [allowed c among]
    exact Bool.false_ne_true
  unfold HttpCodecUtil.validateHeaderName
  rw [none, if_neg Bool.false_ne_true]
  rfl

theorem validateHeaderValue_ok {value : Text}
    (allowed : ∀ c ∈ value, c ≠ 0 ∧ c ≠ 10 ∧ c ≠ 11 ∧ c ≠ 12 ∧ c ≠ 13) :
    HttpCodecUtil.validateHeaderValue value = .ok () := by
  have scanned : ∀ rest : Text, (∀ c ∈ rest, c ≠ 0 ∧ c ≠ 10 ∧ c ≠ 11 ∧ c ≠ 12 ∧ c ≠ 13) →
      rest.foldlM (HttpCodecUtil.validateCharacter value) HttpCodecUtil.ValueState.other =
        .ok HttpCodecUtil.ValueState.other := by
    intro rest plain
    induction rest with
    | nil => rfl
    | cons c rest ih =>
        obtain ⟨_, feed, tab, form, carriage⟩ := plain c List.mem_cons_self
        have step : HttpCodecUtil.validateCharacter value .other c = .ok .other := by
          unfold HttpCodecUtil.validateCharacter
          rw [if_neg tab, if_neg form]
          dsimp only
          rw [if_neg (show ¬c = HttpCodecUtil.CR from carriage),
            if_neg (show ¬c = HttpCodecUtil.LF from feed)]
          rfl
        rw [List.foldlM_cons, step]
        exact ih fun other among => plain other (List.mem_cons_of_mem _ among)
  unfold HttpCodecUtil.validateHeaderValue
  rw [scanned value allowed]
  rfl

end DefaultHttpHeader

namespace HttpMessageDecoder

def withEntries (message : HttpMessage) (more : List DefaultHttpHeader.Entry) : HttpMessage :=
  { message with header := ⟨message.header.entries ++ more⟩ }

end HttpMessageDecoder

end Cetty
