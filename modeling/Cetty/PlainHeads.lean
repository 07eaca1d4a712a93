import Cetty.ContentChunks
import Cetty.FoldedHeaders
import Cetty.InitialMessages

/-!
# Heads that are read without a change

The initial line and the header lines of a head that is plain, as one case of how any head is read,
and the rounds in which they are read.
-/

namespace Cetty

open CLocale MachineInt ByteWindow

namespace HttpField

variable {field : HttpField} {fields : List HttpField} {split : SplitLine}

/-- A line with its end. -/
def writtenLine (field : HttpField) : WrittenLine := ⟨field.line, HttpMessageDecoder.lineEnd⟩

theorem written_fields (fields : List HttpField) : written (fields.map writtenLine) = lines fields := by
  unfold written lines
  rw [List.map_map]
  rfl

section

variable (plain : field.Plain)

include plain

theorem Plain.proper : field.writtenLine.Proper := by
  obtain ⟨c, rest, begins, -⟩ := plain.begins
  refine ⟨?_, plain.unbroken, Or.inl rfl⟩
  show field.line ≠ []
  rw [begins]
  exact List.cons_ne_nil _ _

theorem Plain.splits : splitText field.line = ⟨field.name, some field.value⟩ := by
  obtain ⟨c, rest, begins, solid⟩ := plain.solid
  have kept : field.value.dropWhile Character.isWhitespace = field.value := by
    rw [begins]
    exact List.dropWhile_cons_of_neg (by rw [solid]; exact Bool.false_ne_true)
  have some_ : field.value ≠ [] := by
    rw [begins]
    exact List.cons_ne_nil _ _
  have split := @splitText_headerLine field.name field.gap field.value
    (fun c among => (plain.named c among).2) plain.spaced
  rw [kept, if_neg some_] at split
  exact split

theorem Plain.strings :
    cString field.name = field.name ∧ cString field.value = field.value :=
  ⟨cString_solid fun c among => (plain.named c among).1,
    cString_solid fun c among => (plain.valued c among).1⟩

theorem Plain.addable : Addable (splitText field.line) := by
  obtain ⟨name, value⟩ := plain.strings
  rw [plain.splits]
  refine Or.inr ⟨_, rfl, ?_, ?_⟩
  · dsimp only
    unfold DefaultHttpHeader.validName
    rw [name, DefaultHttpHeader.validateHeaderName_ok fun c among => (plain.named c among).2]
    rfl
  · unfold DefaultHttpHeader.validValue
    rw [value, DefaultHttpHeader.validateHeaderValue_ok plain.valued]
    rfl

end

theorem unfolded_fields (plain : ∀ field ∈ fields, field.Plain) (split : SplitLine) :
    Unfolded split (fields.map line) := by
  induction fields generalizing split with
  | nil => trivial
  | cons field rest induction =>
      obtain ⟨c, more, begins, solid⟩ := (plain field List.mem_cons_self).begins
      refine ⟨?_, induction (fun other among => plain other (List.mem_cons_of_mem _ among)) _⟩
      rw [begins, continues_cons, solid, Bool.and_false]

theorem linesEntries_fields (plain : ∀ field ∈ fields, field.Plain) :
    linesEntries (fields.map line) = entries fields := by
  induction fields with
  | nil => rfl
  | cons field rest induction =>
      have here := plain field List.mem_cons_self
      obtain ⟨name, value⟩ := here.strings
      have later := induction fun other among => plain other (List.mem_cons_of_mem _ among)
      unfold linesEntries at later ⊢
      rw [List.map_cons, List.flatMap_cons, later, here.splits, entries_cons]
      unfold SplitLine.entries entry
      dsimp only
      rw [name, value]

end HttpField

namespace HttpMessageDecoder

section Heads

variable {limits : HttpLimits} {subclass : HttpSubclass} {desk : Desk} {message : HttpMessage}
  {rest : List Byte} {first second third : Text}

theorem PlainStart.taken (plain : PlainStart first second third) :
    ∃ text last, FastString.initialLine first second third = text ++ [last] ∧
      (lineWords text).rest ≠ [] ∧ cString (lineWords text).first = first ∧
      cString (lineWords text).second = second ∧
      cString ((lineWords text).rest ++ [last]) = trimmed third := by
  obtain ⟨lead, c, tail, begins, blanks, solid, more⟩ := plain.solid
  obtain ⟨front, last, rfl⟩ : ∃ front last, tail = front ++ [last] :=
    ⟨_, _, (List.dropLast_append_getLast more).symm⟩
  have spaced : Spaced ⟨[], first, [HttpCodecUtil.SP], second, HttpCodecUtil.SP :: lead,
      c :: front⟩ := by
    refine ⟨nofun, ⟨plain.word.1, fun x among => (plain.word.2 x among).2⟩,
      ⟨List.cons_ne_nil _ _, ?_⟩, ⟨plain.word'.1, fun x among => (plain.word'.2 x among).2⟩,
      ⟨List.cons_ne_nil _ _, ?_⟩, ?_⟩
    · intro x among
      rw [List.mem_singleton.mp among]
      decide
    · intro x among
      rcases List.mem_cons.mp among with rfl | among
      · decide
      · exact blanks x among
    · intro x others same
      rw [← (List.cons.inj same).1]
      exact solid
  have same := lineWords_line spaced
  refine ⟨LineWords.line ⟨[], first, [HttpCodecUtil.SP], second, HttpCodecUtil.SP :: lead, c :: front⟩,
    last, ?_, ?_, ?_, ?_, ?_⟩
  · rw [begins]
    unfold FastString.initialLine LineWords.line
    simp
  · rw [same]
    exact List.cons_ne_nil _ _
  · rw [same]
    exact cString_solid fun x among => (plain.word.2 x among).1
  · rw [same]
    exact cString_solid fun x among => (plain.word'.2 x among).1
  · rw [same, begins, trimmed_of blanks solid]
    refine cString_solid fun x among => (plain.unbroken x ?_).1
    rw [begins]
    exact List.mem_append_right _ among

theorem initialState_run (fits : desk.Fits) (plain : PlainStart first second third)
    (unread : desk.unread = FastString.initialLine first second third ++ lineEnd ++ rest)
    (small : ((FastString.initialLine first second third).length : Int) ≤
      limits.maxInitialLineLength)
    (made : (subclass.createMessage first second (trimmed third)).run desk.fields.object =
      .ok () (some message)) :
    ∃ cells, SameFrom (desk.reader + ((FastString.initialLine first second third).length + 2))
        desk.cells cells ∧
      (initialState limits subclass).run desk.context = .ok .empty
        ((desk.moved ((FastString.initialLine first second third).length + 2) cells
          { desk.fields with
            object := some { message with header := .fresh }
            message := true
            headerSize := 0 }).checkpointed READ_HEADER).context := by
  obtain ⟨text, last, parts, some_, one, two, three⟩ := plain.taken
  have whole : WholeLine (FastString.initialLine first second third) lineEnd :=
    ⟨fun wrong => (plain.line _ wrong).2 rfl, Or.inl rfl⟩
  have all : counted (FastString.initialLine first second third) = text ++ [last] := by
    unfold counted
    rw [uncounted_unbroken fun c among => (plain.line c among).1, Nat.sub_zero, List.take_length]
    exact parts
  rw [← one, ← two, ← three] at made
  exact initialState_message fits whole small unread all some_ made

theorem readHeaders_run {fields : List HttpField} (plain : ∀ field ∈ fields, field.Plain)
    (fits : desk.Fits) (pointed : desk.fields.message = true)
    (made : desk.fields.object = some message) (cleared : desk.fields.headerSize = 0)
    (unread : desk.unread = HttpField.lines fields ++ lineEnd ++ rest)
    (small : ((HttpField.lines fields).length : Int) ≤ limits.maxHeaderSize) :
    ∃ cells headerSize,
      SameFrom (desk.reader + (HttpField.lines fields ++ lineEnd).length) desk.cells cells ∧
      (readHeaders limits).run desk.context =
        .ok (nextState (withEntries message (HttpField.entries fields)))
          (desk.moved (HttpField.lines fields ++ lineEnd).length cells { desk.fields with
            object := some (withEntries message (HttpField.entries fields))
            headerSize := headerSize }).context := by
  have proper : ∀ line ∈ fields.map HttpField.writtenLine, line.Proper := by
    intro line among
    obtain ⟨field, listed, rfl⟩ := List.mem_map.mp among
    exact (plain field listed).proper
  have texts : (fields.map HttpField.writtenLine).map WrittenLine.text =
      fields.map HttpField.line := by
    rw [List.map_map]
    rfl
  have added : linesRead .fresh (fields.map HttpField.line) message =
      .ok (withEntries message (HttpField.entries fields)) := by
    refine linesRead_ok_iff.mpr ⟨HttpField.unfolded_fields plain _, Or.inl rfl, ?_, ?_⟩
    · intro line among
      obtain ⟨field, listed, rfl⟩ := List.mem_map.mp among
      exact (plain field listed).addable
    · rw [HttpField.linesEntries_fields plain]
      rfl
  rw [← HttpField.written_fields] at small
  have lined : headersSection limits message 0
      (written (fields.map HttpField.writtenLine) ++ lineEnd ++ rest) = _ :=
    headersSection_lines proper (Or.inl rfl) rest small
  rw [texts, added, HttpField.written_fields, ← unread] at lined
  have read := @readHeaders_section limits desk message fits pointed made
  rw [cleared, lined] at read
  generalize (readHeaders limits).run desk.context = result at read ⊢
  cases read with
  | done _ _ cells headerSize same => exact ⟨cells, headerSize, same, rfl⟩

end Heads

/-- The same buffer, so many bytes further. -/
structure Desk.Onward (desk : Desk) (count : Nat) (rest : List Byte) (next : Desk) : Prop where
  fits : next.Fits
  calm : next.short = false
  ended : next.ended = desk.ended
  cumulated : next.cumulated = desk.cumulated
  shell : next.shell = desk.shell
  size : next.cells.length = desk.cells.length
  writer : next.writer = desk.writer
  reader : next.reader = desk.reader + count
  unread : next.unread = rest
  fired : next.fired = desk.fired

section Rounds

variable {limits : HttpLimits} {subclass : HttpSubclass} {unfold_ : Bool} {fuel : Nat} {desk : Desk}
  {message : HttpMessage} {first second third : Text} {front rest : List Byte} {cells : CharArray}

/-- What is unread behind bytes that have been read. -/
theorem Desk.Fits.unread_moved (fits : desk.Fits) (parts : desk.unread = front ++ rest)
    (same : SameFrom (desk.reader + front.length) desk.cells cells)
    (fields : HttpMessageDecoder) : (desk.moved front.length cells fields).unread = rest := by
  have passed := fits.unread_pass parts
  unfold Desk.unread at passed ⊢
  exact same.window.trans passed

theorem Desk.Fits.opened (fits : desk.Fits) : desk.opened.Fits :=
  ⟨fits.ordered, fits.small, fits.order, fits.bound⟩

theorem Desk.Fits.onward (fits : desk.Fits) (parts : desk.unread = front ++ rest)
    (same : SameFrom (desk.reader + front.length) desk.cells cells) (fields : HttpMessageDecoder)
    (state : Int) :
    desk.Onward front.length rest ((desk.moved front.length cells fields).checkpointed state) := by
  have length := fits.unread_length
  rw [parts, List.length_append] at length
  have order := fits.order
  have moved : (desk.moved front.length cells fields).Fits := fits.moved (by omega) same.1 _
  exact ⟨⟨moved.ordered, moved.small, moved.order, moved.bound⟩, rfl, rfl, rfl, rfl, same.1, rfl, rfl,
    fits.unread_moved parts same fields, rfl⟩

/-- The two rounds in front of the headers. -/
theorem heading_rounds (plain : PlainStart first second third)
    (begins : ∃ c tail, first = c :: tail ∧ Begins c) (fits : desk.Fits)
    (state : desk.state = SKIP_CONTROL_CHARS)
    (small : ((FastString.initialLine first second third).length : Int) ≤
      limits.maxInitialLineLength)
    (made : (subclass.createMessage first second (trimmed third)).run desk.fields.object =
      .ok () (some message))
    (parts : desk.unread = FastString.initialLine first second third ++ lineEnd ++ rest) :
    ∃ next : Desk,
      desk.Onward (FastString.initialLine first second third ++ lineEnd).length rest next ∧
      next.state = READ_HEADER ∧
      next.fields = { desk.fields with
        object := some { message with header := .fresh }
        message := true
        headerSize := 0 } ∧
      (ReplayingDecoder.callDecode (replaying limits subclass) unfold_ (fuel + 2)).run desk.context =
        (ReplayingDecoder.callDecode (replaying limits subclass) unfold_ fuel).run next.context := by
  have length := fits.unread_length
  rw [parts, List.length_append] at length
  -- the control characters in front of the message
  obtain ⟨c, tail, start, solid⟩ := begins
  have front : desk.opened.unread =
      (c :: (tail ++ HttpCodecUtil.SP :: (second ++ HttpCodecUtil.SP :: third) ++ lineEnd ++ rest)) ++
        [] := by
    rw [List.append_nil]
    refine parts.trans ?_
    rw [FastString.initialLine, start]
    rfl
  have skipped := skipState_run fits.opened (fits.opened.ahead front) solid
  have there : desk.reader < desk.writer := by
    have counted : (FastString.initialLine first second third ++ lineEnd).length =
        (FastString.initialLine first second third).length + 2 := List.length_append
    omega
  have skips : (replaying limits subclass).decode desk.state = skipState := by
    rw [state]
    rfl
  rw [← skips] at skipped
  let begun : Desk := (desk.opened.pass 0).checkpointed READ_INITIAL
  have one := @callDecode_silent (replaying limits subclass) unfold_ (fuel + 1) desk begun fits there
    skipped rfl (by
      rintro ⟨-, same⟩
      have still : READ_INITIAL = desk.state := same
      rw [state] at still
      exact absurd still (by decide))
  -- the initial line
  have fits₁ : begun.Fits := ⟨fits.ordered, fits.small, fits.order, fits.bound⟩
  obtain ⟨cells, same, initial⟩ := @initialState_run limits subclass begun.opened _ _ _ _ _
    fits₁.opened plain parts small made
  have two := @callDecode_silent (replaying limits subclass) unfold_ fuel begun _ fits₁ there initial
    rfl (by
      rintro ⟨same, -⟩
      have still : desk.reader + ((FastString.initialLine first second third).length + 2) =
          desk.reader := same
      omega)
  have onward := @Desk.Fits.onward begun.opened _ _ cells fits₁.opened parts
    (by rw [List.length_append]; exact same)
    { begun.opened.fields with
      object := some { message with header := .fresh }
      message := true
      headerSize := 0 } READ_HEADER
  rw [List.length_append] at onward ⊢
  exact ⟨_, ⟨onward.fits, rfl, rfl, rfl, rfl, onward.size, rfl, rfl, onward.unread, rfl⟩, rfl, rfl,
    one.trans two⟩

end Rounds

end HttpMessageDecoder

end Cetty
