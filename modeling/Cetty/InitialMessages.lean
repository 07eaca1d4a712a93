import Mathlib.Data.List.DropRight
import Cetty.HeaderSections
import Cetty.InitialLines

/-!
# What is made of an initial line

The message is made of the three parts when the last of them has two characters and ends the line. Of a
line with fewer parts no message is made, but it is never ignored.
-/

namespace Cetty

open CLocale MachineInt ByteWindow

/-- The three parts of a line, the third up to its last character that is not blank. -/
structure Parted (line : Text) (words : LineWords) (trail : Text) : Prop where
  spaced : Spaced words
  ends : ∃ front c, words.rest = front ++ [c] ∧ Character.isWhitespace c = false
  whole : line = words.line ++ trail
  trail : Blank trail

/-- A line that is taken apart without a loss. -/
structure Suits (line : Text) (words : LineWords) (trail : Text) : Prop where
  parted : Parted line words trail
  short : trail.length = uncounted line
  long : 2 ≤ words.rest.length
  solid : (0 : Byte) ∉ line

/-- The words with more behind them. -/
def LineWords.extended (words : LineWords) (more : Text) : LineWords :=
  { words with rest := words.rest ++ more }

section Parting

variable {line text more trail : Text} {words : LineWords} {c last : Byte}

theorem extended_line (words : LineWords) (more : Text) :
    (words.extended more).line = words.line ++ more := by
  unfold LineWords.extended LineWords.line
  simp

theorem Spaced.extended (spaced : Spaced words) (some_ : words.rest ≠ []) (more : Text) :
    Spaced (words.extended more) := by
  refine ⟨spaced.lead, spaced.first, spaced.gap, spaced.second, spaced.gap', ?_⟩
  intro c rest same
  obtain ⟨d, others, begins⟩ := List.exists_cons_of_ne_nil some_
  have shown : words.rest ++ more = c :: rest := same
  rw [begins, List.cons_append] at shown
  rw [← (List.cons.inj shown).1]
  exact spaced.rest d others begins

/-- The parts of a line and of what stands behind it. -/
theorem lineWords_extended (spaced : Spaced words) (some_ : words.rest ≠ []) (more : Text) :
    lineWords (words.line ++ more) = words.extended more := by
  rw [← extended_line]
  exact lineWords_line (spaced.extended some_ more)

theorem Parted.some_ (parted : Parted line words trail) : words.rest ≠ [] := by
  obtain ⟨front, c, same, -⟩ := parted.ends
  rw [same]
  simp

theorem Parted.words_eq (parted : Parted line words trail) :
    lineWords line = words.extended trail := by
  rw [parted.whole]
  exact lineWords_extended parted.spaced parted.some_ trail

theorem rdropWhile_blank {front : Text} (blank : Blank trail)
    (solid : Character.isWhitespace c = false) :
    (front ++ [c] ++ trail).rdropWhile Character.isWhitespace = front ++ [c] := by
  induction trail using List.reverseRecOn with
  | nil =>
      rw [List.append_nil]
      exact List.rdropWhile_concat_neg _ _ _ (by rw [solid]; exact Bool.false_ne_true)
  | append_singleton trail d induction =>
      rw [← List.append_assoc, List.rdropWhile_concat_pos _ _ _
        (blank d (List.mem_append_right _ List.mem_cons_self))]
      exact induction fun other among => blank other (List.mem_append_left _ among)

/-- A line is parted in one way. -/
theorem Parted.unique {words' : LineWords} {trail' : Text} (parted : Parted line words trail)
    (parted' : Parted line words' trail') : words = words' ∧ trail = trail' := by
  have same := parted.words_eq.symm.trans parted'.words_eq
  obtain ⟨front, c, ends, solid⟩ := parted.ends
  obtain ⟨front', c', ends', solid'⟩ := parted'.ends
  have rests : words.rest ++ trail = words'.rest ++ trail' := congrArg LineWords.rest same
  have dropped := congrArg (List.rdropWhile Character.isWhitespace) rests
  rw [ends, ends', rdropWhile_blank parted.trail solid, rdropWhile_blank parted'.trail solid', ← ends,
    ← ends'] at dropped
  rw [dropped] at rests
  refine ⟨?_, List.append_cancel_left rests⟩
  obtain ⟨lead, first, gap, second, gap', rest⟩ := words
  obtain ⟨lead', first', gap₂, second', gap₂', rest'⟩ := words'
  unfold LineWords.extended at same
  dsimp only at same dropped
  rw [LineWords.mk.injEq] at same ⊢
  exact ⟨same.1, same.2.1, same.2.2.1, same.2.2.2.1, same.2.2.2.2.1, dropped⟩

/-- The last character that is not blank. -/
theorem last_solid (back : Text) (solid : Character.isWhitespace c = false) :
    ∃ front d trail, c :: back = front ++ [d] ++ trail ∧ Character.isWhitespace d = false ∧
      Blank trail := by
  induction back using List.reverseRecOn with
  | nil => exact ⟨[], c, [], rfl, solid, nofun⟩
  | append_singleton back e induction =>
      by_cases blank : Character.isWhitespace e = true
      · obtain ⟨front, d, trail, same, solid', trailing⟩ := induction
        refine ⟨front, d, trail ++ [e], ?_, solid', ?_⟩
        · rw [← List.append_assoc, ← same]
          rfl
        · intro other among
          rcases List.mem_append.mp among with early | late
          · exact trailing other early
          · rw [List.mem_singleton.mp late]
            exact blank
      · exact ⟨c :: back, e, [], (List.append_nil _).symm, Bool.eq_false_iff.mpr blank, nofun⟩

/-- A line whose beginning has something in the third place has three parts. -/
theorem parted_of_third (third : (lineWords text).rest ≠ []) (more : Text) :
    ∃ words trail, Parted (text ++ more) words trail := by
  have spaced := spaced_lineWords third
  obtain ⟨c, back, begins⟩ := List.exists_cons_of_ne_nil third
  obtain ⟨front, d, trail, same, solid, trailing⟩ :=
    last_solid (back ++ more) (spaced.rest c back begins)
  refine ⟨{ lineWords text with rest := front ++ [d] }, trail, ?_, ⟨front, d, rfl, solid⟩, ?_,
    trailing⟩
  · refine ⟨spaced.lead, spaced.first, spaced.gap, spaced.second, spaced.gap', ?_⟩
    intro e others shown
    have heads : c :: (back ++ more) = e :: (others ++ trail) := by
      rw [same]
      exact congrArg (· ++ trail) shown
    rw [← (List.cons.inj heads).1]
    exact spaced.rest c back begins
  · have shown : ((lineWords text).extended more).line = text ++ more := by
      rw [extended_line, line_lineWords]
    rw [← shown]
    unfold LineWords.extended LineWords.line
    dsimp only
    rw [begins, List.cons_append, same]
    simp

end Parting

namespace HttpMessageDecoder

/-- The message is made of the parts, and its headers come next. -/
def CreatesFrom (limits : HttpLimits) (desk : Desk) (first second third : Text) : Prop :=
  ∀ (subclass : HttpSubclass) (message : HttpMessage),
    (subclass.createMessage first second third).run desk.fields.object = .ok () (some message) →
    ∃ context, (initialState limits subclass).run desk.context = .ok .empty context ∧
      context.state = READ_HEADER ∧ context.fields.message = true ∧
      context.fields.object = some { message with header := .fresh }

/-- The line is passed over. -/
def Ignored (limits : HttpLimits) (desk : Desk) : Prop :=
  ∀ subclass : HttpSubclass, ∃ context,
    (initialState limits subclass).run desk.context = .ok .empty context ∧
      context.state = SKIP_CONTROL_CHARS ∧ context.fields.object = desk.fields.object ∧
      context.fields.message = desk.fields.message

/-- What should become of a line. -/
def LineTaken (limits : HttpLimits) (desk : Desk) (line : Text) : Prop :=
  (∀ words trail, Parted line words trail →
      CreatesFrom limits desk words.first words.second words.rest) ∧
    ((¬∃ words trail, Parted line words trail) → Ignored limits desk)

section Initial

variable {limits : HttpLimits} {subclass : HttpSubclass} {desk : Desk} {line text : Text}
  {end_ beyond : List Byte} {last : Byte}

theorem splitInitialLine_minus {cells : CharArray} {data : Nat} (inside : data < cells.length) :
    ∃ cells', (⟨some (data : Int), -1⟩ : FastString).splitInitialLine.run cells =
      .ok (some [.fresh, .fresh, .fresh]) cells' := by
  have cut : ∀ before : CharArray, before.length = cells.length →
      ((⟨some (data : Int), -1⟩ : FastString).setChar 0 0).run before =
        .ok () (before.set data 0) := by
    intro before same
    exact @store_run before data (by omega) 0
  have first := cut cells rfl
  have second := cut (cells.set data 0) List.length_set
  refine ⟨(cells.set data 0).set data 0, ?_⟩
  have skips : (FastString.findNonWhitespace ⟨some (data : Int), -1⟩ 0).run cells = .ok 0 cells := rfl
  have scans : (FastString.findWhitespace ⟨some (data : Int), -1⟩ 0).run cells = .ok 0 cells := rfl
  have ends : (FastString.findEndOfString ⟨some (data : Int), -1⟩).run cells = .ok (-1) cells := rfl
  unfold FastString.splitInitialLine
  rw [if_neg (show ¬(⟨some (data : Int), -1⟩ : FastString).empty = true from Bool.false_ne_true),
    run_bind_ok _ skips, run_bind_ok _ scans, run_bind_ok _ skips, run_bind_ok _ scans,
    run_bind_ok _ skips, run_bind_ok _ ends, run_bind_ok _ first, run_bind_ok _ second]
  rfl

/-- How a line is taken: as a message of three texts, as one with a null pointer among them, or not at
all. -/
inductive InitialTaken (limits : HttpLimits) (desk : Desk) (subclass : HttpSubclass)
    (line : Text) : Prop
  | message {text : Text} {last : Byte} (parts : counted line = text ++ [last])
      (third : (lineWords text).rest ≠ [])
      (creates : ∀ message, (subclass.createMessage (cString (lineWords text).first)
          (cString (lineWords text).second) (cString ((lineWords text).rest ++ [last]))).run
            desk.fields.object = .ok () (some message) →
        ∃ context, (initialState limits subclass).run desk.context = .ok .empty context ∧
          context.state = READ_HEADER ∧ context.fields.message = true ∧
          context.fields.object = some { message with header := .fresh })
      (stops : ∀ stop object, (subclass.createMessage (cString (lineWords text).first)
          (cString (lineWords text).second) (cString ((lineWords text).rest ++ [last]))).run
            desk.fields.object = .error stop object →
        ∃ context, (initialState limits subclass).run desk.context = .error stop context) :
      InitialTaken limits desk subclass line
  | missing (third : ∀ text last, counted line = text ++ [last] → (lineWords text).rest = [])
      (stops : ∃ context, (initialState limits subclass).run desk.context =
        .error subclass.missing context) :
      InitialTaken limits desk subclass line
  | left (third : ∀ text last, counted line = text ++ [last] → (lineWords text).rest = [])
      (stays : ∃ context, (initialState limits subclass).run desk.context = .ok .empty context ∧
        context.state = desk.state) :
      InitialTaken limits desk subclass line

theorem createMessage_missing {str1 str2 str3 : FastString}
    (null : str3.data = none) (desk : Desk) :
    (createMessage subclass str1 str2 str3).run desk.context =
      .error subclass.missing desk.context := by
  unfold createMessage
  rw [if_pos (Or.inr (Or.inr null))]
  rfl

/-- A line with a third part in front of its last character makes a message of three texts. -/
theorem initialState_message {message : HttpMessage} (fits : desk.Fits)
    (whole : WholeLine line end_) (small : (line.length : Int) ≤ limits.maxInitialLineLength)
    (unread : desk.unread = line ++ end_ ++ beyond) (parts : counted line = text ++ [last])
    (third : (lineWords text).rest ≠ [])
    (made : (subclass.createMessage (cString (lineWords text).first)
      (cString (lineWords text).second) (cString ((lineWords text).rest ++ [last]))).run
        desk.fields.object = .ok () (some message)) :
    ∃ cells, SameFrom (desk.reader + (line.length + end_.length)) desk.cells cells ∧
      (initialState limits subclass).run desk.context = .ok .empty
        ((desk.moved (line.length + end_.length) cells
          { desk.fields with
            object := some { message with header := .fresh }
            message := true
            headerSize := 0 }).checkpointed READ_HEADER).context := by
  obtain ⟨cells, same, strings, read⟩ := readLine_whole fits whole unread small
  rw [parts, List.length_append, List.length_singleton] at read
  rw [parts] at strings
  have size : ((text.length + 1 : Nat) : Int) - 1 = text.length := by omega
  rw [size] at read
  obtain ⟨str1, str2, str3, cells', split, untouched, pointed, one, two, three⟩ :=
    FastString.splitInitialLine_words third strings
  let splitDesk : Desk :=
    { desk.moved (line.length + end_.length) cells desk.fields with cells := cells' }
  have creates := @createMessage_run subclass splitDesk str1 str2 str3 _ _ _ (some message)
    one two three pointed made
  have cleared := @onMessage_run
    (({ splitDesk with fields := { splitDesk.fields with
      object := some message
      message := true
      headerSize := 0 } } : Desk).checkpointed READ_HEADER)
    message { message with header := .fresh }
    (fun message => pure { message with header := .fresh }) rfl rfl rfl
  have shorter : text.length + 1 ≤ line.length := by
    have cut := congrArg List.length parts
    rw [List.length_append, List.length_singleton] at cut
    rw [← cut]
    exact List.length_take_le' _ _
  refine ⟨cells', same.trans (untouched.weaken (by omega)), ?_⟩
  unfold initialState
  rw [run_bind_ok _ read, run_bind_ok _ (onArray_run split)]
  refine (run_bind_ok _ creates).trans ?_
  refine (run_bind_ok _ (update_run _ _)).trans ?_
  refine (run_bind_ok _ (checkpointAt_run _ _)).trans ?_
  refine (run_bind_ok _ (update_run _ _)).trans ?_
  exact run_bind_ok _ cleared

theorem initialState_taken (fits : desk.Fits) (whole : WholeLine line end_)
    (small : (line.length : Int) ≤ limits.maxInitialLineLength)
    (unread : desk.unread = line ++ end_ ++ beyond) : InitialTaken limits desk subclass line := by
  obtain ⟨cells, same, strings, read⟩ := readLine_whole fits whole unread small
  have order := fits.order
  have bound := fits.bound
  have length := fits.unread_length
  have width := whole.endsLine.length
  have inside : desk.reader < cells.length := by
    rw [same.1]
    rw [unread, List.length_append, List.length_append] at length
    omega
  -- what follows the split, when it makes three strings
  have missing : ∀ {str : FastString} {str1 str2 : FastString} {cells' : CharArray},
      (readLine limits.maxInitialLineLength).run desk.context = .ok str
        (desk.moved (line.length + end_.length) cells desk.fields).context →
      str.splitInitialLine.run cells = .ok (some [str1, str2, .fresh]) cells' →
      ∃ context, (initialState limits subclass).run desk.context =
        .error subclass.missing context := by
    intro str str1 str2 cells' read split
    let splitDesk : Desk :=
      { desk.moved (line.length + end_.length) cells desk.fields with cells := cells' }
    have null := @createMessage_missing subclass str1 str2 .fresh rfl splitDesk
    refine ⟨splitDesk.context, ?_⟩
    unfold initialState
    rw [run_bind_ok _ read, run_bind_ok _ (onArray_run split)]
    exact run_bind_error _ null
  rcases List.eq_nil_or_concat (counted line) with none | ⟨text, last, parts⟩
  · have third : ∀ text last, counted line = text ++ [last] → (lineWords text).rest = [] := by
      intro text last wrong
      rw [none] at wrong
      exact absurd wrong.symm (by simp)
    rw [none] at read
    obtain ⟨cells', split⟩ := @splitInitialLine_minus cells desk.reader inside
    exact .missing third (missing read split)
  · rw [List.concat_eq_append] at parts
    rw [parts, List.length_append, List.length_singleton] at read
    rw [parts] at strings
    have size : ((text.length + 1 : Nat) : Int) - 1 = text.length := by omega
    rw [size] at read
    have room := strings.bound (by simp)
    rw [List.length_append, List.length_append, List.length_singleton,
      List.length_singleton] at room
    have equal : ∀ text' last', counted line = text' ++ [last'] → text' = text := by
      intro text' last' same'
      exact (List.append_inj' (same'.symm.trans parts) rfl).1
    by_cases third : (lineWords text).rest = []
    · have none : ∀ text' last', counted line = text' ++ [last'] → (lineWords text').rest = [] := by
        intro text' last' same'
        rw [equal text' last' same']
        exact third
      by_cases empty : text = []
      · refine .left none ⟨(desk.moved (line.length + end_.length) cells desk.fields).context, ?_, rfl⟩
        have split : (FastString.lineAt desk.reader text.length).splitInitialLine.run cells =
            .ok Option.none cells := by
          rw [empty]
          rfl
        have nothing : (onArray (FastString.lineAt desk.reader text.length).splitInitialLine).run
            (desk.moved (line.length + end_.length) cells desk.fields).context = .ok Option.none
            (desk.moved (line.length + end_.length) cells desk.fields).context := onArray_run split
        unfold initialState
        rw [run_bind_ok _ read]
        exact run_bind_ok _ nothing
      · obtain ⟨str1, str2, cells', split⟩ :=
          FastString.splitInitialLine_short empty strings.front.front (by omega) third
        exact .missing none (missing read split)
    · obtain ⟨str1, str2, str3, cells', split, untouched, pointed, one, two, three⟩ :=
        FastString.splitInitialLine_words third strings
      let splitDesk : Desk :=
        { desk.moved (line.length + end_.length) cells desk.fields with cells := cells' }
      refine .message parts third ?_ ?_
      · intro message made
        obtain ⟨cells'', -, ran⟩ := initialState_message fits whole small unread parts third made
        exact ⟨_, ran, rfl, rfl, rfl⟩
      · intro stop object stopped
        have stops := @createMessage_error subclass splitDesk str1 str2 str3 _ _ _ object
          one two three pointed stop stopped
        refine ⟨{ splitDesk with
          fields := { splitDesk.fields with object := object } }.context, ?_⟩
        unfold initialState
        rw [run_bind_ok _ read, run_bind_ok _ (onArray_run split)]
        exact run_bind_error _ stops

/-- A subclass that makes its message of three texts and of no others. -/
def probe (first second third : Text) : HttpSubclass where
  createMessage str1 str2 str3 :=
    if str1 = first ∧ str2 = second ∧ str3 = third then set (some HttpResponseDecoder.response)
    else throw .outOfBounds
  isDecodingRequest := false
  missing := .assertion
  typeName := "HttpResponseDecoder"

theorem probe_run (first second third : Text) (object : Option HttpMessage) :
    ((probe first second third).createMessage first second third).run object =
      .ok () (some HttpResponseDecoder.response) := by
  unfold probe
  dsimp only
  rw [if_pos ⟨rfl, rfl, rfl⟩]
  rfl

theorem probe_other {first second third str1 str2 str3 : Text}
    (other : ¬(str1 = first ∧ str2 = second ∧ str3 = third)) (object : Option HttpMessage) :
    ((probe first second third).createMessage str1 str2 str3).run object =
      .error .outOfBounds object := by
  unfold probe
  dsimp only
  rw [if_neg other]
  rfl

theorem counted_append (line : Text) :
    ∃ dropped, line = counted line ++ dropped ∧ dropped.length = uncounted line := by
  have fewer := uncounted_le line
  refine ⟨line.drop (line.length - uncounted line), (List.take_append_drop _ _).symm, ?_⟩
  rw [List.length_drop]
  omega

/-- A line that suits is taken apart without a loss. -/
theorem Suits.taken {words : LineWords} {trail : Text} (suits : Suits line words trail)
    (parts : counted line = text ++ [last]) :
    (lineWords text).rest ≠ [] ∧ cString (lineWords text).first = words.first ∧
      cString (lineWords text).second = words.second ∧
      cString ((lineWords text).rest ++ [last]) = words.rest := by
  obtain ⟨front, c, ends, -⟩ := suits.parted.ends
  have whole := suits.parted.whole
  have cut : counted line = words.line := by
    unfold counted
    rw [← suits.short, whole, List.length_append, Nat.add_sub_cancel, List.take_left]
  have long := suits.long
  rw [ends, List.length_append, List.length_singleton] at long
  have present : front ≠ [] := List.length_pos_iff.mp (by omega)
  have shorter : Spaced { words with rest := front } := by
    refine ⟨suits.parted.spaced.lead, suits.parted.spaced.first, suits.parted.spaced.gap,
      suits.parted.spaced.second, suits.parted.spaced.gap', ?_⟩
    intro d rest same
    have begins : front = d :: rest := same
    exact suits.parted.spaced.rest d (rest ++ [c]) (by rw [ends, begins]; rfl)
  have split : words.line = ({ words with rest := front } : LineWords).line ++ [c] := by
    unfold LineWords.line
    rw [ends]
    simp
  rw [cut, split] at parts
  obtain ⟨front', last'⟩ := List.append_inj' parts rfl
  have same : lineWords text = { words with rest := front } := by
    rw [← front']
    exact lineWords_line shorter
  have mem : ∀ part : Text, (∀ c ∈ part, c ∈ words.line) → cString part = part := by
    intro part inside
    apply cString_solid
    intro c among
    rintro rfl
    apply suits.solid
    rw [whole]
    exact List.mem_append_left _ (inside 0 among)
  rw [same, ← last', ← ends]
  refine ⟨present, mem _ ?_, mem _ ?_, mem _ ?_⟩ <;>
    · intro c among
      unfold LineWords.line
      simp [among]

/-- No blank is a terminator. -/
theorem Blank.unterminated {text : Text} (blank : Blank text) : (0 : Byte) ∉ text := by
  intro among
  exact absurd (blank 0 among) (by decide)

variable {trail : Text} {words : LineWords}

/-- A string in front of blanks is not cut by them. -/
theorem cString_front {z dropped rest : Text} (same : z ++ dropped = rest ++ trail)
    (blank : Blank trail) (shown : cString z = rest) : z = rest := by
  have parts : cString z ++ z.dropWhile (· != 0) = z := List.takeWhile_append_dropWhile
  rw [shown] at parts
  cases cut : z.dropWhile (· != 0) with
  | nil => rw [← parts, cut, List.append_nil]
  | cons c back =>
      have nul : (c != 0) = false := @stops_of_dropWhile (· != 0) z back c cut
      have zero : c = 0 := by simpa using nul
      rw [← parts, cut, List.append_assoc] at same
      have behind := List.append_cancel_left same
      have among : (0 : Byte) ∈ trail := by
        rw [← behind, zero]
        exact List.mem_cons_self
      exact absurd among (Blank.unterminated blank)

/-- What the decoder hands to a subclass are the parts only of a line that suits. -/
theorem suits_of_taken (parted : Parted line words trail)
    (parts : counted line = text ++ [last]) (third : (lineWords text).rest ≠ [])
    (one : cString (lineWords text).first = words.first)
    (two : cString (lineWords text).second = words.second)
    (three : cString ((lineWords text).rest ++ [last]) = words.rest) : Suits line words trail := by
  obtain ⟨dropped, whole, size⟩ := counted_append line
  rw [parts, List.append_assoc] at whole
  have extended := lineWords_extended (spaced_lineWords third) third ([last] ++ dropped)
  rw [line_lineWords, ← whole, parted.words_eq] at extended
  have rests : words.rest ++ trail = (lineWords text).rest ++ ([last] ++ dropped) :=
    congrArg LineWords.rest extended
  rw [← List.append_assoc] at rests
  have kept := cString_front rests.symm parted.trail three
  rw [kept] at rests
  have trailing : trail = dropped := List.append_cancel_left rests
  have solid₁ := nul_not_mem_cString (lineWords text).first
  have solid₂ := nul_not_mem_cString (lineWords text).second
  have solid₃ := nul_not_mem_cString ((lineWords text).rest ++ [last])
  rw [one] at solid₁
  rw [two] at solid₂
  rw [three] at solid₃
  refine ⟨parted, ?_, ?_, ?_⟩
  · rw [trailing, size]
  · rw [← kept, List.length_append, List.length_singleton]
    have positive := List.length_pos_iff.mpr third
    omega
  · have lead : (0 : Byte) ∉ words.lead := Blank.unterminated parted.spaced.lead
    have gap : (0 : Byte) ∉ words.gap := Blank.unterminated parted.spaced.gap.2
    have gap' : (0 : Byte) ∉ words.gap' := Blank.unterminated parted.spaced.gap'.2
    have behind : (0 : Byte) ∉ trail := Blank.unterminated parted.trail
    rw [parted.whole]
    unfold LineWords.line
    simp only [List.mem_append, not_or]
    exact ⟨⟨lead, solid₁, gap, solid₂, gap', solid₃⟩, behind⟩

/-- A line that is taken as it should be suits. -/
theorem suits_of_lineTaken (fits : desk.Fits) (state : desk.state = READ_INITIAL)
    (whole : WholeLine line end_) (small : (line.length : Int) ≤ limits.maxInitialLineLength)
    (unread : desk.unread = line ++ end_ ++ beyond) :
    LineTaken limits desk line → ∃ words trail, Suits line words trail := by
  have taken := fun subclass => @initialState_taken limits subclass desk line end_ beyond fits whole
    small unread
  rintro ⟨creates, ignores⟩
  by_cases parted : ∃ words trail, Parted line words trail
  · obtain ⟨words, trail, parted⟩ := parted
    refine ⟨words, trail, ?_⟩
    have made := creates words trail parted (probe words.first words.second words.rest)
      HttpResponseDecoder.response (probe_run _ _ _ _)
    obtain ⟨context, ran, headed, -⟩ := made
    rcases taken (probe words.first words.second words.rest) with
      ⟨parts, third, -, stops⟩ | ⟨-, other, stopped⟩ | ⟨-, other, stayed, same⟩
    · rename_i text last
      by_cases equal : cString (lineWords text).first = words.first ∧
          cString (lineWords text).second = words.second ∧
          cString ((lineWords text).rest ++ [last]) = words.rest
      · exact suits_of_taken parted parts third equal.1 equal.2.1 equal.2.2
      · obtain ⟨other, stopped⟩ := stops _ _ (probe_other equal _)
        rw [ran] at stopped
        cases stopped
    · rw [ran] at stopped
      cases stopped
    · rw [ran] at stayed
      cases stayed
      rw [headed, state] at same
      cases same
  · obtain ⟨context, ran, skipped, -⟩ := ignores parted (probe [] [] [])
    rcases taken (probe [] [] []) with
      ⟨parts, third, -, -⟩ | ⟨-, other, stopped⟩ | ⟨-, other, stayed, same⟩
    · rename_i text last
      obtain ⟨dropped, whole, -⟩ := counted_append line
      rw [parts, List.append_assoc] at whole
      obtain ⟨words, trail, found⟩ := parted_of_third third ([last] ++ dropped)
      rw [← whole] at found
      exact absurd ⟨words, trail, found⟩ parted
    · rw [ran] at stopped
      cases stopped
    · rw [ran] at stayed
      cases stayed
      rw [skipped, state] at same
      cases same

theorem lineTaken_of_suits (fits : desk.Fits) (whole : WholeLine line end_)
    (small : (line.length : Int) ≤ limits.maxInitialLineLength)
    (unread : desk.unread = line ++ end_ ++ beyond) :
    (∃ words trail, Suits line words trail) → LineTaken limits desk line := by
  have taken := fun subclass => @initialState_taken limits subclass desk line end_ beyond fits whole
    small unread
  rintro ⟨words, trail, suits⟩
  refine ⟨?_, fun none => absurd ⟨words, trail, suits.parted⟩ none⟩
  intro words' trail' parted subclass message made
  obtain ⟨rfl, -⟩ := suits.parted.unique parted
  have some_ : counted line ≠ [] := by
    have cut : counted line = words.line := by
      unfold counted
      rw [← suits.short, suits.parted.whole, List.length_append, Nat.add_sub_cancel,
        List.take_left]
    rw [cut]
    intro empty
    have long := suits.long
    have size := congrArg List.length empty
    unfold LineWords.line at size
    simp only [List.length_append, List.length_nil] at size
    omega
  obtain ⟨text, last, parts⟩ := (List.eq_nil_or_concat (counted line)).resolve_left some_
  rw [List.concat_eq_append] at parts
  obtain ⟨third, one, two, three⟩ := Suits.taken suits parts
  rcases taken subclass with ⟨parts', -, creates, -⟩ | ⟨none, -⟩ | ⟨none, -⟩
  · obtain ⟨rfl, last'⟩ := List.append_inj' (parts'.symm.trans parts) rfl
    cases last'
    rw [one, two, three] at creates
    exact creates message made
  · exact absurd (none text last parts) third
  · exact absurd (none text last parts) third

theorem Suits.rest_eq (suits : Suits line words trail)
    (none : uncounted line = 0) : (lineWords line).rest = words.rest := by
  have empty : trail = [] := List.length_eq_zero_iff.mp (suits.short.trans none)
  have same := congrArg LineWords.rest suits.parted.words_eq
  unfold LineWords.extended at same
  rw [same, empty]
  exact List.append_nil words.rest

/-- A message is made of a line's parts, or the line is ignored, exactly when the line has three parts,
the third of two characters or more, when there is no terminator in it, and when as many blanks stand
behind the third part as characters of the line are not counted. -/
theorem initial_line_iff (limits : HttpLimits) (desk : Desk) (line : Text) (end_ beyond : List Byte)
    (fits : desk.Fits) (state : desk.state = READ_INITIAL) (whole : WholeLine line end_)
    (small : (line.length : Int) ≤ limits.maxInitialLineLength)
    (unread : desk.unread = line ++ end_ ++ beyond) :
    LineTaken limits desk line ↔ ∃ words trail, Suits line words trail :=
  ⟨suits_of_lineTaken fits state whole small unread, lineTaken_of_suits fits whole small unread⟩

end Initial

section Begun

/-- A decoder at an initial line. -/
def Desk.begun (bytes : List Byte) : Desk :=
  { Desk.headed bytes with
    fields := ⟨0, 0, none, false, none, []⟩
    state := READ_INITIAL }

theorem Desk.begun_fits {bytes : List Byte} (small : bytes.length ≤ 2147483647) :
    (Desk.begun bytes).Fits := ⟨trivial, small, Nat.zero_le _, Nat.le_refl _⟩

theorem Desk.begun_unread (bytes : List Byte) : (Desk.begun bytes).unread = bytes :=
  Desk.headed_unread bytes

/-- A line without a carriage return suits when its third part ends it. -/
theorem initial_line_plain :
    LineTaken ⟨4096, 8192, 8192⟩ (.begun (text "GET / HTTP/1.1" ++ lineEnd ++ []))
        (text "GET / HTTP/1.1") ↔
      ∃ words trail, Suits (text "GET / HTTP/1.1") words trail :=
  initial_line_iff ⟨4096, 8192, 8192⟩ _ (text "GET / HTTP/1.1") lineEnd []
    (Desk.begun_fits (by decide)) rfl ⟨by decide, Or.inl rfl⟩ (by decide) (Desk.begun_unread _)

/-- A blank behind the third part goes into it, a third part of one character is missing, and a line of
two parts is not ignored. -/
theorem initial_line_lost :
    ¬LineTaken ⟨4096, 8192, 8192⟩ (.begun (text "GET / HTTP/1.1 " ++ lineEnd ++ []))
        (text "GET / HTTP/1.1 ") ∧
      ¬LineTaken ⟨4096, 8192, 8192⟩ (.begun (text "GET / X" ++ lineEnd ++ [])) (text "GET / X") ∧
      ¬LineTaken ⟨4096, 8192, 8192⟩ (.begun (text "GET /" ++ lineEnd ++ [])) (text "GET /") := by
  have suits : ∀ line : Text, line.length ≤ 4096 → WholeLine line lineEnd →
      LineTaken ⟨4096, 8192, 8192⟩ (.begun (line ++ lineEnd ++ [])) line →
      ∃ words trail, Suits line words trail := by
    intro line small whole
    have size : (line ++ lineEnd ++ []).length = line.length + 2 := by simp [lineEnd]
    have fits : (Desk.begun (line ++ lineEnd ++ [])).Fits := Desk.begun_fits (by omega)
    have fitting : (line.length : Int) ≤ 4096 := by omega
    exact suits_of_lineTaken fits rfl whole fitting (Desk.begun_unread _)
  refine ⟨?_, ?_, ?_⟩
  · intro taken
    obtain ⟨words, trail, suits⟩ := suits _ (by decide) ⟨by decide, Or.inl rfl⟩ taken
    obtain ⟨front, c, same, solid⟩ := suits.parted.ends
    rw [← Suits.rest_eq suits (by decide)] at same
    have last := congrArg List.getLast? same
    rw [List.getLast?_concat] at last
    cases last
    exact absurd solid (by decide)
  · intro taken
    obtain ⟨words, trail, suits⟩ := suits _ (by decide) ⟨by decide, Or.inl rfl⟩ taken
    have long := suits.long
    rw [← Suits.rest_eq suits (by decide)] at long
    exact absurd long (by decide)
  · intro taken
    obtain ⟨words, trail, suits⟩ := suits _ (by decide) ⟨by decide, Or.inl rfl⟩ taken
    have some_ := suits.parted.some_
    rw [← Suits.rest_eq suits (by decide)] at some_
    exact some_ rfl

end Begun

end HttpMessageDecoder

end Cetty
