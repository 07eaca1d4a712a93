import Cetty.HeaderScans
import Cetty.HeaderTexts

/-!
# How a header section is read

The reading of a header section is a function of what is unread, as long as nothing of it has been
read before. A line that continues another is never got past.
-/

namespace Cetty

open CLocale MachineInt ByteWindow

/-- How the reading of a header section ends: the bytes give out, it stops, or the message has its
headers and so many bytes have been read. -/
inductive SectionRead where
  | short
  | stopped (stop : Stop)
  | done (message : HttpMessage) (counted : Nat)

namespace SectionRead

/-- So many bytes have been read before. -/
def behind (counted : Nat) : SectionRead → SectionRead
  | done message n => done message (counted + n)
  | other => other

@[simp] theorem behind_short (counted : Nat) : short.behind counted = short := rfl

@[simp] theorem behind_stopped (counted : Nat) (stop : Stop) :
    (stopped stop).behind counted = stopped stop := rfl

@[simp] theorem behind_done (counted n : Nat) (message : HttpMessage) :
    (done message n).behind counted = done message (counted + n) := rfl

theorem behind_zero (read : SectionRead) : read.behind 0 = read := by
  cases read with
  | short => rfl
  | stopped stop => rfl
  | done message n => rw [behind_done, Nat.zero_add]

theorem behind_eq_stopped {counted : Nat} {read : SectionRead} {stop : Stop} :
    read.behind counted = stopped stop ↔ read = stopped stop := by
  cases read with
  | short => simp
  | stopped other => simp
  | done message n => simp

end SectionRead

/-- What follows the reading of a line. -/
def LineRead.onward (limits : HttpLimits) (next : Nat → Nat → SectionRead) : LineRead → SectionRead
  | short => .short
  | tooLarge => .stopped (HttpMessageDecoder.headerTooLarge limits)
  | ended characters counted => (next characters counted).behind counted

/-- A line that continues the header that has been read. -/
def continues (split : SplitLine) : Text → Bool
  | [] => false
  | c :: _ => !split.name.isEmpty && FastString.blank c

theorem continues_cons (split : SplitLine) (c : Byte) (rest : Text) :
    continues split (c :: rest) = (!split.name.isEmpty && FastString.blank c) := rfl

/-- The lines of a header section behind a line, in front of which a header has been split. -/
def headerSection (limits : HttpLimits) :
    Nat → SplitLine → Text → HttpMessage → Int → List Byte → SectionRead
  | 0, _, _, _, _, _ => .stopped .outOfFuel
  | rounds + 1, split, line, message, headerSize, bytes =>
      if line = [] then
        match addSplit split message with
        | .error stop => .stopped stop
        | .ok message => .done message 0
      else if continues split line then .stopped .diverges
      else
        match addSplit split message with
        | .error stop => .stopped stop
        | .ok message =>
            (headerScan limits.maxHeaderSize headerSize bytes).onward limits
              fun characters counted =>
                headerSection limits rounds (splitText line) (bytes.take (characters - 1)) message
                  (headerSize + counted) (bytes.drop counted)

/-- A header section; the size that has been counted is given up behind its first line. -/
def headersSection (limits : HttpLimits) (message : HttpMessage) (headerSize : Int)
    (bytes : List Byte) : SectionRead :=
  (headerScan limits.maxHeaderSize headerSize bytes).onward limits fun characters counted =>
    headerSection limits (bytes.length - counted + 1) .fresh (bytes.take (characters - 1)) message 0
      (bytes.drop counted)

namespace HttpMessageDecoder

/-- A line that has been read, as a string in front of the reader. -/
def LineAt (desk : Desk) (text : Text) (line : FastString) : Prop :=
  ∃ data : Nat, line = FastString.lineAt data text.length ∧ Holds desk.cells data (text ++ [0]) ∧
    data + text.length < desk.reader

section Lined

variable {desk : Desk} {characters counted : Nat}

/-- Behind a line that has been scanned stands what is unread then. -/
theorem Desk.Fits.lined (fits : desk.Fits) {limit headerSize : Int}
    (scanned : headerScan limit headerSize desk.unread = .ended characters counted) :
    (desk.lined characters counted).Fits ∧
      (desk.lined characters counted).unread = desk.unread.drop counted ∧
      SameFrom (desk.reader + counted) desk.cells (desk.lined characters counted).cells ∧
      LineAt (desk.lined characters counted) (desk.unread.take (characters - 1))
        (FastString.lineAt desk.reader (characters - 1)) := by
  obtain ⟨positive, less, inside⟩ := headerScan_ended scanned
  have length := fits.unread_length
  have order := fits.order
  have order' : desk.reader + counted ≤ desk.writer := by omega
  have same : SameFrom (desk.reader + counted) desk.cells
      (desk.cells.set (desk.reader + (characters - 1)) 0) := SameFrom.set (by omega) _ _
  have size : (desk.unread.take (characters - 1)).length = characters - 1 :=
    List.length_take_of_le (by omega)
  have size' : (desk.unread.take counted).length = counted := List.length_take_of_le inside
  have rest : (desk.pass (desk.unread.take counted).length).unread = desk.unread.drop counted :=
    fits.unread_pass (List.take_append_drop counted desk.unread).symm
  rw [size'] at rest
  obtain ⟨c, back, cut⟩ := List.exists_cons_of_ne_nil
    (List.drop_eq_nil_iff.not.mpr (show ¬desk.unread.length ≤ characters - 1 by omega))
  have parts : desk.unread = (desk.unread.take (characters - 1) ++ c :: back) ++ [] := by
    rw [List.append_nil, ← cut, List.take_append_drop]
  have put := (fits.ahead parts).holds.set_at 0
  rw [size] at put
  have grouped : desk.unread.take (characters - 1) ++ (0 : Byte) :: back =
      (desk.unread.take (characters - 1) ++ [0]) ++ back := by simp
  rw [grouped] at put
  refine ⟨fits.moved order' List.length_set _, ?_, same, desk.reader, ?_, put.front, ?_⟩
  · exact same.window.trans rest
  · rw [size]
  · rw [size]
    show desk.reader + (characters - 1) < desk.reader + counted
    omega

end Lined

/-- The loop over the header lines ends so. -/
inductive SectionEnds (desk : Desk) : SectionRead →
    EStateM.Result Stop (ReplayContext HttpMessageDecoder) Bool → Prop
  | short (context : ReplayContext HttpMessageDecoder) :
      SectionEnds desk .short (.ok false context)
  | full (context : ReplayContext HttpMessageDecoder) :
      SectionEnds desk .short (.error (rangeException "out of range in array") context)
  | stopped (stop : Stop) (context : ReplayContext HttpMessageDecoder) :
      SectionEnds desk (.stopped stop) (.error stop context)
  | done (message : HttpMessage) (counted : Nat) (cells : CharArray) (headerSize : Int)
      (same : SameFrom (desk.reader + counted) desk.cells cells) :
      SectionEnds desk (.done message counted)
        (.ok true (desk.moved counted cells
          { desk.fields with object := some message, headerSize := headerSize }).context)

section Sections

variable {limits : HttpLimits} {desk : Desk} {message : HttpMessage}

/-- The first character of a line. -/
theorem firstChar_run {text : Text} {line : FastString} {c : Byte} {back : Text}
    (there : LineAt desk text line) (begins : text = c :: back) :
    (onArray (line.at_ 0)).run desk.context = .ok c desk.context := by
  obtain ⟨data, rfl, holds, before⟩ := there
  have shown : Holds desk.cells data ([] ++ c :: (back ++ [0])) := by
    rw [begins] at holds
    exact holds
  have read : ((FastString.lineAt data text.length).at_ 0).run desk.cells = .ok c desk.cells :=
    FastString.at_run shown (by rw [begins]; simp)
  exact onArray_run read

/-- A line that begins with a blank is never trimmed. -/
theorem trim_diverges {cells : CharArray} {data size : Nat} {c : Byte} {back : Text}
    (holds : Holds cells data (c :: back)) (blank : FastString.blank c = true)
    (positive : 0 < size) :
    (FastString.lineAt data size).trim.run cells = .error .diverges cells := by
  have here : Holds cells data ([] ++ c :: back) := holds
  have read : ((FastString.lineAt data size).char 0).run cells = .ok c cells := by
    have loaded := load_run here
    rw [List.length_nil, Nat.add_zero] at loaded
    unfold FastString.char FastString.lineAt
    dsimp only
    rw [Int.add_zero]
    exact loaded
  unfold FastString.trim
  rw [run_bind_ok _ read, if_pos ⟨blank, by show (0 : Int) < (size : Int); omega⟩]
  rfl

theorem Parts.empty_eq {cells : CharArray} {bound : Nat} {name value : FastString}
    {split : SplitLine} (parts : Parts cells bound name value split) :
    name.empty = split.name.isEmpty := by
  cases parts with
  | nameless empty none => rw [empty, none]; rfl
  | valueless present some_ none =>
      rw [present]
      exact (List.isEmpty_eq_false_iff.mpr some_).symm
  | whole at_ behind size some_ named valued near far =>
      rw [lineAt_not_empty (List.length_pos_iff.mpr some_)]
      exact (List.isEmpty_eq_false_iff.mpr some_).symm

/-- What has been read and added before. -/
theorem SectionEnds.behind {counted : Nat} {cells : CharArray} {object : Option HttpMessage}
    {headerSize : Int} {read : SectionRead}
    {result : EStateM.Result Stop (ReplayContext HttpMessageDecoder) Bool}
    (same : SameFrom (desk.reader + counted) desk.cells cells)
    (later : SectionEnds (desk.moved counted cells
      { desk.fields with object := object, headerSize := headerSize }) read result) :
    SectionEnds desk (read.behind counted) result := by
  cases later with
  | short context => exact .short context
  | full context => exact .full context
  | stopped stop context => exact .stopped stop context
  | done message n cells' headerSize' same' =>
      have reached : (desk.moved counted cells
          { desk.fields with object := object, headerSize := headerSize }).reader + n =
          desk.reader + (counted + n) := Nat.add_assoc _ _ _
      rw [reached] at same'
      rw [Desk.moved_moved, SectionRead.behind_done]
      exact .done message _ cells' headerSize' ((same.weaken (by omega)).trans same')

/-- The next line is read behind the split of a line. -/
theorem readNext_section {rounds : Nat} {name value : FastString} {next : Nat → Nat → SectionRead}
    (fits : desk.Fits)
    (ended : ∀ characters counted,
      headerScan limits.maxHeaderSize desk.fields.headerSize desk.unread =
        .ended characters counted →
      SectionEnds (desk.lined characters counted) (next characters counted)
        ((readHeadersLoop limits rounds (FastString.lineAt desk.reader (characters - 1)) name value
          []).run (desk.lined characters counted).context)) :
    SectionEnds desk
      ((headerScan limits.maxHeaderSize desk.fields.headerSize desk.unread).onward limits next)
      ((do
        let line ← readHeader limits
        if ← needMoreBytes then pure false
        else readHeadersLoop limits rounds line name value [] : Decode Bool).run desk.context) := by
  have scan := @readHeader_scan limits desk fits
  generalize scanned : headerScan limits.maxHeaderSize desk.fields.headerSize desk.unread = how
    at scan ended
  generalize ran : (readHeader limits).run desk.context = result at scan
  cases scan with
  | full full =>
      rw [run_bind_error _ ran]
      exact .full _
  | short count inside =>
      rw [run_bind_ok _ ran]
      exact .short _
  | tooLarge count inside =>
      rw [run_bind_error _ ran]
      exact .stopped _ _
  | ended characters counted =>
      rw [run_bind_ok _ ran]
      obtain ⟨-, -, same, -⟩ := fits.lined scanned
      exact .behind same (ended characters counted rfl)

theorem readHeadersLoop_section {rounds : Nat} {split : SplitLine} {text : Text} {bound : Nat}
    {line name value : FastString} (fits : desk.Fits) (calm : desk.short = false)
    (pointed : desk.fields.message = true) (made : desk.fields.object = some message)
    (there : LineAt desk text line) (parts : Parts desk.cells bound name value split)
    (near : bound ≤ desk.reader) :
    SectionEnds desk
      (headerSection limits rounds split text message desk.fields.headerSize desk.unread)
      ((readHeadersLoop limits rounds line name value []).run desk.context) := by
  induction rounds generalizing desk message split text bound line name value with
  | zero => exact .stopped .outOfFuel _
  | succ rounds induction =>
      obtain ⟨adds, stops⟩ := addRead_parts pointed made parts
      rw [headerSection, readHeadersLoop]
      cases begins : text with
      | nil =>
          obtain ⟨data, same, holds, before⟩ := there
          have empty : line.length = 0 := by
            rw [same, begins]
            rfl
          rw [if_pos empty, if_pos rfl]
          rcases addSplit_verdict split message with ⟨-, added⟩ | ⟨-, stop, refused, -⟩
          · generalize withEntries message split.entries = changed at added
            rw [run_bind_ok _ (adds changed added), added]
            have still : { desk with
                fields := { desk.fields with object := some changed } } =
                desk.moved 0 desk.cells { desk.fields with
                  object := some changed, headerSize := desk.fields.headerSize } := by
              unfold Desk.moved
              rw [← calm]
              rfl
            rw [still]
            exact .done changed 0 desk.cells desk.fields.headerSize (SameFrom.refl _ _)
          · rw [run_bind_error _ (stops stop refused), refused]
            exact .stopped stop _
      | cons c back =>
          have first := firstChar_run there begins
          obtain ⟨data, rfl, holds, before⟩ := there
          have present : ¬(FastString.lineAt data text.length).length = 0 := by
            rw [begins]
            show ¬((back.length + 1 : Nat) : Int) = 0
            omega
          have continued : continues split (c :: back) = (!name.empty && FastString.blank c) := by
            rw [parts.empty_eq]
            rfl
          rw [if_neg present, if_neg (List.cons_ne_nil _ _), run_bind_ok _ first, continued]
          by_cases folded : (!name.empty && FastString.blank c) = true
          · rw [Bool.and_eq_true] at folded
            rw [begins] at holds
            have stuck := trim_diverges holds folded.2 (show 0 < text.length by rw [begins]; simp)
            rw [if_pos (by rw [folded.1, folded.2]; rfl), if_pos (by rw [folded.1, folded.2]; rfl),
              run_bind_error _ (onArray_stops stuck)]
            exact .stopped .diverges _
          · rw [if_neg folded, if_neg folded]
            rcases addSplit_verdict split message with ⟨-, added⟩ | ⟨-, stop, refused, -⟩
            · generalize withEntries message split.entries = changed at added
              rw [run_bind_ok _ (adds changed added), added]
              dsimp only
              obtain ⟨name', value', cells', splits, same', parts'⟩ := splitHeader_parts holds
              let added' : Desk := { desk with
                fields := { desk.fields with object := some changed } }
              let cut : Desk := { added' with cells := cells' }
              have ran : (onArray (FastString.lineAt data text.length).splitHeader).run
                  added'.context = .ok (name', value') cut.context := onArray_run splits
              have same := same'.weaken (show data + text.length ≤ desk.reader by omega)
              have fits' : cut.Fits :=
                ⟨fits.ordered, Nat.le_trans (Nat.le_of_eq same.1) fits.small, fits.order,
                  Nat.le_trans fits.bound (Nat.le_of_eq same.1.symm)⟩
              have unread : cut.unread = desk.unread := same.window
              rw [run_bind_ok _ ran, ← begins, ← unread]
              have onward := @readNext_section limits cut rounds name' value' (fun characters counted =>
                headerSection limits rounds (splitText text) (cut.unread.take (characters - 1)) changed
                  (desk.fields.headerSize + counted) (cut.unread.drop counted)) fits' ?_
              · have still : cut = desk.moved 0 cells' { desk.fields with
                    object := some changed, headerSize := desk.fields.headerSize } := by
                  unfold Desk.moved
                  rw [← calm]
                  rfl
                rw [still] at onward
                have whole := SectionEnds.behind (same.weaken (Nat.le_add_right _ 0)) onward
                rw [SectionRead.behind_zero, ← still] at whole
                exact whole
              · intro characters counted scanned
                obtain ⟨fits'', unread', -, line'⟩ := fits'.lined scanned
                have later := @induction (cut.lined characters counted) changed (splitText text)
                  (cut.unread.take (characters - 1)) (data + text.length + 1)
                  (FastString.lineAt cut.reader (characters - 1)) name' value' fits'' rfl pointed rfl
                  line' (parts'.set (by show data + text.length + 1 ≤ desk.reader + _; omega) 0)
                  (by show data + text.length + 1 ≤ desk.reader + counted; omega)
                rw [unread'] at later
                exact later
            · rw [run_bind_error _ (stops stop refused), refused]
              exact .stopped stop _

/-- The reading of a header section ends so. -/
inductive HeadersEnd (desk : Desk) : SectionRead →
    EStateM.Result Stop (ReplayContext HttpMessageDecoder) Int → Prop
  | short (context : ReplayContext HttpMessageDecoder) :
      HeadersEnd desk .short (.ok READ_HEADER context)
  | full (context : ReplayContext HttpMessageDecoder) :
      HeadersEnd desk .short (.error (rangeException "out of range in array") context)
  | stopped (stop : Stop) (context : ReplayContext HttpMessageDecoder) :
      HeadersEnd desk (.stopped stop) (.error stop context)
  | done (message : HttpMessage) (counted : Nat) (cells : CharArray) (headerSize : Int)
      (same : SameFrom (desk.reader + counted) desk.cells cells) :
      HeadersEnd desk (.done message counted)
        (.ok (nextState message) (desk.moved counted cells
          { desk.fields with object := some message, headerSize := headerSize }).context)

theorem readHeaders_section (fits : desk.Fits) (pointed : desk.fields.message = true)
    (made : desk.fields.object = some message) :
    HeadersEnd desk (headersSection limits message desk.fields.headerSize desk.unread)
      ((readHeaders limits).run desk.context) := by
  have scan := @readHeader_scan limits desk fits
  unfold headersSection
  generalize scanned : headerScan limits.maxHeaderSize desk.fields.headerSize desk.unread = how
    at scan
  generalize ran : (readHeader limits).run desk.context = result at scan
  cases scan with
  | full full =>
      unfold readHeaders
      rw [run_bind_error _ ran]
      exact .full _
  | short count inside =>
      unfold readHeaders
      rw [run_bind_ok _ ran]
      exact .short _
  | tooLarge count inside =>
      unfold readHeaders
      rw [run_bind_error _ ran]
      exact .stopped _ _
  | ended characters counted =>
      obtain ⟨fits', unread', same, line'⟩ := fits.lined scanned
      let cleared : Desk := { desk.lined characters counted with
        fields := { (desk.lined characters counted).fields with headerSize := 0 } }
      have clearedFits : cleared.Fits := ⟨fits'.ordered, fits'.small, fits'.order, fits'.bound⟩
      have counts : cleared.writer - cleared.reader = desk.unread.length - counted := by
        have length := fits.unread_length
        show desk.writer - (desk.reader + counted) = _
        omega
      have later := @readHeadersLoop_section limits cleared message
        (cleared.writer - cleared.reader + 1) .fresh (desk.unread.take (characters - 1)) 0
        (FastString.lineAt desk.reader (characters - 1)) .fresh .fresh clearedFits rfl pointed made line'
        (.nameless rfl rfl) (Nat.zero_le _)
      rw [counts] at later
      have unread : cleared.unread = desk.unread.drop counted := unread'
      rw [unread] at later
      have counted' : rounds.run cleared.context =
          .ok (desk.unread.length - counted + 1) cleared.context := by
        rw [rounds_run clearedFits, counts]
      have whole : SectionEnds desk _ _ := SectionEnds.behind same later
      have onward : (readHeaders limits).run desk.context =
          (do
            if ← readHeadersLoop limits (desk.unread.length - counted + 1)
                (FastString.lineAt desk.reader (characters - 1)) .fresh .fresh [] then
              return nextState (← theMessage)
            else pure READ_HEADER : Decode Int).run cleared.context := by
        unfold readHeaders
        refine (run_bind_ok _ ran).trans ?_
        refine (run_bind_ok _ (update_run _ _)).trans ?_
        refine (run_bind_ok _ (needMoreBytes_run cleared)).trans ?_
        rw [if_neg (show ¬cleared.short = true from Bool.false_ne_true)]
        exact run_bind_ok _ counted'
      rw [onward]
      generalize looped : (readHeadersLoop limits (desk.unread.length - counted + 1)
        (FastString.lineAt desk.reader (characters - 1)) .fresh .fresh []).run cleared.context =
        result at whole
      have cut : (LineRead.ended characters counted).onward limits (fun characters counted =>
          headerSection limits (desk.unread.length - counted + 1) .fresh
            (desk.unread.take (characters - 1)) message 0 (desk.unread.drop counted)) =
          (headerSection limits (desk.unread.length - counted + 1) .fresh
            (desk.unread.take (characters - 1)) message 0 (desk.unread.drop counted)).behind
            counted := rfl
      rw [cut]
      generalize SectionRead.behind counted _ = read at whole ⊢
      cases whole with
      | short context =>
          rw [run_bind_ok _ looped]
          exact .short context
      | full context =>
          rw [run_bind_error _ looped]
          exact .full context
      | stopped stop context =>
          rw [run_bind_error _ looped]
          exact .stopped stop context
      | done message n cells headerSize same' =>
          have shown := @theMessage_at (desk.moved n cells { desk.fields with
            object := some message, headerSize := headerSize }) message pointed rfl
          rw [run_bind_ok _ looped, if_pos rfl, run_bind_ok _ shown]
          exact .done message n cells headerSize same'

/-- A decoder in front of a header section, in the buffer of its channel. -/
def Desk.headed (bytes : List Byte) : Desk :=
  ⟨⟨0, 0, some HttpResponseDecoder.response, true, none, []⟩, READ_HEADER, -1, true, false, false,
    .heap .big, bytes, 0, bytes.length, 0, 0, []⟩

theorem Desk.headed_fits {bytes : List Byte} (small : bytes.length ≤ 2147483647) :
    (Desk.headed bytes).Fits := ⟨trivial, small, Nat.zero_le _, Nat.le_refl _⟩

theorem Desk.headed_unread (bytes : List Byte) : (Desk.headed bytes).unread = bytes := by
  unfold Desk.unread Desk.headed ByteWindow.window
  rw [List.drop_zero]
  exact List.take_length

end Sections

end HttpMessageDecoder

end Cetty
