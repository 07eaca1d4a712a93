import Cetty.HeaderTexts
import Cetty.HeaderScans

/-!
# The parts of an initial line

A carriage return in a line takes the character behind it along, and neither is counted. The line is
split at its blanks without the last character, which only the third part gets back as a string. A
line without three parts is no line that is ignored.
-/

namespace Cetty

open CLocale MachineInt ByteWindow

/-- The characters of a line that are not counted: each carriage return with the character behind it. -/
def uncounted : Text → Nat
  | [] => 0
  | [c] => if c = HttpCodecUtil.CR then 1 else 0
  | c :: d :: rest => if c = HttpCodecUtil.CR then 2 + uncounted rest else uncounted (d :: rest)

theorem uncounted_le (line : Text) : uncounted line ≤ line.length := by
  induction line using List.twoStepInduction with
  | nil => exact Nat.le_refl _
  | singleton c =>
      rw [uncounted]
      split
      · exact Nat.le_refl _
      · exact Nat.zero_le _
  | cons_cons c d rest first second =>
      have later := second d
      rw [uncounted, List.length_cons, List.length_cons]
      rw [List.length_cons] at later
      split
      · omega
      · omega

theorem uncounted_unbroken {line : Text} (unbroken : ∀ c ∈ line, c ≠ HttpCodecUtil.CR) :
    uncounted line = 0 := by
  induction line using List.twoStepInduction with
  | nil => rfl
  | singleton c => rw [uncounted, if_neg (unbroken c List.mem_cons_self)]
  | cons_cons c d rest first second =>
      rw [uncounted, if_neg (unbroken c List.mem_cons_self)]
      exact second d fun other among => unbroken other (List.mem_cons_of_mem _ among)

/-- A line with its end. A carriage return in front of a line feed belongs to the end. -/
structure WholeLine (line : Text) (end_ : List Byte) : Prop where
  unfed : HttpCodecUtil.LF ∉ line
  ends : end_ = HttpMessageDecoder.lineEnd ∨
    (end_ = [HttpCodecUtil.LF] ∧ line.getLast? ≠ some HttpCodecUtil.CR)

namespace WholeLine

variable {line rest : Text} {end_ : List Byte} {c d : Byte}

theorem endsLine (whole : WholeLine line end_) : EndsLine end_ :=
  whole.ends.imp id And.left

theorem tail (whole : WholeLine (c :: d :: rest) end_) : WholeLine (d :: rest) end_ := by
  refine ⟨fun wrong => whole.unfed (List.mem_cons_of_mem _ wrong), ?_⟩
  rcases whole.ends with same | ⟨same, last⟩
  · exact Or.inl same
  · rw [List.getLast?_cons_cons] at last
    exact Or.inr ⟨same, last⟩

theorem empty (ends : EndsLine end_) : WholeLine [] end_ :=
  ⟨nofun, ends.imp id fun same => ⟨same, nofun⟩⟩

theorem next (whole : WholeLine (c :: rest) end_) : WholeLine rest end_ := by
  cases rest with
  | nil => exact empty whole.endsLine
  | cons d rest => exact whole.tail

end WholeLine

namespace HttpMessageDecoder

section Lines

variable {desk : Desk} {line : Text} {end_ beyond : List Byte} {maxLineLength size : Int}

theorem readLineLoop_end {rounds : Nat} (fits : desk.Fits) (ends : EndsLine end_)
    (unread : desk.unread = end_ ++ beyond) (enough : 0 < rounds) :
    (readLineLoop maxLineLength rounds size).run desk.context =
      .ok (true, size) (desk.pass end_.length).context := by
  obtain ⟨rounds, rfl⟩ : ∃ more, rounds = more + 1 := ⟨rounds - 1, by omega⟩
  rcases ends with rfl | rfl
  · obtain ⟨read, fits', unread', -⟩ := fits.read_next unread
    obtain ⟨read', -, -, -⟩ := fits'.read_next unread'
    rw [readLineLoop, run_bind_ok _ read, run_bind_ok _ (desk.needMoreBytes_pass 1),
      if_neg Bool.false_ne_true, if_pos rfl, run_bind_ok _ read',
      run_bind_ok _ ((desk.pass 1).needMoreBytes_pass 1), if_neg Bool.false_ne_true, if_pos rfl,
      desk.pass_pass]
    rfl
  · obtain ⟨read, -, -, -⟩ := fits.read_next unread
    rw [readLineLoop, run_bind_ok _ read, run_bind_ok _ (desk.needMoreBytes_pass 1),
      if_neg Bool.false_ne_true, if_neg (by decide), if_pos rfl]
    rfl

theorem readLineLoop_whole {rounds : Nat} (fits : desk.Fits) (whole : WholeLine line end_)
    (unread : desk.unread = line ++ end_ ++ beyond) (small : size + line.length ≤ maxLineLength)
    (enough : line.length < rounds) :
    (readLineLoop maxLineLength rounds size).run desk.context =
      .ok (true, size + ((line.length - uncounted line : Nat) : Int))
        (desk.pass (line.length + end_.length)).context := by
  induction rounds using Nat.strong_induction_on generalizing desk size line with
  | _ rounds induction =>
      cases line with
      | nil =>
          have none : size + (([] : Text).length - uncounted [] : Nat) = size := by
            rw [uncounted]
            exact Int.add_zero size
          rw [none, List.length_nil, Nat.zero_add]
          exact readLineLoop_end fits whole.endsLine unread (by omega)
      | cons c rest =>
          obtain ⟨rounds, rfl⟩ : ∃ more, rounds = more + 1 := ⟨rounds - 1, by omega⟩
          obtain ⟨read, fits', unread', -⟩ := fits.read_next unread
          rw [List.length_cons] at small enough
          have feed : c ≠ HttpCodecUtil.LF := by
            rintro rfl
            exact whole.unfed List.mem_cons_self
          rw [readLineLoop, run_bind_ok _ read, run_bind_ok _ (desk.needMoreBytes_pass 1),
            if_neg Bool.false_ne_true]
          by_cases carriage : c = HttpCodecUtil.CR
          · rw [if_pos carriage]
            cases rest with
            | nil =>
                have same : end_ = lineEnd := by
                  rcases whole.ends with same | ⟨-, last⟩
                  · exact same
                  · rw [carriage] at last
                    exact absurd rfl last
                subst same
                obtain ⟨read', fits'', unread'', -⟩ := fits'.read_next unread'
                have ended := @readLineLoop_end ((desk.pass 1).pass 1) [HttpCodecUtil.LF] beyond
                  maxLineLength size rounds fits'' (Or.inr rfl) unread'' (by omega)
                rw [run_bind_ok _ read', run_bind_ok _ ((desk.pass 1).needMoreBytes_pass 1),
                  if_neg Bool.false_ne_true, if_neg (by decide), ended, desk.pass_pass,
                  desk.pass_pass, carriage]
                congr 2
                exact (Int.add_zero size).symm
            | cons d rest =>
                have feed' : d ≠ HttpCodecUtil.LF := by
                  rintro rfl
                  exact whole.unfed (List.mem_cons_of_mem _ List.mem_cons_self)
                obtain ⟨read', fits'', unread'', -⟩ := fits'.read_next unread'
                rw [List.length_cons] at small enough
                have later := @induction rounds (by omega) ((desk.pass 1).pass 1) rest size fits''
                  whole.next.next unread'' (by omega) (by omega)
                have counted : (c :: d :: rest).length - uncounted (c :: d :: rest) =
                    rest.length - uncounted rest := by
                  rw [uncounted, if_pos carriage, List.length_cons, List.length_cons]
                  omega
                have passed : 1 + (1 + (rest.length + end_.length)) =
                    (c :: d :: rest).length + end_.length := by
                  rw [List.length_cons, List.length_cons]
                  omega
                rw [run_bind_ok _ read', run_bind_ok _ ((desk.pass 1).needMoreBytes_pass 1),
                  if_neg Bool.false_ne_true, if_neg feed', later, counted, desk.pass_pass,
                  desk.pass_pass, Nat.add_assoc, passed]
          · have later := @induction rounds (by omega) (desk.pass 1) rest (size + 1) fits' whole.next
              unread' (by omega) (by omega)
            have counted : size + 1 + ((rest.length - uncounted rest : Nat) : Int) =
                size + (((c :: rest).length - uncounted (c :: rest) : Nat) : Int) := by
              have fewer := uncounted_le rest
              have same : uncounted (c :: rest) = uncounted rest := by
                cases rest with
                | nil => exact if_neg carriage
                | cons d rest => rw [uncounted, if_neg carriage]
              rw [same, List.length_cons]
              omega
            have passed : 1 + (rest.length + end_.length) = (c :: rest).length + end_.length := by
              rw [List.length_cons]
              omega
            rw [if_neg carriage, if_neg feed, if_neg (by omega), later, counted, desk.pass_pass,
              passed]

/-- What is counted of a line. -/
def counted (line : Text) : Text := line.take (line.length - uncounted line)

theorem readLine_whole (fits : desk.Fits) (whole : WholeLine line end_)
    (unread : desk.unread = line ++ end_ ++ beyond)
    (small : (line.length : Int) ≤ maxLineLength) :
    ∃ cells, SameFrom (desk.reader + (line.length + end_.length)) desk.cells cells ∧
      Holds cells desk.reader (counted line ++ [0]) ∧
      (readLine maxLineLength).run desk.context =
        .ok ⟨some (desk.reader : Int), ((counted line).length : Int) - 1⟩
          (desk.moved (line.length + end_.length) cells desk.fields).context := by
  have length := fits.unread_length
  have order := fits.order
  have bound := fits.bound
  have width := whole.endsLine.length
  have fewer := uncounted_le line
  rw [unread, List.length_append, List.length_append] at length
  have size : (counted line).length = line.length - uncounted line :=
    List.length_take_of_le (Nat.sub_le _ _)
  have looped := @readLineLoop_whole desk line end_ beyond maxLineLength 0
    (desk.writer - desk.reader + 1) fits whole unread (by omega) (by omega)
  rw [Int.zero_add, ← size] at looped
  have stored : ((FastString.lineAt desk.reader (counted line).length).setChar
      (counted line).length 0).run (desk.pass (line.length + end_.length)).cells =
      .ok () (desk.cells.set (desk.reader + (counted line).length) 0) :=
    FastString.setChar_run (by show desk.reader + (counted line).length < desk.cells.length; omega) 0
  obtain ⟨c, back, cut⟩ := List.exists_cons_of_ne_nil
    (show desk.unread.drop (line.length - uncounted line) ≠ [] from
      List.drop_eq_nil_iff.not.mpr
        (by rw [unread, List.length_append, List.length_append]; omega))
  have front : desk.unread.take (line.length - uncounted line) = counted line := by
    rw [unread, List.append_assoc]
    exact List.take_append_of_le_length (Nat.sub_le _ _)
  have parts : desk.unread = (counted line ++ c :: back) ++ [] := by
    rw [List.append_nil, ← cut, ← front, List.take_append_drop]
  have put := (fits.ahead parts).holds.set_at 0
  have grouped : counted line ++ (0 : Byte) :: back = (counted line ++ [0]) ++ back := by simp
  rw [grouped] at put
  refine ⟨_, SameFrom.set (by omega) _ _, put.front, ?_⟩
  unfold readLine
  rw [run_bind_ok _ (dataAtReader_run (Or.inr (by omega))), run_bind_ok _ (rounds_run fits),
    run_bind_ok _ looped]
  dsimp only
  rw [if_pos rfl]
  exact run_bind_ok _ (onArray_run stored)

end Lines

end HttpMessageDecoder

/-- A line as it is taken apart: two words, and what begins with a third. -/
structure LineWords where
  lead : Text
  first : Text
  gap : Text
  second : Text
  gap' : Text
  rest : Text

def lineWords (line : Text) : LineWords :=
  let named := line.dropWhile Character.isWhitespace
  let behind := named.dropWhile fun c => !Character.isWhitespace c
  let located := behind.dropWhile Character.isWhitespace
  let later := located.dropWhile fun c => !Character.isWhitespace c
  ⟨line.takeWhile Character.isWhitespace, named.takeWhile fun c => !Character.isWhitespace c,
    behind.takeWhile Character.isWhitespace, located.takeWhile fun c => !Character.isWhitespace c,
    later.takeWhile Character.isWhitespace, later.dropWhile Character.isWhitespace⟩

/-- All blank. -/
def Blank (text : Text) : Prop := ∀ c ∈ text, Character.isWhitespace c = true

/-- Without a blank. -/
def Solid (text : Text) : Prop := ∀ c ∈ text, Character.isWhitespace c = false

section Words

variable {text rest : Text}

theorem blank_takeWhile (text : Text) : Blank (text.takeWhile Character.isWhitespace) :=
  fun _ among => List.mem_takeWhile_imp among

theorem solid_takeWhile (text : Text) : Solid (text.takeWhile fun c => !Character.isWhitespace c) := by
  intro c among
  have passed := List.mem_takeWhile_imp among
  rwa [Bool.not_eq_true'] at passed

/-- What stands in front of a list is empty or stops a skip. -/
def Stops (skip : Byte → Bool) (text : Text) : Prop := ∀ c rest, text = c :: rest → skip c = false

theorem takeWhile_stops {skip : Byte → Bool} (skipped : ∀ c ∈ text, skip c = true)
    (stops : Stops skip rest) :
    (text ++ rest).takeWhile skip = text ∧ (text ++ rest).dropWhile skip = rest := by
  rw [List.takeWhile_append_of_pos skipped, List.dropWhile_append_of_pos skipped]
  cases rest with
  | nil => exact ⟨List.append_nil text, rfl⟩
  | cons c rest =>
      have here : ¬skip c = true := by
        rw [stops c rest rfl]
        exact Bool.false_ne_true
      rw [List.takeWhile_cons_of_neg here, List.dropWhile_cons_of_neg here, List.append_nil]
      exact ⟨rfl, rfl⟩

/-- Words that are set apart by blanks. -/
structure Spaced (words : LineWords) : Prop where
  lead : Blank words.lead
  first : words.first ≠ [] ∧ Solid words.first
  gap : words.gap ≠ [] ∧ Blank words.gap
  second : words.second ≠ [] ∧ Solid words.second
  gap' : words.gap' ≠ [] ∧ Blank words.gap'
  rest : Stops Character.isWhitespace words.rest

def LineWords.line (words : LineWords) : Text :=
  words.lead ++ (words.first ++ (words.gap ++ (words.second ++ (words.gap' ++ words.rest))))

theorem stops_of_blank (some_ : text ≠ []) (blank : Blank text) (rest : Text) :
    Stops (fun c => !Character.isWhitespace c) (text ++ rest) := by
  obtain ⟨c, more, rfl⟩ := List.exists_cons_of_ne_nil some_
  intro d others same
  rw [List.cons_append] at same
  rw [← (List.cons.inj same).1]
  dsimp only
  rw [blank c List.mem_cons_self]
  rfl

theorem stops_of_solid (some_ : text ≠ []) (solid : Solid text) (rest : Text) :
    Stops Character.isWhitespace (text ++ rest) := by
  obtain ⟨c, more, rfl⟩ := List.exists_cons_of_ne_nil some_
  intro d others same
  rw [List.cons_append] at same
  rw [← (List.cons.inj same).1, solid c List.mem_cons_self]

/-- There is no other way to set the words apart. -/
theorem lineWords_line {words : LineWords} (spaced : Spaced words) :
    lineWords words.line = words := by
  have negated : ∀ text : Text, Solid text → ∀ c ∈ text, (!Character.isWhitespace c) = true := by
    intro text solid c among
    rw [solid c among]
    rfl
  obtain ⟨one, one'⟩ := takeWhile_stops spaced.lead
    (stops_of_solid spaced.first.1 spaced.first.2
      (words.gap ++ (words.second ++ (words.gap' ++ words.rest))))
  obtain ⟨two, two'⟩ := takeWhile_stops (negated _ spaced.first.2)
    (stops_of_blank spaced.gap.1 spaced.gap.2 (words.second ++ (words.gap' ++ words.rest)))
  obtain ⟨three, three'⟩ := takeWhile_stops spaced.gap.2
    (stops_of_solid spaced.second.1 spaced.second.2 (words.gap' ++ words.rest))
  obtain ⟨four, four'⟩ := takeWhile_stops (negated _ spaced.second.2)
    (stops_of_blank spaced.gap'.1 spaced.gap'.2 words.rest)
  obtain ⟨five, five'⟩ := takeWhile_stops spaced.gap'.2 spaced.rest
  unfold lineWords LineWords.line
  dsimp only
  rw [one, one', two, two', three, three', four, four', five, five']

theorem line_lineWords (line : Text) : (lineWords line).line = line := by
  unfold LineWords.line lineWords
  dsimp only
  rw [List.takeWhile_append_dropWhile, List.takeWhile_append_dropWhile,
    List.takeWhile_append_dropWhile, List.takeWhile_append_dropWhile,
    List.takeWhile_append_dropWhile]

/-- What is left by a skip begins with what the skip stops at. -/
theorem takeWhile_left {skip stop : Byte → Bool} (opposite : ∀ c, skip c = false → stop c = true)
    (left : text.dropWhile skip ≠ []) : (text.dropWhile skip).takeWhile stop ≠ [] ∧ text ≠ [] := by
  obtain ⟨c, more, same⟩ := List.exists_cons_of_ne_nil left
  refine ⟨?_, ?_⟩
  · rw [same, List.takeWhile_cons_of_pos (opposite c (stops_of_dropWhile same))]
    exact List.cons_ne_nil _ _
  · rintro rfl
    exact left rfl

/-- A line with something in the third place has words in the first two. -/
theorem spaced_lineWords {line : Text} (third : (lineWords line).rest ≠ []) :
    Spaced (lineWords line) := by
  have blanks : ∀ c, Character.isWhitespace c = false → (!Character.isWhitespace c) = true := by
    intro c solid
    rw [solid]
    rfl
  have solids : ∀ c, (!Character.isWhitespace c) = false → Character.isWhitespace c = true := by
    intro c blank
    rwa [Bool.not_eq_false'] at blank
  unfold lineWords at third ⊢
  dsimp only at third
  have later := (takeWhile_left blanks third).2
  obtain ⟨gap', located⟩ := takeWhile_left solids later
  obtain ⟨second, behind⟩ := takeWhile_left blanks located
  obtain ⟨gap, named⟩ := takeWhile_left solids behind
  obtain ⟨first, -⟩ := takeWhile_left blanks named
  exact ⟨blank_takeWhile _, ⟨first, solid_takeWhile _⟩, ⟨gap, blank_takeWhile _⟩,
    ⟨second, solid_takeWhile _⟩, ⟨gap', blank_takeWhile _⟩, fun c rest same => stops_of_dropWhile same⟩

end Words

namespace FastString

section Splitting

variable {cells : CharArray} {data : Nat} {text : Text}

theorem findWhitespace_text {size : Nat} (front rest : Text) (holds : Holds cells data (front ++ rest))
    (whole : size = front.length + rest.length) :
    (findWhitespace (lineAt data size) front.length).run cells =
      .ok ((front.length + (rest.takeWhile fun c => !Character.isWhitespace c).length : Nat) : Int)
        cells :=
  scanFrom_text Character.isWhitespace front rest holds whole

/-- A skip over part of a line leaves the rest behind it. -/
theorem skipped {front rest : Text} {index : Nat} (parts : front ++ rest = text)
    (at_ : front.length = index) (skip : Byte → Bool) :
    front ++ rest.takeWhile skip ++ rest.dropWhile skip = text ∧
      (front ++ rest.takeWhile skip).length = index + (rest.takeWhile skip).length := by
  rw [List.append_assoc, List.takeWhile_append_dropWhile, List.length_append, at_]
  exact ⟨parts, rfl⟩

/-- The indices in front of the third part. -/
structure WordScans (cells : CharArray) (data : Nat) (text : Text)
    (aStart aEnd bStart bEnd cStart : Nat) : Prop where
  aStarts : (findNonWhitespace (lineAt data text.length) 0).run cells = .ok (aStart : Int) cells
  aEnds : (findWhitespace (lineAt data text.length) aStart).run cells = .ok (aEnd : Int) cells
  bStarts : (findNonWhitespace (lineAt data text.length) aEnd).run cells = .ok (bStart : Int) cells
  bEnds : (findWhitespace (lineAt data text.length) bStart).run cells = .ok (bEnd : Int) cells
  cStarts : (findNonWhitespace (lineAt data text.length) bEnd).run cells = .ok (cStart : Int) cells

theorem wordScans_run (holds : Holds cells data text) :
    WordScans cells data text (lineWords text).lead.length
      ((lineWords text).lead.length + (lineWords text).first.length)
      ((lineWords text).lead.length + (lineWords text).first.length + (lineWords text).gap.length)
      ((lineWords text).lead.length + (lineWords text).first.length + (lineWords text).gap.length +
        (lineWords text).second.length)
      ((lineWords text).lead.length + (lineWords text).first.length + (lineWords text).gap.length +
        (lineWords text).second.length + (lineWords text).gap'.length) := by
  have scans : ∀ {front rest : Text} {index : Nat}, front ++ rest = text → front.length = index →
      (findNonWhitespace (lineAt data text.length) index).run cells =
          .ok ((index + (rest.takeWhile Character.isWhitespace).length : Nat) : Int) cells ∧
        (findWhitespace (lineAt data text.length) index).run cells =
          .ok ((index + (rest.takeWhile fun c => !Character.isWhitespace c).length : Nat) : Int)
            cells := by
    rintro front rest index parts rfl
    have whole : text.length = front.length + rest.length := by
      rw [← parts, List.length_append]
    rw [← parts] at holds
    exact ⟨findNonWhitespace_text front rest holds whole, findWhitespace_text front rest holds whole⟩
  have parts : [] ++ text = text := rfl
  obtain ⟨parts₁, at₁⟩ := skipped parts List.length_nil Character.isWhitespace
  obtain ⟨parts₂, at₂⟩ := skipped parts₁ at₁ fun c => !Character.isWhitespace c
  obtain ⟨parts₃, at₃⟩ := skipped parts₂ at₂ Character.isWhitespace
  obtain ⟨parts₄, at₄⟩ := skipped parts₃ at₃ fun c => !Character.isWhitespace c
  have first := (scans parts List.length_nil).1
  rw [Nat.zero_add] at first at₁ at₂ at₃ at₄
  exact ⟨first, (scans parts₁ at₁).2, (scans parts₂ at₂).1, (scans parts₃ at₃).2,
    (scans parts₄ at₄).1⟩

/-- The search from the back for the end of a line stays in it. -/
theorem scanBack_le (holds : Holds cells data text) {count : Nat} (inside : count ≤ text.length) :
    ∃ end_ : Nat, end_ ≤ count ∧
      (scanBack (lineAt data text.length) count).run cells = .ok (end_ : Int) cells := by
  induction count with
  | zero => exact ⟨0, Nat.le_refl _, rfl⟩
  | succ count induction =>
      obtain ⟨c, back, cut⟩ := List.exists_cons_of_ne_nil
        (List.drop_eq_nil_iff.not.mpr (show ¬text.length ≤ count by omega))
      have size : (text.take count).length = count := List.length_take_of_le (by omega)
      have there : Holds cells data (text.take count ++ c :: back) := by
        rw [← cut, List.take_append_drop]
        exact holds
      have read := at_run there (show (text.take count).length < text.length by omega)
      rw [size] at read
      rw [scanBack, run_bind_ok _ read]
      by_cases blank : Character.isWhitespace c = true
      · obtain ⟨end_, bound, ran⟩ := induction (by omega)
        rw [if_pos blank]
        exact ⟨end_, by omega, ran⟩
      · rw [if_neg blank]
        exact ⟨count + 1, Nat.le_refl _, rfl⟩

theorem lineWords_length (text : Text) :
    (lineWords text).lead.length + (lineWords text).first.length + (lineWords text).gap.length +
      (lineWords text).second.length + (lineWords text).gap'.length +
      (lineWords text).rest.length = text.length := by
  have whole := congrArg List.length (line_lineWords text)
  unfold LineWords.line at whole
  simp only [List.length_append] at whole
  omega

/-- Without a third part there is a null pointer in its place. -/
theorem splitInitialLine_short (present : text ≠ []) (holds : Holds cells data text)
    (room : data + text.length < cells.length) (none : (lineWords text).rest = []) :
    ∃ str1 str2 cells', (lineAt data text.length).splitInitialLine.run cells =
      .ok (some [str1, str2, fresh]) cells' := by
  have scans := wordScans_run holds
  have whole := lineWords_length text
  rw [none, List.length_nil, Nat.add_zero] at whole
  generalize first : (lineWords text).lead.length + (lineWords text).first.length = aEnd at *
  generalize second : aEnd + (lineWords text).gap.length + (lineWords text).second.length = bEnd at *
  rw [whole] at scans
  have positive := List.length_pos_iff.mpr present
  have length : (lineAt data text.length).length = (text.length : Int) := rfl
  obtain ⟨end_, bound, cEnd⟩ := scanBack_le holds (Nat.le_refl _)
  have ends : (findEndOfString (lineAt data text.length)).run cells = .ok (end_ : Int) cells := by
    unfold findEndOfString
    rw [length, if_pos (by omega), Int.toNat_natCast]
    exact cEnd
  have cut : ((lineAt data text.length).setChar aEnd 0).run cells =
      .ok () (cells.set (data + aEnd) 0) := setChar_run (by omega) 0
  have cut' : ((lineAt data text.length).setChar bEnd 0).run (cells.set (data + aEnd) 0) =
      .ok () ((cells.set (data + aEnd) 0).set (data + bEnd) 0) :=
    setChar_run (by rw [List.length_set]; omega) 0
  have null : (lineAt data text.length).substring (text.length : Nat) end_ = fresh := by
    rw [substring_of, if_neg (by omega)]
  unfold splitInitialLine
  rw [HttpMessageDecoder.lineAt_not_empty positive, if_neg Bool.false_ne_true,
    run_bind_ok _ scans.aStarts, run_bind_ok _ scans.aEnds, run_bind_ok _ scans.bStarts,
    run_bind_ok _ scans.bEnds, run_bind_ok _ scans.cStarts, run_bind_ok _ ends, run_bind_ok _ cut,
    run_bind_ok _ cut', null]
  exact ⟨_, _, _, rfl⟩

/-- The array behind the split: each part is a string, the third with what stands behind the line. -/
theorem wordStrings {tail : Text} (spaced : Spaced (lineWords text))
    (holds : Holds cells data (text ++ tail)) :
    Holds ((cells.set (data + ((lineWords text).lead.length + (lineWords text).first.length)) 0).set
        (data + ((lineWords text).lead.length + (lineWords text).first.length +
          (lineWords text).gap.length + (lineWords text).second.length)) 0)
      data ((lineWords text).lead ++ ((lineWords text).first ++ 0 :: ((lineWords text).gap.tail ++
        ((lineWords text).second ++ 0 :: ((lineWords text).gap'.tail ++
          ((lineWords text).rest ++ tail)))))) := by
  have whole := line_lineWords text
  generalize lineWords text = words at *
  obtain ⟨lead, first, gap, second, gap', rest⟩ := words
  obtain ⟨g, gap, rfl⟩ := List.exists_cons_of_ne_nil spaced.gap.1
  obtain ⟨g', gap', rfl⟩ := List.exists_cons_of_ne_nil spaced.gap'.1
  dsimp only [List.tail_cons] at *
  have parts : text ++ tail = (lead ++ first) ++ g :: (gap ++ (second ++ (g' :: gap' ++
      (rest ++ tail)))) := by
    rw [← whole]
    unfold LineWords.line
    simp
  rw [parts] at holds
  have once := holds.set_at 0
  have regrouped : (lead ++ first) ++ (0 : Byte) :: (gap ++ (second ++ (g' :: gap' ++
      (rest ++ tail)))) = (lead ++ first ++ (0 : Byte) :: gap ++ second) ++ g' :: (gap' ++
        (rest ++ tail)) := by
    simp
  rw [regrouped] at once
  have twice := once.set_at 0
  have index : (lead ++ first).length = lead.length + first.length := List.length_append
  have index' : (lead ++ first ++ (0 : Byte) :: gap ++ second).length =
      lead.length + first.length + (g :: gap).length + second.length := by
    simp only [List.length_append, List.length_cons]
  have shown : lead ++ first ++ (0 : Byte) :: gap ++ second ++ 0 :: (gap' ++ (rest ++ tail)) =
      lead ++ (first ++ 0 :: (gap ++ (second ++ 0 :: (gap' ++ (rest ++ tail))))) := by
    simp
  rw [index, index', shown] at twice
  exact twice

/-- A line with a third part is split into the three. -/
theorem splitInitialLine_words {last : Byte} (third : (lineWords text).rest ≠ [])
    (holds : Holds cells data (text ++ [last] ++ [0])) :
    ∃ str1 str2 str3 cells', (lineAt data text.length).splitInitialLine.run cells =
        .ok (some [str1, str2, str3]) cells' ∧
      SameFrom (data + text.length) cells cells' ∧
      (str1.data ≠ none ∧ str2.data ≠ none ∧ str3.data ≠ none) ∧
      str1.toString.run cells' = .ok (cString (lineWords text).first) cells' ∧
      str2.toString.run cells' = .ok (cString (lineWords text).second) cells' ∧
      str3.toString.run cells' = .ok (cString ((lineWords text).rest ++ [last])) cells' := by
  have spaced := spaced_lineWords third
  have room := holds.bound (by simp)
  have strings := wordStrings spaced (show Holds cells data (text ++ ([last] ++ [0])) by
    rw [← List.append_assoc]; exact holds)
  have scans := wordScans_run holds.front.front
  have whole := lineWords_length text
  obtain ⟨c, back, begins⟩ := List.exists_cons_of_ne_nil third
  have solid := spaced.rest c back begins
  have shown := line_lineWords text
  have inside := holds.front.front
  generalize lineWords text = words at *
  have one := List.length_pos_iff.mpr spaced.first.1
  have two := List.length_pos_iff.mpr spaced.gap.1
  have three := List.length_pos_iff.mpr spaced.second.1
  have four := List.length_pos_iff.mpr spaced.gap'.1
  have width : words.rest.length = back.length + 1 := by rw [begins, List.length_cons]
  rw [List.length_append, List.length_append, List.length_singleton, List.length_singleton] at room
  have length : (lineAt data text.length).length = (text.length : Int) := rfl
  -- the third part begins with a character that is not blank
  obtain ⟨end_, later, bound, ends⟩ : ∃ end_ : Nat,
      words.lead.length + words.first.length + words.gap.length + words.second.length +
        words.gap'.length < end_ ∧ end_ ≤ text.length ∧
      (findEndOfString (lineAt data text.length)).run cells = .ok (end_ : Int) cells := by
    have parts : text = (words.lead ++ words.first ++ words.gap ++ words.second ++ words.gap') ++
        c :: back := by
      rw [← shown, ← begins]
      unfold LineWords.line
      simp
    have counted : (words.lead ++ words.first ++ words.gap ++ words.second ++ words.gap').length =
        words.lead.length + words.first.length + words.gap.length + words.second.length +
          words.gap'.length := by
      simp only [List.length_append]
    rw [parts] at inside
    have found := @findEndOfString_run cells data text.length c _ back inside solid (by omega)
    rw [counted] at found
    exact found
  have cut : ((lineAt data text.length).setChar
      ((words.lead.length + words.first.length : Nat) : Int) 0).run cells =
      .ok () (cells.set (data + (words.lead.length + words.first.length)) 0) :=
    setChar_run (by omega) 0
  have cut' : ((lineAt data text.length).setChar ((words.lead.length + words.first.length +
      words.gap.length + words.second.length : Nat) : Int) 0).run
      (cells.set (data + (words.lead.length + words.first.length)) 0) =
      .ok () ((cells.set (data + (words.lead.length + words.first.length)) 0).set
        (data + (words.lead.length + words.first.length + words.gap.length +
          words.second.length)) 0) :=
    setChar_run (by rw [List.length_set]; omega) 0
  generalize written : (cells.set (data + (words.lead.length + words.first.length)) 0).set
    (data + (words.lead.length + words.first.length + words.gap.length + words.second.length)) 0 =
    split at *
  have untouched : SameFrom (data + text.length) cells split := by
    rw [← written]
    exact (SameFrom.set (by omega) _ _).trans (SameFrom.set (by omega) _ _)
  have back₁ := strings.back
  have grouped : words.first ++ (0 : Byte) :: (words.gap.tail ++ (words.second ++ 0 ::
      (words.gap'.tail ++ (words.rest ++ ([last] ++ [0]))))) = (words.first ++ [0]) ++
      (words.gap.tail ++ ((words.second ++ [0]) ++ (words.gap'.tail ++
        ((words.rest ++ [last]) ++ [0])))) := by
    simp
  rw [grouped] at back₁
  have back₂ := back₁.back.back
  have back₃ := back₂.back.back
  have index₂ : data + words.lead.length + (words.first ++ [0]).length + words.gap.tail.length =
      data + (words.lead.length + words.first.length + words.gap.length) := by
    rw [List.length_append, List.length_singleton, List.length_tail]
    omega
  have index₃ : data + words.lead.length + (words.first ++ [0]).length + words.gap.tail.length +
      (words.second ++ [0]).length + words.gap'.tail.length =
      data + (words.lead.length + words.first.length + words.gap.length + words.second.length +
        words.gap'.length) := by
    rw [index₂, List.length_append, List.length_singleton, List.length_tail]
    omega
  rw [index₃] at back₃
  rw [index₂] at back₂
  have positive : 0 < text.length := by omega
  refine ⟨lineAt (data + words.lead.length) words.first.length,
    lineAt (data + (words.lead.length + words.first.length + words.gap.length)) words.second.length,
    lineAt (data + (words.lead.length + words.first.length + words.gap.length +
      words.second.length + words.gap'.length)) (end_ - (words.lead.length + words.first.length +
        words.gap.length + words.second.length + words.gap'.length)), split, ?_, untouched,
    ⟨Option.some_ne_none _, Option.some_ne_none _, Option.some_ne_none _⟩,
    toString_cString back₁.front, toString_cString back₂.front, toString_cString back₃⟩
  have lineA : (lineAt data text.length).substring (words.lead.length : Nat)
      ((words.lead.length + words.first.length : Nat) : Int) =
      lineAt (data + words.lead.length) words.first.length := by
    rw [substring_of, if_pos (by omega), Nat.add_sub_cancel_left]
  have lineB : (lineAt data text.length).substring
      ((words.lead.length + words.first.length + words.gap.length : Nat) : Int)
      ((words.lead.length + words.first.length + words.gap.length + words.second.length : Nat) :
        Int) =
      lineAt (data + (words.lead.length + words.first.length + words.gap.length))
        words.second.length := by
    rw [substring_of, if_pos (by omega), Nat.add_sub_cancel_left]
  unfold splitInitialLine
  rw [HttpMessageDecoder.lineAt_not_empty positive, if_neg Bool.false_ne_true,
    run_bind_ok _ scans.aStarts, run_bind_ok _ scans.aEnds, run_bind_ok _ scans.bStarts,
    run_bind_ok _ scans.bEnds, run_bind_ok _ scans.cStarts, run_bind_ok _ ends, run_bind_ok _ cut,
    run_bind_ok _ cut', lineA, lineB, substring_of, if_pos later]
  rfl

end Splitting

end FastString

end Cetty
