import Cetty.HttpHeads

/-!
# How a header line is read

The loop over the bytes of a header line is a function of what is unread. A carriage return takes the
byte behind it along, which the string does not count; the size is not looked at where a line ends.
-/

namespace Cetty

open CLocale MachineInt ByteWindow

/-- How the reading of a header line ends: the bytes give out, the header is too large, or the line
has so many characters with its end, and the header so many more bytes. -/
inductive LineRead where
  | short
  | tooLarge
  | ended (characters counted : Nat)
  deriving DecidableEq, Repr

namespace LineRead

/-- What has been read before. -/
def behind (characters counted : Nat) : LineRead → LineRead
  | ended c n => ended (characters + c) (counted + n)
  | other => other

@[simp] theorem behind_short (characters counted : Nat) : short.behind characters counted = short :=
  rfl

@[simp] theorem behind_tooLarge (characters counted : Nat) :
    tooLarge.behind characters counted = tooLarge := rfl

@[simp] theorem behind_ended (characters counted c n : Nat) :
    (ended c n).behind characters counted = ended (characters + c) (counted + n) := rfl

end LineRead

/-- The bytes of a header line, behind so many bytes of the header. -/
def headerScan (limit headerSize : Int) : List Byte → LineRead
  | [] => .short
  | [c] =>
      if c = HttpCodecUtil.CR then .short
      else if c = HttpCodecUtil.LF then .ended 1 1
      else if limit ≤ headerSize + 1 then .tooLarge
      else .short
  | c :: d :: rest =>
      if c = HttpCodecUtil.CR then
        if d = HttpCodecUtil.LF then .ended 1 2
        else if limit ≤ headerSize + 2 then .tooLarge
        else (headerScan limit (headerSize + 2) rest).behind 1 2
      else if c = HttpCodecUtil.LF then .ended 1 1
      else if limit ≤ headerSize + 1 then .tooLarge
      else (headerScan limit (headerSize + 1) (d :: rest)).behind 1 1

/-- The ends of a line. -/
def EndsLine (end_ : List Byte) : Prop :=
  end_ = HttpMessageDecoder.lineEnd ∨ end_ = [HttpCodecUtil.LF]

theorem EndsLine.length {end_ : List Byte} (ends : EndsLine end_) : 0 < end_.length := by
  rcases ends with rfl | rfl
  · decide
  · decide

section Scans

variable {limit headerSize : Int} {c d : Byte} {bytes rest line : List Byte}
  {characters counted : Nat}

theorem headerScan_cons (plain : c ≠ HttpCodecUtil.CR) (rest : List Byte) :
    headerScan limit headerSize (c :: rest) =
      if c = HttpCodecUtil.LF then .ended 1 1
      else if limit ≤ headerSize + 1 then .tooLarge
      else (headerScan limit (headerSize + 1) rest).behind 1 1 := by
  cases rest with
  | nil => simp only [headerScan, if_neg plain, LineRead.behind_short]
  | cons d rest => rw [headerScan, if_neg plain]

theorem headerScan_return (d : Byte) (rest : List Byte) :
    headerScan limit headerSize (HttpCodecUtil.CR :: d :: rest) =
      if d = HttpCodecUtil.LF then .ended 1 2
      else if limit ≤ headerSize + 2 then .tooLarge
      else (headerScan limit (headerSize + 2) rest).behind 1 2 := by
  rw [headerScan, if_pos rfl]

theorem headerScan_return_alone :
    headerScan limit headerSize [HttpCodecUtil.CR] = .short := by
  rw [headerScan, if_pos rfl]

theorem LineRead.ended_of_behind {first second : Nat} {read : LineRead}
    (same : read.behind first second = .ended characters counted) :
    ∃ c n, read = .ended c n ∧ characters = first + c ∧ counted = second + n := by
  cases read with
  | short => cases same
  | tooLarge => cases same
  | ended c n =>
      cases same
      exact ⟨c, n, rfl, rfl, rfl⟩

/-- The string has a character, and no more of them than bytes have been read. -/
theorem headerScan_ended (ended : headerScan limit headerSize bytes = .ended characters counted) :
    0 < characters ∧ characters ≤ counted ∧ counted ≤ bytes.length := by
  induction bytes using List.twoStepInduction generalizing headerSize characters counted with
  | nil => cases ended
  | singleton c =>
      rw [headerScan] at ended
      split at ended
      · cases ended
      · split at ended
        · cases ended
          exact ⟨by decide, by decide, by simp⟩
        · split at ended
          · cases ended
          · cases ended
  | cons_cons c d rest first second =>
      rw [headerScan] at ended
      split at ended
      · split at ended
        · cases ended
          exact ⟨by decide, by decide, by simp⟩
        · split at ended
          · cases ended
          · obtain ⟨c', n, inner, rfl, rfl⟩ := LineRead.ended_of_behind ended
            obtain ⟨positive, less, inside⟩ := first inner
            exact ⟨by omega, by omega, by simp; omega⟩
      · split at ended
        · cases ended
          exact ⟨by decide, by decide, by simp⟩
        · split at ended
          · cases ended
          · obtain ⟨c', n, inner, rfl, rfl⟩ := LineRead.ended_of_behind ended
            obtain ⟨positive, less, inside⟩ := second d inner
            rw [List.length_cons] at inside
            exact ⟨by omega, by omega, by simp; omega⟩

/-- A line of characters that do not end it. -/
theorem headerScan_line {end_ : List Byte} (unbroken : HttpMessageDecoder.Unbroken line)
    (ends : EndsLine end_) (rest : List Byte) :
    headerScan limit headerSize (line ++ end_ ++ rest) =
      if 0 < line.length ∧ limit ≤ headerSize + line.length then .tooLarge
      else .ended (line.length + 1) (line.length + end_.length) := by
  induction line generalizing headerSize with
  | nil =>
      rw [if_neg (fun wrong => absurd wrong.1 (Nat.lt_irrefl 0))]
      rcases ends with rfl | rfl
      · exact headerScan_return HttpCodecUtil.LF rest
      · exact headerScan_cons (by decide) rest
  | cons c line induction =>
      have apart := unbroken c List.mem_cons_self
      rw [List.cons_append, List.cons_append, headerScan_cons apart.1, if_neg apart.2,
        induction unbroken.tail]
      rw [List.length_cons]
      by_cases here : limit ≤ headerSize + 1
      · rw [if_pos here, if_pos ⟨Nat.succ_pos _, by omega⟩]
      · rw [if_neg here]
        by_cases later : limit ≤ headerSize + ((line.length + 1 : Nat) : Int)
        · rw [if_pos ⟨by omega, by omega⟩, if_pos ⟨Nat.succ_pos _, later⟩]
          rfl
        · rw [if_neg (by omega), if_neg (by omega), LineRead.behind_ended]
          congr 1 <;> omega

end Scans

namespace HttpMessageDecoder

/-- The loop over the bytes of a header line ends so. -/
inductive LoopEnds (limits : HttpLimits) (desk : Desk) (headerSize strSize : Int) :
    LineRead →
      EStateM.Result Stop (ReplayContext HttpMessageDecoder) (Option (Int × Int)) → Prop
  | short (count : Nat) (inside : desk.reader + count ≤ desk.writer) :
      LoopEnds limits desk headerSize strSize .short
        (.ok none { desk.pass count with short := true }.context)
  | tooLarge (count : Nat) (inside : desk.reader + count ≤ desk.writer) :
      LoopEnds limits desk headerSize strSize .tooLarge
        (.error (headerTooLarge limits) (desk.pass count).context)
  | ended (characters counted : Nat) :
      LoopEnds limits desk headerSize strSize (.ended characters counted)
        (.ok (some (headerSize + counted, strSize + characters)) (desk.pass counted).context)

section Loops

variable {limits : HttpLimits} {desk : Desk} {headerSize strSize : Int}

theorem LoopEnds.behind {characters counted : Nat} {read : LineRead}
    {result : EStateM.Result Stop (ReplayContext HttpMessageDecoder) (Option (Int × Int))}
    (later : LoopEnds limits (desk.pass counted) (headerSize + counted) (strSize + characters) read
      result) :
    LoopEnds limits desk headerSize strSize (read.behind characters counted) result := by
  cases later with
  | short count inside =>
      rw [desk.pass_pass]
      exact .short _ (by rw [← Nat.add_assoc]; exact inside)
  | tooLarge count inside =>
      rw [desk.pass_pass]
      exact .tooLarge _ (by rw [← Nat.add_assoc]; exact inside)
  | ended c n =>
      have both := @LoopEnds.ended limits desk headerSize strSize (characters + c) (counted + n)
      rw [desk.pass_pass, LineRead.behind_ended, Int.add_assoc, Int.add_assoc]
      push_cast at both
      exact both

theorem readByte_short (fits : desk.Fits) (nothing : desk.unread = []) :
    readByte.run desk.context = .ok 0 { desk.pass 0 with short := true }.context := by
  have lacking : ((desk.writer - desk.reader : Nat) : Int) <
      ((Reader.readByte.width : Nat) : Int) := by
    have width : Reader.readByte.width = 1 := rfl
    have length := fits.unread_length
    rw [nothing, List.length_nil] at length
    omega
  unfold readByte
  exact run_bind_ok _ (onReplayable_lacks fits lacking Reader.readByte.program 0)

/-- The byte that is unread next is read, and the ones behind it stay. -/
theorem Desk.Fits.read_next {c : Byte} {rest : List Byte} (fits : desk.Fits)
    (parts : desk.unread = c :: rest) :
    readByte.run desk.context = .ok c (desk.pass 1).context ∧ (desk.pass 1).Fits ∧
      (desk.pass 1).unread = rest ∧ desk.reader + 1 ≤ desk.writer := by
  have ahead : desk.Ahead (c :: rest) := fits.ahead (parts.trans (List.append_nil _).symm)
  have length := fits.unread_length
  rw [parts, List.length_cons] at length
  have single : desk.unread = [c] ++ rest := parts
  exact ⟨ahead.readByte_run fits, ahead.fits_next fits, fits.unread_pass single, by omega⟩

/-- The loop over the bytes of a header line is the scan of what is unread. -/
theorem readHeaderLoop_scan {bytes : List Byte} (fits : desk.Fits) (unread : desk.unread = bytes)
    {rounds : Nat} (enough : bytes.length < rounds) :
    LoopEnds limits desk headerSize strSize (headerScan limits.maxHeaderSize headerSize bytes)
      ((readHeaderLoop limits rounds headerSize strSize).run desk.context) := by
  induction rounds using Nat.strong_induction_on generalizing desk headerSize strSize bytes with
  | _ rounds induction =>
      obtain ⟨rounds, rfl⟩ : ∃ more, rounds = more + 1 := ⟨rounds - 1, by omega⟩
      cases bytes with
      | nil =>
          rw [readHeaderLoop, run_bind_ok _ (readByte_short fits unread)]
          exact .short 0 fits.order
      | cons c rest =>
          obtain ⟨read, fits', unread', there⟩ := fits.read_next unread
          rw [List.length_cons] at enough
          rw [readHeaderLoop, run_bind_ok _ read, run_bind_ok _ (desk.needMoreBytes_pass 1),
            if_neg Bool.false_ne_true]
          dsimp only
          by_cases carriage : c = HttpCodecUtil.CR
          · rw [if_pos carriage, carriage]
            cases rest with
            | nil =>
                rw [run_bind_ok _ (readByte_short fits' unread'), headerScan_return_alone]
                exact .short 1 there
            | cons d rest =>
                obtain ⟨read', fits'', unread'', there'⟩ := fits'.read_next unread'
                rw [run_bind_ok _ read', run_bind_ok _ ((desk.pass 1).needMoreBytes_pass 1),
                  if_neg Bool.false_ne_true, headerScan_return]
                have two : headerSize + 1 + 1 = headerSize + 2 := by omega
                rw [desk.pass_pass] at fits'' unread'' ⊢
                rw [two]
                by_cases feed : d = HttpCodecUtil.LF
                · rw [if_pos feed, if_pos feed]
                  exact .ended 1 2
                · rw [if_neg feed, if_neg feed]
                  by_cases large : limits.maxHeaderSize ≤ headerSize + 2
                  · rw [if_pos large, if_pos large]
                    exact .tooLarge 2 (by show desk.reader + 2 ≤ desk.writer; exact there')
                  · rw [if_neg large, if_neg large]
                    rw [List.length_cons] at enough
                    exact .behind (induction rounds (by omega) fits'' unread'' (by omega))
          · rw [if_neg carriage, headerScan_cons carriage]
            by_cases feed : c = HttpCodecUtil.LF
            · rw [if_pos feed, if_pos feed]
              exact .ended 1 1
            · rw [if_neg feed, if_neg feed]
              by_cases large : limits.maxHeaderSize ≤ headerSize + 1
              · rw [if_pos large, if_pos large]
                exact .tooLarge 1 there
              · rw [if_neg large, if_neg large]
                exact .behind (induction rounds (by omega) fits' unread' (by omega))

end Loops

/-- The array does not reach the reader index, which is no error for the empty array. -/
def Desk.Full (desk : Desk) : Prop := desk.reader ≠ 0 ∧ desk.reader = desk.cells.length

/-- The line that has been read, and the array with its terminator. -/
def Desk.lined (desk : Desk) (characters counted : Nat) : Desk :=
  desk.moved counted (desk.cells.set (desk.reader + (characters - 1)) 0)
    { desk.fields with headerSize := desk.fields.headerSize + counted }

/-- The reading of a header line ends so. -/
inductive HeaderEnds (limits : HttpLimits) (desk : Desk) : LineRead →
    EStateM.Result Stop (ReplayContext HttpMessageDecoder) FastString → Prop
  | full (full : desk.Full) :
      HeaderEnds limits desk .short
        (.error (rangeException "out of range in array") desk.context)
  | short (count : Nat) (inside : desk.reader + count ≤ desk.writer) :
      HeaderEnds limits desk .short
        (.ok (FastString.lineAt desk.reader 0) { desk.pass count with short := true }.context)
  | tooLarge (count : Nat) (inside : desk.reader + count ≤ desk.writer) :
      HeaderEnds limits desk .tooLarge (.error (headerTooLarge limits) (desk.pass count).context)
  | ended (characters counted : Nat) :
      HeaderEnds limits desk (.ended characters counted)
        (.ok (FastString.lineAt desk.reader (characters - 1))
          (desk.lined characters counted).context)

section Headers

variable {limits : HttpLimits} {desk : Desk}

theorem dataAtReader_full (full : desk.Full) :
    dataAtReader.run desk.context =
      .error (rangeException "out of range in array") desk.context := by
  have array : desk.context.replayable.buffer.array = .ok desk.cells := Shell.buffer_array _ _ _
  have index : desk.context.replayable.buffer.readerIdx = desk.reader := desk.buffer_readerIdx
  have beyond : CharArray.data desk.cells (desk.reader : Int) =
      .error (rangeException "out of range in array") := by
    obtain ⟨present, same⟩ := full
    unfold CharArray.data
    rw [if_pos (Or.inr ⟨by omega, by omega⟩)]
    rfl
  unfold dataAtReader
  rw [run_bind_get]
  dsimp only
  rw [array, index, run_bind_ok _ (run_call_ok _ _), beyond]
  rfl

theorem Desk.Fits.unread_nil (fits : desk.Fits) (full : desk.Full) : desk.unread = [] := by
  have length := fits.unread_length
  have order := fits.order
  have bound := fits.bound
  have same := full.2
  exact List.length_eq_zero_iff.mp (by omega)

/-- A header line is read as its bytes are scanned. -/
theorem readHeader_scan (fits : desk.Fits) :
    HeaderEnds limits desk
      (headerScan limits.maxHeaderSize desk.fields.headerSize desk.unread)
      ((readHeader limits).run desk.context) := by
  by_cases full : desk.Full
  · rw [fits.unread_nil full]
    have stops : (readHeader limits).run desk.context =
        .error (rangeException "out of range in array") desk.context := by
      unfold readHeader
      exact run_bind_error _ (dataAtReader_full full)
    rw [stops]
    exact .full full
  · have length := fits.unread_length
    have looped := @readHeaderLoop_scan limits desk desk.fields.headerSize 0 desk.unread fits rfl
      (desk.writer - desk.reader + 1) (by omega)
    generalize scanned : headerScan limits.maxHeaderSize desk.fields.headerSize desk.unread = read
      at looped
    generalize ran : (readHeaderLoop limits (desk.writer - desk.reader + 1) desk.fields.headerSize
      0).run desk.context = result at looped
    have inside : desk.reader = 0 ∨ desk.reader < desk.cells.length := by
      have order := fits.order
      have bound := fits.bound
      rcases Decidable.not_and_iff_or_not.mp full with front | within
      · exact Or.inl (by omega)
      · exact Or.inr (by omega)
    unfold readHeader
    rw [run_bind_ok _ (dataAtReader_run inside), run_bind_ok _ (rounds_run fits),
      run_bind_get]
    have same : desk.context.fields.headerSize = desk.fields.headerSize := rfl
    dsimp only
    rw [same]
    cases looped with
    | short count inside =>
        rw [run_bind_ok _ ran]
        exact .short count inside
    | tooLarge count inside =>
        rw [run_bind_error _ ran]
        exact .tooLarge count inside
    | ended characters counted =>
        obtain ⟨positive, less, inside⟩ := headerScan_ended scanned
        have order := fits.order
        have bound := fits.bound
        have size : (0 : Int) + characters - 1 = ((characters - 1 : Nat) : Int) := by omega
        have stored : ((FastString.lineAt desk.reader (characters - 1)).setChar
            ((characters - 1 : Nat) : Int) 0).run (desk.pass counted).cells =
            .ok () (desk.cells.set (desk.reader + (characters - 1)) 0) :=
          FastString.setChar_run (by show desk.reader + (characters - 1) < desk.cells.length; omega) 0
        rw [run_bind_ok _ ran]
        dsimp only
        rw [size]
        have written := onArray_run stored
        unfold FastString.lineAt at written
        rw [run_bind_ok _ written]
        exact .ended characters counted

end Headers

end HttpMessageDecoder

end Cetty
