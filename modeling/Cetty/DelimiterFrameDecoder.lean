import Cetty.FrameDecoder

/-!
# DelimiterBasedFrameDecoder

The shortest frame that one of the delimiters ends is taken; without a delimiter in reach an
overlong input is discarded until one comes.
-/

namespace Cetty

open MachineInt

structure DelimiterBasedFrameDecoder where
  delimiters : List ChannelBuffer
  maxFrameLength : Int
  stripDelimiter : Bool
  discardingTooLongFrame : Bool
  tooLongFrameLength : Int

namespace DelimiterBasedFrameDecoder

def validateDelimiter (delimiter : ChannelBuffer) : Except Stop Unit :=
  if delimiter.readable then pure () else throw (invalidArgumentException "empty delimiter")

def validateMaxFrameLength (maxFrameLength : Int) : Except Stop Unit :=
  if maxFrameLength ≤ 0 then
    throw (invalidArgumentException
      ("maxFrameLength must be a positive integer: " ++ toString maxFrameLength))
  else pure ()

def initdelimiters (delimiters : List ChannelBuffer) : Except Stop (List ChannelBuffer) :=
  if delimiters.isEmpty then throw (invalidArgumentException "empty delimiters")
  else
    delimiters.mapM fun d => do
      validateDelimiter d
      d.slice d.readerIdx d.readableBytes

/-- The constructor with all three parameters. -/
def make (maxFrameLength : Int) (stripDelimiter : Bool) (delimiters : List ChannelBuffer) :
    Except Stop DelimiterBasedFrameDecoder := do
  validateMaxFrameLength maxFrameLength
  let delimiters ← initdelimiters delimiters
  pure ⟨delimiters, maxFrameLength, stripDelimiter, false, 0⟩

inductive Comparison where
  | found
  | differs
  /-- The haystack ends within the needle. -/
  | ends
  deriving DecidableEq, Repr

/-- The inner loop of `indexOf`, with the bytes of the needle still to be compared. -/
def compareNeedle (haystack needle : Getters) (writerIndex : Int) :
    Nat → Int → Int → Except Stop Comparison
  | 0, _, _ => pure .found
  | left + 1, haystackIndex, needleIndex => do
      let first ← haystack.getByte haystackIndex
      let second ← needle.getByte needleIndex
      if first ≠ second then pure .differs
      else if haystackIndex + 1 = writerIndex ∧ left ≠ 0 then pure .ends
      else compareNeedle haystack needle writerIndex left (haystackIndex + 1) (needleIndex + 1)

def searchNeedle (haystack : ChannelBuffer) (needle : Getters) : Nat → Int → Except Stop Int
  | 0, _ => pure (-1)
  | rounds + 1, i => do
      match ← compareNeedle haystack.getters needle haystack.writerIdx needle.capacity.toNat i 0 with
      | .found => pure (i - haystack.readerIdx)
      | .ends => pure (-1)
      | .differs => searchNeedle haystack needle rounds (i + 1)

def indexOf (haystack needle : ChannelBuffer) : Except Stop Int :=
  searchNeedle haystack needle.getters (haystack.writerIdx - haystack.readerIdx).toNat
    haystack.readerIdx

/-- The delimiter that yields the shortest frame, with the length of that frame. -/
def minDelimiter (buffer : ChannelBuffer) :
    List ChannelBuffer → Option ChannelBuffer → Int → Except Stop (Option ChannelBuffer × Int)
  | [], minDelim, minFrameLength => pure (minDelim, minFrameLength)
  | delimiter :: rest, minDelim, minFrameLength => do
      let frameLength ← indexOf buffer delimiter
      if 0 ≤ frameLength ∧ frameLength < minFrameLength then
        minDelimiter buffer rest (some delimiter) frameLength
      else minDelimiter buffer rest minDelim minFrameLength

abbrev Decode (Value : Type) := DecodeM DelimiterBasedFrameDecoder Value

def update (change : DelimiterBasedFrameDecoder → DelimiterBasedFrameDecoder) : Decode Unit :=
  modify fun context => { context with fields := change context.fields }

def tooLongFrame (maxFrameLength frameLength : Int) : Exception :=
  if 0 < frameLength then
    ⟨.tooLongFrame, "frame length exceeds " ++ toString maxFrameLength ++ ": " ++
      toString frameLength ++ " - discarded"⟩
  else ⟨.tooLongFrame, "frame length exceeds " ++ toString maxFrameLength ++ " - discarded"⟩

def fail (frameLength : Int) : Decode Unit := do
  let maxFrameLength := (← get).fields.maxFrameLength
  fire [.exceptionCaught (tooLongFrame maxFrameLength frameLength)]

/-- The branch of `decode` behind a delimiter that has been found. -/
def takeFrame (minDelim : ChannelBuffer) (minFrameLength : Int) : Decode ChannelMessage := do
  let fields := (← get).fields
  let minDelimLength := minDelim.capacity
  if fields.discardingTooLongFrame then
    update fun fields => { fields with discardingTooLongFrame := false }
    onBuffer (BufferM.skipBytes (int32 (minFrameLength + minDelimLength)))
    update fun fields => { fields with tooLongFrameLength := 0 }
    fail fields.tooLongFrameLength
    pure .empty
  else if fields.maxFrameLength < minFrameLength then
    onBuffer (BufferM.skipBytes (int32 (minFrameLength + minDelimLength)))
    fail minFrameLength
    pure .empty
  else if fields.stripDelimiter then
    let frame ← onBuffer (BufferM.readBytes minFrameLength)
    onBuffer (BufferM.skipBytes minDelimLength)
    pure (.buffer frame)
  else
    let frame ← onBuffer (BufferM.readBytes (int32 (minFrameLength + minDelimLength)))
    pure (.buffer frame)

/-- The branch of `decode` without a delimiter. -/
def discard : Decode ChannelMessage := do
  let context ← get
  let readableBytes := context.buffer.readableBytes
  if context.fields.discardingTooLongFrame then
    update fun fields =>
      { fields with tooLongFrameLength := int32 (fields.tooLongFrameLength + readableBytes) }
    onBuffer (BufferM.skipBytes readableBytes)
  else if context.fields.maxFrameLength < readableBytes then
    update fun fields => { fields with tooLongFrameLength := readableBytes }
    onBuffer (BufferM.skipBytes readableBytes)
    update fun fields => { fields with discardingTooLongFrame := true }
  pure .empty

def decode : Decode ChannelMessage := do
  let context ← get
  let (minDelim, minFrameLength) ←
    call (minDelimiter context.buffer context.fields.delimiters none maxInt)
  match minDelim with
  | some minDelim => takeFrame minDelim minFrameLength
  | none => discard

end DelimiterBasedFrameDecoder

end Cetty
