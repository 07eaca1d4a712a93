import Cetty.FastString
import Cetty.HttpMessage
import Cetty.ReplayingDecoder
import Cetty.WriteRequest

/-!
# HttpMessageDecoder

The twelve states, the line readers and what they write into the array of the cumulation. The
subclass makes one message object and uses it again for every message.
-/

namespace Cetty

open CLocale MachineInt

namespace ChannelBuffer

/-- The buffer after writes to its array. -/
def withArray : ChannelBuffer → CharArray → ChannelBuffer
  | heap buffer, arry => heap { buffer with arry := arry }
  | dynamic endianness factory buffer idx, arry =>
      dynamic endianness factory { buffer with arry := arry } idx
  | sliced buffer adjustment length idx, arry =>
      sliced (buffer.withArray arry) adjustment length idx
  | truncated buffer length idx, arry => truncated (buffer.withArray arry) length idx
  | duplicated buffer idx, arry => duplicated (buffer.withArray arry) idx
  | buffer, _ => buffer

end ChannelBuffer

namespace ReplayingDecoderBuffer

def readableBytes (this : ReplayingDecoderBuffer) : Int :=
  if this.terminated then this.buffer.readableBytes else int32 (maxInt - this.buffer.readerIdx)

def readable (this : ReplayingDecoderBuffer) : Bool :=
  if this.terminated then this.buffer.readable else true

end ReplayingDecoderBuffer

inductive HttpObject where
  | message (message : HttpMessage)
  | chunk (chunk : HttpChunk)
  | null

/-- `object` is what the subclass has made; `message` says that the pointer of that name is set, and
then it is to this object. `published` holds what each returned message showed when it was returned,
which is when it is fired. -/
structure HttpMessageDecoder where
  chunkSize : Int
  headerSize : Int
  object : Option HttpMessage
  message : Bool
  content : Option ChannelBuffer
  published : List HttpObject

structure HttpLimits where
  maxInitialLineLength : Int
  maxHeaderSize : Int
  maxChunkSize : Int
  deriving DecidableEq, Repr

/-- `missing` is how the program ends for an argument that is null. -/
structure HttpSubclass where
  createMessage : Text → Text → Text → Exec (Option HttpMessage) Unit
  isDecodingRequest : Bool
  missing : Stop
  typeName : String

namespace HttpMessageDecoder

abbrev SKIP_CONTROL_CHARS : Int := 0

abbrev READ_INITIAL : Int := 1

abbrev READ_HEADER : Int := 2

abbrev READ_VARIABLE_LENGTH_CONTENT : Int := 3

abbrev READ_VARIABLE_LENGTH_CONTENT_AS_CHUNKS : Int := 4

abbrev READ_FIXED_LENGTH_CONTENT : Int := 5

abbrev READ_FIXED_LENGTH_CONTENT_AS_CHUNKS : Int := 6

abbrev READ_CHUNK_SIZE : Int := 7

abbrev READ_CHUNKED_CONTENT : Int := 8

abbrev READ_CHUNKED_CONTENT_AS_CHUNKS : Int := 9

abbrev READ_CHUNK_DELIMITER : Int := 10

abbrev READ_CHUNK_FOOTER : Int := 11

abbrev Decode (Value : Type) := ReplayDecodeM HttpMessageDecoder Value

section Members

variable {Value : Type}

def update (change : HttpMessageDecoder → HttpMessageDecoder) : Decode Unit :=
  modify fun context => { context with fields := change context.fields }

def needMoreBytes : Decode Bool := do return (← get).replayable.needMore

def readByte : Decode Byte := do
  return BitVec.ofInt 8 (← onReplayable (ReplayingDecoderBuffer.read .readByte))

def readUnsignedByte : Decode Byte := do
  return BitVec.ofInt 8 (← onReplayable (ReplayingDecoderBuffer.read .readUnsignedByte))

def readSlice (length : Int) : Decode ChannelBuffer :=
  onReplayable (ReplayingDecoderBuffer.readSlice length)

/-- A program on the array of the cumulation. -/
def onArray (program : Memory Value) : Decode Value := do
  let cells ← call (← get).replayable.buffer.array
  focus (fun _ => cells)
    (fun context cells =>
      { context with
        replayable := { context.replayable with
          buffer := context.replayable.buffer.withArray cells } })
    program

/-- `buffer->array().data(buffer->readerIndex())`. -/
def dataAtReader : Decode Int := do
  let buffer := (← get).replayable.buffer
  let cells ← call buffer.array
  return ((← call (CharArray.data cells buffer.readerIdx)) : Int)

/-- Every round of a loop that reads takes a byte, or is its last. -/
def rounds : Decode Nat := do return (← get).replayable.buffer.readableBytes.toNat + 1

/-- `*message`. -/
def theMessage : Decode HttpMessage := do
  let fields := (← get).fields
  match fields.message, fields.object with
  | true, some message => pure message
  | _, _ => throw .outOfBounds

def onMessage (change : HttpMessage → Except Stop HttpMessage) : Decode Unit := do
  let message ← call (change (← theMessage))
  update fun fields => { fields with object := some message }

/-- `ChannelMessage(object)`. -/
def publish (object : HttpObject) : Decode ChannelMessage := do
  let identity := (← get).fields.published.length
  update fun fields => { fields with published := fields.published ++ [object] }
  pure (.object identity)

def publishMessage : Decode ChannelMessage := do publish (.message (← theMessage))

def publishChunk (chunk : HttpChunk) : Decode ChannelMessage := publish (.chunk chunk)

/-- What remains to be done with the message once its content is set. -/
def release : Decode HttpObject := do
  let fields := (← get).fields
  let object :=
    match fields.message, fields.object with
    | true, some message => .message message
    | _, _ => .null
  update fun fields => { fields with message := false }
  checkpointAt SKIP_CONTROL_CHARS
  pure object

/-- `reset`, whose callers that do not return its result never make a message of it. -/
def reset : Decode HttpObject := do
  match (← get).fields.content with
  | some content =>
      onMessage fun message => message.setContent content
      update fun fields => { fields with content := none }
  | none => pure ()
  release

end Members

section Lines

variable (limits : HttpLimits)

def skipLoop : Nat → Decode Bool
  | 0 => throw .outOfFuel
  | rounds + 1 => do
      let c ← readUnsignedByte
      if ← needMoreBytes then pure false
      else if !Character.isISOControl c && !Character.isWhitespace c then
        onCumulated (BufferM.readerIndex ((← get).replayable.buffer.readerIdx - 1))
        pure true
      else skipLoop rounds

def skipControlCharacters : Decode Bool := do skipLoop (← rounds)

def headerTooLarge : Stop := .thrown ⟨.tooLongFrame,
  "HTTP header is larger than " ++ ToString.toString limits.maxHeaderSize ++ " bytes."⟩

/-- The sizes of the header and of the line at the end of the line. -/
def readHeaderLoop : Nat → Int → Int → Decode (Option (Int × Int))
  | 0, _, _ => throw .outOfFuel
  | rounds + 1, headerSize, strSize => do
      let nextByte ← readByte
      if ← needMoreBytes then pure none
      else
        let headerSize := headerSize + 1
        let strSize := strSize + 1
        if nextByte = HttpCodecUtil.CR then
          let nextByte ← readByte
          if ← needMoreBytes then pure none
          else
            let headerSize := headerSize + 1
            if nextByte = HttpCodecUtil.LF then pure (some (headerSize, strSize))
            else if limits.maxHeaderSize ≤ headerSize then throw (headerTooLarge limits)
            else readHeaderLoop rounds headerSize strSize
        else if nextByte = HttpCodecUtil.LF then pure (some (headerSize, strSize))
        else if limits.maxHeaderSize ≤ headerSize then throw (headerTooLarge limits)
        else readHeaderLoop rounds headerSize strSize

/-- A line that is not complete is returned with size zero. -/
def readHeader : Decode FastString := do
  let data ← dataAtReader
  match ← readHeaderLoop limits (← rounds) (← get).fields.headerSize 0 with
  | none => pure ⟨some data, 0⟩
  | some (headerSize, strSize) =>
      let str : FastString := ⟨some data, strSize - 1⟩
      onArray (str.setChar (strSize - 1) 0)
      update fun fields => { fields with headerSize := headerSize }
      pure str

def lineTooLarge (maxLineLength : Int) : Stop := .thrown ⟨.tooLongFrame,
  "An HTTP line is larger than " ++ ToString.toString maxLineLength ++ " bytes."⟩

/-- Whether the line ended, and the characters counted in it. -/
def readLineLoop (maxLineLength : Int) : Nat → Int → Decode (Bool × Int)
  | 0, _ => throw .outOfFuel
  | rounds + 1, size => do
      let nextByte ← readByte
      if ← needMoreBytes then pure (false, size)
      else if nextByte = HttpCodecUtil.CR then
        let nextByte ← readByte
        if ← needMoreBytes then pure (false, size)
        else if nextByte = HttpCodecUtil.LF then pure (true, size)
        else readLineLoop maxLineLength rounds size
      else if nextByte = HttpCodecUtil.LF then pure (true, size)
      else if maxLineLength ≤ size then throw (lineTooLarge maxLineLength)
      else readLineLoop maxLineLength rounds (size + 1)

/-- The size is made one less than the length of the string that has been terminated. -/
def readLine (maxLineLength : Int) : Decode FastString := do
  let data ← dataAtReader
  let (ended, size) ← readLineLoop maxLineLength (← rounds) 0
  let str : FastString := ⟨some data, size⟩
  if ended then
    onArray (str.setChar size 0)
    pure { str with size := size - 1 }
  else pure str

/-- The header that has been read is added when the next line is known not to continue it. -/
def addRead (name value : FastString) (multiValueStr : Text) : Decode Unit := do
  if !name.empty then
    let name ← onArray name.toString
    let value ← if multiValueStr ≠ [] then pure multiValueStr else onArray value.toString
    onMessage fun message => message.addHeader name value

/-- `append(data, size)`. -/
def characters (str : FastString) : Memory Text :=
  (List.range str.size.toNat).mapM fun index => str.char index

/-- Whether the empty line has been reached. -/
def readHeadersLoop : Nat → FastString → FastString → FastString → Text → Decode Bool
  | 0, _, _, _, _ => throw .outOfFuel
  | rounds + 1, line, name, value, multiValueStr =>
      if line.length = 0 then do
        addRead name value multiValueStr
        pure true
      else do
        let firstChar ← onArray (line.at_ 0)
        if !name.empty && FastString.blank firstChar then
          let trimedLine ← onArray line.trim
          let first ← onArray value.toString
          let second ← onArray (characters trimedLine)
          let line ← readHeader limits
          if ← needMoreBytes then pure false
          else readHeadersLoop rounds line name value (first ++ HttpCodecUtil.SP :: second)
        else
          addRead name value multiValueStr
          let (name, value) ← onArray line.splitHeader
          let line ← readHeader limits
          if ← needMoreBytes then pure false
          else readHeadersLoop rounds line name value multiValueStr

def isContentAlwaysEmpty (msg : HttpMessage) : Bool :=
  match msg.start with
  | .response status =>
      status.code < 200 || status.code = 204 || status.code = 205 || status.code = 304
  | .request _ _ => false

def nextState (message : HttpMessage) : Int :=
  if isContentAlwaysEmpty message then SKIP_CONTROL_CHARS
  else if message.isChunked then READ_CHUNK_SIZE
  else if 0 ≤ HttpHeaders.getContentLength message (-1) then READ_FIXED_LENGTH_CONTENT
  else READ_VARIABLE_LENGTH_CONTENT

def readHeaders : Decode Int := do
  let line ← readHeader limits
  update fun fields => { fields with headerSize := 0 }
  if ← needMoreBytes then pure READ_HEADER
  else if ← readHeadersLoop limits (← rounds) line .fresh .fresh [] then
    return nextState (← theMessage)
  else pure READ_HEADER

/-- `equalsIgnoreCase` holds of everything, so that no header is added. -/
def readTrailerLoop : Nat → FastString → FastString → DefaultHttpHeader → Decode DefaultHttpHeader
  | 0, _, _, _ => throw .outOfFuel
  | rounds + 1, line, lastHeader, trailer => do
      let firstChar ← onArray (line.at_ 0)
      let (lastHeader, trailer) ←
        if !lastHeader.empty && FastString.blank firstChar then do
          let current := trailer.gets (← onArray lastHeader.toString)
          if current ≠ [] then
            let _ ← onArray (do (← line.trim).toString)
          pure (lastHeader, trailer)
        else do
          let (name, value) ← onArray line.splitHeader
          if !name.equalsIgnoreCase HttpHeaders.Names.CONTENT_LENGTH &&
              !name.equalsIgnoreCase HttpHeaders.Names.TRANSFER_ENCODING &&
              !name.equalsIgnoreCase (text "Trailer") then
            let added ← call (trailer.add (← onArray name.toString) (← onArray value.toString))
            pure (name, added)
          else pure (name, trailer)
      let line ← readHeader limits
      if line.length = 0 then pure trailer else readTrailerLoop rounds line lastHeader trailer

def readTrailingHeaders : Decode HttpChunk := do
  update fun fields => { fields with headerSize := 0 }
  let line ← readHeader limits
  if line.length = 0 then pure .LAST_CHUNK
  else return .trailer (← readTrailerLoop limits ((← rounds) + 1) line .fresh .fresh)

def readFixedLengthContent : Decode Bool := do
  let length := HttpHeaders.getContentLength (← theMessage) (-1)
  update fun fields => { fields with content := none }
  let content ← readSlice length
  update fun fields => { fields with content := some content }
  return !(← needMoreBytes)

end Lines

section States

variable (limits : HttpLimits) (subclass : HttpSubclass)

def skipState : Decode ChannelMessage := do
  if ← skipControlCharacters then checkpointAt READ_INITIAL else checkpoint
  pure .empty

/-- `createMessage`, which takes no null argument. -/
def createMessage (str1 str2 str3 : FastString) : Decode Unit := do
  if str1.data = none ∨ str2.data = none ∨ str3.data = none then throw subclass.missing
  let first ← onArray str1.toString
  let second ← onArray str2.toString
  let third ← onArray str3.toString
  focus (fun context => context.fields.object)
    (fun context object => { context with fields := { context.fields with object := object } })
    (subclass.createMessage first second third)

def initialState : Decode ChannelMessage := do
  let line ← readLine limits.maxInitialLineLength
  match ← onArray line.splitInitialLine with
  | some (str1 :: str2 :: str3 :: _) =>
      createMessage subclass str1 str2 str3
      update fun fields => { fields with message := true }
      checkpointAt READ_HEADER
      update fun fields => { fields with headerSize := 0 }
      onMessage fun message => pure { message with header := .fresh }
      pure .empty
  | some _ =>
      checkpointAt SKIP_CONTROL_CHARS
      pure .empty
  | none => pure .empty

/-- The message comes first and its content follows in chunks. -/
def announce (state : Int) : Decode ChannelMessage := do
  checkpointAt state
  onMessage fun message => message.setChunked true
  publishMessage

def lengthState (nextState : Int) : Decode ChannelMessage := do
  let contentLength := HttpHeaders.getContentLength (← theMessage) (-1)
  if contentLength = 0 ∨ (contentLength = -1 ∧ subclass.isDecodingRequest = true) then
    update fun fields => { fields with content := some .emptyBuffer }
    publish (← reset)
  else if nextState = READ_FIXED_LENGTH_CONTENT then
    if limits.maxChunkSize < contentLength ∨
        HttpHeaders.is100ContinueExpected (← theMessage) = true then
      checkpointAt READ_FIXED_LENGTH_CONTENT_AS_CHUNKS
      onMessage fun message => message.setChunked true
      let length := HttpHeaders.getContentLength (← theMessage) (-1)
      update fun fields => { fields with chunkSize := length }
      publishMessage
    else pure .empty
  else
    if limits.maxChunkSize < (← get).replayable.readableBytes ∨
        HttpHeaders.is100ContinueExpected (← theMessage) = true then
      announce READ_VARIABLE_LENGTH_CONTENT_AS_CHUNKS
    else pure .empty

def headerState : Decode ChannelMessage := do
  let nextState ← readHeaders limits
  if nextState = READ_HEADER then pure .empty
  else
    checkpointAt nextState
    if nextState = READ_CHUNK_SIZE then
      onMessage fun message => message.setChunked true
      publishMessage
    else if nextState = SKIP_CONTROL_CHARS then
      onMessage fun message =>
        pure { message with header := message.header.remove HttpHeaders.Names.TRANSFER_ENCODING }
      publishMessage
    else lengthState limits subclass nextState

def variableState : Decode ChannelMessage := do
  let content ← readSlice (← get).replayable.readableBytes
  update fun fields => { fields with content := some content }
  if ← needMoreBytes then pure .empty else publish (← reset)

/-- A chunk that ends the content has the last chunk behind it, unless it is one. -/
def publishLast (chunk : HttpChunk) : Decode ChannelMessage := do
  let _ ← reset
  if chunk.isLast then publishChunk chunk
  else
    let first ← publishChunk chunk
    let second ← publishChunk .LAST_CHUNK
    pure (.vector [first, second])

def variableChunksState : Decode ChannelMessage := do
  let buff ← readSlice (min limits.maxChunkSize (← get).replayable.readableBytes)
  if ← needMoreBytes then pure .empty
  else if !(← get).replayable.readable then publishLast (.chunk buff)
  else publishChunk (.chunk buff)

def fixedState : Decode ChannelMessage := do
  if ← readFixedLengthContent then publish (← reset) else pure .empty

/-- The next part of what `chunkSize` still announces, and what is announced behind it. -/
def readPart : Decode (ChannelBuffer × Int) := do
  let chunkSize := (← get).fields.chunkSize
  if limits.maxChunkSize < chunkSize then
    return (← readSlice limits.maxChunkSize, chunkSize - limits.maxChunkSize)
  else return (← readSlice chunkSize, 0)

def fixedChunksState : Decode ChannelMessage := do
  let (buff, chunkSize) ← readPart limits
  if ← needMoreBytes then pure .empty
  else
    update fun fields => { fields with chunkSize := chunkSize }
    if chunkSize = 0 then publishLast (.chunk buff) else publishChunk (.chunk buff)

def chunkSizeState : Decode ChannelMessage := do
  let line ← readLine limits.maxInitialLineLength
  if ← needMoreBytes then pure .empty
  else
    let chunkSize ← onArray (FastString.getChunkSize line)
    update fun fields => { fields with chunkSize := chunkSize }
    if chunkSize = 0 then checkpointAt READ_CHUNK_FOOTER
    else if limits.maxChunkSize < chunkSize then checkpointAt READ_CHUNKED_CONTENT_AS_CHUNKS
    else checkpointAt READ_CHUNKED_CONTENT
    pure .empty

def chunkedState : Decode ChannelMessage := do
  let buff ← readSlice (← get).fields.chunkSize
  if ← needMoreBytes then pure .empty
  else
    checkpointAt READ_CHUNK_DELIMITER
    publishChunk (.chunk buff)

def chunkedChunksState : Decode ChannelMessage := do
  let (buff, chunkSize) ← readPart limits
  if ← needMoreBytes then pure .empty
  else
    update fun fields => { fields with chunkSize := chunkSize }
    if chunkSize = 0 then checkpointAt READ_CHUNK_DELIMITER
    if (HttpChunk.chunk buff).isLast then pure .empty else publishChunk (.chunk buff)

def delimiterLoop : Nat → Decode Unit
  | 0 => throw .outOfFuel
  | rounds + 1 => do
      let next ← readByte
      if ← needMoreBytes then pure ()
      else if next = HttpCodecUtil.CR then
        let next ← readByte
        if next = HttpCodecUtil.LF then checkpointAt READ_CHUNK_SIZE
        else if ← needMoreBytes then pure ()
        else delimiterLoop rounds
      else if next = HttpCodecUtil.LF then checkpointAt READ_CHUNK_SIZE
      else delimiterLoop rounds

def delimiterState : Decode ChannelMessage := do
  delimiterLoop (← rounds)
  pure .empty

def footerState : Decode ChannelMessage := do
  let trailer ← readTrailingHeaders limits
  if limits.maxChunkSize = 0 then publish (← reset)
  else
    let _ ← reset
    publishChunk trailer

def decode (state : Int) : Decode ChannelMessage :=
  if state = SKIP_CONTROL_CHARS then skipState
  else if state = READ_INITIAL then initialState limits subclass
  else if state = READ_HEADER then headerState limits subclass
  else if state = READ_VARIABLE_LENGTH_CONTENT then variableState
  else if state = READ_VARIABLE_LENGTH_CONTENT_AS_CHUNKS then variableChunksState limits
  else if state = READ_FIXED_LENGTH_CONTENT then fixedState
  else if state = READ_FIXED_LENGTH_CONTENT_AS_CHUNKS then fixedChunksState limits
  else if state = READ_CHUNK_SIZE then chunkSizeState limits
  else if state = READ_CHUNKED_CONTENT then chunkedState
  else if state = READ_CHUNKED_CONTENT_AS_CHUNKS then chunkedChunksState limits
  else if state = READ_CHUNK_DELIMITER then delimiterState
  else if state = READ_CHUNK_FOOTER then footerState limits
  else throw (.thrown ⟨.runtime, "Shouldn't reach here."⟩)

def replaying : ReplayingSubclass HttpMessageDecoder :=
  ⟨decode limits subclass, decode limits subclass, subclass.typeName⟩

end States

def fresh : ReplayReception HttpMessageDecoder :=
  ⟨⟨false, true, SKIP_CONTROL_CHARS, -1, none, ⟨0, 0, none, false, none, []⟩⟩, []⟩

/-- What a fired message shows. -/
def shown (published : List HttpObject) : UpstreamEvent → Option HttpObject
  | .messageReceived (.object identity) => published[identity]?
  | _ => none

end HttpMessageDecoder

namespace HttpRequestDecoder

/-- The request is made once, and cleared before it is used again. -/
def createMessage (str1 str2 str3 : Text) : Exec (Option HttpMessage) Unit := do
  match ← get with
  | none =>
      let version ← call (HttpVersion.valueOf str3)
      let method ← call (HttpMethod.valueOf str1)
      set (some (HttpMessage.fresh version (.request method str2)))
  | some request =>
      let cleared (version : HttpVersion) : HttpMessage :=
        match request.start with
        | .request method _ => .again version (.request method [])
        | start => .again version start
      set (some (cleared request.version))
      let version ← call (HttpVersion.valueOf str3)
      set (some (cleared version))
      let method ← call (HttpMethod.valueOf str1)
      set (some (HttpMessage.again version (.request method str2)))

def subclass : HttpSubclass := ⟨createMessage, true, .assertion, "HttpRequestDecoder"⟩

def replaying (limits : HttpLimits) : ReplayingSubclass HttpMessageDecoder :=
  HttpMessageDecoder.replaying limits subclass

end HttpRequestDecoder

namespace HttpResponseDecoder

/-- The response is made with the decoder. -/
def createMessage (str1 str2 str3 : Text) : Exec (Option HttpMessage) Unit := do
  match ← get with
  | none => throw .outOfBounds
  | some response =>
      let cleared (version : HttpVersion) (status : HttpResponseStatus) : HttpMessage :=
        .again version (.response status)
      set (some (cleared response.version HttpResponseStatus.NOT_FOUND))
      let version ← call (HttpVersion.valueOf str1)
      set (some (cleared version HttpResponseStatus.NOT_FOUND))
      let status ← call (HttpResponseStatus.make (Integer.parse str2) str3)
      set (some (cleared version status))

/-- A text made from a null pointer is undefined. -/
def subclass : HttpSubclass := ⟨createMessage, false, .outOfBounds, "HttpResponseDecoder"⟩

def replaying (limits : HttpLimits) : ReplayingSubclass HttpMessageDecoder :=
  HttpMessageDecoder.replaying limits subclass

/-- The response of the default constructor. -/
def response : HttpMessage :=
  .fresh HttpVersion.HTTP_1_1 (.response HttpResponseStatus.NOT_FOUND)

def fresh : ReplayReception HttpMessageDecoder :=
  ⟨⟨false, true, HttpMessageDecoder.SKIP_CONTROL_CHARS, -1, none,
    ⟨0, 0, some response, false, none, []⟩⟩, []⟩

end HttpResponseDecoder

end Cetty
