import Cetty.BufferFactories
import Cetty.DynamicQueue
import Cetty.HttpChunkAggregator

/-!
# The HTTP encoder

The encoder remembers whether the message before was chunked. Its buffers for a line break and for
the last chunk are shared by all encoders; those of a composite buffer are slices, so only the
buffer of the last chunk is handed out itself.
-/

namespace Cetty

open CLocale MachineInt

namespace Integer

/-- `appendHex`, which prints with `%X`. -/
def appendHex (value : Int) : Text :=
  (Nat.toDigits 16 (value % 4294967296).toNat).map fun c => BitVec.ofNat 8 c.toUpper.toNat

end Integer

namespace ChannelBuffers

open ChannelBuffer

/-- `wrappedBuffer(buffer0, buffer1, buffer2, buffer3)`. -/
def wrappedFourBuffers (buffer0 buffer1 buffer2 buffer3 : ChannelBuffer) :
    Except Stop ChannelBuffer :=
  match [buffer0, buffer1, buffer2, buffer3].filter readable with
  | [] => pure emptyBuffer
  | buffers => wrappedBuffers buffers

/-- What a buffer is after it has been written to. -/
def writtenTo (program : BufferM Unit) (buffer : ChannelBuffer) : Except Stop ChannelBuffer :=
  match program.run buffer with
  | .ok _ after => .ok after
  | .error stop _ => .error stop

end ChannelBuffers

/-- The two kinds of encoder. -/
inductive HttpEncoding where
  | request
  | response
  deriving DecidableEq, Repr

/-- What `encode` returns: a buffer, the shared buffer of the last chunk, the empty message or the
message it has been given. -/
inductive Encoded where
  | buffer (buffer : ChannelBuffer)
  | LAST_CHUNK
  | EMPTY_MESSAGE
  | unknown

namespace HttpMessageEncoder

open ChannelBuffers

def LAST_CHUNK : ChannelBuffer := wrappedBuffer .big (some (text "0\r\n\r\n"))

def LINE_BREAK : ChannelBuffer :=
  wrappedBuffer .big (some [HttpCodecUtil.CR, HttpCodecUtil.LF])

/-- `writeBytes(const std::string&)`. -/
def writeText (characters : Text) : BufferM Unit :=
  BufferM.writeFrom (Getters.heap .big characters) 0 (int32 characters.length)

def writeByte (c : BitVec 8) : BufferM Unit := BufferM.writeTyped (.byte (c.setWidth 32))

def encodeHeader (header value : Text) : Text :=
  header ++ HttpCodecUtil.COLON :: HttpCodecUtil.SP ::
    (value ++ [HttpCodecUtil.CR, HttpCodecUtil.LF])

def encodeHeaders (headers : List (Text × Text)) : Text :=
  headers.flatMap fun header => encodeHeader header.1 header.2

/-- `encodeHeader`, which writes the bytes above. -/
def writeHeader (header value : Text) : BufferM Unit := do
  writeText header
  writeByte HttpCodecUtil.COLON
  writeByte HttpCodecUtil.SP
  writeText value
  writeByte HttpCodecUtil.CR
  writeByte HttpCodecUtil.LF

/-- `encodeHeaders`. -/
def writeHeaders : List (Text × Text) → BufferM Unit
  | [] => pure ()
  | header :: rest => do
      writeHeader header.1 header.2
      writeHeaders rest

def encodeInitialLine : HttpEncoding → HttpMessage → BufferM Unit
  | .request, message =>
      match message.start with
      | .request method uri => do
          writeText method.name
          writeByte HttpCodecUtil.SP
          writeText uri
          writeByte HttpCodecUtil.SP
          writeText message.version.text
          writeByte HttpCodecUtil.CR
          writeByte HttpCodecUtil.LF
      | .response _ => throw (.thrown ⟨.runtime, "message must be HttpRequest"⟩)
  | .response, message =>
      match message.start with
      | .request _ _ => throw (.thrown ⟨.runtime, "message must be HttpResponse"⟩)
      | .response status => do
          writeText message.version.text
          writeByte HttpCodecUtil.SP
          writeText (DefaultHttpHeader.decimal status.code)
          writeByte HttpCodecUtil.SP
          writeText status.reasonPhrase
          writeByte HttpCodecUtil.CR
          writeByte HttpCodecUtil.LF

def writeHead (encoding : HttpEncoding) (message : HttpMessage) : BufferM Unit := do
  encodeInitialLine encoding message
  writeHeaders message.header.getAll
  writeByte HttpCodecUtil.CR
  writeByte HttpCodecUtil.LF

def writeTrailer (header : DefaultHttpHeader) : BufferM Unit := do
  writeByte 48
  writeByte HttpCodecUtil.CR
  writeByte HttpCodecUtil.LF
  writeHeaders header.getAll
  writeByte HttpCodecUtil.CR
  writeByte HttpCodecUtil.LF

def encodeMessage (encoding : HttpEncoding) (factory : ByteOrder) (message : HttpMessage) :
    Exec Bool Encoded := do
  let chunked := HttpCodecUtil.isTransferEncodingChunked message.header
  set chunked
  let header ← call (dynamicBuffer factory)
  let header ← call (writtenTo (writeHead encoding message) header)
  match message.content with
  | none => throw .outOfBounds
  | some content =>
      if !content.readable then pure (.buffer header)
      else if chunked then
        throw (invalidArgumentException
          "HttpMessage.content must be empty if Transfer-Encoding is chunked.")
      else
        let buffer ← call (wrappedTwoBuffers header content)
        pure (.buffer buffer)

def encodeChunk (factory : ByteOrder) (chunk : HttpChunk) : Exec Bool Encoded := do
  if ← get then
    if chunk.isLast then
      set false
      match chunk with
      | .trailer header =>
          let trailer ← call (makeDynamic factory factory 1024)
          let trailer ← call (writtenTo (writeTrailer header) trailer)
          pure (.buffer trailer)
      | .chunk _ => pure .LAST_CHUNK
    else
      let content := chunk.getContent
      let contentLength := content.readableBytes
      let buffer ← call (wrappedFourBuffers
        (copiedBuffer .big (some (Integer.appendHex contentLength))) LINE_BREAK content LINE_BREAK)
      pure (.buffer buffer)
  else if chunk.isLast then pure .EMPTY_MESSAGE
  else pure (.buffer chunk.getContent)

/-- A pointer to a message is asked for under the three types of a message, a chunk only as a
pointer to a chunk. -/
def encode (encoding : HttpEncoding) (factory : ByteOrder) (msg : HttpHeld) : Exec Bool Encoded :=
  match msg with
  | .httpMessage message => encodeMessage encoding factory message
  | .httpChunk chunk => encodeChunk factory chunk
  | .httpChunkTrailer _ => pure .unknown
  | .other => pure .unknown

end HttpMessageEncoder

end Cetty
