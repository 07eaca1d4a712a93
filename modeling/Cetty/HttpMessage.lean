import Cetty.ChannelBuffer
import Cetty.HttpHeader

/-!
# HTTP messages

A method and a version are values that their constructors accept. A message is what its object
holds; the content is missing only between `clear` and the next `setContent`.
-/

namespace Cetty

open CLocale MachineInt

namespace Integer

/-- `atoi`, which casts a `long` to an `int`. -/
def parse (s : Text) : Int := int32 (strtol s)

end Integer

/-- The characters of a method name: upper case, no control character and no blank. -/
def properName (name : Text) : Bool :=
  !name.isEmpty && toUpper name == name &&
    name.all fun c => !Character.isISOControl c && !Character.isWhitespace c

structure HttpMethod where
  name : Text
  proper : properName name = true
  deriving DecidableEq, Repr

namespace HttpMethod

/-- The constructor. -/
def make (name : Text) : Except Stop HttpMethod :=
  let name := toUpper (trim name)
  if name = [] then throw (invalidArgumentException "empty name")
  else if proper : properName name = true then pure ⟨name, proper⟩
  else throw (invalidArgumentException "invalid character in name")

def HM_OPTIONS : HttpMethod := ⟨text "OPTIONS", by decide⟩

def HM_GET : HttpMethod := ⟨text "GET", by decide⟩

def HM_HEAD : HttpMethod := ⟨text "HEAD", by decide⟩

def HM_POST : HttpMethod := ⟨text "POST", by decide⟩

def HM_PUT : HttpMethod := ⟨text "PUT", by decide⟩

def HM_PATCH : HttpMethod := ⟨text "PATCH", by decide⟩

def HM_DELETE : HttpMethod := ⟨text "DELETE", by decide⟩

def HM_TRACE : HttpMethod := ⟨text "TRACE", by decide⟩

def HM_CONNECT : HttpMethod := ⟨text "CONNECT", by decide⟩

def HTTP_METHODS : List HttpMethod :=
  [HM_OPTIONS, HM_GET, HM_HEAD, HM_POST, HM_PUT, HM_PATCH, HM_DELETE, HM_TRACE, HM_CONNECT]

def getHttpMethod (name : Text) : Option HttpMethod :=
  HTTP_METHODS.find? fun method => name == method.name

def valueOf (name : Text) : Except Stop HttpMethod :=
  if toUpper (trim name) = [] then throw (invalidArgumentException "empty name")
  else
    match getHttpMethod name with
    | some result => pure result
    | none => make name

end HttpMethod

structure HttpVersion where
  keepAliveDefault : Bool
  majorVersion : Int
  minorVersion : Int
  protocolName : Text
  text : Text
  deriving DecidableEq, Repr

namespace HttpVersion

def HTTP_1_0 : HttpVersion := ⟨false, 1, 0, CLocale.text "HTTP", CLocale.text "HTTP/1.0"⟩

def HTTP_1_1 : HttpVersion := ⟨true, 1, 1, CLocale.text "HTTP", CLocale.text "HTTP/1.1"⟩

/-- `std::string::find` of a character from a position on. -/
def find (characters : Text) (c : BitVec 8) (position : Nat) : Option Nat :=
  ((characters.drop position).findIdx? (· == c)).map (position + ·)

def verifyProtocl (protocolName : Text) : Bool :=
  protocolName.all fun c => !Character.isISOControl c && !Character.isWhitespace c

def verifyVersion (version : Text) : Bool := version.all Character.isDigit

/-- The second search has its arguments exchanged: it looks for the character that has the position
of the slash for its code, from position 46, the code of the dot, on. -/
def match_ (version : Text) : Option (Text × Text × Text) := do
  let slashPos ← find version 47 0
  let protocol := version.take slashPos
  if !verifyProtocl protocol then none
  let dotPos ← find version (BitVec.ofNat 8 slashPos) 46
  let major := (version.drop (slashPos + 1)).take dotPos
  let minor := version.drop (dotPos + 1)
  if !verifyVersion major || !verifyVersion minor then none
  pure (protocol, major, minor)

/-- The constructor from a text. -/
def make (text : Text) (keepAliveDefault : Bool) : Except Stop HttpVersion :=
  let version := toUpper (trim text)
  if version = [] then throw (invalidArgumentException "empty text")
  else
    match match_ version with
    | none => throw (invalidArgumentException ("invalid version format: " ++ display text))
    | some (protocol, major, minor) =>
        pure ⟨keepAliveDefault, Integer.parse major, Integer.parse minor, protocol,
          protocol ++ CLocale.text "/" ++ major ++ CLocale.text "." ++ minor⟩

def valueOf (text : Text) : Except Stop HttpVersion :=
  let version := toUpper (trim text)
  if version = HTTP_1_1.text then pure HTTP_1_1
  else if version = HTTP_1_0.text then pure HTTP_1_0
  else make version true

/-- `std::string::compare`, which compares the characters without a sign. -/
def compareText : Text → Text → Int
  | [], [] => 0
  | [], _ :: _ => -1
  | _ :: _, [] => 1
  | a :: as, b :: bs =>
      if a.toNat < b.toNat then -1 else if b.toNat < a.toNat then 1 else compareText as bs

def compareTo (this version : HttpVersion) : Int :=
  let v := compareText this.protocolName version.protocolName
  if v ≠ 0 then v
  else
    let v := int32 (this.majorVersion - version.majorVersion)
    if v ≠ 0 then v else int32 (this.minorVersion - version.minorVersion)

end HttpVersion

structure HttpResponseStatus where
  code : Int
  reasonPhrase : Text
  deriving DecidableEq, Repr

namespace HttpResponseStatus

def NOT_FOUND : HttpResponseStatus := ⟨404, text "Not Found"⟩

/-- The constructor. -/
def make (code : Int) (reasonPhrase : Text) : Except Stop HttpResponseStatus :=
  if code < 0 then throw (invalidArgumentException "code: < 0 (expected: 0+)")
  else if reasonPhrase.any fun c => c = 10 || c = 13 then
    throw (invalidArgumentException
      "reasonPhrase contains one of the following prohibited characters: \\r\\n.")
  else pure ⟨code, reasonPhrase⟩

end HttpResponseStatus

/-- What a request has and what a response has. -/
inductive HttpStart where
  | request (method : HttpMethod) (uri : Text)
  | response (status : HttpResponseStatus)
  deriving DecidableEq, Repr

structure HttpMessage where
  chunked : Bool
  version : HttpVersion
  header : DefaultHttpHeader
  content : Option ChannelBuffer
  start : HttpStart

namespace HttpCodecUtil

def isTransferEncodingChunked (header : DefaultHttpHeader) : Bool :=
  (header.gets HttpHeaders.Names.TRANSFER_ENCODING).any fun value =>
    iequals HttpHeaders.Values.CHUNKED value

end HttpCodecUtil

namespace HttpMessage

/-- The constructor of the default message. -/
def fresh (version : HttpVersion) (start : HttpStart) : HttpMessage :=
  ⟨false, version, .fresh, some .emptyBuffer, start⟩

/-- `clear`, and the members set after it. -/
def again (version : HttpVersion) (start : HttpStart) : HttpMessage :=
  ⟨false, version, .fresh, none, start⟩

def isChunked (this : HttpMessage) : Bool :=
  this.chunked || HttpCodecUtil.isTransferEncodingChunked this.header

def setContent (this : HttpMessage) (content : ChannelBuffer) : Except Stop HttpMessage :=
  if content.readable && this.isChunked then
    throw (invalidArgumentException "non-empty content disallowed if this.chunked == true")
  else pure { this with content := some content }

def setChunked (this : HttpMessage) (chunked : Bool) : Except Stop HttpMessage :=
  if chunked then { this with chunked := chunked }.setContent .emptyBuffer
  else pure { this with chunked := chunked }

def addHeader (this : HttpMessage) (name value : Text) : Except Stop HttpMessage := do
  pure { this with header := ← this.header.add name value }

end HttpMessage

namespace HttpHeaders

/-- WebSocket messages have constant content lengths. -/
def getContentLength (message : HttpMessage) (defaultValue : Int) : Int :=
  let contentLength := message.header.get Names.CONTENT_LENGTH
  if contentLength ≠ [] then Integer.parse contentLength
  else
    match message.start with
    | .request method _ =>
        if HttpMethod.HM_GET.name = method.name ∧ message.header.contains Names.SEC_WEBSOCKET_KEY1 = true ∧
            message.header.contains Names.SEC_WEBSOCKET_KEY2 = true then 8
        else defaultValue
    | .response status =>
        if status.code = 101 ∧ message.header.contains Names.SEC_WEBSOCKET_ORIGIN = true ∧
            message.header.contains Names.SEC_WEBSOCKET_LOCATION = true then 16
        else defaultValue

def is100ContinueExpected (message : HttpMessage) : Bool :=
  match message.start with
  | .request _ _ =>
      if message.version.compareTo HttpVersion.HTTP_1_1 < 0 then false
      else if message.header.get Names.EXPECT = [] then false
      else if iequals Values.CONTINUE (message.header.get Names.EXPECT) then true
      else (message.header.gets Names.EXPECT).any fun value => iequals Values.CONTINUE value
  | .response _ => false

end HttpHeaders

/-- A chunk, or a trailer with its headers. -/
inductive HttpChunk where
  | chunk (content : ChannelBuffer)
  | trailer (header : DefaultHttpHeader)

namespace HttpChunk

def isLast : HttpChunk → Bool
  | chunk content => !content.readable
  | trailer _ => true

/-- The shared trailer without headers. -/
def LAST_CHUNK : HttpChunk := .trailer .fresh

end HttpChunk

end Cetty
