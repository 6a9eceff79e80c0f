import CheetahMedia.Lib.Words

namespace CheetahMedia.Rtsp
open Lib

inductive SdpError
  | missingRequiredField (field : String)
  | invalidOrigin (value : Text)
  | invalidConnection (value : Text)
  | invalidBandwidth (value : Text)
  | invalidTiming (value : Text)
  | invalidMedia (value : Text)
  | invalidAttribute (name : String) (value : Text)
  | invalidNumber (field : String) (value : Text)
deriving DecidableEq

/-- The floating point numbers that frame rates are, with the texts that stand for them: a number
is written as a word, and what is written is read as the same number. -/
structure FrameRates (F : Type) where
  parse : Text → Option F
  print : F → Text
  word : ∀ x, Text.Word (print x)
  parse_print : ∀ t x, parse t = some x → parse (print x) = some x

structure SdpOrigin where
  username : Text
  sessionId : Text
  sessionVersion : Text
  netType : Text
  addrType : Text
  address : Text
deriving DecidableEq

structure SdpConnection where
  netType : Text
  addrType : Text
  address : Text
deriving DecidableEq

structure SdpBandwidth where
  bwtype : Text
  bandwidth : UInt64
deriving DecidableEq

structure SdpTiming where
  start : UInt64
  stop : UInt64
deriving DecidableEq

inductive SdpAttribute (F : Type)
  | rtpmap (payloadType : UInt8) (encoding : Text) (clockRate : UInt32)
      (encodingParams : Option Text)
  | fmtp (payloadType : UInt8) (parameters : Text)
  | control (url : Text)
  | range (range : Text)
  | recvonly
  | sendrecv
  | sendonly
  | inactive
  | framerate (fps : F)
  | tool (name : Text)
  | type (mediaType : Text)
  | charset (charset : Text)
  | sdplang (lang : Text)
  | lang (lang : Text)
  | custom (name : Text) (value : Option Text)
deriving DecidableEq

structure SdpMedia (F : Type) where
  mediaType : Text
  port : UInt16
  numPorts : Option UInt16
  protocol : Text
  formats : List Text
  title : Option Text := none
  connection : Option SdpConnection := none
  bandwidth : List SdpBandwidth := []
  attributes : List (SdpAttribute F) := []
deriving DecidableEq

structure Sdp (F : Type) where
  version : UInt8
  origin : SdpOrigin
  sessionName : Text
  sessionInfo : Option Text
  uri : Option Text
  email : Option Text
  phone : Option Text
  connection : Option SdpConnection
  bandwidth : List SdpBandwidth
  timing : SdpTiming
  attributes : List (SdpAttribute F)
  media : List (SdpMedia F)
deriving DecidableEq

namespace Sdp
variable {F : Type} (rates : FrameRates F)

section FieldParsers

def parseNumber (width : Nat) (field : String) (value : Text) : Except SdpError Nat :=
  match Text.parseUnsigned width value with
  | some n => .ok n
  | none => .error (.invalidNumber field value)

def parseU8 (field : String) (value : Text) : Except SdpError UInt8 :=
  (parseNumber 8 field value).map UInt8.ofNat

def parseU16 (field : String) (value : Text) : Except SdpError UInt16 :=
  (parseNumber 16 field value).map UInt16.ofNat

def parseU32 (field : String) (value : Text) : Except SdpError UInt32 :=
  (parseNumber 32 field value).map UInt32.ofNat

def parseU64 (field : String) (value : Text) : Except SdpError UInt64 :=
  (parseNumber 64 field value).map UInt64.ofNat

def parseF64 (field : String) (value : Text) : Except SdpError F :=
  match rates.parse value with
  | some x => .ok x
  | none => .error (.invalidNumber field value)

def parseOrigin (value : Text) : Except SdpError SdpOrigin :=
  match Text.splitWhitespace value with
  | [username, sessionId, sessionVersion, netType, addrType, address] =>
    .ok { username, sessionId, sessionVersion, netType, addrType, address }
  | _ => .error (.invalidOrigin value)

def parseConnection (value : Text) : Except SdpError SdpConnection :=
  match Text.splitWhitespace value with
  | [netType, addrType, address] => .ok { netType, addrType, address }
  | _ => .error (.invalidConnection value)

def parseBandwidth (value : Text) : Except SdpError SdpBandwidth :=
  match Text.splitOnce ':' value with
  | some (bwtype, bandwidth) => do
    let bandwidth ← parseU64 "bandwidth" bandwidth
    .ok { bwtype, bandwidth }
  | none => .error (.invalidBandwidth value)

def parseTiming (value : Text) : Except SdpError SdpTiming :=
  match Text.splitWhitespace value with
  | [start, stop] => do
    let start ← parseU64 "timing.start" start
    let stop ← parseU64 "timing.stop" stop
    .ok { start, stop }
  | _ => .error (.invalidTiming value)

/-- `payload_type encoding/clock_rate[/params]`; parts behind these are not looked at. -/
def parseRtpmapAttribute (fullValue attrValue : Text) : Except SdpError (SdpAttribute F) :=
  match Text.splitOnce ' ' attrValue with
  | some (payloadType, encodingPart) => do
    let payloadType ← parseU8 "attribute.rtpmap.payload_type" payloadType
    match encodingPart.splitOn '/' with
    | encoding :: clockRate :: params => do
      let clockRate ← parseU32 "attribute.rtpmap.clock_rate" clockRate
      .ok (.rtpmap payloadType encoding clockRate params.head?)
    | _ => .error (.invalidAttribute "rtpmap" fullValue)
  | none => .error (.invalidAttribute "rtpmap" fullValue)

def parseFmtpAttribute (fullValue attrValue : Text) : Except SdpError (SdpAttribute F) :=
  match Text.splitOnce ' ' attrValue with
  | some (payloadType, parameters) => do
    let payloadType ← parseU8 "attribute.fmtp.payload_type" payloadType
    .ok (.fmtp payloadType parameters)
  | none => .error (.invalidAttribute "fmtp" fullValue)

/-- An attribute with a value. -/
def parseValueAttribute (fullValue name attrValue : Text) : Except SdpError (SdpAttribute F) :=
  if name = "rtpmap".toList then parseRtpmapAttribute fullValue attrValue
  else if name = "fmtp".toList then parseFmtpAttribute fullValue attrValue
  else if name = "control".toList then .ok (.control attrValue)
  else if name = "range".toList then .ok (.range attrValue)
  else if name = "framerate".toList then
    (parseF64 rates "attribute.framerate" attrValue).map .framerate
  else if name = "tool".toList then .ok (.tool attrValue)
  else if name = "type".toList then .ok (.type attrValue)
  else if name = "charset".toList then .ok (.charset attrValue)
  else if name = "sdplang".toList then .ok (.sdplang attrValue)
  else if name = "lang".toList then .ok (.lang attrValue)
  else .ok (.custom name (some attrValue))

/-- An attribute without a value. -/
def parseFlagAttribute (value : Text) : SdpAttribute F :=
  if value = "recvonly".toList then .recvonly
  else if value = "sendrecv".toList then .sendrecv
  else if value = "sendonly".toList then .sendonly
  else if value = "inactive".toList then .inactive
  else .custom value none

def parseAttribute (value : Text) : Except SdpError (SdpAttribute F) :=
  match Text.splitOnce ':' value with
  | some (name, attrValue) => parseValueAttribute rates value name attrValue
  | none => .ok (parseFlagAttribute value)

/-- A port, or `port/num_ports`. -/
def parsePorts (value : Text) : Except SdpError (UInt16 × Option UInt16) :=
  match Text.splitOnce '/' value with
  | some (port, numPorts) => do
    let port ← parseU16 "media.port" port
    let numPorts ← parseU16 "media.num_ports" numPorts
    .ok (port, some numPorts)
  | none => (parseU16 "media.port" value).map (·, none)

def parseMedia (value : Text) : Except SdpError (SdpMedia F) :=
  match Text.splitWhitespace value with
  | mediaType :: ports :: protocol :: format :: formats => do
    let (port, numPorts) ← parsePorts ports
    .ok { mediaType, port, numPorts, protocol, formats := format :: formats }
  | _ => .error (.invalidMedia value)

end FieldParsers

/-- What is read so far. A line belongs to the media section that was begun last, if there is one. -/
structure Reading (F : Type) where
  version : Option UInt8 := none
  origin : Option SdpOrigin := none
  sessionName : Option Text := none
  sessionInfo : Option Text := none
  uri : Option Text := none
  email : Option Text := none
  phone : Option Text := none
  connection : Option SdpConnection := none
  bandwidth : List SdpBandwidth := []
  timing : Option SdpTiming := none
  attributes : List (SdpAttribute F) := []
  media : List (SdpMedia F) := []
  currentMedia : Option (SdpMedia F) := none

namespace Reading

def setInfo (r : Reading F) (info : Text) : Reading F :=
  match r.currentMedia with
  | some media => { r with currentMedia := some { media with title := some info } }
  | none => { r with sessionInfo := some info }

def setConnection (r : Reading F) (connection : SdpConnection) : Reading F :=
  match r.currentMedia with
  | some media => { r with currentMedia := some { media with connection := some connection } }
  | none => { r with connection := some connection }

def addBandwidth (r : Reading F) (bandwidth : SdpBandwidth) : Reading F :=
  match r.currentMedia with
  | some media =>
    { r with currentMedia := some { media with bandwidth := media.bandwidth ++ [bandwidth] } }
  | none => { r with bandwidth := r.bandwidth ++ [bandwidth] }

def addAttribute (r : Reading F) (attr : SdpAttribute F) : Reading F :=
  match r.currentMedia with
  | some media =>
    { r with currentMedia := some { media with attributes := media.attributes ++ [attr] } }
  | none => { r with attributes := r.attributes ++ [attr] }

/-- The media section that was begun last is complete. -/
def closeMedia (r : Reading F) : Reading F :=
  { r with media := r.media ++ r.currentMedia.toList, currentMedia := none }

def beginMedia (r : Reading F) (media : SdpMedia F) : Reading F :=
  { r.closeMedia with currentMedia := some media }

/-- One field; those of other types are passed over. -/
def field (r : Reading F) (value : Text) : Char → Except SdpError (Reading F)
  | 'v' => (parseU8 "version" value).map fun version => { r with version := some version }
  | 'o' => (parseOrigin value).map fun origin => { r with origin := some origin }
  | 's' => .ok { r with sessionName := some value }
  | 'i' => .ok (r.setInfo value)
  | 'u' => .ok { r with uri := some value }
  | 'e' => .ok { r with email := some value }
  | 'p' => .ok { r with phone := some value }
  | 'c' => (parseConnection value).map r.setConnection
  | 'b' => (parseBandwidth value).map r.addBandwidth
  | 't' => (parseTiming value).map fun timing => { r with timing := some timing }
  | 'a' => (parseAttribute rates value).map r.addAttribute
  | 'm' => (parseMedia value).map r.beginMedia
  | _ => .ok r

/-- One line; what is no field is passed over. -/
def line (r : Reading F) (rawLine : Text) : Except SdpError (Reading F) :=
  match Text.trim rawLine with
  | fieldType :: '=' :: value => if fieldType.isAlpha then r.field rates value fieldType else .ok r
  | _ => .ok r

def finish (r : Reading F) : Except SdpError (Sdp F) :=
  let r := r.closeMedia
  match r.origin, r.sessionName, r.timing with
  | none, _, _ => .error (.missingRequiredField "o")
  | some _, none, _ => .error (.missingRequiredField "s")
  | some _, some _, none => .error (.missingRequiredField "t")
  | some origin, some sessionName, some timing =>
    .ok {
      version := r.version.getD 0
      origin := origin
      sessionName := sessionName
      sessionInfo := r.sessionInfo
      uri := r.uri
      email := r.email
      phone := r.phone
      connection := r.connection
      bandwidth := r.bandwidth
      timing := timing
      attributes := r.attributes
      media := r.media }

end Reading

def parse (text : Text) : Except SdpError (Sdp F) := do
  let r ← (Text.lines text).foldlM (Reading.line rates) {}
  r.finish

end Sdp

def fmtField (fieldType : Char) (value : Text) : Text := fieldType :: '=' :: value

def SdpOrigin.fmt (o : SdpOrigin) : Text :=
  Text.unwords [o.username, o.sessionId, o.sessionVersion, o.netType, o.addrType, o.address]

def SdpConnection.fmt (c : SdpConnection) : Text :=
  Text.unwords [c.netType, c.addrType, c.address]

def SdpBandwidth.fmt (b : SdpBandwidth) : Text :=
  b.bwtype ++ ':' :: Text.decimal b.bandwidth.toNat

def SdpTiming.fmt (t : SdpTiming) : Text :=
  Text.unwords [Text.decimal t.start.toNat, Text.decimal t.stop.toNat]

/-- An attribute's name with its value. -/
def fmtValue (name : String) (value : Text) : Text := name.toList ++ ':' :: value

def fmtAttribute (rates : FrameRates F) : SdpAttribute F → Text
  | .rtpmap payloadType encoding clockRate encodingParams =>
    fmtValue "rtpmap" (Text.decimal payloadType.toNat ++ ' ' :: (encoding ++
      '/' :: (Text.decimal clockRate.toNat ++ encodingParams.elim [] ('/' :: ·))))
  | .fmtp payloadType parameters =>
    fmtValue "fmtp" (Text.decimal payloadType.toNat ++ ' ' :: parameters)
  | .control url => fmtValue "control" url
  | .range range => fmtValue "range" range
  | .recvonly => "recvonly".toList
  | .sendrecv => "sendrecv".toList
  | .sendonly => "sendonly".toList
  | .inactive => "inactive".toList
  | .framerate fps => fmtValue "framerate" (rates.print fps)
  | .tool name => fmtValue "tool" name
  | .type mediaType => fmtValue "type" mediaType
  | .charset charset => fmtValue "charset" charset
  | .sdplang lang => fmtValue "sdplang" lang
  | .lang lang => fmtValue "lang" lang
  | .custom name none => name
  | .custom name (some value) => name ++ ':' :: value

def fmtPorts (port : UInt16) (numPorts : Option UInt16) : Text :=
  Text.decimal port.toNat ++ numPorts.elim [] fun numPorts => '/' :: Text.decimal numPorts.toNat

def SdpMedia.fmt (m : SdpMedia F) : Text :=
  Text.unwords ([m.mediaType, fmtPorts m.port m.numPorts, m.protocol] ++ m.formats)

/-- The lines of a media section. -/
def SdpMedia.fmtLines (rates : FrameRates F) (m : SdpMedia F) : List Text :=
  [fmtField 'm' m.fmt] ++ m.title.toList.map (fmtField 'i') ++
    m.connection.toList.map (fmtField 'c' ·.fmt) ++ m.bandwidth.map (fmtField 'b' ·.fmt) ++
    m.attributes.map (fmtField 'a' <| fmtAttribute rates ·)

namespace Sdp

/-- The lines above the media sections. -/
def fmtSession (rates : FrameRates F) (s : Sdp F) : List Text :=
  [fmtField 'v' (Text.decimal s.version.toNat), fmtField 'o' s.origin.fmt,
    fmtField 's' s.sessionName] ++
    s.sessionInfo.toList.map (fmtField 'i') ++ s.uri.toList.map (fmtField 'u') ++
    s.email.toList.map (fmtField 'e') ++ s.phone.toList.map (fmtField 'p') ++
    s.connection.toList.map (fmtField 'c' ·.fmt) ++ s.bandwidth.map (fmtField 'b' ·.fmt) ++
    [fmtField 't' s.timing.fmt] ++ s.attributes.map (fmtField 'a' <| fmtAttribute rates ·)

/-- How a description is displayed. -/
def fmt (rates : FrameRates F) (s : Sdp F) : Text :=
  Text.unlines (s.fmtSession rates ++ s.media.flatMap (·.fmtLines rates))

end Sdp

end CheetahMedia.Rtsp
