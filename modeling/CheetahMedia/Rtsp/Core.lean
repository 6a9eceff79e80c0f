import CheetahMedia.Lib.Endian
import CheetahMedia.Rtsp.Message

namespace CheetahMedia.Rtsp
open Lib

inductive RtspMethod
  | get | post | options | describe | announce | setup | play | pause | teardown
  | getParameter | setParameter | redirect | record
  | extension (value : Text)
deriving DecidableEq

def RtspMethod.standard : List (String × RtspMethod) :=
  [("GET", .get), ("POST", .post), ("OPTIONS", .options), ("DESCRIBE", .describe),
    ("ANNOUNCE", .announce), ("SETUP", .setup), ("PLAY", .play), ("PAUSE", .pause),
    ("TEARDOWN", .teardown), ("GET_PARAMETER", .getParameter), ("SET_PARAMETER", .setParameter),
    ("REDIRECT", .redirect), ("RECORD", .record)]

def RtspMethod.parse (value : Text) : RtspMethod :=
  ((standard.find? fun (name, _) => name.toList = value).map (·.2)).getD (.extension value)

structure RtspRequest where
  method : RtspMethod
  uri : Text
  version : Text
  headers : List RtspHeader
  body : Bytes
  cseq : Option Nat
  session : Option Text
deriving DecidableEq

def headerValue (headers : List RtspHeader) (name : Text) : Option Text :=
  (headers.find? fun h => Text.eqIgnoreAsciiCase h.name name).map (·.value)

def intoRtspRequest (request : RtspRequestMessage) : RtspRequest where
  method := RtspMethod.parse request.method
  uri := request.uri
  version := request.version
  headers := request.headers
  body := request.body
  cseq := (headerValue request.headers "cseq".toList).bind (Text.parseUnsigned 32)
  session := headerValue request.headers "session".toList

structure RtspInterleavedFrameHeader where
  channel : UInt8
  payloadLen : Nat
  totalLen : Nat

def parseInterleavedFrame : Bytes → Option RtspInterleavedFrameHeader
  | 0x24 :: channel :: high :: low :: _ =>
    let payloadLen := fromBigEndian [high, low]
    some { channel, payloadLen, totalLen := 4 + payloadLen }
  | _ => none

structure ParsedInterleavedFrame where
  channel : UInt8
  payload : Bytes

def tryParseFrame (maxFrameSize : Nat) (buffer : Bytes) :
    Except RtspCoreError (Option ParsedInterleavedFrame) × Bytes :=
  match parseInterleavedFrame buffer with
  | none => (.ok none, buffer)
  | some header =>
    if header.payloadLen > maxFrameSize then
      (.error (.interleavedFrameSizeLimitExceeded maxFrameSize header.payloadLen), buffer)
    else if buffer.length < header.totalLen then (.ok none, buffer)
    else (.ok (some { channel := header.channel, payload := (buffer.take header.totalLen).drop 4 }),
      buffer.drop header.totalLen)

def encodeFrame (channel : UInt8) (payload : Bytes) : Except RtspCoreError Bytes :=
  if payload.length > 0xFFFF then .error (.interleavedPayloadTooLarge payload.length)
  else .ok (0x24 :: channel :: toBigEndian 2 payload.length ++ payload)

inductive RtspEvent
  | request (request : RtspRequest)
  | interleavedFrame (channel : UInt8) (payload : Bytes)
  | peerClosed
deriving DecidableEq

inductive RtspCommand
  | sendResponse (cseq : Option UInt32) (statusCode : UInt16) (reason : Text)
      (headers : List (Text × Text)) (body : Bytes)
  | sendInterleaved (channel : UInt8) (payload : Bytes)
  | close

inductive CoreInput
  | bytes (bytes : Bytes)
  | command (command : RtspCommand)
  | peerClosed

inductive CoreOutput
  | write (bytes : Bytes)
  | event (event : RtspEvent)
  | close

def CoreOutput.event? : CoreOutput → Option RtspEvent
  | .event e => some e
  | _ => none

structure RtspCore where
  buffer : Bytes := []
  closed : Bool := false
  limits : RtspMessageLimits

namespace RtspCore

/-- The loop of `drain_messages`; a round takes at least a byte from the buffer or ends it. -/
def drainWithin (limits : RtspMessageLimits) :
    Nat → Bytes → List CoreOutput → Except RtspCoreError (List CoreOutput) × Bytes
  | 0, buffer, out => (.ok out, buffer)
  | fuel + 1, buffer, out =>
    match buffer.head? with
    | none => (.ok out, buffer)
    | some first =>
      if first = 0x24 then
        match tryParseFrame limits.maxInterleavedFrameSize buffer with
        | (.error e, buffer) => (.error e, buffer)
        | (.ok none, buffer) => (.ok out, buffer)
        | (.ok (some frame), buffer) => drainWithin limits fuel buffer
            (out ++ [.event (.interleavedFrame frame.channel frame.payload)])
      else
        match tryParseMessage limits buffer with
        | (.error e, buffer) => (.error e, buffer)
        | (.ok none, buffer) => (.ok out, buffer)
        | (.ok (some (.request request)), buffer) =>
          drainWithin limits fuel buffer (out ++ [.event (.request (intoRtspRequest request))])
        | (.ok (some (.response _)), buffer) => drainWithin limits fuel buffer out

def drainMessages (limits : RtspMessageLimits) (buffer : Bytes) :
    Except RtspCoreError (List CoreOutput) × Bytes :=
  drainWithin limits (buffer.length + 1) buffer []

def applyCommand (core : RtspCore) :
    RtspCommand → Except RtspCoreError (List CoreOutput) × RtspCore
  | .sendResponse cseq statusCode reason headers body =>
    ((encodeRtspResponseParts cseq statusCode reason headers body).map ([.write ·]), core)
  | .sendInterleaved channel payload => ((encodeFrame channel payload).map ([.write ·]), core)
  | .close => (.ok [.close], { core with closed := true })

/-- The outputs of an input that fails are gone; what it did to the buffer stays. -/
def handleInput (core : RtspCore) (input : CoreInput) :
    Except RtspCoreError (List CoreOutput) × RtspCore :=
  if core.closed then (.ok [], core)
  else match input with
    | .bytes bytes =>
      match core.limits.validateBufferGrowth core.buffer.length bytes.length with
      | .error e => (.error e, core)
      | .ok () =>
        let (outputs, buffer) := drainMessages core.limits (core.buffer ++ bytes)
        (outputs, { core with buffer })
    | .command command => applyCommand core command
    | .peerClosed => (.ok [.event .peerClosed], { core with closed := true })

/-- The events of inputs of bytes, up to the first that fails, and why it does. -/
def events (core : RtspCore) : List Bytes → List RtspEvent × Option RtspCoreError
  | [] => ([], none)
  | input :: rest =>
    match core.handleInput (.bytes input) with
    | (.error e, _) => ([], some e)
    | (.ok outputs, core) =>
      let later := core.events rest
      (outputs.filterMap CoreOutput.event? ++ later.1, later.2)

end RtspCore
end CheetahMedia.Rtsp
