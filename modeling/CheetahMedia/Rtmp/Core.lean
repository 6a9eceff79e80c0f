import Mathlib.Algebra.Group.Nat.Defs
import CheetahMedia.Lib.Handler
import CheetahMedia.Rtmp.Command
import CheetahMedia.Rtmp.Handshake
import CheetahMedia.Rtmp.Message.Decoder
import CheetahMedia.Rtmp.Message.Encoder

namespace CheetahMedia.Rtmp
open Lib

inductive RtmpMediaType
  | audio
  | video
  | data
deriving DecidableEq

inductive RtmpClientState
  | connected
  | mediaStreamCreated
  | publishing
  | playing

/-- The detail of an ignored input. Where the code prints a value with its derived
formatter, the value is kept. -/
inductive Detail
  | text (s : String)
  | clientIgnored (command : RtmpCommand)
  | userControl (event : RtmpUserControlEvent)
  | message (message : RtmpMessage)

inductive RtmpEvent
  | connected (app tcUrl : String)
  | publishRequested (streamId : UInt32) (app tcUrl streamName : String)
  | playRequested (streamId : UInt32) (app tcUrl streamName : String)
  | streamCreated (streamId : UInt32)
  | commandIgnored (name : String) (detail : Detail)
  | messageIgnored (name : String) (detail : Detail)
  | userControlIgnored (name : String) (detail : Detail)
  | ackReceived (sequenceNumber : UInt32)
  | localAckWindowUpdated (size : UInt32)
  | peerAckWindowUpdated (size : UInt32)
  | clientStateChanged (state : RtmpClientState)
  | clientDisconnectRequested (reason : String)
  | metadata (streamId : UInt32) (values : List AmfValue)
  | notify (streamId : UInt32) (name : String) (values : List AmfValue)
  | mediaData (streamId timestampMs : UInt32) (mediaType : RtmpMediaType) (payload : Bytes)
  | seekRequested (streamId : UInt32) (millis : F64)
  | pauseRequested (streamId : UInt32) (pause : Bool) (millis : F64)
  | receiveVideo (streamId : UInt32) (enabled : Bool)
  | receiveAudio (streamId : UInt32) (enabled : Bool)
  | streamClosed (streamId : UInt32)
  | peerClosed

inductive RtmpCoreCommand
  | setWindowAckSize (size : UInt32)
  | setPeerBandwidth (size : UInt32)
  | setChunkSize (size : UInt32)
  | sendAck (sequenceNumber : UInt32)
  | sendPingResponse (timestamp : RtmpTimestamp)
  | clientConnect (app flashVer tcUrl : String)
  | clientCreateStream (transactionId : F64)
  | clientPublish (streamId : UInt32) (transactionId : F64) (streamName : String)
  | clientPlay (streamId : UInt32) (transactionId : F64) (streamName : String) (start : F64)
  | clientSeek (streamId : UInt32) (millis : F64)
  | clientPause (streamId : UInt32) (pause : Bool) (millis : F64)
  | clientHandleWireCommand (messageStreamId : UInt32) (name : String)
      (transactionId : TransactionId) (object : AmfValue) (args : List AmfValue)
  | clientObserveAck (sequenceNumber : UInt32)
  | clientObserveWinAckSize (size : UInt32)
  | clientHandleSetPeerBandwidth (size responseWindowSize : UInt32)
  | clientObserveMediaData (streamId timestampMs : UInt32) (mediaType : RtmpMediaType)
      (payload : Bytes)
  | clientHandleUserControl (event : RtmpUserControlEvent)
  | clientHandleUnhandledMessage (message : RtmpMessage)
  | acceptPublish (streamId : UInt32)
  | rejectPublish (streamId : UInt32) (description : String)
  | acceptPlay (streamId : UInt32)
  | acceptPlayConfigured (streamId : UInt32) (emitPlayStatus emitSampleAccess : Bool)
  | rejectPlay (streamId : UInt32) (description : String)
  | sendMetadata (streamId timestampMs : UInt32) (payload : Bytes)
  | sendAudio (streamId timestampMs : UInt32) (payload : Bytes)
  | sendVideo (streamId timestampMs : UInt32) (payload : Bytes)
  | sendNotify (streamId timestampMs : UInt32) (payload : Bytes)
  | closeStream (streamId : UInt32)
  | closeConnection

inductive CoreInput
  | bytes (bytes : Bytes)
  | timeout (id : UInt64)
  | command (command : RtmpCoreCommand)

inductive CoreOutput
  | write (bytes : Bytes)
  | event (event : RtmpEvent)
  | setTimer (id atMicros : UInt64)
  | cancelTimer (id : UInt64)

inductive RtmpCoreError
  | chunk (text : String)
  | amf0 (text : String)
  | invalidHandshakeVersion (version : UInt8)
  | handshake (text : String)
deriving DecidableEq

def ErrorKind.name : ErrorKind → String
  | .invalidInput => "InvalidInput"
  | .invalidData => "InvalidData"
  | .invalidState => "InvalidState"
  | .unsupported => "Unsupported"
  | .insufficientBuffer => "InsufficientBuffer"

def Error.text (e : Error) : String := s!"{e.kind.name}: {e.reason}"

/-- The encoder's assertions end a call in a way of their own. -/
inductive Stop
  | error (e : RtmpCoreError)
  | panic
deriving DecidableEq

def Stop.ofError (e : Error) : Stop := .error (.chunk e.text)

inductive HandshakeState
  | handshaking
  | waitC2
  | ready
  | closed
deriving DecidableEq

inductive ClientPendingAction
  | publish
  | play
deriving DecidableEq

structure PendingPublishMedia where
  streamId : UInt32
  timestampMs : UInt32
  mediaType : RtmpMediaType
  payload : Bytes
  isSequenceHeader : Bool

inductive HandshakeRole
  | server (handshake : RtmpServerHandshake)
  | client

structure RtmpCore where
  state : HandshakeState
  inChunkSize : Nat := 128
  outChunkSize : Nat := 60000
  decoder : RtmpChunkDecoder := {}
  encoder : RtmpMessageEncoder := ({} : RtmpMessageEncoder).setChunkSize (.saturatingNew 60000)
  inputBuf : Buf := .empty
  handshake : HandshakeRole
  connectedApp : Option String := none
  connectedTcUrl : Option String := none
  peerAckWindowSize : Nat := 2 ^ 64 - 1
  localAckWindowSize : UInt32 := 5000000
  lastPeerBandwidthLimitType : SetPeerBandwidthLimitType := .soft
  totalBytesReceived : Nat := 0
  lastAckSent : Nat := 0
  activePublish : Option UInt32 := none
  pendingPublish : Option UInt32 := none
  pendingMedia : List PendingPublishMedia := []
  pendingMediaBytes : Nat := 0
  nextStreamId : UInt32 := 1
  clientCreateStreamTransactionId : Option Int64 := none
  clientPendingAction : Option ClientPendingAction := none

/-- A message that was written, the chunk size it was cut with, and the chunk size
from the next message on where this one changes it. -/
structure Sent where
  chunk : RtmpChunk
  chunkSize : RtmpChunkSize
  resize : Option RtmpChunkSize

/-- What a call puts out. A write also says what it carries. -/
inductive Emission
  | handshake (bytes : Bytes)
  | message (sent : Sent) (bytes : Bytes)
  | event (event : RtmpEvent)

def Emission.output : Emission → CoreOutput
  | .handshake bytes => .write bytes
  | .message _ bytes => .write bytes
  | .event e => .event e

def Emission.event? : Emission → Option RtmpEvent
  | .event e => some e
  | _ => none

def Emission.sent? : Emission → Option Sent
  | .message sent _ => some sent
  | _ => none

abbrev CoreHandler (α : Type) := Handler RtmpCore Emission Stop α

namespace RtmpCore

def new : RtmpCore where
  state := .handshaking
  handshake := .server .newLenientSeededS1

def newClient : RtmpCore where
  state := .ready
  handshake := .client

def emitEvent (event : RtmpEvent) : CoreHandler Unit := Handler.emit (.event event)

/-- Write a message that is a chunk already. -/
def encodeRawChunk (chunk : RtmpChunk) : CoreHandler Unit where
  run core :=
    let (wire, encoder) := core.encoder.encodeRawChunk chunk
    ({ core with encoder := encoder },
      [.message ⟨chunk, core.encoder.chunkEncoder.chunkSize, none⟩ wire], .ok ())

def sendMessage (csid : Nat) (timestamp : UInt32) (messageType : UInt8)
    (messageStreamId : UInt32) (payload : Bytes) : CoreHandler Unit :=
  match RtmpChunkStreamId.new csid with
  | none => Handler.fail (.error (.chunk s!"invalid outbound csid: {csid}"))
  | some chunkStreamId => do
    let messageType ← Handler.ofExcept
      ((RtmpMessageType.fromTypeId messageType).mapError Stop.ofError)
    encodeRawChunk {
      chunkStreamId := chunkStreamId
      messageStreamId := ⟨messageStreamId⟩
      messageType := messageType
      timestamp := ⟨timestamp⟩
      payload := payload }

def sendUserControl (eventType : UInt16) (value : UInt32) : CoreHandler Unit :=
  sendMessage 2 0 4 0 (writeU16 eventType ++ writeU32 value)

def encodeMessage (chunkStreamId : RtmpChunkStreamId) (message : RtmpMessage) :
    CoreHandler Unit where
  run core :=
    match core.encoder.encode chunkStreamId message,
        RtmpMessageEncoder.messageToChunk chunkStreamId message with
    | some (wire, encoder), some chunk =>
      ({ core with encoder := encoder }, [.message ⟨chunk, core.encoder.chunkEncoder.chunkSize,
        RtmpMessageEncoder.newChunkSize message⟩ wire], .ok ())
    | _, _ => (core, [], .error .panic)

def sendRtmpMessage (csid : Nat) (message : RtmpMessage) : CoreHandler Unit :=
  match RtmpChunkStreamId.new csid with
  | none => Handler.fail .panic
  | some chunkStreamId => encodeMessage chunkStreamId message

end RtmpCore

end CheetahMedia.Rtmp
