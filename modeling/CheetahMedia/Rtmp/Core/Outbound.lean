import CheetahMedia.Rtmp.Core.Media

namespace CheetahMedia.Rtmp
open Lib

def RtmpMessageType.debugName : RtmpMessageType → String
  | .setChunkSize => "SetChunkSize"
  | .abort => "Abort"
  | .ack => "Ack"
  | .userControl => "UserControl"
  | .winAckSize => "WinAckSize"
  | .setPeerBandwidth => "SetPeerBandwidth"
  | .audio => "Audio"
  | .video => "Video"
  | .dataAmf3 => "DataAmf3"
  | .commandAmf3 => "CommandAmf3"
  | .dataAmf0 => "DataAmf0"
  | .commandAmf0 => "CommandAmf0"
  | .aggregate => "Aggregate"

namespace RtmpMessage

def newWinAckSize (size : UInt32) : RtmpMessage := .winAckSize .PCM size
def newSetPeerBandwidth (size : UInt32) : RtmpMessage := .setPeerBandwidth .PCM size .hard
def newAck (totalBytesReceived : UInt32) : RtmpMessage := .ack .PCM totalBytesReceived
def newSetChunkSize (size : RtmpChunkSize) : RtmpMessage := .setChunkSize .PCM size

end RtmpMessage

def amf0EncodeAll (values : List Amf0Value) : Option Bytes :=
  RtmpMessageEncoder.encodeDataPayload (values.map .amf0)

namespace RtmpCore

/-- Send a command as AMF0 values. -/
def sendCommand (csid : Nat) (header : RtmpMessageHeader) (command : RtmpCommand) :
    CoreHandler Unit :=
  match command.intoMessage header with
  | .ok message => sendRtmpMessage csid message
  | .error e => Handler.fail (.error (.amf0 e.text))

def sendAmf0Values (csid : Nat) (streamId : UInt32) (values : List Amf0Value) :
    CoreHandler Unit :=
  match amf0EncodeAll values with
  | some payload => sendMessage csid 0 20 streamId payload
  | none => Handler.fail .panic

def onStream (streamId : UInt32) : RtmpMessageHeader := ⟨⟨streamId⟩, .ZERO⟩

def sendConnectRequest (app flashVer tcUrl : String) : CoreHandler Unit :=
  sendCommand 3 .PCM (.connect ⟨app, flashVer, tcUrl⟩)

def sendCreateStreamRequest (transactionId : TransactionId) : CoreHandler Unit :=
  sendCommand 3 .PCM (.createStream ⟨transactionId⟩)

def sendPublishRequest (streamId : UInt32) (transactionId : F64) (streamName : String) :
    CoreHandler Unit :=
  sendCommand 8 (onStream streamId) (.publish ⟨.fromF64 transactionId, streamName⟩)

def sendPlayRequest (streamId : UInt32) (transactionId : F64) (streamName : String)
    (start : F64) : CoreHandler Unit :=
  sendCommand 8 (onStream streamId) (.play ⟨.fromF64 transactionId, streamName, start⟩)

def sendWindowAckSize : CoreHandler Unit :=
  sendRtmpMessage 2 (.newWinAckSize 5000000)

def sendSetPeerBandwidth : CoreHandler Unit :=
  sendRtmpMessage 2 (.newSetPeerBandwidth 5000000)

def sendSetChunkSize (chunkSize : UInt32) : CoreHandler Unit := do
  let size := RtmpChunkSize.saturatingNew chunkSize.toNat
  Handler.modify fun core => { core with outChunkSize := size.size }
  sendRtmpMessage 2 (.newSetChunkSize size)

def sendConnectResult (txn : F64) : CoreHandler Unit :=
  sendCommand 3 .PCM (.result {
    transactionId := .fromF64 txn
    properties := .amf0Object [
      ("fmsVer", .string "FMS/4,5,0,297"),
      ("capabilities", .number (.ofInt 255)),
      ("mode", .number (.ofInt 1))]
    information := .amf0Object [
      ("level", .string "status"),
      ("code", .string "NetConnection.Connect.Success"),
      ("description", .string "Connection succeeded."),
      ("objectEncoding", .number (.ofInt 0))] })

def sendCreateStreamResult (txn : F64) (streamId : UInt32) : CoreHandler Unit :=
  sendCommand 3 .PCM (.result (.createStreamResult (.fromF64 txn) ⟨streamId⟩))

def allocateStreamId (core : RtmpCore) : RtmpCore × UInt32 :=
  let next := if core.nextStreamId = 0xFFFFFFFF then 1 else core.nextStreamId + 1
  ({ core with nextStreamId := next }, max core.nextStreamId 1)

def sendOnStatus (streamId : UInt32) (level code description : String) : CoreHandler Unit :=
  sendCommand 5 (onStream streamId) (.onStatus ⟨level, code, some description, none⟩)

def sendRtmpSampleAccess (streamId : UInt32) : CoreHandler Unit :=
  sendRtmpMessage 6 (.data (onStream streamId) .amf0
    [.amf0 (.string "|RtmpSampleAccess"), .amf0 (.boolean true), .amf0 (.boolean true)])

def sendPlayStatus (streamId : UInt32) : CoreHandler Unit := do
  sendOnStatus streamId "status" "NetStream.Play.Reset" "Resetting and playing stream."
  sendOnStatus streamId "status" "NetStream.Play.Start" "Started playing."

def sendAcceptPlay (streamId : UInt32) (emitPlayStatus emitSampleAccess : Bool) :
    CoreHandler Unit := do
  sendUserControl 0 streamId
  Handler.when emitPlayStatus (sendPlayStatus streamId)
  Handler.when emitSampleAccess (sendRtmpSampleAccess streamId)

def sendSeekRequest (streamId : UInt32) (millis : F64) : CoreHandler Unit :=
  sendAmf0Values 8 streamId [.string "seek", .number ⟨0⟩, .null, .number millis]

def sendPauseRequest (streamId : UInt32) (pause : Bool) (millis : F64) : CoreHandler Unit :=
  sendAmf0Values 8 streamId
    [.string "pause", .number ⟨0⟩, .null, .boolean pause, .number millis]

/-- An error of the writer is dropped, a failed assertion is not. -/
def ignoreError (m : CoreHandler Unit) : CoreHandler Unit := do
  match ← Handler.attempt m with
  | .error .panic => Handler.fail .panic
  | _ => pure ()

def sendNullResult (txn : F64) : CoreHandler Unit :=
  ignoreError (sendAmf0Values 3 0 [.string "_result", .number txn, .null])

def sendOnBwDone : CoreHandler Unit :=
  ignoreError (sendAmf0Values 3 0 [.string "onBWDone", .number ⟨0⟩, .null])

def forgetClientRequests (core : RtmpCore) : RtmpCore :=
  { core with clientCreateStreamTransactionId := none, clientPendingAction := none }

def emitResultReceived (result : RtmpResultCommand) : CoreHandler Unit := do
  let awaited ← Handler.gets (·.clientCreateStreamTransactionId)
  let description :=
    (result.properties.optionalStr "description").or (result.information.optionalStr "description")
  if result.isError then do
    Handler.modify forgetClientRequests
    emitEvent (.clientDisconnectRequested
      ("Command response error: " ++ description.getD "Unknown error"))
  else if result.transactionId = .CONNECT then
    emitEvent (.clientStateChanged .connected)
  else if awaited = some result.transactionId.id then do
    Handler.modify fun core => { core with clientCreateStreamTransactionId := none }
    emitEvent (.clientStateChanged .mediaStreamCreated)
  else
    emitEvent (.commandIgnored "_result"
      (.text s!"unhandled transaction id: {result.transactionId.id}"))

def statusReason (status : RtmpOnStatusCommand) : String :=
  s!"OnStatus error: {status.code}" ++
    (status.description.elim "" fun desc => s!" - {desc}") ++
    (status.details.elim "" fun detail => s!" ({detail})")

def emitOnStatusReceived (status : RtmpOnStatusCommand) : CoreHandler Unit := do
  let pendingAction ← Handler.gets (·.clientPendingAction)
  let noAction (core : RtmpCore) : RtmpCore := { core with clientPendingAction := none }
  if status.code = "NetStream.Publish.Start" ∧ pendingAction = some .publish then do
    Handler.modify noAction
    emitEvent (.clientStateChanged .publishing)
  else if status.code = "NetStream.Play.Start" ∧ pendingAction = some .play then do
    Handler.modify noAction
    emitEvent (.clientStateChanged .playing)
  else if status.level = "error" then do
    Handler.modify noAction
    emitEvent (.clientDisconnectRequested (statusReason status))
  else
    emitEvent (.commandIgnored "onStatus"
      (.text s!"level={status.level}, code={status.code}"))

def clientHandleWireCommand (name : String) (transactionId : TransactionId) (object : AmfValue)
    (args : List AmfValue) : CoreHandler Unit :=
  match RtmpCommand.fromMessage name transactionId object args with
  | .ok (.result result) => emitResultReceived result
  | .ok (.onStatus status) => emitOnStatusReceived status
  | .ok command => emitEvent (.commandIgnored name (.clientIgnored command))
  | .error e => emitEvent (.commandIgnored name (.text s!"client command decode failed: {e.text}"))

def sendPingResponse (timestamp : RtmpTimestamp) : CoreHandler Unit :=
  sendRtmpMessage 2 (.userControl .PCM (.pingResponse timestamp))

def clientHandleUserControl (event : RtmpUserControlEvent) : CoreHandler Unit :=
  match event with
  | .pingRequest timestamp => sendPingResponse timestamp
  | event => emitEvent (.userControlIgnored event.name (.userControl event))

def rejectPending (streamId : UInt32) (core : RtmpCore) : RtmpCore :=
  if core.pendingPublish = some streamId then core.clearPendingPublish else core

def closeConnection (core : RtmpCore) : RtmpCore :=
  { core.clearPendingPublish.forgetClientRequests with state := .closed, activePublish := none }

def onCommand : RtmpCoreCommand → CoreHandler Unit
  | .setWindowAckSize size => sendRtmpMessage 2 (.newWinAckSize size)
  | .setPeerBandwidth size => sendRtmpMessage 2 (.newSetPeerBandwidth size)
  | .setChunkSize size => sendSetChunkSize size
  | .sendAck sequenceNumber => sendRtmpMessage 2 (.newAck sequenceNumber)
  | .sendPingResponse timestamp => sendPingResponse timestamp
  | .clientConnect app flashVer tcUrl => sendConnectRequest app flashVer tcUrl
  | .clientCreateStream transactionId => do
    Handler.modify fun core => { core with
      clientCreateStreamTransactionId := some (TransactionId.fromF64 transactionId).id }
    sendCreateStreamRequest (.fromF64 transactionId)
  | .clientPublish streamId transactionId streamName => do
    Handler.modify fun core => { core with clientPendingAction := some .publish }
    sendPublishRequest streamId transactionId streamName
  | .clientPlay streamId transactionId streamName start => do
    Handler.modify fun core => { core with clientPendingAction := some .play }
    sendPlayRequest streamId transactionId streamName start
  | .clientSeek streamId millis => sendSeekRequest streamId millis
  | .clientPause streamId pause millis => sendPauseRequest streamId pause millis
  | .clientHandleWireCommand _ name transactionId object args =>
    clientHandleWireCommand name transactionId object args
  | .clientObserveAck sequenceNumber => emitEvent (.ackReceived sequenceNumber)
  | .clientObserveWinAckSize size => do
    Handler.modify fun core => { core with peerAckWindowSize := size.toNat }
    emitEvent (.peerAckWindowUpdated size)
  | .clientHandleSetPeerBandwidth size responseWindowSize => do
    sendRtmpMessage 2 (.newWinAckSize responseWindowSize)
    emitEvent (.localAckWindowUpdated size)
  | .clientObserveMediaData streamId timestampMs mediaType payload =>
    emitEvent (.mediaData streamId timestampMs mediaType payload)
  | .clientHandleUserControl event => clientHandleUserControl event
  | .clientHandleUnhandledMessage message =>
    emitEvent (.messageIgnored message.messageType.debugName (.message message))
  | .acceptPublish streamId => do
    Handler.modify fun core => { core with activePublish := some streamId }
    flushPendingPublishMedia streamId
    sendOnStatus streamId "status" "NetStream.Publish.Start" "Start publishing."
  | .rejectPublish streamId description => do
    Handler.modify (rejectPending streamId)
    sendOnStatus streamId "error" "NetStream.Publish.BadName" description
  | .acceptPlay streamId => sendAcceptPlay streamId true true
  | .acceptPlayConfigured streamId emitPlayStatus emitSampleAccess =>
    sendAcceptPlay streamId emitPlayStatus emitSampleAccess
  | .rejectPlay streamId description =>
    sendOnStatus streamId "error" "NetStream.Play.StreamNotFound" description
  | .sendMetadata streamId timestampMs payload => sendMessage 6 timestampMs 18 streamId payload
  | .sendAudio streamId timestampMs payload => sendMessage 4 timestampMs 8 streamId payload
  | .sendVideo streamId timestampMs payload => sendMessage 6 timestampMs 9 streamId payload
  | .sendNotify streamId timestampMs payload => sendMessage 6 timestampMs 18 streamId payload
  | .closeStream streamId => sendUserControl 1 streamId
  | .closeConnection => do
    Handler.modify closeConnection
    emitEvent .peerClosed

end RtmpCore

end CheetahMedia.Rtmp
