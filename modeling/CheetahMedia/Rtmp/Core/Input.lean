import CheetahMedia.Rtmp.Core.Inbound

namespace CheetahMedia.Rtmp
open Lib

/-- One entry of an aggregate: type, timestamp and payload. -/
structure SubMessage where
  typeId : UInt8
  timestamp : UInt32
  payload : Bytes

/-- Split an aggregate. Every entry takes input, so the length bounds their number.
An entry that is cut short ends the list; its stream id is not looked at. -/
def splitAggregate : Nat → Bytes → List SubMessage
  | entries + 1, t :: l₂ :: l₁ :: l₀ :: s₂ :: s₁ :: s₀ :: s₃ :: _ :: _ :: _ :: rest =>
    let subLength := fromBigEndian [l₂, l₁, l₀]
    if rest.length < subLength then []
    else
      let after := rest.drop subLength
      -- a back pointer follows each entry but may be missing at the end
      let after := if 4 ≤ after.length then after.drop 4 else after
      { typeId := t
        timestamp := .ofNat (fromBigEndian [s₃, s₂, s₁, s₀])
        payload := rest.take subLength } :: splitAggregate entries after
  | _, _ => []

def SubMessage.chunk? (parent : RtmpChunk) (sub : SubMessage) : Option RtmpChunk :=
  match RtmpMessageType.fromTypeId sub.typeId with
  | .ok messageType => some { parent with
      messageType := messageType
      timestamp := ⟨parent.timestamp.millis + sub.timestamp⟩
      payload := sub.payload }
  | .error _ => none

/-- Entries of an unknown type are skipped. -/
def RtmpChunk.subMessages (parent : RtmpChunk) : List RtmpChunk :=
  (splitAggregate parent.payload.length parent.payload).filterMap (SubMessage.chunk? parent)

namespace RtmpCore

def effectiveLimitType (core : RtmpCore) : SetPeerBandwidthLimitType → SetPeerBandwidthLimitType
  | .dynamic => core.lastPeerBandwidthLimitType
  | limitType => limitType

/-- All limit types ask for the same answer. -/
def responseSize (size : UInt32) : SetPeerBandwidthLimitType → UInt32
  | .hard => size
  | .soft | .dynamic => size

def applyPeerBandwidth (size : UInt32) (limitType : SetPeerBandwidthLimitType)
    (core : RtmpCore) : RtmpCore × UInt32 :=
  let response := responseSize size (core.effectiveLimitType limitType)
  ({ core with lastPeerBandwidthLimitType := limitType, localAckWindowSize := response }, response)

def handleControl : RtmpMessage → CoreHandler Unit
  | .setChunkSize _ size =>
    Handler.modify fun core =>
      { core with inChunkSize := size.size, decoder := core.decoder.setChunkSize size }
  | .ack _ sequenceNumber => emitEvent (.ackReceived sequenceNumber)
  | .winAckSize _ size => do
    Handler.modify fun core => { core with peerAckWindowSize := size.toNat }
    emitEvent (.peerAckWindowUpdated size)
  | .userControl _ (.pingRequest timestamp) =>
    sendMessage 2 0 RtmpMessageType.userControl.typeId 0
      (RtmpUserControlEvent.pingResponse timestamp).encode
  | .setPeerBandwidth _ size limitType => do
    let response ← Handler.modifyGet (applyPeerBandwidth size limitType)
    emitEvent (.localAckWindowUpdated size)
    sendMessage 2 0 RtmpMessageType.winAckSize.typeId 0 (writeU32 response)
  | .abort _ chunkStreamId =>
    Handler.modify fun core => { core with decoder := core.decoder.resetChunkStream chunkStreamId }
  | _ => pure ()

def handleControlMessage (chunk : RtmpChunk) : CoreHandler Unit := do
  let message ← Handler.ofExcept ((decodeRtmpChunkToMessage chunk).mapError Stop.ofError)
  handleControl message

def handleNotify (msg : RtmpChunk) : Option RtmpEvent → CoreHandler Unit
  | some event => emitEvent event
  | none => handleMediaInput msg.messageStreamId.id msg.timestamp.millis .data msg.payload

/-- What is left of a failure where AMF0 errors are ignored. -/
def toleratingAmf0 : Stop → CoreHandler Unit
  | .error (.amf0 _) => pure ()
  | stop => Handler.fail stop

def onDataAmf3 (msg : RtmpChunk) : CoreHandler Unit :=
  match onNotifyMessage msg.messageStreamId.id msg.payload .amf3 with
  | .ok event => handleNotify msg event
  | .error stop => toleratingAmf0 stop

def onDataAmf0 (msg : RtmpChunk) : CoreHandler Unit := do
  let event ← Handler.ofExcept (onNotifyMessage msg.messageStreamId.id msg.payload .amf0)
  handleNotify msg event

def onCommandAmf3 (msg : RtmpChunk) : CoreHandler Unit := do
  match ← Handler.attempt (onCommandMessage msg.messageStreamId.id msg.payload .amf3) with
  | .ok () => pure ()
  | .error stop => toleratingAmf0 stop

/-- Aggregates nest, each in the payload of another: its length bounds the depth. -/
def onMessageWithin : Nat → RtmpChunk → CoreHandler Unit
  | 0, _ => pure ()
  | depth + 1, msg =>
    match msg.messageType with
    | .setChunkSize | .ack | .winAckSize | .userControl | .setPeerBandwidth | .abort =>
      handleControlMessage msg
    | .audio => handleMediaInput msg.messageStreamId.id msg.timestamp.millis .audio msg.payload
    | .video => handleMediaInput msg.messageStreamId.id msg.timestamp.millis .video msg.payload
    | .dataAmf3 => onDataAmf3 msg
    | .dataAmf0 => onDataAmf0 msg
    | .commandAmf0 => onCommandMessage msg.messageStreamId.id msg.payload .amf0
    | .commandAmf3 => onCommandAmf3 msg
    | .aggregate => Handler.forEach (onMessageWithin depth) msg.subMessages

def onMessage (msg : RtmpChunk) : CoreHandler Unit :=
  onMessageWithin (msg.payload.length + 1) msg

def countReceived (n : Nat) (core : RtmpCore) : RtmpCore :=
  { core with totalBytesReceived := core.totalBytesReceived + n }

/-- Whether an acknowledgement is due, and its value; taking it marks it as sent. -/
def takeAck (core : RtmpCore) : RtmpCore × Option UInt32 :=
  if core.totalBytesReceived - core.lastAckSent > core.peerAckWindowSize / 2 then
    ({ core with lastAckSent := core.totalBytesReceived }, some (.ofNat core.totalBytesReceived))
  else (core, none)

def sendDueAck : Option UInt32 → CoreHandler Unit
  | some ackValue => sendMessage 2 0 RtmpMessageType.ack.typeId 0 (writeU32 ackValue)
  | none => pure ()

def acknowledge (n : Nat) : CoreHandler Unit := do
  Handler.modify (countReceived n)
  let ackValue ← Handler.modifyGet takeAck
  sendDueAck ackValue

/-- Decode one chunk from the input buffer. -/
def decodeInput (core : RtmpCore) : RtmpCore × Except Error (Option RtmpChunk) :=
  match core.decoder.decode core.inputBuf.get with
  | (decoder, .ok (consumed, chunk)) =>
    ({ core with decoder := decoder, inputBuf := core.inputBuf.advance consumed }, .ok chunk)
  | (decoder, .error e) => ({ core with decoder := decoder }, .error e)

/-- Each chunk takes input, so the length of the buffer bounds the calls. -/
def readyLoop : Nat → CoreHandler Unit
  | 0 => pure ()
  | calls + 1 => do
    match ← Handler.modifyGet decodeInput with
    | .ok (some chunk) => do
      onMessage chunk
      readyLoop calls
    | .ok none => readyLoop calls
    | .error e => if e.IsShort then pure () else Handler.fail (.ofError e)

def processReadyBytes (bytes : Bytes) : CoreHandler Unit := do
  acknowledge bytes.length
  Handler.modify fun core => { core with inputBuf := core.inputBuf.feed bytes }
  let pending ← Handler.gets (·.inputBuf.get.length)
  readyLoop (pending + 1)

/-- The handshake's own outcome with what it wants sent. -/
inductive HandshakeStep
  | failed (e : RtmpCoreError)
  | written (pending : Bytes) (complete : Bool)

def feedHandshake (bytes : Bytes) (core : RtmpCore) : RtmpCore × HandshakeStep :=
  match core.handshake with
  | .client =>
    ({ core with state := .closed },
      .failed (.handshake "client core does not accept raw bytes during handshake"))
  | .server handshake =>
    match core.state, bytes with
    | .handshaking, version :: _ =>
      if version ≠ 3 then
        ({ core with state := .closed }, .failed (.invalidHandshakeVersion version))
      else feedServer handshake
    | _, _ => feedServer handshake
where
  feedServer (handshake : RtmpServerHandshake) : RtmpCore × HandshakeStep :=
    match handshake.feedRecvBuf bytes with
    | (handshake, .error e) =>
      ({ core with state := .closed, handshake := .server handshake }, .failed (.handshake e.reason))
    | (handshake, .ok ()) =>
      let pending := handshake.sendBuf
      ({ core with
          handshake := .server (handshake.advanceSendBuf pending.length)
          state := if pending ≠ [] ∧ core.state = .handshaking then .waitC2 else core.state },
        .written pending handshake.isRecvComplete)

def emitHandshake (pending : Bytes) : CoreHandler Unit :=
  Handler.when (!pending.isEmpty) (Handler.emit (.handshake pending))

def takeRemaining (core : RtmpCore) : RtmpCore × Bytes :=
  match core.handshake with
  | .client => ({ core with state := .ready }, [])
  | .server handshake =>
    let (handshake, remaining) := handshake.takeRecvBuf
    ({ core with state := .ready, handshake := .server handshake }, remaining)

def startSession : CoreHandler Unit := do
  let outChunkSize ← Handler.gets (·.outChunkSize)
  sendSetChunkSize (.ofNat outChunkSize)
  sendWindowAckSize
  sendSetPeerBandwidth

def finishHandshake : CoreHandler Unit := do
  let remaining ← Handler.modifyGet takeRemaining
  startSession
  Handler.when (!remaining.isEmpty) (processReadyBytes remaining)

def tryHandshake (bytes : Bytes) : CoreHandler Unit := do
  match ← Handler.modifyGet (feedHandshake bytes) with
  | .failed e => Handler.fail (.error e)
  | .written pending complete => do
    emitHandshake pending
    Handler.when complete finishHandshake

def onBytes (bytes : Bytes) : CoreHandler Unit := do
  match ← Handler.gets (·.state) with
  | .handshaking | .waitC2 => tryHandshake bytes
  | .ready => processReadyBytes bytes
  | .closed => pure ()

def onInput : CoreInput → CoreHandler Unit
  | .bytes bytes => onBytes bytes
  | .timeout _ => pure ()
  | .command command => onCommand command

/-- The caller sees no output of an input that fails. -/
def handleInput (core : RtmpCore) (input : CoreInput) :
    RtmpCore × Except Stop (List CoreOutput) :=
  match (onInput input).run core with
  | (core', out, .ok ()) => (core', .ok (out.map Emission.output))
  | (core', _, .error stop) => (core', .error stop)

end RtmpCore

end CheetahMedia.Rtmp
