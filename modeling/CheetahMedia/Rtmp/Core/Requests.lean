import CheetahMedia.Rtmp.Core.Input

namespace CheetahMedia.Rtmp
open Lib Lib.Handler

/-- What a handler asks of the writing side. -/
inductive Request
  | send (chunk : RtmpChunk) (resize : Option RtmpChunkSize)
  | raise (event : RtmpEvent)
  | handshake (bytes : Bytes)

namespace Request

/-- The announcement of a chunk size, and nothing else, changes the chunk size; no
message makes the receiver forget a chunk stream. -/
def Proper : Request → Prop
  | .send chunk (some size) =>
    chunk.messageType = .setChunkSize ∧ chunk.payload = writeU32 (.ofNat size.size)
  | .send chunk none => chunk.messageType ≠ .setChunkSize ∧ chunk.messageType ≠ .abort
  | .raise _ => True
  | .handshake _ => True

def event? : Request → Option RtmpEvent
  | .raise event => some event
  | _ => none

/-- The encoder after a message and after the chunk size it announces. -/
def resized (e : RtmpChunkEncoder) : Option RtmpChunkSize → RtmpChunkEncoder
  | some size => e.setChunkSize size
  | none => e

def play (e : RtmpMessageEncoder) : Request → RtmpMessageEncoder × List Emission
  | .send chunk resize =>
    let (wire, encoder) := e.chunkEncoder.encode chunk
    ({ chunkEncoder := resized encoder resize },
      [.message ⟨chunk, e.chunkEncoder.chunkSize, resize⟩ wire])
  | .raise event => (e, [.event event])
  | .handshake bytes => (e, [.handshake bytes])

end Request

/-- The part of the core that reading and interpreting messages does not look at:
the writing side and what has arrived but is not decoded. -/
structure Transport where
  encoder : RtmpMessageEncoder
  totalBytesReceived : Nat
  lastAckSent : Nat
  inputBuf : Buf

namespace RtmpCore

def transport (core : RtmpCore) : Transport :=
  ⟨core.encoder, core.totalBytesReceived, core.lastAckSent, core.inputBuf⟩

def withTransport (k : Transport) (core : RtmpCore) : RtmpCore :=
  { core with
    encoder := k.encoder
    totalBytesReceived := k.totalBytesReceived
    lastAckSent := k.lastAckSent
    inputBuf := k.inputBuf }

@[simp] theorem withTransport_transport (core : RtmpCore) :
    core.withTransport core.transport = core := rfl

def wire : Device RtmpCore Transport Request Emission where
  put := withTransport
  play k f := ({ k with encoder := (Request.play k.encoder f).1 }, (Request.play k.encoder f).2)
  put_put := rfl

def phase (core : RtmpCore) : HandshakeState × HandshakeRole := (core.state, core.handshake)

def station (core : RtmpCore) : HandshakeState × HandshakeRole × RtmpChunkDecoder :=
  (core.state, core.handshake, core.decoder)

/-- The handler only sends and raises events, and does not leave the phase. -/
abbrev Handles (m : CoreHandler α) : Prop := Oblivious wire Request.Proper phase m

/-- As `Handles`, for a handler that does not touch the decoder either. -/
abbrev Sends (m : CoreHandler α) : Prop := Oblivious wire Request.Proper station m

theorem Sends.handles {m : CoreHandler α} (h : Sends m) : Handles m :=
  h.mono fun core core' hstation => by
    obtain ⟨hstate, hrest⟩ := Prod.mk.inj hstation
    obtain ⟨hhandshake, -⟩ := Prod.mk.inj hrest
    rw [phase, hstate, hhandshake]
    rfl

/-- All that changes in the encoder comes from what is sent. -/
abbrev Writes (P : List Request → Prop) (m : CoreHandler α) : Prop :=
  Serves RtmpCore.encoder Request.play phase P m

theorem Handles.writes {m : CoreHandler α} (h : Handles m) : Writes (∀ f ∈ ·, f.Proper) m :=
  Oblivious.serves h (fun core => ⟨core.transport, rfl⟩)
    (fun _ _ => rfl) (fun _ _ => rfl) fun _ _ => rfl

section Sends

theorem emitEvent_sends (event : RtmpEvent) : Sends (emitEvent event) :=
  .request (.raise event) () trivial fun _ _ => rfl

theorem encodeRawChunk_sends {chunk : RtmpChunk}
    (h : chunk.messageType ≠ .setChunkSize ∧ chunk.messageType ≠ .abort) :
    Sends (encodeRawChunk chunk) :=
  .request (.send chunk none) () h fun _ _ => rfl

/-- A raw payload of any type but these two. -/
theorem sendMessage_sends (csid : Nat) (timestamp : UInt32) (messageType : UInt8)
    (streamId : UInt32) (payload : Bytes) (h : messageType ≠ 1 ∧ messageType ≠ 2) :
    Sends (sendMessage csid timestamp messageType streamId payload) := by
  unfold sendMessage
  split
  · exact .fail _
  · cases htype : RtmpMessageType.fromTypeId messageType with
    | error e =>
      exact fun core => ⟨core, [], .error (.ofError e), rfl, List.forall_mem_nil _, fun _ => rfl⟩
    | ok t =>
      have hid := RtmpMessageType.typeId_of_fromTypeId htype
      have hproper : t ≠ .setChunkSize ∧ t ≠ .abort := by
        constructor
        · rintro rfl
          exact h.1 hid.symm
        · rintro rfl
          exact h.2 hid.symm
      intro core
      exact encodeRawChunk_sends hproper core

/-- A message announces a chunk size exactly when it makes the encoder use it. -/
theorem proper_of_message (h : message.messageType ≠ .abort)
    (hchunk : RtmpMessageEncoder.messageToChunk csid message = some chunk) :
    (Request.send chunk (RtmpMessageEncoder.newChunkSize message)).Proper := by
  obtain ⟨htype, hpayload⟩ := RtmpMessageEncoder.messageToChunk_some hchunk
  have hother (hne : message.messageType ≠ .setChunkSize) :
      (Request.send chunk none).Proper := ⟨htype ▸ hne, htype ▸ h⟩
  cases message with
  | setChunkSize header size => exact ⟨htype, (Option.some.inj hpayload).symm⟩
  | command header version => cases version <;> exact hother nofun
  | data header version => cases version <;> exact hother nofun
  | _ => exact hother nofun

theorem encodeMessage_sends (csid : RtmpChunkStreamId) {message : RtmpMessage}
    (h : message.messageType ≠ .abort) : Sends (encodeMessage csid message) := by
  cases hchunk : RtmpMessageEncoder.messageToChunk csid message with
  | none =>
    intro core
    exact ⟨core, [], .error .panic, rfl, List.forall_mem_nil _, fun k => by
      simp [encodeMessage, hchunk, wire, plays]⟩
  | some chunk =>
    refine .request (.send chunk (RtmpMessageEncoder.newChunkSize message)) ()
      (proper_of_message h hchunk) fun k core => ?_
    simp only [encodeMessage, hchunk, RtmpMessageEncoder.encode_eq _ hchunk]
    cases message <;> rfl

theorem sendRtmpMessage_sends (csid : Nat) (message : RtmpMessage)
    (h : message.messageType ≠ .abort) : Sends (sendRtmpMessage csid message) := by
  unfold sendRtmpMessage
  split
  · exact .fail _
  · exact encodeMessage_sends _ h

/-- Every command is a command message. -/
theorem sendCommand_sends (csid : Nat) (header : RtmpMessageHeader) (command : RtmpCommand) :
    Sends (sendCommand csid header command) := by
  unfold sendCommand
  split
  · rename_i message h
    refine sendRtmpMessage_sends csid _ ?_
    unfold RtmpCommand.intoMessage at h
    split at h <;> cases h <;> intro habort <;> cases habort
  · exact .fail _

theorem sendAmf0Values_sends (csid : Nat) (streamId : UInt32) (values : List Amf0Value) :
    Sends (sendAmf0Values csid streamId values) := by
  unfold sendAmf0Values
  split
  · exact sendMessage_sends _ _ _ _ _ (by decide)
  · exact .fail _

theorem ignoreError_sends {m : CoreHandler Unit} (h : Sends m) : Sends (ignoreError m) := by
  refine .bind (.attempt h) fun r => ?_
  split
  · exact .fail _
  · exact .pure _

theorem sendNullResult_sends (txn : F64) : Sends (sendNullResult txn) :=
  ignoreError_sends (sendAmf0Values_sends _ _ _)

theorem sendOnBwDone_sends : Sends sendOnBwDone := ignoreError_sends (sendAmf0Values_sends _ _ _)

theorem sendSetChunkSize_sends (chunkSize : UInt32) : Sends (sendSetChunkSize chunkSize) :=
  .bind (.modify (fun _ _ => rfl) fun _ => rfl) fun _ => sendRtmpMessage_sends _ _ nofun

theorem sendUserControl_sends (eventType : UInt16) (value : UInt32) :
    Sends (sendUserControl eventType value) := sendMessage_sends _ _ _ _ _ (by decide)

theorem sendOnStatus_sends (streamId : UInt32) (level code description : String) :
    Sends (sendOnStatus streamId level code description) := sendCommand_sends _ _ _

theorem sendSeekRequest_sends (streamId : UInt32) (millis : F64) :
    Sends (sendSeekRequest streamId millis) := sendAmf0Values_sends _ _ _

theorem sendPauseRequest_sends (streamId : UInt32) (pause : Bool) (millis : F64) :
    Sends (sendPauseRequest streamId pause millis) := sendAmf0Values_sends _ _ _

theorem sendAcceptPlay_sends (streamId : UInt32) (emitPlayStatus emitSampleAccess : Bool) :
    Sends (sendAcceptPlay streamId emitPlayStatus emitSampleAccess) :=
  .bind (sendUserControl_sends _ _) fun _ =>
    .bind (.when _ (.bind (sendCommand_sends _ _ _) fun _ => sendCommand_sends _ _ _)) fun _ =>
    .when _ (sendRtmpMessage_sends _ _ nofun)

theorem handleMediaInput_sends (streamId timestampMs : UInt32) (mediaType : RtmpMediaType)
    (payload : Bytes) : Sends (handleMediaInput streamId timestampMs mediaType payload) := by
  refine .bind (.gets fun _ _ => rfl) fun activePublish => .bind (.gets fun _ _ => rfl)
    fun pendingPublish => ?_
  split
  · exact emitEvent_sends _
  split
  · refine .modify (fun k core => ?_) fun core => ?_
    · unfold pushPendingPublishMedia
      dsimp only
      split <;> rfl
    · unfold pushPendingPublishMedia
      dsimp only
      split <;> rfl
  · exact emitEvent_sends _

theorem flushPendingPublishMedia_sends (streamId : UInt32) :
    Sends (flushPendingPublishMedia streamId) := by
  refine .bind (.gets fun _ _ => rfl) fun pendingPublish => ?_
  split
  · exact .bind (.gets fun _ _ => rfl) fun _ => .bind (.forEach (fun _ => emitEvent_sends _) _)
      fun _ => .modify (fun _ _ => rfl) fun _ => rfl
  · exact .pure _

theorem emitResultReceived_sends (result : RtmpResultCommand) :
    Sends (emitResultReceived result) := by
  refine .bind (.gets fun _ _ => rfl) fun awaited => ?_
  dsimp only
  split
  · exact .bind (.modify (fun _ _ => rfl) fun _ => rfl) fun _ => emitEvent_sends _
  split
  · exact emitEvent_sends _
  split
  · exact .bind (.modify (fun _ _ => rfl) fun _ => rfl) fun _ => emitEvent_sends _
  · exact emitEvent_sends _

theorem emitOnStatusReceived_sends (status : RtmpOnStatusCommand) :
    Sends (emitOnStatusReceived status) := by
  refine .bind (.gets fun _ _ => rfl) fun pendingAction => ?_
  have hclear (event : RtmpEvent) : Sends (Handler.modify (fun core : RtmpCore =>
      { core with clientPendingAction := none }) >>= fun _ => emitEvent event) :=
    .bind (.modify (fun _ _ => rfl) fun _ => rfl) fun _ => emitEvent_sends _
  dsimp only
  split
  · exact hclear _
  split
  · exact hclear _
  split
  · exact hclear _
  · exact emitEvent_sends _

theorem clientHandleWireCommand_sends (name : String) (transactionId : TransactionId)
    (object : AmfValue) (args : List AmfValue) :
    Sends (clientHandleWireCommand name transactionId object args) := by
  unfold clientHandleWireCommand
  split
  · exact emitResultReceived_sends _
  · exact emitOnStatusReceived_sends _
  · exact emitEvent_sends _
  · exact emitEvent_sends _

theorem clientHandleUserControl_sends (event : RtmpUserControlEvent) :
    Sends (clientHandleUserControl event) := by
  unfold clientHandleUserControl
  split
  · exact sendRtmpMessage_sends _ _ nofun
  · exact emitEvent_sends _

theorem sendPingResponse_sends (timestamp : RtmpTimestamp) : Sends (sendPingResponse timestamp) :=
  sendRtmpMessage_sends _ _ nofun

theorem rejectPending_sends (streamId : UInt32) : Sends (Handler.modify (rejectPending streamId)) := by
  refine .modify (fun k core => ?_) fun core => ?_
  · show (if core.pendingPublish = some streamId then _ else _) = wire.put k (if _ then _ else _)
    split
    · rfl
    · rfl
  · unfold rejectPending
    split
    · rfl
    · rfl

/-- Closing the connection is the one command that leaves the phase. -/
theorem onCommand_sends (h : command ≠ .closeConnection) : Sends (onCommand command) := by
  cases command with
  | setWindowAckSize size => exact sendRtmpMessage_sends 2 (.newWinAckSize size) nofun
  | setPeerBandwidth size => exact sendRtmpMessage_sends 2 (.newSetPeerBandwidth size) nofun
  | setChunkSize size => exact sendSetChunkSize_sends size
  | sendAck sequenceNumber => exact sendRtmpMessage_sends 2 (.newAck sequenceNumber) nofun
  | sendPingResponse timestamp => exact sendPingResponse_sends timestamp
  | clientConnect app flashVer tcUrl =>
    exact sendCommand_sends 3 .PCM (.connect ⟨app, flashVer, tcUrl⟩)
  | clientCreateStream transactionId =>
    exact .bind (.modify (fun _ _ => rfl) fun _ => rfl) fun _ => sendCommand_sends _ _ _
  | clientPublish streamId transactionId streamName =>
    exact .bind (.modify (fun _ _ => rfl) fun _ => rfl) fun _ => sendCommand_sends _ _ _
  | clientPlay streamId transactionId streamName start =>
    exact .bind (.modify (fun _ _ => rfl) fun _ => rfl) fun _ => sendCommand_sends _ _ _
  | clientSeek streamId millis => exact sendSeekRequest_sends streamId millis
  | clientPause streamId pause millis => exact sendPauseRequest_sends streamId pause millis
  | clientHandleWireCommand messageStreamId name transactionId object args =>
    exact clientHandleWireCommand_sends _ _ _ _
  | clientObserveAck sequenceNumber => exact emitEvent_sends _
  | clientObserveWinAckSize size =>
    exact .bind (.modify (fun _ _ => rfl) fun _ => rfl) fun _ => emitEvent_sends _
  | clientHandleSetPeerBandwidth size responseWindowSize =>
    exact .bind (sendRtmpMessage_sends _ _ nofun) fun _ => emitEvent_sends _
  | clientObserveMediaData streamId timestampMs mediaType payload => exact emitEvent_sends _
  | clientHandleUserControl event => exact clientHandleUserControl_sends event
  | clientHandleUnhandledMessage message => exact emitEvent_sends _
  | acceptPublish streamId =>
    exact .bind (.modify (fun _ _ => rfl) fun _ => rfl) fun _ =>
      .bind (flushPendingPublishMedia_sends streamId) fun _ => sendCommand_sends _ _ _
  | rejectPublish streamId description =>
    exact .bind (rejectPending_sends streamId) fun _ => sendCommand_sends _ _ _
  | acceptPlay streamId => exact sendAcceptPlay_sends _ _ _
  | acceptPlayConfigured streamId emitPlayStatus emitSampleAccess =>
    exact sendAcceptPlay_sends _ _ _
  | rejectPlay streamId description => exact sendOnStatus_sends streamId _ _ _
  | sendMetadata streamId timestampMs payload =>
    exact sendMessage_sends 6 timestampMs 18 streamId payload (by decide)
  | sendAudio streamId timestampMs payload =>
    exact sendMessage_sends 4 timestampMs 8 streamId payload (by decide)
  | sendVideo streamId timestampMs payload =>
    exact sendMessage_sends 6 timestampMs 9 streamId payload (by decide)
  | sendNotify streamId timestampMs payload =>
    exact sendMessage_sends 6 timestampMs 18 streamId payload (by decide)
  | closeStream streamId => exact sendUserControl_sends _ _
  | closeConnection => exact absurd rfl h

theorem handlePublishCommand_sends (streamId : UInt32) (streamName : String) :
    Sends (handlePublishCommand streamId streamName) :=
  .bind (.modify (fun _ _ => rfl) fun _ => rfl) fun _ => .bind (.gets fun _ _ => rfl) fun _ =>
    emitEvent_sends _

theorem handlePlayCommand_sends (streamId : UInt32) (streamName : String) :
    Sends (handlePlayCommand streamId streamName) :=
  .bind (.gets fun _ _ => rfl) fun _ => emitEvent_sends _

theorem handleDeleteStreamCommand_sends (streamId : UInt32) :
    Sends (handleDeleteStreamCommand streamId) := by
  refine .bind (.modify (fun k core => ?_) fun core => ?_) fun _ => emitEvent_sends _
  · by_cases hactive : core.activePublish = some streamId
    · by_cases hpending : core.pendingPublish = some streamId
      · simp [forgetStream, wire, withTransport, hactive, hpending, clearPendingPublish]
      · simp [forgetStream, wire, withTransport, hactive, hpending]
    · by_cases hpending : core.pendingPublish = some streamId
      · simp [forgetStream, wire, withTransport, hactive, hpending, clearPendingPublish]
      · simp [forgetStream, wire, withTransport, hactive, hpending]
  · unfold forgetStream clearPendingPublish
    dsimp only
    repeat' split
    all_goals rfl

theorem handleConnectCommand_sends (app tcUrl : String) (transactionIdRaw : F64) :
    Sends (handleConnectCommand app tcUrl transactionIdRaw) :=
  .bind (.modify (fun _ _ => rfl) fun _ => rfl) fun _ => .bind (sendCommand_sends _ _ _) fun _ =>
    .bind sendOnBwDone_sends fun _ => emitEvent_sends _

theorem handleCreateStreamCommand_sends (transactionIdRaw : F64) :
    Sends (handleCreateStreamCommand transactionIdRaw) :=
  .bind (.modifyGet (fun _ _ => rfl) fun _ => rfl) fun _ =>
    .bind (sendCommand_sends _ _ _) fun _ => emitEvent_sends _

theorem handleGetStreamLengthCommand_sends (transactionId : TransactionId) :
    Sends (handleGetStreamLengthCommand transactionId) := sendCommand_sends _ _ _

theorem handleUnstructuredCommand_sends (command : DecodedCommand) (streamId : UInt32) :
    Sends (handleUnstructuredCommand command streamId) := by
  have hanswer (event : RtmpEvent) :
      Sends (sendNullResult command.transactionIdRaw >>= fun _ => emitEvent event) :=
    .bind (sendNullResult_sends _) fun _ => emitEvent_sends _
  unfold handleUnstructuredCommand
  split
  · exact handleConnectCommand_sends _ _ _
  · exact handleCreateStreamCommand_sends _
  · exact handleGetStreamLengthCommand_sends _
  · exact handlePublishCommand_sends _ _
  · exact handlePlayCommand_sends _ _
  · exact handlePlayCommand_sends _ _
  · exact handleDeleteStreamCommand_sends _
  · exact handleDeleteStreamCommand_sends _
  · exact hanswer _
  · exact hanswer _
  · exact hanswer _
  · exact hanswer _
  · exact hanswer _
  · exact hanswer _
  · exact emitEvent_sends _
  · exact emitEvent_sends _
  · exact emitEvent_sends _

theorem dispatchCommand_sends (streamId : UInt32) (command : DecodedCommand) :
    Sends (dispatchCommand streamId command) := by
  unfold dispatchCommand
  split
  · exact handleConnectCommand_sends _ _ _
  · exact handleCreateStreamCommand_sends _
  · exact handleGetStreamLengthCommand_sends _
  · exact handlePublishCommand_sends _ _
  · exact handlePlayCommand_sends _ _
  · exact handleDeleteStreamCommand_sends _
  · exact emitResultReceived_sends _
  · exact emitOnStatusReceived_sends _
  · exact handleUnstructuredCommand_sends _ _

theorem onCommandMessage_sends (streamId : UInt32) (payload : Bytes) (amfVersion : AmfVersion) :
    Sends (onCommandMessage streamId payload amfVersion) := by
  refine .bind (.ofExcept _) fun command => ?_
  split
  · exact .pure _
  · exact dispatchCommand_sends _ _

theorem handleNotify_sends (msg : RtmpChunk) (event : Option RtmpEvent) :
    Sends (handleNotify msg event) := by
  cases event with
  | some event => exact emitEvent_sends event
  | none => exact handleMediaInput_sends _ _ _ _

theorem toleratingAmf0_sends (stop : Stop) : Sends (toleratingAmf0 stop) := by
  unfold toleratingAmf0
  split
  · exact .pure _
  · exact .fail _

theorem onDataAmf3_sends (msg : RtmpChunk) : Sends (onDataAmf3 msg) := by
  unfold onDataAmf3
  split
  · exact handleNotify_sends _ _
  · exact toleratingAmf0_sends _

theorem onCommandAmf3_sends (msg : RtmpChunk) : Sends (onCommandAmf3 msg) := by
  refine .bind (.attempt (onCommandMessage_sends _ _ _)) fun r => ?_
  split
  · exact .pure _
  · exact toleratingAmf0_sends _

theorem handleControl_handles (message : RtmpMessage) : Handles (handleControl message) := by
  unfold handleControl
  split
  · exact .modify (fun _ _ => rfl) fun _ => rfl
  · exact (emitEvent_sends _).handles
  · exact .bind (.modify (fun _ _ => rfl) fun _ => rfl) fun _ => (emitEvent_sends _).handles
  · exact (sendMessage_sends _ _ _ _ _ (by decide)).handles
  · exact .bind (.modifyGet (fun _ _ => rfl) fun _ => rfl) fun _ =>
      .bind (emitEvent_sends _).handles fun _ =>
      (sendMessage_sends _ _ _ _ _ (by decide)).handles
  · exact .modify (fun _ _ => rfl) fun _ => rfl
  · exact .pure _

theorem onMessageWithin_handles (depth : Nat) (msg : RtmpChunk) :
    Handles (onMessageWithin depth msg) := by
  induction depth generalizing msg with
  | zero => exact .pure _
  | succ depth ih =>
    unfold onMessageWithin
    cases msg.messageType with
    | audio => exact (handleMediaInput_sends _ _ _ _).handles
    | video => exact (handleMediaInput_sends _ _ _ _).handles
    | dataAmf3 => exact (onDataAmf3_sends msg).handles
    | dataAmf0 =>
      exact .bind (.ofExcept _) fun event => (handleNotify_sends msg event).handles
    | commandAmf0 => exact (onCommandMessage_sends _ _ _).handles
    | commandAmf3 => exact (onCommandAmf3_sends msg).handles
    | aggregate => exact .forEach ih _
    | _ => exact .bind (.ofExcept _) fun _ => handleControl_handles _

theorem onMessage_handles (msg : RtmpChunk) : Handles (onMessage msg) :=
  onMessageWithin_handles _ _

end Sends

end RtmpCore

end CheetahMedia.Rtmp
