import CheetahMedia.Rtmp.Core.Publication

namespace CheetahMedia.Rtmp
open Lib
open Lib.Handler hiding pure

/-- The publication does not move when this is put out. -/
def Emission.Calm : Emission → Prop
  | .event (.mediaData ..) => False
  | .event (.publishRequested ..) => False
  | .event (.streamClosed _) => False
  | _ => True

namespace RtmpCore

/-- A handler that leaves the publication alone. -/
abbrev Quiet (m : CoreHandler α) : Prop := Keeps publication Emission.Calm m

theorem emitEvent_quiet {event : RtmpEvent} (h : Emission.Calm (.event event)) :
    Quiet (emitEvent event) := .emit h

section Sending

theorem encodeRawChunk_quiet (chunk : RtmpChunk) : Quiet (encodeRawChunk chunk) :=
  fun _ => ⟨rfl, List.forall_mem_singleton.mpr trivial⟩

theorem sendMessage_quiet (csid : Nat) (timestamp : UInt32) (messageType : UInt8)
    (streamId : UInt32) (payload : Bytes) :
    Quiet (sendMessage csid timestamp messageType streamId payload) := by
  unfold sendMessage
  split
  · exact .fail _
  · exact .bind (.ofExcept _) fun _ => encodeRawChunk_quiet _

theorem encodeMessage_quiet (csid : RtmpChunkStreamId) (message : RtmpMessage) :
    Quiet (encodeMessage csid message) := by
  intro core
  unfold encodeMessage
  dsimp only
  split
  · exact ⟨rfl, List.forall_mem_singleton.mpr trivial⟩
  · exact ⟨rfl, List.forall_mem_nil _⟩

theorem sendRtmpMessage_quiet (csid : Nat) (message : RtmpMessage) :
    Quiet (sendRtmpMessage csid message) := by
  unfold sendRtmpMessage
  split
  · exact .fail _
  · exact encodeMessage_quiet _ _

theorem sendCommand_quiet (csid : Nat) (header : RtmpMessageHeader) (command : RtmpCommand) :
    Quiet (sendCommand csid header command) := by
  unfold sendCommand
  split
  · exact sendRtmpMessage_quiet _ _
  · exact .fail _

theorem sendAmf0Values_quiet (csid : Nat) (streamId : UInt32) (values : List Amf0Value) :
    Quiet (sendAmf0Values csid streamId values) := by
  unfold sendAmf0Values
  split
  · exact sendMessage_quiet _ _ _ _ _
  · exact .fail _

theorem ignoreError_quiet {m : CoreHandler Unit} (h : Quiet m) : Quiet (ignoreError m) := by
  refine .bind (.attempt h) fun r => ?_
  split
  · exact .fail _
  · exact .pure _

theorem sendNullResult_quiet (txn : F64) : Quiet (sendNullResult txn) :=
  ignoreError_quiet (sendAmf0Values_quiet _ _ _)

theorem sendSetChunkSize_quiet (chunkSize : UInt32) : Quiet (sendSetChunkSize chunkSize) :=
  .bind (.modify fun _ => rfl) fun _ => sendRtmpMessage_quiet _ _

theorem sendAcceptPlay_quiet (streamId : UInt32) (emitPlayStatus emitSampleAccess : Bool) :
    Quiet (sendAcceptPlay streamId emitPlayStatus emitSampleAccess) :=
  .bind (sendMessage_quiet _ _ _ _ _) fun _ =>
    .bind (.when _ (.bind (sendCommand_quiet _ _ _) fun _ => sendCommand_quiet _ _ _)) fun _ =>
    .when _ (sendRtmpMessage_quiet _ _)

theorem emitResultReceived_quiet (result : RtmpResultCommand) :
    Quiet (emitResultReceived result) := by
  refine .bind (.gets _) fun awaited => ?_
  dsimp only
  split
  · exact .bind (.modify fun _ => rfl) fun _ => emitEvent_quiet trivial
  split
  · exact emitEvent_quiet trivial
  split
  · exact .bind (.modify fun _ => rfl) fun _ => emitEvent_quiet trivial
  · exact emitEvent_quiet trivial

theorem emitOnStatusReceived_quiet (status : RtmpOnStatusCommand) :
    Quiet (emitOnStatusReceived status) := by
  refine .bind (.gets _) fun pendingAction => ?_
  dsimp only
  split
  · exact .bind (.modify fun _ => rfl) fun _ => emitEvent_quiet trivial
  split
  · exact .bind (.modify fun _ => rfl) fun _ => emitEvent_quiet trivial
  split
  · exact .bind (.modify fun _ => rfl) fun _ => emitEvent_quiet trivial
  · exact emitEvent_quiet trivial

theorem clientHandleWireCommand_quiet (name : String) (transactionId : TransactionId)
    (object : AmfValue) (args : List AmfValue) :
    Quiet (clientHandleWireCommand name transactionId object args) := by
  unfold clientHandleWireCommand
  split
  · exact emitResultReceived_quiet _
  · exact emitOnStatusReceived_quiet _
  · exact emitEvent_quiet trivial
  · exact emitEvent_quiet trivial

theorem clientHandleUserControl_quiet (event : RtmpUserControlEvent) :
    Quiet (clientHandleUserControl event) := by
  unfold clientHandleUserControl
  split
  · exact sendRtmpMessage_quiet _ _
  · exact emitEvent_quiet trivial

/-- A command that publishing does not obey. -/
theorem onCommand_quiet (h : ∀ p : Publication, p.obey command = (p, [])) :
    Quiet (onCommand command) := by
  have hinitial := h { active := some 0 }
  unfold onCommand
  cases command with
  | setWindowAckSize size => exact sendRtmpMessage_quiet _ _
  | setPeerBandwidth size => exact sendRtmpMessage_quiet _ _
  | setChunkSize size => exact sendSetChunkSize_quiet _
  | sendAck sequenceNumber => exact sendRtmpMessage_quiet _ _
  | sendPingResponse timestamp => exact sendRtmpMessage_quiet _ _
  | clientConnect app flashVer tcUrl => exact sendCommand_quiet _ _ _
  | clientCreateStream transactionId =>
    exact .bind (.modify fun _ => rfl) fun _ => sendCommand_quiet _ _ _
  | clientPublish streamId transactionId streamName =>
    exact .bind (.modify fun _ => rfl) fun _ => sendCommand_quiet _ _ _
  | clientPlay streamId transactionId streamName start =>
    exact .bind (.modify fun _ => rfl) fun _ => sendCommand_quiet _ _ _
  | clientSeek streamId millis => exact sendAmf0Values_quiet _ _ _
  | clientPause streamId pause millis => exact sendAmf0Values_quiet _ _ _
  | clientHandleWireCommand messageStreamId name transactionId object args =>
    exact clientHandleWireCommand_quiet _ _ _ _
  | clientObserveAck sequenceNumber => exact emitEvent_quiet trivial
  | clientObserveWinAckSize size =>
    exact .bind (.modify fun _ => rfl) fun _ => emitEvent_quiet trivial
  | clientHandleSetPeerBandwidth size responseWindowSize =>
    exact .bind (sendRtmpMessage_quiet _ _) fun _ => emitEvent_quiet trivial
  | clientObserveMediaData streamId timestampMs mediaType payload => cases hinitial
  | clientHandleUserControl event => exact clientHandleUserControl_quiet _
  | clientHandleUnhandledMessage message => exact emitEvent_quiet trivial
  | acceptPublish streamId =>
    have haccept := h { active := some (streamId + 1) }
    simp [Publication.obey, Publication.accept] at haccept
  | rejectPublish streamId description =>
    have hreject := h { pending := some streamId }
    simp [Publication.obey, Publication.reject, Publication.clear] at hreject
  | acceptPlay streamId => exact sendAcceptPlay_quiet _ _ _
  | acceptPlayConfigured streamId emitPlayStatus emitSampleAccess =>
    exact sendAcceptPlay_quiet _ _ _
  | rejectPlay streamId description => exact sendCommand_quiet _ _ _
  | sendMetadata streamId timestampMs payload => exact sendMessage_quiet _ _ _ _ _
  | sendAudio streamId timestampMs payload => exact sendMessage_quiet _ _ _ _ _
  | sendVideo streamId timestampMs payload => exact sendMessage_quiet _ _ _ _ _
  | sendNotify streamId timestampMs payload => exact sendMessage_quiet _ _ _ _ _
  | closeStream streamId => exact sendMessage_quiet _ _ _ _ _
  | closeConnection => cases hinitial

end Sending

section Receiving

theorem acknowledge_quiet (n : Nat) : Quiet (acknowledge n) := by
  refine .bind (.modify fun _ => rfl) fun _ => .bind (.modifyGet fun core => ?_) fun ack => ?_
  · unfold takeAck
    split
    · rfl
    · rfl
  · cases ack with
    | some value => exact sendMessage_quiet 2 0 RtmpMessageType.ack.typeId 0 (writeU32 value)
    | none => exact .pure _

theorem decodeInput_publication (core : RtmpCore) :
    (decodeInput core).1.publication = core.publication := by
  unfold decodeInput
  split
  · rfl
  · rfl

theorem feedHandshake_publication (bytes : Bytes) (core : RtmpCore) :
    (feedHandshake bytes core).1.publication = core.publication := by
  have hserver (handshake : RtmpServerHandshake) :
      (feedHandshake.feedServer bytes core handshake).1.publication = core.publication := by
    unfold feedHandshake.feedServer
    split
    · rfl
    · rfl
  unfold feedHandshake
  split
  · rfl
  split
  · split
    · rfl
    · exact hserver _
  · exact hserver _

theorem takeRemaining_publication (core : RtmpCore) :
    (takeRemaining core).1.publication = core.publication := by
  unfold takeRemaining
  split
  · rfl
  · rfl

theorem emitHandshake_quiet (pending : Bytes) : Quiet (emitHandshake pending) :=
  .when _ (.emit trivial)

theorem startSession_quiet : Quiet startSession :=
  .bind (.gets _) fun _ => .bind (sendSetChunkSize_quiet _) fun _ =>
    .bind (sendRtmpMessage_quiet _ _) fun _ => sendRtmpMessage_quiet _ _

theorem handleControl_quiet (message : RtmpMessage) : Quiet (handleControl message) := by
  unfold handleControl
  split
  · exact .modify fun _ => rfl
  · exact emitEvent_quiet trivial
  · exact .bind (.modify fun _ => rfl) fun _ => emitEvent_quiet trivial
  · exact sendMessage_quiet _ _ _ _ _
  · exact .bind (.modifyGet fun _ => rfl) fun _ => .bind (emitEvent_quiet trivial) fun _ =>
      sendMessage_quiet _ _ _ _ _
  · exact .modify fun _ => rfl
  · exact .pure _

theorem handleControlMessage_quiet (msg : RtmpChunk) : Quiet (handleControlMessage msg) :=
  .bind (.ofExcept _) fun _ => handleControl_quiet _

theorem handlePlayCommand_quiet (streamId : UInt32) (streamName : String) :
    Quiet (handlePlayCommand streamId streamName) :=
  .bind (.gets _) fun _ => emitEvent_quiet trivial

theorem handleConnectCommand_quiet (app tcUrl : String) (transactionIdRaw : F64) :
    Quiet (handleConnectCommand app tcUrl transactionIdRaw) :=
  .bind (.modify fun _ => rfl) fun _ => .bind (sendCommand_quiet _ _ _) fun _ =>
    .bind (ignoreError_quiet (sendAmf0Values_quiet _ _ _)) fun _ => emitEvent_quiet trivial

theorem handleCreateStreamCommand_quiet (transactionIdRaw : F64) :
    Quiet (handleCreateStreamCommand transactionIdRaw) :=
  .bind (.modifyGet fun _ => rfl) fun _ => .bind (sendCommand_quiet _ _ _) fun _ =>
    emitEvent_quiet trivial

/-- Notifications are no media. -/
theorem notifyEvent_calm (h : notifyEvent streamId values = some event) :
    Emission.Calm (.event event) := by
  unfold notifyEvent at h
  split at h
  · cases h
  dsimp only at h
  split at h
  · split at h
    · cases h
      trivial
    · cases h
      trivial
  split at h
  · cases h
    trivial
  · cases h
    trivial

theorem onNotifyMessage_calm (h : onNotifyMessage streamId payload amfVersion = .ok (some event)) :
    Emission.Calm (.event event) := by
  unfold onNotifyMessage at h
  cases hvalues : decodePayloadValues payload amfVersion with
  | error e =>
    rw [hvalues] at h
    cases h
  | ok values =>
    rw [hvalues] at h
    exact notifyEvent_calm (Except.ok.inj h)

theorem toleratingAmf0_quiet (stop : Stop) : Quiet (toleratingAmf0 stop) := by
  unfold toleratingAmf0
  split
  · exact .pure _
  · exact .fail _

end Receiving

end RtmpCore

end CheetahMedia.Rtmp
