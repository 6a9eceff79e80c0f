import CheetahMedia.Rtmp.Core.Outbound

namespace CheetahMedia.Rtmp
open Lib

section Values

def Amf0Value.string? : Amf0Value → Option String
  | .string s => some s
  | _ => none

def Amf3Value.string? : Amf3Value → Option String
  | .string s => some s
  | _ => none

def amfString : AmfValue → Option String
  | .amf0 v => v.string?
  | .amf3 v => v.string?

def amfNumber : AmfValue → Option F64
  | .amf0 (.number v) => some v
  | .amf3 (.integer v) => some (.ofInt v.toInt)
  | .amf3 (.double v) => some v
  | _ => none

/-- A number is true unless it is zero; NaN is not zero. -/
def amfBool : AmfValue → Option Bool
  | .amf0 (.boolean v) => some v
  | .amf0 (.number v) => some !v.isZero
  | .amf3 (.boolean v) => some v
  | _ => none

def amfStringAt (args : List AmfValue) (idx : Nat) : Option String := args[idx]?.bind amfString

def objectMemberString (object : AmfValue) (key : String) : Option String :=
  match object with
  | .amf0 (.object _ entries) | .amf0 (.ecmaArray entries) =>
    (entries.reverse.find? (·.key = key)).bind (·.value.string?)
  | .amf3 (.object _ _ entries) => (entries.reverse.find? (·.key = key)).bind (·.value.string?)
  | _ => none

/-- A finite number in the range of stream ids other than zero. -/
def commandTargetStreamId (args : List AmfValue) : Option UInt32 := do
  let streamId ← amfNumber (← args.head?)
  if ¬ streamId.isFinite ∨ streamId.diffAtMost ⟨0⟩ 0 ∨
      ¬ streamId.diffAtMost (.ofInt 0xFFFFFFFF) 0 then none
  else some (.ofNat streamId.toI64.toInt.toNat)

/-- An AMF3 payload that starts with a zero byte carries AMF0 values. -/
def normalizeAmfPayload (payload : Bytes) (amfVersion : AmfVersion) : Bytes × AmfVersion :=
  if amfVersion = .amf3 ∧ payload.head? = some 0 then (payload.drop 1, .amf0)
  else (payload, amfVersion)

def decodeWhole (reader : BytesReader Unit α) (payload : Bytes) : Except Stop α :=
  match (reader.run payload ()).2 with
  | .ok (value, _) => .ok value
  | .error e => .error (.error (.amf0 e.text))

/-- All values of a payload. -/
def decodePayloadValues (payload : Bytes) (amfVersion : AmfVersion) :
    Except Stop (List AmfValue) :=
  let (payload, amfVersion) := normalizeAmfPayload payload amfVersion
  decodeWhole (decodeAmfValues amfVersion) payload

structure DecodedCommand where
  name : String
  transactionId : TransactionId
  transactionIdRaw : F64
  object : AmfValue
  args : List AmfValue

/-- Missing values take their defaults, and so does a transaction id that is no number. -/
def decodeCommandValues (amfVersion : AmfVersion) : BytesReader Unit DecodedCommand := do
  let name ← AmfValue.decode amfVersion
  let values ← decodeAmfValues amfVersion
  let transactionIdRaw := (values.head?.bind amfNumber).getD ⟨0⟩
  return {
    name := (amfString name).getD ""
    transactionId := .fromF64 transactionIdRaw
    transactionIdRaw := transactionIdRaw
    object := values[1]?.getD .null
    args := values.drop 2 }

def decodePayloadCommand (payload : Bytes) (amfVersion : AmfVersion) :
    Except Stop (Option DecodedCommand) :=
  if payload = [] then .ok none
  else
    let (payload, amfVersion) := normalizeAmfPayload payload amfVersion
    some <$> decodeWhole (decodeCommandValues amfVersion) payload

def canonicalCommandName : String → Option String
  | "connect" => some "connect"
  | "createstream" => some "createStream"
  | "publish" => some "publish"
  | "play" => some "play"
  | "deletestream" => some "deleteStream"
  | "getstreamlength" => some "getStreamLength"
  | "_result" => some "_result"
  | "_error" => some "_error"
  | "onstatus" => some "onStatus"
  | _ => none

def eqIgnoreCase (s t : String) : Bool := s.toLower = t.toLower

/-- Metadata with or without the request to store it, or any other notification. -/
def notifyEvent (messageStreamId : UInt32) (values : List AmfValue) : Option RtmpEvent :=
  if values = [] then none
  else
    let first := (amfStringAt values 0).getD ""
    if eqIgnoreCase first "@setDataFrame" then
      if ((amfStringAt values 1).map (eqIgnoreCase · "onMetaData")).getD false then
        some (.metadata messageStreamId values)
      else some (.notify messageStreamId first values)
    else if eqIgnoreCase first "onMetaData" then some (.metadata messageStreamId values)
    else some (.notify messageStreamId first values)

def onNotifyMessage (messageStreamId : UInt32) (payload : Bytes) (amfVersion : AmfVersion) :
    Except Stop (Option RtmpEvent) :=
  notifyEvent messageStreamId <$> decodePayloadValues payload amfVersion

end Values

namespace RtmpCore

/-- The names that a request goes by before `connect` has given them. -/
def target (core : RtmpCore) : String × String :=
  let app := core.connectedApp.getD "live"
  (app, core.connectedTcUrl.getD s!"rtmp:///{app}")

def handlePublishCommand (messageStreamId : UInt32) (streamName : String) :
    CoreHandler Unit := do
  Handler.modify fun core => { core with
    activePublish := none
    pendingPublish := some messageStreamId
    pendingMedia := []
    pendingMediaBytes := 0 }
  let (app, tcUrl) ← Handler.gets target
  emitEvent (.publishRequested messageStreamId app tcUrl streamName)

def handlePlayCommand (messageStreamId : UInt32) (streamName : String) : CoreHandler Unit := do
  let (app, tcUrl) ← Handler.gets target
  emitEvent (.playRequested messageStreamId app tcUrl streamName)

def forgetStream (streamId : UInt32) (core : RtmpCore) : RtmpCore :=
  let core := if core.activePublish = some streamId then { core with activePublish := none }
    else core
  if core.pendingPublish = some streamId then core.clearPendingPublish else core

def handleDeleteStreamCommand (streamId : UInt32) : CoreHandler Unit := do
  Handler.modify (forgetStream streamId)
  emitEvent (.streamClosed streamId)

def handleConnectCommand (app tcUrl : String) (transactionIdRaw : F64) : CoreHandler Unit := do
  Handler.modify fun core => { core with connectedApp := some app, connectedTcUrl := some tcUrl }
  sendConnectResult transactionIdRaw
  sendOnBwDone
  emitEvent (.connected app tcUrl)

def handleCreateStreamCommand (transactionIdRaw : F64) : CoreHandler Unit := do
  let streamId ← Handler.modifyGet allocateStreamId
  sendCreateStreamResult transactionIdRaw streamId
  emitEvent (.streamCreated streamId)

def handleGetStreamLengthCommand (transactionId : TransactionId) : CoreHandler Unit :=
  sendCommand 3 .PCM (.result (.getStreamLengthResult transactionId ⟨0⟩))

/-- Commands that encoders and players send on the side; they wait for an answer. -/
def acknowledgeSideBand (command : DecodedCommand) : CoreHandler Unit := do
  sendNullResult command.transactionIdRaw
  emitEvent (.commandIgnored command.name (.text "side-band command acknowledged"))

def handleSeekCommand (command : DecodedCommand) (messageStreamId : UInt32) :
    CoreHandler Unit := do
  sendNullResult command.transactionIdRaw
  emitEvent (.seekRequested messageStreamId ((command.args.head?.bind amfNumber).getD ⟨0⟩))

def handlePauseCommand (command : DecodedCommand) (messageStreamId : UInt32) :
    CoreHandler Unit := do
  sendNullResult command.transactionIdRaw
  emitEvent (.pauseRequested messageStreamId ((command.args.head?.bind amfBool).getD true)
    ((command.args[1]?.bind amfNumber).getD ⟨0⟩))

def handleUnstructuredCommand (command : DecodedCommand) (messageStreamId : UInt32) :
    CoreHandler Unit :=
  match command.name.toLower with
  | "connect" =>
    handleConnectCommand ((objectMemberString command.object "app").getD "live")
      ((objectMemberString command.object "tcUrl").getD "") command.transactionIdRaw
  | "createstream" => handleCreateStreamCommand command.transactionIdRaw
  | "getstreamlength" => handleGetStreamLengthCommand command.transactionId
  | "publish" => handlePublishCommand messageStreamId ((amfStringAt command.args 0).getD "")
  | "play" | "play2" => handlePlayCommand messageStreamId ((amfStringAt command.args 0).getD "")
  | "deletestream" | "closestream" =>
    handleDeleteStreamCommand ((commandTargetStreamId command.args).getD messageStreamId)
  | "fcpublish" | "fcunpublish" | "releasestream" | "_checkbw" => acknowledgeSideBand command
  | "seek" => handleSeekCommand command messageStreamId
  | "pause" => handlePauseCommand command messageStreamId
  | "receivevideo" =>
    emitEvent (.receiveVideo messageStreamId ((command.args.head?.bind amfBool).getD true))
  | "receiveaudio" =>
    emitEvent (.receiveAudio messageStreamId ((command.args.head?.bind amfBool).getD true))
  | _ => emitEvent (.commandIgnored command.name (.text "unsupported command ignored"))

def parseCommand (command : DecodedCommand) : Option RtmpCommand := do
  let name ← canonicalCommandName command.name.toLower
  (RtmpCommand.fromMessage name command.transactionId command.object command.args).toOption

def dispatchCommand (messageStreamId : UInt32) (command : DecodedCommand) : CoreHandler Unit :=
  match parseCommand command with
  | some (.connect connect) =>
    handleConnectCommand connect.app connect.tcUrl command.transactionIdRaw
  | some (.createStream createStream) => handleCreateStreamCommand createStream.transactionId.toF64
  | some (.getStreamLength getStreamLength) =>
    handleGetStreamLengthCommand getStreamLength.transactionId
  | some (.publish publish) => handlePublishCommand messageStreamId publish.streamName
  | some (.play play) => handlePlayCommand messageStreamId play.streamName
  | some (.deleteStream deleteStream) =>
    handleDeleteStreamCommand
      (if deleteStream.streamId.id = 0 then messageStreamId else deleteStream.streamId.id)
  | some (.result result) => emitResultReceived result
  | some (.onStatus status) => emitOnStatusReceived status
  | _ => handleUnstructuredCommand command messageStreamId

def onCommandMessage (messageStreamId : UInt32) (payload : Bytes) (amfVersion : AmfVersion) :
    CoreHandler Unit := do
  match ← Handler.ofExcept (decodePayloadCommand payload amfVersion) with
  | none => pure ()
  | some command => dispatchCommand messageStreamId command

end RtmpCore

end CheetahMedia.Rtmp
