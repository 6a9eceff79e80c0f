import CheetahMedia.Rtmp.Message
import Mathlib.Data.List.Infix

namespace CheetahMedia.Rtmp
open Lib

structure RtmpConnectCommand where
  app : String
  flashVer : String
  tcUrl : String

structure RtmpCreateStreamCommand where
  transactionId : TransactionId

structure RtmpPublishCommand where
  transactionId : TransactionId
  streamName : String

structure RtmpPlayCommand where
  transactionId : TransactionId
  streamName : String
  start : F64

structure RtmpDeleteStreamCommand where
  transactionId : TransactionId
  streamId : RtmpMessageStreamId

structure RtmpGetStreamLengthCommand where
  transactionId : TransactionId
  streamName : String

structure RtmpResultCommand where
  transactionId : TransactionId
  properties : AmfValue
  information : AmfValue

structure RtmpOnStatusCommand where
  level : String
  code : String
  description : Option String
  details : Option String

inductive RtmpCommand
  | connect (command : RtmpConnectCommand)
  | createStream (command : RtmpCreateStreamCommand)
  | publish (command : RtmpPublishCommand)
  | play (command : RtmpPlayCommand)
  | deleteStream (command : RtmpDeleteStreamCommand)
  | getStreamLength (command : RtmpGetStreamLengthCommand)
  | result (command : RtmpResultCommand)
  | onStatus (command : RtmpOnStatusCommand)
  | ignore (name : String) (object : AmfValue) (args : List AmfValue)

/-- A member that may be missing or of another type. -/
def AmfValue.optionalStr (key : String) (object : AmfValue) : Option String :=
  ((object.expectObjectMember key).bind AmfValue.expectStr).toOption

def AmfValue.null : AmfValue := .amf0 .null

def firstArg (reason : String) (args : List AmfValue) : Except Error AmfValue :=
  match args.head? with
  | some value => .ok value
  | none => .error (.invalidData reason)

def secondArg (reason : String) (args : List AmfValue) : Except Error AmfValue :=
  firstArg reason args.tail

def RtmpConnectCommand.fromMessage (transactionId : TransactionId) (object : AmfValue) :
    Except Error RtmpConnectCommand :=
  if transactionId ≠ .CONNECT then
    .error (.invalidData ("invalid transaction ID for connect command: expected " ++
      s!"{TransactionId.CONNECT.id}, got {transactionId.id}"))
  else do
    let app ← object.expectObjectMember "app"
    let app ← app.expectStr
    let tcUrl ← object.expectObjectMember "tcUrl"
    let tcUrl ← tcUrl.expectStr
    return ⟨app, (object.optionalStr "flashVer").getD "FMLE/3.0", tcUrl⟩

def RtmpPublishCommand.fromMessage (transactionId : TransactionId) (args : List AmfValue) :
    Except Error RtmpPublishCommand := do
  let streamName ← firstArg "publish: missing stream name" args
  let streamName ← streamName.expectStr
  let publishType ← secondArg "publish: missing publish type" args
  let publishType ← publishType.expectStr
  if publishType ≠ "live" then
    .error (.unsupported s!"unsupported publish type: {publishType} (only 'live' is supported)")
  else return ⟨transactionId, streamName⟩

def RtmpPlayCommand.fromMessage (transactionId : TransactionId) (args : List AmfValue) :
    Except Error RtmpPlayCommand := do
  let streamName ← firstArg "play: missing stream name" args
  let streamName ← streamName.expectStr
  let start ← secondArg "play: missing start position" args
  let start ← start.expectNumber
  return ⟨transactionId, streamName, start⟩

/-- Negative ids become zero, large ones wrap. -/
def RtmpDeleteStreamCommand.fromMessage (transactionId : TransactionId) (args : List AmfValue) :
    Except Error RtmpDeleteStreamCommand := do
  let streamId ← firstArg "deleteStream: missing stream id" args
  let streamId ← streamId.expectNumber
  return ⟨transactionId, ⟨.ofNat (roundF64ToI64 streamId).toInt.toNat⟩⟩

def RtmpGetStreamLengthCommand.fromMessage (transactionId : TransactionId)
    (args : List AmfValue) : Except Error RtmpGetStreamLengthCommand := do
  let streamName ← firstArg "getStreamLength: missing stream name" args
  let streamName ← streamName.expectStr
  return ⟨transactionId, streamName⟩

namespace RtmpResultCommand

def getStreamLengthResult (transactionId : TransactionId) (length : F64) : RtmpResultCommand :=
  ⟨transactionId, .null, .amf0 (.number length)⟩

def createStreamResult (transactionId : TransactionId) (streamId : RtmpMessageStreamId) :
    RtmpResultCommand :=
  ⟨transactionId, .null, .amf0 (.number (.ofInt streamId.id.toNat))⟩

def fromMessage (transactionId : TransactionId) (object : AmfValue) (args : List AmfValue) :
    Except Error RtmpResultCommand := do
  let information ← firstArg "_result: missing information argument" args
  return ⟨transactionId, object, information⟩

/-- No letter outside ASCII has one of the letters of "error" as its lower case. -/
def isError (command : RtmpResultCommand) : Bool :=
  match command.information.optionalStr "code" with
  | some code => decide ("error".toList <:+: code.toLower.toList)
  | none => false

end RtmpResultCommand

def RtmpOnStatusCommand.fromMessage (args : List AmfValue) : Except Error RtmpOnStatusCommand := do
  let status ← firstArg "onStatus: missing status object" args
  let level ← status.expectObjectMember "level"
  let level ← level.expectStr
  let code ← status.expectObjectMember "code"
  let code ← code.expectStr
  return ⟨level, code, status.optionalStr "description", status.optionalStr "details"⟩

namespace RtmpCommand

/-- A command in AMF0 values. -/
def amf0Message (header : RtmpMessageHeader) (name : String) (transactionId : TransactionId)
    (object : AmfValue) (args : List AmfValue) : RtmpMessage :=
  .command header .amf0 name transactionId object args

def intoMessage (header : RtmpMessageHeader) : RtmpCommand → Except Error RtmpMessage
  | .ignore _ _ _ => .error (.invalidState "BUG")
  | .onStatus command =>
    let description := command.description.toList.map fun s => ("description", Amf0Value.string s)
    let details := command.details.toList.map fun s => ("details", Amf0Value.string s)
    let status := AmfValue.amf0Object ([("level", .string command.level),
      ("code", .string command.code)] ++ description ++ details)
    .ok (amf0Message header "onStatus" .ON_STATUS .null [status])
  | .connect command =>
    .ok (amf0Message header "connect" .CONNECT
      (.amf0Object [("app", .string command.app), ("flashVer", .string command.flashVer),
        ("tcUrl", .string command.tcUrl)]) [])
  | .createStream command =>
    .ok (amf0Message header "createStream" command.transactionId .null [])
  | .publish command =>
    .ok (amf0Message header "publish" command.transactionId .null
      [.amf0 (.string command.streamName), .amf0 (.string "live")])
  | .play command =>
    .ok (amf0Message header "play" command.transactionId .null
      [.amf0 (.string command.streamName), .amf0 (.number command.start)])
  | .deleteStream command =>
    .ok (amf0Message header "deleteStream" command.transactionId .null
      [.amf0 (.number (.ofInt command.streamId.id.toNat))])
  | .getStreamLength command =>
    .ok (amf0Message header "getStreamLength" command.transactionId .null
      [.amf0 (.string command.streamName)])
  | .result command =>
    .ok (amf0Message header "_result" command.transactionId command.properties
      [command.information])

/-- The parsers that ignore the command object take no part of it. -/
def fromMessage (name : String) (transactionId : TransactionId) (object : AmfValue)
    (args : List AmfValue) : Except Error RtmpCommand :=
  match name with
  | "connect" => .connect <$> RtmpConnectCommand.fromMessage transactionId object
  | "createStream" => .ok (.createStream ⟨transactionId⟩)
  | "publish" => .publish <$> RtmpPublishCommand.fromMessage transactionId args
  | "play" => .play <$> RtmpPlayCommand.fromMessage transactionId args
  | "deleteStream" => .deleteStream <$> RtmpDeleteStreamCommand.fromMessage transactionId args
  | "getStreamLength" =>
    .getStreamLength <$> RtmpGetStreamLengthCommand.fromMessage transactionId args
  | "_result" => .result <$> RtmpResultCommand.fromMessage transactionId object args
  | "_error" => .result <$> RtmpResultCommand.fromMessage transactionId object args
  | "onStatus" => .onStatus <$> RtmpOnStatusCommand.fromMessage args
  | _ => .ok (.ignore name object args)

end RtmpCommand

end CheetahMedia.Rtmp
