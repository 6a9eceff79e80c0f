import CheetahMedia.Rtmp.Amf
import CheetahMedia.Rtmp.Chunk
import CheetahMedia.Rtmp.Media

namespace CheetahMedia.Rtmp
open Lib
open Lib.Reader (Reads)

inductive RtmpUserControlEvent
  | streamBegin (streamId : RtmpMessageStreamId)
  | streamEof (streamId : RtmpMessageStreamId)
  | streamDry (streamId : RtmpMessageStreamId)
  | setBufferLength (streamId : RtmpMessageStreamId) (length : UInt32)
  | streamIsRecorded (streamId : RtmpMessageStreamId)
  | pingRequest (timestamp : RtmpTimestamp)
  | pingResponse (timestamp : RtmpTimestamp)
  | bufferEmpty (streamId : RtmpMessageStreamId)
  | bufferReady (streamId : RtmpMessageStreamId)

namespace RtmpUserControlEvent

@[match_pattern] abbrev EVENT_STREAM_BEGIN : UInt16 := 0
@[match_pattern] abbrev EVENT_STREAM_EOF : UInt16 := 1
@[match_pattern] abbrev EVENT_STREAM_DRY : UInt16 := 2
@[match_pattern] abbrev EVENT_SET_BUFFER_LENGTH : UInt16 := 3
@[match_pattern] abbrev EVENT_STREAM_IS_RECORDED : UInt16 := 4
@[match_pattern] abbrev EVENT_PING_REQUEST : UInt16 := 6
@[match_pattern] abbrev EVENT_PING_RESPONSE : UInt16 := 7
@[match_pattern] abbrev EVENT_BUFFER_EMPTY : UInt16 := 31
@[match_pattern] abbrev EVENT_BUFFER_READY : UInt16 := 32

def name : RtmpUserControlEvent → String
  | .streamBegin _ => "StreamBegin"
  | .streamEof _ => "StreamEof"
  | .streamDry _ => "StreamDry"
  | .setBufferLength _ _ => "SetBufferLength"
  | .streamIsRecorded _ => "StreamIsRecorded"
  | .pingRequest _ => "PingRequest"
  | .pingResponse _ => "PingResponse"
  | .bufferEmpty _ => "BufferEmpty"
  | .bufferReady _ => "BufferReady"

def encode : RtmpUserControlEvent → Bytes
  | .streamBegin streamId => writeU16 EVENT_STREAM_BEGIN ++ writeU32 streamId.id
  | .streamEof streamId => writeU16 EVENT_STREAM_EOF ++ writeU32 streamId.id
  | .streamDry streamId => writeU16 EVENT_STREAM_DRY ++ writeU32 streamId.id
  | .setBufferLength streamId length =>
    writeU16 EVENT_SET_BUFFER_LENGTH ++ (writeU32 streamId.id ++ writeU32 length)
  | .streamIsRecorded streamId => writeU16 EVENT_STREAM_IS_RECORDED ++ writeU32 streamId.id
  | .pingRequest timestamp => writeU16 EVENT_PING_REQUEST ++ writeU32 timestamp.millis
  | .pingResponse timestamp => writeU16 EVENT_PING_RESPONSE ++ writeU32 timestamp.millis
  | .bufferEmpty streamId => writeU16 EVENT_BUFFER_EMPTY ++ writeU32 streamId.id
  | .bufferReady streamId => writeU16 EVENT_BUFFER_READY ++ writeU32 streamId.id

def decodeEvent : UInt16 → BytesReader σ RtmpUserControlEvent
  | EVENT_STREAM_BEGIN => do return .streamBegin ⟨← readU32⟩
  | EVENT_STREAM_EOF => do return .streamEof ⟨← readU32⟩
  | EVENT_STREAM_DRY => do return .streamDry ⟨← readU32⟩
  | EVENT_SET_BUFFER_LENGTH => do
    let streamId ← readU32
    let length ← readU32
    return .setBufferLength ⟨streamId⟩ length
  | EVENT_STREAM_IS_RECORDED => do return .streamIsRecorded ⟨← readU32⟩
  | EVENT_PING_REQUEST => do return .pingRequest ⟨← readU32⟩
  | EVENT_PING_RESPONSE => do return .pingResponse ⟨← readU32⟩
  | EVENT_BUFFER_EMPTY => do return .bufferEmpty ⟨← readU32⟩
  | EVENT_BUFFER_READY => do return .bufferReady ⟨← readU32⟩
  | eventType => Reader.fail (.invalidData s!"unknown user control event type: {eventType}")

def decode : BytesReader σ RtmpUserControlEvent := do
  let eventType ← readU16
  decodeEvent eventType

theorem reads_encode (event : RtmpUserControlEvent) :
    Reads (decode : BytesReader σ RtmpUserControlEvent) event.encode event := by
  cases event with
  | setBufferLength streamId length =>
    exact (reads_u16 _).bind ((reads_u32 _).bind ((reads_u32 _).map _))
  | streamBegin streamId => exact (reads_u16 _).bind ((reads_u32 _).map _)
  | streamEof streamId => exact (reads_u16 _).bind ((reads_u32 _).map _)
  | streamDry streamId => exact (reads_u16 _).bind ((reads_u32 _).map _)
  | streamIsRecorded streamId => exact (reads_u16 _).bind ((reads_u32 _).map _)
  | pingRequest timestamp => exact (reads_u16 _).bind ((reads_u32 _).map _)
  | pingResponse timestamp => exact (reads_u16 _).bind ((reads_u32 _).map _)
  | bufferEmpty streamId => exact (reads_u16 _).bind ((reads_u32 _).map _)
  | bufferReady streamId => exact (reads_u16 _).bind ((reads_u32 _).map _)

end RtmpUserControlEvent

end CheetahMedia.Rtmp

namespace CheetahMedia.Rtmp
open Lib

structure TransactionId where
  id : Int64
deriving DecidableEq

/-- Half away from zero. The difference is exact: below 2^53 both operands are
multiples of the same unit, above it there is no fraction. -/
def roundF64ToI64 (value : F64) : Int64 :=
  let truncated := value.toI64
  let half := F64.one / 2
  if value.diffAtLeast ⟨0⟩ 0 then
    if value.diffAtLeast (.ofI64 truncated) half then F64.clampI64 (truncated.toInt + 1)
    else truncated
  else if value.diffAtMost (.ofI64 truncated) (-half) then F64.clampI64 (truncated.toInt - 1)
  else truncated

namespace TransactionId

def ON_STATUS : TransactionId := ⟨0⟩
def CONNECT : TransactionId := ⟨1⟩
def NON_RESERVED_START : TransactionId := ⟨2⟩

def fromF64 (id : F64) : TransactionId := ⟨roundF64ToI64 id⟩

def toF64 (t : TransactionId) : F64 := .ofI64 t.id

/-- An id that a double holds exactly has no fraction to round. -/
theorem fromF64_toF64 {t : TransactionId} (h : F64.Exact t.id) : fromF64 t.toF64 = t := by
  have hfin := F64.isFinite_ofI64 t.id
  have hnan := F64.isNaN_of_isFinite hfin
  have hhalf : 0 < F64.one / 2 := by decide +kernel
  have hup : (F64.ofI64 t.id).diffAtLeast (.ofI64 t.id) (F64.one / 2) = false := by
    simp [F64.diffAtLeast, hfin, hnan, hhalf]
  have hdown : (F64.ofI64 t.id).diffAtMost (.ofI64 t.id) (-(F64.one / 2)) = false := by
    simp only [F64.diffAtMost, hnan, hfin, Bool.false_eq_true, if_false, if_true, sub_self,
      decide_eq_false_iff_not]
    omega
  have hexact : (F64.ofI64 t.id).toI64 = t.id := h
  simp [fromF64, toF64, roundF64ToI64, hexact, hup, hdown]

end TransactionId

structure RtmpMessageHeader where
  streamId : RtmpMessageStreamId
  timestamp : RtmpTimestamp

def RtmpMessageHeader.PCM : RtmpMessageHeader := ⟨.PCM, .ZERO⟩

inductive SetPeerBandwidthLimitType
  | hard
  | soft
  | dynamic

namespace SetPeerBandwidthLimitType

def byte : SetPeerBandwidthLimitType → UInt8
  | .hard => 0
  | .soft => 1
  | .dynamic => 2

def ofByte : UInt8 → Except Error SetPeerBandwidthLimitType
  | 0 => .ok .hard
  | 1 => .ok .soft
  | 2 => .ok .dynamic
  | t => .error (.invalidData s!"invalid limit type: {t}")

@[simp] theorem ofByte_byte (t : SetPeerBandwidthLimitType) : ofByte t.byte = .ok t := by
  cases t <;> rfl

end SetPeerBandwidthLimitType

inductive RtmpMessage
  | setChunkSize (header : RtmpMessageHeader) (size : RtmpChunkSize)
  | abort (header : RtmpMessageHeader) (chunkStreamId : RtmpChunkStreamId)
  | ack (header : RtmpMessageHeader) (sequenceNumber : UInt32)
  | winAckSize (header : RtmpMessageHeader) (size : UInt32)
  | setPeerBandwidth (header : RtmpMessageHeader) (size : UInt32)
      (limitType : SetPeerBandwidthLimitType)
  | userControl (header : RtmpMessageHeader) (event : RtmpUserControlEvent)
  | audio (header : RtmpMessageHeader) (frame : AudioFrame) (payload : Bytes)
  | video (header : RtmpMessageHeader) (frame : VideoFrame) (payload : Bytes)
  | command (header : RtmpMessageHeader) (amfVersion : AmfVersion) (name : String)
      (transactionId : TransactionId) (object : AmfValue) (args : List AmfValue)
  | data (header : RtmpMessageHeader) (amfVersion : AmfVersion) (values : List AmfValue)

namespace RtmpMessage

def header : RtmpMessage → RtmpMessageHeader
  | .setChunkSize header _ => header
  | .abort header _ => header
  | .ack header _ => header
  | .winAckSize header _ => header
  | .setPeerBandwidth header _ _ => header
  | .userControl header _ => header
  | .audio header _ _ => header
  | .video header _ _ => header
  | .command header _ _ _ _ _ => header
  | .data header _ _ => header

def messageType : RtmpMessage → RtmpMessageType
  | .setChunkSize _ _ => .setChunkSize
  | .abort _ _ => .abort
  | .ack _ _ => .ack
  | .winAckSize _ _ => .winAckSize
  | .setPeerBandwidth _ _ _ => .setPeerBandwidth
  | .userControl _ _ => .userControl
  | .audio _ _ _ => .audio
  | .video _ _ _ => .video
  | .command _ .amf0 _ _ _ _ => .commandAmf0
  | .command _ .amf3 _ _ _ _ => .commandAmf3
  | .data _ .amf0 _ => .dataAmf0
  | .data _ .amf3 _ => .dataAmf3

end RtmpMessage

end CheetahMedia.Rtmp
