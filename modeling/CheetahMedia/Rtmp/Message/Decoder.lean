import CheetahMedia.Rtmp.Chunk.Decoder
import CheetahMedia.Rtmp.Message

namespace CheetahMedia.Rtmp
open Lib

/-- Every value takes input, so the length of the buffer bounds their number. -/
def decodeAmfValuesWithin (amfVersion : AmfVersion) : Nat → BytesReader σ (List AmfValue)
  | 0 => return []
  | fuel + 1 => do
    let len ← Reader.remaining
    if len = 0 then return []
    else do
      let value ← AmfValue.decode amfVersion
      let values ← decodeAmfValuesWithin amfVersion fuel
      return value :: values

def decodeAmfValues (amfVersion : AmfVersion) : BytesReader σ (List AmfValue) := do
  let len ← Reader.remaining
  decodeAmfValuesWithin amfVersion len

def decodeCommandArgs (amfVersion : AmfVersion) (header : RtmpMessageHeader) :
    BytesReader σ RtmpMessage := do
  let name ← AmfValue.decode amfVersion
  let name ← Reader.ofExcept name.expectStr
  let transactionId ← AmfValue.decode amfVersion
  let transactionId ← Reader.ofExcept transactionId.expectNumber
  let object ← AmfValue.decode amfVersion
  let args ← decodeAmfValues amfVersion
  return .command header amfVersion name (.fromF64 transactionId) object args

/-- An AMF3 command that starts with a zero byte carries AMF0 values. -/
def decodeCommand (amfVersion : AmfVersion) (header : RtmpMessageHeader) :
    BytesReader σ RtmpMessage := do
  let first ← Reader.peek
  if amfVersion = .amf3 ∧ first = some 0 then do
    let _zero ← readU8
    decodeCommandArgs .amf0 header
  else decodeCommandArgs amfVersion header

def decodePayload (header : RtmpMessageHeader) (payload : Bytes) :
    RtmpMessageType → BytesReader σ RtmpMessage
  | .setChunkSize => do
    let size ← readU32
    return .setChunkSize header (.saturatingNew size.toNat)
  | .abort => do
    let id ← readU32
    match RtmpChunkStreamId.new id.toNat with
    | some chunkStreamId => return .abort header chunkStreamId
    | none => Reader.fail (.invalidData "invalid chunk stream ID")
  | .ack => do return .ack header (← readU32)
  | .winAckSize => do return .winAckSize header (← readU32)
  | .setPeerBandwidth => do
    let size ← readU32
    let limitType ← readU8
    let limitType ← Reader.ofExcept (SetPeerBandwidthLimitType.ofByte limitType)
    return .setPeerBandwidth header size limitType
  | .userControl => do return .userControl header (← RtmpUserControlEvent.decode)
  | .audio => do return .audio header (← decodeAudioFrame header.timestamp) payload
  | .video => do return .video header (← decodeVideoFrame header.timestamp) payload
  | .dataAmf0 => do return .data header .amf0 (← decodeAmfValues .amf0)
  | .dataAmf3 => do return .data header .amf3 (← decodeAmfValues .amf3)
  | .commandAmf0 => decodeCommand .amf0 header
  | .commandAmf3 => decodeCommand .amf3 header
  -- the core splits aggregates before it decodes messages
  | .aggregate => return .data header .amf0 []

def decodeRtmpChunkToMessage (chunk : RtmpChunk) : Except Error RtmpMessage :=
  let header : RtmpMessageHeader := ⟨chunk.messageStreamId, chunk.timestamp⟩
  match (decodePayload header chunk.payload chunk.messageType).run chunk.payload () with
  | (_, .ok (message, _)) => .ok message
  | (_, .error e) => .error e

structure RtmpMessageDecoder where
  chunkDecoder : RtmpChunkDecoder := {}
  buf : Buf := {}

namespace RtmpMessageDecoder

def feedBuf (d : RtmpMessageDecoder) (buf : Bytes) : RtmpMessageDecoder :=
  { d with buf := d.buf.feed buf }

/-- What a message does to the chunk layer below it. -/
def onMessage (d : RtmpChunkDecoder) : RtmpMessage → RtmpChunkDecoder
  | .setChunkSize _ size => d.setChunkSize size
  | .abort _ chunkStreamId => d.resetChunkStream chunkStreamId
  | _ => d

/-- One chunk costs at least one byte, so the length of the buffer bounds the calls. -/
@[grind =]
def decodeWithin : Nat → RtmpMessageDecoder → RtmpMessageDecoder × Except Error (Option RtmpMessage)
  | 0, d => (d, .ok none)
  | calls + 1, d =>
    match d.chunkDecoder.decode d.buf.get with
    | (chunkDecoder, .ok (size, none)) =>
      decodeWithin calls { chunkDecoder := chunkDecoder, buf := d.buf.advance size }
    | (chunkDecoder, .ok (size, some chunk)) =>
      let buf := d.buf.advance size
      match decodeRtmpChunkToMessage chunk with
      | .ok message =>
        ({ chunkDecoder := onMessage chunkDecoder message, buf := buf }, .ok (some message))
      | .error e => ({ chunkDecoder := chunkDecoder, buf := buf }, .error e)
    | (chunkDecoder, .error e) =>
      ({ d with chunkDecoder := chunkDecoder },
        if e.kind = .insufficientBuffer then .ok none else .error e)

def decode (d : RtmpMessageDecoder) : RtmpMessageDecoder × Except Error (Option RtmpMessage) :=
  decodeWithin (d.buf.get.length + 1) d

end RtmpMessageDecoder

end CheetahMedia.Rtmp
