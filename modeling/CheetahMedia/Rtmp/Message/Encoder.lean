import CheetahMedia.Rtmp.Chunk.Encoder
import CheetahMedia.Rtmp.Message

namespace CheetahMedia.Rtmp

structure RtmpMessageEncoder where
  chunkEncoder : RtmpChunkEncoder := {}

namespace RtmpMessageEncoder

def setChunkSize (e : RtmpMessageEncoder) (size : RtmpChunkSize) : RtmpMessageEncoder :=
  { chunkEncoder := e.chunkEncoder.setChunkSize size }

def encodeRawChunk (e : RtmpMessageEncoder) (chunk : RtmpChunk) : Bytes × RtmpMessageEncoder :=
  let (bytes, chunkEncoder) := e.chunkEncoder.encode chunk
  (bytes, { chunkEncoder := chunkEncoder })

def encodeDataPayload : List AmfValue → Option Bytes
  | [] => some []
  | value :: values => do
    let bytes ← value.encode
    let rest ← encodeDataPayload values
    return bytes ++ rest

def encodeCommand (amfVersion : AmfVersion) (name : String) (transactionId : TransactionId)
    (object : AmfValue) (args : List AmfValue) : Option Bytes := do
  let name ← (AmfValue.ofStr amfVersion name).encode
  let transactionId ← (AmfValue.ofF64 amfVersion transactionId.toF64).encode
  let object ← object.encode
  let args ← encodeDataPayload args
  return name ++ (transactionId ++ (object ++ args))

def encodeMessagePayload : RtmpMessage → Option Bytes
  | .setChunkSize _ size => some (writeU32 (.ofNat size.size))
  | .abort _ chunkStreamId => some (writeU32 (.ofNat chunkStreamId.id))
  | .ack _ sequenceNumber => some (writeU32 sequenceNumber)
  | .winAckSize _ size => some (writeU32 size)
  | .setPeerBandwidth _ size limitType => some (writeU32 size ++ writeU8 limitType.byte)
  | .audio _ frame _ => some (encodeAudioFrame frame)
  | .video _ frame _ => encodeVideoFrame frame
  | .data _ _ values => encodeDataPayload values
  | .userControl _ event => some event.encode
  | .command _ amfVersion name transactionId object args =>
    encodeCommand amfVersion name transactionId object args

def messageToChunk (chunkStreamId : RtmpChunkStreamId) (message : RtmpMessage) :
    Option RtmpChunk := do
  let payload ← encodeMessagePayload message
  return {
    chunkStreamId := chunkStreamId
    messageStreamId := message.header.streamId
    messageType := message.messageType
    timestamp := message.header.timestamp
    payload := payload }

def newChunkSize : RtmpMessage → Option RtmpChunkSize
  | .setChunkSize _ size => some size
  | _ => none

/-- A new chunk size holds from the message after the one that announces it. -/
def afterMessage (e : RtmpChunkEncoder) (message : RtmpMessage) : RtmpChunkEncoder :=
  match newChunkSize message with
  | some size => e.setChunkSize size
  | none => e

def encode (e : RtmpMessageEncoder) (chunkStreamId : RtmpChunkStreamId) (message : RtmpMessage) :
    Option (Bytes × RtmpMessageEncoder) := do
  let chunk ← messageToChunk chunkStreamId message
  let (bytes, chunkEncoder) := e.chunkEncoder.encode chunk
  return (bytes, { chunkEncoder := afterMessage chunkEncoder message })

theorem messageToChunk_some (h : messageToChunk chunkStreamId message = some chunk) :
    chunk.messageType = message.messageType ∧
      encodeMessagePayload message = some chunk.payload := by
  unfold messageToChunk at h
  cases hpayload : encodeMessagePayload message with
  | none => simp [hpayload] at h
  | some payload =>
    simp only [hpayload, Option.bind_eq_bind, Option.bind_some, Option.pure_def,
      Option.some.injEq] at h
    subst h
    exact ⟨rfl, rfl⟩

/-- A message is its chunk on the wire; only the one that announces a chunk size does more. -/
theorem encode_eq (e : RtmpMessageEncoder)
    (h : messageToChunk chunkStreamId message = some chunk) :
    encode e chunkStreamId message = some ((e.chunkEncoder.encode chunk).1,
      { chunkEncoder := afterMessage (e.chunkEncoder.encode chunk).2 message }) := by
  simp [encode, h]

end RtmpMessageEncoder

end CheetahMedia.Rtmp
