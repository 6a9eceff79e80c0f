import CheetahMedia.Rtmp.Chunk
import Mathlib.Logic.Function.Basic

namespace CheetahMedia.Rtmp
open Lib

def MAX_MESSAGE_SIZE : Nat := 8 * 1024 * 1024

/-- What the decoder keeps of a chunk stream between chunks. The defaults stand
until the first full header. -/
structure RtmpChunkDecoder.RtmpChunkStream where
  timestamp : RtmpTimestamp := .ZERO
  timestampDelta : RtmpTimestamp := .ZERO
  messageType : RtmpMessageType := .setChunkSize
  messageStreamId : RtmpMessageStreamId := ⟨0⟩
  messageSize : Nat := 0
  accPayload : Bytes := []
  enableF3ExtendedTimestamp : Bool := false

structure RtmpChunkDecoder where
  chunkSize : RtmpChunkSize := default
  chunkStreams : RtmpChunkStreamId → Option RtmpChunkDecoder.RtmpChunkStream := fun _ => none

namespace RtmpChunkDecoder

def setChunkSize (d : RtmpChunkDecoder) (size : RtmpChunkSize) : RtmpChunkDecoder :=
  { d with chunkSize := size }

def resetChunkStream (d : RtmpChunkDecoder) (csid : RtmpChunkStreamId) : RtmpChunkDecoder :=
  { d with chunkStreams := Function.update d.chunkStreams csid none }

def insert (csid : RtmpChunkStreamId) (cs : RtmpChunkStream) (d : RtmpChunkDecoder) :
    RtmpChunkDecoder :=
  { d with chunkStreams := Function.update d.chunkStreams csid (some cs) }

def decodeFormat (firstByte : UInt8) : MessageHeaderFormat :=
  match firstByte >>> 6 with
  | 0 => .f0
  | 1 => .f1
  | 2 => .f2
  | _ => .f3

/-- Two values of the six id bits announce an id in the bytes that follow. -/
def decodeStreamId (idBits : UInt8) : BytesReader σ Nat :=
  if idBits = 0 then do
    let id ← readU8
    return id.toNat + 64
  else if idBits = 1 then do
    let id ← readU16
    return (swapBytes16 id).toNat + 64
  else return idBits.toNat

def decodeChunkBasicHeader : BytesReader σ (MessageHeaderFormat × RtmpChunkStreamId) := do
  let firstByte ← readU8
  let id ← decodeStreamId (firstByte &&& 0b00111111)
  match RtmpChunkStreamId.new id with
  | some csid => return (decodeFormat firstByte, csid)
  | none => Reader.fail (.invalidData "invalid chunk stream id")

def decodeExtendedTimestamp (delta : UInt32) : BytesReader σ UInt32 :=
  if delta = 0xFFFFFF then readU32 else pure delta

/-- The end that the first three formats share: a delta of 24 or of 32 bits. -/
def decodeTimestampDelta (delta : UInt32) : BytesReader RtmpChunkStream Unit := do
  Reader.modify fun cs => { cs with enableF3ExtendedTimestamp := delta = 0xFFFFFF }
  let delta ← decodeExtendedTimestamp delta
  Reader.modify fun cs => { cs with timestampDelta := ⟨delta⟩ }

def decodeMessageSize : BytesReader σ Nat := do
  let messageSize := (← readU24).toNat
  if messageSize > MAX_MESSAGE_SIZE then Reader.fail (.invalidData "chunk payload too large")
  else pure messageSize

def decodeMessageHeader : MessageHeaderFormat → BytesReader RtmpChunkStream Unit
  | .f0 => do
    Reader.modify fun cs => { cs with accPayload := [] }
    let timestamp ← readU24
    let messageSize ← decodeMessageSize
    let messageType ← readU8
    let messageStreamId ← readU32
    decodeTimestampDelta timestamp
    Reader.modify fun cs => { cs with timestamp := .ZERO, messageSize := messageSize }
    let messageType ← Reader.ofExcept (RtmpMessageType.fromTypeId messageType)
    Reader.modify fun cs =>
      { cs with messageType := messageType, messageStreamId := ⟨swapBytes32 messageStreamId⟩ }
  | .f1 => do
    let timestampDelta ← readU24
    let messageSize ← decodeMessageSize
    let messageType ← readU8
    decodeTimestampDelta timestampDelta
    Reader.modify fun cs => { cs with messageSize := messageSize, accPayload := [] }
    let messageType ← Reader.ofExcept (RtmpMessageType.fromTypeId messageType)
    Reader.modify fun cs => { cs with messageType := messageType }
  | .f2 => do
    let timestampDelta ← readU24
    decodeTimestampDelta timestampDelta
  | .f3 => do
    let cs ← Reader.get
    if cs.enableF3ExtendedTimestamp then do
      let delta ← readU32
      Reader.modify fun cs => { cs with timestampDelta := ⟨delta⟩ }

def decodeMessagePayload (chunkSize : RtmpChunkSize) :
    BytesReader RtmpChunkStream (Option Bytes) := do
  let cs ← Reader.get
  if cs.messageSize < cs.accPayload.length then
    Reader.fail (.invalidData "accumulated payload exceeds message size")
  else do
    let remainingMessage := cs.messageSize - cs.accPayload.length
    let payload ← readBytes (min remainingMessage chunkSize.size)
    let acc := cs.accPayload ++ payload
    if acc.length = cs.messageSize then do
      Reader.modify fun cs =>
        { cs with timestamp := cs.timestamp.wrappingAdd cs.timestampDelta, accPayload := [] }
      return some acc
    else do
      Reader.modify fun cs => { cs with accPayload := acc }
      return none

/-- The record a chunk continues; only a full header may start one. -/
def resume (d : RtmpChunkDecoder) (format : MessageHeaderFormat) (csid : RtmpChunkStreamId) :
    Except Error RtmpChunkStream :=
  match d.chunkStreams csid with
  | some cs => .ok cs
  | none =>
    if format = .f0 then .ok {}
    else .error (.invalidData "format ID must be 0 for the first chunk")

def RtmpChunkStream.chunk (cs : RtmpChunkStream) (csid : RtmpChunkStreamId) (payload : Bytes) :
    RtmpChunk :=
  { chunkStreamId := csid
    messageStreamId := cs.messageStreamId
    messageType := cs.messageType
    timestamp := cs.timestamp
    payload := payload }

def decodeChunk : BytesReader RtmpChunkDecoder (Option RtmpChunk) := do
  let header ← decodeChunkBasicHeader
  let d ← Reader.get
  let cs ← Reader.ofExcept (d.resume header.1 header.2)
  -- the record is stored again whatever the outcome
  let result ← Reader.nested cs (insert header.2) do
    decodeMessageHeader header.1
    decodeMessagePayload d.chunkSize
  return result.1.map (result.2.chunk header.2)

/-- Decode one chunk: the bytes consumed, and the message if this completes it. -/
def decode (d : RtmpChunkDecoder) (buf : Bytes) :
    RtmpChunkDecoder × Except Error (Nat × Option RtmpChunk) :=
  match decodeChunk.run buf d with
  | (d', .ok (chunk, rest)) => (d', .ok (buf.length - rest.length, chunk))
  | (d', .error e) => (d', .error e)

/-- Call `decode` and drop what it consumes until a message is complete. -/
def nextChunk : Nat → RtmpChunkDecoder → Bytes →
    (RtmpChunkDecoder × Bytes) × Except Error RtmpChunk
  | 0, d, buf => ((d, buf), .error .insufficientBuffer)
  | calls + 1, d, buf =>
    match d.decode buf with
    | (d', .ok (n, some chunk)) => ((d', buf.drop n), .ok chunk)
    | (d', .ok (n, none)) => nextChunk calls d' (buf.drop n)
    | (d', .error e) => ((d', buf), .error e)

@[simp] theorem insert_chunkSize (d : RtmpChunkDecoder) (csid : RtmpChunkStreamId)
    (cs : RtmpChunkStream) : (d.insert csid cs).chunkSize = d.chunkSize := rfl

@[simp] theorem insert_insert (d : RtmpChunkDecoder) (csid : RtmpChunkStreamId)
    (cs cs' : RtmpChunkStream) : (d.insert csid cs).insert csid cs' = d.insert csid cs' := by
  simp [insert]

@[simp] theorem resume_insert (d : RtmpChunkDecoder) (csid : RtmpChunkStreamId)
    (cs : RtmpChunkStream) (format : MessageHeaderFormat) :
    (d.insert csid cs).resume format csid = .ok cs := by
  simp [insert, resume]

theorem resume_some {d : RtmpChunkDecoder} (h : d.chunkStreams csid = some cs)
    (format : MessageHeaderFormat) : d.resume format csid = .ok cs := by
  simp [resume, h]

/-- A full header never lacks a record to start from. -/
theorem resume_full (d : RtmpChunkDecoder) (csid : RtmpChunkStreamId) :
    ∃ cs, d.resume .f0 csid = .ok cs := by
  unfold resume
  split
  · exact ⟨_, rfl⟩
  · exact ⟨_, rfl⟩

theorem decode_of_run {front : Bytes}
    (h : decodeChunk.run (front ++ rest) d = (d', .ok (chunk, rest))) :
    decode d (front ++ rest) = (d', .ok (front.length, chunk)) := by
  simp [decode, h]

end RtmpChunkDecoder

end CheetahMedia.Rtmp
