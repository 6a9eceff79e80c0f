import CheetahMedia.Rtmp.Chunk
import Mathlib.Logic.Function.Basic

namespace CheetahMedia.Rtmp
open Lib

/-- What the encoder remembers of the last message on a chunk stream. -/
structure RtmpChunkEncoder.RtmpChunkStream where
  chunkStreamId : RtmpChunkStreamId
  timestamp : RtmpTimestamp
  timestampDelta : RtmpTimestamp
  messageType : RtmpMessageType
  messageStreamId : RtmpMessageStreamId
  messageSize : Nat
  format : MessageHeaderFormat
  enableF3ExtendedTimestamp : Bool

structure RtmpChunkEncoder where
  chunkSize : RtmpChunkSize := default
  chunkStreams : RtmpChunkStreamId → Option RtmpChunkEncoder.RtmpChunkStream := fun _ => none

namespace RtmpChunkEncoder

def setChunkSize (e : RtmpChunkEncoder) (size : RtmpChunkSize) : RtmpChunkEncoder :=
  { e with chunkSize := size }

/-- The 1-, 2- or 3-byte basic header; the long id is little endian. -/
def encodeChunkBasicHeader (format : MessageHeaderFormat) (cs : RtmpChunkStream) : Bytes :=
  let fmt := format.fmt
  let id := cs.chunkStreamId.id
  if id < 64 then writeU8 ((fmt <<< 6) ||| UInt8.ofNat id)
  else if id < 320 then writeU8 (fmt <<< 6) ++ writeU8 (UInt8.ofNat (id - 64))
  else writeU8 ((fmt <<< 6) ||| 1) ++ writeU16 (swapBytes16 (UInt16.ofNat (id - 64)))

/-- The 24-bit field of a timestamp or delta that may need the extended field. -/
def timestampField (t : RtmpTimestamp) : Bytes :=
  if t.millis ≥ 0xFFFFFF then writeU24 0xFFFFFF else writeU24 t.millis

def extendedTimestamp (t : RtmpTimestamp) : Bytes :=
  if t.millis ≥ 0xFFFFFF then writeU32 t.millis else []

def encodeMessageHeader (format : MessageHeaderFormat) (cs : RtmpChunkStream) :
    Bytes × RtmpChunkStream :=
  match format with
  | .f0 =>
    (timestampField cs.timestamp ++ writeU24 (UInt32.ofNat cs.messageSize) ++
        writeU8 cs.messageType.typeId ++ writeU32 (swapBytes32 cs.messageStreamId.id) ++
        extendedTimestamp cs.timestamp,
      -- the delta of a full header counts from zero
      { cs with
        enableF3ExtendedTimestamp := cs.timestamp.millis ≥ 0xFFFFFF
        timestampDelta := cs.timestamp })
  | .f1 =>
    (timestampField cs.timestampDelta ++ writeU24 (UInt32.ofNat cs.messageSize) ++
        writeU8 cs.messageType.typeId ++ extendedTimestamp cs.timestampDelta,
      { cs with enableF3ExtendedTimestamp := cs.timestampDelta.millis ≥ 0xFFFFFF })
  | .f2 =>
    (timestampField cs.timestampDelta ++ extendedTimestamp cs.timestampDelta,
      { cs with enableF3ExtendedTimestamp := cs.timestampDelta.millis ≥ 0xFFFFFF })
  | .f3 =>
    (if cs.enableF3ExtendedTimestamp then writeU32 cs.timestampDelta.millis else [], cs)

/-- One pass of the loop writes a header and a piece of the payload. The first
pass runs even when the payload is empty; later ones use the shortest header. -/
def encodePasses (chunkSize : Nat) :
    Nat → MessageHeaderFormat → RtmpChunkStream → Bytes → Bytes × RtmpChunkStream
  | 0, _, cs, _ => ([], cs)
  | passes + 1, format, cs, remaining =>
    let basicHeader := encodeChunkBasicHeader format cs
    let (messageHeader, cs) := encodeMessageHeader format cs
    let piece := basicHeader ++ messageHeader ++ remaining.take chunkSize
    if remaining.length ≤ chunkSize then (piece, cs)
    else
      let (later, cs) := encodePasses chunkSize passes .f3 cs (remaining.drop chunkSize)
      (piece ++ later, cs)

/-- Every pass but the first consumes payload. -/
def encodeMessage (e : RtmpChunkEncoder) (cs : RtmpChunkStream) (payload : Bytes) :
    Bytes × RtmpChunkStream :=
  encodePasses e.chunkSize.size (payload.length + 1) cs.format cs payload

/-- A message that refers to nothing before it. -/
def newChunkStream (chunk : RtmpChunk) : RtmpChunkStream where
  chunkStreamId := chunk.chunkStreamId
  timestamp := chunk.timestamp
  timestampDelta := chunk.timestamp
  messageType := chunk.messageType
  messageStreamId := chunk.messageStreamId
  messageSize := chunk.payload.length
  format := .f0
  enableF3ExtendedTimestamp := false

/-- The smallest header for `cs` after `last`. -/
def compactFormat (cs last : RtmpChunkStream) : MessageHeaderFormat :=
  if cs.messageStreamId = last.messageStreamId then
    if cs.messageType = last.messageType ∧ cs.messageSize = last.messageSize then
      if cs.timestampDelta = last.timestampDelta then .f3 else .f2
    else .f1
  else .f0

/-- Compare with the last message on the stream. A first message and one that
goes back in time keep the full header. -/
def resolveChunkStream (e : RtmpChunkEncoder) (chunk : RtmpChunk) : RtmpChunkStream :=
  let cs := newChunkStream chunk
  match e.chunkStreams chunk.chunkStreamId with
  | none => cs
  | some last =>
    let cs := { cs with enableF3ExtendedTimestamp := last.enableF3ExtendedTimestamp }
    match cs.timestamp.checkedSub last.timestamp with
    | none => cs
    | some delta =>
      let cs := { cs with timestampDelta := delta }
      { cs with format := compactFormat cs last }

/-- What the encoder remembers after a message. -/
def encoded (e : RtmpChunkEncoder) (chunk : RtmpChunk) : RtmpChunkStream :=
  (encodeMessage e (e.resolveChunkStream chunk) chunk.payload).2

def encode (e : RtmpChunkEncoder) (chunk : RtmpChunk) : Bytes × RtmpChunkEncoder :=
  let (bytes, cs) := encodeMessage e (e.resolveChunkStream chunk) chunk.payload
  (bytes, { e with chunkStreams := Function.update e.chunkStreams chunk.chunkStreamId (some cs) })

@[simp] theorem encode_chunkSize (e : RtmpChunkEncoder) (chunk : RtmpChunk) :
    (e.encode chunk).2.chunkSize = e.chunkSize := rfl

/-- The choice of a header changes no field that names the message. -/
theorem resolve_eq (e : RtmpChunkEncoder) (chunk : RtmpChunk) : ∃ delta format extended,
    e.resolveChunkStream chunk =
      { newChunkStream chunk with
        timestampDelta := delta, format := format, enableF3ExtendedTimestamp := extended } := by
  unfold resolveChunkStream
  dsimp only
  split
  · exact ⟨_, _, _, rfl⟩
  · split
    · exact ⟨_, _, _, rfl⟩
    · exact ⟨_, _, _, rfl⟩

/-- Headers update the fields that say how the next header is read, no others. -/
theorem encodeMessageHeader_eq (format : MessageHeaderFormat) (cs : RtmpChunkStream) :
    ∃ delta extended, (encodeMessageHeader format cs).2 =
      { cs with timestampDelta := delta, enableF3ExtendedTimestamp := extended } := by
  cases format with
  | f0 => exact ⟨_, _, rfl⟩
  | f1 => exact ⟨cs.timestampDelta, _, rfl⟩
  | f2 => exact ⟨cs.timestampDelta, _, rfl⟩
  | f3 => exact ⟨cs.timestampDelta, cs.enableF3ExtendedTimestamp, rfl⟩

theorem encodeMessageHeader_id (format : MessageHeaderFormat) (cs : RtmpChunkStream) :
    (encodeMessageHeader format cs).2.chunkStreamId = cs.chunkStreamId := by
  obtain ⟨delta, extended, h⟩ := encodeMessageHeader_eq format cs
  rw [h]

theorem encodeMessageHeader_messageSize (format : MessageHeaderFormat) (cs : RtmpChunkStream) :
    (encodeMessageHeader format cs).2.messageSize = cs.messageSize := by
  obtain ⟨delta, extended, h⟩ := encodeMessageHeader_eq format cs
  rw [h]

theorem encodePasses_eq (chunkSize passes : Nat) (format : MessageHeaderFormat)
    (cs : RtmpChunkStream) (remaining : Bytes) :
    ∃ delta extended, (encodePasses chunkSize passes format cs remaining).2 =
      { cs with timestampDelta := delta, enableF3ExtendedTimestamp := extended } := by
  induction passes generalizing format cs remaining with
  | zero => exact ⟨cs.timestampDelta, cs.enableF3ExtendedTimestamp, rfl⟩
  | succ passes ih =>
    obtain ⟨delta, extended, h⟩ := encodeMessageHeader_eq format cs
    unfold encodePasses
    dsimp only
    split
    · exact ⟨delta, extended, h⟩
    · obtain ⟨delta', extended', h'⟩ :=
        ih .f3 (encodeMessageHeader format cs).2 (remaining.drop chunkSize)
      refine ⟨delta', extended', h'.trans ?_⟩
      rw [h]

theorem encodeChunkBasicHeader_ne_nil (format : MessageHeaderFormat) (cs : RtmpChunkStream) :
    encodeChunkBasicHeader format cs ≠ [] := by
  unfold encodeChunkBasicHeader writeU8
  dsimp only
  repeat' split
  all_goals simp

theorem encoded_eq (e : RtmpChunkEncoder) (chunk : RtmpChunk) : ∃ delta format extended,
    e.encoded chunk =
      { newChunkStream chunk with
        timestampDelta := delta, format := format, enableF3ExtendedTimestamp := extended } := by
  obtain ⟨delta, format, extended, h⟩ := resolve_eq e chunk
  obtain ⟨delta', extended', h'⟩ := encodePasses_eq e.chunkSize.size (chunk.payload.length + 1)
    (e.resolveChunkStream chunk).format (e.resolveChunkStream chunk) chunk.payload
  exact ⟨delta', format, extended', h'.trans (by rw [h])⟩

theorem encode_chunkStreams (e : RtmpChunkEncoder) (chunk : RtmpChunk) :
    (e.encode chunk).2.chunkStreams =
      Function.update e.chunkStreams chunk.chunkStreamId (some (e.encoded chunk)) := rfl

/-- What a header that omits fields says about the last message. -/
structure Compacts (cs last : RtmpChunkStream) : Prop where
  timestamp : last.timestamp.wrappingAdd cs.timestampDelta = cs.timestamp
  messageStreamId : cs.messageStreamId = last.messageStreamId
  extended : cs.enableF3ExtendedTimestamp = last.enableF3ExtendedTimestamp
  sameSize : cs.format ≠ .f1 → cs.messageType = last.messageType ∧ cs.messageSize = last.messageSize
  sameDelta : cs.format = .f3 → cs.timestampDelta = last.timestampDelta

theorem resolve_compacts {e : RtmpChunkEncoder} {chunk : RtmpChunk}
    (h : (e.resolveChunkStream chunk).format ≠ .f0) :
    ∃ last, e.chunkStreams chunk.chunkStreamId = some last ∧
      Compacts (e.resolveChunkStream chunk) last := by
  cases hlast : e.chunkStreams chunk.chunkStreamId with
  | none => simp [resolveChunkStream, hlast, newChunkStream] at h
  | some last =>
    refine ⟨last, rfl, ?_⟩
    cases hdelta : chunk.timestamp.checkedSub last.timestamp with
    | none => simp [resolveChunkStream, hlast, newChunkStream, hdelta] at h
    | some delta =>
      simp only [resolveChunkStream, hlast, newChunkStream, hdelta] at h ⊢
      unfold compactFormat at h ⊢
      dsimp only at h ⊢
      by_cases hstream : chunk.messageStreamId = last.messageStreamId
      · refine ⟨RtmpTimestamp.wrappingAdd_checkedSub hdelta, hstream, rfl, fun hf => ?_,
          fun hf => ?_⟩
        · dsimp only at hf ⊢
          by_contra hne
          simp [hstream, hne] at hf
        · dsimp only at hf ⊢
          by_contra hne
          simp only [hstream, hne, if_true, if_false] at hf
          split at hf <;> cases hf
      · simp [hstream] at h

/-- The header is full unless the message can be told from the last one on its stream. -/
theorem resolve_full_iff (e : RtmpChunkEncoder) (chunk : RtmpChunk) :
    (e.resolveChunkStream chunk).format = .f0 ↔
      ∀ last, e.chunkStreams chunk.chunkStreamId = some last →
        ¬ (chunk.messageStreamId = last.messageStreamId ∧
          last.timestamp.millis ≤ chunk.timestamp.millis) := by
  cases hlast : e.chunkStreams chunk.chunkStreamId with
  | none => simp [resolveChunkStream, hlast, newChunkStream]
  | some last =>
    simp only [Option.some.injEq, forall_eq']
    by_cases htime : last.timestamp.millis ≤ chunk.timestamp.millis
    · simp only [resolveChunkStream, hlast, newChunkStream, RtmpTimestamp.checkedSub, htime,
        if_true, and_true]
      unfold compactFormat
      dsimp only
      by_cases hstream : chunk.messageStreamId = last.messageStreamId
      · simp only [hstream, if_true, not_true_eq_false, iff_false]
        split
        · split
          · nofun
          · nofun
        · nofun
      · simp only [hstream, if_false, not_false_eq_true]
    · simp [resolveChunkStream, hlast, newChunkStream, RtmpTimestamp.checkedSub, htime]

theorem encode_eq_header (e : RtmpChunkEncoder) (chunk : RtmpChunk) : ∃ body,
    (e.encode chunk).1 = encodeChunkBasicHeader (e.resolveChunkStream chunk).format
      (e.resolveChunkStream chunk) ++ body := by
  simp only [encode, encodeMessage, encodePasses]
  split
  · exact ⟨_, List.append_assoc _ _ _⟩
  · exact ⟨_, by simp only [List.append_assoc]; rfl⟩

/-- The chunk size does not matter to a message that fits in one chunk. -/
theorem encode_short {e : RtmpChunkEncoder} (h : chunk.payload.length ≤ e.chunkSize.size)
    (h' : chunk.payload.length ≤ size.size) : (e.setChunkSize size).encode chunk =
      ((e.encode chunk).1, (e.encode chunk).2.setChunkSize size) := by
  have hresolve : (e.setChunkSize size).resolveChunkStream chunk = e.resolveChunkStream chunk := rfl
  have hsize : (e.setChunkSize size).chunkSize = size := rfl
  simp only [encode, encodeMessage, encodePasses, hresolve, hsize, if_pos h, if_pos h',
    List.take_of_length_le h, List.take_of_length_le h']
  rfl

theorem encode_ne_nil (e : RtmpChunkEncoder) (chunk : RtmpChunk) : (e.encode chunk).1 ≠ [] := by
  obtain ⟨body, hbody⟩ := encode_eq_header e chunk
  rw [hbody]
  exact List.append_ne_nil_of_left_ne_nil (encodeChunkBasicHeader_ne_nil _ _) _

end RtmpChunkEncoder

end CheetahMedia.Rtmp
