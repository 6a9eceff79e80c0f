import CheetahMedia.Rtmp.Chunk.Encoder
import CheetahMedia.Rtmp.Chunk.Decoder

namespace CheetahMedia.Rtmp
open Lib RtmpChunkEncoder RtmpChunkDecoder

theorem firstByte_format (format : MessageHeaderFormat) (bits : Fin 64) :
    decodeFormat ((format.fmt <<< 6) ||| UInt8.ofNat bits) = format := by
  revert bits
  cases format <;> decide +kernel

theorem firstByte_idBits (format : MessageHeaderFormat) (bits : Fin 64) :
    ((format.fmt <<< 6) ||| UInt8.ofNat bits) &&& 0b00111111 = UInt8.ofNat bits := by
  revert bits
  cases format <;> decide +kernel

/-- The first byte carries the format; the id is what its low bits announce. -/
theorem decodeChunkBasicHeader_of (format : MessageHeaderFormat) (bits : Fin 64)
    (csid : RtmpChunkStreamId) (s : σ)
    (hid : (decodeStreamId (UInt8.ofNat bits)).run buf s = (s, .ok (csid.id, rest))) :
    decodeChunkBasicHeader.run (((format.fmt <<< 6) ||| UInt8.ofNat bits) :: buf) s =
      (s, .ok ((format, csid), rest)) := by
  unfold decodeChunkBasicHeader
  rw [Reader.bind_ok (readU8_cons buf s _), firstByte_idBits, Reader.bind_ok hid,
    firstByte_format, RtmpChunkStreamId.new_id]
  rfl

section StreamId
variable {id : Nat} (rest : Bytes) (s : σ)

theorem decodeStreamId_short (h : 2 ≤ id ∧ id < 64) :
    (decodeStreamId (UInt8.ofNat id)).run rest s = (s, .ok (id, rest)) := by
  have hnat : (UInt8.ofNat id).toNat = id := UInt8.toNat_ofNat_of_lt' (show _ < 256 by omega)
  have h0 : UInt8.ofNat id ≠ 0 := by
    intro he
    have : id = 0 := by simpa [he] using hnat.symm
    omega
  have h1 : UInt8.ofNat id ≠ 1 := by
    intro he
    have : id = 1 := by simpa [he] using hnat.symm
    omega
  simp only [decodeStreamId, h0, h1, if_false, hnat]
  rfl

theorem decodeStreamId_medium (h : 64 ≤ id ∧ id < 320) :
    (decodeStreamId 0).run (writeU8 (UInt8.ofNat (id - 64)) ++ rest) s = (s, .ok (id, rest)) := by
  have hnat : (UInt8.ofNat (id - 64)).toNat = id - 64 :=
    UInt8.toNat_ofNat_of_lt' (show _ < 256 by omega)
  rw [decodeStreamId, if_pos rfl, Reader.bind_ok (readU8_writeU8 rest s _), hnat,
    Nat.sub_add_cancel h.1]
  rfl

theorem decodeStreamId_long (h : 320 ≤ id ∧ id ≤ 65599) :
    (decodeStreamId 1).run (writeU16 (swapBytes16 (UInt16.ofNat (id - 64))) ++ rest) s =
      (s, .ok (id, rest)) := by
  have hnat : (UInt16.ofNat (id - 64)).toNat = id - 64 :=
    UInt16.toNat_ofNat_of_lt' (show _ < 65536 by omega)
  rw [decodeStreamId, if_neg (by decide), if_pos rfl, Reader.bind_ok (readU16_writeU16 rest s _),
    swapBytes16_swapBytes16, hnat, Nat.sub_add_cancel (by omega)]
  rfl

end StreamId

theorem decodeChunkBasicHeader_encode (format : MessageHeaderFormat)
    (cs : RtmpChunkEncoder.RtmpChunkStream) (rest : Bytes) (s : σ) :
    decodeChunkBasicHeader.run (encodeChunkBasicHeader format cs ++ rest) s =
      (s, .ok ((format, cs.chunkStreamId), rest)) := by
  have hrange := cs.chunkStreamId.inRange
  unfold encodeChunkBasicHeader
  dsimp only
  split
  · rename_i hlt
    exact decodeChunkBasicHeader_of format ⟨cs.chunkStreamId.id, hlt⟩ _ s
      (decodeStreamId_short rest s ⟨hrange.1, hlt⟩)
  · split
    · have h := decodeChunkBasicHeader_of format 0 cs.chunkStreamId s
        (decodeStreamId_medium rest s (by omega))
      simpa [writeU8] using h
    · exact decodeChunkBasicHeader_of format 1 cs.chunkStreamId s
        (decodeStreamId_long rest s (by omega))

section Header
variable (rest : Bytes)

theorem readU24_timestampField (t : RtmpTimestamp) (s : σ) :
    readU24.run (timestampField t ++ rest) s =
      (s, .ok (if t.millis ≥ 0xFFFFFF then 0xFFFFFF else t.millis, rest)) := by
  unfold timestampField
  split
  · exact readU24_writeU24 rest s _ (by decide)
  · rename_i h
    have hlt : t.millis.toNat < 0xFFFFFF := by simpa [UInt32.le_iff_toNat_le] using h
    exact readU24_writeU24 rest s _ (by omega)

/-- The escape value is never a delta of its own. -/
theorem decodeTimestampDelta_encode (t : RtmpTimestamp) (cs : RtmpChunkDecoder.RtmpChunkStream) :
    (decodeTimestampDelta (if t.millis ≥ 0xFFFFFF then 0xFFFFFF else t.millis)).run
        (extendedTimestamp t ++ rest) cs =
      ({ cs with enableF3ExtendedTimestamp := t.millis ≥ 0xFFFFFF, timestampDelta := t },
        .ok ((), rest)) := by
  unfold decodeTimestampDelta decodeExtendedTimestamp extendedTimestamp
  by_cases h : t.millis ≥ 0xFFFFFF
  · simp only [h, if_true, decide_true]
    rw [Reader.bind_ok (Reader.run_modify _ _ _), Reader.bind_ok (readU32_writeU32 _ _ _)]
    rfl
  · have hne : t.millis ≠ 0xFFFFFF := fun he => h (by rw [he]; decide)
    simp only [h, hne, if_false, decide_false]
    rfl

theorem decodeMessageSize_encode (h : n ≤ MAX_MESSAGE_SIZE) (s : σ) :
    decodeMessageSize.run (writeU24 (UInt32.ofNat n) ++ rest) s = (s, .ok (n, rest)) := by
  have hlt : n < 2 ^ 24 := Nat.lt_of_le_of_lt h (by decide)
  have hnat : (UInt32.ofNat n).toNat = n := UInt32.toNat_ofNat_of_lt' (show n < 2 ^ 32 by omega)
  unfold decodeMessageSize
  rw [Reader.bind_ok (readU24_writeU24 rest s _ (by omega)), hnat, if_neg (by omega)]
  rfl

end Header

/-- What both ends hold of the message whose chunks are on the wire. -/
structure Agree (e : RtmpChunkEncoder.RtmpChunkStream) (d : RtmpChunkDecoder.RtmpChunkStream) :
    Prop where
  timestampDelta : d.timestampDelta = e.timestampDelta
  messageType : d.messageType = e.messageType
  messageStreamId : d.messageStreamId = e.messageStreamId
  messageSize : d.messageSize = e.messageSize
  extended : d.enableF3ExtendedTimestamp = e.enableF3ExtendedTimestamp

/-- Between headers the decoder still owes the delta. -/
structure Announced (e : RtmpChunkEncoder.RtmpChunkStream)
    (d : RtmpChunkDecoder.RtmpChunkStream) : Prop extends Agree e d where
  timestamp : d.timestamp.wrappingAdd d.timestampDelta = e.timestamp

/-- Between messages both ends hold the last one. -/
structure InStep (e : RtmpChunkEncoder.RtmpChunkStream)
    (d : RtmpChunkDecoder.RtmpChunkStream) : Prop extends Agree e d where
  timestamp : d.timestamp = e.timestamp
  accPayload : d.accPayload = []

section Header
variable {e : RtmpChunkEncoder.RtmpChunkStream} {d : RtmpChunkDecoder.RtmpChunkStream}
  (rest : Bytes)

theorem decodeMessageHeader_f0 (h : e.messageSize ≤ MAX_MESSAGE_SIZE) :
    (decodeMessageHeader .f0).run ((encodeMessageHeader .f0 e).1 ++ rest) d =
      ({ d with
          accPayload := []
          enableF3ExtendedTimestamp := e.timestamp.millis ≥ 0xFFFFFF
          timestampDelta := e.timestamp
          timestamp := .ZERO
          messageSize := e.messageSize
          messageType := e.messageType
          messageStreamId := e.messageStreamId }, .ok ((), rest)) := by
  simp only [encodeMessageHeader, List.append_assoc]
  unfold decodeMessageHeader
  rw [Reader.bind_ok (Reader.run_modify _ _ _), Reader.bind_ok (readU24_timestampField _ _ _),
    Reader.bind_ok (decodeMessageSize_encode _ h _), Reader.bind_ok (readU8_writeU8 _ _ _),
    Reader.bind_ok (readU32_writeU32 _ _ _), Reader.bind_ok (decodeTimestampDelta_encode _ _ _),
    Reader.bind_ok (Reader.run_modify _ _ _), RtmpMessageType.fromTypeId_typeId,
    Reader.bind_ok (Reader.run_ofExcept_ok _ _ _), swapBytes32_swapBytes32]
  rfl

theorem decodeMessageHeader_f1 (h : e.messageSize ≤ MAX_MESSAGE_SIZE) :
    (decodeMessageHeader .f1).run ((encodeMessageHeader .f1 e).1 ++ rest) d =
      ({ d with
          accPayload := []
          enableF3ExtendedTimestamp := e.timestampDelta.millis ≥ 0xFFFFFF
          timestampDelta := e.timestampDelta
          messageSize := e.messageSize
          messageType := e.messageType }, .ok ((), rest)) := by
  simp only [encodeMessageHeader, List.append_assoc]
  unfold decodeMessageHeader
  rw [Reader.bind_ok (readU24_timestampField _ _ _),
    Reader.bind_ok (decodeMessageSize_encode _ h _), Reader.bind_ok (readU8_writeU8 _ _ _),
    Reader.bind_ok (decodeTimestampDelta_encode _ _ _),
    Reader.bind_ok (Reader.run_modify _ _ _), RtmpMessageType.fromTypeId_typeId,
    Reader.bind_ok (Reader.run_ofExcept_ok _ _ _)]
  rfl

theorem decodeMessageHeader_f2 :
    (decodeMessageHeader .f2).run ((encodeMessageHeader .f2 e).1 ++ rest) d =
      ({ d with
          enableF3ExtendedTimestamp := e.timestampDelta.millis ≥ 0xFFFFFF
          timestampDelta := e.timestampDelta }, .ok ((), rest)) := by
  simp only [encodeMessageHeader, List.append_assoc]
  unfold decodeMessageHeader
  rw [Reader.bind_ok (readU24_timestampField _ _ _), decodeTimestampDelta_encode]

/-- A continuation changes nothing that both ends already agree on. -/
theorem decodeMessageHeader_f3 (h : Agree e d) :
    (decodeMessageHeader .f3).run ((encodeMessageHeader .f3 e).1 ++ rest) d =
      (d, .ok ((), rest)) := by
  unfold encodeMessageHeader decodeMessageHeader
  rw [Reader.bind_ok (Reader.run_get _ _), h.extended]
  dsimp only
  split
  · rw [Reader.bind_ok (readU32_writeU32 _ _ _), Reader.run_modify, ← h.timestampDelta]
  · rfl

end Header

section Payload
variable {cs : RtmpChunkDecoder.RtmpChunkStream} {size : RtmpChunkSize} {piece remaining : Bytes}
  (rest : Bytes)

theorem decodeMessagePayload_last (h : cs.messageSize = cs.accPayload.length + piece.length)
    (hle : piece.length ≤ size.size) :
    (decodeMessagePayload size).run (piece ++ rest) cs =
      ({ cs with timestamp := cs.timestamp.wrappingAdd cs.timestampDelta, accPayload := [] },
        .ok (some (cs.accPayload ++ piece), rest)) := by
  have hmin : min (cs.messageSize - cs.accPayload.length) size.size = piece.length := by omega
  unfold decodeMessagePayload
  rw [Reader.bind_ok (Reader.run_get _ _), if_neg (by omega)]
  dsimp only
  rw [hmin, Reader.bind_ok (readBytes_append _ _ _), if_pos (by rw [List.length_append, h]),
    Reader.bind_ok (Reader.run_modify _ _ _)]
  rfl

theorem decodeMessagePayload_more (h : cs.messageSize = cs.accPayload.length + remaining.length)
    (hlt : size.size < remaining.length) :
    (decodeMessagePayload size).run (remaining.take size.size ++ rest) cs =
      ({ cs with accPayload := cs.accPayload ++ remaining.take size.size },
        .ok (none, rest)) := by
  have hlen : (remaining.take size.size).length = size.size := by rw [List.length_take]; omega
  have hmin : min (cs.messageSize - cs.accPayload.length) size.size =
      (remaining.take size.size).length := by omega
  unfold decodeMessagePayload
  rw [Reader.bind_ok (Reader.run_get _ _), if_neg (by omega)]
  dsimp only
  rw [hmin, Reader.bind_ok (readBytes_append _ _ _),
    if_neg (by rw [List.length_append]; omega), Reader.bind_ok (Reader.run_modify _ _ _)]
  rfl

end Payload

/-- One chunk goes through the decoder when its three parts do. -/
theorem decode_chunk {d : RtmpChunkDecoder} {e : RtmpChunkEncoder.RtmpChunkStream}
    (hresume : d.resume format e.chunkStreamId = .ok cs)
    (hheader : (decodeMessageHeader format).run (header ++ (piece ++ rest)) cs =
      (cs', .ok ((), piece ++ rest)))
    (hpayload : (decodeMessagePayload d.chunkSize).run (piece ++ rest) cs' =
      (cs'', .ok (payload, rest))) :
    d.decode ((encodeChunkBasicHeader format e ++ header ++ piece) ++ rest) =
      (d.insert e.chunkStreamId cs'',
        .ok ((encodeChunkBasicHeader format e ++ header ++ piece).length,
          payload.map (cs''.chunk e.chunkStreamId))) := by
  apply decode_of_run
  simp only [List.append_assoc]
  unfold decodeChunk
  rw [Reader.bind_ok (decodeChunkBasicHeader_encode _ _ _ _), Reader.bind_ok (Reader.run_get _ _),
    hresume, Reader.bind_ok (Reader.run_ofExcept_ok _ _ _)]
  have hparts : (do decodeMessageHeader format; decodeMessagePayload d.chunkSize).run
      (header ++ (piece ++ rest)) cs = (cs'', .ok (payload, rest)) := by
    rw [Reader.bind_ok hheader, hpayload]
  rw [Reader.bind_ok (Reader.nested_ok hparts _ _)]
  rfl

theorem Announced.inStep (h : Announced e cs) :
    InStep e { cs with
      timestamp := cs.timestamp.wrappingAdd cs.timestampDelta, accPayload := [] } :=
  { h with timestamp := h.timestamp, accPayload := rfl }

/-- The passes of one message, whatever came before, complete that message. -/
theorem nextChunk_passes (passes : Nat) (format : MessageHeaderFormat)
    (e : RtmpChunkEncoder.RtmpChunkStream) (remaining : Bytes) (d : RtmpChunkDecoder)
    (cs cs' : RtmpChunkDecoder.RtmpChunkStream) (rest : Bytes) (calls : Nat)
    (hpasses : remaining.length < passes)
    (hresume : d.resume format e.chunkStreamId = .ok cs)
    (hheader : ∀ rest, (decodeMessageHeader format).run ((encodeMessageHeader format e).1 ++ rest)
      cs = (cs', .ok ((), rest)))
    (hann : Announced (encodeMessageHeader format e).2 cs')
    (hsize : e.messageSize = cs'.accPayload.length + remaining.length)
    (hcalls : ((encodePasses d.chunkSize.size passes format e remaining).1 ++ rest).length ≤ calls) :
    ∃ last, InStep (encodePasses d.chunkSize.size passes format e remaining).2 last ∧
      nextChunk calls d ((encodePasses d.chunkSize.size passes format e remaining).1 ++ rest) =
        ((d.insert e.chunkStreamId last, rest),
          .ok (last.chunk e.chunkStreamId (cs'.accPayload ++ remaining))) := by
  induction passes generalizing format e remaining d cs cs' calls with
  | zero => omega
  | succ passes ih =>
    have hpos := d.chunkSize.inRange.1
    have hbasic := List.length_pos_iff.mpr (encodeChunkBasicHeader_ne_nil format e)
    have hd : cs'.messageSize = cs'.accPayload.length + remaining.length := by
      rw [hann.messageSize, encodeMessageHeader_messageSize, hsize]
    unfold encodePasses at hcalls ⊢
    dsimp only at hcalls ⊢
    by_cases hlast : remaining.length ≤ d.chunkSize.size
    · simp only [hlast, if_true] at hcalls ⊢
      rw [List.take_of_length_le hlast] at hcalls ⊢
      simp only [List.length_append] at hcalls
      refine ⟨_, hann.inStep, ?_⟩
      have hdec := decode_chunk hresume (hheader _)
        (decodeMessagePayload_last rest hd hlast)
      cases calls with
      | zero => omega
      | succ calls =>
        simp only [nextChunk, hdec, Option.map_some, List.drop_left]
    · simp only [hlast, if_false] at hcalls ⊢
      have hlt : d.chunkSize.size < remaining.length := by omega
      have htake : (remaining.take d.chunkSize.size).length = d.chunkSize.size := by
        rw [List.length_take]
        omega
      rw [List.append_assoc _ _ rest] at hcalls ⊢
      have hpayload := decodeMessagePayload_more ((encodePasses d.chunkSize.size passes .f3
          (encodeMessageHeader format e).2 (remaining.drop d.chunkSize.size)).1 ++ rest) hd hlt
      have hdec := decode_chunk hresume (hheader _) hpayload
      cases calls with
      | zero =>
        simp only [List.length_append] at hcalls
        omega
      | succ calls =>
        simp only [nextChunk, hdec, Option.map_none, List.drop_left]
        simp only [List.length_append] at hcalls
        have hid := encodeMessageHeader_id format e
        -- the record that waits for the next piece
        let cs'' : RtmpChunkDecoder.RtmpChunkStream :=
          { cs' with accPayload := cs'.accPayload ++ remaining.take d.chunkSize.size }
        have hagree : Agree (encodeMessageHeader format e).2 cs'' := { hann.toAgree with }
        obtain ⟨last, hstep, hnext⟩ := ih .f3 (encodeMessageHeader format e).2
          (remaining.drop d.chunkSize.size) (d.insert e.chunkStreamId cs'') cs'' cs'' calls
          (by rw [List.length_drop]; omega) (by rw [hid, resume_insert])
          (fun rest => decodeMessageHeader_f3 rest hagree)
          { hagree with timestamp := hann.timestamp }
          (by
            rw [encodeMessageHeader_messageSize, hsize, List.length_append, htake,
              List.length_drop]
            omega)
          (by simp only [insert_chunkSize, List.length_append]; omega)
        rw [hid, insert_insert] at hnext
        have hwhole : cs''.accPayload ++ remaining.drop d.chunkSize.size =
            cs'.accPayload ++ remaining := by simp [cs'']
        rw [hwhole] at hnext
        exact ⟨last, hstep, hnext⟩

/-- A full header names the message by itself. -/
theorem announce_full (e : RtmpChunkEncoder.RtmpChunkStream) (d : RtmpChunkDecoder.RtmpChunkStream)
    (hsize : e.messageSize ≤ MAX_MESSAGE_SIZE) : ∃ d',
      (∀ rest, (decodeMessageHeader .f0).run ((encodeMessageHeader .f0 e).1 ++ rest) d =
        (d', .ok ((), rest))) ∧
      Announced (encodeMessageHeader .f0 e).2 d' ∧ d'.accPayload = [] := by
  refine ⟨_, fun rest => decodeMessageHeader_f0 rest hsize, ⟨⟨rfl, rfl, rfl, rfl, rfl⟩, ?_⟩, rfl⟩
  exact RtmpTimestamp.zero_wrappingAdd _

/-- A shorter header names it together with the last message, which both ends hold. -/
theorem announce_compact {e last : RtmpChunkEncoder.RtmpChunkStream}
    {d : RtmpChunkDecoder.RtmpChunkStream} (hsize : e.messageSize ≤ MAX_MESSAGE_SIZE)
    (hf0 : e.format ≠ .f0) (hc : Compacts e last) (hs : InStep last d) : ∃ d',
      (∀ rest, (decodeMessageHeader e.format).run ((encodeMessageHeader e.format e).1 ++ rest) d =
        (d', .ok ((), rest))) ∧
      Announced (encodeMessageHeader e.format e).2 d' ∧ d'.accPayload = [] := by
  have htime : d.timestamp.wrappingAdd e.timestampDelta = e.timestamp := by
    rw [hs.timestamp, hc.timestamp]
  have hstream := hs.messageStreamId.trans hc.messageStreamId.symm
  cases hf : e.format with
  | f0 => exact absurd hf hf0
  | f1 =>
    exact ⟨_, fun rest => decodeMessageHeader_f1 rest hsize,
      ⟨⟨rfl, rfl, hstream, rfl, rfl⟩, htime⟩, rfl⟩
  | f2 =>
    obtain ⟨htype, hsame⟩ := hc.sameSize (by simp [hf])
    exact ⟨_, fun rest => decodeMessageHeader_f2 rest,
      ⟨⟨rfl, hs.messageType.trans htype.symm, hstream, hs.messageSize.trans hsame.symm, rfl⟩,
        htime⟩, hs.accPayload⟩
  | f3 =>
    obtain ⟨htype, hsame⟩ := hc.sameSize (by simp [hf])
    have hdelta := hs.timestampDelta.trans (hc.sameDelta hf).symm
    have hagree : Agree e d :=
      ⟨hdelta, hs.messageType.trans htype.symm, hstream, hs.messageSize.trans hsame.symm,
        hs.extended.trans hc.extended.symm⟩
    exact ⟨d, fun rest => decodeMessageHeader_f3 rest hagree,
      ⟨hagree, by rw [hdelta]; exact htime⟩, hs.accPayload⟩

/-- The decoder can follow the header the encoder is about to choose: the header
is full, or both ends hold the same last message of the chunk stream. -/
def Followable (e : RtmpChunkEncoder) (d : RtmpChunkDecoder) (chunk : RtmpChunk) : Prop :=
  (e.resolveChunkStream chunk).format = .f0 ∨
    ∃ last cs, e.chunkStreams chunk.chunkStreamId = some last ∧
      d.chunkStreams chunk.chunkStreamId = some cs ∧ InStep last cs

theorem Followable.announce (h : Followable e d chunk)
    (hlen : chunk.payload.length ≤ MAX_MESSAGE_SIZE) : ∃ cs cs',
      d.resume (e.resolveChunkStream chunk).format chunk.chunkStreamId = .ok cs ∧
      (∀ rest, (decodeMessageHeader (e.resolveChunkStream chunk).format).run
        ((encodeMessageHeader (e.resolveChunkStream chunk).format
          (e.resolveChunkStream chunk)).1 ++ rest) cs = (cs', .ok ((), rest))) ∧
      Announced (encodeMessageHeader (e.resolveChunkStream chunk).format
        (e.resolveChunkStream chunk)).2 cs' ∧ cs'.accPayload = [] := by
  have hsize : (e.resolveChunkStream chunk).messageSize ≤ MAX_MESSAGE_SIZE := by
    obtain ⟨delta, format, extended, heq⟩ := resolve_eq e chunk
    rw [heq]
    exact hlen
  by_cases hf0 : (e.resolveChunkStream chunk).format = .f0
  · rw [hf0]
    obtain ⟨cs, hcs⟩ := resume_full d chunk.chunkStreamId
    obtain ⟨cs', hcs'⟩ := announce_full (e.resolveChunkStream chunk) cs hsize
    exact ⟨cs, cs', hcs, hcs'⟩
  · obtain ⟨last, hlast, hcompact⟩ := resolve_compacts hf0
    rcases h with h | ⟨last', cs, hlast', hcs, hstep⟩
    · exact absurd h hf0
    rw [hlast] at hlast'
    cases hlast'
    obtain ⟨cs', hcs'⟩ := announce_compact hsize hf0 hcompact hstep
    exact ⟨cs, cs', resume_some hcs _, hcs'⟩

/-- One message goes through, whatever follows it. -/
theorem nextChunk_encode (hsize : d.chunkSize = e.chunkSize) (hf : Followable e d chunk)
    (hlen : chunk.payload.length ≤ MAX_MESSAGE_SIZE) (rest : Bytes)
    (hcalls : ((e.encode chunk).1 ++ rest).length ≤ calls) :
    ∃ cs, InStep (e.encoded chunk) cs ∧ nextChunk calls d ((e.encode chunk).1 ++ rest) =
      ((d.insert chunk.chunkStreamId cs, rest), .ok chunk) := by
  obtain ⟨cs, cs', hresume, hheader, hann, hacc⟩ := hf.announce hlen
  obtain ⟨delta, format, extended, heq⟩ := resolve_eq e chunk
  have hid : (e.resolveChunkStream chunk).chunkStreamId = chunk.chunkStreamId := by rw [heq]; rfl
  have hmsg : (e.resolveChunkStream chunk).messageSize =
      cs'.accPayload.length + chunk.payload.length := by
    rw [heq, hacc]
    simp [newChunkStream]
  unfold encode encodeMessage at hcalls ⊢
  rw [← hsize] at hcalls ⊢
  obtain ⟨last, hstep, hnext⟩ := nextChunk_passes (chunk.payload.length + 1) _
    (e.resolveChunkStream chunk) chunk.payload d cs cs' rest calls (by omega)
    (by rw [hid]; exact hresume) hheader hann hmsg hcalls
  rw [hsize] at hstep
  refine ⟨last, hstep, ?_⟩
  rw [hnext, hid, hacc, List.nil_append]
  have hchunk : last.chunk chunk.chunkStreamId chunk.payload = chunk := by
    obtain ⟨delta', format', extended', heq'⟩ := encoded_eq e chunk
    have hlast : InStep (e.encoded chunk) last := hstep
    rw [heq'] at hlast
    unfold RtmpChunkDecoder.RtmpChunkStream.chunk
    rw [hlast.messageStreamId, hlast.messageType, hlast.timestamp]
    rfl
  rw [hchunk]

/-- A decoder that has no record of the stream cannot follow a shorter header. -/
theorem decode_unknown {e : RtmpChunkEncoder} {d : RtmpChunkDecoder}
    (hf : (e.resolveChunkStream chunk).format ≠ .f0)
    (hd : d.chunkStreams chunk.chunkStreamId = none) (rest : Bytes) :
    d.decode ((e.encode chunk).1 ++ rest) =
      (d, .error (.invalidData "format ID must be 0 for the first chunk")) := by
  obtain ⟨body, hbody⟩ := encode_eq_header e chunk
  obtain ⟨delta, format, extended, heq⟩ := resolve_eq e chunk
  have hid : (e.resolveChunkStream chunk).chunkStreamId = chunk.chunkStreamId := by rw [heq]; rfl
  unfold RtmpChunkDecoder.decode decodeChunk
  rw [hbody, List.append_assoc, Reader.bind_ok (decodeChunkBasicHeader_encode _ _ _ _),
    Reader.bind_ok (Reader.run_get _ _), hid]
  simp only [resume, hd, if_neg hf]
  rw [Reader.bind_error (Reader.run_ofExcept_error _ _ _)]

/-- Both ends use one chunk size, and the decoder knows every stream of the encoder. -/
structure Synced (e : RtmpChunkEncoder) (d : RtmpChunkDecoder) : Prop where
  chunkSize : d.chunkSize = e.chunkSize
  streams : e.chunkStreams csid = some last →
    ∃ cs, d.chunkStreams csid = some cs ∧ InStep last cs

theorem Synced.initial : Synced {} {} := ⟨rfl, fun h => by cases h⟩

theorem Synced.followable (h : Synced e d) (chunk : RtmpChunk) : Followable e d chunk := by
  by_cases hf0 : (e.resolveChunkStream chunk).format = .f0
  · exact .inl hf0
  · obtain ⟨last, hlast, _⟩ := resolve_compacts hf0
    obtain ⟨cs, hcs, hstep⟩ := h.streams hlast
    exact .inr ⟨last, cs, hlast, hcs, hstep⟩

theorem Synced.setChunkSize (h : Synced e d) (size : RtmpChunkSize) :
    Synced (e.setChunkSize size) (d.setChunkSize size) := ⟨rfl, h.streams⟩

theorem Synced.encode (h : Synced e d) (hstep : InStep (e.encoded chunk) cs) :
    Synced (e.encode chunk).2 (d.insert chunk.chunkStreamId cs) where
  chunkSize := h.chunkSize
  streams {csid last} hlast := by
    rw [encode_chunkStreams] at hlast
    by_cases hid : csid = chunk.chunkStreamId
    · subst hid
      rw [Function.update_self] at hlast
      cases hlast
      exact ⟨cs, Function.update_self .., hstep⟩
    · rw [Function.update_of_ne hid] at hlast
      obtain ⟨cs', hcs', hstep'⟩ := h.streams hlast
      exact ⟨cs', (Function.update_of_ne hid ..).trans hcs', hstep'⟩

/-- What happens between two messages, seen from both ends. -/
inductive ChunkOp
  | message (chunk : RtmpChunk)
  | setChunkSize (size : RtmpChunkSize)

def ChunkOp.message? : ChunkOp → Option RtmpChunk
  | .message chunk => some chunk
  | .setChunkSize _ => none

def encodeAll : RtmpChunkEncoder → List ChunkOp → Bytes
  | _, [] => []
  | e, .setChunkSize size :: ops => encodeAll (e.setChunkSize size) ops
  | e, .message chunk :: ops => (e.encode chunk).1 ++ encodeAll (e.encode chunk).2 ops

/-- Of the script the receiver uses the places of the size changes only. -/
def decodeAll : RtmpChunkDecoder → List ChunkOp → Bytes → Except Error (List RtmpChunk × Bytes)
  | _, [], buf => .ok ([], buf)
  | d, .setChunkSize size :: ops, buf => decodeAll (d.setChunkSize size) ops buf
  | d, .message _ :: ops, buf =>
    match nextChunk buf.length d buf with
    | ((d', rest), .ok chunk) => do
      let (chunks, rest) ← decodeAll d' ops rest
      return (chunk :: chunks, rest)
    | (_, .error e) => .error e

theorem decodeAll_encodeAll_synced (ops : List ChunkOp) (h : Synced e d)
    (hlen : ∀ chunk, .message chunk ∈ ops → chunk.payload.length ≤ MAX_MESSAGE_SIZE) :
    decodeAll d ops (encodeAll e ops) = .ok (ops.filterMap ChunkOp.message?, []) := by
  induction ops generalizing e d with
  | nil => rfl
  | cons op ops ih =>
    have htail := fun chunk hmem => hlen chunk (List.mem_cons_of_mem op hmem)
    cases op with
    | setChunkSize size => exact ih (h.setChunkSize size) htail
    | message chunk =>
      obtain ⟨cs, hstep, hnext⟩ := nextChunk_encode h.chunkSize (h.followable chunk)
        (hlen chunk List.mem_cons_self) (encodeAll (e.encode chunk).2 ops) (Nat.le_refl _)
      have hrest := ih (h.encode hstep) htail
      simp only [encodeAll, decodeAll, hnext, hrest]
      rfl

/-- Whatever was sent, a fresh decoder that changes its chunk size at the same
places gives back the messages and leaves no byte. -/
theorem decodeAll_encodeAll (ops : List ChunkOp)
    (h : ∀ chunk, .message chunk ∈ ops → chunk.payload.length ≤ MAX_MESSAGE_SIZE) :
    decodeAll {} ops (encodeAll {} ops) = .ok (ops.filterMap ChunkOp.message?, []) :=
  decodeAll_encodeAll_synced ops Synced.initial h

theorem decodeAll_encodeAll_resized :
    let first : RtmpChunk := ⟨⟨4, by decide⟩, .MEDIA, .audio, ⟨0xFFFFFF⟩, [1, 2, 3]⟩
    let second : RtmpChunk := { first with timestamp := ⟨5⟩, payload := [] }
    let ops := [.message first, .setChunkSize ⟨1, by decide⟩, .message second]
    decodeAll {} ops (encodeAll {} ops) = .ok ([first, second], []) := by
  intro first second ops
  refine decodeAll_encodeAll ops fun chunk hmem => ?_
  simp only [ops, List.mem_cons, ChunkOp.message.injEq, List.not_mem_nil, or_false] at hmem
  rcases hmem with rfl | hmem | rfl
  · decide
  · cases hmem
  · decide

end CheetahMedia.Rtmp
