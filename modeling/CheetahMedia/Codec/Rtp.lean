import CheetahMedia.Codec.Media
import CheetahMedia.Lib.Endian

namespace CheetahMedia.Codec
open Lib

/-- RTP fixed header fields. -/
structure RtpHeader where
  version : UInt8
  payloadType : UInt8
  sequenceNumber : UInt16
  timestamp : UInt32
  ssrc : UInt32
  marker : Bool
deriving DecidableEq

structure RtpPacket where
  header : RtpHeader
  payload : Bytes
deriving DecidableEq

namespace RtpHeader

/-- The header and the offset of the payload, behind the contributing sources and the
extension. -/
def parse (raw : Bytes) : Option (RtpHeader × Nat) :=
  match raw with
  | b0 :: b1 :: s0 :: s1 :: t0 :: t1 :: t2 :: t3 :: c0 :: c1 :: c2 :: c3 :: _ =>
    let hasPadding := b0 &&& 0x20 ≠ 0
    let hasExtension := b0 &&& 0x10 ≠ 0
    let csrcCount := (b0 &&& 0x0F).toNat
    let header : RtpHeader := {
      version := b0 >>> 6
      payloadType := b1 &&& 0x7F
      sequenceNumber := UInt16.ofNat (fromBigEndian [s0, s1])
      timestamp := UInt32.ofNat (fromBigEndian [t0, t1, t2, t3])
      ssrc := UInt32.ofNat (fromBigEndian [c0, c1, c2, c3])
      marker := b1 &&& 0x80 ≠ 0 }
    let offset := 12 + csrcCount * 4
    if raw.length < offset then none
    else if hasExtension then
      if raw.length < offset + 4 then none
      else
        let extLenWords := fromBigEndian ((raw.drop (offset + 2)).take 2)
        let offset := offset + (4 + extLenWords * 4)
        if raw.length < offset then none
        else if hasPadding ∧ raw.length ≤ offset then none
        else some (header, offset)
    else if hasPadding ∧ raw.length ≤ offset then none
    else some (header, offset)
  | _ => none

/-- The canonical 12-byte form. -/
def encode (h : RtpHeader) : Bytes :=
  [(h.version &&& 0x03) <<< 6, (h.marker.toUInt8 <<< 7) ||| (h.payloadType &&& 0x7F)] ++
    toBigEndian 2 h.sequenceNumber.toNat ++ toBigEndian 4 h.timestamp.toNat ++
    toBigEndian 4 h.ssrc.toNat

/-- The fields have room in the header. -/
def Fits (h : RtpHeader) : Prop := h.version < 4 ∧ h.payloadType < 128

/-- What is left of the fields in the header. -/
def sent (h : RtpHeader) : RtpHeader :=
  { h with version := h.version &&& 0x03, payloadType := h.payloadType &&& 0x7F }

end RtpHeader

namespace RtpPacket

def parse (raw : Bytes) : Option RtpPacket :=
  match RtpHeader.parse raw with
  | none => none
  | some (header, headerLen) =>
    let payloadEnd :=
      if raw.headD 0 &&& 0x20 ≠ 0 then
        match raw.getLast? with
        | none => none
        | some padLen => if padLen.toNat ≤ raw.length then some (raw.length - padLen.toNat) else none
      else some raw.length
    match payloadEnd with
    | none => none
    | some payloadEnd =>
      if payloadEnd < headerLen then none
      else some { header, payload := (raw.take payloadEnd).drop headerLen }

def encode (p : RtpPacket) : Bytes := p.header.encode ++ p.payload

def sent (p : RtpPacket) : RtpPacket := { p with header := p.header.sent }

end RtpPacket

/-- `$` -/
def DOLLAR : UInt8 := 0x24

inductive RtpTcpFraming
  | twoByte | interleaved4Byte | autoDetect

structure ParsedTcpRtpFrame where
  packet : RtpPacket
  consumed : Nat
  channel : Option UInt8
  framing : RtpTcpFraming

/-- A 2-byte length and the packet. -/
def parseTcpRtpFrame (raw : Bytes) : Option (RtpPacket × Nat) :=
  match raw with
  | hi :: lo :: rest =>
    let len := fromBigEndian [hi, lo]
    if raw.length < 2 + len then none
    else (RtpPacket.parse (rest.take len)).map fun packet => (packet, 2 + len)
  | _ => none

def encodeTcpRtpFrame (packet : RtpPacket) : Bytes :=
  let encoded := packet.encode
  toBigEndian 2 encoded.length ++ encoded

/-- `$`, the channel, a 2-byte length and the packet. -/
def parseInterleavedRtpFrame (raw : Bytes) : Option (RtpPacket × UInt8 × Nat) :=
  match raw with
  | b0 :: channel :: hi :: lo :: rest =>
    if b0 ≠ DOLLAR then none
    else
      let len := fromBigEndian [hi, lo]
      if raw.length < 4 + len then none
      else (RtpPacket.parse (rest.take len)).map fun packet => (packet, channel, 4 + len)
  | _ => none

def encodeInterleavedRtpFrame (packet : RtpPacket) (channel : UInt8) : Bytes :=
  let encoded := packet.encode
  DOLLAR :: channel :: (toBigEndian 2 encoded.length ++ encoded)

def parseTwoByte (raw : Bytes) : Option ParsedTcpRtpFrame :=
  (parseTcpRtpFrame raw).map fun (packet, consumed) =>
    { packet, consumed, channel := none, framing := .twoByte }

def parseInterleaved (raw : Bytes) : Option ParsedTcpRtpFrame :=
  (parseInterleavedRtpFrame raw).map fun (packet, channel, consumed) =>
    { packet, consumed, channel := some channel, framing := .interleaved4Byte }

/-- Automatic detection prefers the interleaved form behind a `$` and falls back to the
2-byte length. -/
def parseTcpRtpFrameWith (raw : Bytes) (mode : RtpTcpFraming) : Option ParsedTcpRtpFrame :=
  match mode with
  | .twoByte => parseTwoByte raw
  | .interleaved4Byte => parseInterleaved raw
  | .autoDetect =>
    if raw.head? = some DOLLAR then
      match parseInterleaved raw with
      | some parsed => some parsed
      | none => parseTwoByte raw
    else parseTwoByte raw

theorem version_bits : ∀ v : UInt8, ((v &&& 0x03) <<< 6) >>> 6 = v &&& 0x03 ∧
    ((v &&& 0x03) <<< 6) &&& 0x20 = 0 ∧ ((v &&& 0x03) <<< 6) &&& 0x10 = 0 ∧
    ((v &&& 0x03) <<< 6) &&& 0x0F = 0 :=
  forall_byte (by decide +kernel)

theorem payloadType_bits (marker : Bool) : ∀ pt : UInt8,
    ((marker.toUInt8 <<< 7) ||| (pt &&& 0x7F)) &&& 0x7F = pt &&& 0x7F ∧
      decide (((marker.toUInt8 <<< 7) ||| (pt &&& 0x7F)) &&& 0x80 ≠ 0) = marker := by
  cases marker <;> exact forall_byte (by decide +kernel)

theorem fits_bits : ∀ b : UInt8, (b &&& 0x03 = b ↔ b < 4) ∧ (b &&& 0x7F = b ↔ b < 128) :=
  forall_byte (by decide +kernel)

theorem u16_be (n : UInt16) : UInt16.ofNat (fromBigEndian (toBigEndian 2 n.toNat)) = n := by
  rw [from_toBigEndian_of_lt n.toNat_lt, UInt16.ofNat_toNat]

theorem u32_be (n : UInt32) : UInt32.ofNat (fromBigEndian (toBigEndian 4 n.toNat)) = n := by
  rw [from_toBigEndian_of_lt n.toNat_lt, UInt32.ofNat_toNat]

@[simp] theorem RtpHeader.encode_length (h : RtpHeader) : h.encode.length = 12 := by
  simp [encode]

@[simp] theorem RtpPacket.encode_length (p : RtpPacket) :
    p.encode.length = 12 + p.payload.length := by
  simp [encode]

theorem RtpHeader.sent_eq_iff {h : RtpHeader} : h.sent = h ↔ h.Fits := by
  unfold sent Fits
  rw [← (fits_bits h.version).1, ← (fits_bits h.payloadType).2]
  constructor
  · intro heq
    exact ⟨congrArg RtpHeader.version heq, congrArg RtpHeader.payloadType heq⟩
  · rintro ⟨hversion, hpayloadType⟩
    rw [hversion, hpayloadType]

theorem RtpPacket.sent_eq_iff {p : RtpPacket} : p.sent = p ↔ p.header.Fits := by
  rw [← RtpHeader.sent_eq_iff]
  exact ⟨fun h => congrArg RtpPacket.header h, fun h => by rw [sent, h]⟩

theorem RtpHeader.parse_encode (h : RtpHeader) (payload : Bytes) :
    parse (h.encode ++ payload) = some (h.sent, 12) := by
  obtain ⟨hversion, hpadding, hextension, hcsrc⟩ := version_bits h.version
  obtain ⟨hpayloadType, hmarker⟩ := payloadType_bits h.marker h.payloadType
  have hsequence := u16_be h.sequenceNumber
  have htimestamp := u32_be h.timestamp
  have hssrc := u32_be h.ssrc
  have hlength : 12 ≤ (h.encode ++ payload).length := by
    rw [List.length_append, encode_length]
    omega
  unfold encode at hlength ⊢
  simp only [toBigEndian, List.cons_append, List.nil_append] at hlength hsequence htimestamp hssrc ⊢
  unfold parse
  dsimp only
  rw [hversion, hpadding, hextension, hcsrc, hpayloadType, hmarker, hsequence, htimestamp, hssrc]
  simp only [UInt8.reduceToNat, Nat.zero_mul, Nat.add_zero, ne_eq, not_true_eq_false, if_false,
    false_and]
  rw [if_neg (by omega)]
  rfl

theorem RtpPacket.parse_encode (p : RtpPacket) : parse p.encode = some p.sent := by
  have hfirst : (p.header.encode ++ p.payload).headD 0 &&& 0x20 = 0 := by
    rw [RtpHeader.encode, List.append_assoc, List.append_assoc, List.append_assoc]
    exact (version_bits p.header.version).2.1
  have hpayload : (p.header.encode ++ p.payload).drop 12 = p.payload := by
    rw [← p.header.encode_length, List.drop_left]
  have hlength : ¬(p.header.encode ++ p.payload).length < 12 := by
    rw [List.length_append, RtpHeader.encode_length]
    omega
  unfold parse encode
  rw [RtpHeader.parse_encode]
  dsimp only
  rw [hfirst, if_neg (by simp)]
  dsimp only
  rw [if_neg hlength, List.take_length, hpayload]
  rfl

/-- The payload of a packet is shorter than the packet by its header. -/
theorem RtpHeader.parse_offset (h : parse raw = some (header, n)) : 12 ≤ n := by
  unfold parse at h
  split at h
  · dsimp only at h
    split at h
    · cases h
    · split at h
      · split at h
        · cases h
        · split at h
          · cases h
          · split at h
            · cases h
            · cases h
              omega
      · split at h
        · cases h
        · cases h
          omega
  · cases h

theorem RtpPacket.parse_length (h : parse raw = some p) : 12 + p.payload.length ≤ raw.length := by
  unfold parse at h
  cases hheader : RtpHeader.parse raw with
  | none => rw [hheader] at h; cases h
  | some found =>
    obtain ⟨header, headerLen⟩ := found
    have hoffset := RtpHeader.parse_offset hheader
    rw [hheader] at h
    dsimp only at h
    split at h
    · cases h
    · rename_i payloadEnd hpayloadEnd
      have hend : payloadEnd ≤ raw.length := by
        split at hpayloadEnd
        · split at hpayloadEnd
          · cases hpayloadEnd
          · split at hpayloadEnd
            · cases hpayloadEnd
              exact Nat.sub_le ..
            · cases hpayloadEnd
        · cases hpayloadEnd
          exact Nat.le_refl _
      split at h
      · cases h
      · cases h
        rw [List.length_drop, List.length_take]
        omega

theorem parseTwoByte_length (h : parseTwoByte raw = some parsed) :
    14 + parsed.packet.payload.length ≤ parsed.consumed ∧ parsed.consumed ≤ raw.length := by
  obtain ⟨⟨packet, consumed⟩, hframe, rfl⟩ := Option.map_eq_some_iff.mp h
  unfold parseTcpRtpFrame at hframe
  split at hframe
  · rename_i hi lo rest
    dsimp only at hframe
    split at hframe
    · cases hframe
    · rename_i hlong
      obtain ⟨_, hpacket, heq⟩ := Option.map_eq_some_iff.mp hframe
      cases heq
      have hlength := RtpPacket.parse_length hpacket
      rw [List.length_take] at hlength
      rw [List.length_cons, List.length_cons] at hlong
      dsimp only
      rw [List.length_cons, List.length_cons]
      omega
  · cases hframe

theorem parseInterleaved_length (h : parseInterleaved raw = some parsed) :
    16 + parsed.packet.payload.length ≤ parsed.consumed ∧ parsed.consumed ≤ raw.length := by
  obtain ⟨⟨packet, channel, consumed⟩, hframe, rfl⟩ := Option.map_eq_some_iff.mp h
  unfold parseInterleavedRtpFrame at hframe
  split at hframe
  · rename_i b0 channel hi lo rest
    split at hframe
    · cases hframe
    · dsimp only at hframe
      split at hframe
      · cases hframe
      · rename_i hlong
        obtain ⟨_, hpacket, heq⟩ := Option.map_eq_some_iff.mp hframe
        cases heq
        have hlength := RtpPacket.parse_length hpacket
        rw [List.length_take] at hlength
        simp only [List.length_cons] at hlong ⊢
        omega
  · cases hframe

/-- A frame is longer than the payload of its packet by the two headers. -/
theorem parseTcpRtpFrameWith_length (h : parseTcpRtpFrameWith raw mode = some parsed) :
    14 + parsed.packet.payload.length ≤ parsed.consumed ∧ parsed.consumed ≤ raw.length := by
  unfold parseTcpRtpFrameWith at h
  split at h
  · exact parseTwoByte_length h
  · have := parseInterleaved_length h
    omega
  · split at h
    · split at h
      · rename_i hframe
        cases h
        have := parseInterleaved_length hframe
        omega
      · exact parseTwoByte_length h
    · exact parseTwoByte_length h

/-- A packet whose length can be told in two bytes, the first of which is not a `$`. -/
structure RtpPacket.Framed (p : RtpPacket) : Prop where
  length : p.encode.length ≤ 65535
  first : p.encode.length / 256 ≠ DOLLAR.toNat

theorem u16_length (h : n ≤ 65535) : fromBigEndian (toBigEndian 2 n) = n := by
  have hlt : n < 256 ^ 2 := by omega
  exact from_toBigEndian_of_lt hlt

theorem parseTwoByte_encode {p : RtpPacket} (h : p.encode.length ≤ 65535) (more : Bytes) :
    parseTwoByte (encodeTcpRtpFrame p ++ more) = some {
      packet := p.sent, consumed := 2 + p.encode.length, channel := none, framing := .twoByte } := by
  have hlen := u16_length h
  have hwhole : 2 + p.encode.length ≤ (encodeTcpRtpFrame p ++ more).length := by
    simp only [encodeTcpRtpFrame, List.length_append, toBigEndian_length]
    omega
  unfold encodeTcpRtpFrame at hwhole ⊢
  simp only [toBigEndian, List.cons_append, List.nil_append] at hlen hwhole ⊢
  unfold parseTwoByte parseTcpRtpFrame
  dsimp only
  rw [hlen, if_neg (by omega), List.take_left, RtpPacket.parse_encode]
  rfl

theorem head_encodeTcpRtpFrame (p : RtpPacket) (more : Bytes) :
    (encodeTcpRtpFrame p ++ more).head? = some (UInt8.ofNat (p.encode.length / 256)) := rfl

theorem RtpPacket.Framed.head_ne {p : RtpPacket} (h : p.Framed) (more : Bytes) :
    (encodeTcpRtpFrame p ++ more).head? ≠ some DOLLAR := by
  rw [head_encodeTcpRtpFrame]
  intro heq
  have hbyte := congrArg UInt8.toNat (Option.some.inj heq)
  have hlength := h.length
  rw [UInt8.toNat_ofNat', Nat.mod_eq_of_lt (by omega)] at hbyte
  exact h.first hbyte

theorem RtpPacket.Framed.parse {p : RtpPacket} (h : p.Framed) (more : Bytes) :
    parseTcpRtpFrameWith (encodeTcpRtpFrame p ++ more) .autoDetect = some {
      packet := p.sent, consumed := 2 + p.encode.length, channel := none, framing := .twoByte } := by
  unfold parseTcpRtpFrameWith
  dsimp only
  rw [if_neg (h.head_ne more), parseTwoByte_encode h.length]

theorem parse_encodeInterleavedRtpFrame {p : RtpPacket} (h : p.encode.length ≤ 65535)
    (channel : UInt8) (more : Bytes) :
    parseTcpRtpFrameWith (encodeInterleavedRtpFrame p channel ++ more) .autoDetect = some {
      packet := p.sent, consumed := 4 + p.encode.length, channel := some channel
      framing := .interleaved4Byte } := by
  have hlen := u16_length h
  have hwhole : 4 + p.encode.length ≤ (encodeInterleavedRtpFrame p channel ++ more).length := by
    simp only [encodeInterleavedRtpFrame, List.length_append, List.length_cons, toBigEndian_length]
    omega
  have hfound : parseInterleaved (encodeInterleavedRtpFrame p channel ++ more) = some {
      packet := p.sent, consumed := 4 + p.encode.length, channel := some channel
      framing := .interleaved4Byte } := by
    unfold encodeInterleavedRtpFrame at hwhole ⊢
    simp only [toBigEndian, List.cons_append, List.nil_append] at hlen hwhole ⊢
    unfold parseInterleaved parseInterleavedRtpFrame
    dsimp only
    rw [if_neg (by simp), hlen, if_neg (by omega), List.take_left, RtpPacket.parse_encode]
    rfl
  unfold parseTcpRtpFrameWith
  dsimp only
  rw [if_pos (show (encodeInterleavedRtpFrame p channel ++ more).head? = some DOLLAR from rfl), hfound]

end CheetahMedia.Codec
