import CheetahMedia.Codec.Audio
import CheetahMedia.Codec.Video
import CheetahMedia.Lib.Checked
import CheetahMedia.Lib.Endian
import Mathlib.Data.List.AList

namespace CheetahMedia.Codec
open Lib

structure PsDemuxerConfig where
  maxReassemblyBytes : Nat := 4 * 1024 * 1024
  maxTracks : Nat := 32
  maxPesPacketSize : Nat := 8 * 1024 * 1024
  maxAccessUnitSize : Nat := 16 * 1024 * 1024
  maxProbePackets : Nat := 1024
  maxCodecProbePackets : Nat := 8

inductive PsDemuxDiagnostic
  | bufferOverflow
  | psmParseError
  | pesParseError
  | limitExceeded (resource : String)
  | unsupportedPayload (streamId : UInt8)
  | missingParameterSets (codec : CodecId) (streamId : UInt8)

inductive PsDemuxEvent
  | trackInfo (tracks : List TrackInfo)
  | trackRemoved (trackIds : List Nat)
  | frame (frame : AVFrame)
  | diagnostic (diagnostic : PsDemuxDiagnostic)

/-- `windows(3).position`, of a start code's prefix. -/
def findTriplet : Bytes → Option Nat
  | 0x00 :: 0x00 :: 0x01 :: _ => some 0
  | _ :: rest => (findTriplet rest).map (· + 1)
  | [] => none

/-- The codec whose NAL header the two bytes can be. -/
def codecOfNalHeader (b₀ b₁ : UInt8) : Option CodecId :=
  let h265LayerId := (b₀ &&& 0x01).toNat * 32 + (b₁ >>> 3).toNat
  if b₀ &&& 0x80 = 0 ∧ h265LayerId = 0 ∧ b₁ &&& 0x07 > 0 ∧
      (b₀ >>> 1) &&& 0x3F ∈ ([1, 2, 19, 20, 21, 32, 33, 34, 35] : List UInt8) then some .h265
  else if b₀ &&& 0x80 = 0 ∧ b₀ &&& 0x1F ∈ ([1, 5, 7, 8, 9] : List UInt8) then some .h264
  else none

/-- Each start code takes some of the payload, so its length bounds the passes. -/
def probeVideoCodecWithin : Nat → Bytes → Option CodecId
  | 0, _ => none
  | passes + 1, payload =>
    if payload.length < 6 then none
    else match findTriplet payload with
      | none => none
      | some start =>
        let headerOffset := if payload[start + 3]? = some 0x00 then start + 4 else start + 3
        match payload.drop headerOffset with
        | b₀ :: b₁ :: rest =>
          (codecOfNalHeader b₀ b₁).or (probeVideoCodecWithin passes (b₁ :: rest))
        | _ => none

def probeVideoCodec (payload : Bytes) : Option CodecId :=
  probeVideoCodecWithin payload.length payload

def probeAudioCodec (payload : Bytes) (streamId : UInt8) : CodecId :=
  match payload with
  | b₀ :: b₁ :: _ => if b₀ = 0xFF ∧ b₁ &&& 0xF0 = 0xF0 then .aac else ofRange
  | _ => ofRange
where
  ofRange : CodecId := if 0xD0 ≤ streamId ∧ streamId ≤ 0xDF then .g711u else .g711a

def defaultFrameFormat : CodecId → FrameFormat
  | .h264 | .h265 | .h266 => .canonicalH26x
  | .aac => .aacRaw
  | .g711a | .g711u => .g711Packet
  | .mp3 => .mp3Frame
  | .opus => .opusPacket
  | _ => .unknown

def isVideoStreamId (streamId : UInt8) : Bool := 0xE0 ≤ streamId ∧ streamId ≤ 0xEF

def isAudioStreamId (streamId : UInt8) : Bool := 0xC0 ≤ streamId ∧ streamId ≤ 0xDF

def isPsStreamId (streamId : UInt8) : Bool :=
  streamId ∈ ([0xBA, 0xBB, 0xBC, 0xBD, 0xBE, 0xBF, 0xF0, 0xF1, 0xF2] : List UInt8) ∨
    isAudioStreamId streamId ∨ isVideoStreamId streamId ∨ 0xF8 ≤ streamId

def parsePtsDts : Bytes → Option Int
  | r₀ :: r₁ :: r₂ :: r₃ :: r₄ :: _ =>
    some (((r₀ >>> 1) &&& 0x07).toNat * 1073741824 + r₁.toNat * 4194304 +
      (r₂ >>> 1).toNat * 32768 + r₃.toNat * 128 + (r₄ >>> 1).toNat : Nat)
  | _ => none

/-- What the demuxer reads of a PES packet. -/
structure PesPacket where
  dataAlignment : Bool
  pts : Option Int
  dts : Option Int
  payload : Bytes

/-- The two times of a PES header, which ends before its payload begins. -/
def pesTimes (flags : UInt8) (packet : Bytes) (dataStart : Nat) : Option Int × Option Int :=
  let hasPts := flags &&& 2 ≠ 0 ∧ 14 ≤ dataStart
  let pts := if hasPts then parsePtsDts ((packet.drop 9).take 5) else none
  let cursor := if hasPts then 14 else 9
  let dts :=
    if flags &&& 1 ≠ 0 ∧ cursor + 5 ≤ dataStart then parsePtsDts ((packet.drop cursor).take 5)
    else none
  (pts, dts)

/-- Nothing where the header does not fit; a PES without payload has an empty one. -/
def readPes (packet : Bytes) : Option PesPacket :=
  match packet with
  | _ :: _ :: _ :: _ :: l₀ :: l₁ :: flags1 :: info1 :: headerDataLen :: _ =>
    let length := l₀.toNat * 256 + l₁.toNat
    let dataStart := 9 + headerDataLen.toNat
    if packet.length < dataStart then none
    else
      let payloadLen :=
        if length = 0 then packet.length - dataStart
        else min (6 + length - dataStart) (packet.length - dataStart)
      let (pts, dts) := pesTimes ((info1 &&& 0xC0) >>> 6) packet dataStart
      some
        { dataAlignment := flags1 &&& 0x04 ≠ 0
          pts := pts
          dts := dts
          payload := (packet.drop dataStart).take payloadLen }
  | _ => none

abbrev TrackTable := AList fun _ : UInt8 => TrackInfo

/-- The order in which the entries of a map are gone through. -/
structure MapOrder where
  entries : TrackTable → List (Sigma fun _ : UInt8 => TrackInfo)
  perm : ∀ tracks, (entries tracks).Perm tracks.entries

/-- The entries as they are listed. -/
def MapOrder.listed : MapOrder := ⟨fun tracks => tracks.entries, fun _ => .refl _⟩

/-- The first track of a kind. -/
def MapOrder.findKind (order : MapOrder) (tracks : TrackTable) (kind : MediaKind) :
    Option (Sigma fun _ : UInt8 => TrackInfo) :=
  (order.entries tracks).find? fun entry => entry.2.mediaKind = kind

end CheetahMedia.Codec
