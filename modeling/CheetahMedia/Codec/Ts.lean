import CheetahMedia.Codec.Media
import CheetahMedia.Lib.Checked
import CheetahMedia.Lib.Endian

namespace CheetahMedia.Codec
open Lib

def TS_PACKET_SIZE : Nat := 188
def SYNC_BYTE : UInt8 := 0x47
def PAT_PID : Nat := 0x0000
def PMT_PID : Nat := 0x1000
def NULL_PID : Nat := 0x1FFF

def AUD_H264 : Bytes := [0x00, 0x00, 0x00, 0x01, 0x09, 0xF0]
def AUD_H265 : Bytes := [0x00, 0x00, 0x00, 0x01, 0x46, 0x01, 0x50]
def AUD_H266 : Bytes := [0x00, 0x00, 0x00, 0x01, 0x00, 0xA0, 0x01]

def streamTypeForCodec : CodecId → UInt8
  | .h264 => 0x1B
  | .h265 => 0x24
  | .h266 => 0x33
  | .vp8 => 0x9D
  | .vp9 => 0x9E
  | .av1 => 0x9F
  | .aac => 0x0F
  | .mp2 => 0x03
  | .mp3 => 0x04
  | .g711a => 0x90
  | .g711u => 0x91
  | .opus | .adpcm | .mjpeg | .webVtt | .unknown => 0x06

def codecFromStreamType : UInt8 → Option (CodecId × MediaKind)
  | 0x1B => some (.h264, .video)
  | 0x24 => some (.h265, .video)
  | 0x33 => some (.h266, .video)
  | 0x9D => some (.vp8, .video)
  | 0x9E => some (.vp9, .video)
  | 0x9F => some (.av1, .video)
  | 0x0F => some (.aac, .audio)
  | 0x03 => some (.mp2, .audio)
  | 0x04 => some (.mp3, .audio)
  | 0x90 => some (.g711a, .audio)
  | 0x91 => some (.g711u, .audio)
  | 0x9C => some (.opus, .audio)
  | _ => none

/-- The descriptors that a codec needs in the program map. -/
def registrationDescriptor : CodecId → Bytes
  | .av1 => [0x05, 0x04, 65, 86, 48, 49]
  | .vp8 => [0x05, 0x04, 86, 80, 56, 48]
  | .vp9 => [0x05, 0x04, 86, 80, 48, 57]
  | .opus => [0x05, 0x04, 79, 112, 117, 115]
  | .mjpeg => [0x05, 0x04, 77, 74, 80, 71]
  | .adpcm => [0x05, 0x04, 65, 68, 80, 67]
  | _ => []

/-- The codec that the format identifier of a registration descriptor names. -/
def codecOfIdentifier : Bytes → Option (CodecId × MediaKind)
  | [65, 86, 48, 49] => some (.av1, .video)
  | [79, 112, 117, 115] => some (.opus, .audio)
  | [86, 80, 48, 57] => some (.vp9, .video)
  | [86, 80, 56, 48] => some (.vp8, .video)
  | [77, 74, 80, 71] => some (.mjpeg, .video)
  | [65, 68, 80, 67] => some (.adpcm, .audio)
  | _ => none

/-- Each descriptor takes its two header bytes, so the length bounds the passes. -/
def identifyPrivateStreamWithin : Nat → Bytes → Option (CodecId × MediaKind)
  | passes + 1, tag :: len :: rest =>
    if len.toNat > rest.length then none
    else
      let found :=
        if tag = 0x05 ∧ 4 ≤ len then codecOfIdentifier (rest.take 4)
        else if tag = 0x80 then some (.av1, .video)
        else none
      found.or (identifyPrivateStreamWithin passes (rest.drop len.toNat))
  | _, _ => none

def identifyPrivateStream (esInfo : Bytes) : Option (CodecId × MediaKind) :=
  identifyPrivateStreamWithin esInfo.length esInfo

/-- Of the number 33 bits are kept. -/
def encodeTimestamp (marker : UInt8) (ts : Nat) : Bytes :=
  let ts := ts % 8589934592
  [(marker <<< 4) ||| (UInt8.ofNat (ts / 536870912) &&& 0x0E) ||| 0x01,
    UInt8.ofNat (ts / 4194304),
    (UInt8.ofNat (ts / 16384) &&& 0xFE) ||| 0x01,
    UInt8.ofNat (ts / 128),
    (UInt8.ofNat (ts * 2) &&& 0xFE) ||| 0x01]

def decodeTimestamp (buf : Bytes) : Checked Nat := do
  let b₀ ← Checked.byteAt buf 0
  let b₁ ← Checked.byteAt buf 1
  let b₂ ← Checked.byteAt buf 2
  let b₃ ← Checked.byteAt buf 3
  let b₄ ← Checked.byteAt buf 4
  return ((b₀ >>> 1) &&& 0x07).toNat * 1073741824 + b₁.toNat * 4194304 +
    (b₂ >>> 1).toNat * 32768 + b₃.toNat * 128 + (b₄ >>> 1).toNat

def crcShift (crc : UInt32) : UInt32 :=
  if crc &&& 0x80000000 ≠ 0 then (crc <<< 1) ^^^ 0x04C11DB7 else crc <<< 1

def crc32Mpeg2 (data : Bytes) : UInt32 :=
  data.foldl (fun crc byte => Nat.repeat crcShift 8 (crc ^^^ UInt32.shiftLeft byte.toUInt32 24))
    0xFFFFFFFF

def g711DurationUs (payloadLen sampleRate : Nat) : Nat :=
  if sampleRate = 0 then 0 else payloadLen * 1000000 / sampleRate

def g711Duration90k (payloadLen sampleRate : Nat) : Nat :=
  if sampleRate = 0 then 0 else payloadLen * 90000 / sampleRate

def isSync (data : Bytes) (i : Nat) : Bool := data[i]? == some SYNC_BYTE

/-- A sync byte with another one a packet later, or any in the last packet. -/
def findSync (data : Bytes) (start : Nat) : Option Nat :=
  let last := data.length - TS_PACKET_SIZE
  let confirmed := (List.range' start (last - start)).find? fun i =>
    isSync data i && (i + TS_PACKET_SIZE ≥ data.length || isSync data (i + TS_PACKET_SIZE))
  confirmed.or ((List.range' (max last start) (data.length - max last start)).find? (isSync data))

/-- The first two bytes after the sync byte. -/
def packetPid (pid : Nat) (first : Bool) : Bytes :=
  toBigEndian 2 ((if first then 0x4000 else 0) ||| pid)

/-- The adaptation field of a key frame's first packet: its flags and the clock reference. -/
def adaptationField (randomAccess : Bool) (pcr : Option Nat) : Bytes :=
  let flags : UInt8 :=
    (if randomAccess then 0x40 else 0) ||| (if pcr.isSome then 0x10 else 0)
  flags :: match pcr with
    | none => []
    | some base =>
      [UInt8.ofNat (base / 33554432), UInt8.ofNat (base / 131072), UInt8.ofNat (base / 512),
        UInt8.ofNat (base / 2), (UInt8.ofNat (base % 2) <<< 7) ||| 0x7E, 0x00]

/-- What stands between the packet's header and its payload, where `room` is what is left
over after both of them. -/
def stuffing (field : Bytes) (room : Nat) : Bytes :=
  if field.isEmpty then
    match room with
    | 0 => []
    | 1 => [0x00]
    | extra + 2 => UInt8.ofNat (extra + 1) :: 0x00 :: List.replicate extra 0xFF
  else UInt8.ofNat (field.length + room) :: field ++ List.replicate room 0xFF

/-- One packet of a PES, and how much of the PES is in it. -/
def writePesPacket (pid : Nat) (pes : Bytes) (cc : UInt8) (first : Bool) (field : Bytes) :
    Bytes × Nat :=
  let headerEnd := if field.isEmpty then 4 else 5 + field.length
  let available := TS_PACKET_SIZE - headerEnd
  let taken := min pes.length available
  let room := available - taken
  let control : UInt8 := if field.isEmpty ∧ room = 0 then 0x10 else 0x30
  (SYNC_BYTE :: packetPid pid first ++ [control ||| (cc &&& 0x0F)] ++ stuffing field room ++
    pes.take taken, taken)

/-- The packets of a PES and the counter after them. Each takes some of the PES, so its
length bounds the passes. -/
def writePesPacketsWithin (pid : Nat) (field : Bytes) :
    Nat → Bytes → UInt8 → Bool → Bytes × UInt8
  | passes + 1, b :: pes, cc, first =>
    let (pkt, taken) := writePesPacket pid (b :: pes) cc first (if first then field else [])
    let (rest, cc) :=
      writePesPacketsWithin pid field passes ((b :: pes).drop taken) ((cc + 1) &&& 0x0F) false
    (pkt ++ rest, cc)
  | _, _, cc, _ => ([], cc)

def writePesPackets (pid : Nat) (pes : Bytes) (cc : UInt8) (randomAccess : Bool)
    (pcr : Option Nat) : Bytes × UInt8 :=
  let field := if randomAccess || pcr.isSome then adaptationField randomAccess pcr else []
  writePesPacketsWithin pid field pes.length pes cc true

end CheetahMedia.Codec
