import CheetahMedia.Codec.Flv
import CheetahMedia.Codec.Video

namespace CheetahMedia.Codec
open Lib

/-- Units behind a length field of 16 bits, which cuts them. -/
def cutUnits (units : List Bytes) : Bytes :=
  units.flatMap fun unit =>
    let unit := unit.take 0xFFFF
    toBigEndian 2 unit.length ++ unit

def buildH264Avcc (sps pps : List Bytes) : Bytes :=
  match sps with
  | [] => []
  | firstSps :: _ =>
    if firstSps.length < 4 || pps.isEmpty then []
    else
      let spsCount := min sps.length 31
      let ppsCount := min pps.length 255
      [1, firstSps.getD 1 0, firstSps.getD 2 0, firstSps.getD 3 0, 0xff,
        0xe0 ||| UInt8.ofNat spsCount] ++ cutUnits (sps.take spsCount) ++
        [UInt8.ofNat ppsCount] ++ cutUnits (pps.take ppsCount)

def appendHvccArray (nalUnitType : UInt8) (units : List Bytes) : Bytes :=
  (0x80 ||| (nalUnitType &&& 0x3f)) :: toBigEndian 2 (min units.length 0xFFFF) ++
    cutUnits (units.take 0xFFFF)

/-- The profile, the flags and the level of the first SPS, or defaults for one that is short. -/
def profileTierLevel (firstSps : Bytes) : Bytes :=
  if 15 ≤ firstSps.length then (firstSps.drop 3).take 12
  else 0x01 :: toBigEndian 4 0x60000000 ++ [0x90, 0, 0, 0, 0, 0] ++ [120]

def buildH265Hvcc (vps sps pps : List Bytes) : Bytes :=
  if vps.isEmpty || pps.isEmpty then []
  else match sps with
    | [] => []
    | firstSps :: _ =>
      1 :: profileTierLevel firstSps ++ toBigEndian 2 0xf000 ++ [0xfc, 0xfc, 0xf8, 0xf8] ++
        toBigEndian 2 0 ++ [0x0f, 3] ++ appendHvccArray 32 vps ++ appendHvccArray 33 sps ++
        appendHvccArray 34 pps

/-- Both writers of MP4 boxes have one of their own. -/
def extractExtradata (track : TrackInfo) : Bytes :=
  match track.codec, track.extradata with
  | .h264, .h264 _ _ (some avcc) => avcc
  | .h264, .h264 sps pps none => buildH264Avcc sps pps
  | .h265, .h265 _ _ _ (some hvcc) => hvcc
  | .h265, .h265 vps sps pps none => buildH265Hvcc vps sps pps
  | .aac, .aac asc => asc
  | .opus, .opus _ channelMapping => channelMapping.getD []
  | .av1, .av1 _ codecConfig => codecConfig.getD []
  | .vp8, .vp8 config => config.getD []
  | .vp9, .vp9 config => config.getD []
  | _, _ => []

/-- The number of zero bytes that stand before, up to two. -/
def removeH264EmulationPrevention : Nat → Bytes → Bytes
  | _, [] => []
  | zeroRun, byte :: rest =>
    if 2 ≤ zeroRun && byte = 0x03 then removeH264EmulationPrevention 0 rest
    else byte :: removeH264EmulationPrevention (if byte = 0 then zeroRun + 1 else 0) rest

namespace H264BitReader

def readBits : Nat → List Bool → Option (Nat × List Bool)
  | 0, bits => some (0, bits)
  | _ + 1, [] => none
  | n + 1, bit :: bits =>
    (readBits n bits).map fun r => ((if bit then 2 ^ n else 0) + r.1, r.2)

/-- At most 31 zeros stand before the first one. -/
def readUeAfter : Nat → List Bool → Option (Nat × List Bool)
  | _, [] => none
  | leadingZeros, true :: bits =>
    (readBits leadingZeros bits).map fun r => (2 ^ leadingZeros - 1 + r.1, r.2)
  | leadingZeros, false :: bits =>
    if 31 ≤ leadingZeros then none else readUeAfter (leadingZeros + 1) bits

def readUe (bits : List Bool) : Option (Nat × List Bool) := readUeAfter 0 bits

end H264BitReader

open H264BitReader in
def buildH264AvccExtensionFields (sps : Bytes) : Option Bytes := do
  let profile ← sps[1]?
  if profile ∉ [100, 110, 122, 144, 244, 44, 83, 86, 118, 128, 138, 139, 134, 135] then none
  else
    let rbsp := removeH264EmulationPrevention 0 (sps.drop 1)
    let bits := rbsp.flatMap bitsOf
    let (_, bits) ← readBits 8 bits
    let (_, bits) ← readBits 8 bits
    let (_, bits) ← readBits 8 bits
    let (_, bits) ← readUe bits
    let (chromaFormatIdc, bits) ← readUe bits
    let (_, bits) ← if chromaFormatIdc % 256 = 3 then readBits 1 bits else some (0, bits)
    let (bitDepthLumaMinus8, bits) ← readUe bits
    let (bitDepthChromaMinus8, _) ← readUe bits
    pure [0xFC ||| (UInt8.ofNat chromaFormatIdc &&& 0x03),
      0xF8 ||| (UInt8.ofNat bitDepthLumaMinus8 &&& 0x07),
      0xF8 ||| (UInt8.ofNat bitDepthChromaMinus8 &&& 0x07), 0]

/-- Units behind the low 16 bits of their length, which does not cut them. -/
def prefixedUnits (units : List Bytes) : Bytes :=
  units.flatMap fun unit => toBigEndian 2 unit.length ++ unit

def buildH264AvccFromParameterSets (sps pps : List Bytes) : Option Bytes :=
  match sps with
  | [] => none
  | firstSps :: _ =>
    if sps.any List.isEmpty || pps.isEmpty || pps.any List.isEmpty then none
    else some ([1, firstSps.getD 1 0, firstSps.getD 2 0, firstSps.getD 3 0, 0xFF,
        0xE0 ||| UInt8.ofNat (min sps.length 0x1F)] ++ prefixedUnits (sps.take 0x1F) ++
        [UInt8.ofNat (min pps.length 255)] ++ prefixedUnits (pps.take 255) ++
        (buildH264AvccExtensionFields firstSps).getD [])

def buildVideoSequenceHeader (track : TrackInfo) : Option FlvTag :=
  let header (frameType : UInt8) (config : Bytes) : FlvTag :=
    { tagType := .video, timestampMs := 0, payload := [frameType, 0x00, 0, 0, 0] ++ config }
  match track.codec, track.extradata with
  | .h264, .h264 sps pps avcc =>
    (avcc.or (buildH264AvccFromParameterSets sps pps)).map (header 0x17)
  | .h265, .h265 _ _ _ (some hvcc) => some (header 0x1c hvcc)
  | _, _ => none

def buildAudioSequenceHeader (track : TrackInfo) : Option FlvTag :=
  match track.codec, track.extradata with
  | .aac, .aac asc => some { tagType := .audio, timestampMs := 0, payload := [0xaf, 0x00] ++ asc }
  | _, _ => none

def looksLikeH26xLengthPrefixedWithin : Nat → Nat → Bytes → Bool
  | 0, _, _ => false
  | passes + 1, unitCount, cursor =>
    if cursor.length < 4 then unitCount > 0 && cursor.isEmpty
    else
      let size := fromBigEndian (cursor.take 4)
      let cursor := cursor.drop 4
      if size = 0 || cursor.length < size then false
      else looksLikeH26xLengthPrefixedWithin passes (unitCount + 1) (cursor.drop size)

/-- Each pass takes a length field, so the length of the data bounds them. -/
def looksLikeH26xLengthPrefixed (data : Bytes) : Bool :=
  looksLikeH26xLengthPrefixedWithin (data.length + 1) 0 data

def looksLikeAnnexb : Bytes → Bool
  | 0 :: 0 :: 1 :: _ => true
  | 0 :: 0 :: 0 :: 1 :: _ => true
  | _ => false

/-- Units that 32 bits cannot count are left out. -/
def lengthPrefixedUnits (units : List Bytes) : Bytes :=
  units.flatMap fun unit =>
    if unit.length < 2 ^ 32 then toBigEndian 4 unit.length ++ unit else []

def h26xLengthPrefixedFromPayload (payload : Bytes) : Bytes :=
  if payload.isEmpty then payload
  else if looksLikeH26xLengthPrefixed payload then payload
  else
    let out := if looksLikeAnnexb payload then lengthPrefixedUnits (splitAnnexbUnits payload) else []
    if !out.isEmpty then out
    else if payload.length < 2 ^ 32 then toBigEndian 4 payload.length ++ payload
    else payload

end CheetahMedia.Codec
