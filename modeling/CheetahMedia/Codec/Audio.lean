import CheetahMedia.Codec.Media

namespace CheetahMedia.Codec

structure AacAudioSpecificConfig where
  audioObjectType : UInt8
  samplingFrequencyIndex : UInt8
  channelConfiguration : UInt8

namespace AacAudioSpecificConfig

def fromBytes : Bytes → Option AacAudioSpecificConfig
  | b₀ :: b₁ :: _ => some
    { audioObjectType := (b₀ >>> 3) &&& 0x1f
      samplingFrequencyIndex := ((b₀ &&& 0x07) <<< 1) ||| (b₁ >>> 7)
      channelConfiguration := (b₁ >>> 3) &&& 0x0f }
  | _ => none

def toBytes (asc : AacAudioSpecificConfig) : Bytes :=
  [(asc.audioObjectType <<< 3) ||| ((asc.samplingFrequencyIndex >>> 1) &&& 0x07),
    ((asc.samplingFrequencyIndex &&& 0x01) <<< 7) ||| ((asc.channelConfiguration &&& 0x0f) <<< 3)]

end AacAudioSpecificConfig

def aacChannelCountFromConfig (channelConfiguration : UInt8) : Option Nat :=
  match channelConfiguration with
  | 1 => some 1
  | 2 => some 2
  | 3 => some 3
  | 4 => some 4
  | 5 => some 5
  | 6 => some 6
  | 7 => some 8
  | 11 => some 7
  | 12 | 14 => some 8
  | _ => none

def aacSampleRate (index : UInt8) : Nat :=
  [96000, 88200, 64000, 48000, 44100, 32000, 24000, 22050, 16000, 12000, 11025, 8000, 7350].getD
    index.toNat 0

structure AdtsHeader where
  profile : UInt8
  samplingFrequencyIndex : UInt8
  channelConfiguration : UInt8
  frameLength : Nat

namespace AdtsHeader

def parse : Bytes → Option AdtsHeader
  | d₀ :: d₁ :: d₂ :: d₃ :: d₄ :: d₅ :: _ :: _ =>
    if d₀ ≠ 0xff ∨ d₁ &&& 0xf0 ≠ 0xf0 then none
    else some
      { profile := (d₂ >>> 6) &&& 0x03
        samplingFrequencyIndex := (d₂ >>> 2) &&& 0x0f
        channelConfiguration := ((d₂ &&& 0x01) <<< 2) ||| ((d₃ >>> 6) &&& 0x03)
        frameLength := (d₃ &&& 0x03).toNat * 2048 + d₄.toNat * 8 + ((d₅ >>> 5) &&& 0x07).toNat }
  | _ => none

/-- The channel configuration saturates at the three bits that the header has. -/
def build (h : AdtsHeader) : Bytes :=
  let chCfg := min h.channelConfiguration 7
  [0xff, 0xf1,
    ((h.profile &&& 0x03) <<< 6) ||| ((h.samplingFrequencyIndex &&& 0x0f) <<< 2) |||
      ((chCfg >>> 2) &&& 0x01),
    ((chCfg &&& 0x03) <<< 6) ||| UInt8.ofNat (h.frameLength / 2048 % 4),
    UInt8.ofNat (h.frameLength / 8 % 256),
    (UInt8.ofNat (h.frameLength % 8) <<< 5) ||| 0x1f,
    0xfc]

end AdtsHeader

/-- The header of an ADTS frame and what follows it, where the whole frame is there. -/
def adtsStrip (frame : Bytes) : Option (AdtsHeader × Bytes) := do
  let header ← AdtsHeader.parse frame
  if header.frameLength < 7 ∨ frame.length < header.frameLength then none
  else return (header, (frame.take header.frameLength).drop 7)

structure MpegAudioFrameInfo where
  codec : CodecId
  sampleRate : Nat
  channels : Nat

def parseMpegAudioHeader : Bytes → Option MpegAudioFrameInfo
  | p₀ :: p₁ :: p₂ :: p₃ :: _ => do
    if p₀ ≠ 0xFF ∨ p₁ &&& 0xE0 ≠ 0xE0 then none
    let versionId := (p₁ >>> 3) &&& 0x03
    let layer := (p₁ >>> 1) &&& 0x03
    if versionId = 0x01 ∨ layer = 0x00 then none
    let baseRate ← match (p₂ >>> 2) &&& 0x03 with
      | 0 => some 44100
      | 1 => some 48000
      | 2 => some 32000
      | _ => none
    let sampleRate ← match versionId with
      | 0x03 => some baseRate
      | 0x02 => some (baseRate / 2)
      | 0x00 => some (baseRate / 4)
      | _ => none
    let codec ← match layer with
      | 0x01 => some .mp3
      | 0x02 | 0x03 => some .mp2
      | _ => none
    return ⟨codec, sampleRate, if p₃ >>> 6 = 0x03 then 1 else 2⟩
  | _ => none

end CheetahMedia.Codec
