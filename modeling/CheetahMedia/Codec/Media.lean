namespace CheetahMedia.Codec

abbrev Bytes := List UInt8

inductive MediaKind
  | video | audio | data | subtitle
deriving DecidableEq

inductive CodecId
  | h264 | h265 | h266 | av1 | vp8 | vp9 | mjpeg | aac | adpcm | opus | g711a | g711u | mp2 | mp3
  | webVtt | unknown
deriving DecidableEq

inductive FrameFormat
  | canonicalH26x | canonicalAv1Obu | canonicalVp8Frame | canonicalVp9Frame | mjpegFrame | aacRaw
  | adpcmPacket | opusPacket | g711Packet | mp2Frame | mp3Frame | webVttPacket | dataPacket | unknown
deriving DecidableEq

inductive TrackReadiness
  | notReady | pendingConfig | ready
deriving DecidableEq

inductive CodecExtradata
  | none
  | h264 (sps pps : List Bytes) (avcc : Option Bytes)
  | h265 (vps sps pps : List Bytes) (hvcc : Option Bytes)
  | h266 (vps sps pps : List Bytes)
  | aac (asc : Bytes)
  | av1 (sequenceHeader codecConfig : Option Bytes)
  | vp8 (config : Option Bytes)
  | vp9 (config : Option Bytes)
  | mp3 (sideInfo : Option Bytes)
  | opus (fmtp : Option String) (channelMapping : Option Bytes)
  | raw (bytes : Bytes)
deriving DecidableEq

structure TrackInfo where
  trackId : Nat
  mediaKind : MediaKind
  codec : CodecId
  clockRate : Nat
  sampleRate : Option Nat := none
  channels : Option Nat := none
  width : Option Nat := none
  height : Option Nat := none
  extradata : CodecExtradata := .none
  readiness : TrackReadiness := .notReady
deriving DecidableEq

namespace TrackInfo

def new (trackId : Nat) (mediaKind : MediaKind) (codec : CodecId) (clockRate : Nat) : TrackInfo :=
  { trackId := trackId, mediaKind := mediaKind, codec := codec, clockRate := clockRate }

def refreshReadiness (track : TrackInfo) : TrackInfo :=
  let of (complete : Bool) : TrackReadiness := if complete then .ready else .pendingConfig
  let filled (config : Option Bytes) : Bool := config.any fun bytes => !bytes.isEmpty
  let readiness := match track.codec with
    | .h264 | .h265 | .h266 => match track.extradata with
      | .h264 sps pps _ => of (!sps.isEmpty && !pps.isEmpty)
      | .h265 vps sps pps _ => of (!vps.isEmpty && !sps.isEmpty && !pps.isEmpty)
      | .h266 vps sps pps => of (!vps.isEmpty && !sps.isEmpty && !pps.isEmpty)
      | _ => .pendingConfig
    | .aac => match track.extradata with
      | .aac asc => of (!asc.isEmpty)
      | _ => .pendingConfig
    | .av1 => match track.extradata with
      | .av1 sequenceHeader codecConfig => of (filled sequenceHeader || filled codecConfig)
      | _ => .pendingConfig
    | .webVtt | .unknown => track.readiness
    | _ => .ready
  { track with readiness := readiness }

end TrackInfo

/-- A frame; of the flags only that of a key frame is kept. -/
structure AVFrame where
  trackId : Nat
  mediaKind : MediaKind
  codec : CodecId
  format : FrameFormat
  pts : Int
  dts : Int
  timebase : Nat × Nat
  ptsUs : Int
  dtsUs : Int
  duration : Int := 0
  durationUs : Int := 0
  isKey : Bool := false
  payload : Bytes
deriving DecidableEq

/-- `Timebase::to_micros`, which computes with 128 bits. -/
def toMicros (timebase : Nat × Nat) (value : Int) : Int :=
  (value * timebase.1 * 1000000).tdiv (max timebase.2 1)

def AVFrame.new (trackId : Nat) (mediaKind : MediaKind) (codec : CodecId) (format : FrameFormat)
    (pts dts : Int) (timebase : Nat × Nat) (payload : Bytes) : AVFrame where
  trackId := trackId
  mediaKind := mediaKind
  codec := codec
  format := format
  pts := pts
  dts := dts
  timebase := timebase
  ptsUs := toMicros timebase pts
  dtsUs := toMicros timebase dts
  payload := payload

end CheetahMedia.Codec
