import CheetahMedia.Rtmp.Chunk

namespace CheetahMedia.Rtmp
open Lib
open Lib.Reader (Reads ReadsAll)

structure RtmpTimestampDelta where
  millis : Int32

def RtmpTimestampDelta.ZERO : RtmpTimestampDelta := ⟨0⟩

inductive AudioFormat
  | adpcm
  | mp3
  | linearPcmLittleEndian
  | nellymoser16khzMono
  | nellymoser8KhzMono
  | nellymoser
  | g711AlawLogarithmicPcm
  | g711MuLawLogarithmicPcm
  | aac
  | speex
  | mp3_8khz
  | deviceSpecificSound
  | unknown (id : UInt8)
deriving DecidableEq

namespace AudioFormat

def rawId : AudioFormat → UInt8
  | .adpcm => 1
  | .mp3 => 2
  | .linearPcmLittleEndian => 3
  | .nellymoser16khzMono => 4
  | .nellymoser8KhzMono => 5
  | .nellymoser => 6
  | .g711AlawLogarithmicPcm => 7
  | .g711MuLawLogarithmicPcm => 8
  | .aac => 10
  | .speex => 11
  | .mp3_8khz => 14
  | .deviceSpecificSound => 15
  | .unknown id => id

def ofBits : UInt8 → AudioFormat
  | 1 => .adpcm
  | 2 => .mp3
  | 3 => .linearPcmLittleEndian
  | 4 => .nellymoser16khzMono
  | 5 => .nellymoser8KhzMono
  | 6 => .nellymoser
  | 7 => .g711AlawLogarithmicPcm
  | 8 => .g711MuLawLogarithmicPcm
  | 10 => .aac
  | 11 => .speex
  | 14 => .mp3_8khz
  | 15 => .deviceSpecificSound
  | bits => .unknown bits

end AudioFormat

inductive AudioSampleRate
  | khz5
  | khz11
  | khz22
  | khz44
deriving DecidableEq

namespace AudioSampleRate

def bits : AudioSampleRate → UInt8
  | .khz5 => 0
  | .khz11 => 1
  | .khz22 => 2
  | .khz44 => 3

def ofBits : UInt8 → AudioSampleRate
  | 0 => .khz5
  | 1 => .khz11
  | 2 => .khz22
  | _ => .khz44

end AudioSampleRate

structure AudioFrame where
  timestamp : RtmpTimestamp
  format : AudioFormat
  sampleRate : AudioSampleRate
  is8bitSample : Bool
  isStereo : Bool
  isAacSequenceHeader : Bool
  data : Bytes

inductive VideoFrameType
  | keyFrame
  | interFrame
  | disposableInterFrame
  | generatedKeyFrame
  | videoInfoOrCommandFrame
deriving DecidableEq

namespace VideoFrameType

def bits : VideoFrameType → UInt8
  | .keyFrame => 1
  | .interFrame => 2
  | .disposableInterFrame => 3
  | .generatedKeyFrame => 4
  | .videoInfoOrCommandFrame => 5

def ofBits : UInt8 → Except Error VideoFrameType
  | 1 => .ok .keyFrame
  | 2 => .ok .interFrame
  | 3 => .ok .disposableInterFrame
  | 4 => .ok .generatedKeyFrame
  | 5 => .ok .videoInfoOrCommandFrame
  | bits => .error (.invalidData s!"Invalid video frame type: {bits}")

end VideoFrameType

inductive VideoCodec
  | jpeg
  | h263
  | screenVideo
  | vp6
  | vp6WithAlpha
  | screenVideoV2
  | avc
  | unknown (id : UInt8)
deriving DecidableEq

namespace VideoCodec

def rawId : VideoCodec → UInt8
  | .jpeg => 1
  | .h263 => 2
  | .screenVideo => 3
  | .vp6 => 4
  | .vp6WithAlpha => 5
  | .screenVideoV2 => 6
  | .avc => 7
  | .unknown id => id

def ofBits : UInt8 → VideoCodec
  | 1 => .jpeg
  | 2 => .h263
  | 3 => .screenVideo
  | 4 => .vp6
  | 5 => .vp6WithAlpha
  | 6 => .screenVideoV2
  | 7 => .avc
  | bits => .unknown bits

end VideoCodec

inductive AvcPacketType
  | sequenceHeader
  | nalUnit
  | endOfSequence

namespace AvcPacketType

def byte : AvcPacketType → UInt8
  | .sequenceHeader => 0
  | .nalUnit => 1
  | .endOfSequence => 2

def ofByte : UInt8 → Except Error AvcPacketType
  | 0 => .ok .sequenceHeader
  | 1 => .ok .nalUnit
  | 2 => .ok .endOfSequence
  | byte => .error (.invalidData s!"Invalid AVC packet type: {byte}")

@[simp] theorem ofByte_byte (t : AvcPacketType) : ofByte t.byte = .ok t := by cases t <;> rfl

end AvcPacketType

structure VideoFrame where
  timestamp : RtmpTimestamp
  compositionTimestampOffset : RtmpTimestampDelta
  frameType : VideoFrameType
  codec : VideoCodec
  avcPacketType : Option AvcPacketType
  data : Bytes

/-- A frame that ends early is malformed: it does not wait for more input. -/
def checkLen (required : Nat) : BytesReader σ Unit := do
  let actual ← Reader.remaining
  if actual < required then
    Reader.fail (.invalidData s!"insufficient buffer: require {required}, got {actual}")
  else return ()

def readFrameU8 : BytesReader σ UInt8 := do
  checkLen 1
  readU8

def readFrameI24 : BytesReader σ Int32 := do
  checkLen 3
  readI24

def audioHeader (frame : AudioFrame) : UInt8 :=
  (frame.format.rawId <<< 4) ||| (frame.sampleRate.bits <<< 2) |||
    (frame.is8bitSample.toUInt8 <<< 1) ||| frame.isStereo.toUInt8

def encodeAudioFrame (frame : AudioFrame) : Bytes :=
  let packetType : Bytes :=
    if frame.format = .aac then [if frame.isAacSequenceHeader then 0 else 1] else []
  audioHeader frame :: (packetType ++ frame.data)

def decodeAacHeader (format : AudioFormat) : BytesReader σ Bool :=
  if format = .aac then do
    let aacPacketType ← readFrameU8
    return aacPacketType = 0
  else return false

def decodeAudioFrame (timestamp : RtmpTimestamp) : BytesReader σ AudioFrame := do
  let header ← readFrameU8
  let format := AudioFormat.ofBits ((header >>> 4) &&& 0x0F)
  let isAacSequenceHeader ← decodeAacHeader format
  let data ← Reader.takeAll
  return {
    timestamp := timestamp
    format := format
    sampleRate := .ofBits ((header >>> 2) &&& 0x03)
    is8bitSample := header &&& 0x02 ≠ 0
    isStereo := header &&& 0x01 ≠ 0
    isAacSequenceHeader := isAacSequenceHeader
    data := data }

/-- The assertion on the composition offset is the only way to fail. -/
def encodeVideoFrame (frame : VideoFrame) : Option Bytes :=
  let frameTypeCodec := (frame.frameType.bits <<< 4) ||| frame.codec.rawId
  match frame.avcPacketType with
  | none => some (frameTypeCodec :: frame.data)
  | some avcPacketType =>
    let offset := frame.compositionTimestampOffset.millis
    if -0x800000 ≤ offset.toInt ∧ offset.toInt < 0x800000 then
      some (frameTypeCodec :: avcPacketType.byte :: (writeI24 offset ++ frame.data))
    else none

def VideoFrame.hasAvcHeader (codec : VideoCodec) (frameType : VideoFrameType) : Bool :=
  codec = .avc ∧ frameType ≠ .videoInfoOrCommandFrame

def decodeAvcHeader (codec : VideoCodec) (frameType : VideoFrameType) :
    BytesReader σ (Option AvcPacketType × RtmpTimestampDelta) :=
  if VideoFrame.hasAvcHeader codec frameType then do
    let byte ← readFrameU8
    let avcPacketType ← Reader.ofExcept (AvcPacketType.ofByte byte)
    let offset ← readFrameI24
    return (some avcPacketType, ⟨offset⟩)
  else return (none, .ZERO)

def decodeVideoFrame (timestamp : RtmpTimestamp) : BytesReader σ VideoFrame := do
  let frameTypeCodec ← readFrameU8
  let frameType ← Reader.ofExcept (VideoFrameType.ofBits ((frameTypeCodec >>> 4) &&& 0x0F))
  let codec := VideoCodec.ofBits (frameTypeCodec &&& 0x0F)
  let avc ← decodeAvcHeader codec frameType
  let data ← Reader.takeAll
  return {
    timestamp := timestamp
    compositionTimestampOffset := avc.2
    frameType := frameType
    codec := codec
    avcPacketType := avc.1
    data := data }

/-- A codec id that fits its four bits and that no other codec has. -/
def AudioFormat.Canonical (f : AudioFormat) : Prop := f.rawId < 16 ∧ ofBits f.rawId = f
def VideoCodec.Canonical (c : VideoCodec) : Prop := c.rawId < 16 ∧ ofBits c.rawId = c

/-- The frames that the tag header tells apart. -/
structure AudioFrame.Canonical (frame : AudioFrame) : Prop where
  format : frame.format.Canonical
  sequenceHeader : frame.isAacSequenceHeader = true → frame.format = .aac

structure VideoFrame.Canonical (frame : VideoFrame) : Prop where
  codec : frame.codec.Canonical
  avcPacketType : frame.avcPacketType.isSome = hasAvcHeader frame.codec frame.frameType
  offset : frame.avcPacketType = none → frame.compositionTimestampOffset = .ZERO

section ReadBack

theorem checkLen_ok (h : n ≤ bytes.length) (s : σ) :
    (checkLen n).run bytes s = (s, .ok ((), bytes)) := by
  unfold checkLen
  have hlt : ¬ bytes.length < n := by omega
  rw [Reader.bind_ok (show Reader.remaining.run bytes s = (s, .ok (bytes.length, bytes)) from rfl),
    if_neg hlt]
  rfl

theorem reads_frameU8 (v : UInt8) : Reads (readFrameU8 : BytesReader σ UInt8) [v] v := by
  refine .of_run fun rest s => ?_
  unfold readFrameU8
  rw [Reader.bind_ok (checkLen_ok (by simp) s)]
  exact readU8_cons rest s v

theorem reads_frameI24 (v : Int32) (h : -0x800000 ≤ v.toInt ∧ v.toInt < 0x800000) :
    Reads (readFrameI24 : BytesReader σ Int32) (writeI24 v) v := by
  refine .of_run fun rest s => ?_
  unfold readFrameI24
  rw [Reader.bind_ok (checkLen_ok (by simp [writeI24, writeU24]) s)]
  exact readI24_writeI24 rest s v h

theorem audioHeader_bits (id : Fin 16) (rate : AudioSampleRate) (is8bit stereo : Bool) :
    let header := (UInt8.ofNat id <<< 4) ||| (rate.bits <<< 2) ||| (is8bit.toUInt8 <<< 1) |||
      stereo.toUInt8
    (header >>> 4) &&& 0x0F = UInt8.ofNat id ∧
      AudioSampleRate.ofBits ((header >>> 2) &&& 0x03) = rate ∧
      decide (header &&& 0x02 ≠ 0) = is8bit ∧ decide (header &&& 0x01 ≠ 0) = stereo := by
  revert id
  cases rate <;> cases is8bit <;> cases stereo <;> decide +kernel

theorem videoHeader_bits (id : Fin 16) (frameType : VideoFrameType) :
    let header := (frameType.bits <<< 4) ||| UInt8.ofNat id
    VideoFrameType.ofBits ((header >>> 4) &&& 0x0F) = .ok frameType ∧
      header &&& 0x0F = UInt8.ofNat id := by
  revert id
  cases frameType <;> intro id <;> refine ⟨?_, ?_⟩ <;> revert id <;> decide +kernel

theorem reads_aacHeader {frame : AudioFrame}
    (h : frame.isAacSequenceHeader = true → frame.format = .aac) :
    Reads (decodeAacHeader frame.format : BytesReader σ Bool)
      (if frame.format = .aac then [if frame.isAacSequenceHeader then 0 else 1] else [])
      frame.isAacSequenceHeader := by
  unfold decodeAacHeader
  split
  · have hflag : decide ((if frame.isAacSequenceHeader then 0 else 1 : UInt8) = 0) =
        frame.isAacSequenceHeader := by cases frame.isAacSequenceHeader <;> rfl
    refine (reads_frameU8 _).bind_last ?_
    rw [hflag]
    exact .pure _
  · rename_i hne
    rw [show frame.isAacSequenceHeader = false by simpa using mt h hne]
    exact .pure false

theorem reads_audioFrame {frame : AudioFrame} (h : frame.Canonical) :
    ReadsAll (decodeAudioFrame frame.timestamp : BytesReader σ AudioFrame)
      (encodeAudioFrame frame) frame := by
  obtain ⟨⟨hlt, hid⟩, haac⟩ := h
  obtain ⟨hformat, hrate, h8bit, hstereo⟩ := audioHeader_bits ⟨frame.format.rawId.toNat, hlt⟩
    frame.sampleRate frame.is8bitSample frame.isStereo
  rw [UInt8.ofNat_toNat] at hformat hrate h8bit hstereo
  unfold encodeAudioFrame audioHeader
  dsimp only
  refine ReadsAll.cons (reads_frameU8 _) ?_
  dsimp only
  rw [hformat, hrate, h8bit, hstereo, hid]
  exact ReadsAll.bind (reads_aacHeader haac) ((ReadsAll.takeAll _).map _)

theorem reads_avcHeader (h : VideoFrame.hasAvcHeader codec frameType = true)
    (avcPacketType : AvcPacketType) {offset : Int32}
    (hrange : -0x800000 ≤ offset.toInt ∧ offset.toInt < 0x800000) :
    Reads (decodeAvcHeader codec frameType :
        BytesReader σ (Option AvcPacketType × RtmpTimestampDelta))
      (avcPacketType.byte :: writeI24 offset) (some avcPacketType, ⟨offset⟩) := by
  unfold decodeAvcHeader
  rw [if_pos h]
  refine (reads_frameU8 avcPacketType.byte).bind ?_
  rw [AvcPacketType.ofByte_byte]
  exact (Reads.pure avcPacketType).silent_bind ((reads_frameI24 _ hrange).map _)

theorem reads_noAvcHeader (h : VideoFrame.hasAvcHeader codec frameType = false) :
    Reads (decodeAvcHeader codec frameType :
        BytesReader σ (Option AvcPacketType × RtmpTimestampDelta)) [] (none, .ZERO) := by
  unfold decodeAvcHeader
  rw [h]
  exact .pure _

theorem reads_videoFrame {frame : VideoFrame} (h : frame.Canonical)
    (he : encodeVideoFrame frame = some bytes) :
    ReadsAll (decodeVideoFrame frame.timestamp : BytesReader σ VideoFrame) bytes frame := by
  obtain ⟨⟨hlt, hid⟩, hsome, hoffset⟩ := h
  obtain ⟨htype, hcodec⟩ := videoHeader_bits ⟨frame.codec.rawId.toNat, hlt⟩ frame.frameType
  rw [UInt8.ofNat_toNat] at htype hcodec
  obtain ⟨timestamp, offset, frameType, codec, avcPacketType, data⟩ := frame
  unfold encodeVideoFrame at he
  dsimp only at he hid hsome hoffset htype hcodec
  cases avcPacketType with
  | none =>
    cases he
    refine ReadsAll.cons (reads_frameU8 _) ?_
    rw [htype, hcodec, hid]
    refine ReadsAll.bind (Reads.pure frameType) ?_
    rw [hoffset rfl]
    exact ReadsAll.bind (reads_noAvcHeader hsome.symm) ((ReadsAll.takeAll data).map _)
  | some avcPacketType =>
    dsimp only at he
    split at he
    · rename_i hrange
      cases he
      refine ReadsAll.cons (reads_frameU8 _) ?_
      rw [htype, hcodec, hid]
      refine ReadsAll.bind (Reads.pure frameType) ?_
      exact ReadsAll.bind (reads_avcHeader hsome.symm avcPacketType hrange)
        ((ReadsAll.takeAll data).map _)
    · cases he

end ReadBack

end CheetahMedia.Rtmp
