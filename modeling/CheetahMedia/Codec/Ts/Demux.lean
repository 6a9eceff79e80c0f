import CheetahMedia.Codec.Audio
import CheetahMedia.Codec.Ts
import CheetahMedia.Codec.Video

namespace CheetahMedia.Codec
open Lib

structure MpegTsDemuxerConfig where
  maxReassemblyBytes : Nat := 4 * 1024 * 1024
  strictCrc : Bool := false
deriving DecidableEq

inductive MpegTsDemuxDiagnostic
  | syncLoss
  | continuityGap (pid : Nat) (expected got : UInt8)
  | crcError (pid : Nat)
  | pesOverflow (pid : Nat)
  | unknownStreamType (streamType : UInt8) (pid : Nat)
  | adaptationFieldOverflow (pid : Nat)
  | adtsError (pid : Nat) (reason : String)
deriving DecidableEq

inductive MpegTsDemuxEvent
  | trackFound (track : TrackInfo)
  | frame (frame : AVFrame)
  | diagnostic (diagnostic : MpegTsDemuxDiagnostic)
deriving DecidableEq

structure DemuxTrackState where
  pid : Nat
  trackId : Nat
  codec : CodecId
  mediaKind : MediaKind
  clockRate : Nat
  pesBuf : Bytes := []
  pesStarted : Bool := false
  expectedCc : Option UInt8 := none
  parameterSets : ParameterSetCache := {}
  aacAsc : Option Bytes := none
  sampleRate : Option Nat := none
  channels : Option Nat := none
  av1SequenceHeader : Option Bytes := none
  pendingPrivateProbe : Bool
  ptsWrapOffset : Int := 0
  lastRawPts : Option Nat := none
deriving DecidableEq

/-- What a packet works on: all of the demuxer but the bytes that are no packet yet. -/
structure PacketDemuxer where
  config : MpegTsDemuxerConfig
  pmtPid : Option Nat := none
  tracks : List DemuxTrackState := []
  pmtSectionBuf : Bytes := []
  pmtSectionTargetLen : Option Nat := none
  nextTrackId : Nat := 1
deriving DecidableEq

structure MpegTsDemuxer extends PacketDemuxer where
  remainder : Bytes := []
deriving DecidableEq

/-- A sequence header OBU with its size field. Each OBU takes its header, so the length of
the payload bounds the passes. -/
def extractAv1SequenceHeaderObuWithin : Nat → Bytes → Option Bytes
  | 0, _ | _, [] => none
  | passes + 1, header :: rest =>
    let obu := header :: rest
    let offset : Nat := if header &&& 0x04 ≠ 0 then 2 else 1
    if header &&& 0x80 ≠ 0 ∨ offset > obu.length ∨ header &&& 0x02 = 0 then none
    else match readLeb128 (obu.drop offset) with
      | none => none
      | some (obuLen, lebLen) =>
        let last := offset + lebLen + obuLen
        if last > obu.length then none
        else if (header >>> 3) &&& 0x0f = 1 then some (obu.take last)
        else extractAv1SequenceHeaderObuWithin passes (obu.drop last)

def extractAv1SequenceHeaderObu (payload : Bytes) : Option Bytes :=
  extractAv1SequenceHeaderObuWithin payload.length payload

def looksLikeVp8Keyframe (payload : Bytes) : Bool :=
  10 ≤ payload.length ∧ (payload.drop 3).take 3 = [0x9d, 0x01, 0x2a]

def looksLikeVp9Frame (payload : Bytes) : Bool :=
  payload.head?.any (fun b : UInt8 => b >>> 6 = 0b10) && vp9FrameIsKeyframe payload

def looksLikeAv1ObuStream (payload : Bytes) : Bool :=
  av1ObuPayloadHasKeyframe payload || (extractAv1SequenceHeaderObu payload).isSome

def inferPrivateVideoCodec (payload : Bytes) : Option (CodecId × FrameFormat) :=
  if looksLikeVp8Keyframe payload then some (.vp8, .canonicalVp8Frame)
  else if looksLikeVp9Frame payload then some (.vp9, .canonicalVp9Frame)
  else if looksLikeAv1ObuStream payload then some (.av1, .canonicalAv1Obu)
  else none

def frameFormatForCodec : CodecId → FrameFormat
  | .h264 | .h265 | .h266 => .canonicalH26x
  | .av1 => .canonicalAv1Obu
  | .vp8 => .canonicalVp8Frame
  | .vp9 => .canonicalVp9Frame
  | .mjpeg => .mjpegFrame
  | .aac => .aacRaw
  | .opus => .opusPacket
  | .g711a | .g711u => .g711Packet
  | .mp2 => .mp2Frame
  | .mp3 => .mp3Frame
  | .webVtt => .webVttPacket
  | .adpcm => .adpcmPacket
  | .unknown => .unknown

/-- An IDR unit after a start code; for H.265 the start code is the long one. -/
def isKeyframePayload : Bytes → CodecId → Bool
  | data, .h264 => data.tails.any fun
    | 0 :: 0 :: 1 :: b :: _ => b &&& 0x1F = 5
    | _ => false
  | data, .h265 => data.tails.any fun
    | 0 :: 0 :: 0 :: 1 :: b :: _ =>
      let type := (b >>> 1) &&& 0x3F
      16 ≤ type ∧ type ≤ 21
    | _ => false
  | _, _ => false

namespace DemuxTrackState

def trackInfo (t : DemuxTrackState) : TrackInfo :=
  let info := TrackInfo.new t.trackId t.mediaKind t.codec t.clockRate
  let info := match t.codec with
    | .h264 | .h265 | .h266 =>
      { info with extradata := (t.parameterSets.extradataForCodec t.codec).getD info.extradata }
    | .aac => match t.aacAsc with
      | none => info
      | some asc =>
        let info := { info with extradata := .aac asc }
        match AacAudioSpecificConfig.fromBytes asc with
        | none => info
        | some config =>
          let sampleRate := aacSampleRate config.samplingFrequencyIndex
          { info with
            clockRate := if sampleRate > 0 then sampleRate else info.clockRate
            sampleRate := if sampleRate > 0 then some sampleRate else info.sampleRate
            channels := aacChannelCountFromConfig config.channelConfiguration }
    | .mp2 | .mp3 =>
      { info with
        clockRate := t.sampleRate.getD info.clockRate
        sampleRate := t.sampleRate
        channels := t.channels }
    | .av1 => { info with extradata := .av1 t.av1SequenceHeader none }
    | _ => info
  info.refreshReadiness

/-- A frame of the track, with its times in ticks and in microseconds. -/
def frame (t : DemuxTrackState) (format : FrameFormat) (pts dts : Int) (data : Bytes) :
    Checked AVFrame := do
  let ptsUs := (← Checked.i64 (pts * 100)).tdiv 9
  let dtsUs := (← Checked.i64 (dts * 100)).tdiv 9
  return { AVFrame.new t.trackId t.mediaKind t.codec format pts dts (1, 90000) data with
    ptsUs := ptsUs
    dtsUs := dtsUs }

/-- The 33 bits of a timestamp that falls by more than half of their range have wrapped. -/
def unwrapPts (t : DemuxTrackState) (pts : Nat) : Checked DemuxTrackState := do
  let wrapped := t.lastRawPts.any fun last => pts < last ∧ last - pts > 4294967296
  let offset ← if wrapped then Checked.i64 (t.ptsWrapOffset + 8589934592) else pure t.ptsWrapOffset
  return { t with ptsWrapOffset := offset, lastRawPts := some pts }

def buildSingleFrameEvent (t : DemuxTrackState) (data : Bytes) (format : FrameFormat)
    (pts dts : Int) : Checked (DemuxTrackState × List MpegTsDemuxEvent) := do
  let (t, found) :=
    if t.codec = .h264 ∨ t.codec = .h265 ∨ t.codec = .h266 then
      let (sets, changed) := t.parameterSets.updateFromAnnexb t.codec data
      ({ t with parameterSets := sets }, changed && sets.hasRequiredSets t.codec)
    else if t.codec = .av1 ∧ t.av1SequenceHeader = none then
      let header := extractAv1SequenceHeaderObu data
      ({ t with av1SequenceHeader := header }, header.isSome)
    else (t, false)
  let frame ← t.frame format pts dts data
  let frame :=
    if t.codec = .g711a ∨ t.codec = .g711u then
      { frame with
        duration := g711Duration90k data.length 8000
        durationUs := g711DurationUs data.length 8000 }
    else frame
  let frame := { frame with isKey := t.mediaKind = .video && isKeyframePayload data t.codec }
  return (t, (if found then [.trackFound t.trackInfo] else []) ++ [.frame frame])

/-- The frames of an ADTS payload from `offset` on. Each takes its header, so the length of
the payload bounds the passes. -/
def splitAacAdtsFramesWithin (payload : Bytes) (pts dts : Int) :
    Nat → DemuxTrackState → Nat → Nat → Checked (DemuxTrackState × List MpegTsDemuxEvent)
  | 0, t, _, _ => return (t, [])
  | passes + 1, t, offset, frameIdx => do
    if offset ≥ payload.length then return (t, [])
    else
      let remaining ← Checked.slice payload offset payload.length
      match AdtsHeader.parse remaining with
      | none =>
        if offset = 0 then return (t, [.frame (← t.frame .aacRaw pts dts remaining)])
        else return (t, [])
      | some header =>
        if header.frameLength < 7 then
          return (t, [.diagnostic (.adtsError t.pid "ADTS frame_length < 7")])
        else if offset + header.frameLength > payload.length then
          return (t, [.diagnostic (.adtsError t.pid "ADTS frame_length exceeds payload")])
        else if header.samplingFrequencyIndex > 12 then
          return (t, [.diagnostic (.adtsError t.pid "invalid sampling_frequency_index")])
        else
          let asc : AacAudioSpecificConfig :=
            ⟨header.profile + 1, header.samplingFrequencyIndex, header.channelConfiguration⟩
          let first := t.aacAsc.isNone
          let t := if first then { t with aacAsc := some asc.toBytes } else t
          let aacData ← Checked.slice remaining 7 header.frameLength
          let sampleRate := aacSampleRate header.samplingFrequencyIndex
          let duration := if sampleRate > 0 then 1024 * 90000 / sampleRate else 0
          let framePts ← Checked.u64 (Checked.asU64 pts + frameIdx * duration)
          let frameDts ← Checked.u64 (Checked.asU64 dts + frameIdx * duration)
          let frame ← t.frame .aacRaw (Checked.asI64 framePts) (Checked.asI64 frameDts) aacData
          let (t', events) ← splitAacAdtsFramesWithin payload pts dts passes t
            (offset + header.frameLength) (frameIdx + 1)
          return (t', (if first then [.trackFound t.trackInfo] else []) ++ [.frame frame] ++ events)

def splitAacAdtsFrames (t : DemuxTrackState) (payload : Bytes) (pts dts : Int) :
    Checked (DemuxTrackState × List MpegTsDemuxEvent) :=
  splitAacAdtsFramesWithin payload pts dts payload.length t 0 0

/-- The frames of a PES whose header has been read. -/
def parsePesPayload (t : DemuxTrackState) (payload : Bytes) (pts dts : Int) :
    Checked (DemuxTrackState × List MpegTsDemuxEvent) :=
  if t.pendingPrivateProbe then
    match inferPrivateVideoCodec payload with
    | none => return (t, [])
    | some (codec, format) => do
      let header :=
        if codec = .av1 then extractAv1SequenceHeaderObu payload else t.av1SequenceHeader
      let t := { t with
        codec := codec
        mediaKind := .video
        clockRate := 90000
        av1SequenceHeader := header
        pendingPrivateProbe := false }
      let (t', events) ← t.buildSingleFrameEvent payload format pts dts
      return (t', .trackFound t.trackInfo :: events)
  else if t.codec = .aac then t.splitAacAdtsFrames payload pts dts
  else do
    let info := if t.codec = .mp2 ∨ t.codec = .mp3 then parseMpegAudioHeader payload else none
    let (t, found) := match info with
      | none => (t, [])
      | some info =>
        let changed := t.codec ≠ info.codec ∨ t.sampleRate ≠ some info.sampleRate ∨
          t.channels ≠ some info.channels
        let t := { t with
          codec := info.codec
          clockRate := info.sampleRate
          sampleRate := some info.sampleRate
          channels := some info.channels }
        (t, if changed then [MpegTsDemuxEvent.trackFound t.trackInfo] else [])
    let (t, events) ← t.buildSingleFrameEvent payload (frameFormatForCodec t.codec) pts dts
    return (t, found ++ events)

def parsePesToFrames (t : DemuxTrackState) : Checked (DemuxTrackState × List MpegTsDemuxEvent) := do
  let pes := t.pesBuf
  let t := { t with pesBuf := [] }
  if pes.length < 9 ∨ pes.take 3 ≠ [0x00, 0x00, 0x01] then return (t, [])
  else
    let headerDataLen := (← Checked.byteAt pes 8).toNat
    let ptsDtsFlags := (← Checked.byteAt pes 7) >>> 6
    let payloadStart := 9 + headerDataLen
    if payloadStart ≥ pes.length then return (t, [])
    else if ptsDtsFlags = 1 ∨ (2 ≤ ptsDtsFlags ∧ headerDataLen < 5) ∨
        (ptsDtsFlags = 3 ∧ headerDataLen < 10) then return (t, [])
    else
      let pts ← if 2 ≤ ptsDtsFlags then decodeTimestamp (← Checked.slice pes 9 14) else pure 0
      let dts ← if ptsDtsFlags = 3 then decodeTimestamp (← Checked.slice pes 14 19) else pure pts
      let t ← t.unwrapPts pts
      let payload ← Checked.slice pes payloadStart pes.length
      t.parsePesPayload payload (Checked.asI64 (pts + t.ptsWrapOffset))
        (Checked.asI64 (dts + t.ptsWrapOffset))

/-- The frames of the PES that the track holds. -/
def finishPes (t : DemuxTrackState) : Checked (DemuxTrackState × List MpegTsDemuxEvent) :=
  if t.pesBuf.isEmpty then return (t, []) else t.parsePesToFrames

def checkContinuity (t : DemuxTrackState) (cc : UInt8) : DemuxTrackState × List MpegTsDemuxEvent :=
  ({ t with expectedCc := some ((cc + 1) &&& 0x0F) }, match t.expectedCc with
    | some expected => if cc ≠ expected then [.diagnostic (.continuityGap t.pid expected cc)] else []
    | none => [])

/-- A first packet ends the PES before it and begins another. -/
def startPes (t : DemuxTrackState) (pusi : Bool) :
    Checked (DemuxTrackState × List MpegTsDemuxEvent) :=
  if pusi then do
    let (t, events) ← t.finishPes
    return ({ t with pesStarted := true, pesBuf := [] }, events)
  else return (t, [])

def appendPayload (t : DemuxTrackState) (max : Nat) (payload : Bytes) :
    DemuxTrackState × List MpegTsDemuxEvent :=
  if t.pesStarted then
    if t.pesBuf.length + payload.length > max then
      ({ t with pesBuf := [], pesStarted := false }, [.diagnostic (.pesOverflow t.pid)])
    else ({ t with pesBuf := t.pesBuf ++ payload }, [])
  else (t, [])

/-- A packet with payload for the track. -/
def feed (t : DemuxTrackState) (max : Nat) (pusi : Bool) (cc : UInt8) (payload : Bytes) :
    Checked (DemuxTrackState × List MpegTsDemuxEvent) := do
  let (t, gap) := t.checkContinuity cc
  let (t, events) ← t.startPes pusi
  let (t, overflow) := t.appendPayload max payload
  return (t, gap ++ events ++ overflow)

end DemuxTrackState

namespace PacketDemuxer

/-- The notice of a section whose last four bytes are not its checksum, and whether the
section is to be used. -/
def checkCrc (d : PacketDemuxer) (pid : Nat) (data : Bytes) (sectionEnd : Nat) :
    Checked (List MpegTsDemuxEvent × Bool) := do
  if 4 ≤ sectionEnd ∧ sectionEnd ≤ data.length then
    let sectionData ← Checked.slice data 0 (sectionEnd - 4)
    let stored ← Checked.slice data (sectionEnd - 4) sectionEnd
    if fromBigEndian stored ≠ (crc32Mpeg2 sectionData).toNat then
      return ([.diagnostic (.crcError pid)], !d.config.strictCrc)
    else return ([], true)
  else return ([], true)

/-- The section in a payload, which begins after the pointer field of a first packet. -/
def sectionStart (payload : Bytes) (pusi : Bool) : Checked (Option Bytes) := do
  if pusi ∧ payload ≠ [] then
    let pointer := (← Checked.byteAt payload 0).toNat
    if 1 + pointer ≥ payload.length then return none
    else return some (← Checked.slice payload (1 + pointer) payload.length)
  else return some payload

/-- The twelve bits of a length field. -/
def lengthAt (data : Bytes) (i : Nat) : Checked Nat := do
  let high ← Checked.byteAt data i
  let low ← Checked.byteAt data (i + 1)
  return (high &&& 0x0F).toNat * 256 + low.toNat

/-- The thirteen bits of a PID. -/
def pidAt (data : Bytes) (i : Nat) : Checked Nat := do
  let high ← Checked.byteAt data i
  let low ← Checked.byteAt data (i + 1)
  return (high &&& 0x1F).toNat * 256 + low.toNat

def parsePat (d : PacketDemuxer) (payload : Bytes) (pusi : Bool) :
    Checked (PacketDemuxer × List MpegTsDemuxEvent) := do
  match ← sectionStart payload pusi with
  | none => return (d, [])
  | some data =>
    if data.length < 12 then return (d, [])
    else
      let sectionEnd := min (3 + (← lengthAt data 1)) data.length
      if sectionEnd < 4 then return (d, [])
      else
        let (events, usable) ← d.checkCrc PAT_PID data sectionEnd
        if usable then return ({ d with pmtPid := some (← pidAt data 10) }, events)
        else return (d, events)

/-- The length of a section, once its header has come. -/
def sectionTarget (target : Option Nat) (buf : Bytes) : Checked (Option Nat) := do
  if target = none ∧ 3 ≤ buf.length then return some (3 + (← lengthAt buf 1)) else return target

/-- The section of the program map once its last packet has come. -/
def reassemblePmtSection (d : PacketDemuxer) (payload : Bytes) (pusi : Bool) :
    Checked (PacketDemuxer × Option Bytes) := do
  match ← sectionStart payload pusi with
  | none => return (d, none)
  | some data =>
    let d :=
      if pusi ∧ payload ≠ [] then { d with pmtSectionBuf := [], pmtSectionTargetLen := none } else d
    if data = [] then return (d, none)
    else
      let buf := d.pmtSectionBuf ++ data
      let target ← sectionTarget d.pmtSectionTargetLen buf
      let d := { d with pmtSectionBuf := buf, pmtSectionTargetLen := target }
      match target with
      | none => return (d, none)
      | some targetLen =>
        if buf.length < targetLen then return (d, none)
        else
          let section_ ← Checked.slice buf 0 targetLen
          return ({ d with pmtSectionBuf := [], pmtSectionTargetLen := none }, some section_)

def clockRateFor : MediaKind → CodecId → Nat
  | .audio, .aac | .audio, .opus => 48000
  | .audio, .g711a | .audio, .g711u => 8000
  | _, _ => 90000

/-- The track for an entry of the program map; one whose stream type says nothing waits for
its first PES. -/
def addTrack (d : PacketDemuxer) (streamType : UInt8) (esPid : Nat) (esInfo : Bytes)
    (esInfoLen : Nat) : PacketDemuxer × List MpegTsDemuxEvent :=
  let resolved :=
    if streamType = 0x06 then identifyPrivateStream esInfo else codecFromStreamType streamType
  let entry := match resolved with
    | some (codec, mediaKind) => some (codec, mediaKind, false)
    | none =>
      if streamType = 0x06 ∧ esInfoLen = 0 then some (.unknown, .video, true) else none
  match entry with
  | none => (d, [.diagnostic (.unknownStreamType streamType esPid)])
  | some (codec, mediaKind, pending) =>
    let clockRate := clockRateFor mediaKind codec
    let track : DemuxTrackState :=
      { pid := esPid
        trackId := d.nextTrackId
        codec := codec
        mediaKind := mediaKind
        clockRate := clockRate
        pendingPrivateProbe := pending }
    let info := (TrackInfo.new d.nextTrackId mediaKind codec clockRate).refreshReadiness
    ({ d with tracks := d.tracks ++ [track], nextTrackId := d.nextTrackId + 1 },
      if pending then [] else [.trackFound info])

/-- The descriptors of an entry, which are read for private streams only. -/
def esInfoAt (data : Bytes) (streamType : UInt8) (start len : Nat) : Checked Bytes :=
  if streamType = 0x06 then Checked.slice data start (start + min len (data.length - start))
  else return []

/-- The entries of the program map from `pos` on. Each takes five bytes, so the length of
the section bounds the passes. -/
def parsePmtEntriesWithin (data : Bytes) (sectionEndNoCrc : Nat) :
    Nat → PacketDemuxer → Nat → Checked (PacketDemuxer × List MpegTsDemuxEvent)
  | 0, d, _ => return (d, [])
  | passes + 1, d, pos => do
    if pos + 5 ≤ sectionEndNoCrc then
      let streamType ← Checked.byteAt data pos
      let esPid ← pidAt data (pos + 1)
      let esInfoLen ← lengthAt data (pos + 3)
      if d.tracks.any (·.pid = esPid) then
        parsePmtEntriesWithin data sectionEndNoCrc passes d (pos + 5 + esInfoLen)
      else
        let esInfo ← esInfoAt data streamType (pos + 5) esInfoLen
        let (d, found) := d.addTrack streamType esPid esInfo esInfoLen
        let (d, events) ← parsePmtEntriesWithin data sectionEndNoCrc passes d (pos + 5 + esInfoLen)
        return (d, found ++ events)
    else return (d, [])

def parsePmtSection (d : PacketDemuxer) (data : Bytes) :
    Checked (PacketDemuxer × List MpegTsDemuxEvent) := do
  if data.length < 12 then return (d, [])
  else
    let sectionEnd := 3 + (← lengthAt data 1)
    if sectionEnd > data.length then return (d, [])
    else
      let (events, usable) ← d.checkCrc (d.pmtPid.getD 0) data sectionEnd
      if usable then
        let progInfoLen ← lengthAt data 10
        let (d, found) ←
          parsePmtEntriesWithin data (sectionEnd - 4) data.length d (12 + progInfoLen)
        return (d, events ++ found)
      else return (d, events)

def parsePmt (d : PacketDemuxer) (payload : Bytes) (pusi : Bool) :
    Checked (PacketDemuxer × List MpegTsDemuxEvent) := do
  match ← d.reassemblePmtSection payload pusi with
  | (d, none) => return (d, [])
  | (d, some section_) => d.parsePmtSection section_

/-- The payload of a packet goes to the tables or to the track of its PID. -/
def feedPayload (d : PacketDemuxer) (pid : Nat) (pusi : Bool) (cc : UInt8) (payload : Bytes) :
    Checked (PacketDemuxer × List MpegTsDemuxEvent) := do
  if pid = PAT_PID then d.parsePat payload pusi
  else if d.pmtPid = some pid then d.parsePmt payload pusi
  else if pid = NULL_PID then return (d, [])
  else match d.tracks.findIdx? (·.pid = pid) with
    | none => return (d, [])
    | some trackIdx => match d.tracks[trackIdx]? with
      | none => throw .outOfRange
      | some track =>
        let (track, events) ← track.feed d.config.maxReassemblyBytes pusi cc payload
        return ({ d with tracks := d.tracks.set trackIdx track }, events)

/-- Where the payload of a packet begins, which may be after its adaptation field. -/
def payloadOffset (pkt : Bytes) (afControl : UInt8) : Checked Nat := do
  if afControl = 2 ∨ afControl = 3 then return 5 + (← Checked.byteAt pkt 4).toNat else return 4

def feedPacket (d : PacketDemuxer) (pkt : Bytes) :
    Checked (PacketDemuxer × List MpegTsDemuxEvent) := do
  let pid ← pidAt pkt 1
  let pusi := (← Checked.byteAt pkt 1) &&& 0x40 ≠ 0
  let b₃ ← Checked.byteAt pkt 3
  let afControl := (b₃ >>> 4) &&& 0x03
  let cc := b₃ &&& 0x0F
  let offset ← payloadOffset pkt afControl
  if offset > TS_PACKET_SIZE then
    return (d, [.diagnostic (.adaptationFieldOverflow pid)])
  else if afControl = 0 ∨ afControl = 2 ∨ offset ≥ TS_PACKET_SIZE then return (d, [])
  else d.feedPayload pid pusi cc (← Checked.slice pkt offset pkt.length)

/-- One pass over a buffer: a packet or a resync, and what is left behind it. The rest of
the buffer stands for its offset. -/
def feedNext (d : PacketDemuxer) (rest : Bytes) :
    Checked (Option (PacketDemuxer × List MpegTsDemuxEvent × Bytes)) := do
  if rest.length < TS_PACKET_SIZE then return none
  else if (← Checked.byteAt rest 0) ≠ SYNC_BYTE then
    return (findSync rest 0).map fun next => (d, [.diagnostic .syncLoss], rest.drop next)
  else
    let (d, events) ← d.feedPacket (← Checked.slice rest 0 TS_PACKET_SIZE)
    return some (d, events, rest.drop TS_PACKET_SIZE)

/-- The packets of a buffer, and what is left of it. A packet or a resync takes some of the
buffer, so its length bounds the passes. -/
def feedPacketsWithin :
    Nat → PacketDemuxer → Bytes → Checked (PacketDemuxer × List MpegTsDemuxEvent × Bytes)
  | 0, d, rest => return (d, [], rest)
  | passes + 1, d, rest => do
    match ← d.feedNext rest with
    | none => return (d, [], rest)
    | some (d, events, rest) =>
      let (d, events', rest) ← feedPacketsWithin passes d rest
      return (d, events ++ events', rest)

/-- The frames that were not complete. -/
def flushTracks : List DemuxTrackState → Checked (List DemuxTrackState × List MpegTsDemuxEvent)
  | [] => return ([], [])
  | t :: ts => do
    let (t, events) ← t.finishPes
    let (ts, events') ← flushTracks ts
    return (t :: ts, events ++ events')

end PacketDemuxer

namespace MpegTsDemuxer
open PacketDemuxer

def new (config : MpegTsDemuxerConfig) : MpegTsDemuxer := { config := config }

def push (d : MpegTsDemuxer) (data : Bytes) : Checked (MpegTsDemuxer × List MpegTsDemuxEvent) := do
  let buf := d.remainder ++ data
  match findSync buf 0 with
  | none =>
    let keep := min buf.length (TS_PACKET_SIZE - 1)
    return ({ d with remainder := ← Checked.slice buf (buf.length - keep) buf.length }, [])
  | some pos =>
    let (d, events, rest) ← feedPacketsWithin buf.length d.toPacketDemuxer (buf.drop pos)
    return ({ d with remainder := rest }, (if pos > 0 then [.diagnostic .syncLoss] else []) ++ events)

def flush (d : MpegTsDemuxer) : Checked (MpegTsDemuxer × List MpegTsDemuxEvent) := do
  let (tracks, events) ← flushTracks d.tracks
  return ({ d with tracks := tracks }, events)

def pushAll : MpegTsDemuxer → List Bytes → Checked (MpegTsDemuxer × List MpegTsDemuxEvent)
  | d, [] => return (d, [])
  | d, data :: pieces => do
    let (d, events) ← d.push data
    let (d, events') ← pushAll d pieces
    return (d, events ++ events')

end MpegTsDemuxer
end CheetahMedia.Codec
