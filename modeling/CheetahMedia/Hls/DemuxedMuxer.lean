import CheetahMedia.Codec.Media
import CheetahMedia.Hls.TrackMuxer
import CheetahMedia.Lib.Words

namespace CheetahMedia.Hls
open Lib Lib.Text
open Codec (MediaKind CodecId)

structure DemuxedMuxerConfig where
  segmentDurationMs : Nat
  segmentCount : Nat
  forceSegmentAfterMs : Nat
  partTargetMs : Nat
  maxCompletedSegments : Nat

/-- Of a track what decides about its lane and its part target. -/
structure TrackInfo where
  mediaKind : MediaKind
  codec : CodecId
  fps : Option (Nat × Nat) := none
  sampleRate : Option Nat := none

/-- A whole number of frames, at least one. -/
def frameAligned (targetMs : Nat) (frameMs : Double) : Nat :=
  let frames := max (Double.roundHalfUp (Double.quotient (Double.ofNat targetMs) frameMs)) Double.one
  Double.toU64 (Double.roundHalfUp (Double.product frames frameMs))

/-- A rate over zero is infinite, and the frame length and the target are zero then. -/
def computeVideoPartTarget (targetMs : Nat) (track : TrackInfo) : Nat :=
  match track.fps with
  | some (num, den) =>
    if num = 0 then targetMs
    else if den = 0 then 0
    else
      let fps := Double.quotient (Double.ofNat num) (Double.ofNat den)
      frameAligned targetMs (Double.quotient (Double.ofNat 1000) fps)
  | none => targetMs

def computeAudioPartTarget (targetMs : Nat) (track : TrackInfo) : Nat :=
  let sr := track.sampleRate.getD 44100
  if 0 < sr then
    let samplesPerFrame := if track.codec = .aac then 1024 else 960
    frameAligned targetMs
      (Double.mul (Double.quotient (Double.ofNat samplesPerFrame) (Double.ofNat sr)) 1000)
  else targetMs

/-- The header is stripped only where something follows it. -/
def stripAdtsHeader (data : Bytes) : Bytes :=
  match data with
  | b0 :: b1 :: _ =>
    if 7 ≤ data.length ∧ b0 = 0xFF ∧ b1 &&& 0xF0 = 0xF0 then
      let headerLen := if b1 &&& 0x01 ≠ 0 then 7 else 9
      if headerLen < data.length then data.drop headerLen else data
    else data
  | _ => data

/-- A frame with the payload that `fmp4_sample_payload` makes of it. -/
structure FrameInput where
  mediaKind : MediaKind
  isConfig : Bool
  isNonPicture : Bool
  isKey : Bool
  dtsUs : Int
  ptsUs : Int
  data : Bytes

inductive MuxerOutput
  | partReady (part : HlsPart)
  | segmentReady (name : Text) (durationSecs : Double) (data : Bytes)

structure DemuxedStreamMuxer where
  config : DemuxedMuxerConfig
  video : Option TrackMuxer := none
  audio : Option TrackMuxer := none
  wallclockOffsetMs : Option Int := none
  waitingForKeyframe : Bool := true
  concluded : Bool := false

namespace DemuxedStreamMuxer

variable (writePart : List (List Fmp4Sample) → Bytes)

def new (config : DemuxedMuxerConfig) : DemuxedStreamMuxer := { config }

def newLane (m : DemuxedStreamMuxer) (lane : TrackLane) (mediaKind : MediaKind)
    (partTargetMs : Nat) : TrackMuxer :=
  .new lane mediaKind partTargetMs m.config.segmentCount m.config.maxCompletedSegments

/-- A lane of a kind that is found starts anew. -/
def setTracks (m : DemuxedStreamMuxer) (tracks : List TrackInfo) : DemuxedStreamMuxer :=
  let m := match tracks.find? (·.mediaKind = .video) with
    | some track =>
      let target := computeVideoPartTarget m.config.partTargetMs track
      { m with video := some (m.newLane .video .video target) }
    | none => m
  let m := match tracks.find? (·.mediaKind = .audio) with
    | some track =>
      let target := computeAudioPartTarget m.config.partTargetMs track
      { m with audio := some (m.newLane .audio .audio target) }
    | none => m
  { m with waitingForKeyframe := m.video.isSome }

/-- The offset is set at the first frame, in the lanes that there are then. -/
def noteWallclock (m : DemuxedStreamMuxer) (dtsMs : Nat) (nowMs : Int) : DemuxedStreamMuxer :=
  match m.wallclockOffsetMs with
  | some _ => m
  | none =>
    let offset := nowMs - Checked.asI64 dtsMs
    { m with
      wallclockOffsetMs := some offset
      video := m.video.map (·.setWallclockOffset offset)
      audio := m.audio.map (·.setWallclockOffset offset) }

def sampleInput (m : DemuxedStreamMuxer) (dtsMs ptsMs : Nat) (isKeyframe : Bool) (data : Bytes) :
    SampleInput :=
  ⟨dtsMs, ptsMs, isKeyframe, data, m.config.segmentDurationMs, m.config.forceSegmentAfterMs⟩

/-- What a lane puts out, with the data of its segments. -/
def muxerOutputs (t : TrackMuxer) (outputs : List TrackMuxerOutput) : List MuxerOutput :=
  outputs.filterMap fun
    | .partReady part => some (.partReady part)
    | .segmentReady name durationSecs => (t.getSegment name).map (.segmentReady name durationSecs)

/-- A frame that is not video goes to the audio lane, whatever it is. -/
def pushFrame (m : DemuxedStreamMuxer) (frame : FrameInput) (nowMs : Int) :
    List MuxerOutput × DemuxedStreamMuxer :=
  if m.concluded then ([], m)
  else if frame.isConfig || frame.isNonPicture then ([], m)
  else
    let isVideo := frame.mediaKind = .video
    if m.waitingForKeyframe ∧ ¬(isVideo ∧ frame.isKey) then ([], m)
    else
      let m := { m with waitingForKeyframe := false }
      let dtsMs := (max frame.dtsUs 0).toNat / 1000
      let ptsMs := Checked.asU64 (max frame.ptsUs frame.dtsUs) / 1000
      let m := m.noteWallclock dtsMs nowMs
      if isVideo then
        match m.video with
        | some video =>
          let (outputs, video) := video.pushSample writePart
            (m.sampleInput dtsMs ptsMs frame.isKey frame.data)
          (muxerOutputs video outputs, { m with video := some video })
        | none => ([], m)
      else
        match m.audio with
        | some audio =>
          let (outputs, audio) := audio.pushSample writePart
            (m.sampleInput dtsMs ptsMs true (stripAdtsHeader frame.data))
          (muxerOutputs audio outputs, { m with audio := some audio })
        | none => ([], m)

def conclude (m : DemuxedStreamMuxer) : DemuxedStreamMuxer :=
  { m with
    video := m.video.map fun t => (t.flush writePart).2
    audio := m.audio.map fun t => (t.flush writePart).2
    concluded := true }

def lane (m : DemuxedStreamMuxer) : TrackLane → Option TrackMuxer
  | .video => m.video
  | .audio => m.audio

/-- The last part of an open segment without a part is said to be part 0. -/
def renditionState (m : DemuxedStreamMuxer) (lane : TrackLane) : Option (Nat × Nat) :=
  (m.lane lane).map fun t =>
    let msn := t.llState.parentSegmentSeq
    let parts := t.llState.currentParts.length
    (msn, if 0 < parts then parts - 1 else 0)

inductive Input
  | setTracks (tracks : List TrackInfo)
  | pushFrame (frame : FrameInput) (nowMs : Int)
  | conclude

def step : Transition DemuxedStreamMuxer Input MuxerOutput
  | m, .setTracks tracks => some (m.setTracks tracks, [])
  | m, .pushFrame frame nowMs =>
    let (outputs, m) := m.pushFrame writePart frame nowMs
    some (m, outputs)
  | m, .conclude => some (m.conclude writePart, [])

end DemuxedStreamMuxer

end CheetahMedia.Hls
