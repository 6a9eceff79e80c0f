import CheetahMedia.Codec.Mp4Writer
import CheetahMedia.Lib.Endian

namespace CheetahMedia.Codec
open Lib Lib.Checked

/-- A track of the init segment. -/
structure Fmp4DemuxTrack where
  trackId : Nat
  codec : CodecId
  mediaKind : MediaKind
  timescale : Nat
  extradata : Bytes
deriving DecidableEq

inductive Fmp4DemuxDiagnostic
  | malformedBox (boxType : Bytes) (size headerSize : Nat)
  | boxTooLarge (boxType : Bytes) (size : Nat)
  | unknownBox (boxType : Bytes)
  | mdatOverflow (trackId : Nat)
  | trackIdNotFound (trackId : Nat)
  | repeatedInit
deriving DecidableEq

structure Fmp4Frame where
  trackId : Nat
  mediaKind : MediaKind
  codec : CodecId
  ptsUs : Int
  dtsUs : Int
  keyframe : Bool
  data : Bytes
deriving DecidableEq

inductive Fmp4DemuxEvent
  | trackInfo (tracks : List Fmp4DemuxTrack)
  | frame (frame : Fmp4Frame)
  | diagnostic (diagnostic : Fmp4DemuxDiagnostic)
deriving DecidableEq

structure Fmp4Demuxer where
  maxBoxBytes : Nat := 4 * 1024 * 1024
  buffer : Bytes := []
  tracks : List Fmp4DemuxTrack := []
  initParsed : Bool := false
  pendingMoof : Option Bytes := none
  skipRemaining : Nat := 0
deriving DecidableEq

/-- The size that a box declares and the length of its header; a header that is not all there
shows neither. -/
def readBoxHeader (buf : Bytes) : Nat × Nat :=
  if buf.length < 8 then (0, 0)
  else
    let size32 := fromBigEndian (buf.take 4)
    if size32 = 1 then
      if buf.length < 16 then (0, 0) else (fromBigEndian ((buf.drop 8).take 8), 16)
    else (size32, 8)

def boxTypeOf (buf : Bytes) : Bytes := (buf.drop 4).take 4

/-- The boxes in the content of another. Only a size below 8 is refused, so a 64-bit size from
8 to 15 cuts out of range. -/
def childBoxesFrom (data : Bytes) : Nat → Nat → Checked (List (Bytes × Bytes))
  | 0, _ => pure []
  | passes + 1, offset =>
    if data.length < offset + 8 then pure []
    else
      let (boxSize, headerSize) := readBoxHeader (data.drop offset)
      if boxSize < 8 then pure []
      else do
        let last ← u64 (offset + boxSize)
        if data.length < last then pure []
        else
          let content ← slice data (offset + headerSize) last
          let rest ← childBoxesFrom data passes last
          return (boxTypeOf (data.drop offset), content) :: rest

def childBoxes (data : Bytes) : Checked (List (Bytes × Bytes)) :=
  childBoxesFrom data data.length 0

/-- A field of 32 bits, where the content is long enough. -/
def field32 (content : Bytes) (i : Nat) : Nat := fromBigEndian ((content.drop i).take 4)

/-- What is read of a track before it is known to be one. -/
structure Fmp4TrackParts where
  trackId : Nat := 0
  timescale : Nat := 90000
  handlerType : Bytes := [0, 0, 0, 0]
  codec : CodecId := .unknown
  extradata : Bytes := []

/-- A length in groups of seven bits, and how many bytes it takes. -/
def readDescriptorSize (data : Bytes) : Option (Nat × Nat) := go 0 0 data
where
  go (size i : Nat) : Bytes → Option (Nat × Nat)
    | [] => none
    | b :: rest =>
      if 4 ≤ i then none
      else
        let size := size * 128 + (b &&& 0x7F).toNat
        if b &&& 0x80 = 0 then some (size, i + 1) else go size (i + 1) rest

/-- Each descriptor takes two bytes, so the length of the data bounds the passes. -/
def findDescriptorPayloadWithin (targetTag : UInt8) : Nat → Bytes → Option Bytes
  | passes + 1, tag :: rest => do
    if rest.isEmpty then none
    else
      let (size, sizeLen) ← readDescriptorSize rest
      let payload := rest.drop sizeLen
      if payload.length < size then none
      else if tag = targetTag then some (payload.take size)
      else findDescriptorPayloadWithin targetTag passes (payload.drop size)
  | _, _ => none

/-- The object type and the decoder specific info of an `esds` box. -/
def extractEsdsInfo (esds : Bytes) : Option (UInt8 × Option Bytes) :=
  match esds.drop 4 with
  | 0x03 :: desc => do
    let (_, afterEsSize) ← readDescriptorSize desc
    match desc.drop afterEsSize with
    | _ :: _ :: _ :: 0x04 :: decCfg =>
      let (_, afterDcSize) ← readDescriptorSize decCfg
      let dcContent := decCfg.drop afterDcSize
      if dcContent.length < 13 then none
      else
        let objectType ← dcContent.head?
        return (objectType,
          findDescriptorPayloadWithin 0x05 dcContent.length (dcContent.drop 13))
    | _ => none
  | _ => none

def avcEntries : List Bytes := [fourcc "avc1", fourcc "avc2", fourcc "avc3", fourcc "avc4"]
def hevcEntries : List Bytes := [fourcc "hvc1", fourcc "hev1", fourcc "dvh1", fourcc "dvhe"]
def jpegEntries : List Bytes := [fourcc "mp4v", fourcc "jpeg", fourcc "mjpa", fourcc "mjpb"]

/-- The codec of a sample entry, how far its configuration lies behind its header, and the box
that the configuration is in. -/
def sampleEntryKind (boxType : Bytes) : CodecId × Option (Nat × Bytes) :=
  if boxType ∈ avcEntries then (.h264, some (78, fourcc "avcC"))
  else if boxType ∈ hevcEntries then (.h265, some (78, fourcc "hvcC"))
  else if boxType = fourcc "vvc1" then (.h266, some (78, fourcc "vvcC"))
  else if boxType = fourcc "vp08" then (.vp8, some (78, fourcc "vpcC"))
  else if boxType = fourcc "vp09" then (.vp9, some (78, fourcc "vpcC"))
  else if boxType = fourcc "av01" then (.av1, some (78, fourcc "av1C"))
  else if boxType ∈ jpegEntries then (.mjpeg, some (78, fourcc "esds"))
  else if boxType = fourcc "mp4a" then (.aac, some (28, fourcc "esds"))
  else if boxType = fourcc "Opus" then (.opus, some (28, fourcc "dOps"))
  else if boxType = fourcc "alaw" then (.g711a, none)
  else if boxType = fourcc "ulaw" then (.g711u, none)
  else (.unknown, none)

/-- The codec that an object type stands for, where it says more than the sample entry. -/
def refineCodec (boxType : Bytes) (objectType : UInt8) (codec : CodecId) : CodecId :=
  if objectType = 0x40 then .aac
  else if objectType = 0x69 ∧ boxType = fourcc "mp4a" then .mp3
  else if objectType = 0x6B ∧ boxType = fourcc "mp4a" then .mp2
  else if objectType = 0x6C then .mjpeg
  else codec

/-- Only boxes with sizes of 32 bits are looked through. -/
def findChildBoxWithin (target : Bytes) : Nat → Bytes → Option Bytes
  | 0, _ => none
  | passes + 1, data =>
    if data.length < 8 then none
    else
      let size := field32 data 0
      if size < 8 ∨ data.length < size then none
      else if boxTypeOf data = target then some ((data.take size).drop 8)
      else findChildBoxWithin target passes (data.drop size)

def findChildBox (data target : Bytes) : Option Bytes := findChildBoxWithin target data.length data

def parseStsdEntry (data : Bytes) (parts : Fmp4TrackParts) : Fmp4TrackParts :=
  if data.length < 8 then parts
  else
    let entrySize := field32 data 0
    let boxType := boxTypeOf data
    let (codec, config) := sampleEntryKind boxType
    let parts := { parts with codec := codec }
    let entryData := (data.take entrySize).drop 8
    match config with
    | none => parts
    | some (configOffset, configBoxName) =>
      if entrySize ≤ 8 ∨ data.length < entrySize ∨ entryData.length ≤ configOffset then parts
      else match findChildBox (entryData.drop configOffset) configBoxName with
        | none => parts
        | some cfg =>
          match if configBoxName = fourcc "esds" then extractEsdsInfo cfg else none with
          | none => { parts with extradata := cfg }
          | some (objectType, decoderSpecific) =>
            let codec := refineCodec boxType objectType codec
            { parts with
              codec := codec
              extradata := if codec = .aac then decoderSpecific.getD [] else cfg }

def parseStbl (content : Bytes) (parts : Fmp4TrackParts) : Checked Fmp4TrackParts := do
  return (← childBoxes content).foldl (fun parts child =>
    if child.1 = fourcc "stsd" ∧ 8 ≤ child.2.length then parseStsdEntry (child.2.drop 8) parts
    else parts) parts

def parseMinf (content : Bytes) (parts : Fmp4TrackParts) : Checked Fmp4TrackParts := do
  (← childBoxes content).foldlM (fun parts child =>
    if child.1 = fourcc "stbl" then parseStbl child.2 parts else pure parts) parts

def parseMdia (content : Bytes) (parts : Fmp4TrackParts) : Checked Fmp4TrackParts := do
  (← childBoxes content).foldlM (fun parts child =>
    if child.1 = fourcc "mdhd" ∧ 16 ≤ child.2.length then
      pure { parts with timescale := field32 child.2 12 }
    else if child.1 = fourcc "hdlr" ∧ 12 ≤ child.2.length then
      pure { parts with handlerType := (child.2.drop 8).take 4 }
    else if child.1 = fourcc "minf" then parseMinf child.2 parts
    else pure parts) parts

def parseFmp4Trak (content : Bytes) : Checked (Option Fmp4DemuxTrack) := do
  let parts ← (← childBoxes content).foldlM (fun parts child =>
    if child.1 = fourcc "tkhd" ∧ 16 ≤ child.2.length then
      pure { parts with trackId := field32 child.2 12 }
    else if child.1 = fourcc "mdia" then parseMdia child.2 parts
    else pure parts) ({} : Fmp4TrackParts)
  let track (mediaKind : MediaKind) : Fmp4DemuxTrack :=
    { trackId := parts.trackId, codec := parts.codec, mediaKind := mediaKind
      timescale := parts.timescale, extradata := parts.extradata }
  if parts.handlerType = fourcc "vide" then return some (track .video)
  else if parts.handlerType = fourcc "soun" then return some (track .audio)
  else return none

structure TrunSample where
  duration : Nat
  size : Nat
  flags : Nat
  ctsOffset : Int

/-- A signed field of 32 bits. -/
def asI32 (n : Nat) : Int := Int.bmod n (2 ^ 32)

/-- The next field of 32 bits where the flags of a run say that there is one, else what the
source takes in its place. -/
def trunField (present : Bool) (absent : Nat) (data : Bytes) : Option (Nat × Bytes) :=
  if present then
    if data.length < 4 then none else some (fromBigEndian (data.take 4), data.drop 4)
  else some (absent, data)

def flagSet (flags bit : Nat) : Bool := flags &&& bit ≠ 0

/-- A sample that is not all there ends the run. -/
def trunSample (flags : Nat) (absentFlags : Nat) (data : Bytes) : Option (TrunSample × Bytes) := do
  let (duration, data) ← trunField (flagSet flags 0x000100) 0 data
  let (size, data) ← trunField (flagSet flags 0x000200) 0 data
  let (sampleFlags, data) ← trunField (flagSet flags 0x000400) absentFlags data
  let (cts, data) ← trunField (flagSet flags 0x000800) 0 data
  return (⟨duration, size, sampleFlags, asI32 cts⟩, data)

def trunSamples (flags : Nat) : Nat → Nat → Bytes → List TrunSample
  | 0, _, _ => []
  | count + 1, absentFlags, data =>
    match trunSample flags absentFlags data with
    | none => []
    | some (sample, data) => sample :: trunSamples flags count 0 data

/-- The data offset of a run and its samples. -/
def parseTrun (data : Bytes) : Int × List TrunSample :=
  if data.length < 8 then (0, [])
  else
    let flags := fromBigEndian ((data.drop 1).take 3)
    let sampleCount := field32 data 4
    match trunField (flagSet flags 0x000001) 0 (data.drop 8) with
    | none => (0, [])
    | some (dataOffset, data) =>
      match trunField (flagSet flags 0x000004) 0 data with
      | none => (asI32 dataOffset, [])
      | some (firstSampleFlags, data) =>
        (asI32 dataOffset, trunSamples flags sampleCount firstSampleFlags data)

def isKeyframeFlags (flags : Nat) : Bool :=
  let dependsOn := (flags >>> 24) &&& 0x03
  let isNonSync := (flags >>> 16) &&& 0x01
  dependsOn = 2 || (dependsOn = 0 && isNonSync = 0)

/-- Ticks of a track in microseconds; the product of the whole seconds may overflow. -/
def timescaleToUs (ticks : Nat) (timescale : Nat) : Checked Int :=
  if timescale = 0 then pure 0
  else do
    let t := asI64 ticks
    let seconds ← i64 (t.tdiv timescale * 1000000)
    i64 (seconds + (t.tmod timescale * 1000000).tdiv timescale)

/-- What is read of a track fragment. -/
structure Traf where
  trackId : Nat := 0
  baseDecodeTime : Nat := 0
  dataOffset : Int := 0
  samples : List TrunSample := []

/-- One box of a track fragment. A run takes the place of the one before it. -/
def Traf.read (traf : Traf) (child : Bytes × Bytes) : Traf :=
  let (boxType, inner) := child
  if inner.length < 8 then traf
  else if boxType = fourcc "tfhd" then { traf with trackId := field32 inner 4 }
  else if boxType = fourcc "tfdt" then
    if inner.head? = some 1 ∧ 12 ≤ inner.length then
      { traf with baseDecodeTime := fromBigEndian ((inner.drop 4).take 8) }
    else { traf with baseDecodeTime := field32 inner 4 }
  else if boxType = fourcc "trun" then
    let (dataOffset, samples) := parseTrun inner
    { traf with dataOffset := dataOffset, samples := samples }
  else traf

/-- Where the first sample lies in the content of the `mdat` box: both box headers are taken to
be of eight bytes. -/
def Traf.mdatBase (traf : Traf) (moofBoxSize : Nat) : Nat :=
  if 0 < traf.dataOffset then traf.dataOffset.toNat - (moofBoxSize + 8) else 0

/-- The frames of the samples, up to the first that is not all there. -/
def framesOfSamples (track : Fmp4DemuxTrack) (mdat : Bytes) :
    Nat → Nat → List TrunSample → Checked (List Fmp4DemuxEvent)
  | _, _, [] => pure []
  | mdatOffset, currentDts, sample :: samples =>
    if mdat.length < mdatOffset + sample.size then
      pure [.diagnostic (.mdatOverflow track.trackId)]
    else do
      let dtsUs ← timescaleToUs currentDts track.timescale
      let ptsTicks ← i64 (asI64 currentDts + sample.ctsOffset)
      let ptsUs ← timescaleToUs (asU64 ptsTicks) track.timescale
      let frame : Fmp4Frame :=
        { trackId := track.trackId, mediaKind := track.mediaKind, codec := track.codec
          ptsUs := ptsUs, dtsUs := dtsUs, keyframe := isKeyframeFlags sample.flags
          data := (mdat.drop mdatOffset).take sample.size }
      let nextDts ← u64 (currentDts + sample.duration)
      let rest ← framesOfSamples track mdat (mdatOffset + sample.size) nextDts samples
      return .frame frame :: rest

/-- `Fmp4Demuxer::parse_traf` -/
def parseTraf (tracks : List Fmp4DemuxTrack) (mdat : Bytes) (moofBoxSize : Nat) (data : Bytes) :
    Checked (List Fmp4DemuxEvent) := do
  let traf := (← childBoxes data).foldl Traf.read {}
  match tracks.find? (·.trackId = traf.trackId) with
  | none => return [.diagnostic (.trackIdNotFound traf.trackId)]
  | some track => framesOfSamples track mdat (traf.mdatBase moofBoxSize) traf.baseDecodeTime traf.samples

/-- The track fragments of a movie fragment, one behind the other. -/
def extractFrames (tracks : List Fmp4DemuxTrack) (moof mdat : Bytes) :
    Checked (List Fmp4DemuxEvent) := do
  (← childBoxes moof).foldlM (fun events child =>
    if child.1 = fourcc "traf" then do
      return events ++ (← parseTraf tracks mdat (moof.length + 8) child.2)
    else pure events) []

namespace Fmp4Demuxer

def parseMoov (d : Fmp4Demuxer) (content : Bytes) : Checked Fmp4Demuxer := do
  (← childBoxes content).foldlM (fun d child =>
    if child.1 = fourcc "trak" then do
      return { d with tracks := d.tracks ++ (← parseFmp4Trak child.2).toList }
    else pure d) d

def processTopLevelBox (d : Fmp4Demuxer) (boxType content : Bytes) :
    Checked (Fmp4Demuxer × List Fmp4DemuxEvent) :=
  if boxType ∈ [fourcc "ftyp", fourcc "styp", fourcc "sidx", fourcc "free", fourcc "skip"] then
    pure (d, [])
  else if boxType = fourcc "moov" then do
    let repeated := d.initParsed
    let d ← (if repeated then { d with tracks := [] } else d).parseMoov content
    let d := { d with initParsed := true }
    return (d, (if repeated then [.diagnostic .repeatedInit] else []) ++ [.trackInfo d.tracks])
  else if boxType = fourcc "moof" then pure ({ d with pendingMoof := some content }, [])
  else if boxType = fourcc "mdat" then
    match d.pendingMoof with
    | none => pure (d, [])
    | some moof => do
      let events ← extractFrames d.tracks moof content
      return ({ d with pendingMoof := none }, events)
  else pure (d, [.diagnostic (.unknownBox boxType)])

/-- The loop over the buffer. Each pass takes a header at least, so the length of the buffer
bounds the passes. -/
def takeBoxes : Nat → Fmp4Demuxer → Checked (Fmp4Demuxer × List Fmp4DemuxEvent)
  | 0, d => pure (d, [])
  | passes + 1, d =>
    if d.buffer.length < 8 then pure (d, [])
    else
      let (boxSize, headerSize) := readBoxHeader d.buffer
      let boxType := boxTypeOf d.buffer
      if boxSize = 0 ∨ d.buffer.length < headerSize then pure (d, [])
      else if boxSize < headerSize then do
        let (d, events) ← takeBoxes passes { d with buffer := d.buffer.drop headerSize }
        return (d, .diagnostic (.malformedBox boxType boxSize headerSize) :: events)
      else if d.maxBoxBytes < boxSize then do
        let (d, events) ← takeBoxes passes
          (if boxSize ≤ d.buffer.length then { d with buffer := d.buffer.drop boxSize }
          else { d with buffer := [], skipRemaining := boxSize - d.buffer.length })
        return (d, .diagnostic (.boxTooLarge boxType boxSize) :: events)
      else if d.buffer.length < boxSize then pure (d, [])
      else do
        let content := (d.buffer.take boxSize).drop headerSize
        let (d, events) ←
          { d with buffer := d.buffer.drop boxSize }.processTopLevelBox boxType content
        let (d, events') ← takeBoxes passes d
        return (d, events ++ events')

/-- What is left of an oversized box is skipped first. -/
def push (d : Fmp4Demuxer) (data : Bytes) : Checked (Fmp4Demuxer × List Fmp4DemuxEvent) :=
  let buffer := d.buffer ++ data
  let skip := min d.skipRemaining buffer.length
  let d := { d with buffer := buffer.drop skip, skipRemaining := d.skipRemaining - skip }
  if 0 < d.skipRemaining then pure (d, []) else takeBoxes (d.buffer.length + 1) d

def flush (d : Fmp4Demuxer) : Fmp4Demuxer := { d with buffer := [] }

end Fmp4Demuxer
end CheetahMedia.Codec
