import CheetahMedia.Codec.Ps

namespace CheetahMedia.Codec
open Lib Checked

/-- What a demuxer works with but the bytes that are no unit yet. -/
structure PsDemuxer where
  config : PsDemuxerConfig
  remainBuffer : Bytes := []
  tracks : TrackTable := ∅
  videoBuffer : Bytes := []
  lastVideoPts : Option Int := none
  videoDts : Option Int := none
  lastAudioPts : Option Int := none
  audioEsId : UInt8 := 0
  newPs : Bool := false
  probePackCount : Nat := 0
  probeExceeded : Bool := false
  tracksEverFound : Bool := false
  codecProbePes : AList fun _ : UInt8 => Nat := ∅
  unsupportedPayloadReported : List UInt8 := []
  psmVersion : Option UInt8 := none
  psmSignature : List (UInt8 × MediaKind × CodecId) := []
  psmDeclared : List UInt8 := []
  parameterSetCaches : AList fun _ : UInt8 => ParameterSetCache := ∅

def limitExceeded (resource : String) : PsDemuxEvent := .diagnostic (.limitExceeded resource)

/-- A time in ticks of 90 kHz in those of a track. -/
def toTrackClock (ticks : Int) (clockRate : Nat) : Int :=
  asI64 ((ticks * clockRate).tdiv 90000)

/-- A frame whose times are given in ticks of 90 kHz. -/
def psFrame (track : TrackInfo) (clockRate : Nat) (pts dts : Int) (payload : Bytes) : AVFrame :=
  .new track.trackId track.mediaKind track.codec (defaultFrameFormat track.codec)
    (toTrackClock pts (max clockRate 1)) (toTrackClock dts (max clockRate 1))
    (1, max track.clockRate 1) payload

namespace PsDemuxer

def new (config : PsDemuxerConfig) : PsDemuxer := { config := config }

/-- The raw frame in an ADTS payload and its sample rate. -/
def stripAacAdts (payload : Bytes) : Option (Nat × Bytes) := do
  let (header, raw) ← adtsStrip payload
  let sampleRate := aacSampleRate header.samplingFrequencyIndex
  if raw.isEmpty ∨ sampleRate = 0 then none else return (sampleRate, raw)

def codecFromEsType (esType : UInt8) : Option CodecId :=
  if esType = 0x1B then some .h264
  else if esType = 0x24 then some .h265
  else if esType ∈ ([0x0F, 0x11] : List UInt8) then some .aac
  else if esType ∈ ([0x90, 0x07] : List UInt8) then some .g711a
  else if esType ∈ ([0x91, 0x08] : List UInt8) then some .g711u
  else if esType ∈ ([0x03, 0x04] : List UInt8) then some .mp3
  else if esType = 0x80 then some .opus
  else none

/-- The track of an entry of the program stream map. -/
def declaredTrack (esId : UInt8) (codec : CodecId) : TrackInfo :=
  let mediaKind : MediaKind := if isVideoStreamId esId then .video else .audio
  .new esId.toNat mediaKind codec (if mediaKind = .video then 90000 else 8000)

/-- The tracks of the entries, and what is said of those with no codec. Each entry takes four
bytes, so the length of the map bounds the passes. -/
def parseEsMapWithin : Nat → List UInt8 → Nat → Bytes → TrackTable →
    TrackTable × List UInt8 × List PsDemuxEvent
  | passes + 1, reported, esMapLength, esType :: esId :: l₀ :: l₁ :: buf, newTracks =>
    let esInfoLength := l₀.toNat * 256 + l₁.toNat
    if esMapLength < 4 ∨ buf.length < esInfoLength then (newTracks, reported, [])
    else
      let rest := buf.drop esInfoLength
      let esMapLength := esMapLength - (4 + esInfoLength)
      match codecFromEsType esType with
      | some codec =>
        parseEsMapWithin passes reported esMapLength rest
          (newTracks.insert esId (declaredTrack esId codec))
      | none =>
        let (tracks, reported', events) :=
          parseEsMapWithin passes (reported.insert esId) esMapLength rest newTracks
        (tracks, reported',
          if esId ∈ reported then events else .diagnostic (.unsupportedPayload esId) :: events)
  | _, reported, _, _, newTracks => (newTracks, reported, [])

def signatureOf (tracks : TrackTable) : List (UInt8 × MediaKind × CodecId) :=
  tracks.entries.map fun entry => (entry.1, entry.2.mediaKind, entry.2.codec)

/-- Equality of maps, whose keys are distinct. -/
def sameSignature (a b : List (UInt8 × MediaKind × CodecId)) : Bool :=
  a.length = b.length ∧ ∀ entry ∈ a, entry ∈ b

/-- A track of the map takes the place of one of another kind or codec. -/
def declareTrack (d : PsDemuxer) (esId : UInt8) (track : TrackInfo) :
    PsDemuxer × List TrackInfo :=
  if (d.tracks.lookup esId).any fun existing =>
      existing.mediaKind = track.mediaKind ∧ existing.codec = track.codec then (d, [])
  else
    ({ d with
        parameterSetCaches := d.parameterSetCaches.erase esId
        tracks := d.tracks.insert esId track }, [track])

def declareTracks (d : PsDemuxer) :
    List (Sigma fun _ : UInt8 => TrackInfo) → PsDemuxer × List TrackInfo
  | [] => (d, [])
  | ⟨esId, track⟩ :: entries =>
    let (d, changed) := d.declareTrack esId track
    let (d, changed') := d.declareTracks entries
    (d, changed ++ changed')

def removeTracks (d : PsDemuxer) (keys : List UInt8) : PsDemuxer :=
  { d with
    tracks := keys.foldl (fun tracks esId => tracks.erase esId) d.tracks
    codecProbePes := keys.foldl (fun counts esId => counts.erase esId) d.codecProbePes
    parameterSetCaches := keys.foldl (fun caches esId => caches.erase esId) d.parameterSetCaches }

/-- The tracks of a map that is not the one before it. -/
def applyPsm (order : MapOrder) (d : PsDemuxer) (version : UInt8) (newTracks : TrackTable) :
    PsDemuxer × List PsDemuxEvent :=
  let signature := signatureOf newTracks
  if d.psmVersion = some version ∧ sameSignature d.psmSignature signature then (d, [])
  else
    let removed := d.psmDeclared.filter (· ∉ newTracks.keys)
    let addedCount := (newTracks.keys.filter (· ∉ d.tracks)).length
    if d.tracks.keys.length - removed.length + addedCount > d.config.maxTracks then
      (d, [limitExceeded "tracks"])
    else
      let d := { d with
        psmVersion := some version
        psmSignature := signature
        psmDeclared := newTracks.keys }
      let (d, changed) := d.declareTracks (order.entries newTracks)
      let d := d.removeTracks removed
      let d := if changed.isEmpty then d else { d with tracksEverFound := true }
      (d, (if removed.isEmpty then [] else [.trackRemoved (removed.map (·.toNat))]) ++
        if changed.isEmpty then [] else [.trackInfo changed])

def parsePsm (order : MapOrder) (d : PsDemuxer) (payload : Bytes) :
    PsDemuxer × List PsDemuxEvent :=
  match payload with
  | b₀ :: _ :: i₀ :: i₁ :: buf =>
    let psInfoLength := i₀.toNat * 256 + i₁.toNat
    if payload.length < 10 then (d, [.diagnostic .psmParseError])
    else if b₀ >>> 7 = 0 ∨ buf.length < psInfoLength + 2 then (d, [])
    else
      let (newTracks, reported, events) :=
        parseEsMapWithin payload.length d.unsupportedPayloadReported
          (payload.length - (psInfoLength + 10)) (buf.drop (psInfoLength + 2)) ∅
      let d := { d with unsupportedPayloadReported := reported }
      if newTracks.keys.isEmpty then (d, events)
      else
        let (d, events') := d.applyPsm order (b₀ &&& 0x1F) newTracks
        (d, events ++ events')
  | _ => (d, [.diagnostic .psmParseError])

/-- The parameter sets in a payload go to the cache of a stream. -/
def discoverParameterSets (d : PsDemuxer) (streamId : UInt8) (codec : CodecId) (payload : Bytes) :
    PsDemuxer × Option CodecExtradata :=
  if codec ≠ .h264 ∧ codec ≠ .h265 ∧ codec ≠ .h266 then (d, none)
  else
    let (cache, changed) :=
      ((d.parameterSetCaches.lookup streamId).getD {}).updateFromAnnexb codec payload
    ({ d with parameterSetCaches := d.parameterSetCaches.insert streamId cache },
      if changed then cache.extradataForCodec codec else none)

/-- A key frame begins with the parameter sets of its stream. -/
def withParameterSets (d : PsDemuxer) (streamId : UInt8) (codec : CodecId) (frame : AVFrame) :
    List PsDemuxEvent :=
  if frame.isKey ∧ (codec = .h264 ∨ codec = .h265 ∨ codec = .h266) then
    match d.parameterSetCaches.lookup streamId with
    | some cache =>
      if cache.hasRequiredSets codec then
        [.frame { frame with payload := cache.prependToAnnexbAccessUnit codec frame.payload }]
      else [.diagnostic (.missingParameterSets codec streamId), .frame frame]
    | none => [.diagnostic (.missingParameterSets codec streamId), .frame frame]
  else [.frame frame]

def emitVideoFrame (order : MapOrder) (d : PsDemuxer) : PsDemuxer × List PsDemuxEvent :=
  if d.videoBuffer.isEmpty then (d, [])
  else
    let events := match order.findKind d.tracks .video with
      | none => []
      | some ⟨streamId, track⟩ =>
        let pts := d.lastVideoPts.getD 0
        let frame := psFrame track track.clockRate pts (d.videoDts.getD pts) d.videoBuffer
        d.withParameterSets streamId track.codec { frame with
          isKey := videoPayloadIsRandomAccess track.codec (defaultFrameFormat track.codec)
            d.videoBuffer }
    ({ d with videoBuffer := [], videoDts := none }, events)

/-- A video PES behind what there is of its access unit. -/
def joinVideo (d : PsDemuxer) (pes : PesPacket) : PsDemuxer :=
  { d with
    videoBuffer := d.videoBuffer ++ pes.payload
    lastVideoPts := pes.pts.or d.lastVideoPts
    videoDts := if pes.pts.isSome then d.videoDts.or (pes.dts.or pes.pts) else d.videoDts }

/-- The bytes of a video PES join the access unit that is being put together, unless it grows
too long. -/
def appendVideo (d : PsDemuxer) (streamId : UInt8) (track : TrackInfo) (pes : PesPacket) :
    PsDemuxer × List PsDemuxEvent :=
  if d.videoBuffer.length + pes.payload.length > d.config.maxAccessUnitSize then
    ({ d with videoBuffer := [], lastVideoPts := none, videoDts := none },
      [limitExceeded "access_unit"])
  else
    let (d, extradata) := (d.joinVideo pes).discoverParameterSets streamId track.codec pes.payload
    match extradata, d.tracks.lookup streamId with
    | some extradata, some track =>
      if track.extradata = extradata then (d, [])
      else
        let track := { track with extradata := extradata, readiness := .ready }
        ({ d with tracks := d.tracks.insert streamId track }, [.trackInfo [track]])
    | _, _ => (d, [])

/-- A video PES where there is no video track: its codec has to be found first. -/
def probeVideo (d : PsDemuxer) (streamId : UInt8) (pes : PesPacket) :
    PsDemuxer × List PsDemuxEvent :=
  let probeCount := (d.codecProbePes.lookup streamId).getD 0
  if streamId ∉ d.tracks ∧ d.config.maxTracks ≤ d.tracks.keys.length then
    (d, [limitExceeded "tracks"])
  else if d.videoBuffer.length + pes.payload.length > d.config.maxAccessUnitSize then
    ({ d with videoBuffer := [], lastVideoPts := none, videoDts := none },
      [limitExceeded "access_unit"])
  else if d.config.maxCodecProbePackets ≤ probeCount then
    ({ d with
        codecProbePes := d.codecProbePes.insert streamId probeCount
        unsupportedPayloadReported := d.unsupportedPayloadReported.insert streamId },
      if streamId ∈ d.unsupportedPayloadReported then []
      else [.diagnostic (.unsupportedPayload streamId)])
  else match probeVideoCodec pes.payload with
    | none => ({ d with codecProbePes := d.codecProbePes.insert streamId (probeCount + 1) }, [])
    | some codec =>
      let d := { d with codecProbePes := d.codecProbePes.insert streamId 0 }
      let track := TrackInfo.new streamId.toNat .video codec 90000
      let (d, extradata) := d.discoverParameterSets streamId codec pes.payload
      let track := match extradata with
        | some extradata => { track with extradata := extradata, readiness := .ready }
        | none => track
      ({ d with
          tracks := d.tracks.insert streamId track
          tracksEverFound := true
          videoBuffer := d.videoBuffer ++ pes.payload
          lastVideoPts := pes.pts
          videoDts := pes.dts.or pes.pts }, [.trackInfo [track]])

def handleVideo (order : MapOrder) (d : PsDemuxer) (streamId : UInt8) (pes : PesPacket) :
    PsDemuxer × List PsDemuxEvent :=
  match order.findKind d.tracks .video with
  | some ⟨trackStreamId, track⟩ =>
    let (d, events) := if pes.dataAlignment then d.emitVideoFrame order else (d, [])
    let (d, events') := d.appendVideo trackStreamId track pes
    (d, events ++ events')
  | none => d.probeVideo streamId pes

/-- An audio PES is a frame of the track, whose clock is that of the ADTS header if it has one. -/
def audioFrame (d : PsDemuxer) (track : TrackInfo) (pes : PesPacket) :
    PsDemuxer × List PsDemuxEvent :=
  let (d, track, payload, events) :=
    match if track.codec = .aac then stripAacAdts pes.payload else none with
    | some (sampleRate, raw) =>
      if sampleRate ≠ track.clockRate then
        let track := { track with clockRate := sampleRate, sampleRate := some sampleRate }
        ({ d with tracks := d.tracks.insert (UInt8.ofNat track.trackId) track }, track, raw,
          [PsDemuxEvent.trackInfo [track]])
      else (d, track, raw, [])
    | none => (d, track, pes.payload, [])
  let pts := pes.pts.getD (d.lastAudioPts.getD 0)
  let frame := psFrame track track.clockRate pts ((pes.dts.or pes.pts).getD pts) payload
  ({ d with lastAudioPts := pes.pts }, events ++ [PsDemuxEvent.frame frame])

def probeAudio (d : PsDemuxer) (streamId : UInt8) (pes : PesPacket) :
    PsDemuxer × List PsDemuxEvent :=
  if streamId ∉ d.tracks ∧ d.config.maxTracks ≤ d.tracks.keys.length then
    (d, [limitExceeded "tracks"])
  else
    let codec := probeAudioCodec pes.payload streamId
    let (clockRate, payload) :=
      (if codec = .aac then stripAacAdts pes.payload else none).getD (8000, pes.payload)
    let track := TrackInfo.new streamId.toNat .audio codec clockRate
    let pts := pes.pts.getD 0
    let frame := psFrame track clockRate pts ((pes.dts.or pes.pts).getD pts) payload
    ({ d with
        codecProbePes := d.codecProbePes.insert streamId 0
        tracks := d.tracks.insert streamId track
        audioEsId := streamId
        tracksEverFound := true
        lastAudioPts := pes.pts }, [.trackInfo [track], .frame frame])

def handleAudio (order : MapOrder) (d : PsDemuxer) (streamId : UInt8) (pes : PesPacket) :
    PsDemuxer × List PsDemuxEvent :=
  match order.findKind d.tracks .audio with
  | some ⟨_, track⟩ => d.audioFrame track pes
  | none => d.probeAudio streamId pes

/-- The first PES behind a pack header gives out the access unit before it. -/
def beginPack (order : MapOrder) (d : PsDemuxer) : PsDemuxer × List PsDemuxEvent :=
  let newPack := d.newPs
  let d := { d with newPs := false }
  if newPack then d.emitVideoFrame order else (d, [])

def handlePes (order : MapOrder) (d : PsDemuxer) (streamId : UInt8) (pes : PesPacket) :
    PsDemuxer × List PsDemuxEvent :=
  let isAudio := isAudioStreamId streamId || streamId == d.audioEsId
  let (d, events) := d.beginPack order
  let (d, events') :=
    if isVideoStreamId streamId then d.handleVideo order streamId pes
    else if isAudio then d.handleAudio order streamId pes
    else (d, [])
  (d, events ++ events')

def parsePes (order : MapOrder) (d : PsDemuxer) (streamId : UInt8) (packet : Bytes) :
    PsDemuxer × List PsDemuxEvent :=
  match readPes packet with
  | none => (d, [.diagnostic .pesParseError])
  | some pes => if pes.payload.isEmpty then (d, []) else d.handlePes order streamId pes

end PsDemuxer

/-- A part of a program stream that the demuxer acts on. -/
inductive PsUnit
  | packHeader
  | systemHeader
  | streamMap (payload : Bytes)
  | pes (streamId : UInt8) (packet : Bytes)

/-- What one pass over the buffer comes to. -/
inductive PsCut
  | unit (unit : PsUnit) (rest : Bytes)
  | skip (rest : Bytes)
  | wait (rest : Bytes)
  | tooLong

/-- A unit whose length is known, once all of it is there. -/
def PsCut.sized (buf : Bytes) (totalLen : Nat) (unit : Bytes → PsUnit) : PsCut :=
  if buf.length < totalLen then .wait buf else .unit (unit (buf.take totalLen)) (buf.drop totalLen)

/-- The next start code of the stream layer. -/
def findPsStart : Bytes → Option Nat
  | 0x00 :: 0x00 :: 0x01 :: streamId :: rest =>
    if isPsStreamId streamId then some 0
    else (findPsStart (0x00 :: 0x01 :: streamId :: rest)).map (· + 1)
  | _ :: rest => (findPsStart rest).map (· + 1)
  | [] => none

def lengthField (buf : Bytes) : Nat := fromBigEndian ((buf.drop 4).take 2)

/-- A PES with no length of its own ends before the next start code of the stream layer, or
with the stream. -/
def cutPes (config : PsDemuxerConfig) (isLast : Bool) (streamId : UInt8) (buf : Bytes) : PsCut :=
  let maxPayload := config.maxPesPacketSize - 6
  let sized (totalLen : Nat) : PsCut :=
    if totalLen > config.maxPesPacketSize then .tooLong
    else .sized buf totalLen (.pes streamId)
  if buf.length < 6 then .wait buf
  else if lengthField buf ≠ 0 then sized (6 + lengthField buf)
  else match findPsStart ((buf.drop 6).take maxPayload) with
    | some pos => sized (6 + pos)
    | none =>
      if isLast ∧ buf.length ≤ config.maxPesPacketSize then sized buf.length
      else if buf.length - 6 > maxPayload then .tooLong
      else .wait buf

/-- The unit behind a start code. -/
def cutUnit (config : PsDemuxerConfig) (isLast : Bool) (buf : Bytes) (streamId : UInt8) : PsCut :=
  if streamId = 0xBA then
    match buf[13]? with
    | none => .wait buf
    | some b₁₃ => .sized buf (14 + (b₁₃ &&& 0x07).toNat) fun _ => .packHeader
  else if streamId = 0xBB then
    if buf.length < 6 then .wait buf else .sized buf (6 + lengthField buf) fun _ => .systemHeader
  else if streamId = 0xBC then
    if buf.length < 6 then .wait buf
    else .sized buf (6 + lengthField buf) fun bytes => .streamMap (bytes.drop 6)
  else if streamId = 0xBD ∨ isAudioStreamId streamId ∨ isVideoStreamId streamId then
    cutPes config isLast streamId buf
  else .skip (buf.drop 4)

/-- One pass over the buffer, from its next start code on. -/
def cutNext (config : PsDemuxerConfig) (isLast : Bool) (buf : Bytes) : PsCut :=
  if buf.length < 4 then .wait buf
  else match findTriplet buf with
    | none => .wait (buf.drop (buf.length - 2))
    | some pos => match (buf.drop pos)[3]? with
      | none => .wait (buf.drop pos)
      | some streamId => cutUnit config isLast (buf.drop pos) streamId

namespace PsDemuxer

def handlePackHeader (d : PsDemuxer) : PsDemuxer × List PsDemuxEvent :=
  let d := { d with newPs := true, probePackCount := min (d.probePackCount + 1) 4294967295 }
  if !d.tracksEverFound ∧ d.config.maxProbePackets < d.probePackCount ∧ !d.probeExceeded then
    ({ d with probeExceeded := true }, [limitExceeded "probe_packets"])
  else (d, [])

def handle (order : MapOrder) (d : PsDemuxer) (unit : PsUnit) : PsDemuxer × List PsDemuxEvent :=
  let found (r : PsDemuxer × List PsDemuxEvent) : PsDemuxer × List PsDemuxEvent :=
    ({ r.1 with probePackCount := 0, probeExceeded := false }, r.2)
  match unit with
  | .packHeader => d.handlePackHeader
  | .systemHeader => found (d, [])
  | .streamMap payload => found (d.parsePsm order payload)
  | .pes streamId packet => found (d.parsePes order streamId packet)

/-- Each pass takes some of the buffer, so its length bounds the passes. -/
def consumeWithin (order : MapOrder) (isLast : Bool) :
    Nat → PsDemuxer → Bytes → PsDemuxer × List PsDemuxEvent
  | 0, d, buf => ({ d with remainBuffer := buf }, [])
  | passes + 1, d, buf =>
    match cutNext d.config isLast buf with
    | .wait rest => ({ d with remainBuffer := rest }, [])
    | .tooLong => ({ d with remainBuffer := [] }, [limitExceeded "pes_packet_size"])
    | .skip rest => consumeWithin order isLast passes d rest
    | .unit unit rest =>
      let (d, events) := d.handle order unit
      let (d, events') := consumeWithin order isLast passes d rest
      (d, events ++ events')

def consumeBuffer (order : MapOrder) (d : PsDemuxer) (isLast : Bool) :
    PsDemuxer × List PsDemuxEvent :=
  consumeWithin order isLast (d.remainBuffer.length + 1) d d.remainBuffer

def push (order : MapOrder) (d : PsDemuxer) (data : Bytes) : PsDemuxer × List PsDemuxEvent :=
  if d.remainBuffer.length + data.length > d.config.maxReassemblyBytes then
    ({ d with remainBuffer := [] }, [.diagnostic .bufferOverflow])
  else { d with remainBuffer := d.remainBuffer ++ data }.consumeBuffer order false

def flush (order : MapOrder) (d : PsDemuxer) : PsDemuxer × List PsDemuxEvent :=
  let (d, events) := d.consumeBuffer order true
  let (d, events') := d.emitVideoFrame order
  (d, events ++ events')

end PsDemuxer
end CheetahMedia.Codec
