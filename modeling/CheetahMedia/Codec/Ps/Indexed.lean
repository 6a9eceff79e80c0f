import CheetahMedia.Codec.Ps.Demuxer
import CheetahMedia.Lib.Checked

namespace CheetahMedia.Codec.Indexed
open Lib Checked
open PsDemuxer (codecFromEsType declaredTrack stripAacAdts)

def u16At (data : Bytes) (i : Nat) : Checked Nat := do
  let hi ← byteAt data i
  let lo ← byteAt data (i + 1)
  return hi.toNat * 256 + lo.toNat

/-- `data.len() - n` -/
def lengthFrom (data : Bytes) (n : Nat) : Checked Nat :=
  if n ≤ data.length then .ok (data.length - n) else .error .overflow

/-- One pass of `probe_video_codec`. -/
def probeVideoPass (payload : Bytes) (offset : Nat) : Checked (Pass Nat (Option CodecId)) :=
  if payload.length < offset + 6 then return .done none
  else do
    match findTriplet (← slice payload offset payload.length) with
    | none => return .done none
    | some pos =>
      let start := offset + pos
      let headerOffset := if payload[start + 3]? = some 0x00 then start + 4 else start + 3
      if payload.length ≤ headerOffset + 1 then return .done none
      else
        let b₀ ← byteAt payload headerOffset
        let b₁ ← byteAt payload (headerOffset + 1)
        match codecOfNalHeader b₀ b₁ with
        | some codec => return .done (some codec)
        | none => return .again (headerOffset + 1)

def probeVideoCodec (payload : Bytes) : Checked (Option CodecId) :=
  loop (probeVideoPass payload) (payload.length + 1) 0

def probeAudioCodec (payload : Bytes) (streamId : UInt8) : Checked CodecId :=
  if payload.length < 2 then return probeAudioCodec.ofRange streamId
  else do
    let b₀ ← byteAt payload 0
    let b₁ ← byteAt payload 1
    return if b₀ = 0xFF ∧ b₁ &&& 0xF0 = 0xF0 then .aac else probeAudioCodec.ofRange streamId

/-- What is kept of the entries of a stream map while they are read. -/
structure EsMap where
  buf : Bytes
  esMapLength : Nat
  newTracks : TrackTable
  reported : List UInt8
  events : List PsDemuxEvent

def esMapPass (s : EsMap) :
    Checked (Pass EsMap (TrackTable × List UInt8 × List PsDemuxEvent)) :=
  if s.esMapLength < 4 ∨ s.buf.length < 4 then return .done (s.newTracks, s.reported, s.events)
  else do
    let esType ← byteAt s.buf 0
    let esId ← byteAt s.buf 1
    let esInfoLength ← u16At s.buf 2
    if s.buf.length < 4 + esInfoLength then return .done (s.newTracks, s.reported, s.events)
    else
      let buf ← slice s.buf (4 + esInfoLength) s.buf.length
      let s := { s with buf, esMapLength := s.esMapLength - (4 + esInfoLength) }
      match codecFromEsType esType with
      | some codec =>
        return .again { s with newTracks := s.newTracks.insert esId (declaredTrack esId codec) }
      | none =>
        return .again { s with
          reported := s.reported.insert esId
          events := s.events ++
            if esId ∈ s.reported then [] else [.diagnostic (.unsupportedPayload esId)] }

def parsePsm (order : MapOrder) (d : PsDemuxer) (payload : Bytes) :
    Checked (PsDemuxer × List PsDemuxEvent) :=
  if payload.length < 10 then return (d, [.diagnostic .psmParseError])
  else do
    let b₀ ← byteAt payload 0
    if b₀ >>> 7 = 0 then return (d, [])
    else
      let buf ← slice payload 2 payload.length
      if buf.length < 2 then return (d, [])
      else
        let psInfoLength ← u16At buf 0
        let buf ← slice buf 2 buf.length
        if buf.length < psInfoLength + 2 then return (d, [])
        else
          let buf ← slice buf (psInfoLength + 2) buf.length
          let (newTracks, reported, events) ← loop esMapPass (payload.length + 1)
            { buf, esMapLength := payload.length - (psInfoLength + 10), newTracks := ∅,
              reported := d.unsupportedPayloadReported, events := [] }
          let d := { d with unsupportedPayloadReported := reported }
          if newTracks.keys.isEmpty then return (d, events)
          else
            let (d, events') := d.applyPsm order (b₀ &&& 0x1F) newTracks
            return (d, events ++ events')

def probeVideo (d : PsDemuxer) (streamId : UInt8) (pes : PesPacket) :
    Checked (PsDemuxer × List PsDemuxEvent) :=
  let probeCount := (d.codecProbePes.lookup streamId).getD 0
  if streamId ∉ d.tracks ∧ d.config.maxTracks ≤ d.tracks.keys.length then
    return (d, [limitExceeded "tracks"])
  else if d.videoBuffer.length + pes.payload.length > d.config.maxAccessUnitSize then
    return ({ d with videoBuffer := [], lastVideoPts := none, videoDts := none },
      [limitExceeded "access_unit"])
  else if d.config.maxCodecProbePackets ≤ probeCount then
    return ({ d with
        codecProbePes := d.codecProbePes.insert streamId probeCount
        unsupportedPayloadReported := d.unsupportedPayloadReported.insert streamId },
      if streamId ∈ d.unsupportedPayloadReported then []
      else [.diagnostic (.unsupportedPayload streamId)])
  else do
    match ← probeVideoCodec pes.payload with
    | none =>
      return ({ d with codecProbePes := d.codecProbePes.insert streamId (probeCount + 1) }, [])
    | some codec =>
      let d := { d with codecProbePes := d.codecProbePes.insert streamId 0 }
      let track := TrackInfo.new streamId.toNat .video codec 90000
      let (d, extradata) := d.discoverParameterSets streamId codec pes.payload
      let track := match extradata with
        | some extradata => { track with extradata := extradata, readiness := .ready }
        | none => track
      return ({ d with
          tracks := d.tracks.insert streamId track
          tracksEverFound := true
          videoBuffer := d.videoBuffer ++ pes.payload
          lastVideoPts := pes.pts
          videoDts := pes.dts.or pes.pts }, [.trackInfo [track]])

def handleVideo (order : MapOrder) (d : PsDemuxer) (streamId : UInt8) (pes : PesPacket) :
    Checked (PsDemuxer × List PsDemuxEvent) :=
  match order.findKind d.tracks .video with
  | some ⟨trackStreamId, track⟩ =>
    let (d, events) := if pes.dataAlignment then d.emitVideoFrame order else (d, [])
    let (d, events') := d.appendVideo trackStreamId track pes
    return (d, events ++ events')
  | none => probeVideo d streamId pes

def probeAudio (d : PsDemuxer) (streamId : UInt8) (pes : PesPacket) :
    Checked (PsDemuxer × List PsDemuxEvent) :=
  if streamId ∉ d.tracks ∧ d.config.maxTracks ≤ d.tracks.keys.length then
    return (d, [limitExceeded "tracks"])
  else do
    let codec ← probeAudioCodec pes.payload streamId
    let (clockRate, payload) :=
      (if codec = .aac then stripAacAdts pes.payload else none).getD (8000, pes.payload)
    let track := TrackInfo.new streamId.toNat .audio codec clockRate
    let pts := pes.pts.getD 0
    let frame := psFrame track clockRate pts ((pes.dts.or pes.pts).getD pts) payload
    return ({ d with
        codecProbePes := d.codecProbePes.insert streamId 0
        tracks := d.tracks.insert streamId track
        audioEsId := streamId
        tracksEverFound := true
        lastAudioPts := pes.pts }, [.trackInfo [track], .frame frame])

def handleAudio (order : MapOrder) (d : PsDemuxer) (streamId : UInt8) (pes : PesPacket) :
    Checked (PsDemuxer × List PsDemuxEvent) :=
  match order.findKind d.tracks .audio with
  | some ⟨_, track⟩ => return d.audioFrame track pes
  | none => probeAudio d streamId pes

def handlePes (order : MapOrder) (d : PsDemuxer) (streamId : UInt8) (pes : PesPacket) :
    Checked (PsDemuxer × List PsDemuxEvent) := do
  let isAudio := isAudioStreamId streamId || streamId == d.audioEsId
  let (d, events) := d.beginPack order
  let (d, events') ←
    if isVideoStreamId streamId then handleVideo order d streamId pes
    else if isAudio then handleAudio order d streamId pes
    else pure (d, [])
  return (d, events ++ events')

/-- A time in the header, if its five bytes are there. -/
def stampAt (packet : Bytes) (given : Bool) (cursor dataStart : Nat) : Checked (Option Int) :=
  if given ∧ cursor + 5 ≤ dataStart then do
    return parsePtsDts (← slice packet cursor (cursor + 5))
  else return none

def parsePes (order : MapOrder) (d : PsDemuxer) (streamId : UInt8) (packet : Bytes) :
    Checked (PsDemuxer × List PsDemuxEvent) :=
  if packet.length < 9 then return (d, [.diagnostic .pesParseError])
  else do
    let length ← u16At packet 4
    let flags1 ← byteAt packet 6
    let info1 ← byteAt packet 7
    let headerDataLen ← byteAt packet 8
    let dataStart := 9 + headerDataLen.toNat
    if packet.length < dataStart then return (d, [.diagnostic .pesParseError])
    else
      let available ← lengthFrom packet dataStart
      let payloadLen := if length = 0 then available else min (6 + length - dataStart) available
      if payloadLen = 0 then return (d, [])
      else
        let flags := (info1 &&& 0xC0) >>> 6
        let hasPts := flags &&& 2 ≠ 0
        let pts ← stampAt packet hasPts 9 dataStart
        let cursor := if hasPts ∧ 14 ≤ dataStart then 14 else 9
        let dts ← stampAt packet (flags &&& 1 ≠ 0) cursor dataStart
        let payload ← slice packet dataStart (dataStart + payloadLen)
        handlePes order d streamId { dataAlignment := flags1 &&& 0x04 ≠ 0, pts, dts, payload }

def handle (order : MapOrder) (d : PsDemuxer) (unit : PsUnit) :
    Checked (PsDemuxer × List PsDemuxEvent) := do
  let found (r : PsDemuxer × List PsDemuxEvent) : PsDemuxer × List PsDemuxEvent :=
    ({ r.1 with probePackCount := 0, probeExceeded := false }, r.2)
  match unit with
  | .packHeader => return d.handlePackHeader
  | .systemHeader => return found (d, [])
  | .streamMap payload => return found (← parsePsm order d payload)
  | .pes streamId packet => return found (← parsePes order d streamId packet)

/-- What a pass of `consume_buffer` comes to, with the cursor behind it. -/
inductive Cut
  | unit (unit : PsUnit) (cursor : Nat)
  | skip (cursor : Nat)
  | wait (cursor : Nat)
  | tooLong

def sized (buf : Bytes) (cursor totalLen : Nat) (unit : Checked PsUnit) : Checked Cut :=
  if buf.length < cursor + totalLen then return .wait cursor
  else do return .unit (← unit) (cursor + totalLen)

/-- One pass of the search for the start code that ends a PES without a length. -/
def scanPass (scan : Bytes) (probe : Nat) : Checked (Pass Nat (Option Nat)) :=
  if scan.length < probe + 4 then return .done none
  else do
    let b₀ ← byteAt scan probe
    let b₁ ← byteAt scan (probe + 1)
    let b₂ ← byteAt scan (probe + 2)
    let b₃ ← byteAt scan (probe + 3)
    if b₀ = 0x00 ∧ b₁ = 0x00 ∧ b₂ = 0x01 ∧ isPsStreamId b₃ then return .done (some probe)
    else return .again (probe + 1)

/-- Of the sums only that with a configured size is not one of positions in the buffer. -/
def cutPes (config : PsDemuxerConfig) (isLast : Bool) (streamId : UInt8) (buf : Bytes)
    (cursor : Nat) : Checked Cut :=
  let sizedPes (totalLen : Nat) : Checked Cut :=
    if totalLen > config.maxPesPacketSize then return .tooLong
    else sized buf cursor totalLen do
      return .pes streamId (← slice buf cursor (cursor + totalLen))
  if buf.length < cursor + 6 then return .wait cursor
  else do
    let pesLen ← u16At buf (cursor + 4)
    if pesLen ≠ 0 then sizedPes (6 + pesLen)
    else
      let maxPayload := config.maxPesPacketSize - 6
      let searchEnd := min (← u64 (cursor + 6 + maxPayload)) buf.length
      let scan ← slice buf (cursor + 6) searchEnd
      match ← loop (scanPass scan) (scan.length + 1) 0 with
      | some pos => sizedPes (6 + pos)
      | none =>
        let left ← lengthFrom buf cursor
        let payload ← lengthFrom buf (cursor + 6)
        if isLast ∧ left ≤ config.maxPesPacketSize then sizedPes left
        else if payload > maxPayload then return .tooLong
        else return .wait cursor

def cutUnit (config : PsDemuxerConfig) (isLast : Bool) (buf : Bytes) (cursor : Nat)
    (streamId : UInt8) : Checked Cut :=
  if streamId = 0xBA then
    if buf.length < cursor + 14 then return .wait cursor
    else do
      let b₁₃ ← byteAt buf (cursor + 13)
      sized buf cursor (14 + (b₁₃ &&& 0x07).toNat) (return .packHeader)
  else if streamId = 0xBB then
    if buf.length < cursor + 6 then return .wait cursor
    else do
      let headerLen ← u16At buf (cursor + 4)
      sized buf cursor (6 + headerLen) (return .systemHeader)
  else if streamId = 0xBC then
    if buf.length < cursor + 6 then return .wait cursor
    else do
      let psmLen ← u16At buf (cursor + 4)
      sized buf cursor (6 + psmLen) do
        return .streamMap (← slice buf (cursor + 6) (cursor + (6 + psmLen)))
  else if streamId = 0xBD ∨ isAudioStreamId streamId ∨ isVideoStreamId streamId then
    cutPes config isLast streamId buf cursor
  else return .skip (cursor + 4)

/-- Where the next start code is, from the cursor on. -/
def seek (buf : Bytes) (cursor : Nat) : Checked (Option Nat) := do
  if (← slice buf cursor (cursor + 3)) = [0x00, 0x00, 0x01] then return some cursor
  else return (findTriplet (← slice buf cursor buf.length)).map (cursor + ·)

def cutNext (config : PsDemuxerConfig) (isLast : Bool) (buf : Bytes) (cursor : Nat) :
    Checked Cut :=
  if buf.length < cursor + 4 then return .wait cursor
  else do
    match ← seek buf cursor with
    | none => return .wait (buf.length - 2)
    | some cursor =>
      if buf.length < cursor + 4 then return .wait cursor
      else cutUnit config isLast buf cursor (← byteAt buf (cursor + 3))

structure Cursor where
  demuxer : PsDemuxer
  cursor : Nat
  events : List PsDemuxEvent

def consumePass (order : MapOrder) (isLast : Bool) (s : Cursor) :
    Checked (Pass Cursor (PsDemuxer × List PsDemuxEvent)) := do
  let d := s.demuxer
  match ← cutNext d.config isLast d.remainBuffer s.cursor with
  | .wait cursor =>
    let rest ← slice d.remainBuffer cursor d.remainBuffer.length
    return .done ({ d with remainBuffer := rest }, s.events)
  | .tooLong =>
    return .done ({ d with remainBuffer := [] }, s.events ++ [limitExceeded "pes_packet_size"])
  | .skip cursor => return .again { s with cursor }
  | .unit unit cursor =>
    let (d, events) ← handle order d unit
    return .again ⟨d, cursor, s.events ++ events⟩

def consumeBuffer (order : MapOrder) (d : PsDemuxer) (isLast : Bool) :
    Checked (PsDemuxer × List PsDemuxEvent) :=
  loop (consumePass order isLast) (d.remainBuffer.length + 1) ⟨d, 0, []⟩

def push (order : MapOrder) (d : PsDemuxer) (data : Bytes) :
    Checked (PsDemuxer × List PsDemuxEvent) :=
  if d.remainBuffer.length + data.length > d.config.maxReassemblyBytes then
    return ({ d with remainBuffer := [] }, [.diagnostic .bufferOverflow])
  else consumeBuffer order { d with remainBuffer := d.remainBuffer ++ data } false

def flush (order : MapOrder) (d : PsDemuxer) : Checked (PsDemuxer × List PsDemuxEvent) := do
  let (d, events) ← consumeBuffer order d true
  let (d, events') := d.emitVideoFrame order
  return (d, events ++ events')

end CheetahMedia.Codec.Indexed
