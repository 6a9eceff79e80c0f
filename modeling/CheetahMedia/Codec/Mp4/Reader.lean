import CheetahMedia.Codec.Mp4.BoxParser

namespace CheetahMedia.Codec.Mp4
open Lib Lib.Checked

/-- As many entries of `width` bytes as are declared and whole. -/
def tableEntries (width : Nat) : Nat → Bytes → List Bytes
  | 0, _ => []
  | count + 1, rest =>
    if rest.length < width then []
    else rest.take width :: tableEntries width count (rest.drop width)

def u32At (entry : Bytes) (offset : Nat) : UInt32 :=
  UInt32.ofNat (fromBigEndian ((entry.drop offset).take 4))

/-- A table with its number of entries after the version and the flags. -/
def parseTable (width : Nat) (read : Bytes → α) (payload : Bytes) : List α :=
  (tableEntries width (u32At payload 4).toNat (payload.drop 8)).map read

def parseStts (payload : Bytes) : Except Mp4Error (List (UInt32 × UInt32)) :=
  if payload.length < 8 then throw (.invalidSampleTable "stts truncated")
  else return parseTable 8 (fun entry => (u32At entry 0, u32At entry 4)) payload

/-- The offsets are unsigned in version 0, and those that are too large are clamped. -/
def parseCtts (payload : Bytes) : List (UInt32 × Int32) :=
  let offsetOf (raw : UInt32) : Int32 :=
    if payload.head? = some 1 then raw.toInt32
    else Int32.ofInt (clampCompositionOffset raw.toNat)
  if payload.length < 8 then []
  else parseTable 8 (fun entry => (u32At entry 0, offsetOf (u32At entry 4))) payload

def parseStss (payload : Bytes) : List UInt32 :=
  if payload.length < 8 then [] else parseTable 4 (u32At · 0) payload

def parseStsc (payload : Bytes) : Except Mp4Error (List StscEntry) :=
  if payload.length < 8 then throw (.invalidSampleTable "stsc truncated")
  else return parseTable 12 (fun entry => ⟨u32At entry 0, u32At entry 4, u32At entry 8⟩) payload

/-- A size for all samples or the size of each. -/
def parseStsz (payload : Bytes) : Except Mp4Error (UInt32 × List UInt32) :=
  if payload.length < 12 then throw (.invalidSampleTable "stsz truncated")
  else
    let default := u32At payload 4
    if default ≠ 0 then return (default, [])
    else return (default, parseTable 4 (u32At · 0) (payload.drop 4))

def parseStco (payload : Bytes) : Except Mp4Error (List UInt64) :=
  if payload.length < 8 then throw (.invalidSampleTable "stco truncated")
  else return parseTable 4 (fun entry => (u32At entry 0).toUInt64) payload

def parseCo64 (payload : Bytes) : Except Mp4Error (List UInt64) :=
  if payload.length < 8 then throw (.invalidSampleTable "co64 truncated")
  else return parseTable 8 (fun entry => UInt64.ofNat (fromBigEndian entry)) payload

def visitStbl (maxBoxSize : Nat) (st : SampleTable × Option StsdInfo) (child : ChildBox) :
    Except Mp4Error (SampleTable × Option StsdInfo) := do
  let (table, info) := st
  if child.fourcc = fourcc "stsd" then return (table, ← parseStsd maxBoxSize child.payload)
  else if child.fourcc = fourcc "stts" then
    return ({ table with stts := ← parseStts child.payload }, info)
  else if child.fourcc = fourcc "ctts" then
    return ({ table with ctts := parseCtts child.payload }, info)
  else if child.fourcc = fourcc "stss" then
    return ({ table with stss := some (parseStss child.payload) }, info)
  else if child.fourcc = fourcc "stsc" then
    return ({ table with stsc := ← parseStsc child.payload }, info)
  else if child.fourcc = fourcc "stsz" then
    let (stszDefault, stszSizes) ← parseStsz child.payload
    return ({ table with stszDefault, stszSizes }, info)
  else if child.fourcc = fourcc "stco" then
    return ({ table with stco := ← parseStco child.payload }, info)
  else if child.fourcc = fourcc "co64" then
    return ({ table with stco := ← parseCo64 child.payload }, info)
  else return st

def parseStbl (maxBoxSize : Nat) (payload : Bytes) :
    Except Mp4Error (SampleTable × Option StsdInfo) :=
  forBoxes (visitStbl maxBoxSize) (boxIter maxBoxSize 0 payload) ({}, none)

/-- What the boxes of a track have said so far. -/
structure TrakFields where
  trackIdBox : Option Nat := none
  timescale : Nat := 90000
  mediaKind : MediaKind := .data
  sampleTable : Option SampleTable := none
  info : StsdInfo := { codec := .unknown }
  width : Nat := 0
  height : Nat := 0

def visitTkhd (fields : TrakFields) (payload : Bytes) : TrakFields :=
  let idOffset := if payload.head? = some 1 then 20 else 12
  let wh := payload.drop (payload.length - 8)
  if payload.length < 24 then fields
  else
    { fields with
      trackIdBox :=
        if idOffset + 4 ≤ payload.length then some (u32At payload idOffset).toNat
        else fields.trackIdBox
      width := (u32At wh 0).toNat / 2 ^ 16
      height := (u32At wh 4).toNat / 2 ^ 16 }

def visitMdhd (fields : TrakFields) (payload : Bytes) : TrakFields :=
  if payload.length < 24 then fields
  else if payload.head? = some 1 then
    if 28 ≤ payload.length then { fields with timescale := (u32At payload 20).toNat } else fields
  else { fields with timescale := (u32At payload 12).toNat }

def visitHdlr (fields : TrakFields) (payload : Bytes) : TrakFields :=
  let handler := (payload.drop 8).take 4
  if payload.length < 12 then fields
  else
    { fields with
      mediaKind := if handler = fourcc "vide" then .video
        else if handler = fourcc "soun" then .audio else .data }

def visitMinf (maxBoxSize : Nat) (fields : TrakFields) (child : ChildBox) :
    Except Mp4Error TrakFields := do
  if child.fourcc = fourcc "stbl" then
    let (table, info) ← parseStbl maxBoxSize child.payload
    return { fields with sampleTable := some table, info := info.getD fields.info }
  else return fields

def visitMdia (maxBoxSize : Nat) (fields : TrakFields) (child : ChildBox) :
    Except Mp4Error TrakFields :=
  if child.fourcc = fourcc "mdhd" then return visitMdhd fields child.payload
  else if child.fourcc = fourcc "hdlr" then return visitHdlr fields child.payload
  else if child.fourcc = fourcc "minf" then
    forBoxes (visitMinf maxBoxSize) (boxIter maxBoxSize 0 child.payload) fields
  else return fields

def visitTrak (maxBoxSize : Nat) (fields : TrakFields) (child : ChildBox) :
    Except Mp4Error TrakFields :=
  if child.fourcc = fourcc "tkhd" then return visitTkhd fields child.payload
  else if child.fourcc = fourcc "mdia" then
    forBoxes (visitMdia maxBoxSize) (boxIter maxBoxSize 0 child.payload) fields
  else return fields

/-- The track and its samples, once all the boxes are read. -/
def TrakFields.finish (fields : TrakFields) (trackIdDefault : Nat) :
    Checked (Except Mp4Error (TrackInfo × SampleIndex)) := do
  let trackId := fields.trackIdBox.getD trackIdDefault
  let timescale := max fields.timescale 1
  let track :=
    { TrackInfo.new trackId fields.mediaKind fields.info.codec timescale with
      width := if 0 < fields.width then some fields.width else none
      height := if 0 < fields.height then some fields.height else none
      sampleRate := fields.info.sampleRate
      channels := fields.info.channels
      extradata := fields.info.extradata }
  match fields.sampleTable with
  | none => return .error (.missingBox "stbl")
  | some table =>
    return (← table.buildIndex timescale).map fun index =>
      (track.refreshReadiness, { index with trackId })

def parseTrak (maxBoxSize trackIdDefault : Nat) (payload : Bytes) :
    Checked (Except Mp4Error (TrackInfo × SampleIndex)) :=
  match forBoxes (visitTrak maxBoxSize) (boxIter maxBoxSize 0 payload) {} with
  | .error e => return .error e
  | .ok fields => fields.finish trackIdDefault

structure Mp4ReaderConfig where
  maxBoxBytes : Nat := 256 * 1024 * 1024
  maxTopLevelScan : Nat := 8 * 1024 * 1024

/-- A range of the file. -/
structure Mp4ReadRequest where
  offset : Nat
  length : Nat

structure Mp4ReadResult where
  offset : Nat
  data : Bytes

inductive Mp4ReadEvent
  | tracks (tracks : List TrackInfo)
  | frame (frame : AVFrame)
  | needBytes (request : Mp4ReadRequest)
  | eof
  | failed (e : Mp4Error)

inductive ReaderState
  | needHead
  | tailScan (offset remaining : Nat)
  | streaming
  | failed (e : Mp4Error)
deriving DecidableEq

structure Mp4Reader where
  config : Mp4ReaderConfig
  state : ReaderState := .needHead
  fileSize : Nat := 0
  pendingReads : List Mp4ReadResult := []
  outstanding : Option Mp4ReadRequest := none
  tracks : List TrackInfo := []
  indices : List SampleIndex := []
  cursors : List Nat := []
  seekRequestUs : Option Int := none
  tracksEmitted : Bool := false

def ticksToUs (ticks : Int) (timescale : Nat) : Int :=
  if timescale = 0 then ticks else saturateI64 ((ticks * 1000000).tdiv timescale)

def usToTicks (us : Int) (timescale : Nat) : Int :=
  if timescale = 0 then us else saturateI64 ((us * timescale).tdiv 1000000)

def frameFormatForCodec : CodecId → FrameFormat
  | .h264 | .h265 | .h266 => .canonicalH26x
  | .av1 => .canonicalAv1Obu
  | .vp8 => .canonicalVp8Frame
  | .vp9 => .canonicalVp9Frame
  | .mjpeg => .mjpegFrame
  | .aac => .aacRaw
  | .g711a | .g711u => .g711Packet
  | .opus => .opusPacket
  | .mp3 => .mp3Frame
  | .mp2 => .mp2Frame
  | _ => .unknown

def findBuffered (offset length : Nat) : List Mp4ReadResult → Checked (Option Bytes)
  | [] => return none
  | r :: rest =>
    if r.offset ≤ offset then do
      let available ← u64 (r.offset + r.data.length)
      let need ← u64 (offset + length)
      if need ≤ available then return some ((r.data.drop (offset - r.offset)).take length)
      else findBuffered offset length rest
    else findBuffered offset length rest

namespace Mp4Reader

def setFileSize (fileSize : Nat) (r : Mp4Reader) : Mp4Reader := { r with fileSize }

def MAX_PENDING_READS : Nat := 8

/-- The first range, which has the tracks, and the newest ones stay. -/
def evictOldPending (r : Mp4Reader) : Mp4Reader :=
  if r.pendingReads.length ≤ MAX_PENDING_READS then r
  else
    let drain := r.pendingReads.length - MAX_PENDING_READS
    let last := min (1 + drain) (r.pendingReads.length - 1)
    { r with pendingReads := r.pendingReads.take 1 ++ r.pendingReads.drop last }

def feedBytes (result : Mp4ReadResult) (r : Mp4Reader) : Checked Mp4Reader := do
  let r := { r with pendingReads := r.pendingReads ++ [result] }
  let outstanding ← match r.outstanding with
    | some request => do
      let found ← findBuffered request.offset request.length r.pendingReads
      pure (if found.isSome then none else some request)
    | none => pure none
  let r := { r with outstanding }
  return if r.state = .streaming then r.evictOldPending else r

def seek (positionUs : Int) (r : Mp4Reader) : Mp4Reader :=
  { r with seekRequestUs := some (max positionUs 0) }

def queueRequest (request : Mp4ReadRequest) (r : Mp4Reader) : Mp4ReadEvent × Mp4Reader :=
  let request := { request with length := min request.length (r.fileSize - request.offset) }
  if request.length = 0 then (.eof, r)
  else (.needBytes request, { r with outstanding := some request })

/-- The tracks that can be read are added up to the first that cannot. -/
def parseTracks (maxBoxSize : Nat) : Nat → List (Except Mp4Error ChildBox) → Mp4Reader →
    Checked (Option Mp4Error × Mp4Reader)
  | _, [], r => return (if r.tracks.isEmpty then some (.missingBox "trak") else none, r)
  | _, .error e :: _, r => return (some e, r)
  | nextTrackId, .ok child :: rest, r => do
    if child.fourcc = fourcc "trak" then
      match ← parseTrak maxBoxSize nextTrackId child.payload with
      | .error e => return (some e, r)
      | .ok (track, index) =>
        parseTracks maxBoxSize (nextTrackId + 1) rest
          { r with
            tracks := r.tracks ++ [track]
            indices := r.indices ++ [index]
            cursors := r.cursors ++ [0] }
    else parseTracks maxBoxSize nextTrackId rest r

/-- The reader goes on to the samples, or fails for good. -/
def parseMoov (payload : Bytes) (r : Mp4Reader) : Checked (Option Mp4ReadEvent × Mp4Reader) := do
  let maxBoxSize := r.config.maxBoxBytes
  match ← parseTracks maxBoxSize 1 (boxIter maxBoxSize 0 payload) r with
  | (some e, r) => return (some .eof, { r with state := .failed e })
  | (none, r) => return (none, { r with state := .streaming })

/-- The content of the first `moov` box. In the head of a file one is not looked for behind the
samples. -/
def findMoov (maxBoxSize : Nat) (stopAtMdat : Bool) : Nat → Nat → Bytes → Option Bytes
  | 0, _, _ => none
  | passes + 1, cursor, rest =>
    match readBoxHeader cursor maxBoxSize rest with
    | .error _ => none
    | .ok header =>
      if header.fourcc = fourcc "moov" then some ((rest.take header.size).drop header.headerSize)
      else if stopAtMdat ∧ header.fourcc = fourcc "mdat" ∧ header.headerSize < header.size then none
      else findMoov maxBoxSize stopAtMdat passes (cursor + header.size) (rest.drop header.size)

/-- An event, or none when the head shows how to go on. -/
def tryParseHead (r : Mp4Reader) : Checked (Option Mp4ReadEvent × Mp4Reader) := do
  let scanLimit := min r.config.maxTopLevelScan r.fileSize
  match ← findBuffered 0 scanLimit r.pendingReads with
  | none =>
    let (event, r) := r.queueRequest ⟨0, scanLimit⟩
    return (some event, r)
  | some slice =>
    match findMoov r.config.maxBoxBytes true slice.length 0 slice with
    | some payload => r.parseMoov payload
    | none => return (none, { r with state := .tailScan (r.fileSize - scanLimit) scanLimit })

def tryParseTail (offset remaining : Nat) (r : Mp4Reader) :
    Checked (Option Mp4ReadEvent × Mp4Reader) := do
  match ← findBuffered offset remaining r.pendingReads with
  | none =>
    let (event, r) := r.queueRequest ⟨offset, remaining⟩
    return (some event, r)
  | some slice =>
    match findMoov r.config.maxBoxBytes false slice.length 0 slice with
    | some payload => r.parseMoov payload
    | none => return (some .eof, { r with state := .failed (.missingBox "moov") })

/-- A wish to seek waits until the tracks are known. -/
def handleSeekRequest (r : Mp4Reader) : Mp4Reader :=
  match r.seekRequestUs with
  | none => r
  | some target =>
    if r.state ≠ .streaming then r
    else
      { r with
        seekRequestUs := none
        cursors := r.indices.map fun index =>
          (index.seekToDts (usToTicks target index.timescale)).getD 0 }

/-- The tracks that have a sample left, with the time of the next in microseconds. -/
def candidates (r : Mp4Reader) : List (Nat × Int) :=
  (r.indices.zip r.cursors).zipIdx.filterMap fun ((index, cursor), i) =>
    index.samples[cursor]?.map fun entry => (i, ticksToUs entry.dts index.timescale)

/-- The first of the tracks whose next sample is the earliest. -/
def best (r : Mp4Reader) : Option (Nat × Int) :=
  r.candidates.foldl (fun best candidate =>
    match best with
    | none => some candidate
    | some (_, time) => if candidate.2 < time then some candidate else best) none

def sampleFrame (track : TrackInfo) (timescale : Nat) (entry : SampleIndexEntry) (payload : Bytes) :
    AVFrame :=
  let dtsUs := ticksToUs entry.dts timescale
  let ptsUs := ticksToUs entry.pts timescale
  let timebase := (1, max timescale 1)
  let frame := AVFrame.new track.trackId track.mediaKind track.codec (frameFormatForCodec track.codec)
    (usToTicks ptsUs timescale) (usToTicks dtsUs timescale) timebase payload
  { frame with
    isKey := entry.isSync
    duration := entry.duration.toNat
    durationUs := toMicros timebase entry.duration.toNat }

def stepStreaming (r : Mp4Reader) : Checked (Mp4ReadEvent × Mp4Reader) := do
  match r.best with
  | none => return (.eof, r)
  | some (i, _) =>
    let track ← byteAt r.tracks i
    let index ← byteAt r.indices i
    let cursor ← byteAt r.cursors i
    let entry ← byteAt index.samples cursor
    match ← findBuffered entry.offset entry.size.toNat r.pendingReads with
    | none => return r.queueRequest ⟨entry.offset, entry.size.toNat⟩
    | some payload =>
      return (.frame (sampleFrame track index.timescale entry payload),
        { r with cursors := r.cursors.set i (cursor + 1) })

/-- What is left to do once the boxes are parsed. -/
def stepParsed (r : Mp4Reader) : Checked (Mp4ReadEvent × Mp4Reader) :=
  match r.state with
  | .failed e => return (.failed e, r)
  | _ =>
    if r.tracksEmitted then r.stepStreaming
    else return (.tracks r.tracks, { r with tracksEmitted := true })

def stepTail (r : Mp4Reader) : Checked (Mp4ReadEvent × Mp4Reader) :=
  match r.state with
  | .tailScan offset remaining => do
    match ← r.tryParseTail offset remaining with
    | (some event, r) => return (event, r)
    | (none, r) => r.stepParsed
  | _ => r.stepParsed

/-- The loop of the source goes from the head of a file to its tail, and then to its samples. -/
def step (r : Mp4Reader) : Checked (Mp4ReadEvent × Mp4Reader) :=
  let r := r.handleSeekRequest
  match r.state with
  | .needHead => do
    match ← r.tryParseHead with
    | (some event, r) => return (event, r)
    | (none, r) => r.stepTail
  | _ => r.stepTail

end Mp4Reader
end CheetahMedia.Codec.Mp4
