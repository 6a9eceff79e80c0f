import CheetahMedia.Codec.Extradata
import CheetahMedia.Lib.Checked

namespace CheetahMedia.Codec
open Lib Lib.Checked

structure TrackSampleRecord where
  dataOffset : Nat
  size : Nat
  dtsUs : Int
  ptsUs : Int
  durationUs : Int
  isSync : Bool

structure TrackBuilder where
  trackId : Nat
  mediaKind : MediaKind
  codec : CodecId
  timescale : Nat
  width : Nat
  height : Nat
  sampleRate : Nat
  channels : Nat
  extradata : Bytes
  samples : List TrackSampleRecord := []

namespace TrackBuilder

def new (track : TrackInfo) : TrackBuilder where
  trackId := track.trackId
  mediaKind := track.mediaKind
  codec := track.codec
  timescale := max track.clockRate 1
  width := track.width.getD 0 % 2 ^ 16
  height := track.height.getD 0 % 2 ^ 16
  sampleRate := track.sampleRate.getD (max track.clockRate 1)
  channels := track.channels.getD (if track.mediaKind = .audio then 1 else 0)
  extradata := extractExtradata track

/-- From the first to the last sample, with the duration of the last. -/
def durationUs (tb : TrackBuilder) : Int :=
  match tb.samples.head?, tb.samples.getLast? with
  | some first, some last =>
    saturateI64 (saturateI64 (last.dtsUs - first.dtsUs) + max last.durationUs 0)
  | _, _ => 0

/-- The duration of the last sample, when it is not known, is set to `duration`. -/
def patchLast (duration : TrackSampleRecord → Int) (tb : TrackBuilder) : TrackBuilder :=
  match tb.samples.getLast? with
  | some last =>
    if last.durationUs = 0 then
      { tb with samples := tb.samples.dropLast ++ [{ last with durationUs := duration last }] }
    else tb
  | none => tb

def push (dataOffset : Nat) (dtsUs ptsUs : Int) (isSync : Bool) (data : Bytes)
    (tb : TrackBuilder) : TrackBuilder :=
  let tb := tb.patchLast fun last => max (asI64 (dtsUs - last.dtsUs)) 0
  let sample :=
    { dataOffset, size := data.length, dtsUs, ptsUs, durationUs := 0, isSync }
  { tb with samples := tb.samples ++ [sample] }

/-- A guess from the distance of the last two samples. -/
def close (tb : TrackBuilder) : TrackBuilder :=
  let shortest : Int := if tb.mediaKind = .audio then 23000 else 33000
  tb.patchLast fun last =>
    match tb.samples.dropLast.getLast? with
    | some previous => max (saturateI64 (last.dtsUs - previous.dtsUs)) shortest
    | none => shortest

end TrackBuilder

inductive Mp4Error
  | invalidBox (offset : Nat) (detail : String)
  | boxTruncated (fourcc : Bytes) (need available : Nat)
  | unsupportedTrack (reason : String)
  | missingBox (name : String)
  | oversizeBox (fourcc : Bytes) (size limit : Nat)
  | invalidSampleTable (reason : String)
deriving DecidableEq

instance : LawfulBEq Bytes := inferInstance

def fourcc (name : String) : Bytes := name.toList.map fun c => UInt8.ofNat c.toNat

structure Mp4WriterConfig where
  faststart : Bool := false
  majorBrand : Bytes := fourcc "isom"

structure Mp4Writer where
  config : Mp4WriterConfig
  tracks : List TrackBuilder
  payload : Bytes := []

/-- What a finished file is written from. -/
structure Mp4File where
  majorBrand : Bytes
  tracks : List TrackBuilder
  payload : Bytes

namespace Mp4Writer

def new (config : Mp4WriterConfig) (tracks : List TrackInfo) : Except Mp4Error Mp4Writer :=
  if tracks.isEmpty then .error (.unsupportedTrack "no tracks")
  else .ok { config, tracks := tracks.map TrackBuilder.new }

/-- The sample goes to the first track with its number. -/
def pushTo (trackId : Nat) (push : TrackBuilder → TrackBuilder) :
    List TrackBuilder → Option (List TrackBuilder)
  | [] => none
  | tb :: rest =>
    if tb.trackId = trackId then some (push tb :: rest) else (pushTo trackId push rest).map (tb :: ·)

def pushSample (trackId : Nat) (dtsUs ptsUs : Int) (isSync : Bool) (data : Bytes)
    (w : Mp4Writer) : Except Mp4Error Mp4Writer :=
  if 2 ^ 32 ≤ data.length then .error (.invalidSampleTable "sample size exceeds 4GiB")
  else match pushTo trackId (.push w.payload.length dtsUs ptsUs isSync data) w.tracks with
    | none => .error (.unsupportedTrack "unknown track id")
    | some tracks => .ok { w with tracks, payload := w.payload ++ data }

def finalize (w : Mp4Writer) : Except Mp4Error Mp4File :=
  if w.config.faststart then
    .error (.unsupportedTrack
      "faststart=true not yet supported by Mp4Writer; use mdat-first layout")
  else .ok { majorBrand := w.config.majorBrand, tracks := w.tracks.map .close, payload := w.payload }

end Mp4Writer

def writeBox (name : String) (content : Bytes) : Bytes :=
  toBigEndian 4 (8 + content.length) ++ fourcc name ++ content

def writeFullBox (name : String) (version : UInt8) (flags : Nat) (content : Bytes) : Bytes :=
  writeBox name (version :: toBigEndian 3 flags ++ content)

/-- The range of 32-bit unsigned integers. -/
def clampU32 (n : Int) : Nat := (min (max n 0) (2 ^ 32 - 1)).toNat

def clampCompositionOffset (n : Int) : Int := max (-2 ^ 31) (min (2 ^ 31 - 1) n)

/-- What fits the length field of a descriptor of one byte. -/
def decoderSpecificInfo (extradata : Bytes) : Bytes := extradata.take 127

/-- The decoder configuration in a sample entry. -/
def sampleEntryConfig (mediaKind : MediaKind) (codec : CodecId) (extradata : Bytes) :
    Option Bytes :=
  match mediaKind, codec with
  | .video, .h264 => some extradata
  | .video, .h265 => some extradata
  | .audio, .aac => some (decoderSpecificInfo extradata)
  | _, _ => none

namespace Mp4File

def usToTimescale (us : Int) (timescale : Nat) : Int :=
  saturateI64 ((us * timescale).tdiv 1000000)

def matrix : Bytes :=
  [0x00010000, 0, 0, 0, 0x00010000, 0, 0, 0, 0x40000000].flatMap (toBigEndian 4)

def zeros (n : Nat) : Bytes := List.replicate n 0

def writeFtyp (majorBrand : Bytes) : Bytes :=
  writeBox "ftyp"
    (majorBrand ++ toBigEndian 4 0x200 ++ fourcc "isom" ++ fourcc "mp42" ++ fourcc "avc1")

def writeMvhd (tracks : List TrackBuilder) : Bytes :=
  let durations := tracks.map fun tb => clampU32 (tb.durationUs.tdiv 1000)
  writeFullBox "mvhd" 0 0 (zeros 8 ++ toBigEndian 4 1000 ++ toBigEndian 4 (durations.foldl max 0) ++
    toBigEndian 4 0x00010000 ++ toBigEndian 2 0x0100 ++ zeros 10 ++ matrix ++ zeros 24 ++
    toBigEndian 4 (tracks.length + 1))

def writeTkhd (tb : TrackBuilder) (trackId : Nat) : Bytes :=
  writeFullBox "tkhd" 0 3 (zeros 8 ++ toBigEndian 4 trackId ++ zeros 4 ++
    toBigEndian 4 (clampU32 (tb.durationUs.tdiv 1000)) ++ zeros 12 ++
    toBigEndian 2 (if tb.mediaKind = .audio then 0x0100 else 0) ++ zeros 2 ++ matrix ++
    toBigEndian 4 (tb.width * 2 ^ 16) ++ toBigEndian 4 (tb.height * 2 ^ 16))

def writeMdhd (tb : TrackBuilder) : Bytes :=
  writeFullBox "mdhd" 0 0 (zeros 8 ++ toBigEndian 4 tb.timescale ++
    toBigEndian 4 (clampU32 (usToTimescale tb.durationUs tb.timescale)) ++
    toBigEndian 2 0x55C4 ++ zeros 2)

def writeHdlr (tb : TrackBuilder) : Bytes :=
  let handler := match tb.mediaKind with
    | .video => "vide"
    | .audio => "soun"
    | _ => "meta"
  writeFullBox "hdlr" 0 0 (zeros 4 ++ fourcc handler ++ zeros 12 ++ fourcc "Cheetah" ++ [0])

def writeEsds (objectType streamType : UInt8) (info : Option Bytes) : Bytes :=
  let info := match info with
    | some dsi => 0x05 :: UInt8.ofNat dsi.length :: dsi
    | none => []
  writeFullBox "esds" 0 0 ([0x03, UInt8.ofNat (3 + (2 + 13 + info.length) + 3), 0, 1, 0] ++
    [0x04, UInt8.ofNat (13 + info.length), objectType, streamType] ++ zeros 11 ++ info ++
    [0x06, 0x01, 0x02])

def writeVideoSampleEntry (tb : TrackBuilder) : Bytes :=
  let codecBox := match tb.codec with
    | .h264 => "avc1"
    | .h265 => "hvc1"
    | .h266 => "vvc1"
    | .vp8 => "vp08"
    | .vp9 => "vp09"
    | .av1 => "av01"
    | _ => "mp4v"
  let config := match tb.codec with
    | .h264 => writeBox "avcC" tb.extradata
    | .h265 => writeBox "hvcC" tb.extradata
    | .h266 => writeBox "vvcC" tb.extradata
    | .vp8 | .vp9 => writeBox "vpcC" tb.extradata
    | .av1 => writeBox "av1C" tb.extradata
    | .mjpeg => writeEsds 0x6C 0x21 none
    | _ => []
  writeBox codecBox (zeros 6 ++ toBigEndian 2 1 ++ zeros 16 ++ toBigEndian 2 tb.width ++
    toBigEndian 2 tb.height ++ toBigEndian 4 0x00480000 ++ toBigEndian 4 0x00480000 ++ zeros 4 ++
    toBigEndian 2 1 ++ zeros 32 ++ toBigEndian 2 0x0018 ++ [0xff, 0xff] ++ config)

def writeAudioSampleEntry (tb : TrackBuilder) : Bytes :=
  let codecBox := match tb.codec with
    | .opus => "Opus"
    | .g711a => "alaw"
    | .g711u => "ulaw"
    | _ => "mp4a"
  let config := match tb.codec with
    | .aac => writeEsds 0x40 0x15 (some (decoderSpecificInfo tb.extradata))
    | .mp3 => writeEsds 0x69 0x15 (some (decoderSpecificInfo tb.extradata))
    | .mp2 => writeEsds 0x6B 0x15 (some (decoderSpecificInfo tb.extradata))
    | .opus => writeBox "dOps" tb.extradata
    | _ => []
  writeBox codecBox (zeros 6 ++ toBigEndian 2 1 ++ zeros 8 ++ toBigEndian 2 tb.channels ++
    toBigEndian 2 16 ++ zeros 4 ++ toBigEndian 4 (min tb.sampleRate 65535 * 2 ^ 16) ++ config)

def writeStsd (tb : TrackBuilder) : Bytes :=
  let entry := match tb.mediaKind with
    | .video => writeVideoSampleEntry tb
    | .audio => writeAudioSampleEntry tb
    | _ => []
  writeFullBox "stsd" 0 0 (toBigEndian 4 1 ++ entry)

/-- Equal neighbours are counted. -/
def runs : List Int → List (Nat × Int)
  | [] => []
  | x :: xs =>
    match runs xs with
    | (n, y) :: rest => if x = y then (n + 1, y) :: rest else (1, x) :: (n, y) :: rest
    | [] => [(1, x)]

def writeRuns (values : List Int) : Bytes :=
  toBigEndian 4 (runs values).length ++
    (runs values).flatMap fun r => toBigEndian 4 r.1 ++ toBigEndian 4 (r.2 % 2 ^ 32).toNat

def writeStts (tb : TrackBuilder) : Bytes :=
  writeFullBox "stts" 0 0
    (writeRuns (tb.samples.map fun s => (clampU32 (usToTimescale s.durationUs tb.timescale) : Int)))

def writeCttsIfNeeded (tb : TrackBuilder) : Bytes :=
  if tb.samples.any fun s => s.ptsUs ≠ s.dtsUs then
    writeFullBox "ctts" 1 0 (writeRuns (tb.samples.map fun s =>
      clampCompositionOffset (usToTimescale (saturateI64 (s.ptsUs - s.dtsUs)) tb.timescale)))
  else []

def writeStssIfNeeded (tb : TrackBuilder) : Bytes :=
  if tb.mediaKind ≠ .video then []
  else
    let sync := tb.samples.zipIdx.filterMap fun (s, i) => if s.isSync then some (i + 1) else none
    writeFullBox "stss" 0 0 (toBigEndian 4 sync.length ++ sync.flatMap (toBigEndian 4))

def writeStsc : Bytes := writeFullBox "stsc" 0 0 ([1, 1, 1, 1].flatMap (toBigEndian 4))

def writeStsz (tb : TrackBuilder) : Bytes :=
  writeFullBox "stsz" 0 0 (zeros 4 ++ toBigEndian 4 tb.samples.length ++
    tb.samples.flatMap fun s => toBigEndian 4 s.size)

def writeStcoOrCo64 (tb : TrackBuilder) (chunkBase : Nat) : Bytes :=
  let offsets := tb.samples.map fun s => chunkBase + s.dataOffset
  let (name, width) := if 2 ^ 32 ≤ offsets.foldl max 0 then ("co64", 8) else ("stco", 4)
  writeFullBox name 0 0 (toBigEndian 4 offsets.length ++ offsets.flatMap (toBigEndian width))

def writeMinf (tb : TrackBuilder) (chunkBase : Nat) : Bytes :=
  let header := match tb.mediaKind with
    | .video => writeFullBox "vmhd" 0 1 (zeros 8)
    | .audio => writeFullBox "smhd" 0 0 (zeros 4)
    | _ => writeFullBox "nmhd" 0 0 []
  let dref := writeFullBox "dref" 0 0 (toBigEndian 4 1 ++ writeFullBox "url " 0 1 [])
  let stbl := writeStsd tb ++ writeStts tb ++ writeCttsIfNeeded tb ++ writeStssIfNeeded tb ++
    writeStsc ++ writeStsz tb ++ writeStcoOrCo64 tb chunkBase
  writeBox "minf" (header ++ writeBox "dinf" dref ++ writeBox "stbl" stbl)

def writeTrak (tb : TrackBuilder) (trackId chunkBase : Nat) : Bytes :=
  writeBox "trak" (writeTkhd tb trackId ++
    writeBox "mdia" (writeMdhd tb ++ writeHdlr tb ++ writeMinf tb chunkBase))

def writeMoov (tracks : List TrackBuilder) (chunkBase : Nat) : Bytes :=
  writeBox "moov" (writeMvhd tracks ++
    tracks.zipIdx.flatMap fun (tb, i) => writeTrak tb (i + 1) chunkBase)

def mdatHeader (payloadLen : Nat) : Bytes :=
  if 2 ^ 32 ≤ payloadLen + 8 then
    toBigEndian 4 1 ++ fourcc "mdat" ++ toBigEndian 8 (payloadLen + 16)
  else toBigEndian 4 (payloadLen + 8) ++ fourcc "mdat"

def encode (file : Mp4File) : Bytes :=
  let start := writeFtyp file.majorBrand ++ mdatHeader file.payload.length
  start ++ file.payload ++ writeMoov file.tracks start.length

end Mp4File

/-- A sample as a player finds it. -/
structure MediaSample where
  dtsUs : Int
  ptsUs : Int
  isSync : Bool
  data : Bytes

def sampleAt (payload : Bytes) (record : TrackSampleRecord) : MediaSample where
  dtsUs := record.dtsUs
  ptsUs := record.ptsUs
  isSync := record.isSync
  data := (payload.drop record.dataOffset).take record.size

def samplesOf (tracks : List TrackBuilder) (payload : Bytes) (trackId : Nat) : List MediaSample :=
  match tracks.find? (·.trackId = trackId) with
  | some tb => tb.samples.map (sampleAt payload)
  | none => []

namespace Mp4File

/-- The samples of a track, which has the number that it has outside of the file. -/
def samples (file : Mp4File) (trackId : Nat) : List MediaSample :=
  samplesOf file.tracks file.payload trackId

def configs (file : Mp4File) (trackId : Nat) : List Bytes :=
  (file.tracks.filter (·.trackId = trackId)).filterMap fun tb =>
    sampleEntryConfig tb.mediaKind tb.codec tb.extradata

end Mp4File

namespace TrackBuilder

@[simp] theorem patchLast_trackId (duration : TrackSampleRecord → Int) (tb : TrackBuilder) :
    (tb.patchLast duration).trackId = tb.trackId := by
  unfold patchLast
  split
  · split <;> rfl
  · rfl

@[simp] theorem push_trackId (tb : TrackBuilder) :
    (tb.push dataOffset dtsUs ptsUs isSync data).trackId = tb.trackId := patchLast_trackId _ tb

@[simp] theorem close_trackId (tb : TrackBuilder) : tb.close.trackId = tb.trackId :=
  patchLast_trackId _ tb

/-- What a builder keeps besides its samples. -/
def entry (tb : TrackBuilder) : TrackBuilder := { tb with samples := [] }

@[simp] theorem entry_patchLast (duration : TrackSampleRecord → Int) (tb : TrackBuilder) :
    (tb.patchLast duration).entry = tb.entry := by
  unfold patchLast
  split
  · split <;> rfl
  · rfl

@[simp] theorem entry_push (tb : TrackBuilder) :
    (tb.push dataOffset dtsUs ptsUs isSync data).entry = tb.entry := entry_patchLast _ tb

@[simp] theorem entry_close (tb : TrackBuilder) : tb.close.entry = tb.entry :=
  entry_patchLast _ tb

/-- Only a duration changes. -/
theorem map_patchLast {f : TrackSampleRecord → γ} (duration : TrackSampleRecord → Int)
    (hf : ∀ record d, f { record with durationUs := d } = f record) (tb : TrackBuilder) :
    (tb.patchLast duration).samples.map f = tb.samples.map f := by
  unfold patchLast
  split
  · rename_i last hlast
    split
    · obtain ⟨front, hsamples⟩ := List.getLast?_eq_some_iff.mp hlast
      simp [hsamples, hf]
    · rfl
  · rfl

end TrackBuilder

/-- The samples of the tracks lie in the payload. -/
def Within (tracks : List TrackBuilder) (payload : Bytes) : Prop :=
  ∀ tb ∈ tracks, ∀ record ∈ tb.samples, record.dataOffset + record.size ≤ payload.length

theorem sampleAt_append (data : Bytes) {record : TrackSampleRecord}
    (h : record.dataOffset + record.size ≤ payload.length) :
    sampleAt (payload ++ data) record = sampleAt payload record := by
  have hdrop : (payload ++ data).drop record.dataOffset = payload.drop record.dataOffset ++ data :=
    List.drop_append_of_le_length (by omega)
  have htake : (payload.drop record.dataOffset ++ data).take record.size =
      (payload.drop record.dataOffset).take record.size :=
    List.take_append_of_le_length (by rw [List.length_drop]; omega)
  simp [sampleAt, hdrop, htake]

theorem samplesOf_payload_append (h : Within tracks payload) (data : Bytes) (trackId : Nat) :
    samplesOf tracks (payload ++ data) trackId = samplesOf tracks payload trackId := by
  unfold samplesOf
  split
  · rename_i tb hfind
    exact List.map_congr_left fun record hrecord =>
      sampleAt_append data (h tb (List.mem_of_find?_eq_some hfind) record hrecord)
  · rfl

/-- A track with another number, before or after it. -/
theorem samplesOf_other {before after : List TrackBuilder} (tb : TrackBuilder)
    (hsame : tb'.trackId = tb.trackId)
    (hne : tb.trackId ≠ trackId) :
    samplesOf (before ++ tb' :: after) payload trackId =
      samplesOf (before ++ tb :: after) payload trackId := by
  simp [samplesOf, List.find?_append, hsame, hne]

/-- The first track with the number. -/
theorem samplesOf_first {before after : List TrackBuilder} (hid : tb.trackId = trackId)
    (hbefore : ∀ other ∈ before, other.trackId ≠ trackId) :
    samplesOf (before ++ tb :: after) payload trackId = tb.samples.map (sampleAt payload) := by
  have hnone : before.find? (·.trackId = trackId) = none := by
    simpa [List.find?_eq_none] using hbefore
  simp [samplesOf, List.find?_append, hnone, hid]

theorem samplesOf_close (tracks : List TrackBuilder) (payload : Bytes) (trackId : Nat) :
    samplesOf (tracks.map .close) payload trackId = samplesOf tracks payload trackId := by
  have hfind : (tracks.map TrackBuilder.close).find? (·.trackId = trackId) =
      (tracks.find? (·.trackId = trackId)).map .close := by
    rw [List.find?_map]
    congr 2
    funext track
    exact congrArg (decide <| · = trackId) (TrackBuilder.close_trackId track)
  unfold samplesOf
  rw [hfind]
  cases tracks.find? (·.trackId = trackId) with
  | none => rfl
  | some tb => exact tb.map_patchLast _ fun _ _ => rfl

namespace Mp4Writer

theorem pushTo_some (h : pushTo trackId push tbs = some pushed) :
    ∃ before tb after, tbs = before ++ tb :: after ∧ tb.trackId = trackId ∧
      (∀ other ∈ before, other.trackId ≠ trackId) ∧ pushed = before ++ push tb :: after := by
  induction tbs generalizing pushed with
  | nil => cases h
  | cons tb rest ih =>
    unfold pushTo at h
    split at h
    · rename_i hid
      cases h
      exact ⟨[], tb, rest, rfl, hid, nofun, rfl⟩
    · rename_i hid
      obtain ⟨pushed, hrest, rfl⟩ := Option.map_eq_some_iff.mp h
      obtain ⟨before, found, after, rfl, hfound, hbefore, rfl⟩ := ih hrest
      exact ⟨tb :: before, found, after, rfl, hfound, by simpa [hid] using hbefore, rfl⟩

variable {config : Mp4WriterConfig} {tracks : List TrackInfo} {w w' : Mp4Writer}

/-- What a writer has for the tracks and the samples it was given. -/
structure Holds (w : Mp4Writer) (tracks : List TrackInfo) (given : List (Nat × MediaSample)) :
    Prop where
  entries : w.tracks.map TrackBuilder.entry = tracks.map TrackBuilder.new
  within : Within w.tracks w.payload
  samples : ∀ trackId, samplesOf w.tracks w.payload trackId =
    (given.filter (·.1 = trackId)).map (·.2)

theorem Holds.new (h : Mp4Writer.new config tracks = .ok w) : w.Holds tracks [] := by
  unfold Mp4Writer.new at h
  split at h
  · cases h
  · cases h
    refine ⟨by simp [Function.comp_def, TrackBuilder.entry, TrackBuilder.new], ?_, fun trackId => ?_⟩
    · intro tb htb record hrecord
      obtain ⟨track, -, rfl⟩ := List.mem_map.mp htb
      cases hrecord
    · unfold samplesOf
      split
      · rename_i tb hfind
        obtain ⟨track, -, rfl⟩ := List.mem_map.mp (List.mem_of_find?_eq_some hfind)
        rfl
      · rfl

/-- A sample is added to the first track with its number, and the others stay as they are. -/
theorem Holds.pushSample (h : Holds w tracks given)
    (hok : w.pushSample trackId dtsUs ptsUs isSync data = .ok w') :
    w'.Holds tracks (given ++ [(trackId, ⟨dtsUs, ptsUs, isSync, data⟩)]) := by
  unfold Mp4Writer.pushSample at hok
  split at hok
  · cases hok
  split at hok
  · cases hok
  rename_i pushed hpush
  cases hok
  obtain ⟨before, tb, after, htracks, hid, hbefore, rfl⟩ := pushTo_some hpush
  have hwithin := htracks ▸ h.within
  have hread : (tb.push w.payload.length dtsUs ptsUs isSync data).samples.map
      (sampleAt (w.payload ++ data)) =
        tb.samples.map (sampleAt w.payload) ++ [⟨dtsUs, ptsUs, isSync, data⟩] := by
    simp only [TrackBuilder.push, List.map_append, List.map_cons, List.map_nil]
    congr 1
    · rw [tb.map_patchLast _ fun _ _ => rfl]
      exact List.map_congr_left fun record hrecord =>
        sampleAt_append data (hwithin tb (by simp) record hrecord)
    · simp [sampleAt]
  refine ⟨?_, ?_, fun other => ?_⟩
  · rw [← h.entries, htracks]
    simp
  · have hlast (record : TrackSampleRecord)
        (hrecord : record ∈ (tb.push w.payload.length dtsUs ptsUs isSync data).samples) :
        record.dataOffset + record.size ≤ (w.payload ++ data).length := by
      rw [List.length_append]
      rcases List.mem_append.mp hrecord with hrecord | hrecord
      · -- only the duration of a record that was there changes
        have hend := List.mem_map_of_mem (f := fun r => r.dataOffset + r.size) hrecord
        rw [tb.map_patchLast _ fun _ _ => rfl] at hend
        obtain ⟨old, hold, heq⟩ := List.mem_map.mp hend
        have hle := hwithin tb (by simp) old hold
        omega
      · rw [List.mem_singleton.mp hrecord]
    intro other hother record hrecord
    rcases List.mem_append.mp hother with hother | hother
    · have hle := hwithin other (by simp [hother]) record hrecord
      simp only [List.length_append]
      omega
    rcases List.mem_cons.mp hother with rfl | hother
    · exact hlast record hrecord
    · have hle := hwithin other (by simp [hother]) record hrecord
      simp only [List.length_append]
      omega
  · have hold := h.samples other
    rw [htracks] at hold
    simp only [List.filter_append, List.map_append, ← hold]
    by_cases hother : trackId = other
    · subst hother
      rw [samplesOf_first (by simpa using hid) hbefore, samplesOf_first hid hbefore, hread]
      simp
    · rw [samplesOf_other tb (by simp) (by rwa [hid]), samplesOf_payload_append hwithin]
      simp [hother]

end Mp4Writer
end CheetahMedia.Codec
