import CheetahMedia.Lib.Checked
import CheetahMedia.Record.Writer

namespace CheetahMedia.Record
open Lib Lib.Checked Codec Recording

structure FlvFileWriter where
  headerEmitted : Bool := false
  finalized : Bool := false
  tracks : List TrackInfo := []
  baseDtsUs : Option Int := none

inductive FlvContent
  | header (header : FlvHeader)
  | tag (tag : FlvTag)

def FlvContent.encode : FlvContent → Bytes
  | .header h => h.encode
  | .tag t => t.encodeWithPreviousTagSize

namespace FlvFileWriter

def encodeCts24 (ctsUs : Int) : Bytes :=
  let ctsMs := max (-2 ^ 23) (min (2 ^ 23 - 1) (ctsUs.tdiv 1000))
  toBigEndian 3 (ctsMs % 2 ^ 24).toNat

def emitHeader (w : FlvFileWriter) : FlvHeader where
  hasAudio := w.tracks.any (·.mediaKind = .audio)
  hasVideo := w.tracks.any (·.mediaKind = .video)

def sequenceHeader (track : TrackInfo) : Option FlvTag :=
  match track.mediaKind with
  | .video => buildVideoSequenceHeader track
  | .audio => buildAudioSequenceHeader track
  | _ => none

def emitSequenceHeaders (w : FlvFileWriter) : List (RecordWriteEvent FlvContent) :=
  (w.tracks.filterMap sequenceHeader).map fun tag => .bytes (.tag { tag with timestampMs := 0 })

def updateTracks (tracks : List TrackInfo) (w : FlvFileWriter) :
    Except RecordError FlvFileWriter :=
  if tracks.isEmpty then .error (.invalidTracks "no tracks") else .ok { w with tracks }

/-- The body of a frame's tag; none for a codec that is not supported. -/
def frameBody (frame : AVFrame) : Option (FlvTagType × Bytes) :=
  let cts := encodeCts24 (saturateI64 (frame.ptsUs - frame.dtsUs))
  match frame.mediaKind, frame.codec with
  | .video, .h264 => some (.video, (if frame.isKey then 0x17 else 0x27) :: 0x01 :: cts ++ frame.payload)
  | .video, .h265 => some (.video, (if frame.isKey then 0x1c else 0x2c) :: 0x01 :: cts ++ frame.payload)
  | .audio, .aac => some (.audio, 0xaf :: 0x01 :: frame.payload)
  | .audio, .g711a => some (.audio, 0x72 :: frame.payload)
  | .audio, .g711u => some (.audio, 0x82 :: frame.payload)
  | _, _ => none

def frameEvent (timestampMs : UInt32) (frame : AVFrame) : RecordWriteEvent FlvContent :=
  match frameBody frame with
  | some (tagType, payload) => .bytes (.tag { tagType, timestampMs, payload })
  | none =>
    .diagnostic (match frame.mediaKind with
      | .video | .audio => .unsupportedCodec frame.codec frame.trackId
      | _ => .unsupportedTrack frame.trackId "non-AV media kind")

def timestampMs (base dtsUs : Int) : UInt32 :=
  UInt32.ofNat (min (max ((saturateI64 (dtsUs - base)).tdiv 1000) 0) (2 ^ 32 - 1)).toNat

/-- What comes before the first frame. -/
def opening (w : FlvFileWriter) : List (RecordWriteEvent FlvContent) :=
  if w.headerEmitted then [] else .bytes (.header w.emitHeader) :: w.emitSequenceHeaders

def pushFrame (frame : AVFrame) (w : FlvFileWriter) :
    Except RecordError (List (RecordWriteEvent FlvContent)) × FlvFileWriter :=
  if w.finalized then (.error .finalized, w)
  else if w.tracks.isEmpty then (.error .notInitialized, w)
  else
    let base := w.baseDtsUs.getD frame.dtsUs
    (.ok (w.opening ++ [frameEvent (timestampMs base frame.dtsUs) frame]),
      { w with headerEmitted := true, baseDtsUs := some base })

def finalize (w : FlvFileWriter) :
    Except RecordError (List (RecordWriteEvent FlvContent)) × FlvFileWriter :=
  (.ok [], { w with finalized := true })

end FlvFileWriter

def flvFileWriter : RecordContainerWriter FlvFileWriter FlvContent where
  updateTracks := FlvFileWriter.updateTracks
  pushFrame := FlvFileWriter.pushFrame
  finalize := FlvFileWriter.finalize

namespace FlvContent
open FlvFileWriter

/-- What the length field of a tag leaves of its payload. -/
def cut (payload : Bytes) : Bytes := payload.take FLV_TAG_DATA_LEN_MAX

/-- A tag that configures a decoder and has no frame. -/
def isSequenceHeader : FlvTagType → Bytes → Bool
  | .video, _ :: 0x00 :: _ => true
  | .audio, 0xaf :: 0x00 :: _ => true
  | _, _ => false

/-- The bodies that are read of tags with frames. -/
def frame : FlvContent → Option (FlvTagType × Bytes)
  | .header _ => none
  | .tag t =>
    if isSequenceHeader t.tagType t.payload then none else some (t.tagType, cut t.payload)

/-- The bodies that are read of tags that configure a decoder. -/
def config : FlvContent → Option (FlvTagType × Bytes)
  | .header _ => none
  | .tag t =>
    if isSequenceHeader t.tagType t.payload then some (t.tagType, cut t.payload) else none

def frames (contents : List FlvContent) : List (FlvTagType × Bytes) := contents.filterMap frame

def configs (contents : List FlvContent) : List (FlvTagType × Bytes) := contents.filterMap config

@[simp] theorem frames_append (xs ys : List FlvContent) :
    frames (xs ++ ys) = frames xs ++ frames ys := List.filterMap_append ..

@[simp] theorem configs_append (xs ys : List FlvContent) :
    configs (xs ++ ys) = configs xs ++ configs ys := List.filterMap_append ..

/-- The time of a tag; the header has none. -/
def time : FlvContent → Option UInt32
  | .header _ => none
  | .tag t => some t.timestampMs

theorem isSequenceHeader_frameBody (h : frameBody f = some (tagType, payload)) :
    isSequenceHeader tagType payload = false := by
  unfold frameBody at h
  split at h <;> cases h <;> rfl

theorem isSequenceHeader_sequenceHeader {tag : FlvTag} (h : sequenceHeader track = some tag) :
    isSequenceHeader tag.tagType tag.payload = true := by
  unfold sequenceHeader at h
  split at h
  · unfold buildVideoSequenceHeader at h
    split at h
    · obtain ⟨avcc, -, rfl⟩ := Option.map_eq_some_iff.mp h
      rfl
    · cases h
      rfl
    · cases h
  · unfold buildAudioSequenceHeader at h
    split at h
    · cases h
      rfl
    · cases h
  · cases h

/-- The body of a track's sequence header, as it is read. -/
def configOf (track : TrackInfo) : Option (FlvTagType × Bytes) :=
  (sequenceHeader track).map fun tag => (tag.tagType, cut tag.payload)

theorem frames_sequenceHeaders (w : FlvFileWriter) :
    frames (RecordWriteEvent.contents w.emitSequenceHeaders) = [] := by
  simp only [frames, RecordWriteEvent.contents, emitSequenceHeaders, List.filterMap_eq_nil_iff,
    List.mem_filterMap, List.mem_map]
  rintro _ ⟨_, ⟨tag, ⟨track, -, htrack⟩, rfl⟩, hcontent⟩
  cases hcontent
  have hheader := isSequenceHeader_sequenceHeader htrack
  simp [frame, hheader]

theorem configs_sequenceHeaders (w : FlvFileWriter) :
    configs (RecordWriteEvent.contents w.emitSequenceHeaders) = w.tracks.filterMap configOf := by
  simp only [configs, RecordWriteEvent.contents, emitSequenceHeaders, List.filterMap_map,
    List.filterMap_filterMap]
  refine List.filterMap_congr fun track _ => ?_
  cases htrack : sequenceHeader track with
  | none => simp [configOf, htrack]
  | some tag =>
    have hheader := isSequenceHeader_sequenceHeader htrack
    simp [configOf, htrack, RecordWriteEvent.content, config, hheader]

end FlvContent

namespace FlvFileWriter
open FlvContent
variable {w u : FlvFileWriter} {calls : List (Call FlvContent)}

/-- The body of a frame's tag, as it is read. -/
def readBody (frame : AVFrame) : Option (FlvTagType × Bytes) :=
  (frameBody frame).map fun body => (body.1, cut body.2)

/-- What is written so far, and what the writer keeps of it. -/
structure Follows (calls : List (Call FlvContent)) (w : FlvFileWriter) : Prop where
  finalized : w.finalized = false
  tracks : w.tracks = currentTracks calls
  emitted : w.headerEmitted = (openingTracks calls).isSome
  frames : (FlvContent.frames (written calls)).map some = (accepted calls).map readBody
  configs : FlvContent.configs (written calls) =
    ((openingTracks calls).getD []).filterMap configOf

theorem Follows.new : Follows [] {} where
  finalized := rfl
  tracks := rfl
  emitted := rfl
  frames := rfl
  configs := rfl

theorem Follows.updated (h : Follows calls w) (tracks : List TrackInfo) :
    Follows (calls ++ [.updated tracks]) { w with tracks } where
  finalized := h.finalized
  tracks := (currentTracks_updated calls tracks).symm
  emitted := by rw [openingTracks_updated, ← h.emitted]
  frames := by simpa using h.frames
  configs := by simpa using h.configs

theorem Follows.refused (h : Follows calls w) (frame : AVFrame) (err : RecordError) :
    Follows (calls ++ [.pushed frame (.error err)]) w where
  finalized := h.finalized
  tracks := h.tracks.trans (currentTracks_pushed calls frame _).symm
  emitted := by rw [openingTracks_refused, ← h.emitted]
  frames := by simpa using h.frames
  configs := by simpa using h.configs

theorem opening_diagnostic (w : FlvFileWriter) :
    w.opening.any RecordWriteEvent.isDiagnostic = false := by
  unfold opening
  split
  · rfl
  · simp only [List.any_cons, RecordWriteEvent.isDiagnostic, Bool.false_or, emitSequenceHeaders,
      List.any_map, List.any_eq_false]
    intro _ _
    simp [RecordWriteEvent.isDiagnostic]

theorem frames_opening (w : FlvFileWriter) :
    FlvContent.frames (RecordWriteEvent.contents w.opening) = [] := by
  unfold opening
  split
  · rfl
  · exact frames_sequenceHeaders w

theorem configs_opening (w : FlvFileWriter) :
    FlvContent.configs (RecordWriteEvent.contents w.opening) =
      if w.headerEmitted then [] else w.tracks.filterMap configOf := by
  unfold opening
  split
  · rfl
  · exact configs_sequenceHeaders w

/-- The event of a frame is its tag, or a diagnostic. -/
theorem frameEvent_cases (timestampMs : UInt32) (frame : AVFrame) :
    (∃ body, frameBody frame = some body ∧
      frameEvent timestampMs frame = .bytes (.tag ⟨body.1, timestampMs, body.2⟩)) ∨
    (frameEvent timestampMs frame).isDiagnostic := by
  unfold frameEvent
  split
  · rename_i tagType payload hbody
    exact .inl ⟨_, hbody, rfl⟩
  · exact .inr rfl

theorem Follows.pushed (h : Follows calls w) (timestampMs : UInt32) (frame : AVFrame) (base : Int) :
    Follows (calls ++ [.pushed frame (.ok (w.opening ++ [frameEvent timestampMs frame]))])
      { w with headerEmitted := true, baseDtsUs := some base } := by
  have hwritten : written [Call.pushed frame (.ok (w.opening ++ [frameEvent timestampMs frame]))] =
      RecordWriteEvent.contents w.opening ++
        RecordWriteEvent.contents [frameEvent timestampMs frame] := by
    rw [written_pushed, RecordWriteEvent.contents_append]
  have hconfigs : ((openingTracks calls).getD []).filterMap configOf ++
      (if w.headerEmitted then [] else w.tracks.filterMap configOf) =
        ((openingTracks calls).getD (currentTracks calls)).filterMap configOf := by
    rw [h.emitted, h.tracks]
    cases openingTracks calls <;> simp
  refine ⟨h.finalized, h.tracks.trans (currentTracks_pushed ..).symm, by simp, ?_, ?_⟩
  · rw [written_append, accepted_append, hwritten, frames_append, frames_append, frames_opening,
      List.nil_append, List.map_append, List.map_append, h.frames]
    rcases frameEvent_cases timestampMs frame with ⟨body, hbody, hevent⟩ | hdiagnostic
    · simp [accepted_pushed, opening_diagnostic, hevent, RecordWriteEvent.isDiagnostic,
        RecordWriteEvent.contents, RecordWriteEvent.content, FlvContent.frames, FlvContent.frame,
        isSequenceHeader_frameBody hbody, readBody, hbody]
    · have hcontent : RecordWriteEvent.contents [frameEvent timestampMs frame] = [] := by
        revert hdiagnostic
        cases frameEvent timestampMs frame <;>
          simp [RecordWriteEvent.isDiagnostic, RecordWriteEvent.contents, RecordWriteEvent.content]
      simp [accepted_pushed, hdiagnostic, hcontent, FlvContent.frames]
  · rw [written_append, hwritten, configs_append, configs_append, configs_opening, h.configs,
      openingTracks_pushed, Option.getD_some, ← List.append_assoc, hconfigs]
    rcases frameEvent_cases timestampMs frame with ⟨body, hbody, hevent⟩ | hdiagnostic
    · simp [hevent, RecordWriteEvent.contents, RecordWriteEvent.content, FlvContent.configs,
        FlvContent.config, isSequenceHeader_frameBody hbody]
    · revert hdiagnostic
      cases frameEvent timestampMs frame <;>
        simp [RecordWriteEvent.isDiagnostic, RecordWriteEvent.contents, RecordWriteEvent.content,
          FlvContent.configs]

theorem Follows.pushFrame (h : Follows calls w) (frame : AVFrame) :
    Follows (calls ++ [.pushed frame (w.pushFrame frame).1]) (w.pushFrame frame).2 := by
  unfold FlvFileWriter.pushFrame
  rw [if_neg (by simp [h.finalized])]
  split
  · exact h.refused frame .notInitialized
  · exact h.pushed _ frame _

theorem Follows.updateTracks {tracks : List TrackInfo} (h : Follows calls w)
    (hok : w.updateTracks tracks = .ok u) :
    Follows (calls ++ [.updated tracks]) u := by
  unfold FlvFileWriter.updateTracks at hok
  split at hok
  · cases hok
  · cases hok
    exact h.updated tracks

/-- Step by step from a new writer. -/
theorem follows_run (h : (step flvFileWriter).run {} ops = some (w, calls)) : Follows calls w :=
  run_follows Follows .new (fun _ _ _ _ hfollows hok => hfollows.updateTracks hok)
    (fun _ _ frame hfollows => hfollows.pushFrame frame) h

/-- Each frame that was taken is read once and in order, and so is what was known of a track
when its first frame was taken. -/
structure Complete (calls : List (Call FlvContent)) (out : List FlvContent) : Prop where
  frames : (FlvContent.frames out).map some = (accepted calls).map frameBody
  configs : ∀ track, KnownAtStart calls track → ∃ tag, sequenceHeader track = some tag ∧
    (tag.tagType, tag.payload) ∈ FlvContent.configs out

def Fits (frame : AVFrame) : Prop :=
  ∀ body, frameBody frame = some body → body.2.length ≤ FLV_TAG_DATA_LEN_MAX

/-- The tracks at the first frame have the track's configuration. -/
def OpensWith (calls : List (Call FlvContent)) (track : TrackInfo) : Prop :=
  ∃ tag, sequenceHeader track = some tag ∧ ∃ first ∈ (openingTracks calls).getD [],
    configOf first = some (tag.tagType, tag.payload)

theorem cut_eq_self (payload : Bytes) :
    cut payload = payload ↔ payload.length ≤ FLV_TAG_DATA_LEN_MAX := List.take_eq_self_iff ..

theorem readBody_eq (frame : AVFrame) : readBody frame = frameBody frame ↔ Fits frame := by
  cases hbody : frameBody frame with
  | none => simp [readBody, Fits, hbody]
  | some body =>
    have hpair : (body.1, cut body.2) = body ↔ cut body.2 = body.2 := by simp [Prod.ext_iff]
    simp [readBody, Fits, hbody, hpair, cut_eq_self]

theorem output_eq (w : FlvFileWriter) (calls : List (Call FlvContent)) :
    output flvFileWriter w calls = written calls := by
  simp [output, flvFileWriter, finalize, RecordWriteEvent.contents, Except.toOption]

/-- A header is written once, with the first frame: what is known of a track only later is
not in the file. -/
theorem Follows.complete_iff (h : Follows calls w) :
    Complete calls (output flvFileWriter w calls) ↔
      (∀ frame ∈ accepted calls, Fits frame) ∧
        ∀ track, KnownAtStart calls track → OpensWith calls track := by
  rw [output_eq]
  have hframes : (FlvContent.frames (written calls)).map some = (accepted calls).map frameBody ↔
      ∀ frame ∈ accepted calls, Fits frame := by
    rw [h.frames, List.map_inj_left]
    exact forall₂_congr fun frame _ => readBody_eq frame
  have hconfigs (track : TrackInfo) : OpensWith calls track ↔
      ∃ tag, sequenceHeader track = some tag ∧
        (tag.tagType, tag.payload) ∈ FlvContent.configs (written calls) := by
    simp only [OpensWith, h.configs, List.mem_filterMap]
  constructor
  · intro hcomplete
    exact ⟨hframes.mp hcomplete.frames,
      fun track hknown => (hconfigs track).mpr (hcomplete.configs track hknown)⟩
  · intro hcond
    exact ⟨hframes.mpr hcond.1, fun track hknown => (hconfigs track).mp (hcond.2 track hknown)⟩

/-- A recording reads back in full exactly if the bodies of its frames fit their tags and no
track was first known after the first frame. -/
theorem recording_complete_iff (h : (step flvFileWriter).run {} ops = some (w, calls)) :
    Complete calls (output flvFileWriter w calls) ↔ (∀ frame ∈ accepted calls, Fits frame) ∧
      ∀ track, KnownAtStart calls track → OpensWith calls track :=
  (follows_run h).complete_iff

/-- A frame that gave no error. -/
def taken : Call FlvContent → Option AVFrame
  | .pushed frame (.ok _) => some frame
  | _ => none

def firstTaken (calls : List (Call FlvContent)) : Option AVFrame := calls.findSome? taken

def frameTag (base : Int) (frame : AVFrame) : Option FlvTag :=
  (frameBody frame).map fun body => ⟨body.1, timestampMs base frame.dtsUs, body.2⟩

def headerTag (track : TrackInfo) : Option FlvTag :=
  (sequenceHeader track).map fun tag => { tag with timestampMs := 0 }

/-- The tags of a recording that opened with these tracks. -/
def tagsOf (tracks : List TrackInfo) (base : Int) (frames : List AVFrame) : List FlvTag :=
  tracks.filterMap headerTag ++ frames.filterMap (frameTag base)

def fileOf (tracks : List TrackInfo) (base : Int) (frames : List AVFrame) : List FlvContent :=
  .header (emitHeader { tracks }) :: (tagsOf tracks base frames).map .tag

@[simp] theorem firstTaken_updated (calls : List (Call FlvContent)) (tracks : List TrackInfo) :
    firstTaken (calls ++ [.updated tracks]) = firstTaken calls := by
  simp [firstTaken, List.findSome?_append, taken]

@[simp] theorem firstTaken_refused (calls : List (Call FlvContent)) (frame : AVFrame) (err) :
    firstTaken (calls ++ [.pushed frame (.error err)]) = firstTaken calls := by
  simp [firstTaken, List.findSome?_append, taken]

@[simp] theorem firstTaken_pushed (calls : List (Call FlvContent)) (frame : AVFrame) (events) :
    firstTaken (calls ++ [.pushed frame (.ok events)]) =
      some ((firstTaken calls).getD frame) := by
  rw [firstTaken, List.findSome?_append, ← firstTaken]
  cases firstTaken calls <;> rfl

/-- Nothing is written before the first frame is taken, and from then on the file is the
header, the configurations and the tags of the accepted frames. -/
structure Streams (calls : List (Call FlvContent)) (w : FlvFileWriter) : Prop where
  finalized : w.finalized = false
  tracks : w.tracks = currentTracks calls
  emitted : w.headerEmitted = (openingTracks calls).isSome
  base : w.baseDtsUs = (firstTaken calls).map (·.dtsUs)
  waiting : openingTracks calls = none →
    firstTaken calls = none ∧ accepted calls = [] ∧ written calls = []
  opened : ∀ tracks, openingTracks calls = some tracks → ∃ first, firstTaken calls = some first ∧
    written calls = fileOf tracks first.dtsUs (accepted calls)

theorem Streams.new : Streams [] {} where
  finalized := rfl
  tracks := rfl
  emitted := rfl
  base := rfl
  waiting _ := ⟨rfl, rfl, rfl⟩
  opened := nofun

theorem Streams.updated (h : Streams calls w) (tracks : List TrackInfo) :
    Streams (calls ++ [.updated tracks]) { w with tracks } where
  finalized := h.finalized
  tracks := (currentTracks_updated calls tracks).symm
  emitted := by rw [openingTracks_updated, ← h.emitted]
  base := by simpa using h.base
  waiting := by simpa using h.waiting
  opened := by simpa using h.opened

theorem Streams.refused (h : Streams calls w) (frame : AVFrame) (err : RecordError) :
    Streams (calls ++ [.pushed frame (.error err)]) w where
  finalized := h.finalized
  tracks := h.tracks.trans (currentTracks_pushed calls frame _).symm
  emitted := by rw [openingTracks_refused, ← h.emitted]
  base := by simpa using h.base
  waiting := by simpa using h.waiting
  opened := by simpa using h.opened

theorem contents_opening (w : FlvFileWriter) :
    RecordWriteEvent.contents w.opening = if w.headerEmitted then [] else fileOf w.tracks 0 [] := by
  unfold opening
  split
  · rfl
  · have htags : RecordWriteEvent.contents w.emitSequenceHeaders =
        (w.tracks.filterMap headerTag).map .tag := by
      simp only [RecordWriteEvent.contents, emitSequenceHeaders, List.filterMap_filterMap,
        List.map_filterMap]
      refine List.filterMap_congr fun track _ => ?_
      cases htrack : sequenceHeader track <;>
        simp [headerTag, htrack, RecordWriteEvent.content]
    rw [RecordWriteEvent.contents, List.filterMap_cons, ← RecordWriteEvent.contents, htags]
    simp [RecordWriteEvent.content, fileOf, tagsOf, emitHeader]

/-- A frame that is accepted has its tag, and one that is not has none. -/
theorem contents_frameEvent (base : Int) (frame : AVFrame)
    (opening : List (RecordWriteEvent FlvContent))
    (hopening : opening.any RecordWriteEvent.isDiagnostic = false) :
    RecordWriteEvent.contents [frameEvent (timestampMs base frame.dtsUs) frame] =
      ((accepted [.pushed frame
        (.ok (opening ++ [frameEvent (timestampMs base frame.dtsUs) frame]))]).filterMap
          (frameTag base)).map .tag := by
  rw [accepted_pushed, List.any_append, hopening, Bool.false_or]
  rcases frameEvent_cases (timestampMs base frame.dtsUs) frame with
    ⟨body, hbody, hevent⟩ | hdiagnostic
  · simp [hevent, hbody, RecordWriteEvent.isDiagnostic, RecordWriteEvent.contents,
      RecordWriteEvent.content, frameTag]
  · revert hdiagnostic
    cases frameEvent (timestampMs base frame.dtsUs) frame <;>
      simp [RecordWriteEvent.isDiagnostic, RecordWriteEvent.contents, RecordWriteEvent.content]

theorem fileOf_append (tracks : List TrackInfo) (base : Int) (frames more : List AVFrame) :
    fileOf tracks base (frames ++ more) =
      fileOf tracks base frames ++ (more.filterMap (frameTag base)).map .tag := by
  simp [fileOf, tagsOf]

theorem Streams.pushed (h : Streams calls w) (frame : AVFrame) :
    let base := w.baseDtsUs.getD frame.dtsUs
    Streams (calls ++ [.pushed frame
      (.ok (w.opening ++ [frameEvent (timestampMs base frame.dtsUs) frame]))])
      { w with headerEmitted := true, baseDtsUs := some base } := by
  intro base
  have hlast := contents_frameEvent base frame w.opening (opening_diagnostic w)
  refine ⟨h.finalized, h.tracks.trans (currentTracks_pushed ..).symm, by simp, ?_, by simp, ?_⟩
  · rw [firstTaken_pushed, Option.map_some]
    simp only [base, h.base]
    cases firstTaken calls <;> rfl
  intro tracks htracks
  rw [openingTracks_pushed, Option.some.injEq] at htracks
  refine ⟨_, firstTaken_pushed calls frame _, ?_⟩
  rw [written_append, written_pushed, RecordWriteEvent.contents_append, hlast, contents_opening,
    accepted_append, h.emitted]
  cases hopening : openingTracks calls with
  | none =>
    obtain ⟨hfirst, haccepted, hwritten⟩ := h.waiting hopening
    have hbase : base = frame.dtsUs := by simp [base, h.base, hfirst]
    rw [hopening, Option.getD_none, ← h.tracks] at htracks
    simp [hwritten, haccepted, hfirst, htracks, hbase, fileOf, tagsOf]
  | some opened =>
    obtain ⟨first, hfirst, hwritten⟩ := h.opened opened hopening
    have hbase : base = first.dtsUs := by simp [base, h.base, hfirst]
    rw [hopening, Option.getD_some] at htracks
    rw [hwritten, hfirst, hbase, htracks, fileOf_append]
    simp

theorem Streams.pushFrame (h : Streams calls w) (frame : AVFrame) :
    Streams (calls ++ [.pushed frame (w.pushFrame frame).1]) (w.pushFrame frame).2 := by
  unfold FlvFileWriter.pushFrame
  rw [if_neg (by simp [h.finalized])]
  split
  · exact h.refused frame .notInitialized
  · exact h.pushed frame

theorem Streams.updateTracks {tracks : List TrackInfo} (h : Streams calls w)
    (hok : w.updateTracks tracks = .ok u) : Streams (calls ++ [.updated tracks]) u := by
  unfold FlvFileWriter.updateTracks at hok
  split at hok
  · cases hok
  · cases hok
    exact h.updated tracks

theorem streams_run (h : (step flvFileWriter).run {} ops = some (w, calls)) : Streams calls w :=
  run_follows Streams .new (fun _ _ _ _ hstreams hok => hstreams.updateTracks hok)
    (fun _ _ frame hstreams => hstreams.pushFrame frame) h

theorem encode_fileOf (tracks : List TrackInfo) (base : Int) (frames : List AVFrame) :
    (fileOf tracks base frames).flatMap FlvContent.encode =
      (emitHeader { tracks }).encodeExtended [] ++ muxTags (tagsOf tracks base frames) := by
  simp [fileOf, FlvContent.encode, FlvHeader.encode, muxTags, List.flatMap_map]

/-- The bytes of a recording, cut anyhow, give the demuxer its header and its tags exactly if
no piece makes the buffer overflow. -/
theorem recording_demuxed_iff {tracks : List TrackInfo}
    (h : (step flvFileWriter).run {} ops = some (w, calls))
    (hopen : openingTracks calls = some tracks) (hfirst : firstTaken calls = some first)
    (hfits : ∀ tag ∈ tagsOf tracks first.dtsUs (accepted calls), tag.Fits)
    (hpieces : pieces.flatten = (output flvFileWriter w calls).flatMap FlvContent.encode)
    (maxBufferBytes : Nat) :
    FlvDemuxer.Yields (.new maxBufferBytes) pieces (.header (emitHeader { tracks }) ::
        (tagsOf tracks first.dtsUs (accepted calls)).map .tag) ↔
      Readable (max maxBufferBytes FLV_FULL_HEADER_BYTES) FLV_FULL_HEADER_BYTES
        ((tagsOf tracks first.dtsUs (accepted calls)).map FlvTag.size) 0 pieces := by
  obtain ⟨first', hfirst', hwritten⟩ := (streams_run h).opened tracks hopen
  cases hfirst.symm.trans hfirst'
  rw [output_eq, hwritten, encode_fileOf] at hpieces
  have hheld : ([] : Bytes).length < FLV_FULL_HEADER_BYTES := by decide
  exact FlvDemuxer.yields_stream _ [] pieces _ (by decide) hfits hheld hpieces

theorem timestampMs_mono (base : Int) (h : a ≤ b) : timestampMs base a ≤ timestampMs base b := by
  have htdiv {m n : Int} (hmn : m ≤ n) : m.tdiv 1000 ≤ n.tdiv 1000 :=
    Int.tdiv_le_tdiv (by decide) hmn
  have hsaturate : saturateI64 (a - base) ≤ saturateI64 (b - base) := by
    unfold saturateI64
    omega
  have hms := htdiv hsaturate
  unfold timestampMs
  generalize (saturateI64 (a - base)).tdiv 1000 = m at hms ⊢
  generalize (saturateI64 (b - base)).tdiv 1000 = n at hms ⊢
  rw [UInt32.le_iff_toNat_le, UInt32.toNat_ofNat', UInt32.toNat_ofNat']
  omega

theorem time_fileOf (tracks : List TrackInfo) (base : Int) (frames : List AVFrame) :
    (fileOf tracks base frames).filterMap FlvContent.time =
      (tracks.filterMap headerTag).map (·.timestampMs) ++
        (frames.filterMap (frameTag base)).map (·.timestampMs) := by
  rw [fileOf, List.filterMap_cons, FlvContent.time, List.filterMap_map, ← List.map_append, tagsOf]
  exact congrFun List.filterMap_eq_map _

/-- As long as the frames do not go back, no tag does. -/
theorem recording_ordered (h : (step flvFileWriter).run {} ops = some (w, calls))
    (hordered : (accepted calls).Pairwise fun f g => f.dtsUs ≤ g.dtsUs) :
    ((output flvFileWriter w calls).filterMap FlvContent.time).Pairwise (· ≤ ·) := by
  have hstreams := streams_run h
  rw [output_eq]
  cases hopening : openingTracks calls with
  | none =>
    obtain ⟨-, -, hwritten⟩ := hstreams.waiting hopening
    rw [hwritten]
    exact .nil
  | some tracks =>
    obtain ⟨first, -, hwritten⟩ := hstreams.opened tracks hopening
    have hzero : ∀ tag ∈ tracks.filterMap headerTag, tag.timestampMs = 0 := by
      intro tag htag
      obtain ⟨track, -, hheader⟩ := List.mem_filterMap.mp htag
      obtain ⟨header, -, rfl⟩ := Option.map_eq_some_iff.mp hheader
      rfl
    rw [hwritten, time_fileOf, List.pairwise_append, List.pairwise_map, List.pairwise_map]
    refine ⟨List.pairwise_of_forall_mem_list fun s hs t _ => ?_,
      List.pairwise_filterMap.mpr (hordered.imp fun hle s hs t ht => ?_), fun time htime _ _ => ?_⟩
    · rw [hzero s hs]
      exact UInt32.zero_le
    · obtain ⟨-, -, rfl⟩ := Option.map_eq_some_iff.mp hs
      obtain ⟨-, -, rfl⟩ := Option.map_eq_some_iff.mp ht
      exact timestampMs_mono _ hle
    · obtain ⟨tag, htag, rfl⟩ := List.mem_map.mp htime
      rw [hzero tag htag]
      exact UInt32.zero_le

def aacTrack : TrackInfo :=
  { TrackInfo.new 1 .audio .aac 44100 with extradata := .aac [0x12, 0x10] }

def aacFrame (dtsUs : Int) (payload : Bytes) : AVFrame :=
  { AVFrame.new 1 .audio .aac .aacRaw dtsUs dtsUs (1, 1000000) payload with dtsUs, ptsUs := dtsUs }

def aacTag (timestampMs : UInt32) (payload : Bytes) : FlvTag :=
  ⟨.audio, timestampMs, 0xaf :: payload⟩

/-- A track, and two of its frames. -/
def aacCalls : List (Call FlvContent) :=
  [.updated [aacTrack],
    .pushed (aacFrame 5000 [1, 2]) (.ok [.bytes (.header ⟨true, false⟩),
      .bytes (.tag (aacTag 0 [0, 0x12, 0x10])), .bytes (.tag (aacTag 0 [1, 1, 2]))]),
    .pushed (aacFrame 28000 [3]) (.ok [.bytes (.tag (aacTag 23 [1, 3]))])]

def aacWriter : FlvFileWriter :=
  { headerEmitted := true, tracks := [aacTrack], baseDtsUs := some 5000 }

theorem aacCalls_run : (step flvFileWriter).run {}
    [.updateTracks [aacTrack], .pushFrame (aacFrame 5000 [1, 2]), .pushFrame (aacFrame 28000 [3])] =
      some (aacWriter, aacCalls) := rfl

theorem recording_complete_iff_aac :
    Complete aacCalls (output flvFileWriter aacWriter aacCalls) ↔
      (∀ frame ∈ accepted aacCalls, Fits frame) ∧
        ∀ track, KnownAtStart aacCalls track → OpensWith aacCalls track :=
  recording_complete_iff aacCalls_run

theorem recording_ordered_aac : ([0, 0, 23] : List UInt32).Pairwise (· ≤ ·) :=
  recording_ordered aacCalls_run (by decide)

theorem recording_demuxed_iff_aac :
    let tags := [aacTag 0 [0, 0x12, 0x10], aacTag 0 [1, 1, 2], aacTag 23 [1, 3]]
    let wire := FlvHeader.encode ⟨true, false⟩ ++ muxTags tags
    FlvDemuxer.Yields (.new 64) [wire.take 20, wire.drop 20]
        (.header ⟨true, false⟩ :: tags.map .tag) ↔
      Readable 64 13 [19, 19, 18] 0 [wire.take 20, wire.drop 20] :=
  recording_demuxed_iff aacCalls_run rfl rfl (by decide)
    (show List.flatten [List.take 20 _, List.drop 20 _] = _ by
      rw [List.flatten_cons, List.flatten_singleton, List.take_append_drop]
      rfl) 64

end FlvFileWriter
end CheetahMedia.Record
