import CheetahMedia.Hls.DateTime
import CheetahMedia.Lib.Double
import CheetahMedia.Lib.Words

namespace CheetahMedia.Hls
open Lib Lib.Text

abbrev Bytes := List UInt8

inductive TrackLane
  | video
  | audio

def TrackLane.pre : TrackLane → Text
  | .video => "video".toList
  | .audio => "audio".toList

structure HlsPart where
  uri : Text
  durationSecs : Double
  independent : Bool
  data : Bytes
  sequence : Nat
  segmentSequence : Nat

/-- The parts of a segment that is complete. -/
structure SegmentParts where
  segmentSequence : Nat
  parts : List HlsPart

structure RenditionReport where
  uri : Text
  lastMsn : Nat
  lastPart : Nat

structure LowLatencyState where
  /-- The parts of the open segment. -/
  currentParts : List HlsPart := []
  completedSegmentsParts : List SegmentParts := []
  maxCompletedSegments : Nat
  partTargetSecs : Double
  partSeq : Nat := 0
  parentSegmentSeq : Nat := 0
  currentPartStartDtsMs : Option Nat := none
  currentPartHasKeyframe : Bool := false
  renditionReports : List RenditionReport := []

/-- `ms as f64 / 1000.0` -/
def secsOfMs (ms : Nat) : Double := .div (.ofNat ms) 1000

namespace LowLatencyState

def new (partTargetMs maxCompletedSegments : Nat) : LowLatencyState where
  maxCompletedSegments := maxCompletedSegments
  partTargetSecs := secsOfMs partTargetMs

def shouldCutPart (s : LowLatencyState) (sampleDtsMs : Nat) : Bool :=
  match s.currentPartStartDtsMs with
  | none => false
  | some start => Double.toU64 (Double.mul s.partTargetSecs 1000) ≤ sampleDtsMs - start

/-- The first sample of a part decides whether it is independent. -/
def noteSample (s : LowLatencyState) (dtsMs : Nat) (isKeyframe : Bool) : LowLatencyState :=
  match s.currentPartStartDtsMs with
  | some _ => s
  | none => { s with
      currentPartStartDtsMs := some dtsMs
      currentPartHasKeyframe := if isKeyframe then true else s.currentPartHasKeyframe }

def partUri (seq : Nat) : Text := "part_".toList ++ decimal seq ++ ".m4s".toList

/-- The part that these data finish. -/
def nextPart (s : LowLatencyState) (data : Bytes) (durationSecs : Double) : HlsPart where
  uri := partUri s.partSeq
  durationSecs := durationSecs
  independent := s.currentPartHasKeyframe
  data := data
  sequence := s.partSeq
  segmentSequence := s.parentSegmentSeq

def finalizePart (s : LowLatencyState) (data : Bytes) (durationSecs : Double) :
    HlsPart × LowLatencyState :=
  let part := s.nextPart data durationSecs
  (part, { s with
    partSeq := s.partSeq + 1
    currentParts := s.currentParts ++ [part]
    currentPartStartDtsMs := none
    currentPartHasKeyframe := false })

def onSegmentBoundary (s : LowLatencyState) (newSegmentSeq : Nat) : LowLatencyState :=
  let s :=
    if s.currentParts = [] then s
    else
      let completed := s.completedSegmentsParts ++ [⟨s.parentSegmentSeq, s.currentParts⟩]
      { s with
        currentParts := []
        completedSegmentsParts :=
          if s.maxCompletedSegments < completed.length then completed.drop 1 else completed }
  { s with
    parentSegmentSeq := newSegmentSeq
    currentPartStartDtsMs := none
    currentPartHasKeyframe := false }

def getPart (s : LowLatencyState) (partSeq : Nat) : Option HlsPart :=
  (s.currentParts.find? (·.sequence = partSeq)).or
    (s.completedSegmentsParts.findSome? fun sp => sp.parts.find? (·.sequence = partSeq))

def playlistHeaderTags (s : LowLatencyState) : Text :=
  newline ("#EXT-X-SERVER-CONTROL:CAN-BLOCK-RELOAD=YES,PART-HOLD-BACK=".toList ++
    Double.fixed 1 (Double.mul s.partTargetSecs 3)) ++
  newline ("#EXT-X-PART-INF:PART-TARGET=".toList ++ Double.fixed 3 s.partTargetSecs)

/-- The line of a part, with its URI behind a text. -/
def partTag (pre : Text) (part : HlsPart) : Text :=
  "#EXT-X-PART:DURATION=".toList ++ Double.fixed 3 part.durationSecs ++ ",URI=\"".toList ++ pre ++
    part.uri ++ "\"".toList ++ (if part.independent then ",INDEPENDENT=YES".toList else [])

def formatPartTags (parts : List HlsPart) (pre : Text) : Text :=
  parts.flatMap fun part => newline (partTag pre part)

def partTags (s : LowLatencyState) (pre : Text) : Text := formatPartTags s.currentParts pre

def preloadHint (s : LowLatencyState) (pre : Text) : Text :=
  "#EXT-X-PRELOAD-HINT:TYPE=PART,URI=\"".toList ++ pre ++ partUri s.partSeq ++ "\"".toList

def preloadHintTag (s : LowLatencyState) (pre : Text) : Text := newline (s.preloadHint pre)

def renditionReportTags (s : LowLatencyState) : Text :=
  s.renditionReports.flatMap fun r =>
    newline ("#EXT-X-RENDITION-REPORT:URI=\"".toList ++ r.uri ++ "\",LAST-MSN=".toList ++
      decimal r.lastMsn ++ ",LAST-PART=".toList ++ decimal r.lastPart)

end LowLatencyState

structure Segment where
  name : Text
  durationSecs : Double
  data : Bytes
  startsWithKeyframe : Bool
  sequence : Nat
  programDateTimeMs : Option Int
  cueTags : Option Text

structure SegmentRing where
  segments : List Segment := []
  maxSegments : Nat
  retainExtra : Nat
  nextSequence : Nat := 0

namespace SegmentRing

def withRetain (maxSegments retainExtra : Nat) : SegmentRing where
  maxSegments := max maxSegments 1
  retainExtra := retainExtra

def new (maxSegments : Nat) : SegmentRing := withRetain maxSegments 0

/-- The segment that the ring numbers next. -/
def nextSegment (ring : SegmentRing) (name : Text) (durationSecs : Double) (data : Bytes)
    (keyframe : Bool) (programDateTimeMs : Option Int) : Segment where
  name := name
  durationSecs := durationSecs
  data := data
  startsWithKeyframe := keyframe
  sequence := ring.nextSequence
  programDateTimeMs := programDateTimeMs
  cueTags := none

/-- The first one goes when there are more than fit. -/
def pushWithPdt (ring : SegmentRing) (name : Text) (durationSecs : Double) (data : Bytes)
    (keyframe : Bool) (programDateTimeMs : Option Int) : SegmentRing :=
  let segments := ring.segments ++
    [ring.nextSegment name durationSecs data keyframe programDateTimeMs]
  { ring with
    nextSequence := ring.nextSequence + 1
    segments :=
      if ring.maxSegments + ring.retainExtra < segments.length then segments.drop 1 else segments }

def get (ring : SegmentRing) (name : Text) : Option Segment :=
  ring.segments.find? (·.name = name)

def firstSequence (ring : SegmentRing) : Nat := (ring.segments.head?.map (·.sequence)).getD 0

def maxDuration (ring : SegmentRing) : Double :=
  ring.segments.foldl (fun longest segment => max longest segment.durationSecs) 0

end SegmentRing

end CheetahMedia.Hls

namespace CheetahMedia.Hls
open Lib Lib.Text

inductive HlsContainer
  | ts
  | fmp4

namespace PlaylistBuilder

def buildEmptyMedia (container : HlsContainer) : Text :=
  let version := match container with
    | .ts => 3
    | .fmp4 => 7
  newline "#EXTM3U".toList ++ newline ("#EXT-X-VERSION:".toList ++ decimal version) ++
    newline "#EXT-X-TARGETDURATION:4".toList ++ newline "#EXT-X-MEDIA-SEQUENCE:0".toList

/-- The query that names a session. -/
def uidQuery (sessionId : Option Nat) : Text :=
  match sessionId with
  | some uid => "?uid=".toList ++ decimal uid
  | none => []

def mapTag (sessionId : Option Nat) (pre : Text) : Text :=
  "#EXT-X-MAP:URI=\"".toList ++ pre ++ "init.mp4".toList ++ uidQuery sessionId ++ "\"".toList

def dateTimeTag (unixMs : Int) : Text := "#EXT-X-PROGRAM-DATE-TIME:".toList ++ formatIso8601 unixMs

def extinfTag (segment : Segment) : Text :=
  "#EXTINF:".toList ++ Double.fixed 3 segment.durationSecs ++ [',']

def segmentUri (sessionId : Option Nat) (pre : Text) (segment : Segment) : Text :=
  pre ++ segment.name ++ ".m4s".toList ++ uidQuery sessionId

/-- The lines of a complete segment. -/
def segmentLines (llState : LowLatencyState) (sessionId : Option Nat) (pre : Text) (legacy : Bool)
    (segment : Segment) : Text :=
  (match segment.cueTags with
    | some cue => cue
    | none => []) ++
  (match segment.programDateTimeMs with
    | some ms => newline (dateTimeTag ms)
    | none => []) ++
  (if legacy then []
    else match llState.completedSegmentsParts.find? (·.segmentSequence = segment.sequence) with
      | some sp => LowLatencyState.formatPartTags sp.parts pre
      | none => []) ++
  newline (extinfTag segment) ++ newline (segmentUri sessionId pre segment)

def buildMediaLl (ring : SegmentRing) (llState : LowLatencyState) (sessionId : Option Nat)
    (pre : Text) (legacy concluded : Bool) : Text :=
  if ring.segments = [] ∧ llState.currentParts = [] then buildEmptyMedia .fmp4
  else
    let targetDuration := Double.toU64 (max (Double.ceil ring.maxDuration) Double.one)
    newline "#EXTM3U".toList ++
    newline (if legacy then "#EXT-X-VERSION:6".toList else "#EXT-X-VERSION:9".toList) ++
    newline ("#EXT-X-TARGETDURATION:".toList ++ decimal targetDuration) ++
    newline ("#EXT-X-MEDIA-SEQUENCE:".toList ++ decimal ring.firstSequence) ++
    (if legacy then [] else llState.playlistHeaderTags) ++
    newline (mapTag sessionId pre) ++
    ring.segments.flatMap (segmentLines llState sessionId pre legacy) ++
    (if !legacy && llState.currentParts ≠ [] then llState.partTags pre else []) ++
    (if !legacy && !concluded then llState.preloadHintTag pre else []) ++
    (if !legacy && !concluded then llState.renditionReportTags else []) ++
    (if concluded then newline "#EXT-X-ENDLIST".toList else [])

section Lines

/-- The parts of a complete segment, as long as they are kept. -/
def archivedParts (llState : LowLatencyState) (segment : Segment) : List HlsPart :=
  match llState.completedSegmentsParts.find? (·.segmentSequence = segment.sequence) with
  | some sp => sp.parts
  | none => []

def segmentTags (llState : LowLatencyState) (sessionId : Option Nat) (pre : Text)
    (segment : Segment) : List Text :=
  (segment.programDateTimeMs.map dateTimeTag).toList ++
    (archivedParts llState segment).map (LowLatencyState.partTag pre) ++
    [extinfTag segment, segmentUri sessionId pre segment]

def headTags (ring : SegmentRing) (llState : LowLatencyState) (sessionId : Option Nat)
    (pre : Text) : List Text :=
  ["#EXTM3U".toList, "#EXT-X-VERSION:9".toList,
    "#EXT-X-TARGETDURATION:".toList ++
      decimal (Double.toU64 (max (Double.ceil ring.maxDuration) Double.one)),
    "#EXT-X-MEDIA-SEQUENCE:".toList ++ decimal ring.firstSequence,
    "#EXT-X-SERVER-CONTROL:CAN-BLOCK-RELOAD=YES,PART-HOLD-BACK=".toList ++
      Double.fixed 1 (Double.mul llState.partTargetSecs 3),
    "#EXT-X-PART-INF:PART-TARGET=".toList ++ Double.fixed 3 llState.partTargetSecs,
    mapTag sessionId pre]

/-- The lines of a playlist with parts, of segments without cue tags and a state without reports. -/
def mediaTags (ring : SegmentRing) (llState : LowLatencyState) (sessionId : Option Nat)
    (pre : Text) (concluded : Bool) : List Text :=
  headTags ring llState sessionId pre ++
    ring.segments.flatMap (segmentTags llState sessionId pre) ++
    llState.currentParts.map (LowLatencyState.partTag pre) ++
    (if concluded then ["#EXT-X-ENDLIST".toList] else [llState.preloadHint pre])

theorem formatPartTags_eq (parts : List HlsPart) (pre : Text) :
    LowLatencyState.formatPartTags parts pre =
      (parts.map (LowLatencyState.partTag pre)).flatMap newline := by
  rw [List.flatMap_map]
  rfl

theorem segmentLines_eq {segment : Segment} (llState : LowLatencyState) (sessionId : Option Nat)
    (pre : Text) (hcue : segment.cueTags = none) :
    segmentLines llState sessionId pre false segment =
      (segmentTags llState sessionId pre segment).flatMap newline := by
  unfold segmentLines segmentTags archivedParts
  rw [hcue]
  cases segment.programDateTimeMs <;>
    cases llState.completedSegmentsParts.find? (·.segmentSequence = segment.sequence) <;>
    simp [formatPartTags_eq]

/-- The playlist line by line. -/
theorem buildMediaLl_eq (sessionId : Option Nat) (pre : Text) (concluded : Bool)
    (hsome : ¬(ring.segments = [] ∧ llState.currentParts = []))
    (hcue : ∀ segment ∈ ring.segments, segment.cueTags = none)
    (hreports : llState.renditionReports = []) :
    buildMediaLl ring llState sessionId pre false concluded =
      (mediaTags ring llState sessionId pre concluded).flatMap newline := by
  have hsegments : ring.segments.flatMap (segmentLines llState sessionId pre false) =
      (ring.segments.flatMap (segmentTags llState sessionId pre)).flatMap newline := by
    rw [List.flatMap_assoc]
    exact List.flatMap_congr fun segment hmem => segmentLines_eq _ _ _ (hcue segment hmem)
  have hparts : (if !false && llState.currentParts ≠ [] then llState.partTags pre else []) =
      (llState.currentParts.map (LowLatencyState.partTag pre)).flatMap newline := by
    rw [← formatPartTags_eq, ← LowLatencyState.partTags]
    by_cases hnil : llState.currentParts = []
    · simp [hnil, LowLatencyState.partTags, LowLatencyState.formatPartTags]
    · simp [hnil]
  unfold buildMediaLl
  rw [if_neg hsome, hsegments, hparts]
  cases concluded <;>
    simp [mediaTags, headTags, LowLatencyState.playlistHeaderTags, LowLatencyState.preloadHintTag,
      LowLatencyState.renditionReportTags, hreports, List.append_assoc]

/-- The letters of tags without a URI. -/
def tagLetters : Text := "#-:=,.ABCDEFGHIJKLMNOPQRSTUVWXYZ".toList

def partLetters : Text := tagLetters ++ "\"_partms".toList

def mapLetters : Text := tagLetters ++ "\"?abcdefghijklmnopqrstuvwxyz".toList

def uriLetters : Text := "_.?=abcdefghijklmnopqrstuvwxyz".toList

theorem spelled_formatIso8601 (unixMs : Int) : Spelled tagLetters (formatIso8601 unixMs) := by
  have hint (width : Nat) (n : Int) : Spelled tagLetters (paddedInt width n) :=
    spelled_paddedInt (by decide) width n
  have hsep {c : Char} (hc : c ∈ tagLetters) {t : Text} (ht : Spelled tagLetters t) :
      Spelled tagLetters (c :: t) := List.forall_mem_cons.mpr ⟨.inr hc, ht⟩
  exact (hint _ _).append (hsep (by decide) ((hint _ _).append (hsep (by decide)
    ((hint _ _).append (hsep (by decide) ((hint _ _).append (hsep (by decide) ((hint _ _).append
      (hsep (by decide) ((hint _ _).append (hsep (by decide) ((spelled_padded _ _ _).append
        (by decide)))))))))))))

theorem spelled_uidQuery (h : Spelled letters "?uid=".toList) (sessionId : Option Nat) :
    Spelled letters (uidQuery sessionId) := by
  cases sessionId with
  | none => exact fun _ hmem => absurd hmem List.not_mem_nil
  | some uid => exact h.append (spelled_decimal _ _)

theorem spelled_mapTag (sessionId : Option Nat) : Spelled mapLetters (mapTag sessionId []) :=
  .append (.append (by decide) (spelled_uidQuery (by decide) sessionId)) (by decide)

theorem spelled_partUri (n : Nat) : Spelled partLetters (LowLatencyState.partUri n) :=
  .append (.append (by decide) (spelled_decimal _ n)) (by decide)

theorem spelled_partTag (h : part.uri = LowLatencyState.partUri n) :
    Spelled partLetters (LowLatencyState.partTag [] part) := by
  unfold LowLatencyState.partTag
  rw [h]
  have hfront : Spelled partLetters ("#EXT-X-PART:DURATION=".toList ++
      Double.fixed 3 part.durationSecs ++ ",URI=\"".toList ++ []) :=
    .append (.append (.append (by decide) (Double.spelled_fixed (by decide) 3 _)) (by decide)) (by decide)
  refine .append (.append (hfront.append (spelled_partUri n)) (by decide)) ?_
  split <;> decide

theorem spelled_preloadHint (llState : LowLatencyState) :
    Spelled partLetters (llState.preloadHint []) :=
  .append (.append (by decide) (spelled_partUri _)) (by decide)

theorem spelled_segmentUri {segment : Segment} (h : Spelled uriLetters segment.name)
    (sessionId : Option Nat) : Spelled uriLetters (segmentUri sessionId [] segment) :=
  .append (.append h (by decide)) (spelled_uidQuery (by decide) sessionId)

theorem spelled_extinfTag (segment : Segment) : Spelled tagLetters (extinfTag segment) :=
  .append (.append (by decide) (Double.spelled_fixed (by decide) 3 _)) (by decide)

theorem spelled_dateTimeTag (unixMs : Int) : Spelled tagLetters (dateTimeTag unixMs) :=
  .append (by decide) (spelled_formatIso8601 unixMs)

/-- A line of a playlist: a tag without a URI, the map, a part, a segment or the hint. -/
inductive MediaTag (ring : SegmentRing) (llState : LowLatencyState) (sessionId : Option Nat) :
    Text → Prop
  | plain (h : Spelled tagLetters l) (htag : l.head? = some '#') :
      MediaTag ring llState sessionId l
  | map : MediaTag ring llState sessionId (mapTag sessionId [])
  | current (h : part ∈ llState.currentParts) :
      MediaTag ring llState sessionId (LowLatencyState.partTag [] part)
  | archived (h : sp ∈ llState.completedSegmentsParts) (hpart : part ∈ sp.parts) :
      MediaTag ring llState sessionId (LowLatencyState.partTag [] part)
  | segment {segment : Segment} (h : segment ∈ ring.segments) :
      MediaTag ring llState sessionId (segmentUri sessionId [] segment)
  | hint : MediaTag ring llState sessionId (llState.preloadHint [])

theorem mem_archivedParts {segment : Segment} (h : part ∈ archivedParts llState segment) :
    ∃ sp ∈ llState.completedSegmentsParts, part ∈ sp.parts := by
  unfold archivedParts at h
  split at h
  · rename_i sp hfind
    exact ⟨sp, List.mem_of_find?_eq_some hfind, h⟩
  · cases h

theorem mediaTag_of_mem (h : l ∈ mediaTags ring llState sessionId [] concluded) :
    MediaTag ring llState sessionId l := by
  simp only [mediaTags, List.mem_append] at h
  rcases h with ((hhead | hsegments) | hparts) | hlast
  · have hfixed (n : Nat) (x : Double) : Spelled tagLetters (Double.fixed n x) :=
      Double.spelled_fixed (by decide) n x
    simp only [headTags, List.mem_cons, List.not_mem_nil, or_false] at hhead
    rcases hhead with rfl | rfl | rfl | rfl | rfl | rfl | rfl
    · exact .plain (by decide) rfl
    · exact .plain (by decide) rfl
    · exact .plain (.append (by decide) (spelled_decimal _ _)) rfl
    · exact .plain (.append (by decide) (spelled_decimal _ _)) rfl
    · exact .plain (.append (by decide) (hfixed _ _)) rfl
    · exact .plain (.append (by decide) (hfixed _ _)) rfl
    · exact .map
  · obtain ⟨segment, hsegment, hmem⟩ := List.mem_flatMap.mp hsegments
    simp only [segmentTags, List.mem_append, Option.mem_toList, Option.map_eq_some_iff,
      List.mem_map, List.mem_cons, List.not_mem_nil, or_false] at hmem
    rcases hmem with (⟨ms, -, rfl⟩ | ⟨part, hpart, rfl⟩) | rfl | rfl
    · exact .plain (spelled_dateTimeTag ms) rfl
    · obtain ⟨sp, hsp, hmem⟩ := mem_archivedParts hpart
      exact .archived hsp hmem
    · exact .plain (spelled_extinfTag segment) rfl
    · exact .segment hsegment
  · obtain ⟨part, hpart, rfl⟩ := List.mem_map.mp hparts
    exact .current hpart
  · split at hlast
    · rw [List.mem_singleton.mp hlast]
      exact .plain (by decide) rfl
    · rw [List.mem_singleton.mp hlast]
      exact .hint

/-- Parts and segments have names without anything that ends a line or a string. -/
structure WellNamed (ring : SegmentRing) (llState : LowLatencyState) : Prop where
  current : ∀ part ∈ llState.currentParts, part.uri = LowLatencyState.partUri part.sequence
  archived : ∀ sp ∈ llState.completedSegmentsParts, ∀ part ∈ sp.parts,
    part.uri = LowLatencyState.partUri part.sequence
  segments : ∀ segment ∈ ring.segments, Spelled uriLetters segment.name
  cues : ∀ segment ∈ ring.segments, segment.cueTags = none
  reports : llState.renditionReports = []

theorem MediaTag.solid (h : MediaTag ring llState sessionId l) (hnamed : WellNamed ring llState) :
    '\n' ∉ l ∧ '\r' ∉ l := by
  cases h with
  | plain h => exact ⟨h.not_mem rfl (by decide), h.not_mem rfl (by decide)⟩
  | map => exact ⟨(spelled_mapTag sessionId).not_mem rfl (by decide),
      (spelled_mapTag sessionId).not_mem rfl (by decide)⟩
  | current h =>
    have hspelled := spelled_partTag (hnamed.current _ h)
    exact ⟨hspelled.not_mem rfl (by decide), hspelled.not_mem rfl (by decide)⟩
  | archived h hpart =>
    have hspelled := spelled_partTag (hnamed.archived _ h _ hpart)
    exact ⟨hspelled.not_mem rfl (by decide), hspelled.not_mem rfl (by decide)⟩
  | segment h =>
    have hspelled := spelled_segmentUri (hnamed.segments _ h) sessionId
    exact ⟨hspelled.not_mem rfl (by decide), hspelled.not_mem rfl (by decide)⟩
  | hint => exact ⟨(spelled_preloadHint llState).not_mem rfl (by decide),
      (spelled_preloadHint llState).not_mem rfl (by decide)⟩

/-- The lines of the text are the lines it is made of. -/
theorem lines_buildMediaLl (hnamed : WellNamed ring llState)
    (hsome : ¬(ring.segments = [] ∧ llState.currentParts = [])) (sessionId : Option Nat)
    (concluded : Bool) :
    lines (buildMediaLl ring llState sessionId [] false concluded) =
      mediaTags ring llState sessionId [] concluded := by
  rw [buildMediaLl_eq sessionId [] concluded hsome hnamed.cues hnamed.reports]
  exact lines_newlines fun l hmem => (mediaTag_of_mem hmem).solid hnamed

end Lines

end PlaylistBuilder

end CheetahMedia.Hls
