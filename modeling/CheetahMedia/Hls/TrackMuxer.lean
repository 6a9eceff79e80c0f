import CheetahMedia.Codec.Media
import CheetahMedia.Hls.Playlist
import CheetahMedia.Lib.Checked
import CheetahMedia.Lib.Recency
import CheetahMedia.Lib.Transition

namespace CheetahMedia.Hls
open Lib Lib.Text
open Codec (MediaKind)

structure Fmp4Sample where
  trackId : Nat
  ptsMs : Nat
  dtsMs : Nat
  isKeyframe : Bool
  data : Bytes

structure TrackMuxer where
  lane : TrackLane
  mediaKind : MediaKind
  /-- The samples of the parts that `fmp4_muxer` has written. -/
  written : List (List Fmp4Sample) := []
  llState : LowLatencyState
  pendingPartSamples : List Fmp4Sample := []
  pendingSegmentPartData : List Bytes := []
  segmentStartDtsMs : Option Nat := none
  segmentLastDtsMs : Nat := 0
  lastFrameIntervalMs : Option Nat := none
  prevDtsMs : Option Nat := none
  segmentHasKeyframe : Bool := false
  segmentSeq : Nat := 0
  ring : SegmentRing
  concluded : Bool := false
  partTargetMs : Nat
  wallclockOffsetMs : Option Int := none

inductive TrackMuxerOutput
  | partReady (part : HlsPart)
  | segmentReady (name : Text) (durationSecs : Double)

/-- The arguments of `push_sample`. -/
structure SampleInput where
  dtsMs : Nat
  ptsMs : Nat
  isKeyframe : Bool
  data : Bytes
  segmentDurationMs : Nat
  forceSegmentAfterMs : Nat

namespace TrackMuxer

-- What the fMP4 muxer writes for the last one of these parts.
variable (writePart : List (List Fmp4Sample) → Bytes)

def new (lane : TrackLane) (mediaKind : MediaKind)
    (partTargetMs segmentCount maxCompletedSegments : Nat) : TrackMuxer where
  lane := lane
  mediaKind := mediaKind
  llState := .new partTargetMs maxCompletedSegments
  ring := .new segmentCount
  partTargetMs := partTargetMs

def partDuration (t : TrackMuxer) (first : Fmp4Sample) (rest : List Fmp4Sample) :
    Option Nat → Double
  | some last => secsOfMs (last - first.dtsMs)
  | none =>
    let last := ((first :: rest).getLast?.map (·.dtsMs)).getD first.dtsMs
    let d := secsOfMs (last - first.dtsMs)
    if d ≤ 0 then secsOfMs t.partTargetMs else d

def finalizeCurrentPart (t : TrackMuxer) (endDtsMs : Option Nat) : Option HlsPart × TrackMuxer :=
  match t.pendingPartSamples with
  | [] => (none, t)
  | first :: rest =>
    let durationSecs := t.partDuration first rest endDtsMs
    let written := t.written ++ [first :: rest]
    let data := writePart written
    let (part, llState) := t.llState.finalizePart data durationSecs
    (some part, { t with
      written, llState
      pendingPartSamples := []
      pendingSegmentPartData := t.pendingSegmentPartData ++ [data] })

def segmentName (lane : TrackLane) (seq : Nat) : Text :=
  lane.pre ++ "_seg_".toList ++ decimal seq

def segmentDuration (t : TrackMuxer) (start : Nat) (nextDtsMs : Option Nat) : Nat :=
  let estimate := (t.segmentLastDtsMs - start) + t.lastFrameIntervalMs.getD 33
  match nextDtsMs with
  | some next => if start < next then next - start else estimate
  | none => estimate

/-- The start of the segment is taken also where it has no part. -/
def finalizeSegment (t : TrackMuxer) (nextDtsMs : Option Nat) :
    Option TrackMuxerOutput × TrackMuxer :=
  match t.segmentStartDtsMs with
  | none => (none, t)
  | some start =>
    if t.pendingSegmentPartData = [] then (none, { t with segmentStartDtsMs := none })
    else
      let durationSecs := secsOfMs (t.segmentDuration start nextDtsMs)
      let name := segmentName t.lane t.segmentSeq
      let pdtMs := t.wallclockOffsetMs.map fun offset =>
        Checked.asI64 (Checked.asI64 start + offset)
      (some (.segmentReady name durationSecs), { t with
        segmentStartDtsMs := none
        pendingSegmentPartData := []
        segmentSeq := t.segmentSeq + 1
        ring := t.ring.pushWithPdt name durationSecs t.pendingSegmentPartData.flatten
          t.segmentHasKeyframe pdtMs
        llState := t.llState.onSegmentBoundary (t.segmentSeq + 1)
        pendingPartSamples := []
        segmentHasKeyframe := false })

/-- A part and the segment it closes. -/
def finalizeBoth (t : TrackMuxer) (dtsMs : Option Nat) : List TrackMuxerOutput × TrackMuxer :=
  let (part, t) := t.finalizeCurrentPart writePart dtsMs
  let (segment, t) := t.finalizeSegment dtsMs
  ((part.map TrackMuxerOutput.partReady).toList ++ segment.toList, t)

def shouldCut (t : TrackMuxer) (s : SampleInput) : Bool :=
  match t.segmentStartDtsMs with
  | none => false
  | some start =>
    let elapsed := s.dtsMs - start
    let isVideo := t.mediaKind = .video
    let normalCut := isVideo ∧ s.isKeyframe ∧ s.segmentDurationMs ≤ elapsed
    let forceCut := s.forceSegmentAfterMs ≤ elapsed
    -- Audio has no keyframes to wait for.
    let audioCut := ¬isVideo ∧ s.segmentDurationMs ≤ elapsed ∧ t.pendingPartSamples ≠ []
    normalCut ∨ forceCut ∨ audioCut

/-- A segment starts with its first sample. -/
def noteTiming (t : TrackMuxer) (dtsMs : Nat) (isKeyframe : Bool) : TrackMuxer :=
  let t := match t.segmentStartDtsMs with
    | none => { t with segmentStartDtsMs := some dtsMs, segmentHasKeyframe := false }
    | some _ => t
  { t with
    segmentHasKeyframe := if isKeyframe then true else t.segmentHasKeyframe
    segmentLastDtsMs := dtsMs
    lastFrameIntervalMs := match t.prevDtsMs with
      | some prev => if prev < dtsMs then some (dtsMs - prev) else t.lastFrameIntervalMs
      | none => t.lastFrameIntervalMs
    prevDtsMs := some dtsMs }

def addSample (t : TrackMuxer) (s : SampleInput) : TrackMuxer :=
  { t with
    llState := t.llState.noteSample s.dtsMs s.isKeyframe
    pendingPartSamples := t.pendingPartSamples ++ [⟨1, s.ptsMs, s.dtsMs, s.isKeyframe, s.data⟩] }

def pushSample (t : TrackMuxer) (s : SampleInput) : List TrackMuxerOutput × TrackMuxer :=
  if t.concluded then ([], t)
  else
    let (cut, t) := if t.shouldCut s then t.finalizeBoth writePart (some s.dtsMs) else ([], t)
    let t := t.noteTiming s.dtsMs s.isKeyframe
    let (part, t) :=
      if t.llState.shouldCutPart s.dtsMs then t.finalizeCurrentPart writePart (some s.dtsMs)
      else (none, t)
    (cut ++ (part.map TrackMuxerOutput.partReady).toList, t.addSample s)

def flush (t : TrackMuxer) : List TrackMuxerOutput × TrackMuxer :=
  let (outputs, t) := t.finalizeBoth writePart none
  (outputs, { t with concluded := true })

def getPart (t : TrackMuxer) (seq : Nat) : Option Bytes := (t.llState.getPart seq).map (·.data)

def getSegment (t : TrackMuxer) (name : Text) : Option Bytes := (t.ring.get name).map (·.data)

def isBlockingSatisfied (t : TrackMuxer) (targetMsn : Nat) (targetPart : Option Nat) : Bool :=
  if t.concluded then true
  else
    let currentMsn := t.llState.parentSegmentSeq
    match targetPart with
    | some part =>
      if targetMsn < currentMsn then true
      else if currentMsn = targetMsn then part < t.llState.currentParts.length
      else false
    | none => targetMsn < currentMsn

def setWallclockOffset (t : TrackMuxer) (offsetMs : Int) : TrackMuxer :=
  { t with wallclockOffsetMs := some offsetMs }

inductive Input
  | push (sample : SampleInput)
  | flush

def step : Transition TrackMuxer Input TrackMuxerOutput
  | t, .push sample => let (outputs, t) := t.pushSample writePart sample; some (t, outputs)
  | t, .flush => let (outputs, t) := t.flush writePart; some (t, outputs)

section Outputs

/-- The parts of an output, in order. -/
def partsOf (es : List TrackMuxerOutput) : List HlsPart :=
  es.filterMap fun
    | .partReady part => some part
    | .segmentReady _ _ => none

/-- The parts of a segment, by its number. -/
def segmentParts (es : List TrackMuxerOutput) (msn : Nat) : List HlsPart :=
  (partsOf es).filter (·.segmentSequence = msn)

/-- How many segments are complete. -/
def completeSegments (es : List TrackMuxerOutput) : Nat :=
  es.countP fun
    | .partReady _ => false
    | .segmentReady _ _ => true

@[simp] theorem partsOf_append : partsOf (es ++ fs) = partsOf es ++ partsOf fs :=
  List.filterMap_append

@[simp] theorem partsOf_part : partsOf [.partReady part] = [part] := rfl

@[simp] theorem partsOf_segment : partsOf [.segmentReady name secs] = [] := rfl

@[simp] theorem segmentParts_append :
    segmentParts (es ++ fs) msn = segmentParts es msn ++ segmentParts fs msn := by
  rw [segmentParts, partsOf_append, List.filter_append]
  rfl

@[simp] theorem segmentParts_segment : segmentParts [.segmentReady name secs] msn = [] := rfl

@[simp] theorem completeSegments_append :
    completeSegments (es ++ fs) = completeSegments es + completeSegments fs :=
  List.countP_append

@[simp] theorem completeSegments_part : completeSegments [.partReady part] = 0 := rfl

@[simp] theorem completeSegments_segment : completeSegments [.segmentReady name secs] = 1 := rfl

end Outputs

/-- What holds of a lane and of all it has put out. -/
structure Sound (lane : TrackLane) (segmentCount maxCompleted : Nat) (es : List TrackMuxerOutput)
    (t : TrackMuxer) : Prop where
  lane_eq : t.lane = lane
  segmentSeq : t.segmentSeq = completeSegments es
  parent : t.llState.parentSegmentSeq = completeSegments es
  partSeq : t.llState.partSeq = (partsOf es).length
  numbered : ∀ i (h : i < (partsOf es).length),
    (partsOf es)[i].sequence = i ∧ (partsOf es)[i].uri = LowLatencyState.partUri i
  current : t.llState.currentParts = segmentParts es (completeSegments es)
  /-- There is no part of a segment to come. -/
  begun : ∀ part ∈ partsOf es, part.segmentSequence ≤ completeSegments es
  filled : ∀ msn < completeSegments es, segmentParts es msn ≠ []
  pendingData : t.pendingSegmentPartData = t.llState.currentParts.map (·.data)
  maxCompleted_eq : t.llState.maxCompletedSegments = maxCompleted
  archived : t.llState.completedSegmentsParts =
    (latest maxCompleted (List.range (completeSegments es))).map fun msn =>
      ⟨msn, segmentParts es msn⟩
  reports : t.llState.renditionReports = []
  capacity : t.ring.maxSegments + t.ring.retainExtra = max segmentCount 1
  next : t.ring.nextSequence = completeSegments es
  kept : t.ring.segments.map (·.sequence) =
    latest (max segmentCount 1) (List.range (completeSegments es))
  named : ∀ segment ∈ t.ring.segments,
    segment.name = segmentName lane segment.sequence ∧ segment.cueTags = none

theorem new_sound (lane : TrackLane) (mediaKind : MediaKind)
    (partTargetMs segmentCount maxCompleted : Nat) :
    Sound lane segmentCount maxCompleted []
      (new lane mediaKind partTargetMs segmentCount maxCompleted) where
  lane_eq := rfl
  segmentSeq := rfl
  parent := rfl
  partSeq := rfl
  numbered i h := absurd h (Nat.not_lt_zero i)
  current := rfl
  begun := by simp [partsOf]
  filled msn h := absurd h (Nat.not_lt_zero msn)
  pendingData := rfl
  maxCompleted_eq := rfl
  archived := by simp [latest, completeSegments, new, LowLatencyState.new]
  reports := rfl
  capacity := rfl
  next := rfl
  kept := by simp [latest, completeSegments, new, SegmentRing.new, SegmentRing.withRetain]
  named segment hmem := by simp [new, SegmentRing.new, SegmentRing.withRetain] at hmem

variable {writePart : List (List Fmp4Sample) → Bytes} {lane : TrackLane}
  {segmentCount maxCompleted : Nat} {es : List TrackMuxerOutput} {t u : TrackMuxer}

/-- What a lane keeps of samples and of time does not matter. -/
theorem Sound.of_eq (h : Sound lane segmentCount maxCompleted es t) (hlane : u.lane = t.lane)
    (hseq : u.segmentSeq = t.segmentSeq)
    (hdata : u.pendingSegmentPartData = t.pendingSegmentPartData) (hring : u.ring = t.ring)
    (hll : ∃ start key, u.llState =
      { t.llState with currentPartStartDtsMs := start, currentPartHasKeyframe := key }) :
    Sound lane segmentCount maxCompleted es u := by
  obtain ⟨start, key, hll⟩ := hll
  exact {
    lane_eq := hlane.trans h.lane_eq
    segmentSeq := hseq.trans h.segmentSeq
    parent := by rw [hll]; exact h.parent
    partSeq := by rw [hll]; exact h.partSeq
    numbered := h.numbered
    current := by rw [hll]; exact h.current
    begun := h.begun
    filled := h.filled
    pendingData := by rw [hdata, hll]; exact h.pendingData
    maxCompleted_eq := by rw [hll]; exact h.maxCompleted_eq
    archived := by rw [hll]; exact h.archived
    reports := by rw [hll]; exact h.reports
    capacity := by rw [hring]; exact h.capacity
    next := by rw [hring]; exact h.next
    kept := by rw [hring]; exact h.kept
    named := by rw [hring]; exact h.named }

theorem segmentParts_part (part : HlsPart) (msn : Nat) :
    segmentParts [.partReady part] msn = if part.segmentSequence = msn then [part] else [] := by
  rw [segmentParts, partsOf_part, List.filter_singleton]
  split <;> simp_all

theorem Sound.part (h : Sound lane segmentCount maxCompleted es t) (data : Bytes)
    (durationSecs : Double) (samples : List (List Fmp4Sample)) :
    Sound lane segmentCount maxCompleted (es ++ [.partReady (t.llState.nextPart data durationSecs)])
      { t with
        written := samples
        llState := (t.llState.finalizePart data durationSecs).2
        pendingPartSamples := []
        pendingSegmentPartData := t.pendingSegmentPartData ++ [data] } := by
  have hclosed {msn : Nat} (hmsn : msn < completeSegments es) :
      segmentParts (es ++ [.partReady (t.llState.nextPart data durationSecs)]) msn =
        segmentParts es msn := by
    rw [segmentParts_append, segmentParts_part, if_neg, List.append_nil]
    exact Nat.ne_of_gt (hmsn.trans_eq h.parent.symm)
  exact {
    lane_eq := h.lane_eq
    segmentSeq := by simpa using h.segmentSeq
    parent := by
      rw [completeSegments_append, completeSegments_part]
      exact h.parent
    partSeq := by
      rw [partsOf_append, partsOf_part, List.length_append, List.length_singleton, ← h.partSeq]
      rfl
    numbered := fun i hi => by
      rw [partsOf_append, partsOf_part, List.length_append, List.length_singleton] at hi
      simp only [partsOf_append, partsOf_part]
      rcases Nat.lt_succ_iff_lt_or_eq.mp hi with hlt | rfl
      · simpa only [List.getElem_append_left hlt] using h.numbered i hlt
      · simp only [List.getElem_concat_length, ← h.partSeq]
        exact ⟨rfl, rfl⟩
    current := by
      have hopen : (t.llState.nextPart data durationSecs).segmentSequence = completeSegments es :=
        h.parent
      rw [completeSegments_append, completeSegments_part, Nat.add_zero, segmentParts_append,
        segmentParts_part, if_pos hopen, ← h.current]
      rfl
    begun := fun part hmem => by
      rw [partsOf_append] at hmem
      rw [completeSegments_append, completeSegments_part, Nat.add_zero]
      rcases List.mem_append.mp hmem with hold | hnew
      · exact h.begun part hold
      · rw [List.mem_singleton.mp hnew]
        exact h.parent.le
    filled := fun msn hmsn => by
      rw [completeSegments_append, completeSegments_part, Nat.add_zero] at hmsn
      rw [hclosed hmsn]
      exact h.filled msn hmsn
    pendingData := by
      show _ ++ _ = List.map _ (_ ++ _)
      rw [List.map_append, h.pendingData]
      rfl
    maxCompleted_eq := h.maxCompleted_eq
    archived := by
      rw [completeSegments_append, completeSegments_part, Nat.add_zero]
      refine h.archived.trans (List.map_congr_left fun msn hmem => ?_)
      rw [hclosed (List.mem_range.mp (mem_of_mem_latest hmem))]
    reports := h.reports
    capacity := h.capacity
    next := by simpa using h.next
    kept := by simpa using h.kept
    named := h.named }

theorem Sound.segment (h : Sound lane segmentCount maxCompleted es t) (name : Text)
    (hname : name = segmentName t.lane t.segmentSeq) (secs : Double) (data : Bytes) (key : Bool)
    (pdtMs : Option Int) (hdata : t.pendingSegmentPartData ≠ []) :
    Sound lane segmentCount maxCompleted (es ++ [.segmentReady name secs])
      { t with
        segmentStartDtsMs := none
        pendingSegmentPartData := []
        segmentSeq := t.segmentSeq + 1
        ring := t.ring.pushWithPdt name secs data key pdtMs
        llState := t.llState.onSegmentBoundary (t.segmentSeq + 1)
        pendingPartSamples := []
        segmentHasKeyframe := false } := by
  have hcurrent : t.llState.currentParts ≠ [] := fun hnil =>
    hdata (by rw [h.pendingData, hnil]; rfl)
  have hsame (msn : Nat) :
      segmentParts (es ++ [.segmentReady name secs]) msn = segmentParts es msn := by
    rw [segmentParts_append, segmentParts_segment, List.append_nil]
  have hcount : completeSegments (es ++ [.segmentReady name secs]) = completeSegments es + 1 := by
    rw [completeSegments_append, completeSegments_segment]
  have hbegun : ∀ part ∈ partsOf es, part.segmentSequence ≠ completeSegments es + 1 :=
    fun part hmem => Nat.ne_of_lt (Nat.lt_succ_of_le (h.begun part hmem))
  have harchived {completed : List SegmentParts}
      (hcompleted : completed = t.llState.completedSegmentsParts ++
        [⟨t.llState.parentSegmentSeq, t.llState.currentParts⟩]) :
      (if t.llState.maxCompletedSegments < completed.length then completed.drop 1 else completed) =
        (latest maxCompleted (List.range (completeSegments es + 1))).map fun msn =>
          ⟨msn, segmentParts es msn⟩ := by
    rw [hcompleted, h.archived, h.parent, h.current, h.maxCompleted_eq, map_latest, map_latest,
      latest_concat, List.range_succ, List.map_append]
    rfl
  have hboundary : t.llState.onSegmentBoundary (t.segmentSeq + 1) = { t.llState with
      currentParts := []
      completedSegmentsParts := (latest maxCompleted (List.range (completeSegments es + 1))).map
        fun msn => ⟨msn, segmentParts es msn⟩
      parentSegmentSeq := t.segmentSeq + 1
      currentPartStartDtsMs := none
      currentPartHasKeyframe := false } := by
    rw [LowLatencyState.onSegmentBoundary, if_neg hcurrent]
    simp only [harchived rfl]
  have hsegments : ((t.ring.pushWithPdt name secs data key pdtMs).segments).map (·.sequence) =
      latest (max segmentCount 1) (List.range (completeSegments es + 1)) := by
    have hpush : ((t.ring.pushWithPdt name secs data key pdtMs).segments).map (·.sequence) =
        if max segmentCount 1 < (t.ring.segments.map (·.sequence) ++ [t.ring.nextSequence]).length
        then (t.ring.segments.map (·.sequence) ++ [t.ring.nextSequence]).drop 1
        else t.ring.segments.map (·.sequence) ++ [t.ring.nextSequence] := by
      have hlength : (t.ring.segments ++ [t.ring.nextSegment name secs data key pdtMs]).length =
          (t.ring.segments.map (·.sequence) ++ [t.ring.nextSequence]).length := by simp
      unfold SegmentRing.pushWithPdt
      dsimp only
      rw [h.capacity, hlength]
      split_ifs
      · rw [List.map_drop, List.map_append]
        rfl
      · rw [List.map_append]
        rfl
    rw [hpush, h.kept, h.next, latest_concat, List.range_succ]
  exact {
    lane_eq := h.lane_eq
    segmentSeq := by rw [hcount, ← h.segmentSeq]
    parent := by rw [hcount, hboundary, ← h.segmentSeq]
    partSeq := by rw [hboundary, partsOf_append, partsOf_segment, List.append_nil, ← h.partSeq]
    numbered := by simpa using h.numbered
    current := by
      rw [hboundary, hcount, hsame, segmentParts, List.filter_eq_nil_iff.mpr]
      exact fun part hmem => by simpa using hbegun part hmem
    begun := fun part hmem => by
      rw [partsOf_append, partsOf_segment, List.append_nil] at hmem
      rw [hcount]
      exact Nat.le_succ_of_le (h.begun part hmem)
    filled := fun msn hmsn => by
      rw [hcount] at hmsn
      rw [hsame]
      rcases Nat.lt_succ_iff_lt_or_eq.mp hmsn with hlt | rfl
      · exact h.filled msn hlt
      · rwa [← h.current]
    pendingData := by rw [hboundary]; rfl
    maxCompleted_eq := by rw [hboundary]; exact h.maxCompleted_eq
    archived := by
      rw [hboundary, hcount]
      exact List.map_congr_left fun msn _ => by rw [hsame]
    reports := by rw [hboundary]; exact h.reports
    capacity := h.capacity
    next := by rw [hcount, ← h.next]; rfl
    kept := by rw [hcount]; exact hsegments
    named := fun segment hmem => by
      have hmem : segment ∈ t.ring.segments ++ [t.ring.nextSegment name secs data key pdtMs] := by
        simp only [SegmentRing.pushWithPdt] at hmem
        split at hmem
        · exact List.mem_of_mem_drop hmem
        · exact hmem
      rcases List.mem_append.mp hmem with hold | hnew
      · exact h.named segment hold
      · rw [List.mem_singleton.mp hnew]
        exact ⟨by rw [hname, h.lane_eq, h.segmentSeq, ← h.next]; rfl, rfl⟩ }

theorem Sound.finalizeCurrentPart (h : Sound lane segmentCount maxCompleted es t)
    (endDtsMs : Option Nat) :
    Sound lane segmentCount maxCompleted
      (es ++ ((t.finalizeCurrentPart writePart endDtsMs).1.map
        TrackMuxerOutput.partReady).toList)
      (t.finalizeCurrentPart writePart endDtsMs).2 := by
  unfold TrackMuxer.finalizeCurrentPart
  split
  · exact (List.append_nil es).symm ▸ h
  · exact h.part _ _ _

theorem Sound.finalizeSegment (h : Sound lane segmentCount maxCompleted es t)
    (nextDtsMs : Option Nat) :
    Sound lane segmentCount maxCompleted (es ++ (t.finalizeSegment nextDtsMs).1.toList)
      (t.finalizeSegment nextDtsMs).2 := by
  unfold TrackMuxer.finalizeSegment
  split
  · exact (List.append_nil es).symm ▸ h
  · split_ifs with hdata
    · rw [Option.toList_none, List.append_nil]
      exact h.of_eq rfl rfl rfl rfl ⟨_, _, rfl⟩
    · exact h.segment _ rfl _ _ _ _ hdata

theorem Sound.finalizeBoth (h : Sound lane segmentCount maxCompleted es t) (dtsMs : Option Nat) :
    Sound lane segmentCount maxCompleted (es ++ (t.finalizeBoth writePart dtsMs).1)
      (t.finalizeBoth writePart dtsMs).2 := by
  unfold TrackMuxer.finalizeBoth
  rw [← List.append_assoc]
  exact (h.finalizeCurrentPart dtsMs).finalizeSegment dtsMs

theorem Sound.noteTiming (h : Sound lane segmentCount maxCompleted es t) (dtsMs : Nat)
    (isKeyframe : Bool) :
    Sound lane segmentCount maxCompleted es (t.noteTiming dtsMs isKeyframe) := by
  unfold TrackMuxer.noteTiming
  cases t.segmentStartDtsMs <;> exact h.of_eq rfl rfl rfl rfl ⟨_, _, rfl⟩

theorem Sound.addSample (h : Sound lane segmentCount maxCompleted es t) (s : SampleInput) :
    Sound lane segmentCount maxCompleted es (t.addSample s) := by
  refine h.of_eq rfl rfl rfl rfl ?_
  unfold TrackMuxer.addSample LowLatencyState.noteSample
  split
  · exact ⟨_, _, rfl⟩
  · exact ⟨_, _, rfl⟩

theorem Sound.pushSample (h : Sound lane segmentCount maxCompleted es t) (s : SampleInput) :
    Sound lane segmentCount maxCompleted (es ++ (t.pushSample writePart s).1)
      (t.pushSample writePart s).2 := by
  unfold TrackMuxer.pushSample
  by_cases hconcluded : t.concluded
  · rw [if_pos hconcluded]
    exact (List.append_nil es).symm ▸ h
  rw [if_neg hconcluded]
  have hcut : Sound lane segmentCount maxCompleted
      (es ++ (if t.shouldCut s then t.finalizeBoth writePart (some s.dtsMs) else ([], t)).1)
      (if t.shouldCut s then t.finalizeBoth writePart (some s.dtsMs) else ([], t)).2 := by
    split_ifs
    · exact h.finalizeBoth _
    · exact (List.append_nil es).symm ▸ h
  generalize (if t.shouldCut s then t.finalizeBoth writePart (some s.dtsMs) else ([], t)) = r
    at hcut ⊢
  obtain ⟨cut, u⟩ := r
  have htimed := hcut.noteTiming s.dtsMs s.isKeyframe
  dsimp only
  rw [← List.append_assoc]
  refine Sound.addSample ?_ s
  split_ifs
  · exact htimed.finalizeCurrentPart _
  · exact (List.append_nil (es ++ cut)).symm ▸ htimed

theorem Sound.flush (h : Sound lane segmentCount maxCompleted es t) :
    Sound lane segmentCount maxCompleted (es ++ (t.flush writePart).1) (t.flush writePart).2 :=
  (h.finalizeBoth none).of_eq rfl rfl rfl rfl ⟨_, _, rfl⟩

theorem Sound.step (h : Sound lane segmentCount maxCompleted es t)
    (hstep : TrackMuxer.step writePart t input = some (u, fs)) :
    Sound lane segmentCount maxCompleted (es ++ fs) u := by
  cases input with
  | push s =>
    cases hstep
    exact h.pushSample s
  | flush =>
    cases hstep
    exact h.flush

theorem Sound.run (h : Sound lane segmentCount maxCompleted es t)
    (hrun : Transition.run (TrackMuxer.step writePart) t inputs = some (u, fs)) :
    Sound lane segmentCount maxCompleted (es ++ fs) u :=
  Transition.run_traced (Sound lane segmentCount maxCompleted) (fun _ _ _ _ _ h _ hs => h.step hs)
    es h Transition.along_true hrun

/-- A lane that is concluded stays so. -/
theorem step_concluded (hstep : TrackMuxer.step writePart t input = some (u, fs))
    (h : t.concluded = true) : u.concluded = true := by
  cases input with
  | push s =>
    obtain rfl : (t.pushSample writePart s).2 = u := congrArg Prod.fst (Option.some.inj hstep)
    have hsame : t.pushSample writePart s = ([], t) := if_pos h
    rw [hsame]
    exact h
  | flush =>
    cases hstep
    rfl

section Blocking

/-- The lane has put out what a request asks for, or something after it. -/
def Reached (es : List TrackMuxerOutput) (msn : Nat) : Option Nat → Prop
  | some part => msn < completeSegments es ∨
      msn = completeSegments es ∧ part < (segmentParts es msn).length
  | none => msn < completeSegments es

theorem Sound.isBlockingSatisfied_iff (h : Sound lane segmentCount maxCompleted es t) (msn : Nat)
    (part : Option Nat) :
    t.isBlockingSatisfied msn part = true ↔ t.concluded = true ∨ Reached es msn part := by
  unfold TrackMuxer.isBlockingSatisfied Reached
  by_cases hconcluded : t.concluded
  · simp [hconcluded]
  cases part with
  | none => simp [hconcluded, h.parent]
  | some part =>
    rw [if_neg hconcluded, h.parent, h.current]
    rcases Nat.lt_trichotomy msn (completeSegments es) with hlt | rfl | hgt
    · simp [hlt]
    · simp [hconcluded]
    · simp [hconcluded, Nat.not_lt.mpr hgt.le, Nat.ne_of_lt hgt, Nat.ne_of_gt hgt]

theorem Reached.append (h : Reached es msn part) (fs : List TrackMuxerOutput) :
    Reached (es ++ fs) msn part := by
  cases part with
  | none => exact Nat.lt_of_lt_of_le h (by rw [completeSegments_append]; omega)
  | some part =>
    unfold Reached at *
    rw [completeSegments_append, segmentParts_append, List.length_append]
    omega

/-- What is satisfied stays satisfied. -/
theorem Sound.isBlockingSatisfied_run (h : Sound lane segmentCount maxCompleted es t)
    (hrun : Transition.run (TrackMuxer.step writePart) t inputs = some (u, fs))
    (hsatisfied : t.isBlockingSatisfied msn target = true) :
    u.isBlockingSatisfied msn target = true := by
  rw [(h.run hrun).isBlockingSatisfied_iff]
  rcases (h.isBlockingSatisfied_iff msn target).mp hsatisfied with hconcluded | hreached
  · exact .inl (Transition.run_invariant (fun t => t.concluded = true)
      (fun _ _ _ _ h _ hs => step_concluded hs h) hconcluded Transition.along_true hrun)
  · exact .inr (hreached.append fs)

end Blocking

end TrackMuxer

end CheetahMedia.Hls
