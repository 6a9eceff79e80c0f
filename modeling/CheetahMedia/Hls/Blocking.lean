import CheetahMedia.Hls.DemuxedMuxer

namespace CheetahMedia.Hls
open Lib Lib.Text PlaylistBuilder

namespace TrackMuxer

variable {writePart : List (List Fmp4Sample) → Bytes} {lane : TrackLane}
  {segmentCount maxCompleted : Nat} {es : List TrackMuxerOutput} {t : TrackMuxer}

theorem Sound.uri_eq (h : Sound lane segmentCount maxCompleted es t)
    (hmem : p ∈ segmentParts es msn) : p.uri = LowLatencyState.partUri p.sequence := by
  obtain ⟨i, hi, rfl⟩ := List.getElem_of_mem (List.mem_of_mem_filter hmem)
  obtain ⟨hsequence, huri⟩ := h.numbered i hi
  rw [huri, hsequence]

theorem Sound.archived_eq (h : Sound lane segmentCount maxCompleted es t)
    (hsp : sp ∈ t.llState.completedSegmentsParts) :
    sp.parts = segmentParts es sp.segmentSequence := by
  rw [h.archived] at hsp
  obtain ⟨msn, -, rfl⟩ := List.mem_map.mp hsp
  rfl

theorem spelled_segmentName (lane : TrackLane) (seq : Nat) :
    Spelled uriLetters (segmentName lane seq) := by
  have hlane : Spelled uriLetters lane.pre := by cases lane <;> decide
  exact (hlane.append (by decide)).append (spelled_decimal _ seq)

theorem Sound.wellNamed (h : Sound lane segmentCount maxCompleted es t) :
    WellNamed t.ring t.llState where
  current p hmem := h.uri_eq (h.current ▸ hmem)
  archived sp hsp p hmem := h.uri_eq (h.archived_eq hsp ▸ hmem)
  segments segment hmem := by
    rw [(h.named segment hmem).1]
    exact spelled_segmentName _ _
  cues segment hmem := (h.named segment hmem).2
  reports := h.reports

/-- The segment that was completed last is in the ring. -/
theorem Sound.last_segment (h : Sound lane segmentCount maxCompleted es t)
    (hsome : completeSegments es = n + 1) : ∃ segment ∈ t.ring.segments, segment.sequence = n := by
  have hmem : n ∈ t.ring.segments.map (·.sequence) := by
    rw [h.kept, hsome, List.range_succ]
    exact mem_latest_concat (Nat.le_max_right _ _) _ _
  exact List.mem_map.mp hmem

/-- And its parts are kept. -/
theorem Sound.last_archived (h : Sound lane segmentCount maxCompleted es t)
    (hmax : 1 ≤ maxCompleted) (hsome : completeSegments es = n + 1) {segment : Segment}
    (hsequence : segment.sequence = n) :
    archivedParts t.llState segment = segmentParts es n := by
  have hmem : ⟨n, segmentParts es n⟩ ∈ t.llState.completedSegmentsParts := by
    rw [h.archived, hsome, List.range_succ]
    exact List.mem_map_of_mem (f := fun msn => SegmentParts.mk msn (segmentParts es msn))
      (mem_latest_concat hmax _ n)
  unfold archivedParts
  cases hfind : t.llState.completedSegmentsParts.find? (·.segmentSequence = segment.sequence) with
  | none => exact absurd hsequence.symm (by simpa using List.find?_eq_none.mp hfind _ hmem)
  | some sp =>
    have hnumber : sp.segmentSequence = segment.sequence := by simpa using List.find?_some hfind
    exact (h.archived_eq (List.mem_of_find?_eq_some hfind)).trans (by rw [hnumber, hsequence])

/-- The playlist with parts that is built from a lane. -/
def mediaPlaylist (t : TrackMuxer) (sessionId : Option Nat) (concluded : Bool) : Text :=
  buildMediaLl t.ring t.llState sessionId [] false concluded

theorem Sound.lists_current (h : Sound lane segmentCount maxCompleted es t)
    (hmem : p ∈ segmentParts es (completeSegments es)) (sessionId : Option Nat) (concluded : Bool) :
    LowLatencyState.partTag [] p ∈ lines (t.mediaPlaylist sessionId concluded) := by
  rw [← h.current] at hmem
  have hsome : ¬(t.ring.segments = [] ∧ t.llState.currentParts = []) := fun hnil =>
    List.ne_nil_of_mem hmem hnil.2
  rw [mediaPlaylist, lines_buildMediaLl h.wellNamed hsome, mediaTags]
  exact List.mem_append_left _ (List.mem_append_right _ (List.mem_map_of_mem hmem))

theorem Sound.lists_segment (h : Sound lane segmentCount maxCompleted es t) {segment : Segment}
    (hsegment : segment ∈ t.ring.segments) (sessionId : Option Nat) (concluded : Bool)
    (htag : l ∈ segmentTags t.llState sessionId [] segment) :
    l ∈ lines (t.mediaPlaylist sessionId concluded) := by
  have hsome : ¬(t.ring.segments = [] ∧ t.llState.currentParts = []) := fun hnil =>
    List.ne_nil_of_mem hsegment hnil.1
  rw [mediaPlaylist, lines_buildMediaLl h.wellNamed hsome, mediaTags]
  exact List.mem_append_left _ (List.mem_append_left _
    (List.mem_append_right _ (List.mem_flatMap.mpr ⟨segment, hsegment, htag⟩)))

/-- A playlist with the last segment lists it, behind its parts. -/
theorem Sound.lists_last (h : Sound lane segmentCount maxCompleted es t) (hmax : 1 ≤ maxCompleted)
    (hsome : completeSegments es = n + 1) (sessionId : Option Nat) (concluded : Bool) :
    (∃ segment ∈ t.ring.segments, segment.sequence = n ∧
      segmentUri sessionId [] segment ∈ lines (t.mediaPlaylist sessionId concluded)) ∧
    ∀ p ∈ segmentParts es n,
      LowLatencyState.partTag [] p ∈ lines (t.mediaPlaylist sessionId concluded) := by
  obtain ⟨segment, hsegment, hsequence⟩ := h.last_segment hsome
  have hlists (l : Text) (htag : l ∈ segmentTags t.llState sessionId [] segment) :
      l ∈ lines (t.mediaPlaylist sessionId concluded) :=
    h.lists_segment hsegment sessionId concluded htag
  refine ⟨⟨segment, hsegment, hsequence, hlists _ (by simp [segmentTags])⟩, fun p hmem => ?_⟩
  rw [← h.last_archived hmax hsome hsequence] at hmem
  exact hlists _ (List.mem_append_left _ (List.mem_append_right _ (List.mem_map_of_mem hmem)))

/-- What a request for a part is answered with when it does not have to wait: a playlist with that
part or a later one, or with the segment that ended before the part. -/
theorem Sound.lists_part (h : Sound lane segmentCount maxCompleted es t) (hmax : 1 ≤ maxCompleted)
    (hreached : Reached es msn (some target)) (sessionId : Option Nat) (concluded : Bool) :
    (∃ later i p, (msn < later ∨ msn = later ∧ target ≤ i) ∧
      (segmentParts es later)[i]? = some p ∧
      LowLatencyState.partTag [] p ∈ lines (t.mediaPlaylist sessionId concluded)) ∨
    (segmentParts es msn).length ≤ target ∧ ∃ segment ∈ t.ring.segments, segment.sequence = msn ∧
      segmentUri sessionId [] segment ∈ lines (t.mediaPlaylist sessionId concluded) := by
  have hlast {ps : List HlsPart} (hne : ps ≠ []) :
      ∃ p ∈ ps, ps[ps.length - 1]? = some p :=
    ⟨ps.getLast hne, List.getLast_mem hne, by rw [← List.getLast?_eq_getElem?,
      List.getLast?_eq_some_getLast hne]⟩
  by_cases hopen : segmentParts es (completeSegments es) = []
  · -- The open segment has no part yet.
    have hlt : msn < completeSegments es := by
      rcases hreached with hlt | ⟨rfl, htarget⟩
      · exact hlt
      · rw [hopen] at htarget
        exact absurd htarget (Nat.not_lt_zero target)
    obtain ⟨n, hn⟩ : ∃ n, completeSegments es = n + 1 := ⟨completeSegments es - 1, by omega⟩
    obtain ⟨hsegment, hparts⟩ := h.lists_last hmax hn sessionId concluded
    obtain ⟨p, hmem, hp⟩ := hlast (h.filled n (by omega))
    by_cases hpast : msn = n ∧ (segmentParts es n).length ≤ target
    · obtain ⟨rfl, hpast⟩ := hpast
      exact .inr ⟨hpast, hsegment⟩
    · exact .inl ⟨n, _, p, by omega, hp, hparts p hmem⟩
  · obtain ⟨p, hmem, hp⟩ := hlast hopen
    refine .inl ⟨completeSegments es, _, p, ?_, hp, h.lists_current hmem sessionId concluded⟩
    rcases hreached with hlt | ⟨heq, htarget⟩
    · exact .inl hlt
    · exact .inr ⟨heq, by rw [heq] at htarget; omega⟩

end TrackMuxer

/-- A request that is satisfied stays so; of the open segment and of later ones it is satisfied
only for parts that are there; and then, before the end of the stream, the playlist has the part or
a later one, or, for a number past the last part of the segment before the open one, that segment.
The part that is reported of another lane is there if its open segment has a part. -/
theorem blocking_agrees (writePart : List (List Fmp4Sample) → Bytes) :
    (∀ lane kind target segmentCount maxCompleted inputs t es, 1 ≤ maxCompleted →
      Transition.run (TrackMuxer.step writePart)
        (.new lane kind target segmentCount maxCompleted) inputs = some (t, es) →
      (∀ more u fs, Transition.run (TrackMuxer.step writePart) t more = some (u, fs) →
        ∀ msn part, t.isBlockingSatisfied msn part = true →
          u.isBlockingSatisfied msn part = true) ∧
      (t.concluded = false → ∀ msn, TrackMuxer.completeSegments es ≤ msn →
        t.isBlockingSatisfied msn none = false ∧
        ∀ part, (TrackMuxer.segmentParts es msn).length ≤ part →
          t.isBlockingSatisfied msn (some part) = false) ∧
      (t.concluded = false → ∀ sessionId msn,
        (t.isBlockingSatisfied msn none = true → ∃ segment ∈ t.ring.segments,
          msn ≤ segment.sequence ∧
          segmentUri sessionId [] segment ∈ lines (t.mediaPlaylist sessionId false)) ∧
        ∀ part, t.isBlockingSatisfied msn (some part) = true →
          (∃ later i p, (msn < later ∨ msn = later ∧ part ≤ i) ∧
            (TrackMuxer.segmentParts es later)[i]? = some p ∧
            LowLatencyState.partTag [] p ∈ lines (t.mediaPlaylist sessionId false)) ∨
          (TrackMuxer.segmentParts es msn).length ≤ part ∧ ∃ segment ∈ t.ring.segments,
            segment.sequence = msn ∧
            segmentUri sessionId [] segment ∈ lines (t.mediaPlaylist sessionId false))) ∧
    ∀ config inputs m out, Transition.run (DemuxedStreamMuxer.step writePart)
      (.new config) inputs = some (m, out) →
      ∀ lane t msn part, m.lane lane = some t → m.renditionState lane = some (msn, part) →
        t.llState.currentParts ≠ [] → t.isBlockingSatisfied msn (some part) = true := by
  refine ⟨fun lane kind target segmentCount maxCompleted inputs t es hmax hrun => ?_,
    fun config inputs m out _ lane t msn part hlane hreport hparts => ?_⟩
  · have hsound := (TrackMuxer.new_sound lane kind target segmentCount maxCompleted).run hrun
    rw [List.nil_append] at hsound
    have hiff (hopen : t.concluded = false) (msn : Nat) (part : Option Nat) :
        t.isBlockingSatisfied msn part = true ↔ TrackMuxer.Reached es msn part := by
      rw [hsound.isBlockingSatisfied_iff, hopen]
      simp
    refine ⟨fun more u fs hmore msn part hsatisfied =>
      hsound.isBlockingSatisfied_run hmore hsatisfied, fun hopen msn hmsn => ?_,
      fun hopen sessionId msn => ⟨fun hsatisfied => ?_, fun part hsatisfied => ?_⟩⟩
    · simp only [← Bool.not_eq_true, hiff hopen, TrackMuxer.Reached]
      exact ⟨by omega, fun part hpart => by
        rintro (hlt | ⟨rfl, hlt⟩) <;> omega⟩
    · have hlt : msn < TrackMuxer.completeSegments es := (hiff hopen msn none).mp hsatisfied
      obtain ⟨⟨segment, hsegment, hsequence, hlisted⟩, -⟩ :=
        hsound.lists_last (n := TrackMuxer.completeSegments es - 1) hmax (by omega) sessionId false
      exact ⟨segment, hsegment, by omega, hlisted⟩
    · exact hsound.lists_part hmax ((hiff hopen msn (some part)).mp hsatisfied) sessionId false
  · rw [DemuxedStreamMuxer.renditionState, hlane] at hreport
    have hpos := List.length_pos_iff.mpr hparts
    simp only [Option.map_some, Option.some.injEq, Prod.mk.injEq, if_pos hpos] at hreport
    obtain ⟨rfl, rfl⟩ := hreport
    unfold TrackMuxer.isBlockingSatisfied
    split
    · rfl
    · simpa using hpos

/-- A key frame at this time, in segments of two seconds. -/
def keyFrame (dtsMs : Nat) : TrackMuxer.Input := .push ⟨dtsMs, dtsMs, true, [], 2000, 10000⟩

theorem blocking_agrees_live : ∃ t es,
    Transition.run (TrackMuxer.step fun _ => []) (.new .video .video 200 5 7)
      [keyFrame 0, keyFrame 2000, keyFrame 2200] = some (t, es) ∧
    t.isBlockingSatisfied 1 (some 0) = true ∧ t.isBlockingSatisfied 1 (some 1) = false := by
  obtain ⟨⟨t, es⟩, hrun⟩ : ∃ r, Transition.run (TrackMuxer.step fun _ => [])
      (.new .video .video 200 5 7) [keyFrame 0, keyFrame 2000, keyFrame 2200] = some r :=
    Option.isSome_iff_exists.mp (by decide +kernel)
  have hlive : (Transition.run (TrackMuxer.step fun _ => [])
      (.new .video .video 200 5 7) [keyFrame 0, keyFrame 2000, keyFrame 2200]).map (fun r =>
        (r.1.concluded, r.1.isBlockingSatisfied 1 (some 0), TrackMuxer.completeSegments r.2,
          (TrackMuxer.segmentParts r.2 1).length)) = some (false, true, 1, 1) := by
    decide +kernel
  rw [hrun] at hlive
  simp only [Option.map_some, Option.some.injEq, Prod.mk.injEq] at hlive
  obtain ⟨hopen, hsatisfied, hsegments, hparts⟩ := hlive
  have hagrees := (blocking_agrees fun _ => []).1 _ _ _ _ _ _ _ _ (by decide) hrun
  exact ⟨t, es, hrun, hsatisfied, (hagrees.2.1 hopen 1 hsegments.le).2 1 hparts.le⟩

/-- A lane without any part is satisfied with everything when it is concluded. A part past the end
of a segment is satisfied when the next segment is open, and no part of that or a later number is
listed. And of a lane without a part, part 0 is reported. -/
theorem blocking_disagrees :
    ((Transition.run (TrackMuxer.step fun _ => []) (.new .video .video 200 5 7) [.flush]).map
      fun r => (r.1.isBlockingSatisfied 0 (some 0), r.1.mediaPlaylist none true)) =
        some (true, buildEmptyMedia .fmp4) ∧
    ((Transition.run (TrackMuxer.step fun _ => []) (.new .video .video 200 5 7)
      [keyFrame 0, keyFrame 2000]).map fun r => (r.1.concluded,
        r.1.isBlockingSatisfied 0 (some 9),
        (lines (r.1.mediaPlaylist none false)).filter ("#EXT-X-PART:".toList.isPrefixOf ·))) =
      some (false, true,
        ["#EXT-X-PART:DURATION=2.000,URI=\"part_0.m4s\",INDEPENDENT=YES".toList]) ∧
    ((Transition.run (DemuxedStreamMuxer.step fun _ => []) (.new ⟨2000, 5, 10000, 200, 7⟩)
      [.setTracks [{ mediaKind := .video, codec := .h264 }, { mediaKind := .audio, codec := .aac }],
        .pushFrame ⟨.video, false, false, true, 0, 0, []⟩ 0]).map fun r =>
      (r.1.renditionState .audio, r.1.audio.map (·.isBlockingSatisfied 0 (some 0)))) =
      some (some (0, 0), some false) := by
  refine ⟨?_, ?_, ?_⟩ <;> decide +kernel

end CheetahMedia.Hls
