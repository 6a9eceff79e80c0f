import CheetahMedia.Codec.Ts.Safety

namespace CheetahMedia.Codec
open Lib Checked

def framesOf (events : List MpegTsDemuxEvent) : List AVFrame :=
  events.filterMap fun
    | .frame frame => some frame
    | _ => none

@[simp] theorem framesOf_nil : framesOf [] = [] := rfl

@[simp] theorem framesOf_append (a b : List MpegTsDemuxEvent) :
    framesOf (a ++ b) = framesOf a ++ framesOf b := List.filterMap_append

@[simp] theorem framesOf_frame (frame : AVFrame) (events : List MpegTsDemuxEvent) :
    framesOf (.frame frame :: events) = frame :: framesOf events := rfl

@[simp] theorem framesOf_trackFound (track : TrackInfo) (events : List MpegTsDemuxEvent) :
    framesOf (.trackFound track :: events) = framesOf events := rfl

@[simp] theorem framesOf_diagnostic (d : MpegTsDemuxDiagnostic) (events : List MpegTsDemuxEvent) :
    framesOf (.diagnostic d :: events) = framesOf events := rfl

@[simp] theorem framesOf_if (found : Prop) [Decidable found] (track : TrackInfo) :
    framesOf (if found then [.trackFound track] else []) = [] := by
  split <;> rfl

/-- The frames of a PES with these times: the first one has them, and the others begin as much
later on one clock as on the other. -/
structure Timed (pts dts : Int) (frames : List AVFrame) : Prop where
  first : ∀ frame ∈ frames.head?, frame.pts = pts ∧ frame.dts = dts
  later : ∀ frame ∈ frames, ∃ later : Nat, frame.pts = pts + later ∧ frame.dts = dts + later

theorem Timed.nil : Timed pts dts [] where
  first frame h := by cases h
  later frame h := by cases h

/-- Where there is a frame, its microseconds can be counted. -/
structure Counted (pts dts : Int) (frames : List AVFrame) : Prop extends Timed pts dts frames where
  fits : frames ≠ [] → IsI64 (pts * 100) ∧ IsI64 (dts * 100)

theorem Counted.nil : Counted pts dts [] := ⟨.nil, fun h => absurd rfl h⟩

theorem Timed.single (hpts : frame.pts = pts) (hdts : frame.dts = dts) :
    Timed pts dts [frame] := by
  refine ⟨?_, ?_⟩
  · rintro _ ⟨⟩
    exact ⟨hpts, hdts⟩
  · intro f hf
    obtain rfl := List.mem_singleton.mp hf
    exact ⟨0, by simpa using hpts, by simpa using hdts⟩

namespace DemuxTrackState
variable {allow : Panic → Prop} {t t' : DemuxTrackState}

/-- A frame of the track, whose times fit in microseconds. -/
structure Shows (t : DemuxTrackState) (pts dts : Int) (data : Bytes) (frame : AVFrame) : Prop where
  ptsFits : IsI64 (pts * 100)
  dtsFits : IsI64 (dts * 100)
  trackId : frame.trackId = t.trackId
  pts : frame.pts = pts
  dts : frame.dts = dts
  payload : frame.payload = data

theorem Shows.counted {pts dts : Int} {f shown : AVFrame} (h : t.Shows pts dts data shown)
    (hpts : f.pts = shown.pts) (hdts : f.dts = shown.dts) : Counted pts dts [f] :=
  ⟨.single (hpts.trans h.pts) (hdts.trans h.dts), fun _ => ⟨h.ptsFits, h.dtsFits⟩⟩

theorem frame_shows (hpts : allow .overflow ∨ IsI64 (pts * 100))
    (hdts : allow .overflow ∨ IsI64 (dts * 100)) :
    Yields allow (t.frame format pts dts data) (t.Shows pts dts data) := by
  unfold frame i64
  split
  · rename_i hpts'
    rw [ok_bind]
    split
    · rename_i hdts'
      exact .pure ⟨hpts', hdts', rfl, rfl, rfl, rfl⟩
    · rename_i hdts'
      exact .error (hdts.resolve_right hdts')
  · rename_i hpts'
    exact .error (hpts.resolve_right hpts')

/-- What the frames of a PES leave alone. -/
structure SameClock (t t' : DemuxTrackState) : Prop where
  offset : t'.ptsWrapOffset = t.ptsWrapOffset
  lastRaw : t'.lastRawPts = t.lastRawPts

theorem SameClock.refl : SameClock t t := ⟨rfl, rfl⟩

theorem SameClock.trans (h : SameClock t t') (h' : SameClock t' t'') : SameClock t t'' :=
  ⟨h'.offset.trans h.offset, h'.lastRaw.trans h.lastRaw⟩

theorem buildSingleFrameEvent_times (hany : allow .overflow) :
    Yields allow (t.buildSingleFrameEvent data format pts dts) fun r =>
      SameClock t r.1 ∧ Counted pts dts (framesOf r.2) := by
  unfold buildSingleFrameEvent
  split
  rename_i t' found heq
  have hclock : SameClock t t' := by
    split at heq
    · cases heq
      exact ⟨rfl, rfl⟩
    · split at heq
      · cases heq
        exact ⟨rfl, rfl⟩
      · cases heq
        exact .refl
  refine (frame_shows (.inl hany) (.inl hany)).bind fun frame hframe => .pure ⟨hclock, ?_⟩
  simp only [framesOf_append, framesOf_if, framesOf_frame, framesOf_nil, List.nil_append]
  split
  · exact hframe.counted rfl rfl
  · exact hframe.counted rfl rfl

/-- The time of a PES of which `idx` frames have been shown, each with a time that fits. -/
def Near (time : Int) (idx : Nat) : Prop :=
  IsI64 time ∧ (idx = 0 ∨ IsI64 (time * 100) ∧ 960 * idx ≤ 184467440737096478)

theorem Near.fits (h : Near time (idx + 1)) : IsI64 (time * 100) :=
  (h.2.resolve_left (Nat.succ_ne_zero idx)).1

theorem Near.zero (h : IsI64 time) : Near time 0 := ⟨h, .inl rfl⟩

/-- So few frames cannot have gone around the words of 64 bits. -/
theorem Near.word (h : Near time idx) (hle : n ≤ 12538 * idx) :
    asI64 (asU64 time + n : Nat) = time + n := by
  have hcast : ((asU64 time + n : Nat) : Int) = time % 18446744073709551616 + n := by
    unfold asU64
    omega
  have hsum : IsI64 (time + n) := by
    obtain ⟨htime, rfl | ⟨hfits, hidx⟩⟩ := h
    · obtain rfl : n = 0 := by omega
      simpa using htime
    · unfold IsI64 I64_MIN I64_MAX at *
      omega
  calc asI64 (asU64 time + n : Nat) = asI64 (time + n) := by
        unfold asI64
        rw [hcast]
        exact Int.emod_add_bmod time _
    _ = time + n := asI64_of_isI64 hsum

theorem Near.next (h : Near time idx) (hge : 960 * idx ≤ n) (hle : n ≤ 12538 * idx)
    (hfits : IsI64 ((time + n) * 100)) : Near time (idx + 1) := by
  obtain ⟨htime, rfl | ⟨hscaled, hidx⟩⟩ := h
  · obtain rfl : n = 0 := by omega
    exact ⟨htime, .inr ⟨by simpa using hfits, by decide⟩⟩
  · refine ⟨htime, .inr ⟨hscaled, ?_⟩⟩
    unfold IsI64 I64_MIN I64_MAX at *
    omega

theorem aacDuration_ge (hindex : index ≤ 12) :
    960 ≤ (if aacSampleRate index > 0 then 1024 * 90000 / aacSampleRate index else 0) := by
  have hall : ∀ i : Fin 13, 960 ≤ (if aacSampleRate (UInt8.ofNat i) > 0 then
      1024 * 90000 / aacSampleRate (UInt8.ofNat i) else 0) := by decide +kernel
  have hi := hall ⟨index.toNat, Nat.lt_succ_of_le (UInt8.le_iff_toNat_le.mp hindex)⟩
  rwa [UInt8.ofNat_toNat] at hi

/-- The frames of an ADTS payload from the one after `frameIdx` others on. -/
structure Run (pts dts : Int) (frameIdx : Nat) (frames : List AVFrame) : Prop where
  first : frameIdx = 0 → Timed pts dts frames
  later : ∀ frame ∈ frames, ∃ later : Nat, frame.pts = pts + later ∧ frame.dts = dts + later
  fits : frames ≠ [] → IsI64 (pts * 100) ∧ IsI64 (dts * 100)

theorem Run.nil : Run pts dts frameIdx [] where
  first _ := .nil
  later frame h := by cases h
  fits h := absurd rfl h

theorem Run.single (h : Counted pts dts [f]) : Run pts dts frameIdx [f] :=
  ⟨fun _ => h.toTimed, h.later, h.fits⟩

theorem Run.cons (h : Run pts dts (frameIdx + 1) frames) (hpts : Near pts (frameIdx + 1))
    (hdts : Near dts (frameIdx + 1)) (hptsEq : f.pts = pts + (frameIdx * duration : Nat))
    (hdtsEq : f.dts = dts + (frameIdx * duration : Nat)) :
    Run pts dts frameIdx (f :: frames) := by
  have hall : ∀ g ∈ f :: frames, ∃ later : Nat, g.pts = pts + later ∧ g.dts = dts + later := by
    intro g hg
    rcases List.mem_cons.mp hg with rfl | hg
    · exact ⟨frameIdx * duration, hptsEq, hdtsEq⟩
    · exact h.later g hg
  refine ⟨?_, hall, fun _ => ⟨hpts.fits, hdts.fits⟩⟩
  rintro rfl
  refine ⟨?_, hall⟩
  rintro _ ⟨⟩
  exact ⟨by simpa using hptsEq, by simpa using hdtsEq⟩

theorem splitAacAdtsFramesWithin_times (passes : Nat) (t : DemuxTrackState)
    (hany : allow .overflow) (hpts : Near pts frameIdx) (hdts : Near dts frameIdx)
    (hzero : offset = 0 → frameIdx = 0) :
    Yields allow (splitAacAdtsFramesWithin payload pts dts passes t offset frameIdx) fun r =>
      SameClock t r.1 ∧ Run pts dts frameIdx (framesOf r.2) := by
  induction passes generalizing t offset frameIdx with
  | zero => exact .pure ⟨.refl, .nil⟩
  | succ passes ih =>
    unfold splitAacAdtsFramesWithin
    split
    · exact .pure ⟨.refl, .nil⟩
    · refine .slice_bind (by omega) (Nat.le_refl _) ?_
      split
      · split
        · exact (frame_shows (.inl hany) (.inl hany)).bind fun frame hframe =>
            .pure ⟨.refl, .single (hframe.counted rfl rfl)⟩
        · exact .pure ⟨.refl, .nil⟩
      · rename_i header hparse
        split
        · exact .pure ⟨.refl, .nil⟩
        · split
          · exact .pure ⟨.refl, .nil⟩
          · split
            · exact .pure ⟨.refl, .nil⟩
            · rename_i hindex
              have hge := aacDuration_ge (UInt8.not_lt.mp hindex)
              have hle := aacDuration_le header.samplingFrequencyIndex
              dsimp only
              generalize (if aacSampleRate header.samplingFrequencyIndex > 0 then
                1024 * 90000 / aacSampleRate header.samplingFrequencyIndex else 0) = duration
                at hge hle ⊢
              have hge := Nat.mul_le_mul_left frameIdx hge
              have hle := Nat.mul_le_mul_left frameIdx hle
              refine .slice_bind (by omega) (by simp; omega) ?_
              refine .u64_bind (.inl hany) (.u64_bind (.inl hany) ?_)
              refine (frame_shows (.inl hany) (.inl hany)).bind fun frame hframe => ?_
              obtain ⟨hptsFits, hdtsFits, -, hptsEq, hdtsEq, -⟩ := hframe
              rw [hpts.word (by omega)] at hptsFits hptsEq
              rw [hdts.word (by omega)] at hdtsFits hdtsEq
              have hpts := hpts.next (by omega) (by omega) hptsFits
              have hdts := hdts.next (by omega) (by omega) hdtsFits
              refine (ih _ hpts hdts (by omega)).bind fun r hr => .pure ⟨SameClock.trans ?_ hr.1, ?_⟩
              · split
                · exact ⟨rfl, rfl⟩
                · exact .refl
              · simp only [framesOf_append, framesOf_if, framesOf_frame, framesOf_nil,
                  List.nil_append, List.singleton_append]
                exact hr.2.cons hpts hdts hptsEq hdtsEq

/-- However a PES is read, its frames take their times from it. -/
theorem parsePesPayload_times (hany : allow .overflow) (hpts : IsI64 pts) (hdts : IsI64 dts) :
    Yields allow (t.parsePesPayload payload pts dts) fun r =>
      SameClock t r.1 ∧ Counted pts dts (framesOf r.2) := by
  unfold parsePesPayload
  split
  · split
    · exact .pure ⟨.refl, .nil⟩
    · refine (buildSingleFrameEvent_times hany).bind fun r hr => .pure ⟨SameClock.trans ?_ hr.1, ?_⟩
      · exact ⟨rfl, rfl⟩
      · exact hr.2
  · split
    · exact (splitAacAdtsFramesWithin_times _ _ hany (.zero hpts) (.zero hdts) fun _ => rfl).mono
        fun r hr => ⟨hr.1, hr.2.first rfl, hr.2.fits⟩
    · refine (buildSingleFrameEvent_times hany).bind fun r hr => .pure ?_
      revert hr
      generalize (if t.codec = .mp2 ∨ t.codec = .mp3 then parseMpegAudioHeader payload else none) =
        info
      cases info with
      | none => exact fun hr => hr
      | some info =>
        rintro ⟨hclock, htimed⟩
        dsimp only at hclock ⊢
        rw [framesOf_append, framesOf_if, List.nil_append]
        exact ⟨⟨hclock.offset, hclock.lastRaw⟩, htimed⟩

end DemuxTrackState
end CheetahMedia.Codec
