import CheetahMedia.Codec.Ts.Frames
import CheetahMedia.Codec.Ts.Packet
import CheetahMedia.Lib.Wrapping

namespace CheetahMedia.Codec
open Lib Checked

/-- A PES with its true times, of which its header holds 33 bits each. -/
structure TimedPes where
  pts : Int
  dts : Int
  hasDts : Bool
  /-- The stream id, the length and the first flags. -/
  lead : Bytes := [0xE0, 0x00, 0x00, 0x80]
  flags : Fin 64 := 0
  stuffing : Bytes := []
  payload : Bytes

namespace TimedPes

def bits (time : Int) : Nat := (time % 8589934592).toNat

def times (pes : TimedPes) : Bytes :=
  encodeTimestamp (if pes.hasDts then 0x03 else 0x02) (bits pes.pts) ++
    if pes.hasDts then encodeTimestamp 0x01 (bits pes.dts) else []

def bytes (pes : TimedPes) : Bytes :=
  [0x00, 0x00, 0x01] ++ pes.lead ++
    [UInt8.ofNat ((if pes.hasDts then 192 else 128) + pes.flags),
      UInt8.ofNat (pes.times.length + pes.stuffing.length)] ++
    (pes.times ++ (pes.stuffing ++ pes.payload))

structure WellFormed (pes : TimedPes) : Prop where
  lead : pes.lead.length = 4
  stuffing : pes.stuffing.length ≤ 245
  payload : pes.payload ≠ []
  same : pes.hasDts = false → pes.dts = pes.pts

variable {pes : TimedPes}

theorem bits_lt (time : Int) : bits time < 8589934592 := by
  unfold bits
  omega

theorem decode_bits (hmarker : marker < 16) (time : Int) :
    decodeTimestamp (encodeTimestamp marker (bits time)) = .ok (bits time) := by
  have h := decodeTimestamp_encode ⟨marker.toNat, UInt8.lt_iff_toNat_lt.mp hmarker⟩ (bits time)
  rwa [UInt8.ofNat_toNat, Nat.mod_eq_of_lt (bits_lt time)] at h

theorem times_length (pes : TimedPes) : pes.times.length = if pes.hasDts then 10 else 5 := by
  unfold times
  cases pes.hasDts with
  | true => rfl
  | false => rfl

theorem flags_shift (hasDts : Bool) (flags : Fin 64) :
    UInt8.ofNat ((if hasDts then 192 else 128) + flags) >>> 6 = if hasDts then 3 else 2 := by
  revert hasDts flags
  decide +kernel

end TimedPes

namespace DemuxTrackState
variable {t t' : DemuxTrackState} {pes : TimedPes}

/-- What a track reads in a PES: its bits, to which the track's offset is added, and its
payload. -/
theorem parsePesToFrames_timed (h : pes.WellFormed) :
    ({ t with pesBuf := pes.bytes } : DemuxTrackState).parsePesToFrames = (do
      let t ← ({ t with pesBuf := [] } : DemuxTrackState).unwrapPts (TimedPes.bits pes.pts)
      t.parsePesPayload pes.payload (asI64 (TimedPes.bits pes.pts + t.ptsWrapOffset))
        (asI64 (TimedPes.bits pes.dts + t.ptsWrapOffset))) := by
  obtain ⟨a, b, c, d, hlead⟩ : ∃ a b c d, pes.lead = [a, b, c, d] := by
    match pes.lead, h.lead with
    | [a, b, c, d], _ => exact ⟨a, b, c, d, rfl⟩
  have hbytes : pes.bytes = 0x00 :: 0x00 :: 0x01 :: a :: b :: c :: d ::
      UInt8.ofNat ((if pes.hasDts then 192 else 128) + pes.flags) ::
      UInt8.ofNat (pes.times.length + pes.stuffing.length) ::
      (pes.times ++ (pes.stuffing ++ pes.payload)) := by
    unfold TimedPes.bytes
    rw [hlead]
    rfl
  have htimes := pes.times_length
  have hstuffing := h.stuffing
  have hheader : (UInt8.ofNat (pes.times.length + pes.stuffing.length)).toNat =
      pes.times.length + pes.stuffing.length := by
    rw [UInt8.toNat_ofNat']
    refine Nat.mod_eq_of_lt ?_
    rw [htimes]
    split <;> omega
  have hpayload : 0 < pes.payload.length := List.length_pos_iff.mpr h.payload
  have hflags := TimedPes.flags_shift pes.hasDts pes.flags
  generalize UInt8.ofNat (pes.times.length + pes.stuffing.length) = b₈ at hbytes hheader
  generalize UInt8.ofNat ((if pes.hasDts then 192 else 128) + pes.flags) = b₇ at hbytes hflags
  have hlength : pes.bytes.length =
      9 + pes.times.length + pes.stuffing.length + pes.payload.length := by
    rw [hbytes]
    simp only [List.length_cons, List.length_append]
    omega
  have hrest : pes.bytes.drop 9 = pes.times ++ (pes.stuffing ++ pes.payload) := by
    rw [hbytes]
    rfl
  have htail : slice pes.bytes (9 + b₈.toNat) pes.bytes.length = .ok pes.payload := by
    rw [slice_ok (by omega) (Nat.le_refl _), hheader, ← List.drop_drop, hrest,
      ← List.append_assoc, ← List.length_append, List.drop_left, List.length_append,
      List.take_of_length_le (by omega)]
  have hpts : slice pes.bytes 9 14 =
      .ok (encodeTimestamp (if pes.hasDts then 0x03 else 0x02) (TimedPes.bits pes.pts)) := by
    rw [slice_ok (by decide) (by split at htimes <;> omega), hrest]
    rfl
  have hdts : pes.hasDts = true → slice pes.bytes 14 19 =
      .ok (encodeTimestamp 0x01 (TimedPes.bits pes.dts)) := by
    intro hhas
    rw [hhas, if_pos rfl] at htimes
    rw [slice_ok (by decide) (by omega), show 14 = 9 + 5 from rfl, ← List.drop_drop, hrest]
    unfold TimedPes.times
    rw [hhas]
    rfl
  unfold parsePesToFrames
  dsimp only
  rw [if_neg (by rw [hlength, hbytes]; simp; omega), byteAt_ok (by rw [hbytes]; rfl), ok_bind,
    byteAt_ok (by rw [hbytes]; rfl), ok_bind, if_neg (by omega)]
  cases hhas : pes.hasDts with
  | true =>
    simp only [hhas, if_true] at hflags htimes hpts
    rw [hflags, if_neg (by rw [hheader]; simp; omega), if_pos (by decide), hpts, ok_bind,
      TimedPes.decode_bits (by decide), ok_bind, if_pos rfl, hdts hhas, ok_bind,
      TimedPes.decode_bits (by decide),
      ok_bind]
    refine congrArg _ (funext fun t => ?_)
    rw [htail, ok_bind]
  | false =>
    simp only [hhas, Bool.false_eq_true, if_false] at hflags htimes hpts
    rw [hflags, if_neg (by rw [hheader]; simp; omega), if_pos (by decide), hpts, ok_bind,
      TimedPes.decode_bits (by decide), ok_bind, if_neg (by decide), pure_eq, ok_bind, h.same hhas]
    refine congrArg _ (funext fun t => ?_)
    rw [htail, ok_bind]

/-- The track after a PES with the time `last`: it has read the bits of it and adds the whole
cycles of the clock up to it, and `drift`. -/
structure Follows (last drift : Int) (t : DemuxTrackState) : Prop where
  lastRaw : t.lastRawPts = some (TimedPes.bits last)
  offset : t.ptsWrapOffset = 8589934592 * (last / 8589934592) + drift
  fits : IsI64 t.ptsWrapOffset

theorem unwrapPts_first (hraw : t.lastRawPts = none) (hoffset : IsI64 t.ptsWrapOffset)
    (pts : Int) :
    Yields (fun _ => True) (t.unwrapPts (TimedPes.bits pts))
      (Follows pts (t.ptsWrapOffset - 8589934592 * (pts / 8589934592))) := by
  unfold unwrapPts
  rw [hraw]
  exact .pure ⟨rfl, by ring, hoffset⟩

/-- The drift grows by a cycle where the times fall back below the start of one. -/
def driftAfter (last pts drift : Int) : Int :=
  if last / 8589934592 ≤ pts / 8589934592 then drift else drift + 8589934592

theorem unwrapPts_next (h : Follows last drift t) (hstep : |pts - last| < 4294967296) :
    Yields (fun _ => True) (t.unwrapPts (TimedPes.bits pts))
      (Follows pts (driftAfter last pts drift)) := by
  have hcases := emod_cases (P := 8589934592) (hstep.trans (by decide))
  obtain ⟨hlow, hhigh⟩ := abs_lt.mp hstep
  have hbits : TimedPes.bits pts < TimedPes.bits last ∧
      TimedPes.bits last - TimedPes.bits pts > 4294967296 ↔
      pts / 8589934592 = last / 8589934592 + 1 := by
    unfold TimedPes.bits
    omega
  unfold unwrapPts driftAfter
  simp only [h.lastRaw, Option.any_some, decide_eq_true_eq]
  split
  · rename_i hwrap
    have hnext := hbits.mp hwrap
    refine Yields.bind (P := fun n => n = t.ptsWrapOffset + 8589934592 ∧ IsI64 n) ?_ ?_
    · unfold i64
      split
      · rename_i hfits
        exact .ok ⟨rfl, hfits⟩
      · exact .error trivial
    · rintro offset ⟨rfl, hfits⟩
      refine .pure ⟨rfl, ?_, hfits⟩
      have := h.offset
      show t.ptsWrapOffset + 8589934592 = _
      split <;> omega
  · rename_i hwrap
    have hnext := mt hbits.mpr hwrap
    refine .pure ⟨rfl, ?_, h.fits⟩
    have := h.offset
    show t.ptsWrapOffset = _
    split <;> omega

theorem Follows.sameClock (h : Follows last drift t) (hclock : SameClock t t') :
    Follows last drift t' :=
  ⟨hclock.lastRaw.trans h.lastRaw, hclock.offset.trans h.offset, hclock.offset ▸ h.fits⟩

/-- A sum whose microseconds can be counted has not left the words of 64 bits. -/
theorem asI64_of_counted {raw : Nat} {offset : Int} (hraw : raw < 8589934592)
    (hoffset : IsI64 offset) (hfits : IsI64 (asI64 (raw + offset) * 100)) :
    asI64 (raw + offset) = raw + offset := by
  by_cases hsum : IsI64 (raw + offset)
  · exact asI64_of_isI64 hsum
  · have hback : asI64 (raw + offset) = raw + offset - 18446744073709551616 := by
      have hshift : asI64 (raw + offset - 18446744073709551616) =
          raw + offset - 18446744073709551616 := by
        refine asI64_of_isI64 ?_
        unfold IsI64 I64_MIN I64_MAX at *
        omega
      rw [← hshift]
      unfold asI64
      exact (Int.sub_bmod_right _ _).symm
    rw [hback] at hfits
    unfold IsI64 I64_MIN I64_MAX at *
    omega

theorem isI64_asI64 (n : Int) : IsI64 (asI64 n) := by
  have hlow := Int.le_bmod (x := n) (m := 18446744073709551616) (by decide)
  have hhigh := Int.bmod_lt (x := n) (m := 18446744073709551616) (by decide)
  unfold IsI64 I64_MIN I64_MAX asI64
  omega

/-- The frames of a PES are off by the drift, and on the other clock also by the cycles that
its times are apart. -/
theorem parsePesToFrames_drift (h : pes.WellFormed)
    (hunwrap : Yields (fun _ => True)
      (({ t with pesBuf := [] } : DemuxTrackState).unwrapPts (TimedPes.bits pes.pts))
      (Follows pes.pts drift)) :
    Yields (fun _ => True) ({ t with pesBuf := pes.bytes } : DemuxTrackState).parsePesToFrames
      fun r => Follows pes.pts drift r.1 ∧ Timed (pes.pts + drift)
        (pes.dts + 8589934592 * (pes.pts / 8589934592 - pes.dts / 8589934592) + drift)
        (framesOf r.2) := by
  rw [parsePesToFrames_timed h]
  refine hunwrap.bind fun t' hfollows => ?_
  refine (parsePesPayload_times trivial (isI64_asI64 _) (isI64_asI64 _)).mono fun r hr => ?_
  obtain ⟨hclock, hframes⟩ := hr
  refine ⟨hfollows.sameClock hclock, ?_⟩
  rcases eq_or_ne (framesOf r.2) [] with hnone | hsome
  · rw [hnone]
    exact .nil
  · obtain ⟨hpts, hdts⟩ := hframes.fits hsome
    have htimed := hframes.toTimed
    rw [asI64_of_counted (TimedPes.bits_lt _) hfollows.fits hpts,
      asI64_of_counted (TimedPes.bits_lt _) hfollows.fits hdts, hfollows.offset] at htimed
    have hptsEq : (TimedPes.bits pes.pts : Int) + (8589934592 * (pes.pts / 8589934592) + drift) =
        pes.pts + drift := by
      unfold TimedPes.bits
      omega
    have hdtsEq : (TimedPes.bits pes.dts : Int) + (8589934592 * (pes.pts / 8589934592) + drift) =
        pes.dts + 8589934592 * (pes.pts / 8589934592 - pes.dts / 8589934592) + drift := by
      unfold TimedPes.bits
      omega
    rwa [hptsEq, hdtsEq] at htimed

/-- The packets of one PES, each with its counter; the first one begins it. -/
def feedUnit (t : DemuxTrackState) (limit : Nat) :
    List (UInt8 × Bytes) → Checked (DemuxTrackState × List MpegTsDemuxEvent)
  | [] => return (t, [])
  | (cc, payload) :: packets => do
    let (t, events) ← t.feed limit true cc payload
    let (t, events') ← feedRest t packets
    return (t, events ++ events')
where
  feedRest (t : DemuxTrackState) :
      List (UInt8 × Bytes) → Checked (DemuxTrackState × List MpegTsDemuxEvent)
    | [] => return (t, [])
    | (cc, payload) :: packets => do
      let (t, events) ← t.feed limit false cc payload
      let (t, events') ← feedRest t packets
      return (t, events ++ events')

/-- The frames that come out with each of the PES, and those of the last one. -/
def feedUnits (t : DemuxTrackState) (limit : Nat) :
    List (List (UInt8 × Bytes)) → Checked (DemuxTrackState × List (List AVFrame))
  | [] => do
    let (t, events) ← t.finishPes
    return (t, [framesOf events])
  | unit :: units => do
    let (t, events) ← t.feedUnit limit unit
    let (t, groups) ← feedUnits t limit units
    return (t, framesOf events :: groups)

def unitBytes (unit : List (UInt8 × Bytes)) : Bytes := unit.flatMap (·.2)

theorem framesOf_checkContinuity (t : DemuxTrackState) (cc : UInt8) :
    framesOf (t.checkContinuity cc).2 = [] := by
  unfold checkContinuity
  cases t.expectedCc with
  | none => rfl
  | some expected =>
    dsimp only
    split <;> rfl

theorem appendPayload_fits (hstarted : t.pesStarted)
    (hlimit : t.pesBuf.length + payload.length ≤ limit) :
    t.appendPayload limit payload = ({ t with pesBuf := t.pesBuf ++ payload }, []) := by
  unfold appendPayload
  rw [if_pos hstarted, if_neg (by omega)]

theorem feedRest_yields (packets : List (UInt8 × Bytes)) (t : DemuxTrackState)
    (hstarted : t.pesStarted) (hlimit : t.pesBuf.length + (unitBytes packets).length ≤ limit) :
    Yields (fun _ => True) (feedUnit.feedRest limit t packets) fun r =>
      SameClock t r.1 ∧ r.1.pesBuf = t.pesBuf ++ unitBytes packets ∧ framesOf r.2 = [] := by
  induction packets generalizing t with
  | nil => exact .pure ⟨.refl, (List.append_nil _).symm, rfl⟩
  | cons packet packets ih =>
    obtain ⟨cc, payload⟩ := packet
    have hbytes : unitBytes ((cc, payload) :: packets) = payload ++ unitBytes packets := rfl
    rw [hbytes, List.length_append] at hlimit
    have hfeed : t.feed limit false cc payload = .ok
        ({ t with expectedCc := some ((cc + 1) &&& 0x0F), pesBuf := t.pesBuf ++ payload },
          (t.checkContinuity cc).2) := by
      unfold feed startPes
      simp only [Bool.false_eq_true, if_false, pure_eq, ok_bind, List.append_nil]
      rw [appendPayload_fits (t := (t.checkContinuity cc).1) hstarted
        (Nat.le_trans (Nat.add_le_add_left (Nat.le_add_right _ _) _) hlimit), List.append_nil]
      rfl
    unfold feedUnit.feedRest
    rw [hfeed, ok_bind]
    dsimp only
    refine (ih { t with
      expectedCc := some ((cc + 1) &&& 0x0F)
      pesBuf := t.pesBuf ++ payload } hstarted ?_).bind fun r hr => .pure ?_
    · simp only [List.length_append]
      omega
    · obtain ⟨hclock, hbuf, hframes⟩ := hr
      refine ⟨⟨hclock.offset, hclock.lastRaw⟩, ?_, ?_⟩
      · rw [hbuf, hbytes, List.append_assoc]
      · rw [framesOf_append, framesOf_checkContinuity, hframes]
        rfl

/-- The packets of a PES bring out the frames of the one before it. -/
theorem feedUnit_yields {R : DemuxTrackState → List AVFrame → Prop}
    (hclock : ∀ t t' frames, SameClock t t' → R t frames → R t' frames) (hne : unit ≠ [])
    (hlimit : (unitBytes unit).length ≤ limit)
    (hfinish : ∀ cc, Yields (fun _ => True) ({ t with expectedCc := cc } : DemuxTrackState).finishPes
      fun r => R r.1 (framesOf r.2)) :
    Yields (fun _ => True) (t.feedUnit limit unit) fun r =>
      r.1.pesBuf = unitBytes unit ∧ R r.1 (framesOf r.2) := by
  obtain ⟨⟨cc, payload⟩, packets, rfl⟩ := List.exists_cons_of_ne_nil hne
  have hbytes : unitBytes ((cc, payload) :: packets) = payload ++ unitBytes packets := rfl
  rw [hbytes, List.length_append] at hlimit
  have hfeed : Yields (fun _ => True) (t.feed limit true cc payload) fun r =>
      r.1.pesStarted ∧ r.1.pesBuf = payload ∧ R r.1 (framesOf r.2) := by
    unfold feed startPes
    simp only [if_true]
    refine Yields.bind (P := fun r => r.1.pesStarted ∧ r.1.pesBuf = [] ∧ R r.1 (framesOf r.2))
      ((hfinish _).bind fun r hr => .pure ⟨rfl, rfl, hclock r.1 _ _ ⟨rfl, rfl⟩ hr⟩) ?_
    rintro ⟨t', events⟩ ⟨hstarted, hbuf, hR⟩
    dsimp only at hstarted hbuf hR ⊢
    have hfits : t'.pesBuf.length + payload.length ≤ limit := by
      rw [hbuf, List.length_nil]
      omega
    rw [appendPayload_fits hstarted hfits]
    refine .pure ⟨hstarted, by rw [hbuf, List.nil_append], ?_⟩
    simp only [framesOf_append, framesOf_checkContinuity, List.nil_append, List.append_nil]
    exact hclock t' _ _ ⟨rfl, rfl⟩ hR
  unfold feedUnit
  refine hfeed.bind fun r hr => ?_
  obtain ⟨hstarted, hbuf, hR⟩ := hr
  refine (feedRest_yields packets r.1 hstarted (by rw [hbuf]; omega)).bind fun r' hr' => .pure ?_
  obtain ⟨hsame, hbuf', hframes⟩ := hr'
  refine ⟨?_, ?_⟩
  · rw [hbuf', hbuf, hbytes]
  · rw [framesOf_append, hframes, List.append_nil]
    exact hclock _ _ _ hsame hR

/-- The frames of a PES have its true times, off by a constant. -/
def Shifted (shift : Int) (pes : TimedPes) (frames : List AVFrame) : Prop :=
  Timed (pes.pts + shift) (pes.dts + shift) frames

/-- Both times of each PES lie in one cycle of the clock, and no cycle begins again. -/
structure OneWay (pess : List TimedPes) : Prop where
  together : ∀ pes ∈ pess, pes.dts / 8589934592 = pes.pts / 8589934592
  forward : (pess.map (·.pts)).IsChain fun pts pts' => pts / 8589934592 ≤ pts' / 8589934592

theorem OneWay.tail (h : OneWay (pes :: pess)) : OneWay pess :=
  ⟨fun p hp => h.together p (List.mem_cons_of_mem _ hp), h.forward.of_cons⟩

/-- What the frames of a PES say of the drift, where there are any. -/
theorem shifted_iff (h : Timed (pes.pts + drift)
    (pes.dts + 8589934592 * (pes.pts / 8589934592 - pes.dts / 8589934592) + drift) frames)
    (hne : frames ≠ []) :
    Shifted shift pes frames ↔ shift = drift ∧ pes.dts / 8589934592 = pes.pts / 8589934592 := by
  obtain ⟨frame, rest, rfl⟩ := List.exists_cons_of_ne_nil hne
  obtain ⟨hpts, hdts⟩ := h.first frame rfl
  constructor
  · intro hshifted
    obtain ⟨hpts', hdts'⟩ := hshifted.first frame rfl
    omega
  · rintro ⟨rfl, htogether⟩
    rw [htogether, sub_self, mul_zero, add_zero] at h
    exact h

theorem shifted_of (h : Timed (pes.pts + drift)
    (pes.dts + 8589934592 * (pes.pts / 8589934592 - pes.dts / 8589934592) + drift) frames)
    (htogether : pes.dts / 8589934592 = pes.pts / 8589934592) : Shifted drift pes frames := by
  rw [htogether, sub_self, mul_zero, add_zero] at h
  exact h

/-- The units carry the PES, and none is longer than the limit. -/
def Carries (limit : Nat) (unit : List (UInt8 × Bytes)) (pes : TimedPes) : Prop :=
  unitBytes unit = pes.bytes ∧ pes.bytes.length ≤ limit ∧ pes.WellFormed

theorem Carries.ne_nil (h : Carries limit unit pes) : unit ≠ [] := by
  rintro rfl
  have hempty := h.1
  unfold TimedPes.bytes at hempty
  cases hempty

theorem finishPes_held (hbuf : t.pesBuf = pes.bytes) :
    t.finishPes = ({ t with pesBuf := pes.bytes } : DemuxTrackState).parsePesToFrames := by
  unfold finishPes
  rw [if_neg (by rw [hbuf]; unfold TimedPes.bytes; simp)]
  congr 1
  rw [← hbuf]

theorem finishPes_drift (hbuf : t.pesBuf = pes.bytes) (hwf : pes.WellFormed)
    (hunwrap : ∀ t', SameClock t t' →
      Yields (fun _ => True) (t'.unwrapPts (TimedPes.bits pes.pts)) (Follows pes.pts drift)) :
    Yields (fun _ => True) t.finishPes fun r =>
      Follows pes.pts drift r.1 ∧ Timed (pes.pts + drift)
        (pes.dts + 8589934592 * (pes.pts / 8589934592 - pes.dts / 8589934592) + drift)
        (framesOf r.2) := by
  rw [finishPes_held hbuf]
  exact parsePesToFrames_drift hwf (hunwrap _ ⟨rfl, rfl⟩)

/-- From a track that holds a PES, whose wrap offset is about to be set so that it drifts by
`drift`. -/
theorem feedUnits_held {units : List (List (UInt8 × Bytes))} (pess : List TimedPes)
    (hcarries : List.Forall₂ (Carries limit) units pess) (hbuf : t.pesBuf = pes.bytes)
    (hwf : pes.WellFormed)
    (hunwrap : ∀ t', SameClock t t' →
      Yields (fun _ => True) (t'.unwrapPts (TimedPes.bits pes.pts)) (Follows pes.pts drift))
    (hsteps : ((pes :: pess).map (·.pts)).IsChain fun pts pts' => |pts' - pts| < 4294967296) :
    Yields (fun _ => True) (t.feedUnits limit units) fun r =>
      (OneWay (pes :: pess) → List.Forall₂ (Shifted drift) (pes :: pess) r.2) ∧
      ((∀ frames ∈ r.2, frames ≠ []) → ∀ shift,
        List.Forall₂ (Shifted shift) (pes :: pess) r.2 → shift = drift ∧ OneWay (pes :: pess)) := by
  induction hcarries generalizing t pes drift with
  | nil =>
    unfold feedUnits
    refine (finishPes_drift hbuf hwf hunwrap).bind fun r hr => .pure ⟨?_, ?_⟩
    · intro h
      exact .cons (shifted_of hr.2 (h.together _ List.mem_cons_self)) .nil
    · intro hne shift h
      cases h with
      | cons hshifted _ =>
        obtain ⟨rfl, htogether⟩ := (shifted_iff hr.2 (hne _ List.mem_cons_self)).mp hshifted
        refine ⟨rfl, ?_, .singleton _⟩
        intro p hp
        obtain rfl := List.mem_singleton.mp hp
        exact htogether
  | cons hunit hrest ih =>
    rename_i unit next units pess
    obtain ⟨hstep, hsteps⟩ := List.isChain_cons_cons.mp hsteps
    have hfinish : ∀ cc, Yields (fun _ => True)
        ({ t with expectedCc := cc } : DemuxTrackState).finishPes fun r =>
          Follows pes.pts drift r.1 ∧ Timed (pes.pts + drift)
            (pes.dts + 8589934592 * (pes.pts / 8589934592 - pes.dts / 8589934592) + drift)
            (framesOf r.2) :=
      fun cc => finishPes_drift hbuf hwf fun t' h => hunwrap t' ⟨h.offset, h.lastRaw⟩
    unfold feedUnits
    refine (feedUnit_yields (R := fun t' frames => Follows pes.pts drift t' ∧ Timed (pes.pts + drift)
      (pes.dts + 8589934592 * (pes.pts / 8589934592 - pes.dts / 8589934592) + drift) frames)
      (fun _ _ _ hclock h => ⟨h.1.sameClock hclock, h.2⟩) hunit.ne_nil
      (by rw [hunit.1]; exact hunit.2.1) hfinish).bind fun r hr => ?_
    obtain ⟨hbuf', hfollows, htimed⟩ := hr
    refine (ih (hbuf'.trans hunit.1) hunit.2.2
      (fun t' h => unwrapPts_next (hfollows.sameClock h) hstep) hsteps).bind fun r' hr' => .pure ?_
    obtain ⟨hforward, hback⟩ := hr'
    constructor
    · intro h
      have hdrift : driftAfter pes.pts next.pts drift = drift :=
        if_pos (List.isChain_cons_cons.mp h.forward).1
      rw [hdrift] at hforward
      exact .cons (shifted_of htimed (h.together _ List.mem_cons_self)) (hforward h.tail)
    · intro hne shift h
      cases h with
      | cons hshifted hrest =>
        obtain ⟨rfl, htogether⟩ := (shifted_iff htimed (hne _ List.mem_cons_self)).mp hshifted
        obtain ⟨hdrift, honeWay⟩ :=
          hback (fun frames h => hne frames (List.mem_cons_of_mem _ h)) shift hrest
        have hle : pes.pts / 8589934592 ≤ next.pts / 8589934592 := by
          unfold driftAfter at hdrift
          split at hdrift <;> omega
        refine ⟨rfl, ?_, .cons_cons hle honeWay.forward⟩
        intro p hp
        rcases List.mem_cons.mp hp with rfl | hp
        · exact htogether
        · exact honeWay.together p hp

/-- Before its first PES. -/
structure Fresh (t : DemuxTrackState) : Prop where
  pesBuf : t.pesBuf = []
  lastRaw : t.lastRawPts = none
  offset : IsI64 t.ptsWrapOffset

theorem Fresh.finishPes (h : Fresh t) : t.finishPes = .ok (t, []) := by
  unfold DemuxTrackState.finishPes
  rw [h.pesBuf]
  rfl

theorem feedUnits_fresh {units : List (List (UInt8 × Bytes))} (hfresh : Fresh t)
    (hcarries : List.Forall₂ (Carries limit) units pess)
    (hsteps : (pess.map (·.pts)).IsChain fun pts pts' => |pts' - pts| < 4294967296) :
    Yields (fun _ => True) (t.feedUnits limit units) fun r => ∃ drift,
      (OneWay pess → List.Forall₂ (Shifted drift) pess r.2.tail) ∧
      ((∀ frames ∈ r.2.tail, frames ≠ []) → ∀ shift,
        List.Forall₂ (Shifted shift) pess r.2.tail → OneWay pess) := by
  cases hcarries with
  | nil =>
    unfold feedUnits
    rw [hfresh.finishPes]
    exact .ok ⟨0, fun _ => .nil, fun _ _ _ => ⟨nofun, .nil⟩⟩
  | cons hunit hrest =>
    rename_i unit pes units pess
    unfold feedUnits
    refine (feedUnit_yields (R := fun t' frames => SameClock t t' ∧ frames = [])
      (fun _ _ _ hclock h => ⟨h.1.trans hclock, h.2⟩) hunit.ne_nil
      (by rw [hunit.1]; exact hunit.2.1) ?_).bind fun r hr => ?_
    · intro cc
      have hfresh' : Fresh { t with expectedCc := cc } :=
        ⟨hfresh.pesBuf, hfresh.lastRaw, hfresh.offset⟩
      rw [hfresh'.finishPes]
      exact .ok ⟨⟨rfl, rfl⟩, rfl⟩
    · obtain ⟨hbuf, hclock, hframes⟩ := hr
      have hunwrap : ∀ t', SameClock r.1 t' → Yields (fun _ => True)
          (t'.unwrapPts (TimedPes.bits pes.pts))
          (Follows pes.pts (t.ptsWrapOffset - 8589934592 * (pes.pts / 8589934592))) := by
        intro t' h
        have hsame := hclock.trans h
        rw [← hsame.offset]
        exact unwrapPts_first (hsame.lastRaw.trans hfresh.lastRaw)
          (hsame.offset ▸ hfresh.offset) pes.pts
      refine (feedUnits_held pess hrest (hbuf.trans hunit.1) hunit.2.2 hunwrap hsteps).bind
        fun r' hr' => .pure ⟨_, hr'.1, ?_⟩
      intro hne shift h
      exact (hr'.2 hne shift h).2

/-- A track that reads PES whose times step by less than half a cycle gives all of them off by
one constant where both times of each lie in one cycle and no cycle begins again, and, if each
gives a frame, only there. -/
theorem feedUnits_oneWay_iff {units : List (List (UInt8 × Bytes))} (hfresh : Fresh t)
    (hcarries : List.Forall₂ (Carries limit) units pess)
    (hsteps : (pess.map (·.pts)).IsChain fun pts pts' => |pts' - pts| < 4294967296)
    (hrun : t.feedUnits limit units = .ok (t', groups)) :
    (OneWay pess → ∃ shift, List.Forall₂ (Shifted shift) pess groups.tail) ∧
    ((∀ frames ∈ groups.tail, frames ≠ []) →
      (∃ shift, List.Forall₂ (Shifted shift) pess groups.tail) → OneWay pess) := by
  obtain ⟨drift, hforward, hback⟩ := (feedUnits_fresh hfresh hcarries hsteps).of_ok hrun
  refine ⟨fun h => ⟨drift, hforward h⟩, ?_⟩
  rintro hne ⟨shift, h⟩
  exact hback hne shift h

/-- The video track of a program map. -/
def videoTrack : DemuxTrackState :=
  { pid := 256
    trackId := 1
    codec := .h264
    mediaKind := .video
    clockRate := 90000
    pendingPrivateProbe := false }

theorem videoTrack_fresh : Fresh videoTrack := ⟨rfl, rfl, by decide⟩

def videoPes (pts dts : Int) : TimedPes :=
  { pts := pts
    dts := dts
    hasDts := true
    payload := [0x00, 0x00, 0x00, 0x01, 0x65, 0xAA] }

theorem videoPes_wellFormed (pts dts : Int) : (videoPes pts dts).WellFormed where
  lead := rfl
  stuffing := Nat.zero_le _
  payload := nofun
  same := nofun

/-- Two frames on both sides of a wrap. -/
theorem feedUnits_oneWay_iff_wrap :
    ∃ t' groups, videoTrack.feedUnits 4096
        [[(0, (videoPes 8589931000 8589931000).bytes)],
          [(1, (videoPes 8589938200 8589934600).bytes)]] = .ok (t', groups) ∧
      ∃ shift, List.Forall₂ (Shifted shift)
        [videoPes 8589931000 8589931000, videoPes 8589938200 8589934600] groups.tail := by
  cases hrun : videoTrack.feedUnits 4096
      [[(0, (videoPes 8589931000 8589931000).bytes)],
        [(1, (videoPes 8589938200 8589934600).bytes)]] with
  | ok r =>
    refine ⟨r.1, r.2, rfl, (feedUnits_oneWay_iff videoTrack_fresh (.cons ⟨rfl, by decide,
      videoPes_wellFormed _ _⟩ (.cons ⟨rfl, by decide, videoPes_wellFormed _ _⟩ .nil))
      (by simp [videoPes]) hrun).1 ⟨by decide, by simp [videoPes]⟩⟩
  | error e =>
    have hok : (videoTrack.feedUnits 4096 [[(0, (videoPes 8589931000 8589931000).bytes)],
      [(1, (videoPes 8589938200 8589934600).bytes)]]).isOk = true := by decide +kernel
    rw [hrun] at hok
    cases hok

/-- A frame shown just after the wrap is decoded just before it: its PTS comes out as 1000 and
its DTS as 2000 less than a cycle. -/
theorem not_feedUnits_shifted :
    ¬ ∀ (t t' : DemuxTrackState) limit units pess groups, Fresh t →
      List.Forall₂ (Carries limit) units pess →
      (∀ pes ∈ pess, pes.dts ≤ pes.pts ∧ pes.pts - pes.dts < 4294967296) →
      ((pess.map (·.pts)).IsChain fun pts pts' => |pts' - pts| < 4294967296) →
      ((pess.map (·.dts)).IsChain fun dts dts' => |dts' - dts| < 4294967296) →
      t.feedUnits limit units = .ok (t', groups) →
      ∃ shift, List.Forall₂ (Shifted shift) pess groups.tail := by
  intro hall
  have htimes : (videoTrack.feedUnits 4096 [[(0, (videoPes 8589935592 8589932592).bytes)]]).map
      (fun r => r.2.map (·.map fun frame => (frame.pts, frame.dts))) =
      .ok [[], [(1000, 8589932592)]] := by decide +kernel
  cases hrun : videoTrack.feedUnits 4096 [[(0, (videoPes 8589935592 8589932592).bytes)]] with
  | error e =>
    rw [hrun] at htimes
    cases htimes
  | ok r =>
    obtain ⟨t', groups⟩ := r
    rw [hrun] at htimes
    obtain ⟨shift, h⟩ := hall videoTrack t' 4096 _ [videoPes 8589935592 8589932592] groups
      videoTrack_fresh (.cons ⟨rfl, by decide, videoPes_wellFormed _ _⟩ .nil) (by decide)
      (.singleton _) (.singleton _) hrun
    have hgroups : groups.map (·.map fun frame => (frame.pts, frame.dts)) =
        [[], [(1000, 8589932592)]] := Except.ok.inj htimes
    obtain ⟨_, _, rfl, -, hgroups⟩ := List.map_eq_cons_iff.mp hgroups
    obtain ⟨_, _, rfl, hframes, -⟩ := List.map_eq_cons_iff.mp hgroups
    obtain ⟨frame, _, rfl, hframe, -⟩ := List.map_eq_cons_iff.mp hframes
    cases h with
    | cons hshifted _ =>
      obtain ⟨hpts, hdts⟩ := hshifted.first frame rfl
      obtain ⟨hpts', hdts'⟩ := Prod.mk.inj hframe
      rw [hpts'] at hpts
      rw [hdts'] at hdts
      simp only [videoPes] at hpts hdts
      omega

end DemuxTrackState
end CheetahMedia.Codec
