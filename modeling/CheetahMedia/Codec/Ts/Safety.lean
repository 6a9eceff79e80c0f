import CheetahMedia.Codec.Ts.Cutting

namespace CheetahMedia.Codec
open Lib Checked

variable {allow : Panic → Prop}

theorem decodeTimestamp_lt (h : buf.length = 5) :
    Yields allow (decodeTimestamp buf) (· < 8589934592) := by
  unfold decodeTimestamp
  refine .byteAt_bind (by omega) fun b₀ _ => ?_
  refine .byteAt_bind (by omega) fun b₁ _ => ?_
  refine .byteAt_bind (by omega) fun b₂ _ => ?_
  refine .byteAt_bind (by omega) fun b₃ _ => ?_
  refine .byteAt_bind (by omega) fun b₄ _ => .pure ?_
  have h₀ : ((b₀ >>> 1) &&& 0x07).toNat < 8 := by
    rw [UInt8.toNat_and]
    exact Nat.lt_of_le_of_lt Nat.and_le_right (by decide)
  have h₂ : (b₂ >>> 1).toNat < 128 := by
    have := b₂.toNat_lt
    simp [Nat.shiftRight_eq_div_pow]
    omega
  have h₄ : (b₄ >>> 1).toNat < 128 := by
    have := b₄.toNat_lt
    simp [Nat.shiftRight_eq_div_pow]
    omega
  have := b₁.toNat_lt
  have := b₃.toNat_lt
  omega

namespace DemuxTrackState
variable {t : DemuxTrackState}

/-- The times of the frames of `len` bytes that begin at `ticks` fit in microseconds, unless
an overflow is allowed. -/
def Fits (allow : Panic → Prop) (ticks : Int) (len : Nat) : Prop :=
  allow .overflow ∨ 0 ≤ ticks ∧ (ticks + 12538 * len) * 100 ≤ I64_MAX

/-- The parts of a track that only the reassembly of a PES changes. -/
structure Kept (t t' : DemuxTrackState) : Prop where
  pid : t'.pid = t.pid
  pesBuf : t'.pesBuf = t.pesBuf
  offset : t'.ptsWrapOffset = t.ptsWrapOffset

theorem Kept.refl : Kept t t := ⟨rfl, rfl, rfl⟩

theorem Kept.trans (h : Kept t t') (h' : Kept t' t'') : Kept t t'' :=
  ⟨h'.pid.trans h.pid, h'.pesBuf.trans h.pesBuf, h'.offset.trans h.offset⟩

theorem Fits.mono (h : Fits allow ticks len) (hle : len' ≤ len) : Fits allow ticks len' :=
  h.imp_right fun h => ⟨h.1, by omega⟩

theorem Fits.i64 (h : Fits allow ticks len) :
    allow .overflow ∨ I64_MIN ≤ ticks * 100 ∧ ticks * 100 ≤ I64_MAX :=
  h.imp_right fun h => ⟨by unfold I64_MIN; omega, by omega⟩

theorem frame_yields (hpts : Fits allow pts len) (hdts : Fits allow dts len) :
    Yields allow (t.frame format pts dts data) fun _ => True :=
  .i64_bind hpts.i64 (.i64_bind hdts.i64 (.pure trivial))

theorem buildSingleFrameEvent_yields (hpts : Fits allow pts len) (hdts : Fits allow dts len) :
    Yields allow (t.buildSingleFrameEvent data format pts dts) fun r => Kept t r.1 := by
  unfold buildSingleFrameEvent
  split
  rename_i t' found heq
  refine (frame_yields hpts hdts).bind fun frame _ => .pure ?_
  split at heq
  · cases heq
    exact ⟨rfl, rfl, rfl⟩
  · split at heq
    · cases heq
      exact ⟨rfl, rfl, rfl⟩
    · cases heq
      exact .refl

/-- No AAC frame is longer than one at the lowest sample rate. -/
theorem aacDuration_le (index : UInt8) :
    (if aacSampleRate index > 0 then 1024 * 90000 / aacSampleRate index else 0) ≤ 12538 := by
  have hrates : ∀ rate ∈ [0, 96000, 88200, 64000, 48000, 44100, 32000, 24000, 22050, 16000, 12000,
      11025, 8000, 7350], (if rate > 0 then 1024 * 90000 / rate else 0) ≤ 12538 := by decide
  have hmem : ∀ (rates : List Nat) (i : Nat), rates.getD i 0 ∈ 0 :: rates := by
    intro rates i
    rw [List.getD_eq_getElem?_getD]
    cases hget : rates[i]? with
    | none => exact List.mem_cons_self
    | some rate => exact List.mem_cons_of_mem _ (List.mem_of_getElem? hget)
  exact hrates _ (hmem _ _)

/-- The time of a later frame of a PES. -/
theorem Fits.advance (h : Fits allow ticks len) (hle : n ≤ 12538 * len) :
    (allow .overflow ∨ asU64 ticks + n < 18446744073709551616) ∧
      Fits allow (asI64 (asU64 ticks + n : Nat)) 0 := by
  by_cases hallow : allow .overflow
  · exact ⟨.inl hallow, .inl hallow⟩
  · obtain ⟨hpos, hfit⟩ := h.resolve_left hallow
    unfold I64_MAX at hfit
    have hword : asU64 ticks = ticks.toNat := by
      unfold asU64
      rw [Int.emod_eq_of_lt hpos (by omega)]
    have hback : asI64 (asU64 ticks + n : Nat) = ticks + n := by
      unfold asI64
      rw [hword, Int.bmod_eq_of_le_mul_two (by omega) (by omega)]
      omega
    rw [hback]
    exact ⟨.inr (by omega), .inr ⟨by omega, by unfold I64_MAX; omega⟩⟩

theorem splitAacAdtsFramesWithin_yields (passes : Nat) (t : DemuxTrackState)
    (hpts : Fits allow pts payload.length) (hdts : Fits allow dts payload.length)
    (hidx : frameIdx ≤ offset) :
    Yields allow (splitAacAdtsFramesWithin payload pts dts passes t offset frameIdx)
      fun r => Kept t r.1 := by
  induction passes generalizing t offset frameIdx with
  | zero => exact .pure .refl
  | succ passes ih =>
    unfold splitAacAdtsFramesWithin
    split
    · exact .pure .refl
    · refine .slice_bind (by omega) (Nat.le_refl _) ?_
      split
      · split
        · exact (frame_yields hpts hdts).bind fun _ _ => .pure .refl
        · exact .pure .refl
      · rename_i header hparse
        split
        · exact .pure .refl
        · split
          · exact .pure .refl
          · split
            · exact .pure .refl
            · have hstep : frameIdx * (if aacSampleRate header.samplingFrequencyIndex > 0 then
                  1024 * 90000 / aacSampleRate header.samplingFrequencyIndex else 0) ≤
                    12538 * payload.length := by
                calc _ ≤ payload.length * 12538 :=
                      Nat.mul_le_mul (by omega) (aacDuration_le _)
                  _ = 12538 * payload.length := Nat.mul_comm _ _
              refine .slice_bind (by omega) (by simp; omega) ?_
              refine .u64_bind (hpts.advance hstep).1 (.u64_bind (hdts.advance hstep).1 ?_)
              refine (frame_yields (hpts.advance hstep).2 (hdts.advance hstep).2).bind fun _ _ => ?_
              refine (ih _ (by omega)).bind fun r hr => .pure (Kept.trans ?_ hr)
              split
              · exact ⟨rfl, rfl, rfl⟩
              · exact .refl

theorem parsePesPayload_yields (hpts : Fits allow pts payload.length)
    (hdts : Fits allow dts payload.length) :
    Yields allow (t.parsePesPayload payload pts dts) fun r => Kept t r.1 := by
  unfold parsePesPayload
  split
  · split
    · exact .pure .refl
    · refine (buildSingleFrameEvent_yields hpts hdts).bind fun r hr => .pure (Kept.trans ?_ hr)
      exact ⟨rfl, rfl, rfl⟩
  · split
    · exact splitAacAdtsFramesWithin_yields _ _ hpts hdts (Nat.le_refl _)
    · refine (buildSingleFrameEvent_yields hpts hdts).bind fun r hr => .pure (Kept.trans ?_ hr)
      generalize (if t.codec = .mp2 ∨ t.codec = .mp3 then parseMpegAudioHeader payload else none) =
        info
      cases info with
      | none => exact .refl
      | some info => exact ⟨rfl, rfl, rfl⟩

/-- What reading the PES of a track leaves: nothing of it, and at most one more wrap. -/
structure Parsed (t t' : DemuxTrackState) : Prop where
  pid : t'.pid = t.pid
  pesBuf : t'.pesBuf = []
  low : t.ptsWrapOffset ≤ t'.ptsWrapOffset
  high : t'.ptsWrapOffset ≤ t.ptsWrapOffset + 8589934592

/-- The times of a track with this wrap offset, that holds so many bytes of a PES, fit for so
many packets to come, each with a wrap, and for the PES that they leave. -/
def SpareFor (offset : Int) (held packets : Nat) : Prop :=
  (offset + 8589934592 * (packets + 2) + 12538 * (held + 188 * packets)) * 100 ≤ I64_MAX

instance : Decidable (SpareFor offset held packets) := inferInstanceAs (Decidable (_ ≤ _))

def Room (allow : Panic → Prop) (t : DemuxTrackState) (packets : Nat) : Prop :=
  0 ≤ t.ptsWrapOffset ∧
    (allow .overflow ∨ SpareFor t.ptsWrapOffset t.pesBuf.length packets)

/-- With the offset of 10737419 wraps no time fits. -/
example :
    let t : DemuxTrackState :=
      { pid := 256
        trackId := 1
        codec := .h264
        mediaKind := .video
        clockRate := 90000
        pesBuf := [0, 0, 1, 0xE0, 0, 0, 0x80, 0x80, 5, 0x21, 0, 1, 0, 1, 0xAA]
        pendingPrivateProbe := false
        ptsWrapOffset := 8589934592 * 10737419 }
    t.parsePesToFrames = .error .overflow := by decide +kernel

theorem SpareFor.mono (h : SpareFor offset held packets) (hoffset : offset' ≤ offset)
    (hheld : held' ≤ held) (hpackets : packets' ≤ packets) : SpareFor offset' held' packets' := by
  unfold SpareFor at *
  omega

theorem unwrapPts_yields (h : Room allow t packets) :
    Yields allow (t.unwrapPts pts) fun t' => t'.pid = t.pid ∧ t'.pesBuf = t.pesBuf ∧
      t.ptsWrapOffset ≤ t'.ptsWrapOffset ∧ t'.ptsWrapOffset ≤ t.ptsWrapOffset + 8589934592 := by
  have hpos := h.1
  unfold unwrapPts
  dsimp only
  split
  · refine .i64_bind (h.2.imp_right fun h => ?_) (.pure ⟨rfl, rfl, ?_, Int.le_refl _⟩)
    · unfold SpareFor at h
      unfold I64_MIN I64_MAX at *
      omega
    · exact Int.le_add_of_nonneg_right (by decide)
  · refine .bind (.pure (Eq.refl t.ptsWrapOffset)) fun offset hoffset => .pure ?_
    subst hoffset
    exact ⟨rfl, rfl, Int.le_refl _, Int.le_add_of_nonneg_right (by decide)⟩

/-- The time of a frame from the 33 bits of its PES. -/
theorem Room.fits (h : Room allow t packets) (hraw : raw < 8589934592) (hlow : t.ptsWrapOffset ≤ offset)
    (hhigh : offset ≤ t.ptsWrapOffset + 8589934592) (hle : len ≤ t.pesBuf.length) :
    Fits allow (asI64 ((raw : Nat) + offset)) len := by
  have hpos := h.1
  refine h.2.imp_right fun h => ?_
  unfold SpareFor at h
  have hword : asI64 ((raw : Nat) + offset) = raw + offset := by
    unfold I64_MAX at h
    unfold asI64
    exact Int.bmod_eq_of_le_mul_two (by omega) (by omega)
  rw [hword]
  exact ⟨by omega, by omega⟩

/-- The payload of a PES whose times have been read. -/
theorem parsePayloadAt_yields {pts dts : Nat} (h : Room allow t packets) (hpts : pts < 8589934592)
    (hdts : dts < 8589934592) (hbuf : t.pesBuf = pes) (hstart : start ≤ pes.length) :
    Yields allow (do
      let t' ← ({ t with pesBuf := [] } : DemuxTrackState).unwrapPts pts
      let payload ← slice pes start pes.length
      t'.parsePesPayload payload (asI64 (pts + t'.ptsWrapOffset)) (asI64 (dts + t'.ptsWrapOffset)))
      fun r => Parsed t r.1 := by
  have hroom : Room allow { t with pesBuf := [] } packets :=
    ⟨h.1, h.2.imp_right fun h => h.mono (Int.le_refl _) (Nat.zero_le _) (Nat.le_refl _)⟩
  refine (unwrapPts_yields hroom).bind fun t' ht' => .slice_bind hstart (Nat.le_refl _) ?_
  have hlen : ((pes.drop start).take (pes.length - start)).length ≤ t.pesBuf.length := by
    rw [hbuf, List.length_take, List.length_drop]
    omega
  refine (parsePesPayload_yields (h.fits hpts ht'.2.2.1 ht'.2.2.2 hlen)
    (h.fits hdts ht'.2.2.1 ht'.2.2.2 hlen)).mono fun r hr => ⟨?_, ?_, ?_, ?_⟩
  · exact hr.pid.trans ht'.1
  · exact hr.pesBuf.trans ht'.2.1
  · exact hr.offset ▸ ht'.2.2.1
  · exact hr.offset ▸ ht'.2.2.2

theorem parsePesToFrames_yields (h : Room allow t packets) :
    Yields allow t.parsePesToFrames fun r => Parsed t r.1 := by
  have hdropped : Parsed t { t with pesBuf := [] } :=
    ⟨rfl, rfl, Int.le_refl _, Int.le_add_of_nonneg_right (by decide)⟩
  have htimestamp : ∀ first, first + 5 ≤ t.pesBuf.length →
      ((t.pesBuf.drop first).take (first + 5 - first)).length = 5 := by
    intro first hfirst
    rw [List.length_take, List.length_drop]
    omega
  unfold parsePesToFrames
  dsimp only
  split
  · exact .pure hdropped
  · refine .byteAt_bind (by omega) fun b₈ _ => .byteAt_bind (by omega) fun b₇ _ => ?_
    split
    · exact .pure hdropped
    · rename_i hlen
      split
      · exact .pure hdropped
      · rename_i hflags
        generalize b₇ >>> 6 = flags at hflags ⊢
        have hpts : 2 ≤ flags → 5 ≤ b₈.toNat := fun hset =>
          Nat.le_of_not_lt fun hlt => hflags (.inr (.inl ⟨hset, hlt⟩))
        have hdts : flags = 3 → 10 ≤ b₈.toNat := fun hset =>
          Nat.le_of_not_lt fun hlt => hflags (.inr (.inr ⟨hset, hlt⟩))
        split
        · rename_i hset
          have := hpts hset
          refine .slice_bind (by omega) (by omega) ?_
          refine (decodeTimestamp_lt (htimestamp 9 (by omega))).bind fun pts hpts => ?_
          split
          · rename_i hset
            have := hdts hset
            refine .slice_bind (by omega) (by omega) ?_
            refine (decodeTimestamp_lt (htimestamp 14 (by omega))).bind fun dts hdts => ?_
            exact parsePayloadAt_yields h hpts hdts rfl (by omega)
          · exact parsePayloadAt_yields h hpts hpts rfl (by omega)
        · split
          · rename_i hset
            have := hdts hset
            refine .slice_bind (by omega) (by omega) ?_
            refine (decodeTimestamp_lt (htimestamp 14 (by omega))).bind fun dts hdts => ?_
            exact parsePayloadAt_yields h (by decide) hdts rfl (by omega)
          · exact parsePayloadAt_yields h (by decide) (by decide) rfl (by omega)

/-- A packet takes its share of the room. -/
theorem Room.spend (h : Room allow t (packets + 1)) (hlow : t.ptsWrapOffset ≤ t'.ptsWrapOffset)
    (hhigh : t'.ptsWrapOffset ≤ t.ptsWrapOffset + 8589934592)
    (hlen : t'.pesBuf.length ≤ t.pesBuf.length + 188) : Room allow t' packets := by
  refine ⟨Int.le_trans h.1 hlow, h.2.imp_right fun h => ?_⟩
  unfold SpareFor at *
  omega

theorem finishPes_yields (h : Room allow t packets) :
    Yields allow t.finishPes fun r => r.1.pid = t.pid ∧ r.1.pesBuf.length ≤ t.pesBuf.length ∧
      t.ptsWrapOffset ≤ r.1.ptsWrapOffset ∧
      r.1.ptsWrapOffset ≤ t.ptsWrapOffset + 8589934592 := by
  unfold finishPes
  split
  · exact .pure ⟨rfl, Nat.le_refl _, Int.le_refl _, Int.le_add_of_nonneg_right (by decide)⟩
  · refine (parsePesToFrames_yields h).mono fun r hr => ⟨hr.pid, ?_, hr.low, hr.high⟩
    rw [hr.pesBuf]
    exact Nat.zero_le _

theorem startPes_yields (h : Room allow t packets) :
    Yields allow (t.startPes pusi) fun r => r.1.pid = t.pid ∧ r.1.pesBuf.length ≤ t.pesBuf.length ∧
      t.ptsWrapOffset ≤ r.1.ptsWrapOffset ∧
      r.1.ptsWrapOffset ≤ t.ptsWrapOffset + 8589934592 := by
  unfold startPes
  split
  · exact (finishPes_yields h).bind fun r hr => .pure ⟨hr.1, Nat.zero_le _, hr.2.2⟩
  · exact .pure ⟨rfl, Nat.le_refl _, Int.le_refl _, Int.le_add_of_nonneg_right (by decide)⟩

theorem appendPayload_spec (t : DemuxTrackState) (limit : Nat) (payload : Bytes)
    (hlimit : t.pesBuf.length ≤ limit) :
    let t' := (t.appendPayload limit payload).1
    t'.pid = t.pid ∧ t'.ptsWrapOffset = t.ptsWrapOffset ∧ t'.pesBuf.length ≤ limit ∧
      t'.pesBuf.length ≤ t.pesBuf.length + payload.length := by
  unfold appendPayload
  split
  · split
    · exact ⟨rfl, rfl, Nat.zero_le _, Nat.zero_le _⟩
    · refine ⟨rfl, rfl, ?_, ?_⟩ <;> simp only [List.length_append] <;> omega
  · exact ⟨rfl, rfl, hlimit, Nat.le_add_right _ _⟩

theorem feed_yields {limit : Nat} (h : Room allow t (packets + 1))
    (hlimit : t.pesBuf.length ≤ limit) (hpayload : payload.length ≤ 188) :
    Yields allow (t.feed limit pusi cc payload) fun r =>
      r.1.pid = t.pid ∧ r.1.pesBuf.length ≤ limit ∧ Room allow r.1 packets := by
  unfold feed
  refine (startPes_yields (t := (t.checkContinuity cc).1) h).bind fun r hr => .pure ?_
  obtain ⟨hpid, hlen, hlow, hhigh⟩ := hr
  obtain ⟨hpid', hoffset, hlimit', hlen'⟩ :=
    appendPayload_spec r.1 limit payload (Nat.le_trans hlen hlimit)
  have hbuf : r.1.pesBuf.length ≤ t.pesBuf.length := hlen
  refine ⟨hpid'.trans hpid, hlimit', h.spend ?_ ?_ ?_⟩
  · exact Int.le_trans hlow (Int.le_of_eq hoffset.symm)
  · exact Int.le_trans (Int.le_of_eq hoffset) hhigh
  · exact Nat.le_trans hlen' (by omega)

end DemuxTrackState

namespace PacketDemuxer
open DemuxTrackState
variable {d : PacketDemuxer}

/-- What holds between two packets, with so many to come. -/
structure Sound (allow : Panic → Prop) (d : PacketDemuxer) (packets : Nat) : Prop where
  limit : ∀ t ∈ d.tracks, t.pesBuf.length ≤ d.config.maxReassemblyBytes
  nodup : (d.tracks.map (·.pid)).Nodup
  pmtSection : d.pmtSectionBuf.length < d.pmtSectionTargetLen.getD 3
  target : d.pmtSectionTargetLen.getD 3 ≤ 4098
  room : ∀ t ∈ d.tracks, t.Room allow packets
  fresh : allow .overflow ∨ SpareFor 0 0 packets

theorem Sound.mono (h : Sound allow d packets) (hle : packets' ≤ packets) :
    Sound allow d packets' :=
  { h with
    room := fun t ht => ⟨(h.room t ht).1, (h.room t ht).2.imp_right fun h =>
      h.mono (Int.le_refl _) (Nat.le_refl _) hle⟩
    fresh := h.fresh.imp_right fun h => h.mono (Int.le_refl _) (Nat.le_refl _) hle }

theorem sectionStart_yields (payload : Bytes) (pusi : Bool) :
    Yields allow (sectionStart payload pusi) fun r => ∀ data ∈ r, data.length ≤ payload.length := by
  unfold sectionStart
  split
  · rename_i h
    refine .byteAt_bind (List.length_pos_iff.mpr h.2) fun b _ => ?_
    dsimp only
    split
    · exact .pure nofun
    · refine .slice_bind (by omega) (Nat.le_refl _) (.pure ?_)
      rintro _ ⟨⟩
      rw [List.length_take]
      omega
  · refine .pure ?_
    rintro _ ⟨⟩
    exact Nat.le_refl _

theorem lengthAt_yields (h : i + 1 < data.length) :
    Yields allow (lengthAt data i) (· < 4096) := by
  refine .byteAt_bind (by omega) fun b _ => .byteAt_bind h fun b' _ => .pure ?_
  have hlow : (b &&& 0x0F).toNat < 16 := by
    rw [UInt8.toNat_and]
    exact Nat.lt_of_le_of_lt Nat.and_le_right (by decide)
  have := b'.toNat_lt
  omega

theorem pidAt_yields (h : i + 1 < data.length) : Yields allow (pidAt data i) fun _ => True :=
  .byteAt_bind (by omega) fun _ _ => .byteAt_bind h fun _ _ => .pure trivial

theorem checkCrc_yields (d : PacketDemuxer) (tablePid : Nat) (data : Bytes) (sectionEnd : Nat) :
    Yields allow (d.checkCrc tablePid data sectionEnd) fun _ => True := by
  unfold checkCrc
  split
  · refine .slice_bind (Nat.zero_le _) (by omega) (.slice_bind (by omega) (by omega) ?_)
    split <;> exact .pure trivial
  · exact .pure trivial

theorem parsePat_yields (h : Sound allow d packets) :
    Yields allow (d.parsePat payload pusi) fun r => Sound allow r.1 packets := by
  refine (sectionStart_yields payload pusi).bind fun start hstart => ?_
  cases start with
  | none => exact .pure h
  | some data =>
    dsimp only
    split
    · exact .pure h
    · refine (lengthAt_yields (by omega)).bind fun len hlen => ?_
      split
      · exact .pure h
      · refine (checkCrc_yields ..).bind fun r _ => ?_
        split
        · exact (pidAt_yields (by omega)).bind fun pid _ => .pure { h with }
        · exact .pure h

theorem sectionTarget_yields (h : target.getD 3 ≤ 4098) :
    Yields allow (sectionTarget target buf) fun r =>
      r.getD 3 ≤ 4098 ∧ (r = none → buf.length < 3) := by
  unfold sectionTarget
  split
  · refine (lengthAt_yields (by omega)).bind fun len hlen => .pure ⟨?_, nofun⟩
    show 3 + len ≤ 4098
    omega
  · rename_i hnot
    exact .pure ⟨h, fun hnone => Nat.lt_of_not_le fun hle => hnot ⟨hnone, hle⟩⟩

/-- Between two packets less than a section is held. -/
theorem reassemblePmtSection_yields (h : Sound allow d packets) :
    Yields allow (d.reassemblePmtSection payload pusi) fun r => Sound allow r.1 packets := by
  have hempty : ∀ {d' : PacketDemuxer}, Sound allow d' packets →
      Sound allow { d' with pmtSectionBuf := [], pmtSectionTargetLen := none } packets :=
    fun h => { h with
      pmtSection := show 0 < 3 by decide
      target := show 3 ≤ 4098 by decide }
  unfold reassemblePmtSection
  refine (sectionStart_yields payload pusi).bind fun start hstart => ?_
  cases start with
  | none => exact .pure h
  | some data =>
    dsimp only
    generalize hd' : (if pusi = true ∧ payload ≠ [] then _ else d) = d'
    have h' : Sound allow d' packets := by
      rw [← hd']
      split
      · exact hempty h
      · exact h
    split
    · exact .pure h'
    · refine (sectionTarget_yields h'.target).bind fun target htarget => ?_
      cases target with
      | none => exact .pure { h' with pmtSection := htarget.2 rfl, target := htarget.1 }
      | some targetLen =>
        dsimp only
        split
        · rename_i hlt
          exact .pure { h' with pmtSection := hlt, target := htarget.1 }
        · exact .slice_bind (Nat.zero_le _) (by omega) (.pure (hempty h'))

/-- A new track has the PID of no other. -/
theorem addTrack_sound (h : Sound allow d packets) (hnew : ∀ t ∈ d.tracks, t.pid ≠ esPid) :
    Sound allow (d.addTrack streamType esPid esInfo esInfoLen).1 packets := by
  unfold addTrack
  dsimp only
  split
  · exact h
  · refine { h with limit := ?_, nodup := ?_, room := ?_ }
    · intro t ht
      rcases List.mem_append.mp ht with ht | ht
      · exact h.limit t ht
      · rw [List.mem_singleton.mp ht]
        exact Nat.zero_le _
    · rw [List.map_append, List.nodup_append]
      refine ⟨h.nodup, List.pairwise_singleton _ _, ?_⟩
      intro pid hpid pid' hpid'
      obtain ⟨t, ht, rfl⟩ := List.mem_map.mp hpid
      rw [List.mem_singleton.mp hpid']
      exact hnew t ht
    · intro t ht
      rcases List.mem_append.mp ht with ht | ht
      · exact h.room t ht
      · rw [List.mem_singleton.mp ht]
        exact ⟨Int.le_refl _, h.fresh⟩

theorem esInfoAt_yields (h : start ≤ data.length) :
    Yields allow (esInfoAt data streamType start len) fun _ => True := by
  unfold esInfoAt
  split
  · exact .slice (by omega) (by omega) trivial
  · exact .pure trivial

theorem parsePmtEntriesWithin_yields (hlast : last ≤ data.length) (passes : Nat)
    (d : PacketDemuxer) (pos : Nat) (h : Sound allow d packets) :
    Yields allow (parsePmtEntriesWithin data last passes d pos) fun r =>
      Sound allow r.1 packets := by
  induction passes generalizing d pos with
  | zero => exact .pure h
  | succ passes ih =>
    unfold parsePmtEntriesWithin
    split
    · refine .byteAt_bind (by omega) fun streamType _ => ?_
      refine (pidAt_yields (by omega)).bind fun esPid _ => ?_
      refine (lengthAt_yields (by omega)).bind fun esInfoLen _ => ?_
      split
      · exact ih d _ h
      · rename_i hnew
        refine (esInfoAt_yields (by omega)).bind fun esInfo _ => ?_
        refine (ih _ _ (addTrack_sound h ?_)).bind fun r hr => .pure hr
        intro t ht hpid
        exact hnew (List.any_eq_true.mpr ⟨t, ht, decide_eq_true hpid⟩)
    · exact .pure h

theorem parsePmtSection_yields (h : Sound allow d packets) :
    Yields allow (d.parsePmtSection data) fun r => Sound allow r.1 packets := by
  unfold parsePmtSection
  split
  · exact .pure h
  · refine (lengthAt_yields (by omega)).bind fun len _ => ?_
    dsimp only
    split
    · exact .pure h
    · refine (checkCrc_yields ..).bind fun r _ => ?_
      split
      · refine (lengthAt_yields (by omega)).bind fun progInfoLen _ => ?_
        exact (parsePmtEntriesWithin_yields (by omega) _ _ _ h).bind fun r hr => .pure hr
      · exact .pure h

theorem parsePmt_yields (h : Sound allow d packets) :
    Yields allow (d.parsePmt payload pusi) fun r => Sound allow r.1 packets := by
  refine (reassemblePmtSection_yields h).bind fun r hr => ?_
  obtain ⟨d', section_⟩ := r
  cases section_ with
  | none => exact .pure hr
  | some data => exact parsePmtSection_yields hr

/-- The track of a packet changes, and no other. -/
theorem Sound.set (h : Sound allow d (packets + 1)) (htrack : d.tracks[i]? = some t)
    (hpid : t'.pid = t.pid) (hlimit : t'.pesBuf.length ≤ d.config.maxReassemblyBytes)
    (hroom : t'.Room allow packets) :
    Sound allow { d with tracks := d.tracks.set i t' } packets := by
  have hmono := h.mono (Nat.le_succ packets)
  refine { hmono with limit := ?_, nodup := ?_, room := ?_ }
  · intro u hu
    rcases List.mem_or_eq_of_mem_set hu with hu | rfl
    · exact h.limit u hu
    · exact hlimit
  · obtain ⟨hi, hget⟩ := List.getElem?_eq_some_iff.mp htrack
    have hsame : (d.tracks.set i t').map (·.pid) = d.tracks.map (·.pid) := by
      rw [List.map_set, hpid, ← hget, ← List.map_set, List.set_getElem_self]
    rw [hsame]
    exact h.nodup
  · intro u hu
    rcases List.mem_or_eq_of_mem_set hu with hu | rfl
    · exact hmono.room u hu
    · exact hroom

theorem feedPayload_yields (h : Sound allow d (packets + 1)) (hpayload : payload.length ≤ 188) :
    Yields allow (d.feedPayload esPid pusi cc payload) fun r => Sound allow r.1 packets := by
  have hmono := h.mono (Nat.le_succ packets)
  unfold feedPayload
  split
  · exact parsePat_yields hmono
  · split
    · exact parsePmt_yields hmono
    · split
      · exact .pure hmono
      · split
        · exact .pure hmono
        · rename_i i hi
          obtain ⟨hlt, _, _⟩ := List.findIdx?_eq_some_iff_getElem.mp hi
          rw [List.getElem?_eq_getElem hlt]
          have hmem := List.getElem_mem hlt
          refine (feed_yields (h.room _ hmem) (h.limit _ hmem) hpayload).bind fun r hr => .pure ?_
          exact h.set (List.getElem?_eq_getElem hlt) hr.1 hr.2.1 hr.2.2

theorem payloadOffset_yields (h : pkt.length = 188) :
    Yields allow (payloadOffset pkt afControl) fun _ => True := by
  unfold payloadOffset
  split
  · exact .byteAt_bind (by omega) fun _ _ => .pure trivial
  · exact .pure trivial

theorem feedPacket_yields (h : Sound allow d (packets + 1)) (hpkt : pkt.length = 188) :
    Yields allow (d.feedPacket pkt) fun r => Sound allow r.1 packets := by
  have hmono := h.mono (Nat.le_succ packets)
  unfold feedPacket
  refine (pidAt_yields (by omega)).bind fun pid _ => ?_
  refine .byteAt_bind (by omega) fun b₁ _ => .byteAt_bind (by omega) fun b₃ _ => ?_
  refine (payloadOffset_yields hpkt).bind fun offset _ => ?_
  split
  · exact .pure hmono
  · rename_i hoffset
    split
    · exact .pure hmono
    · unfold TS_PACKET_SIZE at hoffset
      refine .slice_bind (by omega) (Nat.le_refl _) (feedPayload_yields h ?_)
      rw [List.length_take]
      omega

theorem feedNext_yields (h : Sound allow d packets) (hrest : rest.length / 188 ≤ packets) :
    Yields allow (d.feedNext rest) fun r => ∀ d' events rest', r = some (d', events, rest') →
      ∃ left, Sound allow d' left ∧ rest'.length / 188 ≤ left := by
  unfold feedNext
  split
  · exact .pure nofun
  · rename_i hlen
    unfold TS_PACKET_SIZE at hlen ⊢
    refine .byteAt_bind (by omega) fun b _ => ?_
    split
    · refine .pure ?_
      intro d' events rest' hr
      obtain ⟨next, _, hr⟩ := Option.map_eq_some_iff.mp hr
      cases hr
      refine ⟨packets, h, ?_⟩
      rw [List.length_drop]
      omega
    · refine .slice_bind (Nat.zero_le _) (by omega) ?_
      obtain ⟨left, rfl⟩ : ∃ left, packets = left + 1 := ⟨packets - 1, by omega⟩
      refine (feedPacket_yields h ?_).bind fun r hr => .pure ?_
      · rw [List.length_take, List.length_drop]
        omega
      · rintro d' events rest' ⟨⟩
        refine ⟨left, hr, ?_⟩
        rw [List.length_drop]
        omega

theorem feedPacketsWithin_yields (passes : Nat) (d : PacketDemuxer) (rest : Bytes)
    (h : Sound allow d packets) (hrest : rest.length / 188 ≤ packets) :
    Yields allow (feedPacketsWithin passes d rest) fun r => Sound allow r.1 0 := by
  induction passes generalizing d rest packets with
  | zero => exact .pure (h.mono (Nat.zero_le _))
  | succ passes ih =>
    unfold feedPacketsWithin
    refine (feedNext_yields h hrest).bind fun r hr => ?_
    cases r with
    | none => exact .pure (h.mono (Nat.zero_le _))
    | some r =>
      obtain ⟨left, hsound, hleft⟩ := hr _ _ _ rfl
      exact (ih _ _ hsound hleft).bind fun r' hr' => .pure hr'

/-- What holds of a demuxer between two packets. -/
structure Bounded (d : PacketDemuxer) : Prop where
  limit : ∀ t ∈ d.tracks, t.pesBuf.length ≤ d.config.maxReassemblyBytes
  nodup : (d.tracks.map (·.pid)).Nodup
  pmtSection : d.pmtSectionBuf.length < d.pmtSectionTargetLen.getD 3
  target : d.pmtSectionTargetLen.getD 3 ≤ 4098
  offset : ∀ t ∈ d.tracks, 0 ≤ t.ptsWrapOffset

theorem Bounded.sound (h : Bounded d)
    (hspare : allow .overflow ∨ SpareFor 0 0 packets ∧
      ∀ t ∈ d.tracks, SpareFor t.ptsWrapOffset t.pesBuf.length packets) :
    Sound allow d packets :=
  { h with
    room := fun t ht => ⟨h.offset t ht, hspare.imp_right fun hspare => hspare.2 t ht⟩
    fresh := hspare.imp_right And.left }

theorem Sound.bounded (h : Sound allow d packets) : Bounded d :=
  { h with offset := fun t ht => (h.room t ht).1 }

theorem flushTracks_yields (ts : List DemuxTrackState) (h : ∀ t ∈ ts, t.Room allow packets) :
    Yields allow (flushTracks ts) fun _ => True := by
  induction ts with
  | nil => exact .pure trivial
  | cons t ts ih =>
    refine (finishPes_yields (h t List.mem_cons_self)).bind fun r _ => ?_
    exact (ih fun u hu => h u (List.mem_cons_of_mem _ hu)).bind fun _ _ => .pure trivial

end PacketDemuxer

namespace MpegTsDemuxer
open DemuxTrackState PacketDemuxer
variable {d : MpegTsDemuxer}

theorem Bounded.new (config : MpegTsDemuxerConfig) : Bounded (new config).toPacketDemuxer where
  limit := List.forall_mem_nil _
  nodup := List.nodup_nil
  pmtSection := show 0 < 3 by decide
  target := show 3 ≤ 4098 by decide
  offset := List.forall_mem_nil _

/-- The times fit for the packets that a push brings. -/
def Spare (d : MpegTsDemuxer) (data : Bytes) : Prop :=
  let packets := (d.remainder.length + data.length) / 188
  SpareFor 0 0 packets ∧ ∀ t ∈ d.tracks, SpareFor t.ptsWrapOffset t.pesBuf.length packets

/-- The times fit at every push of a run, and for the flush after it. -/
def Spares : MpegTsDemuxer → List Bytes → Prop
  | d, [] => d.Spare []
  | d, data :: pieces =>
    d.Spare data ∧ ∀ d' events, d.push data = .ok (d', events) → Spares d' pieces

theorem push_yields (h : Bounded d.toPacketDemuxer) (hspare : allow .overflow ∨ d.Spare data) :
    Yields allow (d.push data) fun r => Bounded r.1.toPacketDemuxer := by
  unfold push
  dsimp only
  split
  · exact .slice_bind (by omega) (Nat.le_refl _) (.pure h)
  · rename_i pos _
    refine (feedPacketsWithin_yields _ _ _ (h.sound hspare) ?_).bind fun r hr => .pure hr.bounded
    rw [List.length_drop, List.length_append]
    omega

theorem flush_yields (h : Bounded d.toPacketDemuxer) (hspare : allow .overflow ∨ d.Spare []) :
    Yields allow d.flush fun _ => True :=
  (flushTracks_yields d.tracks (h.sound hspare).room).bind fun _ _ => .pure trivial

theorem pushAll_yields (allow : Panic → Prop) (pieces : List Bytes) (h : Bounded d.toPacketDemuxer)
    (hspare : allow .overflow ∨ d.Spares pieces) :
    Yields allow (d.pushAll pieces) fun r =>
      Bounded r.1.toPacketDemuxer ∧ Yields allow r.1.flush fun _ => True := by
  induction pieces generalizing d with
  | nil => exact .pure ⟨h, flush_yields h hspare⟩
  | cons data pieces ih =>
    have hpush := push_yields h (hspare.imp_right fun hspare => hspare.1)
    unfold pushAll
    cases hr : d.push data with
    | error e =>
      rw [hr] at hpush
      cases hpush with
      | error he => exact .error he
    | ok r =>
      have hb := hpush.of_ok hr
      refine (ih hb (hspare.imp_right fun hspare => hspare.2 r.1 r.2 hr)).bind fun r' hr' => ?_
      exact .pure hr'

/-- Whatever bytes come, nothing but the arithmetic on timestamps can stop the demuxer, its
buffers stay bounded and its tracks apart. Where the times fit nothing stops it, and where
the bytes are in sync they may be cut in any way. -/
theorem hostile_input (config : MpegTsDemuxerConfig) (pieces : List Bytes) :
    (∀ e, (new config).pushAll pieces = .error e → e = .overflow) ∧
    (∀ d events, (new config).pushAll pieces = .ok (d, events) →
      Bounded d.toPacketDemuxer ∧ ∀ e, d.flush = .error e → e = .overflow) ∧
    ((new config).Spares pieces → ∃ d events, (new config).pushAll pieces = .ok (d, events) ∧
      ∃ d' last, d.flush = .ok (d', last)) ∧
    (InSync pieces.flatten → ∀ pieces', pieces'.flatten = pieces.flatten →
      (new config).pushAll pieces' = (new config).pushAll pieces) := by
  have hpanic := pushAll_yields (· = .overflow) pieces (Bounded.new config) (.inl rfl)
  refine ⟨fun e he => ?_, fun d events hok => ?_, fun hspares => ?_, fun hsync pieces' hcut => ?_⟩
  · rw [he] at hpanic
    cases hpanic with
    | error h => exact h
  · obtain ⟨hbounded, hflush⟩ := hpanic.of_ok hok
    refine ⟨hbounded, fun e he => ?_⟩
    rw [he] at hflush
    cases hflush with
    | error h => exact h
  · obtain ⟨r, hr, -, hflush⟩ :=
      (pushAll_yields (fun _ => False) pieces (Bounded.new config) (.inr hspares)).exists_ok
    obtain ⟨last, hlast, -⟩ := hflush.exists_ok
    exact ⟨r.1, r.2, hr, last.1, last.2, hlast⟩
  · rw [pushAll_flatten pieces (.new config) hsync,
      pushAll_flatten pieces' (.new config) (hcut ▸ hsync), hcut]

/-- A packet with nothing in it. -/
def nullPacket : Bytes := [0x47, 0x1F, 0xFF, 0x10] ++ List.replicate 184 0xFF

theorem hostile_input_nullPacket :
    (∃ d events, (new {}).pushAll [nullPacket] = .ok (d, events) ∧
      ∃ d' last, d.flush = .ok (d', last)) ∧
    (new {}).pushAll [nullPacket.take 1, nullPacket.drop 1] = (new {}).pushAll [nullPacket] := by
  have hpush : (new {}).push nullPacket = .ok (new {}, []) := by decide +kernel
  have hspare : (new {}).Spare nullPacket ∧ (new {}).Spare [] :=
    ⟨⟨by decide +kernel, List.forall_mem_nil _⟩, ⟨by decide +kernel, List.forall_mem_nil _⟩⟩
  have hspares : (new {}).Spares [nullPacket] := by
    refine ⟨hspare.1, fun d' events h => ?_⟩
    rw [hpush] at h
    cases h
    exact hspare.2
  have hsync : InSync [nullPacket].flatten := by
    refine Aligned.inSync fun k hk => ?_
    have hlen : [nullPacket].flatten.length = 188 := by decide +kernel
    obtain rfl : k = 0 := by omega
    decide +kernel
  exact ⟨(hostile_input {} [nullPacket]).2.2.1 hspares,
    (hostile_input {} [nullPacket]).2.2.2 hsync _ (by decide +kernel)⟩

/-- Garbage that holds sync bytes, of which none has another one a packet later. -/
def falseSync : Bytes := [0xAA, 0x47, 0x00, 0x00, 0x00, 0x47] ++ List.replicate 184 0x00

/-- One push of it loses sync once; after a cut the sync byte that was taken in the first
piece is given up again in the second. -/
theorem falseSync_cut :
    [falseSync.take 2, falseSync.drop 2].flatten = [falseSync].flatten ∧
    ((new {}).pushAll [falseSync]).map (·.2) = .ok [.diagnostic .syncLoss] ∧
    ((new {}).pushAll [falseSync.take 2, falseSync.drop 2]).map (·.2) =
      .ok [.diagnostic .syncLoss, .diagnostic .syncLoss] := by
  decide +kernel

end MpegTsDemuxer
end CheetahMedia.Codec
