import CheetahMedia.Codec.Audio
import CheetahMedia.Codec.Ps.Taking
import CheetahMedia.Codec.Ts.Frames

namespace CheetahMedia.Codec

/-- A well-formed ADTS frame: its header, the checksum of a frame that is protected, and its raw
data blocks. -/
structure AdtsFrame where
  mpeg2 : Bool := false
  crc : Option (UInt8 × UInt8) := none
  profile : Fin 4
  samplingFrequencyIndex : Fin 13
  privateBit : Fin 2 := 0
  channelConfiguration : Fin 8
  copyBits : Fin 16 := 0
  fullness : Fin 2048 := 2047
  /-- One less than there are raw data blocks. -/
  moreBlocks : Fin 4 := 0
  raw : Bytes
  single : crc.isSome → moreBlocks = 0
  fits : 7 + crc.elim 0 (fun _ => 2) + raw.length < 8192

namespace AdtsFrame

def crcBytes (f : AdtsFrame) : Bytes := f.crc.elim [] fun crc => [crc.1, crc.2]

/-- What follows the part of the header that each frame has. -/
def body (f : AdtsFrame) : Bytes := f.crcBytes ++ f.raw

/-- The seven bytes that each frame begins with. -/
def fixedHeader (f : AdtsFrame) : Bytes :=
  let frameLength := 7 + f.body.length
  [0xFF, UInt8.ofNat (240 + 8 * f.mpeg2.toNat + if f.crc.isSome then 0 else 1),
    UInt8.ofNat (f.profile * 64 + f.samplingFrequencyIndex * 4 + f.privateBit * 2 +
      f.channelConfiguration / 4),
    UInt8.ofNat (f.channelConfiguration % 4 * 64 + f.copyBits * 4 + frameLength / 2048),
    UInt8.ofNat (frameLength / 8 % 256),
    UInt8.ofNat (frameLength % 8 * 32 + f.fullness / 64),
    UInt8.ofNat (f.fullness % 64 * 4 + f.moreBlocks)]

def bytes (f : AdtsFrame) : Bytes := f.fixedHeader ++ f.body

@[simp] theorem length_fixedHeader (f : AdtsFrame) : f.fixedHeader.length = 7 := rfl

@[simp] theorem length_bytes (f : AdtsFrame) : f.bytes.length = 7 + f.body.length := by
  simp [bytes]

theorem length_body_lt (f : AdtsFrame) : 7 + f.body.length < 8192 := by
  have := f.fits
  cases hcrc : f.crc <;> simp [body, crcBytes, hcrc] at this ⊢ <;> omega

theorem body_eq_raw_iff (f : AdtsFrame) : f.body = f.raw ↔ f.crc = none := by
  cases hcrc : f.crc with
  | none => simp [body, crcBytes, hcrc]
  | some crc =>
    refine ⟨fun h => ?_, nofun⟩
    have hlength := congrArg List.length h
    simp [body, crcBytes, hcrc] at hlength
    omega

theorem sync_bits : ∀ mpeg2 : Bool, ∀ absent : Fin 2,
    UInt8.ofNat (240 + 8 * mpeg2.toNat + absent) &&& 0xf0 = 0xf0 := by
  decide

theorem sync (f : AdtsFrame) :
    UInt8.ofNat (240 + 8 * f.mpeg2.toNat + if f.crc.isSome then 0 else 1) &&& 0xf0 = 0xf0 := by
  have hbits := sync_bits f.mpeg2 (if f.crc.isSome then 0 else 1)
  revert hbits
  cases f.crc <;> exact id

theorem config_bits : ∀ (profile : Fin 4) (index : Fin 13) (bit : Fin 2) (high : Fin 2),
    (UInt8.ofNat (profile * 64 + index * 4 + bit * 2 + high) >>> 6) &&& 0x03 = UInt8.ofNat profile ∧
      (UInt8.ofNat (profile * 64 + index * 4 + bit * 2 + high) >>> 2) &&& 0x0f = UInt8.ofNat index ∧
      (UInt8.ofNat (profile * 64 + index * 4 + bit * 2 + high) &&& 0x01) = UInt8.ofNat high := by
  decide +kernel

theorem length_bits : ∀ (low : Fin 4) (copyBits : Fin 16) (high : Fin 4),
    (UInt8.ofNat (low * 64 + copyBits * 4 + high) >>> 6) &&& 0x03 = UInt8.ofNat low ∧
      (UInt8.ofNat (low * 64 + copyBits * 4 + high) &&& 0x03).toNat = high := by
  decide +kernel

theorem fullness_bits : ∀ (low : Fin 8) (high : Fin 32),
    ((UInt8.ofNat (low * 32 + high) >>> 5) &&& 0x07).toNat = low := by
  decide +kernel

theorem channel_bits : ∀ channels : Fin 8,
    (UInt8.ofNat (channels / 4 : Nat) <<< 2) ||| UInt8.ofNat (channels % 4 : Nat) =
      UInt8.ofNat channels := by
  decide

/-- The header is read back, whatever follows the frame. -/
theorem parse_bytes (f : AdtsFrame) (rest : Bytes) : AdtsHeader.parse (f.bytes ++ rest) = some
    { profile := UInt8.ofNat f.profile
      samplingFrequencyIndex := UInt8.ofNat f.samplingFrequencyIndex
      channelConfiguration := UInt8.ofNat f.channelConfiguration
      frameLength := f.bytes.length } := by
  have hlength := f.length_body_lt
  obtain ⟨hprofile, hindex, hhigh⟩ := config_bits f.profile f.samplingFrequencyIndex f.privateBit
    ⟨f.channelConfiguration / 4, by omega⟩
  obtain ⟨hlow, htop⟩ := length_bits ⟨f.channelConfiguration % 4, by omega⟩ f.copyBits
    ⟨(7 + f.body.length) / 2048, by omega⟩
  have hmid : (UInt8.ofNat ((7 + f.body.length) / 8 % 256)).toNat =
      (7 + f.body.length) / 8 % 256 := UInt8.toNat_ofNat_of_lt (Nat.mod_lt _ (by decide))
  have hbottom := fullness_bits ⟨(7 + f.body.length) % 8, by omega⟩ ⟨f.fullness / 64, by omega⟩
  have hchannels := channel_bits f.channelConfiguration
  dsimp only at hprofile hindex hhigh hlow htop hbottom
  rw [bytes, List.append_assoc, fixedHeader]
  simp only [List.cons_append, AdtsHeader.parse, f.sync, hprofile, hindex, hhigh, hlow, htop, hmid,
    hbottom, hchannels]
  simp
  omega

end AdtsFrame

/-- A payload of ADTS frames. -/
def adtsPayload (frames : List AdtsFrame) : Bytes := frames.flatMap AdtsFrame.bytes

section Splitting
open Lib Checked

variable {allow : Panic → Prop} {frames : List AdtsFrame}

theorem AdtsFrame.index_le (f : AdtsFrame) : ¬UInt8.ofNat f.samplingFrequencyIndex > 12 := by
  have hall : ∀ index : Fin 13, ¬UInt8.ofNat index > 12 := by decide
  exact hall f.samplingFrequencyIndex

namespace DemuxTrackState
variable {t : DemuxTrackState}

/-- Of each frame the demuxer of a transport stream shows all that follows its first seven bytes. -/
theorem splitAacAdtsFramesWithin_bodies (passes : Nat) (t : DemuxTrackState)
    (hpts : Fits allow pts payload.length) (hdts : Fits allow dts payload.length)
    (hidx : frameIdx ≤ offset) (hpasses : frames.length ≤ passes)
    (hrest : payload.drop offset = adtsPayload frames) :
    Yields allow (splitAacAdtsFramesWithin payload pts dts passes t offset frameIdx) fun r =>
      (framesOf r.2).map (·.payload) = frames.map (·.body) := by
  induction frames generalizing passes t offset frameIdx with
  | nil =>
    have hend : offset ≥ payload.length := List.drop_eq_nil_iff.mp hrest
    cases passes with
    | zero => exact .pure rfl
    | succ passes =>
      unfold splitAacAdtsFramesWithin
      rw [if_pos hend]
      exact .pure rfl
  | cons f frames ih =>
    obtain ⟨passes, rfl⟩ := Nat.exists_eq_add_of_lt hpasses
    have hrest' : payload.drop offset = f.bytes ++ adtsPayload frames := hrest
    have hlength : payload.length - offset = f.bytes.length + (adtsPayload frames).length := by
      rw [← List.length_drop, hrest', List.length_append]
    have hbytes := f.length_bytes
    unfold splitAacAdtsFramesWithin
    rw [if_neg (by omega)]
    refine .slice_bind (by omega) (Nat.le_refl _) ?_
    rw [List.take_of_length_le (by simp), hrest', AdtsFrame.parse_bytes]
    dsimp only
    rw [if_neg (by omega), if_neg (by omega), if_neg f.index_le]
    have hstep : frameIdx * (if aacSampleRate (UInt8.ofNat f.samplingFrequencyIndex) > 0 then
        1024 * 90000 / aacSampleRate (UInt8.ofNat f.samplingFrequencyIndex) else 0) ≤
          12538 * payload.length := by
      calc _ ≤ payload.length * 12538 := Nat.mul_le_mul (by omega) (aacDuration_le _)
        _ = 12538 * payload.length := Nat.mul_comm _ _
    refine .slice_bind (by omega) (by simp) ?_
    refine .u64_bind (hpts.advance hstep).1 (.u64_bind (hdts.advance hstep).1 ?_)
    refine (frame_shows (hpts.advance hstep).2.i64 (hdts.advance hstep).2.i64).bind
      fun shown hshown => ?_
    refine (ih _ _ (by omega) (by omega) ?_).bind fun r hr => .pure ?_
    · rw [← List.drop_drop, hrest', List.drop_left]
    · have hbody : shown.payload = f.body := by
        rw [hshown.payload, hbytes, Nat.add_sub_cancel_left]
        exact List.take_left
      simp [hbody, hr]

/-- The times of the frames of a PES of so many bytes can be counted in microseconds. -/
def TimesFit (pts dts : Int) (len : Nat) : Prop :=
  Fits (fun _ => False) pts len ∧ Fits (fun _ => False) dts len

/-- The raw data blocks of the frames are shown, in order, and nothing else; only where their
times do not fit may there be a panic. -/
def ShowsRaw (t : DemuxTrackState) (pts dts : Int) (frames : List AdtsFrame) : Prop :=
  Yields (fun _ => ¬TimesFit pts dts (adtsPayload frames).length)
    (t.parsePesPayload (adtsPayload frames) pts dts)
    fun r => (framesOf r.2).map (·.payload) = frames.map (·.raw)

theorem length_le_adtsPayload (frames : List AdtsFrame) :
    frames.length ≤ (adtsPayload frames).length := by
  induction frames with
  | nil => exact Nat.zero_le _
  | cons f frames ih =>
    have hlength : (adtsPayload (f :: frames)).length =
        f.bytes.length + (adtsPayload frames).length := List.length_append
    rw [hlength, f.length_bytes, List.length_cons]
    omega

theorem parsePesPayload_bodies (hcodec : t.codec = .aac) (hprobe : t.pendingPrivateProbe = false)
    (pts dts : Int) (frames : List AdtsFrame) :
    Yields (fun _ => ¬TimesFit pts dts (adtsPayload frames).length)
      (t.parsePesPayload (adtsPayload frames) pts dts)
      fun r => (framesOf r.2).map (·.payload) = frames.map (·.body) := by
  unfold parsePesPayload
  rw [hprobe, if_neg Bool.false_ne_true, if_pos hcodec]
  have hfits : Fits (fun _ => ¬TimesFit pts dts (adtsPayload frames).length) pts
      (adtsPayload frames).length ∧ Fits (fun _ => ¬TimesFit pts dts (adtsPayload frames).length) dts
      (adtsPayload frames).length := by
    by_cases hfit : TimesFit pts dts (adtsPayload frames).length
    · exact ⟨hfit.1.imp_left False.elim, hfit.2.imp_left False.elim⟩
    · exact ⟨.inl hfit, .inl hfit⟩
  exact splitAacAdtsFramesWithin_bodies _ t hfits.1 hfits.2 (Nat.le_refl _)
    (length_le_adtsPayload frames) rfl

theorem bodies_eq_raws_iff (frames : List AdtsFrame) :
    frames.map (·.body) = frames.map (·.raw) ↔ ∀ f ∈ frames, f.crc = none := by
  rw [List.map_inj_left]
  exact forall₂_congr fun f _ => f.body_eq_raw_iff

/-- A transport stream loses no frame, but the checksums stay in. -/
theorem showsRaw_iff (hcodec : t.codec = .aac) (hprobe : t.pendingPrivateProbe = false)
    (hfit : TimesFit pts dts (adtsPayload frames).length) :
    t.ShowsRaw pts dts frames ↔ ∀ f ∈ frames, f.crc = none := by
  have hbodies := parsePesPayload_bodies hcodec hprobe pts dts frames
  refine ⟨fun hshows => ?_, fun hnone => hbodies.mono fun r hr => ?_⟩
  · obtain ⟨r, hr, hraws⟩ := (hshows.of_not hfit).exists_ok
    exact (bodies_eq_raws_iff frames).mp ((hbodies.of_ok hr).symm.trans hraws)
  · exact hr.trans ((bodies_eq_raws_iff frames).mpr hnone)

end DemuxTrackState

namespace PsDemuxer
variable {order : MapOrder} {d : PsDemuxer} {streamId : UInt8} {pes : PesPacket}

/-- Audio packets are those of a track of AAC, or the first ones. -/
def TakesAac (order : MapOrder) (d : PsDemuxer) (streamId : UInt8) : Prop :=
  (∃ entry, order.findKind d.tracks .audio = some entry ∧ entry.2.codec = .aac) ∨
    order.findKind d.tracks .audio = none ∧ d.hasRoom streamId

/-- The raw data blocks of the frames are given out, in order, and nothing else. -/
def ShowsRaw (order : MapOrder) (d : PsDemuxer) (streamId : UInt8) (pes : PesPacket)
    (frames : List AdtsFrame) : Prop :=
  (psFrames (d.handleAudio order streamId { pes with payload := adtsPayload frames }).2).map
    (·.payload) = frames.map (·.raw)

theorem stripAacAdts_frames (f : AdtsFrame) (frames : List AdtsFrame) :
    stripAacAdts (adtsPayload (f :: frames)) = if f.body.isEmpty then none
      else some (aacSampleRate (UInt8.ofNat f.samplingFrequencyIndex), f.body) := by
  have hrate : aacSampleRate (UInt8.ofNat f.samplingFrequencyIndex) ≠ 0 := by
    have hall : ∀ index : Fin 13, aacSampleRate (UInt8.ofNat index) ≠ 0 := by decide
    exact hall f.samplingFrequencyIndex
  have hpayload : adtsPayload (f :: frames) = f.bytes ++ adtsPayload frames := rfl
  have hbytes := f.length_bytes
  have hbody : ((f.bytes ++ adtsPayload frames).take f.bytes.length).drop 7 = f.body := by
    rw [List.take_left]
    rfl
  rw [stripAacAdts, adtsStrip, hpayload, AdtsFrame.parse_bytes]
  simp only [Option.bind_eq_bind, Option.bind_some]
  rw [if_neg (by simp), Option.pure_def, Option.bind_some, hbody]
  simp [hrate]

theorem probeAudioCodec_frames (f : AdtsFrame) (frames : List AdtsFrame) (streamId : UInt8) :
    probeAudioCodec (adtsPayload (f :: frames)) streamId = .aac :=
  if_pos ⟨rfl, f.sync⟩

/-- Of all frames the demuxer of a program stream gives out what follows the first seven bytes
of the first one, or all of the payload if nothing does. -/
theorem handleAudio_adts (haac : TakesAac order d streamId) (f : AdtsFrame)
    (frames : List AdtsFrame) :
    (psFrames (d.handleAudio order streamId
      { pes with payload := adtsPayload (f :: frames) }).2).map (·.payload) =
      [if f.body.isEmpty then adtsPayload (f :: frames) else f.body] := by
  unfold handleAudio
  rcases haac with ⟨⟨key, track⟩, hfind, hcodec⟩ | ⟨hfind, hroom⟩
  · rw [hfind]
    dsimp only at hcodec ⊢
    unfold audioFrame
    rw [if_pos hcodec, stripAacAdts_frames]
    cases f.body.isEmpty with
    | true => rfl
    | false =>
      simp only [Bool.false_eq_true, if_false]
      split <;> rfl
  · rw [hfind]
    have hroom' : ¬(streamId ∉ d.tracks ∧ d.config.maxTracks ≤ d.tracks.keys.length) := by
      simp only [hasRoom, decide_eq_true_eq] at hroom
      rw [not_and_or, not_not, Nat.not_le]
      exact hroom
    dsimp only
    unfold probeAudio
    rw [if_neg hroom']
    dsimp only
    rw [probeAudioCodec_frames, if_pos rfl, stripAacAdts_frames]
    cases f.body.isEmpty with
    | true => rfl
    | false => rfl

/-- A program stream keeps to one frame for each packet, which has no checksum either. -/
theorem showsRaw_iff (haac : TakesAac order d streamId) (hne : frames ≠ []) :
    d.ShowsRaw order streamId pes frames ↔ ∃ f, frames = [f] ∧ f.crc = none ∧ f.raw ≠ [] := by
  cases frames with
  | nil => exact absurd rfl hne
  | cons f frames =>
    unfold ShowsRaw
    rw [handleAudio_adts haac]
    refine ⟨fun h => ?_, ?_⟩
    · obtain ⟨hraw, hrest⟩ := List.cons.inj h
      obtain rfl := List.map_eq_nil_iff.mp hrest.symm
      split at hraw
      · -- all seven bytes of a header stand for no data at all
        rename_i hempty
        have hbody := List.isEmpty_iff.mp hempty
        have hnone : f.raw = [] := (List.append_eq_nil_iff.mp hbody).2
        have hraw : adtsPayload [f] = f.raw := hraw
        rw [hnone] at hraw
        cases hraw
      · rename_i hbody
        rw [List.isEmpty_iff, hraw] at hbody
        exact ⟨f, rfl, f.body_eq_raw_iff.mp hraw, hbody⟩
    · rintro ⟨g, hg, hcrc, hraw⟩
      cases hg
      have hbody := f.body_eq_raw_iff.mpr hcrc
      rw [hbody, if_neg (by rwa [List.isEmpty_iff])]
      rfl

end PsDemuxer
/-- Both demuxers show the raw data blocks of a payload and nothing else just where it is one
frame with no checksum and some data. -/
theorem adts_exact_iff (order : MapOrder) (t : DemuxTrackState) (d : PsDemuxer) (streamId : UInt8)
    (pes : PesPacket) (pts dts : Int) (frames : List AdtsFrame) (hne : frames ≠ [])
    (hcodec : t.codec = .aac) (hprobe : t.pendingPrivateProbe = false)
    (haac : d.TakesAac order streamId) :
    t.ShowsRaw pts dts frames ∧ d.ShowsRaw order streamId pes frames ↔
      ∃ f, frames = [f] ∧ f.crc = none ∧ f.raw ≠ [] := by
  refine ⟨fun h => (PsDemuxer.showsRaw_iff haac hne).mp h.2, fun h => ⟨?_, ?_⟩⟩
  · obtain ⟨f, rfl, hcrc, -⟩ := h
    refine (DemuxTrackState.parsePesPayload_bodies hcodec hprobe pts dts [f]).mono fun r hr => ?_
    exact hr.trans ((DemuxTrackState.bodies_eq_raws_iff [f]).mpr (by simpa using hcrc))
  · exact (PsDemuxer.showsRaw_iff haac hne).mpr h

/-- A track of AAC in a transport stream. -/
def aacTrack : DemuxTrackState where
  pid := 257
  trackId := 1
  codec := .aac
  mediaKind := .audio
  clockRate := 44100
  pendingPrivateProbe := false

/-- A stereo frame at 44100 Hz. -/
def stereoFrame (raw : Bytes) (h : 7 + raw.length < 8192) : AdtsFrame where
  crc := none
  profile := 1
  samplingFrequencyIndex := 4
  channelConfiguration := 2
  raw := raw
  single _ := rfl
  fits := h

theorem adts_exact_iff_single :
    aacTrack.ShowsRaw 90000 90000 [stereoFrame [0x21, 0x10, 0x04] (by decide)] ∧
      (PsDemuxer.new {}).ShowsRaw .listed 0xC0 ⟨false, some 90000, none, []⟩
        [stereoFrame [0x21, 0x10, 0x04] (by decide)] :=
  (adts_exact_iff .listed aacTrack (.new {}) 0xC0 ⟨false, some 90000, none, []⟩ 90000 90000
    [stereoFrame [0x21, 0x10, 0x04] (by decide)] nofun rfl rfl (.inr ⟨rfl, by decide⟩)).mpr
    ⟨_, rfl, rfl, nofun⟩

/-- Of two frames in one packet of a program stream, the second one is lost. -/
theorem not_adts_exact : ¬∀ (order : MapOrder) (t : DemuxTrackState) (d : PsDemuxer)
    (streamId : UInt8) (pes : PesPacket) (pts dts : Int) (frames : List AdtsFrame),
    frames ≠ [] → t.codec = .aac → t.pendingPrivateProbe = false → d.TakesAac order streamId →
      t.ShowsRaw pts dts frames ∧ d.ShowsRaw order streamId pes frames := by
  intro h
  have hboth := (h .listed aacTrack (.new {}) 0xC0 ⟨false, some 90000, none, []⟩ 90000 90000
    [stereoFrame [0x21, 0x10, 0x04] (by decide), stereoFrame [0x21, 0x10, 0x05] (by decide)]
    nofun rfl rfl (.inr ⟨rfl, by decide⟩)).2
  unfold PsDemuxer.ShowsRaw at hboth
  revert hboth
  decide +kernel

end Splitting
end CheetahMedia.Codec
