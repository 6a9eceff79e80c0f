import Mathlib.Data.List.Sort
import CheetahMedia.Codec.Audio
import CheetahMedia.Codec.Ts
import CheetahMedia.Codec.Ts.Cutting

namespace CheetahMedia.Codec
open Lib

structure MpegTsMuxerConfig where
  videoPidBase : Nat := 0x0100
  audioPidBase : Nat := 0x0110

structure MuxTrackEntry where
  trackId : Nat
  pid : Nat
  streamId : UInt8
  codec : CodecId
  mediaKind : MediaKind
  cc : UInt8 := 0
  extradata : CodecExtradata

structure MpegTsMuxer where
  tracks : List MuxTrackEntry
  patCc : UInt8 := 0
  pmtCc : UInt8 := 0
  pcrPid : Nat

/-- The parameter sets, each after a start code. -/
def startCoded (units : List Bytes) : Bytes :=
  units.flatMap fun unit => [0x00, 0x00, 0x00, 0x01] ++ unit

def prependH264Params : CodecExtradata → Bytes
  | .h264 sps pps _ => startCoded sps ++ startCoded pps
  | _ => []

def prependH265Params : CodecExtradata → Bytes
  | .h265 vps sps pps _ => startCoded vps ++ startCoded sps ++ startCoded pps
  | _ => []

def prependH266Params : CodecExtradata → Bytes
  | .h266 vps sps pps => startCoded vps ++ startCoded sps ++ startCoded pps
  | _ => []

def isAdts : Bytes → Bool
  | b₀ :: b₁ :: _ => b₀ = 0xFF ∧ b₁ &&& 0xF0 = 0xF0
  | _ => false

/-- The payload behind an ADTS header, where the track has the configuration for one. -/
def wrapAacAdts (payload : Bytes) (extradata : CodecExtradata) : Option Bytes :=
  if isAdts payload then none
  else match extradata with
    | .aac asc => (AacAudioSpecificConfig.fromBytes asc).map fun asc =>
      let header : AdtsHeader :=
        { profile := (asc.audioObjectType - min asc.audioObjectType 1) &&& 0x03
          samplingFrequencyIndex := asc.samplingFrequencyIndex
          channelConfiguration := asc.channelConfiguration
          frameLength := min (payload.length + 7) 0xFFFF }
      header.build ++ payload
    | _ => none

def usTo90k (us : Int) : Nat := us.toNat * 9 / 100

def buildPes (streamId : UInt8) (payload : Bytes) (pts dts : Option Nat) : Bytes :=
  let hasDts := dts.isSome && dts ≠ pts
  let headerDataLen : Nat := if pts.isNone then 0 else if hasDts then 10 else 5
  let ptsDtsFlags : UInt8 := if pts.isNone then 0x00 else if hasDts then 0xC0 else 0x80
  let len := 3 + headerDataLen + payload.length
  let pesPacketLen := if streamId ≥ 0xE0 ∨ len > 0xFFFF then 0 else len
  [0x00, 0x00, 0x01, streamId] ++ toBigEndian 2 pesPacketLen ++
    [0x80, ptsDtsFlags, UInt8.ofNat headerDataLen] ++
    (match pts with
      | some ptsVal => encodeTimestamp (if hasDts then 0x03 else 0x02) ptsVal
      | none => []) ++
    (match dts with
      | some dtsVal => if hasDts then encodeTimestamp 0x01 dtsVal else []
      | none => []) ++
    payload

/-- The packets of a section, the last one filled up. Each takes some of the section, so its
length bounds the passes. -/
def writeSectionPacketsWithin (pid : Nat) : Nat → Bytes → UInt8 → Bool → Bytes × UInt8
  | passes + 1, b :: payload, cc, first =>
    let header := SYNC_BYTE :: packetPid pid first ++ [0x10 ||| (cc &&& 0x0F)] ++
      (if first then [0x00] else [])
    let available := TS_PACKET_SIZE - header.length
    let taken := (b :: payload).take available
    let pkt := header ++ taken ++ List.replicate (available - taken.length) 0xFF
    let (rest, cc) := writeSectionPacketsWithin pid passes ((b :: payload).drop available)
      ((cc + 1) &&& 0x0F) false
    (pkt ++ rest, cc)
  | _, _, cc, _ => ([], cc)

/-- `write_single_ts_packet`, which is called for the tables only. -/
def writeSectionPackets (pid : Nat) (payload : Bytes) (cc : UInt8) : Bytes × UInt8 :=
  writeSectionPacketsWithin pid payload.length payload cc true

/-- A section and its checksum. -/
def withCrc (payload : Bytes) : Bytes := payload ++ toBigEndian 4 (crc32Mpeg2 payload).toNat

/-- The entry of a track in the program map. -/
def MuxTrackEntry.pmtEntry (track : MuxTrackEntry) : Bytes :=
  let desc := registrationDescriptor track.codec
  streamTypeForCodec track.codec :: toBigEndian 2 (0xE000 ||| track.pid) ++
    toBigEndian 2 (0xF000 ||| desc.length) ++ desc

namespace MpegTsMuxer

/-- The next PIDs and stream ids, for video and for audio, and the entries so far. -/
structure Assignment where
  videoPid : Nat
  audioPid : Nat
  videoStreamId : UInt8 := 0xE0
  audioStreamId : UInt8 := 0xC0
  entries : List MuxTrackEntry := []

def Assignment.add (a : Assignment) (track : TrackInfo) : Assignment :=
  let entry (pid : Nat) (streamId : UInt8) : MuxTrackEntry :=
    { trackId := track.trackId
      pid := pid
      streamId := streamId
      codec := track.codec
      mediaKind := track.mediaKind
      extradata := track.extradata }
  match track.mediaKind with
  | .video => { a with
      videoPid := a.videoPid + 1
      videoStreamId := a.videoStreamId + 1
      entries := a.entries ++ [entry a.videoPid a.videoStreamId] }
  | .audio => { a with
      audioPid := a.audioPid + 1
      audioStreamId := a.audioStreamId + 1
      entries := a.entries ++ [entry a.audioPid a.audioStreamId] }
  | _ => a

/-- Video comes before audio, and a track before those of greater id. -/
def before (t u : TrackInfo) : Prop :=
  (t.mediaKind = .video ∧ u.mediaKind ≠ .video) ∨
    ((t.mediaKind = .video ↔ u.mediaKind = .video) ∧ t.trackId ≤ u.trackId)

instance : DecidableRel before := fun _ _ => inferInstanceAs (Decidable (_ ∨ _))

def new (config : MpegTsMuxerConfig) (tracks : List TrackInfo) : MpegTsMuxer :=
  let sorted :=
    (tracks.filter fun t => t.mediaKind = .video ∨ t.mediaKind = .audio).insertionSort before
  let entries := (sorted.foldl Assignment.add
    { videoPid := config.videoPidBase, audioPid := config.audioPidBase }).entries
  let reference := (entries.find? (·.mediaKind = .video)).or entries.head?
  { tracks := entries, pcrPid := (reference.map (·.pid)).getD config.videoPidBase }

def pat : Bytes :=
  withCrc ([0x00] ++ toBigEndian 2 (0xB000 ||| 13) ++ toBigEndian 2 1 ++ [0xC1, 0x00, 0x00] ++
    toBigEndian 2 1 ++ toBigEndian 2 (0xE000 ||| PMT_PID))

def pmt (m : MpegTsMuxer) : Bytes :=
  let body := toBigEndian 2 1 ++ [0xC1, 0x00, 0x00] ++ toBigEndian 2 (0xE000 ||| m.pcrPid) ++
    toBigEndian 2 0xF000 ++ m.tracks.flatMap MuxTrackEntry.pmtEntry
  withCrc ([0x02] ++ toBigEndian 2 (0xB000 ||| (body.length + 4)) ++ body)

def writeTables (m : MpegTsMuxer) : MpegTsMuxer × Bytes :=
  let (patBytes, patCc) := writeSectionPackets PAT_PID pat m.patCc
  let (pmtBytes, pmtCc) := writeSectionPackets PMT_PID m.pmt m.pmtCc
  ({ m with patCc := patCc, pmtCc := pmtCc }, patBytes ++ pmtBytes)

end MpegTsMuxer

namespace MuxTrackEntry

/-- The payload that goes into the PES of a frame. -/
def pesPayload (track : MuxTrackEntry) (frame : AVFrame) : Bytes :=
  let isVideo := track.mediaKind = .video
  let params (sets : CodecExtradata → Bytes) : Bytes := if frame.isKey then sets track.extradata else []
  match track.codec with
  | .h264 => if isVideo then AUD_H264 ++ params prependH264Params ++ frame.payload else frame.payload
  | .h265 => if isVideo then AUD_H265 ++ params prependH265Params ++ frame.payload else frame.payload
  | .h266 => if isVideo then AUD_H266 ++ params prependH266Params ++ frame.payload else frame.payload
  | .aac => (wrapAacAdts frame.payload track.extradata).getD frame.payload
  | _ => frame.payload

def pes (track : MuxTrackEntry) (frame : AVFrame) : Bytes :=
  buildPes track.streamId (track.pesPayload frame) (some (usTo90k frame.ptsUs))
    (if track.mediaKind = .video then some (usTo90k frame.dtsUs) else none)

end MuxTrackEntry

namespace MpegTsMuxer

/-- The packets of a frame; none for a frame of no track. -/
def pushFrame (m : MpegTsMuxer) (frame : AVFrame) : MpegTsMuxer × Bytes :=
  match m.tracks.findIdx? (·.trackId = frame.trackId) with
  | none => (m, [])
  | some idx => match m.tracks[idx]? with
    | none => (m, [])
    | some track =>
      let isReference := track.mediaKind = .video ∧ frame.isKey
      let (bytes, cc) := writePesPackets track.pid (track.pes frame) track.cc isReference
        (if isReference then some (usTo90k frame.dtsUs) else none)
      ({ m with tracks := m.tracks.set idx { track with cc := cc } }, bytes)

end MpegTsMuxer
end CheetahMedia.Codec

namespace CheetahMedia.Codec
open Lib Checked

theorem marker_bits (marker : Fin 16) : ((UInt8.ofNat marker <<< 4) >>> 1) &&& 0x07 = 0 := by
  revert marker
  decide

theorem low_bits_or (a b : UInt8) : (a ||| b) &&& 0x07 = (a &&& 0x07) ||| (b &&& 0x07) :=
  UInt8.toBitVec_inj.mp BitVec.and_or_distrib_right

theorem timestamp_low (b : UInt8) :
    ((((b &&& 0x0E) ||| 0x01) >>> 1) &&& 0x07).toNat = b.toNat / 2 % 8 :=
  forall_byte (P := fun b => ((((b &&& 0x0E) ||| 0x01) >>> 1) &&& 0x07).toNat = b.toNat / 2 % 8)
    (by decide +kernel) b

theorem timestamp_first (marker : Fin 16) (b : UInt8) :
    ((((UInt8.ofNat marker <<< 4) ||| (b &&& 0x0E) ||| 0x01) >>> 1) &&& 0x07).toNat =
      b.toNat / 2 % 8 := by
  rw [UInt8.or_assoc, UInt8.shiftRight_or, low_bits_or, marker_bits, UInt8.zero_or]
  exact timestamp_low b

theorem timestamp_odd : ∀ b : UInt8, (((b &&& 0xFE) ||| 0x01) >>> 1).toNat = b.toNat / 2 :=
  forall_byte (by decide +kernel)

/-- The 33 bits of a timestamp come back. -/
theorem decodeTimestamp_encode (marker : Fin 16) (ts : Nat) :
    decodeTimestamp (encodeTimestamp (UInt8.ofNat marker) ts) = .ok (ts % 8589934592) := by
  unfold encodeTimestamp
  generalize hn : ts % 8589934592 = n
  have hlt : n < 8589934592 := hn ▸ Nat.mod_lt _ (by decide)
  unfold decodeTimestamp
  dsimp only
  rw [byteAt_ok rfl, ok_bind, byteAt_ok rfl, ok_bind, byteAt_ok rfl, ok_bind, byteAt_ok rfl,
    ok_bind, byteAt_ok rfl, ok_bind, timestamp_first, timestamp_odd, timestamp_odd]
  simp only [UInt8.toNat_ofNat', pure_eq, Except.ok.injEq]
  omega

theorem encodeTimestamp_length (marker : UInt8) (ts : Nat) :
    (encodeTimestamp marker ts).length = 5 := rfl

theorem packetPid_bits (first : Bool) (high : Fin 32) :
    let b := UInt8.ofNat ((if first then 64 else 0) + high)
    (b &&& 0x1F).toNat = high ∧ decide (b &&& 0x40 ≠ 0) = first := by
  revert first high
  decide +kernel

/-- The two bytes after the sync byte, of a PID that has room in them. -/
theorem packetPid_eq (first : Bool) (h : pid < 8192) : packetPid pid first =
    [UInt8.ofNat ((if first then 64 else 0) + pid / 256), UInt8.ofNat pid] := by
  have hor : ((if first then 0x4000 else 0) ||| pid) = (if first then 0x4000 else 0) + pid := by
    cases first with
    | false => exact (Nat.zero_or pid).trans (Nat.zero_add pid).symm
    | true => exact (Nat.two_pow_add_eq_or_of_lt (i := 14) (by omega) 1).symm
  unfold packetPid
  rw [hor]
  have hhigh : ((if first then 0x4000 else 0) + pid) / 256 =
      (if first then 64 else 0) + pid / 256 := by
    cases first <;> simp only [if_true, Bool.false_eq_true, if_false] <;> omega
  have hlow : UInt8.ofNat ((if first then 0x4000 else 0) + pid) = UInt8.ofNat pid := by
    apply UInt8.toNat_inj.mp
    rw [UInt8.toNat_ofNat', UInt8.toNat_ofNat']
    cases first <;> simp only [if_true, Bool.false_eq_true, if_false] <;> omega
  show [UInt8.ofNat (_ / 256), UInt8.ofNat (_ / 1)] = _
  rw [Nat.div_one, hhigh, hlow]

theorem control_bits (b : UInt8) :
    (((0x10 ||| (b &&& 0x0F)) >>> 4) &&& 0x03 : UInt8) = 1 ∧
    (((0x30 ||| (b &&& 0x0F)) >>> 4) &&& 0x03 : UInt8) = 3 ∧
    ((0x10 ||| (b &&& 0x0F)) &&& 0x0F : UInt8) = b &&& 0x0F ∧
    ((0x30 ||| (b &&& 0x0F)) &&& 0x0F : UInt8) = b &&& 0x0F := by
  revert b
  exact forall_byte (by decide +kernel)

/-- What the muxer writes between the header of a packet and its payload: nothing, or a field
with its length. -/
inductive Between : UInt8 → Bytes → Prop
  | none : Between 0x10 []
  | field (h : t.length ≤ 183) : Between 0x30 (UInt8.ofNat t.length :: t)

/-- The demuxer finds the payload of a packet again. -/
theorem feedPacket_written {d : PacketDemuxer} (hpid : pid < 8192) (hbetween : Between flags field)
    (hlen : 4 + field.length + payload.length = 188) (hpayload : payload ≠ []) :
    d.feedPacket (SYNC_BYTE :: packetPid pid first ++ [flags ||| (cc &&& 0x0F)] ++ field ++
      payload) = d.feedPayload pid first (cc &&& 0x0F) payload := by
  have hhigh : pid / 256 < 32 := by omega
  obtain ⟨hbits, hfirst⟩ := packetPid_bits first ⟨pid / 256, hhigh⟩
  obtain ⟨hcontrol₁, hcontrol₃, hcc₁, hcc₃⟩ := control_bits cc
  have hpos := List.length_pos_iff.mpr hpayload
  rw [packetPid_eq first hpid]
  simp only [List.cons_append, List.nil_append]
  dsimp only at hbits hfirst
  generalize UInt8.ofNat ((if first = true then 64 else 0) + pid / 256) = high at hbits hfirst ⊢
  have hlow : (high &&& 0x1F).toNat * 256 + (UInt8.ofNat pid).toNat = pid := by
    rw [hbits, UInt8.toNat_ofNat']
    omega
  unfold PacketDemuxer.feedPacket PacketDemuxer.pidAt PacketDemuxer.payloadOffset TS_PACKET_SIZE
  simp only [byteAt_cons_succ, byteAt_cons_zero, ok_bind, pure_eq]
  rw [hlow, hfirst]
  cases hbetween with
  | none =>
    rw [hcontrol₁, hcc₁, if_neg (by decide), ok_bind, if_neg (by decide), if_neg (by decide),
      slice_ok (by simp) (Nat.le_refl _), ok_bind, List.take_of_length_le (by simp)]
    rfl
  | @field t h =>
    have hfive : 5 + (UInt8.ofNat t.length).toNat = 5 + t.length := by
      rw [UInt8.toNat_ofNat']
      omega
    rw [List.length_cons] at hlen
    rw [hcontrol₃, hcc₃, if_pos (by decide), List.cons_append, byteAt_cons_zero, ok_bind, ok_bind,
      hfive, if_neg (by omega), if_neg (by simp; omega),
      slice_ok (by simp; omega) (Nat.le_refl _), ok_bind, List.take_of_length_le (by simp)]
    congr 1
    rw [Nat.add_comm 5]
    exact List.drop_left

/-- Whole packets take the demuxer from one state to another. -/
structure Feeds (d : PacketDemuxer) (bytes : Bytes) (d' : PacketDemuxer)
    (events : List MpegTsDemuxEvent) : Prop where
  aligned : Aligned bytes
  whole : 188 ∣ bytes.length
  feed : d.feedPackets bytes = .ok (d', events, [])

theorem Aligned.append (h : Aligned a) (hwhole : 188 ∣ a.length) (h' : Aligned b) :
    Aligned (a ++ b) := by
  intro k hk
  obtain ⟨n, hn⟩ := hwhole
  by_cases hlt : 188 * k < a.length
  · rw [List.getElem?_append_left hlt]
    exact h k hlt
  · rw [List.length_append] at hk
    rw [List.getElem?_append_right (by omega), hn, ← Nat.mul_sub]
    exact h' (k - n) (by omega)

namespace Feeds
variable {d d' d'' : PacketDemuxer}

theorem nil : Feeds d [] d [] where
  aligned := .nil
  whole := ⟨0, rfl⟩
  feed := PacketDemuxer.feedPackets_short (by decide)

theorem packet (hlen : pkt.length = 187) (h : d.feedPacket (SYNC_BYTE :: pkt) = .ok (d', events)) :
    Feeds d (SYNC_BYTE :: pkt) d' events := by
  have haligned : Aligned (SYNC_BYTE :: pkt) := by
    intro k hk
    rw [List.length_cons, hlen] at hk
    obtain rfl : k = 0 := by omega
    rfl
  refine ⟨haligned, ⟨1, by rw [List.length_cons, hlen]⟩, ?_⟩
  rw [PacketDemuxer.feedPackets_aligned haligned (by rw [List.length_cons, hlen]),
    List.take_of_length_le (by rw [List.length_cons, hlen]), h, ok_bind,
    List.drop_of_length_le (by rw [List.length_cons, hlen])]
  dsimp only
  rw [PacketDemuxer.feedPackets_short (by decide)]
  simp only [ok_bind, pure_eq, List.append_nil]

theorem append (h : Feeds d a d' events) (h' : Feeds d' b d'' events') :
    Feeds d (a ++ b) d'' (events ++ events') := by
  have haligned := h.aligned.append h.whole h'.aligned
  refine ⟨haligned, ?_, ?_⟩
  · rw [List.length_append]
    exact Nat.dvd_add h.whole h'.whole
  · rw [PacketDemuxer.feedPackets_append haligned, h.feed]
    simp only [ok_bind, List.nil_append, h'.feed]
    rfl

end Feeds

/-- The stuffing fills the packet, with or without a field. -/
theorem stuffing_between (field : Bytes) (room : Nat) (h : field.length + room ≤ 183) :
    Between (if field.isEmpty ∧ room = 0 then 0x10 else 0x30) (stuffing field room) ∧
      (stuffing field room).length = if field.isEmpty then room else 1 + field.length + room := by
  unfold stuffing
  cases field with
  | nil =>
    match room with
    | 0 => exact ⟨.none, rfl⟩
    | 1 => exact ⟨.field (t := []) (by decide), rfl⟩
    | extra + 2 =>
      have hlen : (0x00 :: List.replicate extra (0xFF : UInt8)).length = extra + 1 := by simp
      rw [List.length_nil] at h
      have hfield := Between.field (t := 0x00 :: List.replicate extra 0xFF) (by omega)
      rw [hlen] at hfield
      exact ⟨hfield, by simp⟩
  | cons b field =>
    have hlen : (b :: field ++ List.replicate room (0xFF : UInt8)).length =
        (b :: field).length + room := by simp [Nat.add_right_comm]
    have hfield := Between.field (t := b :: field ++ List.replicate room 0xFF) (by omega)
    rw [hlen] at hfield
    exact ⟨hfield, by simp; omega⟩

/-- How a packet of a PES is laid out. -/
theorem writePesPacket_layout (hfield : field.length ≤ 182) (hpes : pes ≠ []) :
    ∃ flags between, ∃ taken > 0, taken ≤ pes.length ∧ Between flags between ∧
      4 + between.length + taken = 188 ∧
      writePesPacket pid pes cc first field = (SYNC_BYTE :: packetPid pid first ++
        [flags ||| (cc &&& 0x0F)] ++ between ++ pes.take taken, taken) := by
  have hpos := List.length_pos_iff.mpr hpes
  unfold writePesPacket TS_PACKET_SIZE
  dsimp only
  generalize havailable : 188 - (if field.isEmpty then 4 else 5 + field.length) = available
  obtain ⟨hbetween, hlen⟩ := stuffing_between field (available - min pes.length available) (by
    split at havailable <;> rename_i h
    · rw [List.isEmpty_iff.mp h, List.length_nil]
      omega
    · omega)
  refine ⟨_, _, _, ?_, Nat.min_le_left _ _, hbetween, ?_, rfl⟩
  · split at havailable <;> omega
  · rw [hlen]
    split at havailable <;> rename_i h
    · rw [if_pos h]
      omega
    · rw [if_neg h]
      omega

end CheetahMedia.Codec
