import CheetahMedia.Codec.Ps.Provenance
import Mathlib.Tactic.Tauto

namespace CheetahMedia.Codec
open Lib

namespace PsDemuxer
variable {order : MapOrder} {d d' : PsDemuxer} {log : PesLog} {streamId : UInt8}

/-- A video packet is taken where the video track that is found is its own, the bytes that are
held are of its own stream, and it does not need the time of another stream's. -/
structure VideoCalm (order : MapOrder) (log : PesLog) (d : PsDemuxer) (streamId : UInt8)
    (pes : PesPacket) : Prop where
  tracks : ∀ entry ∈ order.findKind d.tracks .video, entry.1 = streamId
  bytes : d.videoBuffer = [] ∨ log.lastOf true = some streamId
  stamps : pes.pts.isSome ∨ d.lastVideoPts = none ∨ log.lastOf true = some streamId ∨
    order.findKind d.tracks .video = none

instance : Decidable (VideoCalm order log d streamId pes) :=
  decidable_of_iff (_ ∧ _ ∧ _) ⟨fun h => ⟨h.1, h.2.1, h.2.2⟩, fun h => ⟨h.1, h.2, h.3⟩⟩

/-- What is held is of the stream of the last video packet that was taken. -/
theorem Kept.held (h : Kept log d) (hlast : log.lastOf true = some streamId) :
    VideoFrom log streamId d := by
  rcases h.video with ⟨s, hlast', hfrom⟩ | hclean
  · obtain rfl : streamId = s := Option.some.inj (hlast.symm.trans hlast')
    exact hfrom
  · exact hclean.videoFrom

theorem heldBuffer (h : Kept log d) (hbytes : d.videoBuffer = [] ∨ log.lastOf true = some streamId) :
    ∃ parts : List Bytes, parts.Sublist ((log.own streamId.toNat).map (·.payload)) ∧
      d.videoBuffer = parts.flatten := by
  rcases hbytes with hempty | hlast
  · exact ⟨[], List.nil_sublist _, hempty⟩
  · exact (h.held hlast).buffer

/-- The payload of a packet behind those of its stream. -/
theorem sublist_snoc {parts : List Bytes}
    (h : parts.Sublist ((log.own streamId.toNat).map (·.payload))) (pes : PesPacket) :
    (parts ++ [pes.payload]).Sublist
      ((PesLog.own (log ++ [(streamId, pes)]) streamId.toNat).map (·.payload)) := by
  rw [PesLog.own_snoc, List.map_append]
  exact h.append (List.Sublist.refl _)

theorem mem_own_snoc (log : PesLog) (streamId : UInt8) (pes : PesPacket) :
    pes ∈ PesLog.own (log ++ [(streamId, pes)]) streamId.toNat := by
  rw [PesLog.own_snoc]
  exact List.mem_append_right _ List.mem_cons_self

theorem mem_own_of_mem (h : p ∈ log.own trackId) (log' : PesLog) :
    p ∈ PesLog.own (log ++ log') trackId := by
  rw [PesLog.own_append]
  exact List.mem_append_left _ h

/-- A packet joins what is held of its stream. -/
theorem Kept.joinVideo {caches : AList fun _ : UInt8 => ParameterSetCache} (h : Kept log d)
    (hvideo : isVideoStreamId streamId = true) (hne : pes.payload ≠ [])
    (hbytes : d.videoBuffer = [] ∨ log.lastOf true = some streamId)
    (hstamps : pes.pts.isSome ∨ d.lastVideoPts = none ∨ log.lastOf true = some streamId)
    (hcaches : CachesFrom (log ++ [(streamId, pes)]) caches) :
    Kept (log ++ [(streamId, pes)]) { d.joinVideo pes with parameterSetCaches := caches } := by
  have hlast : PesLog.lastOf (log ++ [(streamId, pes)]) true = some streamId := by
    rw [PesLog.lastOf_snoc, if_pos hvideo]
  refine ⟨h.ids, .inl ⟨streamId, hlast, ?_, ?_, ?_⟩, ?_, audio_snoc hvideo h.audio pes, hcaches⟩
  · obtain ⟨parts, hparts, hflat⟩ := heldBuffer h hbytes
    refine ⟨parts ++ [pes.payload], sublist_snoc hparts pes, ?_⟩
    show d.videoBuffer ++ pes.payload = _
    rw [hflat, List.flatten_append, List.flatten_singleton]
  · intro v hv
    have hv : pes.pts.or d.lastVideoPts = some v := hv
    cases hpts : pes.pts with
    | some ticks =>
      rw [hpts, Option.some_or] at hv
      exact ⟨pes, mem_own_snoc log streamId pes, hpts.trans hv⟩
    | none =>
      rw [hpts, Option.none_or] at hv
      rcases hstamps with hsome | hnone | hlast
      · rw [hpts] at hsome
        cases hsome
      · rw [hnone] at hv
        cases hv
      · obtain ⟨p, hp, hstamp⟩ := (h.held hlast).pts v hv
        exact ⟨p, mem_own_of_mem hp _, hstamp⟩
  · intro v hv
    by_cases hold : d.videoDts = some v
    · rcases hbytes with hempty | hlast
      · rw [h.unstamped hempty] at hold
        cases hold
      · obtain ⟨p, hp, hstamp⟩ := (h.held hlast).dts v hold
        exact ⟨p, mem_own_of_mem hp _, hstamp⟩
    · refine ⟨pes, mem_own_snoc log streamId pes, ?_⟩
      have hv : (if pes.pts.isSome then d.videoDts.or (pes.dts.or pes.pts) else d.videoDts) =
        some v := hv
      revert hv hold
      cases d.videoDts <;> cases pes.pts <;> cases pes.dts <;> simp <;> tauto
  · intro hbuffer
    exact absurd (List.append_eq_nil_iff.mp hbuffer).2 hne

theorem Kept.insertTrack {track : TrackInfo} (h : Kept log d)
    (hid : track.trackId = streamId.toNat) :
    Kept log { d with tracks := d.tracks.insert streamId track } :=
  h.change ⟨rfl, rfl, rfl, rfl⟩ (h.ids.insert hid) h.caches

theorem appendVideo_kept (h : Kept log d) (hvideo : isVideoStreamId streamId = true)
    (hne : pes.payload ≠ []) (hbytes : d.videoBuffer = [] ∨ log.lastOf true = some streamId)
    (hstamps : pes.pts.isSome ∨ d.lastVideoPts = none ∨ log.lastOf true = some streamId)
    (track : TrackInfo) :
    Kept (log ++ [(streamId, pes)]) (d.appendVideo streamId track pes).1 ∧
      psFrames (d.appendVideo streamId track pes).2 = [] := by
  unfold appendVideo
  split
  · exact ⟨⟨h.ids, .inr ⟨rfl, rfl, rfl⟩, fun _ => rfl, audio_snoc hvideo h.audio pes,
      h.caches.mono _⟩, rfl⟩
  · obtain ⟨caches, hstate, hcaches⟩ := discoverParameterSets_caches (d := d.joinVideo pes)
      h.caches streamId track.codec pes
    have hkept := h.joinVideo hvideo hne hbytes hstamps hcaches
    rw [← hstate] at hkept
    dsimp only
    split
    · rename_i found hlookup
      split
      · exact ⟨hkept, rfl⟩
      · exact ⟨hkept.insertTrack (hkept.ids _ (AList.mem_lookup_iff.mp hlookup)), rfl⟩
    · exact ⟨hkept, rfl⟩

/-- There is room in the table for a track of the stream. -/
def hasRoom (d : PsDemuxer) (streamId : UInt8) : Bool :=
  streamId ∈ d.tracks ∨ d.tracks.keys.length < d.config.maxTracks

/-- The packet is one of a track, or makes one; the others are dropped. -/
def takes (order : MapOrder) (d : PsDemuxer) (streamId : UInt8) (pes : PesPacket) : Bool :=
  if isVideoStreamId streamId then
    (order.findKind d.tracks .video).isSome || (d.hasRoom streamId &&
      (d.codecProbePes.lookup streamId).getD 0 < d.config.maxCodecProbePackets &&
      (probeVideoCodec pes.payload).isSome)
  else (isAudioStreamId streamId || streamId == d.audioEsId) &&
    ((order.findKind d.tracks .audio).isSome || d.hasRoom streamId)

/-- The packets that are taken, with this one. -/
def takenBy (order : MapOrder) (log : PesLog) (d : PsDemuxer) (streamId : UInt8)
    (pes : PesPacket) : PesLog :=
  if d.takes order streamId pes then log ++ [(streamId, pes)] else log

theorem probeVideo_kept (h : Kept log d) (hvideo : isVideoStreamId streamId = true)
    (hne : pes.payload ≠ []) (hfind : order.findKind d.tracks .video = none)
    (hbytes : d.takes order streamId pes →
      d.videoBuffer = [] ∨ log.lastOf true = some streamId) :
    Kept (takenBy order log d streamId pes) (d.probeVideo streamId pes).1 ∧
      psFrames (d.probeVideo streamId pes).2 = [] := by
  have hcleared : Kept (takenBy order log d streamId pes)
      { d with videoBuffer := [], lastVideoPts := none, videoDts := none } := by
    unfold takenBy
    split
    · exact ⟨h.ids, .inr ⟨rfl, rfl, rfl⟩, fun _ => rfl, audio_snoc hvideo h.audio pes,
        h.caches.mono _⟩
    · exact ⟨h.ids, .inr ⟨rfl, rfl, rfl⟩, fun _ => rfl, h.audio, h.caches⟩
  have hdropped : d.takes order streamId pes = false → takenBy order log d streamId pes = log :=
    fun hnot => if_neg (by rw [hnot]; exact Bool.false_ne_true)
  unfold probeVideo
  dsimp only
  split
  · rename_i hfull
    have hnot : d.takes order streamId pes = false := by
      simp [takes, hvideo, hfind, hasRoom, hfull.1, Nat.not_lt.mpr hfull.2]
    rw [hdropped hnot]
    exact ⟨h, rfl⟩
  · rename_i hroom
    split
    · exact ⟨hcleared, rfl⟩
    · split
      · rename_i hexhausted
        have hnot : d.takes order streamId pes = false := by
          simp [takes, hvideo, hfind, Nat.not_lt.mpr hexhausted]
        rw [hdropped hnot]
        refine ⟨h.change ⟨rfl, rfl, rfl, rfl⟩ h.ids h.caches, ?_⟩
        split <;> rfl
      · rename_i hprobes
        split
        · rename_i hcodec
          have hnot : d.takes order streamId pes = false := by
            simp [takes, hvideo, hfind, hcodec]
          rw [hdropped hnot]
          exact ⟨h.change ⟨rfl, rfl, rfl, rfl⟩ h.ids h.caches, rfl⟩
        · rename_i codec hcodec
          have htakes : d.takes order streamId pes = true := by
            simp only [takes, hvideo, hfind, hasRoom, hcodec]
            simp only [not_and_or, not_not, Nat.not_le] at hroom hprobes
            simp [hroom, hprobes]
          rw [takenBy, if_pos htakes]
          obtain ⟨parts, hparts, hflat⟩ := heldBuffer h (hbytes htakes)
          obtain ⟨caches, hstate, hcaches⟩ := discoverParameterSets_caches
            (d := { d with codecProbePes := d.codecProbePes.insert streamId 0 })
            h.caches streamId codec pes
          rw [hstate]
          refine ⟨⟨?_, .inl ⟨streamId, ?_, ?_, ?_, ?_⟩, ?_, audio_snoc hvideo h.audio pes, hcaches⟩,
            rfl⟩
          · refine h.ids.insert ?_
            split <;> rfl
          · rw [PesLog.lastOf_snoc, if_pos hvideo]
          · refine ⟨parts ++ [pes.payload], sublist_snoc hparts pes, ?_⟩
            show d.videoBuffer ++ pes.payload = _
            rw [hflat, List.flatten_append, List.flatten_singleton]
          · exact fun v hv => ⟨pes, mem_own_snoc log streamId pes, hv⟩
          · intro v hv
            refine ⟨pes, mem_own_snoc log streamId pes, ?_⟩
            rcases Option.or_eq_some_iff.mp hv with hdts | ⟨-, hpts⟩
            · exact .inr hdts
            · exact .inl hpts
          · exact fun hbuffer => absurd (List.append_eq_nil_iff.mp hbuffer).2 hne

theorem handleVideo_kept (h : Kept log d) (hvideo : isVideoStreamId streamId = true)
    (hne : pes.payload ≠ []) (hcalm : d.takes order streamId pes →
      VideoCalm order log d streamId pes) :
    Kept (takenBy order log d streamId pes) (d.handleVideo order streamId pes).1 ∧
      AllUnmixed log (d.handleVideo order streamId pes).2 := by
  unfold handleVideo
  split
  · rename_i key track hfind
    have htakes : d.takes order streamId pes = true := by simp [takes, hvideo, hfind]
    have hcalm := hcalm htakes
    rw [takenBy, if_pos htakes]
    obtain rfl : key = streamId := hcalm.tracks _ hfind
    have hstamps : pes.pts.isSome ∨ d.lastVideoPts = none ∨ log.lastOf true = some key := by
      rcases hcalm.stamps with h | h | h | h
      · exact .inl h
      · exact .inr (.inl h)
      · exact .inr (.inr h)
      · rw [hfind] at h
        cases h
    have hown : OwnTrack order log d := by
      intro hbuffer entry hentry
      rw [hcalm.tracks entry hentry]
      exact hcalm.bytes.resolve_left hbuffer
    dsimp only
    split
    · obtain ⟨hkept, hframes⟩ := h.emit hown
      have hgiven : (d.emitVideoFrame order).1 = { d with videoBuffer := [], videoDts := none } :=
        emitVideoFrame_state h.unstamped
      obtain ⟨hkept', hnone⟩ := appendVideo_kept hkept hvideo hne (.inl (by rw [hgiven]))
        (by rw [hgiven]; exact hstamps) track
      exact ⟨hkept', hframes.append (.of_none hnone)⟩
    · obtain ⟨hkept', hnone⟩ := appendVideo_kept h hvideo hne hcalm.bytes hstamps track
      exact ⟨hkept', AllUnmixed.append (.of_none rfl) (.of_none hnone)⟩
  · rename_i hfind
    obtain ⟨hkept', hnone⟩ := probeVideo_kept h hvideo hne hfind fun htakes => (hcalm htakes).bytes
    exact ⟨hkept', .of_none hnone⟩

/-- A packet of audio behind the log. -/
theorem Kept.audioSnoc (h : Kept log d)
    (haudio : isVideoStreamId streamId = false)
    (hids : OwnIds d'.tracks)
    (hbuffer : d'.videoBuffer = d.videoBuffer) (hpts : d'.lastVideoPts = d.lastVideoPts)
    (hdts : d'.videoDts = d.videoDts) (hlast : d'.lastAudioPts = pes.pts)
    (hcaches : d'.parameterSetCaches = d.parameterSetCaches) :
    Kept (log ++ [(streamId, pes)]) d' where
  ids := hids
  video := by
    rcases h.video with ⟨s, hlast', hfrom⟩ | hclean
    · refine .inl ⟨s, ?_, ?_, ?_, ?_⟩
      · rw [PesLog.lastOf_snoc, if_neg (by rw [haudio]; decide), hlast']
      · obtain ⟨parts, hparts, hflat⟩ := hfrom.buffer
        refine ⟨parts, ?_, hbuffer.trans hflat⟩
        rw [PesLog.own_append, List.map_append]
        exact hparts.trans (List.sublist_append_left _ _)
      · intro v hv
        obtain ⟨p, hp, hstamp⟩ := hfrom.pts v (hpts ▸ hv)
        exact ⟨p, mem_own_of_mem hp _, hstamp⟩
      · intro v hv
        obtain ⟨p, hp, hstamp⟩ := hfrom.dts v (hdts ▸ hv)
        exact ⟨p, mem_own_of_mem hp _, hstamp⟩
    · exact .inr ⟨hbuffer.trans hclean.buffer, hpts.trans hclean.pts, hdts.trans hclean.dts⟩
  unstamped hempty := hdts.trans (h.unstamped (hbuffer.symm.trans hempty))
  audio ticks hticks := by
    refine ⟨streamId, ?_, pes, mem_own_snoc log streamId pes, hlast ▸ hticks⟩
    rw [PesLog.lastOf_snoc, if_pos haudio]
  caches := hcaches ▸ h.caches.mono _

/-- The raw frame of an ADTS payload is a part of it. -/
theorem stripAacAdts_infix (h : stripAacAdts payload = some (sampleRate, raw)) :
    raw <:+: payload := by
  unfold stripAacAdts adtsStrip at h
  simp only [Option.bind_eq_bind, Option.bind_eq_some_iff, Option.pure_def] at h
  obtain ⟨⟨header, data⟩, ⟨_, -, hdata⟩, hraw⟩ := h
  split at hdata
  · cases hdata
  · cases hdata
    split at hraw
    · cases hraw
    · cases hraw
      exact ((List.drop_suffix _ _).isInfix).trans ((List.take_prefix _ _).isInfix)

/-- What an audio packet says of its times. -/
theorem audio_timeOf {own : List PesPacket} {pes : PesPacket} {last : Option Int}
    (hpes : pes ∈ own) (hlast : pes.pts = none → ∀ v, last = some v → ∃ p ∈ own, p.pts = some v)
    (clockRate : Nat) :
    TimeOf own clockRate (toTrackClock (pes.pts.getD (last.getD 0)) clockRate) ∧
      TimeOf own clockRate (toTrackClock
        ((pes.dts.or pes.pts).getD (pes.pts.getD (last.getD 0))) clockRate) := by
  have hpts : pes.pts.getD (last.getD 0) = 0 ∨
      ∃ p ∈ own, p.pts = some (pes.pts.getD (last.getD 0)) ∨
        p.dts = some (pes.pts.getD (last.getD 0)) := by
    cases hpts : pes.pts with
    | some v => exact .inr ⟨pes, hpes, .inl hpts⟩
    | none =>
      cases hlast' : last with
      | none => exact .inl rfl
      | some v =>
        obtain ⟨p, hp, hstamp⟩ := hlast hpts v hlast'
        exact .inr ⟨p, hp, .inl hstamp⟩
  refine ⟨⟨_, rfl, hpts⟩, ⟨_, rfl, ?_⟩⟩
  cases hdts : pes.dts with
  | some v => exact .inr ⟨pes, hpes, .inr hdts⟩
  | none =>
    cases hpts' : pes.pts with
    | some v => exact .inr ⟨pes, hpes, .inl hpts'⟩
    | none =>
      rw [hpts'] at hpts
      exact hpts

/-- An audio packet is taken where the audio track that is found is its own and it does not need
the time of another stream's. -/
structure AudioCalm (order : MapOrder) (log : PesLog) (d : PsDemuxer) (streamId : UInt8)
    (pes : PesPacket) : Prop where
  tracks : ∀ entry ∈ order.findKind d.tracks .audio, entry.1 = streamId
  stamps : pes.pts.isSome ∨ d.lastAudioPts = none ∨ log.lastOf false = some streamId ∨
    order.findKind d.tracks .audio = none

instance : Decidable (AudioCalm order log d streamId pes) :=
  decidable_of_iff (_ ∧ _) ⟨fun h => ⟨h.1, h.2⟩, fun h => ⟨h.1, h.2⟩⟩

/-- A frame of an audio packet under the track of its own stream. -/
theorem audioFrame_unmixed {track : TrackInfo} (h : Kept log d) (last : Option Int)
    (hstamps : pes.pts.isSome ∨ last = none ∨
      last = d.lastAudioPts ∧ (d.lastAudioPts = none ∨ log.lastOf false = some streamId))
    (hid : track.trackId = streamId.toNat) (hrate : track.clockRate = clockRate)
    (hraw : raw <:+: pes.payload) :
    Unmixed (log ++ [(streamId, pes)]) (psFrame track clockRate (pes.pts.getD (last.getD 0))
      ((pes.dts.or pes.pts).getD (pes.pts.getD (last.getD 0))) raw) := by
  have hmem := mem_own_snoc log streamId pes
  have hlater : pes.pts = none → ∀ v, last = some v →
      ∃ p ∈ PesLog.own (log ++ [(streamId, pes)]) streamId.toNat, p.pts = some v := by
    intro hnone v hv
    rcases hstamps with hsome | hlast | ⟨rfl, hlast | hlast⟩
    · rw [hnone] at hsome
      cases hsome
    · rw [hlast] at hv
      cases hv
    · rw [hlast] at hv
      cases hv
    · obtain ⟨s, hlast', p, hp, hstamp⟩ := h.audio v hv
      obtain rfl : streamId = s := Option.some.inj (hlast.symm.trans hlast')
      exact ⟨p, mem_own_of_mem hp _, hstamp⟩
  have htimes := audio_timeOf hmem hlater (max track.clockRate 1)
  subst hrate
  rw [← hid] at hmem htimes
  exact ⟨.piece hmem hraw, htimes.1, htimes.2⟩

theorem audioFrame_kept (h : Kept log d) (haudio : isVideoStreamId streamId = false)
    (hid : track.trackId = streamId.toNat)
    (hstamps : pes.pts.isSome ∨ d.lastAudioPts = none ∨ log.lastOf false = some streamId) :
    Kept (log ++ [(streamId, pes)]) (d.audioFrame track pes).1 ∧
      AllUnmixed (log ++ [(streamId, pes)]) (d.audioFrame track pes).2 := by
  have hstamps' : pes.pts.isSome ∨ d.lastAudioPts = none ∨ d.lastAudioPts = d.lastAudioPts ∧
      (d.lastAudioPts = none ∨ log.lastOf false = some streamId) :=
    hstamps.imp_right fun h => h.imp_right fun h => ⟨rfl, .inr h⟩
  unfold audioFrame
  split
  rename_i hstep
  split at hstep
  · rename_i sampleRate raw hstrip
    have hraw : raw <:+: pes.payload := by
      split at hstrip
      · exact stripAacAdts_infix hstrip
      · cases hstrip
    split at hstep
    · cases hstep
      refine ⟨h.audioSnoc haudio (h.ids.insert ?_) rfl rfl rfl rfl rfl, ?_⟩
      · simp [hid]
      · refine AllUnmixed.append (.of_none rfl) fun f hf => ?_
        obtain rfl := List.mem_singleton.mp hf
        exact audioFrame_unmixed h _ hstamps' hid rfl hraw
    · cases hstep
      refine ⟨h.audioSnoc haudio h.ids rfl rfl rfl rfl rfl, fun f hf => ?_⟩
      obtain rfl := List.mem_singleton.mp hf
      exact audioFrame_unmixed h _ hstamps' hid rfl hraw
  · cases hstep
    refine ⟨h.audioSnoc haudio h.ids rfl rfl rfl rfl rfl, fun f hf => ?_⟩
    obtain rfl := List.mem_singleton.mp hf
    exact audioFrame_unmixed h _ hstamps' hid rfl List.infix_rfl

theorem probeAudio_kept (h : Kept log d) (haudio : isVideoStreamId streamId = false)
    (hroom : d.hasRoom streamId) :
    Kept (log ++ [(streamId, pes)]) (d.probeAudio streamId pes).1 ∧
      AllUnmixed (log ++ [(streamId, pes)]) (d.probeAudio streamId pes).2 := by
  have hnot : ¬(streamId ∉ d.tracks ∧ d.config.maxTracks ≤ d.tracks.keys.length) := by
    simp only [hasRoom, decide_eq_true_eq] at hroom
    rw [not_and_or, not_not, Nat.not_le]
    exact hroom
  unfold probeAudio
  rw [if_neg hnot]
  dsimp only
  generalize hstrip : Option.getD _ _ = stripped
  obtain ⟨clockRate, payload⟩ := stripped
  have hraw : payload <:+: pes.payload := by
    split at hstrip
    · cases hadts : stripAacAdts pes.payload with
      | none =>
        rw [hadts] at hstrip
        cases hstrip
        exact List.infix_rfl
      | some r =>
        rw [hadts] at hstrip
        cases hstrip
        exact stripAacAdts_infix hadts
    · cases hstrip
      exact List.infix_rfl
  refine ⟨h.audioSnoc haudio (h.ids.insert rfl) rfl rfl rfl rfl rfl, fun f hf => ?_⟩
  obtain rfl := List.mem_singleton.mp hf
  exact audioFrame_unmixed h none (.inr (.inl rfl)) rfl rfl hraw

theorem handleAudio_kept (h : Kept log d) (haudio : isVideoStreamId streamId = false)
    (hid : isAudioStreamId streamId || streamId == d.audioEsId)
    (hcalm : d.takes order streamId pes → AudioCalm order log d streamId pes) :
    Kept (takenBy order log d streamId pes) (d.handleAudio order streamId pes).1 ∧
      AllUnmixed (takenBy order log d streamId pes) (d.handleAudio order streamId pes).2 := by
  have htakes : d.takes order streamId pes =
      ((order.findKind d.tracks .audio).isSome || d.hasRoom streamId) := by
    rw [takes, haudio, hid]
    rfl
  unfold handleAudio
  split
  · rename_i key track hfind
    have htaken : d.takes order streamId pes = true := by rw [htakes, hfind]; rfl
    have hcalm := hcalm htaken
    rw [takenBy, if_pos htaken]
    obtain rfl : key = streamId := hcalm.tracks _ hfind
    refine audioFrame_kept h haudio (h.ids _ (MapOrder.findKind_some hfind).1) ?_
    rcases hcalm.stamps with h | h | h | h
    · exact .inl h
    · exact .inr (.inl h)
    · exact .inr (.inr h)
    · rw [hfind] at h
      cases h
  · rename_i hfind
    rw [hfind, Option.isSome_none, Bool.false_or] at htakes
    rw [takenBy, htakes]
    split
    · rename_i hroom
      exact probeAudio_kept h haudio hroom
    · rename_i hfull
      have hfull' : streamId ∉ d.tracks ∧ d.config.maxTracks ≤ d.tracks.keys.length := by
        simpa only [hasRoom, decide_eq_true_eq, not_or, Nat.not_lt] using hfull
      rw [probeAudio, if_pos hfull']
      exact ⟨h, .of_none rfl⟩

theorem parseEsMapWithin_ids (passes : Nat) (reported : List UInt8) (esMapLength : Nat)
    (buf : Bytes) (newTracks : TrackTable) (h : OwnIds newTracks) :
    OwnIds (parseEsMapWithin passes reported esMapLength buf newTracks).1 ∧
      psFrames (parseEsMapWithin passes reported esMapLength buf newTracks).2.2 = [] := by
  fun_induction parseEsMapWithin passes reported esMapLength buf newTracks with
  | case1 => exact ⟨h, rfl⟩
  | case2 =>
    rename_i ih
    exact ih (h.insert rfl)
  | case3 =>
    rename_i hstep ih
    rw [hstep] at ih
    refine ⟨(ih h).1, ?_⟩
    split
    · exact (ih h).2
    · exact (ih h).2
  | case4 => exact ⟨h, rfl⟩

theorem foldl_erase_entries {β : UInt8 → Type} (keys : List UInt8) (s : AList β) {e : Sigma β}
    (h : e ∈ (keys.foldl (fun s key => s.erase key) s).entries) : e ∈ s.entries := by
  induction keys generalizing s with
  | nil => exact h
  | cons key keys ih => exact mem_entries_erase (ih _ h)

theorem Kept.declareTracks {entries : List (Sigma fun _ : UInt8 => TrackInfo)} (h : Kept log d)
    (hids : ∀ entry ∈ entries, entry.2.trackId = entry.1.toNat) :
    Kept log (d.declareTracks entries).1 := by
  induction entries generalizing d with
  | nil => exact h
  | cons entry entries ih =>
    obtain ⟨hid, hids⟩ := List.forall_mem_cons.mp hids
    have hdeclared : Kept log (d.declareTrack entry.1 entry.2).1 := by
      unfold PsDemuxer.declareTrack
      split
      · exact h
      · exact h.change ⟨rfl, rfl, rfl, rfl⟩ (h.ids.insert hid)
          fun e he => h.caches e (mem_entries_erase he)
    exact ih hdeclared hids

theorem Kept.removeTracks (h : Kept log d) (keys : List UInt8) : Kept log (d.removeTracks keys) :=
  h.change ⟨rfl, rfl, rfl, rfl⟩ (fun e he => h.ids e (foldl_erase_entries keys _ he))
    fun e he => h.caches e (foldl_erase_entries keys _ he)

theorem applyPsm_kept (h : Kept log d) (order : MapOrder) (version : UInt8) {newTracks : TrackTable}
    (hids : OwnIds newTracks) :
    Kept log (d.applyPsm order version newTracks).1 ∧
      psFrames (d.applyPsm order version newTracks).2 = [] := by
  unfold applyPsm
  dsimp only
  split
  · exact ⟨h, rfl⟩
  · split
    · exact ⟨h, rfl⟩
    · have hplaced : Kept log { d with
          psmVersion := some version
          psmSignature := signatureOf newTracks
          psmDeclared := newTracks.keys } := h.change ⟨rfl, rfl, rfl, rfl⟩ h.ids h.caches
      have hdeclared := hplaced.declareTracks
        fun entry hentry => hids entry ((order.perm newTracks).mem_iff.mp hentry)
      have hremoved := hdeclared.removeTracks (d.psmDeclared.filter (· ∉ newTracks.keys))
      refine ⟨?_, ?_⟩
      · split
        · exact hremoved
        · exact hremoved.change ⟨rfl, rfl, rfl, rfl⟩ hremoved.ids hremoved.caches
      · rw [psFrames_append]
        split <;> split <;> rfl

theorem parsePsm_kept (h : Kept log d) (order : MapOrder) (payload : Bytes) :
    Kept log (d.parsePsm order payload).1 ∧ psFrames (d.parsePsm order payload).2 = [] := by
  unfold parsePsm
  split
  · rename_i b₀ b₁ i₀ i₁ buf
    dsimp only
    split
    · exact ⟨h, rfl⟩
    · split
      · exact ⟨h, rfl⟩
      · have hread := parseEsMapWithin_ids (b₀ :: b₁ :: i₀ :: i₁ :: buf).length
          d.unsupportedPayloadReported ((b₀ :: b₁ :: i₀ :: i₁ :: buf).length -
            (i₀.toNat * 256 + i₁.toNat + 10)) (buf.drop (i₀.toNat * 256 + i₁.toNat + 2)) ∅ ownIds_empty
        revert hread
        generalize parseEsMapWithin _ _ _ _ _ = r
        obtain ⟨newTracks, reported, events⟩ := r
        rintro ⟨hids, hnone⟩
        dsimp only
        have hreported : Kept log { d with unsupportedPayloadReported := reported } :=
          h.change ⟨rfl, rfl, rfl, rfl⟩ h.ids h.caches
        split
        · exact ⟨hreported, hnone⟩
        · obtain ⟨hkept, hnone'⟩ := applyPsm_kept hreported order (b₀ &&& 0x1F) hids
          exact ⟨hkept, by rw [psFrames_append, hnone, hnone']; rfl⟩
  · exact ⟨h, rfl⟩

end PsDemuxer
end CheetahMedia.Codec
