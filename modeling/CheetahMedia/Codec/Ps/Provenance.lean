import CheetahMedia.Codec.Ps.Demuxer

namespace CheetahMedia.Codec
open Lib

/-- The PES packets with a payload that a demuxer has taken as video or audio. -/
abbrev PesLog := List (UInt8 × PesPacket)

namespace PesLog

/-- The packets of a track. -/
def own (log : PesLog) (trackId : Nat) : List PesPacket :=
  (log.filter (·.1.toNat = trackId)).map (·.2)

/-- The stream of the last packet of a kind. -/
def lastOf (log : PesLog) (isVideo : Bool) : Option UInt8 :=
  (log.filter (isVideoStreamId ·.1 = isVideo)).getLast?.map (·.1)

theorem own_append (log log' : PesLog) (trackId : Nat) :
    own (log ++ log') trackId = own log trackId ++ own log' trackId := by
  simp [own]

theorem own_snoc (log : PesLog) (streamId : UInt8) (pes : PesPacket) :
    own (log ++ [(streamId, pes)]) streamId.toNat = own log streamId.toNat ++ [pes] := by
  simp [own]

theorem lastOf_snoc (log : PesLog) (streamId : UInt8) (pes : PesPacket) (isVideo : Bool) :
    lastOf (log ++ [(streamId, pes)]) isVideo =
      if isVideoStreamId streamId = isVideo then some streamId else lastOf log isVideo := by
  unfold lastOf
  rw [List.filter_append]
  by_cases h : isVideoStreamId streamId = isVideo
  · simp [h]
  · simp [h]

end PesLog

/-- Bytes that come from the payloads of these packets and from nowhere else, but for the
start codes of an access unit that is written anew. -/
inductive MadeOf (own : List PesPacket) : Bytes → Prop
  | piece (hp : pes ∈ own) (hraw : raw <:+: pes.payload) : MadeOf own raw
  | joined {parts : List Bytes} (hparts : parts.Sublist (own.map (·.payload))) :
    MadeOf own parts.flatten
  | rewritten {sets parts : List Bytes}
      (hsets : ∀ set ∈ sets, ∃ pes ∈ own, set ∈ splitAnnexbUnits pes.payload)
      (hparts : parts.Sublist (own.map (·.payload))) :
      MadeOf own (annexbFromAccessUnit (sets ++ splitAnnexbUnits parts.flatten))

/-- A time on the clock of a track that one of these packets brings, or zero. -/
def TimeOf (own : List PesPacket) (clockRate : Nat) (time : Int) : Prop :=
  ∃ ticks, time = toTrackClock ticks clockRate ∧
    (ticks = 0 ∨ ∃ pes ∈ own, pes.pts = some ticks ∨ pes.dts = some ticks)

/-- All of the frame comes from the packets of its track. -/
structure Unmixed (log : PesLog) (frame : AVFrame) : Prop where
  bytes : MadeOf (log.own frame.trackId) frame.payload
  pts : TimeOf (log.own frame.trackId) frame.timebase.2 frame.pts
  dts : TimeOf (log.own frame.trackId) frame.timebase.2 frame.dts

theorem MadeOf.mono {own : List PesPacket} (h : MadeOf own bytes) (more : List PesPacket) :
    MadeOf (own ++ more) bytes := by
  have hlater : ∀ {parts : List Bytes}, parts.Sublist (own.map (·.payload)) →
      parts.Sublist ((own ++ more).map (·.payload)) := by
    intro parts hparts
    rw [List.map_append]
    exact hparts.trans (List.sublist_append_left _ _)
  cases h with
  | piece hp hraw => exact .piece (List.mem_append_left _ hp) hraw
  | joined hparts => exact .joined (hlater hparts)
  | rewritten hsets hparts =>
    refine .rewritten (fun set hset => ?_) (hlater hparts)
    obtain ⟨pes, hpes, hunit⟩ := hsets set hset
    exact ⟨pes, List.mem_append_left _ hpes, hunit⟩

theorem TimeOf.mono {own : List PesPacket} (h : TimeOf own clockRate time) (more : List PesPacket) :
    TimeOf (own ++ more) clockRate time := by
  obtain ⟨ticks, htime, hticks⟩ := h
  refine ⟨ticks, htime, hticks.imp_right ?_⟩
  rintro ⟨pes, hpes, hstamp⟩
  exact ⟨pes, List.mem_append_left _ hpes, hstamp⟩

theorem Unmixed.mono (h : Unmixed log f) (log' : PesLog) : Unmixed (log ++ log') f := by
  refine ⟨?_, ?_, ?_⟩
  · rw [PesLog.own_append]
    exact h.bytes.mono _
  · rw [PesLog.own_append]
    exact h.pts.mono _
  · rw [PesLog.own_append]
    exact h.dts.mono _

/-- The frames among the events. -/
def psFrames (events : List PsDemuxEvent) : List AVFrame :=
  events.filterMap fun
    | .frame frame => some frame
    | _ => none

@[simp] theorem psFrames_nil : psFrames [] = [] := rfl

@[simp] theorem psFrames_append (a b : List PsDemuxEvent) :
    psFrames (a ++ b) = psFrames a ++ psFrames b := List.filterMap_append

@[simp] theorem psFrames_frame (f : AVFrame) (events : List PsDemuxEvent) :
    psFrames (.frame f :: events) = f :: psFrames events := rfl

@[simp] theorem psFrames_trackInfo (tracks : List TrackInfo) (events : List PsDemuxEvent) :
    psFrames (.trackInfo tracks :: events) = psFrames events := rfl

@[simp] theorem psFrames_trackRemoved (ids : List Nat) (events : List PsDemuxEvent) :
    psFrames (.trackRemoved ids :: events) = psFrames events := rfl

@[simp] theorem psFrames_diagnostic (d : PsDemuxDiagnostic) (events : List PsDemuxEvent) :
    psFrames (.diagnostic d :: events) = psFrames events := rfl

/-- Every frame among the events comes from the packets of its track. -/
def AllUnmixed (log : PesLog) (events : List PsDemuxEvent) : Prop :=
  ∀ f ∈ psFrames events, Unmixed log f

theorem AllUnmixed.append (h : AllUnmixed log a) (h' : AllUnmixed log b) :
    AllUnmixed log (a ++ b) := by
  intro f hf
  rw [psFrames_append] at hf
  rcases List.mem_append.mp hf with hf | hf
  · exact h f hf
  · exact h' f hf

theorem AllUnmixed.of_none (h : psFrames events = []) : AllUnmixed log events := by
  intro f hf
  rw [h] at hf
  cases hf

theorem AllUnmixed.mono (h : AllUnmixed log events) (log' : PesLog) :
    AllUnmixed (log ++ log') events :=
  fun f hf => (h f hf).mono log'

theorem mem_entries_insert {β : UInt8 → Type} {s : AList β} {a : UInt8} {b : β a} {e : Sigma β}
    (h : e ∈ (s.insert a b).entries) : e = ⟨a, b⟩ ∨ e ∈ s.entries := by
  rw [AList.entries_insert] at h
  exact (List.mem_cons.mp h).imp_right fun h => (List.kerase_sublist _ _).subset h

theorem mem_entries_erase {β : UInt8 → Type} {s : AList β} {a : UInt8} {e : Sigma β}
    (h : e ∈ (s.erase a).entries) : e ∈ s.entries :=
  (List.kerase_sublist _ _).subset h

theorem MapOrder.findKind_some {order : MapOrder} {tracks : TrackTable}
    (h : order.findKind tracks kind = some entry) :
    entry ∈ tracks.entries ∧ entry.2.mediaKind = kind :=
  ⟨(order.perm tracks).mem_iff.mp (List.mem_of_find?_eq_some h), by
    simpa using List.find?_some h⟩

namespace PsDemuxer

/-- The access unit that is being put together and its times are those of one stream. -/
structure VideoFrom (log : PesLog) (streamId : UInt8) (d : PsDemuxer) : Prop where
  buffer : ∃ parts : List Bytes, parts.Sublist ((log.own streamId.toNat).map (·.payload)) ∧
    d.videoBuffer = parts.flatten
  pts : ∀ ticks, d.lastVideoPts = some ticks → ∃ pes ∈ log.own streamId.toNat, pes.pts = some ticks
  dts : ∀ ticks, d.videoDts = some ticks →
    ∃ pes ∈ log.own streamId.toNat, pes.pts = some ticks ∨ pes.dts = some ticks

/-- Nothing is left of the packets before. -/
structure VideoClean (d : PsDemuxer) : Prop where
  buffer : d.videoBuffer = []
  pts : d.lastVideoPts = none
  dts : d.videoDts = none

theorem VideoClean.videoFrom (h : VideoClean d) : VideoFrom log streamId d where
  buffer := ⟨[], List.nil_sublist _, h.buffer⟩
  pts ticks hticks := by rw [h.pts] at hticks; cases hticks
  dts ticks hticks := by rw [h.dts] at hticks; cases hticks

/-- The units in a cache of parameter sets. -/
def cached (cache : ParameterSetCache) : List Bytes :=
  cache.vps.toList ++ cache.sps.toList ++ cache.pps.toList

/-- The parameter sets kept for a stream come from its packets. -/
def CachesFrom (log : PesLog) (caches : AList fun _ : UInt8 => ParameterSetCache) : Prop :=
  ∀ entry ∈ caches.entries, ∀ unit ∈ cached entry.2,
    ∃ pes ∈ log.own entry.1.toNat, unit ∈ splitAnnexbUnits pes.payload

/-- The tracks have the ids of their streams. -/
def OwnIds (tracks : TrackTable) : Prop :=
  ∀ entry ∈ tracks.entries, entry.2.trackId = entry.1.toNat

theorem OwnIds.insert {tracks : TrackTable} {streamId : UInt8} {track : TrackInfo}
    (h : OwnIds tracks) (hid : track.trackId = streamId.toNat) :
    OwnIds (tracks.insert streamId track) := by
  intro entry hentry
  rcases mem_entries_insert hentry with rfl | hentry
  · exact hid
  · exact h entry hentry

theorem ownIds_empty : OwnIds ∅ := fun _ hentry => absurd hentry List.not_mem_nil

/-- What the demuxer holds of a stream, it has from packets of that stream. -/
structure Kept (log : PesLog) (d : PsDemuxer) : Prop where
  ids : OwnIds d.tracks
  video : (∃ streamId, log.lastOf true = some streamId ∧ VideoFrom log streamId d) ∨ VideoClean d
  unstamped : d.videoBuffer = [] → d.videoDts = none
  audio : ∀ ticks, d.lastAudioPts = some ticks → ∃ streamId, log.lastOf false = some streamId ∧
    ∃ pes ∈ log.own streamId.toNat, pes.pts = some ticks
  caches : CachesFrom log d.parameterSetCaches

/-- The units of a cache that a payload has been read into. -/
theorem mem_cached_updateFromAnnexb (cache : ParameterSetCache) (codec : CodecId)
    (payload : Bytes) (h : unit ∈ cached (cache.updateFromAnnexb codec payload).1) :
    unit ∈ cached cache ∨ unit ∈ splitAnnexbUnits payload := by
  have hstore : ∀ (c : ParameterSetCache) (u : Bytes), ∀ x ∈ cached (c.storeNalu codec u).1,
      x ∈ cached c ∨ x = u := by
    intro c u x hx
    unfold ParameterSetCache.storeNalu at hx
    split at hx
    · exact .inl hx
    · split at hx
      · exact .inl hx
      all_goals
        split at hx
        · exact .inl hx
        · simp only [cached, List.mem_append, Option.mem_toList] at hx ⊢
          grind
  unfold ParameterSetCache.updateFromAnnexb at h
  generalize splitAnnexbUnits payload = units at h ⊢
  have hfold : ∀ (units : List Bytes) (r : ParameterSetCache × Bool),
      unit ∈ cached (units.foldl (fun r u =>
        let s := r.1.storeNalu codec u; (s.1, r.2 || s.2)) r).1 →
      unit ∈ cached r.1 ∨ unit ∈ units := by
    intro units
    induction units with
    | nil => exact fun r hr => .inl hr
    | cons u units ih =>
      intro r hr
      rcases ih _ hr with hr | hr
      · rcases hstore _ _ _ hr with hr | rfl
        · exact .inl hr
        · exact .inr List.mem_cons_self
      · exact .inr (List.mem_cons_of_mem _ hr)
  exact hfold units _ h

theorem mem_prefixFor {cache : ParameterSetCache} (h : unit ∈ cache.prefixFor codec) :
    unit ∈ cached cache := by
  unfold ParameterSetCache.prefixFor at h
  unfold cached
  split at h
  · rw [List.mem_append] at h
    rw [List.mem_append, List.mem_append]
    exact h.imp_left .inr
  · exact h
  · exact h
  · cases h

variable {order : MapOrder} {d d' : PsDemuxer} {log : PesLog} {streamId : UInt8}

theorem emitVideoFrame_state (h : d.videoBuffer = [] → d.videoDts = none) :
    (d.emitVideoFrame order).1 = { d with videoBuffer := [], videoDts := none } := by
  unfold emitVideoFrame
  split
  · rename_i hempty
    have hbuffer := List.isEmpty_iff.mp hempty
    have hdts := h hbuffer
    cases d
    simp only at hbuffer hdts
    subst hbuffer hdts
    rfl
  · rfl

/-- A key frame is written anew behind the parameter sets of its stream. -/
theorem withParameterSets_frames {frame : AVFrame}
    (hf : f ∈ psFrames (d.withParameterSets streamId codec frame)) :
    f.trackId = frame.trackId ∧ f.timebase = frame.timebase ∧ f.pts = frame.pts ∧
      f.dts = frame.dts ∧ (f.payload = frame.payload ∨
        ∃ cache : ParameterSetCache, d.parameterSetCaches.lookup streamId = some cache ∧
          f.payload = cache.prependToAnnexbAccessUnit codec frame.payload) := by
  unfold withParameterSets at hf
  split at hf
  · split at hf
    · rename_i cache hlookup
      split at hf
      · obtain rfl := List.mem_singleton.mp hf
        exact ⟨rfl, rfl, rfl, rfl, .inr ⟨cache, hlookup, rfl⟩⟩
      · obtain rfl := List.mem_singleton.mp hf
        exact ⟨rfl, rfl, rfl, rfl, .inl rfl⟩
    · obtain rfl := List.mem_singleton.mp hf
      exact ⟨rfl, rfl, rfl, rfl, .inl rfl⟩
  · obtain rfl := List.mem_singleton.mp hf
    exact ⟨rfl, rfl, rfl, rfl, .inl rfl⟩

/-- An access unit given out under the track of its own stream. -/
theorem emitVideoFrame_unmixed (h : Kept log d) (hfrom : VideoFrom log streamId d)
    (htracks : d.videoBuffer ≠ [] → ∀ entry ∈ order.findKind d.tracks .video,
      entry.1 = streamId) :
    AllUnmixed log (d.emitVideoFrame order).2 := by
  unfold emitVideoFrame
  split
  · exact .of_none rfl
  · rename_i hbuffer
    rw [List.isEmpty_iff] at hbuffer
    dsimp only
    split
    · exact .of_none rfl
    · rename_i key track hfind
      obtain ⟨hmem, -⟩ := MapOrder.findKind_some hfind
      obtain rfl : key = streamId := htracks hbuffer _ hfind
      have hid : track.trackId = key.toNat := h.ids _ hmem
      intro f hf
      obtain ⟨htrackId, htimebase, hpts, hdts, hpayload⟩ := withParameterSets_frames hf
      have hown : log.own f.trackId = log.own key.toNat := by rw [htrackId, ← hid]; rfl
      obtain ⟨parts, hparts, hflat⟩ := hfrom.buffer
      have hstamp : ∀ ticks, d.lastVideoPts.getD 0 = ticks → ticks = 0 ∨
          ∃ pes ∈ log.own key.toNat, pes.pts = some ticks ∨ pes.dts = some ticks := by
        rintro _ rfl
        cases hlast : d.lastVideoPts with
        | none => exact .inl rfl
        | some ticks =>
          obtain ⟨pes, hpes, hticks⟩ := hfrom.pts ticks hlast
          exact .inr ⟨pes, hpes, .inl hticks⟩
      refine ⟨?_, ?_, ?_⟩
      · rw [hown]
        rcases hpayload with hpayload | ⟨cache, hcache, hpayload⟩
        · rw [hpayload]
          show MadeOf _ d.videoBuffer
          rw [hflat]
          exact .joined hparts
        · rw [hpayload]
          show MadeOf _ (cache.prependToAnnexbAccessUnit track.codec d.videoBuffer)
          rw [hflat]
          unfold ParameterSetCache.prependToAnnexbAccessUnit
          dsimp only
          split
          · exact .joined hparts
          · exact .rewritten (fun u hu => h.caches ⟨key, cache⟩ (AList.mem_lookup_iff.mp hcache) u
              (mem_prefixFor hu)) hparts
      · rw [hown, htimebase, hpts]
        exact ⟨_, rfl, hstamp _ rfl⟩
      · rw [hown, htimebase, hdts]
        refine ⟨_, rfl, ?_⟩
        cases hvideo : d.videoDts with
        | none => exact hstamp _ rfl
        | some ticks => exact .inr (hfrom.dts ticks hvideo)

theorem VideoFrom.given (h : VideoFrom log streamId d) :
    VideoFrom log streamId { d with videoBuffer := [], videoDts := none } where
  buffer := ⟨[], List.nil_sublist _, rfl⟩
  pts := h.pts
  dts ticks hticks := by cases hticks

theorem Kept.given (h : Kept log d) : Kept log { d with videoBuffer := [], videoDts := none } where
  ids := h.ids
  video := by
    rcases h.video with ⟨streamId, hlast, hfrom⟩ | hclean
    · exact .inl ⟨streamId, hlast, hfrom.given⟩
    · exact .inr ⟨rfl, hclean.pts, rfl⟩
  unstamped _ := rfl
  audio := h.audio
  caches := h.caches

/-- The access unit that is held is given out under the track of its own stream. -/
def OwnTrack (order : MapOrder) (log : PesLog) (d : PsDemuxer) : Prop :=
  d.videoBuffer ≠ [] → ∀ entry ∈ order.findKind d.tracks .video,
    log.lastOf true = some entry.1

instance : Decidable (OwnTrack order log d) := inferInstanceAs (Decidable (_ → _))

theorem Kept.emit (h : Kept log d) (hown : OwnTrack order log d) :
    Kept log (d.emitVideoFrame order).1 ∧ AllUnmixed log (d.emitVideoFrame order).2 := by
  refine ⟨emitVideoFrame_state h.unstamped ▸ h.given, ?_⟩
  rcases h.video with ⟨streamId, hlast, hfrom⟩ | hclean
  · refine emitVideoFrame_unmixed h hfrom fun hbuffer entry hfind => ?_
    exact (Option.some.inj ((hown hbuffer entry hfind).symm.trans hlast))
  · refine .of_none ?_
    unfold emitVideoFrame
    rw [hclean.buffer]
    rfl

/-- The same bytes and times are held. -/
structure SameMedia (d d' : PsDemuxer) : Prop where
  videoBuffer : d'.videoBuffer = d.videoBuffer
  lastVideoPts : d'.lastVideoPts = d.lastVideoPts
  videoDts : d'.videoDts = d.videoDts
  lastAudioPts : d'.lastAudioPts = d.lastAudioPts

theorem Kept.change (h : Kept log d) (hsame : SameMedia d d')
    (hids : OwnIds d'.tracks)
    (hcaches : CachesFrom log d'.parameterSetCaches) : Kept log d' where
  ids := hids
  video := by
    rcases h.video with ⟨streamId, hlast, hfrom⟩ | hclean
    · exact .inl ⟨streamId, hlast, hsame.videoBuffer ▸ hfrom.buffer,
        hsame.lastVideoPts ▸ hfrom.pts, hsame.videoDts ▸ hfrom.dts⟩
    · exact .inr ⟨hsame.videoBuffer.trans hclean.buffer, hsame.lastVideoPts.trans hclean.pts,
        hsame.videoDts.trans hclean.dts⟩
  unstamped hbuffer := hsame.videoDts.trans (h.unstamped (hsame.videoBuffer.symm.trans hbuffer))
  audio := hsame.lastAudioPts ▸ h.audio
  caches := hcaches

theorem Kept.newPs (h : Kept log d) (newPs : Bool) : Kept log { d with newPs := newPs } :=
  h.change ⟨rfl, rfl, rfl, rfl⟩ h.ids h.caches

theorem beginPack_kept (h : Kept log d) (hown : d.newPs → OwnTrack order log d) :
    Kept log (d.beginPack order).1 ∧ AllUnmixed log (d.beginPack order).2 := by
  unfold beginPack
  dsimp only
  split
  · rename_i hnew
    exact (h.newPs false).emit (hown hnew)
  · exact ⟨h.newPs false, .of_none rfl⟩

theorem audio_snoc {audioPts : Option Int} (hvideo : isVideoStreamId streamId = true)
    (h : ∀ ticks, audioPts = some ticks → ∃ s, log.lastOf false = some s ∧
      ∃ pes ∈ log.own s.toNat, pes.pts = some ticks) (pes : PesPacket) :
    ∀ ticks, audioPts = some ticks → ∃ s, PesLog.lastOf (log ++ [(streamId, pes)]) false = some s ∧
      ∃ pes' ∈ PesLog.own (log ++ [(streamId, pes)]) s.toNat, pes'.pts = some ticks := by
  intro ticks hticks
  obtain ⟨s, hlast, pes', hpes', hpts⟩ := h ticks hticks
  refine ⟨s, ?_, pes', ?_, hpts⟩
  · rw [PesLog.lastOf_snoc, if_neg (by rw [hvideo]; decide), hlast]
  · rw [PesLog.own_append]
    exact List.mem_append_left _ hpes'

theorem CachesFrom.mono {caches : AList fun _ : UInt8 => ParameterSetCache}
    (h : CachesFrom log caches) (log' : PesLog) : CachesFrom (log ++ log') caches := by
  intro entry hentry unit hunit
  obtain ⟨pes, hpes, hsplit⟩ := h entry hentry unit hunit
  refine ⟨pes, ?_, hsplit⟩
  rw [PesLog.own_append]
  exact List.mem_append_left _ hpes

/-- Only the caches change when a payload is searched for parameter sets. -/
theorem discoverParameterSets_caches (h : CachesFrom log d.parameterSetCaches) (streamId : UInt8)
    (codec : CodecId) (pes : PesPacket) :
    ∃ caches, (d.discoverParameterSets streamId codec pes.payload).1 =
      { d with parameterSetCaches := caches } ∧
      CachesFrom (log ++ [(streamId, pes)]) caches := by
  unfold discoverParameterSets
  split
  · exact ⟨_, rfl, h.mono _⟩
  · refine ⟨_, rfl, fun entry hentry unit hunit => ?_⟩
    rcases mem_entries_insert hentry with rfl | hentry
    · rcases mem_cached_updateFromAnnexb _ _ _ hunit with hunit | hunit
      · cases hlookup : d.parameterSetCaches.lookup streamId with
        | none =>
          rw [hlookup] at hunit
          cases hunit
        | some cache =>
          rw [hlookup] at hunit
          exact h.mono _ ⟨streamId, cache⟩ (AList.mem_lookup_iff.mp hlookup) unit hunit
      · refine ⟨pes, ?_, hunit⟩
        rw [PesLog.own_snoc]
        exact List.mem_append_right _ List.mem_cons_self
    · exact h.mono _ entry hentry unit hunit

end PsDemuxer
end CheetahMedia.Codec
