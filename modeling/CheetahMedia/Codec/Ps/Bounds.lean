import CheetahMedia.Codec.Ps.InRange
import CheetahMedia.Codec.Ps.Separation
import Mathlib.Data.List.Perm.Subperm

namespace CheetahMedia.Codec
open Lib Checked

namespace PsDemuxer
variable {order : MapOrder} {d d' : PsDemuxer} {streamId : UInt8}

/-- What the handling of a unit leaves alone. -/
structure SameBuffer (d d' : PsDemuxer) : Prop where
  config : d'.config = d.config
  remainBuffer : d'.remainBuffer = d.remainBuffer

theorem SameBuffer.refl (d : PsDemuxer) : SameBuffer d d := ⟨rfl, rfl⟩

theorem SameBuffer.trans (h : SameBuffer d d') (h' : SameBuffer d' d'') : SameBuffer d d'' :=
  ⟨h'.config.trans h.config, h'.remainBuffer.trans h.remainBuffer⟩

theorem declareTracks_sameBuffer (d : PsDemuxer)
    (entries : List (Sigma fun _ : UInt8 => TrackInfo)) :
    SameBuffer d (d.declareTracks entries).1 := by
  induction entries generalizing d with
  | nil => exact .refl d
  | cons entry entries ih =>
    refine SameBuffer.trans ?_ (ih (d.declareTrack entry.1 entry.2).1)
    unfold declareTrack
    split
    · exact .refl d
    · exact ⟨rfl, rfl⟩

theorem applyPsm_sameBuffer (order : MapOrder) (d : PsDemuxer) (version : UInt8)
    (newTracks : TrackTable) : SameBuffer d (d.applyPsm order version newTracks).1 := by
  unfold applyPsm
  dsimp only
  split
  · exact .refl d
  split
  · exact .refl d
  · have hdeclared := declareTracks_sameBuffer { d with
      psmVersion := some version
      psmSignature := signatureOf newTracks
      psmDeclared := newTracks.keys } (order.entries newTracks)
    split
    · exact ⟨hdeclared.config, hdeclared.remainBuffer⟩
    · exact ⟨hdeclared.config, hdeclared.remainBuffer⟩

theorem parsePsm_sameBuffer (order : MapOrder) (d : PsDemuxer) (payload : Bytes) :
    SameBuffer d (d.parsePsm order payload).1 := by
  unfold parsePsm
  split
  · dsimp only
    split
    · exact .refl d
    split
    · exact .refl d
    split
    · exact ⟨rfl, rfl⟩
    · have happlied := applyPsm_sameBuffer order
      exact ⟨(happlied _ _ _).config, (happlied _ _ _).remainBuffer⟩
  · exact .refl d

theorem discoverParameterSets_sameBuffer (d : PsDemuxer) (streamId : UInt8) (codec : CodecId)
    (payload : Bytes) : SameBuffer d (d.discoverParameterSets streamId codec payload).1 := by
  unfold discoverParameterSets
  split
  · exact .refl d
  · exact ⟨rfl, rfl⟩

theorem emitVideoFrame_sameBuffer (order : MapOrder) (d : PsDemuxer) :
    SameBuffer d (d.emitVideoFrame order).1 := by
  unfold emitVideoFrame
  split
  · exact .refl d
  · exact ⟨rfl, rfl⟩

theorem appendVideo_sameBuffer (d : PsDemuxer) (streamId : UInt8) (track : TrackInfo)
    (pes : PesPacket) : SameBuffer d (d.appendVideo streamId track pes).1 := by
  unfold appendVideo
  split
  · exact ⟨rfl, rfl⟩
  · have hdiscovered :=
      discoverParameterSets_sameBuffer (d.joinVideo pes) streamId track.codec pes.payload
    have hsame : SameBuffer d
        ((d.joinVideo pes).discoverParameterSets streamId track.codec pes.payload).1 :=
      ⟨hdiscovered.config, hdiscovered.remainBuffer⟩
    dsimp only
    split
    · split
      · exact hsame
      · exact ⟨hsame.config, hsame.remainBuffer⟩
    · exact hsame

theorem probeVideo_sameBuffer (d : PsDemuxer) (streamId : UInt8) (pes : PesPacket) :
    SameBuffer d (d.probeVideo streamId pes).1 := by
  unfold probeVideo
  dsimp only
  split
  · exact .refl d
  split
  · exact ⟨rfl, rfl⟩
  split
  · exact ⟨rfl, rfl⟩
  split
  · exact ⟨rfl, rfl⟩
  · have hdiscovered := discoverParameterSets_sameBuffer
    exact ⟨(hdiscovered _ _ _ _).config, (hdiscovered _ _ _ _).remainBuffer⟩

theorem handleVideo_sameBuffer (order : MapOrder) (d : PsDemuxer) (streamId : UInt8)
    (pes : PesPacket) : SameBuffer d (d.handleVideo order streamId pes).1 := by
  unfold handleVideo
  split
  · dsimp only
    split
    · exact (emitVideoFrame_sameBuffer order d).trans (appendVideo_sameBuffer _ _ _ _)
    · exact appendVideo_sameBuffer _ _ _ _
  · exact probeVideo_sameBuffer d streamId pes

theorem handleAudio_sameBuffer (order : MapOrder) (d : PsDemuxer) (streamId : UInt8)
    (pes : PesPacket) : SameBuffer d (d.handleAudio order streamId pes).1 := by
  unfold handleAudio
  split
  · unfold audioFrame
    dsimp only
    split
    · split
      · exact ⟨rfl, rfl⟩
      · exact ⟨rfl, rfl⟩
    · exact ⟨rfl, rfl⟩
  · unfold probeAudio
    split
    · exact .refl d
    · exact ⟨rfl, rfl⟩

theorem beginPack_sameBuffer (order : MapOrder) (d : PsDemuxer) :
    SameBuffer d (d.beginPack order).1 := by
  unfold beginPack
  dsimp only
  split
  · have hemitted := emitVideoFrame_sameBuffer order { d with newPs := false }
    exact ⟨hemitted.config, hemitted.remainBuffer⟩
  · exact ⟨rfl, rfl⟩

theorem parsePes_sameBuffer (order : MapOrder) (d : PsDemuxer) (streamId : UInt8)
    (packet : Bytes) : SameBuffer d (d.parsePes order streamId packet).1 := by
  unfold parsePes
  split
  · exact .refl d
  split
  · exact .refl d
  · unfold handlePes
    refine (beginPack_sameBuffer order d).trans ?_
    dsimp only
    split
    · exact handleVideo_sameBuffer _ _ _ _
    split
    · exact handleAudio_sameBuffer _ _ _ _
    · exact .refl _

theorem handle_sameBuffer (order : MapOrder) (d : PsDemuxer) (unit : PsUnit) :
    SameBuffer d (d.handle order unit).1 := by
  cases unit with
  | packHeader =>
    show SameBuffer d d.handlePackHeader.1
    unfold handlePackHeader
    dsimp only
    split
    · exact ⟨rfl, rfl⟩
    · exact ⟨rfl, rfl⟩
  | systemHeader => exact ⟨rfl, rfl⟩
  | streamMap payload =>
    have hsame := parsePsm_sameBuffer order d payload
    exact ⟨hsame.config, hsame.remainBuffer⟩
  | pes streamId packet =>
    have hsame := parsePes_sameBuffer order d streamId packet
    exact ⟨hsame.config, hsame.remainBuffer⟩

/-- What the demuxer keeps to while it works on a buffer. -/
structure WithinLimits (d : PsDemuxer) : Prop where
  ids : OwnIds d.tracks
  distinct : d.psmDeclared.Nodup
  tracks : d.tracks.keys.length ≤ d.config.maxTracks
  declared : ∀ streamId ∈ d.psmDeclared, streamId ∈ d.tracks
  video : d.videoBuffer.length ≤ d.config.maxAccessUnitSize

theorem WithinLimits.change (h : WithinLimits d) (hconfig : d'.config = d.config)
    (htracks : d'.tracks = d.tracks) (hdeclared : d'.psmDeclared = d.psmDeclared)
    (hvideo : d'.videoBuffer.length ≤ d.config.maxAccessUnitSize) : WithinLimits d' where
  ids := htracks ▸ h.ids
  distinct := hdeclared ▸ h.distinct
  tracks := by rw [htracks, hconfig]; exact h.tracks
  declared := by rw [htracks, hdeclared]; exact h.declared
  video := by rw [hconfig]; exact hvideo

theorem insert_length (tracks : TrackTable) (streamId : UInt8) (track : TrackInfo) :
    (tracks.insert streamId track).keys.length =
      if streamId ∈ tracks then tracks.keys.length else tracks.keys.length + 1 := by
  rw [AList.keys_insert, List.length_cons]
  split
  · rename_i hmem
    have hpos := List.length_pos_of_mem (AList.mem_keys.mp hmem)
    rw [List.length_erase_of_mem (AList.mem_keys.mp hmem)]
    omega
  · rename_i hnew
    rw [List.erase_of_not_mem fun h => hnew (AList.mem_keys.mpr h)]

theorem WithinLimits.insert {track : TrackInfo} (h : WithinLimits d)
    (hroom : streamId ∈ d.tracks ∨ d.tracks.keys.length < d.config.maxTracks)
    (hid : track.trackId = streamId.toNat) (hconfig : d'.config = d.config)
    (htracks : d'.tracks = d.tracks.insert streamId track)
    (hdeclared : d'.psmDeclared = d.psmDeclared)
    (hvideo : d'.videoBuffer.length ≤ d.config.maxAccessUnitSize) : WithinLimits d' where
  ids := htracks ▸ h.ids.insert hid
  distinct := hdeclared ▸ h.distinct
  tracks := by
    have hold := h.tracks
    rw [htracks, insert_length, hconfig]
    split
    · exact hold
    · rename_i hnew
      have hlt := hroom.resolve_left hnew
      omega
  declared := by
    rw [htracks, hdeclared]
    exact fun id hid => AList.mem_insert _ |>.mpr (Or.inr (h.declared id hid))
  video := by rw [hconfig]; exact hvideo

theorem emitVideoFrame_within (h : WithinLimits d) (order : MapOrder) :
    WithinLimits (d.emitVideoFrame order).1 := by
  unfold emitVideoFrame
  split
  · exact h
  · exact h.change rfl rfl rfl (Nat.zero_le _)

/-- The parameter sets that are found change only what is kept of them. -/
theorem discoverParameterSets_frame (d : PsDemuxer) (streamId : UInt8) (codec : CodecId)
    (payload : Bytes) :
    (d.discoverParameterSets streamId codec payload).1.config = d.config ∧
      (d.discoverParameterSets streamId codec payload).1.tracks = d.tracks ∧
      (d.discoverParameterSets streamId codec payload).1.psmDeclared = d.psmDeclared ∧
      (d.discoverParameterSets streamId codec payload).1.videoBuffer = d.videoBuffer := by
  unfold discoverParameterSets
  split
  · exact ⟨rfl, rfl, rfl, rfl⟩
  · exact ⟨rfl, rfl, rfl, rfl⟩

theorem appendVideo_within (h : WithinLimits d) (streamId : UInt8) (track : TrackInfo)
    (pes : PesPacket) : WithinLimits (d.appendVideo streamId track pes).1 := by
  unfold appendVideo
  split
  · exact h.change rfl rfl rfl (Nat.zero_le _)
  · rename_i hfits
    obtain ⟨hconfig, htracks, hdeclared, hvideo⟩ :=
      discoverParameterSets_frame (d.joinVideo pes) streamId track.codec pes.payload
    have hlength : ((d.joinVideo pes).discoverParameterSets streamId track.codec
        pes.payload).1.videoBuffer.length ≤ d.config.maxAccessUnitSize := by
      rw [hvideo]
      show (d.videoBuffer ++ pes.payload).length ≤ _
      rw [List.length_append]
      omega
    have hjoined := h.change hconfig htracks hdeclared hlength
    dsimp only
    split
    · rename_i found hlookup
      have hmem := AList.mem_lookup_iff.mp hlookup
      split
      · exact hjoined
      · refine hjoined.insert (Or.inl (AList.mem_keys.mpr (List.mem_map_of_mem hmem))) ?_ rfl rfl
          rfl hjoined.video
        exact hjoined.ids _ hmem
    · exact hjoined

/-- A stream without a track gets one only where there is room. -/
theorem room_of (h : ¬(streamId ∉ d.tracks ∧ d.config.maxTracks ≤ d.tracks.keys.length)) :
    streamId ∈ d.tracks ∨ d.tracks.keys.length < d.config.maxTracks := by
  rcases not_and_or.mp h with h | h
  · exact Or.inl (not_not.mp h)
  · exact Or.inr (Nat.lt_of_not_le h)

theorem probeVideo_within (h : WithinLimits d) (streamId : UInt8) (pes : PesPacket) :
    WithinLimits (d.probeVideo streamId pes).1 := by
  unfold probeVideo
  dsimp only
  split
  · exact h
  rename_i hroom
  split
  · exact h.change rfl rfl rfl (Nat.zero_le _)
  rename_i hfits
  split
  · exact h.change rfl rfl rfl h.video
  split
  · exact h.change rfl rfl rfl h.video
  · rename_i codec _
    obtain ⟨hconfig, htracks, hdeclared, hvideo⟩ := discoverParameterSets_frame
      { d with codecProbePes := d.codecProbePes.insert streamId 0 } streamId codec pes.payload
    refine h.insert (room_of hroom) ?_ hconfig (by rw [htracks]) hdeclared ?_
    · split
      · rfl
      · rfl
    · rw [hvideo, List.length_append]
      show d.videoBuffer.length + _ ≤ _
      omega

theorem handleVideo_within (h : WithinLimits d) (order : MapOrder) (streamId : UInt8)
    (pes : PesPacket) : WithinLimits (d.handleVideo order streamId pes).1 := by
  unfold handleVideo
  split
  · dsimp only
    split
    · exact appendVideo_within (emitVideoFrame_within h order) _ _ _
    · exact appendVideo_within h _ _ _
  · exact probeVideo_within h streamId pes

theorem handleAudio_within (h : WithinLimits d) (order : MapOrder) (streamId : UInt8)
    (pes : PesPacket) : WithinLimits (d.handleAudio order streamId pes).1 := by
  unfold handleAudio
  split
  · rename_i track hfind
    obtain ⟨hmem, -⟩ := MapOrder.findKind_some hfind
    have hid := h.ids _ hmem
    dsimp only at hid
    unfold audioFrame
    dsimp only
    split
    · split
      · refine h.insert (Or.inl ?_) ?_ rfl rfl rfl h.video
        · rw [hid, UInt8.ofNat_toNat]
          exact AList.mem_keys.mpr (List.mem_map_of_mem hmem)
        · rw [hid, UInt8.ofNat_toNat]
      · exact h.change rfl rfl rfl h.video
    · exact h.change rfl rfl rfl h.video
  · unfold probeAudio
    split
    · exact h
    · rename_i hroom
      exact h.insert (room_of hroom) rfl rfl rfl rfl h.video

theorem parsePes_within (h : WithinLimits d) (order : MapOrder) (streamId : UInt8)
    (packet : Bytes) : WithinLimits (d.parsePes order streamId packet).1 := by
  unfold parsePes
  split
  · exact h
  split
  · exact h
  · have hbegun : WithinLimits (d.beginPack order).1 := by
      have hnew : WithinLimits { d with newPs := false } := h.change rfl rfl rfl h.video
      unfold beginPack
      dsimp only
      split
      · exact emitVideoFrame_within hnew order
      · exact hnew
    unfold handlePes
    dsimp only
    split
    · exact handleVideo_within hbegun order _ _
    split
    · exact handleAudio_within hbegun order _ _
    · exact hbegun

theorem mem_declareTracks (d : PsDemuxer) (entries : List (Sigma fun _ : UInt8 => TrackInfo)) :
    streamId ∈ (d.declareTracks entries).1.tracks ↔
      streamId ∈ d.tracks ∨ streamId ∈ entries.map (·.1) := by
  induction entries generalizing d with
  | nil => simp [declareTracks]
  | cons entry entries ih =>
    have hone : streamId ∈ (d.declareTrack entry.1 entry.2).1.tracks ↔
        streamId ∈ d.tracks ∨ streamId = entry.1 := by
      unfold declareTrack
      split
      · rename_i hthere
        have hmem : entry.1 ∈ d.tracks := by
          cases hlookup : d.tracks.lookup entry.1 with
          | none =>
            rw [hlookup] at hthere
            cases hthere
          | some track =>
            exact AList.lookup_isSome.mp (by rw [hlookup]; rfl)
        refine ⟨Or.inl, ?_⟩
        rintro (h | rfl)
        · exact h
        · exact hmem
      · show streamId ∈ d.tracks.insert entry.1 entry.2 ↔ _
        rw [AList.mem_insert, or_comm]
    show streamId ∈ ((d.declareTrack entry.1 entry.2).1.declareTracks entries).1.tracks ↔ _
    rw [ih, hone, List.map_cons, List.mem_cons, or_assoc]

theorem mem_foldl_erase {β : UInt8 → Type} (keys : List UInt8) (s : AList β) :
    streamId ∈ keys.foldl (fun s key => s.erase key) s ↔ streamId ∈ s ∧ streamId ∉ keys := by
  induction keys generalizing s with
  | nil => simp
  | cons key keys ih =>
    rw [List.foldl_cons, ih, AList.mem_erase, List.mem_cons, not_or]
    tauto

/-- What a map leaves of the tracks, and those that it adds. -/
theorem keys_length_le {before after : TrackTable} {added removed : List UInt8}
    (hafter : ∀ id, id ∈ after → (id ∈ before ∨ id ∈ added) ∧ id ∉ removed)
    (hremoved : removed.Nodup) (hold : ∀ id ∈ removed, id ∈ before) :
    after.keys.length ≤
      before.keys.length - removed.length + (added.filter (· ∉ before)).length := by
  have hkept : removed.length ≤ (before.keys.filter (· ∈ removed)).length := by
    refine (List.subperm_of_subset hremoved fun id hid => ?_).length_le
    exact List.mem_filter.mpr ⟨AList.mem_keys.mp (hold id hid), decide_eq_true hid⟩
  have hsplit := List.length_eq_length_filter_add (l := before.keys) (decide <| · ∈ removed)
  have hcover : after.keys.length ≤ (before.keys.filter (fun id => !decide (id ∈ removed)) ++
      added.filter (· ∉ before)).length := by
    refine (List.subperm_of_subset after.keys_nodup fun id hid => ?_).length_le
    obtain ⟨hsource, hleft⟩ := hafter id (AList.mem_keys.mpr hid)
    rw [List.mem_append, List.mem_filter, List.mem_filter]
    by_cases hbefore : id ∈ before
    · exact Or.inl ⟨AList.mem_keys.mp hbefore, by simp [hleft]⟩
    · exact Or.inr ⟨hsource.resolve_left hbefore, decide_eq_true hbefore⟩
  rw [List.length_append] at hcover
  omega

theorem declareTracks_ids (h : OwnIds d.tracks) {entries : List (Sigma fun _ : UInt8 => TrackInfo)}
    (hids : ∀ entry ∈ entries, entry.2.trackId = entry.1.toNat) :
    OwnIds (d.declareTracks entries).1.tracks := by
  induction entries generalizing d with
  | nil => exact h
  | cons entry entries ih =>
    obtain ⟨hid, hids⟩ := List.forall_mem_cons.mp hids
    refine ih (d := (d.declareTrack entry.1 entry.2).1) ?_ hids
    unfold declareTrack
    split
    · exact h
    · exact h.insert hid

theorem declareTracks_frame (d : PsDemuxer) (entries : List (Sigma fun _ : UInt8 => TrackInfo)) :
    (d.declareTracks entries).1.psmDeclared = d.psmDeclared ∧
      (d.declareTracks entries).1.videoBuffer = d.videoBuffer := by
  induction entries generalizing d with
  | nil => exact ⟨rfl, rfl⟩
  | cons entry entries ih =>
    obtain ⟨hdeclared, hvideo⟩ := ih (d.declareTrack entry.1 entry.2).1
    have hone : (d.declareTrack entry.1 entry.2).1.psmDeclared = d.psmDeclared ∧
        (d.declareTrack entry.1 entry.2).1.videoBuffer = d.videoBuffer := by
      unfold declareTrack
      split
      · exact ⟨rfl, rfl⟩
      · exact ⟨rfl, rfl⟩
    exact ⟨hdeclared.trans hone.1, hvideo.trans hone.2⟩

theorem applyPsm_within (h : WithinLimits d) (order : MapOrder) (version : UInt8)
    {newTracks : TrackTable} (hids : OwnIds newTracks) :
    WithinLimits (d.applyPsm order version newTracks).1 := by
  unfold applyPsm
  dsimp only
  split
  · exact h
  split
  · exact h
  rename_i hroom
  let placed : PsDemuxer := { d with
    psmVersion := some version
    psmSignature := signatureOf newTracks
    psmDeclared := newTracks.keys }
  let removed := d.psmDeclared.filter (· ∉ newTracks.keys)
  have hperm := order.perm newTracks
  have hkeys (id : UInt8) : id ∈ (order.entries newTracks).map (·.1) ↔ id ∈ newTracks.keys :=
    (hperm.map _).mem_iff
  have hmem (id : UInt8) :
      id ∈ ((placed.declareTracks (order.entries newTracks)).1.removeTracks removed).tracks ↔
        (id ∈ d.tracks ∨ id ∈ newTracks.keys) ∧ id ∉ removed := by
    rw [← hkeys id]
    exact (mem_foldl_erase removed _).trans (and_congr_left' (mem_declareTracks placed _))
  have hframe := declareTracks_frame placed (order.entries newTracks)
  have hsame := declareTracks_sameBuffer placed (order.entries newTracks)
  have hremoved : WithinLimits
      ((placed.declareTracks (order.entries newTracks)).1.removeTracks removed) :=
    { ids := fun entry hentry => declareTracks_ids (d := placed) h.ids
        (fun entry hentry => hids entry (hperm.mem_iff.mp hentry)) entry
        (foldl_erase_entries removed _ hentry)
      distinct := by
        show (placed.declareTracks (order.entries newTracks)).1.psmDeclared.Nodup
        rw [hframe.1]
        exact newTracks.keys_nodup
      tracks := by
        show _ ≤ (placed.declareTracks (order.entries newTracks)).1.config.maxTracks
        rw [hsame.config]
        refine (keys_length_le (fun id hid => (hmem id).mp hid) (h.distinct.filter _)
          fun id hid => h.declared id (List.mem_of_mem_filter hid)).trans ?_
        exact Nat.le_of_not_lt hroom
      declared := by
        show ∀ id ∈ (placed.declareTracks (order.entries newTracks)).1.psmDeclared, _
        rw [hframe.1]
        intro id hid
        refine (hmem id).mpr ⟨Or.inr hid, fun hgone => ?_⟩
        exact of_decide_eq_true (List.mem_filter.mp hgone).2 hid
      video := by
        show (placed.declareTracks (order.entries newTracks)).1.videoBuffer.length ≤
          (placed.declareTracks (order.entries newTracks)).1.config.maxAccessUnitSize
        rw [hframe.2, hsame.config]
        exact h.video }
  split
  · exact hremoved
  · exact hremoved.change rfl rfl rfl hremoved.video

theorem parsePsm_within (h : WithinLimits d) (order : MapOrder) (payload : Bytes) :
    WithinLimits (d.parsePsm order payload).1 := by
  unfold parsePsm
  split
  · dsimp only
    split
    · exact h
    split
    · exact h
    split
    · exact h.change rfl rfl rfl h.video
    · refine applyPsm_within ?_ order _ (parseEsMapWithin_ids _ _ _ _ _ ownIds_empty).1
      exact h.change rfl rfl rfl h.video
  · exact h

theorem handle_within (h : WithinLimits d) (order : MapOrder) (unit : PsUnit) :
    WithinLimits (d.handle order unit).1 := by
  cases unit with
  | packHeader =>
    show WithinLimits d.handlePackHeader.1
    unfold handlePackHeader
    dsimp only
    split
    · exact h.change rfl rfl rfl h.video
    · exact h.change rfl rfl rfl h.video
  | systemHeader => exact h.change rfl rfl rfl h.video
  | streamMap payload =>
    have hparsed := parsePsm_within h order payload
    exact hparsed.change rfl rfl rfl hparsed.video
  | pes streamId packet =>
    have hparsed := parsePes_within h order streamId packet
    exact hparsed.change rfl rfl rfl hparsed.video

/-- A demuxer of this configuration within its limits, whose buffer is no longer than `n`. -/
structure Holds (config : PsDemuxerConfig) (n : Nat) (d : PsDemuxer) : Prop where
  limits : WithinLimits d
  config : d.config = config
  buffer : d.remainBuffer.length ≤ n

end PsDemuxer

namespace Indexed
variable {order : MapOrder} {isLast : Bool}

/-- The buffer behind the cursor leads to the result. -/
structure Leads (order : MapOrder) (isLast : Bool) (config : PsDemuxerConfig) (buf : Bytes)
    (target : PsDemuxer × List PsDemuxEvent) (s : Cursor) : Prop where
  config : s.demuxer.config = config
  buffer : s.demuxer.remainBuffer = buf
  inside : s.cursor ≤ buf.length
  leads : ∃ passes, buf.length - s.cursor < passes ∧
    ((PsDemuxer.consumeWithin order isLast passes s.demuxer (buf.drop s.cursor)).1,
      s.events ++ (PsDemuxer.consumeWithin order isLast passes s.demuxer (buf.drop s.cursor)).2) =
        target

theorem consumePass_makes
    (hfits : buf.length + config.maxPesPacketSize < 18446744073709551616) (s : Cursor)
    (h : Leads order isLast config buf target s) :
    Yields (fun _ => False) (consumePass order isLast s)
      (Pass.Makes (Leads order isLast config buf target) (fun s => buf.length - s.cursor)
        (· = target) s) := by
  obtain ⟨d, cursor, events⟩ := s
  obtain ⟨rfl, rfl, hinside, passes, hpasses, rfl⟩ := h
  dsimp only at hfits hinside hpasses ⊢
  obtain ⟨passes, rfl⟩ : ∃ n, passes = n + 1 := ⟨passes - 1, by omega⟩
  unfold consumePass
  refine (cutNext_cuts hfits hinside isLast).bind fun cut hcut => ?_
  rw [PsDemuxer.consumeWithin, ← hcut.1]
  have hwithin := hcut.2
  cases cut with
  | wait next =>
    have hin : next ≤ d.remainBuffer.length := hwithin
    dsimp only [Cut.at]
    rw [slice_from hin, ok_bind, List.append_nil]
    exact .pure rfl
  | tooLong => exact .pure rfl
  | skip next =>
    obtain ⟨hlt, hle⟩ := hwithin
    exact .pure ⟨⟨rfl, rfl, hle, passes, by dsimp only; omega, rfl⟩,
      by show d.remainBuffer.length - next < d.remainBuffer.length - cursor; omega⟩
  | unit unit next =>
    obtain ⟨hlt, hle⟩ := hwithin
    have hsame := PsDemuxer.handle_sameBuffer order d unit
    dsimp only [Cut.at]
    rw [handle_eq, ok_bind]
    refine .pure ⟨⟨hsame.config, hsame.remainBuffer, hle, passes, by dsimp only; omega, ?_⟩,
      by show d.remainBuffer.length - next < d.remainBuffer.length - cursor; omega⟩
    dsimp only
    rw [List.append_assoc]

/-- By its indices the demuxer does what it does by the parts of its buffer. -/
theorem consumeBuffer_eq (order : MapOrder) (d : PsDemuxer) (isLast : Bool)
    (hfits : d.remainBuffer.length + d.config.maxPesPacketSize < 18446744073709551616) :
    consumeBuffer order d isLast = .ok (d.consumeBuffer order isLast) :=
  loop_eq (fun s => d.remainBuffer.length - s.cursor) (consumePass_makes hfits)
    ⟨rfl, rfl, Nat.zero_le _, d.remainBuffer.length + 1, by dsimp only; omega, rfl⟩
    (by dsimp only; omega)

/-- A cursor in the buffer of a demuxer within its limits. -/
structure Working (config : PsDemuxerConfig) (buf : Bytes) (s : Cursor) : Prop where
  limits : PsDemuxer.WithinLimits s.demuxer
  config : s.demuxer.config = config
  buffer : s.demuxer.remainBuffer = buf
  inside : s.cursor ≤ buf.length

theorem consumePass_holds (order : MapOrder) (isLast : Bool)
    (hfits : buf.length + config.maxPesPacketSize < 18446744073709551616) (s : Cursor)
    (h : Working config buf s) :
    Yields (fun _ => False) (consumePass order isLast s)
      (Pass.Makes (Working config buf) (fun s => buf.length - s.cursor)
        (fun r => PsDemuxer.Holds config buf.length r.1) s) := by
  obtain ⟨d, cursor, events⟩ := s
  obtain ⟨hlimits, rfl, rfl, hinside⟩ := h
  dsimp only at hlimits hfits hinside ⊢
  unfold consumePass
  refine (cutNext_cuts hfits hinside isLast).bind fun cut hcut => ?_
  have hwithin := hcut.2
  cases cut with
  | wait next =>
    have hin : next ≤ d.remainBuffer.length := hwithin
    dsimp only
    rw [slice_from hin, ok_bind]
    refine .pure ⟨hlimits.change rfl rfl rfl hlimits.video, rfl, ?_⟩
    show (d.remainBuffer.drop next).length ≤ d.remainBuffer.length
    rw [List.length_drop]
    exact Nat.sub_le _ _
  | tooLong => exact .pure ⟨hlimits.change rfl rfl rfl hlimits.video, rfl, Nat.zero_le _⟩
  | skip next =>
    obtain ⟨hlt, hle⟩ := hwithin
    exact .pure ⟨⟨hlimits, rfl, rfl, hle⟩,
      by show d.remainBuffer.length - next < d.remainBuffer.length - cursor; omega⟩
  | unit unit next =>
    obtain ⟨hlt, hle⟩ := hwithin
    have hsame := PsDemuxer.handle_sameBuffer order d unit
    dsimp only
    rw [handle_eq, ok_bind]
    exact .pure ⟨⟨PsDemuxer.handle_within hlimits order unit, hsame.config, hsame.remainBuffer,
      hle⟩, by show d.remainBuffer.length - next < d.remainBuffer.length - cursor; omega⟩

theorem consumeBuffer_holds {d : PsDemuxer} (h : PsDemuxer.WithinLimits d) (order : MapOrder)
    (isLast : Bool)
    (hfits : d.remainBuffer.length + d.config.maxPesPacketSize < 18446744073709551616) :
    PsDemuxer.Holds d.config d.remainBuffer.length (d.consumeBuffer order isLast).1 := by
  have hstart : Working d.config d.remainBuffer ⟨d, 0, []⟩ := ⟨h, rfl, rfl, Nat.zero_le _⟩
  have hloop := loop_yields (fun s : Cursor => d.remainBuffer.length - s.cursor)
    (consumePass_holds order isLast hfits) hstart
    (Nat.lt_succ_self d.remainBuffer.length)
  exact hloop.of_ok (consumeBuffer_eq order d isLast hfits)

def apply (order : MapOrder) (d : PsDemuxer) : PsInput → Checked (PsDemuxer × List PsDemuxEvent)
  | .push data => push order d data
  | .flush => flush order d

def run (order : MapOrder) : PsDemuxer → List PsInput → Checked (PsDemuxer × List PsDemuxEvent)
  | d, [] => return (d, [])
  | d, input :: inputs => do
    let (d, events) ← apply order d input
    let (d, events') ← run order d inputs
    return (d, events ++ events')

/-- The sizes that the demuxer adds up are words. -/
def Fits (config : PsDemuxerConfig) : Prop :=
  config.maxReassemblyBytes + config.maxPesPacketSize < 18446744073709551616

theorem apply_holds {d : PsDemuxer} (hfits : Fits config)
    (h : PsDemuxer.Holds config config.maxReassemblyBytes d) (order : MapOrder) (input : PsInput) :
    apply order d input = .ok (d.apply order input) ∧
      PsDemuxer.Holds config config.maxReassemblyBytes (d.apply order input).1 := by
  obtain ⟨hlimits, rfl, hbuffer⟩ := h
  unfold Fits at hfits
  cases input with
  | push data =>
    unfold apply push PsDemuxer.apply PsDemuxer.push
    dsimp only
    split
    · exact ⟨rfl, hlimits.change rfl rfl rfl hlimits.video, rfl, Nat.zero_le _⟩
    · rename_i hroom
      have hlength : (d.remainBuffer ++ data).length = d.remainBuffer.length + data.length :=
        List.length_append
      have hheld := consumeBuffer_holds (d := { d with remainBuffer := d.remainBuffer ++ data })
        (hlimits.change rfl rfl rfl hlimits.video) order false (by dsimp only; omega)
      refine ⟨consumeBuffer_eq order _ false (by dsimp only; omega), hheld.limits, hheld.config, ?_⟩
      have hbuffer' := hheld.buffer
      dsimp only at hbuffer'
      omega
  | flush =>
    have hheld := consumeBuffer_holds hlimits order true (by omega)
    unfold apply flush PsDemuxer.apply PsDemuxer.flush
    dsimp only
    rw [consumeBuffer_eq order d true (by omega), ok_bind]
    have hsame := PsDemuxer.emitVideoFrame_sameBuffer order (d.consumeBuffer order true).1
    refine ⟨rfl, PsDemuxer.emitVideoFrame_within hheld.limits order,
      hsame.config.trans hheld.config, ?_⟩
    rw [hsame.remainBuffer]
    exact hheld.buffer.trans hbuffer

theorem run_holds {d : PsDemuxer} (hfits : Fits config)
    (h : PsDemuxer.Holds config config.maxReassemblyBytes d) (order : MapOrder)
    (inputs : List PsInput) : run order d inputs = .ok (d.run order inputs) ∧
      PsDemuxer.Holds config config.maxReassemblyBytes (d.run order inputs).1 := by
  induction inputs generalizing d with
  | nil => exact ⟨rfl, h⟩
  | cons input inputs ih =>
    obtain ⟨hinput, hheld⟩ := apply_holds hfits h order input
    obtain ⟨hinputs, hheld'⟩ := ih hheld
    refine ⟨?_, hheld'⟩
    rw [run, hinput, ok_bind]
    simp only [hinputs, ok_bind]
    rfl

/-- What a demuxer never exceeds. -/
structure Bounded (d : PsDemuxer) : Prop where
  tracks : d.tracks.keys.length ≤ d.config.maxTracks
  declared : ∀ streamId ∈ d.psmDeclared, streamId ∈ d.tracks
  video : d.videoBuffer.length ≤ d.config.maxAccessUnitSize
  reassembly : d.remainBuffer.length ≤ d.config.maxReassemblyBytes

/-- Whatever is pushed, the demuxer returns, and stays within its limits. -/
theorem run_bounded (hfits : Fits config) (order : MapOrder) (inputs : List PsInput) :
    ∃ d events, run order (.new config) inputs = .ok (d, events) ∧ d.config = config ∧
      Bounded d := by
  have hnew : PsDemuxer.WithinLimits (.new config) :=
    ⟨PsDemuxer.ownIds_empty, List.nodup_nil, Nat.zero_le _, fun _ h => absurd h List.not_mem_nil,
      Nat.zero_le _⟩
  obtain ⟨hrun, hheld⟩ := run_holds hfits ⟨hnew, rfl, Nat.zero_le _⟩ order inputs
  refine ⟨_, _, hrun, hheld.config, hheld.limits.tracks, hheld.limits.declared,
    hheld.limits.video, ?_⟩
  rw [hheld.config]
  exact hheld.buffer

/-- With the limits by default. -/
theorem run_bounded_default : ∃ d events, run .listed (.new {}) [.push [0x00, 0x00, 0x01], .flush] =
    .ok (d, events) ∧ d.config = {} ∧ Bounded d :=
  run_bounded (by unfold Fits; decide) .listed _

end Indexed
end CheetahMedia.Codec
