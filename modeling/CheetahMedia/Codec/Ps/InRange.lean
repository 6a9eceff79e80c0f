import CheetahMedia.Codec.Ps.Indexed

namespace CheetahMedia.Codec.Indexed
open Lib Checked
open PsDemuxer (codecFromEsType declaredTrack stripAacAdts parseEsMapWithin)

theorem u16At_eq (h : i + 1 < data.length) :
    u16At data i = .ok (fromBigEndian ((data.drop i).take 2)) := by
  rw [u16At, byteAt_ok (List.getElem?_eq_getElem (by omega : i < data.length)), ok_bind,
    byteAt_ok (List.getElem?_eq_getElem h), List.drop_eq_getElem_cons (by omega : i < data.length),
    List.drop_eq_getElem_cons h]
  show _ = Except.ok (fromBigEndian [data[i], data[i + 1]])
  simp [fromBigEndian]

theorem slice_from (h : offset ≤ data.length) :
    slice data offset data.length = (.ok (data.drop offset) : Checked Bytes) := by
  rw [slice_ok h (Nat.le_refl _), List.take_of_length_le (by rw [List.length_drop])]

theorem lengthFrom_eq (h : n ≤ data.length) : lengthFrom data n = .ok (data.length - n) :=
  if_pos h

theorem probeAudioCodec_eq (payload : Bytes) (streamId : UInt8) :
    probeAudioCodec payload streamId = .ok (Codec.probeAudioCodec payload streamId) := by
  rcases payload with _ | ⟨b₀, _ | ⟨b₁, rest⟩⟩
  · rfl
  · rfl
  · rw [probeAudioCodec, if_neg (by simp)]
    rfl

/-- A pass goes on with what is behind the start code that it found. -/
theorem probeVideoPass_makes (offset : Nat)
    (h : ∃ passes, payload.length - offset ≤ passes ∧
      probeVideoCodecWithin passes (payload.drop offset) = codec) :
    Yields (fun _ => False) (probeVideoPass payload offset)
      (Pass.Makes (fun offset => ∃ passes, payload.length - offset ≤ passes ∧
        probeVideoCodecWithin passes (payload.drop offset) = codec)
        (fun offset => payload.length - offset) (· = codec) offset) := by
  obtain ⟨passes, hpasses, rfl⟩ := h
  unfold probeVideoPass
  split
  · rename_i hshort
    refine .pure ?_
    cases passes with
    | zero => rfl
    | succ passes =>
      rw [probeVideoCodecWithin, if_pos (by rw [List.length_drop]; omega)]
      rfl
  · rename_i hlong
    obtain ⟨passes, rfl⟩ : ∃ n, passes = n + 1 := ⟨passes - 1, by omega⟩
    rw [slice_from (by omega), ok_bind, probeVideoCodecWithin,
      if_neg (by rw [List.length_drop]; omega)]
    cases findTriplet (payload.drop offset) with
    | none => exact .pure rfl
    | some pos =>
      have hget : (payload.drop offset)[pos + 3]? = payload[offset + pos + 3]? := by
        rw [List.getElem?_drop, Nat.add_assoc]
      simp only [hget]
      obtain ⟨skip, hskip, hat, hwithin⟩ : ∃ skip, 3 ≤ skip ∧
          (if payload[offset + pos + 3]? = some 0x00 then offset + pos + 4 else offset + pos + 3) =
            offset + (pos + skip) ∧
          (if payload[offset + pos + 3]? = some 0x00 then pos + 4 else pos + 3) = pos + skip := by
        split
        · exact ⟨4, by decide, by omega, rfl⟩
        · exact ⟨3, by decide, by omega, rfl⟩
      rw [hat, hwithin, List.drop_drop]
      split
      · rename_i hend
        refine .pure ?_
        have hlen : (payload.drop (offset + (pos + skip))).length ≤ 1 := by
          rw [List.length_drop]
          omega
        show none = _
        split
        · rename_i heq
          rw [heq] at hlen
          simp at hlen
        · rfl
      · rename_i hin
        rw [List.drop_eq_getElem_cons (by omega : offset + (pos + skip) < payload.length),
          List.drop_eq_getElem_cons (by omega : offset + (pos + skip) + 1 < payload.length)]
        refine .byteAt_bind (by omega) fun b₀ hb₀ => .byteAt_bind (by omega) fun b₁ hb₁ => ?_
        rw [List.getElem?_eq_getElem (by omega)] at hb₀ hb₁
        cases hb₀
        cases hb₁
        dsimp only
        cases codecOfNalHeader _ _ with
        | some codec => exact .pure rfl
        | none =>
          refine .pure ⟨⟨passes, ?_, ?_⟩, ?_⟩
          · omega
          · rw [List.drop_eq_getElem_cons (by omega : offset + (pos + skip) + 1 < payload.length)]
            rfl
          · show payload.length - (offset + (pos + skip) + 1) < payload.length - offset
            omega

theorem probeVideoCodec_eq (payload : Bytes) :
    probeVideoCodec payload = .ok (Codec.probeVideoCodec payload) :=
  loop_eq (fun offset => payload.length - offset) probeVideoPass_makes
    ⟨payload.length, Nat.sub_le _ _, rfl⟩ (by omega)

theorem probeVideo_eq (d : PsDemuxer) (streamId : UInt8) (pes : PesPacket) :
    probeVideo d streamId pes = .ok (d.probeVideo streamId pes) := by
  unfold probeVideo PsDemuxer.probeVideo
  dsimp only
  split
  · rfl
  split
  · rfl
  split
  · rfl
  rw [probeVideoCodec_eq, ok_bind]
  cases Codec.probeVideoCodec pes.payload with
  | none => rfl
  | some codec => rfl

theorem handleVideo_eq (order : MapOrder) (d : PsDemuxer) (streamId : UInt8) (pes : PesPacket) :
    handleVideo order d streamId pes = .ok (d.handleVideo order streamId pes) := by
  unfold handleVideo PsDemuxer.handleVideo
  cases order.findKind d.tracks .video with
  | some found => rfl
  | none => exact probeVideo_eq d streamId pes

theorem probeAudio_eq (d : PsDemuxer) (streamId : UInt8) (pes : PesPacket) :
    probeAudio d streamId pes = .ok (d.probeAudio streamId pes) := by
  unfold probeAudio PsDemuxer.probeAudio
  split
  · rfl
  · rw [probeAudioCodec_eq]
    rfl

theorem handleAudio_eq (order : MapOrder) (d : PsDemuxer) (streamId : UInt8) (pes : PesPacket) :
    handleAudio order d streamId pes = .ok (d.handleAudio order streamId pes) := by
  unfold handleAudio PsDemuxer.handleAudio
  cases order.findKind d.tracks .audio with
  | some found => rfl
  | none => exact probeAudio_eq d streamId pes

theorem handlePes_eq (order : MapOrder) (d : PsDemuxer) (streamId : UInt8) (pes : PesPacket) :
    handlePes order d streamId pes = .ok (d.handlePes order streamId pes) := by
  unfold handlePes PsDemuxer.handlePes
  dsimp only
  rw [handleVideo_eq, handleAudio_eq]
  split
  · rfl
  split
  · rfl
  · rfl

theorem nine_bytes (h : 9 ≤ packet.length) : ∃ b₀ b₁ b₂ b₃ b₄ b₅ b₆ b₇ b₈, ∃ rest : Bytes,
    packet = b₀ :: b₁ :: b₂ :: b₃ :: b₄ :: b₅ :: b₆ :: b₇ :: b₈ :: rest := by
  match packet with
  | b₀ :: b₁ :: b₂ :: b₃ :: b₄ :: b₅ :: b₆ :: b₇ :: b₈ :: rest =>
    exact ⟨b₀, b₁, b₂, b₃, b₄, b₅, b₆, b₇, b₈, rest, rfl⟩

theorem readPes_short (h : packet.length < 9) : readPes packet = none := by
  unfold readPes
  split
  · simp at h
    omega
  · rfl

theorem stampAt_eq (packet : Bytes) (given : Bool) (hstart : dataStart ≤ packet.length) :
    stampAt packet given cursor dataStart =
      .ok (if given ∧ cursor + 5 ≤ dataStart then parsePtsDts ((packet.drop cursor).take 5)
        else none) := by
  unfold stampAt
  split
  · rw [slice_ok (by omega) (by omega), Nat.add_sub_cancel_left]
    rfl
  · rfl

theorem parsePes_eq (order : MapOrder) (d : PsDemuxer) (streamId : UInt8) (packet : Bytes) :
    parsePes order d streamId packet = .ok (d.parsePes order streamId packet) := by
  unfold parsePes PsDemuxer.parsePes
  split
  · rename_i hshort
    rw [readPes_short hshort]
    rfl
  · rename_i hlong
    obtain ⟨b₀, b₁, b₂, b₃, l₀, l₁, flags1, info1, headerDataLen, rest, rfl⟩ :=
      nine_bytes (Nat.le_of_not_lt hlong)
    simp only [u16At, byteAt_cons_succ, byteAt_cons_zero, ok_bind, pure_eq, readPes]
    split
    · rfl
    · rename_i hstart
      rw [lengthFrom_eq (by omega), ok_bind]
      dsimp only
      generalize b₀ :: b₁ :: b₂ :: b₃ :: l₀ :: l₁ :: flags1 :: info1 :: headerDataLen :: rest =
        packet at hlong hstart ⊢
      generalize 9 + headerDataLen.toNat = dataStart at hstart ⊢
      generalize hlen : (if l₀.toNat * 256 + l₁.toNat = 0 then _ else _ : Nat) = payloadLen
      have hle : payloadLen ≤ packet.length - dataStart := by
        rw [← hlen]
        split
        · exact Nat.le_refl _
        · exact Nat.min_le_right _ _
      have htaken : ((packet.drop dataStart).take payloadLen).length = payloadLen := by
        rw [List.length_take, List.length_drop, Nat.min_eq_left hle]
      by_cases hempty : payloadLen = 0
      · rw [if_pos hempty, if_pos (by rw [hempty]; rfl)]
      · have hne : ¬((packet.drop dataStart).take payloadLen).isEmpty := by
          intro h
          rw [List.isEmpty_iff.mp h, List.length_nil] at htaken
          exact hempty htaken.symm
        rw [if_neg hempty, if_neg hne, stampAt_eq packet _ (by omega), ok_bind,
          stampAt_eq packet _ (by omega), ok_bind, slice_ok (by omega) (by omega), ok_bind,
          handlePes_eq, Nat.add_sub_cancel_left]
        simp only [pesTimes, decide_eq_true_eq, Nat.reduceAdd]

/-- The entries that are left lead to the result. -/
def EsMap.Leads (target : TrackTable × List UInt8 × List PsDemuxEvent) (s : EsMap) : Prop :=
  ∃ passes, s.buf.length ≤ passes ∧
    let r := parseEsMapWithin passes s.reported s.esMapLength s.buf s.newTracks
    (r.1, r.2.1, s.events ++ r.2.2) = target

theorem parseEsMapWithin_short (h : esMapLength < 4 ∨ buf.length < 4) (passes : Nat)
    (reported : List UInt8) (newTracks : TrackTable) :
    parseEsMapWithin passes reported esMapLength buf newTracks = (newTracks, reported, []) := by
  unfold parseEsMapWithin
  split
  · rename_i esType esId l₀ l₁ rest
    have hshort : esMapLength < 4 := by
      rcases h with h | h
      · exact h
      · simp at h
        omega
    simp only [hshort, true_or, if_true]
  · rfl

theorem four_bytes (h : 4 ≤ buf.length) :
    ∃ b₀ b₁ b₂ b₃, ∃ rest : Bytes, buf = b₀ :: b₁ :: b₂ :: b₃ :: rest := by
  match buf with
  | b₀ :: b₁ :: b₂ :: b₃ :: rest => exact ⟨b₀, b₁, b₂, b₃, rest, rfl⟩

theorem esMapPass_makes (s : EsMap) (h : s.Leads target) :
    Yields (fun _ => False) (esMapPass s)
      (Pass.Makes (EsMap.Leads target) (fun s => s.buf.length) (· = target) s) := by
  obtain ⟨buf, esMapLength, newTracks, reported, events⟩ := s
  obtain ⟨passes, hpasses, rfl⟩ := h
  dsimp only at hpasses ⊢
  unfold esMapPass
  dsimp only
  split
  · rename_i hshort
    refine .pure ?_
    rw [parseEsMapWithin_short hshort, List.append_nil]
    rfl
  · rename_i hlong
    obtain ⟨esType, esId, l₀, l₁, rest, rfl⟩ := four_bytes (show 4 ≤ buf.length by omega)
    obtain ⟨passes, rfl⟩ : ∃ n, passes = n + 1 := ⟨passes - 1, by simp at hpasses; omega⟩
    simp only [u16At, byteAt_cons_succ, byteAt_cons_zero, ok_bind, pure_eq]
    rw [parseEsMapWithin]
    generalize l₀.toNat * 256 + l₁.toNat = esInfoLength
    have hlen : (esType :: esId :: l₀ :: l₁ :: rest).length = rest.length + 4 := rfl
    split
    · rename_i hshort
      refine .ok ?_
      rw [if_pos (Or.inr (by omega)), List.append_nil]
      rfl
    · rename_i hfits
      have hin : ¬(esMapLength < 4 ∨ rest.length < esInfoLength) := by omega
      have hdrop : (esType :: esId :: l₀ :: l₁ :: rest).drop (4 + esInfoLength) =
          rest.drop esInfoLength := by
        rw [Nat.add_comm]
        rfl
      have hrest : (rest.drop esInfoLength).length ≤ passes := by
        rw [List.length_drop]
        omega
      have hshorter : (rest.drop esInfoLength).length <
          (esType :: esId :: l₀ :: l₁ :: rest).length := by
        rw [List.length_drop]
        omega
      rw [slice_from (by omega), ok_bind, hdrop, if_neg hin]
      cases codecFromEsType esType with
      | some codec => exact .ok ⟨⟨passes, hrest, rfl⟩, hshorter⟩
      | none =>
        refine .ok ⟨⟨passes, hrest, ?_⟩, hshorter⟩
        dsimp only
        split
        · rw [List.append_nil]
        · rw [List.append_assoc]
          rfl

theorem esMap_eq (fuel : Nat) (s : EsMap) (h : s.events = []) (hfuel : s.buf.length ≤ fuel)
    (hpasses : s.buf.length < passes) : loop esMapPass passes s =
      .ok (parseEsMapWithin fuel s.reported s.esMapLength s.buf s.newTracks) :=
  loop_eq (fun s => s.buf.length) esMapPass_makes ⟨fuel, hfuel, by simp only [h]; rfl⟩ hpasses

theorem parsePsm_eq (order : MapOrder) (d : PsDemuxer) (payload : Bytes) :
    parsePsm order d payload = .ok (d.parsePsm order payload) := by
  unfold parsePsm
  split
  · rename_i hshort
    unfold PsDemuxer.parsePsm
    split
    · simp only [hshort, if_true]
      rfl
    · rfl
  · rename_i hlong
    obtain ⟨b₀, b₁, i₀, i₁, buf, rfl⟩ := four_bytes (show 4 ≤ payload.length by omega)
    have hlen : (b₀ :: b₁ :: i₀ :: i₁ :: buf).length = buf.length + 4 := rfl
    rw [byteAt_cons_zero, ok_bind, PsDemuxer.parsePsm, if_neg hlong]
    dsimp only
    by_cases hnext : b₀ >>> 7 = 0
    · rw [if_pos hnext, if_pos (Or.inl hnext)]
      rfl
    · have hinfo : u16At (i₀ :: i₁ :: buf) 0 = .ok (i₀.toNat * 256 + i₁.toNat) := rfl
      have hhead : (b₀ :: b₁ :: i₀ :: i₁ :: buf).drop 2 = i₀ :: i₁ :: buf := rfl
      have hbody : (i₀ :: i₁ :: buf).drop 2 = buf := rfl
      rw [if_neg hnext, slice_from (by omega), ok_bind, hhead, if_neg (by simp), hinfo, ok_bind,
        slice_from (by simp), ok_bind, hbody]
      by_cases hshort : buf.length < i₀.toNat * 256 + i₁.toNat + 2
      · rw [if_pos hshort, if_pos (Or.inr hshort)]
        rfl
      · have hdrop := List.length_drop (i := i₀.toNat * 256 + i₁.toNat + 2) (l := buf)
        rw [if_neg hshort, if_neg (not_or.mpr ⟨hnext, hshort⟩), slice_from (by omega), ok_bind,
          esMap_eq (b₀ :: b₁ :: i₀ :: i₁ :: buf).length _ rfl (by dsimp only; omega)
            (by dsimp only; omega), ok_bind]
        dsimp only
        split
        · rfl
        · rfl

theorem handle_eq (order : MapOrder) (d : PsDemuxer) (unit : PsUnit) :
    handle order d unit = .ok (d.handle order unit) := by
  cases unit with
  | packHeader => rfl
  | systemHeader => rfl
  | streamMap payload =>
    unfold handle
    simp only [parsePsm_eq, ok_bind]
    rfl
  | pes streamId packet =>
    unfold handle
    simp only [parsePes_eq, ok_bind]
    rfl

theorem findPsStart_short (h : scan.length < 4) : findPsStart scan = none := by
  induction scan with
  | nil => rfl
  | cons b rest ih =>
    rw [List.length_cons] at h
    rw [findPsStart, ih (by omega)]
    · rfl
    · rintro streamId tail - rfl
      simp only [List.length_cons] at h
      omega

theorem findPsStart_cons (b₀ b₁ b₂ b₃ : UInt8) (rest : Bytes) :
    findPsStart (b₀ :: b₁ :: b₂ :: b₃ :: rest) =
      if b₀ = 0x00 ∧ b₁ = 0x00 ∧ b₂ = 0x01 ∧ isPsStreamId b₃ then some 0
      else (findPsStart (b₁ :: b₂ :: b₃ :: rest)).map (· + 1) := by
  by_cases hcode : b₀ = 0x00 ∧ b₁ = 0x00 ∧ b₂ = 0x01
  · obtain ⟨rfl, rfl, rfl⟩ := hcode
    rw [findPsStart]
    simp only [true_and]
  · rw [findPsStart, if_neg fun h => hcode ⟨h.1, h.2.1, h.2.2.1⟩]
    intro streamId tail h₀ heq
    cases heq
    exact hcode ⟨h₀, rfl, rfl⟩

theorem scanPass_makes (scan : Bytes) (probe : Nat)
    (h : (findPsStart (scan.drop probe)).map (probe + ·) = found) :
    Yields (fun _ => False) (scanPass scan probe)
      (Pass.Makes (fun probe => (findPsStart (scan.drop probe)).map (probe + ·) = found)
        (fun probe => scan.length - probe) (· = found) probe) := by
  subst h
  unfold scanPass
  split
  · rename_i hshort
    rw [findPsStart_short (by rw [List.length_drop]; omega)]
    exact .pure rfl
  · rename_i hlong
    refine .byteAt_bind (by omega) fun b₀ h₀ => .byteAt_bind (by omega) fun b₁ h₁ =>
      .byteAt_bind (by omega) fun b₂ h₂ => .byteAt_bind (by omega) fun b₃ h₃ => ?_
    have hdrop : scan.drop probe = b₀ :: b₁ :: b₂ :: b₃ :: scan.drop (probe + 4) := by
      rw [List.getElem?_eq_getElem (by omega)] at h₀ h₁ h₂ h₃
      cases h₀
      cases h₁
      cases h₂
      cases h₃
      rw [List.drop_eq_getElem_cons (by omega : probe < scan.length),
        List.drop_eq_getElem_cons (by omega : probe + 1 < scan.length),
        List.drop_eq_getElem_cons (by omega : probe + 2 < scan.length),
        List.drop_eq_getElem_cons (by omega : probe + 3 < scan.length)]
    have hnext : scan.drop (probe + 1) = b₁ :: b₂ :: b₃ :: scan.drop (probe + 4) := by
      rw [← List.drop_drop, hdrop]
      rfl
    rw [hdrop, findPsStart_cons]
    split
    · exact .pure rfl
    · refine .pure ⟨?_, by show scan.length - (probe + 1) < scan.length - probe; omega⟩
      dsimp only
      rw [hnext, Option.map_map]
      congr 1
      funext n
      show probe + 1 + n = probe + (n + 1)
      omega

theorem scan_eq (scan : Bytes) :
    loop (scanPass scan) (scan.length + 1) 0 = .ok (findPsStart scan) :=
  loop_eq (fun probe => scan.length - probe) (scanPass_makes scan)
    (by rw [List.drop_zero]; simp) (by omega)

/-- The part of the buffer behind a cursor. -/
def Cut.at (buf : Bytes) : Cut → PsCut
  | .unit found cursor => .unit found (buf.drop cursor)
  | .skip cursor => .skip (buf.drop cursor)
  | .wait cursor => .wait (buf.drop cursor)
  | .tooLong => .tooLong

/-- A cursor stays in the buffer, and moves where the loop goes on. -/
def Cut.Within (buf : Bytes) (start : Nat) : Cut → Prop
  | .unit _ cursor => start < cursor ∧ cursor ≤ buf.length
  | .skip cursor => start < cursor ∧ cursor ≤ buf.length
  | .wait cursor => cursor ≤ buf.length
  | .tooLong => True

/-- A cut of the buffer by its positions is one of the part behind the cursor. -/
def Cuts (buf : Bytes) (cursor : Nat) (cut : PsCut) (found : Cut) : Prop :=
  found.at buf = cut ∧ found.Within buf cursor

section Cutting
variable {buf : Bytes} {cursor : Nat}

theorem sized_cuts (hcursor : cursor ≤ buf.length) (hpos : 0 < totalLen) (unit : Bytes → PsUnit)
    {unitAt : Checked PsUnit} (hunit : cursor + totalLen ≤ buf.length →
      unitAt = .ok (unit ((buf.drop cursor).take totalLen))) :
    Yields (fun _ => False) (sized buf cursor totalLen unitAt)
      (Cuts buf cursor (.sized (buf.drop cursor) totalLen unit)) := by
  have hlen := List.length_drop (i := cursor) (l := buf)
  unfold sized PsCut.sized
  split
  · rename_i hshort
    rw [if_pos (by omega)]
    exact .pure ⟨rfl, hcursor⟩
  · rename_i hlong
    rw [if_neg (by omega), hunit (by omega), ok_bind, List.drop_drop]
    exact .pure ⟨rfl, by omega, by omega⟩

theorem lengthField_at (h : cursor + 6 ≤ buf.length) :
    u16At buf (cursor + 4) = .ok (lengthField (buf.drop cursor)) := by
  rw [u16At_eq (by omega), lengthField, List.drop_drop]

theorem cutPes_cuts {config : PsDemuxerConfig}
    (hfits : buf.length + config.maxPesPacketSize < 18446744073709551616)
    (hcursor : cursor ≤ buf.length) (isLast : Bool) (streamId : UInt8) :
    Yields (fun _ => False) (cutPes config isLast streamId buf cursor)
      (Cuts buf cursor (Codec.cutPes config isLast streamId (buf.drop cursor))) := by
  have hlen := List.length_drop (i := cursor) (l := buf)
  have hsized (totalLen : Nat) (hpos : 0 < totalLen) : Yields (fun _ => False)
      (if totalLen > config.maxPesPacketSize then return .tooLong
        else sized buf cursor totalLen do
          return .pes streamId (← slice buf cursor (cursor + totalLen)))
      (Cuts buf cursor (if totalLen > config.maxPesPacketSize then .tooLong
        else .sized (buf.drop cursor) totalLen (.pes streamId))) := by
    split
    · exact .pure ⟨rfl, trivial⟩
    · refine sized_cuts hcursor hpos _ fun hend => ?_
      rw [slice_ok (by omega) hend, Nat.add_sub_cancel_left]
      rfl
  unfold cutPes Codec.cutPes
  dsimp only
  split
  · rename_i hshort
    rw [if_pos (by omega)]
    exact .pure ⟨rfl, hcursor⟩
  · rename_i hlong
    rw [if_neg (by omega), lengthField_at (by omega), ok_bind]
    split
    · exact hsized _ (by omega)
    · refine .u64_bind (Or.inr (by omega)) (.slice_bind (by omega) (by omega) ?_)
      have hscan : (buf.drop (cursor + 6)).take
          (min (cursor + 6 + (config.maxPesPacketSize - 6)) buf.length - (cursor + 6)) =
            ((buf.drop cursor).drop 6).take (config.maxPesPacketSize - 6) := by
        rw [List.drop_drop, List.take_eq_take_iff, List.length_drop]
        omega
      rw [hscan, scan_eq, ok_bind]
      cases findPsStart (((buf.drop cursor).drop 6).take (config.maxPesPacketSize - 6)) with
      | some pos => exact hsized _ (by omega)
      | none =>
        dsimp only
        rw [lengthFrom_eq hcursor, ok_bind, lengthFrom_eq (by omega), ok_bind, hlen,
          Nat.sub_sub buf.length cursor 6]
        split
        · exact hsized _ (by omega)
        split
        · exact .pure ⟨rfl, trivial⟩
        · exact .pure ⟨rfl, hcursor⟩

theorem cutUnit_cuts {config : PsDemuxerConfig}
    (hfits : buf.length + config.maxPesPacketSize < 18446744073709551616)
    (hcursor : cursor + 4 ≤ buf.length) (isLast : Bool) (streamId : UInt8) :
    Yields (fun _ => False) (cutUnit config isLast buf cursor streamId)
      (Cuts buf cursor (Codec.cutUnit config isLast (buf.drop cursor) streamId)) := by
  have hlen := List.length_drop (i := cursor) (l := buf)
  have hwait : Cuts buf cursor (.wait (buf.drop cursor)) (.wait cursor) :=
    ⟨rfl, show cursor ≤ buf.length by omega⟩
  unfold cutUnit Codec.cutUnit
  split
  · rw [List.getElem?_drop]
    split
    · rename_i hshort
      rw [List.getElem?_eq_none (by omega)]
      exact .pure hwait
    · rename_i hlong
      refine .byteAt_bind (by omega) fun b₁₃ hb => ?_
      rw [hb]
      exact sized_cuts (by omega) (by omega) _ fun _ => rfl
  split
  · split
    · rename_i hshort
      rw [if_pos (by omega)]
      exact .pure hwait
    · rename_i hlong
      rw [if_neg (by omega), lengthField_at (by omega), ok_bind]
      exact sized_cuts (by omega) (by omega) _ fun _ => rfl
  split
  · split
    · rename_i hshort
      rw [if_pos (by omega)]
      exact .pure hwait
    · rename_i hlong
      rw [if_neg (by omega), lengthField_at (by omega), ok_bind]
      refine sized_cuts (by omega) (by omega) _ fun hend => ?_
      rw [slice_ok (by omega) hend, List.drop_take, List.drop_drop]
      have hbody : cursor + (6 + lengthField (buf.drop cursor)) - (cursor + 6) =
        6 + lengthField (buf.drop cursor) - 6 := by omega
      rw [hbody]
      rfl
  split
  · exact cutPes_cuts hfits (by omega) isLast streamId
  · refine .pure ⟨?_, ?_, hcursor⟩
    · rw [List.drop_drop]
      rfl
    · omega

theorem findTriplet_here (h : buf.take 3 = [0x00, 0x00, 0x01]) : findTriplet buf = some 0 := by
  match buf with
  | b₀ :: b₁ :: b₂ :: rest =>
    cases h
    rfl

theorem findTriplet_lt (h : findTriplet buf = some pos) : pos + 3 ≤ buf.length := by
  induction buf generalizing pos with
  | nil => cases h
  | cons b rest ih =>
    unfold findTriplet at h
    split at h
    · rename_i heq
      cases heq
      cases h
      simp
    · rename_i heq
      cases heq
      obtain ⟨n, hn, rfl⟩ := Option.map_eq_some_iff.mp h
      have hrest := ih hn
      rw [List.length_cons]
      omega
    · cases h

theorem seek_eq (h : cursor + 4 ≤ buf.length) :
    seek buf cursor = .ok ((findTriplet (buf.drop cursor)).map (cursor + ·)) := by
  unfold seek
  rw [slice_ok (by omega) (by omega), ok_bind, Nat.add_sub_cancel_left]
  split
  · rename_i hhere
    rw [findTriplet_here hhere]
    rfl
  · rw [slice_from (by omega)]
    rfl

theorem cutNext_cuts {config : PsDemuxerConfig}
    (hfits : buf.length + config.maxPesPacketSize < 18446744073709551616)
    (hcursor : cursor ≤ buf.length) (isLast : Bool) :
    Yields (fun _ => False) (cutNext config isLast buf cursor)
      (Cuts buf cursor (Codec.cutNext config isLast (buf.drop cursor))) := by
  have hlen := List.length_drop (i := cursor) (l := buf)
  unfold cutNext Codec.cutNext
  split
  · rename_i hshort
    rw [if_pos (by omega)]
    exact .pure ⟨rfl, hcursor⟩
  · rename_i hlong
    rw [if_neg (by omega), seek_eq (by omega), ok_bind]
    cases hfound : findTriplet (buf.drop cursor) with
    | none =>
      refine .pure ⟨?_, Nat.sub_le _ _⟩
      show PsCut.wait _ = .wait _
      rw [List.drop_drop, hlen]
      congr 2
      omega
    | some pos =>
      have hin := findTriplet_lt hfound
      dsimp only [Option.map_some]
      rw [List.drop_drop, List.getElem?_drop]
      split
      · rename_i hshort
        rw [List.getElem?_eq_none (by omega)]
        exact .pure ⟨rfl, by show cursor + pos ≤ buf.length; omega⟩
      · rename_i hfull
        refine .byteAt_bind (by omega) fun streamId hid => ?_
        rw [hid]
        refine (cutUnit_cuts hfits (by omega) isLast streamId).mono fun cut hcut => ?_
        refine ⟨hcut.1, ?_⟩
        have hwithin := hcut.2
        cases cut with
        | unit unit next => exact ⟨by have := hwithin.1; omega, hwithin.2⟩
        | skip next => exact ⟨by have := hwithin.1; omega, hwithin.2⟩
        | wait next => exact hwithin
        | tooLong => trivial

end Cutting

end CheetahMedia.Codec.Indexed
