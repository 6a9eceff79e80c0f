import CheetahMedia.Codec.Ts.Demux

namespace CheetahMedia.Codec
open Lib Checked

/-- A sync byte stands at the beginning of every packet. -/
def Aligned (data : Bytes) : Prop := ∀ k, 188 * k < data.length → data[188 * k]? = some SYNC_BYTE

/-- There is no sync byte before the packets, and one at the beginning of each. -/
def InSync (data : Bytes) : Prop :=
  ∃ lead rest, data = lead ++ rest ∧ SYNC_BYTE ∉ lead ∧ Aligned rest

theorem Aligned.nil : Aligned [] := fun k h => by cases h

theorem Aligned.left (h : Aligned (a ++ b)) : Aligned a := fun k hk => by
  have hbyte := h k (by rw [List.length_append]; omega)
  rwa [List.getElem?_append_left hk] at hbyte

theorem Aligned.drop (h : Aligned data) (n : Nat) : Aligned (data.drop (188 * n)) := fun k hk => by
  rw [List.length_drop] at hk
  rw [List.getElem?_drop, ← Nat.mul_add]
  exact h (n + k) (by omega)

theorem Aligned.head (h : Aligned data) (hne : data ≠ []) : data[0]? = some SYNC_BYTE :=
  h 0 (List.length_pos_iff.mpr hne)

theorem Aligned.inSync (h : Aligned data) : InSync data := ⟨[], data, rfl, nofun, h⟩

/-- A cut falls before the packets or among them. -/
theorem InSync.cut (h : InSync (data ++ later)) :
    (∃ lead rest, later = lead ++ rest ∧ SYNC_BYTE ∉ data ++ lead ∧ Aligned rest) ∨
      ∃ lead rest, data = lead ++ rest ∧ SYNC_BYTE ∉ lead ∧ Aligned (rest ++ later) ∧ rest ≠ [] := by
  obtain ⟨lead, rest, heq, hlead, hrest⟩ := h
  rcases List.append_eq_append_iff.mp heq with ⟨mid, rfl, rfl⟩ | ⟨mid, rfl, rfl⟩
  · exact .inl ⟨mid, rest, rfl, hlead, hrest⟩
  · by_cases hmid : mid = []
    · subst hmid
      exact .inl ⟨[], later, rfl, by simpa using hlead, hrest⟩
    · exact .inr ⟨lead, mid, rfl, hlead, hrest, hmid⟩

theorem isSync_iff : isSync data i = true ↔ data[i]? = some SYNC_BYTE := by
  simp [isSync]

theorem findSync_none (h : SYNC_BYTE ∉ data) : findSync data 0 = none := by
  have hno : ∀ i, isSync data i = false := by
    intro i
    rw [Bool.eq_false_iff]
    exact fun hsync => h (List.mem_of_getElem? (isSync_iff.mp hsync))
  unfold findSync
  simp [hno]

theorem findSync_isSync (h : findSync data start = some i) : isSync data i = true := by
  unfold findSync at h
  rcases Option.or_eq_some_iff.mp h with h | ⟨_, h⟩
  · have := List.find?_some h
    simp only [Bool.and_eq_true] at this
    exact this.1
  · exact List.find?_some (p := isSync data) h

/-- The first packet is found behind whatever comes before it. -/
theorem findSync_lead (hlead : SYNC_BYTE ∉ lead) (hrest : Aligned rest) (hne : rest ≠ []) :
    findSync (lead ++ rest) 0 = some lead.length := by
  have hbefore : ∀ i < lead.length, isSync (lead ++ rest) i = false := by
    intro i hi
    rw [Bool.eq_false_iff]
    intro hsync
    rw [isSync_iff, List.getElem?_append_left hi] at hsync
    exact hlead (List.mem_of_getElem? hsync)
  have hsync : ∀ k, 188 * k < rest.length → isSync (lead ++ rest) (lead.length + 188 * k) = true := by
    intro k hk
    rw [isSync_iff, List.getElem?_append_right (Nat.le_add_right _ _), Nat.add_sub_cancel_left]
    exact hrest k hk
  have hpos := List.length_pos_iff.mpr hne
  have hfirst := hsync 0 hpos
  rw [Nat.mul_zero, Nat.add_zero] at hfirst
  unfold findSync TS_PACKET_SIZE
  dsimp only
  by_cases hlast : lead.length < (lead ++ rest).length - 188
  · rw [List.find?_range'_eq_some.mpr, Option.some_or]
    refine ⟨?_, ?_, ?_⟩
    · rw [hfirst, Bool.true_and, Bool.or_eq_true, decide_eq_true_eq]
      rw [List.length_append] at hlast ⊢
      exact .inr (hsync 1 (by omega))
    · exact List.mem_range'_1.mpr (by omega)
    · intro j _ hj
      rw [hbefore j hj]
      rfl
  · rw [List.find?_range'_eq_none.mpr, Option.none_or, List.find?_range'_eq_some]
    · refine ⟨hfirst, ?_, ?_⟩
      · rw [List.length_append] at hlast ⊢
        exact List.mem_range'_1.mpr (by omega)
      · intro j _ hj
        rw [hbefore j hj]
        rfl
    · intro j _ hj
      rw [hbefore j (by omega)]
      rfl

namespace PacketDemuxer
variable {d : PacketDemuxer}

theorem feedNext_short (h : rest.length < 188) : d.feedNext rest = .ok none := by
  unfold feedNext TS_PACKET_SIZE
  rw [if_pos h]
  rfl

theorem feedNext_aligned (h : Aligned rest) (hlen : 188 ≤ rest.length) :
    d.feedNext rest = do
      let (d', events) ← d.feedPacket (rest.take 188)
      return some (d', events, rest.drop 188) := by
  have hne : rest ≠ [] := by
    rintro rfl
    exact absurd hlen (by decide)
  unfold feedNext TS_PACKET_SIZE
  rw [if_neg (by omega), byteAt_ok (h.head hne), ok_bind, if_neg (fun h => h rfl),
    slice_ok (Nat.zero_le _) hlen]
  rfl

/-- A pass takes some of the buffer. -/
theorem feedNext_shrinks (h : d.feedNext rest = .ok (some (d', events, rest'))) :
    rest'.length < rest.length := by
  have hpass : Yields (fun _ => True) (d.feedNext rest) fun r =>
      ∀ d' events rest', r = some (d', events, rest') → rest'.length < rest.length := by
    unfold feedNext
    split
    · exact .pure nofun
    · rename_i hlen
      unfold TS_PACKET_SIZE at hlen ⊢
      refine .byteAt_bind (by omega) fun b hbyte => ?_
      split
      · rename_i hb
        refine .pure ?_
        intro d' events rest' hr
        obtain ⟨next, hnext, hr⟩ := Option.map_eq_some_iff.mp hr
        cases hr
        have hsync := isSync_iff.mp (findSync_isSync hnext)
        have hpos : next ≠ 0 := by
          rintro rfl
          rw [hbyte] at hsync
          exact hb (Option.some.inj hsync)
        rw [List.length_drop]
        omega
      · refine .slice_bind (Nat.zero_le _) (by omega) ((Yields.any _).bind fun r _ => .pure ?_)
        rintro d' events rest' ⟨⟩
        rw [List.length_drop]
        omega
  exact hpass.of_ok h _ _ _ rfl

/-- The length of the buffer bounds the passes. -/
theorem feedPacketsWithin_passes (passes : Nat) (d : PacketDemuxer) (rest : Bytes)
    (h : rest.length ≤ passes) (h' : rest.length ≤ passes') :
    feedPacketsWithin passes d rest = feedPacketsWithin passes' d rest := by
  induction passes generalizing d rest passes' with
  | zero =>
    cases passes' with
    | zero => rfl
    | succ passes' =>
      unfold feedPacketsWithin
      rw [feedNext_short (by omega)]
      rfl
  | succ passes ih =>
    cases passes' with
    | zero =>
      conv => rhs; unfold feedPacketsWithin
      unfold feedPacketsWithin
      rw [feedNext_short (by omega)]
      rfl
    | succ passes' =>
      unfold feedPacketsWithin
      cases hr : d.feedNext rest with
      | error e => rfl
      | ok r =>
        cases r with
        | none => rfl
        | some r =>
          have hlt : r.2.2.length < rest.length := feedNext_shrinks hr
          have hsame : feedPacketsWithin passes r.1 r.2.2 = feedPacketsWithin passes' r.1 r.2.2 :=
            ih _ _ (by omega) (by omega)
          simp only [ok_bind, hsame]

/-- The packets of a buffer, and what is left of it. -/
def feedPackets (d : PacketDemuxer) (rest : Bytes) :
    Checked (PacketDemuxer × List MpegTsDemuxEvent × Bytes) :=
  feedPacketsWithin rest.length d rest

theorem feedPackets_short (h : rest.length < 188) : d.feedPackets rest = .ok (d, [], rest) := by
  unfold feedPackets
  cases hlen : rest.length with
  | zero => rfl
  | succ n =>
    unfold feedPacketsWithin
    rw [feedNext_short h]
    rfl

theorem feedPackets_aligned (h : Aligned rest) (hlen : 188 ≤ rest.length) :
    d.feedPackets rest = do
      let (d', events) ← d.feedPacket (rest.take 188)
      let (d'', events', left) ← d'.feedPackets (rest.drop 188)
      return (d'', events ++ events', left) := by
  obtain ⟨n, hn⟩ : ∃ n, rest.length = n + 1 := ⟨rest.length - 1, by omega⟩
  conv => lhs; unfold feedPackets; rw [hn]; unfold feedPacketsWithin
  rw [feedNext_aligned h hlen]
  cases d.feedPacket (rest.take 188) with
  | error e => rfl
  | ok r =>
    have hpasses : (rest.drop 188).length ≤ n := by
      rw [List.length_drop]
      omega
    simp only [ok_bind, pure_eq]
    rw [feedPacketsWithin_passes n r.1 _ hpasses (Nat.le_refl _)]
    rfl

/-- What is left of the buffer is the beginning of a packet. -/
theorem feedPackets_left (h : Aligned rest) :
    Yields (fun _ => True) (d.feedPackets rest) fun r =>
      r.2.2 = rest.drop (188 * (rest.length / 188)) := by
  induction hn : rest.length using Nat.strongRecOn generalizing d rest with
  | ind n ih =>
    by_cases hlen : rest.length < 188
    · rw [feedPackets_short hlen, ← hn, Nat.div_eq_of_lt hlen]
      exact .ok rfl
    · rw [feedPackets_aligned h (by omega)]
      refine (Yields.any _).bind fun r _ => ?_
      refine (ih _ ?_ (h.drop 1) rfl).bind fun r' hr' => .pure ?_
      · rw [List.length_drop]
        omega
      · rw [hr', List.length_drop, List.drop_drop]
        congr 1
        omega

/-- The packets of a buffer whose tail comes later. -/
theorem feedPackets_append (h : Aligned (a ++ b)) :
    d.feedPackets (a ++ b) = do
      let (d', events, left) ← d.feedPackets a
      let (d'', events', left') ← d'.feedPackets (left ++ b)
      return (d'', events ++ events', left') := by
  induction hn : a.length using Nat.strongRecOn generalizing d a with
  | ind n ih =>
    by_cases hlen : a.length < 188
    · rw [feedPackets_short hlen]
      simp only [ok_bind, pure_eq, List.nil_append]
      cases d.feedPackets (a ++ b) <;> rfl
    · have hlong : 188 ≤ (a ++ b).length := by
        rw [List.length_append]
        omega
      rw [feedPackets_aligned h hlong, feedPackets_aligned h.left (by omega),
        List.take_append_of_le_length (by omega), List.drop_append_of_le_length (by omega)]
      cases d.feedPacket (a.take 188) with
      | error e => rfl
      | ok r =>
        have hrest : Aligned (a.drop 188 ++ b) := by
          rw [← List.drop_append_of_le_length (by omega)]
          exact h.drop 1
        simp only [ok_bind]
        rw [ih _ ?_ hrest rfl]
        · cases r.1.feedPackets (a.drop 188) with
          | error e => rfl
          | ok r' =>
            simp only [ok_bind, pure_eq]
            cases r'.1.feedPackets (r'.2.2 ++ b) with
            | error e => rfl
            | ok r'' => simp only [ok_bind, List.append_assoc]
        · rw [List.length_drop]
          omega

end PacketDemuxer

namespace MpegTsDemuxer
open PacketDemuxer
variable {d : MpegTsDemuxer}

/-- What is kept of bytes with no packet among them. -/
@[irreducible]
def tailOf (data : Bytes) : Bytes := data.drop (data.length - 187)

theorem tailOf_append (a b : Bytes) : tailOf (tailOf a ++ b) = tailOf (a ++ b) := by
  unfold tailOf
  by_cases h : a.length ≤ 187
  · have hzero : a.length - 187 = 0 := by omega
    rw [hzero, List.drop_zero]
  · have hlen : (a.drop (a.length - 187) ++ b).length - 187 = b.length := by
      rw [List.length_append, List.length_drop]
      omega
    have hlen' : (a ++ b).length - 187 = a.length - 187 + b.length := by
      rw [List.length_append]
      omega
    rw [hlen, hlen', ← List.drop_drop, List.drop_append_of_le_length (Nat.sub_le a.length 187)]

theorem push_lost (hbuf : d.remainder ++ data = buf) (h : SYNC_BYTE ∉ buf) :
    d.push data = .ok ({ d with remainder := tailOf buf }, []) := by
  unfold push tailOf
  dsimp only
  rw [hbuf, findSync_none h]
  dsimp only
  rw [slice_ok (by omega) (Nat.le_refl _)]
  have hkeep : buf.length - min buf.length (TS_PACKET_SIZE - 1) = buf.length - 187 := by
    unfold TS_PACKET_SIZE
    omega
  rw [hkeep, List.take_of_length_le (by rw [List.length_drop])]
  rfl

theorem push_found (lead rest : Bytes) (hbuf : d.remainder ++ data = lead ++ rest)
    (hlead : SYNC_BYTE ∉ lead)
    (hrest : Aligned rest) (hne : rest ≠ []) :
    d.push data = do
      let (d', events, left) ← d.toPacketDemuxer.feedPackets rest
      return (⟨d', left⟩, (if lead.length > 0 then [.diagnostic .syncLoss] else []) ++ events) := by
  unfold push
  dsimp only
  rw [hbuf, findSync_lead hlead hrest hne]
  dsimp only
  rw [List.drop_left, feedPacketsWithin_passes _ _ _ ?_ (Nat.le_refl _)]
  · rfl
  · rw [List.length_append]
    omega

/-- The demuxer holds no more than it keeps of bytes with no packet among them, or the
beginning of a packet. -/
def Settled (d : MpegTsDemuxer) : Prop :=
  (SYNC_BYTE ∉ d.remainder ∧ d.remainder.length ≤ 187) ∨
    (Aligned d.remainder ∧ d.remainder.length < 188)

theorem push_nil (h : d.Settled) : d.push [] = .ok (d, []) := by
  by_cases hne : SYNC_BYTE ∉ d.remainder
  · have hlen : d.remainder.length ≤ 187 := h.elim And.right fun h => Nat.le_of_lt_succ h.2
    rw [push_lost (List.append_nil _) hne]
    unfold tailOf
    rw [Nat.sub_eq_zero_of_le hlen, List.drop_zero]
  · obtain ⟨haligned, hlen⟩ := h.resolve_left fun h => hne h.1
    have hrest : d.remainder ≠ [] := fun hnil => hne (hnil ▸ List.not_mem_nil)
    rw [push_found [] _ (List.append_nil _) List.not_mem_nil haligned hrest,
      feedPackets_short hlen]
    rfl

theorem mem_of_mem_tailOf (h : b ∈ tailOf data) : b ∈ data := by
  unfold tailOf at h
  exact List.mem_of_mem_drop h

theorem tailOf_length (data : Bytes) : (tailOf data).length = min data.length 187 := by
  unfold tailOf
  rw [List.length_drop]
  omega

/-- What a push of bytes in sync leaves: the demuxer is settled, and in sync with what
comes next. -/
theorem push_settles (h : InSync (d.remainder ++ data ++ later)) :
    Yields (fun _ => True) (d.push data) fun r =>
      r.1.Settled ∧ InSync (r.1.remainder ++ later) := by
  rcases h.cut with ⟨lead, rest, rfl, hlead, hrest⟩ | ⟨lead, rest, hbuf, hlead, hrest, hne⟩
  · have hlost : SYNC_BYTE ∉ d.remainder ++ data := fun hmem =>
      hlead (List.mem_append_left _ hmem)
    rw [push_lost rfl hlost]
    refine .ok ⟨.inl ⟨?_, (tailOf_length _).trans_le (Nat.min_le_right _ _)⟩, ?_⟩
    · exact fun hmem => hlost (mem_of_mem_tailOf hmem)
    · refine ⟨tailOf (d.remainder ++ data) ++ lead, rest, (List.append_assoc ..).symm, ?_, hrest⟩
      intro hmem
      rcases List.mem_append.mp hmem with hmem | hmem
      · exact hlost (mem_of_mem_tailOf hmem)
      · exact hlead (List.mem_append_right _ hmem)
  · rw [push_found _ _ hbuf hlead hrest.left hne]
    refine (feedPackets_left hrest.left).bind fun r hr => .pure ?_
    have hdrop := hrest.drop (rest.length / 188)
    rw [List.drop_append_of_le_length (by omega), ← hr] at hdrop
    refine ⟨.inr ⟨hdrop.left, ?_⟩, hdrop.inSync⟩
    rw [hr, List.length_drop]
    omega

/-- A push that goes on where the packets before it end. -/
theorem push_aligned (h : Aligned (d.remainder ++ data)) :
    d.push data = do
      let (d', events, left) ← d.toPacketDemuxer.feedPackets (d.remainder ++ data)
      return (⟨d', left⟩, events) := by
  by_cases hne : d.remainder ++ data = []
  · rw [push_lost hne List.not_mem_nil, hne, feedPackets_short (by decide), ok_bind]
    have hnil : tailOf [] = [] := by
      unfold tailOf
      rfl
    rw [hnil]
    rfl
  · rw [push_found [] _ rfl List.not_mem_nil h hne]
    rfl

/-- Bytes in sync may come in two pieces. -/
theorem push_append (h : InSync (d.remainder ++ a ++ b)) :
    d.push (a ++ b) = do
      let (d', events) ← d.push a
      let (d'', events') ← d'.push b
      return (d'', events ++ events') := by
  rcases h.cut with ⟨lead, rest, rfl, hlead, hrest⟩ | ⟨lead, rest, hbuf, hlead, hrest, hne⟩
  · have hlost : SYNC_BYTE ∉ d.remainder ++ a := fun hmem => hlead (List.mem_append_left _ hmem)
    have hlead' : SYNC_BYTE ∉ tailOf (d.remainder ++ a) ++ lead := by
      intro hmem
      rcases List.mem_append.mp hmem with hmem | hmem
      · exact hlost (mem_of_mem_tailOf hmem)
      · exact hlead (List.mem_append_right _ hmem)
    rw [push_lost rfl hlost]
    by_cases hne : rest = []
    · subst hne
      rw [List.append_nil, push_lost (List.append_assoc ..).symm hlead, ok_bind]
      dsimp only
      rw [push_lost rfl hlead', tailOf_append]
      rfl
    · have hcut : d.remainder ++ (a ++ (lead ++ rest)) = d.remainder ++ a ++ lead ++ rest := by
        simp only [List.append_assoc]
      have hsome : ((tailOf (d.remainder ++ a) ++ lead).length > 0) =
          ((d.remainder ++ a ++ lead).length > 0) := by
        simp only [List.length_append, tailOf_length]
        exact propext ⟨fun _ => by omega, fun _ => by omega⟩
      rw [push_found _ _ hcut hlead hrest hne, ok_bind]
      dsimp only
      rw [push_found _ _ (List.append_assoc ..).symm hlead' hrest hne]
      simp only [hsome]
      cases d.toPacketDemuxer.feedPackets rest <;> rfl
  · have hcut : d.remainder ++ (a ++ b) = lead ++ (rest ++ b) := by
      rw [← List.append_assoc, hbuf, List.append_assoc]
    have hne' : rest ++ b ≠ [] := List.append_ne_nil_of_left_ne_nil hne _
    rw [push_found _ _ hcut hlead hrest hne', push_found _ _ hbuf hlead hrest.left hne,
      feedPackets_append hrest]
    have hleft := feedPackets_left (d := d.toPacketDemuxer) hrest.left
    cases hr : d.toPacketDemuxer.feedPackets rest with
    | error e => rfl
    | ok r =>
      have haligned : Aligned (r.2.2 ++ b) := by
        rw [hleft.of_ok hr, ← List.drop_append_of_le_length (by omega)]
        exact hrest.drop _
      simp only [ok_bind, pure_eq]
      rw [push_aligned haligned]
      cases r.1.feedPackets (r.2.2 ++ b) with
      | error e => rfl
      | ok r' => simp only [ok_bind, pure_eq, List.append_assoc]

/-- Cutting a stream in sync anywhere gives what one push gives. -/
theorem pushAll_flatten (pieces : List Bytes) (hsettled : d.Settled)
    (h : InSync (d.remainder ++ pieces.flatten)) : d.pushAll pieces = d.push pieces.flatten := by
  induction pieces generalizing d with
  | nil => exact (push_nil hsettled).symm
  | cons data pieces ih =>
    rw [List.flatten_cons, ← List.append_assoc] at h
    have hpush := push_settles h
    rw [List.flatten_cons, push_append h]
    unfold pushAll
    cases hr : d.push data with
    | error e => simp only [error_bind]
    | ok r =>
      obtain ⟨hsettled', hsync⟩ := hpush.of_ok hr
      simp only [ok_bind]
      rw [ih hsettled' hsync]

theorem Settled.new (config : MpegTsDemuxerConfig) : (new config).Settled :=
  .inl ⟨List.not_mem_nil, Nat.zero_le _⟩

end MpegTsDemuxer
end CheetahMedia.Codec
