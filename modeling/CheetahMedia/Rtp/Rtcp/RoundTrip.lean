import CheetahMedia.Rtp.Rtcp
import CheetahMedia.Lib.Checked

namespace CheetahMedia.Rtp
open Lib Codec

@[simp] theorem getU32_putU32 (n : UInt32) (rest : Bytes) :
    getU32 (putU32 n ++ rest) = (n, rest) := by
  have hlen : (putU32 n).length = 4 := toBigEndian_length 4 _
  rw [getU32, ← hlen, List.take_left, List.drop_left, putU32,
    from_toBigEndian_of_lt n.toNat_lt, UInt32.ofNat_toNat]

@[simp] theorem getU64_putU64 (n : UInt64) (rest : Bytes) :
    getU64 (putU64 n ++ rest) = (n, rest) := by
  have hlen : (putU64 n).length = 8 := toBigEndian_length 8 _
  rw [getU64, ← hlen, List.take_left, List.drop_left, putU64,
    from_toBigEndian_of_lt n.toNat_lt, UInt64.ofNat_toNat]

@[simp] theorem putU32_length (n : UInt32) : (putU32 n).length = 4 := toBigEndian_length 4 _
@[simp] theorem putU64_length (n : UInt64) : (putU64 n).length = 8 := toBigEndian_length 8 _

/-- Each item is read from its own bytes, whatever follows them. -/
def Reads (parse : Bytes → Except RtcpParseError (α × Bytes)) (item : α) (bytes : Bytes) : Prop :=
  ∀ rest, parse (bytes ++ rest) = .ok (item, rest)

theorem parseMany_reads {parse : Bytes → Except RtcpParseError (α × Bytes)}
    (h : List.Forall₂ (Reads parse) items parts) (rest : Bytes) :
    parseMany parse items.length (parts.flatten ++ rest) = .ok (items, rest) := by
  induction h with
  | nil => rfl
  | @cons item part items parts hitem _ ih =>
    rw [List.length_cons, parseMany, List.flatten_cons, List.append_assoc, hitem]
    simp only [bind, Except.bind]
    rw [ih]
    rfl

/-- The loss has room in its 24 bits. -/
def RtcpReportBlock.Fits (b : RtcpReportBlock) : Prop :=
  -2 ^ 23 ≤ b.cumulativeLost ∧ b.cumulativeLost < 2 ^ 23

theorem signExtend24_mod {n : Int} (hlow : -2 ^ 23 ≤ n) (hhigh : n < 2 ^ 23) (f : Nat) :
    signExtend24 (f * 2 ^ 24 + (n % 2 ^ 24).toNat) = n := by
  unfold signExtend24
  dsimp only
  split <;> omega

theorem RtcpReportBlock.reads (h : Fits b) : Reads parse b b.encode := by
  intro rest
  have hf := b.fractionLost.toNat_lt
  have hcl : (b.cumulativeLost % 2 ^ 24).toNat < 2 ^ 24 := by omega
  have hword : (UInt32.ofNat (b.fractionLost.toNat * 2 ^ 24 +
      (b.cumulativeLost % 2 ^ 24).toNat)).toNat =
      b.fractionLost.toNat * 2 ^ 24 + (b.cumulativeLost % 2 ^ 24).toNat := by
    rw [UInt32.toNat_ofNat', Nat.mod_eq_of_lt (by omega)]
  have hfraction : (b.fractionLost.toNat * 2 ^ 24 + (b.cumulativeLost % 2 ^ 24).toNat) / 2 ^ 24 =
      b.fractionLost.toNat := by omega
  rw [parse, if_neg (by simp [encode]; omega)]
  simp only [encode, List.append_assoc, getU32_putU32, hword, hfraction, UInt8.ofNat_toNat,
    signExtend24_mod h.1 h.2]

@[simp] theorem RtcpReportBlock.encode_length (b : RtcpReportBlock) : b.encode.length = 24 := by
  simp [encode]

theorem blocks_read (h : ∀ b ∈ blocks, RtcpReportBlock.Fits b) (rest : Bytes) :
    parseMany RtcpReportBlock.parse blocks.length
      (blocks.flatMap RtcpReportBlock.encode ++ rest) = .ok (blocks, rest) := by
  rw [List.flatMap_def]
  exact parseMany_reads (List.forall₂_map_right_iff.mpr
    (List.forall₂_same.mpr fun b hb => RtcpReportBlock.reads (h b hb))) rest

theorem blocks_length (blocks : List RtcpReportBlock) :
    (blocks.flatMap RtcpReportBlock.encode).length = blocks.length * 24 := by
  induction blocks with
  | nil => rfl
  | cons b blocks ih =>
    rw [List.flatMap_cons, List.length_append, ih, RtcpReportBlock.encode_length, List.length_cons]
    omega

/-- Five bits hold a count of up to 31. -/
theorem count_toNat (h : ¬31 < n) : (UInt8.ofNat n).toNat = n := by
  rw [UInt8.toNat_ofNat', Nat.mod_eq_of_lt (by omega)]

/-- A packet's encoding is its header, with the length of what follows, and a body. -/
def Framed (p : RtcpPacket) (bytes : Bytes) : Prop :=
  ∃ pt count body, bytes = putHeader count pt (4 + body.length) ++ body ∧ count.toNat < 32 ∧
    body.length % 4 = 0 ∧ RtcpPacket.parseBody pt count body = .ok p

theorem RtcpSenderReport.framed {p : RtcpSenderReport} (h : p.encode = .ok bytes)
    (hfits : ∀ b ∈ p.reportBlocks, b.Fits) : Framed (.senderReport p) bytes := by
  unfold encode at h
  dsimp only at h
  split at h
  · cases h
  rename_i hcount
  let blocks := p.reportBlocks.flatMap RtcpReportBlock.encode
  have hblocks : blocks.length = p.reportBlocks.length * 24 := blocks_length p.reportBlocks
  let body := putU32 p.ssrc ++ putU64 p.ntpTimestamp ++ putU32 p.rtpTimestamp ++
    putU32 p.packetsSent ++ putU32 p.octetsSent ++ blocks
  have hbody : body.length = 24 + p.reportBlocks.length * 24 := by
    simp only [body, List.length_append, putU32_length, putU64_length, hblocks]
  have hparse : parse body (UInt8.ofNat p.reportBlocks.length) = .ok p := by
    have hread := blocks_read hfits []
    rw [List.append_nil] at hread
    rw [parse, if_neg (by omega)]
    simp only [body, blocks, List.append_assoc, getU32_putU32, getU64_putU64, count_toNat hcount,
      hread]
    rfl
  refine ⟨200, UInt8.ofNat p.reportBlocks.length, body, ?_, ?_, by omega, ?_⟩
  · rw [← Except.ok.inj h, hbody]
    simp only [body, blocks, List.append_assoc, RtcpPacketType.toU8]
    rw [← Nat.add_assoc]
  · rw [count_toNat hcount]
    omega
  · exact congrArg (Except.bind · fun p => .ok (RtcpPacket.senderReport p)) hparse

theorem RtcpReceiverReport.framed {p : RtcpReceiverReport} (h : p.encode = .ok bytes)
    (hfits : ∀ b ∈ p.reportBlocks, b.Fits) : Framed (.receiverReport p) bytes := by
  unfold encode at h
  dsimp only at h
  split at h
  · cases h
  rename_i hcount
  let blocks := p.reportBlocks.flatMap RtcpReportBlock.encode
  have hblocks : blocks.length = p.reportBlocks.length * 24 := blocks_length p.reportBlocks
  let body := putU32 p.ssrc ++ blocks
  have hbody : body.length = 4 + p.reportBlocks.length * 24 := by
    simp only [body, List.length_append, putU32_length, hblocks]
  have hparse : parse body (UInt8.ofNat p.reportBlocks.length) = .ok p := by
    have hread := blocks_read hfits []
    rw [List.append_nil] at hread
    rw [parse, if_neg (by omega)]
    simp only [body, blocks, getU32_putU32, count_toNat hcount, hread]
    rfl
  refine ⟨201, UInt8.ofNat p.reportBlocks.length, body, ?_, ?_, by omega, ?_⟩
  · rw [← Except.ok.inj h, hbody]
    simp only [body, blocks, List.append_assoc, RtcpPacketType.toU8]
    rw [← Nat.add_assoc]
  · rw [count_toNat hcount]
    omega
  · exact congrArg (Except.bind · fun p => .ok (RtcpPacket.receiverReport p)) hparse

theorem paddingTo4_aligned (n : Nat) : (n + paddingTo4 n) % 4 = 0 := by
  unfold paddingTo4
  dsimp only
  split <;> omega

theorem ssrcs_read (ssrcs : List UInt32) (rest : Bytes) :
    parseMany RtcpBye.parseSsrc ssrcs.length (ssrcs.flatMap putU32 ++ rest) = .ok (ssrcs, rest) := by
  rw [List.flatMap_def]
  refine parseMany_reads (List.forall₂_map_right_iff.mpr
    (List.forall₂_same.mpr fun ssrc _ more => ?_)) rest
  rw [RtcpBye.parseSsrc, if_neg (by simp), getU32_putU32]

theorem ssrcs_length (ssrcs : List UInt32) : (ssrcs.flatMap putU32).length = ssrcs.length * 4 := by
  induction ssrcs with
  | nil => rfl
  | cons ssrc ssrcs ih =>
    rw [List.flatMap_cons, List.length_append, ih, putU32_length, List.length_cons]
    omega

/-- A reason that is given is not empty. -/
theorem RtcpBye.framed {p : RtcpBye} (h : p.encode = .ok bytes) (hreason : p.reason ≠ some []) :
    Framed (.bye p) bytes := by
  unfold encode at h
  dsimp only at h
  split at h
  · cases h
  rename_i hshort
  split at h
  · cases h
  rename_i hcount
  have hcount' := count_toNat hcount
  have hbytes := Except.ok.inj h
  obtain ⟨ssrcs, reason⟩ := p
  dsimp only at *
  cases reason with
  | none =>
    have hread := ssrcs_read ssrcs []
    rw [List.append_nil] at hread
    refine ⟨203, UInt8.ofNat ssrcs.length, ssrcs.flatMap putU32, ?_, by omega, ?_, ?_⟩
    · rw [← hbytes, ssrcs_length]
      simp [RtcpPacketType.toU8]
    · rw [ssrcs_length]
      omega
    · have hparse : parse (ssrcs.flatMap putU32) (UInt8.ofNat ssrcs.length) = .ok ⟨ssrcs, none⟩ := by
        rw [parse, hcount', hread]
        rfl
      exact congrArg (Except.bind · fun p => .ok (RtcpPacket.bye p)) hparse
  | some reason =>
    let text := Text.toBytes reason
    have htext : 0 < text.length :=
      List.length_pos_iff.mpr (Text.toBytes_ne_nil fun hnil => hreason (by rw [hnil]))
    have hlen : (UInt8.ofNat text.length).toNat = text.length := by
      rw [UInt8.toNat_ofNat', Nat.mod_eq_of_lt]
      exact Nat.lt_succ_of_le (Nat.le_of_not_lt hshort)
    let tail := UInt8.ofNat text.length :: text ++
      List.replicate (paddingTo4 (1 + text.length)) (0 : UInt8)
    have htail : tail.length = 1 + text.length + paddingTo4 (1 + text.length) := by
      simp only [tail, List.length_append, List.length_cons, List.length_replicate]
      omega
    have haligned := paddingTo4_aligned (1 + text.length)
    have hread := ssrcs_read ssrcs tail
    refine ⟨203, UInt8.ofNat ssrcs.length, ssrcs.flatMap putU32 ++ tail, ?_, by omega, ?_, ?_⟩
    · rw [← hbytes, List.length_append, ssrcs_length, htail]
      show putHeader (UInt8.ofNat ssrcs.length) 203 (4 + ssrcs.length * 4 +
          if 0 < text.length then 1 + text.length + paddingTo4 (1 + text.length) else 0) ++
        ssrcs.flatMap putU32 ++ tail = _
      rw [if_pos htext, List.append_assoc, Nat.add_assoc 4]
    · rw [List.length_append, ssrcs_length, htail]
      omega
    · have htake : (text ++ List.replicate (paddingTo4 (1 + text.length)) (0 : UInt8)).take
          (UInt8.ofNat text.length).toNat = text := by rw [hlen, List.take_left]
      have hparse : parse (ssrcs.flatMap putU32 ++ tail) (UInt8.ofNat ssrcs.length) =
          .ok ⟨ssrcs, some reason⟩ := by
        rw [parse, hcount', hread]
        simp only [tail, List.cons_append, bind, Except.bind]
        rw [if_neg (by rw [hlen, List.length_append]; omega), htake, Text.fromUtf8Lossy_toBytes]
        rfl
      exact congrArg (Except.bind · fun p => .ok (RtcpPacket.bye p)) hparse

theorem and_31 {b : UInt8} (h : b.toNat < 32) : b &&& 0x1F = b := by
  apply UInt8.toNat_inj.mp
  rw [UInt8.toNat_and]
  exact (Nat.and_two_pow_sub_one_eq_mod b.toNat 5).trans (Nat.mod_eq_of_lt h)

theorem four_bytes (name : Vector UInt8 4) : ∃ n0 n1 n2 n3, name = #v[n0, n1, n2, n3] := by
  obtain ⟨⟨l⟩, hl⟩ := name
  match l, hl with
  | [n0, n1, n2, n3], _ => exact ⟨n0, n1, n2, n3, rfl⟩

/-- The subtype has room in its five bits. -/
theorem RtcpAppPacket.framed {p : RtcpAppPacket} (h : p.encode = .ok bytes)
    (hsubtype : p.subtype.toNat < 32) : Framed (.app p) bytes := by
  unfold encode at h
  dsimp only at h
  split at h
  · cases h
  rename_i haligned
  obtain ⟨subtype, ssrc, name, payload⟩ := p
  obtain ⟨n0, n1, n2, n3, rfl⟩ := four_bytes name
  have hbody : (putU32 ssrc ++ n0 :: n1 :: n2 :: n3 :: payload).length = 4 + 4 + payload.length := by
    simp only [List.length_append, putU32_length, List.length_cons]
    omega
  refine ⟨204, subtype, putU32 ssrc ++ n0 :: n1 :: n2 :: n3 :: payload, ?_, hsubtype, ?_, ?_⟩
  · rw [← Except.ok.inj h, and_31 hsubtype, hbody]
    show _ = putHeader subtype 204 (4 + (4 + 4 + payload.length)) ++ (putU32 ssrc ++ _)
    rw [← Nat.add_assoc, ← Nat.add_assoc]
    simp only [List.append_assoc]
    rfl
  · rw [hbody]
    dsimp only at haligned
    omega
  · have hparse : parse (putU32 ssrc ++ n0 :: n1 :: n2 :: n3 :: payload) subtype =
        .ok ⟨subtype, ssrc, #v[n0, n1, n2, n3], payload⟩ := by
      rw [parse, getU32_putU32]
    exact congrArg (Except.bind · fun p => .ok (RtcpPacket.app p)) hparse

theorem RtcpPacket.unknown_framed (h : (unknown pt count payload).encode = .ok bytes)
    (hcount : count.toNat < 32) (hpt : RtcpPacketType.fromU8 pt = none) :
    Framed (.unknown pt count payload) bytes := by
  unfold encode at h
  dsimp only at h
  split at h
  · cases h
  rename_i haligned
  refine ⟨pt, count, payload, ?_, hcount, by omega, ?_⟩
  · rw [← Except.ok.inj h, and_31 hcount]
  · rw [parseBody, hpt]

/-- Types that are written as the byte they are read from; the end mark is no item. -/
def RtcpSdesItemType.Named : RtcpSdesItemType → Prop
  | endOfList => False
  | unknown value => 8 < value
  | _ => True

instance : DecidablePred RtcpSdesItemType.Named
  | .endOfList => isFalse id
  | .unknown value => inferInstanceAs (Decidable (8 < value))
  | .cName | .name | .email | .phone | .location | .tool | .note | .priv => isTrue trivial

theorem RtcpSdesItemType.Named.asU8 {t : RtcpSdesItemType} (h : t.Named) :
    t.asU8 ≠ 0 ∧ fromU8 t.asU8 = t := by
  cases t with
  | endOfList => exact h.elim
  | unknown value =>
    revert h
    exact forall_byte (P := fun value => 8 < value → value ≠ 0 ∧ fromU8 value = unknown value)
      (by decide +kernel) value
  | cName | name | email | phone | location | tool | note | priv => decide

/-- What is read of a type byte that does not end the list. -/
theorem RtcpSdesItemType.named_fromU8 (h : b ≠ 0) : (fromU8 b).Named := by
  revert h
  exact forall_byte (P := fun b => b ≠ 0 → (fromU8 b).Named) (by decide +kernel) b

/-- An item is its type, the length of its text and the text. -/
theorem RtcpSdesItem.encode_ok {i : RtcpSdesItem} (h : i.encode = .ok part) :
    (Text.toBytes i.text).length ≤ 255 ∧
      part = i.itemType.asU8 :: UInt8.ofNat (Text.toBytes i.text).length :: Text.toBytes i.text := by
  unfold encode at h
  dsimp only at h
  split at h
  · cases h
  rename_i hlen
  cases h
  exact ⟨by omega, rfl⟩

theorem items_length {items : List RtcpSdesItem}
    (h : List.Forall₂ (fun (i : RtcpSdesItem) part => i.encode = .ok part) items parts) :
    parts.flatten.length = (items.map (·.len)).sum ∧
      items.length ≤ (items.map (·.len)).sum := by
  induction h with
  | nil => exact ⟨rfl, le_rfl⟩
  | @cons i part items parts hitem _ ih =>
    obtain ⟨_, rfl⟩ := i.encode_ok hitem
    rw [List.flatten_cons, List.length_append, ih.1, List.map_cons, List.sum_cons]
    have hlen : i.len = 2 + (Text.toBytes i.text).length := rfl
    simp only [List.length_cons]
    omega

theorem RtcpSdesChunk.items_read {items : List RtcpSdesItem}
    (h : List.Forall₂ (fun (i : RtcpSdesItem) part => i.encode = .ok part) items parts)
    (hnamed : ∀ i ∈ items, i.itemType.Named) (hfuel : items.length < fuel) (rest : Bytes) :
    parseItems fuel consumed (parts.flatten ++ 0 :: (List.replicate
      (paddingTo4 (consumed + (items.map (·.len)).sum + 1)) (0 : UInt8) ++ rest)) =
      .ok (items, rest) := by
  induction h generalizing fuel consumed with
  | nil =>
    obtain ⟨fuel, rfl⟩ : ∃ n, fuel = n + 1 := ⟨fuel - 1, by simp at hfuel; omega⟩
    have hpad : (List.replicate (paddingTo4 (consumed + 1)) (0 : UInt8) ++ rest).drop
        (paddingTo4 (consumed + 1)) = rest := List.drop_left' (List.length_replicate ..)
    show (if (List.replicate (paddingTo4 (consumed + 1)) (0 : UInt8) ++ rest).length <
      paddingTo4 (consumed + 1) then _ else _) = _
    rw [if_neg (by simp)]
    exact congrArg (fun rest => Except.ok ([], rest)) hpad
  | @cons i part items parts hitem _ ih =>
    obtain ⟨hlen, rfl⟩ := i.encode_ok hitem
    obtain ⟨fuel, rfl⟩ : ∃ n, fuel = n + 1 := ⟨fuel - 1, by simp at hfuel; omega⟩
    obtain ⟨hne, htype⟩ := (hnamed i List.mem_cons_self).asU8
    have hlen' :
        (UInt8.ofNat (Text.toBytes i.text).length).toNat = (Text.toBytes i.text).length := by
      rw [UInt8.toNat_ofNat', Nat.mod_eq_of_lt (by omega)]
    have hsum : consumed + ((i :: items).map (·.len)).sum =
        consumed + 2 + (Text.toBytes i.text).length + (items.map (·.len)).sum := by
      rw [List.map_cons, List.sum_cons, RtcpSdesItem.len]
      omega
    rw [List.flatten_cons, List.append_assoc, List.cons_append, List.cons_append, parseItems,
      if_neg hne]
    dsimp only
    rw [hlen', List.take_left, List.drop_left, Text.fromUtf8Lossy_toBytes, htype,
      if_neg (by simp), hsum]
    have hrest : parseItems fuel (consumed + 2 + (Text.toBytes i.text).length)
        (parts.flatten ++ 0 :: (List.replicate (paddingTo4 (consumed + 2 +
          (Text.toBytes i.text).length + (items.map (·.len)).sum + 1)) (0 : UInt8) ++ rest)) =
        .ok (items, rest) :=
      ih (fun j hj => hnamed j (List.mem_cons_of_mem _ hj)) (by simp at hfuel; omega)
    rw [hrest]
    rfl

theorem paddingTo4_add (n : Nat) : paddingTo4 (4 + n) = paddingTo4 n := by
  rw [paddingTo4, paddingTo4, Nat.add_mod_left]

theorem RtcpSdesChunk.encode_ok {c : RtcpSdesChunk} (h : c.encode = .ok bytes) :
    ∃ parts, List.Forall₂ (fun (i : RtcpSdesItem) part => i.encode = .ok part) c.items parts ∧
      bytes = putU32 c.ssrc ++ parts.flatten ++ [0] ++
        List.replicate (paddingTo4 (1 + (c.items.map (·.len)).sum)) 0 := by
  obtain ⟨parts, hparts, h⟩ := of_bind_ok h
  exact ⟨parts, forall₂_of_mapM hparts, (Except.ok.inj h).symm⟩

theorem RtcpSdesChunk.reads {c : RtcpSdesChunk} (h : c.encode = .ok bytes)
    (hnamed : ∀ i ∈ c.items, i.itemType.Named) : Reads parse c bytes := by
  intro rest
  obtain ⟨parts, hparts, rfl⟩ := c.encode_ok h
  obtain ⟨hlen, hle⟩ := items_length hparts
  have hpad : paddingTo4 (1 + (c.items.map (·.len)).sum) =
      paddingTo4 (4 + (c.items.map (·.len)).sum + 1) := by
    rw [Nat.add_assoc 4, paddingTo4_add, Nat.add_comm]
  let tail := parts.flatten ++ 0 :: (List.replicate
    (paddingTo4 (4 + (c.items.map (·.len)).sum + 1)) (0 : UInt8) ++ rest)
  have hfuel : c.items.length < tail.length + 1 := by
    rw [List.length_append, hlen]
    omega
  have hread : parseItems (tail.length + 1) 4 tail = .ok (c.items, rest) :=
    RtcpSdesChunk.items_read hparts hnamed hfuel rest
  rw [parse, if_neg (by simp), List.append_assoc, List.append_assoc, List.append_assoc,
    getU32_putU32, hpad]
  exact congrArg (Except.bind · fun r => .ok (RtcpSdesChunk.mk c.ssrc r.1, r.2)) hread

theorem RtcpSdesChunk.encode_length {c : RtcpSdesChunk} (h : c.encode = .ok bytes) :
    bytes.length = c.encodedLen ∧ c.encodedLen % 4 = 0 := by
  obtain ⟨parts, hparts, rfl⟩ := c.encode_ok h
  obtain ⟨hlen, _⟩ := items_length hparts
  have haligned := paddingTo4_aligned (4 + (c.items.map (·.len)).sum + 1)
  have hpad : paddingTo4 (1 + (c.items.map (·.len)).sum) =
      paddingTo4 (4 + (c.items.map (·.len)).sum + 1) := by
    rw [Nat.add_assoc 4, paddingTo4_add, Nat.add_comm]
  rw [List.length_append, List.length_append, List.length_append, hlen, putU32_length,
    List.length_replicate, hpad, encodedLen]
  exact ⟨rfl, haligned⟩

theorem chunks_length {chunks : List RtcpSdesChunk}
    (h : List.Forall₂ (fun (c : RtcpSdesChunk) part => c.encode = .ok part) chunks parts) :
    parts.flatten.length = (chunks.map (·.encodedLen)).sum ∧
      (chunks.map (·.encodedLen)).sum % 4 = 0 := by
  induction h with
  | nil => exact ⟨rfl, rfl⟩
  | @cons c part chunks parts hchunk _ ih =>
    obtain ⟨hlen, haligned⟩ := RtcpSdesChunk.encode_length hchunk
    rw [List.flatten_cons, List.length_append, ih.1, hlen, List.map_cons, List.sum_cons]
    exact ⟨rfl, by omega⟩

theorem RtcpSourceDescription.framed {p : RtcpSourceDescription} (h : p.encode = .ok bytes)
    (hnamed : ∀ c ∈ p.chunks, ∀ i ∈ c.items, i.itemType.Named) :
    Framed (.sourceDescription p) bytes := by
  unfold encode at h
  dsimp only at h
  split at h
  · cases h
  rename_i hcount
  obtain ⟨parts, hchunks, h⟩ := of_bind_ok h
  have hparts := forall₂_of_mapM hchunks
  obtain ⟨hlen, haligned⟩ := chunks_length hparts
  refine ⟨202, UInt8.ofNat p.chunks.length, parts.flatten, ?_, ?_, by omega, ?_⟩
  · rw [hlen]
    exact (Except.ok.inj h).symm
  · rw [count_toNat hcount]
    omega
  · have hreads : List.Forall₂ (Reads RtcpSdesChunk.parse) p.chunks parts :=
      ((List.forall₂_and_left _ _).mpr ⟨hnamed, hparts⟩).imp fun c part h =>
        RtcpSdesChunk.reads h.2 h.1
    have hread := parseMany_reads hreads []
    rw [List.append_nil] at hread
    have hparse : parse parts.flatten (UInt8.ofNat p.chunks.length) = .ok p := by
      rw [parse, count_toNat hcount, hread]
      rfl
    exact congrArg (Except.bind · fun p => .ok (RtcpPacket.sourceDescription p)) hparse

/-- The bytes of a header, which takes lengths of up to 2^16 words. -/
theorem putHeader_eq (count pt : UInt8) (totalLen : Nat) :
    ∃ l0 l1, putHeader count pt totalLen = [0x80 ||| count, pt, l0, l1] ∧
      (4 ≤ totalLen → totalLen ≤ 4 * 65536 → fromBigEndian [l0, l1] = totalLen / 4 - 1) := by
  have hlen := toBigEndian_length 2 (totalLen / 4 - 1)
  obtain ⟨l0, l1, hl⟩ := List.length_eq_two.mp hlen
  refine ⟨l0, l1, by rw [putHeader, hl]; rfl, fun hlow hhigh => ?_⟩
  rw [← hl]
  exact from_toBigEndian_of_lt (by omega)

/-- Version, padding and count are read from the first byte. -/
theorem firstByte {count : UInt8} (h : count.toNat < 32) : (0x80 ||| count) >>> 6 = 2 ∧
    ((0x80 ||| count) >>> 5) &&& 0x01 = 0 ∧ (0x80 ||| count) &&& 0x1F = count := by
  revert h
  exact forall_byte (P := fun count => count.toNat < 32 → (0x80 ||| count) >>> 6 = 2 ∧
    ((0x80 ||| count) >>> 5) &&& 0x01 = 0 ∧ (0x80 ||| count) &&& 0x1F = count)
    (by decide +kernel) count

/-- A packet is read back, whatever follows it, when its length has room in the header. -/
theorem Framed.reads (h : Framed p bytes) (hlen : bytes.length ≤ 4 * 65536) :
    Reads RtcpPacket.parse p bytes := by
  intro rest
  obtain ⟨pt, count, body, rfl, hcount, haligned, hparsed⟩ := h
  obtain ⟨l0, l1, hheader, hl⟩ := putHeader_eq count pt (4 + body.length)
  obtain ⟨hversion, hpadding, hfive⟩ := firstByte hcount
  rw [hheader] at hlen
  have hlength : fromBigEndian [l0, l1] * 4 = body.length := by
    rw [List.length_append] at hlen
    rw [hl (by omega) (by simp at hlen; omega)]
    omega
  rw [hheader]
  simp only [List.cons_append, List.nil_append, RtcpPacket.parse]
  rw [hversion, hpadding, hfive, hlength, List.take_left, List.drop_left, if_neg (by simp),
    if_neg (by simp), if_neg (by simp), hparsed]
  rfl

theorem Framed.length_pos (h : Framed p bytes) : 0 < bytes.length := by
  obtain ⟨pt, count, body, rfl, _⟩ := h
  obtain ⟨l0, l1, hheader, _⟩ := putHeader_eq count pt (4 + body.length)
  rw [hheader]
  simp

namespace RtcpPacket

/-- The fields have room on the wire, and a type that has a form of its own is not unknown. -/
def InRange : RtcpPacket → Prop
  | senderReport p => ∀ b ∈ p.reportBlocks, b.Fits
  | receiverReport p => ∀ b ∈ p.reportBlocks, b.Fits
  | sourceDescription p => ∀ c ∈ p.chunks, ∀ i ∈ c.items, i.itemType.Named
  | bye _ => True
  | app p => p.subtype.toNat < 32
  | unknown pt count _ => count.toNat < 32 ∧ RtcpPacketType.fromU8 pt = none

/-- The header can tell the length of what is written: the reason of a BYE is not an empty one
and there are 2^16 words at most. -/
def Measured (p : RtcpPacket) : Prop :=
  (∀ ssrcs, p ≠ .bye ⟨ssrcs, some []⟩) ∧ ∀ bytes, p.encode = .ok bytes → bytes.length ≤ 4 * 65536

theorem framed {p : RtcpPacket} (h : p.encode = .ok bytes) (hrange : p.InRange)
    (hmeasured : p.Measured) : Framed p bytes := by
  cases p with
  | senderReport p => exact p.framed h hrange
  | receiverReport p => exact p.framed h hrange
  | sourceDescription p => exact p.framed h hrange
  | bye p => exact p.framed h fun hreason => hmeasured.1 p.ssrcs (by rw [← hreason])
  | app p => exact p.framed h hrange
  | unknown pt count payload => exact unknown_framed h hrange.1 hrange.2

end RtcpPacket

theorem parseFrom_succ (h : 0 < buf.length) :
    RtcpCompoundPacket.parseFrom (fuel + 1) buf = (RtcpPacket.parse buf).bind fun r =>
      (RtcpCompoundPacket.parseFrom fuel r.2).bind fun packets => .ok (r.1 :: packets) := by
  obtain ⟨b, buf, rfl⟩ := List.exists_cons_of_ne_nil (List.ne_nil_of_length_pos h)
  rfl

theorem parseFrom_reads (h : List.Forall₂ (fun p (part : Bytes) =>
    Reads RtcpPacket.parse p part ∧ 0 < part.length) packets parts)
    (hfuel : parts.flatten.length ≤ fuel) :
    RtcpCompoundPacket.parseFrom fuel parts.flatten = .ok packets := by
  induction h generalizing fuel with
  | nil => cases fuel <;> rfl
  | @cons p part packets parts hp _ ih =>
    obtain ⟨hreads, hpos⟩ := hp
    rw [List.flatten_cons, List.length_append] at hfuel
    obtain ⟨fuel, rfl⟩ : ∃ n, fuel = n + 1 := ⟨fuel - 1, by omega⟩
    rw [List.flatten_cons, parseFrom_succ (by rw [List.length_append]; omega), hreads]
    exact congrArg (Except.bind · fun packets => .ok (p :: packets)) (ih (by omega))

/-- Packets that the header can tell are read back from what they are written to. -/
theorem RtcpCompoundPacket.parse_encode {c : RtcpCompoundPacket} (h : c.encode = .ok bytes)
    (hpackets : ∀ p ∈ c.packets, p.InRange ∧ p.Measured) : parse bytes = .ok c := by
  obtain ⟨parts, hparts, h⟩ := of_bind_ok h
  obtain rfl : parts.flatten = bytes := Except.ok.inj h
  have hreads : List.Forall₂ (fun p (part : Bytes) =>
      Reads RtcpPacket.parse p part ∧ 0 < part.length) c.packets parts :=
    ((List.forall₂_and_left _ _).mpr ⟨hpackets, forall₂_of_mapM hparts⟩).imp
      fun p part hp =>
        have hframed := p.framed hp.2 hp.1.1 hp.1.2
        ⟨hframed.reads (hp.1.2.2 part hp.2), hframed.length_pos⟩
  exact congrArg (Except.bind · fun packets => .ok (RtcpCompoundPacket.mk packets))
    (parseFrom_reads hreads le_rfl)

/-! What is read has fields in range. -/

theorem parseMany_forall {parse : Bytes → Except RtcpParseError (α × Bytes)} {P : α → Prop}
    (hparse : ∀ buf item rest, parse buf = .ok (item, rest) → P item)
    (h : parseMany parse count buf = .ok (items, rest)) : ∀ x ∈ items, P x := by
  induction count generalizing buf items rest with
  | zero =>
    cases h
    exact fun x hx => by cases hx
  | succ count ih =>
    obtain ⟨⟨item, buf'⟩, hitem, h⟩ := of_bind_ok h
    obtain ⟨⟨more, rest'⟩, hmore, h⟩ := of_bind_ok h
    cases h
    intro x hx
    rcases List.mem_cons.mp hx with rfl | hx
    · exact hparse buf x buf' hitem
    · exact ih hmore x hx

theorem signExtend24_fits (n : Nat) : -2 ^ 23 ≤ signExtend24 n ∧ signExtend24 n < 2 ^ 23 := by
  unfold signExtend24
  dsimp only
  split <;> omega

theorem RtcpReportBlock.parse_fits (h : parse buf = .ok (b, rest)) : b.Fits := by
  unfold parse at h
  split at h
  · cases h
  · cases h
    exact signExtend24_fits _

theorem RtcpSenderReport.parse_fits (h : parse buf count = .ok p) :
    ∀ b ∈ p.reportBlocks, b.Fits := by
  unfold parse at h
  split at h
  · cases h
  · obtain ⟨⟨blocks, rest⟩, hblocks, h⟩ := of_bind_ok h
    cases h
    exact parseMany_forall (fun _ _ _ => RtcpReportBlock.parse_fits) hblocks

theorem RtcpReceiverReport.parse_fits (h : parse buf count = .ok p) :
    ∀ b ∈ p.reportBlocks, b.Fits := by
  unfold parse at h
  split at h
  · cases h
  · obtain ⟨⟨blocks, rest⟩, hblocks, h⟩ := of_bind_ok h
    cases h
    exact parseMany_forall (fun _ _ _ => RtcpReportBlock.parse_fits) hblocks

theorem RtcpSdesChunk.parseItems_named {read : List RtcpSdesItem}
    (h : parseItems fuel consumed buf = .ok (read, rest)) : ∀ i ∈ read, i.itemType.Named := by
  induction fuel generalizing consumed buf read rest with
  | zero => cases h
  | succ fuel ih =>
    cases buf with
    | nil => cases h
    | cons itemType buf =>
      rw [parseItems.eq_def] at h
      dsimp only at h
      by_cases hend : itemType = 0
      · rw [if_pos hend] at h
        generalize (if (consumed + 1) % 4 = 0 then 0 else 4 - (consumed + 1) % 4) = pad at h
        split at h
        · cases h
        · cases h
          exact fun i hi => by cases hi
      · rw [if_neg hend] at h
        cases buf with
        | nil => cases h
        | cons len buf =>
          dsimp only at h
          split at h
          · cases h
          · obtain ⟨⟨more, rest'⟩, hmore, h⟩ := of_bind_ok h
            cases h
            intro i hi
            rcases List.mem_cons.mp hi with rfl | hi
            · exact RtcpSdesItemType.named_fromU8 hend
            · exact ih hmore i hi

theorem RtcpSdesChunk.parse_named (h : parse buf = .ok (c, rest)) :
    ∀ i ∈ c.items, i.itemType.Named := by
  unfold parse at h
  split at h
  · cases h
  · obtain ⟨⟨read, rest'⟩, hread, h⟩ := of_bind_ok h
    cases h
    exact parseItems_named hread

namespace RtcpPacket

theorem parseBody_inRange (hcount : count.toNat < 32) (h : parseBody pt count body = .ok p) :
    p.InRange := by
  unfold parseBody at h
  split at h
  · obtain ⟨p, hp, h⟩ := of_bind_ok h
    cases h
    exact RtcpSenderReport.parse_fits hp
  · obtain ⟨p, hp, h⟩ := of_bind_ok h
    cases h
    exact RtcpReceiverReport.parse_fits hp
  · obtain ⟨p, hp, h⟩ := of_bind_ok h
    cases h
    obtain ⟨⟨chunks, rest⟩, hchunks, hp⟩ := of_bind_ok hp
    cases hp
    exact parseMany_forall (fun _ _ _ => RtcpSdesChunk.parse_named) hchunks
  · obtain ⟨p, hp, h⟩ := of_bind_ok h
    cases h
    trivial
  · obtain ⟨p, hp, h⟩ := of_bind_ok h
    cases h
    unfold RtcpAppPacket.parse at hp
    split at hp
    · cases hp
      exact hcount
    · cases hp
  · rename_i hpt
    cases h
    exact ⟨hcount, hpt⟩

theorem five_bits (b : UInt8) : (b &&& 0x1F).toNat < 32 := by
  rw [UInt8.toNat_and]
  exact Nat.lt_of_le_of_lt Nat.and_le_right (by decide)

theorem parse_inRange (h : parse buf = .ok (p, rest)) : p.InRange := by
  unfold parse at h
  split at h
  · dsimp only at h
    split at h
    · cases h
    split at h
    · cases h
    split at h
    · split at h
      · cases h
      · split at h
        · cases h
        · obtain ⟨p, hp, h⟩ := of_bind_ok h
          cases h
          exact parseBody_inRange (five_bits _) hp
    · obtain ⟨p, hp, h⟩ := of_bind_ok h
      cases h
      exact parseBody_inRange (five_bits _) hp
  · cases h

end RtcpPacket

namespace RtcpCompoundPacket

theorem parseFrom_inRange {read : List RtcpPacket} (h : parseFrom fuel buf = .ok read) :
    ∀ p ∈ read, p.InRange := by
  induction fuel generalizing buf read with
  | zero =>
    cases buf with
    | nil =>
      cases h
      exact fun p hp => by cases hp
    | cons b buf => cases h
  | succ fuel ih =>
    cases buf with
    | nil =>
      cases h
      exact fun p hp => by cases hp
    | cons b buf =>
      obtain ⟨⟨packet, rest⟩, hpacket, h⟩ := of_bind_ok h
      obtain ⟨more, hmore, h⟩ := of_bind_ok h
      cases h
      intro p hp
      rcases List.mem_cons.mp hp with rfl | hp
      · exact RtcpPacket.parse_inRange hpacket
      · exact ih hmore p hp

/-- Compound packets round trip both ways, as long as every header can tell its packet's
length. -/
theorem round_trips :
    (∀ (c : RtcpCompoundPacket) (bytes : Bytes), (∀ p ∈ c.packets, p.InRange ∧ p.Measured) →
      c.encode = .ok bytes → parse bytes = .ok c) ∧
    ∀ (data : Bytes) (c : RtcpCompoundPacket) (bytes : Bytes), parse data = .ok c →
      (∀ p ∈ c.packets, p.Measured) → c.encode = .ok bytes → parse bytes = .ok c := by
  refine ⟨fun c bytes hpackets h => c.parse_encode h hpackets,
    fun data c bytes hparse hmeasured h => c.parse_encode h fun p hp => ⟨?_, hmeasured p hp⟩⟩
  obtain ⟨packets, hpackets, hc⟩ := of_bind_ok hparse
  cases hc
  exact parseFrom_inRange hpackets p hp

/-- A report, a source with a name of three bytes, and a leave with a reason; a leave that came
with padding. -/
theorem round_trips_leave :
    let c : RtcpCompoundPacket := ⟨[.receiverReport ⟨7, [⟨9, 64, -2, 65537, 3, 0, 0⟩]⟩,
      .sourceDescription ⟨[⟨7, [⟨.cName, ['a', 'b', 'c']⟩]⟩]⟩,
      .bye ⟨[7], some ['o', 'k']⟩, .unknown 205 1 [1, 2, 3, 4]]⟩
    let left : RtcpCompoundPacket := ⟨[.bye ⟨[7], some ['x']⟩]⟩
    (∃ bytes, c.encode = .ok bytes ∧ parse bytes = .ok c) ∧
    parse [0xA1, 203, 0, 2, 0, 0, 0, 7, 1, 0x78, 0, 2] = .ok left ∧
      ∃ bytes, left.encode = .ok bytes ∧ parse bytes = .ok left := by
  intro c left
  have hc : ∀ p ∈ c.packets, p.InRange ∧ p.Measured := by
    intro p hp
    simp only [c, List.mem_cons, List.not_mem_nil, or_false] at hp
    rcases hp with rfl | rfl | rfl | rfl
    · refine ⟨fun b hb => ?_, (fun ssrcs h => by cases h), fun bytes h => ?_⟩
      · rw [List.mem_singleton.mp hb]
        exact ⟨by decide, by decide⟩
      · cases h
        decide +kernel
    · refine ⟨fun c hc i hi => ?_, (fun ssrcs h => by cases h), fun bytes h => ?_⟩
      · rw [List.mem_singleton.mp hc] at hi
        rw [List.mem_singleton.mp hi]
        trivial
      · cases h
        decide +kernel
    · refine ⟨trivial, (fun ssrcs h => by cases h), fun bytes h => ?_⟩
      cases h
      decide +kernel
    · refine ⟨⟨by decide, by decide⟩, (fun ssrcs h => by cases h), fun bytes h => ?_⟩
      cases h
      decide +kernel
  have hleft : ∀ p ∈ left.packets, p.Measured := by
    intro p hp
    obtain rfl := List.mem_singleton.mp hp
    refine ⟨(fun ssrcs h => by cases h), fun bytes h => ?_⟩
    cases h
    decide +kernel
  have hparse : parse [0xA1, 203, 0, 2, 0, 0, 0, 7, 1, 0x78, 0, 2] = .ok left := by
    decide +kernel
  exact ⟨⟨_, rfl, round_trips.1 c _ hc rfl⟩, hparse, _, rfl,
    round_trips.2 _ left _ hparse hleft rfl⟩

/-- A subtype of six bits comes back without the sixth; what is left of a packet whose padding
is no multiple of four bytes cannot be written. -/
theorem not_round_trips :
    (¬∀ (c : RtcpCompoundPacket) (bytes : Bytes), c.encode = .ok bytes → parse bytes = .ok c) ∧
    ¬∀ (data : Bytes) (c : RtcpCompoundPacket), parse data = .ok c →
      ∃ bytes, c.encode = .ok bytes ∧ parse bytes = .ok c := by
  constructor
  · intro h
    have heq := h ⟨[.app ⟨32, 7, #v[1, 2, 3, 4], []⟩]⟩ _ rfl
    revert heq
    decide +kernel
  · intro h
    obtain ⟨bytes, hbytes, _⟩ := h [0xA0, 205, 0, 1, 1, 2, 3, 1] ⟨[.unknown 205 0 [1, 2, 3]]⟩
      (by decide +kernel)
    cases hbytes

end RtcpCompoundPacket

end CheetahMedia.Rtp
