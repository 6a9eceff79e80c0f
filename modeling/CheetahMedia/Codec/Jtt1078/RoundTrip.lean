import CheetahMedia.Codec.Jtt1078

namespace CheetahMedia.Codec
open Lib

/-- What a frame carries beside its stream and its bytes. -/
structure Jtt1078FrameInfo where
  payloadType : UInt8
  frameType : Jtt1078FrameType
  timestampMs : UInt64
deriving DecidableEq

def Jtt1078SubPackage.mark : Jtt1078SubPackage → Mark
  | .atomic => .atomic
  | .first => .first
  | .last => .last
  | .intermediate => .middle

abbrev Jtt1078Fragment := Fragment UInt16 Jtt1078FrameInfo UInt8

/-- The fragment that a packet is, and its stream. -/
def readFragment (data : Bytes) : Option (AssemblyKey × Jtt1078Fragment) :=
  (Jtt1078Header.parse data).map fun (hdr, payloadOffset) =>
    (⟨hdr.sim, hdr.channel⟩,
      { mark := hdr.subPackage.mark
        number := hdr.packetSeq
        info := ⟨hdr.payloadType, hdr.frameType, hdr.timestampMs⟩
        body := (data.take (min (payloadOffset + hdr.payloadLen.toNat) data.length)).drop
          payloadOffset })

def Jtt1078Frame.key (f : Jtt1078Frame) : AssemblyKey := ⟨f.sim, f.channel⟩

def Jtt1078Frame.content (f : Jtt1078Frame) : Jtt1078FrameInfo × Bytes :=
  (⟨f.payloadType, f.frameType, f.timestampMs⟩, f.data)

namespace Jtt1078FrameAssembler

/-- The frames that are begun. -/
def view (a : Jtt1078FrameAssembler) (key : AssemblyKey) :
    Option (Reassembly.Partial UInt16 Jtt1078FrameInfo UInt8) :=
  (a.buffers key).map fun b =>
    ⟨⟨b.payloadType, b.frameType, b.firstTimestampMs⟩, b.lastPacketSeq, b.data⟩

/-- The frames of one packet. -/
def pushFrames (a : Jtt1078FrameAssembler) (data : Bytes) : Jtt1078FrameAssembler × List Jtt1078Frame :=
  ((a.push data).1, (a.push data).2.1)

section
variable {a : Jtt1078FrameAssembler}

theorem learn_eq (key : AssemblyKey) (hdr : Jtt1078Header) :
    (a.learn key hdr).buffers = a.buffers ∧ (a.learn key hdr).maxCacheBytes = a.maxCacheBytes := by
  unfold learn
  split
  · split <;> exact ⟨rfl, rfl⟩
  · exact ⟨rfl, rfl⟩

theorem view_setBuffer (key : AssemblyKey) (buffer : Option AssemblyBuffer) :
    (a.setBuffer key buffer).view = Function.update a.view key (buffer.map fun b =>
      ⟨⟨b.payloadType, b.frameType, b.firstTimestampMs⟩, b.lastPacketSeq, b.data⟩) := by
  funext k
  by_cases hk : k = key
  · subst hk
    simp [view, setBuffer]
  · simp [view, setBuffer, hk]

theorem view_congr {a' : Jtt1078FrameAssembler} (h : a'.buffers = a.buffers) : a'.view = a.view := by
  funext k
  simp [view, h]

theorem pushFragment_eq (key : AssemblyKey) (hdr : Jtt1078Header) (payload : Bytes)
    (hmark : hdr.subPackage = .last ∨ hdr.subPackage = .intermediate) :
    let r := a.pushFragment key hdr payload
    r.1.maxCacheBytes = a.maxCacheBytes ∧
    keyed (Reassembly.step (· + 1) a.maxCacheBytes) a.view
      (key, ⟨hdr.subPackage.mark, hdr.packetSeq,
        ⟨hdr.payloadType, hdr.frameType, hdr.timestampMs⟩, payload⟩) =
      (r.1.view, r.2.1.map fun f => (f.key, f.content)) := by
  have hmark' : hdr.subPackage.mark = .last ∧ hdr.subPackage = .last ∨
      hdr.subPackage.mark = .middle ∧ hdr.subPackage ≠ .last := by
    rcases hmark with h | h <;> simp [h, Jtt1078SubPackage.mark]
  unfold pushFragment
  cases hbuffer : a.buffers key with
  | none =>
    have hview : a.view key = none := by simp [view, hbuffer]
    have hself : Function.update a.view key none = a.view := by
      rw [← hview, Function.update_eq_self]
    refine ⟨rfl, ?_⟩
    rcases hmark' with ⟨hmark', -⟩ | ⟨hmark', -⟩ <;>
      simp [keyed, Reassembly.step, hview, hmark', hself]
  | some buf =>
    have hview : a.view key = some
        ⟨⟨buf.payloadType, buf.frameType, buf.firstTimestampMs⟩, buf.lastPacketSeq, buf.data⟩ := by
      simp [view, hbuffer]
    dsimp only
    split
    next hgap =>
      refine ⟨rfl, ?_⟩
      rcases hmark' with ⟨hmark', -⟩ | ⟨hmark', -⟩ <;>
        simp [keyed, Reassembly.step, hview, hmark', hgap, view_setBuffer]
    next hnext =>
      split
      next hlong =>
        refine ⟨rfl, ?_⟩
        rcases hmark' with ⟨hmark', -⟩ | ⟨hmark', -⟩ <;>
          simp [keyed, Reassembly.step, hview, hmark', hnext, hlong, view_setBuffer]
      next hfits =>
        rcases hmark' with ⟨hmark', hlast⟩ | ⟨hmark', hlast⟩
        · rw [if_pos hlast]
          refine ⟨rfl, ?_⟩
          simp only [keyed, Reassembly.step, hview, hmark', hnext, hfits, if_false, if_true]
          rw [Prod.mk.injEq]
          exact ⟨(view_setBuffer key none).symm, rfl⟩
        · rw [if_neg hlast]
          refine ⟨rfl, ?_⟩
          simp only [keyed, Reassembly.step, hview, hmark', hnext, hfits, if_false, reduceCtorEq]
          rw [view_setBuffer]
          rfl

/-- The assembler is the keyed reassembly of the fragments that its packets are. -/
theorem pushFrames_eq (hread : readFragment data = some x) :
    (a.pushFrames data).1.maxCacheBytes = a.maxCacheBytes ∧
    keyed (Reassembly.step (· + 1) a.maxCacheBytes) a.view x =
      ((a.pushFrames data).1.view, (a.pushFrames data).2.map fun f => (f.key, f.content)) := by
  obtain ⟨⟨hdr, payloadOffset⟩, hparse, rfl⟩ := Option.map_eq_some_iff.mp hread
  simp only [pushFrames, push, hparse]
  obtain ⟨hbuffers, hmax⟩ := learn_eq (a := a) ⟨hdr.sim, hdr.channel⟩ hdr
  rw [← hmax, ← view_congr hbuffers]
  generalize a.learn ⟨hdr.sim, hdr.channel⟩ hdr = a
  generalize (data.take _).drop payloadOffset = payload
  cases hmark : hdr.subPackage with
  | atomic =>
    refine ⟨rfl, ?_⟩
    simp only [keyed, Reassembly.step, Jtt1078SubPackage.mark, Function.update_eq_self, complete]
    rfl
  | first =>
    refine ⟨rfl, ?_⟩
    simp only [keyed, Reassembly.step, Jtt1078SubPackage.mark]
    rw [view_setBuffer]
    rfl
  | last =>
    have hstep := pushFragment_eq (a := a) ⟨hdr.sim, hdr.channel⟩ hdr payload (.inl hmark)
    rw [hmark] at hstep
    exact hstep
  | intermediate =>
    have hstep := pushFragment_eq (a := a) ⟨hdr.sim, hdr.channel⟩ hdr payload (.inr hmark)
    rw [hmark] at hstep
    exact hstep

theorem pushFrames_none (hread : readFragment data = none) : a.pushFrames data = (a, []) := by
  simp only [pushFrames, push, Option.map_eq_none_iff.mp hread]

/-- Over a whole run too. -/
theorem feedAll_pushFrames (a : Jtt1078FrameAssembler) (packets : List Bytes) :
    feedAll (keyed (Reassembly.step (· + 1) a.maxCacheBytes)) a.view
        (packets.filterMap readFragment) =
      ((feedAll pushFrames a packets).1.view,
        (feedAll pushFrames a packets).2.map fun f => (f.key, f.content)) := by
  refine feedAll_simulates (fun a' => a'.maxCacheBytes = a.maxCacheBytes) view readFragment _
    ?_ ?_ ?_ a rfl packets
  · intro a' data ha
    cases hread : readFragment data with
    | none => rw [pushFrames_none hread]; exact ha
    | some x => exact (pushFrames_eq hread).1.trans ha
  · intro a' data hread
    rw [pushFrames_none hread]
    exact ⟨rfl, rfl⟩
  · intro a' data x ha hread
    rw [← ha]
    exact (pushFrames_eq hread).2

end
end Jtt1078FrameAssembler
def markBits : Mark → UInt8
  | .atomic => 0
  | .first => 1
  | .last => 2
  | .middle => 3

/-- A type whose bits do not stand for another kind of tail than the one it is sent with. -/
def Jtt1078FrameType.Sendable : Jtt1078FrameType → Prop
  | .other v => 0x03 ≤ v &&& 0x0F
  | _ => True

instance : DecidablePred Jtt1078FrameType.Sendable
  | .other v => inferInstanceAs (Decidable (0x03 ≤ v &&& 0x0F))
  | .iFrame | .pFrame | .bFrame | .audio | .passthrough => inferInstanceAs (Decidable True)

structure Jtt1078Input where
  payloadType : UInt8
  timestampMs : UInt64
  frameType : Jtt1078FrameType
  data : Bytes

/-- What of a frame stands in its packets: seven bits of the payload type, four of the
frame type, and the time if the type has one. -/
def Jtt1078Input.info (f : Jtt1078Input) : Jtt1078FrameInfo :=
  let bits := Jtt1078Packetizer.frameTypeBits f.frameType
  ⟨f.payloadType &&& 0x7F, .fromBits bits, if bits ≤ 0x03 then f.timestampMs else 0⟩

namespace Jtt1078Packetizer

def key (p : Jtt1078Packetizer) : AssemblyKey := ⟨bcdToStr p.sim, p.channel⟩

theorem dtype_bits (mark : Mark) : ∀ b : UInt8, b ≤ 0x0F →
    ((b <<< 4) ||| markBits mark) >>> 4 = b ∧
      ((b <<< 4) ||| markBits mark) &&& 0x0F = markBits mark := by
  cases mark <;> exact forall_byte (by decide +kernel)

theorem frameTypeBits_le (frameType : Jtt1078FrameType) : frameTypeBits frameType ≤ 0x0F := by
  cases frameType with
  | other v => exact (forall_byte (by decide +kernel) : ∀ v : UInt8, v &&& 0x0F ≤ 0x0F) v
  | _ => decide

theorem fromBits_mark (mark : Mark) :
    ∃ sub, Jtt1078SubPackage.fromBits (markBits mark) = some sub ∧ sub.mark = mark := by
  cases mark <;> exact ⟨_, rfl, rfl⟩

theorem u16_bytes (n : UInt16) : UInt16.ofNat (fromBigEndian (toBigEndian 2 n.toNat)) = n := by
  rw [from_toBigEndian_of_lt n.toNat_lt, UInt16.ofNat_toNat]

theorem u64_bytes (n : UInt64) : UInt64.ofNat (fromBigEndian (toBigEndian 8 n.toNat)) = n := by
  rw [from_toBigEndian_of_lt n.toNat_lt, UInt64.ofNat_toNat]

/-- How long the tail of a type is. -/
def tailLength : Jtt1078FrameType → Nat
  | .iFrame | .pFrame | .bFrame => 14
  | .audio => 10
  | .passthrough | .other _ => 2

def timed : Jtt1078FrameType → Bool
  | .iFrame | .pFrame | .bFrame | .audio => true
  | .passthrough | .other _ => false

theorem u16At_drop (front l : Bytes) (i : Nat) : u16At (front ++ l) (front.length + i) = u16At l i := by
  rw [u16At, List.drop_length_add_append, u16At]

theorem u64At_drop (front l : Bytes) (i : Nat) : u64At (front ++ l) (front.length + i) = u64At l i := by
  rw [u64At, List.drop_length_add_append, u64At]

/-- The fields of a packet, wherever they come from. -/
theorem readFragment_layout {q sim before chunk : Bytes} {pt ch d : UInt8} (hq : q.length = 2)
    (hsim : sim.length = 6) (hsub : Jtt1078SubPackage.fromBits (d &&& 0x0F) = some sub)
    (htail : before.length + 2 = tailLength (.fromBits (d >>> 4))) (hchunk : chunk.length ≤ 0xFFFF) :
    readFragment (([0x30, 0x31, 0x63, 0x64, 0x81, pt] : Bytes) ++ q ++ sim ++ [ch] ++ [d] ++
        (before ++ toBigEndian 2 chunk.length) ++ chunk) =
      some (⟨bcdToStr sim, ch⟩,
        { mark := sub.mark
          number := UInt16.ofNat (fromBigEndian q)
          info := ⟨pt &&& 0x7F, .fromBits (d >>> 4),
            if timed (.fromBits (d >>> 4)) then u64At before 0 else 0⟩
          body := chunk }) := by
  match q, hq, sim, hsim with
  | [q0, q1], _, [s0, s1, s2, s3, s4, s5], _ =>
    let front : Bytes :=
      [0x30, 0x31, 0x63, 0x64, 0x81, pt, q0, q1, s0, s1, s2, s3, s4, s5, ch, d]
    let rest := before ++ toBigEndian 2 chunk.length ++ chunk
    have hdata : ([0x30, 0x31, 0x63, 0x64, 0x81, pt] : Bytes) ++ [q0, q1] ++
        [s0, s1, s2, s3, s4, s5] ++ [ch] ++ [d] ++ (before ++ toBigEndian 2 chunk.length) ++ chunk =
          front ++ rest := by
      simp [front, rest]
    have hlength : (front ++ rest).length = 16 + (before.length + 2) + chunk.length := by
      simp only [front, rest, List.length_append, List.length_cons, List.length_nil,
        toBigEndian_length]
      omega
    have hpayloadLen : u16At (front ++ rest) (16 + before.length) = UInt16.ofNat chunk.length := by
      have hfront : front.length = 16 := rfl
      have hlen : u16At rest before.length = UInt16.ofNat chunk.length := by
        have hzero := u16At_drop before (toBigEndian 2 chunk.length ++ chunk) 0
        rw [Nat.add_zero] at hzero
        rw [show rest = before ++ (toBigEndian 2 chunk.length ++ chunk) from List.append_assoc ..,
          hzero, u16At, List.drop_zero, List.take_left' (toBigEndian_length ..),
          from_toBigEndian_of_lt (by omega)]
      rw [← hfront, u16At_drop, hlen]
    have hts : timed (.fromBits (d >>> 4)) → u64At (front ++ rest) 16 = u64At before 0 := by
      intro htimed
      have hbefore : 8 ≤ before.length := by
        unfold tailLength at htail
        unfold timed at htimed
        split at htail <;> simp_all
      have hzero := u64At_drop front rest 0
      rw [show (16 : Nat) = front.length + 0 from rfl, hzero, u64At, u64At, List.drop_zero,
        List.drop_zero, show rest = before ++ (toBigEndian 2 chunk.length ++ chunk) from
          List.append_assoc .., List.take_append_of_le_length hbefore]
    have hbody : ((front ++ rest).take (16 + (before.length + 2) + chunk.length)).drop
        (16 + (before.length + 2)) = chunk := by
      rw [← hlength, List.take_length]
      have hall : front ++ rest = (front ++ (before ++ toBigEndian 2 chunk.length)) ++ chunk := by
        simp [rest]
      rw [hall, List.drop_left']
      simp [front]
      omega
    have hu8 : (front ++ rest)[5]? = some pt ∧ (front ++ rest)[14]? = some ch ∧
        (front ++ rest)[15]? = some d := ⟨rfl, rfl, rfl⟩
    have hslices : (front ++ rest).take 4 = [0x30, 0x31, 0x63, 0x64] ∧
        ((front ++ rest).drop 8).take 6 = [s0, s1, s2, s3, s4, s5] ∧
        u16At (front ++ rest) 6 = UInt16.ofNat (fromBigEndian [q0, q1]) := ⟨rfl, rfl, rfl⟩
    have hn : (UInt16.ofNat chunk.length).toNat = chunk.length := by
      rw [UInt16.toNat_ofNat', Nat.mod_eq_of_lt (by omega)]
    rw [hdata, readFragment, Jtt1078Header.parse, Jtt1078Header.parseWithVersion]
    generalize hwhole : front ++ rest = data at *
    have hshape : (before.length = 12 ∧ (Jtt1078FrameType.fromBits (d >>> 4) = .iFrame ∨
        Jtt1078FrameType.fromBits (d >>> 4) = .pFrame ∨
        Jtt1078FrameType.fromBits (d >>> 4) = .bFrame)) ∨
      (before.length = 8 ∧ Jtt1078FrameType.fromBits (d >>> 4) = .audio) ∨
      (before.length = 0 ∧ (Jtt1078FrameType.fromBits (d >>> 4) = .passthrough ∨
        ∃ v, Jtt1078FrameType.fromBits (d >>> 4) = .other v)) := by
      cases hft : Jtt1078FrameType.fromBits (d >>> 4) <;> simp [hft, tailLength] at htail ⊢ <;> omega
    rcases hshape with ⟨hb, hft | hft | hft⟩ | ⟨hb, hft⟩ | ⟨hb, hft | ⟨v, hft⟩⟩
    all_goals
      simp only [hb, Nat.reduceAdd] at hlength hpayloadLen hbody
      have hmin : 18 ≤ data.length := by omega
      rw [hlength] at hmin
      simp only [hft, timed, forall_const] at hts
      simp [hu8, hslices, hsub, hft, hlength, Jtt1078Header.MIN_SIZE_2013, hmin, hpayloadLen, hn,
        hts, hbody, timed, guard]

theorem fromBits_standard : Jtt1078FrameType.fromBits 0x00 = .iFrame ∧
    Jtt1078FrameType.fromBits 0x01 = .pFrame ∧ Jtt1078FrameType.fromBits 0x02 = .bFrame ∧
    Jtt1078FrameType.fromBits 0x03 = .audio ∧ Jtt1078FrameType.fromBits 0x04 = .passthrough := by
  decide

theorem other_bits : ∀ v : UInt8, 0x03 ≤ v &&& 0x0F → v &&& 0x0F ≠ 0x03 →
    tailLength (.fromBits (v &&& 0x0F)) = 2 ∧ timed (.fromBits (v &&& 0x0F)) = false ∧
      ¬ v &&& 0x0F ≤ 0x03 :=
  forall_byte (by decide +kernel)

/-- The tail of a sendable type is the one that its bits call for. -/
theorem tail_eq (f : Jtt1078Input) (htype : f.frameType.Sendable) (chunkLen : Nat) : ∃ before,
    tail f.frameType f.timestampMs chunkLen = before ++ toBigEndian 2 chunkLen ∧
      before.length + 2 = tailLength (.fromBits (frameTypeBits f.frameType)) ∧
      (if timed (.fromBits (frameTypeBits f.frameType)) then u64At before 0 else 0) =
        f.info.timestampMs := by
  have hts : ∀ more, u64At (toBigEndian 8 f.timestampMs.toNat ++ more) 0 = f.timestampMs := by
    intro more
    rw [u64At, List.drop_zero, List.take_left' (toBigEndian_length ..), u64_bytes]
  have hts' : u64At (toBigEndian 8 f.timestampMs.toNat) 0 = f.timestampMs := by
    have hnil := hts []
    rwa [List.append_nil] at hnil
  have hvideo : u64At (toBigEndian 8 f.timestampMs.toNat ++ toBigEndian 2 0 ++ toBigEndian 2 0) 0 =
      f.timestampMs := by
    rw [List.append_assoc, hts]
  obtain ⟨payloadType, ts, frameType, data⟩ := f
  cases frameType with
  | iFrame =>
    refine ⟨_, rfl, by simp [frameTypeBits, tailLength, fromBits_standard], ?_⟩
    simpa [frameTypeBits, timed, fromBits_standard, Jtt1078Input.info] using hvideo
  | pFrame =>
    refine ⟨_, rfl, by simp [frameTypeBits, tailLength, fromBits_standard], ?_⟩
    simpa [frameTypeBits, timed, fromBits_standard, Jtt1078Input.info] using hvideo
  | bFrame =>
    refine ⟨_, rfl, by simp [frameTypeBits, tailLength, fromBits_standard], ?_⟩
    simpa [frameTypeBits, timed, fromBits_standard, Jtt1078Input.info] using hvideo
  | audio =>
    refine ⟨_, rfl, by simp [frameTypeBits, tailLength, fromBits_standard], ?_⟩
    simpa [frameTypeBits, timed, fromBits_standard, Jtt1078Input.info] using hts'
  | passthrough =>
    refine ⟨[], rfl, by simp [frameTypeBits, tailLength, fromBits_standard], ?_⟩
    have hlate : ¬ (0x04 : UInt8) ≤ 0x03 := by decide
    simp [frameTypeBits, timed, fromBits_standard, Jtt1078Input.info, hlate]
  | other v =>
    by_cases hbits : v &&& 0x0F = 0x03
    · refine ⟨toBigEndian 8 ts.toNat, ?_, ?_, ?_⟩
      · simp [tail, frameTypeBits, hbits]
      · simp [frameTypeBits, hbits, tailLength, fromBits_standard]
      · simpa [frameTypeBits, hbits, timed, fromBits_standard, Jtt1078Input.info] using hts'
    · obtain ⟨hlength, htimed, hlate⟩ := other_bits v htype hbits
      refine ⟨[], ?_, ?_, ?_⟩
      · simp [tail, frameTypeBits, hbits]
      · exact hlength.symm
      · simp [frameTypeBits, htimed, Jtt1078Input.info, hlate]

/-- A packet is read back as the fragment that it was written for. -/
theorem readFragment_packet (p : Jtt1078Packetizer) (f : Jtt1078Input) (mark : Mark) (chunk : Bytes)
    (hsim : p.sim.length = 6) (htype : f.frameType.Sendable) (hchunk : chunk.length ≤ 0xFFFF) :
    readFragment (p.packet f.payloadType f.timestampMs f.frameType (markBits mark) chunk) =
      some (p.key, ⟨mark, p.nextSeq, f.info, chunk⟩) := by
  obtain ⟨htypeBits, hmarkBits⟩ := dtype_bits mark _ (frameTypeBits_le f.frameType)
  obtain ⟨sub, hsub, hmark⟩ := fromBits_mark mark
  obtain ⟨before, htail, hlength, htime⟩ := tail_eq f htype chunk.length
  have hseven : f.payloadType &&& 0x7F &&& 0x7F = f.payloadType &&& 0x7F :=
    (forall_byte (by decide +kernel) : ∀ b : UInt8, b &&& 0x7F &&& 0x7F = b &&& 0x7F) _
  rw [packet, Nat.min_eq_left hchunk, htail,
    readFragment_layout (toBigEndian_length ..) hsim (by rw [hmarkBits]; exact hsub)
      (by rw [htypeBits]; exact hlength) hchunk, htypeBits, hmark, u16_bytes, htime, hseven]
  rfl

/-- The marks of the chunks from the one with index `i` on. -/
def marked (total : Nat) : Nat → List Bytes → List (Mark × Bytes)
  | _, [] => []
  | i, chunk :: rest =>
    (if total = 1 then .atomic else if i = 0 then .first else if i = total - 1 then .last
      else .middle, chunk) :: marked total (i + 1) rest

theorem marked_rest (hi : 0 < i) (htotal : i + rest.length = total) :
    marked total i rest = cutRest rest := by
  induction rest using cutRest.induct generalizing i with
  | case1 => rfl
  | case2 chunk =>
    have hlength : i + 1 = total := htotal
    rw [marked, cutRest, if_neg (by omega), if_neg (by omega), if_pos (by omega)]
    rfl
  | case3 chunk rest hne ih =>
    rw [List.length_cons] at htotal
    have hrest : 0 < rest.length := List.length_pos_iff.mpr hne
    rw [marked, cutRest, if_neg (by omega), if_neg (by omega), if_neg (by omega),
      ih (by omega) (by omega)]
    exact hne

theorem marked_eq_cut (chunks : List Bytes) : marked chunks.length 0 chunks = cut chunks := by
  match chunks with
  | [] => rfl
  | [chunk] => rfl
  | chunk :: next :: rest =>
    rw [marked, cut, marked_rest (by omega) (by simp [Nat.add_comm])]
    · simp
    · simp

/-- Sequence numbers go round. -/
def number (n : Nat) : UInt16 := UInt16.ofNat n

theorem number_succ (n : Nat) : number (n + 1) = number n + 1 := UInt16.ofNat_add n 1

theorem packetizeChunks_read (p : Jtt1078Packetizer) (f : Jtt1078Input) (hsim : p.sim.length = 6)
    (htype : f.frameType.Sendable) (total i : Nat) (chunks : List Bytes)
    (hchunks : ∀ chunk ∈ chunks, chunk.length ≤ 0xFFFF) (hseq : p.nextSeq = number n) :
    let r := packetizeChunks f.payloadType f.timestampMs f.frameType total p i chunks
    r.1 = { p with nextSeq := number (n + chunks.length) } ∧
      r.2.map readFragment =
        (Reassembly.numbered number f.info n (marked total i chunks)).map
          fun x => some (p.key, x) := by
  induction chunks generalizing p i n with
  | nil => exact ⟨by rw [List.length_nil, Nat.add_zero, ← hseq]; rfl, rfl⟩
  | cons chunk chunks ih =>
    obtain ⟨hchunk, hchunks⟩ := List.forall_mem_cons.mp hchunks
    have hrest := ih (n := n + 1) { p with nextSeq := p.nextSeq + 1 } hsim (i + 1) hchunks
      (by rw [number_succ, hseq])
    have hbits : (if total = 1 then 0 else if i = 0 then 1 else if i = total - 1 then 2 else 3) =
        markBits (if total = 1 then .atomic else if i = 0 then .first
          else if i = total - 1 then .last else .middle) := by
      repeat' split
      all_goals rfl
    have hself := readFragment_packet p f (if total = 1 then .atomic else if i = 0 then .first
      else if i = total - 1 then .last else .middle) chunk hsim htype hchunk
    rw [← hbits, hseq] at hself
    refine ⟨?_, ?_⟩
    · rw [packetizeChunks, hrest.1, List.length_cons, Nat.add_right_comm, Nat.add_assoc]
    · rw [packetizeChunks, List.map_cons, hself, hrest.2]
      rfl

end Jtt1078Packetizer
end CheetahMedia.Codec
