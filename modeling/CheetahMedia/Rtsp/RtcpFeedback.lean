import CheetahMedia.Rtsp.Message
import CheetahMedia.Lib.Endian
import Mathlib.Data.List.Dedup
import Mathlib.Data.List.Perm.Basic

namespace CheetahMedia.Rtsp
open Lib

/-- RTCP Transport Layer Feedback. -/
def RTCP_PT_RTPFB : UInt8 := 205
/-- RTCP Payload-Specific Feedback. -/
def RTCP_PT_PSFB : UInt8 := 206

def RTPFB_FMT_NACK : UInt8 := 1
def PSFB_FMT_PLI : UInt8 := 1
def PSFB_FMT_FIR : UInt8 := 4

/-- A lost sequence number and the mask of the 16 numbers behind it. -/
structure NackItem where
  pid : UInt16
  blp : UInt16

structure RtcpNack where
  senderSsrc : UInt32
  mediaSsrc : UInt32
  nackItems : List NackItem

structure RtcpPli where
  senderSsrc : UInt32
  mediaSsrc : UInt32

structure FirEntry where
  ssrc : UInt32
  seqNr : UInt8

structure RtcpFir where
  senderSsrc : UInt32
  mediaSsrc : UInt32
  fci : List FirEntry

inductive RtcpFeedback
  | nack (nack : RtcpNack)
  | pli (pli : RtcpPli)
  | fir (fir : RtcpFir)

/-- The mask's bits count from the number behind the base. -/
def NackItem.lostSeqs (item : NackItem) : List UInt16 :=
  item.pid :: ((List.range 16).map UInt16.ofNat).filterMap fun (bit : UInt16) =>
    if item.blp &&& (1 <<< bit) ≠ 0 then some (item.pid + (bit + 1)) else none

def parseNackItems : Bytes → List NackItem
  | p0 :: p1 :: b0 :: b1 :: rest =>
    { pid := UInt16.ofNat (fromBigEndian [p0, p1])
      blp := UInt16.ofNat (fromBigEndian [b0, b1]) } :: parseNackItems rest
  | _ => []

def parseFirEntries : Bytes → List FirEntry
  | s0 :: s1 :: s2 :: s3 :: seqNr :: _ :: _ :: _ :: rest =>
    { ssrc := UInt32.ofNat (fromBigEndian [s0, s1, s2, s3]), seqNr } :: parseFirEntries rest
  | _ => []

/-- The packet behind the common header. -/
def parseRtcpFb (pt fmt : UInt8) (payload : Bytes) : Option RtcpFeedback :=
  match payload with
  | s0 :: s1 :: s2 :: s3 :: m0 :: m1 :: m2 :: m3 :: fci =>
    let senderSsrc := UInt32.ofNat (fromBigEndian [s0, s1, s2, s3])
    let mediaSsrc := UInt32.ofNat (fromBigEndian [m0, m1, m2, m3])
    if pt = RTCP_PT_RTPFB ∧ fmt = RTPFB_FMT_NACK then
      some (.nack { senderSsrc, mediaSsrc, nackItems := parseNackItems fci })
    else if pt = RTCP_PT_PSFB ∧ fmt = PSFB_FMT_PLI then some (.pli { senderSsrc, mediaSsrc })
    else if pt = RTCP_PT_PSFB ∧ fmt = PSFB_FMT_FIR then
      some (.fir { senderSsrc, mediaSsrc, fci := parseFirEntries fci })
    else none
  | _ => none

def encodeNackItem (item : NackItem) : Bytes :=
  toBigEndian 2 item.pid.toNat ++ toBigEndian 2 item.blp.toNat

/-- The length is in words, and only its low 16 bits are written. -/
def buildRtcpNack (nack : RtcpNack) : Bytes :=
  let fciLen := nack.nackItems.length * 4
  let payloadLen := 8 + fciLen
  let lengthWords := payloadLen / 4
  [0x80 ||| RTPFB_FMT_NACK, RTCP_PT_RTPFB] ++ toBigEndian 2 lengthWords ++
    toBigEndian 4 nack.senderSsrc.toNat ++ toBigEndian 4 nack.mediaSsrc.toNat ++
    nack.nackItems.flatMap encodeNackItem

/-- A run of equal elements leaves one. -/
def dedupSorted [DecidableEq α] : List α → List α
  | a :: b :: rest => if a = b then dedupSorted (b :: rest) else a :: dedupSorted (b :: rest)
  | l => l

/-- The inner loop: the mask takes the numbers up to 16 behind the base. -/
def growBlp (pid blp : UInt16) : List UInt16 → UInt16 × List UInt16
  | [] => (blp, [])
  | seq :: rest =>
    let diff := seq - pid
    if 1 ≤ diff ∧ diff ≤ 16 then growBlp pid (blp ||| (1 <<< (diff - 1))) rest
    else (blp, seq :: rest)

theorem growBlp_length (pid blp : UInt16) (l : List UInt16) :
    (growBlp pid blp l).2.length ≤ l.length := by
  induction l generalizing blp with
  | nil => exact Nat.le_refl _
  | cons seq rest ih =>
    unfold growBlp
    dsimp only
    split
    · exact Nat.le_succ_of_le (ih _)
    · exact Nat.le_refl _

/-- The outer loop: each item starts at the first number that no item names. -/
def groupItems : List UInt16 → List NackItem
  | [] => []
  | pid :: rest =>
    let grown := growBlp pid 0 rest
    { pid, blp := grown.1 } :: groupItems grown.2
termination_by l => l.length
decreasing_by exact Nat.lt_succ_of_le (growBlp_length pid 0 rest)

def nackItemsFromLostSeqs (lost : List UInt16) : List NackItem :=
  groupItems (dedupSorted (lost.mergeSort fun a b => a ≤ b))

theorem mem_dedupSorted [DecidableEq α] (l : List α) (x : α) : x ∈ dedupSorted l ↔ x ∈ l := by
  fun_induction dedupSorted l with
  | case1 a rest ih =>
    rw [ih]
    constructor
    · exact List.mem_cons_of_mem a
    · intro h
      rcases List.mem_cons.mp h with rfl | h
      · exact List.mem_cons_self
      · exact h
  | case2 a b rest hne ih => rw [List.mem_cons, ih, List.mem_cons (a := x) (b := a)]
  | case3 l => exact Iff.rfl

theorem dedupSorted_lt (h : l.Pairwise fun a b : UInt16 => a ≤ b) :
    (dedupSorted l).Pairwise fun a b => a < b := by
  fun_induction dedupSorted l with
  | case1 a rest ih => exact ih (List.pairwise_cons.mp h).2
  | case2 a b rest hne ih =>
    obtain ⟨hle, hrest⟩ := List.pairwise_cons.mp h
    refine List.pairwise_cons.mpr ⟨?_, ih hrest⟩
    intro c hc
    have hab : a < b := UInt16.lt_of_le_of_ne (hle b List.mem_cons_self) hne
    rcases List.mem_cons.mp ((mem_dedupSorted _ _).mp hc) with rfl | hmem
    · exact hab
    · exact UInt16.lt_of_lt_of_le hab ((List.pairwise_cons.mp hrest).1 c hmem)
  | case3 l hshort =>
    match l with
    | [] => exact .nil
    | [a] => exact List.pairwise_singleton _ a
    | a :: b :: rest => exact absurd rfl (hshort a b rest)

theorem or_and (a b c : UInt16) : (a ||| b) &&& c = (a &&& c) ||| (b &&& c) := by
  apply UInt16.toBitVec_inj.mp
  ext k hk
  simp [Bool.and_or_distrib_right]

/-- A bit position of the mask. -/
def bits : List UInt16 := (List.range 16).map UInt16.ofNat

theorem bits_nodup : bits.Nodup := by decide

theorem mem_bits {diff : UInt16} (hlow : 1 ≤ diff) (hhigh : diff ≤ 16) : diff - 1 ∈ bits := by
  rw [UInt16.le_iff_toNat_le] at hlow hhigh
  refine List.mem_map.mpr ⟨diff.toNat - 1, ?_, ?_⟩
  · rw [List.mem_range]
    simp at hlow hhigh
    omega
  · apply UInt16.toNat_inj.mp
    rw [UInt16.toNat_sub_of_le _ _ (UInt16.le_iff_toNat_le.mpr hlow), UInt16.toNat_ofNat']
    simp at hlow hhigh ⊢
    omega

theorem oneBit_and : ∀ d ∈ bits, ∀ bit ∈ bits,
    (1 <<< d : UInt16) &&& (1 <<< bit) ≠ 0 ↔ bit = d := by
  have hall : (bits.all fun d => bits.all fun bit =>
      decide ((1 <<< d : UInt16) &&& (1 <<< bit) ≠ 0 ↔ bit = d)) = true := by decide
  intro d hd bit hbit
  exact of_decide_eq_true (List.all_eq_true.mp (List.all_eq_true.mp hall d hd) bit hbit)

/-- Setting a bit sets that bit. -/
theorem setBit (blp : UInt16) (hd : d ∈ bits) (hbit : bit ∈ bits) :
    (blp ||| (1 <<< d)) &&& (1 <<< bit) ≠ 0 ↔ blp &&& (1 <<< bit) ≠ 0 ∨ bit = d := by
  rw [or_and, ← oneBit_and d hd bit hbit, ne_eq, UInt16.or_eq_zero_iff, not_and_or]

/-- The mask of the item names these numbers, which lie in its window. -/
structure Names (pid blp : UInt16) (taken : List UInt16) : Prop where
  window : ∀ seq ∈ taken, 1 ≤ seq - pid ∧ seq - pid ≤ 16
  mask : ∀ bit ∈ bits, blp &&& (1 <<< bit) ≠ 0 ↔ pid + (bit + 1) ∈ taken

theorem growBlp_names (h : Names pid blp taken) (l : List UInt16) :
    ∃ more, l = more ++ (growBlp pid blp l).2 ∧
      Names pid (growBlp pid blp l).1 (taken ++ more) := by
  induction l generalizing blp taken with
  | nil => exact ⟨[], rfl, by rwa [List.append_nil]⟩
  | cons seq rest ih =>
    unfold growBlp
    dsimp only
    split
    · rename_i hdiff
      have hgrown : Names pid (blp ||| (1 <<< (seq - pid - 1))) (taken ++ [seq]) := by
        constructor
        · intro x hx
          rcases List.mem_append.mp hx with hx | hx
          · exact h.window x hx
          · rw [List.mem_singleton.mp hx]
            exact hdiff
        · intro bit hbit
          rw [setBit blp (mem_bits hdiff.1 hdiff.2) hbit, h.mask bit hbit, List.mem_append,
            List.mem_singleton]
          refine or_congr Iff.rfl ⟨?_, ?_⟩
          · rintro rfl
            rw [UInt16.sub_add_cancel, UInt16.add_comm, UInt16.sub_add_cancel]
          · intro heq
            rw [← heq, UInt16.add_comm, UInt16.add_sub_cancel, UInt16.add_sub_cancel]
      obtain ⟨more, hmore, hnames⟩ := ih hgrown
      refine ⟨seq :: more, ?_, ?_⟩
      · rw [List.cons_append, ← hmore]
      · rwa [List.append_assoc] at hnames
    · exact ⟨[], rfl, by rwa [List.append_nil]⟩

theorem NackItem.lostSeqs_nodup (item : NackItem) : item.lostSeqs.Nodup := by
  unfold lostSeqs
  refine List.nodup_cons.mpr ⟨?_, ?_⟩
  · intro hmem
    obtain ⟨bit, hbit, hsome⟩ := List.mem_filterMap.mp hmem
    split at hsome
    · have hself : item.pid + (bit + 1) = item.pid := Option.some.inj hsome
      have hzero : bit + 1 = 0 := by
        rw [← UInt16.add_right_inj item.pid, hself, UInt16.add_zero]
      have hne : (bits.all fun bit => decide (bit + 1 ≠ 0)) = true := by decide
      exact of_decide_eq_true (List.all_eq_true.mp hne bit hbit) hzero
    · cases hsome
  · refine bits_nodup.filterMap ?_
    intro a b seq ha hb
    rw [Option.mem_def] at ha hb
    split at ha
    · split at hb
      · have heq := (Option.some.inj ha).trans (Option.some.inj hb).symm
        exact (UInt16.add_left_inj 1).mp ((UInt16.add_right_inj item.pid).mp heq)
      · cases hb
    · cases ha

theorem Names.lostSeqs (h : Names pid blp taken) (hnodup : (pid :: taken).Nodup) :
    (NackItem.lostSeqs { pid, blp }).Perm (pid :: taken) := by
  refine (List.perm_ext_iff_of_nodup (NackItem.lostSeqs_nodup _) hnodup).mpr ?_
  intro seq
  unfold NackItem.lostSeqs
  rw [List.mem_cons, List.mem_cons]
  refine or_congr Iff.rfl ⟨?_, ?_⟩
  · intro hmem
    obtain ⟨bit, hbit, hsome⟩ := List.mem_filterMap.mp hmem
    split at hsome
    · rename_i hset
      cases hsome
      exact (h.mask bit hbit).mp hset
    · cases hsome
  · intro hmem
    obtain ⟨hlow, hhigh⟩ := h.window seq hmem
    have hseq : pid + (seq - pid - 1 + 1) = seq := by
      rw [UInt16.sub_add_cancel, UInt16.add_comm, UInt16.sub_add_cancel]
    refine List.mem_filterMap.mpr ⟨seq - pid - 1, mem_bits hlow hhigh, ?_⟩
    rw [if_pos ((h.mask _ (mem_bits hlow hhigh)).mpr (by rwa [hseq])), hseq]

/-- The items name what they were made of. -/
theorem groupItems_perm (h : l.Nodup) :
    ((groupItems l).flatMap NackItem.lostSeqs).Perm l := by
  fun_induction groupItems l with
  | case1 => exact .nil
  | case2 pid rest grown ih =>
    have hstart : Names pid 0 [] := by
      constructor
      · intro seq hseq
        cases hseq
      · intro bit _
        simp
    obtain ⟨taken, hrest, hnames⟩ := growBlp_names hstart rest
    rw [List.nil_append] at hnames
    have hsplit : pid :: rest = (pid :: taken) ++ grown.2 := by
      rw [List.cons_append, ← hrest]
    rw [hsplit] at h ⊢
    rw [List.flatMap_cons]
    obtain ⟨htaken, hleft, _⟩ := List.nodup_append.mp h
    exact (hnames.lostSeqs htaken).append (ih hleft)

theorem nackItems_perm (lost : List UInt16) :
    ((nackItemsFromLostSeqs lost).flatMap NackItem.lostSeqs).Perm lost.dedup := by
  have hsorted : (lost.mergeSort fun a b => a ≤ b).Pairwise fun a b : UInt16 => a ≤ b := by
    have hdecide : (lost.mergeSort fun a b => a ≤ b).Pairwise
        fun a b : UInt16 => decide (a ≤ b) = true := List.pairwise_mergeSort
      (fun a b c hab hbc => by
        rw [decide_eq_true_eq] at hab hbc ⊢
        exact UInt16.le_trans hab hbc)
      (fun a b => by
        rw [Bool.or_eq_true, decide_eq_true_eq, decide_eq_true_eq]
        exact UInt16.le_total a b) lost
    simpa using hdecide
  have hnodup : (dedupSorted (lost.mergeSort fun a b => a ≤ b)).Nodup :=
    List.Pairwise.imp (fun hlt => UInt16.ne_of_lt hlt) (dedupSorted_lt hsorted)
  refine (groupItems_perm hnodup).trans ?_
  refine (List.perm_ext_iff_of_nodup hnodup lost.nodup_dedup).mpr fun seq => ?_
  rw [mem_dedupSorted, List.mem_mergeSort, List.mem_dedup]

theorem parseNackItems_encode (items : List NackItem) :
    parseNackItems (items.flatMap encodeNackItem) = items := by
  induction items with
  | nil => rfl
  | cons item rest ih =>
    have hpid : UInt16.ofNat (fromBigEndian (toBigEndian 2 item.pid.toNat)) = item.pid := by
      rw [from_toBigEndian_of_lt item.pid.toNat_lt, UInt16.ofNat_toNat]
    have hblp : UInt16.ofNat (fromBigEndian (toBigEndian 2 item.blp.toNat)) = item.blp := by
      rw [from_toBigEndian_of_lt item.blp.toNat_lt, UInt16.ofNat_toNat]
    rw [List.flatMap_cons, encodeNackItem]
    simp only [toBigEndian, List.cons_append, List.nil_append] at hpid hblp ⊢
    rw [parseNackItems, ih, hpid, hblp]

/-- A packet read by the type and the count field of its common header. -/
def parseFeedback (packet : Bytes) : Option RtcpFeedback :=
  parseRtcpFb (packet.getD 1 0) (packet.getD 0 0 &&& 0x1F) (packet.drop 4)

theorem parse_buildRtcpNack (nack : RtcpNack) :
    parseFeedback (buildRtcpNack nack) = some (.nack nack) := by
  have hsender : UInt32.ofNat (fromBigEndian (toBigEndian 4 nack.senderSsrc.toNat)) =
      nack.senderSsrc := by
    rw [from_toBigEndian_of_lt nack.senderSsrc.toNat_lt, UInt32.ofNat_toNat]
  have hmedia : UInt32.ofNat (fromBigEndian (toBigEndian 4 nack.mediaSsrc.toNat)) =
      nack.mediaSsrc := by
    rw [from_toBigEndian_of_lt nack.mediaSsrc.toNat_lt, UInt32.ofNat_toNat]
  unfold parseFeedback buildRtcpNack
  simp only [toBigEndian, List.cons_append, List.nil_append] at hsender hmedia ⊢
  simp only [List.drop_succ_cons, List.drop_zero]
  unfold parseRtcpFb
  dsimp only
  rw [hsender, hmedia, parseNackItems_encode]
  have hfmt : (0x80 ||| RTPFB_FMT_NACK) &&& 0x1F = RTPFB_FMT_NACK := by decide
  exact if_pos ⟨rfl, hfmt⟩

/-- A report of lost packets, read back, names each of them once and no other. -/
theorem nack_names_lost (senderSsrc mediaSsrc : UInt32) (lost : List UInt16) :
    ∃ nack, parseFeedback (buildRtcpNack {
        senderSsrc, mediaSsrc, nackItems := nackItemsFromLostSeqs lost }) = some (.nack nack) ∧
      (nack.nackItems.flatMap NackItem.lostSeqs).Nodup ∧
      ∀ seq, seq ∈ nack.nackItems.flatMap NackItem.lostSeqs ↔ seq ∈ lost := by
  refine ⟨_, parse_buildRtcpNack _, ?_, fun seq => ?_⟩
  · exact (nackItems_perm lost).nodup_iff.mpr lost.nodup_dedup
  · rw [(nackItems_perm lost).mem_iff, List.mem_dedup]

end CheetahMedia.Rtsp
