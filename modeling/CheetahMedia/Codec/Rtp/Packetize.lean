import CheetahMedia.Codec.Rtp
import Mathlib.Data.List.Nodup

namespace CheetahMedia.Codec
open Lib

/-- `RtpClock::micros_to_ticks`, which keeps the low 32 bits. -/
def microsToTicks (rate : UInt32) (micros : Int) : UInt32 :=
  if rate = 0 ∨ micros ≤ 0 then 0 else UInt32.ofNat (micros.toNat * rate.toNat / 1000000)

/-- The header of the packet behind one. -/
def RtpHeader.next (header : RtpHeader) (advance : UInt32) : RtpHeader :=
  { header with
    sequenceNumber := header.sequenceNumber + 1
    timestamp := header.timestamp + advance }

/-- Cut a payload into packets of `size` bytes. Each turn takes something off the cursor, so its
length bounds the turns. -/
def packetizeLoop (size : Nat) (marker : Bytes → Bool) (advance : Nat → UInt32) :
    Nat → RtpHeader → Bytes → List RtpPacket
  | 0, _, _ => []
  | _ + 1, _, [] => []
  | turns + 1, header, b :: bytes =>
    let chunk := (b :: bytes).take size
    let cursor := (b :: bytes).drop size
    { header := { header with marker := marker cursor }, payload := chunk } ::
      packetizeLoop size marker advance turns (header.next (advance chunk.length)) cursor

/-- The packets of one payload have one timestamp; the last of them is marked. -/
def packetizePayload (payload : Bytes) (mtu : Nat) (header : RtpHeader) : List RtpPacket :=
  packetizeLoop (max (mtu - 12) 1) (·.isEmpty) (fun _ => 0) payload.length header payload

def g711ChunkBytes (sampleRate packetDurationMs : UInt32) : Nat :=
  max 1 (min (sampleRate.toNat * max packetDurationMs.toNat 1 / 1000) 1400)

/-- A byte is a sample: the timestamps advance by the bytes of the packets. -/
def packetizeG711 (payload : Bytes) (sampleRate packetDurationMs : UInt32) (header : RtpHeader) :
    List RtpPacket :=
  packetizeLoop (g711ChunkBytes sampleRate packetDurationMs) (fun _ => false) UInt32.ofNat
    payload.length header payload

/-- The packets carry the sequence numbers from `seq` on. -/
def Consecutive : UInt16 → List RtpPacket → Prop
  | _, [] => True
  | seq, p :: packets => p.header.sequenceNumber = seq ∧ Consecutive (seq + 1) packets

/-- The timestamps advance from `timestamp` on by the samples before them. -/
def Sampled : UInt32 → List RtpPacket → Prop
  | _, [] => True
  | timestamp, p :: packets =>
    p.header.timestamp = timestamp ∧ Sampled (timestamp + UInt32.ofNat p.payload.length) packets

def payloadBytes (packets : List RtpPacket) : Nat := (packets.map (·.payload.length)).sum

theorem payloadBytes_append (ps qs : List RtpPacket) :
    payloadBytes (ps ++ qs) = payloadBytes ps + payloadBytes qs := by
  rw [payloadBytes, List.map_append, List.sum_append]
  rfl

theorem consecutive_append (seq : UInt16) (ps qs : List RtpPacket) :
    Consecutive seq (ps ++ qs) ↔
      Consecutive seq ps ∧ Consecutive (seq + UInt16.ofNat ps.length) qs := by
  induction ps generalizing seq with
  | nil => simp [Consecutive]
  | cons p ps ih =>
    have hnext : seq + 1 + UInt16.ofNat ps.length = seq + UInt16.ofNat (p :: ps).length := by
      rw [List.length_cons, UInt16.ofNat_add, UInt16.add_assoc, UInt16.add_comm 1]
      rfl
    rw [List.cons_append, Consecutive, Consecutive, ih, hnext, and_assoc]

theorem sampled_append (timestamp : UInt32) (ps qs : List RtpPacket) :
    Sampled timestamp (ps ++ qs) ↔
      Sampled timestamp ps ∧ Sampled (timestamp + UInt32.ofNat (payloadBytes ps)) qs := by
  induction ps generalizing timestamp with
  | nil => simp [Sampled, payloadBytes]
  | cons p ps ih =>
    have hnext : timestamp + UInt32.ofNat p.payload.length + UInt32.ofNat (payloadBytes ps) =
        timestamp + UInt32.ofNat (payloadBytes (p :: ps)) := by
      rw [payloadBytes, payloadBytes, List.map_cons, List.sum_cons, UInt32.ofNat_add,
        UInt32.add_assoc]
    rw [List.cons_append, Sampled, Sampled, ih, hnext, and_assoc]

section Loop
variable {size : Nat} {marker : Bytes → Bool} {advance : Nat → UInt32}

theorem packetizeLoop_consecutive (turns : Nat) (header : RtpHeader) (payload : Bytes) :
    Consecutive header.sequenceNumber (packetizeLoop size marker advance turns header payload) := by
  induction turns generalizing header payload with
  | zero => trivial
  | succ turns ih =>
    cases payload with
    | nil => trivial
    | cons b bytes => exact ⟨rfl, ih (header.next _) _⟩

theorem packetizeLoop_bytes (hsize : 0 < size) (turns : Nat) (header : RtpHeader)
    (payload : Bytes) (h : payload.length ≤ turns) :
    payloadBytes (packetizeLoop size marker advance turns header payload) = payload.length := by
  induction turns generalizing header payload with
  | zero =>
    rw [List.length_eq_zero_iff.mp (Nat.le_zero.mp h)]
    rfl
  | succ turns ih =>
    cases payload with
    | nil => rfl
    | cons b bytes =>
      have hrest : ((b :: bytes).drop size).length ≤ turns := by
        rw [List.length_drop]
        omega
      have hmore := ih (header.next (advance ((b :: bytes).take size).length)) _ hrest
      rw [packetizeLoop, payloadBytes, List.map_cons, List.sum_cons]
      rw [payloadBytes] at hmore
      rw [hmore, List.length_take, List.length_drop]
      omega

/-- One packet for each `size` bytes begun. -/
theorem packetizeLoop_length (hsize : 0 < size) (turns : Nat) (header : RtpHeader)
    (payload : Bytes) (h : payload.length ≤ turns) :
    (packetizeLoop size marker advance turns header payload).length =
      (payload.length + size - 1) / size := by
  induction turns generalizing header payload with
  | zero =>
    rw [List.length_eq_zero_iff.mp (Nat.le_zero.mp h), List.length_nil, Nat.zero_add,
      Nat.div_eq_of_lt (by omega)]
    rfl
  | succ turns ih =>
    cases payload with
    | nil =>
      rw [List.length_nil, Nat.zero_add, Nat.div_eq_of_lt (by omega)]
      rfl
    | cons b bytes =>
      have hrest : ((b :: bytes).drop size).length ≤ turns := by
        rw [List.length_drop]
        omega
      rw [packetizeLoop, List.length_cons, ih _ _ hrest, List.length_drop]
      by_cases hle : size ≤ (b :: bytes).length
      · have hcount : (b :: bytes).length + size - 1 =
            ((b :: bytes).length - size + size - 1) + size := by omega
        rw [hcount, Nat.add_div_right _ hsize]
      · have hlen : 0 < (b :: bytes).length := Nat.succ_pos _
        have hlast : (b :: bytes).length - size = 0 := by omega
        rw [hlast, Nat.zero_add, Nat.div_eq_of_lt (by omega)]
        symm
        exact Nat.div_eq_of_lt_le (by omega) (by omega)

theorem packetizeLoop_sampled (turns : Nat) (header : RtpHeader) (payload : Bytes) :
    Sampled header.timestamp
      (packetizeLoop size marker UInt32.ofNat turns header payload) := by
  induction turns generalizing header payload with
  | zero => trivial
  | succ turns ih =>
    cases payload with
    | nil => trivial
    | cons b bytes => exact ⟨rfl, ih (header.next _) _⟩

/-- The rest of the header is the same in all packets, and no packet is longer than `size`. -/
theorem packetizeLoop_header (turns : Nat) (header : RtpHeader) (payload : Bytes) :
    ∀ p ∈ packetizeLoop size marker advance turns header payload,
      p.header.version = header.version ∧ p.header.payloadType = header.payloadType ∧
        p.payload.length ≤ size := by
  induction turns generalizing header payload with
  | zero => exact fun p hp => by cases hp
  | succ turns ih =>
    cases payload with
    | nil => exact fun p hp => by cases hp
    | cons b bytes =>
      intro p hp
      rcases List.mem_cons.mp hp with rfl | hp
      · exact ⟨rfl, rfl, List.length_take_le ..⟩
      · exact ih (header.next _) _ p hp

/-- What the packets of a payload are, whatever marks them and whatever their timestamps are. -/
structure Packetized (size : Nat) (header : RtpHeader) (payload : Bytes)
    (packets : List RtpPacket) : Prop where
  consecutive : Consecutive header.sequenceNumber packets
  length : packets.length = (payload.length + size - 1) / size
  bytes : payloadBytes packets = payload.length
  headers : ∀ p ∈ packets, p.header.version = header.version ∧
    p.header.payloadType = header.payloadType ∧ p.payload.length ≤ size

theorem packetizeLoop_packetized (hsize : 0 < size) (header : RtpHeader) (payload : Bytes) :
    Packetized size header payload
      (packetizeLoop size marker advance payload.length header payload) where
  consecutive := packetizeLoop_consecutive ..
  length := packetizeLoop_length hsize _ _ _ le_rfl
  bytes := packetizeLoop_bytes hsize _ _ _ le_rfl
  headers := packetizeLoop_header _ _ _

end Loop

theorem packetizePayload_packetized (payload : Bytes) (mtu : Nat) (header : RtpHeader) :
    Packetized (max (mtu - 12) 1) header payload (packetizePayload payload mtu header) :=
  packetizeLoop_packetized (Nat.le_max_right ..) header payload

theorem packetizeG711_packetized (payload : Bytes) (sampleRate packetDurationMs : UInt32)
    (header : RtpHeader) : Packetized (g711ChunkBytes sampleRate packetDurationMs) header payload
      (packetizeG711 payload sampleRate packetDurationMs header) :=
  packetizeLoop_packetized (Nat.le_max_left ..) header payload

theorem packetizeG711_sampled (payload : Bytes) (sampleRate packetDurationMs : UInt32)
    (header : RtpHeader) :
    Sampled header.timestamp (packetizeG711 payload sampleRate packetDurationMs header) :=
  packetizeLoop_sampled ..

/-- The largest gap between a packet and the next one, and the place of the first packet that it is
behind, where `found` is what was found before the packet at `idx`. -/
def largestGap (idx : Nat) (found : Nat × Nat) : List RtpPacket → Nat × Nat
  | curr :: next :: packets =>
    let gap := (next.header.sequenceNumber - curr.header.sequenceNumber).toNat
    largestGap (idx + 1) (if found.1 < gap then (gap, idx) else found) (next :: packets)
  | _ => found

/-- The place of the first packet in sequence among packets that are sorted by their numbers: behind
the largest gap, where the gap across the wrap counts as one too. -/
def sequenceStart : List RtpPacket → Nat
  | first :: second :: packets =>
    let count := packets.length + 2
    let (gap, splitAfter) := largestGap 0 (0, count - 1) (first :: second :: packets)
    let last := (second :: packets).getLast (List.cons_ne_nil second packets)
    let wrapGap := 65536 + first.header.sequenceNumber.toNat - last.header.sequenceNumber.toNat
    let splitAfter := if gap < wrapGap then count - 1 else splitAfter
    (splitAfter + 1) % count
  | _ => 0

def depacketizePayload (packets : List RtpPacket) : Bytes :=
  let packets := packets.mergeSort fun p q => p.header.sequenceNumber ≤ q.header.sequenceNumber
  (packets.rotateLeft (sequenceStart packets)).flatMap (·.payload)

section Loop
variable {size : Nat} {advance : Nat → UInt32}

theorem packetizeLoop_payload {marker : Bytes → Bool} (hsize : 0 < size) (turns : Nat)
    (header : RtpHeader) (payload : Bytes) (h : payload.length ≤ turns) :
    (packetizeLoop size marker advance turns header payload).flatMap (·.payload) = payload := by
  induction turns generalizing header payload with
  | zero =>
    rw [List.length_eq_zero_iff.mp (Nat.le_zero.mp h)]
    rfl
  | succ turns ih =>
    cases payload with
    | nil => rfl
    | cons b bytes =>
      have hrest : ((b :: bytes).drop size).length ≤ turns := by
        rw [List.length_drop]
        omega
      rw [packetizeLoop, List.flatMap_cons, ih _ _ hrest]
      exact List.take_append_drop size (b :: bytes)

/-- The last packet is marked, and no other one. -/
def MarkedLast (packets : List RtpPacket) : Prop :=
  ∃ before last, packets = before ++ [last] ∧ last.header.marker = true ∧
    ∀ p ∈ before, p.header.marker = false

theorem packetizeLoop_marked (hsize : 0 < size) (turns : Nat) (header : RtpHeader)
    (payload : Bytes) (h : payload.length ≤ turns) (hne : payload ≠ []) :
    MarkedLast (packetizeLoop size (·.isEmpty) advance turns header payload) := by
  induction turns generalizing header payload with
  | zero => exact absurd (List.length_eq_zero_iff.mp (Nat.le_zero.mp h)) hne
  | succ turns ih =>
    obtain ⟨b, bytes, rfl⟩ := List.exists_cons_of_ne_nil hne
    rw [packetizeLoop]
    by_cases hrest : (b :: bytes).drop size = []
    · -- nothing is left, so this is the last packet
      have hnil (header : RtpHeader) :
          packetizeLoop size (·.isEmpty) advance turns header [] = [] := by
        cases turns <;> rfl
      rw [hrest, hnil]
      exact ⟨[], _, rfl, rfl, List.forall_mem_nil _⟩
    · have hlen : ((b :: bytes).drop size).length ≤ turns := by
        rw [List.length_drop]
        omega
      obtain ⟨before, last, heq, hlast, hbefore⟩ := ih (header.next _) _ hlen hrest
      refine ⟨_ :: before, last, by rw [heq]; rfl, hlast, ?_⟩
      intro p hp
      rcases List.mem_cons.mp hp with rfl | hp
      · simpa using hrest
      · exact hbefore p hp

end Loop

section Sequence
variable {seq : UInt16} {packets low high : List RtpPacket}

/-- Before the numbers start again the packets are in the order of their numbers. -/
theorem Consecutive.ascending (h : Consecutive seq packets)
    (hfit : seq.toNat + packets.length ≤ 65536) :
    (∀ p ∈ packets, seq.toNat ≤ p.header.sequenceNumber.toNat ∧
      p.header.sequenceNumber.toNat < seq.toNat + packets.length) ∧
    packets.Pairwise fun p q => p.header.sequenceNumber.toNat < q.header.sequenceNumber.toNat := by
  induction packets generalizing seq with
  | nil => exact ⟨fun p hp => (by cases hp), .nil⟩
  | cons p packets ih =>
    obtain ⟨hp, hrest⟩ := h
    rw [List.length_cons] at hfit ⊢
    cases packets with
    | nil =>
      refine ⟨fun q hq => ?_, List.pairwise_singleton _ _⟩
      obtain rfl := List.mem_singleton.mp hq
      rw [hp, List.length_nil]
      omega
    | cons q packets =>
      have hnext : (seq + 1).toNat = seq.toNat + 1 := by
        rw [UInt16.toNat_add]
        simp only [List.length_cons] at hfit
        exact Nat.mod_eq_of_lt (by simp; omega)
      obtain ⟨hrange, hpairs⟩ := ih hrest (by omega)
      refine ⟨?_, List.pairwise_cons.mpr ⟨?_, hpairs⟩⟩
      · intro r hr
        rcases List.mem_cons.mp hr with rfl | hr
        · rw [hp]
          omega
        · have := hrange r hr
          omega
      · intro r hr
        have := hrange r hr
        rw [hp]
        omega

theorem next_gap (seq : UInt16) : (seq + 1 - seq).toNat = 1 := by
  rw [UInt16.add_comm, UInt16.add_sub_cancel]
  rfl

theorem sort_ascending (h : packets.Perm low) (hlow : low.Pairwise fun p q =>
      p.header.sequenceNumber.toNat < q.header.sequenceNumber.toNat) :
    packets.mergeSort (fun p q => p.header.sequenceNumber ≤ q.header.sequenceNumber) = low := by
  have hperm := (List.mergeSort_perm packets
    fun p q => decide (p.header.sequenceNumber ≤ q.header.sequenceNumber)).trans h
  have hnodup : (low.map (·.header.sequenceNumber)).Nodup :=
    List.pairwise_map.mpr (hlow.imp fun hlt heq => absurd (congrArg UInt16.toNat heq) (by omega))
  refine hperm.eq_of_pairwise ?_ (List.pairwise_mergeSort ?_ ?_ packets)
    (hlow.imp fun hlt => decide_eq_true (UInt16.le_iff_toNat_le.mpr (Nat.le_of_lt hlt)))
  · intro p q hp hq hpq hqp
    refine List.inj_on_of_nodup_map hnodup (hperm.mem_iff.mp hp) hq ?_
    exact UInt16.le_antisymm (of_decide_eq_true hpq) (of_decide_eq_true hqp)
  · intro p q r hpq hqr
    exact decide_eq_true (UInt16.le_trans (of_decide_eq_true hpq) (of_decide_eq_true hqr))
  · intro p q
    rw [Bool.or_eq_true, decide_eq_true_iff, decide_eq_true_iff]
    exact UInt16.le_total ..

theorem largestGap_consecutive {idx : Nat} {found : Nat × Nat} (h : Consecutive seq packets)
    (hfound : 1 ≤ found.1) : largestGap idx found packets = found := by
  induction packets generalizing seq idx with
  | nil => rfl
  | cons p packets ih =>
    cases packets with
    | nil => rfl
    | cons q packets =>
      obtain ⟨hp, hq, hrest⟩ := h
      have hgap : (q.header.sequenceNumber - p.header.sequenceNumber).toNat = 1 := by
        rw [hq, hp, next_gap]
      rw [largestGap, hgap, if_neg (by omega)]
      exact ih ⟨hq, hrest⟩

theorem Consecutive.getLast (h : Consecutive seq packets) (hne : packets ≠ []) :
    (packets.getLast hne).header.sequenceNumber = seq + UInt16.ofNat (packets.length - 1) := by
  obtain ⟨before, last, rfl⟩ : ∃ before last, packets = before ++ [last] :=
    ⟨_, _, (List.dropLast_concat_getLast hne).symm⟩
  obtain ⟨-, hlast, -⟩ := (consecutive_append seq before [last]).mp h
  rw [List.getLast_append_singleton, hlast, List.length_append, List.length_singleton,
    Nat.add_sub_cancel]

/-- The gap between two runs of consecutive numbers is found. -/
theorem largestGap_boundary {idx : Nat} {found : Nat × Nat} {q : RtpPacket}
    (hlow : Consecutive seq low) (hne : low ≠ [])
    (hhigh : Consecutive q.header.sequenceNumber (q :: high)) (hfound : found.1 ≤ 1)
    (hgap : 2 ≤ (q.header.sequenceNumber - (seq + UInt16.ofNat (low.length - 1))).toNat) :
    largestGap idx found (low ++ q :: high) =
      ((q.header.sequenceNumber - (seq + UInt16.ofNat (low.length - 1))).toNat,
        idx + (low.length - 1)) := by
  induction low generalizing seq idx found with
  | nil => exact absurd rfl hne
  | cons p low ih =>
    obtain ⟨hp, hrest⟩ := hlow
    cases low with
    | nil =>
      have hseq : seq + UInt16.ofNat ([p].length - 1) = p.header.sequenceNumber := by
        rw [hp]
        exact UInt16.add_zero ..
      rw [hseq] at hgap ⊢
      rw [List.singleton_append, largestGap, if_pos (by omega)]
      exact largestGap_consecutive hhigh (by dsimp only; omega)
    | cons p' low =>
      have hone : (p'.header.sequenceNumber - p.header.sequenceNumber).toNat = 1 := by
        rw [hrest.1, hp, next_gap]
      have hseq : seq + 1 + UInt16.ofNat ((p' :: low).length - 1) =
          seq + UInt16.ofNat ((p :: p' :: low).length - 1) := by
        simp only [List.length_cons, Nat.add_sub_cancel, UInt16.ofNat_add]
        rw [UInt16.add_assoc, UInt16.add_comm 1]
        rfl
      rw [← hseq] at hgap ⊢
      have hfound' : (if found.1 < 1 then (1, idx) else found).1 ≤ 1 := by
        split
        · exact Nat.le_refl 1
        · exact hfound
      rw [List.cons_append, List.cons_append, largestGap, hone, ← List.cons_append,
        ih hrest (List.cons_ne_nil _ _) hfound' hgap]
      simp only [List.length_cons, Prod.mk.injEq, true_and]
      omega

/-- No number is missing and none starts again: the first packet is the first one in sequence. -/
theorem sequenceStart_ascending (h : Consecutive seq packets)
    (hfit : seq.toNat + packets.length ≤ 65536) (hlen : packets.length ≤ 65535) :
    sequenceStart packets = 0 := by
  match packets, h, hfit, hlen with
  | [], _, _, _ => rfl
  | [_], _, _, _ => rfl
  | first :: second :: packets, h, hfit, hlen =>
    have hlast := h.getLast (List.cons_ne_nil _ _)
    obtain ⟨hfirst, hsecond, hrest⟩ := h
    have hone : (second.header.sequenceNumber - first.header.sequenceNumber).toNat = 1 := by
      rw [hsecond, hfirst, next_gap]
    have hgap : largestGap 0 (0, packets.length + 2 - 1) (first :: second :: packets) = (1, 0) := by
      rw [largestGap, hone]
      exact largestGap_consecutive ⟨hsecond, hrest⟩ (Nat.le_refl 1)
    rw [List.getLast_cons_cons] at hlast
    have hnumber : (seq + UInt16.ofNat ((first :: second :: packets).length - 1)).toNat =
        seq.toNat + (packets.length + 1) := by
      simp only [List.length_cons] at hfit ⊢
      rw [UInt16.toNat_add, UInt16.toNat_ofNat']
      omega
    simp only [List.length_cons] at hfit hlen
    rw [sequenceStart]
    simp only [hgap, hlast, hnumber, hfirst]
    rw [if_pos (by omega), show packets.length + 2 - 1 + 1 = packets.length + 2 from rfl,
      Nat.mod_self]

/-- The numbers start again behind `low`, which is sorted before them. -/
theorem sequenceStart_wrapped (hlow : Consecutive 0 low) (hlowne : low ≠ [])
    (hhigh : Consecutive seq high) (hhighne : high ≠ [])
    (hseq : seq.toNat + high.length = 65536) (hlen : low.length + high.length ≤ 65535) :
    sequenceStart (low ++ high) = low.length := by
  have hlowpos := List.length_pos_iff.mpr hlowne
  have hhighpos := List.length_pos_iff.mpr hhighne
  obtain ⟨q, high, rfl⟩ := List.exists_cons_of_ne_nil hhighne
  have hq : q.header.sequenceNumber = seq := hhigh.1
  have hnumber : (q.header.sequenceNumber - ((0 : UInt16) + UInt16.ofNat (low.length - 1))).toNat =
      seq.toNat - (low.length - 1) := by
    rw [hq, UInt16.toNat_sub_of_le, UInt16.toNat_add, UInt16.toNat_ofNat']
    · simp only [UInt16.toNat_zero]
      omega
    · rw [UInt16.le_iff_toNat_le, UInt16.toNat_add, UInt16.toNat_ofNat']
      simp only [UInt16.toNat_zero]
      omega
  have hgap (found : Nat × Nat) (hfound : found.1 ≤ 1) : largestGap 0 found (low ++ q :: high) =
      ((q.header.sequenceNumber - (0 + UInt16.ofNat (low.length - 1))).toNat,
        0 + (low.length - 1)) :=
    largestGap_boundary hlow hlowne (hq ▸ hhigh) hfound (by rw [hnumber]; omega)
  have hlast :
      ((q :: high).getLast (List.cons_ne_nil _ _)).header.sequenceNumber.toNat = 65535 := by
    rw [hhigh.getLast (List.cons_ne_nil _ _), UInt16.toNat_add, UInt16.toNat_ofNat']
    omega
  obtain ⟨p, low, rfl⟩ := List.exists_cons_of_ne_nil hlowne
  have hp : p.header.sequenceNumber = 0 := hlow.1
  obtain ⟨second, rest, hrest⟩ : ∃ second rest, low ++ q :: high = second :: rest :=
    List.exists_cons_of_ne_nil (by simp)
  have hcount := congrArg List.length hrest
  have hend : (second :: rest).getLast (List.cons_ne_nil _ _) =
      (q :: high).getLast (List.cons_ne_nil _ _) := by
    simp only [← hrest]
    exact List.getLast_append_of_ne_nil _ (List.cons_ne_nil _ _)
  simp only [List.length_append, List.length_cons] at hcount hlen hseq hnumber hgap ⊢
  rw [List.cons_append, hrest] at hgap ⊢
  rw [sequenceStart]
  simp only [hgap (0, rest.length + 2 - 1) (Nat.zero_le 1), hend, hlast, hnumber, hp]
  rw [if_neg (by simp only [UInt16.toNat_zero]; omega), Nat.zero_add, Nat.add_sub_cancel]
  exact Nat.mod_eq_of_lt (by omega)

/-- Packets of consecutive numbers are put together in their sequence, in whatever order they
come. -/
theorem depacketizePayload_consecutive {sent received : List RtpPacket} (h : Consecutive seq sent)
    (hlen : sent.length ≤ 65535) (hperm : received.Perm sent) :
    depacketizePayload received = sent.flatMap (·.payload) := by
  unfold depacketizePayload
  by_cases hfit : seq.toNat + sent.length ≤ 65536
  · rw [sort_ascending hperm (h.ascending hfit).2]
    dsimp only
    rw [sequenceStart_ascending h hfit hlen]
    simp [List.rotateLeft]
  -- the packets from `65536 - seq` on have small numbers again
  have hseq := seq.toNat_lt
  rw [← List.take_append_drop (65536 - seq.toNat) sent] at h hperm ⊢
  generalize hhigh : sent.take (65536 - seq.toNat) = high at h hperm ⊢
  generalize hlow : sent.drop (65536 - seq.toNat) = low at h hperm ⊢
  have hhighlen : high.length = 65536 - seq.toNat := by
    rw [← hhigh, List.length_take]
    omega
  have hlowlen : low.length = sent.length - (65536 - seq.toNat) := by
    rw [← hlow, List.length_drop]
  obtain ⟨hhigh', hlow'⟩ := (consecutive_append seq high low).mp h
  have hzero : seq + UInt16.ofNat high.length = 0 := by
    apply UInt16.toNat_inj.mp
    rw [UInt16.toNat_add, UInt16.toNat_ofNat', hhighlen, UInt16.toNat_zero]
    omega
  rw [hzero] at hlow'
  obtain ⟨hhighrange, hhighpairs⟩ := hhigh'.ascending (by omega)
  obtain ⟨hlowrange, hlowpairs⟩ := hlow'.ascending (by
    rw [UInt16.toNat_zero]
    omega)
  have hsorted : (low ++ high).Pairwise fun p q =>
      p.header.sequenceNumber.toNat < q.header.sequenceNumber.toNat := by
    refine List.pairwise_append.mpr ⟨hlowpairs, hhighpairs, fun p hp q hq => ?_⟩
    have hsmall := (hlowrange p hp).2
    have hlarge := (hhighrange q hq).1
    rw [UInt16.toNat_zero] at hsmall
    omega
  rw [sort_ascending (hperm.trans List.perm_append_comm) hsorted]
  dsimp only
  rw [sequenceStart_wrapped hlow' (List.ne_nil_of_length_pos (by omega)) hhigh'
    (List.ne_nil_of_length_pos (by omega)) (by omega) (by omega)]
  have hrotate : (low ++ high).rotateLeft low.length = high ++ low := by
    unfold List.rotateLeft
    dsimp only
    rw [List.length_append, if_neg (by omega), Nat.mod_eq_of_lt (by omega), List.drop_left,
      List.take_left]
  rw [hrotate]

end Sequence

/-- The packets of a payload give it back in whatever order they arrive, also where their
sequence numbers start again, and the last of them is the one that is marked. -/
theorem depacketizePayload_packetizePayload (payload : Bytes) (mtu : Nat) (header : RtpHeader)
    (received : List RtpPacket) (hlen : (packetizePayload payload mtu header).length ≤ 65535)
    (hperm : received.Perm (packetizePayload payload mtu header)) :
    depacketizePayload received = payload ∧
      (payload ≠ [] → MarkedLast (packetizePayload payload mtu header)) := by
  have hsize : 0 < max (mtu - 12) 1 := by omega
  refine ⟨?_, packetizeLoop_marked hsize _ _ _ (Nat.le_refl _)⟩
  rw [depacketizePayload_consecutive (packetizeLoop_consecutive ..) hlen hperm]
  exact packetizeLoop_payload hsize _ _ _ (Nat.le_refl _)

theorem depacketizePayload_packetizePayload_wrapped :
    let packets := packetizePayload [1, 2, 3] 13
      { version := 2, payloadType := 96, sequenceNumber := 65534, timestamp := 0, ssrc := 7,
        marker := false }
    depacketizePayload packets.reverse = [1, 2, 3] ∧
      (([1, 2, 3] : Bytes) ≠ [] → MarkedLast packets) :=
  depacketizePayload_packetizePayload [1, 2, 3] 13 _ _ (by decide) (List.reverse_perm _)

end CheetahMedia.Codec
