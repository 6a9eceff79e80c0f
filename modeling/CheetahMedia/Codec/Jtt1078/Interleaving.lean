import CheetahMedia.Codec.Jtt1078.RoundTrip

namespace CheetahMedia.Codec
open Lib

/-- What is done with a packetizer. -/
inductive PacketizerOp
  | setMaxPayloadBytes (size : Nat)
  | packetize (f : Jtt1078Input)

namespace Jtt1078Packetizer

def packets : Jtt1078Packetizer → List PacketizerOp → List Bytes
  | _, [] => []
  | p, .setMaxPayloadBytes size :: ops => packets (p.setMaxPayloadBytes size) ops
  | p, .packetize f :: ops =>
    let r := p.packetize f.payloadType f.timestampMs f.frameType f.data
    r.2 ++ packets r.1 ops

end Jtt1078Packetizer

/-- The frames of a sender, each with the most that a packet of it may carry. -/
def sizedFrames : Nat → List PacketizerOp → List (Nat × Jtt1078Input)
  | _, [] => []
  | _, .setMaxPayloadBytes size :: ops => sizedFrames (max size 1) ops
  | size, .packetize f :: ops => (size, f) :: sizedFrames size ops

/-- A frame whose packets say what they are: its type has bits of its own, and the length
of a packet fits its field. -/
def Sendable (x : Nat × Jtt1078Input) : Prop :=
  x.2.frameType.Sendable ∧ min x.2.data.length x.1 ≤ 0xFFFF

instance : DecidablePred Sendable := fun _ => inferInstanceAs (Decidable (_ ∧ _))

/-- A frame that is kept to its end: it comes in one packet, or the limit does not stop it. -/
def Kept (limit : Nat) (x : Nat × Jtt1078Input) : Prop :=
  x.2.data.length ≤ x.1 ∨ x.2.data.length ≤ limit

instance : DecidablePred (Kept limit) := fun _ => inferInstanceAs (Decidable (_ ∨ _))

/-- One sender: a SIM, a channel, and what it does. -/
structure Jtt1078Stream where
  sim : String
  channel : UInt8
  ops : List PacketizerOp

namespace Jtt1078Stream

def packetizer (s : Jtt1078Stream) : Jtt1078Packetizer := .new s.sim s.channel

def packets (s : Jtt1078Stream) : List Bytes := s.packetizer.packets s.ops

def frames (s : Jtt1078Stream) : List (Nat × Jtt1078Input) :=
  sizedFrames DEFAULT_MAX_PACKET_PAYLOAD s.ops

/-- The pair of SIM and channel as a receiver reads it. -/
def key (s : Jtt1078Stream) : AssemblyKey := s.packetizer.key

end Jtt1078Stream

/-- What a frame is when it has come across. -/
def Jtt1078Input.content (f : Jtt1078Input) : Jtt1078FrameInfo × Bytes := (f.info, f.data)

def cutFrame (x : Nat × Jtt1078Input) : Jtt1078FrameInfo × List Bytes :=
  (x.2.info, chunks x.1 x.2.data)

theorem digitsToBcd_length (width : Nat) (digits : List Nat) :
    (digitsToBcd width digits).length = width := by
  induction width generalizing digits with
  | zero => rfl
  | succ width ih => simp [digitsToBcd, ih]

theorem sizedFrames_pos (hsize : 0 < size) : ∀ x ∈ sizedFrames size ops, 0 < x.1 := by
  induction ops generalizing size with
  | nil => simp [sizedFrames]
  | cons op ops ih =>
    cases op with
    | setMaxPayloadBytes n => exact ih (by omega)
    | packetize f => exact List.forall_mem_cons.mpr ⟨hsize, ih hsize⟩

theorem whole_cutFrame (hx : 0 < x.1) : Reassembly.whole (cutFrame x) = x.2.content := by
  rw [Reassembly.whole, cutFrame, chunks_flatten hx]
  rfl

namespace Jtt1078Packetizer

/-- The packets of a sender are the fragments of its frames, numbered in order. -/
theorem packets_read (p : Jtt1078Packetizer) (ops : List PacketizerOp) (hsim : p.sim.length = 6)
    (hsend : ∀ x ∈ sizedFrames p.maxPayloadBytes ops, Sendable x) (hseq : p.nextSeq = number n) :
    (p.packets ops).map readFragment =
      (Reassembly.fragments number n ((sizedFrames p.maxPayloadBytes ops).map cutFrame)).map
        fun x => some (p.key, x) := by
  induction ops generalizing p n with
  | nil => rfl
  | cons op ops ih =>
    cases op with
    | setMaxPayloadBytes size => exact ih (p.setMaxPayloadBytes size) hsim hsend hseq
    | packetize f =>
      obtain ⟨⟨htype, hlength⟩, hsend⟩ := List.forall_mem_cons.mp hsend
      have hchunks : ∀ chunk ∈ chunks p.maxPayloadBytes f.data, chunk.length ≤ 0xFFFF := by
        intro chunk hchunk
        have hsize := length_le_of_mem_chunks hchunk
        have hdata := length_le_of_mem_flatten hchunk
        rw [chunks_flatten p.maxPayloadBytes_pos] at hdata
        dsimp only at hlength
        omega
      obtain ⟨hp, hread⟩ := packetizeChunks_read p f hsim htype
        (chunks p.maxPayloadBytes f.data).length 0 _ hchunks hseq
      rw [marked_eq_cut] at hread
      rw [packets, packetize, List.map_append, hread, hp,
        ih { p with nextSeq := number (n + (chunks p.maxPayloadBytes f.data).length) } hsim hsend rfl]
      simp only [sizedFrames, List.map_cons, Reassembly.fragments, List.map_append]
      rfl

end Jtt1078Packetizer

namespace Jtt1078Stream
variable {s : Jtt1078Stream}

def fragments (s : Jtt1078Stream) : List Jtt1078Fragment :=
  Reassembly.fragments Jtt1078Packetizer.number 0 (s.frames.map cutFrame)

theorem packets_read (hsend : ∀ x ∈ s.frames, Sendable x) :
    s.packets.map readFragment = s.fragments.map fun x => some (s.key, x) :=
  s.packetizer.packets_read s.ops (digitsToBcd_length ..) hsend rfl

theorem getElem?_read (hsend : ∀ x ∈ s.frames, Sendable x) (n : Nat) :
    s.packets[n]?.map readFragment = s.fragments[n]?.map fun x => some (s.key, x) := by
  rw [← List.getElem?_map, packets_read hsend, List.getElem?_map]

theorem read_of_mem (hsend : ∀ x ∈ s.frames, Sendable x) (hdata : data ∈ s.packets) :
    ∃ x, readFragment data = some (s.key, x) := by
  have hread := List.mem_map_of_mem (f := readFragment) hdata
  rw [packets_read hsend] at hread
  obtain ⟨x, -, hx⟩ := List.mem_map.mp hread
  exact ⟨x, hx.symm⟩

theorem cutFrames_whole (s : Jtt1078Stream) :
    (s.frames.map cutFrame).map Reassembly.whole = s.frames.map (·.2.content) := by
  rw [List.map_map]
  exact List.map_congr_left fun x hx => whole_cutFrame (sizedFrames_pos (by decide) x hx)

end Jtt1078Stream

namespace Jtt1078FrameAssembler

/-- The frames that come of the packets. -/
def assemble (limit : Nat) (packets : List Bytes) : List Jtt1078Frame :=
  (feedAll pushFrames (new limit) packets).2

/-- What comes out under a key is the reassembly of the fragments under it. -/
theorem assemble_key (limit : Nat) (packets : List Bytes) (key : AssemblyKey) :
    ((assemble limit packets).filter (·.key = key)).map (·.content) =
      (feedAll (Reassembly.step (· + 1) limit) none
        (((packets.filterMap readFragment).filter (·.1 = key)).map (·.2))).2 := by
  have hall := feedAll_pushFrames (new limit) packets
  have hkey := feedAll_keyed (Reassembly.step (· + 1) limit) (new limit).view
    (packets.filterMap readFragment) key
  rw [show (new limit).maxCacheBytes = limit from rfl] at hall
  rw [hall, show (new limit).view key = none from rfl] at hkey
  rw [← hkey, assemble, List.filter_map, List.map_map]
  rfl

end Jtt1078FrameAssembler

/-- Two numbers of which the second is not mistaken for the one after the first. -/
def InWindow (m n : Nat) : Prop := n < m + 1 + 65536 ∧ m + 1 < n + 65536

instance : DecidableRel InWindow := fun _ _ => inferInstanceAs (Decidable (_ ∧ _))

theorem InWindow.eq_succ (h : InWindow m n)
    (hnumber : Jtt1078Packetizer.number n = Jtt1078Packetizer.number m + 1) : n = m + 1 := by
  rw [← Jtt1078Packetizer.number_succ] at hnumber
  have hnat := congrArg UInt16.toNat hnumber
  simp only [Jtt1078Packetizer.number, UInt16.toNat_ofNat', Nat.reducePow] at hnat
  unfold InWindow at h
  omega

/-- The packet at a place is a piece of a frame of several. -/
def Jtt1078Stream.isPiece (s : Jtt1078Stream) (n : Nat) : Bool :=
  s.packets[n]?.any fun data => (readFragment data).any (·.2.mark ≠ .atomic)

/-- The packet that an arrival stands for. -/
def receive (streams : ι → Jtt1078Stream) (x : ι × Nat) : Option (ι × Bytes) :=
  (streams x.1).packets[x.2]?.map (x.1, ·)

section
variable {ι : Type} [DecidableEq ι] {streams : ι → Jtt1078Stream}

theorem read_interleaved (hkeys : Function.Injective fun i => (streams i).key)
    (hsend : ∀ i, ∀ x ∈ (streams i).frames, Sendable x) (arrivals : List (ι × Bytes))
    (harrivals : ∀ x ∈ arrivals, x.2 ∈ (streams x.1).packets) (i : ι) :
    (((arrivals.map (·.2)).filterMap readFragment).filter (·.1 = (streams i).key)).map (·.2) =
      ((arrivals.filter (·.1 = i)).map (·.2)).filterMap fun data => (readFragment data).map (·.2) := by
  induction arrivals with
  | nil => rfl
  | cons arrival arrivals ih =>
    obtain ⟨j, data⟩ := arrival
    obtain ⟨hself, harrivals⟩ := List.forall_mem_cons.mp harrivals
    obtain ⟨x, hx⟩ := Jtt1078Stream.read_of_mem (hsend j) hself
    have ih := ih harrivals
    rw [List.map_cons, List.filterMap_cons_some hx]
    by_cases hj : j = i
    · subst hj
      simpa [hx] using ih
    · have hkey : (streams j).key ≠ (streams i).key := fun h => hj (hkeys h)
      simpa [hj, hkey] using ih

/-- All packets of some streams, in any interleaving, give the frames of each stream. -/
theorem assemble_interleaved (hkeys : Function.Injective fun i => (streams i).key)
    (hsend : ∀ i, ∀ x ∈ (streams i).frames, Sendable x)
    (hkept : ∀ i, ∀ x ∈ (streams i).frames, x.2.data ≠ [] ∧ Kept limit x)
    (arrivals : List (ι × Bytes))
    (harrivals : ∀ i, (arrivals.filter (·.1 = i)).map (·.2) = (streams i).packets) (i : ι) :
    ((Jtt1078FrameAssembler.assemble limit (arrivals.map (·.2))).filter
      (·.key = (streams i).key)).map (·.content) = (streams i).frames.map (·.2.content) := by
  have hmem : ∀ x ∈ arrivals, x.2 ∈ (streams x.1).packets := by
    rintro ⟨j, data⟩ hx
    rw [← harrivals j]
    exact List.mem_map_of_mem (List.mem_filter.mpr ⟨hx, by simp⟩)
  have hfragments : (streams i).packets.filterMap (fun data => (readFragment data).map (·.2)) =
      (streams i).fragments := by
    rw [show (fun data => (readFragment data).map (·.2)) = (Option.map (·.2)) ∘ readFragment from rfl,
      ← List.filterMap_map, Jtt1078Stream.packets_read (hsend i), List.filterMap_map]
    simp
  rw [Jtt1078FrameAssembler.assemble_key, read_interleaved hkeys hsend arrivals hmem, harrivals,
    hfragments, Jtt1078Stream.fragments,
    Reassembly.feedAll_fragments Jtt1078Packetizer.number_succ, Jtt1078Stream.cutFrames_whole]
  rintro f hf
  obtain ⟨x, hx, rfl⟩ := List.mem_map.mp hf
  obtain ⟨hne, hfits⟩ := hkept i x hx
  refine ⟨chunks_ne_nil hne, ?_⟩
  rcases hfits with hone | hlimit
  · exact .inl (by rw [cutFrame, chunks_single hne hone]; rfl)
  · exact .inr (by rw [cutFrame, chunks_flatten (sizedFrames_pos (by decide) x hx)]; exact hlimit)

/-- The fragments of a stream that arrive, by their places in it. -/
theorem read_positions (hsend : ∀ i, ∀ x ∈ (streams i).frames, Sendable x)
    (arrivals : List (ι × Nat)) (i : ι) :
    (((arrivals.filterMap (receive streams)).filter (·.1 = i)).map (·.2)).filterMap
        (fun data => (readFragment data).map (·.2)) =
      ((arrivals.filter (·.1 = i)).map (·.2)).filterMap ((streams i).fragments[·]?) := by
  induction arrivals with
  | nil => rfl
  | cons arrival arrivals ih =>
    obtain ⟨j, n⟩ := arrival
    have hread := Jtt1078Stream.getElem?_read (hsend j) n
    cases hpacket : (streams j).packets[n]? with
    | none =>
      rw [hpacket, Option.map_none, eq_comm, Option.map_eq_none_iff] at hread
      have hreceived : receive streams (j, n) = none := by simp [receive, hpacket]
      rw [List.filterMap_cons_none hreceived, ih]
      by_cases hj : j = i
      · subst hj
        simp [hread]
      · simp [hj]
    | some data =>
      rw [hpacket, Option.map_some, eq_comm, Option.map_eq_some_iff] at hread
      obtain ⟨x, hx, hdata⟩ := hread
      have hreceived : receive streams (j, n) = some (j, data) := by simp [receive, hpacket]
      have hfragment : (readFragment data).map (·.2) = some x := by rw [← hdata]; rfl
      rw [List.filterMap_cons_some hreceived]
      by_cases hj : j = i
      · subst hj
        simp only [List.filter_cons, decide_true, if_true, List.map_cons]
        simp only [List.filterMap_cons, hfragment, hx, ih]
      · simpa [hj] using ih

theorem isPiece_eq {s : Jtt1078Stream} (hsend : ∀ x ∈ s.frames, Sendable x) (n : Nat) :
    s.isPiece n = s.fragments[n]?.any (·.mark ≠ .atomic) := by
  have hread := Jtt1078Stream.getElem?_read hsend n
  unfold Jtt1078Stream.isPiece
  cases hpacket : s.packets[n]? with
  | none =>
    rw [hpacket, Option.map_none, eq_comm, Option.map_eq_none_iff] at hread
    rw [hread]
    rfl
  | some data =>
    rw [hpacket, Option.map_some, eq_comm, Option.map_eq_some_iff] at hread
    obtain ⟨x, hx, hdata⟩ := hread
    rw [hx, Option.any_some, ← hdata]
    rfl

/-- Whatever is lost, repeated or out of order, a frame that comes out is one of its stream. -/
theorem assemble_lossy (hkeys : Function.Injective fun i => (streams i).key)
    (hsend : ∀ i, ∀ x ∈ (streams i).frames, Sendable x) (arrivals : List (ι × Nat))
    (hwindow : ∀ i, (((arrivals.filter (·.1 = i)).map (·.2)).filter (streams i).isPiece).IsChain
      InWindow) :
    ∀ frame ∈ Jtt1078FrameAssembler.assemble limit
        (arrivals.filterMap fun x => (streams x.1).packets[x.2]?),
      ∃ i, frame.key = (streams i).key ∧
        ∃ x ∈ (streams i).frames, frame.content = x.2.content := by
  intro frame hframe
  let received := arrivals.filterMap (receive streams)
  have hreceived : (arrivals.filterMap fun x => (streams x.1).packets[x.2]?) =
      received.map (·.2) := by
    simp [received, receive, List.map_filterMap]
  have hmem : ∀ x ∈ received, x.2 ∈ (streams x.1).packets := by
    intro x hx
    obtain ⟨⟨j, n⟩, -, hn⟩ := List.mem_filterMap.mp hx
    obtain ⟨data, hdata, rfl⟩ := Option.map_eq_some_iff.mp hn
    exact List.mem_of_getElem? hdata
  rw [hreceived] at hframe
  have hcontent : frame.content ∈ ((Jtt1078FrameAssembler.assemble limit (received.map (·.2))).filter
      (·.key = frame.key)).map (·.content) :=
    List.mem_map_of_mem (List.mem_filter.mpr ⟨hframe, by simp⟩)
  rw [Jtt1078FrameAssembler.assemble_key] at hcontent
  -- a key under which something comes out is one of a stream
  obtain ⟨i, hi⟩ : ∃ i, (streams i).key = frame.key := by
    cases hread : ((received.map (·.2)).filterMap readFragment).filter (·.1 = frame.key) with
    | nil =>
      rw [hread] at hcontent
      cases hcontent
    | cons y ys =>
      have hy : y ∈ ((received.map (·.2)).filterMap readFragment).filter (·.1 = frame.key) := by
        rw [hread]
        exact List.mem_cons_self
      obtain ⟨hy, hkey⟩ := List.mem_filter.mp hy
      obtain ⟨data, hdata, hdataRead⟩ := List.mem_filterMap.mp hy
      obtain ⟨x, hx, rfl⟩ := List.mem_map.mp hdata
      obtain ⟨z, hz⟩ := Jtt1078Stream.read_of_mem (hsend x.1) (hmem x hx)
      rw [hz, Option.some.injEq] at hdataRead
      exact ⟨x.1, by rw [← of_decide_eq_true hkey, ← hdataRead]⟩
  rw [← hi, read_interleaved hkeys hsend received hmem] at hcontent
  refine ⟨i, hi.symm, ?_⟩
  rw [read_positions hsend] at hcontent
  have hchain : ((((arrivals.filter (·.1 = i)).map (·.2)).filter fun n =>
      (streams i).fragments[n]?.any (·.mark ≠ .atomic)).IsChain fun m n =>
        Jtt1078Packetizer.number n = Jtt1078Packetizer.number m + 1 → n = m + 1) := by
    rw [← List.filter_congr fun n _ => isPiece_eq (hsend i) n]
    exact (hwindow i).imp fun _ _ => InWindow.eq_succ
  obtain ⟨f, hf, hwhole⟩ := Reassembly.feedAll_lossy ((arrivals.filter (·.1 = i)).map (·.2)) none
    (by simp) hchain _ hcontent
  obtain ⟨x, hx, rfl⟩ := List.mem_map.mp hf
  exact ⟨x, hx, hwhole.trans (whole_cutFrame (sizedFrames_pos (by decide) x hx))⟩

/-- Every interleaving of the packets of some streams gives the frames of each stream, and
whatever is lost, repeated or out of order, only frames of a stream come out. -/
theorem assemble_exact (hkeys : Function.Injective fun i => (streams i).key)
    (hsend : ∀ i, ∀ x ∈ (streams i).frames, Sendable x) :
    ((∀ i, ∀ x ∈ (streams i).frames, x.2.data ≠ [] ∧ Kept limit x) → ∀ arrivals : List (ι × Bytes),
      (∀ i, (arrivals.filter (·.1 = i)).map (·.2) = (streams i).packets) → ∀ i,
        ((Jtt1078FrameAssembler.assemble limit (arrivals.map (·.2))).filter
          (·.key = (streams i).key)).map (·.content) = (streams i).frames.map (·.2.content)) ∧
    ∀ arrivals : List (ι × Nat),
      (∀ i, (((arrivals.filter (·.1 = i)).map (·.2)).filter (streams i).isPiece).IsChain
        InWindow) →
      ∀ frame ∈ Jtt1078FrameAssembler.assemble limit
          (arrivals.filterMap fun x => (streams x.1).packets[x.2]?),
        ∃ i, frame.key = (streams i).key ∧
          ∃ x ∈ (streams i).frames, frame.content = x.2.content :=
  ⟨assemble_interleaved hkeys hsend, assemble_lossy hkeys hsend⟩

end

theorem bcd_pair : ∀ hi lo : Fin 10,
    (((UInt8.ofNat hi <<< 4) ||| UInt8.ofNat lo) >>> 4).toNat = hi ∧
      (((UInt8.ofNat hi <<< 4) ||| UInt8.ofNat lo) &&& 0x0F).toNat = lo := by
  decide +kernel

theorem digitsToBcd_read (hdigits : ∀ d ∈ digits, d < 10) (hlength : digits.length = 2 * width) :
    ((digitsToBcd width digits).flatMap fun b : UInt8 =>
      [fromDigit (b >>> 4).toNat, fromDigit (b &&& 0x0F).toNat]) = digits.map fromDigit := by
  induction width generalizing digits with
  | zero => simp [digitsToBcd, List.length_eq_zero_iff.mp hlength]
  | succ width ih =>
    match digits, hlength with
    | hi :: lo :: digits, hlength =>
      obtain ⟨hhi, hlo, hdigits⟩ : hi < 10 ∧ lo < 10 ∧ ∀ d ∈ digits, d < 10 := by
        simpa using hdigits
      obtain ⟨hhigh, hlow⟩ := bcd_pair ⟨hi, hhi⟩ ⟨lo, hlo⟩
      dsimp only at hhigh hlow
      simp only [digitsToBcd, List.flatMap_cons, List.drop_succ_cons, List.drop_zero,
        List.getElem?_cons_zero, List.getElem?_cons_succ, Option.getD_some, hhigh, hlow,
        ih hdigits (by simpa [Nat.mul_succ] using hlength)]
      rfl

theorem fromDigit_toDigit (h : '0' ≤ c ∧ c ≤ '9') :
    ∃ d < 10, toDigit c = some d ∧ fromDigit d = c := by
  have hlow : 48 ≤ c.toNat := UInt32.le_iff_toNat_le.mp h.1
  have hhigh : c.toNat ≤ 57 := UInt32.le_iff_toNat_le.mp h.2
  have hzero : '0'.toNat = 48 := rfl
  refine ⟨c.toNat - 48, by omega, by rw [toDigit, if_pos h, hzero], ?_⟩
  rw [fromDigit, if_pos (by omega), hzero, Nat.add_sub_cancel' hlow, Char.ofNat_toNat]

/-- The SIM that a packetizer asks for is read back as it was given. -/
theorem Jtt1078Stream.key_of_digits (s : Jtt1078Stream) (hlength : s.sim.length = 12)
    (hdigits : ∀ c ∈ s.sim.toList, '0' ≤ c ∧ c ≤ '9') : s.key = ⟨s.sim, s.channel⟩ := by
  have hread : ∀ l : List Char, (∀ c ∈ l, '0' ≤ c ∧ c ≤ '9') →
      (l.filterMap toDigit).length = l.length ∧ (∀ d ∈ l.filterMap toDigit, d < 10) ∧
        (l.filterMap toDigit).map fromDigit = l := by
    intro l hl
    induction l with
    | nil => simp
    | cons c l ih =>
      obtain ⟨hc, hl⟩ := List.forall_mem_cons.mp hl
      obtain ⟨d, hd, hto, hfrom⟩ := fromDigit_toDigit hc
      obtain ⟨hlength, hall, hmap⟩ := ih hl
      rw [List.filterMap_cons_some hto]
      exact ⟨by simp [hlength], List.forall_mem_cons.mpr ⟨hd, hall⟩, by simp [hfrom, hmap]⟩
  obtain ⟨hcount, hall, hmap⟩ := hread s.sim.toList hdigits
  have hsim : bcdToStr (strToBcd 6 s.sim) = s.sim := by
    rw [bcdToStr, strToBcd, digitsToBcd_read hall (by rw [hcount, String.length_toList, hlength]),
      hmap, String.ofList_toList]
  rw [key, Jtt1078Packetizer.key, packetizer, Jtt1078Packetizer.new, hsim]

def videoFrame (data : Bytes) : PacketizerOp := .packetize ⟨98, 1000, .iFrame, data⟩

/-- Two cameras of which one cuts its frames small. -/
def cameras : Bool → Jtt1078Stream
  | false => ⟨"123456789012", 1, [.setMaxPayloadBytes 2, videoFrame [1, 2, 3], videoFrame [4]]⟩
  | true => ⟨"123456789012", 2, [.packetize ⟨6, 1000, .audio, [5, 6, 7]⟩]⟩

/-- Their packets crosswise, and then without the second. -/
theorem assemble_exact_cameras :
    let packets := fun i => (cameras i).packets
    let arrivals := [(false, (packets false).getD 0 []), (true, (packets true).getD 0 []),
      (false, (packets false).getD 1 []), (false, (packets false).getD 2 [])]
    ((Jtt1078FrameAssembler.assemble 3 (arrivals.map (·.2))).filter
        (·.key = ⟨"123456789012", 1⟩)).map (·.content) =
      [(⟨98, .iFrame, 1000⟩, [1, 2, 3]), (⟨98, .iFrame, 1000⟩, [4])] ∧
    ∀ frame ∈ Jtt1078FrameAssembler.assemble 3
        ([(false, 0), (true, 0), (false, 2)].filterMap fun x => (packets x.1)[x.2]?),
      ∃ i, frame.key = (cameras i).key ∧
        ∃ x ∈ (cameras i).frames, frame.content = x.2.content := by
  intro packets arrivals
  have hkeys : Function.Injective fun i => (cameras i).key := by
    intro i j h
    cases i <;> cases j <;> first | rfl | exact absurd h (by decide +kernel)
  obtain ⟨hall, hlossy⟩ := @assemble_exact Bool _ cameras 3 hkeys
    (by rintro (_ | _) <;> decide +kernel)
  refine ⟨?_, hlossy [(false, 0), (true, 0), (false, 2)] (by rintro (_ | _) <;> decide +kernel)⟩
  have hfalse := hall (by rintro (_ | _) <;> decide +kernel) arrivals
    (by rintro (_ | _) <;> decide +kernel) false
  have hkey : (cameras false).key = ⟨"123456789012", 1⟩ := by decide +kernel
  rw [hkey] at hfalse
  exact hfalse.trans (by decide +kernel)

/-- A frame of two pieces, `k` frames of one, and another of two. -/
def longStream (k : Nat) : Jtt1078Stream :=
  ⟨"123456789012", 1, .setMaxPayloadBytes 1 :: videoFrame [1, 2] ::
    (List.replicate k (videoFrame [9]) ++ [videoFrame [3, 4]])⟩

theorem longStream_frames (k : Nat) : (longStream k).frames =
    (1, ⟨98, 1000, .iFrame, [1, 2]⟩) ::
      (List.replicate k (1, ⟨98, 1000, .iFrame, [9]⟩) ++ [(1, ⟨98, 1000, .iFrame, [3, 4]⟩)]) := by
  have hmiddle : sizedFrames 1 (List.replicate k (videoFrame [9]) ++ [videoFrame [3, 4]]) =
      List.replicate k (1, ⟨98, 1000, .iFrame, [9]⟩) ++ [(1, ⟨98, 1000, .iFrame, [3, 4]⟩)] := by
    induction k with
    | zero => rfl
    | succ k ih =>
      rw [List.replicate_succ, List.cons_append, List.replicate_succ, List.cons_append, ← ih]
      rfl
  rw [← hmiddle]
  rfl

theorem fragments_replicate (n k : Nat) (info : Jtt1078FrameInfo) (piece : Bytes)
    (rest : List (Jtt1078FrameInfo × List Bytes)) :
    (Reassembly.fragments Jtt1078Packetizer.number n
        (List.replicate k (info, [piece]) ++ rest)).drop k =
      Reassembly.fragments Jtt1078Packetizer.number (n + k) rest := by
  induction k generalizing n with
  | zero => rfl
  | succ k ih =>
    rw [List.replicate_succ, List.cons_append, Reassembly.fragments, cut, Reassembly.numbered,
      Reassembly.numbered, List.singleton_append, List.drop_succ_cons, ih]
    congr 1
    simp only [List.length_cons, List.length_nil]
    omega

theorem longStream_sendable (k : Nat) : ∀ x ∈ (longStream k).frames, Sendable x := by
  intro x hx
  simp only [longStream_frames, List.mem_cons, List.mem_append, List.mem_replicate,
    List.not_mem_nil, or_false] at hx
  rcases hx with rfl | ⟨-, rfl⟩ | rfl <;> decide

def longInfo : Jtt1078FrameInfo := ⟨98, .iFrame, 1000⟩

theorem longStream_fragments (k : Nat) :
    (longStream k).fragments[0]? = some ⟨.first, 0, longInfo, [1]⟩ ∧
      (longStream k).fragments[k + 3]? =
        some ⟨.last, Jtt1078Packetizer.number (k + 3), longInfo, [4]⟩ := by
  have hcut : (longStream k).frames.map cutFrame =
      (longInfo, [[1], [2]]) :: (List.replicate k (longInfo, [[9]]) ++
        [(longInfo, [[3], [4]])]) := by
    rw [longStream_frames, List.map_cons, List.map_append, List.map_replicate]
    rfl
  rw [Jtt1078Stream.fragments, hcut]
  refine ⟨rfl, ?_⟩
  have hdrop := fragments_replicate 2 k longInfo [9]
    [(longInfo, [[3], [4]])]
  have hlater : ((Reassembly.fragments Jtt1078Packetizer.number 2
      (List.replicate k (longInfo, [[9]]) ++ [(longInfo, ([[3], [4]] : List Bytes))])).drop k)[1]? =
        some ⟨.last, Jtt1078Packetizer.number (k + 3), longInfo, [4]⟩ := by
    rw [hdrop, show k + 3 = 2 + k + 1 from by omega]
    rfl
  rw [List.getElem?_drop] at hlater
  exact hlater

/-- The last piece of the second frame is taken for that of the first if as many frames lie
between them as there are numbers. -/
theorem longStream_mixed (hk : Jtt1078Packetizer.number (k + 3) = 1) (limit : Nat)
    (hlimit : 2 ≤ limit) :
    ∃ frame ∈ Jtt1078FrameAssembler.assemble limit
        ([((), 0), ((), k + 3)].filterMap fun x => (longStream k).packets[x.2]?),
      frame.key = (longStream k).key ∧ frame.content = (longInfo, [1, 4]) := by
  obtain ⟨hfirst, hlast⟩ := longStream_fragments k
  have hread := Jtt1078Stream.getElem?_read (longStream_sendable k)
  have h0 := hread 0
  have h3 := hread (k + 3)
  rw [hfirst, Option.map_some, Option.map_eq_some_iff] at h0
  rw [hlast, Option.map_some, Option.map_eq_some_iff, hk] at h3
  obtain ⟨data0, hdata0, hread0⟩ := h0
  obtain ⟨data3, hdata3, hread3⟩ := h3
  have hpackets : [((), 0), ((), k + 3)].filterMap (fun x => (longStream k).packets[x.2]?) =
      [data0, data3] := by
    simp [hdata0, hdata3]
  have hkey := Jtt1078FrameAssembler.assemble_key limit [data0, data3] (longStream k).key
  have hout : (feedAll (Reassembly.step (· + 1) limit) none
      (((([data0, data3].filterMap readFragment).filter (·.1 = (longStream k).key)).map (·.2)))).2 =
        [(longInfo, [1, 4])] := by
    simp [hread0, hread3, feedAll, Reassembly.step, Nat.not_lt.mpr hlimit]
  rw [hout, List.map_eq_cons_iff] at hkey
  obtain ⟨frame, _, hframes, hcontent, -⟩ := hkey
  have hmem : frame ∈ (Jtt1078FrameAssembler.assemble limit [data0, data3]).filter
      (·.key = (longStream k).key) := by
    rw [hframes]
    exact List.mem_cons_self
  obtain ⟨hframe, hkey⟩ := List.mem_filter.mp hmem
  rw [hpackets]
  exact ⟨frame, hframe, of_decide_eq_true hkey, hcontent⟩

theorem longStream_inexact (hk : Jtt1078Packetizer.number (k + 3) = 1) :
    ¬ ∀ (streams : Unit → Jtt1078Stream) (limit : Nat) (arrivals : List (Unit × Nat)),
      arrivals.Nodup → ∀ frame ∈ Jtt1078FrameAssembler.assemble limit
          (arrivals.filterMap fun x => (streams x.1).packets[x.2]?),
        ∃ i, frame.key = (streams i).key ∧
          ∃ x ∈ (streams i).frames, frame.content = x.2.content := by
  intro h
  obtain ⟨frame, hframe, -, hmixed⟩ := longStream_mixed hk 2 (Nat.le_refl 2)
  obtain ⟨-, -, x, hx, hcontent⟩ := h (fun _ => longStream k) 2 [((), 0), ((), k + 3)]
    (by simp) frame hframe
  have hdata : x.2.data = [1, 4] := congrArg Prod.snd (hcontent.symm.trans hmixed)
  simp only [longStream_frames, List.mem_cons, List.mem_append, List.mem_replicate,
    List.not_mem_nil, or_false] at hx
  rcases hx with rfl | ⟨-, rfl⟩ | rfl <;> exact absurd hdata (by decide)

/-- A frame longer than the cache does not come across, and with 65536 packets lost in a
row a frame is made of the ends of two. -/
theorem assemble_inexact :
    (¬ ∀ (streams : Unit → Jtt1078Stream) (limit : Nat),
      (∀ i, ∀ x ∈ (streams i).frames, x.2.data ≠ []) → ∀ arrivals : List (Unit × Bytes),
        (∀ i, (arrivals.filter (·.1 = i)).map (·.2) = (streams i).packets) → ∀ i,
          ((Jtt1078FrameAssembler.assemble limit (arrivals.map (·.2))).filter
            (·.key = (streams i).key)).map (·.content) = (streams i).frames.map (·.2.content)) ∧
    ¬ ∀ (streams : Unit → Jtt1078Stream) (limit : Nat) (arrivals : List (Unit × Nat)),
      arrivals.Nodup → ∀ frame ∈ Jtt1078FrameAssembler.assemble limit
          (arrivals.filterMap fun x => (streams x.1).packets[x.2]?),
        ∃ i, frame.key = (streams i).key ∧
          ∃ x ∈ (streams i).frames, frame.content = x.2.content := by
  refine ⟨fun h => ?_, longStream_inexact (k := 65534) (by decide)⟩
  let stream : Jtt1078Stream :=
    ⟨"123456789012", 1, [.setMaxPayloadBytes 1, videoFrame [1, 2]]⟩
  have hpackets : ∀ i : Unit, ((stream.packets.map ((), ·)).filter (·.1 = i)).map (·.2) =
      stream.packets := by
    rintro ⟨⟩
    decide +kernel
  have hframes := h (fun _ => stream) 1 (fun _ => by decide +kernel) _ hpackets ()
  exact absurd hframes (by decide +kernel)

end CheetahMedia.Codec
