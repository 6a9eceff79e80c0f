import CheetahMedia.Codec.Rtp
import CheetahMedia.Lib.Framing

namespace CheetahMedia.Rtp
open Lib Lib.Incremental Codec

/-- The first bytes of an Ehome2 header. -/
def isEhomePrefix (data : Bytes) : Bool :=
  match data with
  | b0 :: b1 :: b2 :: _ => b0 = 0x01 ∧ b1 = 0x00 ∧ (b2 = 0x01 ∨ b2 = 0x02)
  | _ => false

/-- Size of the frame at the front of what was read, when it is whole. -/
def frameSize (remaining : Bytes) : Option Nat :=
  if remaining.head? = some DOLLAR then
    if remaining.length < 4 then none
    else
      let len := fromBigEndian ((remaining.drop 2).take 2)
      if remaining.length < 4 + len then none else some (4 + len)
  else if 2 ≤ remaining.length then
    let len := fromBigEndian (remaining.take 2)
    if remaining.length < 2 + len then none else some (2 + len)
  else none

/-- The same on a connection that began with an Ehome2 header. -/
def ehomeFrameSize (remaining : Bytes) : Option Nat :=
  if 256 ≤ remaining.length ∧ isEhomePrefix remaining then some 256
  else if 4 ≤ remaining.length then
    let len := fromBigEndian ((remaining.drop 2).take 2)
    if 4 + len ≤ remaining.length then some (4 + len) else none
  else none

/-- `split_to` of each whole frame. -/
def cutting (size : Bytes → Option Nat) : Parser Empty UInt8 Bytes := fun remaining =>
  match size remaining with
  | none => (.ok none, remaining)
  | some n => (.ok (some (remaining.take n)), remaining.drop n)

/-- What the driver's reader task of a connection keeps between two reads. -/
structure TcpReader where
  remaining : Bytes := []
  isEhome : Bool := false
  checkedEhome : Bool := false

namespace TcpReader

/-- The chunks that a read sends to the core. -/
def read (r : TcpReader) (bytes : Bytes) : List Bytes × TcpReader :=
  let remaining := r.remaining ++ bytes
  if ¬r.checkedEhome ∧ remaining.length < 3 then ([], { r with remaining })
  else
    let isEhome := if r.checkedEhome then r.isEhome else isEhomePrefix remaining
    let size := if isEhome then ehomeFrameSize else frameSize
    let (chunks, halt) := run (ofParser (cutting size)) () remaining
    (chunks, { remaining := halt.rest, isEhome, checkedEhome := true })

def readAll : TcpReader → List Bytes → List Bytes
  | _, [] => []
  | r, piece :: pieces => (r.read piece).1 ++ ((r.read piece).2).readAll pieces

end TcpReader

/-- What the core does with a connection's bytes, whatever else it keeps: whether an Ehome
decoder is latched to the connection, whether a session has an SSRC, and its steps on a chunk
of an Ehome stream, on a packet found by recovery, and on a packet. -/
structure TcpSink (σ : Type) where
  latched : σ → Bool
  known : σ → UInt32 → Bool
  ehome : σ → Bytes → σ
  resync : σ → RtpPacket → σ
  feed : σ → RtpPacket → σ
  feed_latched : latched (feed s p) = latched s

namespace TcpSink
variable {σ : Type}

/-- A pack header of a program stream. -/
def isPackHeader (data : Bytes) : Bool := [0x00, 0x00, 0x01, 0xBA].isPrefixOf data

/-- Search forward, within 4 KiB, for a frame of a known SSRC or a pack header. -/
def recover (known : UInt32 → Bool) (framing : RtpTcpFraming) (remaining : Bytes) :
    Option (Option RtpPacket × Bytes) :=
  let scanWindow := min remaining.length 4096
  (List.range' 1 (scanWindow - 3)).findSome? fun offset =>
    let rest := remaining.drop offset
    match parseTcpRtpFrameWith rest framing with
    | some parsed =>
      if known parsed.packet.header.ssrc then some (some parsed.packet, rest.drop parsed.consumed)
      else if isPackHeader rest then some (none, rest)
      else none
    | none => if isPackHeader rest then some (none, rest) else none

/-- The frames of a chunk. Each turn takes something off it, so its length bounds the turns. -/
def deframe (sink : TcpSink σ) (framing : RtpTcpFraming) : Nat → σ → Bytes → σ
  | 0, s, _ => s
  | fuel + 1, s, remaining =>
    if remaining = [] then s
    else
      match parseTcpRtpFrameWith remaining framing with
      | some parsed =>
        sink.deframe framing fuel (sink.feed s parsed.packet) (remaining.drop parsed.consumed)
      | none =>
        if remaining.length < 2 then s
        else
          match recover (sink.known s) framing remaining with
          | none => s
          | some (none, rest) => sink.deframe framing fuel s rest
          | some (some packet, rest) =>
            sink.deframe framing fuel (sink.feed (sink.resync s packet) packet) rest

def processTcpBytes (sink : TcpSink σ) (framing : RtpTcpFraming) (s : σ) (data : Bytes) : σ :=
  if sink.latched s || isEhomePrefix data then sink.ehome s data
  else sink.deframe framing data.length s data

/-- The same with a record of the packets that were fed, in order. -/
def logged (sink : TcpSink σ) : TcpSink (σ × List RtpPacket) where
  latched s := sink.latched s.1
  known s := sink.known s.1
  ehome s data := (sink.ehome s.1 data, s.2)
  resync s p := (sink.resync s.1 p, s.2)
  feed s p := (sink.feed s.1 p, s.2 ++ [p])
  feed_latched := sink.feed_latched

/-- The packets that the driver and the core hand over for the bytes of a connection, in the
pieces in which they are read. -/
def handed (sink : TcpSink σ) (s : σ) (pieces : List Bytes) : List RtpPacket :=
  (((TcpReader.readAll {} pieces).foldl (sink.logged.processTcpBytes .autoDetect) (s, [])).2)

end TcpSink

/-- A size that is told stands for bytes that are there, whatever follows them. -/
structure Settled (size : Bytes → Option Nat) : Prop where
  pos : size buf = some n → 0 < n
  le : size buf = some n → n ≤ buf.length
  append : size buf = some n → ∀ more, size (buf ++ more) = some n

theorem Settled.splits (h : Settled size) : Splits (cutting size) where
  kept {buf rest} hparse := by
    unfold cutting at hparse
    split at hparse
    · exact (congrArg Prod.snd hparse).symm
    · cases hparse
  taken {buf rest out} hparse := by
    unfold cutting at hparse
    split at hparse
    · cases hparse
    · rename_i n hsize
      cases hparse
      exact ⟨n, h.pos hsize, h.le hsize, rfl⟩
  settled {buf} hparse more := by
    unfold cutting at hparse ⊢
    cases hsize : size buf with
    | none => rw [hsize] at hparse; exact absurd rfl hparse
    | some n =>
      rw [h.append hsize]
      dsimp only
      rw [List.take_append_of_le_length (h.le hsize), List.drop_append_of_le_length (h.le hsize)]

theorem run_cutting_none {size : Bytes → Option Nat} (h : size buf = none) :
    run (ofParser (cutting size)) () buf = ([], .waiting () buf) := by
  have hmore : ofParser (cutting size) () buf = .more () := by simp only [ofParser, cutting, h]
  exact run_more hmore

theorem two_at_append (h : i + 2 ≤ buf.length) (more : Bytes) :
    ((buf ++ more).drop i).take 2 = (buf.drop i).take 2 := by
  rw [List.drop_append_of_le_length (by omega),
    List.take_append_of_le_length (by rw [List.length_drop]; omega)]

theorem frameSize_settled : Settled frameSize where
  pos {buf n} h := by
    unfold frameSize at h
    grind
  le {buf n} h := by
    unfold frameSize at h
    grind
  append {buf n} h more := by
    have hhead : buf ≠ [] → (buf ++ more).head? = buf.head? := fun hne => by
      obtain ⟨b, t, rfl⟩ := List.exists_cons_of_ne_nil hne
      rfl
    unfold frameSize at h ⊢
    split at h
    · rename_i hdollar
      have hne : buf ≠ [] := by
        rintro rfl
        cases hdollar
      split at h
      · cases h
      · rename_i hfour
        dsimp only at h ⊢
        rw [if_pos ((hhead hne).trans hdollar), if_neg (by rw [List.length_append]; omega),
          two_at_append (by omega)]
        split at h
        · cases h
        · rw [if_neg (by rw [List.length_append]; omega)]
          exact h
    · rename_i hdollar
      split at h
      · rename_i htwo
        have hne : buf ≠ [] := by
          rintro rfl
          cases htwo
        have htake : (buf ++ more).take 2 = buf.take 2 := List.take_append_of_le_length htwo
        dsimp only at h ⊢
        rw [if_neg (by rw [hhead hne]; exact hdollar), if_pos (by rw [List.length_append]; omega),
          htake]
        split at h
        · cases h
        · rw [if_neg (by rw [List.length_append]; omega)]
          exact h
      · cases h

theorem isEhomePrefix_append (h : isEhomePrefix part = true) (more : Bytes) :
    isEhomePrefix (part ++ more) = true := by
  unfold isEhomePrefix at h
  split at h
  · exact h
  · cases h

/-- The driver does not bound what waits in its buffer. -/
def unbounded (_ _ : Nat) : Except Empty Unit := .ok ()

theorem fits_unbounded (messages : List Bytes) (seen : Nat) (pieces : List Bytes) :
    Framing.Fits unbounded messages seen pieces := by
  induction pieces generalizing seen with
  | nil => trivial
  | cons piece pieces ih => exact ⟨rfl, ih _⟩

/-- Reading is decoding as soon as the connection is known not to speak Ehome. -/
theorem TcpReader.readAll_checked (remaining : Bytes) (pieces : List Bytes) :
    readAll { remaining, checkedEhome := true } pieces =
      (Framing.decodeAll unbounded (cutting frameSize) remaining pieces).1 := by
  induction pieces generalizing remaining with
  | nil => rfl
  | cons piece pieces ih =>
    rw [readAll, Framing.decodeAll]
    dsimp only [unbounded]
    unfold read
    dsimp only
    rw [if_neg (by simp), if_pos rfl, if_neg (by simp)]
    rcases run (ofParser (cutting frameSize)) () (remaining ++ piece) with ⟨chunks, _ | e⟩
    · dsimp only [Halt.rest]
      rw [ih]
    · exact e.elim

/-- The check for Ehome holds back two bytes at most, which are no frame. -/
theorem TcpReader.readAll_eq (remaining : Bytes) (pieces : List Bytes)
    (hsize : ∀ n, frameSize (remaining ++ pieces.flatten) = some n → 3 ≤ n)
    (hehome : isEhomePrefix (remaining ++ pieces.flatten) = false) :
    readAll { remaining } pieces =
      (Framing.decodeAll unbounded (cutting frameSize) remaining pieces).1 := by
  induction pieces generalizing remaining with
  | nil => rfl
  | cons piece pieces ih =>
    rw [List.flatten_cons, ← List.append_assoc] at hsize hehome
    by_cases hshort : (remaining ++ piece).length < 3
    · have hnone : frameSize (remaining ++ piece) = none := by
        cases hfound : frameSize (remaining ++ piece) with
        | none => rfl
        | some n =>
          have hthree := hsize n (frameSize_settled.append hfound _)
          have hle := frameSize_settled.le hfound
          omega
      have hread : read { remaining } piece = ([], { remaining := remaining ++ piece }) := by
        unfold read
        dsimp only
        rw [if_pos ⟨by simp, hshort⟩]
      rw [readAll, hread, Framing.decodeAll]
      dsimp only [unbounded]
      rw [run_cutting_none hnone]
      exact ih _ hsize hehome
    · have hplain : isEhomePrefix (remaining ++ piece) = false := by
        by_contra h
        rw [isEhomePrefix_append (Bool.eq_true_of_not_eq_false h)] at hehome
        cases hehome
      have hread : read { remaining } piece = read { remaining, checkedEhome := true } piece := by
        have hunchecked : ¬(¬false = true ∧ (remaining ++ piece).length < 3) := fun h => hshort h.2
        have hchecked : ¬(¬true = true ∧ (remaining ++ piece).length < 3) := fun h => h.1 rfl
        unfold read
        dsimp only
        rw [if_neg hunchecked, if_neg hchecked, hplain]
        rfl
      rw [readAll, hread, ← readAll, readAll_checked]

/-- A frame that the driver cuts off at its end and the core reads back. -/
structure Carries (frame : Bytes) (packet : RtpPacket) : Prop where
  size : ∀ more, frameSize (frame ++ more) = some frame.length
  plain : ∀ more, isEhomePrefix (frame ++ more) = false
  parse : (parseTcpRtpFrameWith frame .autoDetect).map (fun x => (x.packet, x.consumed)) =
    some (packet, frame.length)
  long : 3 ≤ frame.length

theorem Carries.delimits (h : Carries frame packet) :
    Framing.Delimits (cutting frameSize) frame frame := fun more => by
  unfold cutting
  rw [h.size more]
  dsimp only
  rw [List.take_left, List.drop_left]

namespace TcpSink
variable {σ : Type} {sink : TcpSink σ}

theorem Carries.fed (h : Carries frame packet) (hs : sink.latched s = false) :
    sink.processTcpBytes .autoDetect s frame = sink.feed s packet := by
  obtain ⟨parsed, hparse, heq⟩ := Option.map_eq_some_iff.mp h.parse
  obtain ⟨rfl, hconsumed⟩ := Prod.mk.inj heq
  have hplain := h.plain []
  rw [List.append_nil] at hplain
  obtain ⟨n, hn⟩ : ∃ n, frame.length = n + 1 := ⟨frame.length - 1, by have := h.long; omega⟩
  have hne : frame ≠ [] := by
    rintro rfl
    cases hn
  rw [processTcpBytes, hs, hplain, Bool.or_self, if_neg Bool.false_ne_true, hn, deframe, if_neg hne,
    hparse]
  dsimp only
  rw [hconsumed, List.drop_length]
  cases n with
  | zero => rfl
  | succ n => rw [deframe, if_pos rfl]

theorem foldl_logged {items : List (Bytes × RtpPacket)} (h : ∀ x ∈ items, Carries x.1 x.2)
    (hs : sink.latched s = false) :
    ((items.map (·.1)).foldl (sink.logged.processTcpBytes .autoDetect) (s, log)).2 =
      log ++ items.map (·.2) := by
  induction items generalizing s log with
  | nil => exact (List.append_nil log).symm
  | cons x items ih =>
    have hlatched' : sink.logged.latched (s, log) = false := hs
    have hfed := Carries.fed (h x List.mem_cons_self) hlatched'
    have hlatched : sink.latched (sink.feed s x.2) = false := sink.feed_latched.trans hs
    rw [List.map_cons, List.foldl_cons, hfed, List.map_cons, List.append_cons]
    exact ih (fun y hy => h y (List.mem_cons_of_mem _ hy)) hlatched

/-- Frames that are carried are handed over as they are, however their bytes are cut. -/
theorem handed_frames {items : List (Bytes × RtpPacket)} (h : ∀ x ∈ items, Carries x.1 x.2)
    (hs : sink.latched s = false) (hpieces : pieces.flatten = (items.map (·.1)).flatten) :
    sink.handed s pieces = items.map (·.2) := by
  have hstream : (∀ n, frameSize ([] ++ pieces.flatten) = some n → 3 ≤ n) ∧
      isEhomePrefix ([] ++ pieces.flatten) = false := by
    rw [List.nil_append, hpieces]
    cases items with
    | nil => exact ⟨fun n hn => (by cases hn), rfl⟩
    | cons x items =>
      have hx := h x List.mem_cons_self
      rw [List.map_cons, List.flatten_cons]
      refine ⟨fun n hn => ?_, hx.plain _⟩
      cases (hx.size _).symm.trans hn
      exact hx.long
  have hframes : ∀ y ∈ items.map (fun x => (x.1, x.1)),
      Framing.Delimits (cutting frameSize) y.1 y.2 := fun y hy => by
    obtain ⟨x, hx, rfl⟩ := List.mem_map.mp hy
    exact (h x hx).delimits
  have hbytes : (items.map fun x => (x.1, x.1)).map (·.1) = items.map (·.1) := by
    rw [List.map_map]
    rfl
  have hchunks : TcpReader.readAll {} pieces = items.map (·.1) := by
    have hdecoded := (Framing.decodeAll_iff frameSize_settled.splits rfl
      (fun y hy _ _ _ => hframes y hy) (by rw [hbytes]; exact hpieces)
      (fits_unbounded _ 0 pieces)).mpr hframes
    rw [TcpReader.readAll_eq [] pieces hstream.1 hstream.2, hdecoded, List.map_map]
    rfl
  rw [handed, hchunks, foldl_logged h hs]
  rfl

end TcpSink

theorem isEhomePrefix_encode (p : RtpPacket) (b0 b1 : UInt8) (more : Bytes) :
    isEhomePrefix (b0 :: b1 :: (p.encode ++ more)) = false := by
  have hfirst : ∀ v : UInt8, (v &&& 0x03) <<< 6 ≠ 0x01 ∧ (v &&& 0x03) <<< 6 ≠ 0x02 :=
    forall_byte (by decide +kernel)
  have hthird := hfirst p.header.version
  unfold RtpPacket.encode RtpHeader.encode
  simp [isEhomePrefix, hthird.1, hthird.2]

theorem isEhomePrefix_dollar (more : Bytes) : isEhomePrefix (DOLLAR :: more) = false := by
  unfold isEhomePrefix
  split
  · rename_i heq
    cases heq
    rfl
  · rfl

theorem carries_twoByte {p : RtpPacket} (h : p.Framed) :
    Carries (encodeTcpRtpFrame p) p.sent where
  size more := by
    have hlen := u16_length h.length
    have htwo : (encodeTcpRtpFrame p ++ more).take 2 = toBigEndian 2 p.encode.length := by
      unfold encodeTcpRtpFrame
      rw [List.append_assoc]
      exact List.take_left' (toBigEndian_length ..)
    have hlength : (encodeTcpRtpFrame p).length = 2 + p.encode.length := by
      simp only [encodeTcpRtpFrame, List.length_append, toBigEndian_length]
    unfold frameSize
    dsimp only
    rw [if_neg (h.head_ne more), htwo, hlen, List.length_append, hlength, if_pos (by omega),
      if_neg (by omega)]
  plain more := by
    unfold encodeTcpRtpFrame
    rw [List.append_assoc]
    exact isEhomePrefix_encode p _ _ more
  parse := by
    have hparse := h.parse []
    rw [List.append_nil] at hparse
    rw [hparse]
    simp only [encodeTcpRtpFrame, Option.map_some, List.length_append, toBigEndian_length]
  long := by
    simp only [encodeTcpRtpFrame, List.length_append, toBigEndian_length, RtpPacket.encode_length]
    omega

theorem carries_interleaved {p : RtpPacket} (h : p.encode.length ≤ 65535) (channel : UInt8) :
    Carries (encodeInterleavedRtpFrame p channel) p.sent where
  size more := by
    have hlen := u16_length h
    have htwo : ((encodeInterleavedRtpFrame p channel ++ more).drop 2).take 2 =
        toBigEndian 2 p.encode.length := by
      unfold encodeInterleavedRtpFrame
      rw [List.cons_append, List.cons_append, List.drop_succ_cons, List.drop_succ_cons,
        List.drop_zero, List.append_assoc]
      exact List.take_left' (toBigEndian_length ..)
    have hlength : (encodeInterleavedRtpFrame p channel).length = 4 + p.encode.length := by
      simp only [encodeInterleavedRtpFrame, List.length_append, List.length_cons, toBigEndian_length]
      omega
    have hdollar : (encodeInterleavedRtpFrame p channel ++ more).head? = some DOLLAR := rfl
    unfold frameSize
    dsimp only
    rw [if_pos hdollar, htwo, hlen, List.length_append, hlength, if_neg (by omega),
      if_neg (by omega)]
  plain more := isEhomePrefix_dollar _
  parse := by
    have hparse := parse_encodeInterleavedRtpFrame h channel []
    rw [List.append_nil] at hparse
    rw [hparse]
    simp only [encodeInterleavedRtpFrame, Option.map_some, List.length_append, List.length_cons,
      toBigEndian_length, Option.some.injEq, Prod.mk.injEq, true_and]
    omega
  long := by
    simp only [encodeInterleavedRtpFrame, List.length_append, List.length_cons,
      toBigEndian_length, RtpPacket.encode_length]
    omega

namespace TcpSink
variable {σ : Type} {sink : TcpSink σ}

theorem recover_length {known : UInt32 → Bool}
    (h : recover known framing remaining = some (found, rest)) :
    rest.length ≤ remaining.length ∧
      ∀ p, found = some p → 14 + p.payload.length ≤ remaining.length := by
  obtain ⟨offset, -, hoffset⟩ := List.exists_of_findSome?_eq_some h
  have hdrop : (remaining.drop offset).length ≤ remaining.length := by
    rw [List.length_drop]
    exact Nat.sub_le ..
  have hpack : (if isPackHeader (remaining.drop offset) = true then
      some ((none : Option RtpPacket), remaining.drop offset) else none) = some (found, rest) →
      rest.length ≤ remaining.length ∧
        ∀ p, found = some p → 14 + p.payload.length ≤ remaining.length := by
    intro hpack
    split at hpack
    · cases hpack
      exact ⟨hdrop, fun p hp => by cases hp⟩
    · cases hpack
  dsimp only at hoffset
  split at hoffset
  · rename_i parsed hparse
    split at hoffset
    · cases hoffset
      obtain ⟨hlong, hle⟩ := parseTcpRtpFrameWith_length hparse
      constructor
      · rw [List.length_drop]
        omega
      · intro p hp
        cases hp
        omega
    · exact hpack hoffset
  · exact hpack hoffset

/-- What a chunk hands over was in it, under a header and a length. -/
theorem deframe_length (fuel : Nat) (data : Bytes)
    (h : p ∈ (sink.logged.deframe framing fuel s data).2) :
    p ∈ s.2 ∨ 14 + p.payload.length ≤ data.length := by
  induction fuel generalizing s data with
  | zero => exact .inl h
  | succ fuel ih =>
    rw [deframe] at h
    split at h
    · exact .inl h
    · split at h
      · rename_i parsed hparse
        obtain ⟨hlong, hle⟩ := parseTcpRtpFrameWith_length hparse
        rcases ih _ h with hp | hp
        · rcases List.mem_append.mp hp with hp | hp
          · exact .inl hp
          · obtain rfl := List.mem_singleton.mp hp
            exact .inr (by omega)
        · rw [List.length_drop] at hp
          exact .inr (by omega)
      · split at h
        · exact .inl h
        · split at h
          · exact .inl h
          · rename_i hfound
            have hrest := (recover_length hfound).1
            exact (ih _ h).imp_right fun hp => by omega
          · rename_i packet rest hfound
            obtain ⟨hrest, hpacket⟩ := recover_length hfound
            rcases ih _ h with hp | hp
            · rcases List.mem_append.mp hp with hp | hp
              · exact .inl hp
              · obtain rfl := List.mem_singleton.mp hp
                exact .inr (hpacket _ rfl)
            · exact .inr (by omega)

theorem foldl_length (chunks : List Bytes)
    (h : p ∈ (chunks.foldl (sink.logged.processTcpBytes framing) s).2) :
    p ∈ s.2 ∨ ∃ c ∈ chunks, 14 + p.payload.length ≤ c.length := by
  induction chunks generalizing s with
  | nil => exact .inl h
  | cons c chunks ih =>
    rcases ih h with hp | ⟨d, hd, hp⟩
    · rw [processTcpBytes] at hp
      split at hp
      · exact .inl hp
      · exact (deframe_length _ _ hp).imp_right fun hp => ⟨c, List.mem_cons_self, hp⟩
    · exact .inr ⟨d, List.mem_cons_of_mem _ hd, hp⟩

end TcpSink

theorem run_cutting_length (h : Settled size) (buf : Bytes)
    (hc : c ∈ (run (ofParser (cutting size)) () buf).1) : c.length ≤ buf.length := by
  induction hlen : buf.length using Nat.strongRecOn generalizing buf with
  | ind len ih =>
    cases hsize : size buf with
    | none =>
      rw [run_cutting_none hsize] at hc
      cases hc
    | some n =>
      have hparse : cutting size buf = (.ok (some (buf.take n)), buf.drop n) := by
        rw [cutting, hsize]
      obtain ⟨m, hpos, hle, hdrop, hdone⟩ := ofParser_done h.splits hparse
      rw [run_done (ofParser_segmentable h.splits) hdone] at hc
      rcases List.mem_cons.mp hc with rfl | hc
      · rw [List.length_take]
        omega
      · have hshort : (buf.drop m).length < len := by
          rw [List.length_drop]
          omega
        have := ih _ hshort (buf.drop m) hc rfl
        omega

/-- A 2-byte length that begins with a `$` is taken for the other form, with the first bytes
of the header for its length. -/
theorem frameSize_dollar {p : RtpPacket} (hlength : p.encode.length ≤ 65535)
    (hfirst : p.encode.length / 256 = DOLLAR.toNat)
    (h : frameSize (encodeTcpRtpFrame p) = some n) : 4 ≤ n ∧ n ≤ 259 := by
  have hversion : ∀ v : UInt8, (v &&& 0x03) <<< 6 = 0 ∨ 64 ≤ ((v &&& 0x03) <<< 6).toNat :=
    forall_byte (by decide +kernel)
  have hdollar : (encodeTcpRtpFrame p).head? = some DOLLAR := by
    have hhead := head_encodeTcpRtpFrame p []
    rw [List.append_nil] at hhead
    rw [hhead, hfirst]
    rfl
  have htotal : (encodeTcpRtpFrame p).length = 2 + p.encode.length := by
    simp only [encodeTcpRtpFrame, List.length_append, toBigEndian_length]
  obtain ⟨b1, hlen⟩ : ∃ b1, ((encodeTcpRtpFrame p).drop 2).take 2 =
      [(p.header.version &&& 0x03) <<< 6, b1] := ⟨_, rfl⟩
  have hsmall : p.encode.length < 16384 := by
    have : DOLLAR.toNat = 36 := rfl
    omega
  unfold frameSize at h
  dsimp only at h
  rw [if_pos hdollar, hlen, htotal] at h
  have hb1 := b1.toNat_lt
  rcases hversion p.header.version with hzero | hbig
  · rw [hzero] at h
    simp only [fromBigEndian, UInt8.toNat_zero, List.length_cons, List.length_nil, Nat.zero_mul,
      Nat.zero_add, Nat.pow_zero, Nat.mul_one, Nat.add_zero] at h
    split at h
    · cases h
    · split at h
      · cases h
      · cases h
        omega
  · simp only [fromBigEndian, List.length_cons, List.length_nil, Nat.zero_add, Nat.pow_one,
      Nat.pow_zero, Nat.mul_one, Nat.add_zero] at h
    split at h
    · cases h
    · split at h
      · cases h
      · omega

/-- Such a packet is not handed over, whatever else may be found in its bytes. -/
theorem TcpSink.not_mem_handed (sink : TcpSink σ) (s : σ) {p : RtpPacket}
    (hlength : p.encode.length ≤ 65535) (hfirst : p.encode.length / 256 = DOLLAR.toNat) :
    p ∉ sink.handed s [encodeTcpRtpFrame p] := by
  intro hp
  have htotal : (encodeTcpRtpFrame p).length = 2 + p.encode.length := by
    simp only [encodeTcpRtpFrame, List.length_append, toBigEndian_length]
  have hlarge : 9216 ≤ p.encode.length := by
    have : DOLLAR.toNat = 36 := rfl
    omega
  have hplain : isEhomePrefix (encodeTcpRtpFrame p) = false := isEhomePrefix_encode p _ _ [] ▸ by
    rw [List.append_nil]
    rfl
  have hchunks : TcpReader.readAll {} [encodeTcpRtpFrame p] =
      (run (ofParser (cutting frameSize)) () (encodeTcpRtpFrame p)).1 := by
    rw [TcpReader.readAll_eq [] _ (fun n hn => ?_) (by simpa using hplain)]
    · rw [Framing.decodeAll, List.nil_append]
      dsimp only [unbounded]
      rcases run (ofParser (cutting frameSize)) () (encodeTcpRtpFrame p) with ⟨chunks, _ | e⟩
      · exact List.append_nil chunks
      · exact e.elim
    · have := frameSize_dollar hlength hfirst (by simpa using hn)
      omega
  rcases foldl_length _ hp with hp | ⟨c, hc, hp⟩
  · cases hp
  · rw [hchunks] at hc
    have henc := p.encode_length
    cases hsize : frameSize (encodeTcpRtpFrame p) with
    | none =>
      rw [run_cutting_none hsize] at hc
      cases hc
    | some n =>
      have hn := frameSize_dollar hlength hfirst hsize
      have hparse : cutting frameSize (encodeTcpRtpFrame p) =
          (.ok (some ((encodeTcpRtpFrame p).take n)), (encodeTcpRtpFrame p).drop n) := by
        rw [cutting, hsize]
      have hsplits := frameSize_settled.splits
      obtain ⟨m, -, -, hrest, hdone⟩ := ofParser_done hsplits hparse
      rw [run_done (ofParser_segmentable hsplits) hdone, ← hrest] at hc
      rcases List.mem_cons.mp hc with rfl | hc
      · rw [List.length_take] at hp
        omega
      · have := run_cutting_length frameSize_settled _ hc
        rw [List.length_drop] at this
        omega

/-- A class of packets comes through the 2-byte framing, in any order and any cutting, if and
only if their fields have room and no encoded length begins with the byte of a `$`; it comes
through the interleaved framing if and only if the fields have room. -/
theorem deframed_iff (sink : TcpSink σ) (s : σ) (hs : sink.latched s = false)
    (K : RtpPacket → Prop) (hK : ∀ p, K p → p.encode.length ≤ 65535) :
    ((∀ packets pieces, (∀ p ∈ packets, K p) →
        pieces.flatten = (packets.map encodeTcpRtpFrame).flatten →
        sink.handed s pieces = packets) ↔
      ∀ p, K p → p.header.Fits ∧ p.encode.length / 256 ≠ DOLLAR.toNat) ∧
    ((∀ (packets : List (RtpPacket × UInt8)) pieces, (∀ x ∈ packets, K x.1) →
        pieces.flatten = (packets.map fun x => encodeInterleavedRtpFrame x.1 x.2).flatten →
        sink.handed s pieces = packets.map (·.1)) ↔
      ∀ p, K p → p.header.Fits) := by
  refine ⟨⟨fun h p hp => ?_, fun h packets pieces hpackets hpieces => ?_⟩,
    ⟨fun h p hp => ?_, fun h packets pieces hpackets hpieces => ?_⟩⟩
  · have hone := h [p] [encodeTcpRtpFrame p] (List.forall_mem_singleton.mpr hp) rfl
    have hfirst : p.encode.length / 256 ≠ DOLLAR.toNat := fun hfirst =>
      sink.not_mem_handed s (hK p hp) hfirst (hone ▸ List.mem_singleton.mpr rfl)
    have hframed : p.Framed := ⟨hK p hp, hfirst⟩
    have hsent : sink.handed s [encodeTcpRtpFrame p] = [(encodeTcpRtpFrame p, p.sent)].map (·.2) :=
      TcpSink.handed_frames (List.forall_mem_singleton.mpr (carries_twoByte hframed)) hs rfl
    rw [hone] at hsent
    exact ⟨RtpPacket.sent_eq_iff.mp (List.singleton_inj.mp hsent).symm, hfirst⟩
  · have hcarries : ∀ x ∈ packets.map (fun p => (encodeTcpRtpFrame p, p)), Carries x.1 x.2 := by
      intro x hx
      obtain ⟨p, hp, rfl⟩ := List.mem_map.mp hx
      obtain ⟨hfits, hfirst⟩ := h p (hpackets p hp)
      have hframe := carries_twoByte ⟨hK p (hpackets p hp), hfirst⟩
      rwa [RtpPacket.sent_eq_iff.mpr hfits] at hframe
    have hhanded := TcpSink.handed_frames hcarries hs (hpieces.trans (by rw [List.map_map]; rfl))
    rw [hhanded, List.map_map]
    exact List.map_id packets
  · have hone := h [(p, 0)] [encodeInterleavedRtpFrame p 0] (List.forall_mem_singleton.mpr hp) rfl
    have hsent : sink.handed s [encodeInterleavedRtpFrame p 0] =
        [(encodeInterleavedRtpFrame p 0, p.sent)].map (·.2) :=
      TcpSink.handed_frames (List.forall_mem_singleton.mpr (carries_interleaved (hK p hp) 0)) hs rfl
    rw [hone] at hsent
    exact RtpPacket.sent_eq_iff.mp (List.singleton_inj.mp hsent).symm
  · have hcarries : ∀ x ∈ packets.map (fun x => (encodeInterleavedRtpFrame x.1 x.2, x.1)),
        Carries x.1 x.2 := by
      intro y hy
      obtain ⟨x, hx, rfl⟩ := List.mem_map.mp hy
      have hframe := carries_interleaved (hK x.1 (hpackets x hx)) x.2
      rwa [RtpPacket.sent_eq_iff.mpr (h x.1 (hpackets x hx))] at hframe
    have hhanded := TcpSink.handed_frames hcarries hs (hpieces.trans (by rw [List.map_map]; rfl))
    rw [hhanded, List.map_map]
    rfl

/-- A core that only takes packets. -/
def quietSink : TcpSink Unit where
  latched _ := false
  known _ _ := false
  ehome s _ := s
  resync s _ := s
  feed s _ := s
  feed_latched := rfl

def samplePacket (payload : Bytes) : RtpPacket :=
  { header := { version := 2, payloadType := 96, sequenceNumber := 7, timestamp := 3000,
                ssrc := 1234, marker := true }
    payload }

theorem deframed_samples :
    quietSink.handed () ([[0x00], [0x0E, 0x80, 0xE0], [0x00, 0x07, 0x00, 0x00, 0x0B, 0xB8, 0x00,
      0x00, 0x04, 0xD2, 0x41], [0x42]] : List Bytes) = [samplePacket [0x41, 0x42]] ∧
    quietSink.handed () [encodeInterleavedRtpFrame (samplePacket [0x41, 0x42]) 5] =
      [samplePacket [0x41, 0x42]] := by
  have hfits : (samplePacket [0x41, 0x42]).header.Fits := ⟨by decide, by decide⟩
  have h := deframed_iff quietSink () rfl (· = samplePacket [0x41, 0x42])
    (fun p hp => by subst hp; decide)
  constructor
  · refine h.1.mpr (fun p hp => ?_) [samplePacket [0x41, 0x42]] _
      (List.forall_mem_singleton.mpr rfl) (by decide)
    subst hp
    exact ⟨hfits, by decide⟩
  · exact h.2.mpr (fun p hp => hp ▸ hfits) [(samplePacket [0x41, 0x42], 5)] _
      (List.forall_mem_singleton.mpr rfl) rfl

/-- A packet of 9216 bytes, whose length begins with the byte of a `$`. -/
theorem packet_lost_behind_dollar :
    let p := samplePacket (List.replicate 9204 0)
    p.header.Fits ∧ 12 ≤ p.encode.length ∧ p.encode.length ≤ 65535 ∧
      quietSink.handed () [encodeTcpRtpFrame p] ≠ [p] := by
  intro p
  have hlength : p.encode.length = 9216 := by
    rw [RtpPacket.encode_length]
    exact congrArg (12 + ·) List.length_replicate
  have hlost := quietSink.not_mem_handed () (p := p) (by omega) (by rw [hlength]; rfl)
  refine ⟨⟨show (2 : UInt8) < 4 by decide, show (96 : UInt8) < 128 by decide⟩, by omega, by omega,
    fun h => ?_⟩
  rw [h] at hlost
  exact hlost (List.mem_singleton.mpr rfl)

end CheetahMedia.Rtp
