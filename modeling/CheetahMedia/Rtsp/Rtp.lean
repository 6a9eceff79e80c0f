import CheetahMedia.Codec.Rtp
import CheetahMedia.Rtsp.Message

namespace CheetahMedia.Rtsp
open Lib

inductive RtpError
  | unsupportedVersion (actual : UInt8)
  | insufficientData (context : String) (needed actual : Nat)
  | invalidPadding (paddingSize : UInt8) (available : Nat)

structure RtpHeader where
  version : UInt8
  padding : Bool
  extension : Bool
  csrcCount : UInt8
  marker : Bool
  payloadType : UInt8
  sequenceNumber : UInt16
  timestamp : UInt32
  ssrc : UInt32
  csrc : List UInt32

structure RtpExtension where
  profile : UInt16
  data : Bytes

structure RtpPacket where
  header : RtpHeader
  extension : Option RtpExtension
  payload : Bytes
  paddingSize : UInt8

/-- The 32-bit words of a byte string. -/
def words : Bytes → List UInt32
  | a :: b :: c :: d :: rest => UInt32.ofNat (fromBigEndian [a, b, c, d]) :: words rest
  | _ => []

/-- The extension at the offset, and the offset behind it. -/
def parseExtension (data : Bytes) (hasExtension : Bool) (offset : Nat) :
    Except RtpError (Option RtpExtension × Nat) :=
  if hasExtension then
    if data.length < offset + 4 then
      .error (.insufficientData "rtp extension header" (offset + 4) data.length)
    else
      let profile := UInt16.ofNat (fromBigEndian ((data.drop offset).take 2))
      let lengthWords := fromBigEndian ((data.drop (offset + 2)).take 2)
      let offset := offset + 4
      let extensionSize := lengthWords * 4
      if data.length < offset + extensionSize then
        .error (.insufficientData "rtp extension payload" (offset + extensionSize) data.length)
      else
        .ok (some { profile, data := (data.drop offset).take extensionSize }, offset + extensionSize)
  else .ok (none, offset)

/-- The payload without the padding, and the size of the padding. -/
def parsePayload (remaining : Bytes) (padding : Bool) : Except RtpError (Bytes × UInt8) :=
  if padding then
    match remaining.getLast? with
    | none => .error (.invalidPadding 0 0)
    | some paddingSize =>
      if paddingSize = 0 ∨ remaining.length < paddingSize.toNat then
        .error (.invalidPadding paddingSize remaining.length)
      else .ok (remaining.take (remaining.length - paddingSize.toNat), paddingSize)
  else .ok (remaining, 0)

def RtpPacket.parse (data : Bytes) : Except RtpError RtpPacket :=
  match data with
  | first :: second :: s0 :: s1 :: t0 :: t1 :: t2 :: t3 :: c0 :: c1 :: c2 :: c3 :: rest =>
    let version := first >>> 6
    if version ≠ 2 then .error (.unsupportedVersion version)
    else
      let padding : Bool := first &&& 0x20 ≠ 0
      let hasExtension : Bool := first &&& 0x10 ≠ 0
      let csrcCount := first &&& 0x0F
      let csrcBytes := csrcCount.toNat * 4
      let offset := 12
      if data.length < offset + csrcBytes then
        .error (.insufficientData "csrc list" (offset + csrcBytes) data.length)
      else do
        let (extension, offset) ← parseExtension data hasExtension (offset + csrcBytes)
        let (payload, paddingSize) ← parsePayload (data.drop offset) padding
        .ok {
          header := {
            version, padding, extension := hasExtension, csrcCount
            marker := second &&& 0x80 ≠ 0
            payloadType := second &&& 0x7F
            sequenceNumber := UInt16.ofNat (fromBigEndian [s0, s1])
            timestamp := UInt32.ofNat (fromBigEndian [t0, t1, t2, t3])
            ssrc := UInt32.ofNat (fromBigEndian [c0, c1, c2, c3])
            csrc := words (rest.take csrcBytes) }
          extension, payload, paddingSize }
  | _ => .error (.insufficientData "rtp fixed header" 12 data.length)

/-- The fields that both parsers report. -/
structure SameFields (p : Codec.RtpPacket) (q : RtpPacket) : Prop where
  marker : p.header.marker = q.header.marker
  payloadType : p.header.payloadType = q.header.payloadType
  sequenceNumber : p.header.sequenceNumber = q.header.sequenceNumber
  timestamp : p.header.timestamp = q.header.timestamp
  ssrc : p.header.ssrc = q.header.ssrc
  payload : p.payload = q.payload

/-- The padding flag is set, but the padding counts no bytes, not even its own. -/
def ZeroPadding (raw : Bytes) : Prop := raw.headD 0 &&& 0x20 ≠ 0 ∧ raw.getLast? = some 0

/-- The codec's header ends where the extension does. -/
theorem codec_header
    (h : raw = a :: b :: s0 :: s1 :: t0 :: t1 :: t2 :: t3 :: c0 :: c1 :: c2 :: c3 :: rest)
    (hcsrc : ¬raw.length < 12 + (a &&& 0x0F).toNat * 4) :
    Codec.RtpHeader.parse raw =
      match parseExtension raw (decide (a &&& 0x10 ≠ 0)) (12 + (a &&& 0x0F).toNat * 4) with
      | .error _ => none
      | .ok (_, offset) =>
        if a &&& 0x20 ≠ 0 ∧ raw.length ≤ offset then none
        else some ({
          version := a >>> 6
          payloadType := b &&& 0x7F
          sequenceNumber := UInt16.ofNat (fromBigEndian [s0, s1])
          timestamp := UInt32.ofNat (fromBigEndian [t0, t1, t2, t3])
          ssrc := UInt32.ofNat (fromBigEndian [c0, c1, c2, c3])
          marker := b &&& 0x80 ≠ 0 }, offset) := by
  subst h
  unfold Codec.RtpHeader.parse parseExtension
  dsimp only at hcsrc ⊢
  rw [if_neg hcsrc]
  by_cases hextension : a &&& 0x10 ≠ 0
  · rw [if_pos hextension, if_pos (decide_eq_true hextension)]
    split
    · rfl
    · rw [← Nat.add_assoc]
      split <;> rfl
  · rw [if_neg hextension, if_neg fun h => hextension (of_decide_eq_true h)]

/-- An extension ends inside the packet. -/
theorem parseExtension_le (h : parseExtension data present offset = .ok (ext, end'))
    (hoffset : ¬data.length < offset) : end' ≤ data.length := by
  unfold parseExtension at h
  split at h
  · split at h
    · cases h
    · dsimp only at h
      split at h
      · cases h
      · cases h
        omega
  · cases h
    omega

/-- What the codec takes for the payload behind a header that ends at the offset. -/
def codecPayload (data : Bytes) (padding : Bool) (offset : Nat) : Option Bytes :=
  if padding then
    if data.length ≤ offset then none
    else
      match data.getLast? with
      | none => none
      | some padLen =>
        if data.length - offset < padLen.toNat then none
        else some ((data.take (data.length - padLen.toNat)).drop offset)
  else some (data.drop offset)

theorem parsePayload_of_codec (h : codecPayload data padding offset = some payload)
    (hzero : ¬(padding ∧ data.getLast? = some 0)) :
    ∃ size, parsePayload (data.drop offset) padding = .ok (payload, size) := by
  unfold codecPayload at h
  unfold parsePayload
  cases padding with
  | false =>
    cases h
    exact ⟨0, rfl⟩
  | true =>
    simp only [if_true] at h ⊢
    split at h
    · cases h
    · rename_i hlong
      rw [List.getLast?_drop, if_neg hlong]
      split at h
      · cases h
      · rename_i padLen hlast
        split at h
        · cases h
        · rename_i hfits
          cases h
          have hne : padLen ≠ 0 := by
            intro heq
            exact hzero ⟨rfl, heq ▸ hlast⟩
          have hleft :
              data.length - padLen.toNat - offset = data.length - offset - padLen.toNat := by
            omega
          rw [List.length_drop, if_neg (by simp only [hne, false_or]; exact hfits),
            List.drop_take, hleft]
          exact ⟨padLen, rfl⟩

theorem codecPayload_of_parse (h : parsePayload (data.drop offset) padding = .ok (payload, size)) :
    codecPayload data padding offset = some payload ∧ ¬(padding ∧ data.getLast? = some 0) := by
  unfold parsePayload at h
  unfold codecPayload
  cases padding with
  | false =>
    cases h
    exact ⟨rfl, by simp⟩
  | true =>
    simp only [if_true] at h ⊢
    split at h
    · cases h
    · rename_i padLen hlast
      rw [List.getLast?_drop] at hlast
      split at hlast
      · cases hlast
      · rename_i hlong
        rw [if_neg hlong, hlast]
        split at h
        · cases h
        · rename_i hfits
          rw [List.length_drop] at h hfits
          rw [not_or] at hfits
          cases h
          dsimp only
          rw [if_neg hfits.2, List.drop_take]
          constructor
          · congr 2
            omega
          · rintro ⟨_, heq⟩
            exact hfits.1 (Option.some.inj heq)

/-- The codec's parser, once the header is known to end at the offset. -/
theorem codec_parse (h : Codec.RtpHeader.parse raw = some (header, offset))
    (hoffset : offset ≤ raw.length) (hlong : ¬(raw.headD 0 &&& 0x20 ≠ 0 ∧ raw.length ≤ offset)) :
    Codec.RtpPacket.parse raw =
      (codecPayload raw (decide (raw.headD 0 &&& 0x20 ≠ 0)) offset).map fun payload =>
        { header, payload } := by
  unfold Codec.RtpPacket.parse codecPayload
  rw [h]
  by_cases hpadding : raw.headD 0 &&& 0x20 ≠ 0
  · have hbehind : ¬raw.length ≤ offset := fun hle => hlong ⟨hpadding, hle⟩
    dsimp only
    rw [if_pos hpadding, if_pos (decide_eq_true hpadding), if_neg hbehind]
    cases raw.getLast? with
    | none => rfl
    | some padLen =>
      dsimp only
      by_cases hfits : raw.length - offset < padLen.toNat
      · rw [if_pos hfits]
        split
        · rfl
        · rename_i payloadEnd hend
          split at hend
          · cases hend
            rw [if_pos (by omega)]
            rfl
          · cases hend
      · rw [if_neg hfits, if_pos (by omega)]
        dsimp only
        rw [if_neg (by omega)]
        rfl
  · dsimp only
    rw [if_neg hpadding, if_neg fun h => hpadding (of_decide_eq_true h)]
    dsimp only
    rw [if_neg (by omega), List.take_length]
    rfl

/-- Both parsers refuse a packet; only the core refuses it, for its version or for padding
that counts nothing; or both accept it and report the same. -/
inductive Outcome (raw : Bytes) : Prop where
  | refused (codec : Codec.RtpPacket.parse raw = none) (core : ∀ q, RtpPacket.parse raw ≠ .ok q)
  | version (p : Codec.RtpPacket) (codec : Codec.RtpPacket.parse raw = some p)
      (other : p.header.version ≠ 2)
      (core : RtpPacket.parse raw = .error (.unsupportedVersion p.header.version))
  | padding (p : Codec.RtpPacket) (codec : Codec.RtpPacket.parse raw = some p)
      (two : p.header.version = 2) (zero : ZeroPadding raw)
      (core : ∀ q, RtpPacket.parse raw ≠ .ok q)
  | accepted (p : Codec.RtpPacket) (q : RtpPacket) (codec : Codec.RtpPacket.parse raw = some p)
      (core : RtpPacket.parse raw = .ok q) (two : p.header.version = 2)
      (nonzero : ¬ZeroPadding raw) (same : SameFields p q)

theorem codec_short (h : raw.length < 12) : Codec.RtpPacket.parse raw = none := by
  cases hparse : Codec.RtpPacket.parse raw with
  | none => rfl
  | some p =>
    have := Codec.RtpPacket.parse_length hparse
    omega

theorem core_short (h : raw.length < 12) : ∀ q, RtpPacket.parse raw ≠ .ok q := by
  intro q hq
  unfold RtpPacket.parse at hq
  split at hq
  · simp only [List.length_cons] at h
    omega
  · cases hq

theorem exists_header (h : ¬raw.length < 12) :
    ∃ a b s0 s1 t0 t1 t2 t3 c0 c1 c2 c3 rest,
      raw = a :: b :: s0 :: s1 :: t0 :: t1 :: t2 :: t3 :: c0 :: c1 :: c2 :: c3 :: rest := by
  rcases raw with _ | ⟨a, _ | ⟨b, _ | ⟨s0, _ | ⟨s1, _ | ⟨t0, _ | ⟨t1, _ | ⟨t2, _ | ⟨t3, _ |
    ⟨c0, _ | ⟨c1, _ | ⟨c2, _ | ⟨c3, rest⟩⟩⟩⟩⟩⟩⟩⟩⟩⟩⟩⟩
  iterate 12 exact absurd (by simp) h
  exact ⟨a, b, s0, s1, t0, t1, t2, t3, c0, c1, c2, c3, rest, rfl⟩

/-- The codec reports the version it finds. -/
theorem codec_version (h : Codec.RtpPacket.parse raw = some p) :
    p.header.version = raw.headD 0 >>> 6 := by
  unfold Codec.RtpPacket.parse at h
  split at h
  · cases h
  · rename_i header offset hheader
    have hversion : header.version = raw.headD 0 >>> 6 := by
      unfold Codec.RtpHeader.parse at hheader
      split at hheader
      · dsimp only at hheader
        repeat' split at hheader
        all_goals cases hheader
        all_goals rfl
      · cases hheader
    dsimp only at h
    split at h
    · cases h
    · split at h
      · cases h
      · cases h
        exact hversion

/-- The core's parser, once the contributing sources are known to be there. -/
theorem core_parse {a : UInt8}
    (h : raw = a :: b :: s0 :: s1 :: t0 :: t1 :: t2 :: t3 :: c0 :: c1 :: c2 :: c3 :: rest)
    (hversion : a >>> 6 = 2) (hcsrc : ¬raw.length < 12 + (a &&& 0x0F).toNat * 4) :
    RtpPacket.parse raw =
      match parseExtension raw (decide (a &&& 0x10 ≠ 0)) (12 + (a &&& 0x0F).toNat * 4) with
      | .error e => .error e
      | .ok (ext, offset) =>
        match parsePayload (raw.drop offset) (decide (a &&& 0x20 ≠ 0)) with
        | .error e => .error e
        | .ok (payload, paddingSize) => .ok {
          header := {
            version := a >>> 6, padding := a &&& 0x20 ≠ 0, extension := a &&& 0x10 ≠ 0
            csrcCount := a &&& 0x0F
            marker := b &&& 0x80 ≠ 0
            payloadType := b &&& 0x7F
            sequenceNumber := UInt16.ofNat (fromBigEndian [s0, s1])
            timestamp := UInt32.ofNat (fromBigEndian [t0, t1, t2, t3])
            ssrc := UInt32.ofNat (fromBigEndian [c0, c1, c2, c3])
            csrc := words (rest.take ((a &&& 0x0F).toNat * 4)) }
          extension := ext, payload, paddingSize } := by
  subst h
  unfold RtpPacket.parse
  dsimp only at hcsrc ⊢
  rw [if_neg (not_not.mpr hversion), if_neg hcsrc]
  split
  · rename_i e hextension
    rw [hextension]
    rfl
  · rename_i ext offset hextension
    rw [hextension]
    split
    · rename_i e hpayload
      simp only [bind, Except.bind, hpayload]
    · rename_i payload paddingSize hpayload
      simp only [bind, Except.bind, hpayload]

/-- The core reports the fields of the codec's packet with the payload. -/
def Reports (raw : Bytes) (p : Codec.RtpPacket) (padding : Bool) (offset : Nat) : Prop :=
  match parsePayload (raw.drop offset) padding with
  | .error _ => ∀ q, RtpPacket.parse raw ≠ .ok q
  | .ok (payload, _) => ∃ q, RtpPacket.parse raw = .ok q ∧ SameFields { p with payload } q

/-- The outcome depends on the payload alone, once the header is known. -/
theorem outcome_of_payload (hcodec : Codec.RtpPacket.parse raw =
      (codecPayload raw (decide (raw.headD 0 &&& 0x20 ≠ 0)) offset).map fun payload =>
        { header, payload })
    (hcore : Reports raw { header, payload := [] } (decide (raw.headD 0 &&& 0x20 ≠ 0)) offset)
    (hversion : header.version = 2) : Outcome raw := by
  unfold Reports at hcore
  cases hpayload : parsePayload (raw.drop offset) (decide (raw.headD 0 &&& 0x20 ≠ 0)) with
  | ok found =>
    obtain ⟨payload, size⟩ := found
    obtain ⟨hfound, hnonzero⟩ := codecPayload_of_parse hpayload
    rw [hpayload] at hcore
    obtain ⟨q, hq, hsame⟩ := hcore
    rw [hfound] at hcodec
    exact .accepted _ q hcodec hq hversion (by rwa [decide_eq_true_eq] at hnonzero) hsame
  | error e =>
    rw [hpayload] at hcore
    cases hfound : codecPayload raw (decide (raw.headD 0 &&& 0x20 ≠ 0)) offset with
    | none =>
      rw [hfound] at hcodec
      exact .refused hcodec hcore
    | some payload =>
      rw [hfound] at hcodec
      refine .padding _ hcodec hversion ?_ hcore
      by_contra hnonzero
      obtain ⟨size, hok⟩ := parsePayload_of_codec hfound (by rwa [decide_eq_true_eq])
      rw [hok] at hpayload
      cases hpayload

theorem outcome_of_version {a : UInt8}
    (h : raw = a :: b :: s0 :: s1 :: t0 :: t1 :: t2 :: t3 :: c0 :: c1 :: c2 :: c3 :: rest)
    (hversion : a >>> 6 = 2) : Outcome raw := by
  by_cases hcsrc : raw.length < 12 + (a &&& 0x0F).toNat * 4
  · refine .refused ?_ ?_
    · subst h
      unfold Codec.RtpPacket.parse Codec.RtpHeader.parse
      dsimp only
      rw [if_pos hcsrc]
    · subst h
      unfold RtpPacket.parse
      dsimp only
      rw [if_neg (not_not.mpr hversion), if_pos hcsrc]
      intro q hq
      cases hq
  have hcodec := codec_header h hcsrc
  have hcore := core_parse h hversion hcsrc
  have hfirst : raw.headD 0 = a := by rw [h]; rfl
  cases hextension :
      parseExtension raw (decide (a &&& 0x10 ≠ 0)) (12 + (a &&& 0x0F).toNat * 4) with
  | error e =>
    rw [hextension] at hcodec hcore
    refine .refused ?_ (by rw [hcore]; intro q hq; cases hq)
    unfold Codec.RtpPacket.parse
    rw [hcodec]
  | ok found =>
    obtain ⟨ext, offset⟩ := found
    have hoffset := parseExtension_le hextension hcsrc
    rw [hextension] at hcodec hcore
    dsimp only at hcodec hcore
    by_cases hempty : a &&& 0x20 ≠ 0 ∧ raw.length ≤ offset
    · rw [if_pos hempty] at hcodec
      have hpayload : parsePayload (raw.drop offset) (decide (a &&& 0x20 ≠ 0)) =
          .error (.invalidPadding 0 0) := by
        rw [List.drop_eq_nil_of_le hempty.2, decide_eq_true hempty.1]
        rfl
      refine .refused ?_ (by rw [hcore, hpayload]; intro q hq; cases hq)
      unfold Codec.RtpPacket.parse
      rw [hcodec]
    · rw [if_neg hempty] at hcodec
      refine outcome_of_payload (codec_parse hcodec hoffset (by rw [hfirst]; exact hempty)) ?_
        hversion
      unfold Reports
      rw [hcore, hfirst]
      cases parsePayload (raw.drop offset) (decide (a &&& 0x20 ≠ 0)) with
      | error e =>
        intro q hq
        cases hq
      | ok found => exact ⟨_, rfl, rfl, rfl, rfl, rfl, rfl, rfl⟩

theorem outcome (raw : Bytes) : Outcome raw := by
  by_cases hshort : raw.length < 12
  · exact .refused (codec_short hshort) (core_short hshort)
  obtain ⟨a, b, s0, s1, t0, t1, t2, t3, c0, c1, c2, c3, rest, heq⟩ := exists_header hshort
  by_cases hversion : a >>> 6 = 2
  · exact outcome_of_version heq hversion
  have hfirst : raw.headD 0 = a := by rw [heq]; rfl
  have hcore : RtpPacket.parse raw = .error (.unsupportedVersion (a >>> 6)) := by
    rw [heq]
    unfold RtpPacket.parse
    dsimp only
    rw [if_pos hversion]
  cases hcodec : Codec.RtpPacket.parse raw with
  | none => exact .refused hcodec (by rw [hcore]; intro q hq; cases hq)
  | some p =>
    have hp := codec_version hcodec
    rw [hfirst] at hp
    exact .version p hcodec (by rw [hp]; exact hversion) (by rw [hp]; exact hcore)

/-- Except on padding that counts nothing, the core accepts the packets of version 2 that the
codec accepts, and refuses the other versions, which the codec reports. Both report the same
fields. -/
theorem parsers_agree (raw : Bytes) :
    (¬ZeroPadding raw → ((∃ q, RtpPacket.parse raw = .ok q) ↔
      ∃ p, Codec.RtpPacket.parse raw = some p ∧ p.header.version = 2)) ∧
    (∀ p, Codec.RtpPacket.parse raw = some p → p.header.version ≠ 2 →
      RtpPacket.parse raw = .error (.unsupportedVersion p.header.version)) ∧
    ∀ p q, Codec.RtpPacket.parse raw = some p → RtpPacket.parse raw = .ok q →
      SameFields p q := by
  cases outcome raw with
  | refused codec core =>
    refine ⟨fun _ => ⟨?_, ?_⟩, ?_, ?_⟩
    · rintro ⟨q, hq⟩
      exact absurd hq (core q)
    · rintro ⟨p, hp, _⟩
      rw [codec] at hp
      cases hp
    · intro p hp
      rw [codec] at hp
      cases hp
    · intro p q hp
      rw [codec] at hp
      cases hp
  | version p codec other core =>
    refine ⟨fun _ => ⟨?_, ?_⟩, ?_, ?_⟩
    · rintro ⟨q, hq⟩
      rw [core] at hq
      cases hq
    · rintro ⟨p', hp', htwo⟩
      rw [codec] at hp'
      cases hp'
      exact absurd htwo other
    · intro p' hp' _
      rw [codec] at hp'
      cases hp'
      exact core
    · intro p' q _ hq
      rw [core] at hq
      cases hq
  | padding p codec two zero core =>
    refine ⟨fun hnonzero => absurd zero hnonzero, ?_, ?_⟩
    · intro p' hp' hother
      rw [codec] at hp'
      cases hp'
      exact absurd two hother
    · intro p' q _ hq
      exact absurd hq (core q)
  | accepted p q codec core two nonzero same =>
    refine ⟨fun _ => ⟨fun _ => ⟨p, codec, two⟩, fun _ => ⟨q, core⟩⟩, ?_, ?_⟩
    · intro p' hp' hother
      rw [codec] at hp'
      cases hp'
      exact absurd two hother
    · intro p' q' hp' hq'
      rw [codec] at hp'
      rw [core] at hq'
      cases hp'
      cases hq'
      exact same

/-- A packet of version 1 that the codec accepts. -/
theorem parsers_differ :
    ¬∀ raw : Bytes, (∃ p, Codec.RtpPacket.parse raw = some p) ↔
      ∃ q, RtpPacket.parse raw = .ok q := by
  intro h
  have hcodec : Codec.RtpPacket.parse [0x40, 0, 0, 1, 0, 0, 0, 2, 0, 0, 0, 3] = some {
      header := {
        version := 1, payloadType := 0, sequenceNumber := 1, timestamp := 2, ssrc := 3
        marker := false }
      payload := [] } := by
    decide +kernel
  obtain ⟨q, hq⟩ := (h _).mp ⟨_, hcodec⟩
  cases hq

end CheetahMedia.Rtsp
