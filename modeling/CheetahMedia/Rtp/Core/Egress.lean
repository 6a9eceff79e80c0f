import CheetahMedia.Lib.Transition
import CheetahMedia.Rtp.Core.Steps

namespace CheetahMedia.Rtp
open Lib Lib.Checked Codec

variable {key k : RtpSessionKey} {c c' : RtpCore} {s s' : RtpSession} {frame : AVFrame}
  {outputs : List RtpCoreOutput}

/-- The media packet of the session that is read off an output. -/
def RtpCoreOutput.packet (key : RtpSessionKey) : RtpCoreOutput → Option RtpPacket
  | .sendUdp key' _ data => if key' = key then RtpPacket.parse data else none
  | .sendTcp _ key' data => if key' = key then (parseTcpRtpFrame data).map (·.1) else none
  | _ => none

def emitted (key : RtpSessionKey) (outputs : List RtpCoreOutput) : List RtpPacket :=
  outputs.filterMap (·.packet key)

namespace RtpSession

/-- The bytes that a packet of the frame takes. -/
def packetBytes (s : RtpSession) (frame : AVFrame) : Nat :=
  if s.isRawAudio frame then
    g711ChunkBytes (frameClockRate frame) (max (s.packetDurationMs.getD 20) 1)
  else 1388

def packetCount (s : RtpSession) (frame : AVFrame) : Nat :=
  (frame.payload.length + s.packetBytes frame - 1) / s.packetBytes frame

/-- The packets of the frame have somewhere to go and do not go once round the sequence numbers,
and the counters have room for them. -/
def SendFits (s : RtpSession) (frame : AVFrame) : Prop :=
  s.Accepts frame →
    (s.tcpConnId.isSome ∨ s.destination.isSome) ∧ s.packetCount frame % 65536 ≠ 0 ∧
      s.packetsSent + s.packetCount frame < 4294967296 ∧
      s.bytesSent + frame.payload.length < 4294967296

instance (s : RtpSession) (frame : AVFrame) : Decidable (s.SendFits frame) :=
  inferInstanceAs (Decidable (_ → _))

theorem packetBytes_pos (s : RtpSession) (frame : AVFrame) :
    0 < s.packetBytes frame ∧ s.packetBytes frame ≤ 1400 := by
  unfold packetBytes g711ChunkBytes
  split <;> omega

theorem framePackets_packetized (s : RtpSession) (frame : AVFrame) :
    Packetized (s.packetBytes frame) (s.frameHeader frame) frame.payload (s.framePackets frame) := by
  unfold framePackets packetBytes
  split
  · exact packetizeG711_packetized ..
  · exact packetizePayload_packetized frame.payload 1400 (s.frameHeader frame)

/-- Raw audio is stamped with its samples, from the session's timestamp on. -/
theorem framePackets_sampled (h : s.isRawAudio frame = true) :
    Sampled (s.frameTimestamp frame) (s.framePackets frame) := by
  unfold framePackets
  rw [if_pos h]
  exact packetizeG711_sampled _ _ _ (s.frameHeader frame)

theorem framePayloadType_lt (s : RtpSession) (frame : AVFrame) :
    s.framePayloadType frame < 128 := by
  unfold framePayloadType
  split <;> (try split) <;> decide

/-- The packets are counted up to where a counter overflows. -/
theorem sendPackets_eq (s : RtpSession) (packets : List RtpPacket)
    (hpackets : s.packetsSent + packets.length < 4294967296)
    (hbytes : s.bytesSent + payloadBytes packets < 4294967296) :
    s.sendPackets packets = .ok ({ s with
      packetsSent := s.packetsSent + packets.length
      bytesSent := s.bytesSent + payloadBytes packets }, packets.flatMap s.packetOutputs) := by
  induction packets generalizing s with
  | nil => rfl
  | cons p packets ih =>
    rw [payloadBytes, List.map_cons, List.sum_cons] at hbytes
    rw [List.length_cons] at hpackets
    have hcounted : u32 (s.packetsSent + 1) = .ok (s.packetsSent + 1) :=
      u32_eq_ok.mpr ⟨by omega, rfl⟩
    have hweighed : u32 (s.bytesSent + p.payload.length) = .ok (s.bytesSent + p.payload.length) :=
      u32_eq_ok.mpr ⟨by omega, rfl⟩
    have hrest := ih { s with
      packetsSent := s.packetsSent + 1
      bytesSent := s.bytesSent + p.payload.length }
      (by dsimp only; omega) (by dsimp only; rw [payloadBytes]; omega)
    rw [sendPackets, hcounted, ok_bind, hweighed, ok_bind]
    dsimp only
    rw [hrest, ok_bind]
    simp only [pure_eq, Nat.add_assoc, Nat.add_comm 1, payloadBytes, List.map_cons, List.sum_cons,
      List.length_cons, List.flatMap_cons]
    rfl

theorem parseTcpRtpFrame_encode {p : RtpPacket} (hfits : p.header.Fits)
    (hlength : p.payload.length ≤ 1400) :
    (parseTcpRtpFrame (encodeTcpRtpFrame p)).map (·.1) = some p := by
  have hframe := parseTwoByte_encode (p := p) (by rw [RtpPacket.encode_length]; omega) []
  rw [List.append_nil, parseTwoByte] at hframe
  obtain ⟨⟨packet, consumed⟩, hparsed, hsent⟩ := Option.map_eq_some_iff.mp hframe
  have hpacket : packet = p.sent := congrArg ParsedTcpRtpFrame.packet hsent
  rw [hparsed, Option.map_some, hpacket, RtpPacket.sent_eq_iff.mpr hfits]

/-- A packet with somewhere to go is what a receiver reads off its output. -/
theorem packetOutputs_packet {p : RtpPacket} (hroute : s.tcpConnId.isSome ∨ s.destination.isSome)
    (hfits : p.header.Fits) (hlength : p.payload.length ≤ 1400) :
    emitted s.sessionKey (s.packetOutputs p) = [p] := by
  have hparse : RtpPacket.parse p.encode = some p := by
    rw [RtpPacket.parse_encode, RtpPacket.sent_eq_iff.mpr hfits]
  have hframe := parseTcpRtpFrame_encode hfits hlength
  unfold packetOutputs
  split
  · simp [emitted, RtpCoreOutput.packet, hframe]
  · simp [emitted, RtpCoreOutput.packet, hparse]
  · rename_i hconn hdest
    simp [hconn, hdest] at hroute

theorem packetOutputs_unmarked (s : RtpSession) (packets : List RtpPacket) :
    ∀ o ∈ packets.flatMap s.packetOutputs, o.marks key = false := by
  intro o ho
  obtain ⟨p, -, ho⟩ := List.mem_flatMap.mp ho
  unfold packetOutputs at ho
  split at ho
  · rw [List.mem_singleton.mp ho]
    rfl
  · rw [List.mem_singleton.mp ho]
    rfl
  · cases ho

theorem packetOutputs_other (h : s.sessionKey ≠ key) (packets : List RtpPacket) :
    emitted key (packets.flatMap s.packetOutputs) = [] := by
  refine List.filterMap_eq_nil_iff.mpr fun o ho => ?_
  obtain ⟨p, -, ho⟩ := List.mem_flatMap.mp ho
  unfold packetOutputs at ho
  split at ho
  · rw [List.mem_singleton.mp ho]
    exact if_neg h
  · rw [List.mem_singleton.mp ho]
    exact if_neg h
  · cases ho

theorem emitted_append (key : RtpSessionKey) (outputs more : List RtpCoreOutput) :
    emitted key (outputs ++ more) = emitted key outputs ++ emitted key more :=
  List.filterMap_append

theorem emitted_silent (h : ∀ o ∈ outputs, o.isSend = false) : emitted key outputs = [] := by
  refine List.filterMap_eq_nil_iff.mpr fun o ho => ?_
  have hsend := h o ho
  cases o <;> first | rfl | cases hsend

/-- All packets of a list, each of them once and in order. -/
theorem emitted_packets {packets : List RtpPacket}
    (hroute : s.tcpConnId.isSome ∨ s.destination.isSome)
    (h : ∀ p ∈ packets, p.header.Fits ∧ p.payload.length ≤ 1400) :
    emitted s.sessionKey (packets.flatMap s.packetOutputs) = packets := by
  induction packets with
  | nil => rfl
  | cons p packets ih =>
    obtain ⟨hp, hrest⟩ := List.forall_mem_cons.mp h
    rw [List.flatMap_cons, emitted_append, packetOutputs_packet hroute hp.1 hp.2, ih hrest]
    rfl

/-- Where the samples of a frame end. -/
theorem sampled_last {packets : List RtpPacket} (h : Sampled first packets)
    (hlast : packets.getLast? = some last) :
    last.header.timestamp + UInt32.ofNat last.payload.length =
      first + UInt32.ofNat (payloadBytes packets) := by
  obtain ⟨before, rfl⟩ := List.getLast?_eq_some_iff.mp hlast
  obtain ⟨-, hstamp, -⟩ := (sampled_append first before [last]).mp h
  rw [hstamp, payloadBytes_append, UInt32.ofNat_add, UInt32.add_assoc]
  rfl

/-- Packets that were sent were counted. -/
theorem sendPackets_ok {packets : List RtpPacket}
    (h : s.sendPackets packets = .ok (s', outputs)) : s' = { s with
      packetsSent := s.packetsSent + packets.length
      bytesSent := s.bytesSent + payloadBytes packets } ∧
      outputs = packets.flatMap s.packetOutputs := by
  induction packets generalizing s outputs with
  | nil =>
    cases h
    exact ⟨rfl, rfl⟩
  | cons p packets ih =>
    obtain ⟨count, hcount, h⟩ := bind_eq_ok h
    obtain ⟨bytes, hbytes, h⟩ := bind_eq_ok h
    obtain ⟨⟨s₁, more⟩, hrest, h⟩ := bind_eq_ok h
    cases h
    obtain ⟨hs, hmore⟩ := ih hrest
    rw [hs, hmore, ← (u32_eq_ok.mp hcount).2, ← (u32_eq_ok.mp hbytes).2]
    refine ⟨?_, rfl⟩
    simp only [payloadBytes, List.map_cons, List.sum_cons, List.length_cons, Nat.add_assoc,
      Nat.add_comm 1]

/-- What sending a frame makes of a session. -/
structure SentFrame (s : RtpSession) (frame : AVFrame) (s' : RtpSession)
    (outputs : List RtpCoreOutput) : Prop where
  sessionKey : s'.sessionKey = s.sessionKey
  nextSeq : s'.nextSeq = s.nextSeq + max (UInt16.ofNat (s.framePackets frame).length) 1
  nextTimestamp : s'.nextTimestamp = if s.isRawAudio frame then
    some (s.frameTimestamp frame + UInt32.ofNat frame.payload.length) else s.nextTimestamp
  packetsSent : s'.packetsSent = s.packetsSent + (s.framePackets frame).length
  bytesSent : s'.bytesSent = s.bytesSent + frame.payload.length
  derived : (s'.lastError, s'.payloadMode, s'.rtcp) = (s.lastError, s.payloadMode, s.rtcp)
  demuxer : s'.demuxer = s.demuxer
  outputs : ∃ changed, (∀ key, Quiet key changed) ∧
    outputs = (s.framePackets frame).flatMap s.packetOutputs ++ changed

theorem stateChanged_eq (s : RtpSession) (k : RtpSessionKey) (newState : RtpSessionState) :
    (s.stateChanged k newState).1 = { s with state := (s.stateChanged k newState).1.state } := by
  unfold stateChanged transitionTo
  split <;> rename_i heq <;> split at heq <;> cases heq <;> rfl

/-- A change of state comes behind the packets. -/
theorem SentFrame.afterEgress (h : s.SentFrame frame s' outputs) (k : RtpSessionKey) :
    s.SentFrame frame (s'.afterEgress k).1 (outputs ++ (s'.afterEgress k).2) := by
  obtain ⟨changed, hquiet, rfl⟩ := h.outputs
  unfold RtpSession.afterEgress
  split
  · rename_i newState _
    rw [s'.stateChanged_eq k newState]
    exact ⟨h.sessionKey, h.nextSeq, h.nextTimestamp, h.packetsSent, h.bytesSent, h.derived,
      h.demuxer, _, fun key => (hquiet key).append (s'.stateChanged_quiet k newState),
      List.append_assoc ..⟩
  · rw [List.append_nil]
    exact h

/-- The timestamp behind a frame of raw audio. -/
theorem nextFrameTimestamp_eq (s : RtpSession) (hpayload : frame.payload ≠ []) :
    s.nextFrameTimestamp frame = if s.isRawAudio frame then
      some (s.frameTimestamp frame + UInt32.ofNat frame.payload.length) else s.nextTimestamp := by
  have hbytes := (s.framePackets_packetized frame).bytes
  unfold nextFrameTimestamp
  split
  · rename_i hraw
    cases hlast : (s.framePackets frame).getLast? with
    | none =>
      rw [List.getLast?_eq_none_iff.mp hlast] at hbytes
      exact absurd (List.length_eq_zero_iff.mp hbytes.symm) hpayload
    | some last =>
      dsimp only
      rw [sampled_last (framePackets_sampled hraw) hlast, hbytes]
  · rfl

theorem sendFrame_cases (h : s.sendFrame k frame = .ok (s', outputs)) :
    (¬s.Accepts frame ∧ s' = s ∧ outputs = []) ∨
      (s.Accepts frame ∧ s.SentFrame frame s' outputs) := by
  unfold sendFrame at h
  split at h
  · rename_i hrefused
    cases h
    exact .inl ⟨hrefused, rfl, rfl⟩
  · rename_i haccepts
    rw [not_not] at haccepts
    obtain ⟨⟨s₁, sends⟩, hsent, h⟩ := bind_eq_ok h
    obtain ⟨rfl, rfl⟩ := sendPackets_ok hsent
    have hsent : s.SentFrame frame (advance { s.stamp frame with
        packetsSent := s.packetsSent + (s.framePackets frame).length
        bytesSent := s.bytesSent + payloadBytes (s.framePackets frame) }
        (s.framePackets frame).length) ((s.framePackets frame).flatMap s.packetOutputs) :=
      ⟨rfl, rfl, s.nextFrameTimestamp_eq haccepts.2.2, rfl,
        congrArg _ (s.framePackets_packetized frame).bytes, rfl, rfl, [], fun _ => quiet_nil,
        (List.append_nil _).symm⟩
    cases h
    exact .inr ⟨haccepts, hsent.afterEgress k⟩

/-- A frame that fits is sent. -/
theorem sendFrame_returns (k : RtpSessionKey) (h : s.SendFits frame) :
    ∃ r, s.sendFrame k frame = .ok r := by
  unfold sendFrame
  split
  · exact ⟨_, rfl⟩
  · rename_i haccepts
    obtain ⟨-, -, hpackets, hbytes⟩ := h (not_not.mp haccepts)
    have hpacketized := s.framePackets_packetized frame
    have hcount : (s.framePackets frame).length = s.packetCount frame := hpacketized.length
    have hsent := (s.stamp frame).sendPackets_eq (s.framePackets frame)
      (by rw [hcount]; exact hpackets) (by rw [hpacketized.bytes]; exact hbytes)
    dsimp only
    rw [hsent]
    exact ⟨_, rfl⟩

/-- The number behind the packets is the next one, unless they go round all numbers. -/
theorem advance_nextSeq_iff (s : RtpSession) (packetCount : Nat) :
    (s.advance packetCount).nextSeq = s.nextSeq + UInt16.ofNat packetCount ↔
      packetCount % 65536 ≠ 0 := by
  have hcut : (UInt16.ofNat packetCount).toNat = packetCount % 65536 := UInt16.toNat_ofNat'
  have hmax : max (UInt16.ofNat packetCount) 1 = UInt16.ofNat packetCount ↔
      packetCount % 65536 ≠ 0 := by
    change (if UInt16.ofNat packetCount ≤ 1 then 1 else UInt16.ofNat packetCount) = _ ↔ _
    split <;> rename_i hle <;> rw [UInt16.le_iff_toNat_le, hcut] at hle
    · rw [← UInt16.toNat_inj, hcut]
      change 1 = _ ↔ _
      change _ ≤ 1 at hle
      omega
    · change ¬_ ≤ 1 at hle
      exact ⟨fun _ => by omega, fun _ => rfl⟩
  rw [← hmax]
  exact UInt16.add_right_inj _

end RtpSession

/-- What a session has sent since it was created, and what of that was raw audio. -/
structure SendLedger where
  sent : List RtpPacket := []
  raw : List RtpPacket := []

namespace RtpCore

/-- The frame goes to the session as raw audio. -/
def sendsRawAudio (c : RtpCore) (key : RtpSessionKey) : Call → Bool
  | .input (.command (.sendFrame k frame)) =>
    k = key ∧ (c.sessions.lookup key).any (·.isRawAudio frame)
  | _ => false

end RtpCore

/-- A session that begins or ends has sent nothing. -/
def SendLedger.step (l : SendLedger) (key : RtpSessionKey) (raw : Bool)
    (outputs : List RtpCoreOutput) : SendLedger :=
  let l := if outputs.any (·.marks key) then {} else l
  { sent := l.sent ++ emitted key outputs
    raw := if raw then l.raw ++ emitted key outputs else l.raw }

/-- The core with the ledger of one session. -/
def ledgered (order : RtpMapOrder) (key : RtpSessionKey) :
    Transition (RtpCore × SendLedger) RtpCore.Call RtpCoreOutput := fun (c, l) a =>
  match c.call order a with
  | .ok (c', outputs) => some ((c', l.step key (c.sendsRawAudio key a) outputs), outputs)
  | .error _ => none

/-- The frames that the session accepts fit. -/
def SendsFit (key : RtpSessionKey) (x : RtpCore × SendLedger) : RtpCore.Call → Prop
  | .input (.command (.sendFrame k frame)) =>
    k = key → (x.1.sessions.lookup key).all (fun s => s.SendFits frame) = true
  | _ => True

instance (key : RtpSessionKey) (x : RtpCore × SendLedger) :
    ∀ a, Decidable (SendsFit key x a) := fun a => by
  unfold SendsFit
  split <;> infer_instance

/-- The session's numbers and counters say what the ledger says. -/
structure RtpSession.Recorded (s : RtpSession) (l : SendLedger) : Prop where
  numbered : ∃ first, Consecutive first l.sent ∧
    s.nextSeq = first + UInt16.ofNat l.sent.length
  packetsSent : s.packetsSent = l.sent.length
  bytesSent : s.bytesSent = payloadBytes l.sent
  sampled : (l.raw = [] ∧ s.nextTimestamp = none) ∨ ∃ first, Sampled first l.raw ∧
    s.nextTimestamp = some (first + UInt32.ofNat (payloadBytes l.raw))

/-- Every session has the key that it is found under, and the one with the ledger is recorded. -/
structure Accounted (key : RtpSessionKey) (x : RtpCore × SendLedger) : Prop where
  keyed : ∀ k s, x.1.sessions.lookup k = some s → s.sessionKey = k
  recorded : ∀ s, x.1.sessions.lookup key = some s → s.Recorded x.2

theorem accounted_new (maxSessions : Nat) (timeoutMs : UInt64) :
    Accounted key (.new maxSessions timeoutMs, {}) :=
  ⟨fun _ _ h => (by cases h), fun _ h => (by cases h)⟩

theorem RtpSession.Fresh.recorded (h : s.Fresh key p) : s.Recorded {} where
  numbered := ⟨s.nextSeq, trivial, (UInt16.add_zero _).symm⟩
  packetsSent := h.packetsSent
  bytesSent := h.bytesSent
  sampled := .inl ⟨rfl, h.nextTimestamp⟩

theorem RtpSession.Recorded.keeps (h : s.Recorded l) (hk : s.Keeps p s') : s'.Recorded l where
  numbered := by rw [hk.nextSeq]; exact h.numbered
  packetsSent := hk.packetsSent.trans h.packetsSent
  bytesSent := hk.bytesSent.trans h.bytesSent
  sampled := by rw [hk.nextTimestamp]; exact h.sampled

theorem SendLedger.step_silent (l : SendLedger) (raw : Bool)
    (h : ∀ o ∈ outputs, o.isSend = false) :
    l.step key raw outputs = if outputs.any (·.marks key) then {} else l := by
  unfold SendLedger.step
  rw [RtpSession.emitted_silent h]
  simp

/-- What holds of all sessions goes on to hold. -/
theorem Evolution.keyed (hkey : ∀ s, c.sessions.lookup k = some s → s.sessionKey = k)
    (h : Evolution k p c c' outputs) (hs : c'.sessions.lookup k = some s) : s.sessionKey = k :=
  h.session.preserves (P := fun s => s.sessionKey = k) (fun _ _ hv hw => hw.sessionKey.trans hv)
    (fun _ hv => hv.sessionKey) hkey hs

/-- A step that sends no frame. -/
theorem Accounted.evolves (h : Accounted key (c, l))
    (hstep : ∀ k, Evolution k False c c' outputs) (raw : Bool) :
    Accounted key (c', l.step key raw outputs) where
  keyed k s hs := (hstep k).keyed (h.keyed k) hs
  recorded s hs := by
    rw [l.step_silent raw (hstep key).silent]
    have hsession := (hstep key).session
    generalize outputs.any (·.marks key) = said at hsession ⊢
    cases hsession with
    | renewed hnew => exact (hnew s hs).recorded
    | kept hkeeps =>
      rw [show c'.sessions.lookup key = some s from hs] at hkeeps
      generalize hbefore : c.sessions.lookup key = before at hkeeps
      cases hkeeps with
      | some hkept => exact (h.recorded _ hbefore).keeps hkept

/-- The outputs of a frame begin and end no session. -/
theorem RtpSession.SentFrame.unmarked (h : s.SentFrame frame s' outputs) :
    outputs.any (·.marks key) = false := by
  obtain ⟨changed, hquiet, rfl⟩ := h.outputs
  rw [List.any_append, (hquiet key).unmarked, Bool.or_false]
  exact List.any_eq_false.mpr fun o ho => by
    rw [s.packetOutputs_unmarked _ o ho]
    exact Bool.false_ne_true

theorem RtpSession.SentFrame.emitted_other (h : s.SentFrame frame s' outputs)
    (hkey : s.sessionKey ≠ key) : emitted key outputs = [] := by
  obtain ⟨changed, hquiet, rfl⟩ := h.outputs
  rw [emitted_append, packetOutputs_other hkey, emitted_silent fun o ho => (hquiet key o ho).1]
  rfl

theorem RtpSession.SentFrame.emitted_eq (h : s.SentFrame frame s' outputs)
    (hroute : s.tcpConnId.isSome ∨ s.destination.isSome) :
    emitted s.sessionKey outputs = s.framePackets frame := by
  obtain ⟨changed, hquiet, rfl⟩ := h.outputs
  have hpackets : ∀ p ∈ s.framePackets frame, p.header.Fits ∧ p.payload.length ≤ 1400 := by
    intro p hp
    obtain ⟨hversion, hpayloadType, hlength⟩ := (s.framePackets_packetized frame).headers p hp
    refine ⟨⟨?_, ?_⟩, hlength.trans (s.packetBytes_pos frame).2⟩
    · rw [hversion]
      exact (by decide : (2 : UInt8) < 4)
    · rw [hpayloadType]
      exact s.framePayloadType_lt frame
  rw [emitted_append, emitted_packets hroute hpackets,
    emitted_silent fun o ho => (hquiet s.sessionKey o ho).1, List.append_nil]

/-- The packets of a frame go behind those that are recorded. -/
theorem RtpSession.Recorded.sends (h : s.Recorded l) (hsent : s.SentFrame frame s' outputs)
    (hcount : s.packetCount frame % 65536 ≠ 0) :
    s'.Recorded {
      sent := l.sent ++ s.framePackets frame
      raw := if s.isRawAudio frame then l.raw ++ s.framePackets frame else l.raw } where
  numbered := by
    have hpacketized := s.framePackets_packetized frame
    have hadvance := (s.advance_nextSeq_iff (s.framePackets frame).length).mpr
      (by rw [hpacketized.length]; exact hcount)
    obtain ⟨first, hconsecutive, hnext⟩ := h.numbered
    refine ⟨first, (consecutive_append ..).mpr ⟨hconsecutive, ?_⟩, ?_⟩
    · rw [← hnext]
      exact hpacketized.consecutive
    · rw [hsent.nextSeq, List.length_append, UInt16.ofNat_add, ← UInt16.add_assoc, ← hnext]
      exact hadvance
  packetsSent := by rw [hsent.packetsSent, h.packetsSent, List.length_append]
  bytesSent := by
    rw [hsent.bytesSent, h.bytesSent, payloadBytes_append,
      (s.framePackets_packetized frame).bytes]
  sampled := by
    rw [hsent.nextTimestamp]
    split
    · rename_i hraw
      have hsampled := framePackets_sampled hraw
      have hbytes := (s.framePackets_packetized frame).bytes
      right
      rcases h.sampled with ⟨hnone, -⟩ | ⟨first, hfirst, hnext⟩
      · rw [hnone, List.nil_append]
        exact ⟨_, hsampled, by rw [hbytes]⟩
      · have hgoes : s.frameTimestamp frame = first + UInt32.ofNat (payloadBytes l.raw) := by
          rw [frameTimestamp, if_pos hraw, hnext, Option.getD_some]
        refine ⟨first, (sampled_append ..).mpr ⟨hfirst, hgoes ▸ hsampled⟩, ?_⟩
        rw [hgoes, payloadBytes_append, hbytes, UInt32.ofNat_add, UInt32.add_assoc]
    · exact h.sampled

/-- A frame is sent to a session, this or another one. -/
theorem Accounted.sends (h : Accounted key (c, l))
    (hfit : SendsFit key (c, l) (.input (.command (.sendFrame k frame))))
    (hsend : c.sendFrame k frame = .ok (c', outputs)) : Accounted key (c', l.step key
      (c.sendsRawAudio key (.input (.command (.sendFrame k frame)))) outputs) := by
  have hnothing (raw : Bool) : l.step key raw [] = l := by
    cases raw <;> simp [SendLedger.step, emitted]
  unfold RtpCore.sendFrame at hsend
  cases hs : c.sessions.lookup k with
  | none =>
    rw [hs] at hsend
    cases hsend
    rw [hnothing]
    exact h
  | some s =>
    rw [hs] at hsend
    obtain ⟨⟨s', sent⟩, hcase, hsend⟩ := bind_eq_ok hsend
    cases hsend
    have hkey := h.keyed k s hs
    rcases RtpSession.sendFrame_cases hcase with ⟨-, rfl, rfl⟩ | ⟨haccepts, hsent⟩
    · rw [hnothing]
      refine ⟨fun k' t ht => ?_, fun t ht => ?_⟩
      · by_cases heq : k' = k
        · subst heq
          rw [RtpCore.lookup_putSession_self] at ht
          cases ht
          exact hkey
        · exact h.keyed k' t ((c.lookup_putSession_ne s' heq).symm.trans ht)
      · by_cases heq : key = k
        · subst heq
          rw [RtpCore.lookup_putSession_self] at ht
          cases ht
          exact h.recorded s' hs
        · exact h.recorded t ((c.lookup_putSession_ne s' heq).symm.trans ht)
    · refine ⟨fun k' t ht => ?_, fun t ht => ?_⟩
      · by_cases heq : k' = k
        · subst heq
          rw [RtpCore.lookup_putSession_self] at ht
          cases ht
          exact hsent.sessionKey.trans hkey
        · exact h.keyed k' t ((c.lookup_putSession_ne s' heq).symm.trans ht)
      · have hstep (raw : Bool) : l.step key raw outputs = {
            sent := l.sent ++ emitted key outputs
            raw := if raw then l.raw ++ emitted key outputs else l.raw } := by
          rw [SendLedger.step, hsent.unmarked]
          rfl
        rw [hstep]
        by_cases heq : key = k
        · subst heq
          rw [RtpCore.lookup_putSession_self] at ht
          cases ht
          have hfits := hfit rfl
          rw [hs, Option.all_some, decide_eq_true_eq] at hfits
          obtain ⟨hroute, hcount, -⟩ := hfits haccepts
          have hemitted : emitted key outputs = s.framePackets frame := by
            rw [← hkey]
            exact hsent.emitted_eq hroute
          have hraw : c.sendsRawAudio key (.input (.command (.sendFrame key frame))) =
              s.isRawAudio frame := by
            simp [RtpCore.sendsRawAudio, hs]
          rw [hemitted, hraw]
          exact (h.recorded s hs).sends hsent hcount
        · have hraw : c.sendsRawAudio key (.input (.command (.sendFrame k frame))) = false := by
            simp [RtpCore.sendsRawAudio, Ne.symm heq]
          have hother : emitted key outputs = [] :=
            hsent.emitted_other (by rw [hkey]; exact Ne.symm heq)
          rw [hraw, hother, List.append_nil]
          exact h.recorded t ((c.lookup_putSession_ne s' heq).symm.trans ht)

theorem Accounted.step {order : RtpMapOrder} {x y : RtpCore × SendLedger} (h : Accounted key x)
    (hfit : SendsFit key x a) (hstep : ledgered order key x a = some (y, outputs)) :
    Accounted key y := by
  obtain ⟨c, l⟩ := x
  unfold ledgered at hstep
  dsimp only at hstep
  split at hstep
  · rename_i c' outputs' hcall
    cases hstep
    by_cases hsend : ∃ k frame, a = .input (.command (.sendFrame k frame))
    · obtain ⟨k, frame, rfl⟩ := hsend
      exact h.sends hfit hcall
    · exact h.evolves (fun k => RtpCore.call_evolves hcall
        (fun k' frame heq => hsend ⟨k', frame, heq⟩) False.elim) _
  · cases hstep

/-- As long as the frames that a session accepts fit, it numbers its packets without a gap, counts
what it emits, and stamps its raw audio with the samples; and no such frame makes it panic. -/
theorem sends_contiguous (order : RtpMapOrder) (maxSessions : Nat) (timeoutMs : UInt64)
    (key : RtpSessionKey) (calls : List RtpCore.Call)
    (hrun : Transition.run (ledgered order key) (.new maxSessions timeoutMs, {}) calls =
      some ((c, l), outputs))
    (hfit : Transition.Along (ledgered order key) (SendsFit key)
      (.new maxSessions timeoutMs, {}) calls)
    (hs : c.sessions.lookup key = some s) :
    (∃ first, Consecutive first l.sent ∧ s.nextSeq = first + UInt16.ofNat l.sent.length) ∧
      s.packetsSent = l.sent.length ∧ s.bytesSent = payloadBytes l.sent ∧
      (∃ first, Sampled first l.raw) ∧
      ∀ frame, s.SendFits frame → ∃ r, c.sendFrame key frame = .ok r := by
  have hend : Accounted key (c, l) := Transition.run_invariant (Accounted key)
    (fun _ _ _ _ h hcond hstep => h.step hcond hstep) (accounted_new maxSessions timeoutMs)
    hfit hrun
  have hrecorded := hend.recorded s hs
  refine ⟨hrecorded.numbered, hrecorded.packetsSent, hrecorded.bytesSent, ?_, fun frame hfits => ?_⟩
  · rcases hrecorded.sampled with ⟨hnone, -⟩ | ⟨first, hfirst, -⟩
    · exact ⟨0, by rw [hnone]; trivial⟩
    · exact ⟨first, hfirst⟩
  · obtain ⟨⟨s', outputs'⟩, hsent⟩ := RtpSession.sendFrame_returns key hfits
    refine ⟨(c.putSession key s', outputs'), ?_⟩
    rw [RtpCore.sendFrame, hs]
    dsimp only
    rw [hsent]
    rfl

/-- A server session that sends, and frames of raw audio. -/
def talkServer : RtpCore.Call :=
  .input (.command (.createServer {
    sessionKey := "talk".toList
    ssrc := some 7
    payloadMode := .rawAudio
    transportMode := .sendRecv
    packetDurationMs := none
    sourcePolicy := none
    trackFilter := .all } 0))

def talkClient : RtpCore.Call :=
  .input (.command (.createClient {
    sessionKey := "talk".toList
    destination := ⟨[10, 0, 0, 1], 5004⟩
    ssrc := 7
    payloadMode := .rawAudio
    transportMode := .sendRecv
    packetDurationMs := none
    tcpConnId := none
    connectionType := none
    sourcePolicy := none
    trackFilter := .all }))

def talkFrame (samples : Nat) : RtpCore.Call :=
  .input (.command (.sendFrame "talk".toList
    (AVFrame.new 1 .audio .g711a .g711Packet 0 0 (1, 8000) (List.replicate samples 0xD5))))

theorem sends_contiguous_talk : ∃ c l outputs s,
    Transition.run (ledgered .listed "talk".toList) (.new 4 30000, {})
      [talkClient, talkFrame 400, talkFrame 100] = some ((c, l), outputs) ∧
    c.sessions.lookup "talk".toList = some s ∧ l.sent.length = 4 ∧ s.packetsSent = 4 ∧
      s.bytesSent = payloadBytes l.sent ∧ ∃ first, Sampled first l.raw := by
  have hfit : Transition.Along (ledgered .listed "talk".toList) (SendsFit "talk".toList)
      (.new 4 30000, {}) [talkClient, talkFrame 400, talkFrame 100] := by decide +kernel
  have hseen : (Transition.run (ledgered .listed "talk".toList) (.new 4 30000, {})
      [talkClient, talkFrame 400, talkFrame 100]).map (fun r =>
        (r.1.2.sent.length, (r.1.1.sessions.lookup "talk".toList).isSome)) = some (4, true) := by
    decide +kernel
  obtain ⟨⟨⟨c, l⟩, outputs⟩, hrun, hr⟩ := Option.map_eq_some_iff.mp hseen
  obtain ⟨hsent, hsome⟩ := Prod.mk.inj hr
  obtain ⟨s, hs⟩ := Option.isSome_iff_exists.mp hsome
  obtain ⟨-, hpackets, hbytes, hraw, -⟩ :=
    sends_contiguous .listed 4 30000 "talk".toList _ hrun hfit hs
  exact ⟨c, l, outputs, s, hrun, hs, hsent, hpackets.trans hsent, hbytes, hraw⟩

/-- A frame that has nowhere to go is counted, and takes numbers, all the same. -/
theorem sends_unrouted :
    (Transition.run (ledgered .listed "talk".toList) (.new 4 30000, {})
      [talkServer, talkFrame 400]).map (fun r =>
        (r.1.2.sent.length, (r.1.1.sessions.lookup "talk".toList).map (·.packetsSent))) =
      some (0, some 3) := by
  decide +kernel

end CheetahMedia.Rtp
