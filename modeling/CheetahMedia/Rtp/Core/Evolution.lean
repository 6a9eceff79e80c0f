import CheetahMedia.Lib.Lifetime
import CheetahMedia.Rtp.Core.Command

namespace CheetahMedia.Rtp
open Lib Lib.Checked Codec

/-- A demuxer that is none yet, or one for the mode. -/
def SessionDemuxer.Fits (mode : RtpPayloadMode) : SessionDemuxer → Prop
  | .pending => True
  | .ts _ => mode = .ts
  | .ps _ => mode = .ps
  | .bypass => mode ≠ .ts ∧ mode ≠ .ps

/-- What is derived from the payload mode agrees with it. -/
structure RtpSession.Consistent (s : RtpSession) : Prop where
  clockRate : s.rtcp.clockRateHz = defaultClockRateHz s.payloadMode
  demuxer : s.demuxer.Fits s.payloadMode

/-- What everything but the sending of a frame keeps of a session. Under `p` that includes the
state derived from the payload mode. -/
structure RtpSession.Keeps (p : Prop) (s s' : RtpSession) : Prop where
  sessionKey : s'.sessionKey = s.sessionKey
  nextSeq : s'.nextSeq = s.nextSeq
  nextTimestamp : s'.nextTimestamp = s.nextTimestamp
  packetsSent : s'.packetsSent = s.packetsSent
  bytesSent : s'.bytesSent = s.bytesSent
  lastError : s.lastError = none → s'.lastError = none
  consistent : p → s.Consistent → s'.Consistent

/-- A session that has sent nothing. -/
structure RtpSession.Fresh (key : RtpSessionKey) (p : Prop) (s : RtpSession) : Prop where
  sessionKey : s.sessionKey = key
  nextTimestamp : s.nextTimestamp = none
  packetsSent : s.packetsSent = 0
  bytesSent : s.bytesSent = 0
  lastError : s.lastError = none
  consistent : p → s.Consistent

/-- The output carries a media packet. -/
def RtpCoreOutput.isSend : RtpCoreOutput → Bool
  | .sendUdp .. | .sendTcp .. => true
  | _ => false

/-- The output says that a session begins or ends. -/
def RtpCoreOutput.marks (key : RtpSessionKey) : RtpCoreOutput → Bool
  | .event (.sessionCreated key' ..) | .event (.sessionClosed key' _) => key' = key
  | _ => false

/-- The outputs are about something else. -/
def Quiet (key : RtpSessionKey) (outputs : List RtpCoreOutput) : Prop :=
  ∀ o ∈ outputs, o.isSend = false ∧ o.marks key = false

/-- From one core to the other the session under the key is kept, or renewed and announced. -/
structure Evolution (key : RtpSessionKey) (p : Prop) (c c' : RtpCore)
    (outputs : List RtpCoreOutput) : Prop where
  silent : ∀ o ∈ outputs, o.isSend = false
  session : Evolves (RtpSession.Keeps p) (RtpSession.Fresh key p) (c.sessions.lookup key)
    (outputs.any (·.marks key)) (c'.sessions.lookup key)

theorem RtcpReportState.onPacket_clockRateHz (s : RtcpReportState) (seq : UInt16)
    (rtpTimestamp : UInt32) (nowMs : UInt64) :
    (s.onPacket seq rtpTimestamp nowMs).clockRateHz = s.clockRateHz := by
  unfold onPacket
  dsimp only
  split <;> rfl

theorem RtcpReportState.reportBlock_clockRateHz (s : RtcpReportState) (peerSsrc : UInt32)
    (nowMs : UInt64) : (s.reportBlock peerSsrc nowMs).1.clockRateHz = s.clockRateHz := by
  unfold reportBlock
  split <;> rfl

namespace RtpSession
variable {key : RtpSessionKey} {p : Prop} {s s' s'' : RtpSession}

theorem Keeps.refl (p : Prop) (s : RtpSession) : Keeps p s s :=
  ⟨rfl, rfl, rfl, rfl, rfl, id, fun _ => id⟩

theorem Keeps.trans (h : Keeps p s s') (h' : Keeps p s' s'') : Keeps p s s'' where
  sessionKey := h'.sessionKey.trans h.sessionKey
  nextSeq := h'.nextSeq.trans h.nextSeq
  nextTimestamp := h'.nextTimestamp.trans h.nextTimestamp
  packetsSent := h'.packetsSent.trans h.packetsSent
  bytesSent := h'.bytesSent.trans h.bytesSent
  lastError := h'.lastError ∘ h.lastError
  consistent hp := h'.consistent hp ∘ h.consistent hp

theorem Keeps.ite {q : Prop} [Decidable q] (h : Keeps p s s') (h' : Keeps p s s'') :
    Keeps p s (if q then s' else s'') := by
  split
  · exact h
  · exact h'

theorem Fresh.keeps (h : Fresh key p s) (hk : Keeps p s s') : Fresh key p s' where
  sessionKey := hk.sessionKey.trans h.sessionKey
  nextTimestamp := hk.nextTimestamp.trans h.nextTimestamp
  packetsSent := hk.packetsSent.trans h.packetsSent
  bytesSent := hk.bytesSent.trans h.bytesSent
  lastError := hk.lastError h.lastError
  consistent hp := hk.consistent hp (h.consistent hp)

/-- Nothing that matters has changed. -/
theorem Consistent.congr (h : Consistent s) (hmode : s'.payloadMode = s.payloadMode)
    (hdemuxer : s'.demuxer = s.demuxer) (hrate : s'.rtcp.clockRateHz = s.rtcp.clockRateHz) :
    Consistent s' where
  clockRate := by rw [hrate, hmode, h.clockRate]
  demuxer := by rw [hdemuxer, hmode]; exact h.demuxer

theorem new_fresh (key : RtpSessionKey) (ssrc : UInt32) (mode : RtpPayloadMode)
    (transport : RtpTransportMode) (filter : RtpTrackFilter) (policy : RtpSourcePolicy)
    (nextSeq : UInt16) (offset : UInt64) :
    Fresh key p (.new key ssrc mode transport filter policy nextSeq offset) :=
  ⟨rfl, rfl, rfl, rfl, rfl, fun _ => ⟨rfl, trivial⟩⟩

theorem commitPayloadProfile_consistent (s : RtpSession) (pt : UInt8)
    (profile : RtpPayloadProfile) : (s.commitPayloadProfile pt profile).Consistent :=
  ⟨rfl, trivial⟩

theorem Keeps.commitPayloadProfile (h : Keeps p s s') (pt : UInt8) (profile : RtpPayloadProfile) :
    Keeps p s (s'.commitPayloadProfile pt profile) :=
  ⟨h.sessionKey, h.nextSeq, h.nextTimestamp, h.packetsSent, h.bytesSent, h.lastError,
    fun _ _ => s'.commitPayloadProfile_consistent pt profile⟩

/-- A change of fields that the relation does not look at. -/
theorem Keeps.of_same (h : (s'.sessionKey, s'.nextSeq, s'.nextTimestamp, s'.packetsSent,
    s'.bytesSent, s'.lastError) = (s.sessionKey, s.nextSeq, s.nextTimestamp, s.packetsSent,
    s.bytesSent, s.lastError)) (hmode : s'.payloadMode = s.payloadMode)
    (hdemuxer : s'.demuxer = s.demuxer) (hrate : s'.rtcp.clockRateHz = s.rtcp.clockRateHz) :
    Keeps p s s' := by
  simp only [Prod.mk.injEq] at h
  obtain ⟨hkey, hseq, htimestamp, hpackets, hbytes, herror⟩ := h
  exact ⟨hkey, hseq, htimestamp, hpackets, hbytes, fun h => herror.trans h,
    fun _ h => h.congr hmode hdemuxer hrate⟩

theorem transitionTo_keeps (s : RtpSession) (newState : RtpSessionState) :
    Keeps p s (s.transitionTo newState).1 := by
  unfold transitionTo
  split
  · exact .refl p s
  · exact .of_same rfl rfl rfl rfl

theorem stateChanged_keeps (s : RtpSession) (k : RtpSessionKey) (newState : RtpSessionState) :
    Keeps p s (s.stateChanged k newState).1 := by
  have h := s.transitionTo_keeps (p := p) newState
  unfold stateChanged
  split <;> rename_i heq <;> rw [heq] at h <;> exact h

theorem stateChanged_quiet (s : RtpSession) (k : RtpSessionKey) (newState : RtpSessionState) :
    Quiet key (s.stateChanged k newState).2 := by
  unfold stateChanged
  split <;> simp [Quiet, RtpCoreOutput.isSend, RtpCoreOutput.marks]

theorem sniff_keeps (s : RtpSession) (settings : RtpCoreSettings) (rtp : RtpPacket) :
    Keeps p s (s.sniff settings rtp) := by
  unfold sniff
  dsimp only
  split
  iterate 3
    · refine .commitPayloadProfile ?_ _ _
      exact .of_same rfl rfl rfl rfl
  · refine .ite ?_ (.of_same rfl rfl rfl rfl)
    refine .commitPayloadProfile ?_ _ _
    exact .of_same rfl rfl rfl rfl
  · exact .of_same rfl rfl rfl rfl

theorem probe_keeps (s : RtpSession) (settings : RtpCoreSettings) (rtp : RtpPacket) :
    Keeps p s (s.probe settings rtp) := by
  have hsniffed : Keeps p s (if s.ptProbeAttempts < settings.maxPtProbePackets then
      s.sniff settings rtp else s) := by
    exact .ite (s.sniff_keeps settings rtp) (.refl p s)
  unfold probe
  exact .ite (hsniffed.trans ⟨rfl, rfl, rfl, rfl, rfl, id, fun _ _ => ⟨rfl, trivial⟩⟩) hsniffed

theorem changePayloadType_keeps (s : RtpSession) (settings : RtpCoreSettings) (k : RtpSessionKey)
    (currentPt : UInt8) (rtp : RtpPacket) :
    Keeps p s (s.changePayloadType settings k currentPt rtp).session := by
  have hresolved (profile : RtpPayloadProfile) (pt : UInt8) :
      Keeps p s ({ s with
        ptChangeUnknownCount := 0
        ptFormatChangeCount := s.ptFormatChangeCount + 1 }.commitPayloadProfile pt profile) := by
    refine .commitPayloadProfile ?_ pt profile
    exact .of_same rfl rfl rfl rfl
  unfold changePayloadType
  dsimp only
  split <;> split <;> (try split) <;> first | exact hresolved _ _ | exact .of_same rfl rfl rfl rfl

theorem checkPayloadType_keeps (s : RtpSession) (settings : RtpCoreSettings) (k : RtpSessionKey)
    (rtp : RtpPacket) : Keeps p s (s.checkPayloadType settings k rtp).session := by
  unfold checkPayloadType
  split
  · exact s.probe_keeps settings rtp
  · split
    · exact .of_same rfl rfl rfl rfl
    · split
      · exact .of_same rfl rfl rfl rfl
      · exact s.changePayloadType_keeps settings k _ rtp

/-- A packet of any payload type is taken by a session that has none. -/
theorem checkPayloadType_closeReason (s : RtpSession) (settings : RtpCoreSettings)
    (k : RtpSessionKey) (rtp : RtpPacket) (h : s.payloadType = none) :
    (s.checkPayloadType settings k rtp).closeReason = none := by
  unfold checkPayloadType
  rw [h]
  split <;> rfl

variable (key) in
theorem formatChange_quiet (s : RtpSession) (settings : RtpCoreSettings) (k : RtpSessionKey)
    (rtp : RtpPacket) : Quiet key
      ((s.checkPayloadType settings k rtp).formatChange.toList.map RtpCoreOutput.event) := by
  unfold checkPayloadType changePayloadType
  dsimp only
  split
  · simp [Quiet]
  · split
    · simp [Quiet]
    · split
      · simp [Quiet]
      · split <;> split <;> (try split) <;>
          simp [Quiet, RtpCoreOutput.isSend, RtpCoreOutput.marks]

theorem countPacket_keeps {rtp : RtpPacket} (h : s.countPacket rtp receivedAtMs = .ok s') :
    Keeps p s s' := by
  unfold countPacket at h
  obtain ⟨packets, _, h⟩ := bind_eq_ok h
  obtain ⟨bytes, _, h⟩ := bind_eq_ok h
  cases h
  exact .of_same rfl rfl rfl (RtcpReportState.onPacket_clockRateHz ..)

theorem learnLength_keeps (s : RtpSession) (settings : RtpCoreSettings) (rtp : RtpPacket) :
    Keeps p s (s.learnLength settings rtp).1 := by
  unfold learnLength
  dsimp only
  split
  · exact .of_same rfl rfl rfl rfl
  · exact .refl p s

variable (key) in
theorem learnLength_quiet (s : RtpSession) (settings : RtpCoreSettings) (rtp : RtpPacket) :
    Quiet key (s.learnLength settings rtp).2 := by
  unfold learnLength
  dsimp only
  split
  · split <;> simp [Quiet, RtpCoreOutput.isSend, RtpCoreOutput.marks]
  · simp [Quiet]

theorem announce_keeps (s : RtpSession) (k : RtpSessionKey) (ssrc : UInt32) (created : Bool) :
    Keeps p s (s.announce k ssrc created).1 := by
  unfold announce
  dsimp only
  split
  · exact .refl p s
  · split
    · exact .of_same rfl rfl rfl rfl
    · exact s.stateChanged_keeps k _

variable (key) in
/-- The one thing that is announced is the session's creation. -/
theorem announce_outputs (s : RtpSession) (k : RtpSessionKey) (ssrc : UInt32) (created : Bool) :
    ∃ rest, Quiet key rest ∧ (s.announce k ssrc created).2 =
      (if created then [.event (.sessionCreated k ssrc s.payloadMode s.transportMode)] else []) ++
        rest := by
  have hnone : Quiet key [] := by simp [Quiet]
  unfold announce
  dsimp only
  split
  · exact ⟨[], hnone, (List.append_nil _).symm⟩
  · split
    · exact ⟨[], hnone, (List.append_nil _).symm⟩
    · exact ⟨_, s.stateChanged_quiet k _, rfl⟩

theorem checkSequence_keeps (s : RtpSession) (rtp : RtpPacket) :
    Keeps p s (s.checkSequence rtp).1 := .of_same rfl rfl rfl rfl

variable (key) in
theorem checkSequence_quiet (s : RtpSession) (rtp : RtpPacket) :
    Quiet key (s.checkSequence rtp).2 := by
  unfold checkSequence
  dsimp only
  split
  · split <;> simp [Quiet, RtpCoreOutput.isSend, RtpCoreOutput.marks]
  · simp [Quiet]

theorem buildDemuxer_keeps (s : RtpSession) : Keeps p s s.buildDemuxer := by
  unfold buildDemuxer
  split
  · refine ⟨rfl, rfl, rfl, rfl, rfl, id, fun _ h => ⟨h.clockRate, ?_⟩⟩
    dsimp only
    split <;> rename_i hmode
    · exact hmode
    · exact hmode
    · exact ⟨by assumption, by assumption⟩
  · exact .refl p s

/-- A demuxer that takes the place of one of its kind. -/
theorem Keeps.demuxer {d : SessionDemuxer}
    (h : s.demuxer.Fits s.payloadMode → d.Fits s.payloadMode) : Keeps p s { s with demuxer := d } :=
  ⟨rfl, rfl, rfl, rfl, rfl, id, fun _ hs => ⟨hs.clockRate, h hs.demuxer⟩⟩

theorem psOutput_quiet (s : RtpSession) (k : RtpSessionKey) (source : Option SocketAddr)
    (events : List PsDemuxEvent) : Quiet key (events.filterMap (s.psOutput k source)) := by
  intro o ho
  obtain ⟨e, _, he⟩ := List.mem_filterMap.mp ho
  unfold psOutput at he
  split at he
  · dsimp only at he
    split at he <;> cases he
    exact ⟨rfl, rfl⟩
  · split at he <;> cases he
    exact ⟨rfl, rfl⟩
  · cases he

theorem tsOutput_quiet (s : RtpSession) (k : RtpSessionKey) (source : Option SocketAddr)
    (events : List MpegTsDemuxEvent) : Quiet key (events.filterMap (s.tsOutput k source)) := by
  intro o ho
  obtain ⟨e, _, he⟩ := List.mem_filterMap.mp ho
  unfold tsOutput at he
  split at he
  · split at he <;> cases he
    exact ⟨rfl, rfl⟩
  · split at he <;> cases he
    exact ⟨rfl, rfl⟩
  · cases he

variable (key) in
theorem demux_keeps {order : MapOrder} (h : s.demux order k payload source = .ok (s', outputs)) :
    Keeps p s s' ∧ Quiet key outputs := by
  unfold demux at h
  split at h
  · rename_i d hd
    obtain ⟨⟨d', events⟩, _, h⟩ := bind_eq_ok h
    cases h
    exact ⟨.demuxer fun h => by rw [hd] at h; exact h, s.tsOutput_quiet _ _ _⟩
  · rename_i d hd
    cases h
    exact ⟨.demuxer fun h => by rw [hd] at h; exact h, s.psOutput_quiet _ _ _⟩
  · cases h
    exact ⟨.refl p s, by simp [Quiet]⟩

theorem bindSource_keeps {ssrc : UInt32} (h : s.bindSource settings k ssrc seq receivedAtMs src =
    .ok (s', outputs, accepted)) : Keeps p s s' ∧ Quiet key outputs := by
  unfold bindSource at h
  dsimp only at h
  split at h
  · cases h
    exact ⟨.of_same rfl rfl rfl rfl, by simp [Quiet]⟩
  · split at h
    · cases h
      exact ⟨.of_same rfl rfl rfl rfl, by simp [Quiet]⟩
    · split at h
      all_goals
        obtain ⟨count, _, h⟩ := bind_eq_ok h
        cases h
        exact ⟨.of_same rfl rfl rfl rfl, by simp [Quiet, RtpCoreOutput.isSend, RtpCoreOutput.marks]⟩

/-- A session is bound to the address that it was created for. -/
theorem bindSource_accepts {ssrc : UInt32} (h : s.bindSource settings k ssrc seq receivedAtMs src =
    .ok (s', outputs, accepted)) (hsrc : s.sourceAddr = some src) :
    accepted = true ∧ s'.reorder = s.reorder ∧ s'.payloadType = s.payloadType := by
  unfold bindSource at h
  rw [hsrc] at h
  simp only [if_true] at h
  cases h
  exact ⟨rfl, rfl, rfl⟩

variable (key) in
theorem checkSource_keeps {rtp : RtpPacket}
    (h : s.checkSource settings k rtp receivedAtMs source = .ok (s', outputs, accepted)) :
    Keeps p s s' ∧ Quiet key outputs := by
  cases source with
  | none =>
    cases h
    exact ⟨.refl p s, by simp [Quiet]⟩
  | some src => exact bindSource_keeps h

theorem checkSource_accepts {rtp : RtpPacket}
    (h : s.checkSource settings k rtp receivedAtMs source = .ok (s', outputs, accepted))
    (hsource : source = none ∨ s.sourceAddr = source) :
    accepted = true ∧ s'.reorder = s.reorder ∧ s'.payloadType = s.payloadType := by
  cases source with
  | none =>
    cases h
    exact ⟨rfl, rfl, rfl⟩
  | some src => exact bindSource_accepts h (hsource.resolve_left (by simp))

theorem checkTimeouts_keeps (s : RtpSession) (settings : RtpCoreSettings) (nowMs : UInt64) :
    Keeps p s (s.checkTimeouts settings nowMs).1 := by
  unfold checkTimeouts
  dsimp only
  split
  · exact .refl p s
  · split
    · exact .refl p s
    · split
      · exact .of_same rfl rfl rfl rfl
      · split
        · exact .of_same rfl rfl rfl rfl
        · split <;> exact .of_same rfl rfl rfl rfl

theorem reportPacket_keeps (s : RtpSession) (nowMs : UInt64) :
    Keeps p s (s.reportPacket nowMs).1 := by
  have hrate : (if 0 < s.rtcp.packetsReceived then s.rtcp.reportBlock s.peerSsrc nowMs
      else (s.rtcp, none)).1.clockRateHz = s.rtcp.clockRateHz := by
    split
    · exact RtcpReportState.reportBlock_clockRateHz ..
    · rfl
  unfold reportPacket
  dsimp only
  split <;> exact .of_same rfl rfl rfl hrate

variable (key) in
theorem report_keeps (s : RtpSession) (settings : RtpCoreSettings) (nowMs : UInt64) :
    Keeps p s (s.report settings nowMs).1 ∧ Quiet key (s.report settings nowMs).2 := by
  have hdue : Keeps p s { s with lastRtcpReportMs := nowMs } := .of_same rfl rfl rfl rfl
  have hnone : Quiet key [] := by simp [Quiet]
  unfold report
  dsimp only
  generalize (if s.lastRtcpReportMs = 0 then nowMs else s.lastRtcpReportMs) = last
  split
  · exact ⟨.of_same rfl rfl rfl rfl, hnone⟩
  · split
    · exact ⟨hdue, hnone⟩
    · split
      · exact ⟨hdue.trans (reportPacket_keeps _ _), by
          simp [Quiet, RtpCoreOutput.isSend, RtpCoreOutput.marks]⟩
      · exact ⟨hdue.trans (reportPacket_keeps _ _), hnone⟩

end RtpSession

end CheetahMedia.Rtp
