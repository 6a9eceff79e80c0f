import CheetahMedia.Codec.Ehome
import CheetahMedia.Codec.Ps.Demuxer
import CheetahMedia.Codec.Rtp.Packetize
import CheetahMedia.Codec.Rtp.PayloadType
import CheetahMedia.Codec.Ts.Demux
import CheetahMedia.Rtp.RtcpReport

namespace CheetahMedia.Rtp
open Lib Lib.Checked Codec

abbrev RtpSessionKey := Text

structure SocketAddr where
  ip : List UInt8
  port : UInt16
deriving DecidableEq

inductive RtpTransportMode
  | recvOnly | sendOnly | sendRecv
deriving DecidableEq

inductive RtpSessionState
  | inactive | receiving | sending | sendRecv | talk | closed
deriving DecidableEq

inductive RtpConnectionType
  | udpActive | udpPassive | tcpActive | tcpPassive | voiceTalk
deriving DecidableEq

inductive RtpTrackFilter
  | all | onlyAudio | onlyVideo

inductive RtpSourcePolicy
  | strict | allowValidatedRebind
deriving DecidableEq

inductive RtpSessionCloseReason
  | stopped
  | idleTimeout
  | rrTimeout
  | bye
  | unresolvablePayloadType (current new : UInt8) (count : Nat)
  | payloadModeOscillation (fromMode toMode : RtpPayloadMode)
  | connectionClosed

inductive RtpCoreEvent
  | sessionCreated (sessionKey : RtpSessionKey) (ssrc : UInt32) (payloadMode : RtpPayloadMode)
      (transportMode : RtpTransportMode)
  | sessionUpdated (sessionKey : RtpSessionKey) (generation : Nat) (ssrc : Option UInt32)
      (payloadType : Option UInt8) (pauseCheck : Option Bool)
      (sourcePolicy : Option RtpSourcePolicy)
  | formatChanged (sessionKey : RtpSessionKey) (payloadType : UInt8)
      (oldPayloadMode newPayloadMode : RtpPayloadMode)
  | sourceChanged (sessionKey : RtpSessionKey) (old new : SocketAddr)
  | sessionUpdateFailed (sessionKey : RtpSessionKey) (reason : Text)
  | sessionStateChanged (sessionKey : RtpSessionKey) (oldState newState : RtpSessionState)
  | sessionClosed (sessionKey : RtpSessionKey) (reason : RtpSessionCloseReason)
  | trackFound (sessionKey : RtpSessionKey) (tracks : List TrackInfo)
  | frame (sessionKey : RtpSessionKey) (frame : AVFrame) (sourceAddr : Option SocketAddr)

inductive RtpCoreDiagnostic
  | invalidRtpVersion (version : UInt8)
  | rtpHeaderError
  | emptyPayload (ssrc : UInt32)
  | unknownPayload (ssrc : UInt32)
  | sequenceGap (ssrc : UInt32) (expected got : UInt16)
  | sourceSpoofed (ssrc : UInt32) (expected got : SocketAddr)
  | oversizedPayload (ssrc : UInt32) (len cap : Nat)
  | sendFailed (sessionKey : RtpSessionKey) (reason : Text)

inductive RtpCoreOutput
  | sendUdp (sessionKey : RtpSessionKey) (destination : SocketAddr) (data : Bytes)
  | sendTcp (connId : UInt64) (sessionKey : RtpSessionKey) (data : Bytes)
  | sendRtcp (sessionKey : RtpSessionKey) (rtcpDestination : Option SocketAddr)
      (destination : SocketAddr) (connId : Option UInt64) (data : Bytes)
  | event (event : RtpCoreEvent)
  | diagnostic (diagnostic : RtpCoreDiagnostic)
  | closeSession (sessionKey : RtpSessionKey)
  | closeTcpConnection (connId : UInt64)

/-- The default clock rate of a payload mode. -/
def defaultClockRateHz : RtpPayloadMode → UInt64
  | .rawAudio => 8000
  | _ => 90000

/-- The mode that an update takes a payload type to mean. -/
def payloadModeFromPayloadType (payloadType : UInt8) : RtpPayloadMode :=
  if payloadType = 0 ∨ payloadType = 8 then .rawAudio
  else if payloadType = 33 then .ts
  else if 96 ≤ payloadType ∧ payloadType ≤ 99 then .es
  else .ps

def trackFilterAllowsTrack : RtpTrackFilter → MediaKind → Bool
  | .all, _ => true
  | .onlyAudio, kind => kind = .audio
  | .onlyVideo, kind => kind = .video

/-- The state after a packet was received. -/
def stateAfterIngress : RtpTransportMode → RtpSessionState → Option RtpSessionState
  | .recvOnly, .inactive | .recvOnly, .receiving => some .receiving
  | .sendRecv, .inactive | .sendRecv, .receiving | .sendRecv, .sending => some .sendRecv
  | _, _ => none

/-- The state after a frame was sent. -/
def stateAfterEgress (transportMode : RtpTransportMode) (current : RtpSessionState)
    (isTalk : Bool) : Option RtpSessionState :=
  if isTalk then if current = .talk then none else some .talk
  else
    match transportMode, current with
    | .sendOnly, .inactive | .sendOnly, .sending => some .sending
    | .sendRecv, .inactive | .sendRecv, .receiving | .sendRecv, .sending => some .sendRecv
    | _, _ => none

/-- The next number, one a little ahead, or one far behind. -/
def plausibleSeqContinuation (lastSeq : Option UInt16) (seq : UInt16) : Bool :=
  match lastSeq with
  | none => true
  | some last => if seq = last then false else seq - last ≤ 64 ∨ 64 < last - seq

inductive SessionDemuxer
  | pending
  | ts (demuxer : MpegTsDemuxer)
  | ps (demuxer : PsDemuxer)
  | bypass

/-- The part of the report state that only sender reports are made of. -/
structure RtcpSenderState where
  lastSentRtpTimestamp : UInt32 := 0
  wallClockOffsetMs : UInt64

/-- The counters count; those of 32 bits are checked where they are advanced. -/
structure RtpSession where
  sessionKey : RtpSessionKey
  ssrc : UInt32
  payloadType : Option UInt8 := none
  payloadMode : RtpPayloadMode
  egressPayloadMode : RtpPayloadMode
  transportMode : RtpTransportMode
  state : RtpSessionState := .inactive
  trackFilter : RtpTrackFilter
  egressTrackFilter : RtpTrackFilter
  demuxer : SessionDemuxer := .pending
  lastSeq : Option UInt16 := none
  lastReceivedSeq : Option UInt16 := none
  reorder : RtpReorderBuffer (RtpPacket × UInt64 × Option SocketAddr) := .new {}
  ptProbeAttempts : Nat := 0
  ptPendingProfile : Option RtpPayloadProfile := none
  ptPendingConfirmCount : Nat := 0
  ptChangeUnknownCount : Nat := 0
  ptFormatChangeCount : Nat := 0
  sourceAddr : Option SocketAddr := none
  sourcePolicy : RtpSourcePolicy
  sourceSpoofCount : Nat := 0
  sourceRebindCount : Nat := 0
  rtcpSourceAddr : Option SocketAddr := none
  lastActivityMs : UInt64 := 0
  destination : Option SocketAddr := none
  tcpConnId : Option UInt64 := none
  nextSeq : UInt16
  nextTimestamp : Option UInt32 := none
  packetDurationMs : Option UInt32 := none
  peerSsrc : UInt32
  packetsReceived : Nat := 0
  bytesReceived : Nat := 0
  packetsSent : Nat := 0
  bytesSent : Nat := 0
  lastRtcpReportMs : UInt64 := 0
  lastRrReceivedMs : UInt64 := 0
  checkPaused : Bool := false
  maxRtpLenObserved : Nat := 0
  generation : Nat := 1
  updatedAtMs : UInt64 := 0
  lastError : Option Text := none
  rtcp : RtcpReportState
  rtcpSender : RtcpSenderState

/-- The settings of the core, and its clock. -/
structure RtpCoreSettings where
  ptResolver : RtpPtResolver := {}
  maxSessions : Nat
  sessionIdleTimeoutMs : UInt64
  maxPtProbePackets : Nat := 8
  ptLockConfidence : Nat := 2
  maxPtFormatChanges : Nat := 3
  maxToleratedUnknownPtPackets : Nat := 255
  sourceRebindIdleWindowMs : UInt64 := 1000
  maxSourceRebinds : Nat := 10
  rtcpReportIntervalMs : UInt64 := 5000
  wallClockOffsetMs : UInt64 := 0
  nowMs : UInt64 := 0
  tcpFraming : RtpTcpFraming := .autoDetect
  maxRtpLenCap : Nat := 65536

namespace RtpSession

/-- What the places that make a session have in common. -/
def new (sessionKey : RtpSessionKey) (ssrc : UInt32) (payloadMode : RtpPayloadMode)
    (transportMode : RtpTransportMode) (trackFilter : RtpTrackFilter)
    (sourcePolicy : RtpSourcePolicy) (nextSeq : UInt16) (wallClockOffsetMs : UInt64) :
    RtpSession where
  sessionKey := sessionKey
  ssrc := ssrc
  payloadMode := payloadMode
  egressPayloadMode := payloadMode
  transportMode := transportMode
  trackFilter := trackFilter
  egressTrackFilter := trackFilter
  sourcePolicy := sourcePolicy
  nextSeq := nextSeq
  peerSsrc := ssrc
  rtcp := .new (defaultClockRateHz payloadMode)
  rtcpSender := { wallClockOffsetMs := wallClockOffsetMs }

/-- The state before, when it changes. -/
def transitionTo (s : RtpSession) (newState : RtpSessionState) :
    RtpSession × Option RtpSessionState :=
  if s.state = newState ∨ s.state = .closed then (s, none)
  else ({ s with state := newState }, some s.state)

def stateChanged (s : RtpSession) (key : RtpSessionKey) (newState : RtpSessionState) :
    RtpSession × List RtpCoreOutput :=
  match s.transitionTo newState with
  | (s, some old) => (s, [.event (.sessionStateChanged key old newState)])
  | (s, none) => (s, [])

def commitPayloadProfile (s : RtpSession) (pt : UInt8) (profile : RtpPayloadProfile) :
    RtpSession :=
  { s with
    payloadType := some pt
    payloadMode := profile.mode
    egressPayloadMode := profile.mode
    demuxer := .pending
    ptChangeUnknownCount := 0
    rtcp := s.rtcp.setClockRateHz (defaultClockRateHz profile.mode) }

/-- A profile that is only guessed at is committed once it was met often enough in a row. -/
def sniff (s : RtpSession) (settings : RtpCoreSettings) (rtp : RtpPacket) : RtpSession :=
  let s := { s with ptProbeAttempts := s.ptProbeAttempts + 1 }
  let pt := rtp.header.payloadType
  match settings.ptResolver.resolveWithSource pt rtp.payload with
  | .binding profile | .static profile | .encapsulation profile =>
    { s with
      ptPendingProfile := some profile
      ptPendingConfirmCount := settings.ptLockConfidence }.commitPayloadProfile pt profile
  | .weak profile =>
    let s := { s with
      ptPendingProfile := some profile
      ptPendingConfirmCount :=
        if s.ptPendingProfile = some profile then s.ptPendingConfirmCount + 1 else 1 }
    if settings.ptLockConfidence ≤ s.ptPendingConfirmCount then s.commitPayloadProfile pt profile
    else s
  | .unknown => { s with ptPendingProfile := none, ptPendingConfirmCount := 0 }

/-- A stream that was not recognised in time is taken for a program stream. -/
def probe (s : RtpSession) (settings : RtpCoreSettings) (rtp : RtpPacket) : RtpSession :=
  let s := if s.ptProbeAttempts < settings.maxPtProbePackets then s.sniff settings rtp else s
  if s.payloadMode = .unknown ∧ settings.maxPtProbePackets ≤ s.ptProbeAttempts then
    { s with
      payloadMode := .ps
      egressPayloadMode := .ps
      demuxer := .pending
      rtcp := s.rtcp.setClockRateHz (defaultClockRateHz .ps) }
  else s

/-- What a packet's payload type comes to. -/
structure PayloadTypeOutcome where
  session : RtpSession
  formatChange : Option RtpCoreEvent := none
  closeReason : Option RtpSessionCloseReason := none
  skipDemuxer : Bool := false

/-- A payload type other than the session's. -/
def changePayloadType (s : RtpSession) (settings : RtpCoreSettings) (key : RtpSessionKey)
    (currentPt : UInt8) (rtp : RtpPacket) : PayloadTypeOutcome :=
  let newPt := rtp.header.payloadType
  match settings.ptResolver.resolveWithSource newPt rtp.payload with
  | .binding profile | .static profile | .encapsulation profile =>
    let s := { s with ptChangeUnknownCount := 0 }
    if profile.mode ≠ s.payloadMode then
      let s := { s with ptFormatChangeCount := s.ptFormatChangeCount + 1 }
      if settings.maxPtFormatChanges < s.ptFormatChangeCount then
        { session := s, closeReason := some (.payloadModeOscillation s.payloadMode profile.mode) }
      else
        { session := s.commitPayloadProfile newPt profile
          formatChange := some (.formatChanged key newPt s.payloadMode profile.mode) }
    else { session := { s with payloadType := some newPt } }
  | .weak _ | .unknown =>
    let s := { s with ptChangeUnknownCount := s.ptChangeUnknownCount + 1 }
    if settings.maxToleratedUnknownPtPackets ≤ s.ptChangeUnknownCount then
      { session := s
        closeReason := some (.unresolvablePayloadType currentPt newPt s.ptChangeUnknownCount) }
    else { session := s, skipDemuxer := true }

def checkPayloadType (s : RtpSession) (settings : RtpCoreSettings) (key : RtpSessionKey)
    (rtp : RtpPacket) : PayloadTypeOutcome :=
  if s.payloadMode = .unknown then { session := s.probe settings rtp }
  else
    match s.payloadType with
    | none => { session := { s with payloadType := some rtp.header.payloadType } }
    | some currentPt =>
      if rtp.header.payloadType = currentPt then { session := { s with ptChangeUnknownCount := 0 } }
      else s.changePayloadType settings key currentPt rtp

/-- The statistics and the activity. -/
def countPacket (s : RtpSession) (rtp : RtpPacket) (receivedAtMs : UInt64) :
    Checked RtpSession := do
  return { s with
    packetsReceived := ← u32 (s.packetsReceived + 1)
    bytesReceived := ← u32 (s.bytesReceived + rtp.payload.length % 4294967296)
    lastActivityMs := max s.lastActivityMs receivedAtMs
    rtcp := s.rtcp.onPacket rtp.header.sequenceNumber rtp.header.timestamp receivedAtMs }

/-- The longest payload so far, within the cap. -/
def learnLength (s : RtpSession) (settings : RtpCoreSettings) (rtp : RtpPacket) :
    RtpSession × List RtpCoreOutput :=
  let payloadLen := rtp.payload.length
  let cap := settings.maxRtpLenCap
  if s.maxRtpLenObserved < payloadLen then
    ({ s with maxRtpLenObserved := min payloadLen cap },
      if cap < payloadLen then [.diagnostic (.oversizedPayload rtp.header.ssrc payloadLen cap)]
      else [])
  else (s, [])

/-- A session that this packet created announces itself instead of its state. -/
def announce (s : RtpSession) (key : RtpSessionKey) (ssrc : UInt32) (created : Bool) :
    RtpSession × List RtpCoreOutput :=
  let announced : List RtpCoreOutput :=
    if created then [.event (.sessionCreated key ssrc s.payloadMode s.transportMode)] else []
  match stateAfterIngress s.transportMode s.state with
  | none => (s, announced)
  | some newState =>
    if created then ({ s with state := newState }, announced)
    else
      let (s, changed) := s.stateChanged key newState
      (s, announced ++ changed)

def checkSequence (s : RtpSession) (rtp : RtpPacket) : RtpSession × List RtpCoreOutput :=
  let seq := rtp.header.sequenceNumber
  let gap : List RtpCoreOutput :=
    match s.lastSeq with
    | some last =>
      if seq ≠ last + 1 then [.diagnostic (.sequenceGap rtp.header.ssrc (last + 1) seq)] else []
    | none => []
  ({ s with lastSeq := some seq }, gap)

def psDemuxer : PsDemuxer := .new { maxReassemblyBytes := 4 * 1024 * 1024, maxTracks := 8 }

/-- The demuxer is built when the first packet needs it. -/
def buildDemuxer (s : RtpSession) : RtpSession :=
  match s.demuxer with
  | .pending =>
    { s with demuxer := match s.payloadMode with
        | .ts => .ts (.new { maxReassemblyBytes := 4 * 1024 * 1024, strictCrc := false })
        | .ps => .ps psDemuxer
        | _ => .bypass }
  | _ => s

/-- The tracks and the frame of a program stream that the filter lets through. -/
def psOutput (s : RtpSession) (key : RtpSessionKey) (sourceAddr : Option SocketAddr) :
    PsDemuxEvent → Option RtpCoreOutput
  | .trackInfo tracks =>
    let filtered := tracks.filter fun t => trackFilterAllowsTrack s.trackFilter t.mediaKind
    if filtered = [] then none else some (.event (.trackFound key filtered))
  | .frame f =>
    if trackFilterAllowsTrack s.trackFilter f.mediaKind then some (.event (.frame key f sourceAddr))
    else none
  | _ => none

def tsOutput (s : RtpSession) (key : RtpSessionKey) (sourceAddr : Option SocketAddr) :
    MpegTsDemuxEvent → Option RtpCoreOutput
  | .trackFound track =>
    if trackFilterAllowsTrack s.trackFilter track.mediaKind then
      some (.event (.trackFound key [track]))
    else none
  | .frame f =>
    if trackFilterAllowsTrack s.trackFilter f.mediaKind then some (.event (.frame key f sourceAddr))
    else none
  | _ => none

def demux (s : RtpSession) (order : MapOrder) (key : RtpSessionKey) (payload : Bytes)
    (sourceAddr : Option SocketAddr) : Checked (RtpSession × List RtpCoreOutput) :=
  match s.demuxer with
  | .ts d => do
    let (d, events) ← d.push payload
    return ({ s with demuxer := .ts d }, events.filterMap (s.tsOutput key sourceAddr))
  | .ps d =>
    let (d, events) := d.push order payload
    .ok ({ s with demuxer := .ps d }, events.filterMap (s.psOutput key sourceAddr))
  | _ => .ok (s, [])

/-- A packet from another address than the bound one is refused, unless the policy lets the
session move there. -/
def bindSource (s : RtpSession) (settings : RtpCoreSettings) (key : RtpSessionKey) (ssrc : UInt32)
    (seq : UInt16) (receivedAtMs : UInt64) (src : SocketAddr) :
    Checked (RtpSession × List RtpCoreOutput × Bool) := do
  let accept (s : RtpSession) : RtpSession :=
    { s with lastActivityMs := receivedAtMs, lastReceivedSeq := some seq }
  match s.sourceAddr with
  | none => return (accept { s with sourceAddr := some src }, [], true)
  | some bound =>
    if bound = src then return (accept s, [], true)
    else
      let idle := settings.sourceRebindIdleWindowMs.toNat ≤
        receivedAtMs.toNat - s.lastActivityMs.toNat
      if s.sourcePolicy = .allowValidatedRebind ∧ idle ∧
          plausibleSeqContinuation s.lastReceivedSeq seq ∧
          s.sourceRebindCount < settings.maxSourceRebinds then
        let s := { s with
          sourceRebindCount := ← u32 (s.sourceRebindCount + 1)
          sourceAddr := some src
          destination := if s.transportMode = .recvOnly then s.destination else some src
          reorder := s.reorder.reset
          lastSeq := none }
        return (accept s, [.event (.sourceChanged key bound src)], true)
      else
        let s := { s with sourceSpoofCount := ← u32 (s.sourceSpoofCount + 1) }
        return (s, [.diagnostic (.sourceSpoofed ssrc bound src)], false)

/-- Only datagrams have a source address. -/
def checkSource (s : RtpSession) (settings : RtpCoreSettings) (key : RtpSessionKey)
    (rtp : RtpPacket) (receivedAtMs : UInt64) :
    Option SocketAddr → Checked (RtpSession × List RtpCoreOutput × Bool)
  | some src =>
    s.bindSource settings key rtp.header.ssrc rtp.header.sequenceNumber receivedAtMs src
  | none => .ok (s, [], true)

end RtpSession

end CheetahMedia.Rtp
