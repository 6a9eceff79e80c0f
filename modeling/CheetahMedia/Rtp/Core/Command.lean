import CheetahMedia.Rtp.Core

namespace CheetahMedia.Rtp
open Lib Lib.Checked Codec

namespace RtpSession

def onSenderReport (s : RtpSession) (source : SocketAddr) (ntp nowMs : UInt64) : RtpSession :=
  { s with
    rtcpSourceAddr := some source
    rtcp := s.rtcp.onSenderReport ntp nowMs
    lastRrReceivedMs := max nowMs 1 }

def onReceiverReport (s : RtpSession) (source : SocketAddr) (nowMs : UInt64) : RtpSession :=
  { s with rtcpSourceAddr := some source, lastRrReceivedMs := max nowMs 1 }

/-- A receiver that hears nothing, or a sender that nobody reports to, is given up. -/
def checkTimeouts (s : RtpSession) (settings : RtpCoreSettings) (nowMs : UInt64) :
    RtpSession × Option RtpSessionCloseReason :=
  let expired (since : UInt64) : Prop :=
    settings.sessionIdleTimeoutMs.toNat < nowMs.toNat - since.toNat
  if s.checkPaused then (s, none)
  else if s.transportMode ≠ .sendOnly ∧ s.lastActivityMs ≠ 0 ∧ expired s.lastActivityMs then
    (s, some .idleTimeout)
  else
    let s := { s with lastActivityMs := if s.lastActivityMs = 0 then nowMs else s.lastActivityMs }
    if s.transportMode = .recvOnly then (s, none)
    else if s.lastRrReceivedMs = 0 then ({ s with lastRrReceivedMs := nowMs }, none)
    else if expired s.lastRrReceivedMs then (s, some .rrTimeout)
    else (s, none)

/-- Milliseconds since 1970 as the seconds since 1900 and their fraction. -/
def msToNtpTimestamp (nowMs : UInt64) : UInt64 :=
  let seconds := nowMs / 1000 + 2208988800
  let fraction := nowMs % 1000 * (0x100000000 / 1000)
  (seconds <<< 32) ||| fraction

def senderReport (s : RtpSession) (nowMs : UInt64) (block : Option RtcpReportBlock) :
    RtcpSenderReport :=
  let wallClockMs := nowMs.toNat + s.rtcpSender.wallClockOffsetMs.toNat
  { ssrc := s.ssrc
    ntpTimestamp := msToNtpTimestamp (UInt64.ofNat (min wallClockMs 0xFFFFFFFFFFFFFFFF))
    rtpTimestamp := s.rtcpSender.lastSentRtpTimestamp
    packetsSent := UInt32.ofNat s.packetsSent
    octetsSent := UInt32.ofNat s.bytesSent
    reportBlocks := block.toList }

/-- A sender reports what it sent, and whoever received something reports on that. -/
def reportPacket (s : RtpSession) (nowMs : UInt64) : RtpSession × Option RtcpPacket :=
  let (rtcp, block) :=
    if 0 < s.rtcp.packetsReceived then s.rtcp.reportBlock s.peerSsrc nowMs else (s.rtcp, none)
  let reported := { s with rtcp := rtcp }
  if 0 < s.packetsSent then (reported, some (.senderReport (s.senderReport nowMs block)))
  else (reported, block.map fun block => .receiverReport { ssrc := s.ssrc, reportBlocks := [block] })

def report (s : RtpSession) (settings : RtpCoreSettings) (nowMs : UInt64) :
    RtpSession × List RtpCoreOutput :=
  let last := if s.lastRtcpReportMs = 0 then nowMs else s.lastRtcpReportMs
  if nowMs.toNat - last.toNat < settings.rtcpReportIntervalMs.toNat then
    ({ s with lastRtcpReportMs := last }, [])
  else
    let s := { s with lastRtcpReportMs := nowMs }
    match s.rtcpSourceAddr.or (s.destination.or s.sourceAddr) with
    | none => (s, [])
    | some dest =>
      let (reported, packet) := s.reportPacket nowMs
      match packet.bind fun packet => (RtcpCompoundPacket.encode ⟨[packet]⟩).toOption with
      | some data => (reported, [.sendRtcp s.sessionKey s.rtcpSourceAddr dest s.tcpConnId data])
      | none => (reported, [])

/-- Video has a clock of 90 kHz, anything else that of its time base. -/
def frameClockRate (frame : AVFrame) : UInt32 :=
  match frame.mediaKind with
  | .video => 90000
  | _ => if 0 < frame.timebase.2 then UInt32.ofNat frame.timebase.2 else 8000

def framePayloadType (s : RtpSession) (frame : AVFrame) : UInt8 :=
  match s.egressPayloadMode, frame.mediaKind with
  | .ps, _ => 96
  | .ts, _ => 33
  | _, .audio =>
    match frame.codec with
    | .g711u => 0
    | .g711a => 8
    | .mp3 => 14
    | _ => 97
  | _, .video => 96
  | _, _ => 97

/-- The frame is sent as samples of one byte. -/
def isRawAudio (s : RtpSession) (frame : AVFrame) : Bool :=
  s.egressPayloadMode = .rawAudio ∧ frame.mediaKind = .audio ∧
    (frame.codec = .g711u ∨ frame.codec = .g711a)

/-- Raw audio goes on where the last frame of it ended. -/
def frameTimestamp (s : RtpSession) (frame : AVFrame) : UInt32 :=
  let ticks := microsToTicks (frameClockRate frame) frame.ptsUs
  if s.isRawAudio frame then s.nextTimestamp.getD ticks else ticks

def frameHeader (s : RtpSession) (frame : AVFrame) : RtpHeader where
  version := 2
  payloadType := s.framePayloadType frame
  sequenceNumber := s.nextSeq
  timestamp := s.frameTimestamp frame
  ssrc := s.ssrc
  marker := false

def framePackets (s : RtpSession) (frame : AVFrame) : List RtpPacket :=
  if s.isRawAudio frame then
    packetizeG711 frame.payload (frameClockRate frame) (max (s.packetDurationMs.getD 20) 1)
      (s.frameHeader frame)
  else packetizePayload frame.payload 1400 (s.frameHeader frame)

/-- What goes out for a packet: without a connection or a destination that is nothing. -/
def packetOutputs (s : RtpSession) (p : RtpPacket) : List RtpCoreOutput :=
  match s.tcpConnId, s.destination with
  | some connId, _ => [.sendTcp connId s.sessionKey (encodeTcpRtpFrame p)]
  | none, some dest => [.sendUdp s.sessionKey dest p.encode]
  | none, none => []

def sendPackets (s : RtpSession) : List RtpPacket → Checked (RtpSession × List RtpCoreOutput)
  | [] => .ok (s, [])
  | p :: packets => do
    let counted := { s with
      packetsSent := ← u32 (s.packetsSent + 1)
      bytesSent := ← u32 (s.bytesSent + p.payload.length) }
    let (s, outputs) ← sendPackets counted packets
    return (s, counted.packetOutputs p ++ outputs)

/-- The frame is not refused. -/
def Accepts (s : RtpSession) (frame : AVFrame) : Prop :=
  s.transportMode ≠ .recvOnly ∧
    trackFilterAllowsTrack s.egressTrackFilter frame.mediaKind = true ∧ frame.payload ≠ []

instance (s : RtpSession) (frame : AVFrame) : Decidable (s.Accepts frame) :=
  inferInstanceAs (Decidable (_ ∧ _))

/-- Where the raw audio of the next frame begins. -/
def nextFrameTimestamp (s : RtpSession) (frame : AVFrame) : Option UInt32 :=
  if s.isRawAudio frame then
    match (s.framePackets frame).getLast? with
    | some last => some (last.header.timestamp + UInt32.ofNat last.payload.length)
    | none => s.nextTimestamp
  else s.nextTimestamp

def stamp (s : RtpSession) (frame : AVFrame) : RtpSession :=
  { s with
    rtcpSender.lastSentRtpTimestamp := s.frameTimestamp frame
    nextTimestamp := s.nextFrameTimestamp frame }

/-- Advance by the number of packets, which is cut down to 16 bits and is one at least. -/
def advance (s : RtpSession) (packetCount : Nat) : RtpSession :=
  { s with nextSeq := s.nextSeq + max (UInt16.ofNat packetCount) 1 }

def afterEgress (s : RtpSession) (key : RtpSessionKey) : RtpSession × List RtpCoreOutput :=
  match stateAfterEgress s.transportMode s.state (s.state = .talk) with
  | some newState => s.stateChanged key newState
  | none => (s, [])

def sendFrame (s : RtpSession) (key : RtpSessionKey) (frame : AVFrame) :
    Checked (RtpSession × List RtpCoreOutput) :=
  if ¬s.Accepts frame then .ok (s, [])
  else do
    let packets := s.framePackets frame
    let (s, outputs) ← (s.stamp frame).sendPackets packets
    let (s, changed) := (s.advance packets.length).afterEgress key
    return (s, outputs ++ changed)

def patchSsrc (s : RtpSession) : Option UInt32 → RtpSession × Bool
  | some ssrc =>
    if ssrc ≠ s.ssrc then ({ s with ssrc := ssrc, peerSsrc := ssrc }, true) else (s, false)
  | none => (s, false)

def patchPayloadType (s : RtpSession) : Option UInt8 → RtpSession × Bool
  | some payloadType =>
    let newMode := payloadModeFromPayloadType payloadType
    let patched := { s with payloadType := some payloadType }
    if s.payloadMode ≠ newMode then
      ({ patched with payloadMode := newMode, egressPayloadMode := newMode, demuxer := .pending },
        true)
    else (patched, s.payloadType ≠ some payloadType)
  | none => (s, false)

def patchPauseCheck (s : RtpSession) (nowMs : UInt64) : Option Bool → RtpSession × Bool
  | some paused =>
    if s.checkPaused ≠ paused then
      ({ s with
          checkPaused := paused
          lastActivityMs := if paused then s.lastActivityMs else nowMs
          lastRrReceivedMs := if paused then s.lastRrReceivedMs else nowMs }, true)
    else (s, false)
  | none => (s, false)

def patchSourcePolicy (s : RtpSession) : Option RtpSourcePolicy → RtpSession × Bool
  | some policy =>
    if s.sourcePolicy ≠ policy then ({ s with sourcePolicy := policy }, true) else (s, false)
  | none => (s, false)

/-- The fields that the patch names, one after the other. -/
def patch (s : RtpSession) (nowMs : UInt64) (patch : RtpSessionPatch) : RtpSession × Bool :=
  let (s, ssrcChanged) := s.patchSsrc patch.ssrc
  let (s, payloadTypeChanged) := s.patchPayloadType patch.payloadType
  let (s, pauseChanged) := s.patchPauseCheck nowMs patch.pauseCheck
  let (s, policyChanged) := s.patchSourcePolicy patch.sourcePolicy
  (s, ssrcChanged || payloadTypeChanged || pauseChanged || policyChanged)

def nextGeneration (s : RtpSession) (changed : Bool) : Checked Nat :=
  if changed then u64 (s.generation + 1) else .ok s.generation

end RtpSession

namespace RtpCore

section Rtcp
variable (order : RtpMapOrder) (source : SocketAddr)

/-- One packet of a compound, and the sessions that it says goodbye to. -/
def handleRtcpPacket (c : RtpCore) : RtcpPacket → RtpCore × List RtpSessionKey
  | .senderReport sr =>
    ((order.sessions c.sessions).foldl (fun c' key => c'.modifySession key fun s =>
      if s.peerSsrc = sr.ssrc then s.onSenderReport source sr.ntpTimestamp c.nowMs else s) c, [])
  | .receiverReport rr =>
    (rr.reportBlocks.foldl (fun c block =>
      match c.ssrcToSession.lookup block.ssrc with
      | some key => c.modifySession key (·.onReceiverReport source c.nowMs)
      | none => c) c, [])
  | .bye bye =>
    (c, bye.ssrcs.flatMap fun ssrc => (order.sessions c.sessions).filter fun key =>
      (c.sessions.lookup key).any fun s => s.peerSsrc = ssrc ∨ s.ssrc = ssrc)
  | _ => (c, [])

def handleRtcpPackets : RtpCore → List RtcpPacket → RtpCore × List RtpSessionKey
  | c, [] => (c, [])
  | c, packet :: rest =>
    let (c, keys) := handleRtcpPacket order source c packet
    let (c, more) := handleRtcpPackets c rest
    (c, keys ++ more)

def closeByes (c : RtpCore) : List RtpSessionKey → RtpCore × List RtpCoreOutput
  | [] => (c, [])
  | key :: rest =>
    let (c, outputs) := (c.modifySession key fun s =>
      { s with rtcpSourceAddr := some source }).closeSession key .bye
    let (c, more) := closeByes c rest
    (c, outputs ++ more)

def processRtcpPacket (c : RtpCore) (datagram : RtpDatagram) : RtpCore × List RtpCoreOutput :=
  match RtcpCompoundPacket.parse datagram.data with
  | .error _ => (c, [])
  | .ok compound =>
    let (c, byeKeys) := handleRtcpPackets order datagram.source c compound.packets
    closeByes datagram.source c byeKeys

end Rtcp

def tickSessions (c : RtpCore) :
    List RtpSessionKey → RtpCore × List RtpCoreOutput × List (RtpSessionKey × RtpSessionCloseReason)
  | [] => (c, [], [])
  | key :: rest =>
    match c.sessions.lookup key with
    | none => c.tickSessions rest
    | some s =>
      let (s, reason) := s.checkTimeouts c.toRtpCoreSettings c.nowMs
      match reason with
      | some reason =>
        let (c, outputs, toRemove) := (c.putSession key s).tickSessions rest
        (c, outputs, (key, reason) :: toRemove)
      | none =>
        let (s, reports) := s.report c.toRtpCoreSettings c.nowMs
        let (c, outputs, toRemove) := (c.putSession key s).tickSessions rest
        (c, reports ++ outputs, toRemove)

def processTick (order : RtpMapOrder) (c : RtpCore) (nowMs : UInt64) :
    RtpCore × List RtpCoreOutput :=
  let c := { c with nowMs := nowMs }
  let (c, outputs, toRemove) := c.tickSessions (order.sessions c.sessions)
  let (c, closed) := c.closeSessions toRemove
  (c, outputs ++ closed)

def createServer (c : RtpCore) (spec : RtpServerSpec) (random : UInt32) :
    RtpCore × List RtpCoreOutput :=
  let key := spec.sessionKey
  if (c.sessions.lookup key).isSome then (c, [])
  else
    let ssrc := spec.ssrc.getD (random &&& 0x7FFFFFFF)
    let s := { RtpSession.new key ssrc spec.payloadMode spec.transportMode spec.trackFilter
        (spec.sourcePolicy.getD .strict) 1 c.wallClockOffsetMs with
      packetDurationMs := spec.packetDurationMs }
    ((c.putSession key s).mapSsrc ssrc key,
      [.event (.sessionCreated key ssrc spec.payloadMode spec.transportMode)])

/-- A session that exists is given a connection and a destination; one that talks back changes
over to sending as well. -/
def attachClient (c : RtpCore) (s : RtpSession) (spec : RtpClientSpec) :
    RtpCore × List RtpCoreOutput :=
  let key := spec.sessionKey
  let c := if spec.tcpConnId.isSome then (c.unmapConn s.tcpConnId).mapConn spec.tcpConnId key else c
  let s := { s with
    tcpConnId := spec.tcpConnId.or s.tcpConnId
    destination := s.destination.or (some spec.destination) }
  if spec.connectionType = some .voiceTalk then
    let (s, changed) := { s with
      transportMode := spec.transportMode
      egressTrackFilter := spec.trackFilter
      egressPayloadMode := spec.payloadMode
      packetDurationMs := spec.packetDurationMs
      destination := some spec.destination }.stateChanged key .talk
    (c.putSession key s, changed)
  else (c.putSession key s, [])

def createClient (c : RtpCore) (spec : RtpClientSpec) : RtpCore × List RtpCoreOutput :=
  let key := spec.sessionKey
  match c.sessions.lookup key with
  | some s => c.attachClient s spec
  | none =>
    let s := { RtpSession.new key spec.ssrc spec.payloadMode spec.transportMode spec.trackFilter
        (spec.sourcePolicy.getD .strict) 1 c.wallClockOffsetMs with
      destination := some spec.destination
      tcpConnId := spec.tcpConnId
      packetDurationMs := spec.packetDurationMs }
    (((c.putSession key s).mapSsrc spec.ssrc key).mapConn spec.tcpConnId key,
      [.event (.sessionCreated key spec.ssrc spec.payloadMode spec.transportMode)])

def sendFrame (c : RtpCore) (key : RtpSessionKey) (frame : AVFrame) : RtpCoreResult :=
  match c.sessions.lookup key with
  | none => .ok (c, [])
  | some s => do
    let (s, outputs) ← s.sendFrame key frame
    return (c.putSession key s, outputs)

def updateFailed (key : RtpSessionKey) (reason : Text) : List RtpCoreOutput :=
  [.event (.sessionUpdateFailed key reason)]

/-- The session is out of the map while it is patched. -/
def handleUpdateSession (c : RtpCore) (key : RtpSessionKey) (patch : RtpSessionPatch) :
    RtpCoreResult :=
  match c.sessions.lookup key with
  | none => .ok (c, updateFailed key "session not found".toList)
  | some s =>
    let c := { c with sessions := c.sessions.erase key }
    let newSsrc := patch.ssrc.filter (· ≠ s.ssrc)
    let isOther (ssrc : UInt32) : Bool := (c.ssrcToSession.lookup ssrc).any (· ≠ key)
    if patch.ssrc = none ∧ patch.payloadType = none ∧ patch.pauseCheck = none ∧
        patch.sourcePolicy = none then
      .ok (c.putSession key s, updateFailed key "empty patch".toList)
    else if s.generation ≠ patch.expectedGeneration then
      .ok (c.putSession key s, updateFailed key "generation mismatch".toList)
    else
      match newSsrc.filter isOther with
      | some ssrc =>
        .ok (c.putSession key s, updateFailed key
          ("ssrc ".toList ++ Text.decimal ssrc.toNat ++ " already in use".toList))
      | none => do
        let ssrcToSession :=
          match newSsrc with
          | some ssrc => (c.ssrcToSession.erase s.ssrc).insert ssrc key
          | none => c.ssrcToSession
        let (patched, changed) := s.patch c.nowMs patch
        let generation ← s.nextGeneration changed
        let updated := { patched with
          generation := generation
          updatedAtMs := if changed then c.nowMs else s.updatedAtMs
          lastError := none }
        return ({ c with ssrcToSession := ssrcToSession }.putSession key updated,
          [.event (.sessionUpdated key generation newSsrc patch.payloadType
            (patch.pauseCheck.filter (s.checkPaused ≠ ·))
            (patch.sourcePolicy.filter (s.sourcePolicy ≠ ·)))])

def processCommand (c : RtpCore) : RtpCoreCommand → RtpCoreResult
  | .createServer spec random => .ok (c.createServer spec random)
  | .createClient spec => .ok (c.createClient spec)
  | .sendFrame key frame => c.sendFrame key frame
  | .stopSession key => .ok (c.closeSession key .stopped)
  | .updateSession key patch => c.handleUpdateSession key patch
  | .pauseCheck key paused =>
    .ok (c.modifySession key fun s =>
      { s with
        checkPaused := paused
        lastActivityMs := if paused then s.lastActivityMs else c.nowMs
        lastRrReceivedMs := if paused then s.lastRrReceivedMs else c.nowMs }, [])
  | .reportSendFailure key reason =>
    let (c, outputs) := c.closeSession key .connectionClosed
    .ok (c, .diagnostic (.sendFailed key reason) :: outputs)

def handleInput (order : RtpMapOrder) (c : RtpCore) : RtpCoreInput → RtpCoreResult
  | .udpPacket datagram => c.processUdpPacket order datagram
  | .tcpBytes chunk => c.processTcpBytes order chunk
  | .tcpConnectionClosed connId => c.processTcpConnectionClosed order connId
  | .rtcpPacket datagram => .ok (c.processRtcpPacket order datagram)
  | .tick nowMs => .ok (c.processTick order nowMs)
  | .command cmd => c.processCommand cmd

/-- What a user of the core can do. -/
inductive Call
  | input (input : RtpCoreInput)
  | setTcpFraming (framing : RtpTcpFraming)
  | setRtcpReportIntervalMs (ms : UInt64)
  | setWallClockOffsetMs (ms : UInt64)
  | setMaxRtpLenCap (cap : Nat)
  | setPtLockConfidence (confidence : UInt8)
  | setMaxToleratedUnknownPtPackets (max : UInt8)
  | setSourceRebindIdleWindowMs (ms : UInt64)
  | setMaxSourceRebinds (max : UInt32)

def setWallClockOffsetMs (order : RtpMapOrder) (c : RtpCore) (ms : UInt64) : RtpCore :=
  (order.sessions c.sessions).foldl (fun c key => c.modifySession key fun s =>
    { s with rtcpSender.wallClockOffsetMs := ms }) { c with wallClockOffsetMs := ms }

def call (order : RtpMapOrder) (c : RtpCore) : Call → RtpCoreResult
  | .input input => c.handleInput order input
  | .setTcpFraming framing => .ok ({ c with tcpFraming := framing }, [])
  | .setRtcpReportIntervalMs ms => .ok ({ c with rtcpReportIntervalMs := max ms 1 }, [])
  | .setWallClockOffsetMs ms => .ok (c.setWallClockOffsetMs order ms, [])
  | .setMaxRtpLenCap cap => .ok ({ c with maxRtpLenCap := max cap 1500 }, [])
  | .setPtLockConfidence confidence =>
    .ok ({ c with ptLockConfidence := max confidence.toNat 1 }, [])
  | .setMaxToleratedUnknownPtPackets max' =>
    .ok ({ c with maxToleratedUnknownPtPackets := max max'.toNat 1 }, [])
  | .setSourceRebindIdleWindowMs ms => .ok ({ c with sourceRebindIdleWindowMs := max ms 1 }, [])
  | .setMaxSourceRebinds max' => .ok ({ c with maxSourceRebinds := max max'.toNat 1 }, [])

end RtpCore

end CheetahMedia.Rtp
