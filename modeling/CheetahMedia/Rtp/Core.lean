import CheetahMedia.Rtp.Deframing
import CheetahMedia.Rtp.Rtcp
import CheetahMedia.Rtp.Session

namespace CheetahMedia.Rtp
open Lib Lib.Checked Codec

abbrev SessionTable := AList fun _ : RtpSessionKey => RtpSession

/-- The orders in which the maps are gone through. -/
structure RtpMapOrder where
  tracks : MapOrder
  sessions : SessionTable → List RtpSessionKey
  perm : ∀ table, (sessions table).Perm table.keys

def RtpMapOrder.listed : RtpMapOrder where
  tracks := .listed
  sessions table := table.keys
  perm _ := .refl _

structure RtpServerSpec where
  sessionKey : RtpSessionKey
  ssrc : Option UInt32
  payloadMode : RtpPayloadMode
  transportMode : RtpTransportMode
  packetDurationMs : Option UInt32
  sourcePolicy : Option RtpSourcePolicy
  trackFilter : RtpTrackFilter

structure RtpClientSpec where
  sessionKey : RtpSessionKey
  destination : SocketAddr
  ssrc : UInt32
  payloadMode : RtpPayloadMode
  transportMode : RtpTransportMode
  packetDurationMs : Option UInt32
  tcpConnId : Option UInt64
  connectionType : Option RtpConnectionType
  sourcePolicy : Option RtpSourcePolicy
  trackFilter : RtpTrackFilter

/-- What an update asks to change. -/
structure RtpSessionPatch where
  expectedGeneration : Nat
  ssrc : Option UInt32 := none
  payloadType : Option UInt8 := none
  pauseCheck : Option Bool := none
  sourcePolicy : Option RtpSourcePolicy := none

structure RtpDatagram where
  source : SocketAddr
  data : Bytes
  receivedAtMs : UInt64

structure RtpTcpChunk where
  connId : UInt64
  data : Bytes
  receivedAtMs : UInt64

/-- The random word stands for what the system's generator returns. -/
inductive RtpCoreCommand
  | createServer (spec : RtpServerSpec) (random : UInt32)
  | createClient (spec : RtpClientSpec)
  | sendFrame (sessionKey : RtpSessionKey) (frame : AVFrame)
  | stopSession (sessionKey : RtpSessionKey)
  | updateSession (sessionKey : RtpSessionKey) (patch : RtpSessionPatch)
  | pauseCheck (sessionKey : RtpSessionKey) (paused : Bool)
  | reportSendFailure (sessionKey : RtpSessionKey) (reason : Text)

inductive RtpCoreInput
  | udpPacket (datagram : RtpDatagram)
  | tcpBytes (chunk : RtpTcpChunk)
  | tcpConnectionClosed (connId : UInt64)
  | rtcpPacket (datagram : RtpDatagram)
  | tick (nowMs : UInt64)
  | command (cmd : RtpCoreCommand)

structure RtpCore extends RtpCoreSettings where
  sessions : SessionTable := ∅
  ssrcToSession : AList (fun _ : UInt32 => RtpSessionKey) := ∅
  tcpConnToSession : AList (fun _ : UInt64 => RtpSessionKey) := ∅
  ehomeDecoders : AList (fun _ : UInt64 => EhomeDecoder) := ∅

/-- What a piece of the program does to the core, with the outputs it pushes. -/
abbrev RtpCoreResult := Checked (RtpCore × List RtpCoreOutput)

/-- One piece, and another on the core it leaves. -/
def RtpCoreResult.andThen (first : RtpCoreResult) (next : RtpCore → RtpCoreResult) :
    RtpCoreResult := do
  let (c, outputs) ← first
  let (c, more) ← next c
  return (c, outputs ++ more)

namespace RtpCore

def new (maxSessions : Nat) (sessionIdleTimeoutMs : UInt64) : RtpCore :=
  { maxSessions := maxSessions, sessionIdleTimeoutMs := sessionIdleTimeoutMs }

/-- Put a session in its place. -/
def putSession (c : RtpCore) (key : RtpSessionKey) (s : RtpSession) : RtpCore :=
  { c with sessions := c.sessions.insert key s }

/-- Change a session in place, when there is one. -/
def modifySession (c : RtpCore) (key : RtpSessionKey) (f : RtpSession → RtpSession) : RtpCore :=
  match c.sessions.lookup key with
  | some s => c.putSession key (f s)
  | none => c

def mapSsrc (c : RtpCore) (ssrc : UInt32) (key : RtpSessionKey) : RtpCore :=
  { c with ssrcToSession := c.ssrcToSession.insert ssrc key }

def mapConn (c : RtpCore) (connId : Option UInt64) (key : RtpSessionKey) : RtpCore :=
  match connId with
  | some connId => { c with tcpConnToSession := c.tcpConnToSession.insert connId key }
  | none => c

def unmapConn (c : RtpCore) (connId : Option UInt64) : RtpCore :=
  match connId with
  | some connId => { c with tcpConnToSession := c.tcpConnToSession.erase connId }
  | none => c

def closeSession (c : RtpCore) (key : RtpSessionKey) (reason : RtpSessionCloseReason) :
    RtpCore × List RtpCoreOutput :=
  match c.sessions.lookup key with
  | none => (c, [])
  | some s =>
    ({ c with
        sessions := c.sessions.erase key
        ssrcToSession := c.ssrcToSession.erase s.ssrc
        tcpConnToSession := s.tcpConnId.elim c.tcpConnToSession c.tcpConnToSession.erase
        ehomeDecoders := s.tcpConnId.elim c.ehomeDecoders c.ehomeDecoders.erase },
      [.closeSession key, .event (.sessionClosed key reason)])

def closeSessions (c : RtpCore) :
    List (RtpSessionKey × RtpSessionCloseReason) → RtpCore × List RtpCoreOutput
  | [] => (c, [])
  | (key, reason) :: rest =>
    let (c, outputs) := c.closeSession key reason
    let (c, more) := c.closeSessions rest
    (c, outputs ++ more)

section Ingress
variable (order : RtpMapOrder)

/-- One packet in its turn, and the reason to close its session for. -/
def processSingleRtpPacket (c : RtpCore) (key : RtpSessionKey) (rtp : RtpPacket)
    (tcpConnId : Option UInt64) (sourceAddr : Option SocketAddr) (receivedAtMs : UInt64)
    (created : Bool) : Checked (RtpCore × List RtpCoreOutput × Option RtpSessionCloseReason) :=
  match c.sessions.lookup key with
  | none => .ok (c, [], none)
  | some s => do
    let resolved := s.checkPayloadType c.toRtpCoreSettings key rtp
    let changed := resolved.formatChange.toList.map RtpCoreOutput.event
    match resolved.closeReason with
    | some reason => return (c.putSession key resolved.session, changed, some reason)
    | none =>
      let s ← resolved.session.countPacket rtp receivedAtMs
      let (s, oversized) := s.learnLength c.toRtpCoreSettings rtp
      let (s, announced) := s.announce key rtp.header.ssrc created
      let (s, gap) := s.checkSequence rtp
      let outputs := changed ++ oversized ++ announced ++ gap
      if resolved.skipDemuxer then return (c.putSession key s, outputs, none)
      else
        let (s, media) ← s.buildDemuxer.demux order.tracks key rtp.payload sourceAddr
        -- the connection that the packet came over is the session's, when it has none
        let registered := if s.tcpConnId = none then tcpConnId else none
        let s := { s with tcpConnId := s.tcpConnId.or tcpConnId }
        return ((c.putSession key s).mapConn registered key, outputs ++ media, none)

/-- The packets that the reorder buffer released, until one of them closes the session. -/
def processReleased (key : RtpSessionKey) (tcpConnId : Option UInt64) :
    Bool → RtpCore → List (RtpPacket × UInt64 × Option SocketAddr) → RtpCoreResult
  | _, c, [] => .ok (c, [])
  | created, c, (rtp, receivedAtMs, sourceAddr) :: rest => do
    let (c, outputs, reason) ←
      c.processSingleRtpPacket order key rtp tcpConnId sourceAddr receivedAtMs created
    match reason with
    | some reason =>
      let (c, closed) := c.closeSession key reason
      return (c, outputs ++ closed)
    | none =>
      if (c.sessions.lookup key).isSome then
        let (c, more) ← processReleased key tcpConnId false c rest
        return (c, outputs ++ more)
      else return (c, outputs)

def autoSessionKey (ssrc : UInt32) : RtpSessionKey := "live/".toList ++ Text.decimal ssrc.toNat

/-- A session for an SSRC that none is mapped to. -/
def autoCreate (c : RtpCore) (rtp : RtpPacket) (sourceAddr : Option SocketAddr)
    (tcpConnId : Option UInt64) : RtpCore :=
  let ssrc := rtp.header.ssrc
  let key := autoSessionKey ssrc
  let s := { RtpSession.new key ssrc (probeRtpPayload rtp.payload) .recvOnly .all
      .allowValidatedRebind 0 c.wallClockOffsetMs with
    sourceAddr := sourceAddr
    tcpConnId := tcpConnId }
  ((c.putSession key s).mapSsrc ssrc key).mapConn tcpConnId key

/-- A packet on its way to the session with the key. -/
def routeRtpPacket (c : RtpCore) (key : RtpSessionKey) (created : Bool) (rtp : RtpPacket)
    (sourceAddr : Option SocketAddr) (tcpConnId : Option UInt64) (receivedAtMs : UInt64) :
    RtpCoreResult :=
  match c.sessions.lookup key with
  | none => .ok (c, [])
  | some s => do
    let (s, outputs, accepted) ←
      s.checkSource c.toRtpCoreSettings key rtp receivedAtMs sourceAddr
    if accepted then
      let (reorder, released) := s.reorder.push rtp.header.sequenceNumber receivedAtMs.toNat
        (rtp, receivedAtMs, sourceAddr)
      let c := c.putSession key { s with reorder := reorder }
      let (c, more) ← processReleased order key tcpConnId created c released
      return (c, outputs ++ more)
    else return (c.putSession key s, outputs)

def feedRtpPacket (c : RtpCore) (rtp : RtpPacket) (sourceAddr : Option SocketAddr)
    (tcpConnId : Option UInt64) (receivedAtMs : UInt64) : RtpCoreResult :=
  let ssrc := rtp.header.ssrc
  if rtp.header.version ≠ 2 then
    .ok (c, [.diagnostic (.invalidRtpVersion rtp.header.version)])
  else if rtp.payload = [] then .ok (c, [.diagnostic (.emptyPayload ssrc)])
  else
    match c.ssrcToSession.lookup ssrc with
    | some key => c.routeRtpPacket order key false rtp sourceAddr tcpConnId receivedAtMs
    | none =>
      if c.maxSessions ≤ c.sessions.keys.length then
        .ok (c, [.diagnostic (.unknownPayload ssrc)])
      else
        (c.autoCreate rtp sourceAddr tcpConnId).routeRtpPacket order (autoSessionKey ssrc) true rtp
          sourceAddr tcpConnId receivedAtMs

def processUdpPacket (c : RtpCore) (datagram : RtpDatagram) : RtpCoreResult :=
  match RtpPacket.parse datagram.data with
  | some rtp => c.feedRtpPacket order rtp (some datagram.source) none datagram.receivedAtMs
  | none =>
    match datagram.data with
    | b0 :: _ =>
      if b0 >>> 6 ≠ 2 then .ok (c, [.diagnostic (.invalidRtpVersion (b0 >>> 6))])
      else .ok (c, [.diagnostic .rtpHeaderError])
    | [] => .ok (c, [.diagnostic .rtpHeaderError])

/-- A handshake's SSRC as a number; a text that is none is hashed. -/
def ehomeSsrc (ssrc : Text) : UInt32 :=
  match Text.parseUnsigned 32 ssrc with
  | some n => UInt32.ofNat n
  | none => (Text.toBytes ssrc).foldl (fun h b => h * 31 + b.toUInt32) 0 &&& 0x7FFFFFFF

/-- The tracks of a handshake's codec. -/
def ehomeTracks (codec : EhomeCodecInfo) : List TrackInfo :=
  let video (name : String) : TrackInfo :=
    { TrackInfo.new 1 .video (if name = "h265" then .h265 else .h264) 90000 with
      readiness := .ready }
  let audio (name : String) : TrackInfo :=
    let codecId :=
      if name = "g711u" then CodecId.g711u else if name = "aac" then .aac else .g711a
    { TrackInfo.new 2 .audio codecId codec.sampleRate with
      channels := some codec.channels.toNat
      sampleRate := some codec.sampleRate
      readiness := .ready }
  (codec.videoCodec.map video).toList ++ (codec.audioCodec.map audio).toList

/-- The frame of a payload that is no program stream's. -/
def ehomeFrame (codec : EhomeCodecInfo) (packetsReceived : Nat) (payload : Bytes) : AVFrame :=
  let isKey := payload.head?.any fun (b : UInt8) => b &&& 0x1F = 5 ∨ (b >>> 1) &&& 0x3F = 19
  let isVideo := codec.videoCodec.isSome ∧
    (isKey ∨ payload.head?.any fun (b : UInt8) => b &&& 0x1F = 1 ∨ (b >>> 1) &&& 0x3F = 1)
  let pts : Int := packetsReceived * 40000
  if isVideo then
    let codecId := if codec.videoCodec = some "h265" then CodecId.h265 else .h264
    { AVFrame.new 1 .video codecId .canonicalH26x pts pts (1, 1000000) payload with isKey := isKey }
  else
    let codecId :=
      if codec.audioCodec = some "g711u" then CodecId.g711u
      else if codec.audioCodec = some "aac" then .aac
      else .g711a
    AVFrame.new 2 .audio codecId .g711Packet pts pts (1, 1000000) payload

/-- The demuxer of a handshake's codec. -/
def ehomeDemuxer (codec : EhomeCodecInfo) : SessionDemuxer :=
  if codec.payloadType = "ps" then .ps RtpSession.psDemuxer else .bypass

def ehomeMedia (c : RtpCore) (connId : UInt64) (key : RtpSessionKey) (s : RtpSession)
    (payload : Bytes) : Checked (RtpSession × List RtpCoreOutput) := do
  let s := { s with
    packetsReceived := ← u32 (s.packetsReceived + 1)
    bytesReceived := ← u32 (s.bytesReceived + payload.length % 4294967296) }
  match s.demuxer with
  | .ps _ => s.demux order.tracks key payload s.sourceAddr
  | _ =>
    match (c.ehomeDecoders.lookup connId).bind (·.codecInfo) with
    | some codec =>
      return (s, [.event (.frame key (ehomeFrame codec s.packetsReceived payload) s.sourceAddr)])
    | none => return (s, [])

/-- One thing that was decoded on an Ehome connection. -/
def processEhomeOutput (connId : UInt64) (c : RtpCore) : EhomeOutput → RtpCoreResult
  | .handshakeSsrc text =>
    let ssrc := ehomeSsrc text
    let key := "live/".toList ++ text
    if (c.sessions.lookup key).isSome then .ok (c, [])
    else
      let s := { RtpSession.new key ssrc .ehome .recvOnly .all .allowValidatedRebind 0
          c.wallClockOffsetMs with
        tcpConnId := some connId }
      .ok (((c.putSession key s).mapSsrc ssrc key).mapConn (some connId) key,
        [.event (.sessionCreated key ssrc .ehome .recvOnly)])
  | .handshakeCodec codec =>
    match c.tcpConnToSession.lookup connId with
    | none => .ok (c, [])
    | some key =>
      match c.sessions.lookup key with
      | none => .ok (c, [])
      | some s =>
        let tracks := ehomeTracks codec
        .ok (c.putSession key { s with demuxer := ehomeDemuxer codec },
          if tracks = [] then [] else [.event (.trackFound key tracks)])
  | .mediaPayload payload =>
    match c.tcpConnToSession.lookup connId with
    | none => .ok (c, [])
    | some key =>
      match c.sessions.lookup key with
      | none => .ok (c, [])
      | some s => do
        let (s, outputs) ← c.ehomeMedia order connId key s payload
        return (c.putSession key s, outputs)

def processEhomeOutputs (connId : UInt64) : RtpCore → List EhomeOutput → RtpCoreResult
  | c, [] => .ok (c, [])
  | c, output :: rest =>
    (processEhomeOutput order connId c output).andThen fun c => processEhomeOutputs connId c rest

/-- What the deframer of a chunk asks of the core. -/
def tcpSink (chunk : RtpTcpChunk) : TcpSink RtpCoreResult where
  latched _ := false
  known r ssrc :=
    match r with
    | .ok (c, _) => (c.ssrcToSession.lookup ssrc).isSome
    | .error _ => false
  ehome r _ := r
  resync r p := r.andThen fun c =>
    .ok (c, [.diagnostic (.sequenceGap p.header.ssrc 0 p.header.sequenceNumber)])
  feed r p := r.andThen fun c =>
    c.feedRtpPacket order p none (some chunk.connId) chunk.receivedAtMs
  feed_latched := rfl

/-- A connection with an Ehome decoder keeps it; another gets one when a chunk looks like it. -/
def isEhomeChunk (c : RtpCore) (chunk : RtpTcpChunk) : Bool :=
  (c.ehomeDecoders.lookup chunk.connId).isSome || isEhomePrefix chunk.data

def ehomeDecoder (c : RtpCore) (connId : UInt64) : EhomeDecoder :=
  (c.ehomeDecoders.lookup connId).getD .new

def processTcpBytes (c : RtpCore) (chunk : RtpTcpChunk) : RtpCoreResult :=
  if c.isEhomeChunk chunk then do
    let (decoder, _, outputs) ← (c.ehomeDecoder chunk.connId).decode chunk.data
    let c := { c with ehomeDecoders := c.ehomeDecoders.insert chunk.connId decoder }
    processEhomeOutputs order chunk.connId c outputs
  else (tcpSink order chunk).deframe c.tcpFraming chunk.data.length (.ok (c, [])) chunk.data

/-- The receiving sessions of the connection end with it; what sends goes on. -/
def processTcpConnectionClosed (c : RtpCore) (connId : UInt64) : RtpCoreResult :=
  let isOn (key : RtpSessionKey) (receives : Bool) : Bool :=
    (c.sessions.lookup key).any fun s =>
      s.tcpConnId = some connId ∧ decide (s.transportMode = .recvOnly) = receives
  let keys := order.sessions c.sessions
  let (closed, outputs) :=
    c.closeSessions ((keys.filter (isOn · true)).map (·, .connectionClosed))
  if keys.any (isOn · false) then .ok (closed, outputs)
  else
    .ok ({ closed with
        ehomeDecoders := closed.ehomeDecoders.erase connId
        tcpConnToSession := closed.tcpConnToSession.erase connId },
      outputs ++ [.closeTcpConnection connId])

end Ingress

end RtpCore

end CheetahMedia.Rtp
