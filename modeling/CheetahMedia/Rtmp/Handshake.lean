import CheetahMedia.Rtmp.Bytes

namespace CheetahMedia.Rtmp

def RTMP_VERSION : UInt8 := 3
def HANDSHAKE_PACKET_SIZE : Nat := 1536
def APP_VERSION : Bytes := [0, 0, 0, 0]
def RANDOM_DATA : Bytes := List.replicate (HANDSHAKE_PACKET_SIZE - 8) 0
def TIMESTAMP : UInt32 := 0

def phase1Packet : Bytes := writeU32 TIMESTAMP ++ (APP_VERSION ++ RANDOM_DATA)

inductive ServerHandshakeMode
  | strict
  | lenientSeededS1
deriving DecidableEq

inductive Phase
  | p0
  | p1
  | p2
  | complete
deriving DecidableEq

/-- Mix one byte of C1 into the seed. -/
def mixSeed (seed : UInt64) (byte : UInt8) : UInt64 :=
  let seed := seed ^^^ (byte.toUInt64 + 0x9e3779b97f4a7c15)
  ((seed <<< 13) ||| (seed >>> 51)) * 0xbf58476d1ce4e5b9

def nextSeed (seed : UInt64) : UInt64 :=
  let seed := seed ^^^ (seed <<< 13)
  let seed := seed ^^^ (seed >>> 7)
  seed ^^^ (seed <<< 17)

def seededBytes : Nat → UInt64 → Bytes
  | 0, _ => []
  | n + 1, seed => (nextSeed seed).toUInt8 :: seededBytes n (nextSeed seed)

/-- S1 comes from C1, so no source of randomness is needed. -/
def buildLenientSeededS1 (c1 : Bytes) : Bytes :=
  List.replicate 8 0 ++
    seededBytes (HANDSHAKE_PACKET_SIZE - 8) ((c1.take 128).foldl mixSeed 0x9e3779b97f4a7c15)

structure RtmpServerHandshake where
  mode : ServerHandshakeMode
  phase : Phase := .p0
  recvBuf : Bytes := []
  sendBuf : Bytes := []
  s1Packet : Bytes := []

namespace RtmpServerHandshake

def newLenientSeededS1 : RtmpServerHandshake := { mode := .lenientSeededS1 }

def handlePhaseP2 (h : RtmpServerHandshake) : RtmpServerHandshake × Except Error Unit :=
  if h.recvBuf.length < HANDSHAKE_PACKET_SIZE then (h, .ok ())
  else
    let c2Packet := h.recvBuf.take HANDSHAKE_PACKET_SIZE
    let h := { h with recvBuf := h.recvBuf.drop HANDSHAKE_PACKET_SIZE }
    if h.mode = .strict ∧ h.s1Packet ≠ c2Packet then
      (h, .error (.invalidData "C2 packet does not match S1 packet"))
    else ({ h with phase := .complete }, .ok ())

def handlePhaseP1 (h : RtmpServerHandshake) : RtmpServerHandshake × Except Error Unit :=
  if h.recvBuf.length < HANDSHAKE_PACKET_SIZE then (h, .ok ())
  else
    let c1Packet := h.recvBuf.take HANDSHAKE_PACKET_SIZE
    let s1Packet :=
      match h.mode with
      | .strict => phase1Packet
      | .lenientSeededS1 => buildLenientSeededS1 c1Packet
    handlePhaseP2 { h with
      recvBuf := h.recvBuf.drop HANDSHAKE_PACKET_SIZE
      s1Packet := s1Packet
      sendBuf := h.sendBuf ++ s1Packet ++ c1Packet
      phase := .p2 }

def handlePhaseP0 (h : RtmpServerHandshake) : RtmpServerHandshake × Except Error Unit :=
  match h.recvBuf with
  | [] => (h, .ok ())
  | clientRtmpVersion :: recvBuf =>
    let h := { h with recvBuf := recvBuf }
    if clientRtmpVersion ≠ RTMP_VERSION then
      (h, .error (.invalidData (s!"invalid RTMP version: expected {RTMP_VERSION}, " ++
        s!"got {clientRtmpVersion}")))
    else handlePhaseP1 { h with sendBuf := h.sendBuf ++ [RTMP_VERSION], phase := .p1 }

def handleRecvBuf (h : RtmpServerHandshake) : RtmpServerHandshake × Except Error Unit :=
  match h.phase with
  | .p0 => h.handlePhaseP0
  | .p1 => h.handlePhaseP1
  | .p2 => h.handlePhaseP2
  | .complete => (h, .ok ())

def feedRecvBuf (h : RtmpServerHandshake) (buf : Bytes) :
    RtmpServerHandshake × Except Error Unit :=
  handleRecvBuf { h with recvBuf := h.recvBuf ++ buf }

def takeRecvBuf (h : RtmpServerHandshake) : RtmpServerHandshake × Bytes :=
  ({ h with recvBuf := [] }, h.recvBuf)

def advanceSendBuf (h : RtmpServerHandshake) (n : Nat) : RtmpServerHandshake :=
  { h with sendBuf := h.sendBuf.drop n }

def isRecvComplete (h : RtmpServerHandshake) : Bool := h.phase = .complete

end RtmpServerHandshake

end CheetahMedia.Rtmp
