import CheetahMedia.Codec.Media
import CheetahMedia.Lib.Endian
import CheetahMedia.Lib.Reassembly

namespace CheetahMedia.Codec
open Lib

inductive Jtt1078Version
  | v2013 | v2019

inductive Jtt1078FrameType
  | iFrame | pFrame | bFrame | audio | passthrough
  | other (v : UInt8)
deriving DecidableEq

inductive Jtt1078SubPackage
  | atomic | first | last | intermediate
deriving DecidableEq

def Jtt1078FrameType.fromBits (bits : UInt8) : Jtt1078FrameType :=
  let bits := bits &&& 0x0F
  if bits = 0x00 then .iFrame
  else if bits = 0x01 then .pFrame
  else if bits = 0x02 then .bFrame
  else if bits = 0x03 then .audio
  else if bits = 0x04 then .passthrough
  else .other bits

def Jtt1078SubPackage.fromBits (bits : UInt8) : Option Jtt1078SubPackage :=
  let bits := bits &&& 0x0F
  if bits = 0 then some .atomic
  else if bits = 1 then some .first
  else if bits = 2 then some .last
  else if bits = 3 then some .intermediate
  else none

/-- `char::to_digit(10)`. -/
def toDigit (c : Char) : Option Nat :=
  if '0' ≤ c ∧ c ≤ '9' then some (c.toNat - '0'.toNat) else none

/-- `char::from_digit(_, 10)`, or a zero. -/
def fromDigit (n : Nat) : Char := if n < 10 then Char.ofNat ('0'.toNat + n) else '0'

def bcdToStr (bcd : Bytes) : String :=
  String.ofList (bcd.flatMap fun b : UInt8 =>
    [fromDigit (b >>> 4).toNat, fromDigit (b &&& 0x0F).toNat])

/-- The digits of a string, two a byte, and zeros where there are no more. -/
def digitsToBcd (width : Nat) (digits : List Nat) : Bytes :=
  match width with
  | 0 => []
  | width + 1 =>
    let hi := UInt8.ofNat (digits[0]?.getD 0)
    let lo := UInt8.ofNat (digits[1]?.getD 0)
    ((hi <<< 4) ||| lo) :: digitsToBcd width (digits.drop 2)

def strToBcd (width : Nat) (digits : String) : Bytes :=
  digitsToBcd width (digits.toList.filterMap toDigit)

structure Jtt1078Header where
  version : Jtt1078Version
  payloadType : UInt8
  marker : Bool
  sim : String
  channel : UInt8
  frameType : Jtt1078FrameType
  subPackage : Jtt1078SubPackage
  packetSeq : UInt16
  timestampMs : UInt64
  lastIframeIntervalMs : Option UInt16
  lastFrameIntervalMs : Option UInt16
  payloadLen : UInt16

def u16At (data : Bytes) (i : Nat) : UInt16 := UInt16.ofNat (fromBigEndian ((data.drop i).take 2))

def u64At (data : Bytes) (i : Nat) : UInt64 := UInt64.ofNat (fromBigEndian ((data.drop i).take 8))

namespace Jtt1078Header

def MIN_SIZE_2013 : Nat := 18
def MIN_SIZE_2019 : Nat := 22

/-- Every index lies below a length that was checked before. -/
def parseWithVersion (data : Bytes) (version : Jtt1078Version) : Option (Jtt1078Header × Nat) := do
  let minSize := match version with
    | .v2013 => MIN_SIZE_2013
    | .v2019 => MIN_SIZE_2019
  guard (minSize ≤ data.length)
  guard (data.take 4 = [0x30, 0x31, 0x63, 0x64])
  let mpt := data.getD 5 0
  let simLen := match version with
    | .v2013 => 6
    | .v2019 => 10
  let chOff := 8 + simLen
  let dtypeByte := data.getD (chOff + 1) 0
  let frameType := Jtt1078FrameType.fromBits (dtypeByte >>> 4)
  let subPackage ← Jtt1078SubPackage.fromBits (dtypeByte &&& 0x0F)
  let tailOff := chOff + 2
  let (timestampMs, ifi, fi, payloadOffset) := match frameType with
    | .iFrame | .pFrame | .bFrame =>
      (u64At data tailOff, some (u16At data (tailOff + 8)), some (u16At data (tailOff + 10)),
        tailOff + 8 + 2 + 2 + 2)
    | .audio => (u64At data tailOff, none, none, tailOff + 8 + 2)
    | .passthrough | .other _ => (0, none, none, tailOff + 2)
  guard (payloadOffset ≤ data.length)
  let payloadLen := u16At data (payloadOffset - 2)
  guard (payloadOffset + payloadLen.toNat ≤ data.length)
  return (
    { version := version
      payloadType := mpt &&& 0x7F
      marker := mpt &&& 0x80 ≠ 0
      sim := bcdToStr ((data.drop 8).take simLen)
      channel := data.getD chOff 0
      frameType := frameType
      subPackage := subPackage
      packetSeq := u16At data 6
      timestampMs := timestampMs
      lastIframeIntervalMs := ifi
      lastFrameIntervalMs := fi
      payloadLen := payloadLen }, payloadOffset)

def parse (data : Bytes) : Option (Jtt1078Header × Nat) := parseWithVersion data .v2013

def parseV2019 (data : Bytes) : Option (Jtt1078Header × Nat) := parseWithVersion data .v2019

end Jtt1078Header

structure Jtt1078Frame where
  payloadType : UInt8
  sim : String
  channel : UInt8
  frameType : Jtt1078FrameType
  timestampMs : UInt64
  frameIntervalMs : UInt32
  data : Bytes

inductive Jtt1078Diagnostic
  | cacheOverflow (sim : String) (channel : UInt8) (droppedBytes : Nat)
  | sequenceGap (expected got : UInt16)
  | lateFragment (packetSeq : UInt16)
  | badHeader

structure AssemblyKey where
  sim : String
  channel : UInt8
deriving DecidableEq

structure AssemblyBuffer where
  data : Bytes
  firstTimestampMs : UInt64
  lastPacketSeq : UInt16
  frameType : Jtt1078FrameType
  payloadType : UInt8

structure Jtt1078FrameAssembler where
  buffers : AssemblyKey → Option AssemblyBuffer := fun _ => none
  maxCacheBytes : Nat
  lastFrameTs : AssemblyKey → Option UInt64 := fun _ => none
  frameIntervalMs : AssemblyKey → Option UInt32 := fun _ => none

namespace Jtt1078FrameAssembler

def new (maxCacheBytes : Nat) : Jtt1078FrameAssembler := { maxCacheBytes := maxCacheBytes }

def currentFrameInterval (a : Jtt1078FrameAssembler) (key : AssemblyKey) (currentTs : UInt64) :
    UInt32 :=
  match a.frameIntervalMs key, a.lastFrameTs key with
  | some fi, _ => fi
  | none, some lastTs =>
    let delta := min (currentTs - lastTs).toNat 0xFFFFFFFF
    if lastTs < currentTs ∧ 0 < delta ∧ delta < 10000 then UInt32.ofNat delta else 40
  | none, none => 40

def updateFrameInterval (a : Jtt1078FrameAssembler) (key : AssemblyKey) (newVal : UInt32) :
    Jtt1078FrameAssembler :=
  let entry := (a.frameIntervalMs key).getD newVal
  { a with frameIntervalMs :=
      Function.update a.frameIntervalMs key (some (entry / 4 * 3 + newVal / 4)) }

/-- A frame is given out, and its time kept. -/
def complete (a : Jtt1078FrameAssembler) (key : AssemblyKey) (payloadType : UInt8)
    (frameType : Jtt1078FrameType) (timestampMs : UInt64) (data : Bytes) :
    Jtt1078FrameAssembler × List Jtt1078Frame :=
  ({ a with lastFrameTs := Function.update a.lastFrameTs key (some timestampMs) },
    [{ payloadType := payloadType
       sim := key.sim
       channel := key.channel
       frameType := frameType
       timestampMs := timestampMs
       frameIntervalMs := a.currentFrameInterval key timestampMs
       data := data }])

def setBuffer (a : Jtt1078FrameAssembler) (key : AssemblyKey) (buffer : Option AssemblyBuffer) :
    Jtt1078FrameAssembler :=
  { a with buffers := Function.update a.buffers key buffer }

/-- An intermediate or last fragment. -/
def pushFragment (a : Jtt1078FrameAssembler) (key : AssemblyKey) (hdr : Jtt1078Header)
    (payload : Bytes) : Jtt1078FrameAssembler × List Jtt1078Frame × List Jtt1078Diagnostic :=
  match a.buffers key with
  | none => (a, [], [.lateFragment hdr.packetSeq])
  | some buf =>
    let expectedSeq := buf.lastPacketSeq + 1
    if hdr.packetSeq ≠ expectedSeq then
      (a.setBuffer key none, [], [.sequenceGap expectedSeq hdr.packetSeq])
    else if a.maxCacheBytes < buf.data.length + payload.length then
      (a.setBuffer key none, [],
        [.cacheOverflow hdr.sim hdr.channel (buf.data.length + payload.length)])
    else
      let buf := { buf with data := buf.data ++ payload, lastPacketSeq := hdr.packetSeq }
      if hdr.subPackage = .last then
        let (a, frames) := (a.setBuffer key none).complete key buf.payloadType buf.frameType
          buf.firstTimestampMs buf.data
        (a, frames, [])
      else (a.setBuffer key (some buf), [], [])

/-- The frame interval of a header is learned if it is not zero. -/
def learn (a : Jtt1078FrameAssembler) (key : AssemblyKey) (hdr : Jtt1078Header) :
    Jtt1078FrameAssembler :=
  match hdr.lastFrameIntervalMs with
  | some fi => if 0 < fi then a.updateFrameInterval key fi.toUInt32 else a
  | none => a

def push (a : Jtt1078FrameAssembler) (data : Bytes) :
    Jtt1078FrameAssembler × List Jtt1078Frame × List Jtt1078Diagnostic :=
  match Jtt1078Header.parse data with
  | none => (a, [], [.badHeader])
  | some (hdr, payloadOffset) =>
    let stop := min (payloadOffset + hdr.payloadLen.toNat) data.length
    let payload := (data.take stop).drop payloadOffset
    let key : AssemblyKey := ⟨hdr.sim, hdr.channel⟩
    let a := a.learn key hdr
    match hdr.subPackage with
    | .atomic =>
      let (a, frames) := a.complete key hdr.payloadType hdr.frameType hdr.timestampMs payload
      (a, frames, [])
    | .first =>
      (a.setBuffer key (some
        { data := payload
          firstTimestampMs := hdr.timestampMs
          lastPacketSeq := hdr.packetSeq
          frameType := hdr.frameType
          payloadType := hdr.payloadType }), [], [])
    | .last | .intermediate => a.pushFragment key hdr payload

end Jtt1078FrameAssembler

def DEFAULT_MAX_PACKET_PAYLOAD : Nat := 1400

structure Jtt1078Packetizer where
  sim : Bytes
  channel : UInt8
  maxPayloadBytes : Nat := DEFAULT_MAX_PACKET_PAYLOAD
  nextSeq : UInt16 := 0
  maxPayloadBytes_pos : 0 < maxPayloadBytes := by decide

namespace Jtt1078Packetizer

def new (simDigits : String) (channel : UInt8) : Jtt1078Packetizer where
  sim := strToBcd 6 simDigits
  channel := channel

def setMaxPayloadBytes (p : Jtt1078Packetizer) (size : Nat) : Jtt1078Packetizer :=
  { p with maxPayloadBytes := max size 1, maxPayloadBytes_pos := by omega }

def frameTypeBits : Jtt1078FrameType → UInt8
  | .iFrame => 0x00
  | .pFrame => 0x01
  | .bFrame => 0x02
  | .audio => 0x03
  | .passthrough => 0x04
  | .other v => v &&& 0x0F

/-- The layout of the tail looks at the type for video and at its bits for audio. -/
def tail (frameType : Jtt1078FrameType) (timestampMs : UInt64) (chunkLen : Nat) : Bytes :=
  match frameType with
  | .iFrame | .pFrame | .bFrame =>
    toBigEndian 8 timestampMs.toNat ++ toBigEndian 2 0 ++ toBigEndian 2 0 ++ toBigEndian 2 chunkLen
  | _ =>
    if frameTypeBits frameType = 0x03 then toBigEndian 8 timestampMs.toNat ++ toBigEndian 2 chunkLen
    else toBigEndian 2 chunkLen

def packet (p : Jtt1078Packetizer) (payloadType : UInt8) (timestampMs : UInt64)
    (frameType : Jtt1078FrameType) (subPkgBits : UInt8) (chunk : Bytes) : Bytes :=
  ([0x30, 0x31, 0x63, 0x64, 0x81, payloadType &&& 0x7F] : Bytes) ++
    toBigEndian 2 p.nextSeq.toNat ++ p.sim ++ [p.channel] ++
    [(frameTypeBits frameType <<< 4) ||| subPkgBits] ++
    tail frameType timestampMs (min chunk.length 0xFFFF) ++ chunk

/-- The packets of the chunks from the one with index `i` on. -/
def packetizeChunks (payloadType : UInt8) (timestampMs : UInt64) (frameType : Jtt1078FrameType)
    (total : Nat) : Jtt1078Packetizer → Nat → List Bytes → Jtt1078Packetizer × List Bytes
  | p, _, [] => (p, [])
  | p, i, chunk :: rest =>
    let subPkgBits := if total = 1 then 0 else if i = 0 then 1 else if i = total - 1 then 2 else 3
    let pkt := p.packet payloadType timestampMs frameType subPkgBits chunk
    let r := packetizeChunks payloadType timestampMs frameType total
      { p with nextSeq := p.nextSeq + 1 } (i + 1) rest
    (r.1, pkt :: r.2)

def packetize (p : Jtt1078Packetizer) (payloadType : UInt8) (timestampMs : UInt64)
    (frameType : Jtt1078FrameType) (frameData : Bytes) : Jtt1078Packetizer × List Bytes :=
  let chunks := chunks p.maxPayloadBytes frameData
  packetizeChunks payloadType timestampMs frameType chunks.length p 0 chunks

end Jtt1078Packetizer
end CheetahMedia.Codec
