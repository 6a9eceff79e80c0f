import CheetahMedia.Codec.Media
import CheetahMedia.Lib.Endian
import CheetahMedia.Lib.Utf8

namespace CheetahMedia.Rtp
open Lib Codec

inductive RtcpParseError
  | tooShort
  | truncated (pt : UInt8)
  | invalidVersion (version : UInt8)
  | invalidSdes
  | invalidPadding (pt count : UInt8)
deriving DecidableEq

inductive RtcpEncodeError
  | sdesItemTooLong (length : Nat)
  | byeReasonTooLong (length : Nat)
  | tooManyReportBlocks (count : Nat)
  | tooManySdesChunks (count : Nat)
  | tooManyByeSsrcs (count : Nat)
  | unalignedPayload (length : Nat)

inductive RtcpPacketType
  | senderReport
  | receiverReport
  | sourceDescription
  | bye
  | app

namespace RtcpPacketType

def toU8 : RtcpPacketType → UInt8
  | senderReport => 200
  | receiverReport => 201
  | sourceDescription => 202
  | bye => 203
  | app => 204

def fromU8 (value : UInt8) : Option RtcpPacketType :=
  if value = 200 then some senderReport
  else if value = 201 then some receiverReport
  else if value = 202 then some sourceDescription
  else if value = 203 then some bye
  else if value = 204 then some app
  else none

end RtcpPacketType

/-- The value of the low 24 bits. -/
def signExtend24 (value : Nat) : Int :=
  let v : Nat := value % 2 ^ 24
  if 2 ^ 23 ≤ v then (v : Int) - 2 ^ 24 else v

def paddingTo4 (len : Nat) : Nat :=
  let rem := len % 4
  if rem = 0 then 0 else 4 - rem

def putU32 (n : UInt32) : Bytes := toBigEndian 4 n.toNat
def putU64 (n : UInt64) : Bytes := toBigEndian 8 n.toNat

def getU32 (buf : Bytes) : UInt32 × Bytes :=
  (UInt32.ofNat (fromBigEndian (buf.take 4)), buf.drop 4)
def getU64 (buf : Bytes) : UInt64 × Bytes :=
  (UInt64.ofNat (fromBigEndian (buf.take 8)), buf.drop 8)

/-- The header of a packet of `totalLen` bytes. -/
def putHeader (count pt : UInt8) (totalLen : Nat) : Bytes :=
  [0x80 ||| count, pt] ++ toBigEndian 2 (totalLen / 4 - 1)

/-- `count` items, each of which begins where the one before it ends. -/
def parseMany (parse : Bytes → Except RtcpParseError (α × Bytes)) :
    Nat → Bytes → Except RtcpParseError (List α × Bytes)
  | 0, buf => .ok ([], buf)
  | count + 1, buf => do
    let (item, buf) ← parse buf
    let (items, buf) ← parseMany parse count buf
    return (item :: items, buf)

/-- One report block from an SR or RR packet. -/
structure RtcpReportBlock where
  ssrc : UInt32
  fractionLost : UInt8
  cumulativeLost : Int
  highestSeq : UInt32
  jitter : UInt32
  lastSr : UInt32
  delaySinceLastSr : UInt32
deriving DecidableEq

namespace RtcpReportBlock

def parse (buf : Bytes) : Except RtcpParseError (RtcpReportBlock × Bytes) :=
  if buf.length < 24 then .error .tooShort
  else
    let (ssrc, buf) := getU32 buf
    let (flAndCl, buf) := getU32 buf
    let (highestSeq, buf) := getU32 buf
    let (jitter, buf) := getU32 buf
    let (lastSr, buf) := getU32 buf
    let (delaySinceLastSr, buf) := getU32 buf
    .ok ({ ssrc := ssrc
           fractionLost := UInt8.ofNat (flAndCl.toNat / 2 ^ 24)
           cumulativeLost := signExtend24 flAndCl.toNat
           highestSeq := highestSeq
           jitter := jitter
           lastSr := lastSr
           delaySinceLastSr := delaySinceLastSr }, buf)

/-- Only the low 24 bits of the loss are written. -/
def encode (b : RtcpReportBlock) : Bytes :=
  let cl := (b.cumulativeLost % 2 ^ 24).toNat
  putU32 b.ssrc ++ putU32 (UInt32.ofNat (b.fractionLost.toNat * 2 ^ 24 + cl)) ++
    putU32 b.highestSeq ++ putU32 b.jitter ++ putU32 b.lastSr ++ putU32 b.delaySinceLastSr

end RtcpReportBlock

structure RtcpSenderReport where
  ssrc : UInt32
  ntpTimestamp : UInt64
  rtpTimestamp : UInt32
  packetsSent : UInt32
  octetsSent : UInt32
  reportBlocks : List RtcpReportBlock
deriving DecidableEq

namespace RtcpSenderReport

def encode (p : RtcpSenderReport) : Except RtcpEncodeError Bytes :=
  let blockCount := p.reportBlocks.length
  if 31 < blockCount then .error (.tooManyReportBlocks blockCount)
  else
    .ok (putHeader (UInt8.ofNat blockCount) RtcpPacketType.senderReport.toU8
        (4 + 24 + blockCount * 24) ++
      putU32 p.ssrc ++ putU64 p.ntpTimestamp ++ putU32 p.rtpTimestamp ++ putU32 p.packetsSent ++
      putU32 p.octetsSent ++ p.reportBlocks.flatMap RtcpReportBlock.encode)

def parse (buf : Bytes) (count : UInt8) : Except RtcpParseError RtcpSenderReport :=
  if buf.length < 24 then .error (.truncated RtcpPacketType.senderReport.toU8)
  else do
    let (ssrc, buf) := getU32 buf
    let (ntpTimestamp, buf) := getU64 buf
    let (rtpTimestamp, buf) := getU32 buf
    let (packetsSent, buf) := getU32 buf
    let (octetsSent, buf) := getU32 buf
    let (reportBlocks, _) ← parseMany RtcpReportBlock.parse count.toNat buf
    return ⟨ssrc, ntpTimestamp, rtpTimestamp, packetsSent, octetsSent, reportBlocks⟩

end RtcpSenderReport

structure RtcpReceiverReport where
  ssrc : UInt32
  reportBlocks : List RtcpReportBlock
deriving DecidableEq

namespace RtcpReceiverReport

def encode (p : RtcpReceiverReport) : Except RtcpEncodeError Bytes :=
  let blockCount := p.reportBlocks.length
  if 31 < blockCount then .error (.tooManyReportBlocks blockCount)
  else
    .ok (putHeader (UInt8.ofNat blockCount) RtcpPacketType.receiverReport.toU8
        (4 + 4 + blockCount * 24) ++
      putU32 p.ssrc ++ p.reportBlocks.flatMap RtcpReportBlock.encode)

def parse (buf : Bytes) (count : UInt8) : Except RtcpParseError RtcpReceiverReport :=
  if buf.length < 4 then .error (.truncated RtcpPacketType.receiverReport.toU8)
  else do
    let (ssrc, buf) := getU32 buf
    let (reportBlocks, _) ← parseMany RtcpReportBlock.parse count.toNat buf
    return ⟨ssrc, reportBlocks⟩

end RtcpReceiverReport

inductive RtcpSdesItemType
  | endOfList
  | cName
  | name
  | email
  | phone
  | location
  | tool
  | note
  | priv
  | unknown (value : UInt8)
deriving DecidableEq

namespace RtcpSdesItemType

def fromU8 (value : UInt8) : RtcpSdesItemType :=
  if value = 0 then endOfList
  else if value = 1 then cName
  else if value = 2 then name
  else if value = 3 then email
  else if value = 4 then phone
  else if value = 5 then location
  else if value = 6 then tool
  else if value = 7 then note
  else if value = 8 then priv
  else unknown value

def asU8 : RtcpSdesItemType → UInt8
  | endOfList => 0
  | cName => 1
  | name => 2
  | email => 3
  | phone => 4
  | location => 5
  | tool => 6
  | note => 7
  | priv => 8
  | unknown value => value

end RtcpSdesItemType

structure RtcpSdesItem where
  itemType : RtcpSdesItemType
  text : Text
deriving DecidableEq

structure RtcpSdesChunk where
  ssrc : UInt32
  items : List RtcpSdesItem
deriving DecidableEq

def RtcpSdesItem.len (i : RtcpSdesItem) : Nat := 2 + (Text.toBytes i.text).length

def RtcpSdesItem.encode (i : RtcpSdesItem) : Except RtcpEncodeError Bytes :=
  let text := Text.toBytes i.text
  if 255 < text.length then .error (.sdesItemTooLong text.length)
  else .ok ([i.itemType.asU8, UInt8.ofNat text.length] ++ text)

namespace RtcpSdesChunk

def encodedLen (c : RtcpSdesChunk) : Nat :=
  let used := 4 + (c.items.map (·.len)).sum + 1
  used + paddingTo4 used

/-- The items end with a zero, and the chunk at a multiple of four bytes. -/
def encode (c : RtcpSdesChunk) : Except RtcpEncodeError Bytes := do
  let items ← c.items.mapM RtcpSdesItem.encode
  let pad := paddingTo4 (1 + (c.items.map (·.len)).sum)
  return putU32 c.ssrc ++ items.flatten ++ [0] ++ List.replicate pad 0

/-- The items of a chunk of which `consumed` bytes are read; none of them is longer than what is
left, so that the fuel is not used up. -/
def parseItems : Nat → Nat → Bytes → Except RtcpParseError (List RtcpSdesItem × Bytes)
  | 0, _, _ => .error .invalidSdes
  | _ + 1, _, [] => .error .invalidSdes
  | fuel + 1, consumed, itemType :: buf =>
    if itemType = 0 then
      let past := (consumed + 1) % 4
      let pad := if past = 0 then 0 else 4 - past
      if buf.length < pad then .error .invalidSdes else .ok ([], buf.drop pad)
    else
      match buf with
      | [] => .error .invalidSdes
      | len :: buf =>
        if buf.length < len.toNat then .error .invalidSdes
        else do
          let text := Text.fromUtf8Lossy (buf.take len.toNat)
          let (items, buf) ← parseItems fuel (consumed + 2 + len.toNat) (buf.drop len.toNat)
          return (⟨RtcpSdesItemType.fromU8 itemType, text⟩ :: items, buf)

def parse (buf : Bytes) : Except RtcpParseError (RtcpSdesChunk × Bytes) :=
  if buf.length < 4 then .error (.truncated RtcpPacketType.sourceDescription.toU8)
  else do
    let (ssrc, buf) := getU32 buf
    let (items, buf) ← parseItems (buf.length + 1) 4 buf
    return (⟨ssrc, items⟩, buf)

end RtcpSdesChunk

structure RtcpSourceDescription where
  chunks : List RtcpSdesChunk
deriving DecidableEq

namespace RtcpSourceDescription

def encodedChunksLen (p : RtcpSourceDescription) : Nat := (p.chunks.map (·.encodedLen)).sum

def encode (p : RtcpSourceDescription) : Except RtcpEncodeError Bytes :=
  let chunkCount := p.chunks.length
  if 31 < chunkCount then .error (.tooManySdesChunks chunkCount)
  else do
    let chunks ← p.chunks.mapM RtcpSdesChunk.encode
    return putHeader (UInt8.ofNat chunkCount) RtcpPacketType.sourceDescription.toU8
      (4 + p.encodedChunksLen) ++ chunks.flatten

def parse (buf : Bytes) (count : UInt8) : Except RtcpParseError RtcpSourceDescription := do
  let (chunks, _) ← parseMany RtcpSdesChunk.parse count.toNat buf
  return ⟨chunks⟩

end RtcpSourceDescription

structure RtcpBye where
  ssrcs : List UInt32
  reason : Option Text
deriving DecidableEq

namespace RtcpBye

/-- The announced length leaves an empty reason out, the bytes written do not. -/
def encode (p : RtcpBye) : Except RtcpEncodeError Bytes :=
  let reasonLen := p.reason.elim 0 fun r => (Text.toBytes r).length
  let ssrcCount := p.ssrcs.length
  if 255 < reasonLen then .error (.byeReasonTooLong reasonLen)
  else if 31 < ssrcCount then .error (.tooManyByeSsrcs ssrcCount)
  else
    let reasonSubfield :=
      if 0 < reasonLen then 1 + reasonLen + paddingTo4 (1 + reasonLen) else 0
    .ok (putHeader (UInt8.ofNat ssrcCount) RtcpPacketType.bye.toU8
        (4 + ssrcCount * 4 + reasonSubfield) ++
      p.ssrcs.flatMap putU32 ++
      p.reason.elim [] fun r => UInt8.ofNat reasonLen :: Text.toBytes r ++
        List.replicate (paddingTo4 (1 + reasonLen)) 0)

def parseSsrc (buf : Bytes) : Except RtcpParseError (UInt32 × Bytes) :=
  if buf.length < 4 then .error (.truncated RtcpPacketType.bye.toU8) else .ok (getU32 buf)

def parse (buf : Bytes) (count : UInt8) : Except RtcpParseError RtcpBye := do
  let (ssrcs, buf) ← parseMany parseSsrc count.toNat buf
  match buf with
  | [] => return ⟨ssrcs, none⟩
  | len :: buf =>
    if buf.length < len.toNat then .error (.truncated RtcpPacketType.bye.toU8)
    else return ⟨ssrcs, some (Text.fromUtf8Lossy (buf.take len.toNat))⟩

end RtcpBye

structure RtcpAppPacket where
  subtype : UInt8
  ssrc : UInt32
  name : Vector UInt8 4
  payload : Bytes
deriving DecidableEq

namespace RtcpAppPacket

def encode (p : RtcpAppPacket) : Except RtcpEncodeError Bytes :=
  let payloadLen := p.payload.length
  if payloadLen % 4 ≠ 0 then .error (.unalignedPayload payloadLen)
  else
    .ok (putHeader (p.subtype &&& 0x1F) RtcpPacketType.app.toU8 (4 + 4 + 4 + payloadLen) ++
      putU32 p.ssrc ++ p.name.toList ++ p.payload)

def parse (buf : Bytes) (subtype : UInt8) : Except RtcpParseError RtcpAppPacket :=
  match getU32 buf with
  | (ssrc, n0 :: n1 :: n2 :: n3 :: payload) => .ok ⟨subtype, ssrc, #v[n0, n1, n2, n3], payload⟩
  | _ => .error (.truncated RtcpPacketType.app.toU8)

end RtcpAppPacket

inductive RtcpPacket
  | senderReport (p : RtcpSenderReport)
  | receiverReport (p : RtcpReceiverReport)
  | sourceDescription (p : RtcpSourceDescription)
  | bye (p : RtcpBye)
  | app (p : RtcpAppPacket)
  | unknown (pt count : UInt8) (payload : Bytes)
deriving DecidableEq

namespace RtcpPacket

def encode : RtcpPacket → Except RtcpEncodeError Bytes
  | senderReport p => p.encode
  | receiverReport p => p.encode
  | sourceDescription p => p.encode
  | bye p => p.encode
  | app p => p.encode
  | unknown pt count payload =>
    if payload.length % 4 ≠ 0 then .error (.unalignedPayload payload.length)
    else .ok (putHeader (count &&& 0x1F) pt (4 + payload.length) ++ payload)

def parseBody (pt count : UInt8) (buf : Bytes) : Except RtcpParseError RtcpPacket :=
  match RtcpPacketType.fromU8 pt with
  | some .senderReport => return .senderReport (← RtcpSenderReport.parse buf count)
  | some .receiverReport => return .receiverReport (← RtcpReceiverReport.parse buf count)
  | some .sourceDescription => return .sourceDescription (← RtcpSourceDescription.parse buf count)
  | some .bye => return .bye (← RtcpBye.parse buf count)
  | some .app => return .app (← RtcpAppPacket.parse buf count)
  | none => .ok (.unknown pt count buf)

/-- The packet in front, with what follows it. -/
def parse : Bytes → Except RtcpParseError (RtcpPacket × Bytes)
  | byte0 :: pt :: l0 :: l1 :: buf =>
    let version := byte0 >>> 6
    let padding := (byte0 >>> 5) &&& 0x01
    let count := byte0 &&& 0x1F
    let length := fromBigEndian [l0, l1] * 4
    if version ≠ 2 then .error (.invalidVersion version)
    else if buf.length < length then .error (.truncated pt)
    else
      let body := buf.take length
      if padding ≠ 0 then
        match body.getLast? with
        | none => .error (.invalidPadding pt 0)
        | some padCount =>
          if padCount = 0 ∨ body.length < padCount.toNat then .error (.invalidPadding pt padCount)
          else return (← parseBody pt count (body.take (body.length - padCount.toNat)),
            buf.drop length)
      else return (← parseBody pt count body, buf.drop length)
  | _ => .error .tooShort

end RtcpPacket

/-- The packets one behind the other. -/
structure RtcpCompoundPacket where
  packets : List RtcpPacket
deriving DecidableEq

namespace RtcpCompoundPacket

/-- A packet is four bytes long at least, so that the fuel is not used up. -/
def parseFrom : Nat → Bytes → Except RtcpParseError (List RtcpPacket)
  | _, [] => .ok []
  | 0, _ :: _ => .error .tooShort
  | fuel + 1, buf => do
    let (packet, buf) ← RtcpPacket.parse buf
    return packet :: (← parseFrom fuel buf)

def parse (data : Bytes) : Except RtcpParseError RtcpCompoundPacket :=
  return ⟨← parseFrom data.length data⟩

def encode (c : RtcpCompoundPacket) : Except RtcpEncodeError Bytes :=
  return (← c.packets.mapM RtcpPacket.encode).flatten

end RtcpCompoundPacket

end CheetahMedia.Rtp
