import CheetahMedia.Codec.Media
import CheetahMedia.Lib.Checked
import CheetahMedia.Lib.Incremental

namespace CheetahMedia.Codec
open Lib Lib.Checked

structure EhomeCodecInfo where
  payloadType : String
  videoCodec : Option String
  audioCodec : Option String
  channels : UInt8
  sampleBit : UInt8
  sampleRate : Nat
deriving DecidableEq

inductive EhomeOutput
  | handshakeSsrc (ssrc : List Char)
  | handshakeCodec (info : EhomeCodecInfo)
  | mediaPayload (data : Bytes)
deriving DecidableEq

structure EhomeDecoder where
  packetSeq : Nat := 0
  ssrc : Option (List Char) := none
  codecInfo : Option EhomeCodecInfo := none
  isEhome2 : Bool := false
  firstPacket : Bool := true

namespace EhomeDecoder

def new : EhomeDecoder := {}

/-- The bytes up to the first zero, each as the character with its number. -/
def ssrcText (payload : Bytes) : List Char :=
  (payload.takeWhile (· ≠ 0)).map fun b => Char.ofNat b.toNat

/-- A field of 16 bits that is one of two numbers in either byte order. -/
def isEither (b₀ b₁ : UInt8) (n m : Nat) : Bool :=
  let le := b₁.toNat * 256 + b₀.toNat
  let be := b₀.toNat * 256 + b₁.toNat
  le == n || be == n || le == m || be == m

def videoCodecOf (b₀ b₁ : UInt8) : Option String :=
  if isEither b₀ b₁ 0x0100 0x0001 then some "h264"
  else if isEither b₀ b₁ 0x0005 0x0500 then some "h265"
  else none

def audioCodecOf (b₀ b₁ : UInt8) : Option String :=
  if isEither b₀ b₁ 0x7111 0x1171 then some "g711a"
  else if isEither b₀ b₁ 0x7110 0x1071 then some "g711u"
  else if isEither b₀ b₁ 0x2001 0x0120 then some "aac"
  else none

def sampleRateOf (b₀ b₁ : UInt8) : Nat :=
  let le := b₁.toNat * 256 + b₀.toNat
  if 0 < le ∧ le < 96000 then le else b₀.toNat * 256 + b₁.toNat

/-- The fields of the second packet. Twenty bytes are asked for, and twenty-two are read. -/
def readCodecInfo (inner : Bytes) : Checked EhomeCodecInfo := do
  let payloadType ← byteAt inner 12
  let video₀ ← byteAt inner 14
  let video₁ ← byteAt inner 15
  let audio₀ ← byteAt inner 16
  let audio₁ ← byteAt inner 17
  let channels ← byteAt inner 18
  let sampleBit ← byteAt inner 19
  let rate₀ ← byteAt inner 20
  let rate₁ ← byteAt inner 21
  return {
    payloadType := if payloadType = 2 then "ps" else "nalu"
    videoCodec := videoCodecOf video₀ video₁
    audioCodec := audioCodecOf audio₀ audio₁
    channels := channels
    sampleBit := sampleBit
    sampleRate := sampleRateOf rate₀ rate₁ }

/-- The content of one packet: the first two are the handshake. -/
def handlePacket (d : EhomeDecoder) (inner : Bytes) :
    Checked (EhomeDecoder × Option EhomeOutput) :=
  if d.packetSeq = 0 then
    let ssrc := ssrcText inner
    pure ({ d with packetSeq := 1, ssrc := some ssrc }, some (.handshakeSsrc ssrc))
  else if d.packetSeq = 1 then
    let d := { d with packetSeq := 2 }
    if inner.length < 20 then pure (d, none)
    else do
      let info ← readCodecInfo inner
      return ({ d with codecInfo := some info }, some (.handshakeCodec info))
  else
    pure (d, if 4 < inner.length then some (.mediaPayload (inner.drop 4)) else none)

/-- The content of the packet at the front, once all of it is there, and what comes behind. -/
def splitPacket : Bytes → Option (Bytes × Bytes)
  | _ :: _ :: l₀ :: l₁ :: rest =>
    let payloadLen := l₀.toNat * 256 + l₁.toNat
    if rest.length < payloadLen then none else some (rest.take payloadLen, rest.drop payloadLen)
  | _ => none

/-- Each packet takes its header, so the length of the buffer bounds the passes. -/
def decodePackets : Nat → EhomeDecoder → Bytes → Checked (EhomeDecoder × Bytes × List EhomeOutput)
  | 0, d, buf => pure (d, buf, [])
  | passes + 1, d, buf =>
    match splitPacket buf with
    | none => pure (d, buf, [])
    | some (inner, rest) => do
      let (d, output) ← d.handlePacket inner
      let (d, buf, outputs) ← decodePackets passes d rest
      return (d, buf, output.toList ++ outputs)

/-- What the start of a stream tells of its format. -/
inductive Preamble
  | unknown
  | ehome2 (rest : Bytes)
  | plain

/-- A stream of the second version begins with a header of 256 bytes. -/
def preamble : Bytes → Preamble
  | [] => .unknown
  | [b₀] => if b₀ ≠ 0x01 then .plain else .unknown
  | [b₀, b₁] => if b₀ ≠ 0x01 ∨ b₁ ≠ 0x00 then .plain else .unknown
  | b₀ :: b₁ :: b₂ :: rest =>
    if b₀ = 0x01 ∧ b₁ = 0x00 ∧ (b₂ = 0x01 ∨ b₂ = 0x02) then
      if rest.length < 253 then .unknown else .ehome2 (rest.drop 253)
    else .plain

def decode (d : EhomeDecoder) (buf : Bytes) :
    Checked (EhomeDecoder × Bytes × List EhomeOutput) :=
  if d.firstPacket then
    match preamble buf with
    | .unknown => pure (d, buf, [])
    | .ehome2 rest =>
      decodePackets rest.length { d with isEhome2 := true, firstPacket := false } rest
    | .plain => decodePackets buf.length { d with firstPacket := false } buf
  else decodePackets buf.length d buf

/-- The outputs of a stream whose pieces are appended to one buffer, each of them followed by
a call. -/
def decodeChunks (d : EhomeDecoder) (buf : Bytes) : List Bytes → Checked (List EhomeOutput)
  | [] => pure []
  | chunk :: chunks => do
    let (d, buf, outputs) ← d.decode (buf ++ chunk)
    return outputs ++ (← decodeChunks d buf chunks)

end EhomeDecoder
end CheetahMedia.Codec
