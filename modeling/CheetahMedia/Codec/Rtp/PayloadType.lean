import CheetahMedia.Codec.Rtp
import Mathlib.Data.List.AList

namespace CheetahMedia.Codec
open Lib

/-- What a packet's payload is a piece of. -/
inductive RtpPayloadMode
  | ps | ts | es | ehome | xhb | jtt1078 | rawAudio | rawVideo | unknown
deriving DecidableEq

structure RtpPayloadProfile where
  mode : RtpPayloadMode
  clockRateHz : UInt32
  codec : Option CodecId := none
deriving DecidableEq

/-- What a payload type was resolved from. -/
inductive RtpPtResolveSource
  | binding (profile : RtpPayloadProfile)
  | static (profile : RtpPayloadProfile)
  | encapsulation (profile : RtpPayloadProfile)
  | weak (profile : RtpPayloadProfile)
  | unknown

def probeRtpPayload (payload : Bytes) : RtpPayloadMode :=
  let len := payload.length
  let isEhome := 256 ≤ len ∧ payload.take 2 = [0x01, 0x00] ∧
    (payload[2]? = some 0x01 ∨ payload[2]? = some 0x02)
  let isTs := payload[0]? = some 0x47 ∧
    (376 ≤ len ∧ payload[188]? = some 0x47 ∨ len ≤ 188 ∨ len % 188 = 0)
  if payload = [] then .unknown
  else if payload.take 4 = [0x30, 0x31, 0x63, 0x64] then .jtt1078
  else if isEhome then .ehome
  else if payload.take 4 = [0x00, 0x00, 0x01, 0xBA] then .ps
  else if isTs then .ts
  else
    match payload.findIdx? (· = 0x47) with
    | some pos => if pos < 12 ∧ pos + 188 ≤ len then .ts else .unknown
    | none => .unknown

/-- The codec whose parameter sets or intra pictures the first unit is one of. -/
def probeEsCodec (payload : Bytes) : Option CodecId :=
  let unit :=
    if payload.take 4 = [0x00, 0x00, 0x00, 0x01] then payload.drop 4
    else if payload.take 3 = [0x00, 0x00, 0x01] then payload.drop 3
    else payload
  match unit with
  | [] => none
  | u0 :: rest =>
    if u0 &&& 0x80 = 0 ∧ u0 &&& 0x1f ∈ [5, 7, 8] then some .h264
    else
      match rest with
      | [] => none
      | u1 :: rest =>
        let h265Type := (u0 >>> 1) &&& 0x3f
        let tid := u1 &&& 0x07
        let layerId := ((u0 &&& 0x01) <<< 5) ||| (u1 >>> 3)
        let isVclIrap := 16 ≤ h265Type ∧ h265Type ≤ 21
        if u0 &&& 0x80 = 0 ∧ layerId = 0 ∧ 1 ≤ tid ∧ tid ≤ 8 ∧
            (h265Type ∈ [32, 33, 34] ∨ isVclIrap) then
          if ¬isVclIrap ∨ rest.head?.all (· &&& 0x80 ≠ 0) then some .h265 else none
        else none

def defaultClockRateForMode : RtpPayloadMode → UInt32
  | .rawAudio => 8000
  | _ => 90000

def staticProfile (payloadType : UInt8) : Option RtpPayloadProfile :=
  if payloadType ∈ [0, 3, 4, 8, 9, 12, 13, 15, 18] then
    some { mode := .rawAudio, clockRateHz := 8000 }
  else if payloadType ∈ [10, 11] then some { mode := .rawAudio, clockRateHz := 44100 }
  else if payloadType ∈ [31, 32, 34] then some { mode := .es, clockRateHz := 90000 }
  else if payloadType = 33 then some { mode := .ts, clockRateHz := 90000 }
  else none

/-- A start code with a unit behind it, or the sync word of an ADTS frame. -/
def weakSniffProfile (payload : Bytes) : Option RtpPayloadProfile :=
  let isAnnexbNal :=
    payload.take 4 = [0x00, 0x00, 0x00, 0x01] ∧ payload[4]?.any (· < 0x80) ∨
      payload.take 3 = [0x00, 0x00, 0x01] ∧ payload[3]?.any (· < 0x80)
  if isAnnexbNal then some { mode := .es, clockRateHz := 90000, codec := probeEsCodec payload }
  else if payload[0]? = some 0xFF ∧ payload[1]?.any (· &&& 0xF0 = 0xF0) then
    some { mode := .rawAudio, clockRateHz := 90000 }
  else none

structure RtpPtResolver where
  bindings : AList fun _ : UInt8 => RtpPayloadProfile := ∅

/-- A binding goes before the static table, and that before what the payload looks like. -/
def RtpPtResolver.resolveWithSource (r : RtpPtResolver) (payloadType : UInt8) (payload : Bytes) :
    RtpPtResolveSource :=
  match r.bindings.lookup payloadType with
  | some profile => .binding profile
  | none =>
    match staticProfile payloadType with
    | some profile => .static profile
    | none =>
      let mode := probeRtpPayload payload
      if mode ≠ .unknown then
        .encapsulation {
          mode := mode
          clockRateHz := defaultClockRateForMode mode
          codec := if mode = .es then probeEsCodec payload else none }
      else
        match weakSniffProfile payload with
        | some profile => .weak profile
        | none => .unknown

end CheetahMedia.Codec
