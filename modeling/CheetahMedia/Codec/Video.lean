import CheetahMedia.Codec.Media

namespace CheetahMedia.Codec

def PARAMETER_SET_MAX_SIZE : Nat := 4096

/-- The place of the next start code of an Annex B stream, and its length. -/
def findStartCode : Bytes → Option (Nat × Nat)
  | 0 :: 0 :: 1 :: _ => some (0, 3)
  | 0 :: 0 :: 0 :: 1 :: _ => some (0, 4)
  | _ :: rest => (findStartCode rest).map fun r => (r.1 + 1, r.2)
  | [] => none

/-- Each unit takes a start code, so the length of the payload bounds the passes. -/
def splitAnnexbUnitsWithin : Nat → Bytes → List Bytes
  | 0, _ => []
  | passes + 1, payload =>
    match findStartCode payload with
    | none => []
    | some (start, codeLen) =>
      let payload := payload.drop (start + codeLen)
      let nextStart := ((findStartCode payload).map (·.1)).getD payload.length
      let units := splitAnnexbUnitsWithin passes (payload.drop nextStart)
      if nextStart > 0 then payload.take nextStart :: units else units

def splitAnnexbUnits (payload : Bytes) : List Bytes := splitAnnexbUnitsWithin payload.length payload

def annexbFromAccessUnit (units : List Bytes) : Bytes :=
  units.flatMap fun unit => [0x00, 0x00, 0x00, 0x01] ++ unit

structure ParameterSetCache where
  vps : Option Bytes := none
  sps : Option Bytes := none
  pps : Option Bytes := none
deriving DecidableEq

namespace ParameterSetCache

/-- The parameter set that a unit is, by codec and type. -/
inductive Kind
  | vps | sps | pps

def kindOf (codec : CodecId) (unit : Bytes) : Option Kind :=
  match codec, unit with
  | .h264, b :: _ =>
    if b &&& 0x1f = 7 then some .sps else if b &&& 0x1f = 8 then some .pps else none
  | .h265, b :: _ =>
    let type := (b >>> 1) &&& 0x3f
    if type = 32 then some .vps else if type = 33 then some .sps
    else if type = 34 then some .pps else none
  | .h266, _ :: b :: _ =>
    let type := (b >>> 3) &&& 0x1f
    if type = 14 then some .vps else if type = 15 then some .sps
    else if type = 16 then some .pps else none
  | _, _ => none

/-- The cache with the unit in it, and whether that changed it. -/
def storeNalu (cache : ParameterSetCache) (codec : CodecId) (unit : Bytes) :
    ParameterSetCache × Bool :=
  if unit.isEmpty || unit.length > PARAMETER_SET_MAX_SIZE then (cache, false)
  else match kindOf codec unit with
    | none => (cache, false)
    | some .vps => if cache.vps = some unit then (cache, false) else ({ cache with vps := unit }, true)
    | some .sps => if cache.sps = some unit then (cache, false) else ({ cache with sps := unit }, true)
    | some .pps => if cache.pps = some unit then (cache, false) else ({ cache with pps := unit }, true)

def updateFromAnnexb (cache : ParameterSetCache) (codec : CodecId) (payload : Bytes) :
    ParameterSetCache × Bool :=
  (splitAnnexbUnits payload).foldl
    (fun r unit => let s := r.1.storeNalu codec unit; (s.1, r.2 || s.2)) (cache, false)

def hasRequiredSets (cache : ParameterSetCache) : CodecId → Bool
  | .h264 => cache.sps.isSome && cache.pps.isSome
  | .h265 | .h266 => cache.vps.isSome && cache.sps.isSome && cache.pps.isSome
  | _ => true

def extradataForCodec (cache : ParameterSetCache) : CodecId → Option CodecExtradata
  | .h264 => do return .h264 [← cache.sps] [← cache.pps] none
  | .h265 => do return .h265 [← cache.vps] [← cache.sps] [← cache.pps] none
  | .h266 => do return .h266 [← cache.vps] [← cache.sps] [← cache.pps]
  | _ => none

/-- The sets that go before an access unit, in the order of the codec. -/
def prefixFor (cache : ParameterSetCache) : CodecId → List Bytes
  | .h264 => cache.sps.toList ++ cache.pps.toList
  | .h265 | .h266 => cache.vps.toList ++ cache.sps.toList ++ cache.pps.toList
  | _ => []

def prependToAnnexbAccessUnit (cache : ParameterSetCache) (codec : CodecId) (payload : Bytes) :
    Bytes :=
  let units := splitAnnexbUnits payload
  if units.isEmpty then payload else annexbFromAccessUnit (cache.prefixFor codec ++ units)

end ParameterSetCache

def h26xNaluIsRandomAccess (codec : CodecId) (unit : Bytes) : Bool :=
  match codec, unit with
  | .h264, b :: _ => b &&& 0x1f = 5
  | .h265, b :: _ =>
    let type := (b >>> 1) &&& 0x3f
    16 ≤ type ∧ type ≤ 21
  | .h266, _ :: b :: _ =>
    let type := (b >>> 3) &&& 0x1f
    7 ≤ type ∧ type ≤ 10
  | _, _ => false

def h26xAnnexbHasRandomAccess (codec : CodecId) (payload : Bytes) : Bool :=
  (splitAnnexbUnits payload).any (h26xNaluIsRandomAccess codec)

/-- The bits of a byte, the first one first. -/
def bitsOf (b : UInt8) : List Bool :=
  [7, 6, 5, 4, 3, 2, 1, 0].map fun i : UInt8 => (b >>> i) &&& 1 == 1

def vp8FrameIsKeyframe : Bytes → Bool
  | b :: _ => b &&& 0x01 = 0
  | [] => false

/-- The frame marker, the profile with its reserved bit, and two flags: all of the
header that is read lies in the first byte. -/
def vp9FrameIsKeyframe : Bytes → Bool
  | [] => false
  | b :: _ => match bitsOf b with
    | true :: false :: profileLow :: profileHigh :: rest =>
      match if profileLow && profileHigh then rest.tail else rest with
      | showExistingFrame :: frameType :: _ => !showExistingFrame && !frameType
      | _ => false
    | _ => false

/-- A number in at most eight groups of seven bits, the low ones first, and its length. -/
def readLeb128 (data : Bytes) : Option (Nat × Nat) := go 0 data
where
  go (i : Nat) : Bytes → Option (Nat × Nat)
    | [] => none
    | b :: rest =>
      if i ≥ 8 then none
      else
        let part := (b &&& 0x7f).toNat <<< (7 * i)
        if b &&& 0x80 = 0 then some (part, i + 1)
        else (go (i + 1) rest).map fun r => (r.1 + part, r.2)

/-- Whether an OBU is a key frame, where it is a frame at all. -/
def av1ObuIsKeyframe (obu : Bytes) : Option Bool := do
  let header ← obu.head?
  let extended : Nat := if header &&& 0x04 ≠ 0 then 2 else 1
  let offset : Nat ←
    if header &&& 0x02 ≠ 0 then
      if extended > obu.length then none
      else (readLeb128 (obu.drop extended)).map fun r => extended + r.2
    else some extended
  if offset > obu.length then none
  else
    let type := (header >>> 3) &&& 0x0f
    if type = 3 ∨ type = 6 ∨ type = 7 then
      match (obu.drop offset).head?.map bitsOf with
      | some (showExistingFrame :: high :: low :: _) => some (!showExistingFrame && !high && !low)
      | _ => none
    else none

/-- Each OBU takes its header, so the length of the payload bounds the passes. -/
def av1ObuPayloadHasKeyframeWithin : Nat → Bytes → Bool
  | 0, _ | _, [] => false
  | passes + 1, header :: rest =>
    let cursor := header :: rest
    let offset : Nat := if header &&& 0x04 ≠ 0 then 2 else 1
    if header &&& 0x02 ≠ 0 then
      match readLeb128 (cursor.drop offset) with
      | none => false
      | some (obuLen, lebLen) =>
        let last := offset + lebLen + obuLen
        if cursor.length < last then false
        else match av1ObuIsKeyframe (cursor.take last) with
          | some isKey => isKey
          | none => av1ObuPayloadHasKeyframeWithin passes (cursor.drop last)
    else (av1ObuIsKeyframe cursor).getD false

def av1ObuPayloadHasKeyframe (payload : Bytes) : Bool :=
  av1ObuPayloadHasKeyframeWithin payload.length payload

def videoPayloadIsRandomAccess (codec : CodecId) (format : FrameFormat) (payload : Bytes) : Bool :=
  match codec, format with
  | .h264, .canonicalH26x | .h265, .canonicalH26x | .h266, .canonicalH26x =>
    h26xAnnexbHasRandomAccess codec payload
  | .av1, .canonicalAv1Obu => av1ObuPayloadHasKeyframe payload
  | .vp8, .canonicalVp8Frame => vp8FrameIsKeyframe payload
  | .vp9, .canonicalVp9Frame => vp9FrameIsKeyframe payload
  | .mjpeg, .mjpegFrame => true
  | _, _ => false

end CheetahMedia.Codec
