import CheetahMedia.Codec.Media
import CheetahMedia.Lib.Endian
import CheetahMedia.Rtmp.Core.Media
import Mathlib.Tactic.Tauto

namespace CheetahMedia.Rtmp
open Lib Codec

@[match_pattern] abbrev RTMP_VIDEO_CODEC_ID_VP9 : UInt8 := 16
@[match_pattern] abbrev DOMESTIC_VIDEO_CODEC_ID_H265 : UInt8 := 12
@[match_pattern] abbrev DOMESTIC_VIDEO_CODEC_ID_AV1 : UInt8 := 13
@[match_pattern] abbrev DOMESTIC_VIDEO_CODEC_ID_VP8 : UInt8 := 14
@[match_pattern] abbrev DOMESTIC_VIDEO_CODEC_ID_VP9 : UInt8 := 15

/-! The letters `hvc1`, `vvc1`, `avc1`, `av01`, `vp08` and `vp09` as words. -/

@[match_pattern] abbrev RTMP_FOURCC_H265 : UInt32 := 0x68766331
@[match_pattern] abbrev RTMP_FOURCC_H266 : UInt32 := 0x76766331
@[match_pattern] abbrev RTMP_FOURCC_H264 : UInt32 := 0x61766331
@[match_pattern] abbrev RTMP_FOURCC_AV1 : UInt32 := 0x61763031
@[match_pattern] abbrev RTMP_FOURCC_VP8 : UInt32 := 0x76703038
@[match_pattern] abbrev RTMP_FOURCC_VP9 : UInt32 := 0x76703039

inductive DomesticCodecMode
  | standard | domestic | auto

/-- The video half of the table; no audio id is asked for here. -/
def codecFromRtmpCodecIdWithMode (codecId : UInt8) : DomesticCodecMode → Option CodecId
  | .standard => match codecId with
    | RTMP_VIDEO_CODEC_ID_H264 => some .h264
    | RTMP_VIDEO_CODEC_ID_H265 => some .h265
    | RTMP_VIDEO_CODEC_ID_AV1 => some .av1
    | RTMP_VIDEO_CODEC_ID_H266 => some .h266
    | RTMP_VIDEO_CODEC_ID_VP9 => some .vp9
    | _ => none
  | .domestic | .auto => match codecId with
    | RTMP_VIDEO_CODEC_ID_H264 => some .h264
    | DOMESTIC_VIDEO_CODEC_ID_H265 => some .h265
    | DOMESTIC_VIDEO_CODEC_ID_AV1 => some .av1
    | DOMESTIC_VIDEO_CODEC_ID_VP8 => some .vp8
    | DOMESTIC_VIDEO_CODEC_ID_VP9 => some .vp9
    | RTMP_VIDEO_CODEC_ID_VP9 => some .vp9
    | _ => none

def codecFromRtmpFourcc : UInt32 → Option CodecId
  | RTMP_FOURCC_H264 => some .h264
  | RTMP_FOURCC_H265 => some .h265
  | RTMP_FOURCC_H266 => some .h266
  | RTMP_FOURCC_AV1 => some .av1
  | RTMP_FOURCC_VP8 => some .vp8
  | RTMP_FOURCC_VP9 => some .vp9
  | _ => none

structure VideoIngressHeader where
  frameType : UInt8
  codec : CodecId
  packetType : UInt8
  cts : Int
  payloadOffset : Nat

/-- The value read so far, with `shift` bits of it known and `idx` bytes gone. -/
def parseLeb128From (value shift idx : Nat) : Bytes → Option (Nat × Nat)
  | [] => none
  | byte :: bytes =>
    let value := value ||| (byte &&& 0x7F).toNat <<< shift
    if byte &&& 0x80 = 0 then some (value, idx + 1)
    else parseLeb128From value (shift + 7) (idx + 1) bytes

def parseLeb128 (data : Bytes) : Option (Nat × Nat) := parseLeb128From 0 0 0 (data.take 8)

def signedI24 (v : Bytes) : Int :=
  let raw := fromBigEndian v
  if raw &&& 0x800000 ≠ 0 then raw - 0x1000000 else raw

def looksLikeAv1Payload : Bytes → Bool
  | [] => false
  | header :: rest =>
    if header &&& 0x80 ≠ 0 ∨ header &&& 0x01 ≠ 0 then false
    else if (header >>> 3) &&& 0x0F = 0 then false
    else
      let hasExtension := header &&& 0x04 ≠ 0
      if hasExtension ∧ rest = [] then false
      else
        let body := if hasExtension then rest.drop 1 else rest
        if header &&& 0x02 = 0 then true
        else
          match parseLeb128 body with
          | none => false
          | some (size, sizeLen) => size ≤ body.length - sizeLen

def looksLikeVp8Payload : Bytes → Bool
  | frameTag :: b1 :: b2 :: rest =>
    if (frameTag >>> 1) &&& 0x07 > 3 then false
    else if frameTag &&& 0x01 = 0 then
      if (frameTag :: b1 :: b2 :: rest).length < 6 then false
      else rest.take 3 = [0x9D, 0x01, 0x2A]
    else true
  | _ => false

def looksLikeVp9Payload : Bytes → Bool
  | [] => false
  | header :: _ =>
    if header >>> 6 ≠ 2 then false
    else if (header >>> 5) &&& 1 = 0 then header &&& 0x10 = 0
    else ¬ ((header >>> 4) &&& 1 = 1 ∧ header &&& 0x08 ≠ 0)

def looksLikeVideoPayload (codec : CodecId) (payload : Bytes) : Bool :=
  if payload = [] then false
  else
    match codec with
    | .av1 => looksLikeAv1Payload payload
    | .vp8 => looksLikeVp8Payload payload
    | .vp9 => looksLikeVp9Payload payload
    | .h265 | .h266 => true
    | _ => false

def shouldParseEnhancedCts (codec : CodecId) (payload : Bytes) : Bool :=
  if payload.length < 8 then false
  else
    let withCtsLooksValid := looksLikeVideoPayload codec (payload.drop 8)
    let withoutCtsLooksValid := looksLikeVideoPayload codec (payload.drop 5)
    match codec with
    | .h264 | .h265 | .h266 => true
    | .vp9 | .av1 => withCtsLooksValid && !withoutCtsLooksValid
    | .vp8 => withCtsLooksValid || !withoutCtsLooksValid
    | _ => false

/-- The composition time and where the body starts, by packet type, in an enhanced header. -/
def enhancedLayout (codec : CodecId) (payload : Bytes) : UInt8 → Option (Int × Nat)
  | 0 => some (0, 5)
  | 1 =>
    if shouldParseEnhancedCts codec payload then
      some (signedI24 ((payload.drop 5).take 3), 8)
    else some (0, 5)
  | 3 => some (0, 5)
  -- several tracks: `parse_video_multi_track` reads the rest
  | 5 => some (0, 5)
  | _ => if codec ∈ [.av1, .vp8, .vp9, .unknown] then some (0, 5) else none

def legacyLayout (codec : CodecId) (payload : Bytes) : UInt8 → Option (Int × Nat)
  | 0 => if payload.length < 5 then none else some (0, 5)
  | 1 => if payload.length < 5 then none else some (signedI24 ((payload.drop 2).take 3), 5)
  | 3 => some (0, 2)
  | _ => if codec = .unknown then some (0, 2) else none

def isEnhanced (first : UInt8) : Bool := (first >>> 4) &&& 8 ≠ 0

def parseVideoIngressHeaderWithMode (payload : Bytes) (mode : DomesticCodecMode) :
    Option VideoIngressHeader :=
  match payload with
  | first :: second :: _ =>
    if isEnhanced first then
      if payload.length < 5 then none
      else
        let fourcc := UInt32.ofNat (fromBigEndian ((payload.drop 1).take 4))
        let codec := (codecFromRtmpFourcc fourcc).getD .unknown
        let packetType := first &&& 0x0F
        (enhancedLayout codec payload packetType).map fun (cts, payloadOffset) =>
          { frameType := (first >>> 4) &&& 7, codec, packetType, cts, payloadOffset }
    else
      let codec := (codecFromRtmpCodecIdWithMode (first &&& 0x0F) mode).getD .unknown
      (legacyLayout codec payload second).map fun (cts, payloadOffset) =>
        { frameType := first >>> 4, codec, packetType := second, cts, payloadOffset }
  | _ => none

def parseVideoIngressHeader (payload : Bytes) : Option VideoIngressHeader :=
  parseVideoIngressHeaderWithMode payload .standard

/-- What the ingest path takes as a decoder configuration. -/
def StartsSequence (payload : Bytes) : Prop :=
  ∃ header, parseVideoIngressHeader payload = some header ∧ header.packetType = 0

theorem isEnhanced_iff (first : UInt8) : isEnhanced first = true ↔ first &&& EX_VIDEO_FLAG ≠ 0 :=
  forall_byte (P := fun b => isEnhanced b = true ↔ b &&& EX_VIDEO_FLAG ≠ 0) (by decide +kernel) first

/-- A packet of type zero always has a layout in an enhanced header. -/
theorem startsSequence_enhanced (henhanced : isEnhanced first = true) :
    StartsSequence (first :: rest) ↔ 4 ≤ rest.length ∧ first &&& 0x0F = 0 := by
  unfold StartsSequence parseVideoIngressHeader parseVideoIngressHeaderWithMode
  cases rest with
  | nil => simp
  | cons second rest =>
    simp only [henhanced, if_true, List.length_cons]
    split
    · rename_i hshort
      simp only [reduceCtorEq, false_and, exists_false, false_iff, not_and]
      omega
    · rename_i hlong
      constructor
      · rintro ⟨header, hparse, htype⟩
        obtain ⟨layout, -, rfl⟩ := Option.map_eq_some_iff.mp hparse
        exact ⟨by omega, htype⟩
      · rintro ⟨-, htype⟩
        rw [htype]
        exact ⟨_, rfl, rfl⟩

theorem startsSequence_legacy (hlegacy : isEnhanced first = false) :
    StartsSequence (first :: rest) ↔ 4 ≤ rest.length ∧ rest.head? = some 0 := by
  unfold StartsSequence parseVideoIngressHeader parseVideoIngressHeaderWithMode
  cases rest with
  | nil => simp
  | cons second rest =>
    simp only [hlegacy, Bool.false_eq_true, if_false, List.head?_cons, Option.some.injEq]
    constructor
    · rintro ⟨header, hparse, htype⟩
      obtain ⟨layout, hlayout, rfl⟩ := Option.map_eq_some_iff.mp hparse
      obtain rfl : second = 0 := htype
      unfold legacyLayout at hlayout
      simp only [List.length_cons] at hlayout ⊢
      refine ⟨?_, trivial⟩
      by_contra hshort
      rw [if_pos (by omega)] at hlayout
      cases hlayout
    · rintro ⟨hlong, rfl⟩
      unfold legacyLayout
      simp only [List.length_cons] at hlong ⊢
      rw [if_neg (by omega)]
      exact ⟨_, rfl, rfl⟩

/-- The codec ids whose legacy headers the pending buffer knows. -/
def keptCodecIds : List UInt8 :=
  [RTMP_VIDEO_CODEC_ID_H264, RTMP_VIDEO_CODEC_ID_H265, RTMP_VIDEO_CODEC_ID_AV1,
    RTMP_VIDEO_CODEC_ID_H266]

theorem isSequenceHeader_enhanced (henhanced : isEnhanced first = true) :
    isSequenceHeader .video (first :: rest) = true ↔ rest[4]? = some 0 := by
  have hflag := (isEnhanced_iff first).mp henhanced
  simp only [isSequenceHeader, List.head?_cons, ne_eq, hflag, not_false_eq_true, if_true,
    List.getElem?_cons_succ, EX_VIDEO_PACKET_TYPE_SEQUENCE_START]
  exact decide_eq_true_iff

theorem isSequenceHeader_legacy (hlegacy : isEnhanced first = false) :
    isSequenceHeader .video (first :: rest) = true ↔
      first &&& 0x0F ∈ keptCodecIds ∧ rest.head? = some 0 := by
  have hflag : ¬ first &&& EX_VIDEO_FLAG ≠ 0 := by
    rw [← isEnhanced_iff, hlegacy]
    exact Bool.false_ne_true
  simp only [isSequenceHeader, List.head?_cons, hflag, if_false, keptCodecIds]
  split <;> simp_all [List.head?_eq_getElem?]

/-- The payloads both classifiers read alike: the byte after the FourCC of an enhanced header
is zero exactly where the low bits of a complete header are, and a legacy packet of type zero
is complete exactly where its codec is one the pending buffer knows. -/
def ReadsAlike : Bytes → Prop
  | [] => True
  | first :: rest =>
    if isEnhanced first then rest[4]? = some 0 ↔ 4 ≤ rest.length ∧ first &&& 0x0F = 0
    else rest.head? = some 0 → (first &&& 0x0F ∈ keptCodecIds ↔ 4 ≤ rest.length)

/-- The pending buffer and the ingest path agree on exactly the payloads they read alike. -/
theorem isSequenceHeader_iff_startsSequence (payload : Bytes) :
    (isSequenceHeader .video payload = true ↔ StartsSequence payload) ↔ ReadsAlike payload := by
  cases payload with
  | nil => simp [isSequenceHeader, StartsSequence, parseVideoIngressHeader,
      parseVideoIngressHeaderWithMode, ReadsAlike]
  | cons first rest =>
    simp only [ReadsAlike]
    cases hfirst : isEnhanced first with
    | true =>
      simp only [if_true]
      rw [isSequenceHeader_enhanced hfirst, startsSequence_enhanced hfirst]
    | false =>
      simp only [Bool.false_eq_true, if_false]
      rw [isSequenceHeader_legacy hfirst,
        startsSequence_legacy hfirst]
      tauto

/-- The sequence start of an HEVC publisher: after the FourCC stands the version of the
configuration record, which is one. -/
theorem not_isSequenceHeader_iff_startsSequence :
    ¬ ∀ payload, (isSequenceHeader .video payload = true ↔ StartsSequence payload) := by
  intro hall
  have hagree := hall [0x90, 0x68, 0x76, 0x63, 0x31, 1, 1, 0x60]
  have hstarts : StartsSequence [0x90, 0x68, 0x76, 0x63, 0x31, 1, 1, 0x60] :=
    (startsSequence_enhanced (by decide)).mpr (by decide)
  exact absurd (hagree.mpr hstarts) (by decide)

end CheetahMedia.Rtmp
