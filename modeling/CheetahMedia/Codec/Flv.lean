import Mathlib.Algebra.Order.BigOperators.Group.List
import Mathlib.Algebra.Order.Group.Nat
import CheetahMedia.Codec.Media
import CheetahMedia.Lib.Endian

namespace CheetahMedia.Codec
open Lib

def FLV_FILE_HEADER_BYTES : Nat := 9
def FLV_PREVIOUS_TAG_SIZE_BYTES : Nat := 4
def FLV_FULL_HEADER_BYTES : Nat := FLV_FILE_HEADER_BYTES + FLV_PREVIOUS_TAG_SIZE_BYTES
def FLV_TAG_HEADER_BYTES : Nat := 11
def FLV_TAG_DATA_LEN_MAX : Nat := 0xFFFFFF
def FLV_DEMUX_DEFAULT_MAX_BUFFER_BYTES : Nat := 4 * 1024 * 1024

inductive FlvTagType
  | audio
  | video
  | script
deriving DecidableEq

namespace FlvTagType

def toU8 : FlvTagType → UInt8
  | .audio => 8
  | .video => 9
  | .script => 18

def fromU8 (v : UInt8) : Option FlvTagType :=
  if v = 8 then some .audio
  else if v = 9 then some .video
  else if v = 18 then some .script
  else none

@[simp] theorem fromU8_toU8 (t : FlvTagType) : fromU8 t.toU8 = some t := by
  cases t <;> decide

end FlvTagType

structure FlvHeader where
  hasAudio : Bool
  hasVideo : Bool
deriving DecidableEq

structure FlvTag where
  tagType : FlvTagType
  timestampMs : UInt32
  payload : Bytes
deriving DecidableEq

structure FlvPreviousTagSizeMismatch where
  expected : UInt32
  actual : UInt32
deriving DecidableEq

inductive FlvDemuxEvent
  | header (header : FlvHeader)
  | tag (tag : FlvTag)
  | previousTagSizeMismatch (mismatch : FlvPreviousTagSizeMismatch)
deriving DecidableEq

inductive FlvStreamError
  | invalidHeaderSignature
  | unsupportedHeaderVersion (version : UInt8)
  | invalidHeaderDataOffset (dataOffset : Nat)
  | truncated (context : String) (expectedAtLeast actual : Nat)
  | invalidTagType (raw : UInt8)
  | tagPayloadTooLarge (declared maxAllowed : Nat)
  | demuxBufferTooLarge (buffered maxAllowed : Nat)
deriving DecidableEq

namespace FlvHeader

def flags (header : FlvHeader) : UInt8 :=
  (if header.hasAudio then 4 else 0) ||| (if header.hasVideo then 1 else 0)

/-- A file header whose data offset leaves room for more header bytes. -/
def encodeExtended (header : FlvHeader) (extra : Bytes) : Bytes :=
  [70, 76, 86, 1, header.flags] ++ toBigEndian 4 (FLV_FILE_HEADER_BYTES + extra.length) ++
    extra ++ toBigEndian 4 0

/-- The code writes no more than the nine bytes. -/
def encode (header : FlvHeader) : Bytes := header.encodeExtended []

def parsePrefix (raw : Bytes) : Except FlvStreamError (FlvHeader × Nat) :=
  match raw with
  | f :: l :: v :: version :: flags :: o₃ :: o₂ :: o₁ :: o₀ :: _ =>
    if [f, l, v] ≠ [70, 76, 86] then .error .invalidHeaderSignature
    else if version ≠ 1 then .error (.unsupportedHeaderVersion version)
    else
      let dataOffset := fromBigEndian [o₃, o₂, o₁, o₀]
      if dataOffset < FLV_FILE_HEADER_BYTES then .error (.invalidHeaderDataOffset dataOffset)
      else
        let needed := dataOffset + FLV_PREVIOUS_TAG_SIZE_BYTES
        if raw.length < needed then .error (.truncated "flv full header" needed raw.length)
        else .ok (⟨flags &&& 4 ≠ 0, flags &&& 1 ≠ 0⟩, needed)
  | _ => .error (.truncated "flv file header" FLV_FILE_HEADER_BYTES raw.length)

end FlvHeader

namespace FlvTag

def encodeHeader (tag : FlvTag) (dataLen : Nat) : Bytes :=
  tag.tagType.toU8 :: toBigEndian 3 dataLen ++ toBigEndian 3 tag.timestampMs.toNat ++
    [UInt8.ofNat (tag.timestampMs.toNat / 256 ^ 3)] ++ [0, 0, 0]

/-- A payload that is too long is cut. -/
def encode (tag : FlvTag) : Bytes :=
  let dataLen := min tag.payload.length FLV_TAG_DATA_LEN_MAX
  tag.encodeHeader dataLen ++ tag.payload.take dataLen

def encodeWithPreviousTagSize (tag : FlvTag) : Bytes :=
  tag.encode ++ toBigEndian 4 tag.encode.length

end FlvTag

structure FlvDemuxer where
  buffer : Bytes
  headerParsed : Bool
  maxBufferBytes : Nat

namespace FlvDemuxer

def new (maxBufferBytes : Nat) : FlvDemuxer := ⟨[], false, max maxBufferBytes FLV_FULL_HEADER_BYTES⟩

def reset (d : FlvDemuxer) : FlvDemuxer := { d with buffer := [], headerParsed := false }

/-- The notice of a size that is not that of the tag before it. -/
def checkPreviousTagSize (payloadLen : Nat) (previous : Bytes) : List FlvDemuxEvent :=
  let actual := UInt32.ofNat (fromBigEndian previous)
  let expected := UInt32.ofNat (FLV_TAG_HEADER_BYTES + payloadLen)
  if actual ≠ expected then [.previousTagSizeMismatch ⟨expected, actual⟩] else []

/-- The events of the tags that are complete, and what is left. Each tag takes input, so
the length of the buffer bounds the passes. -/
def parseTags (maxBufferBytes : Nat) :
    Nat → Bytes → Except FlvStreamError (List FlvDemuxEvent × Bytes)
  | passes + 1, t :: l₂ :: l₁ :: l₀ :: t₂ :: t₁ :: t₀ :: t₃ :: s₂ :: s₁ :: s₀ :: body =>
    let raw := t :: l₂ :: l₁ :: l₀ :: t₂ :: t₁ :: t₀ :: t₃ :: s₂ :: s₁ :: s₀ :: body
    if body.length < FLV_PREVIOUS_TAG_SIZE_BYTES then .ok ([], raw)
    else
      match FlvTagType.fromU8 t with
      | none => .error (.invalidTagType t)
      | some tagType =>
        let payloadLen := fromBigEndian [l₂, l₁, l₀]
        if payloadLen > maxBufferBytes then
          .error (.tagPayloadTooLarge payloadLen maxBufferBytes)
        else if body.length < payloadLen + FLV_PREVIOUS_TAG_SIZE_BYTES then .ok ([], raw)
        else do
          let tag := ⟨tagType, .ofNat (fromBigEndian [t₃, t₂, t₁, t₀]), body.take payloadLen⟩
          let after := body.drop payloadLen
          let (events, rest) ←
            parseTags maxBufferBytes passes (after.drop FLV_PREVIOUS_TAG_SIZE_BYTES)
          .ok (.tag tag :: checkPreviousTagSize payloadLen
            (after.take FLV_PREVIOUS_TAG_SIZE_BYTES) ++ events, rest)
  | _, raw => .ok ([], raw)

/-- An error about a tag resets the demuxer, an error about the header does not. -/
def parseBuffer (d : FlvDemuxer) : FlvDemuxer × Except FlvStreamError (List FlvDemuxEvent) :=
  if d.headerParsed then parseFrom d [] d.buffer
  else if d.buffer.length < FLV_FULL_HEADER_BYTES then (d, .ok [])
  else
    match FlvHeader.parsePrefix d.buffer with
    | .error e => (d, .error e)
    | .ok (header, consumed) =>
      parseFrom { d with headerParsed := true } [.header header] (d.buffer.drop consumed)
where
  parseFrom (d : FlvDemuxer) (events : List FlvDemuxEvent) (raw : Bytes) :
      FlvDemuxer × Except FlvStreamError (List FlvDemuxEvent) :=
    match parseTags d.maxBufferBytes (raw.length + 1) raw with
    | .error e => (d.reset, .error e)
    | .ok (tags, rest) => ({ d with buffer := rest }, .ok (events ++ tags))

def push (d : FlvDemuxer) (chunk : Bytes) :
    FlvDemuxer × Except FlvStreamError (List FlvDemuxEvent) :=
  let nextLen := d.buffer.length + chunk.length
  if nextLen > d.maxBufferBytes then
    (d.reset, .error (.demuxBufferTooLarge nextLen d.maxBufferBytes))
  else parseBuffer { d with buffer := d.buffer ++ chunk }

/-- Push the pieces one by one, up to the first error. -/
def pushAll (d : FlvDemuxer) : List Bytes → FlvDemuxer × Except FlvStreamError (List FlvDemuxEvent)
  | [] => (d, .ok [])
  | piece :: pieces =>
    match d.push piece with
    | (d', .error e) => (d', .error e)
    | (d', .ok events) =>
      match d'.pushAll pieces with
      | (d'', .error e) => (d'', .error e)
      | (d'', .ok events') => (d'', .ok (events ++ events'))

end FlvDemuxer

section TagBytes

/-- What the muxer takes: the length of the payload fits its three bytes. -/
def FlvTag.Fits (tag : FlvTag) : Prop := tag.payload.length ≤ FLV_TAG_DATA_LEN_MAX

instance (tag : FlvTag) : Decidable tag.Fits := inferInstanceAs (Decidable (_ ≤ _))

/-- The length of a tag with the word that follows it. -/
def FlvTag.size (tag : FlvTag) : Nat :=
  FLV_TAG_HEADER_BYTES + tag.payload.length + FLV_PREVIOUS_TAG_SIZE_BYTES

def muxTags (tags : List FlvTag) : Bytes := tags.flatMap FlvTag.encodeWithPreviousTagSize

theorem FlvTag.Fits.encode_eq (h : FlvTag.Fits tag) :
    tag.encode = tag.encodeHeader tag.payload.length ++ tag.payload := by
  rw [encode, Nat.min_eq_left h, List.take_length]

theorem FlvTag.encodeHeader_length (tag : FlvTag) (dataLen : Nat) :
    (tag.encodeHeader dataLen).length = FLV_TAG_HEADER_BYTES := by
  simp [encodeHeader, FLV_TAG_HEADER_BYTES]

theorem FlvTag.Fits.encodeWith_eq (h : FlvTag.Fits tag) :
    tag.encodeWithPreviousTagSize = tag.encodeHeader tag.payload.length ++
      (tag.payload ++ toBigEndian 4 (FLV_TAG_HEADER_BYTES + tag.payload.length)) := by
  rw [encodeWithPreviousTagSize, h.encode_eq, List.length_append, encodeHeader_length,
    List.append_assoc]

theorem FlvTag.Fits.length_eq (h : FlvTag.Fits tag) :
    tag.encodeWithPreviousTagSize.length = tag.size := by
  rw [h.encodeWith_eq]
  simp only [List.length_append, encodeHeader_length, toBigEndian_length, size,
    FLV_PREVIOUS_TAG_SIZE_BYTES]
  omega

/-- The parser reads a tag's header and then waits for the whole tag. -/
theorem parseTags_header {tag : FlvTag} (h : tag.Fits) (body : Bytes) (maxBufferBytes passes : Nat) :
    FlvDemuxer.parseTags maxBufferBytes (passes + 1)
        (tag.encodeHeader tag.payload.length ++ body) =
      if body.length < FLV_PREVIOUS_TAG_SIZE_BYTES then
        .ok ([], tag.encodeHeader tag.payload.length ++ body)
      else if tag.payload.length > maxBufferBytes then
        .error (.tagPayloadTooLarge tag.payload.length maxBufferBytes)
      else if body.length < tag.payload.length + FLV_PREVIOUS_TAG_SIZE_BYTES then
        .ok ([], tag.encodeHeader tag.payload.length ++ body)
      else (do
        let after := body.drop tag.payload.length
        let (events, rest) ← FlvDemuxer.parseTags maxBufferBytes passes
          (after.drop FLV_PREVIOUS_TAG_SIZE_BYTES)
        .ok (.tag ⟨tag.tagType, tag.timestampMs, body.take tag.payload.length⟩ ::
          FlvDemuxer.checkPreviousTagSize tag.payload.length
            (after.take FLV_PREVIOUS_TAG_SIZE_BYTES) ++ events, rest)) := by
  have hlen : fromBigEndian (toBigEndian 3 tag.payload.length) = tag.payload.length := by
    refine from_toBigEndian_of_lt ?_
    have hfits : tag.payload.length ≤ 0xFFFFFF := h
    omega
  have htime : fromBigEndian (toBigEndian 4 tag.timestampMs.toNat) = tag.timestampMs.toNat :=
    from_toBigEndian_of_lt tag.timestampMs.toNat_lt
  simp only [toBigEndian] at hlen htime
  simp only [FlvTag.encodeHeader, toBigEndian, List.cons_append, List.nil_append,
    FlvDemuxer.parseTags, FlvTagType.fromU8_toU8, hlen, htime, UInt32.ofNat_toNat]

/-- Of two cuts of one string the longer front starts with the shorter one. -/
theorem exists_of_longer {a b c d : Bytes} (h : a ++ b = c ++ d) (hle : c.length ≤ a.length) :
    ∃ c', a = c ++ c' ∧ c' ++ b = d := by
  rcases List.append_eq_append_iff.mp h with ⟨a', rfl, rfl⟩ | ⟨c', rfl, rfl⟩
  · rw [List.length_append] at hle
    have hnil : a' = [] := List.length_eq_zero_iff.mp (by omega)
    subst hnil
    exact ⟨[], by simp, rfl⟩
  · exact ⟨c', rfl, rfl⟩

theorem parseTags_short (h : raw.length < FLV_TAG_HEADER_BYTES + FLV_PREVIOUS_TAG_SIZE_BYTES)
    (maxBufferBytes passes : Nat) :
    FlvDemuxer.parseTags maxBufferBytes passes raw = .ok ([], raw) := by
  unfold FlvDemuxer.parseTags
  split
  · rw [if_pos]
    simp only [List.length_cons, FLV_TAG_HEADER_BYTES] at h
    omega
  · rfl

theorem checkPreviousTagSize_same (h : payloadLen ≤ FLV_TAG_DATA_LEN_MAX) :
    FlvDemuxer.checkPreviousTagSize payloadLen
      (toBigEndian 4 (FLV_TAG_HEADER_BYTES + payloadLen)) = [] := by
  have hlt : FLV_TAG_HEADER_BYTES + payloadLen < 256 ^ 4 := by
    simp only [FLV_TAG_HEADER_BYTES, FLV_TAG_DATA_LEN_MAX] at h ⊢
    omega
  rw [FlvDemuxer.checkPreviousTagSize, from_toBigEndian_of_lt hlt]
  simp

/-- The buffer does not hold all of the next tag. -/
def Unfinished : List FlvTag → Bytes → Prop
  | [], buffer => buffer = []
  | tag :: _, buffer => buffer.length < tag.size

theorem muxTags_cons (tag : FlvTag) (tags : List FlvTag) :
    muxTags (tag :: tags) = tag.encodeWithPreviousTagSize ++ muxTags tags := rfl

/-- What the parser makes of the front of some tags: it gives those that are complete,
unless it comes upon one that its buffer can never hold. -/
theorem parseTags_front (tags : List FlvTag) (hfits : ∀ tag ∈ tags, tag.Fits)
    (hraw : raw ++ rest = muxTags tags) (hpasses : raw.length < passes) :
    (∃ tag ∈ tags, maxBufferBytes < tag.payload.length ∧
        ∃ e, FlvDemuxer.parseTags maxBufferBytes passes raw = .error e) ∨
      ∃ done later left, tags = done ++ later ∧ raw = muxTags done ++ left ∧
        left ++ rest = muxTags later ∧ Unfinished later left ∧
        FlvDemuxer.parseTags maxBufferBytes passes raw = .ok (done.map .tag, left) := by
  induction tags generalizing raw passes with
  | nil =>
    obtain ⟨rfl, rfl⟩ := List.append_eq_nil_iff.mp hraw
    exact .inr ⟨[], [], [], rfl, rfl, rfl, rfl, parseTags_short (by decide) _ _⟩
  | cons tag tags ih =>
    obtain ⟨hfit, hrest⟩ := List.forall_mem_cons.mp hfits
    by_cases hshort : raw.length < FLV_TAG_HEADER_BYTES + FLV_PREVIOUS_TAG_SIZE_BYTES
    · refine .inr ⟨[], tag :: tags, raw, rfl, rfl, hraw, ?_, parseTags_short hshort _ _⟩
      simp only [Unfinished, FlvTag.size]
      omega
    rw [muxTags_cons, hfit.encodeWith_eq, List.append_assoc] at hraw
    obtain ⟨body, rfl, hbody⟩ := exists_of_longer hraw (by
      rw [FlvTag.encodeHeader_length]
      omega)
    rw [List.length_append, FlvTag.encodeHeader_length] at hshort hpasses
    obtain ⟨passes, rfl⟩ : ∃ p, passes = p + 1 := ⟨passes - 1, by omega⟩
    rw [parseTags_header hfit, if_neg (by omega)]
    by_cases hlarge : tag.payload.length > maxBufferBytes
    · exact .inl ⟨tag, List.mem_cons_self, hlarge, _, if_pos hlarge⟩
    rw [if_neg hlarge]
    by_cases hpart : body.length < tag.payload.length + FLV_PREVIOUS_TAG_SIZE_BYTES
    · refine .inr ⟨[], tag :: tags, tag.encodeHeader tag.payload.length ++ body, rfl, rfl, ?_, ?_,
        if_pos hpart⟩
      · rw [hraw, muxTags_cons, hfit.encodeWith_eq]
        simp only [List.append_assoc]
      · simp only [Unfinished, FlvTag.size, List.length_append, FlvTag.encodeHeader_length]
        omega
    · rw [if_neg hpart]
      obtain ⟨raw', rfl, hraw'⟩ := exists_of_longer hbody (by
        simp only [List.length_append, toBigEndian_length]
        simp only [FLV_PREVIOUS_TAG_SIZE_BYTES] at hpart
        omega)
      have htake : (tag.payload ++ toBigEndian 4 (FLV_TAG_HEADER_BYTES + tag.payload.length) ++
          raw').take tag.payload.length = tag.payload := by simp
      have hafter : (tag.payload ++ toBigEndian 4 (FLV_TAG_HEADER_BYTES + tag.payload.length) ++
          raw').drop tag.payload.length =
            toBigEndian 4 (FLV_TAG_HEADER_BYTES + tag.payload.length) ++ raw' := by simp
      have hword : (toBigEndian 4 (FLV_TAG_HEADER_BYTES + tag.payload.length) ++ raw').take
          FLV_PREVIOUS_TAG_SIZE_BYTES =
            toBigEndian 4 (FLV_TAG_HEADER_BYTES + tag.payload.length) :=
        List.take_left' (toBigEndian_length _ _)
      have hnext : (toBigEndian 4 (FLV_TAG_HEADER_BYTES + tag.payload.length) ++ raw').drop
          FLV_PREVIOUS_TAG_SIZE_BYTES = raw' := List.drop_left' (toBigEndian_length _ _)
      simp only [htake, hafter, hword, hnext, checkPreviousTagSize_same hfit]
      have hlen : raw'.length < passes := by
        simp only [List.length_append, toBigEndian_length, FLV_TAG_HEADER_BYTES] at hpasses
        omega
      rcases ih hrest hraw' hlen with ⟨large, hmem, hlarge, e, he⟩ |
        ⟨done, later, left, rfl, rfl, hleft, hunfinished, hparse⟩
      · exact .inl ⟨large, List.mem_cons_of_mem tag hmem, hlarge, e, by rw [he]; rfl⟩
      · refine .inr ⟨tag :: done, later, left, rfl, ?_, hleft, hunfinished, by rw [hparse]; rfl⟩
        rw [muxTags_cons, hfit.encodeWith_eq]
        simp only [List.append_assoc]

end TagBytes

section Cutting

/-- The units that are not complete after `k` more bytes, and how much of the first of
them is there. -/
def advance : List Nat → Nat → List Nat × Nat
  | [], k => ([], k)
  | n :: ns, k => if k < n then (n :: ns, k) else advance ns (k - n)

/-- With `held` bytes of the first unit in the buffer, no piece makes it overflow. -/
def TagsReadable (maxBufferBytes : Nat) : List Nat → Nat → List Bytes → Prop
  | _, _, [] => True
  | sizes, held, piece :: pieces =>
    held + piece.length ≤ maxBufferBytes ∧
      TagsReadable maxBufferBytes (advance sizes (held + piece.length)).1
        (advance sizes (held + piece.length)).2 pieces

/-- As long as there are less bytes than the shortest header has, the demuxer waits. The
piece that brings the last of them must bring the rest of a longer header as well. -/
def Readable (maxBufferBytes headerLen : Nat) (sizes : List Nat) : Nat → List Bytes → Prop
  | _, [] => True
  | held, piece :: pieces =>
    held + piece.length ≤ maxBufferBytes ∧
      if held + piece.length < FLV_FULL_HEADER_BYTES then
        Readable maxBufferBytes headerLen sizes (held + piece.length) pieces
      else
        headerLen ≤ held + piece.length ∧
          TagsReadable maxBufferBytes (advance sizes (held + piece.length - headerLen)).1
            (advance sizes (held + piece.length - headerLen)).2 pieces

/-- Less than the first unit is there. -/
def Behind : List Nat → Nat → Prop
  | [], held => held = 0
  | n :: _, held => held < n

theorem advance_spec (sizes : List Nat) (k : Nat) (h : k ≤ sizes.sum) : ∃ done,
    sizes = done ++ (advance sizes k).1 ∧ k = done.sum + (advance sizes k).2 ∧
      Behind (advance sizes k).1 (advance sizes k).2 := by
  induction sizes generalizing k with
  | nil =>
    refine ⟨[], rfl, by simp [advance], ?_⟩
    simpa [advance, Behind] using h
  | cons n ns ih =>
    unfold advance
    split
    · rename_i hlt
      exact ⟨[], rfl, by simp, hlt⟩
    · rename_i hge
      rw [List.sum_cons] at h
      obtain ⟨done, hsizes, hk, hbehind⟩ := ih (k - n) (by omega)
      refine ⟨n :: done, by rw [List.cons_append, ← hsizes], ?_, hbehind⟩
      rw [List.sum_cons]
      omega

/-- A unit that all arrives has at some time been in the buffer, together. -/
theorem TagsReadable.le_max (h : TagsReadable maxBufferBytes sizes held pieces)
    (hbehind : Behind sizes held) (htotal : held + pieces.flatten.length = sizes.sum) :
    ∀ n ∈ sizes, n ≤ maxBufferBytes := by
  induction pieces generalizing sizes held with
  | nil =>
    cases sizes with
    | nil => exact List.forall_mem_nil _
    | cons n ns =>
      simp only [Behind, List.flatten_nil, List.length_nil, List.sum_cons] at hbehind htotal
      omega
  | cons piece pieces ih =>
    obtain ⟨hfits, hlater⟩ := h
    rw [List.flatten_cons, List.length_append] at htotal
    obtain ⟨done, hsizes, hk, hbehind'⟩ := advance_spec sizes (held + piece.length) (by omega)
    have hrest := ih hlater hbehind' (by
      have hsum := congrArg List.sum hsizes
      rw [List.sum_append] at hsum
      omega)
    intro n hn
    rw [hsizes] at hn
    rcases List.mem_append.mp hn with hdone | hlate
    · have hle : n ≤ done.sum := List.le_sum_of_mem hdone
      omega
    · exact hrest n hlate

theorem muxTags_length (hfits : ∀ tag ∈ tags, FlvTag.Fits tag) :
    (muxTags tags).length = (tags.map FlvTag.size).sum := by
  induction tags with
  | nil => rfl
  | cons tag tags ih =>
    obtain ⟨hfit, hrest⟩ := List.forall_mem_cons.mp hfits
    rw [muxTags_cons, List.length_append, hfit.length_eq, ih hrest, List.map_cons, List.sum_cons]

theorem behind_of_unfinished (h : Unfinished tags buffer) :
    Behind (tags.map FlvTag.size) buffer.length := by
  cases tags with
  | nil => exact List.length_eq_zero_iff.mpr h
  | cons tag tags => exact h

theorem advance_muxTags (hfits : ∀ tag ∈ done, FlvTag.Fits tag) (h : Unfinished later left) :
    advance ((done ++ later).map FlvTag.size) (muxTags done ++ left).length =
      (later.map FlvTag.size, left.length) := by
  induction done with
  | nil =>
    have hbehind := behind_of_unfinished h
    cases later with
    | nil =>
      rw [h]
      rfl
    | cons tag later => exact if_pos hbehind
  | cons tag done ih =>
    obtain ⟨hfit, hrest⟩ := List.forall_mem_cons.mp hfits
    rw [muxTags_cons, List.append_assoc, List.length_append, hfit.length_eq, List.cons_append,
      List.map_cons, advance, if_neg (by omega), Nat.add_sub_cancel_left]
    exact ih hrest

end Cutting

namespace FlvDemuxer

/-- Pushing the pieces gives these events and no error, and nothing is left over. -/
def Yields (d : FlvDemuxer) (pieces : List Bytes) (events : List FlvDemuxEvent) : Prop :=
  (d.pushAll pieces).2 = .ok events ∧ (d.pushAll pieces).1.buffer = []

theorem not_yields_of_error (h : (push d piece).2 = .error e) (pieces : List Bytes)
    (events : List FlvDemuxEvent) : ¬ Yields d (piece :: pieces) events := by
  rintro ⟨hok, -⟩
  rcases hpush : push d piece with ⟨d', r⟩
  rw [hpush] at h
  subst h
  simp [pushAll, hpush] at hok

theorem yields_cons (h : push d piece = (d', .ok events)) (pieces : List Bytes)
    (events' : List FlvDemuxEvent) :
    Yields d (piece :: pieces) (events ++ events') ↔ Yields d' pieces events' := by
  unfold Yields
  rcases hrest : d'.pushAll pieces with ⟨d'', r⟩
  cases r with
  | error e => simp [pushAll, h, hrest]
  | ok events'' => simp [pushAll, h, hrest]

/-- A push that reads on from `raw` is like pushing `raw` alone. -/
theorem yields_after {raw : Bytes} {limit : Nat} (h : push d piece =
      parseBuffer.parseFrom ⟨stale, true, limit⟩ events raw) (hraw : raw.length ≤ limit) :
    Yields d (piece :: pieces) (events ++ events') ↔
      Yields ⟨[], true, limit⟩ (raw :: pieces) events' := by
  have halone : push ⟨[], true, limit⟩ raw =
      parseBuffer.parseFrom ⟨raw, true, limit⟩ [] raw := by
    rw [push, if_neg (by simpa using hraw), parseBuffer, if_pos rfl]
    rfl
  unfold Yields
  cases hparse : parseTags limit (raw.length + 1) raw with
  | error e => simp [pushAll, h, halone, parseBuffer.parseFrom, hparse]
  | ok r =>
    rcases hrest : pushAll ⟨r.2, true, limit⟩ pieces with ⟨d'', r'⟩
    cases r' with
    | error e => simp [pushAll, h, halone, parseBuffer.parseFrom, hparse, hrest]
    | ok events'' =>
      simp [pushAll, h, halone, parseBuffer.parseFrom, hparse, hrest]

theorem push_overflow (h : d.maxBufferBytes < d.buffer.length + piece.length) :
    (push d piece).2 = .error (.demuxBufferTooLarge (d.buffer.length + piece.length)
      d.maxBufferBytes) := by
  rw [push, if_pos h]

theorem push_fits (h : d.buffer.length + piece.length ≤ d.maxBufferBytes) :
    push d piece = parseBuffer { d with buffer := d.buffer ++ piece } := by
  rw [push, if_neg (Nat.not_lt.mpr h)]

/-- Once the header is read, the pieces give all the tags exactly if none of them makes
the buffer overflow. -/
theorem yields_tags {held : Bytes} {limit : Nat} (pieces : List Bytes) (tags : List FlvTag)
    (hfits : ∀ tag ∈ tags, tag.Fits) (hunfinished : Unfinished tags held)
    (hbytes : held ++ pieces.flatten = muxTags tags) :
    Yields ⟨held, true, limit⟩ pieces (tags.map .tag) ↔
      TagsReadable limit (tags.map FlvTag.size) held.length pieces := by
  induction pieces generalizing tags held with
  | nil =>
    rw [List.flatten_nil, List.append_nil] at hbytes
    cases tags with
    | nil =>
      subst hunfinished
      exact ⟨fun _ => trivial, fun _ => ⟨rfl, rfl⟩⟩
    | cons tag tags =>
      have hlen := congrArg List.length hbytes
      rw [muxTags_length hfits, List.map_cons, List.sum_cons] at hlen
      simp only [Unfinished] at hunfinished
      omega
  | cons piece pieces ih =>
    rw [TagsReadable]
    by_cases hover : limit < held.length + piece.length
    · exact iff_of_false (not_yields_of_error (push_overflow hover) _ _) fun h => by omega
    have hbelow : held.length + piece.length ≤ limit := Nat.le_of_not_lt hover
    have hpush : push ⟨held, true, limit⟩ piece =
        parseBuffer.parseFrom ⟨held ++ piece, true, limit⟩ [] (held ++ piece) :=
      push_fits hbelow
    rw [List.flatten_cons, ← List.append_assoc] at hbytes
    rcases parseTags_front tags hfits hbytes (Nat.lt_succ_self _) with
      ⟨tag, hmem, hlarge, e, he⟩ | ⟨done, later, left, rfl, hraw, hleft, hnext, hparse⟩
    · have herror : (push ⟨held, true, limit⟩ piece).2 = .error e := by
        rw [hpush, parseBuffer.parseFrom, he]
      refine iff_of_false (not_yields_of_error herror _ _) fun ⟨_, hlater⟩ => ?_
      -- the tag is longer than the buffer, so it can not all have been there
      have htotal : held.length + (piece :: pieces).flatten.length =
          (tags.map FlvTag.size).sum := by
        rw [← muxTags_length hfits, ← hbytes]
        simp
      change limit < tag.payload.length at hlarge
      have hreadable : TagsReadable limit (tags.map FlvTag.size) held.length (piece :: pieces) :=
        ⟨hbelow, hlater⟩
      have hbound := hreadable.le_max (behind_of_unfinished hunfinished) htotal tag.size
        (List.mem_map_of_mem hmem)
      simp only [FlvTag.size] at hbound
      omega
    · have hok : push ⟨held, true, limit⟩ piece =
          (⟨left, true, limit⟩, .ok (done.map .tag)) := by
        rw [hpush, parseBuffer.parseFrom, hparse]
        rfl
      obtain ⟨hdone, hlater⟩ := List.forall_mem_append.mp hfits
      have hadvance := advance_muxTags hdone hnext
      rw [← hraw, List.length_append] at hadvance
      rw [List.map_append, yields_cons hok, ih later hlater hnext hleft, hadvance]
      exact (and_iff_right hbelow).symm

theorem encodeExtended_length (header : FlvHeader) (extra : Bytes) :
    (header.encodeExtended extra).length = FLV_FULL_HEADER_BYTES + extra.length := by
  simp only [FlvHeader.encodeExtended, List.length_append, toBigEndian_length, List.length_cons,
    List.length_nil, FLV_FULL_HEADER_BYTES, FLV_FILE_HEADER_BYTES, FLV_PREVIOUS_TAG_SIZE_BYTES]
  omega

/-- The first nine bytes tell how long the header is. -/
theorem parsePrefix_extended (header : FlvHeader) (extra : Bytes)
    (hextra : FLV_FILE_HEADER_BYTES + extra.length < 2 ^ 32) (body : Bytes) :
    FlvHeader.parsePrefix ([70, 76, 86, 1, header.flags] ++
        toBigEndian 4 (FLV_FILE_HEADER_BYTES + extra.length) ++ body) =
      if FLV_FILE_HEADER_BYTES + body.length < FLV_FULL_HEADER_BYTES + extra.length then
        .error (.truncated "flv full header" (FLV_FULL_HEADER_BYTES + extra.length)
          (FLV_FILE_HEADER_BYTES + body.length))
      else .ok (header, FLV_FULL_HEADER_BYTES + extra.length) := by
  have hoffset : fromBigEndian (toBigEndian 4 (FLV_FILE_HEADER_BYTES + extra.length)) =
      FLV_FILE_HEADER_BYTES + extra.length := from_toBigEndian_of_lt hextra
  have hflags : (⟨header.flags &&& 4 ≠ 0, header.flags &&& 1 ≠ 0⟩ : FlvHeader) = header := by
    obtain ⟨audio, video⟩ := header
    cases audio <;> cases video <;> decide
  have hneeded : FLV_FILE_HEADER_BYTES + extra.length + FLV_PREVIOUS_TAG_SIZE_BYTES =
      FLV_FULL_HEADER_BYTES + extra.length := by
    simp only [FLV_FULL_HEADER_BYTES]
    omega
  have hlen : ([70, 76, 86, 1, header.flags] ++
      toBigEndian 4 (FLV_FILE_HEADER_BYTES + extra.length) ++ body).length =
        FLV_FILE_HEADER_BYTES + body.length := by
    simp only [List.length_append, toBigEndian_length, List.length_cons, List.length_nil,
      FLV_FILE_HEADER_BYTES]
  have hleast : ¬ FLV_FILE_HEADER_BYTES + extra.length < FLV_FILE_HEADER_BYTES := by omega
  simp only [toBigEndian, List.cons_append, List.nil_append] at hoffset hlen ⊢
  simp only [FlvHeader.parsePrefix, hoffset, hlen, hneeded, hflags, if_neg hleast]
  simp

/-- With the header not read yet, the pieces give all of the stream exactly if they are
readable. -/
theorem yields_stream {held : Bytes} {limit : Nat} (header : FlvHeader) (extra : Bytes)
    (pieces : List Bytes) (tags : List FlvTag) (hextra : FLV_FILE_HEADER_BYTES + extra.length < 2 ^ 32)
    (hfits : ∀ tag ∈ tags, tag.Fits) (hheld : held.length < FLV_FULL_HEADER_BYTES)
    (hbytes : held ++ pieces.flatten = header.encodeExtended extra ++ muxTags tags) :
    Yields ⟨held, false, limit⟩ pieces (.header header :: tags.map .tag) ↔
      Readable limit (FLV_FULL_HEADER_BYTES + extra.length) (tags.map FlvTag.size)
        held.length pieces := by
  induction pieces generalizing held with
  | nil =>
    rw [List.flatten_nil, List.append_nil] at hbytes
    have hlen := congrArg List.length hbytes
    rw [List.length_append, encodeExtended_length] at hlen
    omega
  | cons piece pieces ih =>
    rw [Readable]
    by_cases hover : limit < held.length + piece.length
    · exact iff_of_false (not_yields_of_error (push_overflow hover) _ _) fun h => by omega
    have hbelow : held.length + piece.length ≤ limit := Nat.le_of_not_lt hover
    have hpush : push ⟨held, false, limit⟩ piece =
        parseBuffer ⟨held ++ piece, false, limit⟩ := push_fits hbelow
    rw [List.flatten_cons, ← List.append_assoc] at hbytes
    have hlen : (held ++ piece).length = held.length + piece.length := List.length_append
    by_cases hfew : held.length + piece.length < FLV_FULL_HEADER_BYTES
    · have hok : push ⟨held, false, limit⟩ piece = (⟨held ++ piece, false, limit⟩, .ok []) := by
        rw [hpush, parseBuffer, if_neg (by simp), if_pos (by rw [hlen]; exact hfew)]
      have hcons := yields_cons hok pieces (.header header :: tags.map .tag)
      rw [List.nil_append] at hcons
      rw [hcons, if_pos hfew, ih (by rw [hlen]; exact hfew) hbytes, hlen]
      exact (and_iff_right hbelow).symm
    rw [if_neg hfew]
    have hsplit : held ++ piece ++ pieces.flatten = ([70, 76, 86, 1, header.flags] ++
        toBigEndian 4 (FLV_FILE_HEADER_BYTES + extra.length)) ++
          (extra ++ toBigEndian 4 0 ++ muxTags tags) := by
      rw [hbytes, FlvHeader.encodeExtended]
      simp only [List.append_assoc]
    obtain ⟨body, hraw, hbody⟩ := exists_of_longer hsplit (by
      rw [hlen]
      simp only [FLV_FULL_HEADER_BYTES, FLV_FILE_HEADER_BYTES] at hfew
      simp only [List.length_append, toBigEndian_length, List.length_cons, List.length_nil]
      omega)
    have hparse := parsePrefix_extended header extra hextra body
    rw [← hraw] at hparse
    have hcount : held.length + piece.length = FLV_FILE_HEADER_BYTES + body.length := by
      have h := congrArg List.length hraw
      simp only [List.length_append, toBigEndian_length, List.length_cons, List.length_nil,
        FLV_FILE_HEADER_BYTES] at h ⊢
      omega
    by_cases hcut : held.length + piece.length < FLV_FULL_HEADER_BYTES + extra.length
    · rw [if_pos (by omega)] at hparse
      have herror : (push ⟨held, false, limit⟩ piece).2 = .error (.truncated "flv full header"
          (FLV_FULL_HEADER_BYTES + extra.length) (FLV_FILE_HEADER_BYTES + body.length)) := by
        rw [hpush, parseBuffer, if_neg (by simp), if_neg (by rw [hlen]; exact hfew)]
        simp only [hparse]
      exact iff_of_false (not_yields_of_error herror _ _) fun h => by omega
    rw [if_neg (by omega)] at hparse
    obtain ⟨raw, rfl, htags⟩ := exists_of_longer hbody (by
      simp only [List.length_append, toBigEndian_length, FLV_FULL_HEADER_BYTES,
        FLV_FILE_HEADER_BYTES, FLV_PREVIOUS_TAG_SIZE_BYTES] at hcut hcount ⊢
      omega)
    have hdrop : (held ++ piece).drop (FLV_FULL_HEADER_BYTES + extra.length) = raw := by
      rw [hraw, ← List.append_assoc]
      refine List.drop_left' ?_
      rw [← encodeExtended_length header extra, FlvHeader.encodeExtended]
      simp only [List.append_assoc]
    have hrest : held.length + piece.length - (FLV_FULL_HEADER_BYTES + extra.length) =
        raw.length := by
      rw [← hdrop, List.length_drop, hlen]
    have hpush' : push ⟨held, false, limit⟩ piece =
        parseBuffer.parseFrom ⟨held ++ piece, true, limit⟩ [.header header] raw := by
      rw [hpush, parseBuffer, if_neg (by simp), if_neg (by rw [hlen]; exact hfew)]
      simp only [hparse, hdrop]
    have hafter : Yields ⟨held, false, limit⟩ (piece :: pieces)
        (.header header :: tags.map .tag) ↔
          Yields ⟨[], true, limit⟩ (raw :: pieces) (tags.map .tag) :=
      yields_after hpush' (by omega)
    rw [hafter, yields_tags (raw :: pieces) tags hfits ?_ htags,
      TagsReadable, List.length_nil, Nat.zero_add, hrest]
    · constructor
      · exact fun h => ⟨hbelow, by omega, h.2⟩
      · exact fun h => ⟨by omega, h.2.2⟩
    · cases tags with
      | nil => rfl
      | cons tag tags =>
        simp only [Unfinished, FlvTag.size, FLV_TAG_HEADER_BYTES, List.length_nil]
        omega

/-- The stream comes back, the header and then the tags, exactly if no piece makes the
buffer overflow and none of them ends inside a header that is longer than usual. -/
theorem round_trip_iff (maxBufferBytes : Nat) (header : FlvHeader) (extra : Bytes)
    (tags : List FlvTag) (pieces : List Bytes)
    (hextra : FLV_FILE_HEADER_BYTES + extra.length < 2 ^ 32) (hfits : ∀ tag ∈ tags, tag.Fits)
    (hbytes : pieces.flatten = header.encodeExtended extra ++ muxTags tags) :
    Yields (new maxBufferBytes) pieces (.header header :: tags.map .tag) ↔
      Readable (max maxBufferBytes FLV_FULL_HEADER_BYTES) (FLV_FULL_HEADER_BYTES + extra.length)
        (tags.map FlvTag.size) 0 pieces :=
  yields_stream header extra pieces tags hextra hfits (by decide) hbytes

theorem round_trip_iff_two_tags :
    let header : FlvHeader := ⟨true, false⟩
    let tags : List FlvTag := [⟨.script, 0, [2]⟩, ⟨.audio, 0x01000002, [175, 1, 33]⟩]
    let wire := header.encode ++ muxTags tags
    Yields (new 64) [wire.take 20, wire.drop 20] (.header header :: tags.map .tag) ↔
      Readable 64 13 [16, 18] 0 [wire.take 20, wire.drop 20] :=
  round_trip_iff 64 ⟨true, false⟩ [] [⟨.script, 0, [2]⟩, ⟨.audio, 0x01000002, [175, 1, 33]⟩]
    [_, _] (by decide) (by decide) rfl

/-- The first 13 bytes of a header of 14 bytes are an error to the demuxer. -/
theorem long_header_cut : ¬ ∀ (header : FlvHeader) (extra : Bytes) (tags : List FlvTag)
    (pieces : List Bytes), FLV_FILE_HEADER_BYTES + extra.length < 2 ^ 32 →
    (∀ tag ∈ tags, tag.Fits) → pieces.flatten = header.encodeExtended extra ++ muxTags tags →
    Yields (new FLV_DEMUX_DEFAULT_MAX_BUFFER_BYTES) pieces (.header header :: tags.map .tag) := by
  intro hclaim
  have hyields := hclaim ⟨true, true⟩ [0] []
    [[70, 76, 86, 1, 5, 0, 0, 0, 10, 0, 0, 0, 0], [0]] (by decide) (List.forall_mem_nil _) rfl
  have herror : (pushAll (new FLV_DEMUX_DEFAULT_MAX_BUFFER_BYTES)
      [[70, 76, 86, 1, 5, 0, 0, 0, 10, 0, 0, 0, 0], [0]]).2 =
        .error (.truncated "flv full header" 14 13) := by decide
  rw [Yields, herror] at hyields
  cases hyields.1

end FlvDemuxer

end CheetahMedia.Codec
