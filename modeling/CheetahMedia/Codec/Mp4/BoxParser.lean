import CheetahMedia.Codec.Mp4.SampleTable
import CheetahMedia.Lib.Endian

namespace CheetahMedia.Codec.Mp4
open Lib

structure BoxHeader where
  fourcc : Bytes
  size : Nat
  headerSize : Nat

/-- The size of a box and that of its header. Size 1 stands for 64 bits behind the name, and size 0
for all that the parent has. -/
def boxSize (rest : Bytes) : Nat × Nat :=
  match fromBigEndian (rest.take 4) with
  | 0 => (rest.length, 8)
  | 1 => (fromBigEndian ((rest.drop 8).take 8), 16)
  | n => (n, 8)

/-- `rest` is what the parent has from `offset` on. -/
def readBoxHeader (offset maxBoxSize : Nat) (rest : Bytes) : Except Mp4Error BoxHeader :=
  let fourcc := (rest.drop 4).take 4
  let (size, headerSize) := boxSize rest
  if rest.length < 8 then throw (.invalidBox offset "header truncated")
  else if fromBigEndian (rest.take 4) = 1 ∧ rest.length < 16 then
    throw (.invalidBox offset "largesize truncated")
  else if size < headerSize then throw (.invalidBox offset "size smaller than header")
  else if maxBoxSize < size then throw (.oversizeBox fourcc size maxBoxSize)
  else if rest.length < size then throw (.boxTruncated fourcc size rest.length)
  else return { fourcc, size, headerSize }

structure ChildBox where
  fourcc : Bytes
  payload : Bytes

/-- The children from `offset` on. After one that cannot be read there is no other. -/
def childrenFrom (maxBoxSize : Nat) : Nat → Nat → Bytes → List (Except Mp4Error ChildBox)
  | 0, _, _ => []
  | passes + 1, offset, rest =>
    if rest = [] then []
    else match readBoxHeader offset maxBoxSize rest with
      | .error e => [.error e]
      | .ok header =>
        let payload := (rest.take header.size).drop header.headerSize
        .ok ⟨header.fourcc, payload⟩ ::
          childrenFrom maxBoxSize passes (offset + header.size) (rest.drop header.size)

/-- `BoxIter`, every step of which takes eight bytes at least. -/
def boxIter (maxBoxSize offset : Nat) (buf : Bytes) : List (Except Mp4Error ChildBox) :=
  childrenFrom maxBoxSize (buf.length + 1) offset (buf.drop offset)

/-- The children one after the other, up to the first that is not whole. -/
def forBoxes (visit : β → ChildBox → Except Mp4Error β) (children : List (Except Mp4Error ChildBox))
    (state : β) : Except Mp4Error β :=
  children.foldlM (fun state child => child >>= visit state) state

theorem readBoxHeader_ok (h : readBoxHeader offset maxBoxSize rest = .ok header) :
    header.size = (boxSize rest).1 ∧ header.headerSize = (boxSize rest).2 ∧
      header.headerSize ≤ header.size ∧ header.size ≤ maxBoxSize ∧ header.size ≤ rest.length ∧
      header.fourcc = (rest.drop 4).take 4 := by
  unfold readBoxHeader at h
  dsimp only at h
  split at h
  · cases h
  split at h
  · cases h
  split at h
  · cases h
  split at h
  · cases h
  split at h
  · cases h
  rename_i hsmall hlimit hinside
  cases h
  exact ⟨rfl, rfl, Nat.le_of_not_lt hsmall, Nat.le_of_not_lt hlimit, Nat.le_of_not_lt hinside, rfl⟩

theorem boxSize_cases (rest : Bytes) :
    fromBigEndian (rest.take 4) = 0 ∧ boxSize rest = (rest.length, 8) ∨
      fromBigEndian (rest.take 4) = 1 ∧
        boxSize rest = (fromBigEndian ((rest.drop 8).take 8), 16) ∨
      2 ≤ fromBigEndian (rest.take 4) ∧ boxSize rest = (fromBigEndian (rest.take 4), 8) := by
  unfold boxSize
  split
  · rename_i hzero
    exact Or.inl ⟨hzero, rfl⟩
  · rename_i hone
    exact Or.inr (Or.inl ⟨hone, rfl⟩)
  · rename_i hzero hone
    exact Or.inr (Or.inr ⟨Nat.lt_of_le_of_ne (Nat.pos_of_ne_zero hzero) (Ne.symm hone), rfl⟩)

theorem boxSize_header (rest : Bytes) : 8 ≤ (boxSize rest).2 := by
  rcases boxSize_cases rest with ⟨-, h⟩ | ⟨-, h⟩ | ⟨-, h⟩ <;>
    simp only [h, Nat.le_refl, Nat.reduceLeDiff]

theorem readBoxHeader_eq (hsize : boxSize rest = (size, 8)) (hheader : 8 ≤ size)
    (hone : fromBigEndian (rest.take 4) ≠ 1) (hmax : size ≤ maxBoxSize)
    (hlength : size ≤ rest.length) (offset : Nat) :
    readBoxHeader offset maxBoxSize rest = .ok ⟨(rest.drop 4).take 4, size, 8⟩ := by
  unfold readBoxHeader
  rw [hsize]
  simp only [hone, false_and, if_false, if_neg (show ¬rest.length < 8 by omega),
    if_neg (show ¬size < 8 by omega), if_neg (show ¬maxBoxSize < size by omega),
    if_neg (show ¬rest.length < size by omega)]
  rfl

theorem writeBox_word (name : String) (content rest : Bytes) :
    fromBigEndian ((writeBox name content ++ rest).take 4) = (8 + content.length) % 2 ^ 32 := by
  rw [writeBox, List.append_assoc, List.append_assoc, List.take_left' (by simp), from_toBigEndian]
  rfl

theorem writeFullBox_payload {name : String} (hname : (fourcc name).length = 4) (version : UInt8)
    (content : Bytes) :
    (writeFullBox name version 0 content).drop 8 = [version, 0, 0, 0] ++ content := by
  rw [writeFullBox, writeBox, List.drop_left' (by simp [hname])]
  rfl

section Written
variable {name : String} (hname : (fourcc name).length = 4)
include hname

theorem writeBox_length (content : Bytes) :
    (writeBox name content).length = 8 + content.length := by
  simp [writeBox, hname]
  omega

theorem writeBox_fourcc (content rest : Bytes) :
    ((writeBox name content ++ rest).drop 4).take 4 = fourcc name := by
  rw [writeBox, List.append_assoc, List.append_assoc, List.drop_left' (by simp),
    List.take_left' hname]

theorem writeBox_payload (content rest : Bytes) :
    ((writeBox name content ++ rest).take (8 + content.length)).drop 8 = content := by
  rw [List.take_left' (writeBox_length hname content), writeBox, List.drop_left' (by simp [hname])]

/-- The size of a box fits its field, or the field is zero and the box is the last one. -/
theorem writeBox_header (rest : Bytes) (hmax : 8 + content.length ≤ maxBoxSize)
    (hword : 8 + content.length < 2 ^ 32 ∨ 8 + content.length = 2 ^ 32 ∧ rest = [])
    (offset : Nat) : readBoxHeader offset maxBoxSize (writeBox name content ++ rest) =
      .ok ⟨fourcc name, 8 + content.length, 8⟩ := by
  have hsize := writeBox_word name content rest
  have hlength : (writeBox name content ++ rest).length = 8 + content.length + rest.length := by
    rw [List.length_append, writeBox_length hname]
  rw [← writeBox_fourcc hname content rest]
  refine readBoxHeader_eq ?_ (by omega) (by omega) hmax (by omega) offset
  rcases hword with hlt | ⟨heq, rfl⟩
  · rw [Nat.mod_eq_of_lt hlt] at hsize
    rcases boxSize_cases (writeBox name content ++ rest) with ⟨h, -⟩ | ⟨h, -⟩ | ⟨-, h⟩
    · omega
    · omega
    · rw [h, hsize]
  · rw [heq, Nat.mod_self] at hsize
    rcases boxSize_cases (writeBox name content ++ []) with ⟨-, h⟩ | ⟨h, -⟩ | ⟨h, -⟩
    · rw [h, hlength]
      rfl
    · omega
    · omega

/-- The children of a box are those of the bytes after it. -/
theorem childrenFrom_box (rest : Bytes) (hmax : 8 + content.length ≤ maxBoxSize)
    (hword : 8 + content.length < 2 ^ 32 ∨ 8 + content.length = 2 ^ 32 ∧ rest = [])
    (passes offset : Nat) :
    childrenFrom maxBoxSize (passes + 1) offset (writeBox name content ++ rest) =
      .ok ⟨fourcc name, content⟩ ::
        childrenFrom maxBoxSize passes (offset + (8 + content.length)) rest := by
  have hne : writeBox name content ++ rest ≠ [] := by
    intro h
    have hlength := congrArg List.length h
    rw [List.length_append, writeBox_length hname] at hlength
    simp at hlength
  rw [childrenFrom, if_neg hne, writeBox_header hname rest hmax hword]
  simp only [writeBox_payload hname, List.drop_left' (writeBox_length hname content)]

end Written

/-- A child lies in its parent, and has a header. -/
theorem childrenFrom_length (h : .ok child ∈ childrenFrom maxBoxSize passes offset rest) :
    child.payload.length + 8 ≤ rest.length := by
  induction passes generalizing offset rest with
  | zero => cases h
  | succ passes ih =>
    unfold childrenFrom at h
    split at h
    · cases h
    split at h
    · rename_i e _
      rcases List.mem_cons.mp h with h | h <;> cases h
    · rename_i header hheader
      obtain ⟨-, hheaderSize, hle, -, hinside, -⟩ := readBoxHeader_ok hheader
      have height := boxSize_header rest
      rw [← hheaderSize] at height
      rcases List.mem_cons.mp h with h | h
      · cases h
        rw [List.length_drop, List.length_take]
        omega
      · have hchild := ih h
        rw [List.length_drop] at hchild
        omega

end CheetahMedia.Codec.Mp4

namespace CheetahMedia.Codec.Mp4
open Lib

def codecIdFromSampleEntry (name : Bytes) : CodecId :=
  if name ∈ ["avc1", "avc2", "avc3", "avc4"].map fourcc then .h264
  else if name ∈ ["hvc1", "hev1", "dvh1", "dvhe"].map fourcc then .h265
  else if name ∈ ["vvc1", "vvi1"].map fourcc then .h266
  else if name = fourcc "vp08" then .vp8
  else if name = fourcc "vp09" then .vp9
  else if name = fourcc "av01" then .av1
  else if name ∈ ["mp4v", "jpeg", "mjpa", "mjpb"].map fourcc then .mjpeg
  else if name = fourcc "mp4a" then .aac
  else if name = fourcc "alaw" then .g711a
  else if name = fourcc "ulaw" then .g711u
  else if name ∈ ["Opus", "opus"].map fourcc then .opus
  else if name = fourcc ".mp3" then .mp3
  else .unknown

/-- The size of a descriptor: seven bits of each of at most `passes` bytes, and what follows. -/
def descriptorSize : Nat → Nat → Bytes → Option (Nat × Bytes)
  | 0, size, buf => some (size, buf)
  | _ + 1, _, [] => none
  | passes + 1, size, b :: buf =>
    let size := size * 128 + (b &&& 0x7F).toNat
    if b &&& 0x80 = 0 then some (size, buf) else descriptorSize passes size buf

/-- The descriptors are entered up to the first with a decoder configuration. -/
def decoderSpecificWithin : Nat → Bytes → Bytes
  | 0, _ => []
  | _ + 1, [] => []
  | _ + 1, [_] => []
  | passes + 1, tag :: buf =>
    match descriptorSize 4 0 buf with
    | none => []
    | some (size, buf) =>
      if buf.length < size then []
      else if tag = 0x03 then if size < 3 then [] else decoderSpecificWithin passes (buf.drop 3)
      else if tag = 0x04 then if size < 13 then [] else decoderSpecificWithin passes (buf.drop 13)
      else if tag = 0x05 then buf.take size
      else decoderSpecificWithin passes (buf.drop size)

/-- Every descriptor has a tag, so that there are no more of them than bytes. -/
def parseEsdsDecoderSpecific (payload : Bytes) : Bytes :=
  if payload.length < 4 then [] else decoderSpecificWithin payload.length (payload.drop 4)

def extradataFromSampleEntry (codec : CodecId) (configBox configPayload : Bytes) :
    CodecExtradata :=
  match codec with
  | .h264 => if configBox = fourcc "avcC" then .h264 [] [] (some configPayload) else .none
  | .h265 => if configBox = fourcc "hvcC" then .h265 [] [] [] (some configPayload) else .none
  | .h266 => if configBox = fourcc "vvcC" then .raw configPayload else .none
  | .vp8 => if configBox = fourcc "vpcC" then .vp8 (some configPayload) else .none
  | .vp9 => if configBox = fourcc "vpcC" then .vp9 (some configPayload) else .none
  | .av1 => if configBox = fourcc "av1C" then .av1 none (some configPayload) else .none
  | .opus => if configBox = fourcc "dOps" then .opus none (some configPayload) else .none
  | .aac =>
    if configBox = fourcc "esds" then .aac (parseEsdsDecoderSpecific configPayload) else .none
  | _ => .none

/-- What a sample description says of its track. -/
structure StsdInfo where
  codec : CodecId
  extradata : CodecExtradata := .none
  sampleRate : Option Nat := none
  channels : Option Nat := none
deriving DecidableEq

/-- Where the boxes in a sample entry start. -/
def innerOffset : CodecId → Nat
  | .h264 | .h265 | .h266 | .vp8 | .vp9 | .av1 | .mjpeg => 78
  | .aac | .g711a | .g711u | .opus | .mp3 => 28
  | _ => 0

/-- The first box with a configuration; a box that cannot be read ends the search. -/
def configOf (codec : CodecId) : List (Except Mp4Error ChildBox) → CodecExtradata
  | [] => .none
  | .error _ :: _ => .none
  | .ok box :: rest =>
    if box.fourcc ∈ ["avcC", "hvcC", "vvcC", "vpcC", "av1C", "esds", "dOps"].map fourcc then
      extradataFromSampleEntry codec box.fourcc box.payload
    else configOf codec rest

def sampleEntryInfo (maxBoxSize : Nat) (entry : ChildBox) : StsdInfo :=
  let codec := codecIdFromSampleEntry entry.fourcc
  let isAudio := codec ∈ [.aac, .g711a, .g711u, .opus, .mp3] ∧ 28 ≤ entry.payload.length
  let offset := innerOffset codec
  { codec
    extradata :=
      if 0 < offset ∧ offset < entry.payload.length then
        configOf codec (boxIter maxBoxSize offset entry.payload)
      else .none
    sampleRate :=
      if isAudio then some (fromBigEndian ((entry.payload.drop 24).take 4) / 2 ^ 16) else none
    channels :=
      if isAudio then some (fromBigEndian ((entry.payload.drop 16).take 2) % 2 ^ 8) else none }

/-- Only the first sample entry is read. -/
def parseStsd (maxBoxSize : Nat) (payload : Bytes) : Except Mp4Error (Option StsdInfo) :=
  if payload.length < 8 then return none
  else match boxIter maxBoxSize 8 payload with
    | [] => return none
    | .error e :: _ => throw e
    | .ok entry :: _ => return some (sampleEntryInfo maxBoxSize entry)

end CheetahMedia.Codec.Mp4
