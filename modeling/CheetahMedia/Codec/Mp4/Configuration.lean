import CheetahMedia.Codec.Mp4.BoxParser

namespace CheetahMedia.Codec.Mp4
open Lib Mp4File

def HasSampleEntry (track : TrackInfo) : Prop :=
  track.mediaKind = .video ∧ track.codec ∈ [.h264, .h265, .h266, .vp8, .vp9, .av1] ∨
    track.mediaKind = .audio ∧ track.codec ∈ [.aac, .mp2, .mp3, .opus, .g711a, .g711u]

/-- A decoder configuration of these bytes. -/
def configured (codec : CodecId) (config : Bytes) : CodecExtradata :=
  match codec with
  | .h264 => .h264 [] [] (some config)
  | .h265 => .h265 [] [] [] (some config)
  | .h266 => .raw config
  | .vp8 => .vp8 (some config)
  | .vp9 => .vp9 (some config)
  | .av1 => .av1 none (some config)
  | .aac => .aac config
  | .mp3 => .mp3 (some config)
  | .opus => .opus none (some config)
  | _ => .none

/-- The reader finds the codec and the configuration in the sample description. -/
def Survives (maxBoxSize : Nat) (track : TrackInfo) : Prop :=
  ∃ info, parseStsd maxBoxSize ((writeStsd (.new track)).drop 8) = .ok (some info) ∧
    info.codec = track.codec ∧ info.extradata = track.extradata

/-- The size of the sample entry. -/
def entrySize (codec : CodecId) (config : Bytes) : Nat :=
  match codec with
  | .aac => 73 + config.length
  | .opus => 44 + config.length
  | .g711a | .g711u => 36
  | _ => 94 + config.length

/-- What fits the size fields and the limit of the reader. The writer drops the configuration of
H266, and MP2 and MP3 have the sample entry of AAC. -/
def Preserved (maxBoxSize : Nat) (codec : CodecId) (config : Bytes) : Prop :=
  entrySize codec config ≤ maxBoxSize ∧ entrySize codec config ≤ 2 ^ 32 ∧
    match codec with
    | .h266 => config = []
    | .aac => config.length ≤ 104
    | .mp2 | .mp3 => False
    | _ => True

/-- Only the first sample entry is read. -/
theorem parseStsd_entry (hne : entries ≠ []) :
    parseStsd maxBoxSize ([0, 0, 0, 0, 0, 0, 0, 1] ++ entries) =
      (readBoxHeader 8 maxBoxSize entries).map fun header =>
        some (sampleEntryInfo maxBoxSize
          ⟨header.fourcc, (entries.take header.size).drop header.headerSize⟩) := by
  have hdrop : ([0, 0, 0, 0, 0, 0, 0, 1] ++ entries).drop 8 = entries := List.drop_left' rfl
  rw [parseStsd, if_neg (by simp), boxIter, hdrop, childrenFrom, if_neg hne]
  cases readBoxHeader 8 maxBoxSize entries with
  | error e => rfl
  | ok header => rfl

section Entry
variable {name : String} (hname : (fourcc name).length = 4)
include hname

theorem parseStsd_written (content : Bytes) :
    parseStsd maxBoxSize
        ((writeFullBox "stsd" 0 0 (toBigEndian 4 1 ++ writeBox name content)).drop 8) =
      (readBoxHeader 8 maxBoxSize (writeBox name content)).map fun header =>
        some (sampleEntryInfo maxBoxSize
          ⟨header.fourcc, ((writeBox name content).take header.size).drop header.headerSize⟩) := by
  have hpayload : (writeFullBox "stsd" 0 0 (toBigEndian 4 1 ++ writeBox name content)).drop 8 =
      [0, 0, 0, 0, 0, 0, 0, 1] ++ writeBox name content := writeFullBox_payload rfl 0 _
  have hlength := writeBox_length hname content
  rw [hpayload, parseStsd_entry]
  intro h
  rw [h, List.length_nil] at hlength
  omega

theorem entry_whole {content : Bytes} (hmax : 8 + content.length ≤ maxBoxSize)
    (hword : 8 + content.length ≤ 2 ^ 32) :
    parseStsd maxBoxSize
        ((writeFullBox "stsd" 0 0 (toBigEndian 4 1 ++ writeBox name content)).drop 8) =
      .ok (some (sampleEntryInfo maxBoxSize ⟨fourcc name, content⟩)) := by
  have hheader := writeBox_header hname [] hmax
    (hword.lt_or_eq.imp_right fun h => ⟨h, rfl⟩) 8
  rw [List.append_nil] at hheader
  rw [parseStsd_written hname, hheader]
  have hpayload := writeBox_payload hname content []
  rw [List.append_nil] at hpayload
  simp only [Except.map, hpayload]

/-- The reader has all of an entry, or it has lost a multiple of 2^32 bytes. -/
theorem entry_cut {content : Bytes} (hlead : content.take 8 = [0, 0, 0, 0, 0, 0, 0, 1])
    (h : parseStsd maxBoxSize
      ((writeFullBox "stsd" 0 0 (toBigEndian 4 1 ++ writeBox name content)).drop 8) =
        .ok (some info)) :
    ∃ payload, info = sampleEntryInfo maxBoxSize ⟨fourcc name, payload⟩ ∧
      8 + payload.length ≤ maxBoxSize ∧
      (payload.length + 2 ^ 32 ≤ content.length ∨
        payload = content ∧ (8 + content.length < 2 ^ 32 ∨ (8 + content.length) % 2 ^ 32 = 0)) := by
  rw [parseStsd_written hname] at h
  cases hheader : readBoxHeader 8 maxBoxSize (writeBox name content) with
  | error e =>
    rw [hheader] at h
    cases h
  | ok header =>
    rw [hheader] at h
    cases h
    obtain ⟨hsize, hheaderSize, hle, hmax, hinside, hfourcc⟩ := readBoxHeader_ok hheader
    have hword := writeBox_word name content []
    have hlength := writeBox_length hname content
    have hwhole := writeBox_payload hname content []
    have hfields := writeBox_fourcc hname content []
    rw [List.append_nil] at hword hwhole hfields
    have hpayload : (((writeBox name content).take header.size).drop header.headerSize).length =
        header.size - header.headerSize := by
      rw [List.length_drop, List.length_take]
      omega
    have height := boxSize_header (writeBox name content)
    refine ⟨_, by rw [hfourcc, hfields], by omega, ?_⟩
    rcases boxSize_cases (writeBox name content) with ⟨hzero, hbox⟩ | ⟨-, hbox⟩ | ⟨-, hbox⟩
    · right
      rw [hbox] at hsize hheaderSize
      refine ⟨?_, Or.inr (by omega)⟩
      rw [hsize, hheaderSize, hlength, hwhole]
    · -- in place of 64 bits of size there is the data reference index
      have hsecond : ((writeBox name content).drop 8).take 8 = [0, 0, 0, 0, 0, 0, 0, 1] := by
        rw [writeBox, List.drop_left' (by simp [hname]), hlead]
      rw [hbox] at hsize hheaderSize
      rw [hsecond] at hsize
      have hone : fromBigEndian [0, 0, 0, 0, 0, 0, 0, 1] = 1 := by decide
      rw [hsize, hheaderSize] at hle
      simp only [hone] at hle
      omega
    · rw [hbox, hword] at hsize
      rw [hbox] at hheaderSize
      rw [hpayload, hsize, hheaderSize]
      rcases Nat.lt_or_ge (8 + content.length) (2 ^ 32) with hlt | hge
      · right
        rw [Nat.mod_eq_of_lt hlt, hwhole]
        exact ⟨rfl, Or.inl hlt⟩
      · left
        have hmod := Nat.mod_add_div (8 + content.length) (2 ^ 32)
        have hdiv : 1 ≤ (8 + content.length) / 2 ^ 32 := (Nat.one_le_div_iff (by decide)).mpr hge
        simp only
        omega

theorem entry_small (content : Bytes) (hlead : content.take 8 = [0, 0, 0, 0, 0, 0, 0, 1])
    (hsmall : 8 + content.length < 2 ^ 32) :
    parseStsd maxBoxSize
        ((writeFullBox "stsd" 0 0 (toBigEndian 4 1 ++ writeBox name content)).drop 8) =
        .ok (some info) ↔
      8 + content.length ≤ maxBoxSize ∧
        sampleEntryInfo maxBoxSize ⟨fourcc name, content⟩ = info := by
  constructor
  · intro h
    obtain ⟨payload, rfl, hmax, hcut⟩ := entry_cut hname hlead h
    rcases hcut with hshort | ⟨rfl, -⟩
    · omega
    · exact ⟨hmax, rfl⟩
  · rintro ⟨hmax, rfl⟩
    exact entry_whole hname hmax (by omega)

end Entry

theorem configOf_cases (codec : CodecId) (children : List (Except Mp4Error ChildBox)) :
    configOf codec children = .none ∨ ∃ box, .ok box ∈ children ∧
      configOf codec children = extradataFromSampleEntry codec box.fourcc box.payload := by
  induction children with
  | nil => exact Or.inl rfl
  | cons child rest ih =>
    cases child with
    | error e => exact Or.inl rfl
    | ok box =>
      rw [configOf]
      split
      · exact Or.inr ⟨box, List.mem_cons_self, rfl⟩
      · rcases ih with hnone | ⟨found, hmem, heq⟩
        · exact Or.inl hnone
        · exact Or.inr ⟨found, List.mem_cons_of_mem _ hmem, heq⟩

/-- The codecs with a box for their configuration, whose payload it is. -/
def boxNames : CodecId → Option (String × String)
  | .h264 => some ("avc1", "avcC")
  | .h265 => some ("hvc1", "hvcC")
  | .h266 => some ("vvc1", "vvcC")
  | .vp8 => some ("vp08", "vpcC")
  | .vp9 => some ("vp09", "vpcC")
  | .av1 => some ("av01", "av1C")
  | .opus => some ("Opus", "dOps")
  | _ => none

theorem configured_exact {found : Bytes} (hnames : boxNames codec = some names)
    (h : extradataFromSampleEntry codec configBox found = configured codec config) :
    found = config := by
  cases codec
  case h264 | h265 | h266 | vp8 | vp9 | av1 | opus =>
    simp only [extradataFromSampleEntry, configured] at h
    split at h <;> cases h
    rfl
  all_goals cases hnames

theorem configured_ne_none (hnames : boxNames codec = some names) :
    .none ≠ configured codec config := by
  cases codec
  case h264 | h265 | h266 | vp8 | vp9 | av1 | opus =>
    intro h
    cases h
  all_goals cases hnames

theorem boxNames_read (hnames : boxNames codec = some (name, configName)) (config : Bytes) :
    codecIdFromSampleEntry (fourcc name) = codec ∧
      extradataFromSampleEntry codec (fourcc configName) config = configured codec config := by
  cases codec
  case h264 | h265 | h266 | vp8 | vp9 | av1 | opus =>
    cases hnames
    exact ⟨rfl, rfl⟩
  all_goals cases hnames

theorem boxIter_after (fields boxes : Bytes) :
    boxIter maxBoxSize fields.length (fields ++ boxes) =
      childrenFrom maxBoxSize ((fields ++ boxes).length + 1) fields.length boxes := by
  rw [boxIter, List.drop_left' rfl]

/-- An entry of this name, with these fields before the box with its configuration. -/
structure Entry (name configName : String) (fields : Bytes) : Prop where
  name_length : (fourcc name).length = 4
  configName_length : (fourcc configName).length = 4
  isConfig :
    fourcc configName ∈ ["avcC", "hvcC", "vvcC", "vpcC", "av1C", "esds", "dOps"].map fourcc
  offset : innerOffset (codecIdFromSampleEntry (fourcc name)) = fields.length
  fields_length : fields.length = 28 ∨ fields.length = 78
  lead : fields.take 8 = [0, 0, 0, 0, 0, 0, 0, 1]

namespace Entry
variable {name configName : String} {fields : Bytes} (h : Entry name configName fields)
include h

theorem config_whole (codec : CodecId) {config : Bytes} (hmax : 8 + config.length ≤ maxBoxSize)
    (hword : 8 + config.length < 2 ^ 32) :
    configOf codec (boxIter maxBoxSize fields.length (fields ++ writeBox configName config)) =
      extradataFromSampleEntry codec (fourcc configName) config := by
  have hbox := childrenFrom_box h.configName_length [] hmax (Or.inl hword)
    (fields ++ writeBox configName config).length fields.length
  rw [List.append_nil] at hbox
  rw [boxIter_after, hbox, configOf, if_pos h.isConfig]

/-- Of the size of the box, only what its field has is read. -/
theorem config_cut (codec : CodecId) {config : Bytes} (hlong : 2 ^ 32 ≤ 8 + config.length)
    (hword : 2 ≤ (8 + config.length) % 2 ^ 32) :
    configOf codec (boxIter maxBoxSize fields.length (fields ++ writeBox configName config)) =
        .none ∨
      ∃ payload : Bytes, payload.length < config.length ∧
        configOf codec (boxIter maxBoxSize fields.length (fields ++ writeBox configName config)) =
          extradataFromSampleEntry codec (fourcc configName) payload := by
  have hsize := writeBox_word configName config []
  have hname := writeBox_fourcc h.configName_length config []
  have hlength := writeBox_length h.configName_length config
  rw [List.append_nil] at hsize hname
  have hne : writeBox configName config ≠ [] := by
    intro hnil
    rw [hnil, List.length_nil] at hlength
    omega
  rw [boxIter_after, childrenFrom, if_neg hne]
  cases hheader : readBoxHeader fields.length maxBoxSize (writeBox configName config) with
  | error e => exact Or.inl rfl
  | ok header =>
    obtain ⟨hread, hheaderSize, hle, -, hinside, hfourcc⟩ := readBoxHeader_ok hheader
    rw [hname] at hfourcc
    right
    refine ⟨((writeBox configName config).take header.size).drop header.headerSize, ?_, ?_⟩
    · rcases boxSize_cases (writeBox configName config) with ⟨h, -⟩ | ⟨h, -⟩ | ⟨-, hbox⟩
      · omega
      · omega
      · rw [hbox, hsize] at hread
        rw [hbox] at hheaderSize
        rw [List.length_drop, List.length_take]
        omega
    · simp only [configOf, hfourcc, if_pos h.isConfig]

theorem read_whole (hnames : boxNames codec = some (name, configName)) {config : Bytes}
    (hmax : 16 + fields.length + config.length ≤ maxBoxSize)
    (hword : 16 + fields.length + config.length ≤ 2 ^ 32) :
    ∃ info, parseStsd maxBoxSize ((writeFullBox "stsd" 0 0 (toBigEndian 4 1 ++
        writeBox name (fields ++ writeBox configName config))).drop 8) = .ok (some info) ∧
      info.codec = codec ∧ info.extradata = configured codec config := by
  have hlength : (fields ++ writeBox configName config).length =
      fields.length + (8 + config.length) := by
    rw [List.length_append, writeBox_length h.configName_length]
  obtain ⟨hcodec, hextradata⟩ := boxNames_read hnames config
  refine ⟨_, entry_whole h.name_length (by omega) (by omega), hcodec, ?_⟩
  have hfields := h.fields_length
  simp only [sampleEntryInfo, h.offset]
  rw [if_pos ⟨by omega, by omega⟩, h.config_whole _ (by omega) (by omega), hcodec, hextradata]

/-- What is read in place of a configuration that does not fit is shorter. -/
theorem read_only (hnames : boxNames codec = some (name, configName)) {config : Bytes}
    (hread : parseStsd maxBoxSize ((writeFullBox "stsd" 0 0 (toBigEndian 4 1 ++
        writeBox name (fields ++ writeBox configName config))).drop 8) = .ok (some info))
    (hextradata : info.extradata = configured codec wanted) :
    wanted.length < config.length ∨ wanted = config ∧
      16 + fields.length + config.length ≤ maxBoxSize ∧
      16 + fields.length + config.length ≤ 2 ^ 32 := by
  have hnone : .none ≠ configured codec wanted := configured_ne_none hnames
  obtain ⟨hcodec, -⟩ := boxNames_read hnames config
  have hfields := h.fields_length
  have hlength : (fields ++ writeBox configName config).length =
      fields.length + (8 + config.length) := by
    rw [List.length_append, writeBox_length h.configName_length]
  have hlead : (fields ++ writeBox configName config).take 8 = [0, 0, 0, 0, 0, 0, 0, 1] := by
    rw [List.take_append_of_le_length (by omega), h.lead]
  obtain ⟨payload, rfl, hmax, hcut⟩ := entry_cut h.name_length hlead hread
  have hoffset := h.offset
  rw [hcodec] at hoffset
  simp only [sampleEntryInfo, hcodec, hoffset] at hextradata
  split at hextradata
  swap
  · exact absurd hextradata hnone
  rcases hcut with hshort | ⟨rfl, hword⟩
  · left
    rcases configOf_cases codec (boxIter maxBoxSize fields.length payload) with h | ⟨box, hmem, heq⟩
    · exact absurd (h.symm.trans hextradata) hnone
    · have hbox := childrenFrom_length hmem
      rw [List.length_drop, configured_exact hnames (heq.symm.trans hextradata)] at hbox
      omega
  · by_cases hfit : 16 + fields.length + config.length ≤ 2 ^ 32
    · right
      rw [h.config_whole _ (by omega) (by omega)] at hextradata
      exact ⟨(configured_exact hnames hextradata).symm, by omega, hfit⟩
    · left
      rcases h.config_cut codec (show 2 ^ 32 ≤ 8 + config.length by omega)
        (by omega) with hnil | ⟨p, hlt, heq⟩
      · exact absurd (hnil.symm.trans hextradata) hnone
      · rw [← configured_exact hnames (heq.symm.trans hextradata)]
        exact hlt

end Entry

theorem descriptorSize_byte (hsize : size < 128) (rest : Bytes) :
    descriptorSize 4 0 (UInt8.ofNat size :: rest) = some (size, rest) := by
  have hbits : ∀ size < 128,
      UInt8.ofNat size &&& 0x80 = 0 ∧ (UInt8.ofNat size &&& 0x7F).toNat = size := by decide
  obtain ⟨hlast, hvalue⟩ := hbits size hsize
  rw [descriptorSize, if_pos hlast, hvalue, Nat.zero_mul, Nat.zero_add]

/-- The high bit of a size says that it has another byte. -/
theorem descriptorSize_misread (hlow : 128 ≤ size) (hhigh : size < 256) (rest : Bytes) :
    descriptorSize 4 0 (UInt8.ofNat size :: 0 :: rest) = some ((size - 128) * 128, rest) := by
  have hbits : ∀ size < 256, 128 ≤ size → UInt8.ofNat size &&& 0x80 ≠ 0 ∧
      (UInt8.ofNat size &&& 0x7F).toNat = size - 128 := by decide +kernel
  obtain ⟨hmore, hvalue⟩ := hbits size hhigh hlow
  have hzero : ((0 : UInt8) &&& 0x7F).toNat = 0 := by decide
  rw [descriptorSize, if_neg hmore, hvalue, Nat.zero_mul, Nat.zero_add, descriptorSize,
    if_pos (by decide), hzero, Nat.add_zero]

theorem decoderSpecificWithin_descriptor (hsize : descriptorSize 4 0 (b :: buf) = some (size, rest))
    (tag : UInt8) (passes : Nat) : decoderSpecificWithin (passes + 1) (tag :: b :: buf) =
      if rest.length < size then []
      else if tag = 0x03 then if size < 3 then [] else decoderSpecificWithin passes (rest.drop 3)
      else if tag = 0x04 then if size < 13 then [] else decoderSpecificWithin passes (rest.drop 13)
      else if tag = 0x05 then rest.take size
      else decoderSpecificWithin passes (rest.drop size) := by
  rw [decoderSpecificWithin, hsize]
  intro h
  cases h

theorem descriptorSize_length (h : descriptorSize passes size buf = some (size', rest)) :
    rest.length ≤ buf.length := by
  induction passes generalizing size buf with
  | zero =>
    cases h
    exact Nat.le_refl _
  | succ passes ih =>
    cases buf with
    | nil => cases h
    | cons b buf =>
      simp only [descriptorSize] at h
      split at h
      · cases h
        exact Nat.le_succ _
      · exact (ih h).trans (Nat.le_succ _)

theorem decoderSpecificWithin_length (passes : Nat) (buf : Bytes) :
    (decoderSpecificWithin passes buf).length ≤ buf.length := by
  induction passes generalizing buf with
  | zero => exact Nat.zero_le _
  | succ passes ih =>
    rcases buf with _ | ⟨tag, _ | ⟨b, buf⟩⟩
    · exact Nat.zero_le _
    · exact Nat.zero_le _
    · cases hsize : descriptorSize 4 0 (b :: buf) with
      | none =>
        rw [decoderSpecificWithin, hsize]
        · exact Nat.zero_le _
        · intro h
          cases h
      | some found =>
        obtain ⟨size, rest⟩ := found
        have hrest := descriptorSize_length hsize
        have hskip (n : Nat) :
            (decoderSpecificWithin passes (rest.drop n)).length ≤ (tag :: b :: buf).length := by
          refine (ih _).trans ?_
          rw [List.length_drop, List.length_cons]
          omega
        rw [decoderSpecificWithin_descriptor hsize]
        split
        · exact Nat.zero_le _
        split
        · split
          · exact Nat.zero_le _
          · exact hskip 3
        split
        · split
          · exact Nat.zero_le _
          · exact hskip 13
        split
        · rw [List.length_take, List.length_cons]
          omega
        · exact hskip size

/-- The descriptors that are written of a configuration. -/
def descriptors (dsi : Bytes) : Bytes :=
  0x03 :: UInt8.ofNat (23 + dsi.length) :: 0 :: 1 :: 0 :: 0x04 :: UInt8.ofNat (15 + dsi.length) ::
    0x40 :: 0x15 :: (zeros 11 ++ (0x05 :: UInt8.ofNat dsi.length :: (dsi ++ [0x06, 0x01, 0x02])))

theorem descriptors_length (dsi : Bytes) : (descriptors dsi).length = 25 + dsi.length := by
  simp [descriptors, zeros]
  omega

theorem writeEsds_aac (dsi : Bytes) :
    writeEsds 0x40 0x15 (some dsi) = writeBox "esds" ([0, 0, 0, 0] ++ descriptors dsi) := by
  have hes : 3 + (2 + 13 + (0x05 :: UInt8.ofNat dsi.length :: dsi).length) + 3 =
      23 + dsi.length := by
    rw [List.length_cons, List.length_cons]
    omega
  have hconfig : 13 + (0x05 :: UInt8.ofNat dsi.length :: dsi).length = 15 + dsi.length := by
    rw [List.length_cons, List.length_cons]
    omega
  simp only [writeEsds, hes, hconfig, writeFullBox, descriptors, List.append_assoc]
  rfl

theorem parseEsds_written (h : dsi.length ≤ 104) :
    parseEsdsDecoderSpecific ([0, 0, 0, 0] ++ descriptors dsi) = dsi := by
  have hpasses : ([0, 0, 0, 0] ++ descriptors dsi).length = dsi.length + 26 + 3 := by
    simp only [List.length_append, List.length_cons, List.length_nil, descriptors_length]
    omega
  have hdrop : ([0, 0, 0, 0] ++ descriptors dsi).drop 4 = descriptors dsi := rfl
  rw [parseEsdsDecoderSpecific, hpasses, if_neg (by omega), hdrop, descriptors,
    decoderSpecificWithin_descriptor (descriptorSize_byte (by omega) _),
    if_neg (by simp [zeros]; omega), if_pos rfl, if_neg (by omega), List.drop_succ_cons,
    List.drop_succ_cons, List.drop_succ_cons, List.drop_zero,
    decoderSpecificWithin_descriptor (descriptorSize_byte (by omega) _),
    if_neg (by simp [zeros]; omega), if_neg (by decide), if_pos rfl, if_neg (by omega),
    List.drop_succ_cons, List.drop_succ_cons, List.drop_left' (by simp [zeros]),
    decoderSpecificWithin_descriptor (descriptorSize_byte (by omega) _),
    if_neg (by simp), if_neg (by decide), if_neg (by decide), if_pos rfl, List.take_left' rfl]

/-- From 128 on, the size of the outermost descriptor does not fit its byte. -/
theorem parseEsds_misread (h : 105 ≤ dsi.length) (hcut : dsi.length ≤ 127) :
    (parseEsdsDecoderSpecific ([0, 0, 0, 0] ++ descriptors dsi)).length < dsi.length := by
  have hpasses : ([0, 0, 0, 0] ++ descriptors dsi).length = dsi.length + 26 + 3 := by
    simp only [List.length_append, List.length_cons, List.length_nil, descriptors_length]
    omega
  have hdrop : ([0, 0, 0, 0] ++ descriptors dsi).drop 4 = descriptors dsi := rfl
  rw [parseEsdsDecoderSpecific, hpasses, if_neg (by omega), hdrop, descriptors,
    decoderSpecificWithin_descriptor (descriptorSize_misread (by omega) (by omega) _)]
  split
  · rw [List.length_nil]
    omega
  rename_i hfits
  rw [if_pos rfl]
  split
  · rw [List.length_nil]
    omega
  rename_i hsmall
  have h106 : dsi.length = 106 := by
    simp [zeros] at hfits
    omega
  -- the next tag is the size of the descriptor within, and the object type is the next size
  have hskip (rest : Bytes) : descriptorSize 4 0 (0x40 :: rest) = some (64, rest) :=
    descriptorSize_byte (by decide) rest
  rw [List.drop_succ_cons, List.drop_succ_cons, List.drop_succ_cons, List.drop_zero,
    decoderSpecificWithin_descriptor (hskip _), h106]
  split
  · exact Nat.zero_lt_succ _
  rw [if_neg (by decide), if_neg (by decide), if_neg (by decide)]
  refine Nat.lt_of_le_of_lt (decoderSpecificWithin_length _ _) ?_
  simp [zeros, h106]

section Fields
variable (tb : TrackBuilder)

def videoFields : Bytes :=
  zeros 6 ++ toBigEndian 2 1 ++ zeros 16 ++ toBigEndian 2 tb.width ++ toBigEndian 2 tb.height ++
    toBigEndian 4 0x00480000 ++ toBigEndian 4 0x00480000 ++ zeros 4 ++ toBigEndian 2 1 ++
    zeros 32 ++ toBigEndian 2 0x0018 ++ [0xff, 0xff]

def audioFields : Bytes :=
  zeros 6 ++ toBigEndian 2 1 ++ zeros 8 ++ toBigEndian 2 tb.channels ++ toBigEndian 2 16 ++
    zeros 4 ++ toBigEndian 4 (min tb.sampleRate 65535 * 2 ^ 16)

theorem videoFields_length : (videoFields tb).length = 78 := by
  simp [videoFields, zeros]

theorem audioFields_length : (audioFields tb).length = 28 := by
  simp [audioFields, zeros]

theorem videoFields_lead (boxes : Bytes) :
    (videoFields tb ++ boxes).take 8 = [0, 0, 0, 0, 0, 0, 0, 1] := by
  simp only [videoFields, List.append_assoc]
  rfl

theorem audioFields_lead (boxes : Bytes) :
    (audioFields tb ++ boxes).take 8 = [0, 0, 0, 0, 0, 0, 0, 1] := by
  simp only [audioFields, List.append_assoc]
  rfl

end Fields

section Boxed
variable {track : TrackInfo} {name configName : String}

theorem writeStsd_boxed (h : HasSampleEntry track)
    (hnames : boxNames track.codec = some (name, configName)) :
    ∃ fields, Entry name configName fields ∧
      (∀ config, entrySize track.codec config = 16 + fields.length + config.length) ∧
      writeStsd (.new track) = writeFullBox "stsd" 0 0 (toBigEndian 4 1 ++
        writeBox name (fields ++ writeBox configName (extractExtradata track))) := by
  have hcodec : (TrackBuilder.new track).codec = track.codec := rfl
  rcases h with ⟨hkind, h⟩ | ⟨hkind, h⟩
  · have hkind : (TrackBuilder.new track).mediaKind = .video := hkind
    have hlength := videoFields_length (.new track)
    have hlead := videoFields_lead (.new track) []
    rw [List.append_nil] at hlead
    refine ⟨videoFields (.new track), ?_, ?_, ?_⟩
    all_goals
      simp only [List.mem_cons, List.not_mem_nil, or_false] at h
      rcases h with h | h | h | h | h | h <;> rw [h] at hnames hcodec <;> cases hnames
    iterate 6 exact ⟨rfl, rfl, by decide, hlength.symm, Or.inr hlength, hlead⟩
    iterate 6
      intro config
      rw [hlength, h]
      rfl
    iterate 6
      rw [writeStsd, hkind]
      simp only [writeVideoSampleEntry, hcodec]
      rfl
  · have hkind : (TrackBuilder.new track).mediaKind = .audio := hkind
    have hlength := audioFields_length (.new track)
    have hlead := audioFields_lead (.new track) []
    rw [List.append_nil] at hlead
    have hopus : track.codec = .opus := by
      simp only [List.mem_cons, List.not_mem_nil, or_false] at h
      rcases h with h | h | h | h | h | h <;> rw [h] at hnames
      case inr.inr.inr.inl => exact h
      all_goals cases hnames
    rw [hopus] at hnames hcodec
    cases hnames
    refine ⟨audioFields (.new track), ⟨rfl, rfl, by decide, hlength.symm, Or.inl hlength, hlead⟩,
      ?_, ?_⟩
    · intro config
      rw [hlength, hopus]
      rfl
    · rw [writeStsd, hkind]
      simp only [writeAudioSampleEntry, hcodec]
      rfl

theorem boxed_survives_iff (h : HasSampleEntry track)
    (hconfig : track.extradata = configured track.codec config)
    (hnames : boxNames track.codec = some (name, configName))
    (hwritten : (extractExtradata track).length ≤ config.length) :
    Survives maxBoxSize track ↔ extractExtradata track = config ∧
      entrySize track.codec config ≤ maxBoxSize ∧ entrySize track.codec config ≤ 2 ^ 32 := by
  obtain ⟨fields, hentry, hsize, hstsd⟩ := writeStsd_boxed h hnames
  unfold Survives
  rw [hstsd, hsize]
  constructor
  · rintro ⟨info, hread, -, hinfo⟩
    rw [hconfig] at hinfo
    rcases hentry.read_only hnames hread hinfo with hlt | ⟨heq, hfit⟩
    · omega
    · rw [heq]
      exact ⟨rfl, hfit⟩
  · rintro ⟨heq, hmax, hword⟩
    rw [heq]
    obtain ⟨info, hread, hcodec, hinfo⟩ := hentry.read_whole hnames hmax hword
    exact ⟨info, hread, hcodec, by rw [hinfo, hconfig]⟩

end Boxed

section Audio
variable {track : TrackInfo} (hkind : track.mediaKind = .audio)
include hkind

theorem writeStsd_audio : writeStsd (.new track) =
    writeFullBox "stsd" 0 0 (toBigEndian 4 1 ++ writeAudioSampleEntry (.new track)) := by
  rw [writeStsd, show (TrackBuilder.new track).mediaKind = .audio from hkind]

theorem aac_survives_iff (hcodec : track.codec = .aac) (hconfig : track.extradata = .aac config) :
    Survives maxBoxSize track ↔ 73 + config.length ≤ maxBoxSize ∧ config.length ≤ 104 := by
  let fields := audioFields (.new track)
  let dsi := decoderSpecificInfo config
  have hdsi : dsi.length = min 127 config.length := List.length_take
  have hlength : fields.length = 28 := audioFields_length _
  have hlead := audioFields_lead (.new track) []
  rw [List.append_nil] at hlead
  have hentry : Entry "mp4a" "esds" fields :=
    ⟨rfl, rfl, by decide, hlength.symm, Or.inl hlength, hlead⟩
  have hstsd : writeStsd (.new track) = writeFullBox "stsd" 0 0 (toBigEndian 4 1 ++
      writeBox "mp4a" (fields ++ writeBox "esds" ([0, 0, 0, 0] ++ descriptors dsi))) := by
    have hextradata : (TrackBuilder.new track).extradata = config := by
      simp only [TrackBuilder.new, extractExtradata, hcodec, hconfig]
    rw [writeStsd_audio hkind, ← writeEsds_aac]
    simp only [writeAudioSampleEntry, show (TrackBuilder.new track).codec = .aac from hcodec,
      hextradata]
    rfl
  have hesds : ([0, 0, 0, 0] ++ descriptors dsi).length = 29 + dsi.length := by
    simp only [List.length_append, List.length_cons, List.length_nil, descriptors_length]
    omega
  have hcontent : (fields ++ writeBox "esds" ([0, 0, 0, 0] ++ descriptors dsi)).length =
      65 + dsi.length := by
    rw [List.length_append, writeBox_length rfl, hesds, hlength]
    omega
  have hextradata (hmax : 73 + dsi.length ≤ maxBoxSize) : (sampleEntryInfo maxBoxSize
      ⟨fourcc "mp4a", fields ++ writeBox "esds" ([0, 0, 0, 0] ++ descriptors dsi)⟩).extradata =
        .aac (parseEsdsDecoderSpecific ([0, 0, 0, 0] ++ descriptors dsi)) := by
    simp only [sampleEntryInfo, hentry.offset]
    rw [if_pos ⟨by omega, by omega⟩, hentry.config_whole _ (by omega) (by omega)]
    rfl
  unfold Survives
  rw [hstsd, hcodec, hconfig]
  simp only [entry_small (show (fourcc "mp4a").length = 4 from rfl)
    (fields ++ writeBox "esds" ([0, 0, 0, 0] ++ descriptors dsi)) (audioFields_lead _ _) (by omega)]
  constructor
  · rintro ⟨info, ⟨hmax, rfl⟩, -, hinfo⟩
    rw [hcontent] at hmax
    rw [hextradata (by omega)] at hinfo
    have hread := CodecExtradata.aac.inj hinfo
    by_cases hlong : config.length ≤ 104
    · exact ⟨by omega, hlong⟩
    · have hshort := parseEsds_misread (show 105 ≤ dsi.length by omega) (by omega)
      rw [hread] at hshort
      omega
  · rintro ⟨hmax, hfits⟩
    have hwhole : dsi = config := List.take_of_length_le (by omega)
    refine ⟨_, ⟨by omega, rfl⟩, rfl, ?_⟩
    rw [hextradata (by omega), parseEsds_written (by omega), hwhole]

/-- Without a box there is no configuration to read. -/
theorem plain_survives_iff {name : String} (hname : (fourcc name).length = 4)
    (hentry : writeAudioSampleEntry (.new track) = writeBox name (audioFields (.new track)))
    (hcodec : codecIdFromSampleEntry (fourcc name) = track.codec)
    (hoffset : innerOffset track.codec = 28) (hconfig : track.extradata = .none) :
    Survives maxBoxSize track ↔ 36 ≤ maxBoxSize := by
  have hlength := audioFields_length (.new track)
  have hlead := audioFields_lead (.new track) []
  rw [List.append_nil] at hlead
  have hextradata :
      (sampleEntryInfo maxBoxSize ⟨fourcc name, audioFields (.new track)⟩).extradata = .none := by
    simp only [sampleEntryInfo, hcodec, hoffset]
    exact if_neg (by omega)
  unfold Survives
  rw [writeStsd_audio hkind, hentry, hconfig]
  simp only [entry_small hname (audioFields (.new track)) hlead (by omega), hlength]
  constructor
  · rintro ⟨info, ⟨hmax, -⟩, -⟩
    exact hmax
  · intro hmax
    exact ⟨_, ⟨hmax, rfl⟩, hcodec, hextradata⟩

/-- Every entry of this name is read as AAC. -/
theorem mp4a_not_survives (hentry : ∃ boxes, writeAudioSampleEntry (.new track) =
      writeBox "mp4a" (audioFields (.new track) ++ boxes)) (hcodec : track.codec ≠ .aac) :
    ¬Survives maxBoxSize track := by
  obtain ⟨boxes, hentry⟩ := hentry
  rintro ⟨info, hread, hinfo, -⟩
  rw [writeStsd_audio hkind, hentry] at hread
  obtain ⟨payload, rfl, -⟩ := entry_cut rfl (audioFields_lead _ _) hread
  exact hcodec hinfo.symm

end Audio

/-- The codec and the configuration survive exactly when they are preserved. -/
theorem configuration_survives_iff (h : HasSampleEntry track)
    (hconfig : track.extradata = configured track.codec config) :
    Survives maxBoxSize track ↔ Preserved maxBoxSize track.codec config := by
  have hkind (hcodec : track.codec ∉ [.h264, .h265, .h266, .vp8, .vp9, .av1]) :
      track.mediaKind = .audio := by
    rcases h with ⟨-, h⟩ | ⟨hkind, -⟩
    · exact absurd h hcodec
    · exact hkind
  unfold Preserved
  cases hcodec : track.codec
  case h264 | h265 | vp8 | vp9 | av1 | opus =>
    rw [hcodec] at hconfig
    have hwritten : extractExtradata track = config := by
      simp only [extractExtradata, hcodec, hconfig, configured, Option.getD_some]
    rw [← hcodec] at hconfig
    rw [boxed_survives_iff h hconfig (by rw [hcodec]; rfl) (by rw [hwritten]), hcodec, hwritten]
    simp only [true_and, and_true]
  case h266 =>
    have hwritten : extractExtradata track = [] := by
      rw [hcodec] at hconfig
      simp only [extractExtradata, hcodec]
    rw [boxed_survives_iff h hconfig (by rw [hcodec]; rfl) (by rw [hwritten]; exact Nat.zero_le _),
      hcodec, hwritten, and_comm, and_assoc, eq_comm]
  case aac =>
    rw [hcodec] at hconfig
    rw [aac_survives_iff (hkind (by rw [hcodec]; decide)) hcodec hconfig]
    simp only [entrySize]
    omega
  case mp2 | mp3 =>
    simp only [and_false, iff_false]
    refine mp4a_not_survives (hkind (by rw [hcodec]; decide)) ?_ (by rw [hcodec]; decide)
    simp only [writeAudioSampleEntry, show (TrackBuilder.new track).codec = _ from hcodec]
    exact ⟨_, rfl⟩
  case g711a =>
    have hentry : writeAudioSampleEntry (.new track) =
        writeBox "alaw" (audioFields (.new track)) := by
      simp only [writeAudioSampleEntry, show (TrackBuilder.new track).codec = _ from hcodec,
        List.append_nil]
      rfl
    rw [hcodec] at hconfig
    rw [plain_survives_iff (hkind (by rw [hcodec]; decide)) rfl hentry (by rw [hcodec]; rfl)
      (by rw [hcodec]; rfl) hconfig]
    simp [entrySize]
  case g711u =>
    have hentry : writeAudioSampleEntry (.new track) =
        writeBox "ulaw" (audioFields (.new track)) := by
      simp only [writeAudioSampleEntry, show (TrackBuilder.new track).codec = _ from hcodec,
        List.append_nil]
      rfl
    rw [hcodec] at hconfig
    rw [plain_survives_iff (hkind (by rw [hcodec]; decide)) rfl hentry (by rw [hcodec]; rfl)
      (by rw [hcodec]; rfl) hconfig]
    simp [entrySize]
  all_goals
    rcases h with ⟨-, h⟩ | ⟨-, h⟩ <;> rw [hcodec] at h <;> exact absurd h (by decide)

/-- An audio track with the configuration of these bytes. -/
def audioTrack (codec : CodecId) (config : Bytes) : TrackInfo where
  trackId := 1
  mediaKind := .audio
  codec
  clockRate := 44100
  channels := some 2
  extradata := configured codec config

theorem configuration_survives_aac :
    Survives (256 * 1024 * 1024) (audioTrack .aac [0x12, 0x10]) :=
  (configuration_survives_iff (Or.inr ⟨rfl, List.mem_cons_self⟩) rfl).mpr
    ⟨Nat.le_of_ble_eq_true rfl, Nat.le_of_ble_eq_true rfl, Nat.le_of_ble_eq_true rfl⟩

/-- A track of MP3 is read back as one of AAC. -/
theorem not_survives_mp3 : HasSampleEntry (audioTrack .mp3 []) ∧
    (audioTrack .mp3 []).extradata = configured .mp3 [] ∧
    ¬Survives (256 * 1024 * 1024) (audioTrack .mp3 []) :=
  ⟨Or.inr ⟨rfl, by decide⟩, rfl, mp4a_not_survives rfl ⟨_, rfl⟩ (by decide)⟩

end CheetahMedia.Codec.Mp4
