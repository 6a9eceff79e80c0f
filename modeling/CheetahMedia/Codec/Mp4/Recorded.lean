import CheetahMedia.Codec.Mp4.Configuration
import CheetahMedia.Codec.Mp4.Timing

namespace CheetahMedia.Codec.Mp4
open Lib Lib.Checked Lib.RunLength Mp4File

/-- The bytes are a box with this name. -/
structure Boxed (name : String) (box : Bytes) : Prop where
  named : (fourcc name).length = 4
  content : ∃ content, box = writeBox name content

theorem boxed_full (hname : (fourcc name).length = 4) (version : UInt8) (flags : Nat)
    (content : Bytes) : Boxed name (writeFullBox name version flags content) :=
  ⟨hname, _, rfl⟩

theorem Boxed.length (h : Boxed name box) : box.length = 8 + (box.drop 8).length := by
  obtain ⟨hname, content, rfl⟩ := h
  rw [List.length_drop, writeBox_length hname]
  omega

theorem writeBox_drop (hname : (fourcc name).length = 4) (content : Bytes) :
    (writeBox name content).drop 8 = content := by
  rw [writeBox, List.drop_left' (by simp [hname])]

theorem writeFullBox_fourcc (hname : (fourcc name).length = 4) (content : Bytes) :
    ((writeFullBox name 0 0 content).drop 4).take 4 = fourcc name := by
  have h := writeBox_fourcc hname (0 :: toBigEndian 3 0 ++ content) []
  rwa [List.append_nil] at h

/-- Boxes in a row are read one by one. -/
theorem childrenFrom_boxes {boxes : List (String × Bytes)} (hboxes : ∀ b ∈ boxes, Boxed b.1 b.2)
    (hmax : (boxes.flatMap (·.2)).length ≤ maxBoxSize)
    (hword : (boxes.flatMap (·.2)).length < 2 ^ 32) (hpasses : boxes.length < passes)
    (offset : Nat) :
    childrenFrom maxBoxSize passes offset (boxes.flatMap (·.2)) =
      boxes.map fun b => .ok ⟨fourcc b.1, b.2.drop 8⟩ := by
  induction boxes generalizing passes offset with
  | nil =>
    obtain ⟨passes, rfl⟩ := Nat.exists_eq_succ_of_ne_zero (Nat.ne_of_gt hpasses)
    rfl
  | cons b boxes ih =>
    obtain ⟨passes, rfl⟩ := Nat.exists_eq_succ_of_ne_zero (Nat.ne_of_gt (Nat.zero_lt_of_lt hpasses))
    obtain ⟨hname, content, hbox⟩ := hboxes b (List.mem_cons_self ..)
    rw [List.flatMap_cons, List.length_append, hbox, writeBox_length hname] at hmax hword
    rw [List.flatMap_cons, List.map_cons, hbox, writeBox_drop hname,
      childrenFrom_box hname _ (by omega) (.inl (by omega)),
      ih (fun b hb => hboxes b (List.mem_cons_of_mem _ hb)) (by omega) (by omega)
        (Nat.lt_of_succ_lt_succ hpasses)]

theorem boxes_length_le {boxes : List (String × Bytes)} (hboxes : ∀ b ∈ boxes, Boxed b.1 b.2) :
    boxes.length ≤ (boxes.flatMap (·.2)).length := by
  induction boxes with
  | nil => exact Nat.le_refl 0
  | cons b boxes ih =>
    have hlength := (hboxes b (List.mem_cons_self ..)).length
    have hrest := ih fun b hb => hboxes b (List.mem_cons_of_mem _ hb)
    rw [List.flatMap_cons, List.length_append, List.length_cons]
    omega

theorem boxIter_boxes {boxes : List (String × Bytes)} (hboxes : ∀ b ∈ boxes, Boxed b.1 b.2)
    (hmax : (boxes.flatMap (·.2)).length ≤ maxBoxSize)
    (hword : (boxes.flatMap (·.2)).length < 2 ^ 32) :
    boxIter maxBoxSize 0 (boxes.flatMap (·.2)) =
      boxes.map fun b => .ok ⟨fourcc b.1, b.2.drop 8⟩ := by
  rw [boxIter, List.drop_zero]
  exact childrenFrom_boxes hboxes hmax hword (Nat.lt_succ_of_le (boxes_length_le hboxes)) 0

/-- Boxes that are known by their names are visited. -/
def visitBoxes (visit : β → ChildBox → Except Mp4Error β) (boxes : List (String × Bytes))
    (state : β) : Except Mp4Error β :=
  boxes.foldlM (fun state b => visit state ⟨fourcc b.1, b.2.drop 8⟩) state

/-- The boxes in a row are visited one by one. -/
theorem forBoxes_boxes (visit : β → ChildBox → Except Mp4Error β)
    {boxes : List (String × Bytes)} (hboxes : ∀ b ∈ boxes, Boxed b.1 b.2)
    (hmax : (boxes.flatMap (·.2)).length ≤ maxBoxSize)
    (hword : (boxes.flatMap (·.2)).length < 2 ^ 32) (state : β) :
    forBoxes visit (boxIter maxBoxSize 0 (boxes.flatMap (·.2))) state =
      visitBoxes visit boxes state := by
  rw [boxIter_boxes hboxes hmax hword, forBoxes, List.foldlM_map]
  rfl

section Visits
variable {visit : β → ChildBox → Except Mp4Error β} (rest : List (String × Bytes))

/-- A box that is read leads to the boxes after it. -/
theorem visitBoxes_cons (h : visit s ⟨fourcc name, box.drop 8⟩ = .ok s') :
    visitBoxes visit ((name, box) :: rest) s = visitBoxes visit rest s' := by
  rw [visitBoxes, List.foldlM_cons]
  dsimp only
  rw [h]
  rfl

/-- A box that may be missing. -/
theorem visitBoxes_optional (hnone : box = [] → s = s')
    (hsome : box ≠ [] → visit s ⟨fourcc name, box.drop 8⟩ = .ok s') :
    visitBoxes visit ((if box = [] then [] else [(name, box)]) ++ rest) s =
      visitBoxes visit rest s' := by
  split
  · rename_i hnil
    rw [hnone hnil, List.nil_append]
  · rename_i hne
    exact visitBoxes_cons rest (hsome hne)

end Visits

section Stbl
variable {tb : TrackBuilder}

/-- The tables that are there, each with its name. -/
def tablesOf (tb : TrackBuilder) (chunkBase : Nat) : List (String × Bytes) :=
  let optional (name : String) (box : Bytes) := if box = [] then [] else [(name, box)]
  let chunks := writeStcoOrCo64 tb chunkBase
  ("stsd", writeStsd tb) :: ("stts", writeStts tb) ::
    (optional "ctts" (writeCttsIfNeeded tb) ++ (optional "stss" (writeStssIfNeeded tb) ++
      [("stsc", writeStsc), ("stsz", writeStsz tb),
        (if (chunks.drop 4).take 4 = fourcc "co64" then "co64" else "stco", chunks)]))

theorem tablesOf_flatMap (tb : TrackBuilder) (chunkBase : Nat) :
    (tablesOf tb chunkBase).flatMap (·.2) =
      writeStsd tb ++ writeStts tb ++ writeCttsIfNeeded tb ++ writeStssIfNeeded tb ++
        writeStsc ++ writeStsz tb ++ writeStcoOrCo64 tb chunkBase := by
  have hoptional (name : String) (box : Bytes) :
      (if box = [] then [] else [(name, box)]).flatMap (·.2) = box := by
    split
    · rename_i hnil
      rw [hnil]
      rfl
    · exact List.flatMap_singleton _ _
  unfold tablesOf
  simp only [List.flatMap_append, hoptional, List.flatMap_cons, List.flatMap_nil, List.append_nil,
    List.append_assoc]

theorem boxed_chunks (tb : TrackBuilder) (chunkBase : Nat) :
    Boxed (if ((writeStcoOrCo64 tb chunkBase).drop 4).take 4 = fourcc "co64" then "co64"
      else "stco") (writeStcoOrCo64 tb chunkBase) := by
  unfold writeStcoOrCo64
  dsimp only
  split
  · rw [if_pos (writeFullBox_fourcc rfl _)]
    exact boxed_full rfl _ _ _
  · rw [if_neg (by rw [writeFullBox_fourcc rfl]; decide)]
    exact boxed_full rfl _ _ _

theorem boxed_tables (tb : TrackBuilder) (chunkBase : Nat) :
    ∀ b ∈ tablesOf tb chunkBase, Boxed b.1 b.2 := by
  have hoptional {name : String} {box : Bytes} (h : box ≠ [] → Boxed name box) :
      ∀ b ∈ (if box = [] then [] else [(name, box)]), Boxed b.1 b.2 := by
    intro b hb
    split at hb
    · cases hb
    · rename_i hne
      rw [List.mem_singleton.mp hb]
      exact h hne
  have hctts : writeCttsIfNeeded tb ≠ [] → Boxed "ctts" (writeCttsIfNeeded tb) := by
    unfold writeCttsIfNeeded
    split
    · exact fun _ => boxed_full rfl _ _ _
    · exact fun h => absurd rfl h
  have hstss : writeStssIfNeeded tb ≠ [] → Boxed "stss" (writeStssIfNeeded tb) := by
    unfold writeStssIfNeeded
    split
    · exact fun h => absurd rfl h
    · exact fun _ => boxed_full rfl _ _ _
  have hchunks := boxed_chunks tb chunkBase
  intro b hb
  simp only [tablesOf, List.mem_append, List.mem_cons, List.not_mem_nil, or_false] at hb
  have hstsd : Boxed "stsd" (writeStsd tb) := boxed_full rfl _ _ _
  have hstts : Boxed "stts" (writeStts tb) := boxed_full rfl _ _ _
  have hstsc : Boxed "stsc" writeStsc := boxed_full rfl _ _ _
  have hstsz : Boxed "stsz" (writeStsz tb) := boxed_full rfl _ _ _
  rcases hb with rfl | rfl | hb | hb | rfl | rfl | rfl
  · exact hstsd
  · exact hstts
  · exact hoptional hctts b hb
  · exact hoptional hstss b hb
  · exact hstsc
  · exact hstsz
  · exact hchunks

theorem readBack_fields {t : SampleTable} (h : readBack tb chunkBase = .ok t) :
    parseStts ((writeStts tb).drop 8) = .ok t.stts ∧
      t.ctts = parseCtts ((writeCttsIfNeeded tb).drop 8) ∧
      t.stss = (if writeStssIfNeeded tb = [] then none
        else some (parseStss ((writeStssIfNeeded tb).drop 8))) ∧
      parseStsc (writeStsc.drop 8) = .ok t.stsc ∧
      parseStsz ((writeStsz tb).drop 8) = .ok (t.stszDefault, t.stszSizes) ∧
      parseChunkOffsets (writeStcoOrCo64 tb chunkBase) = .ok t.stco := by
  unfold readBack at h
  dsimp only at h
  cases hstsz : parseStsz ((writeStsz tb).drop 8) with
  | error e => rw [hstsz] at h; cases h
  | ok sizes =>
  cases hstts : parseStts ((writeStts tb).drop 8) with
  | error e => rw [hstsz, hstts] at h; cases h
  | ok stts =>
  cases hstsc : parseStsc (writeStsc.drop 8) with
  | error e => rw [hstsz, hstts, hstsc] at h; cases h
  | ok stsc =>
  cases hchunks : parseChunkOffsets (writeStcoOrCo64 tb chunkBase) with
  | error e => rw [hstsz, hstts, hstsc, hchunks] at h; cases h
  | ok stco =>
    rw [hstsz, hstts, hstsc, hchunks] at h
    cases h
    refine ⟨rfl, rfl, ?_, rfl, rfl, rfl⟩
    cases writeStssIfNeeded tb <;> rfl

section Visit
variable {payload : Bytes} (table : SampleTable) (info : Option StsdInfo)

theorem visitStbl_stsd (h : parseStsd maxBoxSize payload = .ok found) :
    visitStbl maxBoxSize (table, info) ⟨fourcc "stsd", payload⟩ = .ok (table, found) := by
  show (parseStsd maxBoxSize payload >>= _) = _
  rw [h]
  rfl

theorem visitStbl_stts (h : parseStts payload = .ok stts) :
    visitStbl maxBoxSize (table, info) ⟨fourcc "stts", payload⟩ =
      .ok ({ table with stts }, info) := by
  show (parseStts payload >>= _) = _
  rw [h]
  rfl

theorem visitStbl_ctts : visitStbl maxBoxSize (table, info) ⟨fourcc "ctts", payload⟩ =
    .ok ({ table with ctts := parseCtts payload }, info) := rfl

theorem visitStbl_stss : visitStbl maxBoxSize (table, info) ⟨fourcc "stss", payload⟩ =
    .ok ({ table with stss := some (parseStss payload) }, info) := rfl

theorem visitStbl_stsc (h : parseStsc payload = .ok stsc) :
    visitStbl maxBoxSize (table, info) ⟨fourcc "stsc", payload⟩ =
      .ok ({ table with stsc }, info) := by
  show (parseStsc payload >>= _) = _
  rw [h]
  rfl

theorem visitStbl_stsz (h : parseStsz payload = .ok (stszDefault, stszSizes)) :
    visitStbl maxBoxSize (table, info) ⟨fourcc "stsz", payload⟩ =
      .ok ({ table with stszDefault, stszSizes }, info) := by
  show (parseStsz payload >>= _) = _
  rw [h]
  rfl

/-- The chunk offsets are read from the box with their name. -/
theorem visitStbl_chunks (h : parseChunkOffsets box = .ok stco) :
    visitStbl maxBoxSize (table, info)
        ⟨fourcc (if (box.drop 4).take 4 = fourcc "co64" then "co64" else "stco"), box.drop 8⟩ =
      .ok ({ table with stco }, info) := by
  unfold parseChunkOffsets at h
  split at h
  · rename_i hco64
    rw [if_pos hco64]
    show (parseCo64 (box.drop 8) >>= _) = _
    rw [h]
    rfl
  · rename_i hstco
    rw [if_neg hstco]
    show (parseStco (box.drop 8) >>= _) = _
    rw [h]
    rfl

end Visit

/-- The reader finds in a `stbl` box what it finds in each of the tables. -/
theorem parseStbl_written {t : SampleTable} (h : readBack tb chunkBase = .ok t)
    (hstsd : parseStsd maxBoxSize ((writeStsd tb).drop 8) = .ok info)
    (hmax : ((tablesOf tb chunkBase).flatMap (·.2)).length ≤ maxBoxSize)
    (hword : ((tablesOf tb chunkBase).flatMap (·.2)).length < 2 ^ 32) :
    parseStbl maxBoxSize ((tablesOf tb chunkBase).flatMap (·.2)) = .ok (t, info) := by
  obtain ⟨hstts, hctts, hstss, hstsc, hstsz, hchunks⟩ := readBack_fields h
  have hvisitCtts (table : SampleTable) (htable : table.ctts = []) (rest : List (String × Bytes)) :
      visitBoxes (visitStbl maxBoxSize)
          ((if writeCttsIfNeeded tb = [] then [] else [("ctts", writeCttsIfNeeded tb)]) ++ rest)
          (table, info) =
        visitBoxes (visitStbl maxBoxSize) rest ({ table with ctts := t.ctts }, info) := by
    rw [hctts]
    apply visitBoxes_optional
    · intro hnil
      rw [hnil, show parseCtts ([].drop 8) = [] from rfl, ← htable]
    · exact fun _ => visitStbl_ctts table info
  have hvisitStss (table : SampleTable) (htable : table.stss = none)
      (rest : List (String × Bytes)) :
      visitBoxes (visitStbl maxBoxSize)
          ((if writeStssIfNeeded tb = [] then [] else [("stss", writeStssIfNeeded tb)]) ++ rest)
          (table, info) =
        visitBoxes (visitStbl maxBoxSize) rest ({ table with stss := t.stss }, info) := by
    rw [hstss]
    apply visitBoxes_optional
    · intro hnil
      rw [if_pos hnil, ← htable]
    · intro hne
      rw [if_neg hne]
      exact visitStbl_stss table info
  rw [parseStbl, forBoxes_boxes _ (boxed_tables tb chunkBase) hmax hword]
  unfold tablesOf
  dsimp only
  rw [visitBoxes_cons _ (visitStbl_stsd _ _ hstsd), visitBoxes_cons _ (visitStbl_stts _ _ hstts),
    hvisitCtts _ rfl, hvisitStss _ rfl, visitBoxes_cons _ (visitStbl_stsc _ _ hstsc),
    visitBoxes_cons _ (visitStbl_stsz _ _ hstsz), visitBoxes_cons _ (visitStbl_chunks _ _ hchunks)]
  rfl

end Stbl

section Trak
variable {tb : TrackBuilder}

/-- A sample description has one entry at most. -/
theorem sampleEntry_boxed (tb : TrackBuilder) :
    writeStsd tb = writeFullBox "stsd" 0 0 (toBigEndian 4 1) ∨ ∃ name content,
      (fourcc name).length = 4 ∧
        writeStsd tb = writeFullBox "stsd" 0 0 (toBigEndian 4 1 ++ writeBox name content) := by
  unfold writeStsd
  cases tb.mediaKind with
  | video =>
    refine .inr ⟨_, _, ?_, rfl⟩
    cases tb.codec <;> rfl
  | audio =>
    refine .inr ⟨_, _, ?_, rfl⟩
    cases tb.codec <;> rfl
  | data => exact .inl rfl
  | subtitle => exact .inl rfl

/-- The reader does not stop at a sample description. -/
theorem parseStsd_ok (hmax : (writeStsd tb).length ≤ maxBoxSize)
    (hword : (writeStsd tb).length < 2 ^ 32) :
    ∃ info, parseStsd maxBoxSize ((writeStsd tb).drop 8) = .ok info := by
  rcases sampleEntry_boxed tb with heq | ⟨name, content, hname, heq⟩
  · rw [heq]
    exact ⟨none, rfl⟩
  · have hlength : (writeStsd tb).length = 24 + content.length := by
      rw [heq, writeFullBox, writeBox_length rfl]
      simp [writeBox_length hname]
      omega
    rw [heq]
    exact ⟨_, entry_whole hname (by omega) (by omega)⟩

/-- The handler of a track that is neither video nor audio says nothing more. -/
def kindRead : MediaKind → MediaKind
  | .video => .video
  | .audio => .audio
  | _ => .data

/-- What the boxes of a track say together. -/
def fieldsRead (tb : TrackBuilder) (trackId : Nat) (table : SampleTable) (info : Option StsdInfo) :
    TrakFields where
  trackIdBox := some trackId
  timescale := tb.timescale
  mediaKind := kindRead tb.mediaKind
  sampleTable := some table
  info := info.getD { codec := .unknown }
  width := tb.width
  height := tb.height

theorem u32At_toNat (hpre : pre.length = offset) (hfit : n < 2 ^ 32) (post : Bytes) :
    (u32At (pre ++ (toBigEndian 4 n ++ post)) offset).toNat = n := by
  rw [u32At_written hpre, UInt32.toNat_ofNat', Nat.mod_eq_of_lt hfit]

theorem visitTkhd_written (fields : TrakFields) (hid : trackId < 2 ^ 32)
    (hwidth : tb.width < 2 ^ 16) (hheight : tb.height < 2 ^ 16) :
    visitTkhd fields ((writeTkhd tb trackId).drop 8) =
      { fields with trackIdBox := some trackId, width := tb.width, height := tb.height } := by
  let duration := toBigEndian 4 (clampU32 (tb.durationUs.tdiv 1000))
  let volume := toBigEndian 2 (if tb.mediaKind = .audio then 0x0100 else 0)
  let middle := zeros 4 ++ (duration ++ (zeros 12 ++ (volume ++ (zeros 2 ++ matrix))))
  let size := toBigEndian 4 (tb.width * 2 ^ 16) ++ (toBigEndian 4 (tb.height * 2 ^ 16) ++ [])
  have hmatrix : matrix.length = 36 := rfl
  have hpayload : (writeTkhd tb trackId).drop 8 =
      ([0, 0, 0, 3] ++ zeros 8) ++ (toBigEndian 4 trackId ++ (middle ++ size)) := by
    rw [writeTkhd, writeFullBox, writeBox_drop rfl]
    simp only [middle, size, duration, volume, List.append_assoc, List.append_nil,
      List.cons_append, List.nil_append]
    rfl
  have hlength : (([0, 0, 0, 3] ++ zeros 8) ++ (toBigEndian 4 trackId ++ middle)).length = 76 := by
    simp [middle, duration, volume, zeros, hmatrix]
  have htotal : ((writeTkhd tb trackId).drop 8).length = 84 := by
    rw [hpayload]
    simp [middle, size, duration, volume, zeros, hmatrix]
  have hsize : ((writeTkhd tb trackId).drop 8).drop 76 = size := by
    rw [hpayload, ← List.append_assoc (toBigEndian 4 trackId), ← List.append_assoc,
      List.drop_left' hlength]
  have hid' : (u32At ((writeTkhd tb trackId).drop 8) 12).toNat = trackId := by
    rw [hpayload]
    exact u32At_toNat rfl hid _
  have hwidth' : (u32At size 0).toNat = tb.width * 2 ^ 16 :=
    u32At_toNat (show ([] : Bytes).length = 0 from rfl) (by omega) _
  have hheight' : (u32At size 4).toNat = tb.height * 2 ^ 16 :=
    u32At_toNat (toBigEndian_length 4 _) (by omega) []
  have hversion : ((writeTkhd tb trackId).drop 8).head? ≠ some 1 := by
    rw [hpayload]
    simp
  unfold visitTkhd
  dsimp only
  rw [htotal, if_neg (by decide), if_neg hversion, if_pos (by decide), hid',
    show 84 - 8 = 76 from rfl, hsize, hwidth', hheight', Nat.mul_div_cancel _ (by decide),
    Nat.mul_div_cancel _ (by decide)]

theorem visitMdhd_written (fields : TrakFields) (hts : tb.timescale < 2 ^ 32) :
    visitMdhd fields ((writeMdhd tb).drop 8) = { fields with timescale := tb.timescale } := by
  let rest := toBigEndian 4 (clampU32 (usToTimescale tb.durationUs tb.timescale)) ++
    (toBigEndian 2 0x55C4 ++ zeros 2)
  have hpayload : (writeMdhd tb).drop 8 =
      ([0, 0, 0, 0] ++ zeros 8) ++ (toBigEndian 4 tb.timescale ++ rest) := by
    rw [writeMdhd, writeFullBox_payload rfl]
    simp only [rest, List.append_assoc]
  have hlength : ((writeMdhd tb).drop 8).length = 24 := by
    rw [hpayload]
    simp [rest, zeros]
  have hversion : ((writeMdhd tb).drop 8).head? ≠ some 1 := by
    rw [hpayload]
    simp
  have htimescale : (u32At ((writeMdhd tb).drop 8) 12).toNat = tb.timescale := by
    rw [hpayload]
    exact u32At_toNat rfl hts _
  rw [visitMdhd, hlength, if_neg (by decide), if_neg hversion, htimescale]

theorem visitHdlr_written (fields : TrakFields) :
    visitHdlr fields ((writeHdlr tb).drop 8) =
      { fields with mediaKind := kindRead tb.mediaKind } := by
  unfold writeHdlr
  cases tb.mediaKind <;> rfl

/-- The boxes that say where the media of a track is. -/
theorem writeMinf_boxes (tb : TrackBuilder) (chunkBase : Nat) :
    ∃ header headerName dinf, Boxed headerName header ∧ fourcc headerName ≠ fourcc "stbl" ∧
      Boxed "dinf" dinf ∧ writeMinf tb chunkBase = writeBox "minf"
        ([(headerName, header), ("dinf", dinf),
          ("stbl", writeBox "stbl" ((tablesOf tb chunkBase).flatMap (·.2)))].flatMap (·.2)) := by
  have hflat (header dinf stbl : Bytes) (headerName : String) :
      [(headerName, header), ("dinf", dinf), ("stbl", stbl)].flatMap (·.2) =
        header ++ dinf ++ stbl := by
    simp
  unfold writeMinf
  dsimp only
  rw [← tablesOf_flatMap]
  cases tb.mediaKind with
  | video =>
    exact ⟨_, "vmhd", _, boxed_full rfl 0 1 (zeros 8), by decide, ⟨rfl, _, rfl⟩,
      by rw [hflat]⟩
  | audio =>
    exact ⟨_, "smhd", _, boxed_full rfl 0 0 (zeros 4), by decide, ⟨rfl, _, rfl⟩,
      by rw [hflat]⟩
  | data =>
    exact ⟨_, "nmhd", _, boxed_full rfl 0 0 [], by decide, ⟨rfl, _, rfl⟩, by rw [hflat]⟩
  | subtitle =>
    exact ⟨_, "nmhd", _, boxed_full rfl 0 0 [], by decide, ⟨rfl, _, rfl⟩, by rw [hflat]⟩

theorem minf_written {t : SampleTable} (h : readBack tb chunkBase = .ok t)
    (hmax : (writeMinf tb chunkBase).length ≤ maxBoxSize)
    (hword : (writeMinf tb chunkBase).length < 2 ^ 32) : ∃ info : Option StsdInfo, ∀ fields,
      forBoxes (visitMinf maxBoxSize) (boxIter maxBoxSize 0 ((writeMinf tb chunkBase).drop 8))
          fields =
        .ok { fields with sampleTable := some t, info := info.getD fields.info } := by
  obtain ⟨header, headerName, dinf, hheader, hother, hdinf, hminf⟩ := writeMinf_boxes tb chunkBase
  have hstbl : Boxed "stbl" (writeBox "stbl" ((tablesOf tb chunkBase).flatMap (·.2))) :=
    ⟨rfl, _, rfl⟩
  rw [hminf, writeBox_length rfl] at hmax hword
  have hlength : ((tablesOf tb chunkBase).flatMap (·.2)).length + 8 ≤
      ([(headerName, header), ("dinf", dinf), ("stbl",
        writeBox "stbl" ((tablesOf tb chunkBase).flatMap (·.2)))].flatMap (·.2)).length := by
    simp [writeBox_length (show (fourcc "stbl").length = 4 from rfl)]
    omega
  have hstsdLength : (writeStsd tb).length ≤ ((tablesOf tb chunkBase).flatMap (·.2)).length := by
    rw [tablesOf_flatMap]
    simp
  obtain ⟨info, hinfo⟩ := parseStsd_ok (show (writeStsd tb).length ≤ maxBoxSize by omega)
    (by omega)
  refine ⟨info, fun fields => ?_⟩
  have hvisitStbl : visitMinf maxBoxSize fields ⟨fourcc "stbl",
      (writeBox "stbl" ((tablesOf tb chunkBase).flatMap (·.2))).drop 8⟩ =
        .ok { fields with sampleTable := some t, info := info.getD fields.info } := by
    rw [writeBox_drop rfl]
    show (parseStbl maxBoxSize _ >>= _) = _
    rw [parseStbl_written h hinfo (by omega) (by omega)]
    rfl
  have hvisitOther {name : String} (hne : fourcc name ≠ fourcc "stbl") (payload : Bytes) :
      visitMinf maxBoxSize fields ⟨fourcc name, payload⟩ = .ok fields := by
    unfold visitMinf
    rw [if_neg hne]
    rfl
  rw [hminf, writeBox_drop rfl, forBoxes_boxes _ _ (by omega) (by omega),
    visitBoxes_cons _ (hvisitOther hother _), visitBoxes_cons _ (hvisitOther (by decide) _),
    visitBoxes_cons _ hvisitStbl]
  · rfl
  · simp [hheader, hdinf, hstbl]

/-- The reader finds in the boxes of a track what the writer put there. -/
theorem trak_written {t : SampleTable} (h : readBack tb chunkBase = .ok t)
    (hid : trackId < 2 ^ 32) (hwidth : tb.width < 2 ^ 16) (hheight : tb.height < 2 ^ 16)
    (hts : tb.timescale < 2 ^ 32) (hmax : (writeTrak tb trackId chunkBase).length ≤ maxBoxSize)
    (hword : (writeTrak tb trackId chunkBase).length < 2 ^ 32) : ∃ info,
      forBoxes (visitTrak maxBoxSize)
          (boxIter maxBoxSize 0 ((writeTrak tb trackId chunkBase).drop 8)) {} =
        .ok (fieldsRead tb trackId t info) := by
  let mdia := [("mdhd", writeMdhd tb), ("hdlr", writeHdlr tb), ("minf", writeMinf tb chunkBase)]
  let trak := [("tkhd", writeTkhd tb trackId), ("mdia", writeBox "mdia" (mdia.flatMap (·.2)))]
  have hmdia : ∀ b ∈ mdia, Boxed b.1 b.2 := by
    obtain ⟨_, _, _, -, -, -, hminf⟩ := writeMinf_boxes tb chunkBase
    have hminf : Boxed "minf" (writeMinf tb chunkBase) := ⟨rfl, _, hminf⟩
    have hmdhd : Boxed "mdhd" (writeMdhd tb) := boxed_full rfl _ _ _
    have hhdlr : Boxed "hdlr" (writeHdlr tb) := boxed_full rfl _ _ _
    simp [mdia, hminf, hmdhd, hhdlr]
  have htrak : ∀ b ∈ trak, Boxed b.1 b.2 := by
    have htkhd : Boxed "tkhd" (writeTkhd tb trackId) := boxed_full rfl _ _ _
    have hmdia : Boxed "mdia" (writeBox "mdia" (mdia.flatMap (·.2))) := ⟨rfl, _, rfl⟩
    simp [trak, htkhd, hmdia]
  have heq : writeTrak tb trackId chunkBase = writeBox "trak" (trak.flatMap (·.2)) := by
    simp [writeTrak, trak, mdia]
  rw [heq, writeBox_length rfl] at hmax hword
  have hinner : (mdia.flatMap (·.2)).length + 8 ≤ (trak.flatMap (·.2)).length := by
    simp [trak, writeBox_length (show (fourcc "mdia").length = 4 from rfl)]
    omega
  have hminf : (writeMinf tb chunkBase).length ≤ (mdia.flatMap (·.2)).length := by
    simp [mdia]
    omega
  obtain ⟨info, hinfo⟩ := minf_written h
    (show (writeMinf tb chunkBase).length ≤ maxBoxSize by omega) (by omega)
  refine ⟨info, ?_⟩
  have hvisitMdia (fields : TrakFields) : visitTrak maxBoxSize fields
      ⟨fourcc "mdia", (writeBox "mdia" (mdia.flatMap (·.2))).drop 8⟩ =
        .ok { fields with
          timescale := tb.timescale
          mediaKind := kindRead tb.mediaKind
          sampleTable := some t
          info := info.getD fields.info } := by
    rw [writeBox_drop rfl]
    show forBoxes (visitMdia maxBoxSize) (boxIter maxBoxSize 0 (mdia.flatMap (·.2))) fields = _
    rw [forBoxes_boxes _ hmdia (by omega) (by omega)]
    have hmdhd : visitMdia maxBoxSize fields ⟨fourcc "mdhd", (writeMdhd tb).drop 8⟩ =
        .ok { fields with timescale := tb.timescale } :=
      congrArg Except.ok (visitMdhd_written fields hts)
    have hhdlr (fields : TrakFields) :
        visitMdia maxBoxSize fields ⟨fourcc "hdlr", (writeHdlr tb).drop 8⟩ =
          .ok { fields with mediaKind := kindRead tb.mediaKind } :=
      congrArg Except.ok (visitHdlr_written fields)
    have hminf (fields : TrakFields) :
        visitMdia maxBoxSize fields ⟨fourcc "minf", (writeMinf tb chunkBase).drop 8⟩ =
          .ok { fields with sampleTable := some t, info := info.getD fields.info } :=
      hinfo fields
    rw [visitBoxes_cons _ hmdhd, visitBoxes_cons _ (hhdlr _), visitBoxes_cons _ (hminf _)]
    rfl
  have htkhd : visitTrak maxBoxSize {} ⟨fourcc "tkhd", (writeTkhd tb trackId).drop 8⟩ =
      .ok { trackIdBox := some trackId, width := tb.width, height := tb.height } :=
    congrArg Except.ok (visitTkhd_written {} hid hwidth hheight)
  rw [heq, writeBox_drop rfl, forBoxes_boxes _ htrak (by omega) (by omega),
    visitBoxes_cons _ htkhd, visitBoxes_cons _ (hvisitMdia _)]
  rfl

end Trak

section Entries
variable {tb : TrackBuilder} {t : SampleTable} {n : Nat}

/-- How far a sample is shown after it is decoded, as the file has it. -/
def ctsOf (timescale : Nat) (s : TrackSampleRecord) : Int32 :=
  Int32.ofInt (clampCompositionOffset (usToTimescale (saturateI64 (s.ptsUs - s.dtsUs)) timescale))

/-- Sample `n` of a track as the reader finds it. -/
def entryRead (tb : TrackBuilder) (chunkBase n : Nat) (s : TrackSampleRecord) :
    SampleIndexEntry where
  offset := chunkBase + s.dataOffset
  size := UInt32.ofNat s.size
  dts := SampleTable.ticks ((tb.samples.map (ticksOf tb.timescale)).take n)
  ctsOffset := ctsOf tb.timescale s
  duration := ticksOf tb.timescale s
  isSync := tb.mediaKind ≠ .video ∨ s.isSync

theorem toInt32_written (v : Int) : (UInt32.ofNat (v % 2 ^ 32).toNat).toInt32 = Int32.ofInt v := by
  apply Int32.toBitVec_inj.mp
  apply BitVec.eq_of_toNat_eq
  show (UInt32.ofNat (v % 2 ^ 32).toNat).toNat = (BitVec.ofInt 32 v).toNat
  rw [UInt32.toNat_ofNat', BitVec.toNat_ofInt]
  exact Nat.mod_eq_of_lt (by omega)

theorem ctts_read (h : readBack tb chunkBase = .ok t) (hlt : tb.samples.length < 2 ^ 32)
    (hs : tb.samples[n]? = some s) :
    (expand t.cttsRuns)[n]?.getD 0 = ctsOf tb.timescale s := by
  obtain ⟨-, hctts, -⟩ := readBack_fields h
  rw [SampleTable.cttsRuns, hctts]
  unfold writeCttsIfNeeded
  split
  · let values := tb.samples.map fun s =>
      clampCompositionOffset (usToTimescale (saturateI64 (s.ptsUs - s.dtsUs)) tb.timescale)
    have hvalues : values.length < 2 ^ 32 := by simpa [values] using hlt
    rw [writeFullBox_payload rfl, parseCtts, if_neg (by simp [writeRuns])]
    have hexpand := expand_parsed values hvalues [1, 0, 0, 0] rfl UInt32.toInt32
    refine (congrArg (fun l : List Int32 => l[n]?.getD 0) hexpand).trans ?_
    simp only [values, List.map_map, List.getElem?_map, hs, Option.map_some, Option.getD_some,
      Function.comp_apply, toInt32_written]
    rfl
  · rename_i hnone
    have hsame : s.ptsUs = s.dtsUs := by
      by_contra hne
      exact hnone (List.any_eq_true.mpr ⟨s, List.mem_of_getElem? hs, by simpa using hne⟩)
    rw [ctsOf, hsame, Int.sub_self, show saturateI64 0 = 0 from rfl, usToTimescale, Int.zero_mul,
      Int.zero_tdiv]
    rfl

theorem sizes_read (h : readBack tb chunkBase = .ok t) (hlt : tb.samples.length < 2 ^ 32)
    (hs : tb.samples[n]? = some s) : t.sizeFor n = UInt32.ofNat s.size := by
  obtain ⟨-, -, -, -, hstsz, -⟩ := readBack_fields h
  let table := toBigEndian 4 tb.samples.length ++ tb.samples.flatMap fun s => toBigEndian 4 s.size
  have hpayload : (writeStsz tb).drop 8 = [0, 0, 0, 0] ++ (toBigEndian 4 0 ++ table) := by
    rw [writeStsz, writeFullBox_payload rfl, List.append_assoc]
    rfl
  have hdefault : u32At ((writeStsz tb).drop 8) 4 = 0 := by
    rw [hpayload]
    exact u32At_written rfl 0 table
  have hlong : ¬((writeStsz tb).drop 8).length < 12 := by
    rw [hpayload]
    simp [table]
    omega
  have hdrop : ((writeStsz tb).drop 8).drop 4 = toBigEndian 4 0 ++ table := by
    rw [hpayload]
    rfl
  have hsizes := parseTable_written (fun s : TrackSampleRecord => toBigEndian 4 s.size)
    (fun s => toBigEndian_length 4 s.size) (toBigEndian 4 0) rfl (u32At · 0) tb.samples hlt
  rw [parseStsz, if_neg hlong, hdefault, hdrop, hsizes] at hstsz
  obtain ⟨hzero, heq⟩ := Prod.mk.inj (Except.ok.inj hstsz)
  have hread := u32At_written (show ([] : Bytes).length = 0 from rfl) s.size []
  rw [List.nil_append, List.append_nil] at hread
  rw [SampleTable.sizeFor, ← hzero, if_neg (by simp), ← heq, List.getElem?_map, hs,
    Option.map_some, Option.getD_some, hread]

theorem le_foldl_max (l : List Nat) (m : Nat) : m ≤ l.foldl max m := by
  induction l generalizing m with
  | nil => exact Nat.le_refl m
  | cons a l ih => exact (Nat.le_max_left m a).trans (ih (max m a))

theorem mem_le_foldl_max {l : List Nat} (h : a ∈ l) (m : Nat) : a ≤ l.foldl max m := by
  induction l generalizing m with
  | nil => cases h
  | cons b l ih =>
    rcases List.mem_cons.mp h with rfl | hrest
    · exact (Nat.le_max_right m a).trans (le_foldl_max l _)
    · exact ih hrest _

section Offsets
variable {offsets : List Nat} (hlt : offsets.length < 2 ^ 32)
include hlt

theorem parseCo64_written (hfit : ∀ offset ∈ offsets, offset < 2 ^ 64) :
    ∃ stco, parseCo64 ((writeFullBox "co64" 0 0 (toBigEndian 4 offsets.length ++
      offsets.flatMap (toBigEndian 8))).drop 8) = .ok stco ∧ stco.map (·.toNat) = offsets := by
  have htable := parseTable_written (toBigEndian 8) (toBigEndian_length 8) [0, 0, 0, 0] rfl
    (fun entry => UInt64.ofNat (fromBigEndian entry)) offsets hlt
  rw [writeFullBox_payload rfl, parseCo64, if_neg (by simp), htable]
  refine ⟨_, rfl, ?_⟩
  rw [List.map_map]
  conv => rhs; rw [← List.map_id offsets]
  apply List.map_congr_left
  intro offset hoffset
  have hfit := hfit offset hoffset
  rw [Function.comp_apply, from_toBigEndian, UInt64.toNat_ofNat']
  exact (Nat.mod_mod_of_dvd _ (by decide)).trans (Nat.mod_eq_of_lt hfit)

theorem parseStco_written (hfit : ∀ offset ∈ offsets, offset < 2 ^ 32) :
    ∃ stco, parseStco ((writeFullBox "stco" 0 0 (toBigEndian 4 offsets.length ++
      offsets.flatMap (toBigEndian 4))).drop 8) = .ok stco ∧ stco.map (·.toNat) = offsets := by
  have htable := parseTable_written (toBigEndian 4) (toBigEndian_length 4) [0, 0, 0, 0] rfl
    (fun entry => (u32At entry 0).toUInt64) offsets hlt
  rw [writeFullBox_payload rfl, parseStco, if_neg (by simp), htable]
  refine ⟨_, rfl, ?_⟩
  rw [List.map_map]
  conv => rhs; rw [← List.map_id offsets]
  apply List.map_congr_left
  intro offset hoffset
  have hread := u32At_written (show ([] : Bytes).length = 0 from rfl) offset []
  rw [List.nil_append, List.append_nil] at hread
  rw [Function.comp_apply, hread, UInt32.toNat_toUInt64, UInt32.toNat_ofNat']
  exact Nat.mod_eq_of_lt (hfit offset hoffset)

end Offsets

theorem chunks_read (h : readBack tb chunkBase = .ok t) (hlt : tb.samples.length < 2 ^ 32)
    (hfit : ∀ s ∈ tb.samples, chunkBase + s.dataOffset < 2 ^ 64) :
    t.stco.map (·.toNat) = tb.samples.map fun s => chunkBase + s.dataOffset := by
  obtain ⟨-, -, -, -, -, hchunks⟩ := readBack_fields h
  have hoffsets : (tb.samples.map fun s => chunkBase + s.dataOffset).length < 2 ^ 32 := by
    rwa [List.length_map]
  unfold writeStcoOrCo64 parseChunkOffsets at hchunks
  dsimp only at hchunks
  split at hchunks
  · rw [if_pos (writeFullBox_fourcc rfl _)] at hchunks
    obtain ⟨stco, hparse, heq⟩ := parseCo64_written hoffsets (by simpa using hfit)
    rw [← Except.ok.inj (hparse.symm.trans hchunks), heq]
  · rename_i hsmall
    rw [if_neg (by rw [writeFullBox_fourcc rfl]; decide)] at hchunks
    obtain ⟨stco, hparse, heq⟩ := parseStco_written hoffsets fun offset hoffset =>
      Nat.lt_of_le_of_lt (mem_le_foldl_max hoffset 0) (Nat.lt_of_not_le hsmall)
    rw [← Except.ok.inj (hparse.symm.trans hchunks), heq]

theorem sync_read (h : readBack tb chunkBase = .ok t) (hlt : tb.samples.length < 2 ^ 32)
    (hs : tb.samples[n]? = some s) (place : Nat × Nat) :
    (t.isoEntry n place).isSync = decide (tb.mediaKind ≠ .video ∨ s.isSync) := by
  obtain ⟨-, -, hstss, -⟩ := readBack_fields h
  unfold SampleTable.isoEntry
  unfold writeStssIfNeeded at hstss
  split at hstss
  · rename_i hkind
    rw [hstss, if_pos rfl]
    simp [hkind]
  · rename_i hkind
    let sync := tb.samples.zipIdx.filterMap fun p => if p.1.isSync then some (p.2 + 1) else none
    have hsync (i : Nat) : i ∈ sync ↔ ∃ s n, tb.samples[n]? = some s ∧ s.isSync ∧ n + 1 = i := by
      simp only [sync, List.mem_filterMap, List.mem_zipIdx_iff_getElem?, Prod.exists,
        Option.ite_none_right_eq_some, Option.some.injEq]
    have hlength : sync.length < 2 ^ 32 := by
      have hle := List.length_filterMap_le (l := tb.samples.zipIdx)
        (f := fun p => if p.1.isSync then some (p.2 + 1) else none)
      rw [List.length_zipIdx] at hle
      exact Nat.lt_of_le_of_lt hle hlt
    have htable := parseTable_written (toBigEndian 4) (toBigEndian_length 4) [0, 0, 0, 0] rfl
      (u32At · 0) sync hlength
    have hparse : parseStss ((writeFullBox "stss" 0 0 (toBigEndian 4 sync.length ++
        sync.flatMap (toBigEndian 4))).drop 8) = sync.map UInt32.ofNat := by
      rw [writeFullBox_payload rfl, parseStss, if_neg (by simp), htable]
      apply List.map_congr_left
      intro i _
      have hread := u32At_written (show ([] : Bytes).length = 0 from rfl) i []
      rwa [List.nil_append, List.append_nil] at hread
    rw [hstss, if_neg (by simp [writeFullBox, writeBox, toBigEndian])]
    dsimp only
    rw [hparse, Bool.eq_iff_iff, List.any_eq_true, decide_eq_true_iff,
      or_iff_right hkind]
    have hnumber (m : Nat) (hm : m < tb.samples.length) : (UInt32.ofNat (m + 1)).toNat = m + 1 := by
      rw [UInt32.toNat_ofNat', Nat.mod_eq_of_lt (by omega)]
    constructor
    · rintro ⟨number, hmem, heq⟩
      obtain ⟨i, hi, rfl⟩ := List.mem_map.mp hmem
      obtain ⟨s', m, hm, hs', rfl⟩ := (hsync i).mp hi
      rw [decide_eq_true_iff, hnumber m (List.getElem?_eq_some_iff.mp hm).1,
        Nat.succ.injEq] at heq
      rw [heq, hs] at hm
      exact Option.some.inj hm ▸ hs'
    · intro hsyncd
      refine ⟨UInt32.ofNat (n + 1), List.mem_map_of_mem ((hsync _).mpr ⟨s, n, hs, hsyncd, rfl⟩), ?_⟩
      rw [hnumber n (List.getElem?_eq_some_iff.mp hs).1, decide_eq_true_iff]

/-- What the reader knows of a track that the writer wrote. -/
def indexRead (tb : TrackBuilder) (trackId chunkBase : Nat) : SampleIndex where
  trackId
  timescale := tb.timescale
  samples := tb.samples.zipIdx.map fun (s, n) => entryRead tb chunkBase n s
  duration := SampleTable.ticks (tb.samples.map (ticksOf tb.timescale))

theorem isoIndex_read (trackId chunkBase : Nat) (hlt : tb.samples.length < 2 ^ 32)
    (hfit : ∀ s ∈ tb.samples, chunkBase + s.dataOffset < 2 ^ 64) :
    ∃ t, readBack tb chunkBase = .ok t ∧ t.Consistent ∧ t.OffsetsFit ∧
      t.places.length = tb.samples.length ∧
      { t.isoIndex tb.timescale with trackId } = indexRead tb trackId chunkBase := by
  obtain ⟨t, hread, hconsistent, hfits, hplaces, hexpand⟩ := readBack_consistent tb chunkBase hlt
  refine ⟨t, hread, hconsistent, hfits, hplaces, ?_⟩
  have hstsc : t.stsc = [⟨1, 1, 1⟩] := by
    obtain ⟨-, -, -, hstsc, -⟩ := readBack_fields hread
    exact (Except.ok.inj (parseStsc_written.symm.trans hstsc)).symm
  have hchunks := chunks_read hread hlt hfit
  have hsamples : (t.isoIndex tb.timescale).samples =
      tb.samples.zipIdx.map fun (s, n) => entryRead tb chunkBase n s := by
    apply List.ext_getElem?
    intro n
    rw [SampleTable.isoIndex, List.getElem?_map, List.getElem?_map, List.getElem?_zipIdx,
      List.getElem?_zipIdx, Option.map_map, Option.map_map, places_single hstsc]
    have hchunk := congrArg (fun l : List Nat => l[n]?) hchunks
    rw [List.getElem?_map, List.getElem?_map] at hchunk
    cases hs : tb.samples[n]? with
    | none =>
      rw [hs] at hchunk
      rw [List.getElem?_map, Option.map_eq_none_iff.mp hchunk]
      rfl
    | some s =>
      rw [hs] at hchunk
      obtain ⟨chunk, hchunk, hoffset⟩ := Option.map_eq_some_iff.mp hchunk
      have hbytes (m : Nat) : t.bytesOf m 0 = 0 := rfl
      have hduration : (tb.samples.map (ticksOf tb.timescale))[n]?.getD 0 =
          ticksOf tb.timescale s := by
        rw [List.getElem?_map, hs]
        rfl
      rw [List.getElem?_map, hchunk]
      simp only [Option.map_some, Function.comp_apply, Nat.zero_add, entryRead,
        ← sync_read hread hlt hs (chunk.toNat, 0), ← hduration, ← ctts_read hread hlt hs,
        ← sizes_read hread hlt hs, ← hoffset, ← hexpand, SampleTable.isoEntry, hbytes, Nat.add_zero]
  rw [indexRead, ← hsamples, SampleTable.isoIndex, hexpand]

/-- The track as the reader describes it. -/
def trackRead (tb : TrackBuilder) (trackId : Nat) (info : StsdInfo) : TrackInfo :=
  { TrackInfo.new trackId (kindRead tb.mediaKind) info.codec (max tb.timescale 1) with
    width := if 0 < tb.width then some tb.width else none
    height := if 0 < tb.height then some tb.height else none
    sampleRate := info.sampleRate
    channels := info.channels
    extradata := info.extradata }.refreshReadiness

/-- The reader finds a track of the writer, and its samples where they were put. -/
theorem parseTrak_written (hid : trackId < 2 ^ 32) (hwidth : tb.width < 2 ^ 16)
    (hheight : tb.height < 2 ^ 16) (hts : tb.timescale < 2 ^ 32) (hpositive : 0 < tb.timescale)
    (hsamples : tb.samples.length ≤ SampleTable.MAX_SAMPLES)
    (hfit : ∀ s ∈ tb.samples, chunkBase + s.dataOffset < 2 ^ 64)
    (hmax : (writeTrak tb trackId chunkBase).length ≤ maxBoxSize)
    (hword : (writeTrak tb trackId chunkBase).length < 2 ^ 32) :
    ∃ track : TrackInfo, track.trackId = trackId ∧ track.mediaKind = kindRead tb.mediaKind ∧
      track.clockRate = tb.timescale ∧ ∀ trackIdDefault,
        parseTrak maxBoxSize trackIdDefault ((writeTrak tb trackId chunkBase).drop 8) =
          .ok (.ok (track, indexRead tb trackId chunkBase)) := by
  have hlt : tb.samples.length < 2 ^ 32 := by
    unfold SampleTable.MAX_SAMPLES at hsamples
    omega
  obtain ⟨t, hread, hconsistent, hfits, hplaces, hindex⟩ :=
    isoIndex_read trackId chunkBase hlt hfit
  obtain ⟨info, hfields⟩ := trak_written hread hid hwidth hheight hts hmax hword
  have hbuilt := SampleTable.buildIndex_eq hconsistent (by rwa [hplaces]) hfits tb.timescale
  refine ⟨trackRead tb trackId (info.getD { codec := .unknown }), rfl, rfl,
    Nat.max_eq_left hpositive, fun _ => ?_⟩
  rw [parseTrak, hfields]
  show (t.buildIndex (max tb.timescale 1) >>= _) = _
  rw [Nat.max_eq_left hpositive, hbuilt, ← hindex]
  rfl

end Entries

end CheetahMedia.Codec.Mp4
