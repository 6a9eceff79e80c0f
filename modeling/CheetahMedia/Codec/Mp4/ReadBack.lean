import CheetahMedia.Codec.Mp4.Index
import CheetahMedia.Codec.Mp4.Reader

namespace CheetahMedia.Codec.Mp4
open Lib Lib.Checked Lib.RunLength Mp4File

/-- The box with the chunk offsets has one of two names. -/
def parseChunkOffsets (box : Bytes) : Except Mp4Error (List UInt64) :=
  if (box.drop 4).take 4 = fourcc "co64" then parseCo64 (box.drop 8) else parseStco (box.drop 8)

/-- The tables that the reader finds in the boxes that the writer made of a track. -/
def readBack (tb : TrackBuilder) (chunkBase : Nat) : Except Mp4Error SampleTable := do
  let payloadOf (box : Bytes) : Bytes := box.drop 8
  let stss := writeStssIfNeeded tb
  let (stszDefault, stszSizes) ← parseStsz (payloadOf (writeStsz tb))
  return {
    stts := ← parseStts (payloadOf (writeStts tb))
    ctts := parseCtts (payloadOf (writeCttsIfNeeded tb))
    stss := if stss.isEmpty then none else some (parseStss (payloadOf stss))
    stsc := ← parseStsc (payloadOf writeStsc)
    stszDefault, stszSizes
    stco := ← parseChunkOffsets (writeStcoOrCo64 tb chunkBase) }

theorem u32At_written {pre : Bytes} (hpre : pre.length = offset) (n : Nat) (post : Bytes) :
    u32At (pre ++ (toBigEndian 4 n ++ post)) offset = UInt32.ofNat n := by
  rw [u32At, List.drop_left' hpre, List.take_left' (by simp), from_toBigEndian]
  apply UInt32.toNat_inj.mp
  rw [UInt32.toNat_ofNat', UInt32.toNat_ofNat']
  exact Nat.mod_mod_of_dvd n (dvd_refl _)

theorem tableEntries_written {enc : β → Bytes} (henc : ∀ e, (enc e).length = width)
    (entries : List β) : tableEntries width entries.length (entries.flatMap enc) =
      entries.map enc := by
  induction entries with
  | nil => rfl
  | cons e entries ih =>
    rw [List.length_cons, tableEntries, List.flatMap_cons, List.take_left' (henc e),
      List.drop_left' (henc e), ih, if_neg (by simp [henc e])]
    rfl

/-- A table is read back with the number of entries that it was written with. -/
theorem parseTable_written (enc : β → Bytes) (henc : ∀ e, (enc e).length = width) (header : Bytes)
    (hheader : header.length = 4) (read : Bytes → α) (entries : List β)
    (hlt : entries.length < 2 ^ 32) :
    parseTable width read (header ++ (toBigEndian 4 entries.length ++ entries.flatMap enc)) =
      entries.map fun e => read (enc e) := by
  rw [parseTable, u32At_written hheader, UInt32.toNat_ofNat', Nat.mod_eq_of_lt hlt,
    ← List.append_assoc, List.drop_left' (by simp [hheader]), tableEntries_written henc,
    List.map_map]
  rfl

/-- What a table of runs says after it is written with 32 bits for a value. -/
theorem parseRuns_written (values : List Int) (header : Bytes) (hheader : header.length = 4)
    (hlt : (runs values).length < 2 ^ 32) (of : UInt32 → α) :
    parseTable 8 (fun entry => (u32At entry 0, of (u32At entry 4))) (header ++ writeRuns values) =
      (runs values).map fun r => (UInt32.ofNat r.1, of (UInt32.ofNat (r.2 % 2 ^ 32).toNat)) := by
  have henc (r : Nat × Int) :
      (toBigEndian 4 r.1 ++ toBigEndian 4 (r.2 % 2 ^ 32).toNat).length = 8 := by simp
  rw [writeRuns, parseTable_written _ henc header hheader _ _ hlt]
  apply List.map_congr_left
  intro r _
  have hcount : u32At ([] ++ (toBigEndian 4 r.1 ++ toBigEndian 4 (r.2 % 2 ^ 32).toNat)) 0 =
      UInt32.ofNat r.1 := u32At_written rfl _ _
  have hvalue : u32At (toBigEndian 4 r.1 ++ (toBigEndian 4 (r.2 % 2 ^ 32).toNat ++ [])) 4 =
      UInt32.ofNat (r.2 % 2 ^ 32).toNat := u32At_written (by simp) _ _
  rw [List.append_nil] at hvalue
  rw [hvalue]
  exact congrArg (fun c => (c, _)) hcount

/-- Counting equal neighbours loses nothing. -/
theorem expand_runs (values : List Int) : expand (runs values) = values := by
  induction values with
  | nil => rfl
  | cons v values ih =>
    rw [runs]
    split
    · rename_i n y rest heq
      rw [heq] at ih
      split
      · rename_i hv
        rw [← ih, hv]
        rfl
      · rw [← ih]
        rfl
    · rename_i heq
      rw [heq] at ih
      rw [← ih]
      rfl

theorem runs_length_le (values : List Int) : (runs values).length ≤ values.length := by
  induction values with
  | nil => exact Nat.le_refl 0
  | cons v values ih =>
    rw [runs]
    split
    · rename_i n y rest heq
      rw [heq] at ih
      split
      · exact ih.trans (Nat.le_succ _)
      · exact Nat.succ_le_succ ih
    · exact Nat.succ_le_succ (Nat.zero_le _)

theorem run_count_le (values : List Int) (h : r ∈ runs values) : r.1 ≤ values.length := by
  have hexpand := congrArg List.length (expand_runs values)
  obtain ⟨before, after, heq⟩ := List.append_of_mem h
  rw [heq, expand, List.flatMap_append, List.flatMap_cons, List.length_append, List.length_append,
    List.length_replicate] at hexpand
  omega

/-- The runs that are read expand to the values, each as its 32 bits are read. -/
theorem expand_parsed (values : List Int) (hlt : values.length < 2 ^ 32) (header : Bytes)
    (hheader : header.length = 4) (of : UInt32 → α) :
    expand ((parseTable 8 (fun entry => (u32At entry 0, of (u32At entry 4)))
        (header ++ writeRuns values)).map fun r => (r.1.toNat, r.2)) =
      values.map fun v => of (UInt32.ofNat (v % 2 ^ 32).toNat) := by
  rw [parseRuns_written values header hheader ((runs_length_le values).trans_lt hlt) of]
  conv => rhs; rw [← expand_runs values]
  unfold expand
  rw [List.map_map, List.flatMap_map, List.map_flatMap]
  apply List.flatMap_congr
  intro r hr
  have hcount := run_count_le values hr
  simp only [Function.comp_apply, UInt32.toNat_ofNat', List.map_replicate]
  rw [Nat.mod_eq_of_lt (by omega)]

/-- The duration of a sample, as the file has it. -/
def ticksOf (timescale : Nat) (s : TrackSampleRecord) : UInt32 :=
  UInt32.ofNat (clampU32 (usToTimescale s.durationUs timescale))

theorem clampU32_lt (n : Int) : clampU32 n < 2 ^ 32 := by
  unfold clampU32
  omega

theorem parseStts_written (tb : TrackBuilder) (hlt : tb.samples.length < 2 ^ 32) :
    ∃ stts, parseStts ((writeStts tb).drop 8) = .ok stts ∧
      expand (stts.map fun r => (r.1.toNat, r.2)) = tb.samples.map (ticksOf tb.timescale) := by
  let values := tb.samples.map fun s => (clampU32 (usToTimescale s.durationUs tb.timescale) : Int)
  have hvalues : values.length < 2 ^ 32 := by simpa [values] using hlt
  rw [writeStts, writeFullBox_payload rfl, parseStts, if_neg (by simp [writeRuns])]
  refine ⟨_, rfl, ?_⟩
  refine (expand_parsed values hvalues [0, 0, 0, 0] rfl id).trans ?_
  rw [List.map_map]
  apply List.map_congr_left
  intro s _
  have hfit := clampU32_lt (usToTimescale s.durationUs tb.timescale)
  simp only [Function.comp_apply, id, ticksOf]
  congr 1
  omega

theorem parseCtts_written (tb : TrackBuilder) (hlt : tb.samples.length < 2 ^ 32)
    (hne : parseCtts ((writeCttsIfNeeded tb).drop 8) ≠ []) :
    (expand ((parseCtts ((writeCttsIfNeeded tb).drop 8)).map fun r => (r.1.toNat, r.2))).length =
      tb.samples.length := by
  unfold writeCttsIfNeeded at hne ⊢
  split at hne
  · rename_i hneeded
    rw [if_pos hneeded]
    let values := tb.samples.map fun s =>
      clampCompositionOffset (usToTimescale (saturateI64 (s.ptsUs - s.dtsUs)) tb.timescale)
    have hvalues : values.length < 2 ^ 32 := by simpa [values] using hlt
    rw [writeFullBox_payload rfl, parseCtts, if_neg (by simp [writeRuns])]
    exact (congrArg List.length (expand_parsed values hvalues [1, 0, 0, 0] rfl _)).trans
      (by simp [values])
  · exact absurd rfl hne

theorem parseStsz_written (tb : TrackBuilder) (hlt : tb.samples.length < 2 ^ 32) :
    ∃ sizes, parseStsz ((writeStsz tb).drop 8) = .ok (0, sizes) ∧
      sizes.length = tb.samples.length := by
  let table := toBigEndian 4 tb.samples.length ++ tb.samples.flatMap fun s => toBigEndian 4 s.size
  have hpayload : (writeStsz tb).drop 8 = [0, 0, 0, 0] ++ (toBigEndian 4 0 ++ table) := by
    rw [writeStsz, writeFullBox_payload rfl, List.append_assoc]
    rfl
  have hdefault : u32At ((writeStsz tb).drop 8) 4 = 0 := by
    rw [hpayload]
    exact u32At_written rfl 0 table
  have hsizes := parseTable_written (fun s : TrackSampleRecord => toBigEndian 4 s.size)
    (fun s => toBigEndian_length 4 s.size) (toBigEndian 4 0) rfl (u32At · 0) tb.samples hlt
  refine ⟨parseTable 4 (u32At · 0) (((writeStsz tb).drop 8).drop 4), ?_, ?_⟩
  · have hlong : ¬((writeStsz tb).drop 8).length < 12 := by
      rw [hpayload]
      simp [table]
      omega
    rw [parseStsz, if_neg hlong, hdefault]
    rfl
  · have hdrop : ((writeStsz tb).drop 8).drop 4 = toBigEndian 4 0 ++ table := by
      rw [hpayload]
      rfl
    rw [hdrop, hsizes, List.length_map]

theorem parseStsc_written : parseStsc (writeStsc.drop 8) = .ok [⟨1, 1, 1⟩] := by
  decide +kernel

/-- One chunk for every sample. -/
theorem parseChunks_written (tb : TrackBuilder) (chunkBase : Nat)
    (hlt : tb.samples.length < 2 ^ 32) :
    ∃ stco, parseChunkOffsets (writeStcoOrCo64 tb chunkBase) = .ok stco ∧
      stco.length = tb.samples.length := by
  let offsets := tb.samples.map fun s => chunkBase + s.dataOffset
  have hoffsets : offsets.length < 2 ^ 32 := by simpa [offsets] using hlt
  have hlength : offsets.length = tb.samples.length := by simp [offsets]
  have hbox (name : String) (width : Nat) (hname : (fourcc name).length = 4) :
      (writeFullBox name 0 0 (toBigEndian 4 offsets.length ++
        offsets.flatMap (toBigEndian width))).drop 8 =
          [0, 0, 0, 0] ++ (toBigEndian 4 offsets.length ++ offsets.flatMap (toBigEndian width)) ∧
      ((writeFullBox name 0 0 (toBigEndian 4 offsets.length ++
        offsets.flatMap (toBigEndian width))).drop 4).take 4 = fourcc name := by
    refine ⟨writeFullBox_payload hname 0 _, ?_⟩
    rw [writeFullBox, writeBox, List.append_assoc, List.drop_left' (by simp),
      List.take_left' hname]
  unfold writeStcoOrCo64 parseChunkOffsets
  dsimp only
  split
  · obtain ⟨hpayload, hname⟩ := hbox "co64" 8 rfl
    have htable := parseTable_written (toBigEndian 8) (toBigEndian_length 8) [0, 0, 0, 0] rfl
      (fun entry => UInt64.ofNat (fromBigEndian entry)) offsets hoffsets
    rw [if_pos hname, hpayload, parseCo64, if_neg (by simp), htable]
    exact ⟨_, rfl, by rw [List.length_map, hlength]⟩
  · obtain ⟨hpayload, hname⟩ := hbox "stco" 4 rfl
    have htable := parseTable_written (toBigEndian 4) (toBigEndian_length 4) [0, 0, 0, 0] rfl
      (fun entry => (u32At entry 0).toUInt64) offsets hoffsets
    rw [if_neg (by rw [hname]; decide), hpayload, parseStco, if_neg (by simp), htable]
    exact ⟨_, rfl, by rw [List.length_map, hlength]⟩

section Single
variable {t : SampleTable} {n : Nat}

theorem places_single (hstsc : t.stsc = [⟨1, 1, 1⟩]) :
    t.places = t.stco.map fun chunkOff => (chunkOff.toNat, 0) := by
  have hone (i : Nat) : t.samplesInChunk (i + 1) = 1 := by
    simp [SampleTable.samplesInChunk, hstsc]
  unfold SampleTable.places SampleTable.placesIn
  simp only [hone, List.range_one, List.map_singleton]
  rw [← List.map_eq_flatMap]
  conv => rhs; rw [← List.zipIdx_map_fst 0 t.stco, List.map_map]
  rfl

/-- Tables with a chunk for every sample. -/
theorem consistent_single (hstsc : t.stsc = [⟨1, 1, 1⟩]) (hstco : t.stco.length = n)
    (hn : n < 2 ^ 32) (hstts : (expand t.sttsRuns).length = n)
    (hctts : t.ctts ≠ [] → (expand t.cttsRuns).length = n) (hsizes : t.stszSizes.length = n) :
    t.Consistent := by
  have hplaces : t.places.length = n := by rw [places_single hstsc, List.length_map, hstco]
  refine ⟨?_, ?_, by rwa [hstco], hstts.trans hplaces.symm, fun h => (hctts h).trans hplaces.symm,
    fun _ => hsizes.trans hplaces.symm⟩
  · rw [hstsc]
    rintro entry ⟨⟩
    rfl
  · rw [hstsc]
    exact List.pairwise_singleton _ _

theorem offsetsFit_single (h : t.Consistent) (hstsc : t.stsc = [⟨1, 1, 1⟩]) : t.OffsetsFit := by
  intro n place _ hplace
  rw [SampleTable.walked_eq h, places_single hstsc, List.getElem?_map,
    Option.map_eq_some_iff] at hplace
  obtain ⟨chunkOff, -, rfl⟩ := hplace
  exact chunkOff.toNat_lt

end Single

/-- The tables that are read agree on the samples of the track. -/
theorem readBack_consistent (tb : TrackBuilder) (chunkBase : Nat)
    (hlt : tb.samples.length < 2 ^ 32) :
    ∃ t, readBack tb chunkBase = .ok t ∧ t.Consistent ∧ t.OffsetsFit ∧
      t.places.length = tb.samples.length ∧
      expand t.sttsRuns = tb.samples.map (ticksOf tb.timescale) := by
  obtain ⟨stts, hstts, hexpand⟩ := parseStts_written tb hlt
  obtain ⟨sizes, hstsz, hsizes⟩ := parseStsz_written tb hlt
  obtain ⟨stco, hstco, hchunks⟩ := parseChunks_written tb chunkBase hlt
  let t : SampleTable :=
    { stts, ctts := parseCtts ((writeCttsIfNeeded tb).drop 8)
      stss := if (writeStssIfNeeded tb).isEmpty then none
        else some (parseStss ((writeStssIfNeeded tb).drop 8))
      stsc := [⟨1, 1, 1⟩], stszDefault := 0, stszSizes := sizes, stco }
  have hread : readBack tb chunkBase = .ok t := by
    unfold readBack
    dsimp only
    rw [hstsz, hstts, parseStsc_written, hstco]
    rfl
  have hlength : (expand t.sttsRuns).length = tb.samples.length := by
    rw [SampleTable.sttsRuns, hexpand, List.length_map]
  have hconsistent : t.Consistent :=
    consistent_single rfl hchunks hlt hlength (parseCtts_written tb hlt) hsizes
  exact ⟨t, hread, hconsistent, offsetsFit_single hconsistent rfl,
    by rw [places_single rfl, List.length_map, hchunks], hexpand⟩

end CheetahMedia.Codec.Mp4
