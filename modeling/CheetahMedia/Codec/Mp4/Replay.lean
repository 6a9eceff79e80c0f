import CheetahMedia.Codec.Mp4.Playback
import CheetahMedia.Codec.Mp4.Recorded

namespace CheetahMedia.Codec

namespace Mp4Writer
open Lib Lib.Checked

def Pushed.media (s : Pushed) : MediaSample := ⟨s.dtsUs, s.ptsUs, s.isSync, s.data⟩

/-- The samples of a track: each goes to the first track with its number. -/
def givenTo (tracks : List TrackInfo) (samples : List Pushed) (i : Nat) : List Pushed :=
  samples.filter fun s => tracks.findIdx? (·.trackId = s.trackId) = some i

theorem givenTo_append (tracks : List TrackInfo) (samples : List Pushed) (s : Pushed) (i : Nat) :
    givenTo tracks (samples ++ [s]) i = givenTo tracks samples i ++
      (if tracks.findIdx? (·.trackId = s.trackId) = some i then [s] else []) := by
  rw [givenTo, List.filter_append, givenTo]
  congr 1
  by_cases h : tracks.findIdx? (·.trackId = s.trackId) = some i <;> simp [h]

/-- Every track has the samples that it was given, each where it lies in the payload. -/
structure Placed (w : Mp4Writer) (tracks : List TrackInfo) (given : List Pushed) : Prop where
  holds : w.Holds tracks (given.map fun s => (s.trackId, s.media))
  samples : ∀ i tb, w.tracks[i]? = some tb →
    tb.samples.map (sampleAt w.payload) = (givenTo tracks given i).map Pushed.media

variable {config : Mp4WriterConfig} {w w' : Mp4Writer} {tracks : List TrackInfo}
  {given samples : List Pushed} {s : Pushed}

theorem placed_new (h : Mp4Writer.new config tracks = .ok w) : w.Placed tracks [] := by
  refine ⟨.new h, fun i tb htb => ?_⟩
  unfold Mp4Writer.new at h
  split at h
  · cases h
  · cases h
    rw [List.getElem?_map, Option.map_eq_some_iff] at htb
    obtain ⟨track, -, rfl⟩ := htb
    rfl

theorem Holds.trackIds {given : List (Nat × MediaSample)} (h : Holds w tracks given) :
    w.tracks.map (·.trackId) = tracks.map (·.trackId) := by
  have hids := congrArg (List.map TrackBuilder.trackId) h.entries
  rwa [List.map_map, List.map_map] at hids

theorem findIdx_first {before after : List TrackBuilder} (htb : tb.trackId = trackId)
    (hbefore : ∀ other ∈ before, other.trackId ≠ trackId)
    (htracks : (before ++ tb :: after).map (·.trackId) = tracks.map (·.trackId)) :
    tracks.findIdx? (·.trackId = trackId) = some before.length := by
  have hids : tracks.findIdx? (·.trackId = trackId) =
      (before ++ tb :: after).findIdx? (·.trackId = trackId) := by
    have h := congrArg (List.findIdx? (· = trackId)) htracks
    rw [List.findIdx?_map, List.findIdx?_map] at h
    exact h.symm
  have hnone : before.findIdx? (·.trackId = trackId) = none := by
    simpa [List.findIdx?_eq_none_iff] using hbefore
  rw [hids, List.findIdx?_append, hnone]
  simp [List.findIdx?_cons, htb]

/-- One more sample lies behind those of its track. -/
theorem Placed.pushSample (h : w.Placed tracks given)
    (hok : w.pushSample s.trackId s.dtsUs s.ptsUs s.isSync s.data = .ok w') :
    w'.Placed tracks (given ++ [s]) := by
  have hholds := h.holds.pushSample hok
  refine ⟨by rwa [List.map_append], fun i tb' htb' => ?_⟩
  unfold Mp4Writer.pushSample at hok
  split at hok
  · cases hok
  split at hok
  · cases hok
  rename_i pushed hpush
  cases hok
  obtain ⟨before, tb, after, htracks, hid, hbefore, rfl⟩ := pushTo_some hpush
  have hwithin := h.holds.within
  have hfirst := findIdx_first hid hbefore (htracks ▸ h.holds.trackIds)
  have hold (other : TrackBuilder) (hother : w.tracks[i]? = some other) :
      other.samples.map (sampleAt (w.payload ++ s.data)) =
        (givenTo tracks given i).map Pushed.media := by
    rw [← h.samples i other hother]
    exact List.map_congr_left fun record hrecord =>
      sampleAt_append s.data (hwithin other (List.mem_of_getElem? hother) record hrecord)
  rw [givenTo_append, hfirst, List.map_append]
  by_cases hi : before.length = i
  · subst hi
    rw [List.getElem?_append_right (Nat.le_refl _), Nat.sub_self] at htb'
    obtain rfl := Option.some.inj htb'
    have htb : w.tracks[before.length]? = some tb := by
      rw [htracks, List.getElem?_append_right (Nat.le_refl _), Nat.sub_self]
      rfl
    rw [if_pos rfl, ← hold tb htb]
    simp only [TrackBuilder.push, List.map_append, List.map_cons, List.map_nil]
    rw [tb.map_patchLast _ fun _ _ => rfl]
    congr 2
    simp [sampleAt, Pushed.media]
  · rw [if_neg (by simpa using hi), List.map_nil, List.append_nil]
    apply hold
    rw [htracks, ← htb']
    rcases Nat.lt_or_gt_of_ne hi with hlt | hgt
    · obtain ⟨j, rfl⟩ := Nat.exists_eq_add_of_lt hlt
      rw [List.getElem?_append_right (by omega), List.getElem?_append_right (by omega),
        show before.length + j + 1 - before.length = j + 1 by omega]
      rfl
    · rw [List.getElem?_append_left hgt, List.getElem?_append_left hgt]

theorem placed_pushAll (h : w.Placed tracks given) (hok : w.pushAll samples = .ok w') :
    w'.Placed tracks (given ++ samples) := by
  induction samples generalizing w given with
  | nil =>
    cases hok
    rwa [List.append_nil]
  | cons s samples ih =>
    rw [Mp4Writer.pushAll, List.foldlM_cons] at hok
    cases hpush : w.pushSample s.trackId s.dtsUs s.ptsUs s.isSync s.data with
    | error e =>
      rw [hpush] at hok
      cases hok
    | ok w₁ =>
      rw [hpush] at hok
      rw [List.append_cons]
      exact ih (h.pushSample hpush) hok

/-- What a finished file has for what the writer was given. -/
structure Recorded (file : Mp4File) (tracks : List TrackInfo) (samples : List Pushed) : Prop where
  entries : file.tracks.map TrackBuilder.entry = tracks.map TrackBuilder.new
  within : Within file.tracks file.payload
  samples : ∀ i tb, file.tracks[i]? = some tb →
    tb.samples.map (sampleAt file.payload) = (givenTo tracks samples i).map Pushed.media
  nonempty : file.tracks ≠ []

theorem recorded_of_writes (h : Writes config tracks samples file) :
    Recorded file tracks samples := by
  obtain ⟨w, w', hnew, hpush, hfinalize⟩ := h
  have hplaced := placed_pushAll (placed_new hnew) hpush
  unfold Mp4Writer.finalize at hfinalize
  split at hfinalize
  · cases hfinalize
  · cases hfinalize
    refine ⟨?_, fun tb htb record hrecord => ?_, fun i tb htb => ?_, ?_⟩
    · rw [← hplaced.holds.entries, List.map_map]
      exact List.map_congr_left fun tb _ => tb.entry_close
    · obtain ⟨open_, hopen, rfl⟩ := List.mem_map.mp htb
      have hend := List.mem_map_of_mem (f := fun r => r.dataOffset + r.size) hrecord
      rw [TrackBuilder.close, open_.map_patchLast _ fun _ _ => rfl] at hend
      obtain ⟨old, hold, heq⟩ := List.mem_map.mp hend
      exact heq ▸ hplaced.holds.within open_ hopen old hold
    · rw [List.getElem?_map, Option.map_eq_some_iff] at htb
      obtain ⟨open_, hopen, rfl⟩ := htb
      rw [TrackBuilder.close, open_.map_patchLast _ fun _ _ => rfl]
      exact hplaced.samples i open_ hopen
    · intro hnil
      have hentries := hplaced.holds.entries
      rw [List.map_eq_nil_iff.mp hnil, List.map_nil] at hentries
      rw [Mp4Writer.new, List.map_eq_nil_iff.mp hentries.symm] at hnew
      cases hnew

/-- The fields of a track are words of the widths that the format has for them. -/
theorem Recorded.shape (h : Recorded file tracks samples) (htb : tb ∈ file.tracks) :
    tb.width < 2 ^ 16 ∧ tb.height < 2 ^ 16 ∧ 0 < tb.timescale := by
  have hentry := List.mem_map_of_mem (f := TrackBuilder.entry) htb
  rw [h.entries] at hentry
  obtain ⟨track, -, heq⟩ := List.mem_map.mp hentry
  show tb.entry.width < _ ∧ tb.entry.height < _ ∧ 0 < tb.entry.timescale
  rw [← heq]
  exact ⟨Nat.mod_lt _ (by decide), Nat.mod_lt _ (by decide),
    Nat.lt_of_lt_of_le Nat.zero_lt_one (Nat.le_max_right _ _)⟩

end Mp4Writer

namespace Mp4
open Lib Lib.Checked Mp4File Mp4Reader

/-- What the reader and the words of the format have room for. The clock rates are words of 32 bits
in the source. -/
structure Fits (config : Mp4ReaderConfig) (file : Mp4File) : Prop where
  scanned : file.encode.length ≤ config.maxTopLevelScan
  boxes : file.encode.length ≤ config.maxBoxBytes
  word : file.encode.length < 2 ^ 32
  samples : ∀ tb ∈ file.tracks, tb.samples.length ≤ SampleTable.MAX_SAMPLES
  timescales : ∀ tb ∈ file.tracks, tb.timescale < 2 ^ 32

/-- Where the samples of a file start. -/
def chunkBase (file : Mp4File) : Nat :=
  (writeFtyp file.majorBrand ++ mdatHeader file.payload.length).length

/-- The indices that the reader makes of a file. -/
def indicesRead (file : Mp4File) : List SampleIndex :=
  file.tracks.zipIdx.map fun (tb, i) => indexRead tb (i + 1) (chunkBase file)

/-- What the reader says of a track before its samples. -/
structure Announced (tb : TrackBuilder) (i : Nat) (track : TrackInfo) : Prop where
  trackId : track.trackId = i + 1
  mediaKind : track.mediaKind = kindRead tb.mediaKind
  clockRate : track.clockRate = tb.timescale

section File
variable {config : Mp4ReaderConfig} {file : Mp4File} {tracks : List TrackInfo}
  {samples : List Mp4Writer.Pushed}

/-- The boxes of the `moov` box of a file. -/
def moovBoxes (file : Mp4File) : List (String × Bytes) :=
  ("mvhd", writeMvhd file.tracks) ::
    file.tracks.zipIdx.map fun (tb, i) => ("trak", writeTrak tb (i + 1) (chunkBase file))

theorem boxed_moov (file : Mp4File) : ∀ b ∈ moovBoxes file, Boxed b.1 b.2 := by
  have hmvhd : Boxed "mvhd" (writeMvhd file.tracks) := boxed_full rfl _ _ _
  have htrak (tb : TrackBuilder) (trackId chunkBase : Nat) :
      Boxed "trak" (writeTrak tb trackId chunkBase) := ⟨rfl, _, rfl⟩
  intro b hb
  rcases List.mem_cons.mp hb with rfl | hb
  · exact hmvhd
  · obtain ⟨⟨tb, i⟩, -, rfl⟩ := List.mem_map.mp hb
    exact htrak tb _ _

theorem writeMoov_boxes (file : Mp4File) :
    writeMoov file.tracks (chunkBase file) = writeBox "moov" ((moovBoxes file).flatMap (·.2)) := by
  rw [writeMoov, moovBoxes, List.flatMap_cons, List.flatMap_map]

theorem mdatHeader_length (payloadLen : Nat) : 8 ≤ (mdatHeader payloadLen).length := by
  have hname : (fourcc "mdat").length = 4 := rfl
  unfold mdatHeader
  split <;> simp [hname]

theorem encode_length (file : Mp4File) : file.encode.length =
    chunkBase file + file.payload.length + (writeMoov file.tracks (chunkBase file)).length := by
  simp only [encode, chunkBase, List.length_append]

/-- A file is three boxes, as long as its samples need no long size. -/
theorem encode_boxes (hword : file.encode.length < 2 ^ 32) : ∃ brand,
    file.encode = writeBox "ftyp" brand ++ (writeBox "mdat" file.payload ++
      (writeBox "moov" ((moovBoxes file).flatMap (·.2)) ++ [])) := by
  have hheader : mdatHeader file.payload.length =
      toBigEndian 4 (8 + file.payload.length) ++ fourcc "mdat" := by
    have hlength := encode_length file
    have hmdat := mdatHeader_length file.payload.length
    have hbase : chunkBase file =
        (writeFtyp file.majorBrand).length + (mdatHeader file.payload.length).length :=
      List.length_append
    rw [mdatHeader, if_neg (by omega), Nat.add_comm]
  obtain ⟨brand, hftyp⟩ : ∃ brand, writeFtyp file.majorBrand = writeBox "ftyp" brand := ⟨_, rfl⟩
  refine ⟨brand, ?_⟩
  rw [← writeMoov_boxes, ← hftyp, encode]
  show _ ++ _ ++ writeMoov file.tracks (chunkBase file) = _
  rw [hheader, List.append_nil, writeBox.eq_1 "mdat"]
  simp only [List.append_assoc]

/-- The samples lie in the file where the reader looks for them. -/
theorem encode_sample (file : Mp4File) {s : TrackSampleRecord}
    (h : s.dataOffset + s.size ≤ file.payload.length) :
    (file.encode.drop (chunkBase file + s.dataOffset)).take s.size =
      (sampleAt file.payload s).data := by
  have hpayload : file.encode.drop (chunkBase file) =
      file.payload ++ writeMoov file.tracks (chunkBase file) := by
    rw [encode, List.append_assoc]
    exact List.drop_left' rfl
  rw [← List.drop_drop, hpayload]
  exact congrArg MediaSample.data (sampleAt_append _ h)

section Find
variable {content : Bytes} {maxBoxSize passes cursor : Nat} {stopAtMdat : Bool} {name : String}

/-- A box before the one that is looked for. -/
theorem findMoov_skip (hname : (fourcc name).length = 4) (hne : fourcc name ≠ fourcc "moov")
    (hmax : 8 + content.length ≤ maxBoxSize) (hword : 8 + content.length < 2 ^ 32)
    (hgo : ¬(stopAtMdat ∧ fourcc name = fourcc "mdat" ∧ 0 < content.length)) (rest : Bytes) :
    findMoov maxBoxSize stopAtMdat (passes + 1) cursor (writeBox name content ++ rest) =
      findMoov maxBoxSize stopAtMdat passes (cursor + (8 + content.length)) rest := by
  have hgo : ¬(stopAtMdat ∧ fourcc name = fourcc "mdat" ∧ 8 < 8 + content.length) := by
    rwa [Nat.lt_add_right_iff_pos]
  rw [findMoov, writeBox_header hname rest hmax (.inl hword)]
  dsimp only
  rw [if_neg hne, if_neg hgo, List.drop_left' (writeBox_length hname content)]

/-- In the head of a file the samples end the search. -/
theorem findMoov_stop (hmax : 8 + content.length ≤ maxBoxSize)
    (hword : 8 + content.length < 2 ^ 32) (hpos : 0 < content.length) (rest : Bytes) :
    findMoov maxBoxSize true (passes + 1) cursor (writeBox "mdat" content ++ rest) = none := by
  rw [findMoov, writeBox_header rfl rest hmax (.inl hword)]
  dsimp only
  rw [if_neg (by decide), if_pos ⟨rfl, rfl, Nat.lt_add_right_iff_pos.mpr hpos⟩]

theorem findMoov_found (hmax : 8 + content.length ≤ maxBoxSize)
    (hword : 8 + content.length < 2 ^ 32) (rest : Bytes) :
    findMoov maxBoxSize stopAtMdat (passes + 1) cursor (writeBox "moov" content ++ rest) =
      some content := by
  rw [findMoov, writeBox_header rfl rest hmax (.inl hword)]
  dsimp only
  rw [if_pos rfl, writeBox_payload rfl]

end Find

/-- From the start of the file the reader comes to the tracks, or to the samples if it is told to
stop there. -/
theorem findMoov_written (h : Fits config file) (stopAtMdat : Bool) :
    findMoov config.maxBoxBytes stopAtMdat file.encode.length 0 file.encode =
      if stopAtMdat ∧ 0 < file.payload.length then none
      else some ((moovBoxes file).flatMap (·.2)) := by
  have hword := h.word
  have hboxes := h.boxes
  obtain ⟨brand, heq⟩ := encode_boxes h.word
  have hlength : file.encode.length = 8 + brand.length + (8 + file.payload.length +
      (8 + ((moovBoxes file).flatMap (·.2)).length)) := by
    rw [heq]
    simp only [List.length_append, List.append_nil, writeBox_length (show (fourcc "ftyp").length = 4
      from rfl), writeBox_length (show (fourcc "mdat").length = 4 from rfl),
      writeBox_length (show (fourcc "moov").length = 4 from rfl)]
  obtain ⟨passes, hpasses⟩ : ∃ passes, file.encode.length = passes + 1 + 1 + 1 :=
    ⟨file.encode.length - 3, by omega⟩
  have hftyp : fourcc "ftyp" ≠ fourcc "mdat" := by decide
  rw [hpasses, heq, findMoov_skip rfl (by decide) (by omega) (by omega) fun h => hftyp h.2.1]
  split
  · rename_i hstop
    rw [hstop.1, findMoov_stop (by omega) (by omega) hstop.2]
  · rename_i hgo
    rw [findMoov_skip rfl (by decide) (by omega) (by omega) fun h => hgo ⟨h.1, h.2.2⟩,
      findMoov_found (by omega) (by omega)]

/-- Every track of a file is read. -/
theorem trak_read (hrecorded : Mp4Writer.Recorded file tracks samples) (h : Fits config file)
    (htb : file.tracks[i]? = some tb) : ∃ track, Announced tb i track ∧ ∀ trackIdDefault,
      parseTrak config.maxBoxBytes trackIdDefault
          ((writeTrak tb (i + 1) (chunkBase file)).drop 8) =
        .ok (.ok (track, indexRead tb (i + 1) (chunkBase file))) := by
  have hmem := List.mem_of_getElem? htb
  have hword := h.word
  have hboxes := h.boxes
  have hlength := encode_length file
  have htrak : (writeTrak tb (i + 1) (chunkBase file)).length ≤
      ((moovBoxes file).flatMap (·.2)).length := by
    have hsub : ("trak", writeTrak tb (i + 1) (chunkBase file)) ∈ moovBoxes file :=
      List.mem_cons_of_mem _ (List.mem_map.mpr
        ⟨(tb, i), List.mem_zipIdx_iff_getElem?.mpr htb, rfl⟩)
    obtain ⟨before, after, heq⟩ := List.append_of_mem hsub
    rw [heq, List.flatMap_append, List.flatMap_cons, List.length_append, List.length_append]
    show (writeTrak tb (i + 1) (chunkBase file)).length ≤ _ +
      ((writeTrak tb (i + 1) (chunkBase file)).length + _)
    omega
  have hcount := boxes_length_le (boxed_moov file)
  have hi := (List.getElem?_eq_some_iff.mp htb).1
  have htracks : (moovBoxes file).length = file.tracks.length + 1 := by
    simp [moovBoxes]
  rw [writeMoov_boxes, writeBox_length rfl] at hlength
  obtain ⟨hwidth, hheight, hpositive⟩ := hrecorded.shape hmem
  have hfit : ∀ s ∈ tb.samples, chunkBase file + s.dataOffset < 2 ^ 64 := by
    intro s hs
    have hin := hrecorded.within tb hmem s hs
    omega
  obtain ⟨track, hid, hkind, hrate, hread⟩ := parseTrak_written (show i + 1 < 2 ^ 32 by omega)
    hwidth hheight (h.timescales tb hmem) hpositive (h.samples tb hmem) hfit
    (show (writeTrak tb (i + 1) (chunkBase file)).length ≤ config.maxBoxBytes by omega) (by omega)
  exact ⟨track, ⟨hid, hkind, hrate⟩, hread⟩

/-- The tracks are read one after the other. -/
theorem parseTracks_written {rest : List (TrackBuilder × Nat)}
    (h : ∀ p ∈ rest, ∃ track, Announced p.1 p.2 track ∧ ∀ trackIdDefault,
      parseTrak maxBoxSize trackIdDefault ((writeTrak p.1 (p.2 + 1) base).drop 8) =
        .ok (.ok (track, indexRead p.1 (p.2 + 1) base)))
    (nextTrackId : Nat) (r : Mp4Reader) (hsome : r.tracks ≠ [] ∨ rest ≠ []) :
    ∃ shown, List.Forall₂ (fun p track => Announced p.1 p.2 track) rest shown ∧
      parseTracks maxBoxSize nextTrackId (rest.map fun p =>
          .ok ⟨fourcc "trak", (writeTrak p.1 (p.2 + 1) base).drop 8⟩) r =
        .ok (none, { r with
          tracks := r.tracks ++ shown
          indices := r.indices ++ rest.map fun p => indexRead p.1 (p.2 + 1) base
          cursors := r.cursors ++ rest.map fun _ => 0 }) := by
  induction rest generalizing nextTrackId r with
  | nil =>
    refine ⟨[], .nil, ?_⟩
    rw [List.map_nil, parseTracks, if_neg (by simpa using hsome)]
    simp
  | cons p rest ih =>
    obtain ⟨track, hannounced, hread⟩ := h p (List.mem_cons_self ..)
    obtain ⟨shown, hshown, hparse⟩ := ih (fun p hp => h p (List.mem_cons_of_mem _ hp))
      (nextTrackId + 1)
      { r with
        tracks := r.tracks ++ [track]
        indices := r.indices ++ [indexRead p.1 (p.2 + 1) base]
        cursors := r.cursors ++ [0] } (.inl (by simp))
    refine ⟨track :: shown, .cons hannounced hshown, ?_⟩
    rw [List.map_cons, parseTracks, if_pos rfl, hread]
    refine hparse.trans ?_
    simp only [List.append_assoc, List.singleton_append, List.map_cons]

/-- The `moov` box of a file leads to its samples. -/
theorem parseMoov_written {r : Mp4Reader} (hrecorded : Mp4Writer.Recorded file tracks samples)
    (h : Fits r.config file) (htracks : r.tracks = []) (hindices : r.indices = [])
    (hcursors : r.cursors = []) :
    ∃ shown, List.Forall₂ (fun p track => Announced p.1 p.2 track) file.tracks.zipIdx shown ∧
      r.parseMoov ((moovBoxes file).flatMap (·.2)) = .ok (none, { r with
        state := .streaming
        tracks := shown
        indices := indicesRead file
        cursors := file.tracks.map fun _ => 0 }) := by
  have hword := h.word
  have hboxes := h.boxes
  have hlength := encode_length file
  rw [writeMoov_boxes, writeBox_length rfl] at hlength
  have hall : ∀ p ∈ file.tracks.zipIdx, ∃ track, Announced p.1 p.2 track ∧ ∀ trackIdDefault,
      parseTrak r.config.maxBoxBytes trackIdDefault
          ((writeTrak p.1 (p.2 + 1) (chunkBase file)).drop 8) =
        .ok (.ok (track, indexRead p.1 (p.2 + 1) (chunkBase file))) :=
    fun p hp => trak_read hrecorded h (List.mem_zipIdx_iff_getElem?.mp hp)
  obtain ⟨shown, hshown, hparse⟩ := parseTracks_written hall 1 r
    (.inr (by simpa using hrecorded.nonempty))
  refine ⟨shown, hshown, ?_⟩
  have hother : fourcc "mvhd" ≠ fourcc "trak" := by decide
  rw [parseMoov, boxIter_boxes (boxed_moov file) (by omega) (by omega), moovBoxes, List.map_cons,
    parseTracks, if_neg hother, List.map_map]
  have hzeros : file.tracks.zipIdx.map (fun _ => 0) = file.tracks.map fun _ => 0 := by
    simp [List.map_const']
  rw [htracks, hindices, hcursors, List.nil_append, List.nil_append, List.nil_append, hzeros]
    at hparse
  show (parseTracks r.config.maxBoxBytes 1 (file.tracks.zipIdx.map fun p =>
    .ok ⟨fourcc "trak", (writeTrak p.1 (p.2 + 1) (chunkBase file)).drop 8⟩) r >>= _) = _
  rw [hparse]
  rfl

end File

section Reads
variable {bytes : Bytes} {reads : List Mp4ReadResult} {offset length : Nat}

/-- The ranges of a file that the reader was given are right. -/
def Truthful (bytes : Bytes) (reads : List Mp4ReadResult) : Prop :=
  ∀ read ∈ reads, read.data <+: bytes.drop read.offset

/-- What is found in the ranges is what the file has there. -/
theorem findBuffered_truthful (h : Truthful bytes reads)
    (hok : findBuffered offset length reads = .ok (some data)) :
    data = (bytes.drop offset).take length := by
  induction reads with
  | nil => cases hok
  | cons read reads ih =>
    have hrest := ih fun other hother => h other (List.mem_cons_of_mem _ hother)
    unfold findBuffered at hok
    split at hok
    · rename_i hle
      obtain ⟨available, havailable, hok⟩ := bind_eq_ok hok
      obtain ⟨need, hneed, hok⟩ := bind_eq_ok hok
      obtain ⟨-, rfl⟩ := u64_eq_ok.mp havailable
      obtain ⟨-, rfl⟩ := u64_eq_ok.mp hneed
      split at hok
      · rename_i hinside
        obtain ⟨after, hprefix⟩ := h read (List.mem_cons_self ..)
        have hdrop : bytes.drop offset = read.data.drop (offset - read.offset) ++ after := by
          rw [← List.drop_append_of_le_length (by omega), hprefix, List.drop_drop,
            Nat.add_sub_cancel' hle]
        rw [hdrop, List.take_append_of_le_length (by rw [List.length_drop]; omega)]
        exact (Option.some.inj (Except.ok.inj hok)).symm
      · exact hrest hok
    · exact hrest hok

/-- All of a file is one of its ranges. -/
theorem findBuffered_whole (hfit : bytes.length < 2 ^ 64) (h : offset + length ≤ bytes.length) :
    findBuffered offset length [⟨0, bytes⟩] = .ok (some ((bytes.drop offset).take length)) := by
  have hbytes : u64 (0 + bytes.length) = .ok bytes.length := by
    rw [Nat.zero_add]
    exact u64_eq_ok.mpr ⟨hfit, rfl⟩
  have hneed : u64 (offset + length) = .ok (offset + length) := u64_eq_ok.mpr ⟨by omega, rfl⟩
  rw [findBuffered, if_pos (Nat.zero_le _), hbytes, ok_bind, hneed, ok_bind, if_pos h]
  rfl

end Reads

section Frames
variable {config : Mp4ReaderConfig} {file : Mp4File} {tracks : List TrackInfo}
  {samples : List Mp4Writer.Pushed} {r r' : Mp4Reader}

/-- The frame is sample `pick.2` of those that track `pick.1` was given. -/
def Replays (tracks : List TrackInfo) (samples : List Mp4Writer.Pushed) (frame : AVFrame)
    (pick : Nat × Nat) : Prop :=
  ∃ track s, tracks[pick.1]? = some track ∧
    (Mp4Writer.givenTo tracks samples pick.1)[pick.2]? = some s ∧
    frame.trackId = pick.1 + 1 ∧ frame.mediaKind = kindRead track.mediaKind ∧
    frame.payload = s.data ∧ frame.isKey = decide (track.mediaKind ≠ .video ∨ s.isSync)

/-- A frame is the sample at the cursor of the best track. -/
theorem stepStreaming_frame (hok : r.stepStreaming = .ok (.frame frame, r')) :
    ∃ i k time track index entry payload, r.best = some (i, time) ∧ r.tracks[i]? = some track ∧
      r.indices[i]? = some index ∧ r.cursors[i]? = some k ∧ index.samples[k]? = some entry ∧
      findBuffered entry.offset entry.size.toNat r.pendingReads = .ok (some payload) ∧
      frame = sampleFrame track index.timescale entry payload := by
  unfold stepStreaming at hok
  split at hok
  · cases hok
  · rename_i i time hbest
    obtain ⟨track, htrack, hok⟩ := bind_eq_ok hok
    obtain ⟨index, hindex, hok⟩ := bind_eq_ok hok
    obtain ⟨cursor, hcursor, hok⟩ := bind_eq_ok hok
    obtain ⟨entry, hentry, hok⟩ := bind_eq_ok hok
    obtain ⟨found, hfound, hok⟩ := bind_eq_ok hok
    cases found with
    | none =>
      obtain ⟨hframe, -⟩ := r.queueRequest_spec ⟨entry.offset, entry.size.toNat⟩
      rw [congrArg Prod.fst (Except.ok.inj hok)] at hframe
      cases hframe
    | some payload =>
      obtain ⟨hframe, -⟩ := Prod.mk.inj (Except.ok.inj hok)
      exact ⟨i, cursor, time, track, index, entry, payload, hbest, byteAt_eq_ok htrack,
        byteAt_eq_ok hindex, byteAt_eq_ok hcursor, byteAt_eq_ok hentry, hfound,
        (Mp4ReadEvent.frame.inj hframe).symm⟩

theorem indicesRead_some (h : (indicesRead file)[i]? = some index) :
    ∃ tb, file.tracks[i]? = some tb ∧ index = indexRead tb (i + 1) (chunkBase file) := by
  rw [indicesRead, List.getElem?_map, List.getElem?_zipIdx, Option.map_map,
    Option.map_eq_some_iff] at h
  obtain ⟨tb, htb, rfl⟩ := h
  refine ⟨tb, htb, ?_⟩
  rw [Function.comp_apply, Nat.zero_add]

theorem indexRead_some (h : (indexRead tb trackId base).samples[k]? = some entry) :
    ∃ s, tb.samples[k]? = some s ∧ entry = entryRead tb base k s := by
  rw [indexRead, List.getElem?_map, List.getElem?_zipIdx, Option.map_map,
    Option.map_eq_some_iff] at h
  obtain ⟨s, hs, rfl⟩ := h
  refine ⟨s, hs, ?_⟩
  rw [Function.comp_apply, Nat.zero_add]

/-- What is read at the place of a sample is the sample. -/
theorem sampleFrame_replays {payload : Bytes} (hrecorded : Mp4Writer.Recorded file tracks samples)
    (hfits : Fits config file)
    (hshown : List.Forall₂ (fun p track => Announced p.1 p.2 track) file.tracks.zipIdx shown)
    (htrack : shown[i]? = some track) (hindex : (indicesRead file)[i]? = some index)
    (hentry : index.samples[k]? = some entry)
    (hpayload : payload = (file.encode.drop entry.offset).take entry.size.toNat) :
    Replays tracks samples (sampleFrame track index.timescale entry payload) (i, k) := by
  obtain ⟨tb, htb, rfl⟩ := indicesRead_some hindex
  obtain ⟨s, hs, rfl⟩ := indexRead_some hentry
  have hmem := List.mem_of_getElem? htb
  have hin := hrecorded.within tb hmem s (List.mem_of_getElem? hs)
  have hword := hfits.word
  have hlength := encode_length file
  have hsize : (UInt32.ofNat s.size).toNat = s.size := by
    rw [UInt32.toNat_ofNat', Nat.mod_eq_of_lt (by omega)]
  obtain ⟨given, hgiven, hmedia⟩ : ∃ given,
      (Mp4Writer.givenTo tracks samples i)[k]? = some given ∧
        given.media = sampleAt file.payload s := by
    have h := congrArg (fun l : List MediaSample => l[k]?) (hrecorded.samples i tb htb)
    rw [List.getElem?_map, List.getElem?_map, hs] at h
    exact Option.map_eq_some_iff.mp h.symm
  obtain ⟨info, hinfo, hkind⟩ : ∃ info, tracks[i]? = some info ∧ info.mediaKind = tb.mediaKind := by
    have h := congrArg (fun l : List TrackBuilder => l[i]?) hrecorded.entries
    rw [List.getElem?_map, List.getElem?_map, htb] at h
    obtain ⟨info, hinfo, heq⟩ := Option.map_eq_some_iff.mp h.symm
    exact ⟨info, hinfo, congrArg TrackBuilder.mediaKind heq⟩
  have hannounced : Announced tb i track := by
    obtain ⟨hi, rfl⟩ := List.getElem?_eq_some_iff.mp htrack
    have h := hshown.get (by rw [hshown.length_eq]; exact hi) hi
    have htb' : file.tracks.zipIdx[i]? = some (tb, i) := by
      rw [List.getElem?_zipIdx, htb, Option.map_some, Nat.zero_add]
    obtain ⟨hi', hget⟩ := List.getElem?_eq_some_iff.mp htb'
    simpa [hget] using h
  refine ⟨info, given, hinfo, hgiven, hannounced.trackId, ?_, ?_, ?_⟩
  · rw [hkind]
    exact hannounced.mediaKind
  · show payload = given.data
    rw [hpayload]
    show (file.encode.drop (chunkBase file + s.dataOffset)).take (UInt32.ofNat s.size).toNat = _
    rw [hsize, encode_sample file hin]
    exact (congrArg MediaSample.data hmedia).symm
  · rw [hkind]
    have hsync : s.isSync = given.isSync := (congrArg MediaSample.isSync hmedia).symm
    rw [← hsync]
    rfl

/-- Before the tracks are read. -/
def Unread (r : Mp4Reader) : Prop := r.tracks = [] ∧ r.indices = [] ∧ r.cursors = []

/-- How far a reader of the file has come. -/
def AtStage (file : Mp4File) (r : Mp4Reader) : Prop :=
  match r.state with
  | .needHead => Unread r
  | .tailScan offset remaining =>
    offset = 0 ∧ (remaining = 0 ∨ remaining = file.encode.length) ∧ Unread r
  | .streaming =>
    List.Forall₂ (fun p track => Announced p.1 p.2 track) file.tracks.zipIdx r.tracks ∧
      r.indices = indicesRead file
  | .failed _ => True

/-- A reader that was told nothing but the truth about the file. -/
structure Genuine (config : Mp4ReaderConfig) (file : Mp4File) (r : Mp4Reader) : Prop where
  config : r.config = config
  size : r.fileSize = 0 ∨ r.fileSize = file.encode.length
  reads : Truthful file.encode r.pendingReads
  stage : AtStage file r

theorem genuine_new (config : Mp4ReaderConfig) (file : Mp4File) : Genuine config file { config } :=
  ⟨rfl, .inl rfl, nofun, ⟨rfl, rfl, rfl⟩⟩

/-- What was requested last, what was shown and how far does not matter, once the tracks are
read. -/
theorem Genuine.on (h : Genuine config file r) (hstate : r.state = .streaming)
    (outstanding : Option Mp4ReadRequest) (cursors : List Nat) (seekRequestUs : Option Int)
    (tracksEmitted : Bool) :
    Genuine config file { r with outstanding, cursors, seekRequestUs, tracksEmitted } := by
  refine ⟨h.config, h.size, h.reads, ?_⟩
  have hstage := h.stage
  unfold AtStage at hstage ⊢
  rw [hstate] at hstage
  dsimp only
  rw [hstate]
  exact hstage

theorem Genuine.queueRequest (h : Genuine config file r) (request : Mp4ReadRequest) :
    Genuine config file (r.queueRequest request).2 := by
  obtain ⟨-, outstanding, hr⟩ := r.queueRequest_spec request
  rw [hr]
  exact ⟨h.config, h.size, h.reads, h.stage⟩

theorem findMoov_nil (maxBoxSize : Nat) (stopAtMdat : Bool) (passes cursor : Nat) :
    findMoov maxBoxSize stopAtMdat passes cursor [] = none := by
  cases passes <;> rfl

/-- What is found from the start of the file on is nothing or all of it. -/
theorem Genuine.slice {slice : Bytes} (h : Genuine config file r)
    (hlength : length = 0 ∨ length = file.encode.length)
    (hok : findBuffered 0 length r.pendingReads = .ok (some slice)) :
    slice = [] ∨ slice = file.encode := by
  rw [findBuffered_truthful h.reads hok, List.drop_zero]
  rcases hlength with rfl | rfl
  · exact .inl List.take_zero
  · exact .inr List.take_length

variable (hrecorded : Mp4Writer.Recorded file tracks samples) (hfits : Fits config file)
include hrecorded hfits

theorem Genuine.parseMoov (h : Genuine config file r) (hunread : Unread r)
    (hok : r.parseMoov ((moovBoxes file).flatMap (·.2)) = .ok (event, r')) :
    Genuine config file r' ∧ r'.state = .streaming := by
  obtain ⟨shown, hshown, hparse⟩ := parseMoov_written hrecorded (h.config ▸ hfits) hunread.1
    hunread.2.1 hunread.2.2
  rw [hparse] at hok
  obtain ⟨-, rfl⟩ := Prod.mk.inj (Except.ok.inj hok)
  exact ⟨⟨h.config, h.size, h.reads, ⟨hshown, rfl⟩⟩, rfl⟩

/-- The head leads on to the samples or to the tail, if not to an event. -/
theorem Genuine.tryParseHead (h : Genuine config file r) (hunread : Unread r)
    (hok : r.tryParseHead = .ok (event, r')) : Genuine config file r' ∧ (event = none →
      r'.state = .streaming ∨ ∃ offset remaining, r'.state = .tailScan offset remaining) := by
  have hlimit : min r.config.maxTopLevelScan r.fileSize = r.fileSize := by
    have hscanned := hfits.scanned
    have hsize := h.size
    have hconfig := h.config
    rw [hconfig]
    omega
  unfold Mp4Reader.tryParseHead at hok
  dsimp only at hok
  rw [hlimit] at hok
  obtain ⟨found, hfound, hok⟩ := bind_eq_ok hok
  cases found with
  | none =>
    obtain ⟨rfl, rfl⟩ := Prod.mk.inj (Except.ok.inj hok)
    exact ⟨h.queueRequest _, nofun⟩
  | some slice =>
    have htail : Genuine config file
        { r with state := .tailScan (r.fileSize - r.fileSize) r.fileSize } :=
      ⟨h.config, h.size, h.reads, Nat.sub_self _, h.size, hunread⟩
    dsimp only at hok
    rcases h.slice h.size hfound with rfl | rfl
    · rw [findMoov_nil] at hok
      obtain ⟨rfl, rfl⟩ := Prod.mk.inj (Except.ok.inj hok)
      exact ⟨htail, fun _ => .inr ⟨_, _, rfl⟩⟩
    · have hmax : r.config.maxBoxBytes = config.maxBoxBytes := congrArg _ h.config
      rw [hmax, findMoov_written hfits] at hok
      by_cases hstop : true ∧ 0 < file.payload.length
      · rw [if_pos hstop] at hok
        obtain ⟨rfl, rfl⟩ := Prod.mk.inj (Except.ok.inj hok)
        exact ⟨htail, fun _ => .inr ⟨_, _, rfl⟩⟩
      · rw [if_neg hstop] at hok
        obtain ⟨hgenuine, hstate⟩ := h.parseMoov hrecorded hfits hunread hok
        exact ⟨hgenuine, fun _ => .inl hstate⟩

theorem Genuine.tryParseTail (h : Genuine config file r)
    (hstate : r.state = .tailScan offset remaining)
    (hok : r.tryParseTail offset remaining = .ok (event, r')) :
    Genuine config file r' ∧ (event = none → r'.state = .streaming) := by
  obtain ⟨rfl, hremaining, hunread⟩ : offset = 0 ∧
      (remaining = 0 ∨ remaining = file.encode.length) ∧ Unread r := by
    have hstage := h.stage
    unfold AtStage at hstage
    rwa [hstate] at hstage
  unfold Mp4Reader.tryParseTail at hok
  obtain ⟨found, hfound, hok⟩ := bind_eq_ok hok
  cases found with
  | none =>
    obtain ⟨rfl, rfl⟩ := Prod.mk.inj (Except.ok.inj hok)
    exact ⟨h.queueRequest _, nofun⟩
  | some slice =>
    dsimp only at hok
    rcases h.slice hremaining hfound with rfl | rfl
    · rw [findMoov_nil] at hok
      obtain ⟨rfl, rfl⟩ := Prod.mk.inj (Except.ok.inj hok)
      exact ⟨⟨h.config, h.size, h.reads, trivial⟩, nofun⟩
    · rw [h.config, findMoov_written hfits, if_neg (by simp)] at hok
      obtain ⟨hgenuine, hstate⟩ := h.parseMoov hrecorded hfits hunread hok
      exact ⟨hgenuine, fun _ => hstate⟩

omit hrecorded hfits in
/-- Where the tracks are known, what is shown does not change them. -/
theorem Genuine.stepParsed (h : Genuine config file r) (hstate : r.state = .streaming)
    (hok : r.stepParsed = .ok (event, r')) : Genuine config file r' := by
  unfold Mp4Reader.stepParsed at hok
  rw [hstate] at hok
  dsimp only at hok
  split at hok
  · rcases stepStreaming_cases hok with ⟨-, outstanding, rfl⟩ | ⟨_, i, k, -, -, -, rfl⟩
    · exact h.on hstate outstanding _ _ _
    · exact h.on hstate _ (r.cursors.set i (k + 1)) _ _
  · obtain ⟨-, rfl⟩ := Prod.mk.inj (Except.ok.inj hok)
    have hon := h.on hstate r.outstanding r.cursors r.seekRequestUs true
    rwa [hstate] at hon

theorem Genuine.stepTail (h : Genuine config file r)
    (hstate : r.state = .streaming ∨ ∃ offset remaining, r.state = .tailScan offset remaining)
    (hok : r.stepTail = .ok (event, r')) : Genuine config file r' := by
  unfold Mp4Reader.stepTail at hok
  rcases hstate with hstate | ⟨offset, remaining, hstate⟩
  · rw [hstate] at hok
    exact h.stepParsed hstate hok
  · rw [hstate] at hok
    obtain ⟨⟨tried, r₁⟩, htried, hok⟩ := bind_eq_ok hok
    obtain ⟨hgenuine, hon⟩ := h.tryParseTail hrecorded hfits hstate htried
    cases tried with
    | some e =>
      obtain ⟨-, rfl⟩ := Prod.mk.inj (Except.ok.inj hok)
      exact hgenuine
    | none => exact hgenuine.stepParsed (hon rfl) hok

theorem Genuine.step (h : Genuine config file r) (hok : r.step = .ok (event, r')) :
    Genuine config file r' := by
  unfold Mp4Reader.step at hok
  cases hcase : r.state with
  | streaming =>
    have hserved : Genuine config file r.handleSeekRequest := by
      rw [handleSeekRequest_eq hcase]
      exact h.on hcase _ _ none _
    have hstreaming : r.handleSeekRequest.state = .streaming := by
      rw [handleSeekRequest_eq hcase, hcase]
    dsimp only at hok
    rw [hstreaming] at hok
    exact hserved.stepTail hrecorded hfits (.inl hstreaming) hok
  | needHead =>
    rw [handleSeekRequest_of_ne (by rw [hcase]; exact nofun)] at hok
    dsimp only at hok
    rw [hcase] at hok
    have hunread : Unread r := by
      have hstage := h.stage
      unfold AtStage at hstage
      rwa [hcase] at hstage
    obtain ⟨⟨tried, r₁⟩, htried, hok⟩ := bind_eq_ok hok
    obtain ⟨hgenuine, hon⟩ := h.tryParseHead hrecorded hfits hunread htried
    cases tried with
    | some e =>
      obtain ⟨-, rfl⟩ := Prod.mk.inj (Except.ok.inj hok)
      exact hgenuine
    | none => exact hgenuine.stepTail hrecorded hfits (hon rfl) hok
  | tailScan offset remaining =>
    rw [handleSeekRequest_of_ne (by rw [hcase]; exact nofun)] at hok
    dsimp only at hok
    rw [hcase] at hok
    exact h.stepTail hrecorded hfits (.inr ⟨_, _, hcase⟩) hok
  | failed e =>
    rw [handleSeekRequest_of_ne (by rw [hcase]; exact nofun)] at hok
    dsimp only [Mp4Reader.stepTail, Mp4Reader.stepParsed] at hok
    rw [hcase] at hok
    obtain ⟨-, rfl⟩ := Prod.mk.inj (Except.ok.inj hok)
    exact h

omit hrecorded hfits in
theorem feedBytes_mem (hok : r.feedBytes result = .ok r') :
    ∀ read ∈ r'.pendingReads, read ∈ r.pendingReads ++ [result] := by
  have hkept (outstanding : Option Mp4ReadRequest) (r₁ : Mp4Reader)
      (h₁ : r₁ = { r with pendingReads := r.pendingReads ++ [result], outstanding })
      (h : r' = if r₁.state = .streaming then r₁.evictOldPending else r₁) :
      ∀ read ∈ r'.pendingReads, read ∈ r.pendingReads ++ [result] := by
    intro read hread
    rw [h] at hread
    subst h₁
    split at hread
    · unfold evictOldPending at hread
      split at hread
      · exact hread
      · rcases List.mem_append.mp hread with hfirst | hnewest
        · exact List.mem_of_mem_take hfirst
        · exact List.mem_of_mem_drop hnewest
    · exact hread
  unfold feedBytes at hok
  dsimp only at hok
  split at hok
  · obtain ⟨found, -, hok⟩ := bind_eq_ok hok
    exact hkept _ _ rfl (Except.ok.inj hok).symm
  · exact hkept _ _ rfl (Except.ok.inj hok).symm

/-- A player that tells the reader the truth about a file. -/
def TellsTruth (file : Mp4File) : ReaderOp → Prop
  | .setFileSize fileSize => fileSize = file.encode.length
  | .feedBytes result => result.data <+: file.encode.drop result.offset
  | .seek _ => True
  | .step => True

theorem Genuine.perform (h : Genuine config file r) (htruth : TellsTruth file op)
    (hok : perform r op = some (r', events)) : Genuine config file r' := by
  cases op with
  | setFileSize fileSize =>
    cases hok
    exact ⟨h.config, .inr htruth, h.reads, h.stage⟩
  | feedBytes result =>
    obtain ⟨fed, hfed, heq⟩ := Option.map_eq_some_iff.mp hok
    cases heq
    have hmem := feedBytes_mem (toOption_eq_some hfed)
    obtain ⟨pendingReads, outstanding, rfl⟩ := feedBytes_eq (toOption_eq_some hfed)
    refine ⟨h.config, h.size, fun read hread => ?_, h.stage⟩
    rcases List.mem_append.mp (hmem read hread) with hold | hnew
    · exact h.reads read hold
    · exact List.mem_singleton.mp hnew ▸ htruth
  | seek positionUs =>
    cases hok
    exact ⟨h.config, h.size, h.reads, h.stage⟩
  | step =>
    obtain ⟨⟨event, stepped⟩, hstepped, heq⟩ := Option.map_eq_some_iff.mp hok
    cases heq
    exact h.step hrecorded hfits (toOption_eq_some hstepped)

/-- A frame that is shown is one of the samples. -/
theorem Genuine.frame {frame : AVFrame} (hvalid : Valid r) (h : Genuine config file r)
    (hok : r.step = .ok (.frame frame, r')) : ∃ pick, Replays tracks samples frame pick := by
  by_cases hstate : r.state = .streaming
  · have hserved := handleSeekRequest_eq hstate
    have hstreaming : r.handleSeekRequest.state = .streaming := by rw [hserved, hstate]
    have hparsed : r.step = r.handleSeekRequest.stepParsed := by
      simp only [Mp4Reader.step, Mp4Reader.stepTail, hstreaming]
    rw [hparsed] at hok
    simp only [Mp4Reader.stepParsed, hstreaming] at hok
    split at hok
    · obtain ⟨i, k, _, track, index, entry, payload, -, htrack, hindex, -, hentry, hfound, rfl⟩ :=
        stepStreaming_frame hok
      have hstage := h.stage
      unfold AtStage at hstage
      rw [hstate] at hstage
      rw [hserved] at htrack hindex hfound
      refine ⟨(i, k), sampleFrame_replays hrecorded hfits hstage.1 htrack ?_ hentry
        (findBuffered_truthful h.reads hfound)⟩
      rw [← hstage.2]
      exact hindex
    · cases hok
  · have hquiet := (hvalid.step_before hstate hok).noFrame
    cases hquiet

theorem performed_frame (hvalid : Valid r) (h : Genuine config file r)
    (hok : perform r op = some (r', events)) :
    ∀ frame ∈ events.filterMap frameOf, ∃ pick, Replays tracks samples frame pick := by
  intro frame hframe
  obtain ⟨event, hevent, hshown⟩ := List.mem_filterMap.mp hframe
  cases op with
  | setFileSize fileSize =>
    cases hok
    cases hevent
  | feedBytes result =>
    obtain ⟨fed, -, heq⟩ := Option.map_eq_some_iff.mp hok
    cases heq
    cases hevent
  | seek positionUs =>
    cases hok
    cases hevent
  | step =>
    obtain ⟨⟨event', stepped⟩, hstepped, heq⟩ := Option.map_eq_some_iff.mp hok
    cases heq
    obtain rfl := List.mem_singleton.mp hevent
    cases event with
    | frame shown =>
      obtain rfl := Option.some.inj hshown
      exact h.frame hrecorded hfits hvalid (toOption_eq_some hstepped)
    | _ => cases hshown

end Frames

end Mp4
end CheetahMedia.Codec
