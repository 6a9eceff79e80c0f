import CheetahMedia.Codec.Mp4.Replay
import CheetahMedia.Lib.Merge

namespace CheetahMedia.Codec.Mp4
open Lib Lib.Checked Mp4File Mp4Reader

section Best
variable {r : Mp4Reader} {candidates : List (Nat × Int)}

/-- The first of the candidates whose time is the least. -/
def earlier (best : Option (Nat × Int)) (candidate : Nat × Int) : Option (Nat × Int) :=
  match best with
  | none => some candidate
  | some (_, time) => if candidate.2 < time then some candidate else best

theorem earlier_cases (best : Option (Nat × Int)) (candidate : Nat × Int) :
    (earlier best candidate = some candidate ∧ ∀ c ∈ best, candidate.2 ≤ c.2) ∨
      ∃ c, best = some c ∧ earlier best candidate = some c ∧ c.2 ≤ candidate.2 := by
  cases best with
  | none => exact .inl ⟨rfl, nofun⟩
  | some c =>
    by_cases hlt : candidate.2 < c.2
    · refine .inl ⟨if_pos hlt, ?_⟩
      rintro _ ⟨⟩
      exact Int.le_of_lt hlt
    · exact .inr ⟨c, rfl, if_neg hlt, Int.not_lt.mp hlt⟩

theorem foldl_earlier (best : Option (Nat × Int)) (candidates : List (Nat × Int)) :
    (candidates.foldl earlier best = none → best = none ∧ candidates = []) ∧
      ∀ c, candidates.foldl earlier best = some c →
        (c ∈ best ∨ c ∈ candidates) ∧ (∀ d ∈ best, c.2 ≤ d.2) ∧ ∀ d ∈ candidates, c.2 ≤ d.2 := by
  induction candidates generalizing best with
  | nil => exact ⟨fun h => ⟨h, rfl⟩, fun c hc => ⟨.inl hc, fun d hd => by
      rw [List.foldl_nil] at hc
      rw [hc] at hd
      obtain rfl := Option.some.inj hd
      exact Int.le_refl _, nofun⟩⟩
  | cons candidate candidates ih =>
    obtain ⟨hnone, hsome⟩ := ih (earlier best candidate)
    rw [List.foldl_cons]
    rcases earlier_cases best candidate with ⟨heq, hle⟩ | ⟨b, rfl, heq, hle⟩
    · rw [heq] at hnone hsome ⊢
      refine ⟨fun h => absurd (hnone h).1 (by simp), fun c hc => ?_⟩
      obtain ⟨hmem, hbest, hrest⟩ := hsome c hc
      have hfirst := hbest candidate rfl
      refine ⟨.inr ?_, fun d hd => hfirst.trans (hle d hd), fun d hd => ?_⟩
      · rcases hmem with hmem | hmem
        · obtain rfl := Option.some.inj hmem
          exact List.mem_cons_self ..
        · exact List.mem_cons_of_mem _ hmem
      · rcases List.mem_cons.mp hd with rfl | hd
        · exact hfirst
        · exact hrest d hd
    · rw [heq] at hnone hsome ⊢
      refine ⟨fun h => absurd (hnone h).1 (by simp), fun c hc => ?_⟩
      obtain ⟨hmem, hbest, hrest⟩ := hsome c hc
      refine ⟨hmem.imp_right (List.mem_cons_of_mem _), hbest, fun d hd => ?_⟩
      rcases List.mem_cons.mp hd with rfl | hd
      · exact (hbest b rfl).trans hle
      · exact hrest d hd

theorem best_eq (r : Mp4Reader) : r.best = r.candidates.foldl earlier none := rfl

/-- A track that has a sample left is a candidate, with the time of that sample. -/
theorem mem_candidates : (i, time) ∈ r.candidates ↔ ∃ index k entry, r.indices[i]? = some index ∧
    r.cursors[i]? = some k ∧ index.samples[k]? = some entry ∧
      ticksToUs entry.dts index.timescale = time := by
  unfold candidates
  simp only [List.mem_filterMap, List.mem_zipIdx_iff_getElem?, Prod.exists, Option.map_eq_some_iff,
    Prod.mk.injEq, List.getElem?_zip_eq_some]
  constructor
  · rintro ⟨index, k, j, ⟨hindex, hk⟩, entry, hentry, rfl, htime⟩
    exact ⟨index, k, entry, hindex, hk, hentry, htime⟩
  · rintro ⟨index, k, entry, hindex, hk, hentry, htime⟩
    exact ⟨index, k, i, ⟨hindex, hk⟩, entry, hentry, rfl, htime⟩

theorem best_none (h : r.best = none) : r.candidates = [] :=
  ((foldl_earlier none r.candidates).1 h).2

theorem best_some (h : r.best = some c) : c ∈ r.candidates ∧ ∀ d ∈ r.candidates, c.2 ≤ d.2 := by
  obtain ⟨hmem, -, hle⟩ := (foldl_earlier none r.candidates).2 c h
  refine ⟨?_, hle⟩
  rcases hmem with hnone | hmem
  · cases hnone
  · exact hmem

end Best

section Queues
variable {indices : List SampleIndex} {cursors rest : List Nat} {i k : Nat}

/-- When a sample is due, in microseconds. -/
def dueUs (indices : List SampleIndex) (i k : Nat) : Int :=
  (indices[i]?.bind fun index =>
    index.samples[k]?.map fun entry => ticksToUs entry.dts index.timescale).getD 0

/-- The numbers of the samples of every track that are still to be shown. -/
def left (indices : List SampleIndex) (cursors : List Nat) : List (List Nat) :=
  (indices.zip cursors).map fun (index, k) => List.range' k (index.samples.length - k)

theorem left_cons : (left indices cursors)[i]? = some (k :: rest) ↔
    ∃ (index : SampleIndex) (entry : SampleIndexEntry), indices[i]? = some index ∧
      cursors[i]? = some k ∧ index.samples[k]? = some entry ∧
      rest = List.range' (k + 1) (index.samples.length - (k + 1)) := by
  simp only [left, List.getElem?_map, Option.map_eq_some_iff, Prod.exists,
    List.getElem?_zip_eq_some]
  constructor
  · rintro ⟨index, j, ⟨hindex, hj⟩, hrange⟩
    obtain ⟨m, hm⟩ : ∃ m, index.samples.length - j = m + 1 := by
      refine Nat.exists_eq_succ_of_ne_zero fun hzero => ?_
      rw [hzero] at hrange
      cases hrange
    rw [hm, List.range'_succ] at hrange
    obtain ⟨rfl, hrest⟩ := List.cons.inj hrange
    refine ⟨index, _, hindex, hj, List.getElem?_eq_getElem (by omega), ?_⟩
    rw [← hrest, show m = index.samples.length - (j + 1) by omega]
  · rintro ⟨index, entry, hindex, hk, hentry, rfl⟩
    have hlt := (List.getElem?_eq_some_iff.mp hentry).1
    refine ⟨index, k, ⟨hindex, hk⟩, ?_⟩
    rw [show index.samples.length - k = index.samples.length - (k + 1) + 1 by omega,
      List.range'_succ]

/-- Where a sample is shown, the others of its track are left. -/
theorem left_set (h : (left indices cursors)[i]? = some (k :: rest)) :
    left indices (cursors.set i (k + 1)) = (left indices cursors).set i rest := by
  obtain ⟨index, entry, hindex, hk, hentry, rfl⟩ := left_cons.mp h
  have hi := (List.getElem?_eq_some_iff.mp hk).1
  have hlength := (List.getElem?_eq_some_iff.mp h).1
  apply List.ext_getElem?
  intro j
  by_cases hij : i = j
  · subst hij
    have hzip : (indices.zip (cursors.set i (k + 1)))[i]? = some (index, k + 1) :=
      List.getElem?_zip_eq_some.mpr ⟨hindex, List.getElem?_set_self hi⟩
    rw [List.getElem?_set_self hlength, left, List.getElem?_map, hzip]
    rfl
  · have hzip : (indices.zip (cursors.set i (k + 1)))[j]? = (indices.zip cursors)[j]? := by
      rw [List.zip, List.getElem?_zipWith, List.getElem?_zipWith, List.getElem?_set_ne hij]
    rw [List.getElem?_set_ne hij, left, left, List.getElem?_map, List.getElem?_map, hzip]

theorem sum_length_set {queues : List (List Nat)} (h : queues[i]? = some (k :: rest)) :
    ((queues.set i rest).map List.length).sum + 1 = (queues.map List.length).sum := by
  induction queues generalizing i with
  | nil => cases h
  | cons q queues ih =>
    cases i with
    | zero =>
      obtain rfl := Option.some.inj h
      simp
      omega
    | succ i =>
      have hrest := ih h
      simp only [List.set_cons_succ, List.map_cons, List.sum_cons]
      omega

end Queues

section Play
variable {config : Mp4ReaderConfig} {file : Mp4File} {tracks shown : List TrackInfo}
  {samples : List Mp4Writer.Pushed} {cursors : List Nat}

/-- A reader that has all of a file and has announced the tracks. -/
def playing (config : Mp4ReaderConfig) (file : Mp4File) (shown : List TrackInfo)
    (cursors : List Nat) : Mp4Reader where
  config
  state := .streaming
  fileSize := file.encode.length
  pendingReads := [⟨0, file.encode⟩]
  tracks := shown
  indices := indicesRead file
  cursors
  tracksEmitted := true

theorem playing_ends (h : (playing config file shown cursors).best = none) :
    perform (playing config file shown cursors) .step =
      some (playing config file shown cursors, [.eof]) := by
  have hstep : (playing config file shown cursors).step =
      (playing config file shown cursors).stepStreaming := rfl
  rw [perform, hstep, stepStreaming, h]
  rfl

variable (hrecorded : Mp4Writer.Recorded file tracks samples) (hfits : Fits config file)
  (hshown : List.Forall₂ (fun p track => Announced p.1 p.2 track) file.tracks.zipIdx shown)
include hrecorded hfits hshown

/-- The best of the tracks shows its next sample. -/
theorem playing_shows (h : (playing config file shown cursors).best = some (i, time)) :
    ∃ k rest frame, (left (indicesRead file) cursors)[i]? = some (k :: rest) ∧
      dueUs (indicesRead file) i k = time ∧ Replays tracks samples frame (i, k) ∧
      perform (playing config file shown cursors) .step =
        some (playing config file shown (cursors.set i (k + 1)), [.frame frame]) := by
  obtain ⟨index, k, entry, hindex, hk, hentry, htime⟩ := mem_candidates.mp (best_some h).1
  have hleft := left_cons.mpr ⟨index, entry, hindex, hk, hentry, rfl⟩
  obtain ⟨tb, htb, heq⟩ := indicesRead_some hindex
  obtain ⟨s, hs, hentryRead⟩ := indexRead_some (heq ▸ hentry)
  have hin := hrecorded.within tb (List.mem_of_getElem? htb) s (List.mem_of_getElem? hs)
  have hword := hfits.word
  have hlength := encode_length file
  have hinside : entry.offset + entry.size.toNat ≤ file.encode.length := by
    rw [hentryRead]
    show chunkBase file + s.dataOffset + (UInt32.ofNat s.size).toNat ≤ _
    rw [UInt32.toNat_ofNat', Nat.mod_eq_of_lt (by omega)]
    omega
  obtain ⟨track, htrack⟩ : ∃ track, shown[i]? = some track := by
    refine ⟨_, List.getElem?_eq_getElem ?_⟩
    rw [← hshown.length_eq, List.length_zipIdx]
    exact (List.getElem?_eq_some_iff.mp htb).1
  have hreplays := sampleFrame_replays hrecorded hfits hshown htrack hindex hentry rfl
  refine ⟨k, _, _, hleft, ?_, hreplays, ?_⟩
  · rw [dueUs, show (indicesRead file)[i]? = some index from hindex, Option.bind_some, hentry]
    exact htime
  · have hstep : (playing config file shown cursors).step =
        (playing config file shown cursors).stepStreaming := rfl
    have htrackAt : byteAt (playing config file shown cursors).tracks i = .ok track :=
      byteAt_ok htrack
    have hfound : findBuffered entry.offset entry.size.toNat
        (playing config file shown cursors).pendingReads =
          .ok (some ((file.encode.drop entry.offset).take entry.size.toNat)) :=
      findBuffered_whole (by omega) hinside
    rw [perform, hstep, stepStreaming, h]
    dsimp only
    rw [htrackAt, ok_bind, byteAt_ok hindex, ok_bind, byteAt_ok hk, ok_bind, byteAt_ok hentry,
      ok_bind, hfound, ok_bind]
    rfl

/-- The reader shows the samples that are left, in the order in which they are due. -/
theorem playing_plays
    (hleft : ((left (indicesRead file) cursors).map List.length).sum = n) :
    ∃ cursors' frames picks,
      Transition.run perform (playing config file shown cursors) (List.replicate n .step) =
        some (playing config file shown cursors', frames.map .frame) ∧
      (playing config file shown cursors').best = none ∧
      Merges (dueUs (indicesRead file)) (left (indicesRead file) cursors) picks ∧
      List.Forall₂ (Replays tracks samples) frames picks := by
  induction n generalizing cursors with
  | zero =>
    have hempty : ∀ q ∈ left (indicesRead file) cursors, q = [] := by
      intro q hq
      have hzero := List.sum_eq_zero_iff.mp hleft _ (List.mem_map_of_mem hq)
      exact List.length_eq_zero_iff.mp hzero
    refine ⟨cursors, [], [], rfl, ?_, .done hempty, .nil⟩
    cases hbest : (playing config file shown cursors).best with
    | none => rfl
    | some c =>
      obtain ⟨index, k, entry, hindex, hk, hentry, -⟩ := mem_candidates.mp (best_some hbest).1
      have hcons := left_cons.mpr ⟨index, entry, hindex, hk, hentry, rfl⟩
      cases hempty _ (List.mem_of_getElem? hcons)
  | succ n ih =>
    cases hbest : (playing config file shown cursors).best with
    | none =>
      -- a track that has a sample left would be a candidate
      have hempty : ∀ q ∈ left (indicesRead file) cursors, q.length = 0 := by
        intro q hq
        obtain ⟨i, hi⟩ := List.mem_iff_getElem?.mp hq
        cases q with
        | nil => rfl
        | cons k rest =>
          obtain ⟨index, entry, hindex, hk, hentry, -⟩ := left_cons.mp hi
          have hmem := mem_candidates (r := playing config file shown cursors).mpr
            ⟨index, k, entry, hindex, hk, hentry, rfl⟩
          rw [best_none hbest] at hmem
          cases hmem
      have hzero := List.sum_eq_zero_iff.mpr (List.forall_mem_map.mpr hempty)
      omega
    | some c =>
      obtain ⟨i, time⟩ := c
      obtain ⟨k, rest, frame, hqueue, hdue, hreplays, hstep⟩ :=
        playing_shows hrecorded hfits hshown hbest
      have hsum := sum_length_set hqueue
      have hset := left_set hqueue
      obtain ⟨cursors', frames, picks, hrun, hend, hmerges, hframes⟩ :=
        ih (show ((left (indicesRead file) (cursors.set i (k + 1))).map List.length).sum = n by
          rw [hset]
          omega)
      refine ⟨cursors', frame :: frames, (i, k) :: picks, ?_, hend, .next hqueue ?_ ?_,
        .cons hreplays hframes⟩
      · rw [List.replicate_succ, Transition.run, hstep]
        dsimp only
        rw [hrun]
        rfl
      · intro j m q hq
        obtain ⟨index, entry, hindex, hm, hentry, -⟩ := left_cons.mp hq
        have hle := (best_some hbest).2 (j, ticksToUs entry.dts index.timescale)
          (mem_candidates.mpr ⟨index, m, entry, hindex, hm, hentry, rfl⟩)
        rw [hdue, dueUs, hindex, Option.bind_some, hentry]
        exact hle
      · rwa [← hset]

end Play

section Parse
variable {r : Mp4Reader} {bytes payload : Bytes}

theorem tryParseHead_none (hlimit : min r.config.maxTopLevelScan r.fileSize = length)
    (hfound : findBuffered 0 length r.pendingReads = .ok (some bytes))
    (hmoov : findMoov r.config.maxBoxBytes true bytes.length 0 bytes = none) :
    r.tryParseHead = .ok (none, { r with state := .tailScan (r.fileSize - length) length }) := by
  unfold Mp4Reader.tryParseHead
  dsimp only
  rw [hlimit, hfound, ok_bind]
  dsimp only
  rw [hmoov]
  rfl

theorem tryParseHead_some (hlimit : min r.config.maxTopLevelScan r.fileSize = length)
    (hfound : findBuffered 0 length r.pendingReads = .ok (some bytes))
    (hmoov : findMoov r.config.maxBoxBytes true bytes.length 0 bytes = some payload) :
    r.tryParseHead = r.parseMoov payload := by
  unfold Mp4Reader.tryParseHead
  dsimp only
  rw [hlimit, hfound, ok_bind]
  dsimp only
  rw [hmoov]

theorem tryParseTail_some (hfound : findBuffered offset length r.pendingReads = .ok (some bytes))
    (hmoov : findMoov r.config.maxBoxBytes false bytes.length 0 bytes = some payload) :
    r.tryParseTail offset length = r.parseMoov payload := by
  unfold Mp4Reader.tryParseTail
  rw [hfound, ok_bind]
  dsimp only
  rw [hmoov]

end Parse

section Opening
variable {config : Mp4ReaderConfig} {file : Mp4File} {tracks : List TrackInfo}
  {samples : List Mp4Writer.Pushed}

/-- A reader that knows how long a file is, and the ranges of it. -/
def opening (config : Mp4ReaderConfig) (file : Mp4File) (pendingReads : List Mp4ReadResult)
    (outstanding : Option Mp4ReadRequest) : Mp4Reader where
  config
  fileSize := file.encode.length
  pendingReads
  outstanding

theorem encode_pos (file : Mp4File) : 0 < file.encode.length := by
  have hlength := encode_length file
  have hmdat := mdatHeader_length file.payload.length
  have hbase : chunkBase file =
      (writeFtyp file.majorBrand).length + (mdatHeader file.payload.length).length :=
    List.length_append
  omega

variable (hfits : Fits config file)
include hfits

/-- First all of the file is asked for. -/
theorem opening_asks : perform (opening config file [] none) .step =
    some (opening config file [] (some ⟨0, file.encode.length⟩),
      [.needBytes ⟨0, file.encode.length⟩]) := by
  have hlimit : min config.maxTopLevelScan file.encode.length = file.encode.length :=
    Nat.min_eq_right hfits.scanned
  have hrequest : (opening config file [] none).queueRequest ⟨0, file.encode.length⟩ =
      (.needBytes ⟨0, file.encode.length⟩,
        opening config file [] (some ⟨0, file.encode.length⟩)) := by
    unfold Mp4Reader.queueRequest
    simp only [opening, Nat.sub_zero, Nat.min_self]
    exact if_neg (Nat.ne_of_gt (encode_pos file))
  have hhead : (opening config file [] none).tryParseHead =
      .ok (some (.needBytes ⟨0, file.encode.length⟩),
        opening config file [] (some ⟨0, file.encode.length⟩)) := by
    have h : (opening config file [] none).tryParseHead =
        .ok (some ((opening config file [] none).queueRequest
            ⟨0, min config.maxTopLevelScan file.encode.length⟩).1,
          ((opening config file [] none).queueRequest
            ⟨0, min config.maxTopLevelScan file.encode.length⟩).2) := rfl
    rw [h, hlimit, hrequest]
  rw [perform]
  show (((opening config file [] none).tryParseHead >>= _).toOption.map _) = _
  rw [hhead]
  rfl

theorem opening_feeds : perform (opening config file [] (some ⟨0, file.encode.length⟩))
    (.feedBytes ⟨0, file.encode⟩) = some (opening config file [⟨0, file.encode⟩] none, []) := by
  have hword := hfits.word
  have hfound : findBuffered 0 file.encode.length [⟨0, file.encode⟩] =
      .ok (some ((file.encode.drop 0).take file.encode.length)) :=
    findBuffered_whole (by omega) (by omega)
  have hfeed : (opening config file [] (some ⟨0, file.encode.length⟩)).feedBytes
      ⟨0, file.encode⟩ = .ok (opening config file [⟨0, file.encode⟩] none) := by
    unfold Mp4Reader.feedBytes
    dsimp only [opening, List.nil_append]
    rw [hfound]
    rfl
  rw [perform, hfeed]
  rfl

/-- A reader that looks for the tracks from the end of the file. -/
def scanning (config : Mp4ReaderConfig) (file : Mp4File) : Mp4Reader :=
  { opening config file [⟨0, file.encode⟩] none with state := .tailScan 0 file.encode.length }

theorem found_whole : findBuffered 0 file.encode.length [⟨0, file.encode⟩] =
    .ok (some file.encode) := by
  have hword := hfits.word
  rw [findBuffered_whole (by omega) (by omega), List.drop_zero, List.take_length]

theorem head_stops (hstop : 0 < file.payload.length) :
    (opening config file [⟨0, file.encode⟩] none).tryParseHead =
      .ok (none, scanning config file) := by
  have htail : scanning config file = { opening config file [⟨0, file.encode⟩] none with
      state := .tailScan (file.encode.length - file.encode.length) file.encode.length } := by
    rw [Nat.sub_self]
    rfl
  rw [htail]
  exact tryParseHead_none (Nat.min_eq_right hfits.scanned) (found_whole hfits)
    ((findMoov_written hfits true).trans (if_pos ⟨rfl, hstop⟩))

theorem head_finds (hgo : ¬0 < file.payload.length) :
    (opening config file [⟨0, file.encode⟩] none).tryParseHead =
      (opening config file [⟨0, file.encode⟩] none).parseMoov
        ((moovBoxes file).flatMap (·.2)) :=
  tryParseHead_some (Nat.min_eq_right hfits.scanned) (found_whole hfits)
    ((findMoov_written hfits true).trans (if_neg fun h => hgo h.2))

theorem tail_finds : (scanning config file).tryParseTail 0 file.encode.length =
    (scanning config file).parseMoov ((moovBoxes file).flatMap (·.2)) :=
  tryParseTail_some (found_whole hfits)
    ((findMoov_written hfits false).trans (if_neg (by simp)))

/-- Then the tracks are announced. -/
theorem opening_announces (hrecorded : Mp4Writer.Recorded file tracks samples) : ∃ shown,
    List.Forall₂ (fun p track => Announced p.1 p.2 track) file.tracks.zipIdx shown ∧
      perform (opening config file [⟨0, file.encode⟩] none) .step =
        some (playing config file shown (file.tracks.map fun _ => 0), [.tracks shown]) := by
  by_cases hstop : 0 < file.payload.length
  · -- behind the samples the tracks are found from the end of the file
    obtain ⟨shown, hshown, hparse⟩ := parseMoov_written (r := scanning config file) hrecorded hfits
      rfl rfl rfl
    refine ⟨shown, hshown, ?_⟩
    rw [perform]
    show (((opening config file [⟨0, file.encode⟩] none).tryParseHead >>= _).toOption.map _) = _
    rw [head_stops hfits hstop]
    show (((scanning config file).tryParseTail 0 file.encode.length >>= _).toOption.map _) = _
    rw [tail_finds hfits, hparse]
    rfl
  · obtain ⟨shown, hshown, hparse⟩ := parseMoov_written
      (r := opening config file [⟨0, file.encode⟩] none) hrecorded hfits rfl rfl rfl
    refine ⟨shown, hshown, ?_⟩
    rw [perform]
    show (((opening config file [⟨0, file.encode⟩] none).tryParseHead >>= _).toOption.map _) = _
    rw [head_finds hfits hstop, hparse]
    rfl

end Opening

section Order
variable {config : Mp4ReaderConfig} {file : Mp4File} {tracks : List TrackInfo}
  {samples : List Mp4Writer.Pushed} {tb : TrackBuilder} {q : List Nat} {i : Nat}

theorem ticksToUs_mono (h : a ≤ b) (timescale : Nat) :
    ticksToUs a timescale ≤ ticksToUs b timescale := by
  unfold ticksToUs
  split
  · exact h
  · rename_i hzero
    have hdiv := Int.tdiv_le_tdiv (show (0 : Int) < timescale by omega)
      (show a * 1000000 ≤ b * 1000000 by omega)
    unfold saturateI64 I64_MIN I64_MAX
    omega

theorem indexRead_length (tb : TrackBuilder) (trackId base : Nat) :
    (indexRead tb trackId base).samples.length = tb.samples.length := by
  simp [indexRead]

theorem left_start (h : (left (indicesRead file) (file.tracks.map fun _ => 0))[i]? = some q) :
    ∃ tb, file.tracks[i]? = some tb ∧ q = List.range tb.samples.length := by
  rw [left, List.getElem?_map, Option.map_eq_some_iff] at h
  obtain ⟨⟨index, k⟩, hzip, rfl⟩ := h
  obtain ⟨hindex, hk⟩ := List.getElem?_zip_eq_some.mp hzip
  rw [List.getElem?_map, Option.map_eq_some_iff] at hk
  obtain ⟨-, -, rfl⟩ := hk
  obtain ⟨tb, htb, rfl⟩ := indicesRead_some hindex
  refine ⟨tb, htb, ?_⟩
  show List.range' 0 ((indexRead tb (i + 1) (chunkBase file)).samples.length - 0) = _
  rw [indexRead_length, Nat.sub_zero, List.range_eq_range']

theorem left_track (h : file.tracks[i]? = some tb) :
    (left (indicesRead file) (file.tracks.map fun _ => 0))[i]? =
      some (List.range tb.samples.length) := by
  have hlength : i < (left (indicesRead file) (file.tracks.map fun _ => 0)).length := by
    have hi := (List.getElem?_eq_some_iff.mp h).1
    simpa [left, indicesRead] using hi
  have hget := List.getElem?_eq_getElem hlength
  obtain ⟨tb', htb', heq⟩ := left_start hget
  rw [h] at htb'
  obtain rfl := Option.some.inj htb'
  rw [hget, heq]

/-- The samples of a track are due in their order. -/
theorem due_ascending (hrecorded : Mp4Writer.Recorded file tracks samples)
    (hfits : Fits config file)
    (h : (left (indicesRead file) (file.tracks.map fun _ => 0))[i]? = some q) :
    q.Pairwise fun k m => dueUs (indicesRead file) i k ≤ dueUs (indicesRead file) i m := by
  obtain ⟨tb, htb, rfl⟩ := left_start h
  obtain ⟨track, -, hread⟩ := trak_read hrecorded hfits htb
  have hascending := (fromZero_of_parseTrak (hread 0)).ascending
  have hindex : (indicesRead file)[i]? = some (indexRead tb (i + 1) (chunkBase file)) := by
    rw [indicesRead, List.getElem?_map, List.getElem?_zipIdx, htb, Option.map_some, Nat.zero_add]
    rfl
  rw [← indexRead_length tb (i + 1) (chunkBase file)]
  generalize indexRead tb (i + 1) (chunkBase file) = index at hindex hascending
  refine List.pairwise_lt_range.imp_of_mem fun {k m} hk hm hlt => ?_
  rw [List.mem_range] at hk hm
  rw [dueUs, dueUs, hindex, Option.bind_some, Option.bind_some, List.getElem?_eq_getElem hk,
    List.getElem?_eq_getElem hm]
  exact ticksToUs_mono (List.pairwise_iff_getElem.mp hascending k m hk hm hlt) _

/-- Every frame of a run is a sample, as long as the reader is told the truth. -/
theorem run_replays (hrecorded : Mp4Writer.Recorded file tracks samples) (hfits : Fits config file)
    (htruth : ∀ op ∈ ops, TellsTruth file op)
    (hrun : Transition.run perform { config } ops = some (r, events)) :
    ∀ frame ∈ events.filterMap frameOf, ∃ pick, Replays tracks samples frame pick := by
  let Inv (events : List Mp4ReadEvent) (r : Mp4Reader) : Prop :=
    (Valid r ∧ Genuine config file r) ∧
      ∀ frame ∈ events.filterMap frameOf, ∃ pick, Replays tracks samples frame pick
  have hstart : Inv [] { config } :=
    ⟨⟨valid_new config, genuine_new config file⟩, fun frame hframe => by cases hframe⟩
  have hstep (es : List Mp4ReadEvent) (r : Mp4Reader) (op : ReaderOp) (r' : Mp4Reader)
      (events : List Mp4ReadEvent) (h : Inv es r) (hop : TellsTruth file op)
      (hok : perform r op = some (r', events)) : Inv (es ++ events) r' := by
    obtain ⟨⟨hvalid, hgenuine⟩, hframes⟩ := h
    refine ⟨⟨valid_perform hvalid hok, hgenuine.perform hrecorded hfits hop hok⟩, ?_⟩
    rw [List.filterMap_append]
    intro frame hframe
    rcases List.mem_append.mp hframe with hold | hnew
    · exact hframes frame hold
    · exact performed_frame hrecorded hfits hvalid hgenuine hok frame hnew
  exact (Transition.run_traced Inv hstep [] hstart (Transition.along_of_forall htruth) hrun).2

/-- What a player does that only hands over what it is asked for. -/
def playAll (file : Mp4File) (n : Nat) : List ReaderOp :=
  [.setFileSize file.encode.length, .step, .feedBytes ⟨0, file.encode⟩] ++
    List.replicate (n + 2) .step

theorem playAll_runs {shown : List TrackInfo} {cursors cursors' : List Nat}
    (hfits : Fits config file)
    (hannounces : perform (opening config file [⟨0, file.encode⟩] none) .step =
      some (playing config file shown cursors, [.tracks shown]))
    (hrun : Transition.run perform (playing config file shown cursors) (List.replicate n .step) =
      some (playing config file shown cursors', events))
    (hend : (playing config file shown cursors').best = none) :
    Transition.run perform { config } (playAll file n) =
      some (playing config file shown cursors',
        [.needBytes ⟨0, file.encode.length⟩, .tracks shown] ++ (events ++ [.eof])) := by
  have hopens : perform { config } (.setFileSize file.encode.length) =
      some (opening config file [] none, []) := rfl
  have hlast : Transition.run perform (playing config file shown cursors') [.step] =
      some (playing config file shown cursors', [.eof]) := by
    rw [Transition.run, playing_ends hend]
    rfl
  have hplays := Transition.run_append (List.replicate n .step) [ReaderOp.step] hrun
  rw [hlast, ← List.replicate_succ'] at hplays
  rw [playAll, List.replicate_succ, List.cons_append, Transition.run, hopens]
  dsimp only
  rw [List.cons_append, Transition.run, opening_asks hfits]
  dsimp only
  rw [List.cons_append, Transition.run, opening_feeds hfits]
  dsimp only
  rw [List.nil_append, Transition.run, hannounces]
  dsimp only
  rw [hplays]
  rfl

/-- What the writer was given is what a player gets of its file. Whatever the player does with the
reader and in whatever order, as long as it tells the truth about the file, every frame is one of
the samples, byte for byte and on its track. A player that only hands over what it is asked for
gets the tracks, then all the samples once, those of a track in their order and all of them as they
are due, and then the end. -/
theorem recording_replayed (hwrites : Mp4Writer.Writes writerConfig tracks samples file)
    (hfits : Fits config file) :
    (∀ ops r events, (∀ op ∈ ops, TellsTruth file op) →
      Transition.run perform { config } ops = some (r, events) →
      ∀ frame ∈ events.filterMap frameOf, ∃ pick, Replays tracks samples frame pick) ∧
    ∃ n r shown frames picks,
      Transition.run perform { config } (playAll file n) =
        some (r, [.needBytes ⟨0, file.encode.length⟩, .tracks shown] ++
          (frames.map .frame ++ [.eof])) ∧
      List.Forall₂ (fun p track => Announced p.1 p.2 track) file.tracks.zipIdx shown ∧
      List.Forall₂ (Replays tracks samples) frames picks ∧
      (∀ i < tracks.length,
        picksOf i picks = List.range (Mp4Writer.givenTo tracks samples i).length) ∧
      picks.Pairwise fun a b => dueUs r.indices a.1 a.2 ≤ dueUs r.indices b.1 b.2 := by
  have hrecorded := Mp4Writer.recorded_of_writes hwrites
  constructor
  · intro ops r events htruth hrun
    exact run_replays hrecorded hfits htruth hrun
  · obtain ⟨shown, hshown, hannounces⟩ := opening_announces hfits hrecorded
    obtain ⟨n, hn⟩ : ∃ n, ((left (indicesRead file) (file.tracks.map fun _ => 0)).map
      List.length).sum = n := ⟨_, rfl⟩
    obtain ⟨cursors, frames, picks, hrun, hend, hmerges, hframes⟩ :=
      playing_plays hrecorded hfits hshown hn
    refine ⟨n, playing config file shown cursors, shown, frames, picks,
      playAll_runs hfits hannounces hrun hend, hshown, hframes, ?_, ?_⟩
    · intro i hi
      have hentries := congrArg List.length hrecorded.entries
      rw [List.length_map, List.length_map] at hentries
      obtain ⟨tb, htb⟩ : ∃ tb, file.tracks[i]? = some tb :=
        ⟨_, List.getElem?_eq_getElem (hentries ▸ hi)⟩
      have hgiven := congrArg List.length (hrecorded.samples i tb htb)
      rw [List.length_map, List.length_map] at hgiven
      rw [← hgiven]
      exact hmerges.queue (left_track htb)
    · exact hmerges.sorted fun i q hq => due_ascending hrecorded hfits hq

end Order

theorem recording_replayed_two : ∃ file n r shown frames picks,
    Mp4Writer.Writes {} [videoTrack] (pushedAt [0, 100000]) file ∧
      Transition.run perform { config := {} } (playAll file n) =
        some (r, [.needBytes ⟨0, file.encode.length⟩, .tracks shown] ++
          (frames.map .frame ++ [.eof])) ∧
      List.Forall₂ (Replays [videoTrack] (pushedAt [0, 100000])) frames picks ∧
      picksOf 0 picks = [0, 1] := by
  have hfile : ∃ file, Mp4Writer.Writes {} [videoTrack] (pushedAt [0, 100000]) file ∧
      file.encode.length = 644 ∧
      ∀ tb ∈ file.tracks, tb.samples.length ≤ SampleTable.MAX_SAMPLES ∧ tb.timescale < 2 ^ 32 :=
    ⟨_, ⟨_, _, rfl, rfl, rfl⟩, by decide +kernel, by decide⟩
  obtain ⟨file, hwrites, hlength, htracks⟩ := hfile
  have hfits : Fits {} file := by
    refine ⟨?_, ?_, ?_, fun tb htb => (htracks tb htb).1, fun tb htb => (htracks tb htb).2⟩
    all_goals
      rw [hlength]
      decide
  obtain ⟨n, r, shown, frames, picks, hrun, -, hframes, hpicks, -⟩ :=
    (recording_replayed hwrites hfits).2
  exact ⟨file, n, r, shown, frames, picks, hwrites, hrun, hframes, hpicks 0 (by decide)⟩

end CheetahMedia.Codec.Mp4
