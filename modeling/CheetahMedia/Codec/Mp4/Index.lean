import CheetahMedia.Codec.Mp4.SampleTable
import Mathlib.Algebra.Order.Group.Nat

namespace CheetahMedia.Codec.SampleTable
open Lib Lib.Checked Lib.RunLength

/-- The samples of a chunk, by the last of the runs that start no later than it. -/
def samplesInChunk (t : SampleTable) (chunk : Nat) : Nat :=
  match (t.stsc.filter fun entry => entry.firstChunk.toNat ≤ chunk).getLast? with
  | some entry => entry.samplesPerChunk.toNat
  | none => 0

/-- The samples in their order: where its chunk starts, and its number in the chunk. -/
def placesIn (samplesOf : Nat → Nat) (chunks : List (UInt64 × Nat)) : List (Nat × Nat) :=
  chunks.flatMap fun c => (List.range (samplesOf (c.2 + 1))).map fun k => (c.1.toNat, k)

def places (t : SampleTable) : List (Nat × Nat) := placesIn t.samplesInChunk t.stco.zipIdx

/-- The sizes of `k` samples in a row. -/
def bytesOf (t : SampleTable) (n k : Nat) : Nat :=
  ((List.range' n k).map fun j => (t.sizeFor j).toNat).sum

def ticks (deltas : List UInt32) : Nat := (deltas.map UInt32.toNat).sum

/-- What the standard says of sample `n`, which has a place in a chunk. -/
def isoEntry (t : SampleTable) (n : Nat) (place : Nat × Nat) : SampleIndexEntry where
  offset := place.1 + t.bytesOf (n - place.2) place.2
  size := t.sizeFor n
  dts := ticks ((expand t.sttsRuns).take n)
  ctsOffset := (expand t.cttsRuns)[n]?.getD 0
  duration := (expand t.sttsRuns)[n]?.getD 0
  isSync := match t.stss with
    | some set => set.any fun number => number.toNat = n + 1
    | none => true

def isoIndex (t : SampleTable) (timescale : Nat) : SampleIndex where
  timescale
  samples := t.places.zipIdx.map fun (place, n) => t.isoEntry n place
  duration := ticks (expand t.sttsRuns)

/-- Tables that agree on the number of samples. -/
structure Consistent (t : SampleTable) : Prop where
  starts : ∀ entry ∈ t.stsc.head?, entry.firstChunk = 1
  ascending : t.stsc.Pairwise (·.firstChunk < ·.firstChunk)
  chunks : t.stco.length < 2 ^ 32
  durations : (expand t.sttsRuns).length = t.places.length
  offsets : t.ctts ≠ [] → (expand t.cttsRuns).length = t.places.length
  sizes : t.stszDefault = 0 → t.stszSizes.length = t.places.length

/-- The samples in the order in which the chunks are walked. -/
def walked (t : SampleTable) : List (Nat × Nat) :=
  placesIn (fun chunk => (t.samplesPerChunkFor (UInt32.ofNat chunk)).toNat) t.stco.zipIdx

/-- Every sample starts where a word of 64 bits can say. -/
def OffsetsFit (t : SampleTable) : Prop :=
  ∀ n place, n < t.rawTotal → t.walked[n]? = some place →
    place.1 + t.bytesOf (n - place.2) place.2 < 2 ^ 64

theorem bytesOf_succ (t : SampleTable) (n k : Nat) :
    t.bytesOf n (k + 1) = t.bytesOf n k + (t.sizeFor (n + k)).toNat := by
  simp [bytesOf, List.range'_1_concat]

theorem bytesOf_le (t : SampleTable) (n k : Nat) : t.bytesOf n k ≤ k * 2 ^ 32 := by
  induction k with
  | zero => simp [bytesOf]
  | succ k ih =>
    rw [bytesOf_succ]
    have hsize := (t.sizeFor (n + k)).toNat_lt
    omega

theorem ticks_le (deltas : List UInt32) : ticks deltas ≤ deltas.length * 2 ^ 32 := by
  induction deltas with
  | nil => simp [ticks]
  | cons d deltas ih =>
    have hd := d.toNat_lt
    simp only [ticks, List.map_cons, List.sum_cons, List.length_cons] at ih ⊢
    omega

theorem ticks_take_succ {deltas : List UInt32} (h : deltas.drop n = d :: rest) :
    ticks (deltas.take (n + 1)) = ticks (deltas.take n) + d.toNat := by
  have hget : deltas[n]? = some d := by
    rw [← List.head?_drop, h]
    rfl
  simp [ticks, List.take_add_one, hget]

/-- On ascending runs both ways to look a chunk up agree. -/
theorem samplesPerChunkIn_eq {stsc : List StscEntry}
    (h : stsc.Pairwise (·.firstChunk < ·.firstChunk)) (chunkNo : UInt32) :
    (samplesPerChunkIn chunkNo stsc).toNat =
      match (stsc.filter fun entry => entry.firstChunk.toNat ≤ chunkNo.toNat).getLast? with
      | some entry => entry.samplesPerChunk.toNat
      | none => 0 := by
  induction stsc with
  | nil => rfl
  | cons entry stsc ih =>
    cases stsc with
    | nil =>
      by_cases hle : entry.firstChunk ≤ chunkNo
      · simp [samplesPerChunkIn, hle, UInt32.le_iff_toNat_le.mp hle]
      · have hnat := mt UInt32.le_iff_toNat_le.mpr hle
        simp [samplesPerChunkIn, hle, hnat]
    | cons next rest =>
      obtain ⟨hfirst, hrest⟩ := List.pairwise_cons.mp h
      by_cases hnext : next.firstChunk ≤ chunkNo
      · -- the run at hand ends before the chunk
        have hnot : ¬(entry.firstChunk ≤ chunkNo ∧ chunkNo < next.firstChunk) := by
          rintro ⟨-, hlt⟩
          exact absurd hnext (UInt32.not_le.mpr hlt)
        have hmem : next ∈ (next :: rest).filter
            fun entry => decide (entry.firstChunk.toNat ≤ chunkNo.toNat) := by
          simp [UInt32.le_iff_toNat_le.mp hnext]
        have hlast : ((entry :: next :: rest).filter
              fun entry => decide (entry.firstChunk.toNat ≤ chunkNo.toNat)).getLast? =
            ((next :: rest).filter
              fun entry => decide (entry.firstChunk.toNat ≤ chunkNo.toNat)).getLast? := by
          rw [List.filter_cons (x := entry)]
          split
          · rw [List.getLast?_cons_of_ne_nil (List.ne_nil_of_mem hmem)]
          · rfl
        rw [samplesPerChunkIn, if_neg hnot, ih hrest, hlast]
      · -- no later run starts before the chunk
        have hnil : (next :: rest).filter
            (fun entry => decide (entry.firstChunk.toNat ≤ chunkNo.toNat)) = [] := by
          rw [List.filter_eq_nil_iff]
          intro later hlater
          have hle : next.firstChunk ≤ later.firstChunk := by
            rcases List.mem_cons.mp hlater with rfl | hlater
            · exact UInt32.le_refl _
            · exact UInt32.le_of_lt ((List.pairwise_cons.mp hrest).1 later hlater)
          simp only [UInt32.le_iff_toNat_le, decide_eq_true_eq] at hnext hle ⊢
          omega
        have hlt : chunkNo < next.firstChunk := UInt32.not_le.mp hnext
        by_cases hle : entry.firstChunk ≤ chunkNo
        · rw [samplesPerChunkIn, if_pos ⟨hle, hlt⟩, List.filter_cons, hnil,
            if_pos (by simpa using UInt32.le_iff_toNat_le.mp hle)]
          rfl
        · rw [samplesPerChunkIn, if_neg fun h => hle h.1, ih hrest, List.filter_cons (x := entry),
            if_neg (by simpa using mt UInt32.le_iff_toNat_le.mpr hle)]

theorem samplesPerChunkFor_eq (h : Consistent t) (hi : i < t.stco.length) :
    (t.samplesPerChunkFor (UInt32.ofNat (i + 1))).toNat = t.samplesInChunk (i + 1) := by
  have hchunks := h.chunks
  have hno : (UInt32.ofNat (i + 1)).toNat = i + 1 := by
    rw [UInt32.toNat_ofNat']
    omega
  rw [samplesPerChunkFor, samplesPerChunkIn_eq h.ascending, hno]
  rfl

theorem walked_eq (h : Consistent t) : t.walked = t.places := by
  unfold walked places placesIn
  rw [List.flatMap_def, List.flatMap_def]
  congr 1
  apply List.map_congr_left
  intro c hc
  have hi : c.2 < t.stco.length := by
    have := List.snd_lt_of_mem_zipIdx hc
    omega
  exact congrArg (fun k => (List.range k).map fun k => (c.1.toNat, k))
    (samplesPerChunkFor_eq h hi)

/-- The saturating sum is the number of places, as far as a word can count. -/
theorem totalSamplesFromStsc_eq (t : SampleTable) :
    t.totalSamplesFromStsc = min t.walked.length (2 ^ 64 - 1) := by
  have hlist : t.stco.zipIdx.map (·.2) = List.range t.stco.length := by
    rw [List.zipIdx_map_snd, ← List.range_eq_range']
  unfold totalSamplesFromStsc walked
  rw [← hlist]
  suffices h : ∀ (chunks : List (UInt64 × Nat)) (total : Nat),
      (chunks.map (·.2)).foldl (fun total i =>
        min (total + (t.samplesPerChunkFor (UInt32.ofNat (i + 1))).toNat) (2 ^ 64 - 1))
        (min total (2 ^ 64 - 1)) =
      min (total + (placesIn (fun chunk => (t.samplesPerChunkFor (UInt32.ofNat chunk)).toNat)
        chunks).length) (2 ^ 64 - 1) by
    simpa using h t.stco.zipIdx 0
  intro chunks
  induction chunks with
  | nil => simp [placesIn]
  | cons c chunks ih =>
    intro total
    have hstep : min (min total (2 ^ 64 - 1) +
          (t.samplesPerChunkFor (UInt32.ofNat (c.2 + 1))).toNat) (2 ^ 64 - 1) =
        min (total + (t.samplesPerChunkFor (UInt32.ofNat (c.2 + 1))).toNat) (2 ^ 64 - 1) := by
      omega
    rw [List.map_cons, List.foldl_cons, hstep, ih]
    simp [placesIn, Nat.add_assoc]

theorem rawTotal_eq (h : Consistent t)
    (hlt : t.rawTotal ≤ MAX_SAMPLES ∨ t.places.length ≤ MAX_SAMPLES) :
    t.rawTotal = t.places.length := by
  unfold rawTotal at *
  split
  · rename_i hzero
    exact h.sizes hzero
  · rename_i hzero
    simp only [if_neg hzero, totalSamplesFromStsc_eq, walked_eq h, MAX_SAMPLES] at hlt ⊢
    omega

/-- What the walk has once `n` samples are indexed. -/
structure Indexed (t : SampleTable) (n : Nat) (w : Walk) : Prop where
  stts : w.stts.pending = (expand t.sttsRuns).drop n
  ctts : t.ctts ≠ [] → w.ctts.pending = (expand t.cttsRuns).drop n
  dts : w.currentDts = ticks ((expand t.sttsRuns).take n)
  samples : w.samples = (t.isoIndex 0).samples.take n

/-- The number of samples is right for any tables, their entries for consistent ones. -/
structure Reaches (t : SampleTable) (n : Nat) (w : Walk) : Prop where
  length : w.samples.length = n
  indexed : t.Consistent → Indexed t n w

theorem reaches_start (t : SampleTable) : Reaches t 0 t.start where
  length := rfl
  indexed _ := ⟨Cursor.pending_start _ _, fun _ => Cursor.pending_start _ _, rfl, rfl⟩

theorem isoSamples_length (t : SampleTable) (timescale : Nat) :
    (t.isoIndex timescale).samples.length = t.places.length := by
  simp [isoIndex]

theorem isSyncAt_eq (hn : n < MAX_SAMPLES) (t : SampleTable) :
    t.isSyncAt n = (match t.stss with
      | some set => set.any fun number => number.toNat = n + 1
      | none => true) := by
  unfold MAX_SAMPLES at hn
  have hno : (UInt32.ofNat (n + 1)).toNat = n + 1 := by
    rw [UInt32.toNat_ofNat']
    omega
  unfold isSyncAt
  cases t.stss with
  | none => rfl
  | some set =>
    show set.contains (UInt32.ofNat (n + 1)) = set.any fun number => number.toNat = n + 1
    rw [List.contains_eq_any_beq]
    congr 1
    funext number
    rw [Bool.eq_iff_iff, beq_iff_eq, decide_eq_true_eq, ← UInt32.toNat_inj, hno]
    exact eq_comm

/-- The allowed panics of the walk. -/
def Unfit (t : SampleTable) (e : Panic) : Prop := e = .overflow ∧ ¬t.OffsetsFit

/-- The entry of the next sample is the one that the standard says. -/
theorem Indexed.push (h : Indexed t n w) (hc : t.Consistent) (hn : n < MAX_SAMPLES)
    (hplace : t.places[n]? = some place) (hlength : w.samples.length = n) :
    Indexed t (n + 1)
      { stts := (w.stts.next sttsSpent).2, ctts := (w.nextCts t).2
        currentDts := saturateI64 (w.currentDts + (w.stts.next sttsSpent).1.toNat)
        samples := w.samples ++ [{
          offset := place.1 + t.bytesOf (n - place.2) place.2
          size := t.sizeFor w.samples.length
          dts := w.currentDts
          ctsOffset := (w.nextCts t).1
          duration := (w.stts.next sttsSpent).1
          isSync := t.isSyncAt w.samples.length }] } := by
  have hlt : n < t.places.length := (List.getElem?_eq_some_iff.mp hplace).1
  have hdurations : n < (expand t.sttsRuns).length := hc.durations ▸ hlt
  have hdrop := List.drop_eq_getElem_cons hdurations
  obtain ⟨hduration, hstts⟩ := Cursor.next_of_pending sttsSpent (h.stts.trans hdrop)
  have hcts : (w.nextCts t).1 = (expand t.cttsRuns)[n]?.getD 0 ∧
      (t.ctts ≠ [] → (w.nextCts t).2.pending = (expand t.cttsRuns).drop (n + 1)) := by
    unfold Walk.nextCts
    by_cases hnil : t.ctts = []
    · simp [hnil, cttsRuns]
    · have hoffsets : n < (expand t.cttsRuns).length := hc.offsets hnil ▸ hlt
      obtain ⟨hvalue, hctts⟩ := Cursor.next_of_pending cttsSpent
        ((h.ctts hnil).trans (List.drop_eq_getElem_cons hoffsets))
      rw [if_neg (by simpa using hnil), hvalue, List.getElem?_eq_getElem hoffsets]
      exact ⟨rfl, fun _ => hctts⟩
  have hticks := ticks_take_succ hdrop
  have hle := ticks_le ((expand t.sttsRuns).take (n + 1))
  have htake : ((expand t.sttsRuns).take (n + 1)).length ≤ n + 1 := List.length_take_le _ _
  refine ⟨hstts, hcts.2, ?_, ?_⟩
  · show saturateI64 (w.currentDts + _) = _
    rw [h.dts, hduration]
    unfold saturateI64 I64_MIN I64_MAX
    unfold MAX_SAMPLES at hn
    omega
  · have hentry : (t.isoIndex 0).samples[n]? = some (t.isoEntry n place) := by
      simp [isoIndex, hplace]
    show w.samples ++ [_] = _
    rw [List.take_add_one, hentry, h.samples, ← h.samples, hlength, isSyncAt_eq hn]
    simp [isoEntry, hcts.1, hduration, h.dts, List.getElem?_eq_getElem hdurations]

theorem Reaches.pushSample (h : Reaches t n w) (hn : n < t.rawTotal)
    (hmax : t.rawTotal ≤ MAX_SAMPLES) (hplace : t.walked[n]? = some (chunkOff, k)) :
    Yields (Unfit t) (w.pushSample t chunkOff (t.bytesOf (n - k) k)) (Reaches t (n + 1)) := by
  unfold Walk.pushSample
  refine .u64_bind ?_ ?_
  · by_cases hfit : t.OffsetsFit
    · exact .inr (hfit n _ hn hplace)
    · exact .inl ⟨rfl, hfit⟩
  · refine .pure ⟨by simp [h.length], fun hc => ?_⟩
    exact (h.indexed hc).push hc (by omega) (walked_eq hc ▸ hplace) h.length

/-- A whole chunk, or what is left of the declared samples. -/
theorem Reaches.walkChunk (h : Reaches t n w) (hn : n ≤ t.rawTotal)
    (hmax : t.rawTotal ≤ MAX_SAMPLES)
    (hplaces : t.walked.drop n = (List.range' k m).map (chunkOff, ·) ++ rest) (hk : k ≤ n) :
    Yields (Unfit t) (t.walkChunk t.rawTotal chunkOff m (t.bytesOf (n - k) k) w)
      (Reaches t (min (n + m) t.rawTotal)) := by
  induction m generalizing n k w with
  | zero =>
    rw [Nat.add_zero, Nat.min_eq_left hn]
    exact .pure h
  | succ m ih =>
    rw [SampleTable.walkChunk, h.length]
    split
    · rename_i htotal
      rw [show min (n + (m + 1)) t.rawTotal = n by omega]
      exact .pure h
    · rename_i htotal
      rw [List.range'_succ, List.map_cons, List.cons_append] at hplaces
      have hplace : t.walked[n]? = some (chunkOff, k) := by
        rw [← List.head?_drop, hplaces]
        rfl
      have hdrop : t.walked.drop (n + 1) = (List.range' (k + 1) m).map (chunkOff, ·) ++ rest := by
        rw [← List.drop_drop, hplaces]
        rfl
      refine (h.pushSample (by omega) hmax hplace).bind fun w' hw' => ?_
      have hbytes : t.bytesOf (n - k) k + (t.sizeFor n).toNat =
          t.bytesOf (n + 1 - (k + 1)) (k + 1) := by
        rw [Nat.add_sub_add_right, bytesOf_succ, Nat.sub_add_cancel hk]
      have hbound := t.bytesOf_le (n + 1 - (k + 1)) (k + 1)
      unfold MAX_SAMPLES at hmax
      rw [hbytes]
      refine .u64_bind (.inr (by omega)) ?_
      rw [show n + (m + 1) = n + 1 + m by omega]
      exact ih hw' (by omega) hdrop (by omega)

theorem Reaches.walkChunks (h : Reaches t n w) (hn : n ≤ min t.walked.length t.rawTotal)
    (hmax : t.rawTotal ≤ MAX_SAMPLES)
    (hplaces : t.walked.drop n = placesIn
      (fun chunk => (t.samplesPerChunkFor (UInt32.ofNat chunk)).toNat) chunks) :
    Yields (Unfit t) (t.walkChunks t.rawTotal chunks w)
      (Reaches t (min t.walked.length t.rawTotal)) := by
  induction chunks generalizing n w with
  | nil =>
    have hend : t.walked.length ≤ n := List.drop_eq_nil_iff.mp hplaces
    rw [show min t.walked.length t.rawTotal = n by omega]
    exact .pure h
  | cons c chunks ih =>
    obtain ⟨chunkOff, i⟩ := c
    let m := (t.samplesPerChunkFor (UInt32.ofNat (i + 1))).toNat
    have hcons : t.walked.drop n = (List.range' 0 m).map (chunkOff.toNat, ·) ++
        placesIn (fun chunk => (t.samplesPerChunkFor (UInt32.ofNat chunk)).toNat) chunks := by
      rw [hplaces, placesIn, List.flatMap_cons, List.range_eq_range']
      rfl
    have hlength := congrArg List.length hcons
    rw [List.length_drop, List.length_append, List.length_map, List.length_range'] at hlength
    rw [SampleTable.walkChunks]
    refine (h.walkChunk (by omega) hmax hcons (Nat.zero_le n)).bind fun w' hw' => ?_
    rw [hw'.length]
    split
    · rename_i htotal
      rw [show min t.walked.length t.rawTotal = min (n + m) t.rawTotal by omega]
      exact .pure hw'
    · rename_i htotal
      rw [show min (n + m) t.rawTotal = n + m by omega] at hw'
      refine ih hw' (by omega) ?_
      rw [← List.drop_drop, hcons, List.drop_left' (by simp)]

/-- Walking the chunks ends after the declared samples, and panics only on an offset that does
not fit. -/
theorem walkChunks_yields (hmax : t.rawTotal ≤ MAX_SAMPLES) :
    Yields (Unfit t) (t.walkChunks t.rawTotal t.stco.zipIdx t.start)
      (Reaches t (min t.walked.length t.rawTotal)) :=
  t.reaches_start.walkChunks (Nat.zero_le _) hmax rfl

/-- The index of consistent tables. -/
theorem buildIndex_eq (h : Consistent t) (hmax : t.places.length ≤ MAX_SAMPLES)
    (hfit : t.OffsetsFit) (timescale : Nat) :
    t.buildIndex timescale = .ok (.ok (t.isoIndex timescale)) := by
  have htotal := rawTotal_eq h (.inr hmax)
  rw [← htotal] at hmax
  obtain ⟨w, hw, hreaches⟩ := (walkChunks_yields hmax).exists_ok_of fun _ h => h.2 hfit
  rw [walked_eq h, htotal, Nat.min_self] at hreaches
  obtain ⟨-, -, hdts, hsamples⟩ := hreaches.indexed h
  rw [List.take_of_length_le (by rw [h.durations])] at hdts
  rw [List.take_of_length_le (by rw [isoSamples_length])] at hsamples
  rw [buildIndex, if_neg (by omega), hw]
  have hindex : (SampleIndex.mk 0 timescale w.samples w.currentDts) = t.isoIndex timescale := by
    rw [hsamples, hdts]
    rfl
  rw [← hindex]
  rfl

/-- An index has no more samples than the tables declare. -/
theorem buildIndex_yields (t : SampleTable) (timescale : Nat) :
    Yields (Unfit t) (t.buildIndex timescale) fun result => ∀ index, result = .ok index →
      index.samples.length ≤ t.rawTotal ∧ index.samples.length ≤ MAX_SAMPLES := by
  unfold buildIndex
  split
  · exact .pure nofun
  · rename_i hmax
    refine (walkChunks_yields (by omega)).bind fun w hw => .pure ?_
    rintro index ⟨⟩
    have hlength := hw.length
    show w.samples.length ≤ _ ∧ w.samples.length ≤ _
    omega

theorem offsetsFit_of_iso (h : Consistent t)
    (hfit : ∀ entry ∈ (t.isoIndex timescale).samples, entry.offset < 2 ^ 64) : t.OffsetsFit := by
  intro n place hn hplace
  rw [walked_eq h] at hplace
  refine hfit (t.isoEntry n place) (List.mem_map.mpr ⟨(place, n), ?_, rfl⟩)
  rw [List.mem_zipIdx_iff_getElem?]
  exact hplace

/-- The index is the one of the standard. Too many samples are refused, and whatever the tables
say, no more samples are indexed than they declare and no sum but an offset can overflow. -/
theorem buildIndex_correct (t : SampleTable) (timescale : Nat) :
    (t.Consistent → t.places.length ≤ MAX_SAMPLES →
      (∀ entry ∈ (t.isoIndex timescale).samples, entry.offset < 2 ^ 64) →
      t.buildIndex timescale = .ok (.ok (t.isoIndex timescale))) ∧
    (t.Consistent → MAX_SAMPLES < t.places.length →
      t.buildIndex timescale =
        .ok (.error (.invalidSampleTable "sample count exceeds limit"))) ∧
    Yields (fun e => e = .overflow ∧ ¬t.OffsetsFit) (t.buildIndex timescale) fun result =>
      ∀ index, result = .ok index →
        index.samples.length ≤ t.rawTotal ∧ index.samples.length ≤ MAX_SAMPLES := by
  refine ⟨fun h hmax hfit => buildIndex_eq h hmax (offsetsFit_of_iso h hfit) timescale,
    fun h hmax => ?_, buildIndex_yields t timescale⟩
  have htotal : MAX_SAMPLES < t.rawTotal := by
    by_contra hle
    rw [rawTotal_eq h (.inl (by omega))] at hle
    exact hle hmax
  rw [buildIndex, if_pos htotal]
  rfl

/-- One chunk with one sample more than the limit. -/
def overLimit : SampleTable where
  stts := [(4194305, 1)]
  stsc := [⟨1, 4194305, 1⟩]
  stszDefault := 1
  stco := [0]

theorem not_buildIndex_iso :
    ¬∀ (t : SampleTable) (timescale : Nat), t.Consistent →
      t.buildIndex timescale = .ok (.ok (t.isoIndex timescale)) := by
  intro h
  have hplaces : overLimit.places.length = 4194305 := by
    rw [places, placesIn, show overLimit.stco.zipIdx = [(0, 0)] from rfl, List.flatMap_singleton,
      List.length_map, List.length_range]
    rfl
  have hconsistent : overLimit.Consistent := by
    refine ⟨by decide, by decide, by decide, ?_, fun hne => absurd rfl hne, nofun⟩
    rw [hplaces, show expand overLimit.sttsRuns = List.replicate 4194305 1 ++ [] from rfl,
      List.append_nil, List.length_replicate]
  have hrefused := (buildIndex_correct overLimit 1).2.1 hconsistent (by rw [hplaces]; decide)
  rw [h overLimit 1 hconsistent] at hrefused
  cases hrefused

end CheetahMedia.Codec.SampleTable
