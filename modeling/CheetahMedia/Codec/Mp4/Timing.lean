import CheetahMedia.Codec.Mp4.ReadBack
import Mathlib.Data.List.Chain

namespace CheetahMedia.Codec

namespace Mp4Writer
open Lib Lib.Checked

/-- A sample that is given to the writer. -/
structure Pushed where
  trackId : Nat
  dtsUs : Int
  ptsUs : Int
  isSync : Bool
  data : Bytes

def pushAll (w : Mp4Writer) (samples : List Pushed) : Except Mp4Error Mp4Writer :=
  samples.foldlM (fun w s => w.pushSample s.trackId s.dtsUs s.ptsUs s.isSync s.data) w

/-- The file that comes of a writer. -/
def Writes (config : Mp4WriterConfig) (tracks : List TrackInfo) (samples : List Pushed)
    (file : Mp4File) : Prop :=
  ∃ w w', Mp4Writer.new config tracks = .ok w ∧ w.pushAll samples = .ok w' ∧ w'.finalize = .ok file

end Mp4Writer

namespace Mp4
open Lib Lib.Checked Lib.RunLength
open Mp4File (usToTimescale)

/-- A sample lasts until the next one. -/
def LastsUntil (s next : TrackSampleRecord) : Prop :=
  s.durationUs = max (asI64 (next.dtsUs - s.dtsUs)) 0

/-- Every sample lasts until the next one, and how long the last one lasts is not known. -/
structure Paced (tb : TrackBuilder) : Prop where
  chain : tb.samples.IsChain LastsUntil
  last : ∀ s ∈ tb.samples.getLast?, s.durationUs = 0
  timescale : 0 < tb.timescale

/-- How long the last sample lasts does not matter to the others. -/
theorem isChain_redated {front : List TrackSampleRecord} {s : TrackSampleRecord}
    (h : (front ++ [s]).IsChain LastsUntil) (durationUs : Int) :
    (front ++ [{ s with durationUs }]).IsChain LastsUntil := by
  obtain ⟨hfront, -, hlink⟩ := List.isChain_append.mp h
  exact List.isChain_append.mpr ⟨hfront, .singleton _, fun a ha b hb => by
    obtain rfl : _ = b := Option.some.inj hb
    exact hlink a ha s rfl⟩

theorem isChain_patchLast {tb : TrackBuilder} (h : tb.samples.IsChain LastsUntil)
    (duration : TrackSampleRecord → Int) :
    (tb.patchLast duration).samples.IsChain LastsUntil := by
  unfold TrackBuilder.patchLast
  split
  · rename_i last hlast
    split
    · obtain ⟨front, hsamples⟩ := List.getLast?_eq_some_iff.mp hlast
      rw [hsamples] at h
      simpa [hsamples] using isChain_redated h (duration last)
    · exact h
  · exact h

theorem patchLast_timescale (duration : TrackSampleRecord → Int) (tb : TrackBuilder) :
    (tb.patchLast duration).timescale = tb.timescale := by
  show (tb.patchLast duration).entry.timescale = tb.entry.timescale
  rw [TrackBuilder.entry_patchLast]

/-- A new sample tells how long the one before it lasts. -/
theorem Paced.push {tb : TrackBuilder} {isSync : Bool} (h : Paced tb) :
    Paced (tb.push dataOffset dtsUs ptsUs isSync data) := by
  refine ⟨?_, fun s hs => ?_, (patchLast_timescale _ tb).symm ▸ h.timescale⟩
  · unfold TrackBuilder.push
    dsimp only
    refine List.isChain_append.mpr ⟨isChain_patchLast h.chain _, .singleton _, fun a ha b hb => ?_⟩
    obtain rfl : _ = b := Option.some.inj hb
    unfold TrackBuilder.patchLast at ha
    split at ha
    · rename_i last hlast
      rw [if_pos (h.last last hlast)] at ha
      rw [List.getLast?_concat] at ha
      obtain rfl : _ = a := Option.some.inj ha
      rfl
    · rename_i hnone
      rw [hnone] at ha
      cases ha
  · unfold TrackBuilder.push at hs
    dsimp only at hs
    rw [List.getLast?_concat] at hs
    obtain rfl : _ = s := Option.some.inj hs
    rfl

/-- What the tracks of a writer keep. -/
theorem paced_pushAll {w w' : Mp4Writer} {samples : List Mp4Writer.Pushed}
    (h : ∀ tb ∈ w.tracks, Paced tb)
    (hok : w.pushAll samples = .ok w') : ∀ tb ∈ w'.tracks, Paced tb := by
  induction samples generalizing w with
  | nil =>
    cases hok
    exact h
  | cons s samples ih =>
    rw [Mp4Writer.pushAll, List.foldlM_cons] at hok
    cases hpush : w.pushSample s.trackId s.dtsUs s.ptsUs s.isSync s.data with
    | error e =>
      rw [hpush] at hok
      cases hok
    | ok w₁ =>
      rw [hpush] at hok
      refine ih (fun tb htb => ?_) hok
      unfold Mp4Writer.pushSample at hpush
      split at hpush
      · cases hpush
      split at hpush
      · cases hpush
      rename_i pushed hto
      cases hpush
      obtain ⟨before, old, after, htracks, -, -, rfl⟩ := Mp4Writer.pushTo_some hto
      rw [htracks] at h
      rcases List.mem_append.mp htb with hin | hin
      · exact h tb (by simp [hin])
      rcases List.mem_cons.mp hin with rfl | hin
      · exact (h old (by simp)).push
      · exact h tb (by simp [hin])

/-- In a file every sample but the last lasts until the next one. -/
theorem isChain_of_writes (h : Mp4Writer.Writes config tracks samples file)
    (htb : tb ∈ file.tracks) : tb.samples.IsChain LastsUntil ∧ 0 < tb.timescale := by
  obtain ⟨w, w', hnew, hpush, hfinalize⟩ := h
  have hempty : ∀ tb ∈ w.tracks, Paced tb := by
    unfold Mp4Writer.new at hnew
    split at hnew
    · cases hnew
    · cases hnew
      intro tb htb
      obtain ⟨track, -, rfl⟩ := List.mem_map.mp htb
      exact ⟨.nil, nofun, Nat.lt_of_lt_of_le Nat.zero_lt_one (Nat.le_max_right _ _)⟩
  have hpaced := paced_pushAll hempty hpush
  unfold Mp4Writer.finalize at hfinalize
  split at hfinalize
  · cases hfinalize
  · cases hfinalize
    obtain ⟨open_, hopen, rfl⟩ := List.mem_map.mp htb
    exact ⟨isChain_patchLast (hpaced open_ hopen).chain _,
      (patchLast_timescale _ open_).symm ▸ (hpaced open_ hopen).timescale⟩

/-- What a step of the time loses, in millionths of a tick: what is below a whole tick, and what is
more than 32 bits of ticks. -/
def stepLoss (timescale : Nat) (step : Int) : Int :=
  step * timescale - 1000000 * min (step * timescale / 1000000) (2 ^ 32 - 1)

/-- What the first `n` steps lose together. -/
def lostUpTo (timescale : Nat) (dtsUs : List Int) : Nat → Int
  | 0 => 0
  | n + 1 =>
    lostUpTo timescale dtsUs n +
      match dtsUs[n]?, dtsUs[n + 1]? with
      | some dts, some next => stepLoss timescale (next - dts)
      | _, _ => 0

theorem stepLoss_nonneg (timescale : Nat) (step : Int) : 0 ≤ stepLoss timescale step := by
  unfold stepLoss
  have hexact := Int.emod_add_mul_ediv (step * timescale) 1000000
  have hmod := Int.emod_nonneg (step * timescale) (show (1000000 : Int) ≠ 0 by decide)
  omega

/-- The ticks that the writer gives a step. -/
def writtenTicks (timescale : Nat) (step : Int) : Nat :=
  clampU32 (usToTimescale (max (asI64 step) 0) timescale)

theorem asI64_le (h : 0 ≤ n) : asI64 n ≤ n := by
  have hmodulus : ((18446744073709551616 : Nat) : Int) = 18446744073709551616 := rfl
  unfold asI64
  rw [Int.bmod_def, hmodulus]
  split <;> omega

theorem writtenTicks_eq_min (timescale : Nat) (step : Int) :
    (writtenTicks timescale step : Int) =
      min (max (asI64 step) 0 * timescale / 1000000) (2 ^ 32 - 1) := by
  have hnonneg : 0 ≤ max (asI64 step) 0 * (timescale : Int) :=
    Int.mul_nonneg (by omega) (Int.natCast_nonneg _)
  have hdiv := Int.ediv_nonneg hnonneg (show (0 : Int) ≤ 1000000 by decide)
  unfold writtenTicks clampU32 usToTimescale saturateI64 I64_MIN I64_MAX
  rw [Int.tdiv_eq_ediv_of_nonneg hnonneg]
  omega

/-- The writer never gives a step more ticks than fit in it. -/
theorem stepLoss_le (h : 0 ≤ step) (timescale : Nat) :
    stepLoss timescale step ≤ step * timescale - 1000000 * writtenTicks timescale step := by
  have hle : max (asI64 step) 0 * (timescale : Int) ≤ step * timescale := by
    have hword := asI64_le h
    exact Int.mul_le_mul_of_nonneg_right (by omega) (Int.natCast_nonneg _)
  have hdiv := Int.ediv_le_ediv (show (0 : Int) < 1000000 by decide) hle
  rw [writtenTicks_eq_min]
  unfold stepLoss
  omega

/-- Where a step loses little the writer loses no more. -/
theorem stepLoss_eq (h : 0 ≤ step) (hts : 0 < timescale)
    (hloss : stepLoss timescale step ≤ 1000000) :
    step * timescale - 1000000 * writtenTicks timescale step = stepLoss timescale step := by
  have hword : IsI64 step := by
    have hle : step * 1 ≤ step * (timescale : Int) :=
      Int.mul_le_mul_of_nonneg_left (by omega) h
    unfold stepLoss at hloss
    unfold IsI64 I64_MIN I64_MAX
    omega
  rw [writtenTicks_eq_min, asI64_of_isI64 hword, Int.max_eq_left h]
  rfl

/-- The track is read back with the decode time of every sample at most a tick away from the exact
one. -/
def InTime (tb : TrackBuilder) (chunkBase : Nat) : Prop :=
  ∃ t index, readBack tb chunkBase = .ok t ∧ t.buildIndex tb.timescale = .ok (.ok index) ∧
    index.samples.length = tb.samples.length ∧
    ∀ (n : Nat) (entry : SampleIndexEntry) (s first : TrackSampleRecord),
      index.samples[n]? = some entry → tb.samples[n]? = some s → tb.samples[0]? = some first →
      (entry.dts * 1000000 - (s.dtsUs - first.dtsUs) * tb.timescale).natAbs ≤ 1000000

section Drift
variable {tb : TrackBuilder}

theorem lostUpTo_succ (hs : tb.samples[n]? = some s) (hnext : tb.samples[n + 1]? = some next) :
    lostUpTo tb.timescale (tb.samples.map (·.dtsUs)) (n + 1) =
      lostUpTo tb.timescale (tb.samples.map (·.dtsUs)) n +
        stepLoss tb.timescale (next.dtsUs - s.dtsUs) := by
  rw [lostUpTo, List.getElem?_map, List.getElem?_map, hs, hnext]
  rfl

theorem lostUpTo_mono (timescale : Nat) (dtsUs : List Int) (h : m ≤ n) :
    lostUpTo timescale dtsUs m ≤ lostUpTo timescale dtsUs n := by
  induction n, h using Nat.le_induction with
  | base => exact Int.le_refl _
  | succ n _ ih =>
    rw [lostUpTo]
    refine ih.trans (Int.le_add_of_nonneg_right ?_)
    split
    · exact stepLoss_nonneg _ _
    · exact Int.le_refl 0

/-- How far the time of sample `n` that is read back lies before the exact one, in millionths of a
tick. -/
def drift (tb : TrackBuilder) (n : Nat) (s first : TrackSampleRecord) : Int :=
  (s.dtsUs - first.dtsUs) * tb.timescale -
    1000000 * SampleTable.ticks ((tb.samples.map (ticksOf tb.timescale)).take n)

/-- One more sample adds what its step loses. -/
theorem drift_succ (hchain : tb.samples.IsChain LastsUntil) (hs : tb.samples[n]? = some s)
    (hnext : tb.samples[n + 1]? = some next) :
    drift tb (n + 1) next first = drift tb n s first +
      ((next.dtsUs - s.dtsUs) * tb.timescale -
        1000000 * writtenTicks tb.timescale (next.dtsUs - s.dtsUs)) := by
  obtain ⟨hlt, rfl⟩ := List.getElem?_eq_some_iff.mp hnext
  obtain ⟨hlt', rfl⟩ := List.getElem?_eq_some_iff.mp hs
  have hlasts : LastsUntil tb.samples[n] tb.samples[n + 1] := hchain.getElem n hlt
  have hdrop : (tb.samples.map (ticksOf tb.timescale)).drop n =
      ticksOf tb.timescale tb.samples[n] ::
        (tb.samples.map (ticksOf tb.timescale)).drop (n + 1) := by
    rw [List.drop_eq_getElem_cons (by simpa using hlt'), List.getElem_map]
  have hticks : (ticksOf tb.timescale tb.samples[n]).toNat =
      writtenTicks tb.timescale (tb.samples[n + 1].dtsUs - tb.samples[n].dtsUs) := by
    rw [ticksOf, UInt32.toNat_ofNat', Nat.mod_eq_of_lt (clampU32_lt _), hlasts]
    rfl
  unfold drift
  rw [SampleTable.ticks_take_succ hdrop, hticks]
  have hmul : (tb.samples[n + 1].dtsUs - first.dtsUs) * (tb.timescale : Int) =
      (tb.samples[n].dtsUs - first.dtsUs) * tb.timescale +
        (tb.samples[n + 1].dtsUs - tb.samples[n].dtsUs) * tb.timescale := by
    rw [← Int.add_mul]
    congr 1
    omega
  omega

variable (hchain : tb.samples.IsChain LastsUntil)
  (hmono : (tb.samples.map (·.dtsUs)).Pairwise (· ≤ ·)) (hts : 0 < tb.timescale)

include hmono in
theorem step_nonneg (hs : tb.samples[n]? = some s) (hnext : tb.samples[n + 1]? = some next) :
    0 ≤ next.dtsUs - s.dtsUs := by
  obtain ⟨hlt, rfl⟩ := List.getElem?_eq_some_iff.mp hnext
  obtain ⟨hlt', rfl⟩ := List.getElem?_eq_some_iff.mp hs
  have h := List.pairwise_iff_getElem.mp (List.pairwise_map.mp hmono) n (n + 1) hlt' hlt
    (Nat.lt_succ_self n)
  omega

include hchain hmono in
/-- The drift is at least what the steps lose. -/
theorem lostUpTo_le_drift (hfirst : tb.samples[0]? = some first) (hs : tb.samples[n]? = some s) :
    lostUpTo tb.timescale (tb.samples.map (·.dtsUs)) n ≤ drift tb n s first := by
  induction n generalizing s with
  | zero =>
    rw [hfirst, Option.some.injEq] at hs
    simp [lostUpTo, drift, SampleTable.ticks, hs]
  | succ n ih =>
    have hlt := (List.getElem?_eq_some_iff.mp hs).1
    obtain ⟨previous, hprevious⟩ : ∃ previous, tb.samples[n]? = some previous :=
      ⟨_, List.getElem?_eq_getElem (by omega)⟩
    have hstep := stepLoss_le (step_nonneg hmono hprevious hs) tb.timescale
    have hrest := ih hprevious
    rw [lostUpTo_succ hprevious hs, drift_succ hchain hprevious hs]
    omega

include hchain hmono hts in
/-- Where the steps lose at most a tick, the drift is what they lose. -/
theorem drift_eq_lostUpTo (hfirst : tb.samples[0]? = some first) (hs : tb.samples[n]? = some s)
    (hlost : lostUpTo tb.timescale (tb.samples.map (·.dtsUs)) n ≤ 1000000) :
    drift tb n s first = lostUpTo tb.timescale (tb.samples.map (·.dtsUs)) n := by
  induction n generalizing s with
  | zero =>
    rw [hfirst, Option.some.injEq] at hs
    simp [lostUpTo, drift, SampleTable.ticks, hs]
  | succ n ih =>
    have hlt := (List.getElem?_eq_some_iff.mp hs).1
    obtain ⟨previous, hprevious⟩ : ∃ previous, tb.samples[n]? = some previous :=
      ⟨_, List.getElem?_eq_getElem (by omega)⟩
    rw [lostUpTo_succ hprevious hs] at hlost ⊢
    have hbefore := lostUpTo_mono tb.timescale (tb.samples.map (·.dtsUs)) (Nat.zero_le n)
    have hloss := stepLoss_nonneg tb.timescale (s.dtsUs - previous.dtsUs)
    rw [lostUpTo] at hbefore
    rw [drift_succ hchain hprevious hs, ih hprevious (by omega),
      stepLoss_eq (step_nonneg hmono hprevious hs) hts (by omega)]

/-- The times that are read back, in a track that the reader has room for. -/
theorem readBack_dts (chunkBase : Nat) (hmax : tb.samples.length ≤ SampleTable.MAX_SAMPLES) :
    ∃ t index, readBack tb chunkBase = .ok t ∧ t.buildIndex tb.timescale = .ok (.ok index) ∧
      index.samples.length = tb.samples.length ∧
      ∀ (n : Nat) (entry : SampleIndexEntry), index.samples[n]? = some entry →
        entry.dts = SampleTable.ticks ((tb.samples.map (ticksOf tb.timescale)).take n) := by
  have hlt : tb.samples.length < 2 ^ 32 := by
    unfold SampleTable.MAX_SAMPLES at hmax
    omega
  obtain ⟨t, hread, hconsistent, hfit, hplaces, hexpand⟩ := readBack_consistent tb chunkBase hlt
  refine ⟨t, _, hread, SampleTable.buildIndex_eq hconsistent (by rwa [hplaces]) hfit _,
    by rw [SampleTable.isoSamples_length, hplaces], fun n entry hentry => ?_⟩
  rw [SampleTable.isoIndex, List.getElem?_map, List.getElem?_zipIdx, Option.map_map,
    Option.map_eq_some_iff] at hentry
  obtain ⟨place, -, rfl⟩ := hentry
  show (SampleTable.ticks ((expand t.sttsRuns).take (0 + n)) : Int) = _
  rw [hexpand, Nat.zero_add]

include hchain hmono hts in
theorem inTime_iff (chunkBase : Nat) : InTime tb chunkBase ↔
    tb.samples.length ≤ SampleTable.MAX_SAMPLES ∧
      lostUpTo tb.timescale (tb.samples.map (·.dtsUs)) (tb.samples.length - 1) ≤ 1000000 := by
  constructor
  · rintro ⟨t, index, hread, hindex, hlength, hclose⟩
    have hmax : tb.samples.length ≤ SampleTable.MAX_SAMPLES := by
      have hbound := (SampleTable.buildIndex_yields t tb.timescale).of_ok hindex index rfl
      omega
    refine ⟨hmax, ?_⟩
    obtain ⟨t', index', hread', hindex', -, hdts⟩ := readBack_dts chunkBase hmax
    obtain rfl : t' = t := Except.ok.inj (hread'.symm.trans hread)
    obtain rfl : index' = index := Except.ok.inj (Except.ok.inj (hindex'.symm.trans hindex))
    by_cases hempty : tb.samples.length = 0
    · rw [hempty]
      show (0 : Int) ≤ 1000000
      decide
    · have hlt : tb.samples.length - 1 < tb.samples.length := by omega
      have hfirst : tb.samples[0]? = some _ := List.getElem?_eq_getElem (by omega)
      have hlast := List.getElem?_eq_getElem hlt
      have hentry : index'.samples[tb.samples.length - 1]? = some _ :=
        List.getElem?_eq_getElem (hlength ▸ hlt)
      have hdrift := lostUpTo_le_drift hchain hmono hfirst hlast
      have hnear := hclose _ _ _ _ hentry hlast hfirst
      rw [hdts _ _ hentry] at hnear
      unfold drift at hdrift
      omega
  · rintro ⟨hmax, hlost⟩
    obtain ⟨t, index, hread, hindex, hlength, hdts⟩ := readBack_dts chunkBase hmax
    refine ⟨t, index, hread, hindex, hlength, fun n entry s first hentry hs hfirst => ?_⟩
    have hlt := (List.getElem?_eq_some_iff.mp hs).1
    have hpart := lostUpTo_mono tb.timescale (tb.samples.map (·.dtsUs))
      (show n ≤ tb.samples.length - 1 by omega)
    have hnonneg := lostUpTo_mono tb.timescale (tb.samples.map (·.dtsUs)) (Nat.zero_le n)
    have hdrift := drift_eq_lostUpTo hchain hmono hts hfirst hs (hpart.trans hlost)
    rw [lostUpTo] at hnonneg
    unfold drift at hdrift
    rw [hdts n entry hentry]
    omega

end Drift

/-- The times of a track that was written stay within a tick exactly when what all its steps lose
does, in a track that the reader has room for. -/
theorem timing_exact_iff (h : Mp4Writer.Writes config tracks samples file)
    (htb : tb ∈ file.tracks) (hmono : (tb.samples.map (·.dtsUs)).Pairwise (· ≤ ·))
    (chunkBase : Nat) : InTime tb chunkBase ↔
      tb.samples.length ≤ SampleTable.MAX_SAMPLES ∧
        lostUpTo tb.timescale (tb.samples.map (·.dtsUs)) (tb.samples.length - 1) ≤ 1000000 :=
  inTime_iff (isChain_of_writes h htb).1 hmono (isChain_of_writes h htb).2 chunkBase

def videoTrack : TrackInfo :=
  { trackId := 1, mediaKind := .video, codec := .h264, clockRate := 90000 }

/-- Key frames of one byte at the given times. -/
def pushedAt (times : List Int) : List Mp4Writer.Pushed := times.map fun t => ⟨1, t, t, true, [0]⟩

theorem timing_exact_iff_tenths : ∃ file tb,
    Mp4Writer.Writes {} [videoTrack] (pushedAt [0, 100000, 200000]) file ∧ tb ∈ file.tracks ∧
      InTime tb 48 := by
  have hfile : ∃ file tb, Mp4Writer.Writes {} [videoTrack] (pushedAt [0, 100000, 200000]) file ∧
      tb ∈ file.tracks ∧ tb.timescale = 90000 ∧ tb.samples.map (·.dtsUs) = [0, 100000, 200000] ∧
      tb.samples.length = 3 :=
    ⟨_, _, ⟨_, _, rfl, rfl, rfl⟩, List.mem_singleton_self _, rfl, rfl, rfl⟩
  obtain ⟨file, tb, hwrites, htb, hts, hdts, hlength⟩ := hfile
  refine ⟨file, tb, hwrites, htb, ?_⟩
  refine (timing_exact_iff hwrites htb (by rw [hdts]; decide) 48).mpr ?_
  rw [hts, hdts, hlength]
  decide

/-- Two steps of a thirtieth of a second, each of which loses nearly a tick. -/
theorem not_inTime : ¬∀ config tracks samples file tb chunkBase,
    Mp4Writer.Writes config tracks samples file → tb ∈ file.tracks →
      (tb.samples.map (·.dtsUs)).Pairwise (· ≤ ·) → InTime tb chunkBase := by
  have hfile : ∃ file tb, Mp4Writer.Writes {} [videoTrack] (pushedAt [0, 33333, 66666]) file ∧
      tb ∈ file.tracks ∧ tb.timescale = 90000 ∧ tb.samples.map (·.dtsUs) = [0, 33333, 66666] ∧
      tb.samples.length = 3 :=
    ⟨_, _, ⟨_, _, rfl, rfl, rfl⟩, List.mem_singleton_self _, rfl, rfl, rfl⟩
  obtain ⟨file, tb, hwrites, htb, hts, hdts, hlength⟩ := hfile
  obtain ⟨hchain, hpositive⟩ := isChain_of_writes hwrites htb
  have hmono : (tb.samples.map (·.dtsUs)).Pairwise (· ≤ ·) := by
    rw [hdts]
    decide
  intro h
  have hlost := ((inTime_iff hchain hmono hpositive 48).mp (h _ _ _ _ _ 48 hwrites htb hmono)).2
  rw [hts, hdts, hlength] at hlost
  revert hlost
  decide

end Mp4
end CheetahMedia.Codec
