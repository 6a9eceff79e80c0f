import CheetahMedia.Codec.Time.Unwrap

namespace CheetahMedia.Codec
open Lib Lib.Checked

namespace TimestampNormalizer

/-- One call of `normalize`. -/
structure Call where
  input : TimestampNormalizeInput
  before : TimestampNormalizer
  result : Except TimestampNormalizeError TimestampNormalizeOutput
  after : TimestampNormalizer

/-- The calls for the inputs, one after the other. -/
def calls : List TimestampNormalizeInput → TimestampNormalizer → List Call
  | [], _ => []
  | input :: inputs, s =>
    ⟨input, s, (s.normalize input).1, (s.normalize input).2⟩ :: calls inputs (s.normalize input).2

section Ordered

/-- Where a timeline begins: a new normalizer, or one that was reset. -/
def Begins (s : TimestampNormalizer) : Prop :=
  (∃ config, s = .new config) ∨ ∃ t : TimestampNormalizer, s = t.reset

/-- Later than `a`, as far as there is something later. -/
def Later (a b : Int) : Prop := a < b ∨ a = I64_MAX ∧ b = I64_MAX

theorem saturateI64_le (n : Int) : saturateI64 n ≤ I64_MAX := by
  unfold saturateI64 I64_MAX I64_MIN
  omega

theorem later_succ (h : last ≤ I64_MAX) : Later last (saturateI64 (last + 1)) := by
  unfold Later saturateI64 I64_MAX I64_MIN at *
  omega

theorem Later.trans (h : Later a b) (h' : Later b c) (hc : c ≤ I64_MAX) : Later a c := by
  unfold Later at *
  omega

/-- A DTS that is not after the last one is moved. -/
theorem repairDts_later (s : TimestampNormalizer) (dts : Int) (notes : Notes)
    (hdts : dts ≤ I64_MAX) (hlast : ∀ last ∈ s.lastDts, last ≤ I64_MAX) :
    (s.repairDts dts notes).1 ≤ I64_MAX ∧
      ∀ last ∈ s.lastDts, Later last (s.repairDts dts notes).1 := by
  unfold repairDts
  cases h : s.lastDts with
  | none => exact ⟨hdts, by simp⟩
  | some last =>
    have hle := hlast last h
    dsimp only
    split
    · exact ⟨saturateI64_le _, by simpa using later_succ hle⟩
    · have hlater : Later last dts := .inl (by omega)
      split <;> exact ⟨hdts, by simpa using hlater⟩

theorem finishPts_le {config : TimestampNormalizerConfig} (source : Source)
    (epochOffset dts : Int) (notes : Notes) (hvideo : input.isVideo = true)
    (hnegative : config.allowNegativeComposition = false) :
    dts ≤ (finishPts input source epochOffset dts notes config).1 := by
  unfold finishPts
  dsimp only
  split
  · exact Int.le_refl dts
  · rename_i hclamp
    simpa [hvideo, hnegative] using hclamp

/-- Only the generator changes with a DTS. -/
theorem sourceDts_frame (input : TimestampNormalizeInput) (source : Source) (notes : Notes)
    (s : TimestampNormalizer) : ∃ g, (s.sourceDts input source notes).2.2 =
      { s with dtsGenerator := g } := by
  unfold sourceDts
  split
  · exact ⟨s.dtsGenerator, rfl⟩
  · dsimp only
    split
    · exact ⟨s.dtsGenerator, rfl⟩
    · split <;> exact ⟨_, rfl⟩

@[simp] theorem sourceDts_config (input : TimestampNormalizeInput) (source : Source)
    (notes : Notes) (s : TimestampNormalizer) :
    (s.sourceDts input source notes).2.2.config = s.config := by
  obtain ⟨g, hframe⟩ := sourceDts_frame input source notes s
  rw [hframe]

@[simp] theorem sourceDts_lastDts (input : TimestampNormalizeInput) (source : Source)
    (notes : Notes) (s : TimestampNormalizer) :
    (s.sourceDts input source notes).2.2.lastDts = s.lastDts := by
  obtain ⟨g, hframe⟩ := sourceDts_frame input source notes s
  rw [hframe]

theorem sourceDts_dtsUnwrapper (input : TimestampNormalizeInput) (source : Source)
    (notes : Notes) (s : TimestampNormalizer) :
    (s.sourceDts input source notes).2.2.dtsUnwrapper = s.dtsUnwrapper := by
  obtain ⟨g, hframe⟩ := sourceDts_frame input source notes s
  rw [hframe]

theorem sourceDts_ptsUnwrapper (input : TimestampNormalizeInput) (source : Source)
    (notes : Notes) (s : TimestampNormalizer) :
    (s.sourceDts input source notes).2.2.ptsUnwrapper = s.ptsUnwrapper := by
  obtain ⟨g, hframe⟩ := sourceDts_frame input source notes s
  rw [hframe]

/-- Only the unwrappers change with what is resolved. -/
theorem resolve_frame (mode : TimestampNormalizeMode) (s : TimestampNormalizer) :
    ∃ d p, (s.resolve mode).2 = { s with dtsUnwrapper := d, ptsUnwrapper := p } := by
  unfold resolve resolveDts resolvePts
  split
  · exact ⟨s.dtsUnwrapper, s.ptsUnwrapper, rfl⟩
  · dsimp only
    split
    · exact ⟨_, s.ptsUnwrapper, rfl⟩
    · exact ⟨_, _, rfl⟩
  · exact ⟨_, s.ptsUnwrapper, rfl⟩
  · exact ⟨s.dtsUnwrapper, _, rfl⟩

/-- What one frame gives. -/
structure Emits (input : TimestampNormalizeInput) (s : TimestampNormalizer)
    (output : TimestampNormalizeOutput) (t : TimestampNormalizer) : Prop where
  config : t.config = s.config
  lastDts : t.lastDts = some output.dts
  bounded : output.dts ≤ I64_MAX
  later : ∀ last ∈ s.lastDts, Later last output.dts
  composed : input.isVideo = true → s.config.allowNegativeComposition = false →
    output.dts ≤ output.pts

theorem finish_emits (input : TimestampNormalizeInput) (source : Source)
    (s : TimestampNormalizer) (hlast : ∀ last ∈ s.lastDts, last ≤ I64_MAX) :
    Emits input s (s.finish input source).1 (s.finish input source).2 := by
  have hrepair (notes : Notes) (dts : Int) (hdts : dts ≤ I64_MAX) :=
    repairDts_later (s.sourceDts input source notes).2.2 dts (s.sourceDts input source notes).2.1
      hdts (by simpa using hlast)
  unfold finish
  refine ⟨sourceDts_config .., rfl, (hrepair _ _ (saturateI64_le _)).1, ?_, ?_⟩
  · simpa using (hrepair _ _ (saturateI64_le _)).2
  · exact finishPts_le source _ _ _

theorem normalize_emits (hlast : ∀ last ∈ s.lastDts, last ≤ I64_MAX)
    (h : (normalize input s).1 = .ok output) : Emits input s output (normalize input s).2 := by
  obtain ⟨d, p, hframe⟩ := resolve_frame input.mode s
  unfold normalize at h ⊢
  dsimp only at h ⊢
  split at h
  · cases h
  · rename_i source hsource
    cases h
    have hemits := finish_emits input source (s.resolve input.mode).2
      (by rw [hframe]; exact hlast)
    dsimp only
    rw [hframe] at hemits ⊢
    exact ⟨hemits.config, hemits.lastDts, hemits.bounded, hemits.later, hemits.composed⟩

/-- Of a failed call only the unwrappers keep something. -/
theorem normalize_failed (h : (normalize input s).1 = .error err) :
    (normalize input s).2.lastDts = s.lastDts ∧ (normalize input s).2.config = s.config := by
  obtain ⟨d, p, hframe⟩ := resolve_frame input.mode s
  unfold normalize at h ⊢
  dsimp only at h ⊢
  split at h
  · rename_i herr
    dsimp only
    rw [hframe]
    exact ⟨rfl, rfl⟩
  · cases h

def Call.output (c : Call) : Option TimestampNormalizeOutput := c.result.toOption

/-- What is given after a frame is later. -/
theorem outputs_later (inputs : List TimestampNormalizeInput) (s : TimestampNormalizer)
    (hlast : ∀ last ∈ s.lastDts, last ≤ I64_MAX) :
    (∀ output ∈ (calls inputs s).filterMap Call.output, output.dts ≤ I64_MAX ∧
      ∀ last ∈ s.lastDts, Later last output.dts) ∧
    ((calls inputs s).filterMap Call.output).Pairwise fun a b => Later a.dts b.dts := by
  induction inputs generalizing s with
  | nil => exact ⟨by simp [calls], .nil⟩
  | cons input inputs ih =>
    cases hresult : (s.normalize input).1 with
    | error err =>
      obtain ⟨hkept, -⟩ := normalize_failed hresult
      obtain ⟨hnext, hpairs⟩ := ih (s.normalize input).2 (by rw [hkept]; exact hlast)
      rw [hkept] at hnext
      have houtputs : (calls (input :: inputs) s).filterMap Call.output =
          (calls inputs (s.normalize input).2).filterMap Call.output :=
        List.filterMap_cons_none (by simp only [Call.output, hresult]; rfl)
      rw [houtputs]
      exact ⟨hnext, hpairs⟩
    | ok output =>
      have hemits := normalize_emits hlast hresult
      have hbounded : ∀ last ∈ (s.normalize input).2.lastDts, last ≤ I64_MAX := by
        simpa [hemits.lastDts] using hemits.bounded
      obtain ⟨hnext, hpairs⟩ := ih (s.normalize input).2 hbounded
      simp only [hemits.lastDts, Option.mem_some_iff, forall_eq'] at hnext
      have houtputs : (calls (input :: inputs) s).filterMap Call.output =
          output :: (calls inputs (s.normalize input).2).filterMap Call.output :=
        List.filterMap_cons_some (by simp only [Call.output, hresult]; rfl)
      rw [houtputs]
      refine ⟨fun later hmem => ?_, .cons (fun later hmem => (hnext later hmem).2) hpairs⟩
      rcases List.mem_cons.mp hmem with rfl | hmem
      · exact ⟨hemits.bounded, hemits.later⟩
      · obtain ⟨hle, hlater⟩ := hnext later hmem
        exact ⟨hle, fun last hl => (hemits.later last hl).trans hlater hle⟩

theorem Begins.lastDts (h : Begins s) : s.lastDts = none := by
  rcases h with ⟨config, rfl⟩ | ⟨t, rfl⟩ <;> rfl

theorem calls_composed (inputs : List TimestampNormalizeInput) (s : TimestampNormalizer)
    (hlast : ∀ last ∈ s.lastDts, last ≤ I64_MAX) :
    ∀ c ∈ calls inputs s, ∀ output, c.result = .ok output → c.input.isVideo = true →
      s.config.allowNegativeComposition = false → output.dts ≤ output.pts := by
  induction inputs generalizing s with
  | nil => simp [calls]
  | cons input inputs ih =>
    intro c hc output hresult
    cases hfirst : (s.normalize input).1 with
    | error err =>
      obtain ⟨hkept, hconfig⟩ := normalize_failed hfirst
      rcases List.mem_cons.mp hc with rfl | hc
      · rw [hfirst] at hresult
        cases hresult
      · have hnext := ih (s.normalize input).2 (by rw [hkept]; exact hlast) c hc output hresult
        rwa [hconfig] at hnext
    | ok first =>
      have hemits := normalize_emits hlast hfirst
      rcases List.mem_cons.mp hc with rfl | hc
      · rw [hfirst] at hresult
        cases hresult
        exact hemits.composed
      · have hnext := ih (s.normalize input).2 (by simpa [hemits.lastDts] using hemits.bounded)
          c hc output hresult
        rwa [hemits.config] at hnext

/-- From one reset to the next the DTS go up, until they are at the end of their range, and
the PTS of a video is not before its DTS where that is not allowed. -/
theorem timestamps_ordered (h : Begins s) (inputs : List TimestampNormalizeInput) :
    ((calls inputs s).filterMap Call.output).Pairwise (fun a b => Later a.dts b.dts) ∧
    ∀ c ∈ calls inputs s, ∀ output, c.result = .ok output → c.input.isVideo = true →
      s.config.allowNegativeComposition = false → output.dts ≤ output.pts := by
  have hlast : ∀ last ∈ s.lastDts, last ≤ I64_MAX := by simp [h.lastDts]
  exact ⟨(outputs_later inputs s hlast).2, calls_composed inputs s hlast⟩

/-- Milliseconds in and out, 32 bits to a wrapped timestamp. -/
def millisConfig : TimestampNormalizerConfig where
  inputTimebase := ⟨1, 1000⟩
  outputTimebase := ⟨1, 1000⟩
  wrapBits := some 32
  allowNegativeComposition := false
  validInput := by decide
  validOutput := by decide
  validWidth := by decide

/-- A DTS that steps back, and a PTS before it. -/
def backward : List TimestampNormalizeInput :=
  [⟨.dtsPts (.unwrapped 40) (.unwrapped 80), none, none, true, false⟩,
    ⟨.dtsPts (.unwrapped 20) (.unwrapped 30), none, none, true, false⟩,
    ⟨.noTimestamp, none, some 40, true, false⟩]

theorem timestamps_ordered_backward :
    let outputs := (calls backward (.new millisConfig)).filterMap Call.output
    outputs.map (fun o => (o.dts, o.pts)) = [(0, 40), (1, 1), (2, 2)] ∧
    outputs.Pairwise fun a b => Later a.dts b.dts :=
  ⟨by decide +kernel, (timestamps_ordered (.inl ⟨millisConfig, rfl⟩) backward).1⟩

end Ordered

end TimestampNormalizer

namespace TimestampValue

def raw : TimestampValue → Option Nat
  | .wrapped raw => some raw
  | .unwrapped _ => none

end TimestampValue

namespace TimestampNormalizeMode

/-- The wrapped DTS of a frame. -/
def wrappedDts : TimestampNormalizeMode → Option Nat
  | .dtsPts dts _ => dts.raw
  | .dtsWithCompositionOffset dts _ => dts.raw
  | _ => none

def wrappedPts : TimestampNormalizeMode → Option Nat
  | .dtsPts _ pts => pts.raw
  | .ptsOnly pts => pts.raw
  | _ => none

end TimestampNormalizeMode

namespace WrapUnwrapper

/-- The reading, when there is one, gives a value that is an `i64`. -/
def Fits (w : WrapUnwrapper) : Option Nat → Prop
  | some raw => (w.unwrap raw).1 < 2 ^ 63
  | none => True

def after (w : WrapUnwrapper) : Option Nat → WrapUnwrapper
  | some raw => (w.unwrap raw).2
  | none => w

def AllFit : WrapUnwrapper → List Nat → Prop
  | _, [] => True
  | w, raw :: raws => w.Fits raw ∧ AllFit (w.unwrap raw).2 raws

theorem allFit_filterMap_cons {f : α → Option Nat} {a : α} {as : List α} {w : WrapUnwrapper} :
    w.AllFit ((a :: as).filterMap f) ↔ w.Fits (f a) ∧ (w.after (f a)).AllFit (as.filterMap f) := by
  cases h : f a with
  | none => simp [h, Fits, after]
  | some raw => simp [h, AllFit, after]

end WrapUnwrapper

namespace TimestampNormalizer
section Kept
variable {s : TimestampNormalizer} {d p : WrapUnwrapper}

/-- The call does not fail on the range of `i64`, and changes nothing where it fails. -/
structure Call.Kept (c : Call) : Prop where
  inRange : ∀ value, c.result ≠ .error (.unwrappedTimestampOverflow value)
  unchanged : ∀ err, c.result = .error err → c.after = c.before

theorem resolveTicks_fits (config : TimestampNormalizerConfig) {value : TimestampValue}
    {w : WrapUnwrapper} (h : w.Fits value.raw) :
    ∃ ticks, resolveTicks config value (some w) = (.ok ticks, some (w.after value.raw)) := by
  cases value with
  | unwrapped value => exact ⟨_, rfl⟩
  | wrapped raw =>
    have hfits : ¬ 2 ^ 63 ≤ (w.unwrap raw).1 := Nat.not_le.mpr h
    unfold resolveTicks
    dsimp only
    rw [if_neg hfits]
    exact ⟨_, rfl⟩

theorem resolveTicks_overflow (config : TimestampNormalizerConfig) {value : TimestampValue}
    {w : WrapUnwrapper} (h : ¬ w.Fits value.raw) :
    ∃ v, (resolveTicks config value (some w)).1 = .error (.unwrappedTimestampOverflow v) := by
  cases value with
  | unwrapped value => exact absurd trivial h
  | wrapped raw =>
    have hover : 2 ^ 63 ≤ (w.unwrap raw).1 := Nat.not_lt.mp h
    unfold resolveTicks
    dsimp only
    rw [if_pos hover]
    exact ⟨_, rfl⟩

/-- What is resolved when both readings fit: nothing fails. -/
theorem resolve_fits (hd : s.dtsUnwrapper = some d) (hp : s.ptsUnwrapper = some p)
    (mode : TimestampNormalizeMode) (hdts : d.Fits mode.wrappedDts)
    (hpts : p.Fits mode.wrappedPts) :
    (∃ source, (s.resolve mode).1 = .ok source) ∧
      (s.resolve mode).2.dtsUnwrapper = some (d.after mode.wrappedDts) ∧
      (s.resolve mode).2.ptsUnwrapper = some (p.after mode.wrappedPts) := by
  cases mode with
  | noTimestamp => exact ⟨⟨_, rfl⟩, hd, hp⟩
  | dtsPts dts pts =>
    obtain ⟨dtsTicks, hdtsTicks⟩ := resolveTicks_fits s.config hdts
    obtain ⟨ptsTicks, hptsTicks⟩ := resolveTicks_fits s.config hpts
    simp only [resolve, resolveDts, resolvePts, hd, hp, hdtsTicks, hptsTicks]
    exact ⟨⟨_, rfl⟩, rfl, rfl⟩
  | dtsWithCompositionOffset dts compositionOffset =>
    obtain ⟨dtsTicks, hdtsTicks⟩ := resolveTicks_fits s.config hdts
    simp only [resolve, resolveDts, hd, hdtsTicks]
    exact ⟨⟨_, rfl⟩, rfl, hp⟩
  | ptsOnly pts =>
    obtain ⟨ptsTicks, hptsTicks⟩ := resolveTicks_fits s.config hpts
    simp only [resolve, resolvePts, hp, hptsTicks]
    exact ⟨⟨_, rfl⟩, hd, rfl⟩

theorem resolve_overflow (hd : s.dtsUnwrapper = some d) (hp : s.ptsUnwrapper = some p)
    (mode : TimestampNormalizeMode) (h : ¬ (d.Fits mode.wrappedDts ∧ p.Fits mode.wrappedPts)) :
    ∃ v, (s.resolve mode).1 = .error (.unwrappedTimestampOverflow v) := by
  cases mode with
  | noTimestamp => exact absurd ⟨trivial, trivial⟩ h
  | dtsPts dts pts =>
    by_cases hdts : d.Fits dts.raw
    · obtain ⟨dtsTicks, hdtsTicks⟩ := resolveTicks_fits s.config hdts
      obtain ⟨v, hv⟩ := resolveTicks_overflow s.config fun hpts => h ⟨hdts, hpts⟩
      refine ⟨v, ?_⟩
      simp only [resolve, resolveDts, resolvePts, hd, hp, hdtsTicks, hv]
      rfl
    · obtain ⟨v, hv⟩ := resolveTicks_overflow s.config hdts
      refine ⟨v, ?_⟩
      simp only [resolve, resolveDts, hd, hv]
  | dtsWithCompositionOffset dts compositionOffset =>
    obtain ⟨v, hv⟩ := resolveTicks_overflow s.config fun hdts => h ⟨hdts, trivial⟩
    refine ⟨v, ?_⟩
    simp only [resolve, resolveDts, hd, hv]
    rfl
  | ptsOnly pts =>
    obtain ⟨v, hv⟩ := resolveTicks_overflow s.config fun hpts => h ⟨trivial, hpts⟩
    refine ⟨v, ?_⟩
    simp only [resolve, resolvePts, hp, hv]
    rfl

theorem normalize_of_ok (h : (s.resolve input.mode).1 = .ok source) :
    s.normalize input = (.ok ((s.resolve input.mode).2.finish input source).1,
      ((s.resolve input.mode).2.finish input source).2) := by
  simp only [normalize, h]

theorem finish_dtsUnwrapper (input : TimestampNormalizeInput) (source : Source)
    (s : TimestampNormalizer) : (s.finish input source).2.dtsUnwrapper = s.dtsUnwrapper :=
  sourceDts_dtsUnwrapper ..

theorem finish_ptsUnwrapper (input : TimestampNormalizeInput) (source : Source)
    (s : TimestampNormalizer) : (s.finish input source).2.ptsUnwrapper = s.ptsUnwrapper :=
  sourceDts_ptsUnwrapper ..

/-- Nothing fails and the rest of the calls are made with what the unwrappers became, or one
of the two readings is beyond the range. -/
theorem calls_kept_iff (hd : s.dtsUnwrapper = some d) (hp : s.ptsUnwrapper = some p)
    (inputs : List TimestampNormalizeInput) :
    (∀ c ∈ calls inputs s, c.Kept) ↔
      d.AllFit (inputs.filterMap (·.mode.wrappedDts)) ∧
      p.AllFit (inputs.filterMap (·.mode.wrappedPts)) := by
  induction inputs generalizing s d p with
  | nil => simp [calls, WrapUnwrapper.AllFit]
  | cons input inputs ih =>
    rw [WrapUnwrapper.allFit_filterMap_cons, WrapUnwrapper.allFit_filterMap_cons, calls,
      List.forall_mem_cons]
    by_cases hfits : d.Fits input.mode.wrappedDts ∧ p.Fits input.mode.wrappedPts
    · obtain ⟨⟨source, hsource⟩, hdnext, hpnext⟩ := resolve_fits hd hp input.mode hfits.1 hfits.2
      have hnormalize := normalize_of_ok hsource
      have hkept : Call.Kept ⟨input, s, (s.normalize input).1, (s.normalize input).2⟩ := by
        rw [hnormalize]
        exact ⟨nofun, nofun⟩
      have hrest := ih (s := (s.normalize input).2) (d := d.after input.mode.wrappedDts)
        (p := p.after input.mode.wrappedPts)
        (by rw [hnormalize, ← hdnext]; exact finish_dtsUnwrapper ..)
        (by rw [hnormalize, ← hpnext]; exact finish_ptsUnwrapper ..)
      rw [hrest]
      tauto
    · obtain ⟨v, hv⟩ := resolve_overflow hd hp input.mode hfits
      have hresult : (s.normalize input).1 = .error (.unwrappedTimestampOverflow v) := by
        simp only [normalize, hv]
      constructor
      · intro hkept
        exact absurd hresult (hkept.1.inRange v)
      · intro hall
        exact absurd ⟨hall.1.1, hall.2.1⟩ hfits

theorem resolveTicks_unconfigured (config : TimestampNormalizerConfig) (value : TimestampValue) :
    (resolveTicks config value none).2 = none ∧
      ∀ err, (resolveTicks config value none).1 = .error err →
        err = .wrappedTimestampWithoutConfig := by
  cases value with
  | unwrapped value => exact ⟨rfl, nofun⟩
  | wrapped raw =>
    refine ⟨rfl, fun err herr => ?_⟩
    cases herr
    rfl

theorem error_of_map {r : Except ε α} {f : α → β} (h : r.map f = .error err) : r = .error err := by
  cases r with
  | error err' =>
    cases h
    rfl
  | ok a => cases h

/-- Without unwrappers nothing is read before a call fails. -/
theorem resolve_unconfigured (hd : s.dtsUnwrapper = none) (hp : s.ptsUnwrapper = none)
    (mode : TimestampNormalizeMode) : (s.resolve mode).2 = s ∧
      ∀ err, (s.resolve mode).1 = .error err → err = .wrappedTimestampWithoutConfig := by
  have hdts (dts : TimestampValue) : (s.resolveDts dts).2 = s := by
    unfold resolveDts
    dsimp only
    rw [hd, (resolveTicks_unconfigured s.config dts).1, ← hd]
  have hpts (pts : TimestampValue) : (s.resolvePts pts).2 = s := by
    unfold resolvePts
    dsimp only
    rw [hp, (resolveTicks_unconfigured s.config pts).1, ← hp]
  have hdtsErr (dts : TimestampValue) {err} (h : (s.resolveDts dts).1 = .error err) :
      err = .wrappedTimestampWithoutConfig :=
    (resolveTicks_unconfigured s.config dts).2 err (hd ▸ h)
  have hptsErr (pts : TimestampValue) {err} (h : (s.resolvePts pts).1 = .error err) :
      err = .wrappedTimestampWithoutConfig :=
    (resolveTicks_unconfigured s.config pts).2 err (hp ▸ h)
  cases mode with
  | noTimestamp => exact ⟨rfl, nofun⟩
  | dtsPts dts pts =>
    unfold resolve
    dsimp only
    cases hd' : (s.resolveDts dts).1 with
    | error err => exact ⟨hdts dts, fun _ heq => by cases heq; exact hdtsErr dts hd'⟩
    | ok ticks =>
      rw [hdts dts]
      exact ⟨hpts pts, fun err heq => hptsErr pts (error_of_map heq)⟩
  | dtsWithCompositionOffset dts compositionOffset =>
    exact ⟨hdts dts, fun err heq => hdtsErr dts (error_of_map heq)⟩
  | ptsOnly pts => exact ⟨hpts pts, fun err heq => hptsErr pts (error_of_map heq)⟩

theorem calls_kept_unconfigured (hd : s.dtsUnwrapper = none) (hp : s.ptsUnwrapper = none)
    (inputs : List TimestampNormalizeInput) : ∀ c ∈ calls inputs s, c.Kept := by
  induction inputs generalizing s with
  | nil => simp [calls]
  | cons input inputs ih =>
    rw [calls, List.forall_mem_cons]
    obtain ⟨hsame, herr⟩ := resolve_unconfigured hd hp input.mode
    cases hresult : (s.resolve input.mode).1 with
    | error err =>
      have hnormalize : s.normalize input = (.error err, s) := by
        simp only [normalize, hresult, hsame]
      rw [hnormalize]
      refine ⟨⟨fun value heq => ?_, fun _ _ => rfl⟩, ih hd hp⟩
      cases heq
      exact nomatch herr _ hresult
    | ok source =>
      have hnormalize := normalize_of_ok hresult
      rw [hsame] at hnormalize
      rw [hnormalize]
      exact ⟨⟨nofun, nofun⟩,
        ih ((finish_dtsUnwrapper ..).trans hd) ((finish_ptsUnwrapper ..).trans hp)⟩

end Kept
end TimestampNormalizer

namespace WrapUnwrapper
variable {bits : Nat} {origin t : Int} {w : WrapUnwrapper} {ts : List Int}

/-- The counts, from the start of the first one's period, stay in the range of `i64`. -/
def InRange (bits : Nat) (ts : List Int) : Prop :=
  ∀ t ∈ ts.head?, ∀ u ∈ ts, 0 ≤ t % 2 ^ bits + (u - t) ∧ t % 2 ^ bits + (u - t) < 2 ^ 63

/-- A count that leaves the range is noticed, as one step cannot go around the word. -/
theorem Follows.fits_iff (h : Follows bits origin t w) (hstep : 2 * |u - t| < 2 ^ bits)
    (hraw : raw % 2 ^ bits = reading bits u)
    (ht : 0 ≤ t - 2 ^ bits * origin ∧ t - 2 ^ bits * origin < 2 ^ 63) :
    w.Fits (some raw) ↔ 0 ≤ u - 2 ^ bits * origin ∧ u - 2 ^ bits * origin < 2 ^ 63 := by
  have hvalue := (h.unwrap hstep hraw).1
  have hperiod : (2 : Int) ^ bits ≤ 2 ^ 63 := pow_le_pow_right₀ (by norm_num) h.width.2
  have hword : ((2 ^ 64 : Nat) : Int) = 2 ^ 64 := by norm_num
  have habs := abs_lt.mp (show |u - t| < 2 ^ 62 by omega)
  have hsum : u - 2 ^ bits * origin = t - 2 ^ bits * origin + (u - t) := by ring
  rw [hword, hsum] at hvalue
  rw [hsum]
  unfold Fits
  generalize t - 2 ^ bits * origin = place at *
  generalize u - t = step at *
  omega

theorem Follows.allFit_iff (h : Follows bits origin t w) (hsteps : Smooth (2 ^ bits) (t :: ts))
    (hraws : raws.map (· % 2 ^ bits) = ts.map (reading bits))
    (ht : 0 ≤ t - 2 ^ bits * origin ∧ t - 2 ^ bits * origin < 2 ^ 63) :
    w.AllFit raws ↔
      ∀ u ∈ ts, 0 ≤ u - 2 ^ bits * origin ∧ u - 2 ^ bits * origin < 2 ^ 63 := by
  induction ts generalizing t w raws with
  | nil =>
    obtain rfl : raws = [] := by simpa using hraws
    simp [AllFit]
  | cons u ts ih =>
    obtain ⟨hstep, hrest⟩ := List.isChain_cons_cons.mp hsteps
    obtain ⟨raw, raws, rfl⟩ : ∃ raw rest, raws = raw :: rest := by
      cases raws with
      | nil => simp at hraws
      | cons raw raws => exact ⟨raw, raws, rfl⟩
    obtain ⟨hraw, hraws⟩ := List.cons.inj hraws
    have hfits := h.fits_iff hstep hraw ht
    rw [AllFit, List.forall_mem_cons, hfits]
    exact and_congr_right fun hu => ih (h.unwrap hstep hraw).2 hrest hraws hu

/-- The first value is always in the range. -/
theorem Fresh.allFit_iff (h : Fresh bits w) (hsteps : Smooth (2 ^ bits) ts)
    (hraws : raws.map (· % 2 ^ bits) = ts.map (reading bits)) :
    w.AllFit raws ↔ InRange bits ts := by
  cases ts with
  | nil =>
    obtain rfl : raws = [] := by simpa using hraws
    simp [AllFit, InRange]
  | cons t ts =>
    obtain ⟨raw, raws, rfl⟩ : ∃ raw rest, raws = raw :: rest := by
      cases raws with
      | nil => simp at hraws
      | cons raw raws => exact ⟨raw, raws, rfl⟩
    obtain ⟨hraw, hraws⟩ := List.cons.inj hraws
    obtain ⟨hvalue, hfollows⟩ := h.unwrap hraw
    have hsplit := Int.emod_add_mul_ediv t (2 ^ bits)
    have hpos : (0 : Int) < 2 ^ bits := by positivity
    have hlow := Int.emod_nonneg t hpos.ne'
    have hhigh := Int.emod_lt_of_pos t hpos
    have hperiod : (2 : Int) ^ bits ≤ 2 ^ 63 := pow_le_pow_right₀ (by norm_num) h.width.2
    have hfirst : w.Fits (some raw) := by
      unfold Fits
      omega
    rw [AllFit, hfollows.allFit_iff hsteps hraws (by omega)]
    have hsame (u : Int) : u - 2 ^ bits * (t / 2 ^ bits) = t % 2 ^ bits + (u - t) := by omega
    simp only [InRange, List.head?_cons, Option.mem_some_iff, forall_eq', List.forall_mem_cons,
      hsame, sub_self, add_zero]
    exact ⟨fun hall => ⟨⟨hlow, by omega⟩, hall.2⟩, fun hall => ⟨hfirst, hall.2⟩⟩

end WrapUnwrapper

namespace TimestampNormalizer
open WrapUnwrapper

/-- The wrapped timestamps of the inputs are readings of counts that move by less than half
the period. -/
structure Counts (bits : Nat) (inputs : List TimestampNormalizeInput) (dts pts : List Int) :
    Prop where
  dtsSteps : Smooth (2 ^ bits) dts
  ptsSteps : Smooth (2 ^ bits) pts
  dtsReadings : (inputs.filterMap (·.mode.wrappedDts)).map (· % 2 ^ bits) = dts.map (reading bits)
  ptsReadings : (inputs.filterMap (·.mode.wrappedPts)).map (· % 2 ^ bits) = pts.map (reading bits)

/-- A stream is not lost exactly if the counts stay in the range of `i64`: one that steps back
over the start of its first period is. -/
theorem jitter_kept_iff (config : TimestampNormalizerConfig)
    (inputs : List TimestampNormalizeInput) (dts pts : List Int)
    (h : ∀ bits ∈ config.wrapBits, Counts bits inputs dts pts) :
    (∀ c ∈ calls inputs (.new config), c.Kept) ↔
      ∀ bits ∈ config.wrapBits, InRange bits dts ∧ InRange bits pts := by
  cases hbits : config.wrapBits with
  | none =>
    have hnone : config.wrapBits.bind WrapUnwrapper.new = none := by rw [hbits]; rfl
    simpa using calls_kept_unconfigured hnone hnone inputs
  | some bits =>
    obtain ⟨hdts, hpts, hdtsReadings, hptsReadings⟩ := h bits (by rw [hbits]; rfl)
    have hwidth := config.validWidth bits (by rw [hbits]; rfl)
    obtain ⟨w, hw⟩ : ∃ w, WrapUnwrapper.new bits = some w := ⟨_, if_neg (by omega)⟩
    have hsome : config.wrapBits.bind WrapUnwrapper.new = some w := by rw [hbits]; exact hw
    rw [calls_kept_iff hsome hsome, (fresh_new hw).allFit_iff hdts hdtsReadings,
      (fresh_new hw).allFit_iff hpts hptsReadings]
    simp

/-- A PTS that steps back over zero, with a DTS that does not. -/
def backOverZero : List TimestampNormalizeInput :=
  [⟨.dtsPts (.wrapped 5) (.wrapped 5), none, none, true, false⟩,
    ⟨.dtsPts (.wrapped 10) (.wrapped (2 ^ 32 - 1)), none, none, true, false⟩]

theorem counts_backOverZero : Counts 32 backOverZero [5, 10] [5, -1] where
  dtsSteps := by norm_num [Smooth, abs_of_nonneg]
  ptsSteps := by norm_num [Smooth, abs_of_neg]
  dtsReadings := rfl
  ptsReadings := rfl

/-- The call fails, and the DTS that it read is not read again. -/
theorem jitter_lost : Counts 32 backOverZero [5, 10] [5, -1] ∧
    ∃ first second, calls backOverZero (.new millisConfig) = [first, second] ∧
      second.result = .error (.unwrappedTimestampOverflow (2 ^ 64 - 1)) ∧
      second.before.dtsUnwrapper.bind (·.lastRaw) = some 5 ∧
      second.after.dtsUnwrapper.bind (·.lastRaw) = some 10 ∧
      ¬ ∀ c ∈ calls backOverZero (.new millisConfig), c.Kept := by
  refine ⟨counts_backOverZero, _, _, rfl, rfl, rfl, rfl, fun hkept => ?_⟩
  exact (hkept _ (List.mem_cons_of_mem _ (List.mem_cons_self ..))).inRange (2 ^ 64 - 1) rfl

/-- Steps back that stay above zero, and a wrap. -/
theorem jitter_kept_wraps : List.Forall (·.Kept) (calls
    [⟨.ptsOnly (.wrapped (2 ^ 32 - 2)), none, none, true, false⟩,
      ⟨.ptsOnly (.wrapped 3), none, none, true, false⟩,
      ⟨.ptsOnly (.wrapped (2 ^ 32 - 1)), none, none, true, false⟩] (.new millisConfig)) := by
  refine List.forall_iff_forall_mem.mpr ?_
  refine (jitter_kept_iff millisConfig _ [] [2 ^ 32 - 2, 2 ^ 32 + 3, 2 ^ 32 - 1] ?_).mpr ?_
  · intro bits hbits
    obtain rfl : 32 = bits := Option.some.inj hbits
    exact ⟨by norm_num [Smooth], by norm_num [Smooth, abs_of_nonneg, abs_of_neg], rfl, rfl⟩
  · intro bits hbits
    obtain rfl : 32 = bits := Option.some.inj hbits
    norm_num [InRange]

end TimestampNormalizer
end CheetahMedia.Codec
