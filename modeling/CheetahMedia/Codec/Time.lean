import CheetahMedia.Lib.Checked
import Mathlib.Algebra.Group.Nat.Defs

namespace CheetahMedia.Codec
open Lib.Checked

/-- A tick is `num / den` seconds. -/
structure Timebase where
  num : Nat
  den : Nat

namespace Timebase

/-- The product is one of 128 bits; the result is cut to 64. -/
def toMicros (tb : Timebase) (value : Int) : Int :=
  asI64 ((value * tb.num * 1000000).tdiv (max tb.den 1))

def fromMicros (tb : Timebase) (micros : Int) : Int :=
  asI64 ((micros * tb.den).tdiv (max tb.num 1 * 1000000))

end Timebase

def TimebaseConverter.convert (value : Int) (src dst : Timebase) : Int :=
  dst.fromMicros (src.toMicros value)

structure WrapUnwrapper where
  mask : Nat
  half : Nat
  high : Nat
  lastRaw : Option Nat

namespace WrapUnwrapper

/-- No unwrapper for a width that is not valid. -/
def new (bits : Nat) : Option WrapUnwrapper :=
  if bits = 0 ∨ 63 < bits then none
  else some { mask := 2 ^ bits - 1, half := 2 ^ (bits - 1), high := 0, lastRaw := none }

/-- The high part once `raw` follows the last reading; it wraps at 64 bits. -/
def highAt (w : WrapUnwrapper) (raw : Nat) : Nat :=
  match w.lastRaw with
  | some last =>
    if raw < last ∧ w.half < last - raw then (w.high + (w.mask + 1)) % 2 ^ 64
    else if last < raw ∧ w.half < raw - last then (w.high + (2 ^ 64 - (w.mask + 1))) % 2 ^ 64
    else w.high
  | none => w.high

def unwrap (raw : Nat) (w : WrapUnwrapper) : Nat × WrapUnwrapper :=
  let raw := raw &&& w.mask
  let high := w.highAt raw
  (high + raw, { w with high, lastRaw := some raw })

def reset (w : WrapUnwrapper) : WrapUnwrapper := { w with high := 0, lastRaw := none }

end WrapUnwrapper

structure DtsGenerator where
  lastDts : Option Int := none
  lastSourcePts : Option Int := none
  smoothedStep : Option Int := none
  ptsReorderSeen : Bool := false

structure PtsOnlyDtsGeneration where
  dts : Int
  reordered : Bool
  discontinuity : Bool

namespace DtsGenerator

def generateMonotonicFromPts (pts : Int) (g : DtsGenerator) : Int × DtsGenerator :=
  let dts := match g.lastDts with
    | some last => if pts ≤ last then last + 1 else pts
    | none => pts
  (dts, { g with lastDts := some dts })

/-- What a source timestamp says about the cadence. -/
structure Cadence where
  step : Int
  observed : Option Int := none
  reordered : Bool := false
  discontinuity : Bool := false

def cadence (pts fallbackStep : Int) (frameDuration : Option Int) (maxGapTicks : Int)
    (g : DtsGenerator) : Cadence × DtsGenerator :=
  let expectedStep := max (g.smoothedStep.getD fallbackStep) 1
  let jumpThreshold := max (max (max maxGapTicks (saturateI64 (expectedStep * 8)))
    (saturateI64 (fallbackStep * 8))) 1
  let step := max (frameDuration.getD 0) 0
  match g.lastSourcePts with
  | none => ({ step }, g)
  | some lastPts =>
    let delta := saturateI64 (pts - lastPts)
    if jumpThreshold < saturateI64 delta.natAbs then
      if 0 < delta ∧ step = 0 then
        ({ step := delta, observed := some delta, discontinuity := true },
          { g with smoothedStep := none })
      else ({ step, discontinuity := true }, { g with smoothedStep := none })
    else if delta < 0 then
      ({ step, reordered := true },
        { g with ptsReorderSeen := true, smoothedStep := some fallbackStep })
    else if 0 < delta ∧ step = 0 then
      let step := if g.ptsReorderSeen then expectedStep else delta
      ({ step, observed := some step }, g)
    else ({ step }, g)

def generateFromPtsOnly (pts fallbackStep : Int) (frameDuration : Option Int) (maxGapTicks : Int)
    (g : DtsGenerator) : PtsOnlyDtsGeneration × DtsGenerator :=
  let fallbackStep := max fallbackStep 1
  let (c, g) := g.cadence pts fallbackStep frameDuration maxGapTicks
  let step := if c.step = 0 then max (g.smoothedStep.getD fallbackStep) 1 else c.step
  let dts := match g.lastDts with
    | some lastDts => saturateI64 (lastDts + step)
    | none => pts
  let observedStep := match g.lastSourcePts with
    | some lastPts =>
      let delta := saturateI64 (pts - lastPts)
      c.observed.getD (if 0 < delta then delta else step)
    | none => step
  let observedStep := max observedStep 1
  let blendedStep := match g.smoothedStep with
    | some previous =>
      max 1 (min Lib.I64_MAX ((previous * 3 + observedStep).tdiv 4))
    | none => observedStep
  ({ dts, reordered := c.reordered, discontinuity := c.discontinuity },
    { g with smoothedStep := some (max blendedStep 1), lastSourcePts := some pts
             lastDts := some dts })

end DtsGenerator

inductive TimestampValue
  | unwrapped (value : Int)
  | wrapped (raw : Nat)

inductive TimestampNormalizerConfigError
  | invalidInputTimebase (num den : Nat)
  | invalidOutputTimebase (num den : Nat)
  | invalidWrapWidth (bits : Nat)

/-- A configuration that was checked. -/
structure TimestampNormalizerConfig where
  inputTimebase : Timebase
  outputTimebase : Timebase
  wrapBits : Option Nat
  maxForwardGapUs : Int := 2000000
  defaultFallbackStep : Int := 1
  allowNegativeComposition : Bool := true
  validInput : inputTimebase.num ≠ 0 ∧ inputTimebase.den ≠ 0
  validOutput : outputTimebase.num ≠ 0 ∧ outputTimebase.den ≠ 0
  validWidth : ∀ bits ∈ wrapBits, bits ≠ 0 ∧ bits ≤ 63

namespace TimestampNormalizerConfig

def new (inputTimebase outputTimebase : Timebase) (wrapBits : Option Nat) :
    Except TimestampNormalizerConfigError TimestampNormalizerConfig :=
  if hin : inputTimebase.num = 0 ∨ inputTimebase.den = 0 then
    .error (.invalidInputTimebase inputTimebase.num inputTimebase.den)
  else if hout : outputTimebase.num = 0 ∨ outputTimebase.den = 0 then
    .error (.invalidOutputTimebase outputTimebase.num outputTimebase.den)
  else if hwidth : ∀ bits ∈ wrapBits, bits ≠ 0 ∧ bits ≤ 63 then
    .ok { inputTimebase, outputTimebase, wrapBits, validInput := not_or.mp hin
          validOutput := not_or.mp hout, validWidth := hwidth }
  else .error (.invalidWrapWidth (wrapBits.getD 0))

def withMaxForwardGapUs (maxForwardGapUs : Int) (c : TimestampNormalizerConfig) :
    TimestampNormalizerConfig :=
  { c with maxForwardGapUs := max maxForwardGapUs 0 }

def withDefaultFallbackStep (defaultFallbackStep : Int) (c : TimestampNormalizerConfig) :
    TimestampNormalizerConfig :=
  { c with defaultFallbackStep := max defaultFallbackStep 1 }

def withNegativeCompositionAllowed (allow : Bool) (c : TimestampNormalizerConfig) :
    TimestampNormalizerConfig :=
  { c with allowNegativeComposition := allow }

end TimestampNormalizerConfig

inductive TimestampNormalizeError
  | wrappedTimestampWithoutConfig
  | unwrappedTimestampOverflow (value : Nat)

inductive TimestampAlert
  | missingDtsUsedFallback
  | missingPtsDerivedFromDts
  | nonMonotonicDtsRepaired
  | ptsReorderObserved
  | timelineDiscontinuityDetected
  | negativeCompositionClamped
  | resetApplied
deriving DecidableEq

inductive TimestampNormalizeMode
  | noTimestamp
  | dtsPts (dts pts : TimestampValue)
  | dtsWithCompositionOffset (dts : TimestampValue) (compositionOffset : Option Int)
  | ptsOnly (pts : TimestampValue)

structure TimestampNormalizeInput where
  mode : TimestampNormalizeMode
  frameDuration : Option Int := none
  fallbackStep : Option Int := none
  isVideo : Bool := false
  forceDiscontinuity : Bool := false

structure TimestampNormalizeOutput where
  pts : Int
  dts : Int
  ptsUs : Int
  dtsUs : Int
  discontinuity : Bool
  alerts : List TimestampAlert

def pushAlert (alerts : List TimestampAlert) (alert : TimestampAlert) : List TimestampAlert :=
  if alert ∈ alerts then alerts else alerts ++ [alert]

structure TimestampNormalizer where
  config : TimestampNormalizerConfig
  dtsUnwrapper : Option WrapUnwrapper
  ptsUnwrapper : Option WrapUnwrapper
  epochOffset : Option Int := none
  lastDts : Option Int := none
  nextFallbackDts : Option Int := none
  dtsGenerator : DtsGenerator := {}
  pendingReset : Bool := false

namespace TimestampNormalizer

def new (config : TimestampNormalizerConfig) : TimestampNormalizer where
  config := config
  dtsUnwrapper := config.wrapBits.bind WrapUnwrapper.new
  ptsUnwrapper := config.wrapBits.bind WrapUnwrapper.new

def reset (s : TimestampNormalizer) : TimestampNormalizer where
  config := s.config
  dtsUnwrapper := s.dtsUnwrapper.map .reset
  ptsUnwrapper := s.ptsUnwrapper.map .reset
  pendingReset := true

/-- The timestamp in ticks of the output, and the unwrapper that it was read with. -/
def resolveTicks (config : TimestampNormalizerConfig) (value : TimestampValue)
    (unwrapper : Option WrapUnwrapper) :
    Except TimestampNormalizeError Int × Option WrapUnwrapper :=
  let convert (ticks : Int) :=
    TimebaseConverter.convert ticks config.inputTimebase config.outputTimebase
  match value with
  | .unwrapped value => (.ok (convert value), unwrapper)
  | .wrapped raw =>
    match unwrapper with
    | none => (.error .wrappedTimestampWithoutConfig, none)
    | some w =>
      let (unwrapped, w) := w.unwrap raw
      if 2 ^ 63 ≤ unwrapped then (.error (.unwrappedTimestampOverflow unwrapped), some w)
      else (.ok (convert unwrapped), some w)

def resolveDts (dts : TimestampValue) (s : TimestampNormalizer) :
    Except TimestampNormalizeError Int × TimestampNormalizer :=
  let r := resolveTicks s.config dts s.dtsUnwrapper
  (r.1, { s with dtsUnwrapper := r.2 })

def resolvePts (pts : TimestampValue) (s : TimestampNormalizer) :
    Except TimestampNormalizeError Int × TimestampNormalizer :=
  let r := resolveTicks s.config pts s.ptsUnwrapper
  (r.1, { s with ptsUnwrapper := r.2 })

/-- What the source says of one frame, in ticks of the output. -/
structure Source where
  dts : Option Int := none
  pts : Option Int := none
  compositionOffset : Option Int := none

/-- The DTS is read before the PTS, and is read when the PTS cannot be. -/
def resolve (mode : TimestampNormalizeMode) (s : TimestampNormalizer) :
    Except TimestampNormalizeError Source × TimestampNormalizer :=
  match mode with
  | .noTimestamp => (.ok {}, s)
  | .dtsPts dts pts =>
    let d := s.resolveDts dts
    match d.1 with
    | .error err => (.error err, d.2)
    | .ok dts =>
      let p := d.2.resolvePts pts
      (p.1.map fun pts => { dts := some dts, pts := some pts }, p.2)
  | .dtsWithCompositionOffset dts compositionOffset =>
    let d := s.resolveDts dts
    let compositionOffset := compositionOffset.map fun value =>
      TimebaseConverter.convert value s.config.inputTimebase s.config.outputTimebase
    (d.1.map fun dts => { dts := some dts, compositionOffset }, d.2)
  | .ptsOnly pts =>
    let p := s.resolvePts pts
    (p.1.map fun pts => { pts := some pts }, p.2)

/-- Alerts and discontinuity, as they are collected. -/
structure Notes where
  discontinuity : Bool
  alerts : List TimestampAlert := []

def Notes.push (notes : Notes) (alert : TimestampAlert) : Notes :=
  { notes with alerts := pushAlert notes.alerts alert }

def Notes.discontinuous (notes : Notes) (alert : TimestampAlert) : Notes :=
  { discontinuity := true, alerts := pushAlert notes.alerts alert }

/-- A step of at least one tick, in ticks of the output. -/
def stepTicks (config : TimestampNormalizerConfig) (value : Int) : Int :=
  max (TimebaseConverter.convert (max value 1) config.inputTimebase config.outputTimebase) 1

/-- The DTS before the epoch is taken off. -/
def sourceDts (input : TimestampNormalizeInput) (source : Source) (notes : Notes)
    (s : TimestampNormalizer) : Int × Notes × TimestampNormalizer :=
  match source.dts with
  | some dts => (dts, notes, s)
  | none =>
    let notes := notes.push .missingDtsUsedFallback
    match source.pts with
    | none => (s.nextFallbackDts.getD 0, notes, s)
    | some pts =>
      match input.mode with
      | .ptsOnly _ =>
        let maxGapTicks := max (s.config.outputTimebase.fromMicros s.config.maxForwardGapUs) 1
        let (generated, dtsGenerator) := s.dtsGenerator.generateFromPtsOnly pts
          (stepTicks s.config (input.fallbackStep.getD s.config.defaultFallbackStep))
          (input.frameDuration.map (stepTicks s.config)) maxGapTicks
        let notes := if generated.reordered then notes.push .ptsReorderObserved else notes
        let notes := if generated.discontinuity then
          notes.discontinuous .timelineDiscontinuityDetected else notes
        (generated.dts, notes, { s with dtsGenerator })
      | _ =>
        let (dts, dtsGenerator) := s.dtsGenerator.generateMonotonicFromPts pts
        (dts, notes, { s with dtsGenerator })

/-- The DTS is put after the last one. -/
def repairDts (dts : Int) (notes : Notes) (s : TimestampNormalizer) : Int × Notes :=
  match s.lastDts with
  | none => (dts, notes)
  | some last =>
    if dts ≤ last then (saturateI64 (last + 1), notes.push .nonMonotonicDtsRepaired)
    else if s.config.maxForwardGapUs <
        s.config.outputTimebase.toMicros (saturateI64 (dts - last)) then
      (dts, notes.discontinuous .timelineDiscontinuityDetected)
    else (dts, notes)

def composedPts (source : Source) (epochOffset dts : Int) (notes : Notes) : Int × Notes :=
  match source.pts with
  | some pts => (saturateI64 (pts - epochOffset), notes)
  | none => (saturateI64 (dts + source.compositionOffset.getD 0),
      notes.push .missingPtsDerivedFromDts)

/-- The PTS, where a negative composition may be taken away from a video. -/
def finishPts (input : TimestampNormalizeInput) (source : Source) (epochOffset dts : Int)
    (notes : Notes) (config : TimestampNormalizerConfig) : Int × Notes :=
  let c := composedPts source epochOffset dts notes
  if input.isVideo && !config.allowNegativeComposition && decide (c.1 < dts) then
    (dts, c.2.push .negativeCompositionClamped)
  else c

/-- One frame, once its source timestamps are resolved. -/
def finish (input : TimestampNormalizeInput) (source : Source) (s : TimestampNormalizer) :
    TimestampNormalizeOutput × TimestampNormalizer :=
  let notes : Notes := { discontinuity := input.forceDiscontinuity }
  let d := s.sourceDts input source
    (if s.pendingReset then notes.discontinuous .resetApplied else notes)
  let timed := source.dts.isSome || source.pts.isSome
  let epochOffset := if timed then s.epochOffset.getD d.1 else 0
  let r := d.2.2.repairDts (saturateI64 (d.1 - epochOffset)) d.2.1
  let p := finishPts input source epochOffset r.1 r.2 s.config
  let fallbackStep :=
    stepTicks s.config (input.fallbackStep.getD s.config.defaultFallbackStep)
  ({ pts := p.1, dts := r.1
     ptsUs := s.config.outputTimebase.toMicros p.1
     dtsUs := s.config.outputTimebase.toMicros r.1
     discontinuity := p.2.discontinuity
     alerts := p.2.alerts },
    { d.2.2 with epochOffset := if timed then some epochOffset else s.epochOffset
                 pendingReset := false, lastDts := some r.1
                 nextFallbackDts := some (saturateI64 (r.1 + fallbackStep)) })

def normalize (input : TimestampNormalizeInput) (s : TimestampNormalizer) :
    Except TimestampNormalizeError TimestampNormalizeOutput × TimestampNormalizer :=
  let r := s.resolve input.mode
  match r.1 with
  | .error err => (.error err, r.2)
  | .ok source => (.ok (r.2.finish input source).1, (r.2.finish input source).2)

end TimestampNormalizer
end CheetahMedia.Codec
