import CheetahMedia.Codec.Mp4Writer
import CheetahMedia.Lib.BinarySearch
import CheetahMedia.Lib.RunLength

namespace CheetahMedia.Codec
open Lib Lib.Checked Lib.RunLength

structure SampleIndexEntry where
  /-- From the start of the file. -/
  offset : Nat
  size : UInt32
  dts : Int
  ctsOffset : Int32
  duration : UInt32
  isSync : Bool

def SampleIndexEntry.pts (entry : SampleIndexEntry) : Int :=
  saturateI64 (entry.dts + entry.ctsOffset.toInt)

structure SampleIndex where
  trackId : Nat := 0
  timescale : Nat
  samples : List SampleIndexEntry
  duration : Int

namespace SampleIndex

/-- Of the samples up to `pos`, the last that is a sync sample. -/
def lastSync (index : SampleIndex) : Nat → Option Nat
  | 0 => if (index.samples[0]?.map (·.isSync)).getD false then some 0 else none
  | pos + 1 =>
    if (index.samples[pos + 1]?.map (·.isSync)).getD false then some (pos + 1)
    else index.lastSync pos

def seekToDts (index : SampleIndex) (dts : Int) : Option Nat :=
  if index.samples.isEmpty then none
  else
    let pos := match BinarySearch.binarySearchBy (fun s => compare s.dts dts) index.samples with
      | .ok i => i
      | .error i => i - 1
    some ((index.lastSync pos).getD 0)

end SampleIndex

/-- A run of chunks with the same number of samples. -/
structure StscEntry where
  firstChunk : UInt32
  samplesPerChunk : UInt32
  sampleDescriptionIndex : UInt32
deriving DecidableEq

/-- The content of a `stbl` box. -/
structure SampleTable where
  stts : List (UInt32 × UInt32) := []
  ctts : List (UInt32 × Int32) := []
  stss : Option (List UInt32) := none
  stsc : List StscEntry := []
  stszDefault : UInt32 := 0
  stszSizes : List UInt32 := []
  stco : List UInt64 := []

namespace SampleTable

def MAX_SAMPLES : Nat := 4 * 1024 * 1024

def sttsRuns (t : SampleTable) : List (Run UInt32) := t.stts.map fun r => (r.1.toNat, r.2)

def cttsRuns (t : SampleTable) : List (Run Int32) := t.ctts.map fun r => (r.1.toNat, r.2)

/-- The run that holds the chunk is the first whose successor starts after it. -/
def samplesPerChunkIn (chunkNo : UInt32) : List StscEntry → UInt32
  | [] => 0
  | [last] => if last.firstChunk ≤ chunkNo then last.samplesPerChunk else 0
  | entry :: next :: rest =>
    if entry.firstChunk ≤ chunkNo ∧ chunkNo < next.firstChunk then entry.samplesPerChunk
    else samplesPerChunkIn chunkNo (next :: rest)

def samplesPerChunkFor (t : SampleTable) (chunkNo : UInt32) : UInt32 :=
  samplesPerChunkIn chunkNo t.stsc

def totalSamplesFromStsc (t : SampleTable) : Nat :=
  (List.range t.stco.length).foldl
    (fun total i =>
      min (total + (t.samplesPerChunkFor (UInt32.ofNat (i + 1))).toNat) (2 ^ 64 - 1)) 0

/-- The number of samples that the tables declare. -/
def rawTotal (t : SampleTable) : Nat :=
  if t.stszDefault = 0 then t.stszSizes.length else t.totalSamplesFromStsc

def sizeFor (t : SampleTable) (sampleIdx : Nat) : UInt32 :=
  if t.stszDefault ≠ 0 then t.stszDefault else t.stszSizes[sampleIdx]?.getD 0

/-- The durations go on after the last run, none of them zero. -/
def sttsSpent (last : UInt32) : Run UInt32 := (2 ^ 32 - 1, if last = 0 then 1 else last)

def cttsSpent (_ : Int32) : Run Int32 := (2 ^ 32 - 1, 0)

/-- What the walk over the chunks carries. -/
structure Walk where
  stts : Cursor UInt32
  ctts : Cursor Int32
  currentDts : Int := 0
  samples : List SampleIndexEntry := []

def Walk.nextCts (t : SampleTable) (w : Walk) : Int32 × Cursor Int32 :=
  if t.ctts.isEmpty then (0, w.ctts) else w.ctts.next cttsSpent

def isSyncAt (t : SampleTable) (sampleIdx : Nat) : Bool :=
  match t.stss with
  | some set => set.contains (UInt32.ofNat (sampleIdx + 1))
  | none => true

def Walk.pushSample (t : SampleTable) (chunkOff sampleOffsetInChunk : Nat) (w : Walk) :
    Checked Walk := do
  let sampleIdx := w.samples.length
  let (duration, stts) := w.stts.next sttsSpent
  let (ctsOffset, ctts) := w.nextCts t
  let offset ← u64 (chunkOff + sampleOffsetInChunk)
  let entry : SampleIndexEntry :=
    { offset, size := t.sizeFor sampleIdx, dts := w.currentDts, ctsOffset, duration,
      isSync := t.isSyncAt sampleIdx }
  let currentDts := saturateI64 (w.currentDts + duration.toNat)
  return { stts, ctts, currentDts, samples := w.samples ++ [entry] }

/-- `samplesInChunk` samples of a chunk, the first of them `sampleOffsetInChunk` bytes into it. -/
def walkChunk (t : SampleTable) (total chunkOff : Nat) : Nat → Nat → Walk → Checked Walk
  | 0, _, w => return w
  | samplesInChunk + 1, sampleOffsetInChunk, w =>
    if total ≤ w.samples.length then return w
    else do
      let size := t.sizeFor w.samples.length
      let w ← w.pushSample t chunkOff sampleOffsetInChunk
      let sampleOffsetInChunk ← u64 (sampleOffsetInChunk + size.toNat)
      walkChunk t total chunkOff samplesInChunk sampleOffsetInChunk w

def walkChunks (t : SampleTable) (total : Nat) : List (UInt64 × Nat) → Walk → Checked Walk
  | [], w => return w
  | (chunkOff, i) :: rest, w => do
    let samplesInChunk := t.samplesPerChunkFor (UInt32.ofNat (i + 1))
    let w ← walkChunk t total chunkOff.toNat samplesInChunk.toNat 0 w
    if total ≤ w.samples.length then return w
    else walkChunks t total rest w

def start (t : SampleTable) : Walk :=
  { stts := .start 0 t.sttsRuns, ctts := .start 0 t.cttsRuns }

def buildIndex (t : SampleTable) (timescale : Nat) : Checked (Except Mp4Error SampleIndex) :=
  if MAX_SAMPLES < t.rawTotal then return .error (.invalidSampleTable "sample count exceeds limit")
  else do
    let w ← t.walkChunks t.rawTotal t.stco.zipIdx t.start
    return .ok { timescale, samples := w.samples, duration := w.currentDts }

end SampleTable
end CheetahMedia.Codec
