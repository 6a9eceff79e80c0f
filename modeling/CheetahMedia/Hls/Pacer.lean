import CheetahMedia.Codec.Media
import CheetahMedia.Lib.Transition

namespace CheetahMedia.Hls
open Lib Codec

structure PacedFrame where
  dtsMs : Nat
  data : Bytes
  mediaKind : MediaKind
  codec : CodecId
  ptsMs : Nat
  keyframe : Bool
deriving DecidableEq

structure HlsPlaybackPacer where
  buffer : List PacedFrame
  /-- When playback started, in microseconds. -/
  playStartUs : Option Nat
  /-- The first frame's DTS, the base of the due times. -/
  firstDtsMs : Option Nat
  maxBufferMs : Nat

namespace HlsPlaybackPacer

def new (maxBufferMs : Nat) : HlsPlaybackPacer :=
  { buffer := [], playStartUs := none, firstDtsMs := none, maxBufferMs }

def push (s : HlsPlaybackPacer) (frame : PacedFrame) : HlsPlaybackPacer :=
  { s with
    firstDtsMs := if s.firstDtsMs = none then some frame.dtsMs else s.firstDtsMs
    buffer := s.buffer ++ [frame] }

/-- The offset of the newest buffered frame from the first frame. -/
def bufferSpanMs (buffer : List PacedFrame) (firstDts : Nat) : Nat :=
  (buffer.getLast?.map fun back => back.dtsMs - firstDts).getD 0

/-- The frames given out and the frames that stay. -/
def drainLoop (maxBufferMs firstDts elapsedMs : Nat) (forceDrain : Bool) :
    List PacedFrame → List PacedFrame × List PacedFrame
  | [] => ([], [])
  | front :: buffer =>
    if front.dtsMs - firstDts ≤ elapsedMs ∨ forceDrain then
      if forceDrain ∧ bufferSpanMs buffer firstDts ≤ maxBufferMs / 2 then ([front], buffer)
      else
        let rest := drainLoop maxBufferMs firstDts elapsedMs forceDrain buffer
        (front :: rest.1, rest.2)
    else ([], front :: buffer)

def drainReady (s : HlsPlaybackPacer) (nowUs : Nat) : HlsPlaybackPacer × List PacedFrame :=
  if s.playStartUs = none ∧ s.buffer = [] then (s, [])
  else
    let playStart := s.playStartUs.getD nowUs
    let s := { s with playStartUs := some playStart }
    match s.firstDtsMs with
    | none => (s, [])
    | some firstDts =>
      let elapsedMs := (nowUs - playStart) / 1000
      let forceDrain := decide (s.maxBufferMs < bufferSpanMs s.buffer firstDts)
      let drained := drainLoop s.maxBufferMs firstDts elapsedMs forceDrain s.buffer
      ({ s with buffer := drained.2 }, drained.1)

inductive PacerOp
  | push (frame : PacedFrame)
  | drainReady (nowUs : Nat)

/-- An operation, and the frames that it gives out. -/
def perform : Transition HlsPlaybackPacer PacerOp PacedFrame
  | s, .push frame => some (s.push frame, [])
  | s, .drainReady nowUs => some (s.drainReady nowUs)

/-- The frames pushed by a run. -/
def pushed (ops : List PacerOp) : List PacedFrame :=
  ops.filterMap fun op => match op with
    | .push frame => some frame
    | .drainReady _ => none

/-- The clock readings of a run. -/
def readings (ops : List PacerOp) : List Nat :=
  ops.filterMap fun op => match op with
    | .push _ => none
    | .drainReady nowUs => some nowUs

/-- Playback starts with the first call behind the first frame. -/
def playbackStart (ops : List PacerOp) : Option Nat :=
  (readings (ops.dropWhile fun op => (pushed [op]).isEmpty)).head?

/-- How far the buffered frames are apart. -/
def span (buffer : List PacedFrame) : Nat :=
  (buffer.getLast?.map (·.dtsMs)).getD 0 - (buffer.head?.map (·.dtsMs)).getD 0

/-- The time from the start of playback, in milliseconds, and the offset of a frame from the
first one decide whether it is due. -/
def Due (s : HlsPlaybackPacer) (nowUs : Nat) (frame : PacedFrame) : Prop :=
  frame.dtsMs - s.firstDtsMs.getD frame.dtsMs ≤ (nowUs - s.playStartUs.getD nowUs) / 1000

/-- A call gives out no frame early but when too much is buffered, and then stops at half of
what may be buffered. -/
structure Paced (s : HlsPlaybackPacer) (nowUs : Nat) : Prop where
  early : ∀ frame ∈ (s.drainReady nowUs).2, ¬s.Due nowUs frame → s.maxBufferMs < span s.buffer
  forced : s.maxBufferMs < span s.buffer → ∃ n, 0 < n ∧
    (s.drainReady nowUs).2 = s.buffer.take n ∧ span (s.buffer.drop n) ≤ s.maxBufferMs / 2 ∧
    ∀ k, 0 < k → k < n → s.maxBufferMs / 2 < span (s.buffer.drop k)

/-- Not too much is buffered, and the newest frame is due unless it is near the first frame
ever pushed. -/
structure Calm (s : HlsPlaybackPacer) (nowUs : Nat) : Prop where
  room : span s.buffer ≤ s.maxBufferMs
  newest : ∀ back ∈ s.buffer.getLast?,
    back.dtsMs - s.firstDtsMs.getD back.dtsMs ≤ s.maxBufferMs ∨ s.Due nowUs back

/-- A property of every call of a run. -/
def AtEachDrain (P : HlsPlaybackPacer → Nat → Prop) (maxBufferMs : Nat) (ops : List PacerOp) :
    Prop :=
  ∀ before nowUs after s out, ops = before ++ .drainReady nowUs :: after →
    Transition.run perform (new maxBufferMs) before = some (s, out) → P s nowUs

variable {s : HlsPlaybackPacer} {buffer out : List PacedFrame}
  {maxBufferMs firstDts elapsedMs nowUs : Nat}

theorem drainLoop_append (maxBufferMs firstDts elapsedMs : Nat) (force : Bool)
    (buffer : List PacedFrame) :
    (drainLoop maxBufferMs firstDts elapsedMs force buffer).1 ++
      (drainLoop maxBufferMs firstDts elapsedMs force buffer).2 = buffer := by
  induction buffer with
  | nil => rfl
  | cons front buffer ih =>
    unfold drainLoop
    split
    · split
      · rfl
      · exact congrArg (front :: ·) ih
    · rfl

/-- A call that is not forced gives out frames that are due. -/
theorem drainLoop_due (h : frame ∈ (drainLoop maxBufferMs firstDts elapsedMs false buffer).1) :
    frame.dtsMs - firstDts ≤ elapsedMs := by
  induction buffer with
  | nil => cases h
  | cons front buffer ih =>
    unfold drainLoop at h
    split at h
    · rename_i hdue
      rw [if_neg (by simp)] at h
      rcases List.mem_cons.mp h with rfl | h
      · simpa using hdue
      · exact ih h
    · cases h

theorem bufferSpanMs_cons (h : buffer ≠ []) :
    bufferSpanMs (front :: buffer) firstDts = bufferSpanMs buffer firstDts := by
  obtain ⟨next, rest, rfl⟩ := List.exists_cons_of_ne_nil h
  rw [bufferSpanMs, List.getLast?_cons_cons, bufferSpanMs]

/-- A forced call gives out everything: the newest frame stays as far from the first one as it
was, whatever is given out. -/
theorem drainLoop_forced (hne : buffer ≠ []) (h : maxBufferMs < bufferSpanMs buffer firstDts) :
    drainLoop maxBufferMs firstDts elapsedMs true buffer = (buffer, []) := by
  induction buffer with
  | nil => exact absurd rfl hne
  | cons front buffer ih =>
    unfold drainLoop
    rw [if_pos (Or.inr rfl)]
    by_cases hnil : buffer = []
    · subst hnil
      rw [if_pos ⟨rfl, Nat.zero_le _⟩]
    · rw [bufferSpanMs_cons hnil] at h
      rw [if_neg (by rintro ⟨_, hhalf⟩; omega), ih hnil h]

/-- What a run has given out, what it keeps and what it was given. -/
structure Reached (maxBufferMs : Nat) (ops : List PacerOp) (out : List PacedFrame)
    (s : HlsPlaybackPacer) : Prop where
  kept : out ++ s.buffer = pushed ops
  first : s.firstDtsMs = (pushed ops).head?.map (·.dtsMs)
  start : s.playStartUs = playbackStart ops
  waiting : s.playStartUs = none → out = []
  limit : s.maxBufferMs = maxBufferMs

theorem pushed_append (a b : List PacerOp) : pushed (a ++ b) = pushed a ++ pushed b :=
  List.filterMap_append

theorem readings_append (a b : List PacerOp) : readings (a ++ b) = readings a ++ readings b :=
  List.filterMap_append

/-- Nothing is pushed before the first frame. -/
theorem dropWhile_append (ops : List PacerOp) (op : PacerOp) :
    (ops ++ [op]).dropWhile (fun op => (pushed [op]).isEmpty) =
      if pushed ops = [] then [op].dropWhile fun op => (pushed [op]).isEmpty
      else (ops.dropWhile fun op => (pushed [op]).isEmpty) ++ [op] := by
  induction ops with
  | nil => rfl
  | cons first ops ih =>
    cases first with
    | push frame => rfl
    | drainReady nowUs => exact ih

theorem playbackStart_of_none (h : pushed ops = []) : playbackStart ops = none := by
  have hdrop : ops.dropWhile (fun op => (pushed [op]).isEmpty) = [] := by
    induction ops with
    | nil => rfl
    | cons first ops ih =>
      cases first with
      | push frame => cases h
      | drainReady nowUs => exact ih h
  rw [playbackStart, hdrop]
  rfl

theorem playbackStart_push (ops : List PacerOp) (frame : PacedFrame) :
    playbackStart (ops ++ [.push frame]) = playbackStart ops := by
  by_cases hnone : pushed ops = []
  · rw [playbackStart_of_none hnone, playbackStart, dropWhile_append, if_pos hnone]
    rfl
  · rw [playbackStart, dropWhile_append, if_neg hnone, readings_append]
    exact congrArg List.head? (List.append_nil _)

theorem playbackStart_drainReady (ops : List PacerOp) (nowUs : Nat) :
    playbackStart (ops ++ [.drainReady nowUs]) =
      if pushed ops = [] then none else some ((playbackStart ops).getD nowUs) := by
  unfold playbackStart
  rw [dropWhile_append]
  split
  · rfl
  · rw [readings_append, List.head?_append]
    cases (readings (ops.dropWhile fun op => (pushed [op]).isEmpty)).head? <;> rfl

theorem Reached.push (h : Reached maxBufferMs ops out s) (frame : PacedFrame) :
    Reached maxBufferMs (ops ++ [.push frame]) out (s.push frame) := by
  have hpushed : pushed (ops ++ [.push frame]) = pushed ops ++ [frame] := pushed_append _ _
  refine ⟨?_, ?_, ?_, h.waiting, h.limit⟩
  · rw [hpushed, ← h.kept, List.append_assoc]
    rfl
  · unfold HlsPlaybackPacer.push
    dsimp only
    rw [hpushed, h.first]
    cases pushed ops <;> rfl
  · rw [playbackStart_push]
    exact h.start

theorem Reached.drainReady (h : Reached maxBufferMs ops out s) (nowUs : Nat) :
    Reached maxBufferMs (ops ++ [.drainReady nowUs]) (out ++ (s.drainReady nowUs).2)
      (s.drainReady nowUs).1 := by
  have hpushed : pushed (ops ++ [.drainReady nowUs]) = pushed ops :=
    (pushed_append _ _).trans (List.append_nil _)
  have hstart := playbackStart_drainReady ops nowUs
  unfold HlsPlaybackPacer.drainReady
  split
  · rename_i hidle
    have hnone : pushed ops = [] := by
      rw [← h.kept, h.waiting hidle.1, hidle.2]
      rfl
    refine ⟨?_, ?_, ?_, fun hwait => ?_, h.limit⟩
    · rw [hpushed, List.append_nil]
      exact h.kept
    · rw [hpushed]
      exact h.first
    · rw [hstart, if_pos hnone]
      exact hidle.1
    · rw [h.waiting hwait]
      rfl
  · rename_i hbusy
    have hsome : pushed ops ≠ [] := by
      intro hnone
      have hkept := h.kept
      rw [hnone, List.append_eq_nil_iff] at hkept
      exact hbusy ⟨by rw [h.start, playbackStart_of_none hnone], hkept.2⟩
    have hplay : some (s.playStartUs.getD nowUs) = playbackStart (ops ++ [.drainReady nowUs]) := by
      rw [hstart, if_neg hsome, h.start]
    dsimp only
    cases hfirst : s.firstDtsMs with
    | none =>
      rw [h.first, Option.map_eq_none_iff, List.head?_eq_none_iff] at hfirst
      exact absurd hfirst hsome
    | some firstDts =>
      have happend := drainLoop_append s.maxBufferMs firstDts
        ((nowUs - s.playStartUs.getD nowUs) / 1000)
        (decide (s.maxBufferMs < bufferSpanMs s.buffer firstDts)) s.buffer
      refine ⟨?_, ?_, hplay, fun hwait => ?_, h.limit⟩
      · rw [hpushed, ← h.kept, List.append_assoc]
        exact congrArg (out ++ ·) happend
      · rw [hpushed, ← h.first]
        exact hfirst.symm
      · cases hwait

theorem reached (h : Transition.run perform (new maxBufferMs) ops = some (s, out)) :
    Reached maxBufferMs ops out s := by
  have hnew : Reached maxBufferMs [] [] (new maxBufferMs) :=
    ⟨rfl, rfl, rfl, fun _ => rfl, rfl⟩
  have halways : Transition.Along perform (fun _ _ => True) (new maxBufferMs) ops :=
    Transition.along_true
  refine Transition.run_observed (fun ops out s => Reached maxBufferMs ops out s) ?_ [] [] hnew
    halways h
  intro ops out s op t frames hs _ hstep
  cases op with
  | push frame =>
    cases hstep
    rw [List.append_nil]
    exact hs.push frame
  | drainReady nowUs =>
    have hdrained := hs.drainReady nowUs
    rwa [Option.some.inj hstep] at hdrained

/-- The buffered frames are in order, behind the first frame. -/
structure InOrder (s : HlsPlaybackPacer) : Prop where
  sorted : s.buffer.Pairwise fun a b => a.dtsMs ≤ b.dtsMs
  first : s.buffer ≠ [] → ∃ firstDts, s.firstDtsMs = some firstDts ∧
    ∀ frame ∈ s.buffer, firstDts ≤ frame.dtsMs

theorem Reached.inOrder (h : Reached maxBufferMs ops out s)
    (hdts : (pushed ops).Pairwise fun a b => a.dtsMs ≤ b.dtsMs) : InOrder s := by
  rw [← h.kept] at hdts
  obtain ⟨_, hsorted, hbetween⟩ := List.pairwise_append.mp hdts
  refine ⟨hsorted, fun hne => ?_⟩
  obtain ⟨front, rest, hbuffer⟩ := List.exists_cons_of_ne_nil hne
  have hfirst := h.first
  rw [← h.kept] at hfirst
  cases out with
  | nil =>
    rw [hbuffer] at hfirst hsorted ⊢
    refine ⟨front.dtsMs, hfirst, fun frame hframe => ?_⟩
    rcases List.mem_cons.mp hframe with rfl | hframe
    · exact Nat.le_refl _
    · exact (List.pairwise_cons.mp hsorted).1 frame hframe
  | cons f out => exact ⟨f.dtsMs, hfirst, hbetween f List.mem_cons_self⟩

theorem le_of_getLast? (h : buffer.Pairwise fun a b => a.dtsMs ≤ b.dtsMs)
    (hback : buffer.getLast? = some back) (hframe : frame ∈ buffer) :
    frame.dtsMs ≤ back.dtsMs := by
  obtain ⟨front, rfl⟩ := List.getLast?_eq_some_iff.mp hback
  obtain ⟨_, _, hbetween⟩ := List.pairwise_append.mp h
  rcases List.mem_append.mp hframe with hframe | hframe
  · exact hbetween frame hframe back List.mem_cons_self
  · obtain rfl := List.mem_singleton.mp hframe
    exact Nat.le_refl _

theorem span_last (h : buffer ≠ []) : span (buffer.drop (buffer.length - 1)) = 0 := by
  obtain ⟨front, back, rfl⟩ := List.eq_nil_or_concat buffer |>.resolve_left h
  rw [List.concat_eq_append, List.length_append, List.length_singleton, Nat.add_sub_cancel,
    List.drop_left]
  exact Nat.sub_self _

/-- A call with nothing buffered. -/
theorem drainReady_nil (h : s.buffer = []) (nowUs : Nat) : (s.drainReady nowUs).2 = [] := by
  unfold drainReady
  split
  · rfl
  · dsimp only
    split
    · rfl
    · rw [h]
      rfl

theorem drainReady_cons (h : s.buffer ≠ []) (hfirst : s.firstDtsMs = some firstDts)
    (nowUs : Nat) : (s.drainReady nowUs).2 = (drainLoop s.maxBufferMs firstDts
      ((nowUs - s.playStartUs.getD nowUs) / 1000)
      (decide (s.maxBufferMs < bufferSpanMs s.buffer firstDts)) s.buffer).1 := by
  unfold drainReady
  rw [if_neg fun hidle => h hidle.2]
  dsimp only
  rw [hfirst]

theorem span_le (h : s.InOrder) (hfirst : s.firstDtsMs = some firstDts) (hne : s.buffer ≠ []) :
    span s.buffer ≤ bufferSpanMs s.buffer firstDts := by
  obtain ⟨d, hd, hbehind⟩ := h.first hne
  rw [hfirst] at hd
  cases hd
  obtain ⟨front, rest, hbuffer⟩ := List.exists_cons_of_ne_nil hne
  have hfront := hbehind front (by rw [hbuffer]; exact List.mem_cons_self)
  unfold span bufferSpanMs
  rw [hbuffer, List.getLast?_cons]
  dsimp only [List.head?_cons, Option.map_some, Option.getD_some]
  omega

/-- One call keeps the pace just when it is calm. -/
theorem paced_iff_calm (h : s.InOrder) (nowUs : Nat) : s.Paced nowUs ↔ s.Calm nowUs := by
  by_cases hnil : s.buffer = []
  · have hspan : span s.buffer = 0 := by rw [hnil]; rfl
    refine iff_of_true ⟨?_, ?_⟩ ⟨by omega, by rw [hnil]; intro back hback; cases hback⟩
    · rw [drainReady_nil hnil]
      intro frame hframe
      cases hframe
    · intro hlong
      omega
  obtain ⟨firstDts, hfirst, hbehind⟩ := h.first hnil
  obtain ⟨back, hback⟩ : ∃ back, s.buffer.getLast? = some back :=
    ⟨_, List.getLast?_eq_some_getLast hnil⟩
  have hnewest : bufferSpanMs s.buffer firstDts = back.dtsMs - firstDts := by
    rw [bufferSpanMs, hback]
    rfl
  have hspan := span_le h hfirst hnil
  have hdue (frame : PacedFrame) : s.Due nowUs frame ↔
      frame.dtsMs - firstDts ≤ (nowUs - s.playStartUs.getD nowUs) / 1000 := by
    unfold Due
    rw [hfirst]
    rfl
  by_cases hforce : s.maxBufferMs < bufferSpanMs s.buffer firstDts
  · have hout : (s.drainReady nowUs).2 = s.buffer := by
      rw [drainReady_cons hnil hfirst, decide_eq_true hforce, drainLoop_forced hnil hforce]
    constructor
    · rintro ⟨hearly, hforced⟩
      have hroom : span s.buffer ≤ s.maxBufferMs := by
        by_contra hlong
        obtain ⟨n, hpos, htake, _, hbefore⟩ := hforced (by omega)
        rw [hout] at htake
        have hall : s.buffer.length ≤ n := by
          have hlength := congrArg List.length htake
          rw [List.length_take] at hlength
          omega
        have hlast := span_last hnil
        have hmany : 0 < s.buffer.length - 1 := by
          by_contra hone
          have hzero : s.buffer.length - 1 = 0 := by omega
          rw [hzero, List.drop_zero] at hlast
          omega
        have := hbefore (s.buffer.length - 1) hmany (by omega)
        omega
      refine ⟨hroom, fun b hb => ?_⟩
      rw [Option.mem_def, hback] at hb
      cases hb
      right
      by_contra hnot
      have := hearly back (by rw [hout]; exact List.mem_of_getLast? hback) hnot
      omega
    · rintro ⟨hroom, hcalm⟩
      refine ⟨fun frame hframe hnot => ?_, fun hlong => by omega⟩
      exfalso
      apply hnot
      rw [hout] at hframe
      have hle := le_of_getLast? h.sorted hback hframe
      rcases hcalm back hback with hnear | hnear
      · rw [hfirst] at hnear
        simp only [Option.getD_some] at hnear
        omega
      · rw [hdue] at hnear ⊢
        omega
  · refine iff_of_true ⟨fun frame hframe hnot => ?_, fun hlong => by omega⟩ ⟨by omega, ?_⟩
    · rw [drainReady_cons hnil hfirst, decide_eq_false hforce] at hframe
      exact absurd ((hdue frame).mpr (drainLoop_due hframe)) hnot
    · intro b hb
      rw [Option.mem_def, hback] at hb
      cases hb
      left
      rw [hfirst]
      simp only [Option.getD_some]
      omega

/-- A run gives out what is pushed, in order and once, and keeps the rest. It keeps the pace at
every call just when every call is calm. -/
theorem paced_iff (maxBufferMs : Nat) (ops : List PacerOp)
    (hdts : (pushed ops).Pairwise fun a b => a.dtsMs ≤ b.dtsMs)
    (_hclock : (readings ops).Pairwise (· ≤ ·)) :
    (∃ s out, Transition.run perform (new maxBufferMs) ops = some (s, out) ∧
      out ++ s.buffer = pushed ops ∧ s.firstDtsMs = (pushed ops).head?.map (·.dtsMs) ∧
      s.playStartUs = playbackStart ops) ∧
    (AtEachDrain Paced maxBufferMs ops ↔ AtEachDrain Calm maxBufferMs ops) := by
  have htotal : ∀ s ops, ∃ r, Transition.run perform s ops = some r := by
    intro s ops
    induction ops generalizing s with
    | nil => exact ⟨_, rfl⟩
    | cons op ops ih =>
      have hstep : ∃ t, perform s op = some t := by cases op <;> exact ⟨_, rfl⟩
      obtain ⟨⟨t, frames⟩, hstep⟩ := hstep
      obtain ⟨r, hr⟩ := ih t
      exact ⟨_, by rw [Transition.run, hstep]; dsimp only; rw [hr]; rfl⟩
  have hcall (before : List PacerOp) (nowUs : Nat) (after : List PacerOp) (s : HlsPlaybackPacer)
      (out : List PacedFrame) (hops : ops = before ++ .drainReady nowUs :: after)
      (hrun : Transition.run perform (new maxBufferMs) before = some (s, out)) :
      s.Paced nowUs ↔ s.Calm nowUs := by
    rw [hops, pushed_append] at hdts
    exact paced_iff_calm ((reached hrun).inOrder (List.pairwise_append.mp hdts).1) nowUs
  constructor
  · obtain ⟨⟨s, out⟩, hrun⟩ := htotal (new maxBufferMs) ops
    have h := reached hrun
    exact ⟨s, out, hrun, h.kept, h.first, h.start⟩
  · constructor
    · intro h before nowUs after s out hops hrun
      exact (hcall before nowUs after s out hops hrun).mp (h before nowUs after s out hops hrun)
    · intro h before nowUs after s out hops hrun
      exact (hcall before nowUs after s out hops hrun).mpr (h before nowUs after s out hops hrun)

/-- A frame for a given time. -/
def frameAt (dtsMs : Nat) : PacedFrame :=
  { dtsMs, data := [], mediaKind := .video, codec := .h264, ptsMs := dtsMs, keyframe := false }

theorem paced_iff_late :
    (∃ s out, Transition.run perform (new 1000)
        [.push (frameAt 0), .drainReady 0, .push (frameAt 2000), .drainReady 100000] =
        some (s, out) ∧ out ++ s.buffer = [frameAt 0, frameAt 2000] ∧ s.firstDtsMs = some 0 ∧
      s.playStartUs = some 0) ∧
    (AtEachDrain Paced 1000
        [.push (frameAt 0), .drainReady 0, .push (frameAt 2000), .drainReady 100000] ↔
      AtEachDrain Calm 1000
        [.push (frameAt 0), .drainReady 0, .push (frameAt 2000), .drainReady 100000]) :=
  paced_iff 1000 [.push (frameAt 0), .drainReady 0, .push (frameAt 2000), .drainReady 100000]
    (by decide) (by decide)

/-- Two seconds into a stream a single buffered frame counts as too much, and is given out long
before it is due. -/
theorem not_paced : ¬∀ (maxBufferMs : Nat) (ops : List PacerOp),
    (pushed ops).Pairwise (fun a b => a.dtsMs ≤ b.dtsMs) → (readings ops).Pairwise (· ≤ ·) →
    AtEachDrain Paced maxBufferMs ops := by
  intro h
  have hpaced := h 1000
    [.push (frameAt 0), .drainReady 0, .push (frameAt 2000), .drainReady 100000]
    (by decide) (by decide) [.push (frameAt 0), .drainReady 0, .push (frameAt 2000)] 100000 []
    _ _ rfl rfl
  have hearly := hpaced.early (frameAt 2000) (by decide)
    (by unfold Due; decide)
  revert hearly
  decide

end HlsPlaybackPacer
end CheetahMedia.Hls
