import CheetahMedia.Codec.RtpReorder
import CheetahMedia.Lib.Reception
import CheetahMedia.Rtp.Rtcp

namespace CheetahMedia.Rtp
open Lib Codec

/-- The part of the report state that the statistics of a stream's reception live in. The
counters count; products with a clock reading wrap as they do in a release build. -/
structure RtcpReportState where
  seq : RtpSequenceUnwrapper := {}
  baseSeq : Option Nat := none
  expectedPrior : Nat := 0
  receivedPrior : Nat := 0
  packetsReceived : Nat := 0
  lastSrNtp : UInt64 := 0
  lastSrReceivedMs : UInt64 := 0
  jitter : Nat := 0
  lastTransit : Option UInt64 := none
  clockRateHz : UInt64

def ntpMiddle32 (ntp : UInt64) : UInt32 := (ntp >>> 16).toUInt32

namespace RtcpReportState

def new (clockRateHz : UInt64) : RtcpReportState := { clockRateHz := clockRateHz }

def setClockRateHz (s : RtcpReportState) (clockRateHz : UInt64) : RtcpReportState :=
  { s with
    lastTransit := if clockRateHz ≠ s.clockRateHz then none else s.lastTransit
    clockRateHz := clockRateHz }

def onSenderReport (s : RtcpReportState) (ntp nowMs : UInt64) : RtcpReportState :=
  { s with lastSrNtp := ntp, lastSrReceivedMs := nowMs }

/-- The estimate moves a sixteenth of the way to the difference of the transit times. -/
def nextJitter (jitter : Nat) (prev transit : UInt64) : Nat :=
  let absD := (transit.toUInt32 - prev.toUInt32).toInt32.toInt.natAbs
  ((jitter : Int) + ((absD : Int) - jitter).tdiv 16).toNat

def onPacket (s : RtcpReportState) (seq : UInt16) (rtpTimestamp : UInt32) (nowMs : UInt64) :
    RtcpReportState :=
  let (unwrapper, extended) := s.seq.extend seq
  let s := { s with
    seq := unwrapper
    baseSeq := some (s.baseSeq.getD extended)
    packetsReceived := s.packetsReceived + 1 }
  if s.clockRateHz = 0 then s
  else
    let transit := nowMs * s.clockRateHz / 1000 - rtpTimestamp.toUInt64
    { s with
      jitter := s.lastTransit.elim s.jitter fun prev => nextJitter s.jitter prev transit
      lastTransit := some transit }

/-- What the report is about: the counts since the beginning, and since the last report. -/
structure Interval where
  expected : Nat
  received : Nat
  expectedInterval : Nat
  receivedInterval : Nat

def interval (s : RtcpReportState) (maxSeq : Nat) : Interval :=
  let base := s.baseSeq.getD maxSeq
  let expected := maxSeq - base + 1
  { expected := expected
    received := s.packetsReceived
    expectedInterval := expected - s.expectedPrior
    receivedInterval := s.packetsReceived - s.receivedPrior }

def fractionLost (i : Interval) : UInt8 :=
  let lostInterval := i.expectedInterval - i.receivedInterval
  if 0 < i.expectedInterval then UInt8.ofNat (min (lostInterval * 256 / i.expectedInterval) 255)
  else 0

def cumulativeLost (i : Interval) : Int :=
  max (-2 ^ 23) (min ((i.expected : Int) - i.received) (2 ^ 23 - 1))

def highestSeq (maxSeq : Nat) : UInt32 :=
  let cycles := UInt32.ofNat (maxSeq / 65536)
  (cycles <<< 16) ||| (UInt16.ofNat (maxSeq % 65536)).toUInt32

def delaySinceLastSr (s : RtcpReportState) (nowMs : UInt64) : UInt32 :=
  if 0 < s.lastSrReceivedMs then
    let delayMs := UInt64.ofNat (nowMs.toNat - s.lastSrReceivedMs.toNat)
    UInt32.ofNat (min (delayMs * 65536 / 1000).toNat 0xFFFFFFFF)
  else 0

def reportBlock (s : RtcpReportState) (peerSsrc : UInt32) (nowMs : UInt64) :
    RtcpReportState × Option RtcpReportBlock :=
  match s.seq.max with
  | none => (s, none)
  | some maxSeq =>
    let i := s.interval maxSeq
    ({ s with expectedPrior := i.expected, receivedPrior := i.received },
      some {
        ssrc := peerSsrc
        fractionLost := fractionLost i
        cumulativeLost := cumulativeLost i
        highestSeq := highestSeq maxSeq
        jitter := UInt32.ofNat s.jitter
        lastSr := ntpMiddle32 s.lastSrNtp
        delaySinceLastSr := s.delaySinceLastSr nowMs })

/-- What happens to a session's statistics. A packet comes under the number that its sender
counts it by. -/
inductive Event
  | packet (number : Int) (rtpTimestamp : UInt32) (nowMs : UInt64)
  | senderReport (ntp nowMs : UInt64)
  | clockRate (hz : UInt64)
  | reportBlock (peerSsrc : UInt32) (nowMs : UInt64)

/-- The low 16 bits, which the header has room for. -/
def wire (number : Int) : UInt16 := UInt16.ofNat (number % 65536).toNat

def step (s : RtcpReportState) : Event → RtcpReportState
  | .packet number rtpTimestamp nowMs => s.onPacket (wire number) rtpTimestamp nowMs
  | .senderReport ntp nowMs => s.onSenderReport ntp nowMs
  | .clockRate hz => s.setClockRateHz hz
  | .reportBlock peerSsrc nowMs => (s.reportBlock peerSsrc nowMs).1

def run (s : RtcpReportState) (events : List Event) : RtcpReportState := events.foldl step s

/-- The counts of the report that the event asks for. -/
def counted (s : RtcpReportState) : Event → List Interval
  | .reportBlock _ _ => (s.seq.max.map s.interval).toList
  | _ => []

/-- The counts of the reports made on the way. -/
def intervals : RtcpReportState → List Event → List Interval
  | _, [] => []
  | s, e :: events => s.counted e ++ intervals (s.step e) events

/-- The numbers that arrived, and those of them that the last report was about. -/
structure Ledger where
  arrived : List Int := []
  reported : List Int := []

def Ledger.step (l : Ledger) : Event → Ledger
  | .packet number _ _ => { l with arrived := l.arrived ++ [number] }
  | .reportBlock _ _ => { l with reported := l.arrived }
  | _ => l

def ledger (events : List Event) : Ledger := events.foldl Ledger.step {}

/-- The counts are in order, so that no difference is cut off at zero. -/
structure Sound (s : RtcpReportState) : Prop where
  numbered : s.seq.Numbered
  fresh : s.seq.max = none → s.baseSeq = none ∧ s.expectedPrior = 0 ∧ s.packetsReceived = 0
  based : s.seq.max = some m → ∃ base, s.baseSeq = some base ∧ base ≤ m ∧
    s.expectedPrior ≤ m - base + 1
  received : s.receivedPrior ≤ s.packetsReceived

theorem sound_new (clockRateHz : UInt64) : Sound (new clockRateHz) where
  numbered := rfl
  fresh _ := ⟨rfl, rfl, rfl⟩
  based h := by cases h
  received := le_rfl

/-- A packet's statistics, the jitter apart. -/
theorem onPacket_stats (s : RtcpReportState) (seq : UInt16) (rtpTimestamp : UInt32)
    (nowMs : UInt64) :
    (s.onPacket seq rtpTimestamp nowMs).seq = (s.seq.extend seq).1 ∧
    (s.onPacket seq rtpTimestamp nowMs).baseSeq = some (s.baseSeq.getD (s.seq.extend seq).2) ∧
    (s.onPacket seq rtpTimestamp nowMs).packetsReceived = s.packetsReceived + 1 ∧
    (s.onPacket seq rtpTimestamp nowMs).expectedPrior = s.expectedPrior ∧
    (s.onPacket seq rtpTimestamp nowMs).receivedPrior = s.receivedPrior := by
  unfold onPacket
  dsimp only
  split <;> exact ⟨rfl, rfl, rfl, rfl, rfl⟩

theorem Sound.onPacket (h : Sound s) (seq : UInt16) (rtpTimestamp : UInt32) (nowMs : UInt64) :
    Sound (s.onPacket seq rtpTimestamp nowMs) := by
  obtain ⟨hseq, hbase, hreceived, hexpected, hprior⟩ := onPacket_stats s seq rtpTimestamp nowMs
  refine ⟨hseq ▸ h.numbered.extend seq, fun hnone => ?_, fun hsome => ?_, ?_⟩
  · exfalso
    rw [hseq] at hnone
    cases hm : s.seq.max with
    | none =>
      rw [RtpSequenceUnwrapper.extend_first h.numbered hm] at hnone
      cases hnone
    | some m =>
      obtain ⟨m', hm', _, _⟩ := RtpSequenceUnwrapper.le_extend h.numbered hm seq
      rw [hm'] at hnone
      cases hnone
  · rw [hseq] at hsome
    rw [hbase, hexpected]
    cases hm : s.seq.max with
    | none =>
      obtain ⟨hfresh, hzero, _⟩ := h.fresh hm
      rw [RtpSequenceUnwrapper.extend_first h.numbered hm] at hsome ⊢
      cases hsome
      exact ⟨_, rfl, by simp [hfresh], by omega⟩
    | some m =>
      obtain ⟨base, hsb, hle, hexp⟩ := h.based hm
      obtain ⟨m', hm', hmono, _⟩ := RtpSequenceUnwrapper.le_extend h.numbered hm seq
      rw [hm'] at hsome
      cases hsome
      exact ⟨base, by rw [hsb, Option.getD_some], by omega, by omega⟩
  · rw [hprior, hreceived]
    exact Nat.le_succ_of_le h.received

theorem Sound.reportBlock (h : Sound s) (peerSsrc : UInt32) (nowMs : UInt64) :
    Sound (s.reportBlock peerSsrc nowMs).1 := by
  unfold RtcpReportState.reportBlock
  cases hm : s.seq.max with
  | none => exact h
  | some m =>
    obtain ⟨base, hbase, hle, _⟩ := h.based hm
    refine ⟨h.numbered, fun hnone => ?_, fun hsome => ⟨base, hbase, ?_⟩, le_rfl⟩
    · rw [hm] at hnone
      cases hnone
    · rw [hm] at hsome
      cases hsome
      exact ⟨hle, by simp [interval, hbase]⟩

theorem Sound.step (h : Sound s) (e : Event) : Sound (s.step e) := by
  cases e with
  | packet number rtpTimestamp nowMs => exact h.onPacket _ _ _
  | senderReport ntp nowMs => exact ⟨h.numbered, h.fresh, h.based, h.received⟩
  | clockRate hz => exact ⟨h.numbered, h.fresh, h.based, h.received⟩
  | reportBlock peerSsrc nowMs => exact h.reportBlock _ _

theorem Sound.run (h : Sound s) (events : List Event) : Sound (s.run events) := by
  induction events generalizing s with
  | nil => exact h
  | cons e events ih => exact ih (h.step e)

/-- No count is below the one it is compared with. -/
theorem Sound.ordered (h : Sound s) (hm : s.seq.max = some m) :
    s.baseSeq.getD m ≤ m ∧ s.expectedPrior ≤ (s.interval m).expected ∧
      s.receivedPrior ≤ (s.interval m).received := by
  obtain ⟨base, hbase, hle, hexp⟩ := h.based hm
  rw [interval, hbase, Option.getD_some]
  exact ⟨hle, hexp, h.received⟩

/-- A report's counts lead from the last report's totals to its own. -/
theorem Sound.sum_counted (h : Sound s) (e : Event) :
    s.expectedPrior + ((s.counted e).map (·.expectedInterval)).sum = (s.step e).expectedPrior ∧
      s.receivedPrior + ((s.counted e).map (·.receivedInterval)).sum = (s.step e).receivedPrior := by
  cases e with
  | packet number rtpTimestamp nowMs =>
    obtain ⟨_, _, _, hexpected, hprior⟩ := onPacket_stats s (wire number) rtpTimestamp nowMs
    exact ⟨hexpected.symm, hprior.symm⟩
  | senderReport ntp nowMs => exact ⟨rfl, rfl⟩
  | clockRate hz => exact ⟨rfl, rfl⟩
  | reportBlock peerSsrc nowMs =>
    simp only [counted, RtcpReportState.step, RtcpReportState.reportBlock]
    cases hm : s.seq.max with
    | none => exact ⟨rfl, rfl⟩
    | some m =>
      obtain ⟨_, hle, hreceived⟩ := h.ordered hm
      simp only [interval] at hle hreceived
      simp only [Option.map_some, Option.toList_some, List.map_cons, List.map_nil, List.sum_cons,
        List.sum_nil, interval]
      omega

/-- The counts of all reports together are what the last report counted from the beginning. -/
theorem Sound.sum_intervals (h : Sound s) (events : List Event) :
    s.expectedPrior + ((intervals s events).map (·.expectedInterval)).sum =
        (s.run events).expectedPrior ∧
      s.receivedPrior + ((intervals s events).map (·.receivedInterval)).sum =
        (s.run events).receivedPrior := by
  induction events generalizing s with
  | nil => exact ⟨rfl, rfl⟩
  | cons e events ih =>
    obtain ⟨hexp, hrec⟩ := ih (h.step e)
    obtain ⟨hexp', hrec'⟩ := h.sum_counted e
    have hrun : s.run (e :: events) = (s.step e).run events := rfl
    rw [intervals, List.map_append, List.sum_append, List.map_append, List.sum_append, hrun]
    omega

/-- How far the counts can have come: a step adds one packet, and half a period of numbers. -/
def Bounded (n : Nat) (s : RtcpReportState) : Prop :=
  s.packetsReceived ≤ n ∧ ∀ m ∈ s.seq.max, m < 65536 + 32768 * n

theorem Bounded.step (hs : Sound s) (h : Bounded n s) (e : Event) : Bounded (n + 1) (s.step e) := by
  have hkeep : Bounded (n + 1) s := ⟨by have := h.1; omega, fun m hm => by
    have := h.2 m hm
    omega⟩
  cases e with
  | packet number rtpTimestamp nowMs =>
    obtain ⟨hseq, _, hreceived, _, _⟩ := onPacket_stats s (wire number) rtpTimestamp nowMs
    refine ⟨by have := h.1; rw [RtcpReportState.step, hreceived]; omega, fun m hm => ?_⟩
    rw [RtcpReportState.step, hseq] at hm
    cases hmax : s.seq.max with
    | none =>
      rw [RtpSequenceUnwrapper.extend_first hs.numbered hmax, Option.mem_some_iff] at hm
      have := (wire number).toNat_lt
      omega
    | some m₀ =>
      have hm₀ := h.2 m₀ hmax
      obtain ⟨m', hm', _, hle⟩ := RtpSequenceUnwrapper.le_extend hs.numbered hmax (wire number)
      rw [hm'] at hm
      cases hm
      omega
  | senderReport ntp nowMs => exact hkeep
  | clockRate hz => exact hkeep
  | reportBlock peerSsrc nowMs =>
    have hstep : (s.step (.reportBlock peerSsrc nowMs)).packetsReceived = s.packetsReceived ∧
        (s.step (.reportBlock peerSsrc nowMs)).seq = s.seq := by
      unfold RtcpReportState.step RtcpReportState.reportBlock
      dsimp only
      split <;> exact ⟨rfl, rfl⟩
    exact ⟨hstep.1 ▸ hkeep.1, hstep.2 ▸ hkeep.2⟩

/-- No sum or product of `reportBlock` passes 64 bits before 2^40 packets have come. -/
theorem interval_fits (clockRateHz : UInt64) (events : List Event) (hlen : events.length < 2 ^ 40)
    (hm : ((new clockRateHz).run events).seq.max = some m) :
    ((new clockRateHz).run events).packetsReceived < 2 ^ 63 ∧
      (((new clockRateHz).run events).interval m).expected * 256 < 2 ^ 64 := by
  have hrun : ∀ (n : Nat) (s : RtcpReportState), Sound s → Bounded n s →
      Bounded (n + events.length) (s.run events) := by
    clear hlen hm
    induction events with
    | nil => exact fun n s _ h => h
    | cons e events ih =>
      intro n s hs h
      have := ih (n + 1) (s.step e) (hs.step e) (h.step hs e)
      rwa [List.length_cons, ← Nat.add_assoc, Nat.add_right_comm]
  obtain ⟨hreceived, hmax⟩ := hrun 0 (new clockRateHz) (sound_new clockRateHz)
    ⟨le_rfl, fun m hm => by cases hm⟩
  have := hmax m hm
  refine ⟨by omega, ?_⟩
  dsimp only [interval]
  omega

/-- The state's counts are those of the numbers that arrived, counted from the cycle that the
first of them is in. -/
structure Tracks (l : Ledger) (s : RtcpReportState) : Prop where
  none_arrived : l.arrived = [] → s.seq.max = none
  highest : l.arrived = first :: rest → ∃ m base : Nat, s.seq.max = some m ∧
    s.baseSeq = some base ∧ (m : Int) = Reception.extendedHighest 65536 l.arrived ∧
    (base : Int) = first % 65536
  packetsReceived : s.packetsReceived = l.arrived.length
  expectedPrior : (s.expectedPrior : Int) = Reception.expected l.reported
  receivedPrior : s.receivedPrior = l.reported.length
  since : ∃ later, l.arrived = l.reported ++ later

theorem wire_toNat (n : Int) : ((wire n).toNat : Int) = n % 65536 := by
  have hlow := Int.emod_nonneg n (by decide : (65536 : Int) ≠ 0)
  have hhigh := Int.emod_lt_of_pos n (by decide : (0 : Int) < 65536)
  rw [wire, UInt16.toNat_ofNat']
  omega

theorem Tracks.since_packet (h : Tracks l s) (n : Int) (rtpTimestamp : UInt32) (nowMs : UInt64) :
    ∃ later, (l.step (.packet n rtpTimestamp nowMs)).arrived =
      (l.step (.packet n rtpTimestamp nowMs)).reported ++ later := by
  obtain ⟨later, hlater⟩ := h.since
  exact ⟨later ++ [n], by simp only [Ledger.step]; rw [hlater, List.append_assoc]⟩

/-- The first packet opens the count. -/
theorem Tracks.onPacket_first (h : Tracks l s) (hs : Sound s) (hnone : l.arrived = [])
    (n : Int) (rtpTimestamp : UInt32) (nowMs : UInt64) :
    Tracks (l.step (.packet n rtpTimestamp nowMs)) (s.onPacket (wire n) rtpTimestamp nowMs) := by
  have hm := h.none_arrived hnone
  obtain ⟨hfresh, _, _⟩ := hs.fresh hm
  obtain ⟨hseq, hbase, hreceived, hexpected, hprior⟩ :=
    onPacket_stats s (wire n) rtpTimestamp nowMs
  rw [RtpSequenceUnwrapper.extend_first hs.numbered hm] at hseq hbase
  have hl : (l.step (.packet n rtpTimestamp nowMs)).arrived = [n] := by
    rw [Ledger.step, hnone, List.nil_append]
  refine ⟨fun h => ?_, fun hcons => ?_, ?_, ?_, ?_, h.since_packet n rtpTimestamp nowMs⟩
  · rw [hl] at h
    cases h
  · rw [hl] at hcons ⊢
    cases hcons
    refine ⟨_, _, by rw [hseq], by rw [hbase, hfresh, Option.getD_none], ?_, wire_toNat n⟩
    rw [wire_toNat]
    simp [Reception.extendedHighest, Reception.highest]
  · rw [hreceived, h.packetsReceived, hnone, hl]
    rfl
  · rw [hexpected, h.expectedPrior]
    rfl
  · rw [hprior, h.receivedPrior]
    rfl

/-- Each packet after it is found within half a period of the highest number. -/
theorem Tracks.onPacket_next (h : Tracks l s) (hs : Sound s) (hsome : l.arrived ≠ [])
    (n : Int) (rtpTimestamp : UInt32) (nowMs : UInt64)
    (hnear : Reception.Near 32768 (l.arrived ++ [n])) :
    Tracks (l.step (.packet n rtpTimestamp nowMs)) (s.onPacket (wire n) rtpTimestamp nowMs) := by
  obtain ⟨first, rest, hl⟩ := List.exists_cons_of_ne_nil hsome
  obtain ⟨m, base, hm, hbase, hhighest, hfirst⟩ := h.highest hl
  obtain ⟨hseq, hbase', hreceived, hexpected, hprior⟩ :=
    onPacket_stats s (wire n) rtpTimestamp nowMs
  obtain ⟨hlow, hhigh⟩ := hnear.last hsome
  -- the number as the unwrapper would count it
  obtain ⟨offset, hoffset⟩ : ∃ offset, offset = first - first % 65536 := ⟨_, rfl⟩
  have hext : (m : Int) = Reception.highest l.arrived - offset := by
    rw [hhighest, Reception.extendedHighest, hl, hoffset]
    rfl
  have hraw : ((wire n).toNat : Int) = (n - offset) % 65536 := by
    rw [wire_toNat]
    omega
  have hmax := RtpSequenceUnwrapper.extend_near hs.numbered hm hraw (by omega) (by omega)
  have hl' : (l.step (.packet n rtpTimestamp nowMs)).arrived = l.arrived ++ [n] := rfl
  refine ⟨fun h => ?_, fun hcons => ?_, ?_, ?_, ?_, h.since_packet n rtpTimestamp nowMs⟩
  · rw [hl'] at h
    exact absurd h (by simp)
  · rw [hl', hl] at hcons
    cases hcons
    refine ⟨_, base, hseq ▸ hmax, by rw [hbase', hbase, Option.getD_some], ?_, hfirst⟩
    rw [hl', Reception.extendedHighest, Reception.highest_snoc hsome, hl, List.cons_append,
      List.head?_cons, Option.getD_some, ← hl]
    omega
  · rw [hreceived, h.packetsReceived, hl', List.length_append]
    rfl
  · rw [hexpected, h.expectedPrior]
    rfl
  · rw [hprior, h.receivedPrior]
    rfl

/-- The numbers up to the highest are those expected. -/
theorem Tracks.expected (h : Tracks l s) (hs : Sound s) (hm : s.seq.max = some m) :
    ((s.interval m).expected : Int) = Reception.expected l.arrived := by
  cases hl : l.arrived with
  | nil =>
    rw [h.none_arrived hl] at hm
    cases hm
  | cons first rest =>
    obtain ⟨m', base, hm', hbase, hhighest, hfirst⟩ := h.highest hl
    rw [hm] at hm'
    cases hm'
    obtain ⟨hle, _, _⟩ := hs.ordered hm
    rw [Reception.extendedHighest, hl, List.head?_cons, Option.getD_some] at hhighest
    rw [hbase, Option.getD_some] at hle
    rw [Reception.expected, interval, hbase, Option.getD_some]
    dsimp only
    omega

theorem Tracks.reportBlock (h : Tracks l s) (hs : Sound s) (peerSsrc : UInt32) (nowMs : UInt64) :
    Tracks (l.step (.reportBlock peerSsrc nowMs)) (s.reportBlock peerSsrc nowMs).1 := by
  unfold RtcpReportState.reportBlock
  cases hm : s.seq.max with
  | none =>
    have hnone : l.arrived = [] := by
      by_contra hsome
      obtain ⟨first, rest, hl⟩ := List.exists_cons_of_ne_nil hsome
      obtain ⟨_, _, hm', _⟩ := h.highest hl
      rw [hm] at hm'
      cases hm'
    obtain ⟨later, hlater⟩ := h.since
    have hreported : l.reported = [] := by
      rw [hnone] at hlater
      exact (List.append_eq_nil_iff.mp hlater.symm).1
    have hl : l.step (.reportBlock peerSsrc nowMs) = l :=
      congrArg (Ledger.mk l.arrived) (hnone.trans hreported.symm)
    exact hl.symm ▸ h
  | some m =>
    exact ⟨fun hnone => h.none_arrived hnone, fun hcons => h.highest hcons, h.packetsReceived,
      h.expected hs hm, h.packetsReceived, [], (List.append_nil _).symm⟩

theorem Tracks.step (h : Tracks l s) (hs : Sound s) (e : Event)
    (hnear : Reception.Near 32768 (l.step e).arrived) : Tracks (l.step e) (s.step e) := by
  cases e with
  | packet n rtpTimestamp nowMs =>
    by_cases hl : l.arrived = []
    · exact h.onPacket_first hs hl n rtpTimestamp nowMs
    · exact h.onPacket_next hs hl n rtpTimestamp nowMs hnear
  | senderReport ntp nowMs =>
    exact ⟨h.none_arrived, h.highest, h.packetsReceived, h.expectedPrior, h.receivedPrior, h.since⟩
  | clockRate hz =>
    exact ⟨h.none_arrived, h.highest, h.packetsReceived, h.expectedPrior, h.receivedPrior, h.since⟩
  | reportBlock peerSsrc nowMs => exact h.reportBlock hs peerSsrc nowMs

/-- Packets near the highest number before them stay in step with what the sender counts. -/
theorem tracks_run (clockRateHz : UInt64) (events : List Event)
    (hnear : Reception.Near 32768 (ledger events).arrived) :
    Tracks (ledger events) ((new clockRateHz).run events) := by
  induction events using List.reverseRecOn with
  | nil =>
    exact ⟨fun _ => rfl, (fun hcons => by cases hcons), rfl, rfl, rfl, [], rfl⟩
  | append_singleton events e ih =>
    have hledger : ledger (events ++ [e]) = (ledger events).step e := by
      simp [ledger]
    have hrun : (new clockRateHz).run (events ++ [e]) =
        ((new clockRateHz).run events).step e := by simp [run]
    rw [hledger] at hnear ⊢
    rw [hrun]
    refine (ih ?_).step ((sound_new clockRateHz).run events) e hnear
    cases e with
    | packet n rtpTimestamp nowMs => exact hnear.init
    | senderReport ntp nowMs => exact hnear
    | clockRate hz => exact hnear
    | reportBlock peerSsrc nowMs => exact hnear

/-- The cycles that 32 bits have room for, and the number in the cycle. -/
theorem highestSeq_toNat (m : Nat) : (highestSeq m).toNat = m % 2 ^ 32 := by
  have hlow : (UInt16.ofNat (m % 65536)).toUInt32.toNat = m % 65536 := by
    rw [UInt16.toNat_toUInt32, UInt16.toNat_ofNat']
    omega
  have hcycles : (UInt32.ofNat (m / 65536) <<< 16).toNat = (m / 65536 % 65536) <<< 16 := by
    rw [UInt32.toNat_shiftLeft, UInt32.toNat_ofNat', Nat.shiftLeft_eq, Nat.shiftLeft_eq]
    have : (UInt32.toNat 16) % 32 = 16 := rfl
    rw [this]
    omega
  rw [highestSeq, UInt32.toNat_or, hlow, hcycles,
    ← Nat.shiftLeft_add_eq_or_of_lt (Nat.mod_lt _ (by decide)), Nat.shiftLeft_eq]
  omega

/-- The block says what is known of the numbers that arrived. -/
structure Exact (l : Ledger) (block : RtcpReportBlock) : Prop where
  highestSeq : (block.highestSeq.toNat : Int) =
    Reception.extendedHighest 65536 l.arrived % 2 ^ 32
  cumulativeLost : block.cumulativeLost =
    max (-2 ^ 23) (min (Reception.lost l.arrived) (2 ^ 23 - 1))
  fractionLost : (block.fractionLost.toNat : Int) = Reception.fraction l.reported l.arrived

/-- There is a packet for each interval in which a number is expected, so that the fraction is
less than one. -/
theorem Tracks.fractionLost (h : Tracks l s) (hs : Sound s) (hm : s.seq.max = some m) :
    ((fractionLost (s.interval m)).toNat : Int) = Reception.fraction l.reported l.arrived := by
  have hexpected := h.expected hs hm
  obtain ⟨_, hprior, hreceived⟩ := hs.ordered hm
  have hexp : ((s.interval m).expectedInterval : Int) =
      Reception.expected l.arrived - Reception.expected l.reported := by
    rw [← hexpected, ← h.expectedPrior]
    exact Nat.cast_sub hprior
  have hrec : ((s.interval m).receivedInterval : Int) =
      (l.arrived.length : Int) - l.reported.length := by
    rw [← h.packetsReceived, ← h.receivedPrior]
    exact Nat.cast_sub hreceived
  have harrived : 0 < (s.interval m).expectedInterval → 0 < (s.interval m).receivedInterval := by
    intro hpos
    obtain ⟨later, hlater⟩ := h.since
    cases later with
    | nil =>
      rw [List.append_nil] at hlater
      rw [hlater] at hexp
      omega
    | cons n later =>
      rw [hlater, List.length_append, List.length_cons] at hrec
      omega
  rw [Reception.fraction, ← hexp, ← hrec, RtcpReportState.fractionLost]
  generalize (s.interval m).expectedInterval = e at *
  generalize (s.interval m).receivedInterval = r at *
  by_cases he : e = 0
  · rw [if_neg (by omega), if_pos (by omega)]
    rfl
  · have hr := harrived (by omega)
    rw [if_pos (by omega)]
    by_cases hle : e ≤ r
    · rw [if_pos (by omega), Nat.sub_eq_zero_of_le hle]
      simp
    · have hlt : (e - r) * 256 / e < 256 := (Nat.div_lt_iff_lt_mul (by omega)).mpr (by omega)
      rw [if_neg (by omega), UInt8.toNat_ofNat', min_eq_left (by omega), Nat.mod_eq_of_lt hlt,
        Int.natCast_div, Nat.cast_mul, Nat.cast_sub (by omega)]
      rfl

theorem Tracks.exact (h : Tracks l s) (hs : Sound s) (hl : l.arrived ≠ []) (peerSsrc : UInt32)
    (nowMs : UInt64) : ∃ block, (s.reportBlock peerSsrc nowMs).2 = some block ∧ Exact l block := by
  obtain ⟨first, rest, hcons⟩ := List.exists_cons_of_ne_nil hl
  obtain ⟨m, base, hm, hbase, hhighest, hfirst⟩ := h.highest hcons
  unfold RtcpReportState.reportBlock
  rw [hm]
  refine ⟨_, rfl, ?_, ?_, h.fractionLost hs hm⟩
  · rw [← hhighest]
    simp [highestSeq_toNat]
  · have hreceived : ((s.interval m).received : Int) = l.arrived.length := by
      rw [← h.packetsReceived]
      rfl
    simp only [RtcpReportState.cumulativeLost, Reception.lost, h.expected hs hm, hreceived]

/-- At every point of every run the counts are in order and the counts of the reports add up to
the totals; and while packets stay within half a period of the highest number, the report says
what RFC 3550 defines. -/
theorem reports_exact (clockRateHz : UInt64) (events : List Event) :
    (∀ m, ((new clockRateHz).run events).seq.max = some m →
      let s := (new clockRateHz).run events
      let i := s.interval m
      s.baseSeq.getD m ≤ m ∧ s.expectedPrior ≤ i.expected ∧ s.receivedPrior ≤ i.received ∧
      (((new clockRateHz).intervals events).map (·.expectedInterval)).sum +
        i.expectedInterval = i.expected ∧
      (((new clockRateHz).intervals events).map (·.receivedInterval)).sum +
        i.receivedInterval = i.received) ∧
    (Reception.Near 32768 (ledger events).arrived → (ledger events).arrived ≠ [] →
      ∀ peerSsrc nowMs, ∃ block,
        (((new clockRateHz).run events).reportBlock peerSsrc nowMs).2 = some block ∧
        Exact (ledger events) block) := by
  have hs := (sound_new clockRateHz).run events
  refine ⟨fun m hm => ?_, fun hnear hl peerSsrc nowMs =>
    (tracks_run clockRateHz events hnear).exact hs hl peerSsrc nowMs⟩
  obtain ⟨hbase, hexpected, hreceived⟩ := hs.ordered hm
  obtain ⟨hexp, hrec⟩ := (sound_new clockRateHz).sum_intervals events
  have hexp' : (((new clockRateHz).intervals events).map (·.expectedInterval)).sum =
      ((new clockRateHz).run events).expectedPrior := by rw [← hexp]; exact (Nat.zero_add _).symm
  have hrec' : (((new clockRateHz).intervals events).map (·.receivedInterval)).sum =
      ((new clockRateHz).run events).receivedPrior := by rw [← hrec]; exact (Nat.zero_add _).symm
  exact ⟨hbase, hexpected, hreceived, hexp' ▸ Nat.add_sub_cancel' hexpected,
    hrec' ▸ Nat.add_sub_cancel' hreceived⟩

/-- Three packets, one of them from the other side of the wrap and one in front of the first. -/
theorem reports_exact_wrapped :
    let events : List Event :=
      [.packet 65535 0 0, .reportBlock 1 5, .packet 65537 0 10, .packet 65534 0 20]
    (((new 90000).intervals events).map (·.expectedInterval)).sum +
      (((new 90000).run events).interval 65537).expectedInterval =
        (((new 90000).run events).interval 65537).expected ∧
    ∃ block, (((new 90000).run events).reportBlock 1 30).2 = some block ∧
      Exact ⟨[65535, 65537, 65534], [65535]⟩ block := by
  intro events
  have hnear : Reception.Near 32768 (ledger events).arrived := by
    rintro (_ | ⟨a, _ | ⟨b, _ | ⟨c, before⟩⟩⟩) n after h hne
    · exact absurd rfl hne
    · cases h
      decide
    · cases h
      decide
    · simp [events, ledger, Ledger.step] at h
  have h := reports_exact 90000 events
  obtain ⟨_, _, _, hsum, _⟩ := h.1 65537 (by decide +kernel)
  exact ⟨hsum, h.2 hnear (by decide) 1 30⟩

/-- 40000 packets are lost at a time: the next ones are taken for old ones. -/
theorem report_not_exact :
    ¬∀ clockRateHz events peerSsrc nowMs, (ledger events).arrived ≠ [] → ∃ block,
      (((new clockRateHz).run events).reportBlock peerSsrc nowMs).2 = some block ∧
      Exact (ledger events) block := by
  intro h
  obtain ⟨block, hblock, hexact⟩ := h 90000
    [.packet 0 0 0, .packet 40001 0 10, .packet 40002 0 20] 1 30 (by decide)
  have hhighest := hexact.highestSeq
  obtain rfl := Option.some.inj hblock
  revert hhighest
  decide +kernel

end RtcpReportState

end CheetahMedia.Rtp
