import CheetahMedia.ControlPlane.Durable
import CheetahMedia.Lib.Transition
import Mathlib.Algebra.BigOperators.Group.List.Basic

namespace CheetahMedia.ControlPlane.Capacity
open Lib Durable

/-- The counted resources of a node. -/
structure CapacityVector where
  sessionCount : UInt64 := 0
  portCount : UInt64 := 0
  bandwidthBps : UInt64 := 0
  workerCount : UInt64 := 0
  blockingJobCount : UInt64 := 0
  fileTaskCount : UInt64 := 0
  eventSubscriberCount : UInt64 := 0
  cpuPermille : UInt64 := 0
deriving DecidableEq

abbrev CapacityRequest := CapacityVector
abbrev CapacityLimits := CapacityVector

inductive Dimension
  | sessionCount | portCount | bandwidthBps | workerCount | blockingJobCount | fileTaskCount
  | eventSubscriberCount | cpuPermille

/-- The amount in one dimension. -/
def CapacityVector.amount (v : CapacityVector) : Dimension → Nat
  | .sessionCount => v.sessionCount.toNat
  | .portCount => v.portCount.toNat
  | .bandwidthBps => v.bandwidthBps.toNat
  | .workerCount => v.workerCount.toNat
  | .blockingJobCount => v.blockingJobCount.toNat
  | .fileTaskCount => v.fileTaskCount.toNat
  | .eventSubscriberCount => v.eventSubscriberCount.toNat
  | .cpuPermille => v.cpuPermille.toNat

def checkedAdd (a b : UInt64) : Option UInt64 :=
  if a.toNat + b.toNat < UInt64.size then some (a + b) else none

def saturatingAdd (a b : UInt64) : UInt64 := (checkedAdd a b).getD 0xFFFFFFFFFFFFFFFF

def saturatingSub (a b : UInt64) : UInt64 := .ofNat (a.toNat - b.toNat)

/-- The same operation in every dimension. -/
def CapacityVector.zipWith (f : UInt64 → UInt64 → UInt64) (a b : CapacityVector) :
    CapacityVector where
  sessionCount := f a.sessionCount b.sessionCount
  portCount := f a.portCount b.portCount
  bandwidthBps := f a.bandwidthBps b.bandwidthBps
  workerCount := f a.workerCount b.workerCount
  blockingJobCount := f a.blockingJobCount b.blockingJobCount
  fileTaskCount := f a.fileTaskCount b.fileTaskCount
  eventSubscriberCount := f a.eventSubscriberCount b.eventSubscriberCount
  cpuPermille := f a.cpuPermille b.cpuPermille

/-- What `fits` asks in one dimension. -/
def fitsIn (used request limit : UInt64) : Bool :=
  (checkedAdd used request).any fun sum => sum.toNat ≤ limit.toNat

def fits (used : CapacityVector) (request : CapacityRequest) (limits : CapacityLimits) : Bool :=
  fitsIn used.sessionCount request.sessionCount limits.sessionCount &&
  fitsIn used.portCount request.portCount limits.portCount &&
  fitsIn used.bandwidthBps request.bandwidthBps limits.bandwidthBps &&
  fitsIn used.workerCount request.workerCount limits.workerCount &&
  fitsIn used.blockingJobCount request.blockingJobCount limits.blockingJobCount &&
  fitsIn used.fileTaskCount request.fileTaskCount limits.fileTaskCount &&
  fitsIn used.eventSubscriberCount request.eventSubscriberCount limits.eventSubscriberCount &&
  fitsIn used.cpuPermille request.cpuPermille limits.cpuPermille

def add : CapacityVector → CapacityVector → CapacityVector := .zipWith saturatingAdd

def sub : CapacityVector → CapacityVector → CapacityVector := .zipWith saturatingSub

def remaining (used : CapacityVector) (limits : CapacityLimits) : CapacityVector :=
  .zipWith saturatingSub limits used

structure CapacityState where
  used : CapacityVector
  limits : CapacityLimits
  nodeGateOpen : Bool
  updatedAtMs : Int

structure CapacitySnapshot where
  used : CapacityVector
  remaining : CapacityVector
  nodeGateOpen : Bool
  updatedAtMs : Int
deriving DecidableEq

structure OwnedCapacityPermit where
  request : CapacityVector
  resourceHandle : Option String
  released : Bool

namespace CapacityState

def new (limits : CapacityLimits) (nowMs : Int) : CapacityState :=
  { used := {}, limits, nodeGateOpen := true, updatedAtMs := nowMs }

def snapshot (s : CapacityState) : CapacitySnapshot :=
  { used := s.used, remaining := Capacity.remaining s.used s.limits, nodeGateOpen := s.nodeGateOpen,
    updatedAtMs := s.updatedAtMs }

/-- The error of a request that may be repeated after a while. -/
def busy (message : String) : MediaError :=
  { code := .busy, message, retryable := true, retryAfterMs := some 100 }

/-- What the caller gets, and the state left behind. -/
def acquire (s : CapacityState) (request : CapacityRequest) (nowMs : Int) :
    Except MediaError OwnedCapacityPermit × CapacityState :=
  if !s.nodeGateOpen then (.error (busy "node create gate is closed"), s)
  else if !fits s.used request s.limits then (.error (busy "capacity hard limit reached"), s)
  else (.ok { request, resourceHandle := none, released := false },
    { s with used := add s.used request, updatedAtMs := nowMs })

def updateLimits (s : CapacityState) (limits : CapacityLimits) (nowMs : Int) : CapacityState :=
  { s with limits, updatedAtMs := nowMs }

def setNodeGate (s : CapacityState) (isOpen : Bool) (nowMs : Int) : CapacityState :=
  { s with nodeGateOpen := isOpen, updatedAtMs := nowMs }

end CapacityState

/-- The permit and the state after the permit gives its reservation back. -/
def OwnedCapacityPermit.release (permit : OwnedCapacityPermit) (s : CapacityState) (nowMs : Int) :
    OwnedCapacityPermit × CapacityState :=
  if permit.released then (permit, s)
  else ({ permit with released := true },
    { s with used := sub s.used permit.request, updatedAtMs := nowMs })

/-- The sum of what the live ones among the permits reserved of a dimension. -/
def liveAmount (permits : List OwnedCapacityPermit) (d : Dimension) : Nat :=
  ((permits.filter fun permit => !permit.released).map fun permit => permit.request.amount d).sum

/-- The orchestrator and the permits it handed out, each known by its place. -/
structure CapacityOrchestrator where
  inner : CapacityState
  permits : List OwnedCapacityPermit

/-- The calls, each with the clock's reading. A permit may be named again after its release,
or without having been handed out. -/
inductive Operation
  | acquire (request : CapacityRequest) (nowMs : Int)
  | release (permit : Nat) (nowMs : Int)
  | updateLimits (limits : CapacityLimits) (nowMs : Int)
  | setNodeGate (isOpen : Bool) (nowMs : Int)
  | snapshot

inductive Event
  | acquired (permit : Nat)
  | refused (error : MediaError)
  /-- The permit's reservation was taken off what is used. -/
  | released (permit : Nat)
  | snapshot (snapshot : CapacitySnapshot)
deriving DecidableEq

namespace CapacityOrchestrator

def new (limits : CapacityLimits) (nowMs : Int) : CapacityOrchestrator :=
  { inner := .new limits nowMs, permits := [] }

def acquire (o : CapacityOrchestrator) (request : CapacityRequest) (nowMs : Int) :
    CapacityOrchestrator × List Event :=
  match o.inner.acquire request nowMs with
  | (.ok permit, inner) =>
    ({ inner, permits := o.permits ++ [permit] }, [.acquired o.permits.length])
  | (.error e, inner) => ({ o with inner }, [.refused e])

def release (o : CapacityOrchestrator) (i : Nat) (nowMs : Int) :
    CapacityOrchestrator × List Event :=
  match o.permits[i]? with
  | none => (o, [])
  | some permit =>
    let (permit', inner) := permit.release o.inner nowMs
    ({ inner, permits := o.permits.set i permit' },
      if permit.released then [] else [.released i])

def step : Transition CapacityOrchestrator Operation Event
  | o, .acquire request nowMs => some (o.acquire request nowMs)
  | o, .release permit nowMs => some (o.release permit nowMs)
  | o, .updateLimits limits nowMs =>
    some ({ o with inner := o.inner.updateLimits limits nowMs }, [])
  | o, .setNodeGate isOpen nowMs =>
    some ({ o with inner := o.inner.setNodeGate isOpen nowMs }, [])
  | o, .snapshot => some (o, [.snapshot o.inner.snapshot])

/-- What the live permits reserved of a dimension. -/
def reserved (o : CapacityOrchestrator) (d : Dimension) : Nat := liveAmount o.permits d

/-- A change of limits that takes nothing off any of them. -/
def NeverLowers (o : CapacityOrchestrator) : Operation → Prop
  | .updateLimits limits _ => ∀ d, o.inner.limits.amount d ≤ limits.amount d
  | _ => True

end CapacityOrchestrator

theorem checkedAdd_toNat (h : a.toNat + b.toNat < UInt64.size) :
    ∃ sum, checkedAdd a b = some sum ∧ sum.toNat = a.toNat + b.toNat := by
  refine ⟨a + b, if_pos h, ?_⟩
  rw [UInt64.toNat_add]
  exact Nat.mod_eq_of_lt h

theorem saturatingAdd_toNat (h : a.toNat + b.toNat < UInt64.size) :
    (saturatingAdd a b).toNat = a.toNat + b.toNat := by
  obtain ⟨sum, hsum, hvalue⟩ := checkedAdd_toNat h
  simp [saturatingAdd, hsum, hvalue]

theorem saturatingSub_toNat (a b : UInt64) : (saturatingSub a b).toNat = a.toNat - b.toNat := by
  have ha := UInt64.toNat_lt_size a
  exact UInt64.toNat_ofNat_of_lt' (by omega)

theorem fitsIn_iff {used request limit : UInt64} :
    fitsIn used request limit = true ↔ used.toNat + request.toNat ≤ limit.toNat := by
  have hlimit := UInt64.toNat_lt_size limit
  unfold fitsIn
  by_cases h : used.toNat + request.toNat < UInt64.size
  · obtain ⟨sum, hsum, hvalue⟩ := checkedAdd_toNat h
    simp [hsum, hvalue]
  · simp only [checkedAdd, if_neg h, Option.any_none, Bool.false_eq_true, false_iff]
    omega

/-- A request fits exactly when it fits in every dimension, and then no sum overflows. -/
theorem fits_iff : fits used request limits = true ↔
    ∀ d, used.amount d + request.amount d ≤ limits.amount d := by
  simp only [fits, Bool.and_eq_true, fitsIn_iff]
  constructor
  · rintro ⟨⟨⟨⟨⟨⟨⟨h1, h2⟩, h3⟩, h4⟩, h5⟩, h6⟩, h7⟩, h8⟩ d
    cases d <;> assumption
  · intro h
    exact ⟨⟨⟨⟨⟨⟨⟨h .sessionCount, h .portCount⟩, h .bandwidthBps⟩, h .workerCount⟩,
      h .blockingJobCount⟩, h .fileTaskCount⟩, h .eventSubscriberCount⟩, h .cpuPermille⟩

theorem amount_lt_size (v : CapacityVector) (d : Dimension) : v.amount d < UInt64.size := by
  cases d <;> exact UInt64.toNat_lt_size _

theorem add_amount (h : a.amount d + b.amount d < UInt64.size) :
    (add a b).amount d = a.amount d + b.amount d := by
  cases d <;> exact saturatingAdd_toNat h

theorem sub_amount (a b : CapacityVector) (d : Dimension) :
    (sub a b).amount d = a.amount d - b.amount d := by
  cases d <;> exact saturatingSub_toNat _ _

/-- A refusal leaves the state as it was; a grant adds the request, which fits. -/
theorem acquire_cases (s : CapacityState) (request : CapacityRequest) (nowMs : Int) :
    (∃ e, s.acquire request nowMs = (.error e, s)) ∨
    (s.nodeGateOpen = true ∧ (∀ d, s.used.amount d + request.amount d ≤ s.limits.amount d) ∧
      s.acquire request nowMs = (.ok { request, resourceHandle := none, released := false },
        { s with used := add s.used request, updatedAtMs := nowMs })) := by
  unfold CapacityState.acquire
  cases hgate : s.nodeGateOpen with
  | false => exact .inl ⟨_, rfl⟩
  | true =>
    cases hfits : fits s.used request s.limits with
    | false => exact .inl ⟨_, rfl⟩
    | true => exact .inr ⟨rfl, fits_iff.mp hfits, rfl⟩

/-- A call is refused exactly when the gate is closed or some dimension has no room. -/
theorem acquire_granted_iff {s : CapacityState} {request : CapacityRequest} :
    (∃ permit, (s.acquire request nowMs).1 = .ok permit) ↔
    s.nodeGateOpen = true ∧ ∀ d, s.used.amount d + request.amount d ≤ s.limits.amount d := by
  constructor
  · rintro ⟨permit, hpermit⟩
    rcases acquire_cases s request nowMs with ⟨e, he⟩ | ⟨hgate, hfits, -⟩
    · rw [he] at hpermit
      cases hpermit
    · exact ⟨hgate, hfits⟩
  · rintro ⟨hgate, hfits⟩
    simp [CapacityState.acquire, hgate, fits_iff.mpr hfits]

theorem liveAmount_append (permits : List OwnedCapacityPermit) (permit : OwnedCapacityPermit)
    (d : Dimension) (hlive : permit.released = false) :
    liveAmount (permits ++ [permit]) d = liveAmount permits d + permit.request.amount d := by
  simp [liveAmount, hlive]

theorem liveAmount_release {permits : List OwnedCapacityPermit} {permit : OwnedCapacityPermit}
    (d : Dimension) (h : permits[i]? = some permit) (hlive : permit.released = false) :
    liveAmount (permits.set i { permit with released := true }) d + permit.request.amount d =
      liveAmount permits d := by
  unfold liveAmount
  induction permits generalizing i with
  | nil => simp at h
  | cons p permits ih =>
    cases i with
    | zero =>
      obtain rfl : p = permit := by simpa using h
      simp [hlive, Nat.add_comm]
    | succ i =>
      have hrest := ih (by simpa using h)
      cases hp : p.released with
      | true => simpa [hp] using hrest
      | false =>
        simp only [List.set_cons_succ, List.filter_cons, hp, Bool.not_false, if_true,
          List.map_cons, List.sum_cons]
        omega

namespace CapacityOrchestrator

/-- The books balance: what is used is what the live permits reserved, and a permit was
released once or never. -/
structure Accounted (seen : List Event) (o : CapacityOrchestrator) : Prop where
  used : ∀ d, o.inner.used.amount d = o.reserved d
  once : ∀ i, seen.count (.released i) = ((o.permits[i]?).any (·.released)).toNat

/-- A refused request changes nothing at all. -/
theorem acquire_refused (h : step o (.acquire request nowMs) = some (t, events))
    (he : .refused e ∈ events) : t = o := by
  rw [step, acquire] at h
  rcases acquire_cases o.inner request nowMs with ⟨e', hrefused⟩ | ⟨-, -, hgranted⟩
  · rw [hrefused] at h
    cases h
    rfl
  · rw [hgranted] at h
    cases h
    simp at he

/-- A release of a permit that is unknown or was released before changes nothing. -/
theorem release_again (h : ∀ permit ∈ o.permits[i]?, permit.released = true) :
    step o (.release i nowMs) = some (o, []) := by
  rw [step, release]
  cases hpermit : o.permits[i]? with
  | none => rfl
  | some permit =>
    have hreleased := h permit hpermit
    obtain ⟨hlt, rfl⟩ := List.getElem?_eq_some_iff.mp hpermit
    simp [OwnedCapacityPermit.release, hreleased]

theorem Accounted.acquire (h : Accounted seen o) :
    Accounted (seen ++ (o.acquire request nowMs).2) (o.acquire request nowMs).1 := by
  rw [CapacityOrchestrator.acquire]
  rcases acquire_cases o.inner request nowMs with ⟨e, hrefused⟩ | ⟨-, hfits, hgranted⟩
  · rw [hrefused]
    exact ⟨h.used, fun i => by simp [h.once i]⟩
  · rw [hgranted]
    refine ⟨fun d => ?_, fun i => ?_⟩
    · have hlimit := amount_lt_size o.inner.limits d
      have hroom := hfits d
      rw [reserved, liveAmount_append _ _ d rfl, ← reserved, ← h.used d]
      exact add_amount (by omega)
    · have hfresh : ∀ permit : OwnedCapacityPermit, permit.released = false →
          ((o.permits ++ [permit])[i]?).any (·.released) = (o.permits[i]?).any (·.released) := by
        intro permit hlive
        rcases Nat.lt_trichotomy i o.permits.length with hi | rfl | hi
        · rw [List.getElem?_append_left hi]
        · simp [hlive]
        · rw [List.getElem?_eq_none (by simp; omega), List.getElem?_eq_none (by omega)]
      rw [List.count_append, h.once i]
      simp [hfresh]

/-- A release does nothing, or takes a live permit's reservation off what is used. -/
theorem release_cases (o : CapacityOrchestrator) (i : Nat) (nowMs : Int) :
    step o (.release i nowMs) = some (o, []) ∨
    ∃ permit, o.permits[i]? = some permit ∧ permit.released = false ∧
      step o (.release i nowMs) = some
        ({ inner := { o.inner with used := sub o.inner.used permit.request, updatedAtMs := nowMs },
           permits := o.permits.set i { permit with released := true } }, [.released i]) := by
  cases hpermit : o.permits[i]? with
  | none => exact .inl (release_again (by simp [hpermit]))
  | some permit =>
    cases hlive : permit.released with
    | true => exact .inl (release_again (by simp [hpermit, hlive]))
    | false =>
      refine .inr ⟨permit, rfl, hlive, ?_⟩
      rw [step, release, hpermit]
      simp only [OwnedCapacityPermit.release, hlive, Bool.false_eq_true, if_false]

/-- No saturation hides anything: the reservation of a live permit is part of what is used. -/
theorem Accounted.release_live (h : Accounted seen o) (hpermit : o.permits[i]? = some permit)
    (hlive : permit.released = false) (nowMs : Int) : Accounted (seen ++ [.released i])
      { inner := { o.inner with used := sub o.inner.used permit.request, updatedAtMs := nowMs }
        permits := o.permits.set i { permit with released := true } } := by
  refine ⟨fun d => ?_, fun j => ?_⟩
  · have hpart := liveAmount_release d hpermit hlive
    have hall := h.used d
    dsimp only [reserved] at hall ⊢
    rw [sub_amount]
    omega
  · obtain ⟨hlt, -⟩ := List.getElem?_eq_some_iff.mp hpermit
    rw [List.count_append, h.once j]
    by_cases hj : i = j
    · subst hj
      simp [hpermit, hlive, List.getElem?_set_self hlt]
    · simp [hj, List.getElem?_set_ne hj]

theorem Accounted.step (h : Accounted seen o) (hstep : step o op = some (t, events)) :
    Accounted (seen ++ events) t := by
  cases op with
  | acquire request nowMs =>
    obtain ⟨rfl, rfl⟩ := Prod.mk.inj (Option.some.inj hstep)
    exact h.acquire
  | release i nowMs =>
    rcases release_cases o i nowMs with hsame | ⟨permit, hpermit, hlive, hreleased⟩
    · rw [hsame] at hstep
      cases hstep
      simpa using h
    · rw [hreleased] at hstep
      cases hstep
      exact h.release_live hpermit hlive nowMs
  | updateLimits limits nowMs =>
    cases hstep
    exact ⟨h.used, fun i => by simpa using h.once i⟩
  | setNodeGate isOpen nowMs =>
    cases hstep
    exact ⟨h.used, fun i => by simpa using h.once i⟩
  | snapshot =>
    cases hstep
    exact ⟨h.used, fun i => by simpa using h.once i⟩

/-- What is used stays within the limits. -/
def Within (o : CapacityOrchestrator) : Prop :=
  ∀ d, o.inner.used.amount d ≤ o.inner.limits.amount d

theorem Within.step (h : Within o) (hlimits : NeverLowers o op)
    (hstep : step o op = some (t, events)) : Within t := by
  intro d
  cases op with
  | acquire request nowMs =>
    rw [CapacityOrchestrator.step, CapacityOrchestrator.acquire] at hstep
    rcases acquire_cases o.inner request nowMs with ⟨e, hrefused⟩ | ⟨-, hfits, hgranted⟩
    · rw [hrefused] at hstep
      cases hstep
      exact h d
    · rw [hgranted] at hstep
      cases hstep
      have hlimit := amount_lt_size o.inner.limits d
      have hroom := hfits d
      dsimp only
      rw [add_amount (by omega)]
      exact hroom
  | release i nowMs =>
    rcases release_cases o i nowMs with hsame | ⟨permit, -, -, hreleased⟩
    · rw [hsame] at hstep
      cases hstep
      exact h d
    · rw [hreleased] at hstep
      cases hstep
      dsimp only
      rw [sub_amount]
      exact Nat.le_trans (Nat.sub_le _ _) (h d)
  | updateLimits limits nowMs =>
    cases hstep
    exact Nat.le_trans (h d) (hlimits d)
  | setNodeGate isOpen nowMs =>
    cases hstep
    exact h d
  | snapshot =>
    cases hstep
    exact h d

theorem new_accounted (limits : CapacityLimits) (nowMs : Int) :
    Accounted [] (new limits nowMs) := by
  refine ⟨fun d => ?_, fun i => by simp [new]⟩
  cases d <;> rfl

/-- After any calls in any order: what is used is what the live permits reserved, a refused
request changes nothing, a permit is released at most once and released again to no effect,
and limits that never shrink are never exceeded. -/
theorem capacity_accounted
    (hrun : Transition.run step (new limits startedAtMs) ops = some (o, seen)) :
    (∀ d, o.inner.used.amount d = o.reserved d) ∧
    (∀ request nowMs t events e, step o (.acquire request nowMs) = some (t, events) →
      .refused e ∈ events → t = o) ∧
    (∀ i, seen.count (.released i) ≤ 1) ∧
    (∀ i nowMs, (∀ permit ∈ o.permits[i]?, permit.released = true) →
      step o (.release i nowMs) = some (o, [])) ∧
    (Transition.Along step NeverLowers (new limits startedAtMs) ops →
      ∀ d, o.inner.used.amount d ≤ o.inner.limits.amount d) := by
  have haccounted : Accounted ([] ++ seen) o :=
    Transition.run_traced Accounted (fun _ _ _ _ _ h _ hstep => h.step hstep) []
      (new_accounted limits startedAtMs) Transition.along_true hrun
  rw [List.nil_append] at haccounted
  refine ⟨haccounted.used, fun _ _ _ _ _ h he => acquire_refused h he, fun i => ?_,
    fun i nowMs h => release_again h, fun hlimits => ?_⟩
  · rw [haccounted.once i]
    exact Bool.toNat_le _
  · have hstart : Within (new limits startedAtMs) := by
      intro d
      cases d <;> exact Nat.zero_le _
    exact Transition.run_invariant Within (fun _ _ _ _ h hlimits hstep => h.step hlimits hstep)
      hstart hlimits hrun

/-- Two sessions and ten ports. -/
def smallNode : CapacityOrchestrator := new { sessionCount := 2, portCount := 10 } 0

/-- Three requests of which one lacks a port, a release twice, and one that names no permit. -/
def smallCalls : List Operation :=
  [.acquire { sessionCount := 1, portCount := 6 } 1,
   .acquire { sessionCount := 1, portCount := 5 } 2,
   .acquire { sessionCount := 1, portCount := 4 } 3, .release 0 4, .release 0 5, .release 9 6]

theorem smallCalls_seen : ∀ r ∈ Transition.run step smallNode smallCalls,
    r.2.length = 4 ∧ r.1.reserved .portCount = 4 := by
  decide +kernel

theorem capacity_accounted_small : ∃ o seen,
    Transition.run step smallNode smallCalls = some (o, seen) ∧ seen.length = 4 ∧
    o.inner.used.amount .portCount = 4 ∧
    ∀ d, o.inner.used.amount d ≤ o.inner.limits.amount d := by
  have hkept : ∀ op ∈ smallCalls, ∀ o, NeverLowers o op := by simp [smallCalls, NeverLowers]
  have hlimits : Transition.Along step NeverLowers smallNode smallCalls :=
    Transition.along_of_invariant (fun _ => True) (fun o _ _ _ _ hop _ => ⟨trivial, hop o⟩) trivial
      (Transition.along_of_forall hkept)
  obtain ⟨⟨o, seen⟩, hrun⟩ : ∃ r, Transition.run step smallNode smallCalls = some r := ⟨_, rfl⟩
  obtain ⟨hseen, hreserved⟩ := smallCalls_seen _ hrun
  obtain ⟨hused, -, -, -, hwithin⟩ := capacity_accounted hrun
  exact ⟨o, seen, hrun, hseen, (hused _).trans hreserved, hwithin hlimits⟩

end CapacityOrchestrator

end CheetahMedia.ControlPlane.Capacity
