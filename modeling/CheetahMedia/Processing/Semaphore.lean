import Mathlib.Data.List.Nodup
import CheetahMedia.Lib.Transition

namespace CheetahMedia.Processing
open Lib

def MAX_CONCURRENT_JOBS : Nat := 4096

/-- Senders are known by the number of the acquire that waits for them. -/
structure State where
  max : Nat
  active : Nat := 0
  waiters : List Nat := []
deriving DecidableEq

/-- Where the future of an acquire, and then its permit, stands. A future that is dropped while it
waits drops its receiver first and its `NotifyOnDrop` later: it is `cancelled` in between. -/
inductive Acquire
  | idle
  | waiting (woken : Bool)
  | cancelled (woken : Bool)
  | permit
  | gone
deriving DecidableEq

structure Semaphore where
  state : State
  acquires : List Acquire := []
deriving DecidableEq

inductive Action
  | acquire
  | poll (i : Nat)
  | cancel (i : Nat)
  | dropGuard (i : Nat)
  | dropPermit (i : Nat)
  | setMax (max : Nat)

namespace Semaphore

def withMax (max : Nat) : Semaphore := { state := { max := min max MAX_CONCURRENT_JOBS } }

def put (s : Semaphore) (i : Nat) (a : Acquire) : Semaphore :=
  { s with acquires := s.acquires.set i a }

/-- What is sent reaches a receiver that is not dropped. -/
def send (s : Semaphore) (tx : Nat) : Option Semaphore :=
  match s.acquires[tx]? with
  | some (.waiting _) => some (s.put tx (.waiting true))
  | _ => none

/-- Senders are taken from the queue until one reaches its receiver. -/
def notifyFrom (s : Semaphore) : List Nat → Semaphore
  | [] => { s with state.waiters := [] }
  | tx :: waiters =>
    match s.send tx with
    | some s => { s with state.waiters := waiters }
    | none => s.notifyFrom waiters

def notify (s : Semaphore) : Semaphore := s.notifyFrom s.state.waiters

def setMax (s : Semaphore) (max : Nat) : Semaphore :=
  let woken := s.state.waiters.foldl (fun s tx => (s.send tx).getD s) s
  { woken with state := { s.state with max := min max MAX_CONCURRENT_JOBS, waiters := [] } }

/-- A pass of the loop of `acquire`, up to where it waits or returns. -/
def claim (s : Semaphore) (i : Nat) : Semaphore × List Nat :=
  if s.state.active < s.state.max then
    ({ s.put i .permit with state.active := s.state.active + 1 }, [i])
  else ({ s.put i (.waiting false) with state.waiters := s.state.waiters ++ [i] }, [])

/-- What is seen are the acquires that are ready. -/
def step : Transition Semaphore Action Nat
  | s, .acquire => some ({ s with acquires := s.acquires ++ [.idle] }, [])
  | s, .poll i =>
    match s.acquires[i]? with
    | some .idle => some (s.claim i)
    | some (.waiting true) => some (s.claim i)
    | some (.waiting false) => some (s, [])
    | _ => none
  | s, .cancel i =>
    match s.acquires[i]? with
    | some .idle => some (s.put i .gone, [])
    | some (.waiting woken) => some (s.put i (.cancelled woken), [])
    | _ => none
  | s, .dropGuard i =>
    match s.acquires[i]? with
    | some (.cancelled _) => some ((s.put i .gone).notify, [])
    | _ => none
  | s, .dropPermit i =>
    match s.acquires[i]? with
    | some .permit =>
      some ({ s.put i .gone with state.active := s.state.active - 1 }.notify, [])
    | _ => none
  | s, .setMax max => some (s.setMax max, [])

/-- The permits that are held. -/
def permits (s : Semaphore) : Nat := s.acquires.countP (· = .permit)

/-- The acquires that were woken and did not run yet; one that is dropped instead still has to pass
the wakeup on. -/
def wakes (s : Semaphore) : Nat :=
  s.acquires.countP fun a => a = .waiting true ∨ a = .cancelled true

/-- The sender belongs to an acquire that waits. -/
def Live (s : Semaphore) (tx : Nat) : Prop := ∃ woken, s.acquires[tx]? = some (.waiting woken)

/-- What holds between the critical sections. -/
structure Sound (s : Semaphore) : Prop where
  active : s.state.active = s.permits
  nodup : s.state.waiters.Nodup
  queued : ∀ tx ∈ s.state.waiters, ∃ a, s.acquires[tx]? = some a ∧ a ≠ .idle ∧ a ≠ .waiting true
  awake : (∃ tx ∈ s.state.waiters, s.Live tx) → s.state.max ≤ s.state.active + s.wakes

section Puts
variable {s : Semaphore}

@[simp] theorem put_state (s : Semaphore) (i : Nat) (a : Acquire) :
    (s.put i a).state = s.state := rfl

theorem countP_set {acquires : List Acquire} {p : Acquire → Bool} (h : acquires[i]? = some a) :
    (acquires.set i b).countP p + (p a).toNat = acquires.countP p + (p b).toNat := by
  induction acquires generalizing i with
  | nil => cases h
  | cons c acquires ih =>
    cases i with
    | zero =>
      cases h
      rw [List.set_cons_zero, List.countP_cons, List.countP_cons]
      cases p a <;> cases p b <;> simp
    | succ i =>
      have := ih h
      rw [List.set_cons_succ, List.countP_cons, List.countP_cons]
      omega

theorem permits_put (h : s.acquires[i]? = some a) :
    (s.put i b).permits + (decide (a = .permit)).toNat =
      s.permits + (decide (b = .permit)).toNat := countP_set h

theorem wakes_put (h : s.acquires[i]? = some a) : (s.put i b).wakes +
      (decide (a = .waiting true ∨ a = .cancelled true)).toNat =
    s.wakes + (decide (b = .waiting true ∨ b = .cancelled true)).toNat := countP_set h

theorem get_put (h : s.acquires[i]? = some a) (b : Acquire) (j : Nat) :
    (s.put i b).acquires[j]? = if i = j then some b else s.acquires[j]? := by
  obtain ⟨hlt, -⟩ := List.getElem?_eq_some_iff.mp h
  rw [put, List.getElem?_set]
  simp [hlt]

/-- What an acquire that does not wait any more leaves of the live ones. -/
theorem live_of_put (h : s.acquires[i]? = some a) (hb : ∀ woken, b ≠ .waiting woken)
    (hlive : (s.put i b).Live tx) : s.Live tx := by
  obtain ⟨woken, hlive⟩ := hlive
  rw [get_put h] at hlive
  split at hlive
  · exact absurd (Option.some.inj hlive) (hb woken)
  · exact ⟨woken, hlive⟩

end Puts

section Notify
variable {s : Semaphore}

theorem send_live (h : s.acquires[tx]? = some (.waiting woken)) :
    s.send tx = some (s.put tx (.waiting true)) := by
  rw [send, h]

theorem send_dead (h : ¬s.Live tx) : s.send tx = none := by
  unfold send
  split
  · rename_i woken hwaiting
    exact absurd ⟨woken, hwaiting⟩ h
  · rfl

/-- The first live sender reaches its receiver, if there is one. -/
theorem notifyFrom_eq (s : Semaphore) (waiters : List Nat) :
    (∀ tx ∈ waiters, ¬s.Live tx) ∧ s.notifyFrom waiters = { s with state.waiters := [] } ∨
      ∃ dead tx rest, waiters = dead ++ tx :: rest ∧ s.Live tx ∧
        s.notifyFrom waiters = { s.put tx (.waiting true) with state.waiters := rest } := by
  induction waiters with
  | nil => exact .inl ⟨by simp, rfl⟩
  | cons tx waiters ih =>
    by_cases hlive : s.Live tx
    · obtain ⟨woken, hwaiting⟩ := hlive
      refine .inr ⟨[], tx, waiters, rfl, ⟨woken, hwaiting⟩, ?_⟩
      rw [notifyFrom, send_live hwaiting]
    · have hnotify : s.notifyFrom (tx :: waiters) = s.notifyFrom waiters := by
        rw [notifyFrom, send_dead hlive]
      rw [hnotify]
      rcases ih with ⟨hdead, heq⟩ | ⟨dead, tx', rest, rfl, hlive', heq⟩
      · exact .inl ⟨List.forall_mem_cons.mpr ⟨hlive, hdead⟩, heq⟩
      · exact .inr ⟨tx :: dead, tx', rest, rfl, hlive', heq⟩

/-- A wakeup makes up for a slot that became free. -/
theorem notify_sound (hactive : s.state.active = s.permits) (hnodup : s.state.waiters.Nodup)
    (hqueued : ∀ tx ∈ s.state.waiters, ∃ a, s.acquires[tx]? = some a ∧ a ≠ .idle ∧
      a ≠ .waiting true)
    (hawake : (∃ tx ∈ s.state.waiters, s.Live tx) →
      s.state.max ≤ s.state.active + s.wakes + 1) : s.notify.Sound := by
  rcases notifyFrom_eq s s.state.waiters with ⟨-, heq⟩ | ⟨dead, tx, rest, hwaiters, hlive, heq⟩
  · rw [notify, heq]
    exact ⟨hactive, .nil, by simp, by simp⟩
  · have hmem : tx ∈ s.state.waiters := by rw [hwaiters]; simp
    have hmax := hawake ⟨tx, hmem, hlive⟩
    obtain ⟨woken, hwaiting⟩ := hlive
    obtain ⟨a, ha, -, hasleep⟩ := hqueued tx hmem
    obtain rfl : woken = false := by
      rw [hwaiting] at ha
      cases woken
      · rfl
      · exact absurd (Option.some.inj ha).symm hasleep
    have hpermits := permits_put (b := .waiting true) hwaiting
    have hwakes := wakes_put (b := .waiting true) hwaiting
    simp at hpermits hwakes
    rw [hwaiters, List.nodup_append, List.nodup_cons] at hnodup
    obtain ⟨-, ⟨hnotin, hrest⟩, -⟩ := hnodup
    rw [notify, heq]
    refine ⟨hactive.trans hpermits.symm, hrest, fun tx' htx' => ?_, fun _ => ?_⟩
    · have hne : tx ≠ tx' := fun heq => hnotin (heq ▸ htx')
      obtain ⟨a, ha, hidle⟩ := hqueued tx' (by rw [hwaiters]; simp [htx'])
      refine ⟨a, ?_, hidle⟩
      show (s.put tx (.waiting true)).acquires[tx']? = some a
      rw [get_put hwaiting, if_neg hne]
      exact ha
    · show s.state.max ≤ s.state.active + (s.put tx (.waiting true)).wakes
      omega

end Notify

section Steps
variable {s : Semaphore}

/-- An acquire that is not queued runs: it gets a slot, or is queued. -/
theorem Sound.claim (h : s.Sound) (hget : s.acquires[i]? = some a)
    (ha : a = .idle ∨ a = .waiting true) : (s.claim i).1.Sound := by
  have hout : i ∉ s.state.waiters := fun hmem => by
    obtain ⟨a', ha', hidle, hasleep⟩ := h.queued i hmem
    rw [hget] at ha'
    obtain rfl := Option.some.inj ha'
    exact ha.elim hidle hasleep
  have hothers (b : Acquire) (tx : Nat) (htx : tx ∈ s.state.waiters) :
      (s.put i b).acquires[tx]? = s.acquires[tx]? := by
    rw [get_put hget, if_neg]
    rintro rfl
    exact hout htx
  unfold Semaphore.claim
  split
  · have hpermits := permits_put (b := .permit) hget
    have hwakes := wakes_put (b := .permit) hget
    have hnot : a ≠ .permit := by rcases ha with rfl | rfl <;> decide
    simp [hnot] at hpermits hwakes
    have hactive := h.active
    refine ⟨?_, h.nodup, fun tx htx => ?_, ?_⟩
    · show s.state.active + 1 = (s.put i .permit).permits
      omega
    · show ∃ a, (s.put i .permit).acquires[tx]? = some a ∧ _
      rw [hothers .permit tx htx]
      exact h.queued tx htx
    · rintro ⟨tx, htx, hlive⟩
      have hmax := h.awake ⟨tx, htx, live_of_put hget (fun woken heq => by cases heq) hlive⟩
      have hone : (decide (a = .waiting true ∨ a = .cancelled true)).toNat ≤ 1 := Bool.toNat_le _
      show s.state.max ≤ s.state.active + 1 + (s.put i .permit).wakes
      simp at hone
      omega
  · rename_i hfull
    have hpermits := permits_put (b := .waiting false) hget
    have hnot : a ≠ .permit := by rcases ha with rfl | rfl <;> decide
    simp [hnot] at hpermits
    refine ⟨h.active.trans hpermits.symm, ?_, fun tx htx => ?_, fun _ => ?_⟩
    · exact h.nodup.append (List.nodup_singleton i) (by simpa using hout)
    · show ∃ a, (s.put i (.waiting false)).acquires[tx]? = some a ∧ _
      rcases List.mem_append.mp htx with htx | htx
      · rw [hothers (.waiting false) tx htx]
        exact h.queued tx htx
      · rw [List.mem_singleton.mp htx, get_put hget, if_pos rfl]
        exact ⟨_, rfl, by decide, by decide⟩
    · show s.state.max ≤ s.state.active + _
      omega

/-- An acquire that is dropped while it waits keeps the wakeup that it got. -/
theorem Sound.cancel (h : s.Sound) (hget : s.acquires[i]? = some (.waiting woken)) :
    (s.put i (.cancelled woken)).Sound := by
  have hpermits := permits_put (b := .cancelled woken) hget
  have hwakes := wakes_put (b := .cancelled woken) hget
  simp at hpermits hwakes
  refine ⟨h.active.trans hpermits.symm, h.nodup, fun tx htx => ?_, ?_⟩
  · rw [get_put hget]
    split
    · rename_i heq
      obtain ⟨a, ha, hidle, hasleep⟩ := h.queued tx htx
      exact ⟨_, rfl, by simp, by simp⟩
    · exact h.queued tx htx
  · rintro ⟨tx, htx, hlive⟩
    have hmax := h.awake ⟨tx, htx, live_of_put hget (fun woken heq => by cases heq) hlive⟩
    show s.state.max ≤ s.state.active + _
    omega

theorem Sound.cancel_idle (h : s.Sound) (hget : s.acquires[i]? = some .idle) :
    (s.put i .gone).Sound := by
  have hpermits := permits_put (b := .gone) hget
  have hwakes := wakes_put (b := .gone) hget
  simp at hpermits hwakes
  refine ⟨h.active.trans hpermits.symm, h.nodup, fun tx htx => ?_, ?_⟩
  · rw [get_put hget]
    split
    · exact ⟨_, rfl, by decide, by decide⟩
    · exact h.queued tx htx
  · rintro ⟨tx, htx, hlive⟩
    have hmax := h.awake ⟨tx, htx, live_of_put hget (fun woken heq => by cases heq) hlive⟩
    show s.state.max ≤ s.state.active + _
    omega

/-- The guard passes a wakeup on. -/
theorem Sound.dropGuard (h : s.Sound) (hget : s.acquires[i]? = some (.cancelled woken)) :
    (s.put i .gone).notify.Sound := by
  have hpermits := permits_put (b := .gone) hget
  have hwakes := wakes_put (b := .gone) hget
  simp at hpermits hwakes
  have hone : woken.toNat ≤ 1 := Bool.toNat_le woken
  refine notify_sound (h.active.trans hpermits.symm) h.nodup (fun tx htx => ?_) ?_
  · rw [get_put hget]
    split
    · exact ⟨_, rfl, by decide, by decide⟩
    · exact h.queued tx htx
  · rintro ⟨tx, htx, hlive⟩
    have hmax := h.awake ⟨tx, htx, live_of_put hget (fun woken heq => by cases heq) hlive⟩
    show s.state.max ≤ s.state.active + _ + 1
    omega

theorem Sound.dropPermit (h : s.Sound) (hget : s.acquires[i]? = some .permit) :
    { s.put i .gone with state.active := s.state.active - 1 }.notify.Sound := by
  have hpermits := permits_put (b := .gone) hget
  have hwakes := wakes_put (b := .gone) hget
  simp at hpermits hwakes
  have hactive := h.active
  refine notify_sound ?_ h.nodup (fun tx htx => ?_) ?_
  · show s.state.active - 1 = (s.put i .gone).permits
    omega
  · show ∃ a, (s.put i .gone).acquires[tx]? = some a ∧ _
    rw [get_put hget]
    split
    · exact ⟨_, rfl, by decide, by decide⟩
    · exact h.queued tx htx
  · rintro ⟨tx, htx, hlive⟩
    have hmax := h.awake ⟨tx, htx, live_of_put hget (fun woken heq => by cases heq) hlive⟩
    show s.state.max ≤ s.state.active - 1 + (s.put i .gone).wakes + 1
    omega

theorem permits_send (s : Semaphore) (tx : Nat) : ((s.send tx).getD s).permits = s.permits := by
  unfold send
  split
  · rename_i woken hget
    have hpermits := permits_put (b := .waiting true) hget
    simpa using hpermits
  · rfl

theorem permits_sends (waiters : List Nat) (s : Semaphore) :
    (waiters.foldl (fun s tx => (s.send tx).getD s) s).permits = s.permits := by
  induction waiters generalizing s with
  | nil => rfl
  | cons tx waiters ih => rw [List.foldl_cons, ih, permits_send]

theorem Sound.setMax (h : s.Sound) (max : Nat) : (s.setMax max).Sound :=
  ⟨h.active.trans (permits_sends _ _).symm, .nil, by simp [Semaphore.setMax],
    by simp [Semaphore.setMax]⟩

theorem Sound.acquire (h : s.Sound) :
    Sound { s with acquires := s.acquires ++ [.idle] } := by
  have hold (tx : Nat) (htx : tx ∈ s.state.waiters) :
      (s.acquires ++ [.idle])[tx]? = s.acquires[tx]? := by
    obtain ⟨a, ha, -⟩ := h.queued tx htx
    exact List.getElem?_append_left (List.getElem?_eq_some_iff.mp ha).1
  refine ⟨?_, h.nodup, fun tx htx => ?_, ?_⟩
  · rw [h.active]
    simp [permits]
  · obtain ⟨a, ha, hrest⟩ := h.queued tx htx
    exact ⟨a, (hold tx htx).trans ha, hrest⟩
  · rintro ⟨tx, htx, woken, hlive⟩
    have hmax := h.awake ⟨tx, htx, woken, (hold tx htx).symm.trans hlive⟩
    simpa [wakes] using hmax

theorem Sound.step (h : s.Sound) (hstep : Semaphore.step s a = some (t, es)) : t.Sound := by
  cases a with
  | acquire =>
    cases hstep
    exact h.acquire
  | poll i =>
    rw [Semaphore.step] at hstep
    split at hstep
    · rename_i hget
      obtain rfl : (s.claim i).1 = t := congrArg Prod.fst (Option.some.inj hstep)
      exact h.claim hget (.inl rfl)
    · rename_i hget
      obtain rfl : (s.claim i).1 = t := congrArg Prod.fst (Option.some.inj hstep)
      exact h.claim hget (.inr rfl)
    · cases hstep
      exact h
    · cases hstep
  | cancel i =>
    rw [Semaphore.step] at hstep
    split at hstep
    · rename_i hget
      cases hstep
      exact h.cancel_idle hget
    · rename_i hget
      cases hstep
      exact h.cancel hget
    · cases hstep
  | dropGuard i =>
    rw [Semaphore.step] at hstep
    split at hstep
    · rename_i hget
      cases hstep
      exact h.dropGuard hget
    · cases hstep
  | dropPermit i =>
    rw [Semaphore.step] at hstep
    split at hstep
    · rename_i hget
      cases hstep
      exact h.dropPermit hget
    · cases hstep
  | setMax max =>
    cases hstep
    exact h.setMax max

/-- An acquire is granted: it holds a permit that it did not hold. -/
def Granted (s t : Semaphore) (i : Nat) : Prop :=
  t.acquires[i]? = some .permit ∧ s.acquires[i]? ≠ some .permit

theorem not_granted_put (hget : s.acquires[i]? = some a) (hb : b ≠ .permit) (j : Nat) :
    ¬Granted s (s.put i b) j := by
  rintro ⟨hnow, hbefore⟩
  rw [get_put hget] at hnow
  split at hnow
  · exact hb (Option.some.inj hnow)
  · exact hbefore hnow

theorem granted_trans (h : ¬Granted s t i) (h' : ¬Granted t u i) : ¬Granted s u i := by
  rintro ⟨hnow, hbefore⟩
  by_cases hmid : t.acquires[i]? = some .permit
  · exact h ⟨hmid, hbefore⟩
  · exact h' ⟨hnow, hmid⟩

theorem not_granted_notify (s : Semaphore) (i : Nat) : ¬Granted s s.notify i := by
  rcases notifyFrom_eq s s.state.waiters with ⟨-, heq⟩ | ⟨_, tx, _, _, ⟨woken, hwaiting⟩, heq⟩
  · rw [notify, heq]
    exact fun ⟨hnow, hbefore⟩ => hbefore hnow
  · rw [notify, heq]
    exact not_granted_put hwaiting (b := .waiting true) (by decide) i

theorem not_granted_sends (waiters : List Nat) (s : Semaphore) (i : Nat) :
    ¬Granted s (waiters.foldl (fun s tx => (s.send tx).getD s) s) i := by
  induction waiters generalizing s with
  | nil => exact fun ⟨hnow, hbefore⟩ => hbefore hnow
  | cons tx waiters ih =>
    refine granted_trans ?_ (ih _)
    show ¬Granted s ((s.send tx).getD s) i
    unfold send
    split
    · rename_i woken hget
      exact not_granted_put hget (by decide) i
    · exact fun ⟨hnow, hbefore⟩ => hbefore hnow

/-- Only a claim grants, and only where a slot is free. -/
theorem step_granted (hstep : Semaphore.step s a = some (t, es)) (h : Granted s t i) :
    s.state.active < s.state.max := by
  have hclaim {j : Nat} {b : Acquire} (hget : s.acquires[j]? = some b)
      (h : Granted s (s.claim j).1 i) : s.state.active < s.state.max := by
    by_contra hfull
    rw [claim, if_neg hfull] at h
    exact not_granted_put hget (b := .waiting false) (by decide) i h
  cases a with
  | acquire =>
    cases hstep
    obtain ⟨hnow, hbefore⟩ := h
    dsimp only at hnow
    rw [List.getElem?_append] at hnow
    split at hnow
    · exact absurd hnow hbefore
    · rw [List.getElem?_singleton] at hnow
      split at hnow <;> cases hnow
  | poll j =>
    rw [Semaphore.step] at hstep
    split at hstep
    · rename_i hget
      obtain rfl : (s.claim j).1 = t := congrArg Prod.fst (Option.some.inj hstep)
      exact hclaim hget h
    · rename_i hget
      obtain rfl : (s.claim j).1 = t := congrArg Prod.fst (Option.some.inj hstep)
      exact hclaim hget h
    · cases hstep
      exact absurd h.1 h.2
    · cases hstep
  | cancel j =>
    rw [Semaphore.step] at hstep
    split at hstep
    · rename_i hget
      cases hstep
      exact absurd h (not_granted_put hget (by decide) i)
    · rename_i hget
      cases hstep
      exact absurd h (not_granted_put hget (by simp) i)
    · cases hstep
  | dropGuard j =>
    rw [Semaphore.step] at hstep
    split at hstep
    · rename_i hget
      cases hstep
      exact absurd h (granted_trans (not_granted_put hget (by decide) i) (not_granted_notify _ i))
    · cases hstep
  | dropPermit j =>
    rw [Semaphore.step] at hstep
    split at hstep
    · rename_i hget
      cases hstep
      exact absurd h (granted_trans (t := { s.put j .gone with state.active := _ })
        (not_granted_put hget (b := .gone) (by decide) i) (not_granted_notify _ i))
    · cases hstep
  | setMax max =>
    cases hstep
    exact absurd h (not_granted_sends s.state.waiters s i)

end Steps

theorem withMax_sound (limit : Nat) : (withMax limit).Sound :=
  ⟨rfl, .nil, by simp [withMax], by simp [withMax]⟩

/-- In every state that is reached, whatever is polled, dropped or reconfigured in between: the
active count is the number of permits, no acquire is granted without a free slot, and as long as
acquires wait in the queue, every free slot has a wakeup on its way. -/
theorem run_wakes (hrun : Transition.run step (withMax limit) actions = some (s, es)) :
    s.state.active = s.permits ∧
      (∀ a t fs i, step s a = some (t, fs) → Granted s t i → s.state.active < s.state.max) ∧
      ((∃ tx ∈ s.state.waiters, s.Live tx) → s.state.max - s.state.active ≤ s.wakes) := by
  have hsound : s.Sound := Transition.run_invariant Sound (fun _ _ _ _ h _ => h.step)
    (withMax_sound limit) Transition.along_true hrun
  refine ⟨hsound.active, fun a t fs i hstep => step_granted hstep, fun hlive => ?_⟩
  have := hsound.awake hlive
  omega

/-- The second of three acquires is dropped after it was woken, while the third one waits. -/
theorem run_wakes_dropped : ∃ s es, Transition.run step (withMax 1) [.acquire, .acquire, .acquire,
      .poll 0, .poll 1, .poll 2, .dropPermit 0, .cancel 1] = some (s, es) ∧
    s.state.active = s.permits ∧ s.state.max - s.state.active ≤ s.wakes := by
  have hrun : Transition.run step (withMax 1) [.acquire, .acquire, .acquire, .poll 0, .poll 1,
      .poll 2, .dropPermit 0, .cancel 1] = some (⟨⟨1, 0, [2]⟩,
        [.gone, .cancelled true, .waiting false]⟩, [0]) := by decide
  obtain ⟨hactive, -, hwakes⟩ := run_wakes hrun
  exact ⟨_, _, hrun, hactive, hwakes ⟨2, List.mem_singleton_self 2, false, rfl⟩⟩

end Semaphore

end CheetahMedia.Processing
