import CheetahMedia.Lib.Transition
import Mathlib.Algebra.Group.Nat.Defs
import Mathlib.Data.Finset.Basic
import Mathlib.Logic.Function.Basic

namespace CheetahMedia.Engine
open Lib

abbrev TaskId := Nat

inductive MediaKind
  | video
  | audio
  | data
  | subtitle
deriving DecidableEq

inductive BackpressurePolicy
  | dropDroppableFirst
  | dropUntilNextKeyframe
  | disconnectOnOverflow
deriving DecidableEq

structure MediaFilter where
  enableVideo : Bool := true
  enableAudio : Bool := true
deriving DecidableEq

/-- What `add_subscriber` reads of the options of a subscriber, but for the
capacity of its channel. -/
structure SubscriberOptions where
  backpressure : BackpressurePolicy := .dropDroppableFirst
  mediaFilter : MediaFilter := {}

inductive DispatchResult
  | accepted
  | droppedByPolicy
  | rejectedClosed
deriving DecidableEq

/-- What `dispatch_frame` reads of a frame. -/
structure AVFrame where
  mediaKind : MediaKind
  key : Bool
  droppable : Bool
deriving DecidableEq

/-- A subscriber as the list holds it; `waitForNextKeyframe` is the address of
the flag that its clones share. -/
structure DispatchSubscriber where
  id : Nat
  policy : BackpressurePolicy
  mediaFilter : MediaFilter
  waitForNextKeyframe : Nat
deriving DecidableEq

/-- What `try_send` on a subscriber's channel came to. -/
inductive TrySend
  | ok
  | full
  | closed
deriving DecidableEq

/-- What the loop of `dispatch_frame` has gathered so far. -/
structure Dispatch where
  accepted : Bool := false
  dropped : Bool := false
  removeIds : Finset Nat := ∅

namespace Dispatch

/-- The send itself: what it leaves of the flag, and what it adds. -/
def send (frame : AVFrame) (sub : DispatchSubscriber) (waiting : Bool) (d : Dispatch) :
    TrySend → Bool × Dispatch
  | .ok => (waiting, { d with accepted := true })
  | .full =>
    match sub.policy with
    | .dropDroppableFirst =>
      if !frame.key || frame.droppable then (waiting, { d with dropped := true })
      else (waiting, { d with removeIds := insert sub.id d.removeIds })
    | .dropUntilNextKeyframe => (true, { d with dropped := true })
    | .disconnectOnOverflow =>
      (waiting, { d with dropped := true, removeIds := insert sub.id d.removeIds })
  | .closed => (waiting, { d with removeIds := insert sub.id d.removeIds })

/-- One round of the loop of `dispatch_frame`. -/
def visit (frame : AVFrame) (sub : DispatchSubscriber) (outcome : TrySend) (waiting : Bool)
    (d : Dispatch) : Bool × Dispatch :=
  if !sub.mediaFilter.enableVideo && frame.mediaKind == .video then (waiting, d)
  else if !sub.mediaFilter.enableAudio && frame.mediaKind == .audio then (waiting, d)
  else if sub.policy == .dropUntilNextKeyframe && waiting then
    if frame.key then d.send frame sub false outcome
    else (waiting, { d with dropped := true })
  else d.send frame sub waiting outcome

def result (d : Dispatch) : DispatchResult :=
  if d.accepted then .accepted
  else if d.dropped then .droppedByPolicy
  else .rejectedClosed

end Dispatch

namespace DispatcherInner

/-- Where a task stands, with what it has loaded and not yet stored. -/
inductive Task
  | idle
  | adding (sub : DispatchSubscriber)
  | addLoaded (sub : DispatchSubscriber) (next : List DispatchSubscriber)
  | removing (ids : Finset Nat) (result : Option DispatchResult)
  | removeLoaded (ids : Finset Nat) (next : List DispatchSubscriber)
    (result : Option DispatchResult)
  | dispatching (frame : AVFrame) (subs : List DispatchSubscriber) (d : Dispatch)

/-- A call, or the next load, store or send of the call a task is in. -/
inductive Action
  | addSubscriber (task : TaskId) (options : SubscriberOptions)
  | removeSubscribers (task : TaskId) (ids : Finset Nat)
  | clearSubscribers (task : TaskId)
  | dispatchFrame (task : TaskId) (frame : AVFrame)
  | advance (task : TaskId) (outcome : TrySend)

/-- A store of the list, or the result of a dispatch. -/
inductive Event
  | added (sub : DispatchSubscriber)
  | removed (ids : Finset Nat)
  | cleared
  | dispatched (result : DispatchResult)
deriving DecidableEq

end DispatcherInner

/-- The dispatcher and the tasks that call it. `flags` holds the flags of the
subscribers by address. -/
structure DispatcherInner where
  subscribers : List DispatchSubscriber := []
  nextSubscriberId : Nat := 0
  flags : List Bool := []
  tasks : TaskId → DispatcherInner.Task := fun _ => .idle

namespace DispatcherInner

/-- The subscriber that a task is about to add. -/
def Task.pending : Task → Option DispatchSubscriber
  | .adding sub | .addLoaded sub _ => some sub
  | _ => none

/-- The list that a task has loaded to store an edited copy of it. -/
def Task.loaded : Task → Option (List DispatchSubscriber)
  | .addLoaded _ next | .removeLoaded _ next _ => some next
  | _ => none

namespace Event

/-- The list as the stores leave it when nothing comes between a load and its store. -/
def apply (subs : List DispatchSubscriber) : Event → List DispatchSubscriber
  | .added sub => subs ++ [sub]
  | .removed ids => subs.filter (·.id ∉ ids)
  | .cleared => []
  | .dispatched _ => subs

def Drops (id : Nat) : Event → Prop
  | .removed ids => id ∈ ids
  | .cleared => True
  | _ => False

def added? : Event → Option Nat
  | .added sub => some sub.id
  | _ => none

end Event

/-- The subscribers that are left of those that were added. -/
def roster (es : List Event) : List DispatchSubscriber := es.foldl Event.apply []

/-- An added subscriber is in the list unless it was dropped after that, and then
it is not. -/
structure Kept (es : List Event) (subs : List DispatchSubscriber) : Prop where
  stays : ∀ pre sub post, es = pre ++ .added sub :: post →
    (∀ e ∈ post, ¬ e.Drops sub.id) → sub ∈ subs
  staysOut : ∀ pre sub post, es = pre ++ .added sub :: post →
    (∃ e ∈ post, e.Drops sub.id) → ∀ other ∈ subs, other.id ≠ sub.id

section Kept
variable {sub : DispatchSubscriber} {subs : List DispatchSubscriber} {es : List Event}
  {i : Nat} {e : Event}

theorem apply_stays (hsub : sub ∈ subs) (h : ∀ e ∈ es, ¬ Event.Drops sub.id e) :
    sub ∈ es.foldl Event.apply subs := by
  induction es generalizing subs with
  | nil => exact hsub
  | cons e es ih =>
    obtain ⟨he, hes⟩ := List.forall_mem_cons.mp h
    apply ih _ hes
    cases e with
    | added other => exact List.mem_append_left _ hsub
    | removed ids =>
      have hid : sub.id ∉ ids := he
      simpa [Event.apply, hid] using hsub
    | cleared => exact absurd trivial he
    | dispatched result => exact hsub

theorem apply_out (hout : ∀ other ∈ subs, other.id ≠ i) (h : i ∉ es.filterMap Event.added?) :
    ∀ other ∈ es.foldl Event.apply subs, other.id ≠ i := by
  induction es generalizing subs with
  | nil => exact hout
  | cons e es ih =>
    cases e with
    | added sub =>
      simp only [Event.added?, List.filterMap_cons, List.mem_cons, not_or] at h
      refine ih (fun other hother => ?_) h.2
      rcases List.mem_append.mp hother with hold | hnew
      · exact hout other hold
      · obtain rfl := List.mem_singleton.mp hnew
        exact Ne.symm h.1
    | removed ids =>
      exact ih (fun other hother => hout other (List.mem_filter.mp hother).1) h
    | cleared => exact ih (fun other hother => absurd hother List.not_mem_nil) h
    | dispatched result => exact ih hout h

theorem apply_drops (h : Event.Drops i e) : ∀ other ∈ e.apply subs, other.id ≠ i := by
  intro other hother
  cases e with
  | removed ids =>
    rintro rfl
    have hkept := (List.mem_filter.mp hother).2
    simp only [decide_not, Bool.not_eq_true', decide_eq_false_iff_not] at hkept
    exact hkept h
  | cleared => exact absurd hother List.not_mem_nil
  | added sub => exact absurd h id
  | dispatched result => exact absurd h id

/-- One store after the other, each identifier added once: nothing is lost and
nothing comes back. -/
theorem kept_roster (hdistinct : (es.filterMap Event.added?).Nodup) : Kept es (roster es) where
  stays := by
    rintro pre sub post rfl hstays
    rw [roster, List.foldl_append, List.foldl_cons]
    exact apply_stays (List.mem_append_right _ (List.mem_singleton_self sub)) hstays
  staysOut := by
    rintro pre sub post rfl ⟨e, he, hdrops⟩
    rw [List.filterMap_append] at hdistinct
    have hnew : sub.id ∉ post.filterMap Event.added? :=
      (List.nodup_cons.mp (List.nodup_append.mp hdistinct).2.1).1
    obtain ⟨before, after, rfl⟩ := List.append_of_mem he
    have hafter : sub.id ∉ after.filterMap Event.added? := by
      intro hmem
      obtain ⟨f, hf, hid⟩ := List.mem_filterMap.mp hmem
      have hlater : f ∈ before ++ e :: after := List.mem_append_right _ (List.mem_cons_of_mem _ hf)
      exact hnew (List.mem_filterMap.mpr ⟨f, hlater, hid⟩)
    rw [roster, List.foldl_append, List.foldl_cons, List.foldl_append, List.foldl_cons]
    exact apply_out (apply_drops hdrops) hafter

end Kept


def become (s : DispatcherInner) (t : TaskId) (task : Task) : DispatcherInner :=
  { s with tasks := Function.update s.tasks t task }

/-- `fetch_add(1) + 1` on the counter, and the subscriber that is to be added. -/
def takeId (s : DispatcherInner) (t : TaskId) (options : SubscriberOptions) : DispatcherInner :=
  let next := (s.nextSubscriberId + 1) % 2 ^ 64
  let sub : DispatchSubscriber := ⟨next, options.backpressure, options.mediaFilter, s.flags.length⟩
  { s with nextSubscriberId := next, flags := s.flags ++ [false] }.become t (.adding sub)

/-- `remove_subscribers` up to its load. -/
def removeSubscribers (s : DispatcherInner) (t : TaskId) (ids : Finset Nat)
    (result : Option DispatchResult) : DispatcherInner × List Event :=
  if ids = ∅ then (s.become t .idle, (result.map Event.dispatched).toList)
  else (s.become t (.removing ids result), [])

/-- The next load, store or send of the call that task `t` is in. -/
def advance (s : DispatcherInner) (t : TaskId) (outcome : TrySend) :
    Option (DispatcherInner × List Event) :=
  match s.tasks t with
  | .idle => none
  | .adding sub => some (s.become t (.addLoaded sub s.subscribers), [])
  | .addLoaded sub next =>
    some ({ s with subscribers := next ++ [sub] }.become t .idle, [.added sub])
  | .removing ids result => some (s.become t (.removeLoaded ids s.subscribers result), [])
  | .removeLoaded ids next result =>
    some ({ s with subscribers := next.filter (·.id ∉ ids) }.become t .idle,
      .removed ids :: (result.map Event.dispatched).toList)
  | .dispatching frame (sub :: subs) d =>
    let flag := s.flags.getD sub.waitForNextKeyframe false
    let (flag, d) := d.visit frame sub outcome flag
    some ({ s with flags := s.flags.set sub.waitForNextKeyframe flag }.become t
      (.dispatching frame subs d), [])
  | .dispatching _ [] d => some (s.removeSubscribers t d.removeIds (some d.result))

/-- A task calls only when it is in no call. -/
def call (s : DispatcherInner) (t : TaskId) (r : DispatcherInner × List Event) :
    Option (DispatcherInner × List Event) :=
  match s.tasks t with
  | .idle => some r
  | _ => none

def step : Transition DispatcherInner Action Event
  | s, .addSubscriber t options => s.call t (s.takeId t options, [])
  | s, .removeSubscribers t ids => s.call t (s.removeSubscribers t ids none)
  | s, .clearSubscribers t => s.call t ({ s with subscribers := [] }, [.cleared])
  | s, .dispatchFrame t frame =>
    if s.subscribers.isEmpty then s.call t (s, [.dispatched .rejectedClosed])
    else s.call t (s.become t (.dispatching frame s.subscribers {}), [])
  | s, .advance t outcome => s.advance t outcome

def pending (s : DispatcherInner) (t : TaskId) : Option DispatchSubscriber := (s.tasks t).pending

/-- What a step does to the list, the counter and the subscribers still to be added. -/
inductive Change (s : DispatcherInner) : Action → DispatcherInner → List Event → Prop
  | quiet (hsubs : s'.subscribers = s.subscribers) (hnext : s'.nextSubscriberId = s.nextSubscriberId)
    (hpending : s'.pending = s.pending) (hes : ∀ e ∈ es, ∃ result, e = .dispatched result) :
    Change s a s' es
  | takes (hid : sub.id = (s.nextSubscriberId + 1) % 2 ^ 64) (hsubs : s'.subscribers = s.subscribers)
    (hnext : s'.nextSubscriberId = sub.id)
    (hpending : s'.pending = Function.update s.pending t (some sub)) :
    Change s (.addSubscriber t options) s' []
  | adds (htask : s.tasks t = .addLoaded sub next) (hsubs : s'.subscribers = next ++ [sub])
    (hnext : s'.nextSubscriberId = s.nextSubscriberId)
    (hpending : s'.pending = Function.update s.pending t none) :
    Change s (.advance t outcome) s' [.added sub]
  | removes (htask : s.tasks t = .removeLoaded ids next result)
    (hsubs : s'.subscribers = next.filter (·.id ∉ ids))
    (hnext : s'.nextSubscriberId = s.nextSubscriberId) (hpending : s'.pending = s.pending) :
    Change s (.advance t outcome) s' (.removed ids :: (result.map Event.dispatched).toList)
  | clears (hsubs : s'.subscribers = []) (hnext : s'.nextSubscriberId = s.nextSubscriberId)
    (hpending : s'.pending = s.pending) : Change s (.clearSubscribers t) s' [.cleared]

theorem become_pending (s : DispatcherInner) (t : TaskId) (task : Task) :
    (s.become t task).pending = Function.update s.pending t task.pending := by
  funext u
  by_cases hu : u = t
  · subst hu
    simp [pending, become]
  · simp [pending, become, hu]

theorem become_pending_same {s : DispatcherInner} (h : (s.tasks t).pending = task.pending) :
    (s.become t task).pending = s.pending := by
  rw [become_pending, ← h]
  exact Function.update_eq_self t s.pending

theorem call_eq_some {s : DispatcherInner} (h : s.call t r = some r') : s.tasks t = .idle ∧ r = r' := by
  cases ht : s.tasks t <;> simp_all [call]

theorem mem_dispatched {result : Option DispatchResult} :
    ∀ e ∈ (result.map Event.dispatched).toList, ∃ r, e = .dispatched r := by
  cases result <;> simp

theorem dispatched_only {fs : List Event} (h : ∀ e ∈ fs, ∃ result, e = .dispatched result) :
    fs.foldl Event.apply subs = subs ∧ fs.filterMap Event.added? = [] := by
  induction fs with
  | nil => exact ⟨rfl, rfl⟩
  | cons e fs ih =>
    obtain ⟨⟨result, rfl⟩, hfs⟩ := List.forall_mem_cons.mp h
    exact ih hfs

theorem removeSubscribers_quiet {s : DispatcherInner} (h : (s.tasks t).pending = none)
    (hr : s.removeSubscribers t ids result = (s', es)) : Change s a s' es := by
  unfold removeSubscribers at hr
  split at hr
  · cases hr
    exact .quiet rfl rfl (become_pending_same h) mem_dispatched
  · cases hr
    exact .quiet rfl rfl (become_pending_same h) (List.forall_mem_nil _)

theorem advance_change {s : DispatcherInner} (h : s.advance t outcome = some (s', es)) :
    Change s (.advance t outcome) s' es := by
  unfold advance at h
  split at h
  next => cases h
  next sub ht =>
    cases h
    exact .quiet rfl rfl (become_pending_same (by rw [ht]; rfl)) (List.forall_mem_nil _)
  next sub next ht =>
    cases h
    exact .adds ht rfl rfl (become_pending _ t .idle)
  next ids result ht =>
    cases h
    exact .quiet rfl rfl (become_pending_same (by rw [ht]; rfl)) (List.forall_mem_nil _)
  next ids next result ht =>
    cases h
    exact .removes ht rfl rfl (become_pending_same (by rw [ht]; rfl))
  next frame sub subs d ht =>
    cases h
    exact .quiet rfl rfl (become_pending_same (by rw [ht]; rfl)) (List.forall_mem_nil _)
  next frame d ht =>
    exact removeSubscribers_quiet (by rw [ht]; rfl) (Option.some.inj h)

theorem step_change {s : DispatcherInner} (h : step s a = some (s', es)) : Change s a s' es := by
  cases a with
  | addSubscriber t options =>
    obtain ⟨-, hr⟩ := call_eq_some h
    cases hr
    exact .takes rfl rfl rfl (become_pending _ t _)
  | removeSubscribers t ids =>
    obtain ⟨ht, hr⟩ := call_eq_some h
    exact removeSubscribers_quiet (by rw [ht]; rfl) hr
  | clearSubscribers t =>
    obtain ⟨-, hr⟩ := call_eq_some h
    cases hr
    exact .clears rfl rfl rfl
  | dispatchFrame t frame =>
    simp only [step] at h
    split at h
    · obtain ⟨-, hr⟩ := call_eq_some h
      cases hr
      exact .quiet rfl rfl rfl (by simp)
    · obtain ⟨ht, hr⟩ := call_eq_some h
      cases hr
      exact .quiet rfl rfl (become_pending_same (by rw [ht]; rfl)) (List.forall_mem_nil _)
  | advance t outcome => exact advance_change h

/-- A list is stored over the list it was loaded from, and the counter does not
come round. -/
def Undisturbed (s : DispatcherInner) : Action → Prop
  | .addSubscriber _ _ => s.nextSubscriberId + 1 < 2 ^ 64
  | .advance t _ => ∀ next ∈ (s.tasks t).loaded, next = s.subscribers
  | _ => True

instance : ∀ s a, Decidable (Undisturbed s a)
  | s, .addSubscriber _ _ => inferInstanceAs (Decidable (s.nextSubscriberId + 1 < 2 ^ 64))
  | s, .advance t _ => inferInstanceAs (Decidable (∀ next ∈ (s.tasks t).loaded, next = s.subscribers))
  | _, .removeSubscribers _ _ | _, .clearSubscribers _ | _, .dispatchFrame _ _ =>
    inferInstanceAs (Decidable True)

/-- Ids that were given, to an added subscriber or to one on its way, are apart and
not above the counter. -/
structure Inv (es : List Event) (s : DispatcherInner) : Prop where
  current : s.subscribers = roster es
  distinct : (es.filterMap Event.added?).Nodup
  bounded : ∀ id ∈ es.filterMap Event.added?, id ≤ s.nextSubscriberId
  fresh : ∀ t sub, s.pending t = some sub →
    sub.id ≤ s.nextSubscriberId ∧ sub.id ∉ es.filterMap Event.added?
  apart : ∀ t u sub other, t ≠ u → s.pending t = some sub → s.pending u = some other →
    sub.id ≠ other.id

theorem Inv.init : Inv [] {} where
  current := rfl
  distinct := List.nodup_nil
  bounded := List.forall_mem_nil _
  fresh _ _ h := by cases h
  apart _ _ _ _ _ h := by cases h

section
variable {s s' : DispatcherInner} {es fs : List Event}

/-- A step that adds no one. -/
theorem Inv.none_added (h : Inv es s) (hcurrent : s'.subscribers = fs.foldl Event.apply s.subscribers)
    (hadded : fs.filterMap Event.added? = []) (hnext : s'.nextSubscriberId = s.nextSubscriberId)
    (hpending : s'.pending = s.pending) : Inv (es ++ fs) s' where
  current := by rw [roster, List.foldl_append, ← roster, ← h.current, hcurrent]
  distinct := by simpa [List.filterMap_append, hadded] using h.distinct
  bounded := by
    rw [hnext, List.filterMap_append, hadded, List.append_nil]
    exact h.bounded
  fresh := by
    rw [hnext, hpending, List.filterMap_append, hadded, List.append_nil]
    exact h.fresh
  apart := by
    rw [hpending]
    exact h.apart

theorem Inv.takes (h : Inv es s) (hid : sub.id = s.nextSubscriberId + 1)
    (hsubs : s'.subscribers = s.subscribers) (hnext : s'.nextSubscriberId = sub.id)
    (hpending : s'.pending = Function.update s.pending t (some sub)) : Inv es s' where
  current := hsubs.trans h.current
  distinct := h.distinct
  bounded := by
    intro id hmem
    have hle := h.bounded id hmem
    omega
  fresh := by
    intro u other hother
    rw [hpending] at hother
    by_cases hu : u = t
    · subst hu
      obtain rfl : sub = other := by simpa using hother
      refine ⟨hnext.ge, fun hmem => ?_⟩
      have hle := h.bounded _ hmem
      omega
    · rw [Function.update_of_ne hu] at hother
      obtain ⟨hle, hnew⟩ := h.fresh u other hother
      exact ⟨by omega, hnew⟩
  apart := by
    have hlow : ∀ u other, u ≠ t → s'.pending u = some other → other.id ≠ sub.id := by
      intro u other hu hother
      rw [hpending, Function.update_of_ne hu] at hother
      have hle := (h.fresh u other hother).1
      omega
    have hown : ∀ other, s'.pending t = some other → other = sub := by
      intro other hother
      simpa [hpending, eq_comm] using hother
    intro u v other other' huv hu hv
    by_cases hut : u = t
    · subst hut
      rw [hown other hu]
      exact (hlow v other' huv.symm hv).symm
    · by_cases hvt : v = t
      · subst hvt
        rw [hown other' hv]
        exact hlow u other hut hu
      · rw [hpending, Function.update_of_ne hut] at hu
        rw [hpending, Function.update_of_ne hvt] at hv
        exact h.apart u v other other' huv hu hv

theorem Inv.adds (h : Inv es s) (hsub : s.pending t = some sub)
    (hsubs : s'.subscribers = s.subscribers ++ [sub])
    (hnext : s'.nextSubscriberId = s.nextSubscriberId)
    (hpending : s'.pending = Function.update s.pending t none) : Inv (es ++ [.added sub]) s' := by
  have hother : ∀ u other, s'.pending u = some other → u ≠ t ∧ s.pending u = some other := by
    intro u other hu
    rw [hpending] at hu
    by_cases hut : u = t
    · subst hut
      simp at hu
    · rw [Function.update_of_ne hut] at hu
      exact ⟨hut, hu⟩
  have hids : (es ++ [Event.added sub]).filterMap Event.added? =
      es.filterMap Event.added? ++ [sub.id] := by simp [Event.added?]
  obtain ⟨hle, hnew⟩ := h.fresh t sub hsub
  constructor
  case current =>
    rw [hsubs, h.current, roster, roster, List.foldl_append]
    rfl
  case distinct =>
    rw [hids]
    exact List.nodup_append.mpr ⟨h.distinct, List.nodup_singleton _,
      fun a ha b hb hab => hnew (List.mem_singleton.mp hb ▸ hab ▸ ha)⟩
  case bounded =>
    intro id hid
    rw [hids] at hid
    rcases List.mem_append.mp hid with hold | hlast
    · exact hnext ▸ h.bounded id hold
    · rw [List.mem_singleton.mp hlast, hnext]
      exact hle
  case fresh =>
    intro u other hu
    obtain ⟨hut, hu⟩ := hother u other hu
    obtain ⟨hle', hnew'⟩ := h.fresh u other hu
    refine ⟨hnext ▸ hle', fun hid => ?_⟩
    rw [hids] at hid
    rcases List.mem_append.mp hid with hold | hlast
    · exact hnew' hold
    · exact h.apart u t other sub hut hu hsub (List.mem_singleton.mp hlast)
  case apart =>
    intro u v other other' huv hu hv
    exact h.apart u v other other' huv (hother u other hu).2 (hother v other' hv).2

theorem Inv.step (h : Inv es s) (hcond : Undisturbed s a) (hstep : step s a = some (s', fs)) :
    Inv (es ++ fs) s' := by
  cases step_change hstep with
  | quiet hsubs hnext hpending hes =>
    obtain ⟨hfold, hadded⟩ := dispatched_only hes
    exact h.none_added (hsubs.trans hfold.symm) hadded hnext hpending
  | takes hid hsubs hnext hpending =>
    rw [List.append_nil]
    rw [Nat.mod_eq_of_lt hcond] at hid
    exact h.takes hid hsubs hnext hpending
  | adds htask hsubs hnext hpending =>
    obtain rfl := hcond _ (by rw [htask]; rfl)
    exact h.adds (by rw [pending, htask]; rfl) hsubs hnext hpending
  | removes htask hsubs hnext hpending =>
    obtain rfl := hcond _ (by rw [htask]; rfl)
    obtain ⟨hfold, hadded⟩ := dispatched_only mem_dispatched
    exact h.none_added (hsubs.trans hfold.symm) hadded hnext hpending
  | clears hsubs hnext hpending => exact h.none_added hsubs rfl hnext hpending

end

/-- No subscriber is lost and none comes back, in every run in which each list is
stored over the one it was loaded from. -/
theorem subscribers_kept (hcond : Transition.Along step Undisturbed {} actions)
    (hrun : Transition.run step {} actions = some (s, es)) : Kept es s.subscribers := by
  have hinv := Transition.run_traced Inv (fun _ _ _ _ _ => Inv.step) [] Inv.init hcond hrun
  rw [hinv.current]
  exact kept_roster hinv.distinct

/-- Two subscribers and a dispatch that drops one of them, each call by itself. -/
def calmCalls : List Action :=
  [.addSubscriber 0 { backpressure := .disconnectOnOverflow }, .advance 0 .ok, .advance 0 .ok,
    .addSubscriber 1 {}, .advance 1 .ok, .advance 1 .ok,
    .dispatchFrame 2 ⟨.video, true, false⟩, .advance 2 .full, .advance 2 .ok, .advance 2 .ok,
    .advance 2 .ok, .advance 2 .ok]

theorem subscribers_kept_calm :
    ∃ s es, Transition.run step {} calmCalls = some (s, es) ∧
      es = [.added ⟨1, .disconnectOnOverflow, {}, 0⟩, .added ⟨2, .dropDroppableFirst, {}, 1⟩,
        .removed {1}, .dispatched .accepted] ∧
      Kept es s.subscribers := by
  have hcond : Transition.Along step Undisturbed {} calmCalls := by decide
  exact ⟨_, _, rfl, by decide, subscribers_kept hcond rfl⟩

/-- The second of two additions stores over the first. -/
def overlappingAdds : List Action :=
  [.addSubscriber 0 {}, .addSubscriber 1 {}, .advance 0 .ok, .advance 1 .ok, .advance 0 .ok,
    .advance 1 .ok]

theorem overlapping_adds_lose_one :
    ¬ ∀ actions s es, Transition.run step {} actions = some (s, es) → Kept es s.subscribers := by
  intro h
  have hkept := h overlappingAdds _ _ rfl
  have hstays := hkept.stays [] ⟨1, .dropDroppableFirst, {}, 0⟩
    [.added ⟨2, .dropDroppableFirst, {}, 1⟩] rfl (by simp [Event.Drops])
  revert hstays
  decide

end DispatcherInner
end CheetahMedia.Engine
