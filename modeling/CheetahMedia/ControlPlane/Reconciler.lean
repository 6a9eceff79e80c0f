import CheetahMedia.ControlPlane.Error
import CheetahMedia.Lib.Transition
import Mathlib.Algebra.Group.Int.Defs
import Mathlib.Algebra.Group.Nat.Defs
import Mathlib.Data.List.Sort

namespace CheetahMedia.ControlPlane
open Lib

/-- The primary key of the tables of resources and of orphan marks. -/
structure ResourceKey where
  tenantId : String
  resourceKind : String
  resourceHandle : String
deriving DecidableEq

inductive ResourceState
  | pending
  | active
  | stopping
  | stopped
  | failed
  | unknown
deriving DecidableEq

def ResourceState.isTerminal : ResourceState → Bool
  | .stopped | .failed => true
  | _ => false

/-- What the reconciler reads of a resource. -/
structure ResourceRecord where
  key : ResourceKey
  mediaBindingId : Option String
  mediaNodeId : Option String
  state : ResourceState
  updatedAtMs : Int
deriving DecidableEq

structure OrphanRecord where
  key : ResourceKey
  markedAtMs : Int
  confirmed : Bool
  confirmedAtMs : Option Int

inductive AdminScope
  | node
  | reconcile
  | tls
  | store
  | orphan
deriving DecidableEq

inductive ReconcileScope
  | all
  | node
  | tenant
deriving DecidableEq

structure ReconcileLimits where
  maxMark : Nat := 100
  maxConfirm : Nat := 100
  gracePeriodMs : Int := 30000

/-- The arguments of `reconcile_scoped`. -/
structure Pass where
  nowMs : Int
  limits : ReconcileLimits
  scope : ReconcileScope := .all
  nodeId : Option String := none
  tenantId : Option String := none

/-- `saturating_sub` on 64 bits. -/
def saturatingSub (a b : Int) : Int := max (-2 ^ 63) (min (2 ^ 63 - 1) (a - b))

/-- `n.saturating_mul(4).max(n)` on 32 bits. -/
def overFetch (n : Nat) : Nat := max (min (n * 4) (2 ^ 32 - 1)) n

namespace Pass

def beforeMs (p : Pass) : Int := saturatingSub p.nowMs p.limits.gracePeriodMs

/-- Neither a scope nor a filter: `confirm_orphans` itself. -/
def plain (p : Pass) : Bool := p.scope == .all && p.nodeId.isNone && p.tenantId.isNone

def fetchMark (p : Pass) : Nat :=
  if p.scope = .all then p.limits.maxMark else overFetch p.limits.maxMark

def fetchConfirm (p : Pass) : Nat :=
  if p.plain then p.limits.maxConfirm else overFetch p.limits.maxConfirm

def matchesScope (p : Pass) (r : ResourceRecord) : Bool :=
  match p.scope with
  | .all => true
  | .tenant => (p.tenantId.map fun t => r.key.tenantId == t).getD false
  | .node =>
    (p.tenantId.map fun t => r.key.tenantId == t).getD true &&
      (p.nodeId.map fun n => r.mediaNodeId == some n).getD false

end Pass

namespace OrphanReconciler

/-- The loop of `mark_candidates`: what is left of its list, and its count. -/
structure Candidates where
  pass : Pass
  records : List ResourceRecord
  marked : Nat

/-- The loop of `confirm_orphans` and `confirm_orphans_scoped`. -/
structure Confirmations where
  pass : Pass
  orphans : List OrphanRecord
  marked : Nat
  confirmed : Nat

inductive Call
  | markOrphan (key : ResourceKey) (mediaBindingId : Option String) (nowMs : Int)
  | confirmOrphans (nowMs : Int) (limits : ReconcileLimits)
  | reconcileScoped (pass : Pass)
  | cleanupOrphan (scopes : List AdminScope) (key : ResourceKey)

/-- Where a task stands: before the store access that the name says. `mark_orphan` is
called by itself or from the loop over the candidates. -/
inductive Task
  | markGet (key : ResourceKey) (nowMs : Int) (caller : Option Candidates)
  | markInsert (key : ResourceKey) (nowMs : Int) (caller : Option Candidates)
  | listNonTerminal (pass : Pass)
  | getMark (loop : Candidates)
  | listUnconfirmed (pass : Pass) (marked : Nat)
  | getOrphaned (loop : Confirmations)
  | confirm (key : ResourceKey) (loop : Confirmations)
  | unmark (key : ResourceKey) (loop : Confirmations)
  | cleanupGet (key : ResourceKey)
  | cleanupGetMark (key : ResourceKey) (resource : Option ResourceRecord)
  | tombstone (key : ResourceKey) (marked : Bool)
  | cleanupUnmark (key : ResourceKey)
  | done

/-- A call, the next store access of a task (which may fail and may read the clock), or
something that happens to a resource. -/
inductive Action
  | call (c : Call)
  | advance (task : Nat) (clock : Int) (fails : Bool)
  | insert (r : ResourceRecord)
  | setState (key : ResourceKey) (state : ResourceState) (nowMs : Int)
  | rebind (key : ResourceKey) (mediaBindingId : Option String)

inductive Event
  | marked (key : ResourceKey) (nowMs : Int)
  | confirmed (key : ResourceKey) (nowMs gracePeriodMs : Int)
  | removed (key : ResourceKey)
  | tombstoned (r : ResourceRecord)
  | reported (marked confirmed : Nat)
  | cleaned
  | failed (error : ControlPlaneError)
deriving DecidableEq

end OrphanReconciler

open OrphanReconciler in
/-- Both tables and the tasks that work on them. -/
structure OrphanReconciler where
  resources : List ResourceRecord := []
  orphans : List OrphanRecord := []
  tasks : List OrphanReconciler.Task := []

namespace OrphanReconciler

/-! ### The stores -/

def get (s : OrphanReconciler) (key : ResourceKey) : Option ResourceRecord :=
  s.resources.find? (·.key = key)

def listNonTerminal (s : OrphanReconciler) (maxRecords : Nat) : List ResourceRecord :=
  ((s.resources.filter (!·.state.isTerminal)).insertionSort
    fun r r' => r.updatedAtMs ≤ r'.updatedAtMs).take maxRecords

def updateResource (s : OrphanReconciler) (key : ResourceKey)
    (f : ResourceRecord → ResourceRecord) : OrphanReconciler :=
  { s with resources := s.resources.map fun r => if r.key = key then f r else r }

def setState (s : OrphanReconciler) (key : ResourceKey) (state : ResourceState) (nowMs : Int) :
    OrphanReconciler :=
  s.updateResource key fun r => { r with state := state, updatedAtMs := nowMs }

def getOrphan (s : OrphanReconciler) (key : ResourceKey) : Option OrphanRecord :=
  s.orphans.find? (·.key = key)

def listUnconfirmedOlderThan (s : OrphanReconciler) (beforeMs : Int) (maxRecords : Nat) :
    List OrphanRecord :=
  ((s.orphans.filter fun o => !o.confirmed && decide (o.markedAtMs ≤ beforeMs)).insertionSort
    fun o o' => o.markedAtMs ≤ o'.markedAtMs).take maxRecords

/-- `INSERT OR IGNORE`. -/
def insertOrphan (s : OrphanReconciler) (key : ResourceKey) (nowMs : Int) :
    OrphanReconciler × List Event :=
  match s.getOrphan key with
  | some _ => (s, [])
  | none => ({ s with orphans := s.orphans ++ [⟨key, nowMs, false, none⟩] }, [.marked key nowMs])

def confirmOrphan (s : OrphanReconciler) (key : ResourceKey) (nowMs : Int) : OrphanReconciler :=
  { s with orphans := s.orphans.map fun o =>
      if o.key = key then { o with confirmed := true, confirmedAtMs := some nowMs } else o }

def removeOrphan (s : OrphanReconciler) (key : ResourceKey) : OrphanReconciler :=
  { s with orphans := s.orphans.filter (·.key ≠ key) }

/-! ### The reconciler -/

def become (s : OrphanReconciler) (t : Nat) (task : Task) : OrphanReconciler :=
  { s with tasks := s.tasks.set t task }

def fail (s : OrphanReconciler) (t : Nat) (error : ControlPlaneError) :
    OrphanReconciler × List Event :=
  (s.become t .done, [.failed error])

/-- `mark_orphan` returns; the loop counts it when it is no error. -/
def returnMark (s : OrphanReconciler) (t : Nat) : Option Candidates → Except ControlPlaneError Unit →
    OrphanReconciler × List Event
  | none, .ok () => (s.become t .done, [])
  | none, .error e => s.fail t e
  | some loop, .ok () => (s.become t (.getMark { loop with marked := loop.marked + 1 }), [])
  | some loop, .error _ => (s.become t (.getMark loop), [])

/-- The loop over the candidates up to its next store access that changes something. -/
def getMark (s : OrphanReconciler) (t : Nat) (loop : Candidates) : OrphanReconciler × List Event :=
  match loop.records with
  | [] => (s.become t (.listUnconfirmed loop.pass loop.marked), [])
  | r :: records =>
    let rest := { loop with records := records }
    if loop.pass.limits.maxMark ≤ loop.marked then
      (s.become t (.listUnconfirmed loop.pass loop.marked), [])
    else if !loop.pass.matchesScope r then (s.become t (.getMark rest), [])
    else if r.mediaBindingId.isSome || r.state.isTerminal then (s.become t (.getMark rest), [])
    else if (s.getOrphan r.key).isSome then (s.become t (.getMark rest), [])
    else (s.become t (.markGet r.key loop.pass.nowMs (some rest)), [])

def getOrphaned (s : OrphanReconciler) (t : Nat) (loop : Confirmations) :
    OrphanReconciler × List Event :=
  match loop.orphans with
  | [] => (s.become t .done, [.reported loop.marked loop.confirmed])
  | o :: orphans =>
    let rest := { loop with orphans := orphans }
    let pass := loop.pass
    if !pass.plain && decide (pass.limits.maxConfirm ≤ loop.confirmed) then
      (s.become t .done, [.reported loop.marked loop.confirmed])
    else if !(pass.tenantId.map fun tenant => o.key.tenantId == tenant).getD true then
      (s.become t (.getOrphaned rest), [])
    else
      match s.get o.key with
      | some r =>
        if !pass.matchesScope r then (s.become t (.getOrphaned rest), [])
        else if r.mediaBindingId.isNone && !r.state.isTerminal then
          (s.become t (.confirm o.key { rest with confirmed := loop.confirmed + 1 }), [])
        else (s.become t (.unmark o.key rest), [])
      | none =>
        if pass.scope = .node then (s.become t (.getOrphaned rest), [])
        else (s.become t (.unmark o.key rest), [])

/-- `cleanup_orphan` once it has read the resource and the mark. -/
def judge (s : OrphanReconciler) (t : Nat) (key : ResourceKey) (resource : Option ResourceRecord)
    (orphan : Option OrphanRecord) : OrphanReconciler × List Event :=
  let after := if orphan.isSome then Task.cleanupUnmark key else .done
  let cleaned := if orphan.isSome then [] else [Event.cleaned]
  let notEligible := ControlPlaneError.invalidArgument
    "resource is not an orphan or has not been confirmed"
  match resource, orphan with
  | none, none => (s.become t .done, [.cleaned])
  | some r, _ =>
    if r.mediaBindingId.isNone then
      if !r.state.isTerminal then (s.become t (.tombstone key orphan.isSome), [])
      else (s.become t after, cleaned)
    else s.fail t notEligible
  | none, some o => if o.confirmed then (s.become t after, cleaned) else s.fail t notEligible

/-- `tombstone` with the state `Failed`. -/
def tombstone (s : OrphanReconciler) (t : Nat) (clock : Int) (key : ResourceKey) (marked : Bool) :
    OrphanReconciler × List Event :=
  match s.get key with
  | none => s.fail t (.notFound "controlled resource not found")
  | some r =>
    ((s.setState key .failed clock).become t (if marked then .cleanupUnmark key else .done),
      .tombstoned r :: if marked then [] else [.cleaned])

def storeFailed : ControlPlaneError := .db "store access failed"

/-- The next store access of task `t`, when it succeeds. -/
def access (s : OrphanReconciler) (t : Nat) (clock : Int) : Task → Option (OrphanReconciler × List Event)
  | .markGet key nowMs caller => some <|
    match s.get key with
    | none => s.returnMark t caller (.error (.notFound "cannot mark missing resource as orphan"))
    | some r =>
      if r.state.isTerminal then s.returnMark t caller (.ok ())
      else if r.mediaBindingId.isSome then
        s.returnMark t caller
          (.error (.invalidArgument "resource regained a binding; cannot mark as orphan"))
      else (s.become t (.markInsert key nowMs caller), [])
  | .markInsert key nowMs caller =>
    let (s, es) := s.insertOrphan key nowMs
    let (s, fs) := s.returnMark t caller (.ok ())
    some (s, es ++ fs)
  | .listNonTerminal pass =>
    some (s.become t (.getMark ⟨pass, s.listNonTerminal pass.fetchMark, 0⟩), [])
  | .getMark loop => some (s.getMark t loop)
  | .listUnconfirmed pass marked =>
    some (s.become t (.getOrphaned ⟨pass, s.listUnconfirmedOlderThan pass.beforeMs pass.fetchConfirm,
      marked, 0⟩), [])
  | .getOrphaned loop => some (s.getOrphaned t loop)
  | .confirm key loop =>
    some ((s.confirmOrphan key loop.pass.nowMs).become t (.getOrphaned loop),
      [.confirmed key loop.pass.nowMs loop.pass.limits.gracePeriodMs])
  | .unmark key loop => some ((s.removeOrphan key).become t (.getOrphaned loop), [.removed key])
  | .cleanupGet key => some (s.become t (.cleanupGetMark key (s.get key)), [])
  | .cleanupGetMark key resource => some (s.judge t key resource (s.getOrphan key))
  | .tombstone key marked => some (s.tombstone t clock key marked)
  | .cleanupUnmark key => some ((s.removeOrphan key).become t .done, [.removed key, .cleaned])
  | .done => none

/-- The next store access of task `t`, when it fails: only the loop over the candidates
goes on. -/
def accessFailed (s : OrphanReconciler) (t : Nat) : Task → Option (OrphanReconciler × List Event)
  | .markGet _ _ caller | .markInsert _ _ caller =>
    some (s.returnMark t caller (.error storeFailed))
  | .done => none
  | _ => some (s.fail t storeFailed)

/-- A call up to its first store access. -/
def start : Call → Except ControlPlaneError Task
  | .markOrphan key mediaBindingId nowMs =>
    if mediaBindingId.isSome then
      .error (.invalidArgument "resource still has a binding; cannot mark as orphan")
    else .ok (.markGet key nowMs none)
  | .confirmOrphans nowMs limits => .ok (.listUnconfirmed { nowMs := nowMs, limits := limits } 0)
  | .reconcileScoped pass => .ok (.listNonTerminal pass)
  | .cleanupOrphan scopes key =>
    if .orphan ∉ scopes then .error (.permissionDenied "admin identity lacks Orphan scope")
    else .ok (.cleanupGet key)

def step : Transition OrphanReconciler Action Event
  | s, .call c =>
    match start c with
    | .ok task => some ({ s with tasks := s.tasks ++ [task] }, [])
    | .error e => some (s, [.failed e])
  | s, .advance t clock fails =>
    s.tasks[t]?.bind fun task => if fails then s.accessFailed t task else s.access t clock task
  | s, .insert r =>
    match s.get r.key with
    | some _ => some (s, [.failed (.conflict "controlled resource already exists")])
    | none => some ({ s with resources := s.resources ++ [r] }, [])
  | s, .setState key state nowMs => some (s.setState key state nowMs, [])
  | s, .rebind key mediaBindingId =>
    some (s.updateResource key fun r => { r with mediaBindingId := mediaBindingId }, [])

/-! ### Marks and their history -/

/-- The mark made at `m` is still there. -/
def MarkedAt (es : List Event) (key : ResourceKey) (m : Int) : Prop :=
  ∃ pre post, es = pre ++ .marked key m :: post ∧ .removed key ∉ post

/-- A mark was confirmed once the grace period had passed since it was made. -/
def Confirmed (es : List Event) (key : ResourceKey) : Prop :=
  ∃ pre m mid now grace post,
    es = pre ++ .marked key m :: (mid ++ .confirmed key now grace :: post) ∧
    .removed key ∉ mid ∧ grace ≤ now - m

/-- A resource that is tombstoned was marked and confirmed before, and has no binding. -/
def Safe (es : List Event) : Prop :=
  ∀ pre r post, es = pre ++ .tombstoned r :: post → Confirmed pre r.key ∧ r.mediaBindingId = none

/-- The resource exists and has no binding. -/
def Unbound (s : OrphanReconciler) (key : ResourceKey) : Prop :=
  ∃ r, s.get key = some r ∧ r.mediaBindingId = none

/-- The resource that a cleanup has read. -/
def Task.cleans : Task → Option ResourceKey
  | .cleanupGetMark key (some _) | .tombstone key _ => some key
  | _ => none

/-- The difference of clock and grace period is a 64-bit number, or too large for one. -/
def Unsaturated (p : Pass) : Prop := -2 ^ 63 ≤ p.nowMs - p.limits.gracePeriodMs

instance (p : Pass) : Decidable (Unsaturated p) :=
  inferInstanceAs (Decidable (-2 ^ 63 ≤ p.nowMs - p.limits.gracePeriodMs))

/-- What is known where a task stands. -/
def Sound (es : List Event) (s : OrphanReconciler) : Task → Prop
  | .getOrphaned loop | .confirm _ loop | .unmark _ loop => Unsaturated loop.pass
  | .cleanupGetMark key (some r) => r.mediaBindingId = none → s.Unbound key
  | .tombstone key _ => Confirmed es key ∧ s.Unbound key
  | _ => True

/-- A cleanup finds a confirmed mark, a confirmation finds the mark that was listed, and a
clock reading leaves room for the grace period. -/
def Task.Careful (s : OrphanReconciler) : Task → Prop
  | .cleanupGetMark key (some r) => r.mediaBindingId = none → r.state.isTerminal = false →
    ∃ o ∈ s.orphans, o.key = key ∧ o.confirmed = true
  | .confirm key loop => ∀ o ∈ s.orphans, o.key = key → o.markedAtMs ≤ loop.pass.beforeMs
  | .listUnconfirmed pass _ => Unsaturated pass
  | _ => True

instance (s : OrphanReconciler) : ∀ task : Task, Decidable (task.Careful s)
  | .cleanupGetMark key (some r) => inferInstanceAs (Decidable (r.mediaBindingId = none →
    r.state.isTerminal = false → ∃ o ∈ s.orphans, o.key = key ∧ o.confirmed = true))
  | .confirm key loop => inferInstanceAs (Decidable (∀ o ∈ s.orphans, o.key = key →
    o.markedAtMs ≤ loop.pass.beforeMs))
  | .listUnconfirmed pass _ => inferInstanceAs (Decidable (Unsaturated pass))
  | .cleanupGetMark _ none | .markGet _ _ _ | .markInsert _ _ _ | .listNonTerminal _ | .getMark _
  | .getOrphaned _ | .unmark _ _ | .cleanupGet _ | .tombstone _ _ | .cleanupUnmark _ | .done =>
    inferInstanceAs (Decidable True)

/-- Besides, no resource is bound while a cleanup that has read it goes on. -/
def Careful (s : OrphanReconciler) : Action → Prop
  | .advance t _ _ => ∀ task ∈ s.tasks[t]?, task.Careful s
  | .rebind key _ => ∀ task ∈ s.tasks, task.cleans ≠ some key
  | _ => True

instance (s : OrphanReconciler) : ∀ a, Decidable (s.Careful a)
  | .advance t _ _ => inferInstanceAs (Decidable (∀ task ∈ s.tasks[t]?, task.Careful s))
  | .rebind key _ => inferInstanceAs (Decidable (∀ task ∈ s.tasks, task.cleans ≠ some key))
  | .call _ | .insert _ | .setState _ _ _ => inferInstanceAs (Decidable True)

structure Inv (es : List Event) (s : OrphanReconciler) : Prop where
  marks : ∀ o ∈ s.orphans, MarkedAt es o.key o.markedAtMs
  confirmed : ∀ o ∈ s.orphans, o.confirmed = true → Confirmed es o.key
  sound : ∀ task ∈ s.tasks, Sound es s task
  safe : Safe es

theorem Inv.init : Inv [] {} where
  marks := List.forall_mem_nil _
  confirmed := List.forall_mem_nil _
  sound := List.forall_mem_nil _
  safe pre r post h := by simp at h

section
variable {s s' : OrphanReconciler} {es fs : List Event} {key : ResourceKey}

theorem MarkedAt.append (h : MarkedAt es key m) (hfs : .removed key ∉ fs) :
    MarkedAt (es ++ fs) key m := by
  obtain ⟨pre, post, rfl, hkept⟩ := h
  exact ⟨pre, post ++ fs, by simp, by simp [hkept, hfs]⟩

theorem Confirmed.append (h : Confirmed es key) : Confirmed (es ++ fs) key := by
  obtain ⟨pre, m, mid, now, grace, post, rfl, hrest⟩ := h
  exact ⟨pre, m, mid, now, grace, post ++ fs, by simp, hrest⟩

theorem MarkedAt.confirm (h : MarkedAt es key m) (hgrace : grace ≤ now - m) :
    Confirmed (es ++ [.confirmed key now grace]) key := by
  obtain ⟨pre, post, rfl, hkept⟩ := h
  exact ⟨pre, m, post, now, grace, [], by simp, hkept, hgrace⟩

theorem Safe.append (h : Safe es) (hfs : ∀ r, .tombstoned r ∉ fs) : Safe (es ++ fs) := by
  intro pre r post hsplit
  rcases List.append_eq_append_iff.mp hsplit with ⟨mid, rfl, hmid⟩ | ⟨mid, hes, hmid⟩
  · exact absurd (hmid ▸ List.mem_append_right _ List.mem_cons_self) (hfs r)
  · cases mid with
    | nil =>
      obtain rfl : .tombstoned r :: post = fs := hmid
      exact absurd List.mem_cons_self (hfs r)
    | cons e mid =>
      obtain ⟨rfl, -⟩ := List.cons.inj hmid
      exact h pre r mid hes

theorem Safe.tombstoned (h : Safe es) (hconfirmed : Confirmed es r.key)
    (hbinding : r.mediaBindingId = none) : Safe (es ++ [.tombstoned r]) := by
  intro pre r' post hsplit
  rcases List.eq_nil_or_concat post with rfl | ⟨post, e, rfl⟩
  · obtain ⟨rfl, heq⟩ := List.append_inj' hsplit rfl
    cases heq
    exact ⟨hconfirmed, hbinding⟩
  · rw [List.concat_eq_append, ← List.cons_append, ← List.append_assoc] at hsplit
    exact h pre r' post (List.append_inj' hsplit rfl).1

theorem Sound.mono (h : Sound es s task)
    (hunbound : ∀ key, task.cleans = some key → s.Unbound key → s'.Unbound key) :
    Sound (es ++ fs) s' task := by
  cases task with
  | cleanupGetMark key resource =>
    cases resource with
    | none => trivial
    | some r => exact fun hr => hunbound key rfl (h hr)
  | tombstone key marked => exact ⟨h.1.append, hunbound key rfl h.2⟩
  | getOrphaned loop => exact h
  | confirm key loop => exact h
  | unmark key loop => exact h
  | _ => trivial

/-- A step of the stores: the marks that are left, the tasks and the tombstones. -/
theorem Inv.extend (h : Inv es s) (htasks : s'.tasks = s.tasks)
    (hunbound : ∀ task ∈ s.tasks, ∀ key, task.cleans = some key → s.Unbound key → s'.Unbound key)
    (hmarks : ∀ o ∈ s'.orphans, MarkedAt (es ++ fs) o.key o.markedAtMs)
    (hconfirmed : ∀ o ∈ s'.orphans, o.confirmed = true → Confirmed (es ++ fs) o.key)
    (hsafe : Safe (es ++ fs)) : Inv (es ++ fs) s' where
  marks := hmarks
  confirmed := hconfirmed
  sound task htask := Sound.mono (h.sound task (htasks ▸ htask)) (hunbound task (htasks ▸ htask))
  safe := hsafe

theorem Inv.become (h : Inv es s) (hsound : Sound es s task) : Inv es (s.become t task) where
  marks := h.marks
  confirmed := h.confirmed
  sound := by
    intro other hother
    have hold : Sound es s other := by
      rcases List.mem_or_eq_of_mem_set hother with hmem | rfl
      · exact h.sound other hmem
      · exact hsound
    have hmono : Sound (es ++ []) (s.become t task) other := hold.mono fun _ _ => id
    rwa [List.append_nil] at hmono
  safe := h.safe

/-- Events that say nothing of marks, confirmations and tombstones. -/
def Event.quiet : Event → Bool
  | .reported _ _ | .cleaned | .failed _ => true
  | _ => false

/-- A step that only moves its task on. -/
theorem Inv.moves (h : Inv es s) (hquiet : ∀ e ∈ fs, e.quiet = true) (hsound : Sound es s task) :
    Inv (es ++ fs) (s.become t task) := by
  have hremoved : ∀ key, .removed key ∉ fs := fun key hmem => by cases hquiet _ hmem
  have htombstoned : ∀ r, .tombstoned r ∉ fs := fun r hmem => by cases hquiet _ hmem
  have hsilent : Inv (es ++ fs) s := h.extend rfl (fun _ _ _ _ => id)
    (fun o ho => (h.marks o ho).append (hremoved o.key)) (fun o ho hc => (h.confirmed o ho hc).append)
    (h.safe.append htombstoned)
  exact hsilent.become (hsound.mono fun _ _ => id)

theorem Inv.fail (h : Inv es s) (hr : s.fail t e = (s', fs)) : Inv (es ++ fs) s' := by
  cases hr
  exact h.moves (by simp [Event.quiet]) trivial

theorem Inv.returnMark (h : Inv es s) (hr : s.returnMark t caller result = (s', fs)) :
    Inv (es ++ fs) s' := by
  cases caller with
  | none =>
    cases result with
    | ok _ =>
      cases hr
      exact h.moves (List.forall_mem_nil _) trivial
    | error e => exact h.fail hr
  | some loop =>
    cases result with
    | ok _ =>
      cases hr
      exact h.moves (List.forall_mem_nil _) trivial
    | error e =>
      cases hr
      exact h.moves (List.forall_mem_nil _) trivial

theorem Inv.getMark {loop : Candidates} (h : Inv es s) (hr : s.getMark t loop = (s', fs)) : Inv (es ++ fs) s' := by
  unfold OrphanReconciler.getMark at hr
  split at hr
  · cases hr
    exact h.moves (List.forall_mem_nil _) trivial
  · simp only at hr
    repeat' split at hr
    all_goals
      cases hr
      exact h.moves (List.forall_mem_nil _) trivial

theorem Inv.getOrphaned {loop : Confirmations} (h : Inv es s) (hloop : Unsaturated loop.pass)
    (hr : s.getOrphaned t loop = (s', fs)) : Inv (es ++ fs) s' := by
  unfold OrphanReconciler.getOrphaned at hr
  split at hr
  · cases hr
    exact h.moves (by simp [Event.quiet]) trivial
  · simp only at hr
    repeat' split at hr
    all_goals
      cases hr
      exact h.moves (by simp [Event.quiet]) (by first | exact hloop | trivial)

theorem Inv.judge (h : Inv es s) (hsound : Sound es s (.cleanupGetMark key resource))
    (hcond : (Task.cleanupGetMark key resource).Careful s)
    (hr : s.judge t key resource (s.getOrphan key) = (s', fs)) : Inv (es ++ fs) s' := by
  have hafter : ∀ o : Option OrphanRecord, Sound es s (if o.isSome then .cleanupUnmark key else .done) := by
    intro o
    split <;> trivial
  have hquiet : ∀ o : Option OrphanRecord,
      ∀ e ∈ (if o.isSome then [] else [Event.cleaned]), e.quiet = true := by
    intro o
    split <;> simp [Event.quiet]
  cases resource with
  | none =>
    cases horphan : s.getOrphan key with
    | none =>
      simp only [horphan, OrphanReconciler.judge] at hr
      cases hr
      exact h.moves (by simp [Event.quiet]) trivial
    | some o =>
      simp only [horphan, OrphanReconciler.judge] at hr
      split at hr
      · cases hr
        exact h.moves (hquiet (some o)) (hafter (some o))
      · exact h.fail hr
  | some r =>
    simp only [OrphanReconciler.judge] at hr
    split at hr
    next hbinding =>
      have hnone : r.mediaBindingId = none := Option.isNone_iff_eq_none.mp hbinding
      split at hr
      next hstate =>
        cases hr
        obtain ⟨o, ho, hkey, hc⟩ := hcond hnone (by simpa using hstate)
        exact h.moves (List.forall_mem_nil _) ⟨hkey ▸ h.confirmed o ho hc, hsound hnone⟩
      next =>
        cases hr
        exact h.moves (hquiet _) (hafter _)
    next => exact h.fail hr

theorem get_updateResource {f : ResourceRecord → ResourceRecord} (hkey : ∀ r, (f r).key = r.key)
    (other key : ResourceKey) : (s.updateResource other f).get key =
      (s.get key).map fun r => if r.key = other then f r else r := by
  simp only [get, updateResource, List.find?_map]
  congr 2
  funext r
  by_cases h : r.key = other <;> simp [h, hkey]

theorem Unbound.update (h : s.Unbound key) {f : ResourceRecord → ResourceRecord}
    (hkey : ∀ r, (f r).key = r.key) (hbinding : ∀ r, (f r).mediaBindingId = r.mediaBindingId)
    (other : ResourceKey) : (s.updateResource other f).Unbound key := by
  obtain ⟨r, hget, hnone⟩ := h
  refine ⟨_, by rw [get_updateResource hkey, hget]; rfl, ?_⟩
  dsimp only
  split
  · exact (hbinding r).trans hnone
  · exact hnone

/-- What happens to the resources alone. -/
theorem Inv.resources (h : Inv es s) (htasks : s'.tasks = s.tasks) (horphans : s'.orphans = s.orphans)
    (hunbound : ∀ task ∈ s.tasks, ∀ key, task.cleans = some key → s.Unbound key → s'.Unbound key) :
    Inv es s' := by
  have hext : Inv (es ++ []) s' := h.extend htasks hunbound
    (fun o ho => by rw [List.append_nil]; exact h.marks o (horphans ▸ ho))
    (fun o ho hc => by rw [List.append_nil]; exact h.confirmed o (horphans ▸ ho) hc)
    (by rw [List.append_nil]; exact h.safe)
  rwa [List.append_nil] at hext

theorem Inv.setState (h : Inv es s) (key : ResourceKey) (state : ResourceState) (nowMs : Int) :
    Inv es (s.setState key state nowMs) :=
  h.resources rfl rfl fun _ _ _ _ hunbound =>
    hunbound.update (f := fun r => { r with state := state, updatedAtMs := nowMs })
      (fun _ => rfl) (fun _ => rfl) key

theorem Inv.tombstone (h : Inv es s) (hconfirmed : Confirmed es key) (hunbound : s.Unbound key)
    (hr : s.tombstone t clock key marked = (s', fs)) : Inv (es ++ fs) s' := by
  unfold OrphanReconciler.tombstone at hr
  split at hr
  next => exact h.fail hr
  next r hget =>
    cases hr
    have hkey : r.key = key := by simpa using List.find?_some hget
    obtain ⟨r', hget', hnone⟩ := hunbound
    obtain rfl : r = r' := Option.some.inj (hget.symm.trans hget')
    have hsafe := h.safe.tombstoned (hkey.symm ▸ hconfirmed) hnone
    have hset : Inv es (s.setState key .failed clock) := h.setState key .failed clock
    have hlogged : Inv (es ++ [.tombstoned r]) (s.setState key .failed clock) := hset.extend rfl
      (fun _ _ _ _ => id) (fun o ho => (hset.marks o ho).append (by simp))
      (fun o ho hc => (hset.confirmed o ho hc).append) hsafe
    rw [← List.singleton_append, ← List.append_assoc]
    refine hlogged.moves ?_ ?_
    · split <;> simp [Event.quiet]
    · split <;> trivial

theorem Inv.insertOrphan (h : Inv es s) (hr : s.insertOrphan key nowMs = (s', fs)) :
    Inv (es ++ fs) s' := by
  unfold OrphanReconciler.insertOrphan at hr
  split at hr
  next =>
    cases hr
    rw [List.append_nil]
    exact h
  next =>
    cases hr
    refine h.extend rfl (fun _ _ _ _ => id) ?_ ?_ (h.safe.append (by simp))
    · intro o ho
      rcases List.mem_append.mp ho with hold | hnew
      · exact (h.marks o hold).append (by simp)
      · obtain rfl := List.mem_singleton.mp hnew
        exact ⟨es, [], rfl, List.not_mem_nil⟩
    · intro o ho hc
      rcases List.mem_append.mp ho with hold | hnew
      · exact (h.confirmed o hold hc).append
      · obtain rfl := List.mem_singleton.mp hnew
        cases hc

theorem Inv.confirm (h : Inv es s)
    (hgrace : ∀ o ∈ s.orphans, o.key = key → grace ≤ now - o.markedAtMs) :
    Inv (es ++ [.confirmed key now grace]) (s.confirmOrphan key now) := by
  refine h.extend rfl (fun _ _ _ _ => id) ?_ ?_ (h.safe.append (by simp))
  · intro o ho
    obtain ⟨o₀, ho₀, rfl⟩ := List.mem_map.mp ho
    have hmark : MarkedAt (es ++ [.confirmed key now grace]) o₀.key o₀.markedAtMs :=
      (h.marks o₀ ho₀).append (by simp)
    split <;> exact hmark
  · intro o ho hc
    obtain ⟨o₀, ho₀, rfl⟩ := List.mem_map.mp ho
    by_cases hkey : o₀.key = key
    · subst hkey
      simpa using (h.marks o₀ ho₀).confirm (hgrace o₀ ho₀ rfl)
    · simp only [hkey, if_false] at hc ⊢
      exact (h.confirmed o₀ ho₀ hc).append

theorem Inv.remove (h : Inv es s) (key : ResourceKey) :
    Inv (es ++ [.removed key]) (s.removeOrphan key) := by
  refine h.extend rfl (fun _ _ _ _ => id) ?_ ?_ (h.safe.append (by simp))
  · intro o ho
    obtain ⟨hmem, hne⟩ := List.mem_filter.mp ho
    refine (h.marks o hmem).append fun hin => ?_
    obtain rfl : o.key = key := by simpa using hin
    simp at hne
  · intro o ho hc
    exact (h.confirmed o (List.mem_filter.mp ho).1 hc).append

theorem Inv.access (h : Inv es s) (hsound : Sound es s task) (hcond : task.Careful s)
    (hr : s.access t clock task = some (s', fs)) : Inv (es ++ fs) s' := by
  cases task with
  | markGet key nowMs caller =>
    obtain hr := Option.some.inj hr
    split at hr
    next => exact h.returnMark hr
    next =>
      split at hr
      · exact h.returnMark hr
      · split at hr
        · exact h.returnMark hr
        · cases hr
          exact h.moves (List.forall_mem_nil _) trivial
  | markInsert key nowMs caller =>
    obtain hr := Option.some.inj hr
    cases hr
    rw [← List.append_assoc]
    exact (h.insertOrphan rfl).returnMark rfl
  | listNonTerminal pass =>
    cases hr
    exact h.moves (List.forall_mem_nil _) trivial
  | getMark loop => exact h.getMark (Option.some.inj hr)
  | listUnconfirmed pass marked =>
    cases hr
    exact h.moves (List.forall_mem_nil _) hcond
  | getOrphaned loop => exact h.getOrphaned hsound (Option.some.inj hr)
  | confirm key loop =>
    cases hr
    refine (h.confirm fun o ho hkey => ?_).become hsound
    have hle := hcond o ho hkey
    have hroom : -2 ^ 63 ≤ loop.pass.nowMs - loop.pass.limits.gracePeriodMs := hsound
    simp only [Pass.beforeMs, saturatingSub] at hle
    omega
  | unmark key loop =>
    cases hr
    exact (h.remove key).become hsound
  | cleanupGet key =>
    cases hr
    refine h.moves (List.forall_mem_nil _) ?_
    cases hget : s.get key with
    | none => trivial
    | some r => exact fun hbinding => ⟨r, hget, hbinding⟩
  | cleanupGetMark key resource => exact h.judge hsound hcond (Option.some.inj hr)
  | tombstone key marked => exact h.tombstone hsound.1 hsound.2 (Option.some.inj hr)
  | cleanupUnmark key =>
    cases hr
    have hquiet : ∀ e ∈ [Event.cleaned], e.quiet = true := by simp [Event.quiet]
    rw [← List.singleton_append, ← List.append_assoc]
    have hsound : Sound (es ++ [.removed key]) (s.removeOrphan key) .done := trivial
    exact (h.remove key).moves hquiet hsound
  | done => cases hr

theorem Inv.accessFailed (h : Inv es s) (hr : s.accessFailed t task = some (s', fs)) :
    Inv (es ++ fs) s' := by
  cases task with
  | markGet key nowMs caller => exact h.returnMark (Option.some.inj hr)
  | markInsert key nowMs caller => exact h.returnMark (Option.some.inj hr)
  | done => cases hr
  | _ => exact h.fail (Option.some.inj hr)

theorem Inv.call (h : Inv es s) (hstart : start c = .ok task) :
    Inv es { s with tasks := s.tasks ++ [task] } where
  marks := h.marks
  confirmed := h.confirmed
  sound := by
    intro other hother
    have hold : Sound es s other := by
      rcases List.mem_append.mp hother with hmem | hnew
      · exact h.sound other hmem
      · obtain rfl := List.mem_singleton.mp hnew
        cases c with
        | cleanupOrphan scopes key =>
          simp only [start] at hstart
          split at hstart <;> cases hstart
          trivial
        | markOrphan key mediaBindingId nowMs =>
          simp only [start] at hstart
          split at hstart <;> cases hstart
          trivial
        | _ =>
          cases hstart
          trivial
    have hmono : Sound (es ++ []) { s with tasks := s.tasks ++ [task] } other :=
      hold.mono fun _ _ => id
    rwa [List.append_nil] at hmono
  safe := h.safe

theorem Inv.logs (h : Inv es s) (hquiet : ∀ e ∈ fs, e.quiet = true) : Inv (es ++ fs) s :=
  h.extend rfl (fun _ _ _ _ => id)
    (fun o ho => (h.marks o ho).append fun hmem => by cases hquiet _ hmem)
    (fun o ho hc => (h.confirmed o ho hc).append)
    (h.safe.append fun r hmem => by cases hquiet _ hmem)

theorem Inv.step (h : Inv es s) (hcond : s.Careful a) (hstep : step s a = some (s', fs)) :
    Inv (es ++ fs) s' := by
  cases a with
  | call c =>
    simp only [OrphanReconciler.step] at hstep
    split at hstep
    next hstart =>
      cases hstep
      rw [List.append_nil]
      exact h.call hstart
    next =>
      cases hstep
      exact h.logs (by simp [Event.quiet])
  | advance t clock fails =>
    obtain ⟨task, htask, haccess⟩ := Option.bind_eq_some_iff.mp hstep
    cases fails with
    | true => exact h.accessFailed haccess
    | false => exact h.access (h.sound task (List.mem_of_getElem? htask)) (hcond task htask) haccess
  | insert r =>
    simp only [OrphanReconciler.step] at hstep
    split at hstep
    next =>
      cases hstep
      exact h.logs (by simp [Event.quiet])
    next =>
      cases hstep
      rw [List.append_nil]
      refine h.resources rfl rfl ?_
      rintro task - key - ⟨r', hget, hnone⟩
      refine ⟨r', ?_, hnone⟩
      simp only [get] at hget ⊢
      rw [List.find?_append, hget]
      rfl
  | setState key state nowMs =>
    cases hstep
    rw [List.append_nil]
    exact h.setState key state nowMs
  | rebind key mediaBindingId =>
    cases hstep
    rw [List.append_nil]
    refine h.resources rfl rfl ?_
    rintro task htask other hcleans ⟨r, hget, hnone⟩
    have hkey : r.key = other := by simpa using List.find?_some hget
    have hne : r.key ≠ key := by
      rintro rfl
      exact hcond task htask (hkey ▸ hcleans)
    refine ⟨r, ?_, hnone⟩
    rw [get_updateResource (f := fun r => { r with mediaBindingId := mediaBindingId })
      fun _ => rfl, hget]
    simp [hne]

end

/-- Only marked and confirmed resources without a binding are tombstoned, in every run in
which cleanups find a confirmed mark and nothing changes under a cleanup or a
confirmation. -/
theorem cleanup_safe (hcond : Transition.Along step Careful {} actions)
    (hrun : Transition.run step {} actions = some (s, es)) : Safe es :=
  (Transition.run_traced Inv (fun _ _ _ _ _ => Inv.step) [] Inv.init hcond hrun).safe

def sampleKey : ResourceKey := ⟨"tenant-1", "publisher", "pub-1"⟩

def sampleResource : ResourceRecord := ⟨sampleKey, none, none, .active, 0⟩

/-- A pass marks, a pass after the grace period confirms, and the cleanup follows. -/
def lifecycle : List Action :=
  [.insert sampleResource,
    .call (.reconcileScoped { nowMs := 0, limits := { gracePeriodMs := 1000 } }),
    .advance 0 0 false, .advance 0 0 false, .advance 0 0 false, .advance 0 0 false,
    .advance 0 0 false,
    .call (.confirmOrphans 2000 { gracePeriodMs := 1000 }),
    .advance 1 0 false, .advance 1 0 false, .advance 1 0 false, .advance 1 0 false,
    .call (.cleanupOrphan [.orphan] sampleKey),
    .advance 2 0 false, .advance 2 0 false, .advance 2 3000 false, .advance 2 0 false]

theorem cleanup_safe_lifecycle :
    ∃ s es, Transition.run step {} lifecycle = some (s, es) ∧
      es = [.marked sampleKey 0, .confirmed sampleKey 2000 1000, .reported 0 1,
        .tombstoned sampleResource, .removed sampleKey, .cleaned] ∧ Safe es := by
  have hcond : Transition.Along step Careful {} lifecycle := by decide
  exact ⟨_, _, rfl, by decide, cleanup_safe hcond rfl⟩

/-- A resource that was never marked is cleaned up. -/
theorem cleanup_unmarked :
    ¬ ∀ actions s es, Transition.run step {} actions = some (s, es) → Safe es := by
  intro h
  have hsafe := h [.insert sampleResource, .call (.cleanupOrphan [.orphan] sampleKey),
    .advance 0 0 false, .advance 0 0 false, .advance 0 0 false] _ _ rfl
  obtain ⟨pre, m, mid, now, grace, post, hpre, -⟩ := (hsafe [] sampleResource [.cleaned] rfl).1
  simp at hpre

end OrphanReconciler
end CheetahMedia.ControlPlane
