import CheetahMedia.ControlPlane.Error
import CheetahMedia.Lib.Transition
import Mathlib.Data.List.Basic

namespace CheetahMedia.ControlPlane
open Lib

inductive NodeState
  | disabled | binding | registering | active | draining | isolated | deregistering | stopped
deriving DecidableEq

def NodeState.debug : NodeState → String
  | .disabled => "Disabled"
  | .binding => "Binding"
  | .registering => "Registering"
  | .active => "Active"
  | .draining => "Draining"
  | .isolated => "Isolated"
  | .deregistering => "Deregistering"
  | .stopped => "Stopped"

inductive LeaseStatus
  | pending | active | expired | revoked
deriving DecidableEq

inductive LeaseLossReason
  | registryUnreachable | leaseExpired | leaseRevoked | contractVersionRejected
  | instanceReplaced | adminInitiated
deriving DecidableEq

structure MediaNodeLease where
  leaseId : String
  status : LeaseStatus
  deadlineMs : Int
  heartbeatIntervalMs : Nat
  acceptedInstanceEpoch : Nat

structure NodeIdentity where
  nodeId : String
  instanceId : String
  instanceEpoch : Nat

structure NodeRuntimeState where
  nodeId : String
  instanceId : String
  acceptedInstanceEpoch : Nat
  state : NodeState
  lease : MediaNodeLease

structure NodeRegistrationRequest where
  nodeIdentity : NodeIdentity
  previousLeaseId : Option String

structure NodeRegistrationResponse where
  instanceEpoch : Nat
  lease : MediaNodeLease

structure NodeHeartbeat where
  leaseId : String
  nodeId : String
  instanceId : String
  instanceEpoch : Nat
  drainState : NodeState

structure NodeHeartbeatResponse where
  lease : Option MediaNodeLease
  nextHeartbeatIntervalMs : Nat

structure NodeIsolateRequest where
  nodeId : String
  instanceId : String
  reason : LeaseLossReason
  force : Bool

structure NodeDeregisterRequest where
  nodeId : String
  instanceId : String
  reason : String

/-- What the supervisor keeps under its lock. -/
structure SupervisorInner where
  identity : NodeIdentity
  runtime : Option NodeRuntimeState := none
  nextHeartbeatIntervalMs : Nat := 5000
  lastRegisterAttemptMs : Int := 0
  registerBackoffMs : Nat := 1000
  drainDeadlineMs : Option Int := none

def placeholderRuntime (identity : NodeIdentity) (state : NodeState) : NodeRuntimeState where
  nodeId := identity.nodeId
  instanceId := identity.instanceId
  acceptedInstanceEpoch := identity.instanceEpoch
  state := state
  lease :=
    { leaseId := ""
      status := .pending
      deadlineMs := 0
      heartbeatIntervalMs := 5000
      acceptedInstanceEpoch := identity.instanceEpoch }

def I64_MAX : Int := 9223372036854775807

namespace SupervisorInner

/-- Disabled when not yet registered. -/
def state (g : SupervisorInner) : NodeState := (g.runtime.map (·.state)).getD .disabled

def setState (g : SupervisorInner) (state : NodeState) : SupervisorInner :=
  { g with runtime := g.runtime.map fun rt => { rt with state := state } }

/-- The first section of `register`. -/
def beginRegister (g : SupervisorInner) (now : Int) : Except ControlPlaneError SupervisorInner := do
  let g ← match g.state with
    | .disabled | .isolated =>
      pure { g with runtime := some (placeholderRuntime g.identity .binding) }
    | .active | .draining => throw (.conflict "node already registered")
    | .deregistering | .stopped => throw (.conflict "node is shutting down")
    | .binding | .registering => pure g
  return { g.setState .registering with lastRegisterAttemptMs := now }

def registrationRequest (g : SupervisorInner) : NodeRegistrationRequest where
  nodeIdentity := g.identity
  previousLeaseId := (g.runtime.map (·.lease.leaseId)).filter (· ≠ "")

def applyRegistration (g : SupervisorInner) (resp : NodeRegistrationResponse) : SupervisorInner where
  identity := { g.identity with instanceEpoch := resp.instanceEpoch }
  runtime := some
    { nodeId := g.identity.nodeId
      instanceId := g.identity.instanceId
      acceptedInstanceEpoch := resp.instanceEpoch
      state := .active
      lease := resp.lease }
  nextHeartbeatIntervalMs := max resp.lease.heartbeatIntervalMs 100
  lastRegisterAttemptMs := g.lastRegisterAttemptMs
  registerBackoffMs := 1000
  drainDeadlineMs := none

/-- The supervisor stays in `Registering`, so that the host can retry. -/
def registerFailed (g : SupervisorInner) : SupervisorInner :=
  { g.setState .registering with registerBackoffMs := min (2 * g.registerBackoffMs) 60000 }

def beginHeartbeat (g : SupervisorInner) : Except ControlPlaneError NodeHeartbeat :=
  match g.runtime with
  | none => throw (.unavailable "node is not registered")
  | some rt =>
    if rt.state = .active ∨ rt.state = .draining then
      return {
        leaseId := rt.lease.leaseId
        nodeId := rt.nodeId
        instanceId := rt.instanceId
        instanceEpoch := rt.acceptedInstanceEpoch
        drainState := rt.state }
    else throw (.unavailable s!"heartbeat not allowed in state {rt.state.debug}")

/-- The answer is stored, unless the lease it is for is no longer the node's. The
flag tells that another instance has taken the node over. -/
def applyHeartbeatResponse (g : SupervisorInner) (expectedLeaseId : String) (expectedEpoch : Nat)
    (resp : NodeHeartbeatResponse) : SupervisorInner × Bool :=
  match g.runtime with
  | none => (g, false)
  | some rt =>
    if rt.lease.leaseId ≠ expectedLeaseId ∨ rt.acceptedInstanceEpoch ≠ expectedEpoch then (g, false)
    else
      let replaced := resp.lease.any (·.acceptedInstanceEpoch != expectedEpoch)
      let rt := if replaced then rt else { rt with lease := resp.lease.getD rt.lease }
      let interval :=
        if resp.nextHeartbeatIntervalMs > 0 then resp.nextHeartbeatIntervalMs
        else g.nextHeartbeatIntervalMs
      ({ g with runtime := some rt, nextHeartbeatIntervalMs := interval }, replaced)

/-- The reason `check_lease` finds to isolate the node. -/
def leaseLoss (g : SupervisorInner) (now : Int) : Option LeaseLossReason :=
  match g.runtime with
  | none => none
  | some rt =>
    if rt.state = .active ∨ rt.state = .draining then
      if rt.lease.status = .revoked then some .leaseRevoked
      else if rt.lease.deadlineMs ≤ now then some .leaseExpired
      else none
    else none

def drain (g : SupervisorInner) (deadline : Int) : Except ControlPlaneError SupervisorInner :=
  match g.runtime with
  | none => throw (.unavailable "node is not registered")
  | some rt =>
    if rt.state = .stopped ∨ rt.state = .deregistering then throw (.conflict "node is shutting down")
    else return { g.setState .draining with drainDeadlineMs := some deadline }

/-- The lease is still valid at `now`. -/
def leaseValid (g : SupervisorInner) (now : Int) : Bool :=
  g.runtime.any fun rt => rt.lease.status = .active ∧ now < rt.lease.deadlineMs

/-- Back to `Active` with a valid lease, which opens the gate; else isolated. -/
def leaveDrain (g : SupervisorInner) (now : Int) :
    Except ControlPlaneError (SupervisorInner × Bool) :=
  match g.runtime with
  | none => throw (.unavailable "node is not registered")
  | some rt =>
    if rt.state ≠ .draining then throw (.conflict "node is not draining")
    else if g.leaseValid now then return ({ g.setState .active with drainDeadlineMs := none }, true)
    else return ({ g.setState .isolated with drainDeadlineMs := none }, false)

def isTarget (g : SupervisorInner) (request : NodeIsolateRequest) : Bool :=
  g.runtime.any fun rt => rt.nodeId = request.nodeId ∧ rt.instanceId = request.instanceId

/-- `none` when the node has stopped already. -/
def isolate (g : SupervisorInner) (request : NodeIsolateRequest) :
    Except ControlPlaneError (Option SupervisorInner) :=
  match g.runtime with
  | none => throw (.unavailable "node is not registered")
  | some rt =>
    if ¬ g.isTarget request then
      throw (.notFound "isolate target does not match this process")
    else if rt.state = .stopped then return none
    else
      let status :=
        if request.force ∨ request.reason ≠ .registryUnreachable then
          match request.reason with
          | .leaseRevoked => .revoked
          | .leaseExpired => .expired
          | _ => rt.lease.status
        else rt.lease.status
      return some { g with
        runtime := some { rt with state := .isolated, lease := { rt.lease with status := status } } }

/-- The request to isolate this node itself. -/
def isolateSelf (g : SupervisorInner) (reason : LeaseLossReason) : Option NodeIsolateRequest :=
  g.runtime.map fun rt => ⟨rt.nodeId, rt.instanceId, reason, true⟩

end SupervisorInner

namespace NodeSupervisor

/-- What an operation returns. -/
inductive Answer
  | unit
  | registered (resp : NodeRegistrationResponse)
  | heartbeat (resp : NodeHeartbeatResponse)
  | drained (deadline : Int)
  | isolated (state : NodeState)

/-- Who asked for an isolation. A heartbeat has its own answer and ignores the errors. -/
inductive Caller
  | host
  | checkLease
  | heartbeat (answer : Answer)

def Caller.result : Caller → Except ControlPlaneError Answer → Except ControlPlaneError Answer
  | .host, r => r
  | .checkLease, r => r.map fun _ => .unit
  | .heartbeat answer, _ => .ok answer

/-- A call, with what the clock shows to it. -/
inductive Call
  | register (now : Int)
  | heartbeat
  | applyHeartbeatResponse (leaseId : String) (epoch : Nat) (resp : NodeHeartbeatResponse)
  | checkLease (now : Int)
  | drain (deadline : Int)
  | leaveDrain (now : Int)
  | isolate (request : NodeIsolateRequest)
  | shutdown (reason : String) (now : Int)

/-- Where a task stands: before the section or the await that the name says. -/
inductive Task
  | closeForRegister
  | sendRegister
  | awaitRegister
  | awaitLoad (heartbeat : NodeHeartbeat)
  | awaitHeartbeat (heartbeat : NodeHeartbeat)
  | readReplaced (answer : Answer)
  | readLost (reason : LeaseLossReason)
  | isolate (request : NodeIsolateRequest) (caller : Caller)
  | setNodeGate (nodeGate : Bool) (result : Except ControlPlaneError Answer)
  | closeForShutdown (reason : String)
  | deregister (reason : String)
  | awaitDeregister
  | done

/-- What an await is answered with by the load provider or the registry. -/
inductive Reply
  | none
  | load (r : Except ControlPlaneError Unit)
  | registration (r : Except ControlPlaneError NodeRegistrationResponse)
  | heartbeat (r : Except ControlPlaneError NodeHeartbeatResponse)
  | deregistration (r : Except ControlPlaneError Unit)

inductive Action
  | call (c : Call)
  | advance (task : Nat) (reply : Reply)

/-- A request on its way to the registry. -/
inductive Message
  | register (request : NodeRegistrationRequest)
  | heartbeat (heartbeat : NodeHeartbeat)
  | deregister (request : NodeDeregisterRequest)

/-- What a task is seen to do. The reason is missing where `leave_drain` isolates. -/
inductive Event
  | issued (task : Nat)
  | entered (state : NodeState) (task : Nat)
  | isolated (reason : Option LeaseLossReason) (task : Nat)
  | sent (message : Message)
  | returned (task : Nat) (result : Except ControlPlaneError Answer)

end NodeSupervisor

/-- The supervisor, the gate of its capacity orchestrator, and the tasks that call it. -/
structure NodeSupervisor where
  inner : SupervisorInner
  nodeGate : Bool
  tasks : List NodeSupervisor.Task := []

namespace NodeSupervisor

def new (identity : NodeIdentity) (nodeGate : Bool) : NodeSupervisor where
  inner := { identity := identity }
  nodeGate := nodeGate

/-- What a task makes of the lock, what it does next, and what is seen of it. -/
abbrev Progress := SupervisorInner × Task × List Event

def finish (g : SupervisorInner) (t : Nat) (result : Except ControlPlaneError Answer) : Progress :=
  (g, .done, [.returned t result])

/-- A write to the state, which is none where there is no runtime state. -/
def wrote (g : SupervisorInner) (state : NodeState) (t : Nat) : List Event :=
  if g.runtime.isSome then [.entered state t] else []

/-- The section of `isolate`, as its caller runs it. -/
def isolateFor (g : SupervisorInner) (t : Nat) (request : NodeIsolateRequest) (caller : Caller) :
    Progress :=
  match g.isolate request with
  | .error e => finish g t (caller.result (.error e))
  | .ok none => finish g t (caller.result (.ok (.isolated .stopped)))
  | .ok (some g') =>
    (g', .setNodeGate false (caller.result (.ok (.isolated .isolated))),
      [.isolated (some request.reason) t])

/-- The section of `apply_heartbeat_response`, and the answer of its caller. -/
def heartbeatAnswered (g : SupervisorInner) (t : Nat) (leaseId : String) (epoch : Nat)
    (resp : NodeHeartbeatResponse) (answer : Answer) : Progress :=
  match g.applyHeartbeatResponse leaseId epoch resp with
  | (g', true) => (g', .readReplaced answer, [])
  | (g', false) => finish g' t (.ok answer)

/-- Runs a call up to its first await. -/
def begin (g : SupervisorInner) (t : Nat) : Call → Progress
  | .register now =>
    match g.beginRegister now with
    | .error e => finish g t (.error e)
    | .ok g' => (g', .closeForRegister, [.issued t, .entered .registering t])
  | .heartbeat =>
    match g.beginHeartbeat with
    | .error e => finish g t (.error e)
    | .ok hb => (g, .awaitLoad hb, [])
  | .applyHeartbeatResponse leaseId epoch resp => heartbeatAnswered g t leaseId epoch resp .unit
  | .checkLease now =>
    match g.leaseLoss now with
    | none => finish g t (.ok .unit)
    | some reason => (g, .readLost reason, [])
  | .drain deadline =>
    match g.drain deadline with
    | .error e => finish g t (.error e)
    | .ok g' => (g', .setNodeGate false (.ok (.drained deadline)), [.entered .draining t])
  | .leaveDrain now =>
    match g.leaveDrain now with
    | .error e => finish g t (.error e)
    | .ok (g', true) => (g', .setNodeGate true (.ok .unit), [.entered .active t])
    | .ok (g', false) => (g', .setNodeGate false (.ok .unit), [.isolated none t])
  | .isolate request => isolateFor g t request .host
  | .shutdown reason now =>
    match g.drain (min (now + 30000) I64_MAX) with
    | .error _ => (g, .deregister reason, [])
    | .ok g' => (g', .closeForShutdown reason, [.entered .draining t])

/-- Runs a task from where it stands to its next await, or to the next place where it
takes the lock. -/
def resume (g : SupervisorInner) (t : Nat) : Task → Reply → Option Progress
  | .closeForRegister, .none => some (g, .sendRegister, [])
  | .sendRegister, .none => some (g, .awaitRegister, [.sent (.register g.registrationRequest)])
  | .awaitRegister, .registration (.ok resp) =>
    some (g.applyRegistration resp, .setNodeGate true (.ok (.registered resp)), [.entered .active t])
  | .awaitRegister, .registration (.error e) =>
    some (g.registerFailed, .done, wrote g .registering t ++ [.returned t (.error e)])
  | .awaitLoad hb, .load (.ok ()) => some (g, .awaitHeartbeat hb, [.sent (.heartbeat hb)])
  | .awaitLoad _, .load (.error e) => some (finish g t (.error e))
  | .awaitHeartbeat hb, .heartbeat (.ok resp) =>
    some (heartbeatAnswered g t hb.leaseId hb.instanceEpoch resp (.heartbeat resp))
  | .awaitHeartbeat _, .heartbeat (.error e) => some (finish g t (.error e))
  | .readReplaced answer, .none =>
    match g.isolateSelf .instanceReplaced with
    | none => some (finish g t (.ok answer))
    | some request => some (g, .isolate request (.heartbeat answer), [])
  | .readLost reason, .none =>
    match g.isolateSelf reason with
    | none => some (finish g t (.ok .unit))
    | some request => some (g, .isolate request .checkLease, [])
  | .isolate request caller, .none => some (isolateFor g t request caller)
  | .setNodeGate _ result, .none => some (finish g t result)
  | .closeForShutdown reason, .none => some (g, .deregister reason, [])
  | .deregister reason, .none =>
    match g.runtime with
    | none => some (finish g t (.ok .unit))
    | some rt =>
      some (g.setState .deregistering, .awaitDeregister, [.entered .deregistering t,
        .sent (.deregister ⟨rt.nodeId, rt.instanceId, reason⟩)])
  | .awaitDeregister, .deregistration r =>
    some (g.setState .stopped, .setNodeGate false (r.map fun _ => .unit), wrote g .stopped t)
  | _, _ => none

/-- What a task sets the gate to when it next moves. -/
def Task.gate : Task → Option Bool
  | .closeForRegister | .closeForShutdown _ => some false
  | .setNodeGate nodeGate _ => some nodeGate
  | _ => none

def step : Transition NodeSupervisor Action Event
  | s, .call c =>
    let (g, task, es) := begin s.inner s.tasks.length c
    some ({ s with inner := g, tasks := s.tasks ++ [task] }, es)
  | s, .advance t reply => do
    let task ← s.tasks[t]?
    let (g, next, es) ← resume s.inner t task reply
    return ({
      inner := g
      nodeGate := task.gate.getD s.nodeGate
      tasks := s.tasks.set t next }, es)

def Event.silent : Event → Bool
  | .sent _ | .returned .. => true
  | _ => false

/-- The task is inside of `register`, its answer not yet applied. -/
def Task.registers : Task → Bool
  | .closeForRegister | .sendRegister | .awaitRegister => true
  | _ => false

/-- The task still has the gate to open. -/
def Task.opens (task : Task) : Bool := task.gate == some true

/-- The task still has the gate to close. -/
def Task.closes : Task → Bool
  | .awaitDeregister => true
  | task => task.gate == some false

def Call.drains : Call → Bool
  | .drain _ | .shutdown .. => true
  | _ => false

/-- The request that the section of `isolate` is about to apply, if it is for this node. -/
def isolates (s : NodeSupervisor) (a : Action) : Option NodeIsolateRequest :=
  let request := match a with
    | .call (.isolate request) => some request
    | .call _ => none
    | .advance t _ => s.tasks[t]?.bind fun
      | .isolate request _ => some request
      | _ => none
  request.filter s.inner.isTarget

/-- The tasks with the one that a call adds. -/
def started (s : NodeSupervisor) : Action → List Task
  | .call _ => s.tasks ++ [.done]
  | .advance .. => s.tasks

/-- All that a step can do to the lifecycle state and to the gate. -/
inductive Moves (s : NodeSupervisor) (a : Action) (t : Nat) (old : Task) :
    SupervisorInner → Bool → Task → List Event → Prop
  | quiet (state : g.state = s.inner.state) (gate : old.gate = none)
      (silent : ∀ e ∈ es, e.silent) (registers : next.registers → old.registers)
      (opens : next.opens = false) (closes : old.closes → next.closes) :
      Moves s a t old g s.nodeGate next es
  | gate (gate : old.gate = some b) (silent : ∀ e ∈ es, e.silent)
      (registers : next.registers → old.registers) (opens : next.opens = false) :
      Moves s a t old s.inner b next es
  | register (before : s.inner.state = .disabled ∨ s.inner.state = .binding ∨
        s.inner.state = .registering ∨ s.inner.state = .isolated)
      (was : old = .done) (state : g.state = .registering) :
      Moves s a t old g s.nodeGate .closeForRegister [.issued t, .entered .registering t]
  | accept (action : a = .advance t (.registration (.ok resp))) (was : old = .awaitRegister) :
      Moves s a t old (s.inner.applyRegistration resp) s.nodeGate (.setNodeGate true result)
        [.entered .active t]
  | refuse (action : a = .advance t (.registration (.error e))) (was : old = .awaitRegister)
      (state : g.state = .registering) :
      Moves s a t old g s.nodeGate .done [.entered .registering t, .returned t (.error e)]
  | drain (action : a = .call c) (drains : c.drains)
      (running : s.inner.state ≠ .stopped ∧ s.inner.state ≠ .deregistering)
      (was : old = .done) (state : g.state = .draining) (registers : next.registers = false)
      (closes : next.gate = some false) :
      Moves s a t old g s.nodeGate next [.entered .draining t]
  | leave (action : a = .call (.leaveDrain now)) (draining : s.inner.state = .draining)
      (valid : s.inner.leaseValid now) (was : old = .done) (state : g.state = .active) :
      Moves s a t old g s.nodeGate (.setNodeGate true result) [.entered .active t]
  | lapse (draining : s.inner.state = .draining) (was : old = .done) (state : g.state = .isolated) :
      Moves s a t old g s.nodeGate (.setNodeGate false result) [.isolated none t]
  | isolate (action : s.isolates a = some request) (running : s.inner.state ≠ .stopped)
      (was : old.gate = none ∧ old.closes = false) (state : g.state = .isolated) :
      Moves s a t old g s.nodeGate (.setNodeGate false result) [.isolated (some request.reason) t]
  | deregister (action : a = .advance t .none) (was : old = .deregister reason)
      (state : g.state = .deregistering) :
      Moves s a t old g s.nodeGate .awaitDeregister [.entered .deregistering t, .sent message]
  | stop (action : a = .advance t (.deregistration r)) (was : old = .awaitDeregister)
      (state : g.state = .stopped) :
      Moves s a t old g s.nodeGate (.setNodeGate false result) [.entered .stopped t]

section
variable {g g' : SupervisorInner} {s s' : NodeSupervisor} {t : Nat}

theorem state_of_runtime (h : g.runtime = some rt) : g.state = rt.state := by
  simp [SupervisorInner.state, h]

theorem setState_state (h : g.runtime.isSome) : (g.setState x).state = x := by
  obtain ⟨rt, h⟩ := Option.isSome_iff_exists.mp h
  simp [SupervisorInner.state, SupervisorInner.setState, h]

theorem setState_none (h : g.runtime = none) : (g.setState x).state = g.state := by
  simp [SupervisorInner.state, SupervisorInner.setState, h]

theorem runtime_of_state (h : g.state ≠ .disabled) : g.runtime.isSome := by
  cases hg : g.runtime with
  | none => simp [SupervisorInner.state, hg] at h
  | some rt => rfl

theorem beginRegister_spec (h : g.beginRegister now = .ok g') : g'.state = .registering ∧
    (g.state = .disabled ∨ g.state = .binding ∨ g.state = .registering ∨ g.state = .isolated) := by
  cases hs : g.state <;> simp only [SupervisorInner.beginRegister, hs] at h <;> cases h
  · exact ⟨rfl, .inl rfl⟩
  · exact ⟨setState_state (runtime_of_state (by simp [hs])), .inr (.inl rfl)⟩
  · exact ⟨setState_state (runtime_of_state (by simp [hs])), .inr (.inr (.inl rfl))⟩
  · exact ⟨rfl, .inr (.inr (.inr rfl))⟩

theorem applyHeartbeatResponse_state :
    (g.applyHeartbeatResponse leaseId epoch resp).1.state = g.state := by
  unfold SupervisorInner.applyHeartbeatResponse
  cases hg : g.runtime with
  | none => rfl
  | some rt =>
    rw [state_of_runtime hg]
    dsimp only
    split
    · exact state_of_runtime hg
    · split <;> rfl

theorem drain_spec (h : g.drain deadline = .ok g') :
    g'.state = .draining ∧ g.state ≠ .stopped ∧ g.state ≠ .deregistering := by
  unfold SupervisorInner.drain at h
  cases hg : g.runtime with
  | none =>
    rw [hg] at h
    cases h
  | some rt =>
    rw [hg] at h
    dsimp only at h
    split at h
    · cases h
    · rename_i hrunning
      cases h
      rw [state_of_runtime hg]
      exact ⟨setState_state (by simp [hg]), fun h => hrunning (.inl h), fun h => hrunning (.inr h)⟩

theorem leaveDrain_spec (h : g.leaveDrain now = .ok (g', valid)) :
    g.state = .draining ∧ valid = g.leaseValid now ∧
      g'.state = if valid then .active else .isolated := by
  unfold SupervisorInner.leaveDrain at h
  cases hg : g.runtime with
  | none =>
    rw [hg] at h
    cases h
  | some rt =>
    rw [hg] at h
    dsimp only at h
    split at h
    · cases h
    · rename_i hdraining
      split at h
      · rename_i hvalid
        cases h
        exact ⟨(state_of_runtime hg).trans (not_not.mp hdraining), hvalid.symm,
          setState_state (by simp [hg])⟩
      · rename_i hvalid
        cases h
        exact ⟨(state_of_runtime hg).trans (not_not.mp hdraining), by simpa using hvalid,
          setState_state (by simp [hg])⟩

theorem isolate_spec (h : g.isolate request = .ok (some g')) :
    g'.state = .isolated ∧ g.isTarget request ∧ g.state ≠ .stopped := by
  unfold SupervisorInner.isolate at h
  cases hg : g.runtime with
  | none =>
    rw [hg] at h
    cases h
  | some rt =>
    rw [hg] at h
    dsimp only at h
    split at h
    · cases h
    · rename_i htarget
      split at h
      · cases h
      · rename_i hrunning
        cases h
        exact ⟨rfl, not_not.mp htarget, state_of_runtime hg ▸ hrunning⟩

/-- A task that ends without touching the state of the node. -/
theorem Moves.finish (hstate : g.state = s.inner.state) (hgate : old.gate = none)
    (hcloses : old.closes = false) (h : finish g t result = (g', next, es)) :
    Moves s a t old g' s.nodeGate next es := by
  cases h
  exact .quiet hstate hgate (by simp [Event.silent]) (by simp [Task.registers]) rfl (by simp [hcloses])

theorem Moves.still (hgate : old.gate = none) (hcloses : old.closes = false)
    (hnext : next.registers = false) (hopens : next.opens = false) :
    Moves s a t old s.inner s.nodeGate next [] :=
  .quiet rfl hgate (List.forall_mem_nil _) (by simp [hnext]) hopens (by simp [hcloses])

theorem isolateFor_moves (h : isolateFor s.inner t request caller = (g, next, es))
    (ha : s.inner.isTarget request → s.isolates a = some request)
    (hgate : old.gate = none) (hcloses : old.closes = false) :
    Moves s a t old g s.nodeGate next es := by
  unfold isolateFor at h
  split at h
  · exact .finish rfl hgate hcloses h
  · exact .finish rfl hgate hcloses h
  · rename_i g' hi
    obtain ⟨hstate, htarget, hrunning⟩ := isolate_spec hi
    cases h
    exact .isolate (ha htarget) hrunning ⟨hgate, hcloses⟩ hstate

theorem heartbeatAnswered_moves
    (h : heartbeatAnswered s.inner t leaseId epoch resp answer = (g, next, es))
    (hgate : old.gate = none) (hcloses : old.closes = false) :
    Moves s a t old g s.nodeGate next es := by
  have hstate : (s.inner.applyHeartbeatResponse leaseId epoch resp).1.state = s.inner.state :=
    applyHeartbeatResponse_state
  unfold heartbeatAnswered at h
  split at h
  · rename_i g' hr
    rw [hr] at hstate
    cases h
    exact .quiet hstate hgate (List.forall_mem_nil _) (by simp [Task.registers]) rfl (by simp [hcloses])
  · rename_i g' hr
    rw [hr] at hstate
    exact .finish hstate hgate hcloses h

theorem begin_moves (h : begin s.inner s.tasks.length c = (g, next, es)) :
    Moves s (.call c) s.tasks.length .done g s.nodeGate next es := by
  cases c with
  | register now =>
    simp only [begin] at h
    split at h
    · exact .finish rfl rfl rfl h
    · rename_i g' hr
      obtain ⟨hstate, hbefore⟩ := beginRegister_spec hr
      cases h
      exact .register hbefore rfl hstate
  | heartbeat =>
    simp only [begin] at h
    split at h
    · exact .finish rfl rfl rfl h
    · cases h
      exact .still rfl rfl rfl rfl
  | applyHeartbeatResponse leaseId epoch resp => exact heartbeatAnswered_moves h rfl rfl
  | checkLease now =>
    simp only [begin] at h
    split at h
    · exact .finish rfl rfl rfl h
    · cases h
      exact .still rfl rfl rfl rfl
  | drain deadline =>
    simp only [begin] at h
    split at h
    · exact .finish rfl rfl rfl h
    · rename_i g' hd
      obtain ⟨hstate, hrunning⟩ := drain_spec hd
      cases h
      exact .drain rfl rfl hrunning rfl hstate rfl rfl
  | leaveDrain now =>
    simp only [begin] at h
    split at h
    · exact .finish rfl rfl rfl h
    · rename_i g' hl
      obtain ⟨hdraining, hvalid, hstate⟩ := leaveDrain_spec hl
      cases h
      exact .leave rfl hdraining hvalid.symm rfl hstate
    · rename_i g' hl
      obtain ⟨hdraining, -, hstate⟩ := leaveDrain_spec hl
      cases h
      exact .lapse hdraining rfl hstate
  | isolate request =>
    exact isolateFor_moves h (fun htarget => by simp [isolates, htarget]) rfl rfl
  | shutdown reason now =>
    simp only [begin] at h
    split at h
    · cases h
      exact .still rfl rfl rfl rfl
    · rename_i g' hd
      obtain ⟨hstate, hrunning⟩ := drain_spec hd
      cases h
      exact .drain rfl rfl hrunning rfl hstate rfl rfl

theorem resume_moves (h : resume s.inner t task reply = some (g, next, es))
    (ht : s.tasks[t]? = some task) :
    Moves s (.advance t reply) t task g (task.gate.getD s.nodeGate) next es := by
  unfold resume at h
  split at h
  -- register
  · cases h
    exact .gate rfl (List.forall_mem_nil _) (fun _ => rfl) rfl
  · cases h
    exact .quiet rfl rfl (by simp [Event.silent]) (fun _ => rfl) rfl (by simp [Task.closes, Task.gate])
  · cases h
    exact .accept rfl rfl
  · cases h
    cases hg : s.inner.runtime with
    | none =>
      simp only [wrote, hg]
      exact .quiet (setState_none hg) rfl (by simp [Event.silent]) (by simp [Task.registers]) rfl
        (by simp [Task.closes, Task.gate])
    | some rt =>
      simp only [wrote, hg]
      exact .refuse rfl rfl (setState_state (by simp [hg]))
  -- heartbeat
  · cases h
    exact .quiet rfl rfl (by simp [Event.silent]) (by simp [Task.registers]) rfl
      (by simp [Task.closes, Task.gate])
  · exact .finish rfl rfl rfl (Option.some.inj h)
  · exact heartbeatAnswered_moves (Option.some.inj h) rfl rfl
  · exact .finish rfl rfl rfl (Option.some.inj h)
  · split at h
    · exact .finish rfl rfl rfl (Option.some.inj h)
    · cases h
      exact .still rfl rfl rfl rfl
  -- check_lease
  · split at h
    · exact .finish rfl rfl rfl (Option.some.inj h)
    · cases h
      exact .still rfl rfl rfl rfl
  · rename_i request caller
    exact isolateFor_moves (Option.some.inj h) (fun htarget => by simp [isolates, ht, htarget]) rfl rfl
  · cases h
    exact .gate rfl (by simp [Event.silent]) (by simp [Task.registers]) rfl
  -- shutdown
  · cases h
    exact .gate rfl (List.forall_mem_nil _) (by simp [Task.registers]) rfl
  · split at h
    · exact .finish rfl rfl rfl (Option.some.inj h)
    · rename_i rt hg
      cases h
      exact .deregister rfl rfl (setState_state (by simp [hg]))
  · cases h
    cases hg : s.inner.runtime with
    | none =>
      simp only [wrote, hg]
      exact .quiet (setState_none hg) rfl (List.forall_mem_nil _) (by simp [Task.registers]) rfl
        (fun _ => rfl)
    | some rt =>
      simp only [wrote, hg]
      exact .stop rfl rfl (setState_state (by simp [hg]))
  · cases h

/-- A step moves one task, which a call has first put at the end. -/
theorem step_moves (h : step s a = some (s', es)) : ∃ t old next,
    (s.started a)[t]? = some old ∧ s'.tasks = (s.started a).set t next ∧
      Moves s a t old s'.inner s'.nodeGate next es := by
  cases a with
  | call c =>
    cases h
    refine ⟨s.tasks.length, .done, _, ?_, ?_, begin_moves rfl⟩
    · simp [started]
    · simp [started]
  | advance t reply =>
    simp only [step, bind, Option.bind_eq_some_iff] at h
    obtain ⟨task, ht, ⟨g, next, es'⟩, hr, h⟩ := h
    cases h
    exact ⟨t, task, next, ht, rfl, resume_moves hr ht⟩

end

def grantedLease : MediaNodeLease where
  leaseId := "lease"
  status := .active
  deadlineMs := 10000
  heartbeatIntervalMs := 2000
  acceptedInstanceEpoch := 7

/-- A call of `register` that the registry accepts, made as the task of that number. -/
def registered (t : Nat) : List Action :=
  [.call (.register 0), .advance t .none, .advance t .none,
    .advance t (.registration (.ok ⟨7, grantedLease⟩)), .advance t .none]

def mediaNode : NodeIdentity := ⟨"node", "instance", 0⟩

end NodeSupervisor
end CheetahMedia.ControlPlane
