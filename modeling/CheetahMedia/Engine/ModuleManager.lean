import CheetahMedia.Lib.Kahn
import Mathlib.Logic.Function.Basic

namespace CheetahMedia.Engine.ModuleManager
open Lib

abbrev ModuleId := String

inductive ModuleState
  | created | initialized | running | stopping | stopped | failed
deriving DecidableEq

inductive SdkError
  | notFound (what : String)
  | alreadyExists (what : String)
  | invalidArgument (what : String)
  | conflict (what : String)
  | unavailable (what : String)
  | internal (what : String)

def SdkError.display : SdkError → String
  | .notFound what => "not found: " ++ what
  | .alreadyExists what => "already exists: " ++ what
  | .invalidArgument what => "invalid argument: " ++ what
  | .conflict what => "conflict: " ++ what
  | .unavailable what => "unavailable: " ++ what
  | .internal what => "internal error: " ++ what

structure ModuleManifest where
  moduleId : ModuleId
  dependencies : List ModuleId

/-- The registered modules, in the order in which the map of the manifests is walked. -/
structure Registry where
  manifests : List ModuleManifest
  nodup : (manifests.map (·.moduleId)).Nodup

def Registry.ids (r : Registry) : List ModuleId := r.manifests.map (·.moduleId)

/-- From each dependency to the module that has it. -/
def Registry.edges (r : Registry) : List (ModuleId × ModuleId) :=
  r.manifests.flatMap fun manifest => manifest.dependencies.map (·, manifest.moduleId)

/-- An order in which a map with the modules for its keys is walked. -/
structure Registry.Walk (r : Registry) where
  keys : List ModuleId
  perm : keys.Perm r.ids

def topoOrder (r : Registry) (walk : r.Walk) : Except SdkError (List ModuleId) :=
  match r.edges.find? fun (dep, _) => dep ∉ r.ids with
  | some (dep, moduleId) =>
    .error (.invalidArgument ("module " ++ moduleId ++ " depends on missing module " ++ dep))
  | none =>
    let order := Kahn.sort r.edges walk.keys
    if order.length ≠ walk.keys.length then .error (.conflict "module dependency cycle detected")
    else .ok order

/-- What a module is called for. -/
inductive ModuleCall
  | init (moduleId : ModuleId)
  | start (moduleId : ModuleId)
  | stop (moduleId : ModuleId)
deriving DecidableEq

/-- What the modules' own calls return. -/
abbrev Outcomes := ModuleCall → Except SdkError Unit

/-- States and records of the modules, whether there is a runtime and a root token in it, and
the calls that were made since the engine was last started. -/
structure Manager where
  states : ModuleId → Option ModuleState
  records : ModuleId → Bool
  runtime : Option Bool
  calls : List (ModuleCall × Except SdkError Unit)

namespace Manager

def setState (s : Manager) (moduleId : ModuleId) (state : ModuleState) : Manager :=
  { s with states := Function.update s.states moduleId (some state) }

def ensureRecords (r : Registry) (s : Manager) : Manager :=
  { s with records := fun moduleId => s.records moduleId || moduleId ∈ r.ids }

def takeRecord (moduleId : ModuleId) (s : Manager) : Option Manager :=
  if s.records moduleId then some { s with records := Function.update s.records moduleId false }
  else none

def putRecord (moduleId : ModuleId) (s : Manager) : Manager :=
  { s with records := Function.update s.records moduleId true }

def call (ok : Outcomes) (c : ModuleCall) (s : Manager) : Manager :=
  { s with calls := s.calls ++ [(c, ok c)] }

def stopRecord (ok : Outcomes) (moduleId : ModuleId) (s : Manager) :
    Except SdkError Unit × Manager :=
  let s := (s.setState moduleId .stopping).call ok (.stop moduleId)
  match ok (.stop moduleId) with
  | .ok () => (.ok (), s.setState moduleId .stopped)
  | .error err => (.error err, s.setState moduleId .failed)

/-- One of the two passes over the modules: what a module is called for, the state it reaches,
and what a failure of the pass does to the runtime. -/
structure Phase where
  call : ModuleId → ModuleCall
  reached : ModuleState
  abandon : Option Bool → Option Bool

def clearRootCancel (runtime : Option Bool) : Option Bool := runtime.map fun _ => false

def initPhase : Phase where
  call := .init
  reached := .initialized
  abandon := id

def startPhase : Phase where
  call := .start
  reached := .running
  abandon := clearRootCancel

/-- `init_record` and `start_record`. -/
def enterRecord (p : Phase) (ok : Outcomes) (moduleId : ModuleId) (s : Manager) :
    Except SdkError Unit × Manager :=
  let s := s.call ok (p.call moduleId)
  match ok (p.call moduleId) with
  | .ok () => (.ok (), s.setState moduleId p.reached)
  | .error err => (.error err, s)

/-- Stops the modules from the last to the first; gives the failures. `rollback_initialized` and
`rollback_started`. -/
def rollback (ok : Outcomes) : List ModuleId → Manager → List String × Manager
  | [], s => ([], s)
  | moduleId :: rest, s =>
    match s.takeRecord moduleId with
    | none => rollback ok rest s
    | some s =>
      let (stopped, s) := s.stopRecord ok moduleId
      let (failures, s) := rollback ok rest (s.putRecord moduleId)
      match stopped with
      | .ok () => (failures, s)
      | .error err => ((moduleId ++ ": " ++ err.display) :: failures, s)

def detail (err : SdkError) (cleanup : Except SdkError Unit) (failures : List String) : String :=
  err.display ++
    (match cleanup with
      | .ok () => ""
      | .error stopErr => "; cleanup failed: " ++ stopErr.display) ++
    if failures = [] then "" else "; rollback failed: " ++ "; ".intercalate failures

/-- The loops of `init_all` and `start_all`, with the modules that are through. -/
def pass (p : Phase) (ok : Outcomes) :
    List ModuleId → List ModuleId → Manager → Except SdkError Unit × Manager
  | [], _, s => (.ok (), s)
  | moduleId :: rest, through, s =>
    match s.takeRecord moduleId with
    | none => (.error (.notFound ("module " ++ moduleId)), s)
    | some s =>
      match s.enterRecord p ok moduleId with
      | (.ok (), s) => pass p ok rest (through ++ [moduleId]) (s.putRecord moduleId)
      | (.error err, s) =>
        let (cleanup, s) := s.stopRecord ok moduleId
        let (failures, s) :=
          rollback ok through.reverse ((s.setState moduleId .failed).putRecord moduleId)
        (.error (.internal (detail err cleanup failures)), { s with runtime := p.abandon s.runtime })

def initAll (r : Registry) (walk : r.Walk) (ok : Outcomes) (s : Manager) :
    Except SdkError Unit × Manager :=
  let s := { s.ensureRecords r with runtime := some false }
  match topoOrder r walk with
  | .error err => (.error err, s)
  | .ok order => pass initPhase ok order [] s

def startAll (r : Registry) (walk : r.Walk) (ok : Outcomes) (s : Manager) :
    Except SdkError Unit × Manager :=
  match s.runtime with
  | none => (.error (.unavailable "module runtime context not initialized"), s)
  | some _ =>
    let s := { s with runtime := some true }
    match topoOrder r walk with
    | .error err => (.error err, s)
    | .ok order => pass startPhase ok order [] s

/-- Errors of a stop are dropped. -/
def stopAll (r : Registry) (walk : r.Walk) (ok : Outcomes) (s : Manager) : Manager :=
  let order := match topoOrder r walk with
    | .ok order => order
    | .error _ => walk.keys
  let (_, s) := rollback ok order.reverse s
  { s with runtime := clearRootCancel s.runtime }

end Manager

structure EngineState where
  live : Bool
  ready : Bool
  manager : Manager

def EngineState.new (r : Registry) : EngineState where
  live := false
  ready := false
  manager :=
    { states := fun moduleId => if moduleId ∈ r.ids then some .created else none,
      records := fun _ => false, runtime := none, calls := [] }

/-- The two passes walk maps of their own. -/
def EngineState.start (r : Registry) (initWalk startWalk : r.Walk) (ok : Outcomes) (e : EngineState) :
    Except SdkError Unit × EngineState :=
  if e.live then (.error (.conflict "engine is already running"), e)
  else
    match ({ e.manager with calls := [] } : Manager).initAll r initWalk ok with
    | (.error err, manager) => (.error err, { live := false, ready := false, manager })
    | (.ok (), manager) =>
      match manager.startAll r startWalk ok with
      | (.error err, manager) => (.error err, { live := false, ready := false, manager })
      | (.ok (), manager) => (.ok (), { live := true, ready := true, manager })

def EngineState.stop (r : Registry) (walk : r.Walk) (ok : Outcomes) (e : EngineState) : EngineState :=
  if e.live then { live := false, ready := false, manager := e.manager.stopAll r walk ok } else e

end CheetahMedia.Engine.ModuleManager
