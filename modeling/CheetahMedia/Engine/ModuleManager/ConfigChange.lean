import CheetahMedia.Config.Administration
import CheetahMedia.Engine.ModuleManager.Start
import CheetahMedia.Lib.Rollback

namespace CheetahMedia.Engine.ModuleManager
open Lib Config

/-- What a module runs with: its own settings and the global ones. -/
structure Settings where
  module : Value
  global : Value

/-- What the store gives a module that is initialised now. -/
def givenBy (store : ConfigState) (moduleId : ModuleId) : Settings where
  module := store.effectiveModule moduleId
  global := store.effectiveGlobal

/-- The modules and the settings that the instance in each record is under; a new instance
has none. -/
structure Modules where
  manager : Manager
  settings : ModuleId → Option Settings

/-- What modules answer in one round: to their changes, to the calls of a rebuild, and of an
instance that did not start to its stop. -/
structure Answers where
  applyConfig : ModuleConfigChange → Except SdkError ConfigEffect
  calls : Outcomes
  cleanup : Outcomes

structure ModuleConfigApplyReport where
  moduleId : ModuleId
  effect : ConfigEffect
deriving DecidableEq

inductive RebuildTarget
  | initialized | running
deriving DecidableEq

def ModuleState.debug : ModuleState → String
  | .created => "Created"
  | .initialized => "Initialized"
  | .running => "Running"
  | .stopping => "Stopping"
  | .stopped => "Stopped"
  | .failed => "Failed"

/-- The settings of a change, for an instance that takes it over. -/
def nextSettings (change : ModuleConfigChange) (held : Option Settings) : Settings where
  module := change.next
  global := change.nextGlobal.getD ((held.map (·.global)).getD .null)

/-- Only a change with immediate effect, or for new sessions, is under way when the module has
answered it. -/
def settle (change : ModuleConfigChange) (effect : ConfigEffect) (held : Option Settings) :
    Option Settings :=
  match effect with
  | .immediate | .newSessionsOnly => some (nextSettings change held)
  | .moduleRestartRequired | .engineRestartRequired => held

namespace Modules

def setSettings (moduleId : ModuleId) (settings : Option Settings) (s : Modules) : Modules :=
  { s with settings := Function.update s.settings moduleId settings }

/-- A module without a record gets a new instance. -/
def ensureRecords (r : Registry) (s : Modules) : Modules where
  manager := s.manager.ensureRecords r
  settings := fun moduleId => if s.manager.records moduleId then s.settings moduleId else none

def rebuildModule (r : Registry) (store : ConfigState) (answers : Answers) (moduleId : ModuleId)
    (target : RebuildTarget) (s : Modules) : Except SdkError Unit × Modules :=
  let s := s.ensureRecords r
  match s.manager.runtime with
  | none => (.error (.unavailable "module runtime context not initialized"), s)
  | some rootCancel =>
    if moduleId ∉ r.ids then (.error (.notFound ("module factory " ++ moduleId)), s)
    else match s.manager.takeRecord moduleId with
      | none => (.error (.notFound ("module " ++ moduleId)), s)
      | some manager =>
        match manager.stopRecord answers.calls moduleId with
        | (.error err, manager) =>
          (.error (.internal ("module rebuild stop failed: " ++ err.display)),
            { s with manager := manager.putRecord moduleId })
        | (.ok (), manager) =>
          match manager.enterRecord Manager.initPhase answers.calls moduleId with
          | (.error err, manager) =>
            (.error err, { s with manager := (manager.setState moduleId .failed).putRecord moduleId }
              |>.setSettings moduleId none)
          | (.ok (), manager) =>
            let s := s.setSettings moduleId (some (givenBy store moduleId))
            match target, rootCancel with
            | .initialized, _ => (.ok (), { s with manager := manager.putRecord moduleId })
            | .running, false =>
              (.error (.unavailable "root cancellation token not available"), { s with manager })
            | .running, true =>
              match manager.enterRecord Manager.startPhase answers.calls moduleId with
              | (.ok (), manager) => (.ok (), { s with manager := manager.putRecord moduleId })
              | (.error err, manager) =>
                let (cleanup, manager) := manager.stopRecord answers.cleanup moduleId
                (.error (match cleanup with
                  | .ok () => err
                  | .error stopErr => .internal ("module rebuild start failed: " ++ err.display ++
                      "; cleanup failed: " ++ stopErr.display)),
                  { s with manager := (manager.setState moduleId .failed).putRecord moduleId })

def rebuildTarget (moduleId : ModuleId) : Option ModuleState → Except SdkError RebuildTarget
  | none => .error (.notFound ("module " ++ moduleId))
  | some .running => .ok .running
  | some .initialized => .ok .initialized
  | some state => .error (.conflict ("module " ++ moduleId ++ " is in state " ++ state.debug ++
      ", restart required config can only apply to Running or Initialized module"))

def applyModuleConfigChange (r : Registry) (store : ConfigState) (answers : Answers)
    (change : ModuleConfigChange) (s : Modules) :
    Except SdkError ModuleConfigApplyReport × Modules :=
  let moduleId := change.moduleId
  match s.manager.takeRecord moduleId with
  | none => (.error (.notFound ("module " ++ moduleId)), s)
  | some manager =>
    let s := { s with manager := manager.putRecord moduleId }
    match answers.applyConfig change with
    | .error err => (.error err, s)
    | .ok effect =>
      let s := s.setSettings moduleId (settle change effect (s.settings moduleId))
      if effect = .moduleRestartRequired then
        match rebuildTarget moduleId (s.manager.states moduleId) with
        | .error err => (.error err, s)
        | .ok target =>
          match s.rebuildModule r store answers moduleId target with
          | (.error err, s) => (.error err, s)
          | (.ok (), s) => (.ok { moduleId, effect }, s)
      else (.ok { moduleId, effect }, s)

/-- The change that takes a change back. -/
def rollbackChange (change : ModuleConfigChange) : ModuleConfigChange where
  moduleId := change.moduleId
  previous := change.next
  next := change.previous
  previousGlobal := change.nextGlobal
  nextGlobal := change.previousGlobal

/-- The loop of `rollback_applied_changes`, over the changes from the last to the first. -/
def rollbackLoop (r : Registry) (store : ConfigState) (answers : Answers) :
    List ModuleConfigChange → Modules → List String × Modules
  | [], s => ([], s)
  | change :: rest, s =>
    match s.applyModuleConfigChange r store answers (rollbackChange change) with
    | (.ok _, s) => rollbackLoop r store answers rest s
    | (.error err, s) =>
      let (failures, s) := rollbackLoop r store answers rest s
      ((change.moduleId ++ ": " ++ err.display) :: failures, s)

def rollbackAppliedChanges (r : Registry) (store : ConfigState) (answers : Answers)
    (applied : List ModuleConfigChange) (s : Modules) : List String × Modules :=
  rollbackLoop r store answers applied.reverse s

/-- The changes by their modules, the last one for each. -/
def changesById (changes : List ModuleConfigChange) : ModuleMap ModuleConfigChange :=
  changes.foldl (fun byId change => byId.insert change.moduleId change) ∅

/-- Takes the changes of the modules of `order` out of the map. -/
def takeOrdered : List ModuleId → ModuleMap ModuleConfigChange →
    List ModuleConfigChange × ModuleMap ModuleConfigChange
  | [], byId => ([], byId)
  | moduleId :: rest, byId =>
    match byId.lookup moduleId with
    | none => takeOrdered rest byId
    | some change =>
      let (ordered, byId) := takeOrdered rest (byId.erase moduleId)
      (change :: ordered, byId)

/-- An order in which a map of changes is walked. -/
structure ChangeWalk where
  changes : ModuleMap ModuleConfigChange → List ModuleConfigChange
  perm : ∀ byId, (changes byId).Perm (byId.entries.map (·.2))

def orderedChanges (order : List ModuleId) (walk : ChangeWalk)
    (changes : List ModuleConfigChange) : List ModuleConfigChange :=
  let (ordered, byId) := takeOrdered order (changesById changes)
  ordered ++ walk.changes byId

/-- Applies the changes in order; where one fails, gives its error and the failures of taking
back those before it, to which modules answer `undoing`. -/
def changeModules (r : Registry) (store : ConfigState) (answers undoing : Answers)
    (ordered : List ModuleConfigChange) (s : Modules) :
    Except (SdkError × List String) (List ModuleConfigApplyReport) × Modules :=
  Compensation.attempt (applyModuleConfigChange r store answers)
    (rollbackAppliedChanges r store undoing) [] [] ordered s

def applyModuleConfigChanges (r : Registry) (walk : r.Walk) (changeWalk : ChangeWalk)
    (store : ConfigState) (answers undoing : Answers) (changes : List ModuleConfigChange)
    (s : Modules) : Except SdkError (List ModuleConfigApplyReport) × Modules :=
  if changes.isEmpty then (.ok [], s)
  else match topoOrder r walk with
    | .error err => (.error err, s)
    | .ok order =>
      match changeModules r store answers undoing (orderedChanges order changeWalk changes) s with
      | (.ok reports, s) => (.ok reports, s)
      | (.error (err, []), s) => (.error err, s)
      | (.error (err, failures), s) =>
        (.error (.internal ("apply module config changes failed: " ++ err.display ++
          "; rollback failed: " ++ "; ".intercalate failures)), s)

end Modules

inductive PatchReply
  | ok (version : Nat) (effect : ConfigEffect) (reports : List ModuleConfigApplyReport)
  | badRequest (error : String)
  | internalServerError (error : String)
deriving DecidableEq

/-- The configuration store and the modules, as the control plane has them. -/
structure ControlState where
  config : ConfigState
  modules : Modules

def ControlState.patchGlobalConfig (r : Registry) (walk : r.Walk) (changeWalk : Modules.ChangeWalk)
    (answers undoing : Answers) (patch : Value) (effect : ConfigEffect) (s : ControlState) :
    PatchReply × ControlState :=
  match s.config.applyGlobalPatch patch effect with
  | (.error err, config) => (.badRequest err.display, { s with config })
  | (.ok applied, config) =>
    if applied.effect = .engineRestartRequired then
      (.ok applied.version applied.effect [], { s with config })
    else match s.modules.applyModuleConfigChanges r walk changeWalk config answers undoing
        applied.moduleChanges with
      | (.ok reports, modules) =>
        (.ok applied.version applied.effect reports, { config, modules })
      | (.error err, modules) =>
        let config := match applied.rollbackToken with
          | some token => config.rollback token
          | none => config
        (.internalServerError ("module apply failed: " ++ err.display ++ "; config rolled back"),
          { config, modules })

end CheetahMedia.Engine.ModuleManager
