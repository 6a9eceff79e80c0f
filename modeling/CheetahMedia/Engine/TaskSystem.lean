import CheetahMedia.Engine.Error
import CheetahMedia.Lib.Workers
import Mathlib.Logic.Function.Basic

namespace CheetahMedia.Engine
open Lib

namespace TaskSystem

abbrev TaskId := Nat

inductive TaskKind
  | task | job | work | channel
deriving DecidableEq

def TaskKind.debug : TaskKind → String
  | .task => "Task"
  | .job => "Job"
  | .work => "Work"
  | .channel => "Channel"

inductive TaskState
  | running | stopping | stopped | succeeded | failed
deriving DecidableEq

inductive TaskOutcome
  | succeeded
  | failed (message : String)
  | cancelled (reason : Option String)

inductive TaskTerminalOutcome
  | succeeded | failed | cancelled
deriving DecidableEq

def isTerminalState : TaskState → Bool
  | .succeeded | .failed | .stopped => true
  | .running | .stopping => false

structure TaskSnapshot where
  parentId : Option TaskId
  kind : TaskKind
  state : TaskState
  terminalOutcome : Option TaskTerminalOutcome
  level : Nat
  childIds : List TaskId
  cancelReason : Option String
  finishMessage : Option String

inductive TaskEventKind
  | created | cancelling | finished
deriving DecidableEq

structure TaskEvent where
  taskId : TaskId
  kind : TaskEventKind
  state : TaskState
  terminalOutcome : Option TaskTerminalOutcome
  message : Option String

structure TerminalTransition where
  parentId : Option TaskId
  state : TaskState
  terminalOutcome : TaskTerminalOutcome
  message : Option String

def TerminalTransition.event (t : TerminalTransition) (taskId : TaskId) : TaskEvent where
  taskId
  kind := .finished
  state := t.state
  terminalOutcome := some t.terminalOutcome
  message := t.message

end TaskSystem

/-- The tasks, and how many hold the read lock of a task from one step to the next. -/
structure TaskSystem where
  nextId : Nat
  tasks : TaskSystem.TaskId → Option TaskSystem.TaskSnapshot
  readers : TaskSystem.TaskId → Nat

namespace TaskSystem

def new : TaskSystem where
  nextId := 0
  tasks := fun _ => none
  readers := fun _ => 0

def set (s : TaskSystem) (taskId : TaskId) (snapshot : TaskSnapshot) : TaskSystem :=
  { s with tasks := Function.update s.tasks taskId (some snapshot) }

def lockRead (s : TaskSystem) (taskId : TaskId) : TaskSystem :=
  { s with readers := Function.update s.readers taskId (s.readers taskId + 1) }

def unlockRead (s : TaskSystem) (taskId : TaskId) : TaskSystem :=
  { s with readers := Function.update s.readers taskId (s.readers taskId - 1) }

def notFound (taskId : TaskId) : SdkError := .notFound ("task " ++ toString taskId)

def terminal : TaskOutcome → TaskState × TaskTerminalOutcome × Option String × Option String
  | .succeeded => (.succeeded, .succeeded, none, none)
  | .failed message => (.failed, .failed, some message, none)
  | .cancelled reason => (.stopped, .cancelled, reason, reason)

def applyTerminal (s : TaskSystem) (taskId : TaskId) (outcome : TaskOutcome) :
    Except SdkError (Option TerminalTransition) × TaskSystem :=
  match s.tasks taskId with
  | none => (.error (notFound taskId), s)
  | some snapshot =>
    if isTerminalState snapshot.state then (.ok none, s)
    else
      let (state, terminalOutcome, message, cancelReason) := terminal outcome
      (.ok (some { parentId := snapshot.parentId, state, terminalOutcome, message }),
        s.set taskId { snapshot with state, terminalOutcome := some terminalOutcome,
                                     finishMessage := message, cancelReason })

inductive Op
  | createTask (parentId : Option TaskId) (kind : TaskKind) (owner label : String)
  | cancel (taskId : TaskId) (reason : Option String)
  | finish (taskId : TaskId) (outcome : TaskOutcome)

/-- What is left of a call to do, each under one hold of a lock; `scan` goes through the children
of a job that is held locked. -/
inductive Todo
  | allocate (parentId : Option TaskId) (kind : TaskKind) (owner label : String)
  | checkParent (taskId parentId : TaskId) (kind : TaskKind) (owner label : String)
  | insert (taskId : TaskId) (snapshot : TaskSnapshot) (message : String)
  | publish (event : TaskEvent)
  | register (parentId taskId : TaskId)
  | lookUp (taskId : TaskId) (reason : Option String)
  | cancelRecursive (taskId : TaskId) (reason : Option String)
  | applyCancelled (taskId : TaskId) (reason : Option String)
  | applyFinished (taskId : TaskId) (outcome : TaskOutcome)
  | maybeFinalizeJobsFrom (parentId : Option TaskId)
  | scan (job : TaskId) (look : TaskSnapshot) (rest : List TaskId) (hasFailed hasCancelled : Bool)
  | finalize (job : TaskId) (look : TaskSnapshot) (outcome : TaskOutcome)
  | answer (result : Except SdkError (Option TaskId))

def start : Op → List Todo
  | .createTask parentId kind owner label => [.allocate parentId kind owner label]
  | .cancel taskId reason => [.lookUp taskId reason]
  | .finish taskId outcome => [.applyFinished taskId outcome]

/-- `finalized` is not published: what the children of the job were looked at as, and the outcome
it was ended with. -/
inductive Observed
  | published (event : TaskEvent)
  | finalized (job : TaskId) (look : TaskSnapshot) (outcome : TaskOutcome)
  | returned (result : Except SdkError (Option TaskId))

def newSnapshot (parentId : Option TaskId) (kind : TaskKind) (level : Nat) : TaskSnapshot where
  parentId
  kind
  state := .running
  terminalOutcome := none
  level
  childIds := []
  cancelReason := none
  finishMessage := none

def createdEvent (taskId : TaskId) (message : String) : TaskEvent where
  taskId
  kind := .created
  state := .running
  terminalOutcome := none
  message := some message

def cancellingEvent (taskId : TaskId) (reason : Option String) : TaskEvent where
  taskId
  kind := .cancelling
  state := .stopping
  terminalOutcome := none
  message := reason

def createdMessage (kind : TaskKind) (owner label : String) : String :=
  kind.debug ++ ":" ++ owner ++ ":" ++ label

/-- How a job ends whose children are all terminal. -/
def jobOutcome (look : TaskSnapshot) (hasFailed hasCancelled : Bool) : TaskOutcome :=
  if look.cancelReason.isSome || look.state = .stopping then .cancelled look.cancelReason
  else if hasFailed then .failed "child failed"
  else if hasCancelled then .cancelled (some "child cancelled")
  else .succeeded

/-- A writer waits while the task is held locked. -/
def exec : Todo → TaskSystem → Option (TaskSystem × List Todo × List Observed)
  | .allocate parentId kind owner label, s =>
    let taskId := s.nextId + 1
    some ({ s with nextId := taskId },
      [match parentId with
        | some pid => .checkParent taskId pid kind owner label
        | none => .insert taskId (newSnapshot none kind 0) (createdMessage kind owner label)], [])
  | .checkParent taskId pid kind owner label, s =>
    match s.tasks pid with
    | none => some (s, [.answer (.error (notFound pid))], [])
    | some parent =>
      if isTerminalState parent.state then
        some (s, [.answer (.error (.conflict
          ("parent task " ++ toString pid ++ " already finished")))], [])
      else some (s, [.insert taskId (newSnapshot (some pid) kind (min (parent.level + 1) 255))
        (createdMessage kind owner label)], [])
  | .insert taskId snapshot message, s =>
    some (s.set taskId snapshot, [.publish (createdEvent taskId message),
      match snapshot.parentId with
        | some pid => .register pid taskId
        | none => .answer (.ok (some taskId))], [])
  | .publish event, s => some (s, [], [.published event])
  | .register pid taskId, s =>
    match s.tasks pid with
    | none => some (s, [.answer (.error (notFound pid))], [])
    | some parent =>
      if s.readers pid ≠ 0 then none
      else some (s.set pid { parent with childIds := parent.childIds ++ [taskId] },
        [.answer (.ok (some taskId))], [])
  | .lookUp taskId reason, s =>
    match s.tasks taskId with
    | none => some (s, [.answer (.error (notFound taskId))], [])
    | some _ => some (s, [.cancelRecursive taskId reason, .answer (.ok none)], [])
  | .cancelRecursive taskId reason, s =>
    match s.tasks taskId with
    | none => some (s, [], [])
    | some snapshot =>
      if s.readers taskId ≠ 0 then none
      else if isTerminalState snapshot.state then some (s, [], [])
      else some (s.set taskId { snapshot with state := .stopping, cancelReason := reason },
        .publish (cancellingEvent taskId reason) ::
          (snapshot.childIds.map (.cancelRecursive · reason) ++ [.applyCancelled taskId reason]), [])
  | .applyCancelled taskId reason, s =>
    if s.readers taskId ≠ 0 then none
    else match s.applyTerminal taskId (.cancelled reason) with
    | (.ok (some transition), s) => some (s, [.publish (transition.event taskId),
        .maybeFinalizeJobsFrom transition.parentId], [])
    | (_, s) => some (s, [], [])
  | .applyFinished taskId outcome, s =>
    if s.readers taskId ≠ 0 then none
    else match s.applyTerminal taskId outcome with
    | (.ok (some transition), s) => some (s, [.publish (transition.event taskId),
        .maybeFinalizeJobsFrom transition.parentId, .answer (.ok none)], [])
    | (.ok none, s) => some (s, [.answer (.error (.conflict
        ("task " ++ toString taskId ++ " already in terminal state")))], [])
    | (.error err, s) => some (s, [.answer (.error err)], [])
  | .maybeFinalizeJobsFrom none, s => some (s, [], [])
  | .maybeFinalizeJobsFrom (some job), s =>
    match s.tasks job with
    | none => some (s, [], [])
    | some look =>
      if look.kind ≠ .job || isTerminalState look.state || look.childIds = [] then
        some (s, [.maybeFinalizeJobsFrom look.parentId], [])
      else some (s.lockRead job, [.scan job look look.childIds false false], [])
  | .scan job look [] hasFailed hasCancelled, s =>
    some (s.unlockRead job, [.finalize job look (jobOutcome look hasFailed hasCancelled),
      .maybeFinalizeJobsFrom look.parentId], [])
  | .scan job look (child :: rest) hasFailed hasCancelled, s =>
    match s.tasks child with
    | none => some (s.unlockRead job, [.maybeFinalizeJobsFrom look.parentId], [])
    | some snapshot =>
      if isTerminalState snapshot.state then
        some (s, [.scan job look rest
          (hasFailed || snapshot.terminalOutcome = some .failed)
          (hasCancelled || snapshot.terminalOutcome = some .cancelled)], [])
      else some (s.unlockRead job, [.maybeFinalizeJobsFrom look.parentId], [])
  | .finalize job look outcome, s =>
    if s.readers job ≠ 0 then none
    else match s.applyTerminal job outcome with
    | (.ok (some transition), s) =>
      some (s, [.publish (transition.event job)], [.finalized job look outcome])
    | (_, s) => some (s, [], [])
  | .answer result, s => some (s, [], [.returned result])

end TaskSystem

/-- Callers of the task system. -/
abbrev TaskSystem.step : Transition (Workers.State TaskSystem TaskSystem.Todo)
    (Workers.Action TaskSystem.Op) (Nat × TaskSystem.Observed) :=
  Workers.step TaskSystem.start TaskSystem.exec

end CheetahMedia.Engine
