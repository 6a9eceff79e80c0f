import CheetahMedia.Lib.Transition
import Mathlib.Logic.Function.Basic

namespace CheetahMedia.Record
open Lib

inductive RecordFormat
  | flv
  | hls
  | mp4
  | ps
deriving DecidableEq

/-- Formats are read in any case. -/
def RecordFormat.parse (input : String) : Option RecordFormat :=
  match input.toLower with
  | "flv" => some .flv
  | "hls" => some .hls
  | "mp4" => some .mp4
  | "ps" => some .ps
  | _ => none

inductive RecordTaskState
  | pending
  | running
  | stopped
  | failed
deriving DecidableEq

/-- A task whose state does not change any more. -/
def RecordTaskState.Final (state : RecordTaskState) : Prop := state = .stopped ∨ state = .failed

structure RecordTemplate where
  duration : Option Nat := none
  segmentDuration : Option Nat := none
  segmentCount : Option Nat := none

def defaultVhost : String := "__defaultVhost__"

structure StartRecordRequest where
  format : String
  vhost : String := defaultVhost
  app : String
  stream : String
  uri : Option String := none
  taskId : Option String := none
  recordTemplate : Option RecordTemplate := none

structure RecordTaskMetadata where
  taskId : String
  format : RecordFormat
  vhost : String
  app : String
  stream : String
  sourceStreamKey : String
  state : RecordTaskState
  durationLimitMs : Nat
  segmentDurationMs : Nat
  segmentCountLimit : Nat
deriving DecidableEq

inductive RegistryError
  | taskNotFound (taskId : String)
  | duplicateTask (taskId : String)
  | capacityExceeded (capacity : Nat)
deriving DecidableEq

inductive TaskExecutorError
  | notFound (taskId : String)
  | spawnFailed (text : String)
deriving DecidableEq

inductive RecordApiError
  | invalidRequest (text : String)
  | registry (error : RegistryError)
  | executor (error : TaskExecutorError)
  | unsupportedFormat (format : String)
deriving DecidableEq

/-- The tasks of the registry, no two under one id. -/
structure RecordRegistry where
  tasks : List RecordTaskMetadata := []
  capacity : Nat

namespace RecordRegistry

def getTask (r : RecordRegistry) (taskId : String) : Option RecordTaskMetadata :=
  r.tasks.find? (·.taskId == taskId)

def stateOf (r : RecordRegistry) (taskId : String) : Option RecordTaskState :=
  (r.getTask taskId).map (·.state)

def insertTask (r : RecordRegistry) (task : RecordTaskMetadata) :
    Except RegistryError RecordRegistry :=
  if (r.getTask task.taskId).isSome then .error (.duplicateTask task.taskId)
  else if r.capacity ≤ r.tasks.length then .error (.capacityExceeded r.capacity)
  else .ok { r with tasks := r.tasks ++ [task] }

def mark (r : RecordRegistry) (taskId : String) (state : RecordTaskState) : RecordRegistry :=
  { r with tasks := r.tasks.map fun t => if t.taskId = taskId then { t with state } else t }

def updateTaskState (r : RecordRegistry) (taskId : String) (state : RecordTaskState) :
    Except RegistryError RecordRegistry :=
  if (r.getTask taskId).isSome then .ok (r.mark taskId state) else .error (.taskNotFound taskId)

end RecordRegistry

def sourceStreamKey (vhost app stream : String) : String :=
  if vhost = defaultVhost then app ++ "/" ++ stream else vhost ++ "#" ++ app ++ "/" ++ stream

/-- What `start` makes of a request before it comes to the registry. -/
def StartRecordRequest.metadata (req : StartRecordRequest) :
    Except RecordApiError RecordTaskMetadata :=
  match RecordFormat.parse req.format with
  | none => .error (.unsupportedFormat req.format)
  | some format =>
    if req.app = "" ∨ req.stream = "" then
      .error (.invalidRequest "app and stream must be non-empty")
    else
      let tpl := req.recordTemplate.getD {}
      .ok {
        taskId := (req.taskId.filter (· ≠ "")).getD
          (req.format ++ "-" ++ req.vhost ++ "-" ++ req.app ++ "-" ++ req.stream)
        format
        vhost := req.vhost
        app := req.app
        stream := req.stream
        sourceStreamKey := req.uri.getD (sourceStreamKey req.vhost req.app req.stream)
        state := .pending
        durationLimitMs := tpl.duration.getD 0
        segmentDurationMs := tpl.segmentDuration.getD 0
        segmentCountLimit := tpl.segmentCount.getD 0 }

namespace Lifecycle

/-- How a run of a worker ends. -/
inductive Ending
  | stopped
  | failed
deriving DecidableEq

def Ending.state : Ending → RecordTaskState
  | .stopped => .stopped
  | .failed => .failed

/-- Where `run_record_task` stands, between its awaits and its updates of the registry. -/
inductive Phase
  | creatingDir
  | waitingForStream
  | subscribing
  /-- The writer rejected the tracks, and the subscriber is closed. -/
  | closing
  | recording
  | writing
  | registering
  | marking (ending : Ending)
  | ended (ending : Ending)
deriving DecidableEq

/-- What the surroundings of a worker come to in one step. -/
inductive Outcome
  | ok
  | fails
  /-- Another look at the stream, another frame. -/
  | again
  | rejected
  | dropTiny
  | noBytes (ioError : Bool)
deriving DecidableEq

def Phase.next (cancelled : Bool) : Phase → Outcome → Option Phase
  | .creatingDir, .ok => some .waitingForStream
  | .creatingDir, .fails => some (.marking .failed)
  | .waitingForStream, .ok => some .subscribing
  | .waitingForStream, .again => some .waitingForStream
  | .waitingForStream, .fails => if cancelled then some (.marking .failed) else none
  | .subscribing, .ok => some .recording
  | .subscribing, .fails => some (.marking .failed)
  | .subscribing, .rejected => some .closing
  | .closing, .ok => some (.marking .failed)
  | .recording, .again => some .recording
  | .recording, .ok => some .writing
  | .writing, .dropTiny => some (.marking .stopped)
  | .writing, .noBytes ioError => some (.marking (if ioError then .failed else .stopped))
  | .writing, .ok => some .registering
  | .registering, .ok => some (.marking .stopped)
  | .registering, .fails => some (.marking .failed)
  | _, _ => none

structure Worker where
  taskId : String
  cancelled : Bool := false
  phase : Phase := .creatingDir

inductive Answer
  | started (taskId : String)
  | stopped
deriving DecidableEq

/-- Where a call of the API stands. -/
inductive Call
  | start (req : StartRecordRequest)
  /-- The task is in the registry and has no worker yet. -/
  | spawning (taskId : String)
  /-- The worker is spawned and the task not yet marked as running. -/
  | spawned (taskId : String) (worker : Nat)
  | publishing (taskId : String)
  | stop (taskId : String)
  /-- The worker is cancelled, and the call waits for its end. -/
  | joining (taskId : String) (worker : Nat)
  | done (answer : Answer)
  | refused (error : RecordApiError)

inductive Author
  | call (i : Nat)
  | worker (w : Nat)
deriving DecidableEq

inductive Event
  /-- A task was inserted in the registry, or its state updated. -/
  | wrote (author : Author) (taskId : String) (state : RecordTaskState)
  | recordStarted (taskId : String)
  | returned (i : Nat) (answer : Answer)
  | failed (i : Nat) (error : RecordApiError)
deriving DecidableEq

inductive Action
  | start (req : StartRecordRequest)
  | stop (taskId : String)
  /-- The next step of a call. -/
  | advance (i : Nat)
  /-- An executor that does not take the task. -/
  | refuse (i : Nat) (error : TaskExecutorError)
  /-- The next step of a worker. -/
  | work (w : Nat) (outcome : Outcome)

structure State where
  registry : RecordRegistry
  handles : String → Option Nat := fun _ => none
  workers : List Worker := []
  calls : List Call := []

namespace State

def setCall (s : State) (i : Nat) (c : Call) : State := { s with calls := s.calls.set i c }

/-- A call that ends in an error. -/
def fail (s : State) (i : Nat) (error : RecordApiError) : State × List Event :=
  (s.setCall i (.refused error), [.failed i error])

def setPhase (s : State) (w : Nat) (phase : Phase) : State :=
  { s with workers := s.workers.modify w fun worker => { worker with phase } }

/-- `executor.spawn`, under the lock on the handles. -/
def spawn (s : State) (i : Nat) (taskId : String) : State × List Event :=
  if (s.handles taskId).isSome then
    s.fail i (.executor (.spawnFailed ("task already running: " ++ taskId)))
  else
    let w := s.workers.length
    ({ s.setCall i (.spawned taskId w) with
      handles := Function.update s.handles taskId (some w)
      workers := s.workers ++ [{ taskId }] }, [])

def advance (s : State) (i : Nat) : Call → Option (State × List Event)
  | .start req =>
    match req.metadata with
    | .error error => some (s.fail i error)
    | .ok task =>
      match s.registry.insertTask task with
      | .error error => some (s.fail i (.registry error))
      | .ok registry => some ({ s.setCall i (.spawning task.taskId) with registry },
          [.wrote (.call i) task.taskId task.state])
  | .spawning taskId => some (s.spawn i taskId)
  | .spawned taskId _ =>
    match s.registry.updateTaskState taskId .running with
    | .error error => some (s.fail i (.registry error))
    | .ok registry => some ({ s.setCall i (.publishing taskId) with registry },
        [.wrote (.call i) taskId .running])
  | .publishing taskId => some (s.setCall i (.done (.started taskId)),
      [.recordStarted taskId, .returned i (.started taskId)])
  | .stop taskId =>
    match s.handles taskId with
    | none => some (s.fail i (.executor (.notFound taskId)))
    | some w => some ({ s.setCall i (.joining taskId w) with
        handles := Function.update s.handles taskId none
        workers := s.workers.modify w fun worker => { worker with cancelled := true } }, [])
  | .joining taskId w =>
    match (s.workers[w]?).map Worker.phase with
    | some (.ended _) =>
      match s.registry.updateTaskState taskId .stopped with
      | .error _ => some (s.setCall i (.done .stopped), [.returned i .stopped])
      | .ok registry => some ({ s.setCall i (.done .stopped) with registry },
          [.wrote (.call i) taskId .stopped, .returned i .stopped])
    | _ => none
  | .done _ | .refused _ => none

/-- `mark_failed` and `mark_stopped`, the last thing a worker does. -/
def mark (s : State) (w : Nat) (taskId : String) (ending : Ending) : State × List Event :=
  let s := s.setPhase w (.ended ending)
  match s.registry.updateTaskState taskId ending.state with
  | .error _ => (s, [])
  | .ok registry => ({ s with registry }, [.wrote (.worker w) taskId ending.state])

end State

def step : Transition State Action Event
  | s, .start req => some ({ s with calls := s.calls ++ [.start req] }, [])
  | s, .stop taskId => some ({ s with calls := s.calls ++ [.stop taskId] }, [])
  | s, .advance i => (s.calls[i]?).bind (s.advance i)
  | s, .refuse i error =>
    match s.calls[i]? with
    | some (.spawning _) => some (s.fail i (.executor error))
    | _ => none
  | s, .work w outcome =>
    match s.workers[w]? with
    | none => none
    | some worker =>
      match worker.phase with
      | .marking ending => some (s.mark w worker.taskId ending)
      | phase => (phase.next worker.cancelled outcome).map fun phase => (s.setPhase w phase, [])

section Registry
variable {r : RecordRegistry}

theorem stateOf_insert (task : RecordTaskMetadata) (h : r.getTask task.taskId = none)
    (id : String) :
    RecordRegistry.stateOf { r with tasks := r.tasks ++ [task] } id =
      if id = task.taskId then some task.state else r.stateOf id := by
  unfold RecordRegistry.stateOf RecordRegistry.getTask at *
  rw [List.find?_append]
  by_cases hid : id = task.taskId
  · subst hid
    rw [h, if_pos rfl]
    simp
  · rw [if_neg hid]
    simp [Ne.symm hid]

theorem stateOf_mark (r : RecordRegistry) (taskId : String) (state : RecordTaskState)
    (id : String) :
    (r.mark taskId state).stateOf id =
      if id = taskId then (r.stateOf id).map fun _ => state else r.stateOf id := by
  have hsame : ((·.taskId == id) ∘ fun t : RecordTaskMetadata =>
      if t.taskId = taskId then { t with state } else t) = (·.taskId == id) := by
    funext t
    dsimp only [Function.comp]
    split <;> rfl
  unfold RecordRegistry.stateOf RecordRegistry.getTask RecordRegistry.mark
  rw [List.find?_map, hsame]
  cases hfound : r.tasks.find? (·.taskId == id) with
  | none => simp
  | some task =>
    have hid : task.taskId = id := by simpa using List.find?_some hfound
    by_cases heq : id = taskId <;> simp [hid, heq]

end Registry

section Change

/-- A call that has not touched the registry. -/
def Call.Fresh : Call → Prop
  | .start _ | .stop _ => True
  | _ => False

def Phase.isEnded : Phase → Bool
  | .ended _ => true
  | _ => false

/-- The worker of a task has not ended when the task is marked as running, a stopped worker has
not failed, and no executor refuses a task. -/
def Orderly (s : State) : Action → Prop
  | .advance i =>
    match s.calls[i]? with
    | some (.spawned _ w) => ∀ worker ∈ s.workers[w]?, worker.phase.isEnded = false
    | some (.joining _ w) => ∀ worker ∈ s.workers[w]?, worker.phase ≠ .ended .failed
    | _ => True
  | .refuse _ _ => False
  | _ => True

instance (s : State) (a : Action) : Decidable (Orderly s a) := by
  unfold Orderly
  split
  · split <;> infer_instance
  · infer_instance
  · infer_instance

/-- What one orderly step does. -/
inductive Change (s : State) : State → List Event → Prop
  | entered (call : Call) (hcall : call.Fresh) :
    Change s { s with calls := s.calls ++ [call] } []
  | refused (i : Nat) (error : RecordApiError) (hcall : s.calls[i]? = some call)
    (hfresh : call.Fresh) : Change s (s.fail i error).1 (s.fail i error).2
  | inserted (i : Nat) (task : RecordTaskMetadata) (hcall : s.calls[i]? = some (.start req))
    (hnew : s.registry.getTask task.taskId = none) (hstate : task.state = .pending) :
    Change s
      { s.setCall i (.spawning task.taskId) with
        registry := { s.registry with tasks := s.registry.tasks ++ [task] } }
      [.wrote (.call i) task.taskId task.state]
  | spawned (i : Nat) (hcall : s.calls[i]? = some (.spawning taskId)) :
    Change s (s.spawn i taskId).1 (s.spawn i taskId).2
  | running (i : Nat) (hcall : s.calls[i]? = some (.spawned taskId w))
    (hworker : ∀ worker ∈ s.workers[w]?, worker.phase.isEnded = false)
    (htask : (s.registry.getTask taskId).isSome = true) :
    Change s
      { s.setCall i (.publishing taskId) with registry := s.registry.mark taskId .running }
      [.wrote (.call i) taskId .running]
  | lost (i : Nat) (hcall : s.calls[i]? = some (.spawned taskId w))
    (htask : s.registry.getTask taskId = none) (error : RecordApiError) :
    Change s (s.fail i error).1 (s.fail i error).2
  | published (i : Nat) (hcall : s.calls[i]? = some (.publishing taskId)) :
    Change s (s.setCall i (.done (.started taskId)))
      [.recordStarted taskId, .returned i (.started taskId)]
  | stopping (i : Nat) (hcall : s.calls[i]? = some (.stop taskId))
    (hhandle : s.handles taskId = some w) :
    Change s
      { s.setCall i (.joining taskId w) with
        handles := Function.update s.handles taskId none
        workers := s.workers.modify w fun worker => { worker with cancelled := true } }
      []
  | joined (i : Nat) (hcall : s.calls[i]? = some (.joining taskId w))
    (hworker : s.workers[w]? = some worker) (hphase : worker.phase = .ended .stopped)
    (es : List Event) (hes : ∀ e ∈ es, e = .wrote (.call i) taskId .stopped ∨
      e = .returned i .stopped) :
    Change s
      { s.setCall i (.done .stopped) with registry := s.registry.mark taskId .stopped } es
  | worked (w : Nat) (phase : Phase) (hworker : s.workers[w]? = some worker)
    (hbefore : worker.phase.isEnded = false) (hafter : phase.isEnded = false) :
    Change s (s.setPhase w phase) []
  | marked (w : Nat) (ending : Ending) (hworker : s.workers[w]? = some worker)
    (hphase : worker.phase = .marking ending) (es : List Event)
    (hes : ∀ e ∈ es, e = .wrote (.worker w) worker.taskId ending.state) :
    Change s
      { s.setPhase w (.ended ending) with
        registry := s.registry.mark worker.taskId ending.state } es

theorem mark_absent {r : RecordRegistry} (h : r.getTask taskId = none) (state : RecordTaskState) :
    r.mark taskId state = r := by
  have hsame : ∀ t ∈ r.tasks, (if t.taskId = taskId then { t with state } else t) = t := by
    intro t ht
    have hne : t.taskId ≠ taskId := by simpa using List.find?_eq_none.mp h t ht
    exact if_neg hne
  unfold RecordRegistry.mark
  rw [List.map_congr_left hsame, List.map_id']

theorem insertTask_eq {r r' : RecordRegistry} (h : r.insertTask task = .ok r') :
    r.getTask task.taskId = none ∧ r' = { r with tasks := r.tasks ++ [task] } := by
  unfold RecordRegistry.insertTask at h
  split at h
  · cases h
  · rename_i hnew
    split at h
    · cases h
    · cases h
      exact ⟨by simpa using hnew, rfl⟩

/-- An update leaves the registry marked, whether it finds the task or not. -/
theorem updateTaskState_eq (r : RecordRegistry) (taskId : String) (state : RecordTaskState) :
    ((r.getTask taskId).isSome = true ∧
        r.updateTaskState taskId state = .ok (r.mark taskId state)) ∨
      (r.getTask taskId = none ∧ r.updateTaskState taskId state = .error (.taskNotFound taskId) ∧
        r.mark taskId state = r) := by
  unfold RecordRegistry.updateTaskState
  cases htask : r.getTask taskId with
  | none => exact .inr ⟨rfl, rfl, mark_absent htask state⟩
  | some task => exact .inl ⟨rfl, rfl⟩

theorem metadata_pending (h : StartRecordRequest.metadata req = .ok task) :
    task.state = .pending := by
  unfold StartRecordRequest.metadata at h
  split at h
  · cases h
  · split at h
    · cases h
    · cases h
      rfl

theorem next_isEnded (h : Phase.next cancelled phase outcome = some phase') :
    phase.isEnded = false ∧ phase'.isEnded = false := by
  unfold Phase.next at h
  split at h
  case h_5 =>
    split at h
    · cases h
      exact ⟨rfl, rfl⟩
    · cases h
  case h_17 => cases h
  all_goals
    cases h
    exact ⟨rfl, rfl⟩

theorem advance_change {s : State} (hcall : s.calls[i]? = some call)
    (horderly : Orderly s (.advance i)) (h : s.advance i call = some (t, es)) : Change s t es := by
  simp only [Orderly, hcall] at horderly
  cases call with
  | start req =>
    simp only [State.advance] at h
    split at h
    · cases h
      exact .refused i _ hcall trivial
    · rename_i task hmetadata
      split at h
      · cases h
        exact .refused i _ hcall trivial
      · rename_i registry hinsert
        obtain ⟨hnew, rfl⟩ := insertTask_eq hinsert
        cases h
        exact .inserted i task hcall hnew (metadata_pending hmetadata)
  | spawning taskId =>
    simp only [State.advance, Option.some.injEq] at h
    have hspawned := Change.spawned i hcall
    rwa [h] at hspawned
  | spawned taskId w =>
    simp only [State.advance] at h
    rcases updateTaskState_eq s.registry taskId .running with ⟨htask, heq⟩ | ⟨htask, heq, -⟩
    · rw [heq] at h
      cases h
      exact .running i hcall horderly htask
    · rw [heq] at h
      cases h
      exact .lost i hcall htask _
  | publishing taskId =>
    cases h
    exact .published i hcall
  | stop taskId =>
    simp only [State.advance] at h
    split at h
    · cases h
      exact .refused i _ hcall trivial
    · rename_i w hhandle
      cases h
      exact .stopping i hcall hhandle
  | joining taskId w =>
    simp only [State.advance] at h
    split at h
    · rename_i ending hended
      obtain ⟨worker, hworker, hphase⟩ := Option.map_eq_some_iff.mp hended
      have hstopped : worker.phase = .ended .stopped := by
        cases ending with
        | stopped => exact hphase
        | failed => exact absurd hphase (horderly worker hworker)
      rcases updateTaskState_eq s.registry taskId .stopped with ⟨-, heq⟩ | ⟨-, heq, hsame⟩
      · rw [heq] at h
        cases h
        exact .joined i hcall hworker hstopped _ (by simp)
      · rw [heq] at h
        cases h
        have hjoined := Change.joined i hcall hworker hstopped [.returned i .stopped] (by simp)
        rwa [hsame] at hjoined
    · cases h
  | done answer | refused error => cases h

theorem step_change {s : State} (horderly : Orderly s a) (h : step s a = some (t, es)) :
    Change s t es := by
  cases a with
  | start req =>
    cases h
    exact .entered _ trivial
  | stop taskId =>
    cases h
    exact .entered _ trivial
  | advance i =>
    obtain ⟨call, hcall, h⟩ := Option.bind_eq_some_iff.mp h
    exact advance_change hcall horderly h
  | refuse i error => exact horderly.elim
  | work w outcome =>
    simp only [step] at h
    split at h
    · cases h
    · rename_i worker hworker
      split at h
      · rename_i ending hphase
        simp only [State.mark] at h
        rcases updateTaskState_eq s.registry worker.taskId ending.state with
          ⟨-, heq⟩ | ⟨-, heq, hsame⟩
        · rw [show (s.setPhase w (.ended ending)).registry = s.registry from rfl, heq] at h
          cases h
          exact .marked w ending hworker hphase _ (by simp)
        · rw [show (s.setPhase w (.ended ending)).registry = s.registry from rfl, heq] at h
          cases h
          have hmarked := Change.marked w ending hworker hphase [] (by simp)
          rwa [hsame] at hmarked
      · rename_i phase hphase
        obtain ⟨phase', hnext, heq⟩ := Option.map_eq_some_iff.mp h
        cases heq
        obtain ⟨hbefore, hafter⟩ := next_isEnded hnext
        exact .worked w phase' hworker hbefore hafter

end Change

section Inv
variable {s t : State} {id : String} {worker : Worker} {c d : Call} {calls : List Call}

/-- What the registry shows of a task whose worker is this one. -/
def Worker.Shows (worker : Worker) (state : Option RecordTaskState) : Prop :=
  match worker.phase with
  | .ended ending => state = some ending.state
  | _ => state = some .pending ∨ state = some .running

/-- A worker of the task, by its index. -/
def State.WorkerAt (s : State) (w : Nat) (taskId : String) : Prop :=
  (s.workers[w]?).map Worker.taskId = some taskId

structure Inv (s : State) : Prop where
  shown : ∀ worker ∈ s.workers, worker.Shows (s.registry.stateOf worker.taskId)
  one : ∀ w w' id, s.WorkerAt w id → s.WorkerAt w' id → w = w'
  alone : ∀ id state, s.registry.stateOf id = some state → (∀ w, ¬s.WorkerAt w id) →
    state = .pending
  spawning : ∀ (i : Nat) (id : String), s.calls[i]? = some (.spawning id) →
    s.registry.stateOf id = some .pending ∧
    ∀ w, ¬s.WorkerAt w id
  single : ∀ (i j : Nat) (id : String), s.calls[i]? = some (.spawning id) →
    s.calls[j]? = some (.spawning id) → i = j
  spawned : ∀ (i : Nat) (id : String) (w : Nat), s.calls[i]? = some (.spawned id w) →
    s.WorkerAt w id
  joining : ∀ (i : Nat) (id : String) (w : Nat), s.calls[i]? = some (.joining id w) →
    s.WorkerAt w id
  handle : ∀ id w, s.handles id = some w → s.WorkerAt w id

/-- A call that holds nothing of a task. -/
def Call.Idle : Call → Prop
  | .spawning _ | .spawned _ _ | .joining _ _ => False
  | _ => True

theorem Shows.isSome {worker : Worker} (h : worker.Shows state) : state.isSome = true := by
  unfold Worker.Shows at h
  split at h
  · simp [h]
  · rcases h with h | h <;> simp [h]

theorem workerAt_mem (h : s.WorkerAt w id) : ∃ worker ∈ s.workers, s.workers[w]? = some worker ∧
    worker.taskId = id := by
  obtain ⟨worker, hworker, hid⟩ := Option.map_eq_some_iff.mp h
  exact ⟨worker, List.mem_of_getElem? hworker, hworker, hid⟩

/-- A task with a worker is in the registry. -/
theorem Inv.known (h : Inv s) (hw : s.WorkerAt w id) : (s.registry.stateOf id).isSome = true := by
  obtain ⟨worker, hmem, -, rfl⟩ := workerAt_mem hw
  exact Shows.isSome (h.shown worker hmem)

theorem setCall_eq (h : (s.calls.set i c)[j]? = some d) :
    (j = i ∧ d = c) ∨ (j ≠ i ∧ s.calls[j]? = some d) := by
  by_cases hij : i = j
  · subst hij
    obtain ⟨hi, -⟩ := List.getElem?_eq_some_iff.mp h
    rw [List.getElem?_set_self (by simpa using hi)] at h
    cases h
    exact .inl ⟨rfl, rfl⟩
  · rw [List.getElem?_set_ne hij] at h
    exact .inr ⟨Ne.symm hij, h⟩

/-- The calls may change as long as none of them comes to hold a task. -/
theorem Inv.idle (h : Inv s)
    (hcalls : ∀ (i : Nat) c, calls[i]? = some c → c.Idle ∨ s.calls[i]? = some c) :
    Inv { s with calls } :=
  { h with
    spawning := fun i id hi => h.spawning i id ((hcalls i _ hi).resolve_left not_false)
    single := fun i j id hi hj => h.single i j id ((hcalls i _ hi).resolve_left not_false)
      ((hcalls j _ hj).resolve_left not_false)
    spawned := fun i id w hi => h.spawned i id w ((hcalls i _ hi).resolve_left not_false)
    joining := fun i id w hi => h.joining i id w ((hcalls i _ hi).resolve_left not_false) }

theorem Inv.setCall (h : Inv s) (i : Nat) (hc : Call.Idle c) : Inv (s.setCall i c) :=
  h.idle fun j d hj => by
    rcases setCall_eq hj with ⟨-, rfl⟩ | ⟨-, hd⟩
    · exact .inl hc
    · exact .inr hd

/-- A new task, and the call that is to spawn its worker. -/
theorem Inv.insert (h : Inv s) (i : Nat) (task : RecordTaskMetadata)
    (hnew : s.registry.getTask task.taskId = none) (hstate : task.state = .pending) :
    Inv { s.setCall i (.spawning task.taskId) with
      registry := { s.registry with tasks := s.registry.tasks ++ [task] } } := by
  have hnone : s.registry.stateOf task.taskId = none := by
    rw [RecordRegistry.stateOf, hnew]
    rfl
  have hlonely : ∀ w, ¬s.WorkerAt w task.taskId := by
    intro w hw
    have hknown := h.known hw
    simp [hnone] at hknown
  have hold : ∀ id, (s.registry.stateOf id).isSome = true → id ≠ task.taskId := by
    rintro id hknown rfl
    simp [hnone] at hknown
  exact {
    shown := fun worker hworker => by
      have hshows := h.shown worker hworker
      dsimp only
      rw [stateOf_insert task hnew, if_neg (hold _ (Shows.isSome hshows))]
      exact hshows
    one := h.one
    alone := fun id state hid hw => by
      dsimp only at hid
      rw [stateOf_insert task hnew] at hid
      split at hid
      · cases hid
        exact hstate
      · exact h.alone id state hid hw
    spawning := fun j id hj => by
      dsimp only
      rw [stateOf_insert task hnew]
      rcases setCall_eq hj with ⟨-, heq⟩ | ⟨-, hj⟩
      · cases heq
        rw [if_pos rfl, hstate]
        exact ⟨rfl, hlonely⟩
      · obtain ⟨hpending, hw⟩ := h.spawning j id hj
        rw [if_neg (hold id (by simp [hpending]))]
        exact ⟨hpending, hw⟩
    single := fun j k id hj hk => by
      have hother : ∀ l : Nat, s.calls[l]? = some (.spawning task.taskId) → False := by
        intro l hl
        simp [(h.spawning l _ hl).1] at hnone
      rcases setCall_eq hj with ⟨rfl, heq⟩ | ⟨-, hj⟩
      · cases heq
        rcases setCall_eq hk with ⟨rfl, -⟩ | ⟨-, hk⟩
        · rfl
        · exact (hother k hk).elim
      · rcases setCall_eq hk with ⟨-, heq⟩ | ⟨-, hk⟩
        · cases heq
          exact (hother j hj).elim
        · exact h.single j k id hj hk
    spawned := fun j id w hj => by
      rcases setCall_eq hj with ⟨-, heq⟩ | ⟨-, hj⟩
      · cases heq
      · exact h.spawned j id w hj
    joining := fun j id w hj => by
      rcases setCall_eq hj with ⟨-, heq⟩ | ⟨-, hj⟩
      · cases heq
      · exact h.joining j id w hj
    handle := h.handle }

/-- The workers go on and the states of their tasks with them. -/
theorem Inv.refresh (h : Inv s) (registry : RecordRegistry) (workers : List Worker)
    (hids : ∀ w : Nat, (workers[w]?).map Worker.taskId = (s.workers[w]?).map Worker.taskId)
    (hshown : ∀ worker ∈ workers, worker.Shows (registry.stateOf worker.taskId))
    (hsame : ∀ id, (∀ w, ¬s.WorkerAt w id) → registry.stateOf id = s.registry.stateOf id) :
    Inv { s with registry, workers } := by
  have hat : ∀ w id, State.WorkerAt { s with registry, workers } w id ↔ s.WorkerAt w id := by
    intro w id
    rw [State.WorkerAt, hids w]
    rfl
  exact {
    shown := hshown
    one := fun w w' id hw hw' => h.one w w' id ((hat w id).mp hw) ((hat w' id).mp hw')
    alone := fun id state hid hw => by
      have hw' : ∀ w, ¬s.WorkerAt w id := fun w hat' => hw w ((hat w id).mpr hat')
      exact h.alone id state ((hsame id hw').symm.trans hid) hw'
    spawning := fun i id hi => by
      obtain ⟨hpending, hw⟩ := h.spawning i id hi
      exact ⟨(hsame id hw).trans hpending, fun w hat' => hw w ((hat w id).mp hat')⟩
    single := h.single
    spawned := fun i id w hi => (hat w id).mpr (h.spawned i id w hi)
    joining := fun i id w hi => (hat w id).mpr (h.joining i id w hi)
    handle := fun id w hi => (hat w id).mpr (h.handle id w hi) }

/-- A worker that is changed in place, and what the registry shows of its task then. -/
theorem Inv.work (h : Inv s) (hworker : s.workers[w]? = some worker) (f : Worker → Worker)
    (hid : ∀ v, (f v).taskId = v.taskId) (registry : RecordRegistry)
    (hshown : (f worker).Shows (registry.stateOf worker.taskId))
    (hothers : ∀ id ≠ worker.taskId, registry.stateOf id = s.registry.stateOf id) :
    Inv { s with registry, workers := s.workers.modify w f } := by
  have hat : s.WorkerAt w worker.taskId := by
    rw [State.WorkerAt, hworker]
    rfl
  refine h.refresh registry _ (fun v => ?_) (fun v hv => ?_) fun id hnone => ?_
  · rw [List.getElem?_modify]
    cases s.workers[v]? with
    | none => rfl
    | some other =>
      by_cases hvw : w = v <;> simp [hvw, hid]
  · obtain ⟨i, hi⟩ := List.mem_iff_getElem?.mp hv
    rw [List.getElem?_modify] at hi
    obtain ⟨other, hother, heq⟩ := Option.map_eq_some_iff.mp hi
    by_cases hiw : w = i
    · subst hiw
      rw [hworker] at hother
      cases hother
      rw [if_pos rfl] at heq
      subst heq
      rw [hid]
      exact hshown
    · rw [if_neg hiw] at heq
      subst heq
      have hne : other.taskId ≠ worker.taskId := by
        intro heq
        have hat' : s.WorkerAt i worker.taskId := by
          rw [State.WorkerAt, hother, Option.map_some, heq]
        exact hiw (h.one w i _ hat hat')
      rw [hothers _ hne]
      exact h.shown other (List.mem_of_getElem? hother)
  · refine hothers id ?_
    rintro rfl
    exact hnone w hat

/-- Marking touches no task but the one it is about. -/
theorem stateOf_mark_other (r : RecordRegistry) (state : RecordTaskState) :
    ∀ other ≠ id, (r.mark id state).stateOf other = r.stateOf other := by
  intro other hne
  rw [stateOf_mark, if_neg hne]

theorem stateOf_mark_known {r : RecordRegistry} (h : (r.stateOf id).isSome = true)
    (state : RecordTaskState) : (r.mark id state).stateOf id = some state := by
  obtain ⟨old, hold⟩ := Option.isSome_iff_exists.mp h
  rw [stateOf_mark, if_pos rfl, hold]
  rfl

theorem Inv.spawn (h : Inv s) (hcall : s.calls[i]? = some (.spawning id)) :
    Inv (s.spawn i id).1 := by
  obtain ⟨hpending, hnone⟩ := h.spawning i id hcall
  have hhandle : s.handles id = none := by
    cases hhandle : s.handles id with
    | none => rfl
    | some w => exact absurd (h.handle id w hhandle) (hnone w)
  unfold State.spawn
  rw [hhandle, Option.isSome_none, if_neg Bool.false_ne_true]
  have hat : ∀ w other, (((s.workers ++ [({ taskId := id } : Worker)])[w]?).map Worker.taskId =
      some other) ↔ s.WorkerAt w other ∨ (w = s.workers.length ∧ other = id) := by
    intro w other
    unfold State.WorkerAt
    rcases Nat.lt_trichotomy w s.workers.length with hw | hw | hw
    · rw [List.getElem?_append_left hw]
      simp [Nat.ne_of_lt hw]
    · subst hw
      simp [eq_comm]
    · rw [List.getElem?_eq_none (by simp; omega), List.getElem?_eq_none (Nat.le_of_lt hw)]
      simp [Nat.ne_of_gt hw]
  exact {
    shown := fun worker hworker => by
      rcases List.mem_append.mp hworker with hworker | hworker
      · exact h.shown worker hworker
      · cases List.mem_singleton.mp hworker
        exact .inl hpending
    one := fun w w' other hw hw' => by
      rcases (hat w other).mp hw with hw | ⟨hw, heq⟩
      · rcases (hat w' other).mp hw' with hw' | ⟨-, heq⟩
        · exact h.one w w' other hw hw'
        · exact absurd (heq ▸ hw) (hnone w)
      · rcases (hat w' other).mp hw' with hw' | ⟨hw', -⟩
        · exact absurd (heq ▸ hw') (hnone w')
        · exact hw.trans hw'.symm
    alone := fun other state hother hw =>
      h.alone other state hother fun w hat' => hw w ((hat w other).mpr (.inl hat'))
    spawning := fun j other hj => by
      rcases setCall_eq hj with ⟨-, heq⟩ | ⟨hne, hj⟩
      · cases heq
      · obtain ⟨hpending, hw⟩ := h.spawning j other hj
        refine ⟨hpending, fun w hat' => ?_⟩
        rcases (hat w other).mp hat' with hat' | ⟨-, heq⟩
        · exact hw w hat'
        · exact hne (h.single j i id (heq ▸ hj) hcall)
    single := fun j k other hj hk => by
      rcases setCall_eq hj with ⟨-, heq⟩ | ⟨-, hj⟩
      · cases heq
      · rcases setCall_eq hk with ⟨-, heq⟩ | ⟨-, hk⟩
        · cases heq
        · exact h.single j k other hj hk
    spawned := fun j other w hj => by
      rcases setCall_eq hj with ⟨-, heq⟩ | ⟨-, hj⟩
      · cases heq
        exact (hat _ _).mpr (.inr ⟨rfl, rfl⟩)
      · exact (hat w other).mpr (.inl (h.spawned j other w hj))
    joining := fun j other w hj => by
      rcases setCall_eq hj with ⟨-, heq⟩ | ⟨-, hj⟩
      · cases heq
      · exact (hat w other).mpr (.inl (h.joining j other w hj))
    handle := fun other w hother => by
      refine (hat w other).mpr ?_
      by_cases heq : other = id
      · subst heq
        dsimp only at hother
        rw [Function.update_self] at hother
        cases hother
        exact .inr ⟨rfl, rfl⟩
      · dsimp only at hother
        rw [Function.update_of_ne heq] at hother
        exact .inl (h.handle other w hother) }

theorem workerAt_eq (hat : s.WorkerAt w id) (hworker : s.workers[w]? = some worker) :
    worker.taskId = id := by
  rw [State.WorkerAt, hworker] at hat
  exact Option.some.inj hat

/-- A worker that stays as it is while its task is marked. -/
theorem Inv.mark (h : Inv s) (hat : s.WorkerAt w id) (state : RecordTaskState)
    (hshown : ∀ worker, s.workers[w]? = some worker → worker.Shows (some state)) :
    Inv { s with registry := s.registry.mark id state } := by
  obtain ⟨worker, -, hworker, rfl⟩ := workerAt_mem hat
  have hmarked := h.work hworker (fun v => v) (fun _ => rfl) (s.registry.mark worker.taskId state)
    (by rw [stateOf_mark_known (h.known hat)]; exact hshown worker hworker)
    (stateOf_mark_other s.registry state)
  rwa [show s.workers.modify w (fun v => v) = s.workers from List.modify_id ..] at hmarked

theorem Inv.join (h : Inv s) (i : Nat) (hat : s.WorkerAt w id) :
    Inv (s.setCall i (.joining id w)) :=
  { h with
    spawning := fun j other hj => by
      rcases setCall_eq hj with ⟨-, heq⟩ | ⟨-, hj⟩
      · cases heq
      · exact h.spawning j other hj
    single := fun j k other hj hk => by
      rcases setCall_eq hj with ⟨-, heq⟩ | ⟨-, hj⟩
      · cases heq
      · rcases setCall_eq hk with ⟨-, heq⟩ | ⟨-, hk⟩
        · cases heq
        · exact h.single j k other hj hk
    spawned := fun j other v hj => by
      rcases setCall_eq hj with ⟨-, heq⟩ | ⟨-, hj⟩
      · cases heq
      · exact h.spawned j other v hj
    joining := fun j other v hj => by
      rcases setCall_eq hj with ⟨-, heq⟩ | ⟨-, hj⟩
      · cases heq
        exact hat
      · exact h.joining j other v hj }

theorem Inv.forget (h : Inv s) (id : String) :
    Inv { s with handles := Function.update s.handles id none } :=
  { h with
    handle := fun other w hother => by
      dsimp only at hother
      by_cases heq : other = id
      · subst heq
        rw [Function.update_self] at hother
        cases hother
      · rw [Function.update_of_ne heq] at hother
        exact h.handle other w hother }

theorem shows_running {phase : Phase} (h : phase.isEnded = false)
    (hstate : state = some .pending ∨ state = some .running) :
    Worker.Shows { worker with phase } state := by
  cases phase with
  | ended ending => cases h
  | _ => exact hstate

/-- A worker that has not ended has a task that is pending or running. -/
theorem shows_unfinished (h : worker.Shows state) (hphase : worker.phase.isEnded = false) :
    state = some .pending ∨ state = some .running := by
  unfold Worker.Shows at h
  split at h
  · rename_i ending hended
    rw [hended] at hphase
    cases hphase
  · exact h

theorem Inv.change (h : Inv s) (hchange : Change s t es) : Inv t := by
  cases hchange with
  | entered call hcall =>
    refine h.idle fun i c hi => ?_
    rw [List.getElem?_append] at hi
    split at hi
    · exact .inr hi
    · cases List.mem_singleton.mp (List.mem_of_getElem? hi)
      cases call with
      | start req | stop taskId => exact .inl trivial
      | _ => exact hcall.elim
  | refused i error hcall hfresh => exact h.setCall i trivial
  | inserted i task hcall hnew hstate => exact h.insert i task hnew hstate
  | spawned i hcall => exact h.spawn hcall
  | running i hcall hworker htask =>
    refine (h.mark (h.spawned i _ _ hcall) .running fun worker hw => ?_).setCall i trivial
    exact shows_running (hworker worker hw) (.inr rfl)
  | lost i hcall htask error => exact h.setCall i trivial
  | published i hcall => exact h.setCall i trivial
  | stopping i hcall hhandle =>
    have hat := h.handle _ _ hhandle
    obtain ⟨worker, hmem, hworker, rfl⟩ := workerAt_mem hat
    have hcancelled := h.work hworker (fun worker => { worker with cancelled := true })
      (fun _ => rfl) s.registry (h.shown worker hmem) fun _ _ => rfl
    refine ((hcancelled.join i ?_).forget worker.taskId)
    rw [State.WorkerAt, List.getElem?_modify_eq, hworker]
    rfl
  | joined i hcall hworker hphase es hes =>
    refine (h.mark (h.joining i _ _ hcall) .stopped fun worker hw => ?_).setCall i trivial
    rw [hworker] at hw
    cases hw
    rw [Worker.Shows, hphase]
    rfl
  | worked w phase hworker hbefore hafter =>
    refine h.work hworker (fun worker => { worker with phase }) (fun _ => rfl) s.registry ?_
      fun _ _ => rfl
    exact shows_running hafter
      (shows_unfinished (h.shown _ (List.mem_of_getElem? hworker)) hbefore)
  | @marked worker w ending hworker hphase es hes =>
    have hat : s.WorkerAt w worker.taskId := by
      rw [State.WorkerAt, hworker]
      rfl
    refine h.work hworker (fun worker => { worker with phase := .ended ending }) (fun _ => rfl) _ ?_
      (stateOf_mark_other s.registry ending.state)
    exact stateOf_mark_known (h.known hat) ending.state

theorem inv_empty (capacity : Nat) : Inv { registry := { capacity } } where
  shown worker hworker := by cases hworker
  one w w' id hw := by cases hw
  alone id state hid := by cases hid
  spawning i id hi := by cases hi
  single i j id hi := by cases hi
  spawned i id w hi := by cases hi
  joining i id w hi := by cases hi
  handle id w hi := by cases hi

end Inv

section Run
variable {s t : State} {id : String} {es fs : List Event}

/-- What is final stays as it is. -/
theorem Inv.final (h : Inv s) (hchange : Change s t es)
    (hstate : s.registry.stateOf id = some state)
    (hfinal : state.Final) : t.registry.stateOf id = some state := by
  have hopen : ∀ worker ∈ s.workers, worker.phase.isEnded = false → worker.taskId ≠ id := by
    rintro worker hmem hphase rfl
    have hshows := shows_unfinished (h.shown worker hmem) hphase
    rw [hstate] at hshows
    rcases hfinal with rfl | rfl <;> simp at hshows
  cases hchange with
  | entered call hcall | refused i error hcall hfresh | lost i hcall htask error
  | published i hcall | stopping i hcall hhandle | worked w phase hworker hbefore hafter =>
    exact hstate
  | spawned i hcall =>
    unfold State.spawn
    split <;> exact hstate
  | inserted i task hcall hnew hpending =>
    dsimp only
    rw [stateOf_insert task hnew, if_neg]
    · exact hstate
    · rintro rfl
      simp [RecordRegistry.stateOf, hnew] at hstate
  | running i hcall hworker htask =>
    obtain ⟨worker, hmem, hw, rfl⟩ := workerAt_mem (h.spawned i _ _ hcall)
    exact (stateOf_mark_other _ _ id (hopen worker hmem (hworker worker hw)).symm).trans hstate
  | joined i hcall hworker hphase es hes =>
    have hid := workerAt_eq (h.joining i _ _ hcall) hworker
    have hshows := h.shown _ (List.mem_of_getElem? hworker)
    rw [Worker.Shows, hphase, hid] at hshows
    dsimp only
    rw [stateOf_mark]
    split
    · rename_i heq
      rw [heq, hshows] at hstate
      rw [heq, hshows, ← hstate]
      rfl
    · exact hstate
  | marked w ending hworker hphase es hes =>
    have hne := hopen _ (List.mem_of_getElem? hworker) (by rw [hphase]; rfl)
    exact (stateOf_mark_other _ _ id hne.symm).trans hstate

/-- A call that may have written to the registry. -/
def Call.Wrote : Call → Prop
  | .start _ | .stop _ | .refused _ => False
  | _ => True

/-- What a run has told of the calls, and where they stand. -/
structure Told (es : List Event) (s : State) : Prop where
  wrote : ∀ i id state, .wrote (.call i) id state ∈ es → ∃ c, s.calls[i]? = some c ∧ c.Wrote
  failed : ∀ i error, .failed i error ∈ es → s.calls[i]? = some (.refused error)

/-- A step of one call, and what it tells. -/
theorem Told.set (h : Told es s) (hcall : s.calls[i]? = some old)
    (hcalls : t.calls = s.calls.set i new)
    (hold : ∀ error, old ≠ .refused error) (hkept : old.Wrote → new.Wrote)
    (hwrote : ∀ j id state, .wrote (.call j) id state ∈ fs → j = i ∧ new.Wrote)
    (hfailed : ∀ j error, .failed j error ∈ fs → j = i ∧ new = .refused error) :
    Told (es ++ fs) t := by
  have hi : (s.calls.set i new)[i]? = some new :=
    List.getElem?_set_self (List.getElem?_eq_some_iff.mp hcall).1
  constructor
  · intro j id state hmem
    rw [hcalls]
    rcases List.mem_append.mp hmem with hmem | hmem
    · obtain ⟨c, hc, hcw⟩ := h.wrote j id state hmem
      by_cases hij : i = j
      · subst hij
        rw [hcall] at hc
        cases hc
        exact ⟨new, hi, hkept hcw⟩
      · exact ⟨c, by rwa [List.getElem?_set_ne hij], hcw⟩
    · obtain ⟨rfl, hnew⟩ := hwrote j id state hmem
      exact ⟨new, hi, hnew⟩
  · intro j error hmem
    rw [hcalls]
    rcases List.mem_append.mp hmem with hmem | hmem
    · have hrefused := h.failed j error hmem
      have hij : i ≠ j := by
        rintro rfl
        rw [hcall] at hrefused
        exact hold error (Option.some.inj hrefused)
      rwa [List.getElem?_set_ne hij]
    · obtain ⟨rfl, rfl⟩ := hfailed j error hmem
      exact hi

/-- A step that leaves the calls as they are and writes for none of them. -/
theorem Told.keep (h : Told es s) (hcalls : t.calls = s.calls)
    (hfs : ∀ e ∈ fs, ∃ w id state, e = .wrote (.worker w) id state) : Told (es ++ fs) t := by
  constructor
  · intro j id state hmem
    rw [hcalls]
    rcases List.mem_append.mp hmem with hmem | hmem
    · exact h.wrote j id state hmem
    · obtain ⟨w, id, state, heq⟩ := hfs _ hmem
      cases heq
  · intro j error hmem
    rw [hcalls]
    rcases List.mem_append.mp hmem with hmem | hmem
    · exact h.failed j error hmem
    · obtain ⟨w, id, state, heq⟩ := hfs _ hmem
      cases heq

theorem Told.change (h : Told es s) (hinv : Inv s) (hchange : Change s t fs) :
    Told (es ++ fs) t := by
  cases hchange with
  | entered call hcall =>
    rw [List.append_nil]
    constructor
    · intro j id state hmem
      obtain ⟨c, hc, hcw⟩ := h.wrote j id state hmem
      exact ⟨c, by rwa [List.getElem?_append_left (List.getElem?_eq_some_iff.mp hc).1], hcw⟩
    · intro j error hmem
      have hc := h.failed j error hmem
      rwa [List.getElem?_append_left (List.getElem?_eq_some_iff.mp hc).1]
  | @refused call i error hcall hfresh =>
    refine h.set hcall rfl ?_ ?_ ?_ ?_
    · rintro error rfl
      exact hfresh
    · intro hwrote
      cases call <;> first | exact hwrote.elim | exact hfresh.elim
    · simp [State.fail]
    · simp [State.fail]
  | inserted i task hcall hnew hpending =>
    refine h.set hcall rfl (by simp) (fun _ => trivial) (fun j id state hmem => ?_) (by simp)
    cases List.mem_singleton.mp hmem
    exact ⟨rfl, trivial⟩
  | @spawned taskId i hcall =>
    obtain ⟨-, hnone⟩ := hinv.spawning i taskId hcall
    have hhandle : s.handles taskId = none := by
      cases hhandle : s.handles taskId with
      | none => rfl
      | some w => exact absurd (hinv.handle taskId w hhandle) (hnone w)
    unfold State.spawn
    rw [hhandle, Option.isSome_none, if_neg Bool.false_ne_true]
    exact h.set hcall rfl (by simp) (fun _ => trivial) (by simp) (by simp)
  | running i hcall hworker htask =>
    refine h.set hcall rfl (by simp) (fun _ => trivial) (fun j id state hmem => ?_) (by simp)
    cases List.mem_singleton.mp hmem
    exact ⟨rfl, trivial⟩
  | lost i hcall htask error =>
    have hknown := hinv.known (hinv.spawned i _ _ hcall)
    simp [RecordRegistry.stateOf, htask] at hknown
  | published i hcall =>
    exact h.set hcall rfl (by simp) (fun _ => trivial) (by simp) (by simp)
  | stopping i hcall hhandle =>
    exact h.set hcall rfl (by simp) (fun hwrote => hwrote.elim) (by simp) (by simp)
  | joined i hcall hworker hphase es hes =>
    refine h.set hcall rfl (by simp) (fun _ => trivial) (fun j id state hmem => ?_)
      fun j error hmem => ?_
    · rcases hes _ hmem with heq | heq
      · cases heq
        exact ⟨rfl, trivial⟩
      · cases heq
    · rcases hes _ hmem with heq | heq <;> cases heq
  | worked w phase hworker hbefore hafter => exact h.keep rfl (by simp)
  | marked w ending hworker hphase es hes => exact h.keep rfl fun e he => ⟨w, _, _, hes e he⟩

/-- The invariants along an orderly run. -/
theorem inv_run (hinv : Inv s) (htold : Told es s) (horderly : Transition.Along step Orderly s as)
    (hrun : Transition.run step s as = some (t, fs)) : Inv t ∧ Told (es ++ fs) t := by
  refine Transition.run_traced (fun es s => Inv s ∧ Told es s) ?_ es ⟨hinv, htold⟩ horderly hrun
  rintro es s a t fs ⟨hinv, htold⟩ hnow hstep
  have hchange := step_change hnow hstep
  exact ⟨hinv.change hchange, htold.change hinv hchange⟩

theorem final_run (hinv : Inv s) (horderly : Transition.Along step Orderly s as)
    (hrun : Transition.run step s as = some (t, fs)) (hstate : s.registry.stateOf id = some state)
    (hfinal : state.Final) : t.registry.stateOf id = some state := by
  refine (Transition.run_invariant (fun s => Inv s ∧ s.registry.stateOf id = some state) ?_
    ⟨hinv, hstate⟩ horderly hrun).2
  rintro s a t es ⟨hinv, hstate⟩ hnow hstep
  have hchange := step_change hnow hstep
  exact ⟨hinv.change hchange, hinv.final hchange hstate hfinal⟩

theorem told_empty (s : State) : Told [] s where
  wrote i id state hmem := by cases hmem
  failed i error hmem := by cases hmem

/-- In an orderly run a task that is stopped or failed stays so, a task shown as running has a
worker that has not ended, and a call that failed has left the registry alone. -/
theorem tasks_lifecycle
    (horderly : Transition.Along step Orderly { registry := { capacity } } (as ++ bs))
    (hrun : Transition.run step { registry := { capacity } } as = some (s, es))
    (hrest : Transition.run step s bs = some (t, fs)) :
    (∀ id state, s.registry.stateOf id = some state → state.Final →
      t.registry.stateOf id = some state) ∧
    (∀ id, s.registry.stateOf id = some .running →
      ∃ worker ∈ s.workers, worker.taskId = id ∧ worker.phase.isEnded = false) ∧
    ∀ i error, .failed i error ∈ es → ∀ id state, .wrote (.call i) id state ∉ es := by
  obtain ⟨hfirst, hlater⟩ := (Transition.along_append hrun).mp horderly
  obtain ⟨hinv, htold⟩ := inv_run (inv_empty capacity) (told_empty _) hfirst hrun
  refine ⟨fun id state hstate hfinal => final_run hinv hlater hrest hstate hfinal,
    fun id hrunning => ?_, fun i error hfailed id state hwrote => ?_⟩
  · by_cases hat : ∃ w, s.WorkerAt w id
    · obtain ⟨w, hat⟩ := hat
      obtain ⟨worker, hmem, -, rfl⟩ := workerAt_mem hat
      refine ⟨worker, hmem, rfl, ?_⟩
      cases hphase : worker.phase with
      | ended ending =>
        have hshows := hinv.shown worker hmem
        rw [Worker.Shows, hphase, hrunning] at hshows
        cases ending <;> cases hshows
      | _ => rfl
    · cases hinv.alone id .running hrunning (not_exists.mp hat)
  · obtain ⟨c, hc, hcw⟩ := htold.wrote i id state hwrote
    rw [htold.failed i error hfailed] at hc
    cases hc
    exact hcw

def cameraRequest : StartRecordRequest where
  format := "mp4"
  app := "live"
  stream := "camera"
  taskId := some "t"

/-- A recording that is started, runs to its end and is asked to stop then. -/
def recorded : List Action :=
  [.start cameraRequest, .advance 0, .advance 0, .advance 0, .advance 0, .work 0 .ok, .work 0 .ok,
    .work 0 .ok, .work 0 .again, .work 0 .ok, .work 0 .ok, .work 0 .ok, .work 0 .ok,
    .stop "t", .advance 1, .advance 1]

theorem tasks_lifecycle_recorded : ∃ t fs,
    Transition.run step { registry := { capacity := 8 } } recorded = some (t, fs) ∧
      ∀ i error, .failed i error ∈ fs → ∀ id state, .wrote (.call i) id state ∉ fs := by
  obtain ⟨⟨t, fs⟩, hrun⟩ :
    ∃ r, Transition.run step { registry := { capacity := 8 } } recorded = some r :=
    Option.isSome_iff_exists.mp (by decide +kernel)
  have horderly : Transition.Along step Orderly { registry := { capacity := 8 } }
      (recorded ++ []) := by
    decide +kernel
  exact ⟨t, fs, hrun, (tasks_lifecycle horderly hrun rfl).2.2⟩

/-- A worker that fails before `start` marks its task as running; a stop after a failure; and an
executor that refuses a task. -/
theorem failed_shown_running :
    ((Transition.run step { registry := { capacity := 8 } } [.start cameraRequest, .advance 0,
        .advance 0, .work 0 .fails, .work 0 .ok, .advance 0]).map fun r =>
      (r.1.registry.stateOf "t", r.1.workers.map (·.phase), r.2)) =
      some (some .running, [.ended .failed], [.wrote (.call 0) "t" .pending,
        .wrote (.worker 0) "t" .failed, .wrote (.call 0) "t" .running]) ∧
    ((Transition.run step { registry := { capacity := 8 } } [.start cameraRequest, .advance 0,
        .advance 0, .advance 0, .work 0 .fails, .work 0 .ok, .stop "t", .advance 1,
        .advance 1]).map fun r => (r.1.registry.stateOf "t", r.2)) =
      some (some .stopped, [.wrote (.call 0) "t" .pending, .wrote (.call 0) "t" .running,
        .wrote (.worker 0) "t" .failed, .wrote (.call 1) "t" .stopped, .returned 1 .stopped]) ∧
    ((Transition.run step { registry := { capacity := 8 } } [.start cameraRequest, .advance 0,
        .refuse 0 (.spawnFailed "full")]).map fun r => (r.1.registry.stateOf "t", r.2)) =
      some (some .pending, [.wrote (.call 0) "t" .pending,
        .failed 0 (.executor (.spawnFailed "full"))]) := by
  decide +kernel

end Run

end Lifecycle
end CheetahMedia.Record
