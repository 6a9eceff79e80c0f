import CheetahMedia.ControlPlane.Durable

namespace CheetahMedia.ControlPlane.Durable
open Lib

/-- An operation that may fail. -/
abbrev Attempt (α : Type) := ExceptT Failure (Program Call Answer) α

def request (c : Call) : Program Call Answer (Answer c) := Program.request c

def ask (c : Call) : Attempt (Answer c) := ExceptT.lift (request c)

/-- Where the answer may be a failure, it is passed on. -/
def tryAsk {α : Type} (p : Program Call Answer (Except Failure α)) : Attempt α := ExceptT.mk p

/-- The payload of the events of a resource. -/
structure ResourceStateChanged where
  resourceKind : String
  resourceHandle : String
  mediaSessionId : Option String
  mediaBindingId : Option String
  previousState : ResourceState
  newState : ResourceState
  ownerEpoch : UInt64
  generation : UInt64
  mediaKey : Option String
  lastError : Option MediaError

/-- `serde_json::to_string` of a payload. -/
abbrev Render := ResourceStateChanged → String

namespace MutationOrchestrator

inductive PrepareResult
  | proceed (key : IdempotencyKey) (digest : CanonicalDigest)
  | replay (record : IdempotencyRecord)
  | conflict
  | reconcile (record : IdempotencyRecord)

/-- `char::is_control`. -/
def isControl (c : Char) : Bool := c.val < 0x20 || (0x7f ≤ c.val && c.val < 0xa0)

def validate (key : IdempotencyKey) : Except Failure Unit :=
  if key.key.isEmpty then
    .error (.media { code := .invalidArgument, message := "idempotency key must be non-empty" })
  else if key.key.toList.any isControl then
    .error (.media
      { code := .invalidArgument
        message := "idempotency key must not contain control characters" })
  else if key.operationKind.isEmpty then
    .error (.media { code := .invalidArgument, message := "operation kind must be non-empty" })
  else .ok ()

def busy (message : String) : Failure :=
  .media { code := .busy, message, retryable := true, retryAfterMs := some 100 }

/-- The gates of the node and of its capacity. -/
def gates : Attempt Unit := do
  if let some state ← ask .nodeState then
    if state ≠ .active then
      let state := (← ask .nodeState).getD .disabled
      throw (busy s!"node is not accepting mutations (state={state.debug})")
  if let some isOpen ← ask .nodeGate then
    if !isOpen then
      throw (busy "node create gate is closed")

def prepare (key : IdempotencyKey) (digest : CanonicalDigest) (expiresAtMs : Int) :
    Attempt PrepareResult := do
  tryAsk (pure (validate key))
  gates
  let now ← ask .now
  match ← ask (.idempotencyPrepare key digest expiresAtMs now) with
  | .proceed => return .proceed key digest
  | .replay record => return .replay record
  | .conflict => return .conflict
  | .reconcile =>
    match ← ask (.idempotencyGet key) with
    | some record => return .reconcile record
    | none => throw (.internal "idempotency reconcile without stored record")

/-- `saturating_add` of a day. -/
def dayAfter (now : Int) : Int := min (2 ^ 63 - 1) (now + 24 * 60 * 60 * 1000)

/-- A resource that is there already is taken for the one of an earlier attempt. -/
def register (record : ResourceRecord) : Attempt Unit := do
  match ← ask (.resourceInsert record) with
  | .ok () => return ()
  | .error (.controlPlane (.conflict _)) =>
    if (← ask (.resourceGet record.key)).isNone then
      throw (.controlPlane (.conflict "resource insert conflict without existing row"))
  | .error e => throw e

def completeSuccess (key : IdempotencyKey) (digest : CanonicalDigest)
    (resource : Option ResourceRecord) (domainResult : Option String) :
    Attempt IdempotencyRecord := do
  if let some record := resource then
    register record
  let now ← ask .now
  let record : IdempotencyRecord :=
    { key
      state := .completed
      canonicalDigest := digest
      resourceRef := resource.map (·.resourceRef)
      effectOutcome := .applied
      serializedDomainResult := domainResult
      safeError := none
      createdAtMs := now
      updatedAtMs := now
      expiresAtMs := dayAfter now
      attemptCount := 1 }
  tryAsk (request (.idempotencyComplete record))
  return record

def completeFailure (key : IdempotencyKey) (digest : CanonicalDigest) (error : MediaError)
    (outcome : EffectOutcome) (resourceRef : Option ControlledResourceRef) :
    Attempt IdempotencyRecord := do
  let now ← ask .now
  let record : IdempotencyRecord :=
    { key
      state := if outcome = .unknown then .unknown else .failed
      canonicalDigest := digest
      resourceRef
      effectOutcome := outcome
      serializedDomainResult := none
      safeError := some error
      createdAtMs := now
      updatedAtMs := now
      expiresAtMs := dayAfter now
      attemptCount := 1 }
  tryAsk (request (.idempotencyComplete record))
  return record

end MutationOrchestrator

namespace RecoveryEngine

structure RecoveryLimits where
  maxResources : Nat := 1000
  maxIdempotency : Nat := 1000
  deadlineMs : Int := 30000

structure RecoveryReport where
  resourcesScanned : Nat := 0
  resourcesConverged : Nat := 0
  resourcesFailed : Nat := 0
  resourcesUnknown : Nat := 0
  idempotencyScanned : Nat := 0
  idempotencyConverged : Nat := 0
  elapsedMs : Int := 0

inductive ConvergeOutcome
  | unchanged
  | converged
  | ambiguous
deriving DecidableEq

def setState (key : ResourceKey) (state : ResourceState) : Attempt Unit :=
  tryAsk (request (.setState key state))

def tombstone (key : ResourceKey) (state : ResourceState) : Attempt Unit :=
  if state.isTerminal then setState key state
  else throw (.controlPlane (.invalidArgument "tombstone state must be terminal"))

def payload (ref : ControlledResourceRef) (previousState newState : ResourceState)
    (lastError : Option MediaError) (generation : UInt64) : ResourceStateChanged where
  resourceKind := ref.key.resourceKind
  resourceHandle := ref.key.resourceHandle
  mediaSessionId := ref.mediaSessionId
  mediaBindingId := ref.mediaBindingId
  previousState
  newState
  ownerEpoch := ref.ownerEpoch
  generation
  mediaKey := none
  lastError

def stateEvent (ref : ControlledResourceRef) (sequence : UInt64) (serialized : String)
    (occurredAt expiresAt : Int) : EventRecord where
  eventId := s!"evt-{ref.nodeInstanceEpoch}-{sequence}"
  instanceEpoch := ref.nodeInstanceEpoch
  sequence
  tenantId := ref.key.tenantId
  resourceKind := some ref.key.resourceKind
  resourceHandle := some ref.key.resourceHandle
  occurredAt
  eventKind := "resource_state_changed"
  serializedPayload := serialized
  correlationId := none
  traceparent := none
  tracestate := none
  expiresAt

section
variable (render : Render)

def backfillStateEvent (ref : ControlledResourceRef) (previousState newState : ResourceState)
    (lastError : Option MediaError) (generation : UInt64) : Attempt Unit := do
  let sequence ← tryAsk (request (.nextSequence ref.nodeInstanceEpoch))
  let serialized := render (payload ref previousState newState lastError generation)
  let occurredAt ← ask .now
  let now ← ask .now
  tryAsk (request (.append
    (stateEvent ref sequence serialized occurredAt (now + 86400000))))

/-- The provider is behind the stored generation. -/
def convergeStale (resource : ResourceRecord) : Attempt ConvergeOutcome := do
  if resource.state ≠ .unknown then
    setState resource.key .unknown
    backfillStateEvent render resource.resourceRef resource.state .unknown resource.safeLastError
      resource.generation
  return .ambiguous

/-- The provider is ahead of it. Where another writer was faster, the state is set all the same,
and what is stored then is recorded. -/
def convergeNewer (resource : ResourceRecord) (state : ResourceState) (generation : UInt64) :
    Attempt ConvergeOutcome := do
  if ← ask (.compareAndSetGeneration resource.key resource.generation generation state) then
    backfillStateEvent render resource.resourceRef resource.state state resource.safeLastError
      generation
    return .converged
  else
    setState resource.key state
    match ← ask (.resourceGet resource.key) with
    | none =>
      throw (.controlPlane (.notFound "controlled resource disappeared during convergence"))
    | some updated =>
      if updated.state ≠ resource.state ∨ updated.generation ≠ resource.generation then
        backfillStateEvent render resource.resourceRef resource.state updated.state
          resource.safeLastError updated.generation
        return .converged
      else return .unchanged

def convergeSame (resource : ResourceRecord) (state : ResourceState) : Attempt ConvergeOutcome := do
  if state ≠ resource.state then
    setState resource.key state
    backfillStateEvent render resource.resourceRef resource.state state resource.safeLastError
      resource.generation
    return .converged
  else return .unchanged

def convergeResource (resource : ResourceRecord) (state : ResourceState) (generation : UInt64) :
    Attempt ConvergeOutcome :=
  if generation < resource.generation then convergeStale render resource
  else if resource.generation < generation then convergeNewer render resource state generation
  else convergeSame render resource state

/-- One round of the loop over the resources. -/
def recoverResource (resource : ResourceRecord) (report : RecoveryReport) :
    Attempt RecoveryReport := do
  let report := { report with resourcesScanned := report.resourcesScanned + 1 }
  match ← tryAsk (request (.probe resource.resourceRef)) with
  | .found state generation =>
    match ← convergeResource render resource state generation with
    | .converged => return { report with resourcesConverged := report.resourcesConverged + 1 }
    | .ambiguous => return { report with resourcesUnknown := report.resourcesUnknown + 1 }
    | .unchanged => return report
  | .gone =>
    tombstone resource.key .stopped
    backfillStateEvent render resource.resourceRef resource.state .stopped none resource.generation
    return { report with resourcesFailed := report.resourcesFailed + 1 }
  | .unknown =>
    if resource.state ≠ .unknown then
      setState resource.key .unknown
      backfillStateEvent render resource.resourceRef resource.state .unknown
        resource.safeLastError resource.generation
    return { report with resourcesUnknown := report.resourcesUnknown + 1 }

/-- The loop ends at the deadline. -/
def recoverResources (deadline : Int) : List ResourceRecord → RecoveryReport → Attempt RecoveryReport
  | [], report => return report
  | resource :: rest, report => do
    if deadline < (← ask .now) then
      return report
    else
      recoverResources deadline rest (← recoverResource render resource report)

/-- A resource that only an idempotency record knows of. -/
def recoveredRecord (record : IdempotencyRecord) (ref : ControlledResourceRef)
    (state : ResourceState) (generation : UInt64) (createdAtMs updatedAtMs : Int) :
    ResourceRecord where
  key := ref.key
  mediaSessionId := ref.mediaSessionId
  mediaBindingId := ref.mediaBindingId
  mediaKey := none
  idempotencyScope :=
    some s!"{record.key.tenantId}/{record.key.operationKind}/{record.key.key}"
  canonicalDigest := some record.canonicalDigest
  acceptedOwnerEpoch := ref.ownerEpoch
  mediaNodeId := none
  mediaNodeInstanceId := none
  mediaNodeInstanceEpoch := ref.nodeInstanceEpoch
  generation
  state
  safeLastError := none
  origin := ref.origin
  createdAtMs
  updatedAtMs
  terminalAtMs := none

def reconcileFound (record : IdempotencyRecord) (ref : ControlledResourceRef)
    (state : ResourceState) (generation : UInt64) : Attempt ConvergeOutcome := do
  match ← ask (.resourceGet ref.key) with
  | some existing => convergeResource render existing state generation
  | none =>
    let createdAtMs ← ask .now
    let updatedAtMs ← ask .now
    tryAsk (request (.resourceInsert
      (recoveredRecord record ref state generation createdAtMs updatedAtMs)))
    backfillStateEvent render ref .pending state none generation
    return .converged

/-- A completion stamped with the time. -/
def completeNow (record : IdempotencyRecord) : Attempt Unit := do
  let now ← ask .now
  tryAsk (request (.idempotencyComplete { record with updatedAtMs := now }))

def reconcileIdempotency (record : IdempotencyRecord) (ref : ControlledResourceRef)
    (report : RecoveryReport) : Attempt RecoveryReport := do
  match ← tryAsk (request (.probe ref)) with
  | .found state generation =>
    let outcome ← reconcileFound render record ref state generation
    if outcome = .ambiguous then
      completeNow { record with state := .unknown, effectOutcome := .unknown }
    else
      completeNow { record with state := .completed, effectOutcome := .applied }
    return { report with idempotencyConverged := report.idempotencyConverged + 1 }
  | .gone =>
    completeNow { record with
      state := .failed
      effectOutcome := .notApplied
      safeError :=
        some { code := .notFound, message := "resource gone during startup recovery" } }
    return { report with idempotencyConverged := report.idempotencyConverged + 1 }
  | .unknown =>
    completeNow { record with state := .unknown }
    return report

/-- One round of the loop over the idempotency records. -/
def recoverRecord (record : IdempotencyRecord) (report : RecoveryReport) :
    Attempt RecoveryReport := do
  let report := { report with idempotencyScanned := report.idempotencyScanned + 1 }
  match record.resourceRef with
  | some ref => reconcileIdempotency render record ref report
  | none =>
    completeNow { record with state := .unknown }
    return report

def recoverRecords (deadline : Int) : List IdempotencyRecord → RecoveryReport → Attempt RecoveryReport
  | [], report => return report
  | record :: rest, report => do
    if deadline < (← ask .now) then
      return report
    else
      recoverRecords deadline rest (← recoverRecord render record report)

def recover (limits : RecoveryLimits) : Attempt RecoveryReport := do
  let startedAt ← ask .now
  let deadline := startedAt + limits.deadlineMs
  let resources ← ask (.listNonTerminal limits.maxResources)
  let report ← recoverResources render deadline resources {}
  let records ← ask (.listPreparedUnknown limits.maxIdempotency)
  let report ← recoverRecords render deadline records report
  let now ← ask .now
  return { report with elapsedMs := now - startedAt }

end
end RecoveryEngine

/-- What callers may be asked for: the operations of the orchestrator and of the recovery engine,
any call of another writer, and what happens outside. -/
inductive Operation
  | prepare (key : IdempotencyKey) (digest : CanonicalDigest) (expiresAtMs : Int)
  | completeSuccess (key : IdempotencyKey) (digest : CanonicalDigest)
      (resource : Option ResourceRecord) (domainResult : Option String)
  | completeFailure (key : IdempotencyKey) (digest : CanonicalDigest) (error : MediaError)
      (outcome : EffectOutcome) (resourceRef : Option ControlledResourceRef)
  | recover (limits : RecoveryEngine.RecoveryLimits)
  | convergeResource (resource : ResourceRecord) (state : ResourceState) (generation : UInt64)
  | tombstone (key : ResourceKey) (state : ResourceState)
  | single (c : Call)

/-- What an operation returns is left to its caller. -/
def discard {α : Type} (p : Attempt α) : Program Call Answer Unit := p.run >>= fun _ => pure ()

def program (render : Render) : Operation → Program Call Answer Unit
  | .prepare key digest expiresAtMs =>
    discard (MutationOrchestrator.prepare key digest expiresAtMs)
  | .completeSuccess key digest resource domainResult =>
    discard (MutationOrchestrator.completeSuccess key digest resource domainResult)
  | .completeFailure key digest error outcome resourceRef =>
    discard (MutationOrchestrator.completeFailure key digest error outcome resourceRef)
  | .recover limits => discard (RecoveryEngine.recover render limits)
  | .convergeResource resource state generation =>
    discard (RecoveryEngine.convergeResource render resource state generation)
  | .tombstone key state => discard (RecoveryEngine.tombstone key state)
  | .single c => discard (ask c)

abbrev step (render : Render) := Program.step answer (program render)

end CheetahMedia.ControlPlane.Durable
