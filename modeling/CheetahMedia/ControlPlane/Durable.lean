import CheetahMedia.ControlPlane.EventStore
import CheetahMedia.ControlPlane.NodeSupervisor
import CheetahMedia.ControlPlane.Reconciler
import CheetahMedia.Lib.Program

namespace CheetahMedia.ControlPlane.Durable
open Lib

inductive ResourceOrigin
  | cluster
  | «local»
deriving DecidableEq

structure ControlledResourceRef where
  key : ResourceKey
  mediaSessionId : Option String
  mediaBindingId : Option String
  ownerEpoch : UInt64
  nodeInstanceEpoch : UInt64
  generation : UInt64
  origin : ResourceOrigin
deriving DecidableEq

inductive MediaErrorCode
  | invalidArgument | unauthenticated | permissionDenied | notFound | alreadyExists | conflict
  | staleOwner | busy | rateLimited | timeout | cancelled | unavailable | unsupported
  | versionMismatch | cursorExpired | storageFailed | protocolFailed | internal | unknownOutcome
deriving DecidableEq

/-- Whether side effects were left behind. -/
inductive EffectOutcome
  | notApplied
  | applied
  | unknown
deriving DecidableEq

def EffectOutcome.ofCode : MediaErrorCode → EffectOutcome
  | .invalidArgument | .unauthenticated | .permissionDenied | .notFound | .alreadyExists
  | .conflict | .staleOwner | .busy | .rateLimited | .unsupported | .versionMismatch
  | .cursorExpired => .notApplied
  | .timeout | .cancelled | .unavailable | .storageFailed | .protocolFailed | .internal
  | .unknownOutcome => .unknown

structure FieldViolation where
  field : String
  description : String
  value : Option String
deriving DecidableEq

/-- JSON values stand as their texts. -/
structure MediaError where
  code : MediaErrorCode
  message : String
  retryable : Bool := false
  requestId : Option String := none
  correlationId : Option String := none
  details : List (String × String) := []
  outcome : EffectOutcome := .ofCode code
  resourceRef : Option ControlledResourceRef := none
  retryAfterMs : Option UInt64 := none
  violations : List FieldViolation := []
deriving DecidableEq

/-- `ControlPlaneError`, with the variants that only these operations return. -/
inductive Failure
  | media (error : MediaError)
  | invalidIdempotencyState
  | internal (message : String)
  | controlPlane (error : ControlPlaneError)
deriving DecidableEq

abbrev CanonicalDigest := Vector UInt8 32

structure IdempotencyKey where
  tenantId : String
  operationKind : String
  key : String
deriving DecidableEq

inductive IdempotencyState
  | prepared
  | completed
  | failed
  | unknown
deriving DecidableEq

def IdempotencyState.isFinal : IdempotencyState → Bool
  | .completed | .failed => true
  | .prepared | .unknown => false

structure IdempotencyRecord where
  key : IdempotencyKey
  state : IdempotencyState
  canonicalDigest : CanonicalDigest
  resourceRef : Option ControlledResourceRef
  effectOutcome : EffectOutcome
  serializedDomainResult : Option String
  safeError : Option MediaError
  createdAtMs : Int
  updatedAtMs : Int
  expiresAtMs : Int
  attemptCount : Nat
deriving DecidableEq

structure ResourceRecord where
  key : ResourceKey
  mediaSessionId : Option String
  mediaBindingId : Option String
  mediaKey : Option String
  idempotencyScope : Option String
  canonicalDigest : Option CanonicalDigest
  acceptedOwnerEpoch : UInt64
  mediaNodeId : Option String
  mediaNodeInstanceId : Option String
  mediaNodeInstanceEpoch : UInt64
  generation : UInt64
  state : ResourceState
  safeLastError : Option MediaError
  origin : ResourceOrigin
  createdAtMs : Int
  updatedAtMs : Int
  terminalAtMs : Option Int
deriving DecidableEq

def ResourceRecord.resourceRef (r : ResourceRecord) : ControlledResourceRef where
  key := r.key
  mediaSessionId := r.mediaSessionId
  mediaBindingId := r.mediaBindingId
  ownerEpoch := r.acceptedOwnerEpoch
  nodeInstanceEpoch := r.mediaNodeInstanceEpoch
  generation := r.generation
  origin := r.origin

inductive IdempotencyOutcome
  | proceed
  | replay (record : IdempotencyRecord)
  | conflict
  | reconcile
deriving DecidableEq

/-- What a typed provider says of a resource. -/
inductive ProbeResult
  | found (state : ResourceState) (generation : UInt64)
  | gone
  | unknown
deriving DecidableEq

/-- The tables of the store, and what lies outside it: the clock, the providers, the state of the
node and its create gate, where these are attached. -/
structure Store where
  resources : List ResourceRecord
  records : List IdempotencyRecord
  events : EventStore
  clock : Int
  provider : ControlledResourceRef → Except Failure ProbeResult
  node : Option NodeState
  nodeGate : Option Bool

namespace Store

def resource? (s : Store) (key : ResourceKey) : Option ResourceRecord :=
  s.resources.find? (·.key = key)

def record? (s : Store) (key : IdempotencyKey) : Option IdempotencyRecord :=
  s.records.find? (·.key = key)

/-- An `UPDATE` of the row of a key. -/
def update (s : Store) (key : ResourceKey) (f : ResourceRecord → ResourceRecord) : Store :=
  { s with resources := s.resources.map fun r => if r.key = key then f r else r }

/-- `CASE WHEN .. AND terminal_at_ms IS NULL THEN .. ELSE terminal_at_ms END`. -/
def terminalAt (s : Store) (state : ResourceState) (r : ResourceRecord) : Option Int :=
  if state.isTerminal && r.terminalAtMs.isNone then some s.clock else r.terminalAtMs

def insert (s : Store) (record : ResourceRecord) : Store × Except Failure Unit :=
  if (s.resource? record.key).isSome then
    (s, .error (.controlPlane (.conflict "controlled resource already exists")))
  else
    let row := { record with
      terminalAtMs :=
        if record.state.isTerminal then some (record.terminalAtMs.getD s.clock) else none }
    ({ s with resources := s.resources ++ [row] }, .ok ())

def compareAndSetOwnerEpoch (s : Store) (key : ResourceKey) (expected new : UInt64) :
    Store × Bool :=
  match s.resource? key with
  | some r =>
    if r.acceptedOwnerEpoch = expected then
      (s.update key fun r => { r with acceptedOwnerEpoch := new, updatedAtMs := s.clock }, true)
    else (s, false)
  | none => (s, false)

def compareAndSetGeneration (s : Store) (key : ResourceKey) (expected new : UInt64)
    (state : ResourceState) : Store × Bool :=
  match s.resource? key with
  | some r =>
    if r.generation = expected then
      (s.update key fun r => { r with
        generation := new
        state
        terminalAtMs := s.terminalAt state r
        updatedAtMs := s.clock }, true)
    else (s, false)
  | none => (s, false)

def setState (s : Store) (key : ResourceKey) (state : ResourceState) : Store × Except Failure Unit :=
  if (s.resource? key).isSome then
    (s.update key fun r => { r with
      state
      terminalAtMs := s.terminalAt state r
      updatedAtMs := s.clock }, .ok ())
  else (s, .error (.controlPlane (.notFound "controlled resource not found")))

def listNonTerminal (s : Store) (maxRecords : Nat) : List ResourceRecord :=
  ((s.resources.filter (!·.state.isTerminal)).insertionSort fun r r' =>
    r.updatedAtMs ≤ r'.updatedAtMs).take maxRecords

def deleteRecord (s : Store) (key : IdempotencyKey) : Store :=
  { s with records := s.records.filter (·.key ≠ key) }

/-- `INSERT OR REPLACE`. -/
def putRecord (s : Store) (record : IdempotencyRecord) : Store :=
  { s with records := s.records.filter (·.key ≠ record.key) ++ [record] }

def getRecord (s : Store) (key : IdempotencyKey) : Store × Option IdempotencyRecord :=
  match s.record? key with
  | some r => if r.expiresAtMs < s.clock then (s.deleteRecord key, none) else (s, some r)
  | none => (s, none)

def preparedRecord (key : IdempotencyKey) (digest : CanonicalDigest) (expiresAtMs now : Int) :
    IdempotencyRecord where
  key
  state := .prepared
  canonicalDigest := digest
  resourceRef := none
  effectOutcome := .notApplied
  serializedDomainResult := none
  safeError := none
  createdAtMs := now
  updatedAtMs := now
  expiresAtMs
  attemptCount := 0

/-- The clock was read before the transaction begins. -/
def prepare (s : Store) (key : IdempotencyKey) (digest : CanonicalDigest) (expiresAtMs now : Int) :
    Store × IdempotencyOutcome :=
  let fresh := (s.putRecord (preparedRecord key digest expiresAtMs now), IdempotencyOutcome.proceed)
  match s.record? key with
  | some r =>
    if r.expiresAtMs < now then fresh
    else if r.canonicalDigest ≠ digest then (s, .conflict)
    else if r.state.isFinal then (s, .replay r)
    else (s, .reconcile)
  | none => fresh

/-- Only the digest of a row that is there is looked at. -/
def complete (s : Store) (record : IdempotencyRecord) : Store × Except Failure Unit :=
  match s.record? record.key with
  | some r =>
    if r.canonicalDigest ≠ record.canonicalDigest then (s, .error .invalidIdempotencyState)
    else
      (s.putRecord { record with
        createdAtMs := r.createdAtMs
        attemptCount := r.attemptCount + 1 }, .ok ())
  | none => (s.putRecord record, .ok ())

def listPreparedUnknown (s : Store) (maxRecords : Nat) : List IdempotencyRecord :=
  ((s.records.filter (!·.state.isFinal)).insertionSort fun r r' =>
    r.updatedAtMs ≤ r'.updatedAtMs).take maxRecords

theorem resource?_key (h : resource? s key = some r) : r.key = key := by
  simpa using List.find?_some h

theorem resource?_update {s : Store} (hf : ∀ r, (f r).key = r.key) :
    (s.update key f).resource? key' =
      if key' = key then (s.resource? key).map f else s.resource? key' := by
  have hkey : ∀ r : ResourceRecord, (if r.key = key then f r else r).key = r.key := by
    intro r
    split
    · exact hf r
    · rfl
  simp only [resource?, update, List.find?_map, Function.comp_def, hkey]
  split
  next heq =>
    subst heq
    cases hfind : s.resources.find? (·.key = key') with
    | none => rfl
    | some r => simp [resource?_key (s := s) hfind]
  next hne =>
    cases hfind : s.resources.find? (·.key = key') with
    | none => rfl
    | some r => simp [resource?_key (s := s) hfind, hne]

theorem find?_others {records : List IdempotencyRecord} (hne : key' ≠ key) :
    (records.filter (·.key ≠ key)).find? (·.key = key') = records.find? (·.key = key') := by
  rw [List.find?_filter]
  congr 1
  funext r
  by_cases hr : r.key = key' <;> simp [hr, hne]

theorem find?_deleted {records : List IdempotencyRecord} :
    (records.filter (·.key ≠ key)).find? (·.key = key) = none := by
  rw [List.find?_filter, List.find?_eq_none]
  simp

theorem record?_putRecord {s : Store} :
    (s.putRecord r).record? key = if key = r.key then some r else s.record? key := by
  unfold record? putRecord
  rw [List.find?_append]
  split
  next heq =>
    subst heq
    rw [find?_deleted]
    simp
  next hne =>
    rw [find?_others hne, List.find?_singleton, if_neg (by simpa using Ne.symm hne), Option.or_none]

theorem record?_deleteRecord_of_ne {s : Store} (hne : key' ≠ key) :
    (s.deleteRecord key).record? key' = s.record? key' :=
  find?_others hne

end Store

/-- What may happen outside the store. -/
inductive Outside
  | clock (now : Int)
  | provider (probe : ControlledResourceRef → Except Failure ProbeResult)
  | node (state : Option NodeState)
  | nodeGate (isOpen : Option Bool)

def Store.happen (s : Store) : Outside → Store
  | .clock now => { s with clock := now }
  | .provider probe => { s with provider := probe }
  | .node state => { s with node := state }
  | .nodeGate isOpen => { s with nodeGate := isOpen }

/-- What operations ask, each in one transaction. One that the database fails ends its caller. -/
inductive Call
  | now
  | nodeState
  | nodeGate
  | probe (ref : ControlledResourceRef)
  | resourceGet (key : ResourceKey)
  | resourceInsert (record : ResourceRecord)
  | compareAndSetOwnerEpoch (key : ResourceKey) (expected new : UInt64)
  | compareAndSetGeneration (key : ResourceKey) (expected new : UInt64) (state : ResourceState)
  | setState (key : ResourceKey) (state : ResourceState)
  | listNonTerminal (maxRecords : Nat)
  | idempotencyGet (key : IdempotencyKey)
  | idempotencyPrepare (key : IdempotencyKey) (digest : CanonicalDigest) (expiresAtMs now : Int)
  | idempotencyComplete (record : IdempotencyRecord)
  | listPreparedUnknown (maxRecords : Nat)
  | nextSequence (epoch : UInt64)
  | append (event : EventRecord)
  | outside (o : Outside)

abbrev Answer : Call → Type
  | .now => Int
  | .nodeState => Option NodeState
  | .nodeGate => Option Bool
  | .probe _ => Except Failure ProbeResult
  | .resourceGet _ => Option ResourceRecord
  | .resourceInsert _ | .setState _ _ | .idempotencyComplete _ | .append _ => Except Failure Unit
  | .compareAndSetOwnerEpoch _ _ _ | .compareAndSetGeneration _ _ _ _ => Bool
  | .listNonTerminal _ => List ResourceRecord
  | .idempotencyGet _ => Option IdempotencyRecord
  | .idempotencyPrepare _ _ _ _ => IdempotencyOutcome
  | .listPreparedUnknown _ => List IdempotencyRecord
  | .nextSequence _ => Except Failure UInt64
  | .outside _ => Unit

def answer : (c : Call) → Store → Store × Answer c
  | .now, s => (s, s.clock)
  | .nodeState, s => (s, s.node)
  | .nodeGate, s => (s, s.nodeGate)
  | .probe ref, s => (s, s.provider ref)
  | .resourceGet key, s => (s, s.resource? key)
  | .resourceInsert record, s => s.insert record
  | .compareAndSetOwnerEpoch key expected new, s => s.compareAndSetOwnerEpoch key expected new
  | .compareAndSetGeneration key expected new state, s =>
    s.compareAndSetGeneration key expected new state
  | .setState key state, s => s.setState key state
  | .listNonTerminal maxRecords, s => (s, s.listNonTerminal maxRecords)
  | .idempotencyGet key, s => s.getRecord key
  | .idempotencyPrepare key digest expiresAtMs now, s => s.prepare key digest expiresAtMs now
  | .idempotencyComplete record, s => s.complete record
  | .listPreparedUnknown maxRecords, s => (s, s.listPreparedUnknown maxRecords)
  | .nextSequence epoch, s => (s, (s.events.nextSequence epoch).mapError .controlPlane)
  | .append event, s =>
    match s.events.append event with
    | .ok events => ({ s with events }, .ok ())
    | .error e => (s, .error (.controlPlane e))
  | .outside o, s => (s.happen o, ())

namespace Store

theorem insert_records (s : Store) (record : ResourceRecord) :
    (s.insert record).1.records = s.records := by
  unfold insert
  split <;> rfl

theorem compareAndSetOwnerEpoch_records (s : Store) (key : ResourceKey) (expected new : UInt64) :
    (s.compareAndSetOwnerEpoch key expected new).1.records = s.records := by
  unfold compareAndSetOwnerEpoch
  split
  · split <;> rfl
  · rfl

theorem compareAndSetGeneration_records (s : Store) (key : ResourceKey) (expected new : UInt64)
    (state : ResourceState) :
    (s.compareAndSetGeneration key expected new state).1.records = s.records := by
  unfold compareAndSetGeneration
  split
  · split <;> rfl
  · rfl

theorem setState_records (s : Store) (key : ResourceKey) (state : ResourceState) :
    (s.setState key state).1.records = s.records := by
  unfold setState
  split <;> rfl

theorem append_records (s : Store) (event : EventRecord) :
    (answer (.append event) s).1.records = s.records := by
  unfold answer
  dsimp only
  split <;> rfl

theorem happen_records (s : Store) (o : Outside) : (s.happen o).records = s.records := by
  cases o <;> rfl

end Store

/-- What a call may do to the row of a key. -/
inductive Change (s : Store) (key : ResourceKey) (r : ResourceRecord) : Call → ResourceRecord → Prop
  | same (c : Call) : Change s key r c r
  | ownerEpoch (new : UInt64) :
      Change s key r (.compareAndSetOwnerEpoch key r.acceptedOwnerEpoch new)
        { r with acceptedOwnerEpoch := new, updatedAtMs := s.clock }
  | generation (new : UInt64) (state : ResourceState) :
      Change s key r (.compareAndSetGeneration key r.generation new state)
        { r with
          generation := new
          state
          terminalAtMs := s.terminalAt state r
          updatedAtMs := s.clock }
  | state (state : ResourceState) :
      Change s key r (.setState key state)
        { r with state, terminalAtMs := s.terminalAt state r, updatedAtMs := s.clock }

theorem change_update {s : Store} (hrow : s.resource? key = some r)
    (hf : ∀ r, (f r).key = r.key) (hchange : key = key' → Change s key r c (f r)) :
    ∃ r', (s.update key' f).resource? key = some r' ∧ Change s key r c r' := by
  rw [Store.resource?_update hf]
  split
  next heq =>
    subst heq
    exact ⟨f r, by rw [hrow]; rfl, hchange rfl⟩
  next => exact ⟨r, hrow, .same c⟩

/-- Rows are never deleted. -/
theorem resource_change {s : Store} (c : Call) (hrow : s.resource? key = some r) :
    ∃ r', (answer c s).1.resource? key = some r' ∧ Change s key r c r' := by
  have hsame : ∀ t : Store, t.resources = s.resources →
      ∃ r', t.resource? key = some r' ∧ Change s key r c r' := by
    intro t ht
    exact ⟨r, by rw [← hrow, Store.resource?, Store.resource?, ht], .same c⟩
  cases c with
  | resourceInsert record =>
    simp only [answer, Store.insert]
    split
    · exact ⟨r, hrow, .same _⟩
    · refine ⟨r, ?_, .same _⟩
      have hfind : s.resources.find? (·.key = key) = some r := hrow
      simp [Store.resource?, List.find?_append, hfind]
  | compareAndSetOwnerEpoch key' expected new =>
    simp only [answer, Store.compareAndSetOwnerEpoch]
    split
    next q hq =>
      split
      next heq =>
        refine change_update hrow (fun _ => rfl) fun hkey => ?_
        subst hkey
        cases hrow.symm.trans hq
        exact heq ▸ .ownerEpoch new
      next => exact ⟨r, hrow, .same _⟩
    next => exact ⟨r, hrow, .same _⟩
  | compareAndSetGeneration key' expected new state =>
    simp only [answer, Store.compareAndSetGeneration]
    split
    next q hq =>
      split
      next heq =>
        refine change_update hrow (fun _ => rfl) fun hkey => ?_
        subst hkey
        cases hrow.symm.trans hq
        exact heq ▸ .generation new state
      next => exact ⟨r, hrow, .same _⟩
    next => exact ⟨r, hrow, .same _⟩
  | setState key' state =>
    simp only [answer, Store.setState]
    split
    · refine change_update hrow (fun _ => rfl) fun hkey => ?_
      subst hkey
      exact .state state
    · exact ⟨r, hrow, .same _⟩
  | idempotencyGet key' =>
    simp only [answer, Store.getRecord]
    split
    · split <;> exact hsame _ rfl
    · exact hsame _ rfl
  | idempotencyPrepare key' digest expiresAtMs now =>
    simp only [answer, Store.prepare]
    split
    · split
      · exact hsame _ rfl
      · split
        · exact hsame _ rfl
        · split <;> exact hsame _ rfl
    · exact hsame _ rfl
  | idempotencyComplete record =>
    simp only [answer, Store.complete]
    split
    · split <;> exact hsame _ rfl
    · exact hsame _ rfl
  | append event =>
    simp only [answer]
    split <;> exact hsame _ rfl
  | outside o => cases o <;> exact hsame _ rfl
  | now | nodeState | nodeGate | probe | resourceGet | listNonTerminal | listPreparedUnknown
  | nextSequence => exact hsame _ rfl

end CheetahMedia.ControlPlane.Durable
