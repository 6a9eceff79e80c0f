import CheetahMedia.ControlPlane.Durable.Idempotency

namespace CheetahMedia.ControlPlane.Durable
open Lib

/-- Neither the generation nor the owner epoch is lowered. -/
def Call.Raises : Call → Prop
  | .compareAndSetGeneration _ expected new _ => expected < new
  | .compareAndSetOwnerEpoch _ _ _ => False
  | _ => True

/-- The calls that an operation may make; other writers make any. -/
def Operation.Makes : Operation → Call → Prop
  | .single _, _ => True
  | .convergeResource resource _ generation, .setState _ state =>
    generation < resource.generation → state = .unknown
  | .convergeResource _ _ generation, .compareAndSetGeneration _ expected new _ =>
    expected < new ∧ new = generation
  | .tombstone _ _, .setState _ state => state.isTerminal
  | .tombstone _ _, .compareAndSetGeneration _ _ _ _ => False
  | _, c => c.Raises

section
variable {ok : Call → Prop}

theorem always_bind {p : Attempt α} {f : α → Attempt β} (h : p.run.Always ok)
    (hf : ∀ a, (f a).run.Always ok) : (p >>= f).run.Always ok := by
  rw [ExceptT.run_bind]
  refine h.bind fun r => ?_
  cases r with
  | ok a => exact hf a
  | error e => trivial

theorem always_pure (a : α) : (pure a : Attempt α).run.Always ok := trivial

theorem always_throw (e : Failure) : (throw e : Attempt α).run.Always ok := trivial

theorem always_ask (h : ok c) : (ask c).run.Always ok := ⟨h, fun _ => trivial⟩

theorem always_discard {p : Attempt α} (h : p.run.Always ok) : (discard p).Always ok :=
  h.bind fun _ => trivial

/-- A call by itself, whose failure is passed on. -/
theorem always_tryAsk {p : Program Call Answer (Except Failure α)} (h : p.Always ok) :
    (tryAsk p).run.Always ok := h

theorem always_request (h : ok c) : (request c).Always ok := ⟨h, fun _ => trivial⟩

end

namespace RecoveryEngine
variable {ok : Call → Prop} (render : Render)

/-- Reading and the journal are open to all. -/
structure Open (ok : Call → Prop) : Prop where
  now : ok .now
  resourceGet : ∀ key, ok (.resourceGet key)
  nextSequence : ∀ epoch, ok (.nextSequence epoch)
  append : ∀ event, ok (.append event)

theorem backfillStateEvent_always (h : Open ok) (ref : ControlledResourceRef)
    (previousState newState : ResourceState) (lastError : Option MediaError) (generation : UInt64) :
    (backfillStateEvent render ref previousState newState lastError generation).run.Always ok :=
  always_bind (always_tryAsk (always_request (h.nextSequence _))) fun _ =>
    always_bind (always_ask h.now) fun _ =>
      always_bind (always_ask h.now) fun _ => always_tryAsk (always_request (h.append _))

theorem convergeStale_always (h : Open ok) (resource : ResourceRecord)
    (hset : ok (.setState resource.key .unknown)) :
    (convergeStale render resource).run.Always ok := by
  unfold convergeStale
  split
  · exact always_bind (always_tryAsk (always_request hset)) fun _ =>
      always_bind (backfillStateEvent_always render h ..) fun _ => always_pure _
  · exact always_pure _

theorem convergeNewer_always (h : Open ok) (resource : ResourceRecord) (state : ResourceState)
    (generation : UInt64)
    (hcas : ok (.compareAndSetGeneration resource.key resource.generation generation state))
    (hset : ok (.setState resource.key state)) :
    (convergeNewer render resource state generation).run.Always ok := by
  refine always_bind (always_ask hcas) fun won => ?_
  split
  · exact always_bind (backfillStateEvent_always render h ..) fun _ => always_pure _
  · refine always_bind (always_tryAsk (always_request hset)) fun _ => ?_
    refine always_bind (always_ask (h.resourceGet _)) fun found => ?_
    split
    · exact always_throw _
    · split
      · exact always_bind (backfillStateEvent_always render h ..) fun _ => always_pure _
      · exact always_pure _

theorem convergeSame_always (h : Open ok) (resource : ResourceRecord) (state : ResourceState)
    (hset : ok (.setState resource.key state)) :
    (convergeSame render resource state).run.Always ok := by
  unfold convergeSame
  split
  · exact always_bind (always_tryAsk (always_request hset)) fun _ =>
      always_bind (backfillStateEvent_always render h ..) fun _ => always_pure _
  · exact always_pure _

/-- Where the provider is behind, `unknown` is all that is written. -/
theorem convergeResource_always (h : Open ok) (resource : ResourceRecord) (state : ResourceState)
    (generation : UInt64)
    (hcas : resource.generation < generation →
      ok (.compareAndSetGeneration resource.key resource.generation generation state))
    (hset : ∀ state', (generation < resource.generation → state' = .unknown) →
      ok (.setState resource.key state')) :
    (convergeResource render resource state generation).run.Always ok := by
  unfold convergeResource
  split
  · exact convergeStale_always render h resource (hset .unknown fun _ => rfl)
  next hge =>
    have hset := hset state fun hlt => absurd hlt hge
    split
    next hlt => exact convergeNewer_always render h resource state generation (hcas hlt) hset
    next => exact convergeSame_always render h resource state hset

theorem openRaises : Open Call.Raises :=
  ⟨trivial, fun _ => trivial, fun _ => trivial, fun _ => trivial⟩

theorem convergeResource_raises (resource : ResourceRecord) (state : ResourceState)
    (generation : UInt64) :
    (convergeResource render resource state generation).run.Always Call.Raises :=
  convergeResource_always render openRaises resource state generation (fun hlt => hlt)
    fun _ _ => trivial

theorem backfillStateEvent_raises (ref : ControlledResourceRef)
    (previousState newState : ResourceState) (lastError : Option MediaError) (generation : UInt64) :
    (backfillStateEvent render ref previousState newState lastError generation).run.Always
      Call.Raises :=
  backfillStateEvent_always render openRaises ..

theorem recoverResource_raises (resource : ResourceRecord) (report : RecoveryReport) :
    (recoverResource render resource report).run.Always Call.Raises := by
  refine always_bind (always_tryAsk (always_request trivial)) fun result => ?_
  cases result with
  | found state generation =>
    refine always_bind (convergeResource_raises render resource state generation) fun outcome => ?_
    cases outcome <;> exact always_pure _
  | gone =>
    exact always_bind (always_tryAsk (always_request trivial)) fun _ =>
      always_bind (backfillStateEvent_raises render ..) fun _ => always_pure _
  | unknown =>
    dsimp only
    split
    · exact always_bind (always_tryAsk (always_request trivial)) fun _ =>
        always_bind (backfillStateEvent_raises render ..) fun _ => always_pure _
    · exact always_pure _

theorem recoverResources_raises (deadline : Int) (resources : List ResourceRecord)
    (report : RecoveryReport) :
    (recoverResources render deadline resources report).run.Always Call.Raises := by
  induction resources generalizing report with
  | nil => exact always_pure _
  | cons resource rest ih =>
    refine always_bind (always_ask trivial) fun now => ?_
    split
    · exact always_pure _
    · exact always_bind (recoverResource_raises render resource report) ih

theorem completeNow_raises (record : IdempotencyRecord) :
    (completeNow record).run.Always Call.Raises :=
  always_bind (always_ask trivial) fun _ => always_tryAsk (always_request trivial)

theorem reconcileFound_raises (record : IdempotencyRecord) (ref : ControlledResourceRef)
    (state : ResourceState) (generation : UInt64) :
    (reconcileFound render record ref state generation).run.Always Call.Raises := by
  refine always_bind (always_ask trivial) fun found => ?_
  cases found with
  | some existing => exact convergeResource_raises render existing state generation
  | none =>
    exact always_bind (always_ask trivial) fun _ => always_bind (always_ask trivial) fun _ =>
      always_bind (always_tryAsk (always_request trivial)) fun _ =>
        always_bind (backfillStateEvent_raises render ..) fun _ => always_pure _

theorem recoverRecord_raises (record : IdempotencyRecord) (report : RecoveryReport) :
    (recoverRecord render record report).run.Always Call.Raises := by
  unfold recoverRecord
  dsimp only
  split
  · refine always_bind (always_tryAsk (always_request trivial)) fun result => ?_
    cases result with
    | found state generation =>
      refine always_bind (reconcileFound_raises render record _ state generation) fun outcome => ?_
      split
      · exact always_bind (completeNow_raises _) fun _ => always_pure _
      · exact always_bind (completeNow_raises _) fun _ => always_pure _
    | gone => exact always_bind (completeNow_raises _) fun _ => always_pure _
    | unknown => exact always_bind (completeNow_raises _) fun _ => always_pure _
  · exact always_bind (completeNow_raises _) fun _ => always_pure _

theorem recoverRecords_raises (deadline : Int) (records : List IdempotencyRecord)
    (report : RecoveryReport) :
    (recoverRecords render deadline records report).run.Always Call.Raises := by
  induction records generalizing report with
  | nil => exact always_pure _
  | cons record rest ih =>
    refine always_bind (always_ask trivial) fun now => ?_
    split
    · exact always_pure _
    · exact always_bind (recoverRecord_raises render record report) ih

theorem recover_raises (limits : RecoveryLimits) :
    (recover render limits).run.Always Call.Raises :=
  always_bind (always_ask trivial) fun _ => always_bind (always_ask trivial) fun _ =>
    always_bind (recoverResources_raises render ..) fun _ => always_bind (always_ask trivial) fun _ =>
      always_bind (recoverRecords_raises render ..) fun _ =>
        always_bind (always_ask trivial) fun _ => always_pure _

end RecoveryEngine

namespace MutationOrchestrator

theorem gates_raises : gates.run.Always Call.Raises := by
  refine always_bind (always_ask trivial) fun node => ?_
  cases node with
  | none =>
    refine always_bind (always_ask trivial) fun gate => ?_
    cases gate with
    | none => exact always_pure _
    | some isOpen => cases isOpen <;> trivial
  | some state =>
    dsimp only
    split
    · refine always_bind (always_ask trivial) fun _ => always_bind (always_throw _) fun _ => ?_
      refine always_bind (always_ask trivial) fun gate => ?_
      cases gate with
      | none => exact always_pure _
      | some isOpen => cases isOpen <;> trivial
    · refine always_bind (always_ask trivial) fun gate => ?_
      cases gate with
      | none => exact always_pure _
      | some isOpen => cases isOpen <;> trivial

theorem prepare_raises (key : IdempotencyKey) (digest : CanonicalDigest) (expiresAtMs : Int) :
    (prepare key digest expiresAtMs).run.Always Call.Raises := by
  refine always_bind (always_tryAsk trivial) fun _ => always_bind gates_raises fun _ =>
    always_bind (always_ask trivial) fun _ => always_bind (always_ask trivial) fun outcome => ?_
  cases outcome with
  | reconcile =>
    refine always_bind (always_ask trivial) fun found => ?_
    cases found <;> trivial
  | _ => exact always_pure _

theorem register_raises (record : ResourceRecord) : (register record).run.Always Call.Raises := by
  refine always_bind (always_ask trivial) fun inserted => ?_
  split
  · exact always_pure _
  · refine always_bind (always_ask trivial) fun found => ?_
    split <;> trivial
  · exact always_throw _

theorem completeSuccess_raises (key : IdempotencyKey) (digest : CanonicalDigest)
    (resource : Option ResourceRecord) (domainResult : Option String) :
    (completeSuccess key digest resource domainResult).run.Always Call.Raises := by
  have hcomplete : ∀ record : Int → IdempotencyRecord, (show Attempt IdempotencyRecord from do
      let now ← ask .now
      tryAsk (request (.idempotencyComplete (record now)))
      return record now).run.Always Call.Raises := fun record =>
    always_bind (always_ask trivial) fun _ =>
      always_bind (always_tryAsk (always_request trivial)) fun _ => always_pure _
  cases resource with
  | none => exact hcomplete _
  | some record => exact always_bind (register_raises record) fun _ => hcomplete _

theorem completeFailure_raises (key : IdempotencyKey) (digest : CanonicalDigest)
    (error : MediaError) (outcome : EffectOutcome) (resourceRef : Option ControlledResourceRef) :
    (completeFailure key digest error outcome resourceRef).run.Always Call.Raises :=
  always_bind (always_ask trivial) fun _ =>
    always_bind (always_tryAsk (always_request trivial)) fun _ => always_pure _

end MutationOrchestrator

theorem program_makes (render : Render) (op : Operation) : (program render op).Always op.Makes := by
  cases op with
  | prepare key digest expiresAtMs =>
    exact always_discard (MutationOrchestrator.prepare_raises key digest expiresAtMs)
  | completeSuccess key digest resource domainResult =>
    exact always_discard (MutationOrchestrator.completeSuccess_raises key digest resource domainResult)
  | completeFailure key digest error outcome resourceRef =>
    exact always_discard
      (MutationOrchestrator.completeFailure_raises key digest error outcome resourceRef)
  | recover limits => exact always_discard (RecoveryEngine.recover_raises render limits)
  | convergeResource resource state generation =>
    exact always_discard (RecoveryEngine.convergeResource_always render
      ⟨trivial, fun _ => trivial, fun _ => trivial, fun _ => trivial⟩ resource state generation
      (fun hlt => ⟨hlt, rfl⟩) fun _ hset => hset)
  | tombstone key state =>
    refine always_discard ?_
    unfold RecoveryEngine.tombstone
    split
    next hterminal => exact always_tryAsk (always_request hterminal)
    next => exact always_throw _
  | single c => exact always_discard (always_ask trivial)

namespace Access

/-- The row of a key before a call, and after it. -/
def Changes (e : Access) (key : ResourceKey) (r r' : ResourceRecord) : Prop :=
  e.before.resource? key = some r ∧ (answer e.call e.before).1.resource? key = some r'

theorem Changes.change {e : Access} (h : e.Changes key r r') : Change e.before key r e.call r' := by
  obtain ⟨r'', hrow, hchange⟩ := resource_change e.call h.1
  cases h.2.symm.trans hrow
  exact hchange

end Access

/-- What holds of each call that an operation makes. -/
structure Guarded (op : Operation) (e : Access) : Prop where
  /-- The generation changes by a compare-and-set that expects the stored one. -/
  generation : ∀ key r r', e.Changes key r r' → r'.generation ≠ r.generation →
    e.call = .compareAndSetGeneration key r.generation r'.generation r'.state
  ownerEpoch : ∀ key r r', e.Changes key r r' → r'.acceptedOwnerEpoch ≠ r.acceptedOwnerEpoch →
    e.call = .compareAndSetOwnerEpoch key r.acceptedOwnerEpoch r'.acceptedOwnerEpoch
  /-- No operation but the single call of another writer lowers anything. -/
  raises : (∀ c, op ≠ .single c) → ∀ key r r', e.Changes key r r' →
    r.generation ≤ r'.generation ∧ r'.acceptedOwnerEpoch = r.acceptedOwnerEpoch
  /-- A terminal state is left by a call that names another one. -/
  terminal : ∀ key r r', e.Changes key r r' → r.state.isTerminal → ¬ r'.state.isTerminal →
    e.call = .setState key r'.state ∨
      e.call = .compareAndSetGeneration key r.generation r'.generation r'.state
  tombstone : ∀ key' state, op = .tombstone key' state → ∀ key r r', e.Changes key r r' →
    r.state.isTerminal → r'.state.isTerminal
  terminalAt : ∀ key r r' at_, e.Changes key r r' → r.terminalAtMs = some at_ →
    r'.terminalAtMs = some at_
  /-- Recovery changes the state of a row that is newer than its probe if its own reading was
  newer too, and then to `unknown`, or if the generation has changed since. -/
  newer : ∀ resource state generation, op = .convergeResource resource state generation →
    ∀ key r r', e.Changes key r r' → generation < r.generation → r'.state ≠ r.state →
    (generation < resource.generation ∧ r'.state = .unknown) ∨
      r.generation ≠ resource.generation

theorem Store.terminalAt_eq (s : Store) (state : ResourceState) {r : ResourceRecord}
    (h : r.terminalAtMs = some at_) : s.terminalAt state r = some at_ := by
  simp [Store.terminalAt, h]

theorem raises_of_makes (hop : ∀ c, op ≠ .single c) (h : Operation.Makes op c) : c.Raises := by
  cases op with
  | single c' => exact absurd rfl (hop c')
  | convergeResource resource state generation =>
    cases c with
    | compareAndSetGeneration => exact h.1
    | setState => trivial
    | _ => exact h
  | tombstone key state =>
    cases c with
    | setState => trivial
    | compareAndSetGeneration => exact absurd h id
    | _ => exact h
  | _ => exact h

theorem guarded (h : op.Makes e.call) : Guarded op e := by
  obtain ⟨c, a, s⟩ := e
  refine ⟨?_, ?_, ?_, ?_, ?_, ?_, ?_⟩
  · intro key r r' hchanges hne
    cases hchanges.change with
    | generation => rfl
    | _ => exact absurd rfl hne
  · intro key r r' hchanges hne
    cases hchanges.change with
    | ownerEpoch => rfl
    | _ => exact absurd rfl hne
  · intro hop key r r' hchanges
    cases hchanges.change with
    | same => exact ⟨UInt64.le_refl _, rfl⟩
    | state => exact ⟨UInt64.le_refl _, rfl⟩
    | ownerEpoch new => exact absurd (raises_of_makes hop h) id
    | generation new state => exact ⟨UInt64.le_of_lt (raises_of_makes hop h), rfl⟩
  · intro key r r' hchanges hterminal hleft
    cases hchanges.change with
    | state state => exact .inl rfl
    | generation new state => exact .inr rfl
    | _ => exact absurd hterminal hleft
  · rintro key' state rfl key r r' hchanges hterminal
    cases hchanges.change with
    | state state => exact h
    | generation new state => exact absurd h id
    | _ => exact hterminal
  · intro key r r' at_ hchanges hat
    cases hchanges.change with
    | generation new state => exact s.terminalAt_eq state hat
    | state state => exact s.terminalAt_eq state hat
    | _ => exact hat
  · rintro resource state generation rfl key r r' hchanges hnewer hne
    cases hchanges.change with
    | same => exact absurd rfl hne
    | ownerEpoch => exact absurd rfl hne
    | generation new state' =>
      obtain ⟨hlt, rfl⟩ := h
      exact absurd (UInt64.lt_trans hlt hnewer) (UInt64.lt_irrefl _)
    | state state' =>
      by_cases hread : generation < resource.generation
      · exact .inl ⟨hread, h hread⟩
      · exact .inr fun heq => hread (heq ▸ hnewer)

/-- Every compare-and-set of another writer asks for no less than it expects. -/
def Access.AsksMore (e : Access) : Prop :=
  match e.call with
  | .compareAndSetGeneration _ expected new _ => expected ≤ new
  | .compareAndSetOwnerEpoch _ expected new => expected ≤ new
  | _ => True

/-- What a compare-and-set expects and what it asks for. -/
def Call.asked : Call → Option (UInt64 × UInt64)
  | .compareAndSetGeneration _ expected new _ => some (expected, new)
  | .compareAndSetOwnerEpoch _ expected new => some (expected, new)
  | _ => none

instance (e : Access) : Decidable e.AsksMore :=
  decidable_of_iff (e.call.asked.all fun p => decide (p.1 ≤ p.2)) (by
    unfold Access.AsksMore
    cases e.call <;> simp [Call.asked])

/-- The generation and the owner epoch of a key have not decreased. -/
def NotLower (key : ResourceKey) (r : ResourceRecord) (t : Store) : Prop :=
  ∃ r', t.resource? key = some r' ∧ r.generation ≤ r'.generation ∧
    r.acceptedOwnerEpoch ≤ r'.acceptedOwnerEpoch

theorem notLower_call {e : Access} (hguarded : Guarded op e)
    (hask : ∀ c, op = .single c → e.AsksMore) (h : NotLower key r e.before) :
    NotLower key r (answer e.call e.before).1 := by
  obtain ⟨r', hrow, hgeneration, hepoch⟩ := h
  obtain ⟨r'', hrow', -⟩ := resource_change e.call hrow
  have hchanges : e.Changes key r' r'' := ⟨hrow, hrow'⟩
  refine ⟨r'', hrow', ?_⟩
  by_cases hop : ∀ c, op ≠ .single c
  · obtain ⟨hle, heq⟩ := hguarded.raises hop key r' r'' hchanges
    exact ⟨UInt64.le_trans hgeneration hle, heq ▸ hepoch⟩
  · simp only [not_forall, not_not] at hop
    obtain ⟨c, hop⟩ := hop
    have hask := hask c hop
    unfold Access.AsksMore at hask
    constructor
    · by_cases hne : r''.generation = r'.generation
      · exact hne ▸ hgeneration
      · rw [hguarded.generation key r' r'' hchanges hne] at hask
        exact UInt64.le_trans hgeneration hask
    · by_cases hne : r''.acceptedOwnerEpoch = r'.acceptedOwnerEpoch
      · exact hne ▸ hepoch
      · rw [hguarded.ownerEpoch key r' r'' hchanges hne] at hask
        exact UInt64.le_trans hepoch hask

/-- What the store and the recovery engine see to in every run; nothing is lowered in a run whose
other writers ask for no less than they expect. -/
theorem newer_state_kept (render : Render)
    (hrun : Transition.run (step render) (Workers.idle s n) actions = some (t, es)) :
    (∀ e ∈ es, Guarded e.2.1 e.2.2) ∧
      ((∀ e ∈ es, ∀ c, e.2.1 = .single c → Access.AsksMore e.2.2) →
        ∀ key r, s.resource? key = some r → NotLower key r t.shared) := by
  have hmakes : ∀ e ∈ es, Operation.Makes e.2.1 e.2.2.call :=
    Program.run_always (program_makes render) hrun
  have hguarded : ∀ e ∈ es, Guarded e.2.1 e.2.2 := fun e he => guarded (hmakes e he)
  refine ⟨hguarded, fun hask key r hrow => ?_⟩
  refine (Program.run_follows hrun).keeps (NotLower key r) ?_
    ⟨r, hrow, UInt64.le_refl _, UInt64.le_refl _⟩
  rintro s e he rfl - hlower
  obtain ⟨e', he', rfl⟩ := List.mem_map.mp he
  exact notLower_call (hguarded e' he') (hask e' he') hlower

def resourceKey : ResourceKey where
  tenantId := "tenant-1"
  resourceKind := "session"
  resourceHandle := "h1"

def sampleResource (state : ResourceState) (generation : UInt64) : ResourceRecord where
  key := resourceKey
  mediaSessionId := some "s1"
  mediaBindingId := none
  mediaKey := none
  idempotencyScope := none
  canonicalDigest := none
  acceptedOwnerEpoch := 1
  mediaNodeId := none
  mediaNodeInstanceId := none
  mediaNodeInstanceEpoch := 42
  generation
  state
  safeLastError := none
  origin := .cluster
  createdAtMs := 900
  updatedAtMs := 900
  terminalAtMs := none

def storeOf (resources : List ResourceRecord) : Store := { emptyStore with resources }

/-- Another writer raises the generation past what recovery has probed, after recovery has read
the row. -/
theorem newer_state_kept_raced :
    let resource := sampleResource .pending 3
    let actions : List (Workers.Action Operation) :=
      [.call 0 (.convergeResource resource .active 4),
        .call 1 (.single (.compareAndSetGeneration resourceKey 3 5 .active)), .advance 1] ++
      List.replicate 8 (.advance 0)
    ∃ t es, Transition.run (step fun _ => "") (Workers.idle (storeOf [resource]) 2) actions =
        some (t, es) ∧
      t.shared.events.rows.length = 1 ∧ (∀ e ∈ es, Guarded e.2.1 e.2.2) ∧
      NotLower resourceKey resource t.shared := by
  intro resource actions
  obtain ⟨⟨t, es⟩, hrun⟩ : ∃ r,
      Transition.run (step fun _ => "") (Workers.idle (storeOf [resource]) 2) actions = some r :=
    ⟨_, rfl⟩
  have hseen : ∀ r ∈ Transition.run (step fun _ => "") (Workers.idle (storeOf [resource]) 2) actions,
      r.1.shared.events.rows.length = 1 ∧ ∀ e ∈ r.2, Access.AsksMore e.2.2 := by
    decide +kernel
  obtain ⟨hguarded, hlower⟩ := newer_state_kept (fun _ => "") hrun
  obtain ⟨hlength, hask⟩ := hseen (t, es) hrun
  exact ⟨t, es, hrun, hlength, hguarded, hlower (fun e he _ _ => hask e he) resourceKey resource rfl⟩

/-- A compare-and-set asks for less than it expects; a resource is stopped after recovery has read
it, and recovery sets the state that it probed; and recovery writes `unknown` to a row whose
generation is newer than the one it probed. -/
theorem newer_state_undone :
    (¬ ∀ render s n actions t es,
      Transition.run (step render) (Workers.idle s n) actions = some (t, es) →
      ∀ e ∈ es, ∀ key r r', Access.Changes e.2.2 key r r' →
        r.generation ≤ r'.generation ∧ r.acceptedOwnerEpoch ≤ r'.acceptedOwnerEpoch) ∧
    (¬ ∀ render s n actions t es,
      Transition.run (step render) (Workers.idle s n) actions = some (t, es) →
      ∀ e ∈ es, ∀ key r r', Access.Changes e.2.2 key r r' →
        r.state.isTerminal → r'.state.isTerminal) ∧
    ¬ ∀ render s n actions t es,
      Transition.run (step render) (Workers.idle s n) actions = some (t, es) →
      ∀ e ∈ es, ∀ resource state generation, e.2.1 = .convergeResource resource state generation →
        ∀ key r r', Access.Changes e.2.2 key r r' → generation < r.generation →
          r'.state = r.state := by
  let resource := sampleResource .active 3
  let s := storeOf [resource]
  refine ⟨fun h => ?_, fun h => ?_, fun h => ?_⟩
  · let op : Operation := .single (.compareAndSetGeneration resourceKey 3 1 .active)
    obtain ⟨t, hrun⟩ : ∃ t, Transition.run (step fun _ => "") (Workers.idle s 1)
        [.call 0 op, .advance 0] =
          some (t, [(0, op, ⟨.compareAndSetGeneration resourceKey 3 1 .active, true, s⟩)]) :=
      ⟨_, rfl⟩
    have hle := (h _ _ _ _ _ _ hrun _ List.mem_cons_self resourceKey resource
      { resource with generation := 1, updatedAtMs := 1000 } ⟨rfl, rfl⟩).1
    exact absurd hle (by decide)
  · let op : Operation := .convergeResource (sampleResource .pending 3) .active 3
    let stopped := (s.setState resourceKey .stopped).1
    obtain ⟨t, hrun⟩ : ∃ t, Transition.run (step fun _ => "") (Workers.idle s 2)
        [.call 0 op, .call 1 (.tombstone resourceKey .stopped), .advance 1, .advance 0] =
          some (t, [(1, .tombstone resourceKey .stopped, ⟨.setState resourceKey .stopped, .ok (), s⟩),
            (0, op, ⟨.setState resourceKey .active, .ok (), stopped⟩)]) :=
      ⟨_, rfl⟩
    have hterminal := h _ _ _ _ _ _ hrun _ (List.mem_cons_of_mem _ List.mem_cons_self) resourceKey
      { resource with state := .stopped, terminalAtMs := some 1000, updatedAtMs := 1000 }
      { resource with terminalAtMs := some 1000, updatedAtMs := 1000 } ⟨rfl, rfl⟩ rfl
    exact absurd hterminal (by decide)
  · let op : Operation := .convergeResource resource .active 2
    obtain ⟨t, hrun⟩ : ∃ t, Transition.run (step fun _ => "") (Workers.idle s 1)
        [.call 0 op, .advance 0] =
          some (t, [(0, op, ⟨.setState resourceKey .unknown, .ok (), s⟩)]) :=
      ⟨_, rfl⟩
    have hstate := h _ _ _ _ _ _ hrun _ List.mem_cons_self resource .active 2 rfl resourceKey
      resource { resource with state := .unknown, updatedAtMs := 1000 } ⟨rfl, rfl⟩ (by decide)
    exact absurd hstate (by decide)

end CheetahMedia.ControlPlane.Durable
