import CheetahMedia.ControlPlane.Durable.Staleness

namespace CheetahMedia.ControlPlane.Durable
open Lib

/-- A store on which recovery passes run one after another. -/
structure Passes where
  store : Store
  pass : Option (Program Call Answer (Except Failure RecoveryEngine.RecoveryReport))

namespace Passes

/-- A pass begins, makes its next call or returns, or stops where it is. -/
inductive Action
  | start (limits : RecoveryEngine.RecoveryLimits)
  | advance
  | stop
  | outside (o : Outside)

inductive Event
  | access (e : Access)
  | returned (result : Except Failure RecoveryEngine.RecoveryReport)
  | stopped

def step (render : Render) : Transition Passes Action Event
  | s, .start limits =>
    match s.pass with
    | none => some ({ s with pass := some (RecoveryEngine.recover render limits).run }, [])
    | some _ => none
  | s, .advance =>
    match s.pass with
    | some (.call c next) =>
      let r := answer c s.store
      some ({ store := r.1, pass := some (next r.2) }, [.access ⟨c, r.2, s.store⟩])
    | some (.done result) => some ({ s with pass := none }, [.returned result])
    | none => none
  | s, .stop =>
    match s.pass with
    | some _ => some ({ s with pass := none }, [.stopped])
    | none => none
  | s, .outside o => some ({ s with store := s.store.happen o }, [])

end Passes

namespace Access

/-- The resource whose row was written. -/
def written? : Access → Option ResourceKey
  | ⟨.setState key _, .ok (), _⟩ => some key
  | ⟨.compareAndSetGeneration key _ _ _, true, _⟩ => some key
  | ⟨.resourceInsert record, .ok (), _⟩ => some record.key
  | _ => none

def appended : Access → Bool
  | ⟨.append _, .ok (), _⟩ => true
  | _ => false

end Access

/-- The resources that were written, and the one whose event has not been appended since. -/
structure Debt where
  written : List ResourceKey := []
  owed : Option ResourceKey := none

def Debt.note (d : Debt) (e : Access) : Debt :=
  match e.written? with
  | some key => { written := key :: d.written, owed := some key }
  | none => if e.appended then { d with owed := none } else d

def Debt.see (d : Debt) : Passes.Event → Debt
  | .access e => d.note e
  | .returned _ | .stopped => d

def debt (es : List Passes.Event) : Debt := es.foldl Debt.see {}

/-- No pass stops, or fails, between a write and the append of its event. -/
def Passes.PaysFirst (s : Passes × List Passes.Event) : Passes.Action → Prop
  | .stop => (debt s.2).owed = none
  | .advance =>
    match s.1.pass with
    | some (.done (.error _)) => (debt s.2).owed = none
    | _ => True
  | _ => True

instance (s : Passes × List Passes.Event) : DecidablePred (Passes.PaysFirst s)
  | .stop => inferInstanceAs (Decidable (_ = none))
  | .advance => by
    unfold Passes.PaysFirst
    dsimp only
    split <;> infer_instance
  | .start _ => isTrue trivial
  | .outside _ => isTrue trivial

def IsStateEvent (key : ResourceKey) (e : EventRecord) : Prop :=
  e.eventKind = "resource_state_changed" ∧ e.tenantId = key.tenantId ∧
    e.resourceKind = some key.resourceKind ∧ e.resourceHandle = some key.resourceHandle

instance (key : ResourceKey) : DecidablePred (IsStateEvent key) := fun e => by
  unfold IsStateEvent
  infer_instance

/-- The last state event of the resource, which has the greatest number that its stream gave to
them, carries the state that is stored. -/
def Represented (render : Render) (s : Store) (key : ResourceKey) : Prop :=
  ∃ row event change, s.resource? key = some row ∧
    (s.events.rows.filter (IsStateEvent key ·)).getLast? = some event ∧
    (∀ e ∈ s.events.rows, IsStateEvent key e → e.instanceEpoch = event.instanceEpoch →
      asI64 e.sequence ≤ asI64 event.sequence) ∧
    event.serializedPayload = render change ∧ change.newState = row.state ∧
    change.resourceKind = key.resourceKind ∧ change.resourceHandle = key.resourceHandle

theorem asI64_asU64 {i : Int} (hlo : -2 ^ 63 ≤ i) (hhi : i < 2 ^ 63) : asI64 (asU64 i) = i := by
  have htoNat : (asU64 i).toNat = (i % 2 ^ 64).toNat := by
    unfold asU64
    rw [UInt64.toNat_ofNat']
    omega
  unfold asI64
  rw [htoNat]
  split <;> omega

theorem le_asI64 (n : UInt64) : -2 ^ 63 ≤ asI64 n := by
  have := n.toNat_lt
  unfold asI64
  split <;> omega

/-- A new number is greater than all that its stream has. -/
theorem nextSequence_greater {s : EventStore} (h : s.nextSequence epoch = .ok n) (hq : q ∈ s.rows)
    (hepoch : q.instanceEpoch = epoch) : asI64 q.sequence < asI64 n := by
  unfold EventStore.nextSequence at h
  simp only at h
  generalize hseq : (s.rows.filter (·.instanceEpoch = epoch)).map (asI64 ·.sequence) = sequences at h
  have hin : asI64 q.sequence ∈ sequences := by
    rw [← hseq]
    exact List.mem_map.mpr ⟨q, List.mem_filter.mpr ⟨hq, by simpa using hepoch⟩, rfl⟩
  have hle : asI64 q.sequence ≤ sequences.max?.getD 0 := by
    cases hmax : sequences.max? with
    | none =>
      rw [List.max?_eq_none_iff.mp hmax] at hin
      exact absurd hin List.not_mem_nil
    | some top => exact (List.max?_eq_some_iff.mp hmax).2 _ hin
  split at h
  next hlt =>
    cases h
    have hlo := le_asI64 q.sequence
    rw [asI64_asU64 (by omega) hlt]
    omega
  next => cases h

theorem isStateEvent_stateEvent {ref : ControlledResourceRef} :
    IsStateEvent key (RecoveryEngine.stateEvent ref n payload at_ expiresAt) ↔ ref.key = key := by
  obtain ⟨tenantId, kind, handle⟩ := key
  constructor
  · rintro ⟨-, htenant, hkind, hhandle⟩
    cases Option.some.inj hkind
    cases Option.some.inj hhandle
    cases htenant
    rfl
  · intro hkey
    refine ⟨rfl, ?_, ?_, ?_⟩
    · exact congrArg ResourceKey.tenantId hkey
    · exact congrArg (some ·.resourceKind) hkey
    · exact congrArg (some ·.resourceHandle) hkey

section
variable {render : Render} {s t : Store}

theorem represented_append (hrow : s.resource? ref.key = some row)
    (hnext : s.events.nextSequence ref.nodeInstanceEpoch = .ok n)
    (happend : s.events.append (RecoveryEngine.stateEvent ref n (render change) at_ expiresAt) =
      .ok events)
    (hstate : change.newState = row.state) (hkind : change.resourceKind = ref.key.resourceKind)
    (hhandle : change.resourceHandle = ref.key.resourceHandle) :
    Represented render { s with events } ref.key := by
  unfold EventStore.append at happend
  split at happend
  · cases happend
  cases happend
  have hevent : IsStateEvent ref.key
      (RecoveryEngine.stateEvent ref n (render change) at_ expiresAt) :=
    isStateEvent_stateEvent.mpr rfl
  refine ⟨row, RecoveryEngine.stateEvent ref n (render change) at_ expiresAt, change, hrow, ?_, ?_,
    rfl, hstate, hkind, hhandle⟩
  · simp [List.filter_append, hevent]
  · intro e he _ hepoch
    rcases List.mem_append.mp he with he | he
    · exact Int.le_of_lt (nextSequence_greater hnext he hepoch)
    · rw [List.mem_singleton.mp he]

/-- The events of other resources leave it as it is. -/
theorem Represented.append (h : Represented render s key) (hne : ref.key ≠ key)
    (happend : s.events.append (RecoveryEngine.stateEvent ref n payload at_ expiresAt) = .ok events) :
    Represented render { s with events } key := by
  unfold EventStore.append at happend
  split at happend
  · cases happend
  cases happend
  obtain ⟨row, event, change, hrow, hlast, hgreatest, hrest⟩ := h
  have hother : ¬ IsStateEvent key (RecoveryEngine.stateEvent ref n payload at_ expiresAt) :=
    fun h => hne (isStateEvent_stateEvent.mp h)
  refine ⟨row, event, change, hrow, ?_, ?_, hrest⟩
  · dsimp only
    rw [List.filter_append, List.filter_cons_of_neg (by simpa using hother)]
    simpa using hlast
  · intro e he hstate hepoch
    rcases List.mem_append.mp he with he | he
    · exact hgreatest e he hstate hepoch
    · exact absurd (List.mem_singleton.mp he ▸ hstate) hother

theorem Represented.congr (h : Represented render s key)
    (hrow : t.resource? key = s.resource? key) (hevents : t.events = s.events) :
    Represented render t key := by
  unfold Represented at h ⊢
  rwa [hrow, hevents]

end

/-- The calls are answered, and what they write is noted. -/
def noted (c : Call) (s : Store × Debt) : (Store × Debt) × Answer c :=
  (((answer c s.1).1, s.2.note ⟨c, (answer c s.1).2, s.1⟩), (answer c s.1).2)

/-- The resources, the journal and the debt. -/
def tables (s : Store × Debt) : Store × Debt :=
  ({ s.1 with
    records := []
    clock := 0
    provider := fun _ => .ok .unknown
    node := none
    nodeGate := none }, s.2)

/-- All that was written is represented, but for what is owed. -/
def Accounted (render : Render) (v : Store × Debt) : Prop :=
  ∀ key ∈ v.2.written, v.2.owed ≠ some key → Represented render v.1 key

theorem accounted_tables {render : Render} {s : Store × Debt} :
    Accounted render (tables s) ↔ Accounted render s := Iff.rfl

/-- From where `pre` holds the operation keeps the account, and ends with `post` if it succeeds. -/
abbrev Sound (render : Render) (pre : Store × Debt → Prop) (p : Attempt α)
    (post : α → Store × Debt → Prop) : Prop :=
  Program.Sound noted tables (Accounted render) pre p post

section
variable {render : Render} {pre mid : Store × Debt → Prop}

/-- A call that changes neither the tables nor the debt. -/
theorem sound_quiet {c : Call} (h : ∀ s, tables (noted c s).1 = tables s) :
    Sound render pre (ask c) fun _ => pre :=
  .lift fun s hs hpre => ⟨(h s).symm ▸ hs, (h s).symm ▸ hpre⟩

theorem sound_probe (ref : ControlledResourceRef) :
    Sound render pre (tryAsk (request (.probe ref))) fun _ => pre := by
  intro v hv hpre
  refine ⟨hv, fun s hs => ?_⟩
  subst hs
  exact ⟨hv, fun _ _ => hpre⟩

theorem sound_complete (record : IdempotencyRecord) :
    Sound render pre (tryAsk (request (.idempotencyComplete record))) fun _ => pre := by
  intro v hv hpre
  refine ⟨hv, fun s hs => ?_⟩
  subst hs
  have hsame : tables (noted (.idempotencyComplete record) s).1 = tables s := by
    simp only [noted, answer, Store.complete]
    split
    · split <;> rfl
    · rfl
  rw [hsame]
  exact ⟨hv, fun _ _ => hpre⟩

theorem sound_completeNow (record : IdempotencyRecord) :
    Sound render pre (RecoveryEngine.completeNow record) fun _ => pre :=
  .bind (sound_quiet fun _ => rfl) fun _ => sound_complete _

/-- No event is owed. -/
def Free (v : Store × Debt) : Prop := v.2.owed = none

/-- A state was written, and its event is owed. -/
def Owing (key : ResourceKey) (state : ResourceState) (v : Store × Debt) : Prop :=
  v.2.owed = some key ∧ ∃ row, v.1.resource? key = some row ∧ row.state = state

theorem Accounted.write {s : Store × Debt} (h : Accounted render s) (hfree : s.2.owed = none)
    (hothers : ∀ key', key' ≠ key → t.resource? key' = s.1.resource? key')
    (hevents : t.events = s.1.events) :
    Accounted render (t, { written := key :: s.2.written, owed := some key }) := by
  intro key' hwritten howed
  have hne : key' ≠ key := fun heq => howed (heq ▸ rfl)
  refine Represented.congr (h key' ?_ (by simp [hfree])) (hothers key' hne) hevents
  exact (List.mem_cons.mp hwritten).resolve_left hne

/-- What an `UPDATE` does to the row and to the others. -/
theorem update_row {s : Store} (hf : ∀ r, (f r).key = r.key) (hrow : s.resource? key = some row) :
    (s.update key f).resource? key = some (f row) ∧
      ∀ key', key' ≠ key → (s.update key f).resource? key' = s.resource? key' := by
  refine ⟨?_, fun key' hne => ?_⟩
  · rw [Store.resource?_update hf, if_pos rfl, hrow]
    rfl
  · rw [Store.resource?_update hf, if_neg hne]

theorem setState_eq (s : Store) (key : ResourceKey) (state : ResourceState) :
    (s.setState key state = (s, .error (.controlPlane
      (.notFound "controlled resource not found"))) ∧ s.resource? key = none) ∨
    ∃ t row, s.setState key state = (t, .ok ()) ∧ s.resource? key = some row ∧
      t.resource? key = some { row with
        state
        terminalAtMs := s.terminalAt state row
        updatedAtMs := s.clock } ∧
      (∀ key', key' ≠ key → t.resource? key' = s.resource? key') ∧ t.events = s.events := by
  unfold Store.setState
  cases hrow : s.resource? key with
  | none => exact .inl ⟨rfl, rfl⟩
  | some row =>
    obtain ⟨hnew, hothers⟩ := update_row (f := fun r => { r with
      state
      terminalAtMs := s.terminalAt state r
      updatedAtMs := s.clock }) (fun _ => rfl) hrow
    exact .inr ⟨_, row, if_pos rfl, rfl, hnew, hothers, rfl⟩

/-- `prop` is what is known of the generation of the row. -/
theorem sound_setState (key : ResourceKey) (state : ResourceState) (prop : UInt64 → Prop) :
    Sound render (fun v => Free v ∧ ∀ row, v.1.resource? key = some row → prop row.generation)
      (RecoveryEngine.setState key state)
      (fun _ v => Owing key state v ∧ ∀ row, v.1.resource? key = some row → prop row.generation) := by
  rintro v hv ⟨hfree, hprop⟩
  refine ⟨hv, fun s hs => ?_⟩
  subst hs
  rcases setState_eq s.1 key state with ⟨heq, -⟩ |
    ⟨t, row, heq, hrow, hrow', hothers, hevents⟩
  · have hnoted : noted (.setState key state) s = (s, .error (.controlPlane
        (.notFound "controlled resource not found"))) := by
      simp only [noted, answer, heq]
      rfl
    rw [hnoted]
    exact ⟨hv, fun _ ha => by cases ha⟩
  · have hnoted : noted (.setState key state) s =
        ((t, { written := key :: s.2.written, owed := some key }), .ok ()) := by
      simp only [noted, answer, heq]
      rfl
    rw [hnoted]
    refine ⟨accounted_tables.mpr (Accounted.write (accounted_tables.mp hv) hfree hothers hevents),
      fun _ _ => ⟨⟨rfl, _, hrow', rfl⟩, fun row' hrow'' => ?_⟩⟩
    cases hrow'.symm.trans hrow''
    exact hprop row hrow

/-- Where it fails, the row has another generation. -/
theorem sound_compareAndSetGeneration (key : ResourceKey) (expected new : UInt64)
    (state : ResourceState) :
    Sound render Free (ask (.compareAndSetGeneration key expected new state)) fun won v =>
      if won then Owing key state v
      else Free v ∧ ∀ row, v.1.resource? key = some row → row.generation ≠ expected := by
  refine .lift fun s hs hfree => ?_
  have hcases : (answer (.compareAndSetGeneration key expected new state) s.1 = (s.1, false) ∧
      ∀ row, s.1.resource? key = some row → row.generation ≠ expected) ∨
      ∃ t row, answer (.compareAndSetGeneration key expected new state) s.1 = (t, true) ∧
        t.resource? key = some row ∧ row.state = state ∧
        (∀ key', key' ≠ key → t.resource? key' = s.1.resource? key') ∧ t.events = s.1.events := by
    simp only [answer, Store.compareAndSetGeneration]
    cases hrow : s.1.resource? key with
    | none => exact .inl ⟨rfl, fun row h => absurd h (Option.some_ne_none row).symm⟩
    | some row =>
      dsimp only
      split
      · obtain ⟨hnew, hothers⟩ := update_row (f := fun r => { r with
          generation := new
          state
          terminalAtMs := s.1.terminalAt state r
          updatedAtMs := s.1.clock }) (fun _ => rfl) hrow
        exact .inr ⟨_, _, rfl, hnew, rfl, hothers, rfl⟩
      next hne =>
        exact .inl ⟨rfl, fun row' hrow' => Option.some.inj hrow' ▸ hne⟩
  rcases hcases with ⟨heq, hgeneration⟩ | ⟨t, row, heq, hrow, hstate, hothers, hevents⟩
  · have hnoted : noted (.compareAndSetGeneration key expected new state) s = (s, false) := by
      simp only [noted, heq]
      rfl
    rw [hnoted]
    exact ⟨hs, hfree, hgeneration⟩
  · have hnoted : noted (.compareAndSetGeneration key expected new state) s =
        ((t, { written := key :: s.2.written, owed := some key }), true) := by
      simp only [noted, heq]
      rfl
    rw [hnoted]
    exact ⟨accounted_tables.mpr ((accounted_tables.mp hs).write hfree hothers hevents),
      rfl, row, hrow, hstate⟩

theorem insert_eq {s : Store} (record : ResourceRecord) :
    (∃ e, s.insert record = (s, .error e)) ∨
    ∃ t row, s.insert record = (t, .ok ()) ∧ t.resource? record.key = some row ∧
      row.state = record.state ∧
      (∀ key', key' ≠ record.key → t.resource? key' = s.resource? key') ∧ t.events = s.events := by
  unfold Store.insert
  split
  · exact .inl ⟨_, rfl⟩
  next hnone =>
    have hfind : s.resources.find? (·.key = record.key) = none := by
      simpa [Store.resource?] using hnone
    let row := { record with
      terminalAtMs :=
        if record.state.isTerminal then some (record.terminalAtMs.getD s.clock) else none }
    refine .inr ⟨_, row, rfl, ?_, rfl, fun key' hne => ?_, rfl⟩
    · simp [Store.resource?, List.find?_append, hfind, row]
    · simp [Store.resource?, List.find?_append, Ne.symm hne]

theorem sound_insert (record : ResourceRecord) :
    Sound render Free (tryAsk (request (.resourceInsert record)))
      fun _ => Owing record.key record.state := by
  intro v hv hfree
  refine ⟨hv, fun s hs => ?_⟩
  subst hs
  rcases insert_eq (s := s.1) record with ⟨e, heq⟩ | ⟨t, row, heq, hrow, hstate, hothers, hevents⟩
  · have hnoted : noted (.resourceInsert record) s = (s, .error e) := by
      simp only [noted, answer, heq]
      rfl
    rw [hnoted]
    exact ⟨hv, fun _ ha => by cases ha⟩
  · have hnoted : noted (.resourceInsert record) s =
        ((t, { written := record.key :: s.2.written, owed := some record.key }), .ok ()) := by
      simp only [noted, answer, heq]
      rfl
    rw [hnoted]
    exact ⟨accounted_tables.mpr ((accounted_tables.mp hv).write hfree hothers hevents),
      fun _ _ => ⟨rfl, row, hrow, hstate⟩⟩

theorem sound_nextSequence (epoch : UInt64) :
    Sound render pre (tryAsk (request (.nextSequence epoch)))
      fun n v => pre v ∧ v.1.events.nextSequence epoch = .ok n := by
  intro v hv hpre
  refine ⟨hv, fun s hs => ?_⟩
  subst hs
  refine ⟨hv, fun n hn => ⟨hpre, ?_⟩⟩
  have hn : (s.1.events.nextSequence epoch).mapError Failure.controlPlane = .ok n := hn
  cases hnext : s.1.events.nextSequence epoch with
  | ok n' =>
    rw [hnext] at hn
    cases hn
    exact hnext
  | error e =>
    rw [hnext] at hn
    cases hn

/-- The event pays what is owed. -/
theorem sound_backfill (ref : ControlledResourceRef) (previousState newState : ResourceState)
    (lastError : Option MediaError) (generation : UInt64) :
    Sound render (Owing ref.key newState)
      (RecoveryEngine.backfillStateEvent render ref previousState newState lastError generation)
      fun _ => Free := by
  refine .bind (sound_nextSequence _) fun n => .bind (sound_quiet fun _ => rfl) fun at_ =>
    .bind (sound_quiet fun _ => rfl) fun now => ?_
  rintro v hv ⟨⟨howed, row, hrow, hstate⟩, hnext⟩
  refine ⟨hv, fun s hs => ?_⟩
  subst hs
  generalize hevent : RecoveryEngine.stateEvent ref n
    (render (RecoveryEngine.payload ref previousState newState lastError generation)) at_
    (now + 86400000) = event
  cases happend : s.1.events.append event with
  | error e =>
    have hnoted : noted (.append event) s = (s, .error (.controlPlane e)) := by
      simp only [noted, answer, happend]
      rfl
    rw [hnoted]
    exact ⟨hv, fun _ ha => by cases ha⟩
  | ok events =>
    have hnoted : noted (.append event) s =
        (({ s.1 with events }, { s.2 with owed := none }), .ok ()) := by
      simp only [noted, answer, happend]
      rfl
    rw [hnoted]
    subst hevent
    refine ⟨accounted_tables.mpr fun key hwritten _ => ?_, fun _ _ => rfl⟩
    by_cases hkey : ref.key = key
    · exact hkey ▸ represented_append hrow hnext happend hstate.symm rfl rfl
    · exact (accounted_tables.mp hv key hwritten fun heq =>
        hkey (Option.some.inj (howed.symm.trans heq))).append hkey happend

theorem sound_writeState (key : ResourceKey) (state : ResourceState) :
    Sound render Free (RecoveryEngine.setState key state) fun _ => Owing key state :=
  (sound_setState key state fun _ => True).mono (fun _ hfree => ⟨hfree, fun _ _ => trivial⟩)
    fun _ _ h => h.1

theorem sound_get (key : ResourceKey) :
    Sound render pre (ask (.resourceGet key))
      fun found v => pre v ∧ v.1.resource? key = found :=
  .lift fun _ hs hpre => ⟨hs, hpre, rfl⟩

/-- What an operation writes it pays for. -/
abbrev Pays (render : Render) (p : Attempt α) : Prop := Sound render Free p fun _ => Free

theorem pays_pure (a : α) : Pays render (pure a : Attempt α) := .pure fun _ _ hfree => hfree

/-- A state that is written, then its event. -/
theorem written_pays (resource : ResourceRecord) (state : ResourceState) (lastError : Option MediaError)
    (generation : UInt64) (result : α) :
    Pays render (do
      RecoveryEngine.setState resource.key state
      RecoveryEngine.backfillStateEvent render resource.resourceRef resource.state state lastError
        generation
      return result) :=
  .bind (sound_writeState _ _) fun _ =>
    .bind (sound_backfill resource.resourceRef _ _ _ _) fun _ => pays_pure _

theorem convergeStale_pays (resource : ResourceRecord) :
    Pays render (RecoveryEngine.convergeStale render resource) := by
  unfold RecoveryEngine.convergeStale
  split
  · exact written_pays resource _ _ _ _
  · exact pays_pure _

theorem convergeNewer_pays (resource : ResourceRecord) (state : ResourceState)
    (generation : UInt64) :
    Pays render (RecoveryEngine.convergeNewer render resource state generation) := by
  refine .bind (sound_compareAndSetGeneration _ _ _ _) fun won => ?_
  cases won with
  | true => exact .bind (sound_backfill resource.resourceRef _ _ _ _) fun _ => pays_pure _
  | false =>
    have hset : Sound render _ (RecoveryEngine.setState resource.key state) _ :=
      sound_setState resource.key state (· ≠ resource.generation)
    refine .bind (hset.mono (fun _ h => h) fun _ _ h => h) fun _ =>
      .bind (sound_get resource.key) fun found => ?_
    cases found with
    | none => exact .throw
    | some updated =>
      dsimp only
      split
      · refine .bind ((sound_backfill resource.resourceRef _ _ _ _).mono ?_ fun _ _ h => h) fun _ =>
          pays_pure _
        rintro v ⟨⟨⟨howed, row, hrow, -⟩, -⟩, hfound⟩
        exact ⟨howed, updated, hfound, rfl⟩
      next hsame =>
        refine .vacuous ?_
        rintro v - ⟨⟨-, hgeneration⟩, hfound⟩
        exact hsame (.inr (hgeneration updated hfound))

theorem convergeSame_pays (resource : ResourceRecord) (state : ResourceState) :
    Pays render (RecoveryEngine.convergeSame render resource state) := by
  unfold RecoveryEngine.convergeSame
  split
  · exact written_pays resource _ _ _ _
  · exact pays_pure _

theorem convergeResource_pays (resource : ResourceRecord) (state : ResourceState)
    (generation : UInt64) :
    Pays render (RecoveryEngine.convergeResource render resource state generation) := by
  unfold RecoveryEngine.convergeResource
  split
  · exact convergeStale_pays resource
  · split
    · exact convergeNewer_pays resource state generation
    · exact convergeSame_pays resource state

theorem recoverResource_pays (resource : ResourceRecord) (report : RecoveryEngine.RecoveryReport) :
    Pays render (RecoveryEngine.recoverResource render resource report) := by
  refine .bind (sound_probe _) fun result => ?_
  cases result with
  | found state generation =>
    refine .bind (convergeResource_pays resource state generation) fun outcome => ?_
    cases outcome <;> exact pays_pure _
  | gone =>
    exact written_pays resource .stopped none _ _
  | unknown =>
    dsimp only
    split
    · exact written_pays resource _ _ _ _
    · exact pays_pure _

theorem recoverResources_pays (deadline : Int) (resources : List ResourceRecord)
    (report : RecoveryEngine.RecoveryReport) :
    Pays render (RecoveryEngine.recoverResources render deadline resources report) := by
  induction resources generalizing report with
  | nil => exact pays_pure _
  | cons resource rest ih =>
    refine .bind (sound_quiet fun _ => rfl) fun now => ?_
    split
    · exact pays_pure _
    · exact .bind (recoverResource_pays resource report) ih

theorem reconcileFound_pays (record : IdempotencyRecord) (ref : ControlledResourceRef)
    (state : ResourceState) (generation : UInt64) :
    Pays render (RecoveryEngine.reconcileFound render record ref state generation) := by
  refine .bind (sound_quiet fun _ => rfl) fun found => ?_
  cases found with
  | some existing => exact convergeResource_pays existing state generation
  | none =>
    exact .bind (sound_quiet fun _ => rfl) fun createdAt => .bind (sound_quiet fun _ => rfl) fun updatedAt =>
      .bind (sound_insert (RecoveryEngine.recoveredRecord record ref state generation createdAt updatedAt))
        fun _ => .bind (sound_backfill ref _ _ _ _) fun _ => pays_pure _

theorem recoverRecord_pays (record : IdempotencyRecord) (report : RecoveryEngine.RecoveryReport) :
    Pays render (RecoveryEngine.recoverRecord render record report) := by
  unfold RecoveryEngine.recoverRecord
  dsimp only
  split
  · refine .bind (sound_probe _) fun result => ?_
    cases result with
    | found state generation =>
      refine .bind (reconcileFound_pays record _ state generation) fun outcome => ?_
      split <;> exact .bind (sound_completeNow _) fun _ => pays_pure _
    | gone => exact .bind (sound_completeNow _) fun _ => pays_pure _
    | unknown => exact .bind (sound_completeNow _) fun _ => pays_pure _
  · exact .bind (sound_completeNow _) fun _ => pays_pure _

theorem recoverRecords_pays (deadline : Int) (records : List IdempotencyRecord)
    (report : RecoveryEngine.RecoveryReport) :
    Pays render (RecoveryEngine.recoverRecords render deadline records report) := by
  induction records generalizing report with
  | nil => exact pays_pure _
  | cons record rest ih =>
    refine .bind (sound_quiet fun _ => rfl) fun now => ?_
    split
    · exact pays_pure _
    · exact .bind (recoverRecord_pays record report) ih

theorem recover_pays (limits : RecoveryEngine.RecoveryLimits) :
    Pays render (RecoveryEngine.recover render limits) :=
  .bind (sound_quiet fun _ => rfl) fun _ => .bind (sound_quiet fun _ => rfl) fun resources =>
    .bind (recoverResources_pays _ resources _) fun _ => .bind (sound_quiet fun _ => rfl) fun records =>
      .bind (recoverRecords_pays _ records _) fun _ => .bind (sound_quiet fun _ => rfl) fun _ => pays_pure _

/-- A running pass pays for what it writes, and between two passes nothing is owed. -/
def Passes.Inv (render : Render) (es : List Passes.Event) (s : Passes) : Prop :=
  match s.pass with
  | none => Accounted render (s.store, debt es) ∧ (debt es).owed = none
  | some p => p.Ensures noted tables (Accounted render) (fun r w => ∀ a, r = .ok a → Free w)
      (tables (s.store, debt es))

theorem debt_append (es fs : List Passes.Event) : debt (es ++ fs) = fs.foldl Debt.see (debt es) := by
  simp [debt]

theorem tables_happen (s : Store) (o : Outside) (d : Debt) : tables (s.happen o, d) = tables (s, d) := by
  cases o <;> rfl

theorem Passes.Inv.step (h : Passes.Inv render es s) (hcond : Passes.PaysFirst (s, es) a)
    (hstep : Passes.step render s a = some (t, fs)) : Passes.Inv render (es ++ fs) t := by
  obtain ⟨store, pass⟩ := s
  unfold Passes.Inv at h ⊢
  rw [debt_append]
  cases a with
  | start limits =>
    cases pass with
    | some p => cases hstep
    | none =>
      cases hstep
      exact recover_pays limits _ (accounted_tables.mpr h.1) h.2
  | advance =>
    cases pass with
    | none => cases hstep
    | some p =>
      cases p with
      | call c next =>
        cases hstep
        exact h.2 (store, debt es) rfl
      | done result =>
        cases hstep
        refine ⟨accounted_tables.mp h.1, ?_⟩
        cases result with
        | ok report => exact h.2 report rfl
        | error e => exact hcond
  | stop =>
    cases pass with
    | none => cases hstep
    | some p =>
      cases hstep
      exact ⟨accounted_tables.mp h.here, hcond⟩
  | outside o =>
    cases hstep
    dsimp only [List.foldl_nil]
    cases pass with
    | none =>
      refine ⟨accounted_tables.mp ?_, h.2⟩
      rw [tables_happen]
      exact accounted_tables.mpr h.1
    | some p =>
      dsimp only
      rw [tables_happen]
      exact h

end

end CheetahMedia.ControlPlane.Durable
