import CheetahMedia.ControlPlane.Durable.CrashSafety

namespace CheetahMedia.ControlPlane.Durable
open Lib

/-- The stored row is what the provider says, or is marked because the provider is behind it. -/
def Agrees (row : ResourceRecord) (state : ResourceState) (generation : UInt64) : Prop :=
  (generation < row.generation ∧ row.state = .unknown) ∨
    (generation = row.generation ∧ state = row.state)

def RowAgrees (s : Store) (row : ResourceRecord) : Prop :=
  match s.provider row.resourceRef with
  | .ok (.found state generation) => Agrees row state generation
  | .ok .gone => False
  | .ok .unknown => row.state = .unknown
  | .error _ => True

def RefAgrees (s : Store) (ref : ControlledResourceRef) : Prop :=
  match s.provider ref with
  | .ok (.found state generation) =>
    ∃ row, s.resource? ref.key = some row ∧ Agrees row state generation
  | _ => True

/-- The rows that are not terminal and the references of open idempotency records are what the
provider says. -/
structure Converged (s : Store) : Prop where
  rows : ∀ row ∈ s.resources, ¬ row.state.isTerminal → RowAgrees s row
  records : ∀ record ∈ s.records, ¬ record.state.isFinal →
    ∀ ref ∈ record.resourceRef, RefAgrees s ref

/-- The store and the providers. -/
def settled (s : Store) : Store := { s with clock := 0, node := none, nodeGate := none }

/-- The resources and the journal of `s` stand, on a converged store with its providers. -/
structure Stands (s v : Store) : Prop extends Converged v where
  resources : v.resources = s.resources
  events : v.events = s.events
  provider : v.provider = s.provider

section
variable {render : Render} {s : Store}

theorem Stands.refAgrees (h : Stands s v) : RefAgrees v ref ↔ RefAgrees s ref := by
  unfold RefAgrees Store.resource?
  rw [h.resources, h.provider]

theorem Stands.rowAgrees (h : Stands s v) : RowAgrees v row ↔ RowAgrees s row := by
  unfold RowAgrees
  rw [h.provider]

/-- An operation that leaves the resources and the journal as they are. -/
abbrev Idle (s : Store) (p : Attempt α) (post : α → Prop) : Prop :=
  Program.Sound answer settled (Stands s) (fun _ => True) p fun a _ => post a

theorem idle_pure {post : α → Prop} (h : post a) : Idle s (pure a : Attempt α) post :=
  .pure fun _ _ _ => h

theorem idle_now : Idle s (ask .now) fun _ => True :=
  .lift fun _ hv _ => ⟨hv, trivial⟩

theorem idle_listNonTerminal (maxRecords : Nat) :
    Idle s (ask (.listNonTerminal maxRecords)) fun rows => ∀ row ∈ rows, RowAgrees s row := by
  refine .lift fun u hv _ => ⟨hv, fun row hrow => ?_⟩
  have hrow : row ∈ u.resources ∧ ¬ row.state.isTerminal := by
    have hfound := (List.mem_insertionSort _).mp (List.mem_of_mem_take hrow)
    simpa using List.mem_filter.mp hfound
  exact hv.rowAgrees.mp (hv.rows row hrow.1 hrow.2)

theorem idle_listPreparedUnknown (maxRecords : Nat) :
    Idle s (ask (.listPreparedUnknown maxRecords)) fun records =>
      ∀ record ∈ records, ∀ ref ∈ record.resourceRef, RefAgrees s ref := by
  refine .lift fun u hv _ => ⟨hv, fun record hrecord ref href => ?_⟩
  have hrecord : record ∈ u.records ∧ ¬ record.state.isFinal := by
    have hfound := (List.mem_insertionSort _).mp (List.mem_of_mem_take hrecord)
    simpa using List.mem_filter.mp hfound
  exact hv.refAgrees.mp (hv.records record hrecord.1 hrecord.2 ref href)

theorem idle_probe (ref : ControlledResourceRef) :
    Idle s (tryAsk (request (.probe ref))) fun result => s.provider ref = .ok result := by
  intro v hv _
  refine ⟨hv, fun u hu => ?_⟩
  subst hu
  refine ⟨hv, fun result hresult => ?_⟩
  rw [← hv.provider]
  exact hresult

theorem idle_get (key : ResourceKey) :
    Idle s (ask (.resourceGet key)) fun found => s.resource? key = found := by
  refine .lift fun u hv _ => ⟨hv, ?_⟩
  unfold Store.resource?
  rw [← hv.resources]
  rfl

theorem Stands.putRecord (h : Stands s (settled u))
    (hrecord : ∀ ref ∈ record.resourceRef, RefAgrees s ref) :
    Stands s (settled (u.putRecord record)) where
  rows := h.rows
  records record' hmem hopen ref href := by
    rcases List.mem_append.mp hmem with hmem | hmem
    · exact h.records record' (List.mem_filter.mp hmem).1 hopen ref href
    · rw [List.mem_singleton.mp hmem] at href
      exact h.refAgrees.mpr (hrecord ref href)
  resources := h.resources
  events := h.events
  provider := h.provider

theorem idle_completeNow (record : IdempotencyRecord)
    (hrecord : ∀ ref ∈ record.resourceRef, RefAgrees s ref) :
    Idle s (RecoveryEngine.completeNow record) fun _ => True := by
  refine .bind idle_now fun now => ?_
  intro v hv _
  refine ⟨hv, fun u hu => ?_⟩
  subst hu
  refine ⟨?_, fun _ _ => trivial⟩
  simp only [answer, Store.complete]
  split
  · split
    · exact hv
    · exact hv.putRecord hrecord
  · exact hv.putRecord hrecord

theorem idle_converge (resource : ResourceRecord) (h : Agrees resource state generation) :
    Idle s (RecoveryEngine.convergeResource render resource state generation) fun _ => True := by
  unfold RecoveryEngine.convergeResource
  rcases h with ⟨hlt, hunknown⟩ | ⟨rfl, rfl⟩
  · rw [if_pos hlt]
    unfold RecoveryEngine.convergeStale
    rw [if_neg (not_not.mpr hunknown)]
    exact idle_pure trivial
  · rw [if_neg (UInt64.lt_irrefl _), if_neg (UInt64.lt_irrefl _)]
    unfold RecoveryEngine.convergeSame
    rw [if_neg (not_not.mpr rfl)]
    exact idle_pure trivial

theorem idle_recoverResource (resource : ResourceRecord) (report : RecoveryEngine.RecoveryReport)
    (h : RowAgrees s resource) :
    Idle s (RecoveryEngine.recoverResource render resource report) fun _ => True := by
  refine .bind (idle_probe _) fun result => ?_
  by_cases hresult : s.provider resource.resourceRef = .ok result
  · unfold RowAgrees at h
    rw [hresult] at h
    cases result with
    | found state generation =>
      refine .bind ((idle_converge resource h).mono (fun _ _ => trivial) fun _ _ h => h)
        fun outcome => ?_
      cases outcome <;> exact idle_pure trivial
    | gone => exact absurd h id
    | unknown =>
      dsimp only
      rw [if_neg (not_not.mpr h)]
      exact .pure fun _ _ _ => trivial
  · exact .vacuous fun _ _ => hresult

theorem idle_recoverResources (deadline : Int) (resources : List ResourceRecord)
    (report : RecoveryEngine.RecoveryReport) (h : ∀ row ∈ resources, RowAgrees s row) :
    Idle s (RecoveryEngine.recoverResources render deadline resources report) fun _ => True := by
  induction resources generalizing report with
  | nil => exact idle_pure trivial
  | cons resource rest ih =>
    refine .bind idle_now fun now => ?_
    split
    · exact idle_pure trivial
    · exact .bind (idle_recoverResource resource report (h resource List.mem_cons_self)) fun report =>
        ih report fun row hrow => h row (List.mem_cons_of_mem resource hrow)

theorem idle_reconcileFound (record : IdempotencyRecord) (ref : ControlledResourceRef)
    (h : ∃ row, s.resource? ref.key = some row ∧ Agrees row state generation) :
    Idle s (RecoveryEngine.reconcileFound render record ref state generation) fun _ => True := by
  obtain ⟨row, hrow, hagrees⟩ := h
  refine .bind (idle_get _) fun found => ?_
  by_cases hfound : s.resource? ref.key = found
  · subst hfound
    rw [hrow]
    exact (idle_converge row hagrees).mono (fun _ _ => trivial) fun _ _ h => h
  · exact .vacuous fun _ _ => hfound

theorem idle_recoverRecord (record : IdempotencyRecord) (report : RecoveryEngine.RecoveryReport)
    (h : ∀ ref ∈ record.resourceRef, RefAgrees s ref) :
    Idle s (RecoveryEngine.recoverRecord render record report) fun _ => True := by
  have hcomplete : ∀ record' report', record'.resourceRef = record.resourceRef →
      Idle s (do
        RecoveryEngine.completeNow record'
        return report' : Attempt RecoveryEngine.RecoveryReport) fun _ => True :=
    fun record' report' heq =>
      .bind (idle_completeNow record' (heq ▸ h)) fun _ => idle_pure trivial
  unfold RecoveryEngine.recoverRecord
  dsimp only
  split
  next ref href =>
    refine .bind (idle_probe ref) fun result => ?_
    by_cases hresult : s.provider ref = .ok result
    · refine Program.Sound.mono ?_ (fun _ _ => trivial) fun _ _ h => h
      cases result with
      | found state generation =>
        have hagrees := h ref href
        unfold RefAgrees at hagrees
        rw [hresult] at hagrees
        refine .bind (idle_reconcileFound record ref hagrees) fun outcome => ?_
        split
        · exact hcomplete _ _ rfl
        · exact hcomplete _ _ rfl
      | gone => exact hcomplete _ _ rfl
      | unknown => exact hcomplete _ _ rfl
    · exact .vacuous fun _ _ => hresult
  next => exact hcomplete _ _ rfl

theorem idle_recoverRecords (deadline : Int) (records : List IdempotencyRecord)
    (report : RecoveryEngine.RecoveryReport)
    (h : ∀ record ∈ records, ∀ ref ∈ record.resourceRef, RefAgrees s ref) :
    Idle s (RecoveryEngine.recoverRecords render deadline records report) fun _ => True := by
  induction records generalizing report with
  | nil => exact idle_pure trivial
  | cons record rest ih =>
    refine .bind idle_now fun now => ?_
    split
    · exact idle_pure trivial
    · exact .bind (idle_recoverRecord record report (h record List.mem_cons_self)) fun report =>
        ih report fun record hrecord => h record (List.mem_cons_of_mem _ hrecord)

theorem idle_recover (limits : RecoveryEngine.RecoveryLimits) :
    Idle s (RecoveryEngine.recover render limits) fun _ => True := by
  refine .bind idle_now fun startedAt => .bind (idle_listNonTerminal _) fun resources => ?_
  by_cases hresources : ∀ row ∈ resources, RowAgrees s row
  · refine Program.Sound.mono ?_ (fun _ _ => trivial) fun _ _ h => h
    refine .bind (idle_recoverResources _ resources _ hresources) fun report =>
      .bind (idle_listPreparedUnknown _) fun records => ?_
    by_cases hrecords : ∀ record ∈ records, ∀ ref ∈ record.resourceRef, RefAgrees s ref
    · refine Program.Sound.mono ?_ (fun _ _ => trivial) fun _ _ h => h
      exact .bind (idle_recoverRecords _ records _ hrecords) fun _ =>
        .bind idle_now fun _ => idle_pure trivial
    · exact .vacuous fun _ _ => hrecords
  · exact .vacuous fun _ _ => hresources

/-- The invariant of passes over a converged store. -/
def Passes.Quiet (s : Store) (p : Passes) : Prop :=
  match p.pass with
  | none => Stands s (settled p.store)
  | some program => program.Ensures answer settled (Stands s) (fun _ _ => True) (settled p.store)

theorem Passes.Quiet.stands (h : Passes.Quiet s p) : Stands s (settled p.store) := by
  obtain ⟨store, pass⟩ := p
  cases pass with
  | none => exact h
  | some program => exact h.here

/-- The providers go on answering as they do. -/
def Passes.Action.KeepsProviders : Passes.Action → Prop
  | .outside (.provider _) => False
  | _ => True

theorem Passes.Quiet.step (h : Passes.Quiet s p) (hcond : a.KeepsProviders)
    (hstep : Passes.step render p a = some (q, fs)) : Passes.Quiet s q := by
  obtain ⟨store, pass⟩ := p
  cases a with
  | start limits =>
    cases pass with
    | some program => cases hstep
    | none =>
      cases hstep
      exact (idle_recover limits _ h trivial).mono fun _ _ _ => trivial
  | advance =>
    cases pass with
    | none => cases hstep
    | some program =>
      cases program with
      | call c next =>
        cases hstep
        exact h.2 store rfl
      | done result =>
        cases hstep
        exact h.1
  | stop =>
    cases pass with
    | none => cases hstep
    | some program =>
      cases hstep
      exact h.here
  | outside o =>
    cases hstep
    have hsame : settled (store.happen o) = settled store := by
      cases o with
      | provider probe => exact absurd hcond id
      | _ => rfl
    unfold Passes.Quiet at h ⊢
    dsimp only at h ⊢
    rw [hsame]
    exact h

/-- After passes that stop at any call, but not between a write and the append of its event, every
resource that was written is represented; and passes over a converged store change nothing. -/
theorem recovery_crash_safe (render : Render) (store : Store)
    (hrun : Transition.run (Passes.step render) ⟨store, none⟩ actions = some (t, es)) :
    (Transition.Along (Transition.recorded (Passes.step render)) Passes.PaysFirst
        (⟨store, none⟩, []) actions →
      t.pass = none → ∀ key ∈ (debt es).written, Represented render t.store key) ∧
    (Converged store → (∀ a ∈ actions, a.KeepsProviders) →
      t.store.resources = store.resources ∧ t.store.events = store.events) := by
  constructor
  · intro hcond hidle
    have hinv : Passes.Inv render ([] ++ es) t := by
      refine Transition.run_recorded (Passes.Inv render) ?_ [] ?_ hcond hrun
      · exact fun _ _ _ _ _ h hcond hstep => h.step hcond hstep
      · exact ⟨fun key hkey => absurd hkey List.not_mem_nil, rfl⟩
    unfold Passes.Inv at hinv
    rw [hidle, List.nil_append] at hinv
    intro key hkey
    exact hinv.1 key hkey (by simp [hinv.2])
  · intro hconverged hproviders
    have hstep : ∀ p a q fs, Passes.Quiet store p → a.KeepsProviders →
        Passes.step render p a = some (q, fs) → Passes.Quiet store q :=
      fun _ _ _ _ h hcond hstep => h.step hcond hstep
    have hbegin : Passes.Quiet store ⟨store, none⟩ :=
      ⟨⟨hconverged.rows, hconverged.records⟩, rfl, rfl, rfl⟩
    have hquiet : Passes.Quiet store t :=
      Transition.run_invariant (Passes.Quiet store) hstep hbegin
        (Transition.along_of_forall hproviders) hrun
    exact ⟨hquiet.stands.resources, hquiet.stands.events⟩

end

def stoppingStore : Store :=
  { storeOf [sampleResource .active 3] with provider := fun _ => .ok (.found .stopping 3) }

/-- A pass that writes, and one that finds nothing left to do. -/
theorem recovery_crash_safe_twice :
    let actions : List Passes.Action :=
      .start {} :: List.replicate 12 .advance ++ .start {} :: List.replicate 7 .advance
    ∃ t es, Transition.run (Passes.step fun _ => "") ⟨stoppingStore, none⟩ actions = some (t, es) ∧
      resourceKey ∈ (debt es).written ∧ Represented (fun _ => "") t.store resourceKey := by
  intro actions
  obtain ⟨⟨t, es⟩, hrun⟩ : ∃ r,
      Transition.run (Passes.step fun _ => "") ⟨stoppingStore, none⟩ actions = some r :=
    ⟨_, rfl⟩
  have hcond : Transition.Along (Transition.recorded (Passes.step fun _ => "")) Passes.PaysFirst
      (⟨stoppingStore, none⟩, []) actions := by
    decide +kernel
  have hseen : ∀ r ∈ Transition.run (Passes.step fun _ => "") ⟨stoppingStore, none⟩ actions,
      r.1.pass.isNone ∧ resourceKey ∈ (debt r.2).written := by
    decide +kernel
  obtain ⟨hidle, hwritten⟩ := hseen (t, es) hrun
  refine ⟨t, es, hrun, hwritten, ?_⟩
  exact (recovery_crash_safe (fun _ => "") stoppingStore hrun).1 hcond
    (Option.isNone_iff_eq_none.mp hidle) resourceKey hwritten

/-- The last pass has completed without an error. -/
def Completes (es : List Passes.Event) : Prop :=
  match es.getLast? with
  | some (.returned (.ok _)) => True
  | _ => False

instance (es : List Passes.Event) : Decidable (Completes es) := by
  unfold Completes
  split <;> infer_instance

/-- The first pass stops after it has set the state; the next one finds nothing to do. -/
theorem event_lost_in_crash :
    ¬ ∀ render store actions t es,
      Transition.run (Passes.step render) ⟨store, none⟩ actions = some (t, es) → Completes es →
      ∀ key ∈ (debt es).written, Represented render t.store key := by
  intro h
  let actions : List Passes.Action :=
    .start {} :: List.replicate 5 .advance ++ .stop :: .start {} :: List.replicate 7 .advance
  obtain ⟨⟨t, es⟩, hrun⟩ : ∃ r,
      Transition.run (Passes.step fun _ => "") ⟨stoppingStore, none⟩ actions = some r :=
    ⟨_, rfl⟩
  have hseen : ∀ r ∈ Transition.run (Passes.step fun _ => "") ⟨stoppingStore, none⟩ actions,
      Completes r.2 ∧ resourceKey ∈ (debt r.2).written ∧ r.1.store.events.rows = [] := by
    decide +kernel
  obtain ⟨hcompletes, hwritten, hrows⟩ := hseen (t, es) hrun
  obtain ⟨row, event, change, -, hlast, -⟩ := h _ _ _ _ _ hrun hcompletes resourceKey hwritten
  rw [hrows] at hlast
  cases hlast

end CheetahMedia.ControlPlane.Durable
