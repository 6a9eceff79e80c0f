import CheetahMedia.ControlPlane.NodeSupervisor
import Mathlib.Data.List.TakeWhile

namespace CheetahMedia.ControlPlane.NodeSupervisor
open Lib Transition

/-- The node was isolated because its lease expired or was revoked, or because another
instance replaced it. `leave_drain` isolates a node whose lease has run out. -/
def Event.fences : Event → Bool
  | .isolated none _ | .isolated (some .leaseExpired) _ | .isolated (some .leaseRevoked) _
  | .isolated (some .instanceReplaced) _ => true
  | _ => false

/-- The state that an event has put the node in. -/
def Event.state : Event → Option NodeState
  | .entered state _ => some state
  | .isolated .. => some .isolated
  | _ => none

def Event.activates (e : Event) : Bool := e.state == some .active

def Event.shuts (e : Event) : Bool :=
  e.state == some .deregistering || e.state == some .stopped

/-- A node that an event of `seen` has fenced off becomes active only through a task that
registers it and was issued after that event. -/
def Fenced (seen : List Event) (e : Event) : Prop :=
  e.activates → ∀ before fence during, seen = before ++ fence :: during → fence.fences →
    (∀ e ∈ during, ¬ e.activates) → ∃ t, e = .entered .active t ∧ .issued t ∈ during

/-- A node that shuts down never serves again. -/
def StaysShut (seen : List Event) (e : Event) : Prop :=
  (∃ shut ∈ seen, shut.shuts) →
    e.state ≠ some .active ∧ e.state ≠ some .draining ∧ e.state ≠ some .isolated

/-- The state that the node was in before it began to drain. -/
def settled (seen : List Event) : NodeState :=
  ((seen.filterMap Event.state).filter (· ≠ .draining)).getLast?.getD .disabled

def issuedTask (t : Nat) : Event → Bool
  | .issued t' => t' == t
  | _ => false

/-- What has happened since the call of task `t` was issued. -/
def sinceIssued (seen : List Event) (t : Nat) : List Event :=
  seen.dropWhile fun e => !issuedTask t e

def shutDown (s : NodeSupervisor) : Bool :=
  s.inner.state == .deregistering || s.inner.state == .stopped

/-- The task whose call of `register` the action is about to answer, and whether the
registry accepts it. -/
def answersRegister (s : NodeSupervisor) : Action → Option (Nat × Bool)
  | .advance t (.registration r) => match s.tasks[t]? with
    | some .awaitRegister => some (t, r.isOk)
    | _ => none
  | _ => none

/-- The action is about to leave the drain with a valid lease. -/
def reactivates (s : NodeSupervisor) : Action → Bool
  | .call (.leaveDrain now) => s.inner.state == .draining && s.inner.leaseValid now
  | _ => false

/-- No answer to `register` is applied to a node that shuts down, nor is it accepted after
the node was fenced off while the call was out; `leave_drain` finds a valid lease only where
the drain began with an active node; and a node that deregisters is not isolated. -/
def Guarded (s : NodeSupervisor × List Event) (a : Action) : Prop :=
  (∀ call ∈ s.1.answersRegister a, s.1.shutDown = false ∧
    (call.2 → ∀ e ∈ sinceIssued s.2 call.1, ¬ e.fences)) ∧
  (s.1.reactivates a → settled s.2 = .active) ∧
  ((s.1.isolates a).isSome → s.1.inner.state ≠ .deregistering)

instance : Decidable (Guarded s a) := inferInstanceAs (Decidable (_ ∧ _))

/-- What a run has shown so far fits the claim, the state, and the calls that are out. -/
structure Inv (seen : List Event) (s : NodeSupervisor) : Prop where
  fenced : AtEach Fenced seen
  shut : AtEach StaysShut seen
  closed : (∃ e ∈ seen, e.shuts) → s.shutDown
  issued : ∀ t task, s.tasks[t]? = some task → task.registers → .issued t ∈ seen

theorem Inv.init (b : Bool) : Inv [] (new identity b) where
  fenced := atEach_nil
  shut := atEach_nil
  closed := by simp
  issued t task h := by simp [new] at h

section
variable {seen es : List Event} {s s' : NodeSupervisor} {t : Nat}

theorem fenced_of_calm (h : e.activates = false) : Fenced seen e := fun ha => by simp [h] at ha

theorem staysShut_of_calm (h : e.state = none ∨ e.state = some .registering ∨
    e.state = some .deregistering ∨ e.state = some .stopped) : StaysShut seen e := by
  intro _
  rcases h with h | h | h | h <;> simp [h]

theorem state_of_silent (h : Event.silent e) : e.state = none := by
  cases e <;> first | rfl | simp [Event.silent] at h

/-- The call was issued after the last time the node was fenced off. -/
theorem fenced_accept (hissued : .issued t ∈ seen) (hsince : ∀ e ∈ sinceIssued seen t, ¬ e.fences) :
    Fenced seen (.entered .active t) := by
  intro _ before fence during heq hfence _
  refine ⟨t, rfl, ?_⟩
  subst heq
  rcases List.mem_append.mp hissued with hbefore | hafter
  · refine absurd hfence (hsince fence ?_)
    have hfound : (before.dropWhile fun e => !issuedTask t e) ≠ [] := by
      intro hnil
      have hall := List.dropWhile_eq_nil_iff.mp hnil _ hbefore
      simp [issuedTask] at hall
    rw [sinceIssued, List.dropWhile_append, if_neg (by simpa using hfound)]
    simp
  · rcases List.mem_cons.mp hafter with hself | hduring
    · subst hself
      simp [Event.fences] at hfence
    · exact hduring

theorem state_of_fences (h : Event.fences e) : e.state = some .isolated := by
  cases e <;> first | rfl | simp [Event.fences] at h

/-- A drain that began with an active node began after the node was last fenced off. -/
theorem fenced_leave (h : settled seen = .active) : Fenced seen (.entered .active t) := by
  intro _ before fence during heq hfence hduring
  exfalso
  subst heq
  rw [settled, List.filterMap_append, List.filterMap_cons_some (state_of_fences hfence),
    List.filter_append, List.filter_cons_of_pos (by decide), List.getLast?_append,
    List.getLast?_eq_some_getLast (List.cons_ne_nil _ _)] at h
  have hmem := List.getLast_mem (List.cons_ne_nil NodeState.isolated
    ((during.filterMap Event.state).filter (· ≠ .draining)))
  rw [show List.getLast _ _ = NodeState.active from h] at hmem
  rcases List.mem_cons.mp hmem with hself | hrest
  · cases hself
  · obtain ⟨e, he, hstate⟩ := List.mem_filterMap.mp (List.mem_filter.mp hrest).1
    exact hduring e he (by simp [Event.activates, hstate])

theorem started_registers (h : ∀ t task, s.tasks[t]? = some task → task.registers → .issued t ∈ seen)
    (ht : (s.started a)[t]? = some task) (hreg : task.registers) : .issued t ∈ seen := by
  cases a with
  | call c =>
    rcases Nat.lt_or_ge t s.tasks.length with hlt | hge
    · rw [started, List.getElem?_append_left hlt] at ht
      exact h t task ht hreg
    · rw [started, List.getElem?_append_right hge] at ht
      cases hn : t - s.tasks.length with
      | zero =>
        simp only [hn, List.getElem?_cons_zero, Option.some.injEq] at ht
        simp [← ht, Task.registers] at hreg
      | succ n => simp [hn] at ht
  | advance => exact h t task ht hreg

theorem Inv.moved (h : Inv seen s) (hfenced : AtEach Fenced (seen ++ es))
    (hshut : AtEach StaysShut (seen ++ es)) (hclosed : (∃ e ∈ seen ++ es, e.shuts) → s'.shutDown)
    (htasks : s'.tasks = (s.started a).set t next) (ht : (s.started a)[t]? = some old)
    (hnext : next.registers → old.registers ∨ .issued t ∈ es) : Inv (seen ++ es) s' where
  fenced := hfenced
  shut := hshut
  closed := hclosed
  issued i task hi hreg := by
    rw [htasks, List.getElem?_set] at hi
    split at hi
    · rename_i heq
      subst heq
      split at hi
      · cases hi
        rcases hnext hreg with hold | hnew
        · exact List.mem_append_left _ (started_registers h.issued ht hold)
        · exact List.mem_append_right _ hnew
      · cases hi
    · exact List.mem_append_left _ (started_registers h.issued hi hreg)

/-- A step that shows nothing of the state but that the node registers. -/
theorem Inv.calm (h : Inv seen s) (hstate : ∀ e ∈ es, e.state = none ∨ e.state = some .registering)
    (hkeep : s.shutDown → s'.shutDown) (htasks : s'.tasks = (s.started a).set t next)
    (ht : (s.started a)[t]? = some old)
    (hnext : next.registers → old.registers ∨ .issued t ∈ es) : Inv (seen ++ es) s' := by
  refine h.moved (h.fenced.append fun e he _ => fenced_of_calm ?_)
    (h.shut.append fun e he _ => staysShut_of_calm ?_) ?_ htasks ht hnext
  · rcases hstate e he with hs | hs <;> simp [Event.activates, hs]
  · rcases hstate e he with hs | hs <;> simp [hs]
  · rintro ⟨e, hmem, hshut⟩
    rcases List.mem_append.mp hmem with hseen | hnew
    · exact hkeep (h.closed ⟨e, hseen, hshut⟩)
    · rcases hstate e hnew with hs | hs <;> simp [Event.shuts, hs] at hshut

/-- A step of a node that runs, to a state that is not one of a shut down. -/
theorem Inv.runs (h : Inv seen s) (hrun : s.shutDown = false) (hfenced : Fenced seen e)
    (he : e.shuts = false) (htasks : s'.tasks = (s.started a).set t next)
    (ht : (s.started a)[t]? = some old) (hnext : next.registers = false) :
    Inv (seen ++ [e]) s' := by
  have hopen : ¬ ∃ e ∈ seen, e.shuts := fun hshut => by simp [h.closed hshut] at hrun
  refine h.moved (h.fenced.snoc hfenced) (h.shut.snoc fun hshut => absurd hshut hopen) ?_ htasks ht
    (by simp [hnext])
  rintro ⟨e', hmem, hshut⟩
  rcases List.mem_append.mp hmem with hseen | hnew
  · exact absurd ⟨e', hseen, hshut⟩ hopen
  · rw [List.mem_singleton.mp hnew, he] at hshut
    cases hshut

/-- The node begins to shut down or goes on to. -/
theorem Inv.shuts (h : Inv seen s)
    (hstate : ∀ e ∈ es, e.state = none ∨ e.state = some .deregistering ∨ e.state = some .stopped)
    (hclosed : s'.shutDown) (htasks : s'.tasks = (s.started a).set t next)
    (ht : (s.started a)[t]? = some old) (hnext : next.registers = false) : Inv (seen ++ es) s' := by
  refine h.moved (h.fenced.append fun e he _ => fenced_of_calm ?_)
    (h.shut.append fun e he _ => staysShut_of_calm ?_) (fun _ => hclosed) htasks ht (by simp [hnext])
  · rcases hstate e he with hs | hs | hs <;> simp [Event.activates, hs]
  · rcases hstate e he with hs | hs | hs <;> simp [hs]

theorem Inv.step (h : Inv seen s) (hg : Guarded (s, seen) a) (hs : step s a = some (s', es)) :
    Inv (seen ++ es) s' := by
  obtain ⟨t, old, next, ht, htasks, hmoves⟩ := step_moves hs
  obtain ⟨hregistration, hleave, hisolate⟩ := hg
  obtain ⟨g, b, tasks⟩ := s'
  cases hmoves with
  | quiet state gate silent registers opens closes =>
    exact h.calm (fun e he => .inl (state_of_silent (silent e he)))
      (fun hshut => by simpa [shutDown, state] using hshut) htasks ht (fun hr => .inl (registers hr))
  | gate gate silent registers opens =>
    exact h.calm (fun e he => .inl (state_of_silent (silent e he))) (fun hshut => hshut) htasks ht
      (fun hr => .inl (registers hr))
  | register before was state =>
    have hrun : s.shutDown = false := by
      rcases before with h | h | h | h <;> simp [shutDown, h]
    exact h.calm (by simp [Event.state]) (fun hshut => by simp [hrun] at hshut) htasks ht
      (fun _ => .inr (by simp))
  | accept action was =>
    subst action was
    have hcall : s.tasks[t]? = some .awaitRegister := ht
    obtain ⟨hrun, hsince⟩ := hregistration (t, true) (by simp [answersRegister, hcall, Except.isOk,
      Except.toBool])
    exact h.runs hrun (fenced_accept (h.issued t _ hcall rfl) (hsince rfl)) rfl htasks ht rfl
  | refuse action was state =>
    subst action was
    have hcall : s.tasks[t]? = some .awaitRegister := ht
    obtain ⟨hrun, -⟩ := hregistration (t, false) (by simp [answersRegister, hcall, Except.isOk,
      Except.toBool])
    exact h.calm (by simp [Event.state]) (fun hshut => by simp [hrun] at hshut) htasks ht
      (by simp [Task.registers])
  | drain action drains running was state registers closes =>
    exact h.runs (by simp [shutDown, running]) (fenced_of_calm rfl) rfl htasks ht registers
  | leave action draining valid was state =>
    have hactive : s.reactivates a := by simp [action, reactivates, draining, valid]
    exact h.runs (by simp [shutDown, draining]) (fenced_leave (hleave hactive)) rfl
      htasks ht rfl
  | lapse draining was state =>
    exact h.runs (by simp [shutDown, draining]) (fenced_of_calm rfl) rfl htasks ht rfl
  | isolate action running was state =>
    have hguard := hisolate (by simp [action])
    exact h.runs (by simp [shutDown, running, hguard]) (fenced_of_calm rfl) rfl htasks ht rfl
  | deregister action was state =>
    exact h.shuts (by simp [Event.state]) (by simp [shutDown, state]) htasks ht rfl
  | stop action was state =>
    exact h.shuts (by simp [Event.state]) (by simp [shutDown, state]) htasks ht rfl

end

/-- In a run whose steps are guarded, a node that was fenced off becomes active again only
through a call of `register` issued since, and a node that shuts down stays down. -/
theorem fencing (hg : Along (recorded step) Guarded (new identity b, []) actions)
    (hrun : run step (new identity b) actions = some (s, events)) :
    AtEach Fenced events ∧ AtEach StaysShut events :=
  have h := run_recorded Inv (fun _ _ _ _ _ h hg hs => h.step hg hs) [] (Inv.init b) hg hrun
  ⟨h.fenced, h.shut⟩

def replacement : NodeIsolateRequest := ⟨"node", "instance", .instanceReplaced, true⟩

/-- Registered, replaced by another instance, and registered again. -/
def replacedRun : List Action :=
  registered 0 ++ [.call (.isolate replacement), .advance 1 .none] ++ registered 2

theorem fencing_replaced : ∃ s events, run step (new mediaNode true) replacedRun = some (s, events) ∧
    AtEach Fenced events ∧ AtEach StaysShut events := by
  obtain ⟨⟨s, events⟩, hrun⟩ : ∃ r, run step (new mediaNode true) replacedRun = some r :=
    Option.isSome_iff_exists.mp (by decide)
  exact ⟨s, events, hrun, fencing (by decide) hrun⟩

/-- Registered and replaced by another instance; then drained, and the drain left. -/
def drainedRun : List Action :=
  registered 0 ++ [.call (.isolate replacement), .advance 1 .none,
    .call (.drain 5000), .advance 2 .none, .call (.leaveDrain 100)]

def beforeReplacement : List Event :=
  [.issued 0, .entered .registering 0, .sent (.register ⟨mediaNode, none⟩), .entered .active 0,
    .returned 0 (.ok (.registered ⟨7, grantedLease⟩))]

def afterReplacement : List Event :=
  [.returned 1 (.ok (.isolated .isolated)), .entered .draining 2, .returned 2 (.ok (.drained 5000))]

/-- The lease of a node that was replaced is still an active one, and a drain takes an
isolated node: to leave it makes the node active again. -/
theorem drained_after_replacement :
    ¬ ∀ identity b actions s events, run step (new identity b) actions = some (s, events) →
      AtEach Fenced events ∧ AtEach StaysShut events := by
  intro h
  obtain ⟨r, hrun, hseen⟩ := Option.map_eq_some_iff.mp (show
    (run step (new mediaNode true) drainedRun).map (·.2) = some ((beforeReplacement ++
      .isolated (some .instanceReplaced) 1 :: afterReplacement) ++ [.entered .active 3]) from rfl)
  obtain ⟨hfenced, -⟩ := h _ _ _ r.1 r.2 hrun
  obtain ⟨t, hself, hissued⟩ := hfenced _ _ [] hseen rfl _ _ _ rfl rfl
    (by simp [afterReplacement, Event.activates, Event.state])
  simp [afterReplacement] at hissued

end CheetahMedia.ControlPlane.NodeSupervisor
