import CheetahMedia.ControlPlane.NodeSupervisor

namespace CheetahMedia.ControlPlane.NodeSupervisor
open Lib Transition

/-- No operation is in progress. -/
def Idle (s : NodeSupervisor) : Prop := ∀ task ∈ s.tasks, task = .done

/-- The action is about to put another state in the place of `Active`, in a section that
has the gate closed after it. -/
def deactivates (s : NodeSupervisor) (a : Action) : Bool :=
  s.inner.state == .active && ((s.isolates a).isSome || match a with
    | .call c => c.drains
    | .advance t _ => match s.tasks[t]? with
      | some (.deregister _) | some .awaitDeregister => true
      | _ => false)

/-- The registry is about to turn down a call of `register`. -/
def refuses (s : NodeSupervisor) : Action → Bool
  | .advance t (.registration (.error _)) => match s.tasks[t]? with
    | some .awaitRegister => true
    | _ => false
  | _ => false

/-- A state other than `Active` is not put in its place while a task still has the gate to
open, nor by a call of `register` that is turned down, after which no task closes it. -/
def Orderly (s : NodeSupervisor) (a : Action) : Prop :=
  (s.deactivates a → ∀ task ∈ s.tasks, task.opens = false) ∧
  (s.refuses a → s.inner.state ≠ .active)

instance : Decidable (Orderly s a) := inferInstanceAs (Decidable (_ ∧ _))

/-- The gate is opened for an active node only, and where it stands open before another
node some task will close it. -/
structure GateInv (s : NodeSupervisor) : Prop where
  opens : ∀ task ∈ s.tasks, task.opens → s.inner.state = .active
  closes : s.nodeGate → s.inner.state ≠ .active → ∃ task ∈ s.tasks, task.closes

theorem GateInv.init : GateInv (new identity false) where
  opens := List.forall_mem_nil _
  closes h := by cases h

section
variable {s s' : NodeSupervisor} {t : Nat} {old next task : Task}

theorem mem_started (h : task ∈ s.started a) (hdone : task ≠ .done) : task ∈ s.tasks := by
  cases a with
  | call c =>
    rcases List.mem_append.mp h with h | h
    · exact h
    · exact absurd (List.mem_singleton.mp h) hdone
  | advance => exact h

theorem opens_ne_done (h : Task.opens task) : task ≠ .done := by
  rintro rfl
  cases h

/-- The tasks that could open the gate after a step could do so before it, but for the
one that moved. -/
theorem opens_of_set (htasks : s'.tasks = (s.started a).set t next) (hmem : task ∈ s'.tasks)
    (hopens : task.opens) : task ∈ s.tasks ∨ task = next := by
  rw [htasks] at hmem
  rcases List.mem_or_eq_of_mem_set hmem with h | h
  · exact .inl (mem_started h (opens_ne_done hopens))
  · exact .inr h

/-- A task that has the gate to close still does, or it is the one that moved. -/
theorem closes_of_set (htasks : s'.tasks = (s.started a).set t next)
    (ht : (s.started a)[t]? = some old) (hkeep : old.closes → next.closes)
    (h : ∃ task ∈ s.tasks, task.closes) : ∃ task ∈ s'.tasks, task.closes := by
  obtain ⟨task, hmem, hcloses⟩ := h
  have hstarted : task ∈ s.started a := by
    cases a with
    | call c => exact List.mem_append_left _ hmem
    | advance => exact hmem
  obtain ⟨i, hi⟩ := List.mem_iff_getElem?.mp hstarted
  by_cases heq : t = i
  · subst heq
    rw [ht] at hi
    cases hi
    have hlt := (List.getElem?_eq_some_iff.mp ht).1
    exact ⟨next, htasks ▸ List.mem_set hlt next, hkeep hcloses⟩
  · refine ⟨task, htasks ▸ List.mem_iff_getElem?.mpr ⟨i, ?_⟩, hcloses⟩
    rw [List.getElem?_set_ne heq, hi]

theorem next_mem (htasks : s'.tasks = (s.started a).set t next)
    (ht : (s.started a)[t]? = some old) : next ∈ s'.tasks :=
  htasks ▸ List.mem_set (List.getElem?_eq_some_iff.mp ht).1 next

theorem GateInv.closed (h : GateInv s) (hs : s.inner.state ≠ .active) :
    ∀ task ∈ s.tasks, task.opens = false := by
  intro task hmem
  by_contra hopens
  exact hs (h.opens task hmem (by simpa using hopens))

/-- Where no task opens the gate, a task that closes it may put any state. -/
theorem GateInv.of_closing (hclosed : ∀ task ∈ s.tasks, task.opens = false)
    (htasks : s'.tasks = (s.started a).set t next) (ht : (s.started a)[t]? = some old)
    (hopens : next.opens = false) (hcloses : next.closes) : GateInv s' where
  opens task hmem ho := by
    rcases opens_of_set htasks hmem ho with hold | rfl
    · simp [hclosed task hold] at ho
    · simp [hopens] at ho
  closes _ _ := ⟨next, next_mem htasks ht, hcloses⟩

/-- A task moves while the state stays, or while another takes its place that is not
`Active` either. -/
theorem GateInv.stays (h : GateInv s)
    (hstate : s'.inner.state = s.inner.state ∨
      s.inner.state ≠ .active ∧ s'.inner.state ≠ .active)
    (hgate : s'.nodeGate → s'.inner.state ≠ .active → s.nodeGate)
    (htasks : s'.tasks = (s.started a).set t next) (ht : (s.started a)[t]? = some old)
    (hopens : next.opens = false) (hcloses : s'.nodeGate → old.closes → next.closes) :
    GateInv s' where
  opens task hmem ho := by
    rcases opens_of_set htasks hmem ho with hold | rfl
    · rcases hstate with hs | ⟨hs, -⟩
      · exact hs ▸ h.opens task hold ho
      · exact absurd (h.opens task hold ho) hs
    · simp [hopens] at ho
  closes hg hs := by
    have hbefore : s.inner.state ≠ .active := by
      rcases hstate with h | ⟨h, -⟩
      · exact h ▸ hs
      · exact h
    exact closes_of_set htasks ht (hcloses hg) (h.closes (hgate hg hs) hbefore)

theorem GateInv.active (hs : s.inner.state = .active) : GateInv s where
  opens _ _ _ := hs
  closes _ hne := absurd hs hne

theorem GateInv.step (h : GateInv s) (ho : Orderly s a) (hs : step s a = some (s', es)) :
    GateInv s' := by
  obtain ⟨t, old, next, ht, htasks, hmoves⟩ := step_moves hs
  obtain ⟨hdeactivates, hrefuses⟩ := ho
  have hclosed : (s.inner.state = .active → s.deactivates a) →
      ∀ task ∈ s.tasks, task.opens = false := by
    intro hd
    by_cases hactive : s.inner.state = .active
    · exact hdeactivates (hd hactive)
    · exact h.closed hactive
  obtain ⟨g, b, tasks⟩ := s'
  cases hmoves with
  | quiet state gate silent registers opens closes =>
    exact h.stays (.inl state) (fun hg _ => hg) htasks ht opens (fun _ => closes)
  | gate gate silent registers opens =>
    cases b with
    | true =>
      have hmem := mem_started (List.mem_of_getElem? ht) (opens_ne_done (by simp [Task.opens, gate]))
      exact .active (h.opens old hmem (by simp [Task.opens, gate]))
    | false => exact h.stays (.inl rfl) (by simp) htasks ht opens (by simp)
  | register before was state =>
    have hidle : s.inner.state ≠ .active := by
      rcases before with h | h | h | h <;> simp [h]
    exact .of_closing (h.closed hidle) htasks ht rfl rfl
  | accept action was => exact .active rfl
  | refuse action was state =>
    subst action was
    have hcall : s.tasks[t]? = some .awaitRegister := ht
    have hidle : s.inner.state ≠ .active := hrefuses (by simp [refuses, hcall])
    exact h.stays (.inr ⟨hidle, by simp [state]⟩) (fun hg _ => hg) htasks ht rfl
      (by simp [Task.closes, Task.gate])
  | drain action drains running was state registers closes =>
    have hopens : next.opens = false := by simp [Task.opens, closes]
    have hcloses : next.closes := by
      unfold Task.closes
      split
      · rfl
      · simp [closes]
    exact .of_closing (hclosed fun hactive => by simp [deactivates, hactive, action, drains]) htasks
      ht hopens hcloses
  | leave action draining valid was state => exact .active state
  | lapse draining was state =>
    exact .of_closing (h.closed (by simp [draining])) htasks ht rfl rfl
  | isolate action running was state =>
    exact .of_closing (hclosed fun hactive => by simp [deactivates, hactive, action]) htasks ht rfl rfl
  | deregister action was state =>
    subst action was
    have hcall : s.tasks[t]? = _ := ht
    exact .of_closing (hclosed fun hactive => by simp [deactivates, hactive, hcall]) htasks ht rfl rfl
  | stop action was state =>
    subst action was
    have hcall : s.tasks[t]? = _ := ht
    exact .of_closing (hclosed fun hactive => by simp [deactivates, hactive, hcall]) htasks ht rfl rfl

end

/-- In an orderly run from a closed gate the gate stands open only before an active node,
whenever no operation is in progress. -/
theorem gate_agrees (ho : Along step Orderly (new identity false) actions)
    (hrun : run step (new identity false) actions = some (s, events)) (hidle : Idle s)
    (hgate : s.nodeGate) : s.inner.state = .active := by
  have h := run_invariant GateInv (fun _ _ _ _ h ho hs => h.step ho hs) .init ho hrun
  by_contra hne
  obtain ⟨task, hmem, hcloses⟩ := h.closes hgate hne
  rw [hidle task hmem] at hcloses
  cases hcloses

theorem gate_agrees_drained : ∃ s events,
    run step (new mediaNode false) (registered 0 ++ [.call (.drain 5000), .advance 1 .none]) =
      some (s, events) ∧ (s.nodeGate → s.inner.state = .active) := by
  obtain ⟨r, hrun, htasks⟩ := Option.map_eq_some_iff.mp (show
    (run step (new mediaNode false) (registered 0 ++ [.call (.drain 5000), .advance 1 .none])).map
      (·.1.tasks) = some [.done, .done] from rfl)
  exact ⟨r.1, r.2, hrun, gate_agrees (by decide) hrun (by simp [Idle, htasks])⟩

/-- The answer to a call of `register` is applied, and the node is isolated before the gate
is opened: the gate closes first and then opens before an isolated node. -/
def overtakenRun : List Action :=
  (registered 0).dropLast ++ [.call (.isolate ⟨"node", "instance", .leaseRevoked, true⟩),
    .advance 1 .none, .advance 0 .none]

theorem gate_open_before_isolated :
    ¬ ∀ identity b actions s events, run step (new identity b) actions = some (s, events) →
      Idle s → s.nodeGate → s.inner.state = .active := by
  intro h
  obtain ⟨r, hrun, hstate⟩ := Option.map_eq_some_iff.mp (show
    (run step (new mediaNode false) overtakenRun).map
      (fun r => (r.1.inner.state, r.1.nodeGate, r.1.tasks)) = some (.isolated, true, [.done, .done])
    from rfl)
  simp only [Prod.mk.injEq] at hstate
  obtain ⟨hisolated, hgate, htasks⟩ := hstate
  have hactive := h _ _ _ r.1 r.2 hrun (by simp [Idle, htasks]) hgate
  rw [hisolated] at hactive
  cases hactive

end CheetahMedia.ControlPlane.NodeSupervisor
