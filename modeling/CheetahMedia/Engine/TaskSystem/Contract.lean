import CheetahMedia.Engine.TaskSystem.Tree

namespace CheetahMedia.Engine.TaskSystem
open Lib

/-! Every task that ends is reported once. -/

def TaskEvent.finishes (x : TaskId) (e : TaskEvent) : Nat :=
  if e.kind = .finished ∧ e.taskId = x then 1 else 0

def Observed.finishes (x : TaskId) : Observed → Nat
  | .published e => TaskEvent.finishes x e
  | _ => 0

def Todo.finishes (x : TaskId) : Todo → Nat
  | .publish e => TaskEvent.finishes x e
  | _ => 0

def overCount (s : TaskSystem) (x : TaskId) : Nat :=
  if (s.tasks x).any (isTerminalState ·.state) then 1 else 0

theorem overCount_eq (h : s'.tasks = s.tasks) (x : TaskId) : overCount s' x = overCount s x := by
  rw [overCount, overCount, h]

theorem overCount_set_of_ne (s : TaskSystem) (n : TaskSnapshot) (h : y ≠ x) :
    overCount (s.set x n) y = overCount s y := by
  rw [overCount, overCount, set_tasks_of_ne s n h]

theorem overCount_set (h : (s.tasks x).any (isTerminalState ·.state) = isTerminalState n.state)
    (y : TaskId) : overCount (s.set x n) y = overCount s y := by
  by_cases hy : y = x
  · rw [hy, overCount, overCount, set_tasks_self, h]
    rfl
  · exact overCount_set_of_ne s n hy

theorem Todo.Light.finishes (h : Todo.Light t) : Todo.finishes x t = 0 := by
  cases t with
  | maybeFinalizeJobsFrom => rfl
  | answer => rfl
  | _ => exact h.elim

theorem sum_finishes_light {light : List Todo} (h : ∀ t ∈ light, t.Light) (x : TaskId) :
    (light.map (Todo.finishes x)).sum = 0 :=
  List.sum_eq_zero fun k hk => by
    obtain ⟨t, ht, rfl⟩ := List.mem_map.mp hk
    exact (h t ht).finishes

theorem finishes_endedEvent (x y : TaskId) (outcome : TaskOutcome) :
    TaskEvent.finishes x (endedEvent y outcome) = if y = x then 1 else 0 := by
  unfold TaskEvent.finishes
  cases outcome <;> simp [endedEvent, terminal]

theorem Effect.finishes (h : Effect s t s' more es) (hfresh : t.Fresh s) (hfits : t.Fits s)
    (x : TaskId) : (es.map (Observed.finishes x)).sum + (more.map (Todo.finishes x)).sum +
      overCount s x = t.finishes x + overCount s' x := by
  cases h with
  | quiet _ _ htasks _ ht hmore hes =>
    have hseen : (es.map (Observed.finishes x)).sum = 0 := List.sum_eq_zero fun k hk => by
      obtain ⟨e, he, rfl⟩ := List.mem_map.mp hk
      obtain ⟨result, rfl⟩ := hes e he
      rfl
    have hzero : t.finishes x = 0 := by
      cases t with
      | publish => exact ht.elim
      | _ => rfl
    rw [sum_finishes_light hmore, hseen, hzero, overCount_eq htasks]
  | allocate parentId kind owner label t ht =>
    rcases ht with ⟨pid, rfl⟩ | ⟨message, rfl⟩ <;> rfl
  | allow => rfl
  | insert y n message t ht =>
    obtain ⟨parentId, kind, level, rfl⟩ := hfits
    rw [overCount_set (by rw [hfresh y _ message rfl]; rfl)]
    rcases ht with ⟨pid, -, rfl⟩ | rfl
    · simp [Todo.finishes, TaskEvent.finishes, createdEvent]
    · simp [Todo.finishes, TaskEvent.finishes, createdEvent]
  | publish => rfl
  | register pid y n hn =>
    rw [overCount_set (by rw [hn]; rfl)]
    rfl
  | lookUp => rfl
  | cancel y reason n hn hopen =>
    have hchildren : ((n.childIds.map (Todo.cancelRecursive · reason)).map (Todo.finishes x)).sum = 0 :=
      List.sum_eq_zero fun k hk => by
        obtain ⟨t, ht, rfl⟩ := List.mem_map.mp hk
        obtain ⟨c, -, rfl⟩ := List.mem_map.mp ht
        rfl
    rw [overCount_set (by rw [hn]; exact hopen), List.map_cons, List.map_append, List.sum_cons,
      List.sum_append, hchildren]
    simp [Todo.finishes, TaskEvent.finishes, cancellingEvent]
  | ended t y outcome n light ht hn hopen hlight hes =>
    have hseen : (es.map (Observed.finishes x)).sum = 0 := by
      rcases hes with rfl | ⟨look, -, rfl⟩ <;> rfl
    have hzero : t.finishes x = 0 := by
      cases t with
      | publish => cases ht
      | _ => rfl
    have hcount : overCount (s.set y (TaskSystem.ended n outcome)) x =
        overCount s x + if y = x then 1 else 0 := by
      by_cases hx : y = x
      · subst hx
        simp [overCount, hn, hopen, isTerminalState_ended]
      · rw [overCount_set_of_ne s _ (Ne.symm hx), if_neg hx]
        rfl
    rw [hseen, List.map_cons, List.sum_cons, sum_finishes_light hlight, hcount, hzero]
    simp only [Todo.finishes, finishes_endedEvent]
    omega
  | look => rfl
  | scanned => rfl
  | decided => rfl

/-- So many reports of the end of a task are published or still to be. -/
def reports (es : List (Nat × Observed)) (s : Workers.State TaskSystem Todo) (x : TaskId) : Nat :=
  (es.map fun e => e.2.finishes x).sum + Workers.weight (Todo.finishes x) s

structure FinalizedRight (s : TaskSystem) (job : TaskId) (look : TaskSnapshot)
    (outcome : TaskOutcome) : Prop where
  looked : Looked s job look
  childrenOver : ∀ c ∈ look.childIds, Over s c
  chosen : outcome = outcomeOf s look
  ended : ∃ n, s.tasks job = some n ∧ isTerminalState n.state = true ∧
    n.terminalOutcome = some (terminal outcome).2.1

def Observed.Right (s : TaskSystem) : Observed → Prop
  | .finalized job look outcome => FinalizedRight s job look outcome
  | _ => True

theorem FinalizedRight.grows (h : FinalizedRight s job look outcome) (hgrows : Grows s s') :
    FinalizedRight s' job look outcome := by
  obtain ⟨hlooked, hover, houtcome, n, hn, hterminal, hended⟩ := h
  obtain ⟨n', hn', hlater⟩ := hgrows job n hn
  obtain ⟨hstate, hsame, -⟩ := hlater.settled hterminal
  exact ⟨hlooked.grows hgrows, fun c hc => (hover c hc).grows hgrows,
    houtcome.trans (outcomeOf_grows hgrows hover).symm, n', hn', hstate ▸ hterminal,
    hsame.trans hended⟩

theorem Effect.right (h : Effect s t s' more es) (hgrows : Grows s s') (hfits : t.Fits s) :
    ∀ e ∈ es, e.Right s' := by
  cases h with
  | quiet _ _ _ _ _ _ hes =>
    intro e he
    obtain ⟨result, rfl⟩ := hes e he
    trivial
  | publish => exact List.forall_mem_singleton.mpr trivial
  | ended t x outcome n light ht hn hopen hlight hes =>
    rcases hes with rfl | ⟨look, rfl, rfl⟩
    · exact List.forall_mem_nil _
    · obtain ⟨hlooked, hover, rfl⟩ := hfits
      exact List.forall_mem_singleton.mpr ⟨hlooked.grows hgrows,
        fun c hc => (hover c hc).grows hgrows, (outcomeOf_grows hgrows hover).symm, _,
        set_tasks_self .., isTerminalState_ended n _, rfl⟩
  | _ => exact List.forall_mem_nil _

def Child (s : TaskSystem) (x c : TaskId) : Prop := ∃ n, s.tasks x = some n ∧ c ∈ n.childIds

section
variable {s₀ s s' : TaskSystem} {i : Nat} {es : List (Nat × Observed)} {todo rest more : List Todo}

/-- The call has set the task to `Stopping`: it has published so, or is about to. -/
def Entered (i : Nat) (todo : List Todo) (es : List (Nat × Observed)) (x : TaskId) : Prop :=
  ∃ reason, (i, .published (cancellingEvent x reason)) ∈ es ∨
    .publish (cancellingEvent x reason) ∈ todo

/-- A task that the call has come to, or will come to. -/
def Reaches (i : Nat) (todo : List Todo) (es : List (Nat × Observed)) (s : TaskSystem)
    (x : TaskId) : Prop :=
  Entered i todo es x ∨ (∃ reason, .cancelRecursive x reason ∈ todo ∨ .lookUp x reason ∈ todo) ∨
    Over s x

structure Cancelling (s₀ : TaskSystem) (i : Nat) (top : TaskId) (todo : List Todo)
    (es : List (Nat × Observed)) (s : TaskSystem) : Prop where
  reached : Reaches i todo es s top
  ends : ∀ x, Entered i todo es x → Over s x ∨ ∃ reason, .applyCancelled x reason ∈ todo
  children : ∀ x c, Entered i todo es x → Child s₀ x c → Reaches i todo es s c

theorem Reaches.grows (h : Reaches i todo es s x) (hgrows : Grows s s') (fs : List (Nat × Observed)) :
    Reaches i todo (es ++ fs) s' x := by
  rcases h with ⟨reason, h | h⟩ | h | h
  · exact .inl ⟨reason, .inl (List.mem_append_left _ h)⟩
  · exact .inl ⟨reason, .inr h⟩
  · exact .inr (.inl h)
  · exact .inr (.inr (h.grows hgrows))

/-- Another caller takes a step. -/
theorem Cancelling.other (h : Cancelling s₀ i top todo es s) (hgrows : Grows s s')
    {fs : List (Nat × Observed)} (hfs : ∀ f ∈ fs, f.1 ≠ i) :
    Cancelling s₀ i top todo (es ++ fs) s' := by
  have hback : ∀ x, Entered i todo (es ++ fs) x → Entered i todo es x := by
    rintro x ⟨reason, h | h⟩
    · rcases List.mem_append.mp h with h | h
      · exact ⟨reason, .inl h⟩
      · exact absurd rfl (hfs _ h)
    · exact ⟨reason, .inr h⟩
  refine ⟨h.reached.grows hgrows fs, fun x hx => ?_, fun x c hx hc => ?_⟩
  · exact (h.ends x (hback x hx)).imp_left fun hover => hover.grows hgrows
  · exact (h.children x c (hback x hx) hc).grows hgrows fs

theorem over_of_skips (hsome : (s.tasks x).isSome)
    (h : ∀ n, s.tasks x = some n → isTerminalState n.state = true) : Over s x := by
  obtain ⟨n, hn⟩ := Option.isSome_iff_exists.mp hsome
  exact ⟨n, hn, h n hn⟩

/-- The caller takes a step: what it was to come to, it has come to or still will. -/
theorem Effect.reaches (h : Effect s t s' more fs) (hgrows : Grows s s')
    (hsome : (s.tasks x).isSome) (hx : Reaches i (t :: rest) es s x) :
    Reaches i (more ++ rest) (es ++ fs.map (i, ·)) s' x := by
  rcases hx with ⟨reason, hx | hx⟩ | ⟨reason, hx | hx⟩ | hx
  · exact .inl ⟨reason, .inl (List.mem_append_left _ hx)⟩
  · rcases List.mem_cons.mp hx with rfl | hx
    · cases h with
      | quiet _ _ _ _ ht => exact ht.elim
      | publish => exact .inl ⟨reason, .inl (by simp)⟩
      | ended t y outcome n light ht => cases ht
    · exact .inl ⟨reason, .inr (List.mem_append_right _ hx)⟩
  · rcases List.mem_cons.mp hx with rfl | hx
    · cases h with
      | quiet _ _ _ _ ht => exact .inr (.inr ((over_of_skips hsome ht).grows hgrows))
      | cancel => exact .inl ⟨reason, .inr (by simp)⟩
      | ended t y outcome n light ht => cases ht
    · exact .inr (.inl ⟨reason, .inl (List.mem_append_right _ hx)⟩)
  · rcases List.mem_cons.mp hx with rfl | hx
    · cases h with
      | quiet _ _ _ _ ht =>
        have ht : s.tasks x = none := ht
        rw [ht] at hsome
        cases hsome
      | lookUp => exact .inr (.inl ⟨reason, .inl (by simp)⟩)
      | ended t y outcome n light ht => cases ht
    · exact .inr (.inl ⟨reason, .inr (List.mem_append_right _ hx)⟩)
  · exact .inr (.inr (hx.grows hgrows))

theorem endedEvent_kind (x : TaskId) (outcome : TaskOutcome) :
    (endedEvent x outcome).kind = .finished := by
  cases outcome <;> rfl

/-- A task is newly set to `Stopping` only with its children and its own end still to be seen to. -/
theorem Effect.entered (h : Effect s t s' more fs)
    (hx : Entered i (more ++ rest) (es ++ fs.map (i, ·)) x) : Entered i (t :: rest) es x ∨
      ∃ n reason, s.tasks x = some n ∧ .applyCancelled x reason ∈ more ∧
        ∀ c ∈ n.childIds, .cancelRecursive c reason ∈ more := by
  obtain ⟨reason, hx | hx⟩ := hx
  · rcases List.mem_append.mp hx with hx | hx
    · exact .inl ⟨reason, .inl hx⟩
    · obtain ⟨e, he, heq⟩ := List.mem_map.mp hx
      cases heq
      cases h with
      | quiet _ _ _ _ _ _ hes =>
        obtain ⟨result, h⟩ := hes _ he
        cases h
      | publish e =>
        cases List.mem_singleton.mp he
        exact .inl ⟨reason, .inr List.mem_cons_self⟩
      | ended t y outcome n light _ _ _ _ hes =>
        rcases hes with rfl | ⟨look, -, rfl⟩
        · cases he
        · cases List.mem_singleton.mp he
      | _ => cases he
  · rcases List.mem_append.mp hx with hx | hx
    · cases h with
      | quiet _ _ _ _ _ hmore => exact (hmore _ hx).elim
      | allocate parentId kind owner label t ht =>
        cases List.mem_singleton.mp hx
        rcases ht with ⟨pid, ht⟩ | ⟨message, ht⟩ <;> cases ht
      | insert y n message t ht =>
        rcases List.mem_cons.mp hx with heq | hx
        · cases congrArg TaskEvent.kind (Todo.publish.inj heq)
        · cases List.mem_singleton.mp hx
          rcases ht with ⟨pid, -, ht⟩ | ht <;> cases ht
      | cancel y reason' n hn hopen =>
        rcases List.mem_cons.mp hx with heq | hx
        · obtain rfl : x = y := congrArg TaskEvent.taskId (Todo.publish.inj heq)
          refine .inr ⟨n, reason', hn, by simp, fun c hc => ?_⟩
          exact List.mem_cons_of_mem _ (List.mem_append_left _ (List.mem_map.mpr ⟨c, hc, rfl⟩))
        · rcases List.mem_append.mp hx with hx | hx
          · obtain ⟨c, -, h⟩ := List.mem_map.mp hx
            cases h
          · cases List.mem_singleton.mp hx
      | ended t y outcome n light _ _ _ hlight =>
        rcases List.mem_cons.mp hx with heq | hx
        · have hkind := congrArg TaskEvent.kind (Todo.publish.inj heq)
          rw [endedEvent_kind] at hkind
          cases hkind
        · exact (hlight _ hx).elim
      | lookUp => simp at hx
      | decided => simp at hx
      | publish => cases hx
      | _ => cases List.mem_singleton.mp hx
    · exact .inl ⟨reason, .inr (List.mem_cons_of_mem t hx)⟩

theorem Effect.cancelling (h : Effect s t s' more fs) (hgrows : Grows s s') (hfits : t.Fits s)
    (hstart : Grows s₀ s) (hrooted : Rooted s₀) (htop : (s₀.tasks top).isSome)
    (hc : Cancelling s₀ i top (t :: rest) es s) :
    Cancelling s₀ i top (more ++ rest) (es ++ fs.map (i, ·)) s' := by
  refine ⟨h.reaches hgrows (isSome_grows hstart htop) hc.reached, fun x hx => ?_, fun x c hx hchild => ?_⟩
  · rcases h.entered hx with hx | ⟨n, reason, -, happly, -⟩
    · rcases hc.ends x hx with hover | ⟨reason, hmem⟩
      · exact .inl (hover.grows hgrows)
      · rcases List.mem_cons.mp hmem with rfl | hmem
        · cases h with
          | quiet _ _ _ _ ht => exact .inl ((over_of_skips hfits ht).grows hgrows)
          | ended t y outcome n light ht =>
            cases ht
            exact .inl ⟨_, set_tasks_self .., isTerminalState_ended ..⟩
        · exact .inr ⟨reason, List.mem_append_right _ hmem⟩
    · exact .inr ⟨reason, List.mem_append_left _ happly⟩
  · obtain ⟨n₀, hn₀, hmem⟩ := hchild
    rcases h.entered hx with hx | ⟨n, reason, hn, -, hchildren⟩
    · exact h.reaches hgrows (isSome_grows hstart (hrooted x n₀ hn₀ c hmem))
        (hc.children x c hx ⟨n₀, hn₀, hmem⟩)
    · obtain ⟨n', hn', hlater⟩ := hstart x n₀ hn₀
      cases hn.symm.trans hn'
      exact .inr (.inl ⟨reason, .inl (List.mem_append_left _
        (hchildren c (hlater.childIds.subset hmem)))⟩)

end

theorem Cancelling.step {i : Nat} (hs₀ : Sound s₀) (htop : (s₀.shared.tasks top).isSome)
    (hsound : Sound s) (hgrows : Grows s₀.shared s.shared) (htodo : s.work[i]? = some todo)
    (hc : Cancelling s₀.shared i top todo es s.shared) (hbusy : ∀ c, a ≠ .call i c)
    (hstep : step s a = some (u, fs)) :
    ∃ todo', u.work[i]? = some todo' ∧ Cancelling s₀.shared i top todo' (es ++ fs) u.shared := by
  have hlater := step_grows hsound hstep
  cases a with
  | call j c =>
    obtain ⟨-, rfl, rfl⟩ := Workers.call_eq hstep
    have hj : j ≠ i := fun h => hbusy c (h ▸ rfl)
    exact ⟨todo, (List.getElem?_set_ne hj).trans htodo, hc.other hlater (List.forall_mem_nil _)⟩
  | advance j =>
    obtain ⟨t, rest, shared, more, es', hhead, hexec, rfl, rfl⟩ := Workers.advance_eq hstep
    by_cases hj : j = i
    · subst hj
      cases htodo.symm.trans hhead
      have hfits := hsound.fit t (Workers.left_of_getElem? hhead List.mem_cons_self)
      refine ⟨more ++ rest, List.getElem?_set_self (List.getElem?_eq_some_iff.mp hhead).1, ?_⟩
      exact (exec_effect hexec).cancelling hlater hfits hgrows hs₀.inv htop hc
    · refine ⟨todo, (List.getElem?_set_ne hj).trans htodo, hc.other hlater fun f hf => ?_⟩
      obtain ⟨e, -, rfl⟩ := List.mem_map.mp hf
      exact hj

/-- A task below the one that was cancelled is over, or the call has passed over a task above it,
which was over when the call came to it. -/
def Below (s : TaskSystem) (i : Nat) (top x : TaskId) (u : TaskSystem) (fs : List (Nat × Observed)) :
    Prop :=
  Over u x ∨ ∃ y, Relation.ReflTransGen (Child s) top y ∧ Relation.TransGen (Child s) y x ∧
    Over u y ∧ ∀ reason, (i, .published (cancellingEvent y reason)) ∉ fs

/-- On the way down to `x` the call has come to every task, or passed over one. -/
theorem Cancelling.path (h : Cancelling s i top [] fs u) (hx : Relation.ReflTransGen (Child s) top x) :
    Entered i [] fs x ∨ ∃ y, Relation.ReflTransGen (Child s) top y ∧
      Relation.ReflTransGen (Child s) y x ∧ Over u y ∧ ¬Entered i [] fs y := by
  have hreach : ∀ z, Relation.ReflTransGen (Child s) top z → Reaches i [] fs u z →
      Entered i [] fs z ∨ ∃ y, Relation.ReflTransGen (Child s) top y ∧
        Relation.ReflTransGen (Child s) y z ∧ Over u y ∧ ¬Entered i [] fs y := by
    intro z hz hreach
    by_cases hentered : Entered i [] fs z
    · exact .inl hentered
    · rcases hreach with hentered' | ⟨reason, h | h⟩ | hover
      · exact absurd hentered' hentered
      · cases h
      · cases h
      · exact .inr ⟨z, hz, .refl, hover, hentered⟩
  induction hx with
  | refl => exact hreach top .refl h.reached
  | tail hz hchild ih =>
    rcases ih with hentered | ⟨y, hy, hyz, hover, hnot⟩
    · exact hreach _ (hz.tail hchild) (h.children _ _ hentered hchild)
    · exact .inr ⟨y, hy, hyz.tail hchild, hover, hnot⟩

theorem Cancelling.below (h : Cancelling s i top [] fs u) (hx : Relation.TransGen (Child s) top x) :
    Below s i top x u fs := by
  rcases h.path hx.to_reflTransGen with hentered | ⟨y, hy, hyx, hover, hnot⟩
  · rcases h.ends x hentered with hover | ⟨reason, hmem⟩
    · exact .inl hover
    · cases hmem
  · rcases Relation.reflTransGen_iff_eq_or_transGen.mp hyx with rfl | hyx
    · exact .inl hover
    · exact .inr ⟨y, hy, hyx, hover, fun reason hmem => hnot ⟨reason, .inl hmem⟩⟩

end CheetahMedia.Engine.TaskSystem
