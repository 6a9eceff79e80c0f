import CheetahMedia.Engine.TaskSystem

namespace CheetahMedia.Engine.TaskSystem
open Lib

@[simp] theorem set_tasks_self (s : TaskSystem) (x : TaskId) (n : TaskSnapshot) :
    (s.set x n).tasks x = some n := Function.update_self ..

theorem set_tasks_of_ne (s : TaskSystem) (n : TaskSnapshot) (h : y ≠ x) :
    (s.set x n).tasks y = s.tasks y := Function.update_of_ne h ..

@[simp] theorem set_nextId (s : TaskSystem) (x : TaskId) (n : TaskSnapshot) :
    (s.set x n).nextId = s.nextId := rfl

@[simp] theorem lockRead_tasks (s : TaskSystem) (x : TaskId) : (s.lockRead x).tasks = s.tasks := rfl

@[simp] theorem unlockRead_tasks (s : TaskSystem) (x : TaskId) :
    (s.unlockRead x).tasks = s.tasks := rfl

/-- A task that is over. -/
def Over (s : TaskSystem) (x : TaskId) : Prop :=
  ∃ n, s.tasks x = some n ∧ isTerminalState n.state = true

def ended (n : TaskSnapshot) (outcome : TaskOutcome) : TaskSnapshot :=
  let (state, terminalOutcome, message, cancelReason) := terminal outcome
  { n with state, terminalOutcome := some terminalOutcome, finishMessage := message, cancelReason }

def endedEvent (x : TaskId) (outcome : TaskOutcome) : TaskEvent :=
  let (state, terminalOutcome, message, _) := terminal outcome
  { taskId := x, kind := .finished, state, terminalOutcome := some terminalOutcome, message }

theorem isTerminalState_ended (n : TaskSnapshot) (outcome : TaskOutcome) :
    isTerminalState (ended n outcome).state = true := by
  cases outcome <;> rfl

theorem applyTerminal_of_open (h : s.tasks x = some n) (hopen : isTerminalState n.state = false)
    (outcome : TaskOutcome) : ∃ transition : TerminalTransition,
      applyTerminal s x outcome = (.ok (some transition), s.set x (ended n outcome)) ∧
        transition.event x = endedEvent x outcome := by
  unfold applyTerminal
  rw [h]
  dsimp only
  rw [hopen]
  exact ⟨_, rfl, rfl⟩

theorem applyTerminal_of_over (h : ∀ n, s.tasks x = some n → isTerminalState n.state = true)
    (outcome : TaskOutcome) : ∃ result, applyTerminal s x outcome = (result, s) ∧
      ∀ transition, result ≠ .ok (some transition) := by
  unfold applyTerminal
  split
  · exact ⟨_, rfl, nofun⟩
  · rename_i n hn
    rw [h n hn]
    exact ⟨_, rfl, nofun⟩

/-- What is left to do once a task is over or a call is answered. -/
def Todo.Light : Todo → Prop
  | .maybeFinalizeJobsFrom _ | .answer _ => True
  | _ => False

/-- The task that is to be ended, and how. -/
def Todo.ends : Todo → Option (TaskId × TaskOutcome)
  | .applyCancelled x reason => some (x, .cancelled reason)
  | .applyFinished x outcome | .finalize x _ outcome => some (x, outcome)
  | _ => none

/-- Steps that may leave everything as it is; those on a task, when the task is over. -/
def Todo.Skips (s : TaskSystem) : Todo → Prop
  | .cancelRecursive x _ | .applyCancelled x _ | .applyFinished x _ | .finalize x _ _ =>
    ∀ n, s.tasks x = some n → isTerminalState n.state = true
  | .lookUp x _ => s.tasks x = none
  | .checkParent .. | .register .. | .maybeFinalizeJobsFrom _ | .scan .. | .answer _ => True
  | .allocate .. | .insert .. | .publish _ => False

/-- Everything a step can do. -/
inductive Effect (s : TaskSystem) : Todo → TaskSystem → List Todo → List Observed → Prop
  | quiet (s' : TaskSystem) (t : Todo) (htasks : s'.tasks = s.tasks) (hnext : s'.nextId = s.nextId)
    (ht : t.Skips s) (hmore : ∀ t' ∈ more, t'.Light) (hes : ∀ e ∈ es, ∃ result, e = .returned result) :
    Effect s t s' more es
  | allocate (parentId : Option TaskId) (kind : TaskKind) (owner label : String) (t : Todo)
    (ht : (∃ pid, t = .checkParent (s.nextId + 1) pid kind owner label) ∨
      ∃ message, t = .insert (s.nextId + 1) (newSnapshot none kind 0) message) :
    Effect s (.allocate parentId kind owner label) { s with nextId := s.nextId + 1 } [t] []
  | allow (x pid : TaskId) (kind : TaskKind) (owner label : String) (level : Nat) (message : String)
    (hparent : ∃ n, s.tasks pid = some n ∧ isTerminalState n.state = false) :
    Effect s (.checkParent x pid kind owner label) s
      [.insert x (newSnapshot (some pid) kind level) message] []
  | insert (x : TaskId) (n : TaskSnapshot) (message : String) (t : Todo)
    (ht : (∃ pid, n.parentId = some pid ∧ t = .register pid x) ∨ t = .answer (.ok (some x))) :
    Effect s (.insert x n message) (s.set x n) [.publish (createdEvent x message), t] []
  | publish (e : TaskEvent) : Effect s (.publish e) s [] [.published e]
  | register (pid x : TaskId) (n : TaskSnapshot) (hn : s.tasks pid = some n) :
    Effect s (.register pid x) (s.set pid { n with childIds := n.childIds ++ [x] })
      [.answer (.ok (some x))] []
  | lookUp (x : TaskId) (reason : Option String) (hx : (s.tasks x).isSome) :
    Effect s (.lookUp x reason) s [.cancelRecursive x reason, .answer (.ok none)] []
  | cancel (x : TaskId) (reason : Option String) (n : TaskSnapshot) (hn : s.tasks x = some n)
    (hopen : isTerminalState n.state = false) :
    Effect s (.cancelRecursive x reason)
      (s.set x { n with state := .stopping, cancelReason := reason })
      (.publish (cancellingEvent x reason) ::
        (n.childIds.map (.cancelRecursive · reason) ++ [.applyCancelled x reason])) []
  | ended (t : Todo) (x : TaskId) (outcome : TaskOutcome) (n : TaskSnapshot) (light : List Todo)
    (ht : t.ends = some (x, outcome)) (hn : s.tasks x = some n)
    (hopen : isTerminalState n.state = false) (hlight : ∀ t' ∈ light, t'.Light)
    (hes : es = [] ∨ ∃ look, t = .finalize x look outcome ∧ es = [.finalized x look outcome]) :
    Effect s t (s.set x (ended n outcome)) (.publish (endedEvent x outcome) :: light) es
  | look (job : TaskId) (n : TaskSnapshot) (hn : s.tasks job = some n) (hkind : n.kind = .job)
    (hopen : isTerminalState n.state = false) (hchildren : n.childIds ≠ []) :
    Effect s (.maybeFinalizeJobsFrom (some job)) (s.lockRead job)
      [.scan job n n.childIds false false] []
  | scanned (job : TaskId) (look : TaskSnapshot) (child : TaskId) (rest : List TaskId)
    (hasFailed hasCancelled : Bool) (n : TaskSnapshot) (hn : s.tasks child = some n)
    (hover : isTerminalState n.state = true) :
    Effect s (.scan job look (child :: rest) hasFailed hasCancelled) s
      [.scan job look rest (hasFailed || n.terminalOutcome = some .failed)
        (hasCancelled || n.terminalOutcome = some .cancelled)] []
  | decided (job : TaskId) (look : TaskSnapshot) (hasFailed hasCancelled : Bool) :
    Effect s (.scan job look [] hasFailed hasCancelled) (s.unlockRead job)
      [.finalize job look (jobOutcome look hasFailed hasCancelled),
        .maybeFinalizeJobsFrom look.parentId] []

theorem light_answer : ∀ t' ∈ [Todo.answer result], t'.Light :=
  List.forall_mem_singleton.mpr trivial

theorem light_walk : ∀ t' ∈ [Todo.maybeFinalizeJobsFrom parentId], t'.Light :=
  List.forall_mem_singleton.mpr trivial

theorem over_or_open (s : TaskSystem) (x : TaskId) :
    (∀ n, s.tasks x = some n → isTerminalState n.state = true) ∨
      ∃ n, s.tasks x = some n ∧ isTerminalState n.state = false := by
  cases hx : s.tasks x with
  | none => exact .inl fun n h => absurd h (Option.some_ne_none n).symm
  | some n =>
    cases hn : isTerminalState n.state with
    | true => exact .inl fun n' h => Option.some.inj h ▸ hn
    | false => exact .inr ⟨n, rfl, hn⟩

theorem exec_effect (h : exec t s = some (s', more, es)) : Effect s t s' more es := by
  cases t with
  | allocate parentId kind owner label =>
    simp only [exec] at h
    cases h
    refine .allocate parentId kind owner label _ ?_
    cases parentId with
    | none => exact .inr ⟨_, rfl⟩
    | some pid => exact .inl ⟨pid, rfl⟩
  | checkParent x pid kind owner label =>
    simp only [exec] at h
    split at h
    · cases h
      exact .quiet _ _ rfl rfl trivial light_answer (List.forall_mem_nil _)
    · rename_i n hn
      split at h
      · cases h
        exact .quiet _ _ rfl rfl trivial light_answer (List.forall_mem_nil _)
      · rename_i hopen
        cases h
        exact .allow x pid kind owner label _ _ ⟨n, hn, by simpa using hopen⟩
  | insert x n message =>
    simp only [exec] at h
    cases h
    refine .insert x n message _ ?_
    split
    · rename_i pid hpid
      exact .inl ⟨pid, hpid, rfl⟩
    · exact .inr rfl
  | publish e =>
    cases h
    exact .publish e
  | register pid x =>
    simp only [exec] at h
    split at h
    · cases h
      exact .quiet _ _ rfl rfl trivial light_answer (List.forall_mem_nil _)
    · rename_i n hn
      split at h
      · cases h
      · cases h
        exact .register pid x n hn
  | lookUp x reason =>
    simp only [exec] at h
    split at h
    · rename_i hn
      cases h
      exact .quiet _ _ rfl rfl hn light_answer (List.forall_mem_nil _)
    · rename_i n hn
      cases h
      exact .lookUp x reason (by simp [hn])
  | cancelRecursive x reason =>
    simp only [exec] at h
    split at h
    · rename_i hn
      cases h
      exact .quiet _ _ rfl rfl (fun n h => absurd (hn.symm.trans h) (Option.some_ne_none n).symm)
        (List.forall_mem_nil _) (List.forall_mem_nil _)
    · rename_i n hn
      split at h
      · cases h
      · split at h
        · rename_i hover
          cases h
          exact .quiet _ _ rfl rfl (fun n' h => Option.some.inj (hn.symm.trans h) ▸ hover)
            (List.forall_mem_nil _) (List.forall_mem_nil _)
        · rename_i hopen
          cases h
          exact .cancel x reason n hn (by simpa using hopen)
  | applyCancelled x reason =>
    simp only [exec] at h
    split at h
    · cases h
    · rcases over_or_open s x with hover | ⟨n, hn, hopen⟩
      · obtain ⟨result, happly, hresult⟩ := applyTerminal_of_over hover (.cancelled reason)
        rw [happly] at h
        split at h
        · rename_i heq
          cases heq
          exact absurd rfl (hresult _)
        · rename_i heq
          cases heq
          cases h
          exact .quiet _ _ rfl rfl hover (List.forall_mem_nil _) (List.forall_mem_nil _)
      · obtain ⟨transition, happly, hevent⟩ := applyTerminal_of_open hn hopen (.cancelled reason)
        rw [happly] at h
        simp only [hevent] at h
        cases h
        exact .ended _ x _ n _ rfl hn hopen light_walk (.inl rfl)
  | applyFinished x outcome =>
    simp only [exec] at h
    split at h
    · cases h
    · rcases over_or_open s x with hover | ⟨n, hn, hopen⟩
      · obtain ⟨result, happly, hresult⟩ := applyTerminal_of_over hover outcome
        rw [happly] at h
        split at h
        · rename_i heq
          cases heq
          exact absurd rfl (hresult _)
        · rename_i heq
          cases heq
          cases h
          exact .quiet _ _ rfl rfl hover light_answer (List.forall_mem_nil _)
        · rename_i heq
          cases heq
          cases h
          exact .quiet _ _ rfl rfl hover light_answer (List.forall_mem_nil _)
      · obtain ⟨transition, happly, hevent⟩ := applyTerminal_of_open hn hopen outcome
        rw [happly] at h
        simp only [hevent] at h
        cases h
        exact .ended _ x _ n _ rfl hn hopen
          (List.forall_mem_cons.mpr ⟨trivial, light_answer⟩) (.inl rfl)
  | maybeFinalizeJobsFrom parentId =>
    cases parentId with
    | none =>
      cases h
      exact .quiet _ _ rfl rfl trivial (List.forall_mem_nil _) (List.forall_mem_nil _)
    | some job =>
      simp only [exec] at h
      split at h
      · cases h
        exact .quiet _ _ rfl rfl trivial (List.forall_mem_nil _) (List.forall_mem_nil _)
      · rename_i n hn
        split at h
        · cases h
          exact .quiet _ _ rfl rfl trivial light_walk (List.forall_mem_nil _)
        · rename_i hopen
          cases h
          simp only [ne_eq, decide_not, Bool.or_eq_true, Bool.not_eq_eq_eq_not, Bool.not_true,
            decide_eq_false_iff_not, decide_eq_true_eq, not_or, not_not] at hopen
          exact .look job n hn hopen.1.1 (by simpa using hopen.1.2) hopen.2
  | scan job look rest hasFailed hasCancelled =>
    cases rest with
    | nil =>
      cases h
      exact .decided job look hasFailed hasCancelled
    | cons child rest =>
      simp only [exec] at h
      split at h
      · cases h
        exact .quiet _ _ rfl rfl trivial light_walk (List.forall_mem_nil _)
      · rename_i n hn
        split at h
        · rename_i hover
          cases h
          exact .scanned job look child rest hasFailed hasCancelled n hn hover
        · cases h
          exact .quiet _ _ rfl rfl trivial light_walk (List.forall_mem_nil _)
  | finalize job look outcome =>
    simp only [exec] at h
    split at h
    · cases h
    · rcases over_or_open s job with hover | ⟨n, hn, hopen⟩
      · obtain ⟨result, happly, hresult⟩ := applyTerminal_of_over hover outcome
        rw [happly] at h
        split at h
        · rename_i heq
          cases heq
          exact absurd rfl (hresult _)
        · rename_i heq
          cases heq
          cases h
          exact .quiet _ _ rfl rfl hover (List.forall_mem_nil _) (List.forall_mem_nil _)
      · obtain ⟨transition, happly, hevent⟩ := applyTerminal_of_open hn hopen outcome
        rw [happly] at h
        simp only [hevent] at h
        cases h
        exact .ended _ job _ n [] rfl hn hopen (List.forall_mem_nil _) (.inr ⟨look, rfl, rfl⟩)
  | answer result =>
    cases h
    exact .quiet _ _ rfl rfl trivial (List.forall_mem_nil _) (List.forall_mem_singleton.mpr ⟨result, rfl⟩)

end CheetahMedia.Engine.TaskSystem
