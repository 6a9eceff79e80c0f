import Mathlib.Logic.Relation
import CheetahMedia.Engine.TaskSystem.Effect

namespace CheetahMedia.Engine.TaskSystem
open Lib

/-- What may become of a task: only its list of children grows once it is over. -/
structure Later (n n' : TaskSnapshot) : Prop where
  parentId : n'.parentId = n.parentId
  kind : n'.kind = n.kind
  childIds : n.childIds <+: n'.childIds
  settled : isTerminalState n.state = true → n'.state = n.state ∧
    n'.terminalOutcome = n.terminalOutcome ∧ n'.finishMessage = n.finishMessage ∧
    n'.cancelReason = n.cancelReason

theorem Later.refl (n : TaskSnapshot) : Later n n where
  parentId := rfl
  kind := rfl
  childIds := List.prefix_rfl
  settled := fun _ => ⟨rfl, rfl, rfl, rfl⟩

theorem Later.trans (h : Later n m) (h' : Later m k) : Later n k where
  parentId := h'.parentId.trans h.parentId
  kind := h'.kind.trans h.kind
  childIds := h.childIds.trans h'.childIds
  settled hover := by
    obtain ⟨hstate, hoverOutcome, hmessage, hreason⟩ := h.settled hover
    obtain ⟨hstate', hoverOutcome', hmessage', hreason'⟩ := h'.settled (hstate ▸ hover)
    exact ⟨hstate'.trans hstate, hoverOutcome'.trans hoverOutcome, hmessage'.trans hmessage,
      hreason'.trans hreason⟩

/-- No task goes away, and each is later what it may become. -/
def Grows (s s' : TaskSystem) : Prop :=
  ∀ x n, s.tasks x = some n → ∃ n', s'.tasks x = some n' ∧ Later n n'

theorem Grows.refl (s : TaskSystem) : Grows s s := fun _ n hn => ⟨n, hn, .refl n⟩

theorem Grows.trans (h : Grows s t) (h' : Grows t u) : Grows s u := fun x n hn => by
  obtain ⟨m, hm, hlater⟩ := h x n hn
  obtain ⟨k, hk, hlater'⟩ := h' x m hm
  exact ⟨k, hk, hlater.trans hlater'⟩

theorem grows_of_tasks_eq (h : s'.tasks = s.tasks) : Grows s s' :=
  fun _ n hn => ⟨n, h ▸ hn, .refl n⟩

theorem grows_set (h : ∀ n, s.tasks x = some n → Later n n') : Grows s (s.set x n') := by
  intro y n hn
  by_cases hy : y = x
  · subst hy
    exact ⟨n', set_tasks_self .., h n hn⟩
  · exact ⟨n, (set_tasks_of_ne s n' hy).trans hn, .refl n⟩

theorem later_of_open (hopen : isTerminalState n.state = false) (hparent : n'.parentId = n.parentId)
    (hkind : n'.kind = n.kind) (hchildren : n'.childIds = n.childIds) : Later n n' where
  parentId := hparent
  kind := hkind
  childIds := hchildren ▸ List.prefix_rfl
  settled hover := absurd (hopen.symm.trans hover) Bool.false_ne_true

/-- The number that is put in was not used before. -/
def Todo.Fresh (s : TaskSystem) (t : Todo) : Prop :=
  ∀ x n message, t = .insert x n message → s.tasks x = none

theorem Effect.grows (h : Effect s t s' more es) (hfresh : t.Fresh s) : Grows s s' := by
  cases h with
  | quiet _ _ htasks => exact grows_of_tasks_eq htasks
  | allocate => exact grows_of_tasks_eq rfl
  | allow => exact .refl s
  | insert x n message =>
    exact grows_set fun m hm => absurd (hfresh x n message rfl ▸ hm) (Option.some_ne_none m).symm
  | publish => exact .refl s
  | register pid x n hn =>
    refine grows_set fun m hm => ?_
    cases hn.symm.trans hm
    exact ⟨rfl, rfl, List.prefix_append .., fun _ => ⟨rfl, rfl, rfl, rfl⟩⟩
  | lookUp => exact .refl s
  | cancel x reason n hn hopen =>
    refine grows_set fun m hm => ?_
    cases hn.symm.trans hm
    exact later_of_open hopen rfl rfl rfl
  | ended t x outcome n light ht hn hopen =>
    refine grows_set fun m hm => ?_
    cases hn.symm.trans hm
    exact later_of_open hopen rfl rfl rfl
  | look => exact grows_of_tasks_eq rfl
  | scanned => exact .refl s
  | decided => exact grows_of_tasks_eq rfl

theorem Over.grows (h : Over s x) (hgrows : Grows s s') : Over s' x := by
  obtain ⟨n, hn, hover⟩ := h
  obtain ⟨n', hn', hlater⟩ := hgrows x n hn
  exact ⟨n', hn', (hlater.settled hover).1 ▸ hover⟩

/-- Numbers that a creation was given and has not put in yet. -/
def Todo.holds (x : TaskId) : Todo → Nat
  | .checkParent y .. | .insert y .. => if y = x then 1 else 0
  | _ => 0

def given (s : TaskSystem) (x : TaskId) : Nat := if x ≤ s.nextId then 1 else 0

def known (s : TaskSystem) (x : TaskId) : Nat := if (s.tasks x).isSome then 1 else 0

theorem known_eq (h : s'.tasks = s.tasks) (x : TaskId) : known s' x = known s x := by
  rw [known, known, h]

theorem given_eq (h : s'.nextId = s.nextId) (x : TaskId) : given s' x = given s x := by
  rw [given, given, h]

theorem given_le (h : s.nextId ≤ s'.nextId) (x : TaskId) : given s x ≤ given s' x := by
  unfold given
  split
  · rename_i hx
    rw [if_pos (hx.trans h)]
  · exact Nat.zero_le _

/-- Each number is given out once. -/
def Unused (s : Workers.State TaskSystem Todo) : Prop :=
  ∀ x, Workers.weight (Todo.holds x) s + known s.shared x ≤ given s.shared x

theorem Todo.Light.holds (h : t.Light) : Todo.holds x t = 0 := by
  cases t with
  | maybeFinalizeJobsFrom => rfl
  | answer => rfl
  | _ => exact h.elim

theorem sum_holds_light {light : List Todo} (h : ∀ t ∈ light, t.Light) (x : TaskId) :
    (light.map (Todo.holds x)).sum = 0 :=
  List.sum_eq_zero fun k hk => by
    obtain ⟨t, ht, rfl⟩ := List.mem_map.mp hk
    exact (h t ht).holds

theorem sum_holds_cancel (childIds : List TaskId) (reason : Option String) (x : TaskId) :
    ((childIds.map (Todo.cancelRecursive · reason)).map (Todo.holds x)).sum = 0 :=
  List.sum_eq_zero fun k hk => by
    obtain ⟨t, ht, rfl⟩ := List.mem_map.mp hk
    obtain ⟨c, -, rfl⟩ := List.mem_map.mp ht
    rfl

theorem known_set {s : TaskSystem} (hx : s.tasks x = some m) (n : TaskSnapshot) (y : TaskId) :
    known (s.set x n) y = known s y := by
  unfold known
  by_cases hy : y = x
  · rw [hy, set_tasks_self, hx]
    rfl
  · rw [set_tasks_of_ne s n hy]

theorem given_set (s : TaskSystem) (x : TaskId) (n : TaskSnapshot) (y : TaskId) :
    given (s.set x n) y = given s y := rfl

theorem Effect.holds (h : Effect s t s' more es) (x : TaskId) :
    (more.map (Todo.holds x)).sum + known s' x + given s x ≤ t.holds x + known s x + given s' x := by
  cases h with
  | quiet _ _ htasks hnext _ hmore =>
    rw [sum_holds_light hmore, known_eq htasks, given_eq hnext]
    omega
  | allocate parentId kind owner label t ht =>
    have hholds : t.holds x = if s.nextId + 1 = x then 1 else 0 := by
      rcases ht with ⟨pid, rfl⟩ | ⟨message, rfl⟩ <;> rfl
    have hgiven : (if s.nextId + 1 = x then 1 else 0) + given s x ≤
        given { s with nextId := s.nextId + 1 } x := by
      by_cases heq : s.nextId + 1 = x
      · subst heq
        rw [if_pos rfl, given, given, if_neg (Nat.not_succ_le_self _), if_pos (Nat.le_refl _)]
      · rw [if_neg heq, Nat.zero_add]
        exact given_le (Nat.le_succ _) x
    have hknown : known { s with nextId := s.nextId + 1 } x = known s x := rfl
    rw [List.map_singleton, List.sum_singleton, hholds, hknown]
    omega
  | allow y pid kind owner label level message =>
    exact Nat.le_refl _
  | insert y n message t ht =>
    have hholds : t.holds x = 0 := by
      rcases ht with ⟨pid, -, rfl⟩ | rfl <;> rfl
    have hknown : known (s.set y n) x ≤ Todo.holds x (.insert y n message) + known s x := by
      by_cases hx : x = y
      · subst hx
        simp [known, Todo.holds]
      · rw [known, set_tasks_of_ne s n hx]
        exact Nat.le_add_left ..
    rw [given_set, List.map_cons, List.map_singleton, List.sum_cons, List.sum_singleton, hholds]
    have hpublish : Todo.holds x (.publish (createdEvent y message)) = 0 := rfl
    omega
  | publish => exact Nat.le_refl _
  | register pid y n hn =>
    rw [known_set hn, given_set]
    exact Nat.le_refl _
  | lookUp => exact Nat.le_refl _
  | cancel y reason n hn =>
    rw [known_set hn, given_set, List.map_cons, List.map_append, List.sum_cons, List.sum_append,
      sum_holds_cancel]
    exact Nat.le_refl _
  | ended t y outcome n light _ hn _ hlight =>
    rw [known_set hn, given_set, List.map_cons, List.sum_cons, sum_holds_light hlight]
    have hpublish : Todo.holds x (.publish (endedEvent y outcome)) = 0 := rfl
    omega
  | look => exact Nat.le_refl _
  | scanned => exact Nat.le_refl _
  | decided => exact Nat.le_refl _

theorem Unused.step (h : Unused s) (hstep : step s a = some (u, es)) : Unused u := fun x => by
  have hx := h x
  cases a with
  | call i c =>
    have hcall := Workers.weight_call (Todo.holds x) (fun c => by cases c <;> rfl) hstep
    obtain ⟨-, rfl, -⟩ := Workers.call_eq hstep
    rw [hcall]
    exact hx
  | advance i =>
    obtain ⟨t, rest, shared, more, es', hbusy, hexec, rfl, -⟩ := Workers.advance_eq hstep
    have hadvance := Workers.weight_advance (Todo.holds x) shared hbusy more
    have heffect := (exec_effect hexec).holds x
    dsimp only
    omega

theorem Unused.fresh (h : Unused s) (ht : Workers.Left s t) : t.Fresh s.shared := by
  rintro x n message rfl
  have hweight := Workers.le_weight_of_left (Todo.holds x) ht
  have hx := h x
  have hholds : Todo.holds x (.insert x n message) = 1 := if_pos rfl
  cases htask : s.shared.tasks x with
  | none => rfl
  | some m =>
    have hknown : known s.shared x = 1 := by rw [known, htask]; rfl
    have hgiven : given s.shared x ≤ 1 := by unfold given; split <;> omega
    omega

end CheetahMedia.Engine.TaskSystem

namespace CheetahMedia.Engine.TaskSystem
open Lib

def endedAs (s : TaskSystem) (outcome : TaskTerminalOutcome) (x : TaskId) : Bool :=
  (s.tasks x).bind (·.terminalOutcome) = some outcome

/-- A job as it was looked at by the walk that may end it. -/
structure Looked (s : TaskSystem) (job : TaskId) (look : TaskSnapshot) : Prop where
  kind : look.kind = .job
  isOpen : isTerminalState look.state = false
  childIds : look.childIds ≠ []
  later : ∃ n, s.tasks job = some n ∧ Later look n

/-- The outcome that the children of a job give it. -/
def outcomeOf (s : TaskSystem) (look : TaskSnapshot) : TaskOutcome :=
  jobOutcome look (look.childIds.any (endedAs s .failed)) (look.childIds.any (endedAs s .cancelled))

/-- What holds of the tasks that something left to do is about. -/
def Todo.Fits (s : TaskSystem) : Todo → Prop
  | .insert _ n _ => ∃ parentId kind level, n = newSnapshot parentId kind level
  | .register _ x | .cancelRecursive x _ | .applyCancelled x _ => (s.tasks x).isSome
  | .scan job look rest hasFailed hasCancelled => Looked s job look ∧ ∃ seen,
    look.childIds = seen ++ rest ∧ (∀ c ∈ seen, Over s c) ∧
      hasFailed = seen.any (endedAs s .failed) ∧ hasCancelled = seen.any (endedAs s .cancelled)
  | .finalize job look outcome => Looked s job look ∧ (∀ c ∈ look.childIds, Over s c) ∧
    outcome = outcomeOf s look
  | _ => True

/-- Children are known. -/
def Rooted (s : TaskSystem) : Prop :=
  ∀ x n, s.tasks x = some n → ∀ c ∈ n.childIds, (s.tasks c).isSome

theorem isSome_set_self (s : TaskSystem) (x : TaskId) (n : TaskSnapshot) :
    ((s.set x n).tasks x).isSome := by
  rw [set_tasks_self]
  rfl

theorem isSome_grows (h : Grows s s') (hx : (s.tasks x).isSome) : (s'.tasks x).isSome := by
  obtain ⟨n, hn⟩ := Option.isSome_iff_exists.mp hx
  obtain ⟨n', hn', -⟩ := h x n hn
  rw [hn']
  rfl

theorem endedAs_grows (h : Grows s s') (hover : Over s x) (outcome : TaskTerminalOutcome) :
    endedAs s' outcome x = endedAs s outcome x := by
  obtain ⟨n, hn, hover⟩ := hover
  obtain ⟨n', hn', hlater⟩ := h x n hn
  unfold endedAs
  rw [hn, hn', Option.bind_some, Option.bind_some, (hlater.settled hover).2.1]

theorem any_endedAs_grows {seen : List TaskId} (h : Grows s s') (hover : ∀ c ∈ seen, Over s c)
    (outcome : TaskTerminalOutcome) :
    seen.any (endedAs s' outcome) = seen.any (endedAs s outcome) := by
  induction seen with
  | nil => rfl
  | cons c seen ih =>
    obtain ⟨hc, hseen⟩ := List.forall_mem_cons.mp hover
    rw [List.any_cons, List.any_cons, ih hseen, endedAs_grows h hc]

theorem outcomeOf_grows (h : Grows s s') (hover : ∀ c ∈ look.childIds, Over s c) :
    outcomeOf s' look = outcomeOf s look := by
  rw [outcomeOf, outcomeOf, any_endedAs_grows h hover, any_endedAs_grows h hover]

theorem Looked.grows (h : Looked s job look) (hgrows : Grows s s') : Looked s' job look := by
  obtain ⟨hkind, hopen, hchildren, n, hn, hlater⟩ := h
  obtain ⟨n', hn', hlater'⟩ := hgrows job n hn
  exact ⟨hkind, hopen, hchildren, n', hn', hlater.trans hlater'⟩

theorem Todo.Fits.grows (h : Todo.Fits s t) (hgrows : Grows s s') : t.Fits s' := by
  cases t with
  | insert => exact h
  | register => exact isSome_grows hgrows h
  | cancelRecursive => exact isSome_grows hgrows h
  | applyCancelled => exact isSome_grows hgrows h
  | scan job look rest hasFailed hasCancelled =>
    obtain ⟨hlooked, seen, hsplit, hover, rfl, rfl⟩ := h
    exact ⟨hlooked.grows hgrows, seen, hsplit, fun c hc => (hover c hc).grows hgrows,
      (any_endedAs_grows hgrows hover _).symm, (any_endedAs_grows hgrows hover _).symm⟩
  | finalize job look outcome =>
    obtain ⟨hlooked, hover, rfl⟩ := h
    exact ⟨hlooked.grows hgrows, fun c hc => (hover c hc).grows hgrows,
      (outcomeOf_grows hgrows hover).symm⟩
  | _ => trivial

theorem Todo.Light.fits (h : Todo.Light t) (s : TaskSystem) : t.Fits s := by
  cases t with
  | maybeFinalizeJobsFrom => trivial
  | answer => trivial
  | _ => exact h.elim

theorem Rooted.set (h : Rooted s) (hgrows : Grows s (s.set x n))
    (hn : ∀ c ∈ n.childIds, (s.tasks c).isSome) : Rooted (s.set x n) := by
  intro y m hm c hc
  refine isSome_grows hgrows ?_
  by_cases hy : y = x
  · subst hy
    rw [set_tasks_self] at hm
    cases hm
    exact hn c hc
  · rw [set_tasks_of_ne s n hy] at hm
    exact h y m hm c hc

theorem Rooted.of_tasks_eq (h : Rooted s) (heq : s'.tasks = s.tasks) : Rooted s' := by
  unfold Rooted
  rw [heq]
  exact h

theorem Effect.rooted (h : Effect s t s' more es) (hgrows : Grows s s') (hrooted : Rooted s)
    (hfits : t.Fits s) : Rooted s' := by
  cases h with
  | quiet _ _ htasks => exact hrooted.of_tasks_eq htasks
  | allocate => exact hrooted.of_tasks_eq rfl
  | insert x n =>
    obtain ⟨parentId, kind, level, rfl⟩ := hfits
    exact hrooted.set hgrows fun c hc => absurd hc List.not_mem_nil
  | register pid x n hn =>
    refine hrooted.set hgrows fun c hc => ?_
    rcases List.mem_append.mp hc with hc | hc
    · exact hrooted pid n hn c hc
    · rw [List.mem_singleton.mp hc]
      exact hfits
  | cancel x reason n hn => exact hrooted.set hgrows (hrooted x n hn)
  | ended _ x outcome n light _ hn => exact hrooted.set hgrows (hrooted x n hn)
  | look => exact hrooted.of_tasks_eq rfl
  | decided => exact hrooted.of_tasks_eq rfl
  | _ => exact hrooted

theorem Effect.fits (h : Effect s t s' more es) (hgrows : Grows s s') (hrooted : Rooted s)
    (hfits : t.Fits s) : ∀ t' ∈ more, t'.Fits s' := by
  cases h with
  | quiet _ _ _ _ _ hmore => exact fun t' ht' => (hmore t' ht').fits s'
  | allocate parentId kind owner label t ht =>
    refine List.forall_mem_singleton.mpr ?_
    rcases ht with ⟨pid, rfl⟩ | ⟨message, rfl⟩
    · trivial
    · exact ⟨none, kind, 0, rfl⟩
  | allow x pid kind owner label level message =>
    exact List.forall_mem_singleton.mpr ⟨some pid, kind, level, rfl⟩
  | insert x n message t ht =>
    refine List.forall_mem_cons.mpr ⟨trivial, List.forall_mem_singleton.mpr ?_⟩
    rcases ht with ⟨pid, -, rfl⟩ | rfl
    · exact isSome_set_self s x n
    · trivial
  | publish => exact List.forall_mem_nil _
  | register => exact List.forall_mem_singleton.mpr trivial
  | lookUp x reason hx =>
    exact List.forall_mem_cons.mpr ⟨hx, List.forall_mem_singleton.mpr trivial⟩
  | cancel x reason n hn =>
    refine List.forall_mem_cons.mpr ⟨trivial, List.forall_mem_append.mpr ⟨?_, ?_⟩⟩
    · intro t' ht'
      obtain ⟨c, hc, rfl⟩ := List.mem_map.mp ht'
      exact isSome_grows hgrows (hrooted x n hn c hc)
    · exact List.forall_mem_singleton.mpr (isSome_set_self s x _)
  | ended _ x outcome n light _ _ _ hlight =>
    exact List.forall_mem_cons.mpr ⟨trivial, fun t' ht' => (hlight t' ht').fits _⟩
  | look job n hn hkind hopen hchildren =>
    exact List.forall_mem_singleton.mpr ⟨⟨hkind, hopen, hchildren, n, hn, .refl n⟩, [], rfl,
      List.forall_mem_nil _, rfl, rfl⟩
  | scanned job look child rest hasFailed hasCancelled n hn hover =>
    obtain ⟨hlooked, seen, hsplit, hseen, rfl, rfl⟩ := hfits
    have hchild : ∀ outcome, endedAs s outcome child = decide (n.terminalOutcome = some outcome) :=
      fun outcome => by rw [endedAs, hn]; rfl
    refine List.forall_mem_singleton.mpr ⟨hlooked, seen ++ [child], ?_, ?_, ?_, ?_⟩
    · rw [hsplit, List.append_assoc]
      rfl
    · exact List.forall_mem_append.mpr ⟨hseen, List.forall_mem_singleton.mpr ⟨n, hn, hover⟩⟩
    · simp [hchild]
    · simp [hchild]
  | decided job look hasFailed hasCancelled =>
    obtain ⟨hlooked, seen, hsplit, hseen, rfl, rfl⟩ := hfits
    rw [List.append_nil] at hsplit
    refine List.forall_mem_cons.mpr ⟨⟨hlooked.grows hgrows, hsplit ▸ hseen, ?_⟩,
      List.forall_mem_singleton.mpr trivial⟩
    rw [← hsplit]
    rfl

theorem keeps : Workers.Keeps start exec Unused Rooted (fun s t => Todo.Fits s t) where
  step _ _ _ _ hunused hstep := hunused.step hstep
  call s c _ t ht := by
    cases c with
    | createTask =>
      cases List.mem_singleton.mp ht
      trivial
    | cancel =>
      cases List.mem_singleton.mp ht
      trivial
    | finish =>
      cases List.mem_singleton.mp ht
      trivial
  exec s t s' more es hunused ht hrooted hfits hexec := by
    have heffect := exec_effect hexec
    have hgrows := heffect.grows (hunused.fresh ht)
    exact ⟨heffect.rooted hgrows hrooted hfits, heffect.fits hgrows hrooted hfits,
      fun _ h => h.grows hgrows⟩

/-- Reached from a new task system by any number of callers. -/
abbrev Sound (s : Workers.State TaskSystem Todo) : Prop :=
  Workers.Kept Unused Rooted (fun s t => Todo.Fits s t) s

theorem step_grows (h : Sound s) (hstep : step s a = some (u, es)) : Grows s.shared u.shared := by
  cases a with
  | call i c =>
    obtain ⟨-, rfl, -⟩ := Workers.call_eq hstep
    exact .refl _
  | advance i =>
    obtain ⟨t, rest, shared, more, es', hbusy, hexec, rfl, -⟩ := Workers.advance_eq hstep
    exact (exec_effect hexec).grows
      (h.whole.fresh (Workers.left_of_getElem? hbusy List.mem_cons_self))

end CheetahMedia.Engine.TaskSystem
