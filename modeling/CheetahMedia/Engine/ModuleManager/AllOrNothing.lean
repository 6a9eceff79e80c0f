import CheetahMedia.Engine.ModuleManager.ConfigChange

namespace CheetahMedia.Engine.ModuleManager
open Lib Config

/-- What an instance is under once its module's answer has been carried through. -/
def settled (store : ConfigState) (change : ModuleConfigChange) (effect : ConfigEffect)
    (held : Option Settings) : Option Settings :=
  if effect = .moduleRestartRequired then some (givenBy store change.moduleId)
  else settle change effect held

/-- How far a change gets: no call of its module's life cycle is made for it, or one of them
fails, or it is applied. -/
inductive Progress
  | refused
  | interrupted
  | applied (effect : ConfigEffect)

namespace Modules
variable {r : Registry} {store : ConfigState} {answers undoing : Answers} {s t : Modules}
  {change : ModuleConfigChange}

/-- The settings of the instance that the record of a module has. -/
def held (s : Modules) (moduleId : ModuleId) : Option Settings :=
  if s.manager.records moduleId then s.settings moduleId else none

/-- The rebuild of a module, as far as its state, the runtime and the answers take it. -/
def rebuildProgress (r : Registry) (answers : Answers) (s : Modules) (moduleId : ModuleId) :
    Progress :=
  match rebuildTarget moduleId (s.manager.states moduleId), s.manager.runtime with
  | .ok target, some rootCancel =>
    if moduleId ∉ r.ids then .refused
    else if (answers.calls (.stop moduleId)).isOk && (answers.calls (.init moduleId)).isOk &&
        (target = .initialized || rootCancel && (answers.calls (.start moduleId)).isOk) then
      .applied .moduleRestartRequired
    else .interrupted
  | _, _ => .refused

def progress (r : Registry) (answers : Answers) (s : Modules) (change : ModuleConfigChange) :
    Progress :=
  if s.manager.records change.moduleId then
    match answers.applyConfig change with
    | .error _ => .refused
    | .ok .moduleRestartRequired => rebuildProgress r answers s change.moduleId
    | .ok effect => .applied effect
  else .refused

/-- Every module is in the state it was in, and every instance under what it was under. -/
structure Kept (s t : Modules) : Prop where
  states : t.manager.states = s.manager.states
  held : t.held = s.held

/-- A change that was applied leaves every module in its state. -/
structure Changed (r : Registry) (store : ConfigState) (change : ModuleConfigChange)
    (effect : ConfigEffect) (s t : Modules) : Prop where
  states : t.manager.states = s.manager.states
  runtime : t.manager.runtime = s.manager.runtime
  held : t.held = Function.update s.held change.moduleId
    (settled store change effect (s.held change.moduleId))
  records : t.manager.records = fun moduleId =>
    s.manager.records moduleId || (effect = .moduleRestartRequired && moduleId ∈ r.ids)

/-- What a change does, by how far it gets. -/
def Outcome (r : Registry) (store : ConfigState) (change : ModuleConfigChange) (s : Modules)
    (ok : Bool) (t : Modules) : Progress → Prop
  | .refused => ok = false ∧ Kept s t
  | .interrupted => ok = false ∧ t.manager.states ≠ s.manager.states
  | .applied effect => ok = true ∧ Changed r store change effect s t

theorem held_ensureRecords (r : Registry) (s : Modules) : (s.ensureRecords r).held = s.held := by
  funext moduleId
  by_cases h : s.manager.records moduleId = true
  · simp [held, ensureRecords, Manager.ensureRecords, h]
  · simp [held, ensureRecords, Manager.ensureRecords, h]

theorem states_ne (moduleId : ModuleId) (h : t.manager.states moduleId ≠ s.manager.states moduleId) :
    t.manager.states ≠ s.manager.states := fun heq => h (by rw [heq])

theorem rebuildTarget_ok (h : rebuildTarget moduleId state = .ok target) :
    (target = .running ∧ state = some .running) ∨
      (target = .initialized ∧ state = some .initialized) := by
  unfold rebuildTarget at h
  split at h
  · cases h
  · cases h
    exact .inl ⟨rfl, rfl⟩
  · cases h
    exact .inr ⟨rfl, rfl⟩
  · cases h

theorem changed_of_rebuilt (hid : change.moduleId ∈ r.ids)
    (hstates : t.manager.states = s.manager.states)
    (hruntime : t.manager.runtime = s.manager.runtime)
    (hrecords : t.manager.records = (s.ensureRecords r).manager.records)
    (hsettings : t.settings = Function.update (s.ensureRecords r).settings change.moduleId
      (some (givenBy store change.moduleId))) :
    Changed r store change .moduleRestartRequired s t := by
  have hrecord : t.manager.records = fun moduleId => s.manager.records moduleId || moduleId ∈ r.ids :=
    hrecords
  refine ⟨hstates, hruntime, ?_, by simpa using hrecord⟩
  funext moduleId
  by_cases hmodule : moduleId = change.moduleId
  · simp [hmodule, held, hrecord, hsettings, hid, settled]
  · rw [Function.update_of_ne hmodule, ← held_ensureRecords r s, held, held, hrecords, hsettings,
      Function.update_of_ne hmodule]

theorem rebuildModule_outcome (store : ConfigState) (answers : Answers)
    (htarget : rebuildTarget change.moduleId (s.manager.states change.moduleId) = .ok target) :
    Outcome r store change s (s.rebuildModule r store answers change.moduleId target).1.isOk
      (s.rebuildModule r store answers change.moduleId target).2
      (rebuildProgress r answers s change.moduleId) := by
  have hrefused : Kept s (s.ensureRecords r) := ⟨rfl, held_ensureRecords r s⟩
  simp only [rebuildProgress, htarget, rebuildModule]
  cases hruntime : s.manager.runtime with
  | none =>
    have hensured : (s.ensureRecords r).manager.runtime = none := hruntime
    simp only [hensured, Outcome]
    exact ⟨rfl, hrefused⟩
  | some rootCancel =>
    have hensured : (s.ensureRecords r).manager.runtime = some rootCancel := hruntime
    simp only [hensured]
    by_cases hid : change.moduleId ∈ r.ids
    · simp only [hid, not_true_eq_false, if_false]
      have hrecord : (s.ensureRecords r).manager.records change.moduleId = true := by
        simp [ensureRecords, Manager.ensureRecords, hid]
      simp only [Manager.takeRecord_eq hrecord, Manager.stopRecord_eq]
      cases hstop : answers.calls (.stop change.moduleId) with
      | error err =>
        refine ⟨rfl, states_ne change.moduleId ?_⟩
        rcases rebuildTarget_ok htarget with ⟨-, hstate⟩ | ⟨-, hstate⟩
        · simp [Manager.putRecord, Manager.afterStop, hstate]
        · simp [Manager.putRecord, Manager.afterStop, hstate]
      | ok u =>
        simp only [Manager.enterRecord, Manager.initPhase]
        cases hinit : answers.calls (.init change.moduleId) with
        | error err =>
          refine ⟨rfl, states_ne change.moduleId ?_⟩
          rcases rebuildTarget_ok htarget with ⟨-, hstate⟩ | ⟨-, hstate⟩
          · simp [Manager.putRecord, Manager.setState, setSettings, hstate]
          · simp [Manager.putRecord, Manager.setState, setSettings, hstate]
        | ok u =>
          rcases rebuildTarget_ok htarget with ⟨rfl, hstate⟩ | ⟨rfl, hstate⟩
          · cases rootCancel with
            | false =>
              refine ⟨rfl, states_ne change.moduleId ?_⟩
              simp [Manager.setState, hstate]
            | true =>
              cases hstart : answers.calls (.start change.moduleId) with
              | error err =>
                simp only [Manager.startPhase, hstart]
                refine ⟨rfl, states_ne change.moduleId ?_⟩
                simp [Manager.putRecord, Manager.setState, hstate]
              | ok u =>
                simp only [Manager.startPhase, hstart]
                refine ⟨rfl, changed_of_rebuilt hid ?_ rfl ?_ rfl⟩
                · simp [Manager.putRecord, Manager.setState, Manager.call, ensureRecords,
                    Manager.ensureRecords, ← hstate]
                · exact Manager.update_record hrecord
          · refine ⟨rfl, changed_of_rebuilt hid ?_ rfl ?_ rfl⟩
            · simp [Manager.putRecord, Manager.setState, Manager.call, ensureRecords,
                Manager.ensureRecords, ← hstate]
            · exact Manager.update_record hrecord
    · simp only [hid, not_false_eq_true, if_true, Outcome]
      exact ⟨rfl, hrefused⟩

theorem putRecord_taken {m : Manager} (h : m.records moduleId = true) :
    ({ m with records := Function.update m.records moduleId false } : Manager).putRecord moduleId =
      m := by
  simp only [Manager.putRecord, Manager.update_record h]

/-- An answer that takes nothing but the instance's own settings along. -/
theorem changed_of_settled (store : ConfigState)
    (hrecord : s.manager.records change.moduleId = true)
    (heffect : effect ≠ .moduleRestartRequired) :
    Changed r store change effect s
      (s.setSettings change.moduleId (settle change effect (s.settings change.moduleId))) := by
  refine ⟨rfl, rfl, ?_, by simp [setSettings, heffect]⟩
  funext moduleId
  by_cases hmodule : moduleId = change.moduleId
  · subst hmodule
    simp [held, setSettings, hrecord, settled, heffect]
  · simp [held, setSettings, hmodule]

theorem applyModuleConfigChange_outcome (store : ConfigState) (answers : Answers)
    (change : ModuleConfigChange) (s : Modules) :
    Outcome r store change s (s.applyModuleConfigChange r store answers change).1.isOk
      (s.applyModuleConfigChange r store answers change).2 (progress r answers s change) := by
  unfold applyModuleConfigChange progress
  by_cases hrecord : s.manager.records change.moduleId = true
  · simp only [Manager.takeRecord_eq hrecord, hrecord, if_true, putRecord_taken hrecord]
    cases happly : answers.applyConfig change with
    | error err => exact ⟨rfl, rfl, rfl⟩
    | ok effect =>
      by_cases heffect : effect = .moduleRestartRequired
      · subst heffect
        have hsame : s.setSettings change.moduleId (settle change .moduleRestartRequired
            (s.settings change.moduleId)) = s := by simp [setSettings, settle]
        simp only [hsame, if_true]
        cases htarget : rebuildTarget change.moduleId (s.manager.states change.moduleId) with
        | error err =>
          simp only [rebuildProgress, htarget]
          exact ⟨rfl, rfl, rfl⟩
        | ok target =>
          have hrebuild := rebuildModule_outcome (r := r) store answers htarget
          cases hresult : s.rebuildModule r store answers change.moduleId target with
          | mk result u =>
            rw [hresult] at hrebuild
            cases result with
            | error err =>
              simp only [hresult]
              exact hrebuild
            | ok _ =>
              simp only [hresult]
              exact hrebuild
      · simp only [heffect, if_false]
        have hchanged := changed_of_settled (r := r) store hrecord heffect
        cases effect with
        | moduleRestartRequired => contradiction
        | _ => exact ⟨rfl, hchanged⟩
  · simp only [Manager.takeRecord, hrecord, if_false, Bool.false_eq_true]
    exact ⟨rfl, rfl, rfl⟩

/-- The modules that are in use. -/
def active : Option ModuleState → Bool
  | some .initialized | some .running => true
  | _ => false

/-- What a module in use runs with. -/
def runsWith (s : Modules) (moduleId : ModuleId) : Option Settings :=
  if active (s.manager.states moduleId) then s.held moduleId else none

def asksForRestart (answers : Answers) (change : ModuleConfigChange) : Bool :=
  match answers.applyConfig change with
  | .ok .moduleRestartRequired => true
  | _ => false

/-- The records once the changes of `before` are applied. -/
def recordsAfter (r : Registry) (answers : Answers) (before : List ModuleConfigChange)
    (s : Modules) : Modules :=
  if before.any (asksForRestart answers) then s.ensureRecords r else s

/-- The settings that the later of two answers with an effect on a running instance leaves it
under, where a change from `previous` to `next` is made and taken back while the store gives
`next`; `none` where neither has one. -/
def lastTaken (previous next : Settings) (effect undone : ConfigEffect) : Option Settings :=
  match undone, effect with
  | .immediate, _ | .newSessionsOnly, _ => some previous
  | .moduleRestartRequired, _ => some next
  | .engineRestartRequired, .engineRestartRequired => none
  | .engineRestartRequired, _ => some next

/-- A module in use ran with what its two answers leave it under. -/
def TakenBack (config store : ConfigState) (answers undoing : Answers) (s : Modules)
    (change : ModuleConfigChange) : Prop :=
  ∀ effect undone, answers.applyConfig change = .ok effect →
    undoing.applyConfig (rollbackChange change) = .ok undone →
    active (s.manager.states change.moduleId) →
    ∀ settings ∈ lastTaken (givenBy config change.moduleId) (givenBy store change.moduleId)
      effect undone, s.held change.moduleId = some settings

/-- The changes go through up to one that is refused, and those before it are taken back. -/
def Reversible (r : Registry) (config store : ConfigState) (answers undoing : Answers)
    (s : Modules) : List ModuleConfigChange → List ModuleConfigChange → Prop
  | _, [] => True
  | before, change :: rest =>
    match progress r answers (recordsAfter r answers before s) change with
    | .refused => True
    | .interrupted => False
    | .applied _ => TakenBack config store answers undoing s change ∧
        Reversible r config store answers undoing s (before ++ [change]) rest

def Applies (r : Registry) (answers : Answers) (s : Modules) (before : List ModuleConfigChange)
    (change : ModuleConfigChange) : Prop :=
  ∃ effect, progress r answers (recordsAfter r answers before s) change = .applied effect

theorem reversible_append {config : ConfigState}
    (h : AtEach (Applies r answers s) (before ++ done)) (rest : List ModuleConfigChange) :
    Reversible r config store answers undoing s before (done ++ rest) ↔
      (∀ change ∈ done, TakenBack config store answers undoing s change) ∧
        Reversible r config store answers undoing s (before ++ done) rest := by
  induction done generalizing before with
  | nil => simp
  | cons change done ih =>
    obtain ⟨effect, heffect⟩ := h before change done rfl
    rw [List.append_cons] at h
    rw [List.cons_append, Reversible, heffect, ih h, List.forall_mem_cons, and_assoc,
      ← List.append_cons]

theorem progress_congr (hstates : t.manager.states = s.manager.states)
    (hruntime : t.manager.runtime = s.manager.runtime)
    (hrecords : t.manager.records = s.manager.records) :
    progress r answers t change = progress r answers s change := by
  simp only [progress, rebuildProgress, hstates, hruntime, hrecords]

theorem rebuildProgress_applied (h : rebuildProgress r answers s moduleId = .applied effect) :
    effect = .moduleRestartRequired := by
  unfold rebuildProgress at h
  split at h
  · split at h
    · cases h
    · split at h
      · cases h
        rfl
      · cases h
  · cases h

theorem progress_applied (h : progress r answers s change = .applied effect) :
    answers.applyConfig change = .ok effect := by
  unfold progress at h
  split at h
  · cases happly : answers.applyConfig change with
    | error err => simp [happly] at h
    | ok e =>
      rw [happly] at h
      cases e with
      | moduleRestartRequired => rw [rebuildProgress_applied h]
      | _ =>
        cases h
        rfl
  · cases h

theorem asksForRestart_eq (h : answers.applyConfig change = .ok effect) :
    asksForRestart answers change = decide (effect = .moduleRestartRequired) := by
  rw [asksForRestart, h]
  cases effect <;> rfl

theorem recordsAfter_states : (recordsAfter r answers before s).manager.states = s.manager.states := by
  unfold recordsAfter
  split <;> rfl

theorem recordsAfter_runtime :
    (recordsAfter r answers before s).manager.runtime = s.manager.runtime := by
  unfold recordsAfter
  split <;> rfl

theorem recordsAfter_records : (recordsAfter r answers before s).manager.records = fun moduleId =>
    s.manager.records moduleId || (before.any (asksForRestart answers) && moduleId ∈ r.ids) := by
  unfold recordsAfter
  split
  · simp [ensureRecords, Manager.ensureRecords, *]
  · simp [*]

/-- An action that succeeds has been applied. -/
theorem changed_of_ok (h : s.applyModuleConfigChange r store answers change = (.ok report, t)) :
    ∃ effect, progress r answers s change = .applied effect ∧
      answers.applyConfig change = .ok effect ∧ Changed r store change effect s t := by
  have houtcome := applyModuleConfigChange_outcome (r := r) store answers change s
  rw [h] at houtcome
  cases hprogress : progress r answers s change with
  | applied effect =>
    rw [hprogress] at houtcome
    exact ⟨effect, rfl, progress_applied hprogress, houtcome.2⟩
  | refused =>
    rw [hprogress] at houtcome
    cases houtcome.1
  | interrupted =>
    rw [hprogress] at houtcome
    cases houtcome.1

/-- Where the modules are once the changes of `done` are applied. -/
structure Progressed (r : Registry) (store : ConfigState) (answers : Answers) (s : Modules)
    (done : List ModuleConfigChange) (t : Modules) : Prop where
  states : t.manager.states = s.manager.states
  runtime : t.manager.runtime = s.manager.runtime
  records : t.manager.records = (recordsAfter r answers done s).manager.records
  applied : AtEach (Applies r answers s) done
  touched : ∀ change ∈ done, ∀ effect, answers.applyConfig change = .ok effect →
    t.held change.moduleId = settled store change effect (s.held change.moduleId)
  frame : ∀ moduleId, moduleId ∉ done.map (·.moduleId) → t.held moduleId = s.held moduleId

theorem Progressed.nil : Progressed r store answers s [] s where
  states := rfl
  runtime := rfl
  records := rfl
  applied := atEach_nil
  touched := by simp
  frame := fun _ _ => rfl

theorem Progressed.progress_eq (h : Progressed r store answers s done t) :
    progress r answers t change = progress r answers (recordsAfter r answers done s) change :=
  progress_congr (h.states.trans recordsAfter_states.symm)
    (h.runtime.trans recordsAfter_runtime.symm) h.records

theorem Progressed.snoc {u : Modules} (h : Progressed r store answers s done t)
    (hnew : change.moduleId ∉ done.map (·.moduleId))
    (hchange : t.applyModuleConfigChange r store answers change = (.ok report, u)) :
    Progressed r store answers s (done ++ [change]) u := by
  obtain ⟨effect, hprogress, happly, hstates, hruntime, hheld, hrecords⟩ := changed_of_ok hchange
  refine ⟨hstates.trans h.states, hruntime.trans h.runtime, ?_,
    h.applied.snoc ⟨effect, h.progress_eq ▸ hprogress⟩, ?_, ?_⟩
  · rw [hrecords, h.records, recordsAfter_records, recordsAfter_records]
    funext moduleId
    simp [asksForRestart_eq happly, Bool.and_or_distrib_right, Bool.or_assoc]
  · intro d hd effect' hd'
    rcases List.mem_append.mp hd with hd | hd
    · have hne : d.moduleId ≠ change.moduleId := fun heq =>
        hnew (List.mem_map.mpr ⟨d, hd, heq⟩)
      rw [hheld, Function.update_of_ne hne, h.touched d hd effect' hd']
    · obtain rfl := List.mem_singleton.mp hd
      obtain rfl : effect' = effect := Except.ok.inj (hd'.symm.trans happly)
      rw [hheld, Function.update_self, h.frame _ hnew]
  · intro moduleId hmodule
    simp only [List.map_append, List.map_cons, List.map_nil, List.mem_append, List.mem_singleton,
      not_or] at hmodule
    rw [hheld, Function.update_of_ne hmodule.2, h.frame _ hmodule.1]

/-- What taking changes back leaves, where it succeeds. -/
theorem rollbackLoop_ok (hnodup : (changes.map (·.moduleId)).Nodup)
    (h : rollbackLoop r store undoing changes s = ([], t)) :
    t.manager.states = s.manager.states ∧
    (∀ change ∈ changes, ∃ undone, undoing.applyConfig (rollbackChange change) = .ok undone ∧
      t.held change.moduleId =
        settled store (rollbackChange change) undone (s.held change.moduleId)) ∧
    ∀ moduleId, moduleId ∉ changes.map (·.moduleId) → t.held moduleId = s.held moduleId := by
  induction changes generalizing s with
  | nil =>
    cases h
    exact ⟨rfl, by simp, fun _ _ => rfl⟩
  | cons change changes ih =>
    obtain ⟨hnew, hnodup⟩ := List.nodup_cons.mp hnodup
    rcases hc : s.applyModuleConfigChange r store undoing (rollbackChange change) with ⟨_ | _, u⟩
    · simp [rollbackLoop, hc] at h
    · simp only [rollbackLoop, hc] at h
      obtain ⟨undone, -, happly, hstates, -, hheld, -⟩ := changed_of_ok hc
      obtain ⟨ihstates, ihtouched, ihframe⟩ := ih hnodup h
      refine ⟨ihstates.trans hstates, ?_, ?_⟩
      · intro d hd
        rcases List.mem_cons.mp hd with rfl | hd
        · refine ⟨undone, happly, ?_⟩
          rw [ihframe _ hnew, hheld]
          exact Function.update_self ..
        · obtain ⟨undone', happly', hheld'⟩ := ihtouched d hd
          have hne : d.moduleId ≠ change.moduleId := fun heq =>
            hnew (List.mem_map.mpr ⟨d, hd, heq⟩)
          refine ⟨undone', happly', ?_⟩
          rw [hheld', hheld]
          congr 1
          exact Function.update_of_ne hne ..
      · intro moduleId hmodule
        rw [List.map_cons, List.mem_cons, not_or] at hmodule
        rw [ihframe _ hmodule.2, hheld]
        exact Function.update_of_ne hmodule.1 ..

section Ordered
variable {changes : List ModuleConfigChange} {byId : ModuleMap ModuleConfigChange}

/-- A map of some of the changes by their modules. -/
def Keyed (changes : List ModuleConfigChange) (byId : ModuleMap ModuleConfigChange) : Prop :=
  ∀ moduleId change, byId.lookup moduleId = some change →
    change ∈ changes ∧ change.moduleId = moduleId

theorem Keyed.insert (h : Keyed changes byId) (hchange : change ∈ changes) :
    Keyed changes (byId.insert change.moduleId change) := by
  intro moduleId d hd
  by_cases hmodule : moduleId = change.moduleId
  · subst hmodule
    rw [AList.lookup_insert] at hd
    cases hd
    exact ⟨hchange, rfl⟩
  · rw [AList.lookup_insert_ne hmodule] at hd
    exact h moduleId d hd

theorem keyed_foldl (rest : List ModuleConfigChange) (h : Keyed changes byId)
    (hrest : ∀ change ∈ rest, change ∈ changes) :
    Keyed changes (rest.foldl (fun byId change => byId.insert change.moduleId change) byId) := by
  induction rest generalizing byId with
  | nil => exact h
  | cons change rest ih =>
    obtain ⟨hchange, hrest⟩ := List.forall_mem_cons.mp hrest
    exact ih (h.insert hchange) hrest

theorem keyed_changesById (changes : List ModuleConfigChange) :
    Keyed changes (changesById changes) :=
  keyed_foldl changes (fun moduleId change h => by simp at h) fun _ h => h

/-- The changes that are taken are those of different modules, which the rest has none of. -/
theorem takeOrdered_spec (order : List ModuleId) (h : Keyed changes byId) :
    ((takeOrdered order byId).1.map (·.moduleId)).Nodup ∧
    (∀ change ∈ (takeOrdered order byId).1, byId.lookup change.moduleId = some change) ∧
    ∀ moduleId, (takeOrdered order byId).2.lookup moduleId =
      if moduleId ∈ (takeOrdered order byId).1.map (·.moduleId) then none
      else byId.lookup moduleId := by
  induction order generalizing byId with
  | nil => simp [takeOrdered]
  | cons key order ih =>
    cases hkey : byId.lookup key with
    | none =>
      simp only [takeOrdered, hkey]
      exact ih h
    | some change =>
      obtain ⟨-, hid⟩ := h key change hkey
      have herase : Keyed changes (byId.erase key) := fun moduleId d hd => by
        by_cases hmodule : moduleId = key
        · subst hmodule
          simp at hd
        · exact h moduleId d (by rwa [AList.lookup_erase_ne hmodule] at hd)
      obtain ⟨ihnodup, ihmem, ihrest⟩ := ih herase
      have hnew : ∀ d ∈ (takeOrdered order (byId.erase key)).1, d.moduleId ≠ key := by
        rintro d hd rfl
        simpa using ihmem d hd
      simp only [takeOrdered, hkey]
      refine ⟨?_, ?_, ?_⟩
      · rw [List.map_cons, List.nodup_cons]
        refine ⟨fun hmem => ?_, ihnodup⟩
        obtain ⟨d, hd, heq⟩ := List.mem_map.mp hmem
        exact hnew d hd (heq.trans hid)
      · intro d hd
        rcases List.mem_cons.mp hd with rfl | hd
        · rw [hid, hkey]
        · rw [← AList.lookup_erase_ne (hnew d hd), ihmem d hd]
      · intro moduleId
        rw [ihrest]
        by_cases hmodule : moduleId = key
        · subst hmodule
          simp [hid]
        · simp [hmodule, hid]

theorem mem_walk (walk : ChangeWalk) (h : change ∈ walk.changes byId) :
    ∃ moduleId, byId.lookup moduleId = some change := by
  obtain ⟨entry, hentry, rfl⟩ := List.mem_map.mp ((walk.perm byId).mem_iff.mp h)
  exact ⟨entry.1, AList.mem_lookup_iff.mpr hentry⟩

theorem nodup_walk (walk : ChangeWalk) (h : Keyed changes byId) :
    ((walk.changes byId).map (·.moduleId)).Nodup := by
  have hperm := (walk.perm byId).map (·.moduleId)
  rw [hperm.nodup_iff, List.map_map]
  have hkeys : byId.entries.map ((·.moduleId) ∘ (·.2)) = byId.keys :=
    List.map_congr_left fun entry hentry =>
      (h entry.1 entry.2 (AList.mem_lookup_iff.mpr hentry)).2
  rw [hkeys]
  exact byId.keys_nodup

/-- Each module's change is made once. -/
theorem orderedChanges_spec (order : List ModuleId) (walk : ChangeWalk)
    (changes : List ModuleConfigChange) :
    ((orderedChanges order walk changes).map (·.moduleId)).Nodup ∧
      ∀ change ∈ orderedChanges order walk changes, change ∈ changes := by
  have hkeyed := keyed_changesById changes
  obtain ⟨hnodup, hmem, hrest⟩ := takeOrdered_spec order hkeyed
  have hleft : Keyed changes (takeOrdered order (changesById changes)).2 := fun moduleId d hd => by
    rw [hrest] at hd
    split at hd
    · cases hd
    · exact hkeyed moduleId d hd
  simp only [orderedChanges]
  constructor
  · rw [List.map_append, List.nodup_append]
    refine ⟨hnodup, nodup_walk walk hleft, ?_⟩
    rintro moduleId hmodule _ hwalk rfl
    obtain ⟨d, hd, rfl⟩ := List.mem_map.mp hwalk
    obtain ⟨key, hkey⟩ := mem_walk walk hd
    obtain ⟨-, hid⟩ := hleft key d hkey
    rw [hrest, ← hid, if_pos hmodule] at hkey
    cases hkey
  · intro d hd
    rcases List.mem_append.mp hd with hd | hd
    · exact (hkeyed _ d (hmem d hd)).1
    · obtain ⟨key, hkey⟩ := mem_walk walk hd
      exact (hleft key d hkey).1

end Ordered

/-- A change between what two states of the store give a module. -/
def Between (config store : ConfigState) (change : ModuleConfigChange) : Prop :=
  ∀ held, nextSettings change held = givenBy store change.moduleId ∧
    nextSettings (rollbackChange change) held = givenBy config change.moduleId

/-- What an instance is under after a change is made and taken back. -/
theorem settled_twice (h : Between config store change) (effect undone : ConfigEffect)
    (held : Option Settings) :
    settled store (rollbackChange change) undone (settled store change effect held) = held ↔
      ∀ settings ∈ lastTaken (givenBy config change.moduleId) (givenBy store change.moduleId)
        effect undone, held = some settings := by
  have hforward := fun held => (h held).1
  have hback := fun held => (h held).2
  have hmodule : (rollbackChange change).moduleId = change.moduleId := rfl
  cases undone with
  | immediate => simp [settled, settle, lastTaken, hback, eq_comm]
  | newSessionsOnly => simp [settled, settle, lastTaken, hback, eq_comm]
  | moduleRestartRequired => simp [settled, lastTaken, hmodule, eq_comm]
  | engineRestartRequired =>
    cases effect with
    | engineRestartRequired => simp [settled, settle, lastTaken]
    | _ => simp [settled, settle, lastTaken, hforward, eq_comm]

/-- A run that fails, with everything before the failure taken back. -/
theorem changeModules_error {config : ConfigState} (hnodup : (ordered.map (·.moduleId)).Nodup)
    (hbetween : ∀ change ∈ ordered, Between config store change)
    (h : changeModules r store answers undoing ordered s = (.error (err, []), t)) :
    (t.manager.states = s.manager.states ∧ ∀ moduleId, t.runsWith moduleId = s.runsWith moduleId) ↔
      Reversible r config store answers undoing s [] ordered := by
  obtain ⟨done, change, rest, u, v, hsplit, hdone, hfail, hundo⟩ :=
    Compensation.attempt_error (Progressed r store answers s)
      (fun done a rest u b v hall hinv ha => by
        rw [List.nil_append] at hall
        rw [hall, List.map_append, List.map_cons] at hnodup
        exact hinv.snoc (fun hmem => (List.nodup_append.mp hnodup).2.2 _ hmem _ (by simp) rfl) ha)
      .nil h
  rw [List.nil_append] at hsplit
  subst hsplit
  have hnodupDone : (done.map (·.moduleId)).Nodup := by
    rw [List.map_append] at hnodup
    exact (List.nodup_append.mp hnodup).1
  have houtcome := applyModuleConfigChange_outcome (r := r) store answers change u
  rw [hfail, hdone.progress_eq] at houtcome
  obtain ⟨hstates, htouched, hframe⟩ :=
    rollbackLoop_ok (by rwa [List.map_reverse, List.nodup_reverse]) hundo
  rw [reversible_append (by simpa using hdone.applied) (change :: rest), List.nil_append,
    Reversible]
  cases hprogress : progress r answers (recordsAfter r answers done s) change with
  | applied effect =>
    rw [hprogress] at houtcome
    cases houtcome.1
  | interrupted =>
    rw [hprogress] at houtcome
    simp only [and_false, iff_false]
    rintro ⟨hbefore, -⟩
    exact houtcome.2 (hstates.symm.trans (hbefore.trans hdone.states.symm))
  | refused =>
    rw [hprogress] at houtcome
    have hkept := houtcome.2
    have hsame : t.manager.states = s.manager.states :=
      hstates.trans (hkept.states.trans hdone.states)
    have hheld (d : ModuleConfigChange) (hd : d ∈ done) : ∃ effect undone,
        answers.applyConfig d = .ok effect ∧ undoing.applyConfig (rollbackChange d) = .ok undone ∧
        t.held d.moduleId = settled store (rollbackChange d) undone
          (settled store d effect (s.held d.moduleId)) := by
      obtain ⟨before, after, rfl⟩ := List.append_of_mem hd
      obtain ⟨effect, heffect⟩ := hdone.applied before d after rfl
      obtain ⟨undone, hundone, hlast⟩ := htouched d (List.mem_reverse.mpr hd)
      refine ⟨effect, undone, progress_applied heffect, hundone, ?_⟩
      rw [hlast, hkept.held, hdone.touched d hd effect (progress_applied heffect)]
    have hother (moduleId : ModuleId) (hm : moduleId ∉ done.map (·.moduleId)) :
        t.held moduleId = s.held moduleId := by
      rw [hframe _ (by simpa using hm), hkept.held, hdone.frame _ hm]
    simp only [hsame, true_and, and_true]
    constructor
    · intro hruns d hd effect undone heffect hundone hactive
      obtain ⟨effect', undone', heffect', hundone', hlast⟩ := hheld d hd
      cases heffect.symm.trans heffect'
      cases hundone.symm.trans hundone'
      have hrun := hruns d.moduleId
      rw [runsWith, runsWith, hsame, if_pos hactive, if_pos hactive, hlast] at hrun
      exact (settled_twice (hbetween d (List.mem_append_left _ hd)) effect undone _).mp hrun
    · intro htaken moduleId
      rw [runsWith, runsWith, hsame]
      by_cases hactive : active (s.manager.states moduleId) = true
      · rw [if_pos hactive, if_pos hactive]
        by_cases hm : moduleId ∈ done.map (·.moduleId)
        · obtain ⟨d, hd, rfl⟩ := List.mem_map.mp hm
          obtain ⟨effect, undone, heffect, hundone, hlast⟩ := hheld d hd
          rw [hlast]
          exact (settled_twice (hbetween d (List.mem_append_left _ hd)) effect undone _).mpr
            (htaken d hd effect undone heffect hundone hactive)
        · exact hother moduleId hm
      · rw [if_neg hactive, if_neg hactive]

end Modules

namespace ControlState
open Modules
variable {r : Registry} {s t : ControlState}

/-- Modules and configuration are as they were. -/
structure AsBefore (s t : ControlState) : Prop where
  states : t.modules.manager.states = s.modules.manager.states
  runs : ∀ moduleId, t.modules.runsWith moduleId = s.modules.runsWith moduleId
  layers : t.config.layer = s.config.layer

/-- The failures of taking back what was applied of a patch that fails. -/
def compensationFailures (r : Registry) (walk : r.Walk) (changeWalk : ChangeWalk)
    (answers undoing : Answers) (patch : Value) (effect : ConfigEffect) (s : ControlState) :
    List String :=
  match s.config.applyGlobalPatch patch effect, topoOrder r walk with
  | (.ok applied, store), .ok order =>
    match (changeModules r store answers undoing
        (orderedChanges order changeWalk applied.moduleChanges) s.modules).1 with
    | .error (_, failures) => failures
    | .ok _ => []
  | _, _ => []

/-- Each module changed before the failure can be taken back by its own answers, and the one
that fails is not stopped for a rebuild. -/
def Undoable (r : Registry) (walk : r.Walk) (changeWalk : ChangeWalk) (answers undoing : Answers)
    (patch : Value) (effect : ConfigEffect) (s : ControlState) : Prop :=
  ∀ applied store order, s.config.applyGlobalPatch patch effect = (.ok applied, store) →
    topoOrder r walk = .ok order →
    Reversible r s.config store answers undoing s.modules []
      (orderedChanges order changeWalk applied.moduleChanges)

theorem between_of_patch (h : s.config.applyGlobalPatch patch effect = (.ok applied, store))
    (hchange : change ∈ applied.moduleChanges) : Between s.config store change := by
  obtain ⟨hprevious, hnext, hpreviousGlobal, hnextGlobal⟩ :=
    (ConfigState.applyGlobalPatch_changes h).2 change hchange
  intro held
  simp only [nextSettings, rollbackChange, givenBy, hprevious, hnext, hpreviousGlobal, hnextGlobal,
    Option.getD_some, and_self]

/-- The modules once a patch fails with no failure of taking it back. -/
theorem applyModuleConfigChanges_error {modules : Modules} (walk : r.Walk)
    (changeWalk : ChangeWalk)
    (hpatch : s.config.applyGlobalPatch patch effect = (.ok applied, store))
    (hfailures : compensationFailures r walk changeWalk answers undoing patch effect s = [])
    (h : s.modules.applyModuleConfigChanges r walk changeWalk store answers undoing
      applied.moduleChanges = (.error err, modules)) :
    (modules.manager.states = s.modules.manager.states ∧
        ∀ moduleId, modules.runsWith moduleId = s.modules.runsWith moduleId) ↔
      Undoable r walk changeWalk answers undoing patch effect s := by
  unfold applyModuleConfigChanges at h
  split at h
  · cases h
  · cases horder : topoOrder r walk with
    | error err =>
      simp only [horder, Prod.mk.injEq] at h
      obtain ⟨-, rfl⟩ := h
      refine iff_of_true ⟨rfl, fun _ => rfl⟩ fun _ _ order _ horder' => ?_
      cases horder.symm.trans horder'
    | ok order =>
      simp only [compensationFailures, hpatch, horder] at hfailures
      simp only [horder] at h
      obtain ⟨hnodup, hmem⟩ := orderedChanges_spec order changeWalk applied.moduleChanges
      rcases hrun : changeModules r store answers undoing
        (orderedChanges order changeWalk applied.moduleChanges) s.modules with ⟨⟨err', failures⟩ | _, u⟩
      · rw [hrun] at h hfailures
        obtain rfl : failures = [] := hfailures
        obtain ⟨-, rfl⟩ := Prod.mk.inj h
        rw [changeModules_error hnodup
          (fun change hchange => between_of_patch hpatch (hmem change hchange)) hrun]
        constructor
        · intro hreversible applied' store' order' hpatch' horder'
          cases hpatch.symm.trans hpatch'
          cases horder.symm.trans horder'
          exact hreversible
        · intro hundoable
          exact hundoable applied store order hpatch horder
      · rw [hrun] at h
        cases h

/-- Where the modules fail a patch and taking it back does not fail, everything is as before
just when no module was stopped for the change that failed, and the answers of the modules
changed before it leave these with what they ran with. -/
theorem patch_undone_iff (walk : r.Walk) (changeWalk : ChangeWalk) (answers undoing : Answers)
    (h : s.patchGlobalConfig r walk changeWalk answers undoing patch effect =
      (.internalServerError text, t))
    (hfailures : compensationFailures r walk changeWalk answers undoing patch effect s = []) :
    AsBefore s t ↔ Undoable r walk changeWalk answers undoing patch effect s := by
  unfold patchGlobalConfig at h
  rcases hpatch : s.config.applyGlobalPatch patch effect with ⟨_ | applied, store⟩
  · simp [hpatch] at h
  · simp only [hpatch] at h
    split at h
    · cases h
    · rcases hmodules : s.modules.applyModuleConfigChanges r walk changeWalk store answers undoing
        applied.moduleChanges with ⟨err | _, modules⟩
      · obtain ⟨token, htoken, hpatched⟩ := ConfigState.applyGlobalPatch_ok hpatch
        simp only [hmodules, htoken] at h
        obtain ⟨-, rfl⟩ := Prod.mk.inj h
        rw [← applyModuleConfigChanges_error walk changeWalk hpatch hfailures hmodules]
        constructor
        · rintro ⟨hstates, hruns, -⟩
          exact ⟨hstates, hruns⟩
        · rintro ⟨hstates, hruns⟩
          exact ⟨hstates, hruns, hpatched.undone⟩
      · simp [hmodules] at h

theorem progress_of_no_restart {s : Modules}
    (h : answers.applyConfig change ≠ .ok .moduleRestartRequired) :
    progress r answers s change ≠ .interrupted := by
  unfold progress
  split
  · split
    · exact nofun
    · contradiction
    · exact nofun
  · exact nofun

/-- A patch for which no module asks for a restart is all or nothing, where the modules in use ran
with what the store gave them and take the change back at once. -/
theorem undoable_of_no_restart (walk : r.Walk) (changeWalk : ChangeWalk)
    (hanswers : ∀ change, answers.applyConfig change ≠ .ok .moduleRestartRequired)
    (hundoing : ∀ change undone, undoing.applyConfig change = .ok undone →
      undone = .immediate ∨ undone = .newSessionsOnly)
    (hruns : ∀ moduleId, active (s.modules.manager.states moduleId) →
      s.modules.held moduleId = some (givenBy s.config moduleId)) :
    Undoable r walk changeWalk answers undoing patch effect s := by
  intro applied store order _ _
  generalize orderedChanges order changeWalk applied.moduleChanges = changes
  generalize [] = before
  induction changes generalizing before with
  | nil => trivial
  | cons change changes ih =>
    unfold Reversible
    split
    · trivial
    · rename_i hprogress
      exact progress_of_no_restart (hanswers change) hprogress
    · refine ⟨fun effect undone _ hundone hactive settings hsettings => ?_, ih _⟩
      rw [hruns _ hactive]
      rcases hundoing _ _ hundone with rfl | rfl
      · exact hsettings
      · exact hsettings

/-- Two modules that run with what the store gives them. -/
def twoRunning : ControlState where
  config := ConfigState.registerModuleSchema "rtsp" "rtsp" (.object []) none
    (ConfigState.registerModuleSchema "rtmp" "rtmp" (.object []) none {})
  modules :=
    { manager :=
        { states := fun moduleId => if moduleId ∈ twoModules.ids then some .running else none,
          records := fun moduleId => moduleId ∈ twoModules.ids, runtime := some true, calls := [] },
      settings := fun _ => some { module := .object [], global := .null } }

def entryOrder : ChangeWalk where
  changes := fun byId => byId.entries.map (·.2)
  perm := fun _ => .refl _

/-- The first module answers with `effect`, the second one with `last`. -/
def firstAnswers (effect : ConfigEffect) (last : Except SdkError ConfigEffect) (calls : Outcomes) :
    Answers where
  applyConfig := fun change => if change.moduleId = "rtmp" then .ok effect else last
  calls := calls
  cleanup := fun _ => .ok ()

def debugOn : Value := .object [("debug", .bool true)]

/-- The first module takes the change over at once, the second one fails it. -/
theorem immediate_change_undone : AsBefore twoRunning
    (twoRunning.patchGlobalConfig twoModules inOrder entryOrder
      (firstAnswers .immediate (.error (.invalidArgument "listen")) fun _ => .ok ())
      (firstAnswers .immediate (.ok .immediate) fun _ => .ok ()) debugOn .immediate).2 := by
  refine (patch_undone_iff inOrder entryOrder _ _ (Prod.ext (?_ : _ = PatchReply.internalServerError
    "module apply failed: invalid argument: listen; config rolled back") rfl) ?_).mpr ?_
  · decide +kernel
  · decide +kernel
  · refine undoable_of_no_restart inOrder entryOrder ?_ ?_ ?_
    · intro change
      by_cases h : change.moduleId = "rtmp" <;> simp [firstAnswers, h]
    · intro change undone h
      by_cases hid : change.moduleId = "rtmp"
      · simp only [firstAnswers, hid, if_true, Except.ok.injEq] at h
        exact .inl h.symm
      · simp only [firstAnswers, hid, if_false, Except.ok.injEq] at h
        exact .inl h.symm
    · intro moduleId h
      by_cases hid : moduleId ∈ twoModules.ids
      · have hids : moduleId = "rtmp" ∨ moduleId = "rtsp" := by simpa [twoModules, Registry.ids] using hid
        rcases hids with rfl | rfl <;> rfl
      · simp [twoRunning, hid, active] at h

/-- The first module is rebuilt twice, each time with the patched settings; the second one is
stopped and not initialised again. -/
def rebuildsFail : PatchReply × ControlState :=
  twoRunning.patchGlobalConfig twoModules inOrder entryOrder
    (firstAnswers .moduleRestartRequired (.ok .moduleRestartRequired) fun call =>
      if call = .init "rtsp" then .error (.unavailable "bind") else .ok ())
    (firstAnswers .moduleRestartRequired (.ok .immediate) fun _ => .ok ()) debugOn .immediate

def isNull : Value → Bool
  | .null => true
  | _ => false

theorem rebuilds_not_undone :
    rebuildsFail.1 =
      .internalServerError "module apply failed: unavailable: bind; config rolled back" ∧
    ¬AsBefore twoRunning rebuildsFail.2 ∧
    rebuildsFail.2.modules.manager.states "rtsp" = some .failed ∧
    rebuildsFail.2.modules.runsWith "rtmp" ≠ twoRunning.modules.runsWith "rtmp" := by
  have hfailed : rebuildsFail.2.modules.manager.states "rtsp" = some .failed := by decide +kernel
  refine ⟨by decide +kernel, fun h => ?_, hfailed, fun h => ?_⟩
  · rw [h.states] at hfailed
    cases hfailed
  · have hglobal := congrArg (Option.map fun settings => isNull settings.global) h
    revert hglobal
    decide +kernel

end ControlState
end CheetahMedia.Engine.ModuleManager
