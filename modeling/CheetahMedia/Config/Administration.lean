import CheetahMedia.Config.Store

namespace CheetahMedia.Config
open Lib Engine.ModuleManager

inductive Layer
  | default | file | env | runtime
deriving DecidableEq

inductive Scope
  | global
  | module (moduleId : ModuleId)
deriving DecidableEq

namespace ConfigState
variable {s t : ConfigState}

def layer (s : ConfigState) : Layer → Scope → Option Value
  | .default, .global => some s.globalDefault
  | .file, .global => some s.globalFile
  | .env, .global => some s.globalEnv
  | .runtime, .global => some s.globalRuntime
  | .default, .module moduleId => s.moduleDefault.lookup moduleId
  | .file, .module moduleId => s.moduleFile.lookup moduleId
  | .env, .module moduleId => s.moduleEnv.lookup moduleId
  | .runtime, .module moduleId => s.moduleRuntime.lookup moduleId

theorem effectiveGlobal_eq (h : t.layer = s.layer) : t.effectiveGlobal = s.effectiveGlobal := by
  have hlayer : ∀ l, t.layer l .global = s.layer l .global := fun l => by rw [h]
  have hdefault := Option.some.inj (hlayer .default)
  have hfile := Option.some.inj (hlayer .file)
  have henv := Option.some.inj (hlayer .env)
  have hruntime := Option.some.inj (hlayer .runtime)
  rw [effectiveGlobal, effectiveGlobal, hdefault, hfile, henv, hruntime]

theorem effectiveModule_eq (moduleId : ModuleId)
    (h : ∀ l, t.layer l (.module moduleId) = s.layer l (.module moduleId)) :
    t.effectiveModule moduleId = s.effectiveModule moduleId := by
  have hdefault := h .default
  have hfile := h .file
  have henv := h .env
  have hruntime := h .runtime
  simp only [layer] at hdefault hfile henv hruntime
  rw [effectiveModule, effectiveModule, hdefault, hfile, henv, hruntime]

theorem mem_moduleIds (h : moduleId ∈ s.moduleRuntime) : moduleId ∈ s.moduleIds := by
  have hkeys : moduleId ∈ s.moduleRuntime.keys := AList.mem_keys.mp h
  simp [moduleIds, List.mem_insertionSort, hkeys]

theorem lookup_restoreModule (moduleId : ModuleId) (previous : Option Value)
    (runtime : ModuleMap Value) (key : ModuleId) :
    (restoreModule moduleId previous runtime).lookup key =
      if key = moduleId then previous else runtime.lookup key := by
  by_cases hkey : key = moduleId
  · subst hkey
    cases previous with
    | none => simp [restoreModule]
    | some value => simp [restoreModule]
  · cases previous with
    | none => simp [restoreModule, hkey]
    | some value => simp [restoreModule, hkey]

theorem lookup_restoreModules (saved : List (ModuleId × Option Value))
    (runtime : ModuleMap Value) (key : ModuleId) :
    (restoreModules saved runtime).lookup key =
      Snapshot.restore saved (fun moduleId => runtime.lookup moduleId) key := by
  induction saved generalizing runtime with
  | nil => rfl
  | cons entry saved ih =>
    rw [restoreModules, ih, Snapshot.restore]
    congr 1
    funext moduleId
    rw [lookup_restoreModule, Function.update_apply]

end ConfigState

/-- The runtime layers that a token puts back. -/
def ConfigRollbackToken.snapshot (token : ConfigRollbackToken) :
    Snapshot Scope (Option Value) :=
  token.previousGlobalRuntime.toList.map (fun value => (.global, some value)) ++
    token.previousModuleRuntime.map fun (moduleId, previous) => (.module moduleId, previous)

namespace ConfigState
variable {s t : ConfigState}

theorem restore_module (saved : List (ModuleId × Option Value)) (runtime : Scope → Option Value)
    (moduleId : ModuleId) :
    Snapshot.restore (saved.map fun p => (Scope.module p.1, p.2)) runtime (.module moduleId) =
      Snapshot.restore saved (fun key => runtime (.module key)) moduleId := by
  induction saved generalizing runtime with
  | nil => rfl
  | cons entry saved ih =>
    obtain ⟨key, previous⟩ := entry
    rw [List.map_cons, Snapshot.restore, Snapshot.restore, ih]
    congr 1
    funext key'
    simp [Function.update_apply]

theorem restore_global (saved : List (ModuleId × Option Value)) (runtime : Scope → Option Value) :
    Snapshot.restore (saved.map fun p => (Scope.module p.1, p.2)) runtime .global =
      runtime .global := by
  induction saved generalizing runtime with
  | nil => rfl
  | cons entry saved ih =>
    rw [List.map_cons, Snapshot.restore, ih]
    simp

theorem rollback_runtime (token : ConfigRollbackToken) (s : ConfigState) :
    (s.rollback token).layer .runtime = token.snapshot.restore (s.layer .runtime) := by
  obtain ⟨previousGlobal, saved⟩ := token
  funext scope
  cases scope with
  | module key =>
    have hkey := lookup_restoreModules saved s.moduleRuntime key
    cases previousGlobal with
    | none => exact hkey.trans (restore_module saved (s.layer .runtime) key).symm
    | some value =>
      exact hkey.trans
        (restore_module saved (Function.update (s.layer .runtime) .global (some value)) key).symm
  | global =>
    cases previousGlobal with
    | none => exact (restore_global saved (s.layer .runtime)).symm
    | some value =>
      have hrest := restore_global saved (Function.update (s.layer .runtime) .global (some value))
      rw [Function.update_self] at hrest
      exact hrest.symm

theorem rollback_layer (token : ConfigRollbackToken) (s : ConfigState) (h : l ≠ .runtime) :
    (s.rollback token).layer l = s.layer l := by
  funext scope
  cases l with
  | runtime => contradiction
  | _ => cases scope <;> rfl

/-- A patch that was accepted: it wrote to runtime layers of `scopes` only, and its token has
what these held. -/
structure Patched (scopes : List Scope) (s : ConfigState) (token : ConfigRollbackToken)
    (t : ConfigState) : Prop where
  saved : token.snapshot = Snapshot.taken scopes (s.layer .runtime)
  layers : ∀ l ≠ .runtime, t.layer l = s.layer l
  frame : ∀ scope ∉ scopes, t.layer .runtime scope = s.layer .runtime scope

/-- Puts the layers of `scopes` back to what they held before the patch, from whatever state. -/
theorem Patched.rolled_back (h : Patched scopes s token t) (now : ConfigState) (scope : Scope) :
    (now.rollback token).layer .runtime scope =
      if scope ∈ scopes then s.layer .runtime scope else now.layer .runtime scope := by
  rw [rollback_runtime, h.saved, Snapshot.restore_taken]

theorem Patched.undone (h : Patched scopes s token t) : (t.rollback token).layer = s.layer := by
  funext l
  by_cases hl : l = .runtime
  · subst hl
    rw [rollback_runtime, h.saved]
    exact Snapshot.restore_taken_undo h.frame
  · rw [rollback_layer token t hl, h.layers l hl]

theorem applyGlobalPatch_ok (h : s.applyGlobalPatch patch effect = (.ok outcome, t)) :
    ∃ token, outcome.rollbackToken = some token ∧
      Patched (.global :: s.moduleIds.map .module) s token t := by
  simp only [applyGlobalPatch] at h
  split at h
  · cases h
  · split at h
    · cases h
    · obtain ⟨houtcome, rfl⟩ := Prod.mk.inj h
      cases houtcome
      refine ⟨_, rfl, ?_, ?_, ?_⟩
      · simp [ConfigRollbackToken.snapshot, Snapshot.taken, layer, Function.comp_def]
      · intro l hl
        funext scope
        cases l with
        | runtime => contradiction
        | _ => cases scope <;> rfl
      · intro scope hscope
        cases scope with
        | global => simp at hscope
        | module key => rfl

theorem globalModuleChanges_ok (entries : List (ModuleId × Value × Value))
    (h : s.globalModuleChanges nextGlobal entries = .ok changes) :
    changes = entries.map fun (moduleId, previous, previousGlobal) =>
      { moduleId, previous, next := s.effectiveModule moduleId,
        previousGlobal := some previousGlobal, nextGlobal := some nextGlobal } := by
  induction entries generalizing changes with
  | nil =>
    cases h
    rfl
  | cons entry entries ih =>
    obtain ⟨moduleId, previous, previousGlobal⟩ := entry
    cases hvalid : s.validateModule moduleId (s.effectiveModule moduleId) with
    | error err =>
      simp only [globalModuleChanges, hvalid] at h
      cases h
    | ok u =>
      cases hrest : s.globalModuleChanges nextGlobal entries with
      | error err =>
        simp only [globalModuleChanges, hvalid, hrest] at h
        cases h
      | ok rest =>
        simp only [globalModuleChanges, hvalid, hrest] at h
        cases h
        rw [ih hrest, List.map_cons]

/-- Each change of a module goes from what the layers made up before to what they make up now. -/
theorem applyGlobalPatch_changes (h : s.applyGlobalPatch patch effect = (.ok outcome, t)) :
    outcome.effect = effect ∧ ∀ change ∈ outcome.moduleChanges,
      change.previous = s.effectiveModule change.moduleId ∧
      change.next = t.effectiveModule change.moduleId ∧
      change.previousGlobal = some s.effectiveGlobal ∧
      change.nextGlobal = some t.effectiveGlobal := by
  simp only [applyGlobalPatch] at h
  split at h
  · cases h
  · split at h
    · cases h
    · rename_i moduleChanges hchanges
      obtain ⟨houtcome, rfl⟩ := Prod.mk.inj h
      cases houtcome
      refine ⟨rfl, fun change hchange => ?_⟩
      rw [globalModuleChanges_ok _ hchanges, List.map_map] at hchange
      obtain ⟨moduleId, -, rfl⟩ := List.mem_map.mp hchange
      exact ⟨rfl, rfl, rfl, rfl⟩

theorem applyGlobalPatch_error (h : s.applyGlobalPatch patch effect = (.error err, t)) : t = s := by
  simp only [applyGlobalPatch] at h
  split at h
  · exact (Prod.mk.inj h).2.symm
  · split at h
    · exact (Prod.mk.inj h).2.symm
    · cases h

theorem applyModulePatch_ok (h : s.applyModulePatch moduleId patch effect = (.ok outcome, t)) :
    ∃ token, outcome.rollbackToken = some token ∧ Patched [.module moduleId] s token t := by
  simp only [applyModulePatch] at h
  split at h
  · cases h
  · obtain ⟨houtcome, rfl⟩ := Prod.mk.inj h
    cases houtcome
    refine ⟨_, rfl, rfl, ?_, ?_⟩
    · intro l hl
      funext scope
      cases l with
      | runtime => contradiction
      | _ => cases scope <;> rfl
    · intro scope hscope
      cases scope with
      | global => rfl
      | module key =>
        have hkey : key ≠ moduleId := by simpa using hscope
        exact AList.lookup_insert_ne hkey

theorem applyModulePatch_error
    (h : s.applyModulePatch moduleId patch effect = (.error err, t)) :
    t.layer = s.layer ∧ t.version = s.version := by
  simp only [applyModulePatch] at h
  split at h
  · obtain ⟨-, rfl⟩ := Prod.mk.inj h
    refine ⟨?_, rfl⟩
    funext l scope
    cases scope with
    | global => cases l <;> rfl
    | module key =>
      cases l with
      | runtime =>
        simp only [layer, lookup_restoreModule]
        by_cases hkey : key = moduleId
        · subst hkey
          simp
        · simp [hkey]
      | _ => rfl
  · cases h

end ConfigState

/-- The store, with the tokens of the patches that were applied so far. -/
structure Administration where
  store : ConfigState
  tokens : List ConfigRollbackToken := []

/-- What administrators ask for; a patch is rolled back by its place among those applied. -/
inductive Request
  | applyGlobalPatch (patch : Value) (effect : ConfigEffect)
  | applyModulePatch (moduleId : ModuleId) (patch : Value) (effect : ConfigEffect)
  | rollback (patch : Nat)

inductive Response
  | applied (outcome : ConfigApplyOutcome)
  | refused (err : SdkError)
  | rolledBack

namespace Administration
open ConfigState
variable {a b c d : Administration}

def respond (a : Administration) :
    Except SdkError ConfigApplyOutcome × ConfigState → Administration × List Response
  | (.ok outcome, store) =>
    ({ store, tokens := a.tokens ++ outcome.rollbackToken.toList }, [.applied outcome])
  | (.error err, store) => ({ a with store }, [.refused err])

/-- Each request holds the lock of the store from its start to its end. -/
def step : Transition Administration Request Response
  | a, .applyGlobalPatch patch effect => some (a.respond (a.store.applyGlobalPatch patch effect))
  | a, .applyModulePatch moduleId patch effect =>
    some (a.respond (a.store.applyModulePatch moduleId patch effect))
  | a, .rollback patch =>
    a.tokens[patch]?.map fun token => ({ a with store := a.store.rollback token }, [.rolledBack])

/-- What a request writes to the runtime layers of. -/
def scopes (s : ConfigState) : Request → List Scope
  | .applyGlobalPatch _ _ => .global :: s.moduleIds.map .module
  | .applyModulePatch moduleId _ _ => [.module moduleId]
  | .rollback _ => []

theorem step_refused (h : step a request = some (b, [.refused err])) :
    b.store.layer = a.store.layer ∧ b.store.version = a.store.version := by
  cases request with
  | applyGlobalPatch patch effect =>
    rcases hp : a.store.applyGlobalPatch patch effect with ⟨_ | _, t⟩
    · simp only [step, hp, respond, Option.some.injEq, Prod.mk.injEq] at h
      obtain ⟨rfl, -⟩ := h
      obtain rfl := applyGlobalPatch_error hp
      exact ⟨rfl, rfl⟩
    · simp [step, hp, respond] at h
  | applyModulePatch moduleId patch effect =>
    rcases hp : a.store.applyModulePatch moduleId patch effect with ⟨_ | _, t⟩
    · simp only [step, hp, respond, Option.some.injEq, Prod.mk.injEq] at h
      obtain ⟨rfl, -⟩ := h
      exact applyModulePatch_error hp
    · simp [step, hp, respond] at h
  | rollback patch => simp [step] at h

theorem step_applied (h : step a request = some (b, [.applied outcome])) :
    ∃ token, b.tokens = a.tokens ++ [token] ∧
      Patched (scopes a.store request) a.store token b.store := by
  cases request with
  | applyGlobalPatch patch effect =>
    rcases hp : a.store.applyGlobalPatch patch effect with ⟨_ | outcome, t⟩
    · simp [step, hp, respond] at h
    · obtain ⟨token, htoken, hpatched⟩ := applyGlobalPatch_ok hp
      simp only [step, hp, respond, htoken, Option.some.injEq, Prod.mk.injEq] at h
      obtain ⟨rfl, -⟩ := h
      exact ⟨token, rfl, hpatched⟩
  | applyModulePatch moduleId patch effect =>
    rcases hp : a.store.applyModulePatch moduleId patch effect with ⟨_ | outcome, t⟩
    · simp [step, hp, respond] at h
    · obtain ⟨token, htoken, hpatched⟩ := applyModulePatch_ok hp
      simp only [step, hp, respond, htoken, Option.some.injEq, Prod.mk.injEq] at h
      obtain ⟨rfl, -⟩ := h
      exact ⟨token, rfl, hpatched⟩
  | rollback patch => simp [step] at h

theorem respond_tokens (result : Except SdkError ConfigApplyOutcome × ConfigState) :
    a.tokens <+: (a.respond result).1.tokens := by
  rcases result with ⟨_ | outcome, t⟩
  · exact List.prefix_rfl
  · exact List.prefix_append ..

theorem step_tokens (h : step a request = some (b, es)) : a.tokens <+: b.tokens := by
  cases request with
  | applyGlobalPatch patch effect =>
    obtain ⟨rfl, -⟩ := Prod.mk.inj (Option.some.inj h)
    exact respond_tokens _
  | applyModulePatch moduleId patch effect =>
    obtain ⟨rfl, -⟩ := Prod.mk.inj (Option.some.inj h)
    exact respond_tokens _
  | rollback patch =>
    simp only [step, Option.map_eq_some_iff, Prod.mk.injEq] at h
    obtain ⟨token, -, rfl, -⟩ := h
    exact List.prefix_rfl

/-- A patch keeps its token whatever comes after it. -/
theorem run_token {n : Nat} (hb : b.tokens[n]? = some token)
    (hrun : Transition.run step b requests = some (c, es)) : c.tokens[n]? = some token := by
  refine Transition.run_invariant (fun c => c.tokens[n]? = some token) ?_ hb
    Transition.along_true hrun
  intro c request d es hc _ hstep
  obtain ⟨more, hmore⟩ := step_tokens hstep
  rw [← hmore, List.getElem?_append_left (List.getElem?_eq_some_iff.mp hc).1, hc]

theorem step_rollback {n : Nat} (hc : c.tokens[n]? = some token) :
    step c (.rollback n) = some ({ c with store := c.store.rollback token }, [.rolledBack]) := by
  simp [step, hc]

theorem step_applied_token (h : step a request = some (b, [.applied outcome])) :
    ∃ token, b.tokens[a.tokens.length]? = some token ∧
      Patched (scopes a.store request) a.store token b.store := by
  obtain ⟨token, htokens, hpatched⟩ := step_applied h
  exact ⟨token, by simp [htokens], hpatched⟩

/-- A request that is refused changes nothing. Rolling a patch back at once restores what
the layers make up. Rolling it back after whatever else was asked for puts the runtime layers
that it may have written to back to what they held right before it, and changes no other layer:
what was patched there since then is kept. -/
theorem patches_rolled_back :
    (∀ a request b err, step a request = some (b, [.refused err]) →
      b.store.layer = a.store.layer ∧ b.store.version = a.store.version) ∧
    (∀ a request b outcome, step a request = some (b, [.applied outcome]) →
      (∃ c, step b (.rollback a.tokens.length) = some (c, [.rolledBack]) ∧
        c.store.effectiveGlobal = a.store.effectiveGlobal ∧
        ∀ moduleId, c.store.effectiveModule moduleId = a.store.effectiveModule moduleId) ∧
      ∀ requests c es, Transition.run step b requests = some (c, es) →
        ∃ d, step c (.rollback a.tokens.length) = some (d, [.rolledBack]) ∧
          (∀ scope, d.store.layer .runtime scope =
            if scope ∈ scopes a.store request then a.store.layer .runtime scope
            else c.store.layer .runtime scope) ∧
          ∀ l ≠ .runtime, d.store.layer l = c.store.layer l) := by
  refine ⟨fun a request b err h => step_refused h, fun a request b outcome h => ?_⟩
  obtain ⟨token, htoken, hpatched⟩ := step_applied_token h
  constructor
  · have hundone := hpatched.undone
    refine ⟨_, step_rollback htoken, effectiveGlobal_eq hundone, fun moduleId => ?_⟩
    exact effectiveModule_eq moduleId fun l => by rw [hundone]
  · intro requests c es hrun
    exact ⟨_, step_rollback (run_token htoken hrun), hpatched.rolled_back c.store,
      fun l hl => rollback_layer token c.store hl⟩

/-- A store with a module that has no settings of its own. -/
def fresh : Administration where
  store := ConfigState.registerModuleSchema "rtmp" "rtmp" (.object []) none {}

def debugPatch : Request := .applyGlobalPatch (.object [("debug", .bool true)]) .immediate

def enablePatch : Request :=
  .applyModulePatch "rtmp" (.object [("enabled", .bool true)]) .immediate

theorem patches_rolled_back_fresh : ∃ b c d, step fresh debugPatch = some b ∧
    step b.1 (.rollback 0) = some (c, [.rolledBack]) ∧
    c.store.effectiveGlobal = fresh.store.effectiveGlobal ∧
    step b.1 enablePatch = some d ∧
    ∃ e, step d.1 (.rollback 0) = some (e, [.rolledBack]) ∧
      e.store.layer .runtime .global = fresh.store.layer .runtime .global := by
  obtain ⟨⟨b, es⟩, hb⟩ : ∃ b, step fresh debugPatch = some b := ⟨_, rfl⟩
  obtain ⟨⟨d, fs⟩, hd⟩ : ∃ d, step b enablePatch = some d := ⟨_, rfl⟩
  obtain ⟨outcome, rfl⟩ : ∃ outcome, es = [.applied outcome] := by
    cases hb
    exact ⟨_, rfl⟩
  obtain ⟨⟨c, hc, heffective, -⟩, hlater⟩ := patches_rolled_back.2 _ _ _ _ hb
  obtain ⟨e, he, hlayers, -⟩ := hlater [enablePatch] d fs (by simp [Transition.run, hd])
  refine ⟨_, c, _, hb, hc, heffective, hd, e, he, ?_⟩
  rw [hlayers, if_pos]
  exact List.mem_cons_self

/-- A module is patched after the global patch, whose rollback then takes both back. -/
theorem module_patch_lost : ∃ b c d outcome outcome',
    step fresh debugPatch = some (b, [.applied outcome]) ∧
    step b enablePatch = some (c, [.applied outcome']) ∧
    step c (.rollback 0) = some (d, [.rolledBack]) ∧
    c.store.effectiveModule "rtmp" = .object [("enabled", .bool true)] ∧
    d.store.effectiveModule "rtmp" = .object [] :=
  ⟨_, _, _, _, _, rfl, rfl, rfl, rfl, rfl⟩

end Administration
end CheetahMedia.Config
