import Mathlib.Data.List.AList
import Mathlib.Data.List.Basic
import Mathlib.Data.List.Sort
import CheetahMedia.Engine.ModuleManager
import CheetahMedia.Lib.Rollback
import CheetahMedia.Lib.Transition

namespace CheetahMedia.Config

inductive Number
  | posInt (n : UInt64)
  | negInt (n : Int64)
  | float (bits : UInt64)

/-- The members of an object stand in the order of their keys. -/
inductive Value
  | null
  | bool (b : Bool)
  | number (n : Number)
  | string (s : String)
  | array (values : List Value)
  | object (members : List (String × Value))

def insertMember (k : String) (v : Value) : List (String × Value) → List (String × Value)
  | [] => [(k, v)]
  | (k', v') :: rest =>
    if k < k' then (k, v) :: (k', v') :: rest
    else if k = k' then (k, v) :: rest
    else (k', v') :: insertMember k v rest

mutual

/-- A patch of `null` changes nothing, objects are merged, anything else is replaced. -/
def mergeValue (base : Value) : Value → Value
  | .null => base
  | .object patchMap =>
    match base with
    | .object baseMap => .object (mergeMembers baseMap patchMap)
    | _ => .object patchMap
  | patch => patch

def mergeMembers (baseMap : List (String × Value)) : List (String × Value) → List (String × Value)
  | [] => baseMap
  | (k, v) :: rest =>
    match baseMap.lookup k with
    | some existing => mergeMembers (insertMember k (mergeValue existing v) baseMap) rest
    | none => mergeMembers (insertMember k v baseMap) rest

end

theorem lookup_insertMember (k : String) (v : Value) (members : List (String × Value))
    (key : String) :
    (insertMember k v members).lookup key = if key = k then some v else members.lookup key := by
  induction members with
  | nil => by_cases h : key = k <;> simp [insertMember, List.lookup_cons, h, beq_false_of_ne]
  | cons member members ih =>
    obtain ⟨k', v'⟩ := member
    by_cases hkey : key = k
    · subst hkey
      grind [insertMember]
    · grind [insertMember]

/-- What an object holds under a key after a patch that has the key once. -/
theorem lookup_mergeMembers (patch : List (String × Value)) (hnodup : (patch.map (·.1)).Nodup)
    (base : List (String × Value)) (key : String) :
    (mergeMembers base patch).lookup key =
      match base.lookup key, patch.lookup key with
      | existing, none => existing
      | none, some v => some v
      | some existing, some v => some (mergeValue existing v) := by
  induction patch generalizing base with
  | nil => simp [mergeMembers]
  | cons member patch ih =>
    obtain ⟨k, v⟩ := member
    obtain ⟨hk, hrest⟩ := List.nodup_cons.mp hnodup
    have hlater : patch.lookup k = none := List.lookup_eq_none_iff.mpr fun p hp => by
      rw [bne_iff_ne]
      rintro rfl
      exact hk (List.mem_map.mpr ⟨p, hp, rfl⟩)
    by_cases hkey : key = k
    · subst hkey
      cases hbase : base.lookup key with
      | none => simp [mergeMembers, hbase, ih hrest, lookup_insertMember, hlater]
      | some existing =>
        simp [mergeMembers, hbase, ih hrest, lookup_insertMember, hlater]
    · have hne : (key == k) = false := beq_false_of_ne hkey
      cases hbase : base.lookup k with
      | none => simp [mergeMembers, hbase, ih hrest, lookup_insertMember, hkey, List.lookup_cons, hne]
      | some existing =>
        simp [mergeMembers, hbase, ih hrest, lookup_insertMember, hkey, List.lookup_cons, hne]

end CheetahMedia.Config

namespace CheetahMedia.Config
open Lib Engine.ModuleManager

inductive ConfigEffect
  | immediate | newSessionsOnly | moduleRestartRequired | engineRestartRequired
deriving DecidableEq

structure ConfigValueChange where
  previous : Value
  next : Value

structure ModuleConfigChange where
  moduleId : ModuleId
  previous : Value
  next : Value
  previousGlobal : Option Value
  nextGlobal : Option Value

/-- What the runtime layers held before a patch; `none` is a module that had no such layer. -/
structure ConfigRollbackToken where
  previousGlobalRuntime : Option Value
  previousModuleRuntime : List (ModuleId × Option Value)

structure ConfigApplyOutcome where
  version : Nat
  effect : ConfigEffect
  globalChange : Option ConfigValueChange
  moduleChanges : List ModuleConfigChange
  rollbackToken : Option ConfigRollbackToken

abbrev ConfigValidator := Value → Except String Unit

structure SchemaEntry where
  schemaName : String
  validator : Option ConfigValidator

abbrev ModuleMap (α : Type) := AList fun _ : ModuleId => α

structure ConfigState where
  version : Nat := 0
  globalDefault : Value := .null
  globalFile : Value := .null
  globalEnv : Value := .null
  globalRuntime : Value := .null
  moduleDefault : ModuleMap Value := ∅
  moduleFile : ModuleMap Value := ∅
  moduleEnv : ModuleMap Value := ∅
  moduleRuntime : ModuleMap Value := ∅
  globalSchema : Option SchemaEntry := none
  moduleSchemas : ModuleMap SchemaEntry := ∅

namespace ConfigState

def registerGlobalSchema (schemaName : String) (defaultValue : Value)
    (validator : Option ConfigValidator) (s : ConfigState) : ConfigState :=
  { s with globalDefault := defaultValue, globalSchema := some { schemaName, validator },
           version := s.version + 1 }

def registerModuleSchema (moduleId : ModuleId) (schemaName : String) (defaultValue : Value)
    (validator : Option ConfigValidator) (s : ConfigState) : ConfigState :=
  { s with moduleDefault := s.moduleDefault.insert moduleId defaultValue,
           moduleSchemas := s.moduleSchemas.insert moduleId { schemaName, validator },
           version := s.version + 1 }

def effectiveGlobal (s : ConfigState) : Value :=
  let out := s.globalDefault
  let out := mergeValue out s.globalFile
  let out := mergeValue out s.globalEnv
  mergeValue out s.globalRuntime

def mergeLayer (out : Value) : Option Value → Value
  | some v => mergeValue out v
  | none => out

def effectiveModule (s : ConfigState) (moduleId : ModuleId) : Value :=
  let out := (s.moduleDefault.lookup moduleId).getD (.object [])
  let out := mergeLayer out (s.moduleFile.lookup moduleId)
  let out := mergeLayer out (s.moduleEnv.lookup moduleId)
  mergeLayer out (s.moduleRuntime.lookup moduleId)

def moduleIds (s : ConfigState) : List ModuleId :=
  (s.moduleDefault.keys ++ s.moduleFile.keys ++ s.moduleEnv.keys ++ s.moduleRuntime.keys ++
    s.moduleSchemas.keys).dedup.insertionSort (· ≤ ·)

def validate (schema : Option SchemaEntry) (value : Value) : Except SdkError Unit :=
  match schema.bind (·.validator) with
  | some validator => (validator value).mapError .invalidArgument
  | none => .ok ()

def validateGlobal (s : ConfigState) (value : Value) : Except SdkError Unit :=
  validate s.globalSchema value

def validateModule (s : ConfigState) (moduleId : ModuleId) (value : Value) :
    Except SdkError Unit :=
  validate (s.moduleSchemas.lookup moduleId) value

/-- The loop of `apply_global_patch` over the modules and what they had before. -/
def globalModuleChanges (s : ConfigState) (nextGlobal : Value) :
    List (ModuleId × Value × Value) → Except SdkError (List ModuleConfigChange)
  | [] => .ok []
  | (moduleId, previousModule, previousGlobal) :: rest => do
    let nextModule := s.effectiveModule moduleId
    s.validateModule moduleId nextModule
    let changes ← s.globalModuleChanges nextGlobal rest
    pure ({ moduleId, previous := previousModule, next := nextModule,
            previousGlobal := some previousGlobal, nextGlobal := some nextGlobal } :: changes)

def applyGlobalPatch (patch : Value) (effect : ConfigEffect) (s : ConfigState) :
    Except SdkError ConfigApplyOutcome × ConfigState :=
  let previousGlobal := s.effectiveGlobal
  let previousGlobalRuntime := s.globalRuntime
  let previousModuleRuntime := s.moduleIds.map fun moduleId =>
    (moduleId, s.moduleRuntime.lookup moduleId)
  let previousModules := s.moduleIds.map fun moduleId =>
    (moduleId, s.effectiveModule moduleId, previousGlobal)
  let s := { s with globalRuntime := mergeValue s.globalRuntime patch }
  let nextGlobal := s.effectiveGlobal
  match s.validateGlobal nextGlobal with
  | .error err => (.error err, { s with globalRuntime := previousGlobalRuntime })
  | .ok () =>
    match s.globalModuleChanges nextGlobal previousModules with
    | .error err => (.error err, { s with globalRuntime := previousGlobalRuntime })
    | .ok moduleChanges =>
      let s := { s with version := s.version + 1 }
      (.ok { version := s.version, effect, moduleChanges,
             globalChange := some { previous := previousGlobal, next := nextGlobal },
             rollbackToken := some
               { previousGlobalRuntime := some previousGlobalRuntime, previousModuleRuntime } }, s)

/-- Puts a module's runtime layer back. -/
def restoreModule (moduleId : ModuleId) (previousRuntime : Option Value)
    (moduleRuntime : ModuleMap Value) : ModuleMap Value :=
  match previousRuntime with
  | some value => moduleRuntime.insert moduleId value
  | none => moduleRuntime.erase moduleId

def applyModulePatch (moduleId : ModuleId) (patch : Value) (effect : ConfigEffect)
    (s : ConfigState) : Except SdkError ConfigApplyOutcome × ConfigState :=
  let previousGlobal := s.effectiveGlobal
  let previousModule := s.effectiveModule moduleId
  let previousRuntime := s.moduleRuntime.lookup moduleId
  let entry := previousRuntime.getD (.object [])
  let s := { s with moduleRuntime := s.moduleRuntime.insert moduleId (mergeValue entry patch) }
  let nextModule := s.effectiveModule moduleId
  match s.validateModule moduleId nextModule with
  | .error err =>
    (.error err,
      { s with moduleRuntime := restoreModule moduleId previousRuntime s.moduleRuntime })
  | .ok () =>
    let s := { s with version := s.version + 1 }
    (.ok { version := s.version, effect, globalChange := none,
           moduleChanges := [{ moduleId, previous := previousModule, next := nextModule,
                               previousGlobal := some previousGlobal,
                               nextGlobal := some previousGlobal }],
           rollbackToken := some
             { previousGlobalRuntime := none,
               previousModuleRuntime := [(moduleId, previousRuntime)] } }, s)

def restoreModules : List (ModuleId × Option Value) → ModuleMap Value → ModuleMap Value
  | [], moduleRuntime => moduleRuntime
  | (moduleId, previousRuntime) :: rest, moduleRuntime =>
    restoreModules rest (restoreModule moduleId previousRuntime moduleRuntime)

def rollback (token : ConfigRollbackToken) (s : ConfigState) : ConfigState :=
  { s with globalRuntime := token.previousGlobalRuntime.getD s.globalRuntime,
           moduleRuntime := restoreModules token.previousModuleRuntime s.moduleRuntime,
           version := s.version + 1 }

end ConfigState
end CheetahMedia.Config
