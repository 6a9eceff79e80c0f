import CheetahMedia.Engine.ModuleManager

namespace CheetahMedia.Engine.ModuleManager
open Lib

/-- A dependency that is not registered, or a module that depends on itself in the end. -/
def Registry.Broken (r : Registry) : Prop :=
  (∃ e ∈ r.edges, e.1 ∉ r.ids) ∨ ∃ v, Relation.TransGen (fun a b => (a, b) ∈ r.edges) v v

theorem Registry.edges_target (r : Registry) (he : e ∈ r.edges) : e.2 ∈ r.ids := by
  obtain ⟨manifest, hmanifest, he⟩ := List.mem_flatMap.mp he
  obtain ⟨dep, -, rfl⟩ := List.mem_map.mp he
  exact List.mem_map.mpr ⟨manifest, hmanifest, rfl⟩

theorem Registry.Walk.mem_keys {r : Registry} (walk : r.Walk) : v ∈ walk.keys ↔ v ∈ r.ids :=
  walk.perm.mem_iff

theorem Registry.Walk.nodup_keys {r : Registry} (walk : r.Walk) : walk.keys.Nodup :=
  walk.perm.nodup_iff.mpr r.nodup

/-- Only a broken registry is refused, and every other one is sorted whole. -/
theorem topoOrder_cases (r : Registry) (walk : r.Walk) :
    (r.Broken ∧ ∃ err, topoOrder r walk = .error err) ∨
    (¬r.Broken ∧ ∃ order, topoOrder r walk = .ok order ∧ order.Perm r.ids ∧
      Kahn.Sorted r.edges order) := by
  unfold topoOrder
  split
  · rename_i dep moduleId hfind
    have hout := List.find?_some hfind
    exact .inl ⟨.inl ⟨_, List.mem_of_find?_eq_some hfind, of_decide_eq_true hout⟩, _, rfl⟩
  · rename_i hfind
    have hedges : ∀ e ∈ r.edges, e.1 ∈ walk.keys ∧ e.2 ∈ walk.keys := fun e he => by
      have hin := List.find?_eq_none.mp hfind e he
      simp only [decide_eq_true_eq, not_not] at hin
      exact ⟨walk.mem_keys.mpr hin, walk.mem_keys.mpr (r.edges_target he)⟩
    have hlength := Kahn.sort_length_iff hedges walk.nodup_keys
    obtain ⟨hnodup, hall, hsorted, -⟩ :=
      Kahn.sort_spec (fun e he => (hedges e he).2) walk.nodup_keys
    dsimp only
    split
    · rename_i hne
      refine .inl ⟨.inr ?_, _, rfl⟩
      by_contra hacyclic
      exact hne (hlength.mpr fun v hv => hacyclic ⟨v, hv⟩)
    · rename_i heq
      have heq := not_not.mp heq
      refine .inr ⟨?_, _, rfl, ?_, hsorted⟩
      · rintro (⟨e, he, hout⟩ | ⟨v, hv⟩)
        · exact hout (walk.mem_keys.mp (hedges e he).1)
        · exact hlength.mp heq v hv
      · exact ((List.subperm_of_subset hnodup hall).perm_of_length_le heq.ge).trans walk.perm

theorem exists_of_not_ok (ok : Outcomes) (call : ModuleId → ModuleCall) (order : List ModuleId) :
    (∀ m ∈ order, ok (call m) = .ok ()) ∨ ∃ before m after err, order = before ++ m :: after ∧
      (∀ x ∈ before, ok (call x) = .ok ()) ∧ ok (call m) = .error err := by
  induction order with
  | nil => exact .inl fun m hm => absurd hm List.not_mem_nil
  | cons m rest ih =>
    cases hm : ok (call m) with
    | error err => exact .inr ⟨[], m, rest, err, rfl, fun x hx => absurd hx List.not_mem_nil, hm⟩
    | ok u =>
      rcases ih with hall | ⟨before, m', after, err, rfl, hbefore, herr⟩
      · exact .inl (List.forall_mem_cons.mpr ⟨hm, hall⟩)
      · exact .inr ⟨m :: before, m', after, err, rfl, List.forall_mem_cons.mpr ⟨hm, hbefore⟩, herr⟩

/-- A module that is neither `Initialized` nor `Running`. -/
def Settled (state : Option ModuleState) : Prop :=
  state ≠ some .initialized ∧ state ≠ some .running

instance : DecidablePred Settled := fun _ => inferInstanceAs (Decidable (_ ∧ _))

namespace Manager

def afterStop : Except SdkError Unit → ModuleState
  | .ok () => .stopped
  | .error _ => .failed

theorem settled_afterStop (res : Except SdkError Unit) : Settled (some (afterStop res)) := by
  cases res with
  | ok u => exact ⟨nofun, nofun⟩
  | error err => exact ⟨nofun, nofun⟩

def stops (ok : Outcomes) (order : List ModuleId) : List (ModuleCall × Except SdkError Unit) :=
  order.map fun m => (.stop m, ok (.stop m))

def entered (p : Phase) (order : List ModuleId) : List (ModuleCall × Except SdkError Unit) :=
  order.map fun m => (p.call m, .ok ())

theorem stopRecord_eq (ok : Outcomes) (m : ModuleId) (s : Manager) :
    s.stopRecord ok m = (ok (.stop m),
      { s with states := Function.update s.states m (some (afterStop (ok (.stop m)))),
               calls := s.calls ++ stops ok [m] }) := by
  unfold stopRecord
  cases h : ok (.stop m) with
  | ok u => simp [h, setState, call, stops, afterStop]
  | error err => simp [h, setState, call, stops, afterStop]

theorem takeRecord_eq {s : Manager} (h : s.records m = true) :
    s.takeRecord m = some { s with records := Function.update s.records m false } := if_pos h

/-- A module that was called for and is back among the records. -/
def stepped (s : Manager) (m : ModuleId) (state : ModuleState)
    (made : List (ModuleCall × Except SdkError Unit)) : Manager :=
  { s with states := Function.update s.states m (some state), calls := s.calls ++ made }

@[simp] theorem stepped_states_self (s : Manager) : (s.stepped m state made).states m = some state :=
  Function.update_self ..

theorem stepped_states_of_ne (s : Manager) (h : x ≠ m) :
    (s.stepped m state made).states x = s.states x := Function.update_of_ne h ..

theorem update_record {s : Manager} (h : s.records m = true) :
    Function.update (Function.update s.records m false) m true = s.records := by
  rw [Function.update_idem, ← h, Function.update_eq_self]

theorem rollback_cons (ok : Outcomes) {s : Manager} (h : s.records m = true) :
    (rollback ok (m :: rest) s).2 =
      (rollback ok rest (s.stepped m (afterStop (ok (.stop m))) (stops ok [m]))).2 := by
  simp only [rollback, takeRecord_eq h, stopRecord_eq, putRecord, update_record h]
  cases ok (.stop m) <;> rfl

theorem rollback_spec (ok : Outcomes) (order : List ModuleId) (s : Manager)
    (hrecords : ∀ m ∈ order, s.records m = true) :
    (rollback ok order s).2.calls = s.calls ++ stops ok order ∧
      (rollback ok order s).2.records = s.records ∧
      (∀ m ∈ order, Settled ((rollback ok order s).2.states m)) ∧
      ∀ m ∉ order, (rollback ok order s).2.states m = s.states m := by
  induction order generalizing s with
  | nil =>
    exact ⟨(List.append_nil _).symm, rfl, fun m hm => absurd hm List.not_mem_nil, fun _ _ => rfl⟩
  | cons m rest ih =>
    obtain ⟨hm, hrest⟩ := List.forall_mem_cons.mp hrecords
    obtain ⟨hcalls, hrecords, hsettled, hsame⟩ :=
      ih (s.stepped m (afterStop (ok (.stop m))) (stops ok [m])) hrest
    rw [rollback_cons ok hm]
    refine ⟨?_, hrecords, List.forall_mem_cons.mpr ⟨?_, hsettled⟩, fun x hx => ?_⟩
    · rw [hcalls]
      exact List.append_assoc ..
    · by_cases hin : m ∈ rest
      · exact hsettled m hin
      · rw [hsame m hin]
        rw [stepped_states_self]
        exact settled_afterStop _
    · obtain ⟨hne, hx⟩ := not_or.mp (List.mem_cons.not.mp hx)
      exact (hsame x hx).trans (s.stepped_states_of_ne hne)

theorem pass_cons (p : Phase) {ok : Outcomes} {s : Manager} (h : s.records m = true)
    (hok : ok (p.call m) = .ok ()) : pass p ok (m :: rest) through s =
      pass p ok rest (through ++ [m]) (s.stepped m p.reached (entered p [m])) := by
  simp only [pass, takeRecord_eq h, enterRecord, call, hok, setState, putRecord, update_record h]
  rfl

theorem pass_ok (p : Phase) (ok : Outcomes) (order through : List ModuleId) (s : Manager)
    (hrecords : ∀ m ∈ order, s.records m = true) (hok : ∀ m ∈ order, ok (p.call m) = .ok ()) :
    ∃ t, pass p ok order through s = (.ok (), t) ∧ t.calls = s.calls ++ entered p order ∧
      t.records = s.records ∧ t.runtime = s.runtime ∧
      (∀ m ∈ order, t.states m = some p.reached) ∧ ∀ m ∉ order, t.states m = s.states m := by
  induction order generalizing s through with
  | nil =>
    exact ⟨s, rfl, (List.append_nil _).symm, rfl, rfl, fun m hm => absurd hm List.not_mem_nil,
      fun _ _ => rfl⟩
  | cons m rest ih =>
    obtain ⟨hm, hrest⟩ := List.forall_mem_cons.mp hrecords
    obtain ⟨hokm, hokrest⟩ := List.forall_mem_cons.mp hok
    obtain ⟨t, hrun, hcalls, hrecords, hruntime, hreached, hsame⟩ :=
      ih (through ++ [m]) (s.stepped m p.reached (entered p [m])) hrest hokrest
    refine ⟨t, (pass_cons p hm hokm).trans hrun, ?_, hrecords, hruntime,
      List.forall_mem_cons.mpr ⟨?_, hreached⟩, fun x hx => ?_⟩
    · rw [hcalls]
      exact List.append_assoc ..
    · by_cases hin : m ∈ rest
      · exact hreached m hin
      · exact (hsame m hin).trans (stepped_states_self s)
    · obtain ⟨hne, hx⟩ := not_or.mp (List.mem_cons.not.mp hx)
      exact (hsame x hx).trans (s.stepped_states_of_ne hne)

theorem pass_head (after through : List ModuleId) (p : Phase) {ok : Outcomes} {s : Manager}
    (h : s.records m = true)
    (herr : ok (p.call m) = .error err) : ∃ err' runtime, pass p ok (m :: after) through s =
      (.error err', { (rollback ok through.reverse
        (s.stepped m .failed ((p.call m, .error err) :: stops ok [m]))).2 with runtime }) := by
  simp only [pass, takeRecord_eq h, enterRecord, call, herr, stopRecord_eq, setState, putRecord,
    update_record h, Function.update_idem, List.append_assoc]
  exact ⟨_, _, rfl⟩

/-- A pass that fails stops the module that failed and those that are through, and no other. -/
theorem pass_error (p : Phase) (ok : Outcomes) (before after through : List ModuleId)
    (m : ModuleId) (s : Manager) (hrecords : ∀ x ∈ through ++ before ++ [m], s.records x = true)
    (hok : ∀ x ∈ before, ok (p.call x) = .ok ()) (herr : ok (p.call m) = .error err) :
    ∃ err' t, pass p ok (before ++ m :: after) through s = (.error err', t) ∧
      t.calls = s.calls ++ (entered p before ++ (p.call m, .error err) ::
        stops ok (through ++ before ++ [m]).reverse) ∧
      (∀ x ∈ through ++ before ++ [m], Settled (t.states x)) ∧
      ∀ x ∉ through ++ before ++ [m], t.states x = s.states x := by
  induction before generalizing s through with
  | nil =>
    rw [List.append_nil] at hrecords ⊢
    have hm := hrecords m (by simp)
    obtain ⟨err', runtime, hrun⟩ := pass_head after through p hm herr
    obtain ⟨hcalls, -, hsettled, hsame⟩ := rollback_spec ok through.reverse
      (s.stepped m .failed ((p.call m, .error err) :: stops ok [m])) fun x hx =>
        hrecords x (List.mem_append_left _ (List.mem_reverse.mp hx))
    refine ⟨err', _, hrun, ?_, fun x hx => ?_, fun x hx => ?_⟩
    · rw [List.reverse_append]
      exact hcalls.trans (List.append_assoc ..)
    · by_cases hin : x ∈ through
      · exact hsettled x (List.mem_reverse.mpr hin)
      · have hx : x = m := by simpa [hin] using hx
        dsimp only
        rw [hsame x fun h => hin (List.mem_reverse.mp h), hx, stepped_states_self]
        exact ⟨nofun, nofun⟩
    · obtain ⟨hin, hne⟩ : x ∉ through ∧ x ≠ m := by simpa using hx
      exact (hsame x fun h => hin (List.mem_reverse.mp h)).trans (s.stepped_states_of_ne hne)
  | cons x rest ih =>
    obtain ⟨hx, hrest⟩ := List.forall_mem_cons.mp hok
    have hsplit : through ++ x :: rest ++ [m] = through ++ [x] ++ rest ++ [m] := by simp
    rw [hsplit] at hrecords ⊢
    obtain ⟨err', t, hrun, hcalls, hsettled, hsame⟩ :=
      ih (through ++ [x]) (s.stepped x p.reached (entered p [x])) hrecords hrest
    refine ⟨err', t, (pass_cons p (hrecords x (by simp)) hx).trans hrun, ?_, hsettled,
      fun y hy => (hsame y hy).trans (s.stepped_states_of_ne fun h => hy (by simp [h]))⟩
    rw [hcalls]
    exact List.append_assoc ..

end Manager

section
variable {r : Registry} {ok : Outcomes} {e : EngineState} {s : Manager}

/-- What a start does that is not refused for a running engine. -/
inductive Started (r : Registry) (startWalk : r.Walk) (ok : Outcomes) (e : EngineState) :
    Except SdkError Unit → Manager → Prop
  | refused (hbroken : r.Broken) (hcalls : t.calls = []) (hstates : t.states = e.manager.states) :
    Started r startWalk ok e (.error err) t
  | initFailed (before after : List ModuleId) (m : ModuleId) (hwhole : ¬r.Broken)
    (hperm : (before ++ m :: after).Perm r.ids) (hsorted : Kahn.Sorted r.edges (before ++ m :: after))
    (hok : ∀ x ∈ before, ok (.init x) = .ok ()) (herr : ok (.init m) = .error err')
    (hcalls : t.calls = Manager.entered Manager.initPhase before ++ (.init m, .error err') ::
      Manager.stops ok (before ++ [m]).reverse)
    (hsettled : ∀ x ∈ before ++ [m], Settled (t.states x))
    (hsame : ∀ x ∉ before ++ [m], t.states x = e.manager.states x) :
    Started r startWalk ok e (.error err) t
  | startFailed (order before after : List ModuleId) (m : ModuleId) (hwhole : ¬r.Broken)
    (horder : order.Perm r.ids) (hsortedOrder : Kahn.Sorted r.edges order)
    (hinit : ∀ x ∈ order, ok (.init x) = .ok ())
    (hstartOrder : topoOrder r startWalk = .ok (before ++ m :: after))
    (hperm : (before ++ m :: after).Perm r.ids) (hsorted : Kahn.Sorted r.edges (before ++ m :: after))
    (hok : ∀ x ∈ before, ok (.start x) = .ok ()) (herr : ok (.start m) = .error err')
    (hcalls : t.calls = Manager.entered Manager.initPhase order ++
      (Manager.entered Manager.startPhase before ++ (.start m, .error err') ::
        Manager.stops ok (before ++ [m]).reverse))
    (hsettled : ∀ x ∈ before ++ [m], Settled (t.states x))
    (hleft : ∀ x ∈ after, t.states x = some .initialized)
    (hsame : ∀ x ∉ r.ids, t.states x = e.manager.states x) : Started r startWalk ok e (.error err) t
  | started (initOrder startOrder : List ModuleId) (hwhole : ¬r.Broken)
    (hinitOrder : initOrder.Perm r.ids) (hsortedInit : Kahn.Sorted r.edges initOrder)
    (hstartOrder : startOrder.Perm r.ids) (hsortedStart : Kahn.Sorted r.edges startOrder)
    (hok : ∀ x ∈ startOrder, ok (.start x) = .ok ())
    (hcalls : t.calls = Manager.entered Manager.initPhase initOrder ++
      Manager.entered Manager.startPhase startOrder)
    (hrecords : ∀ m ∈ r.ids, t.records m = true)
    (hsame : ∀ x ∉ r.ids, t.states x = e.manager.states x) : Started r startWalk ok e (.ok ()) t

/-- The second pass, over the modules that the first one initialised. -/
theorem startAll_started (startWalk : r.Walk) (hwhole : ¬r.Broken) (hperm : order.Perm r.ids)
    (hsorted : Kahn.Sorted r.edges order) (hinit : ∀ x ∈ order, ok (.init x) = .ok ())
    (hrecords : ∀ x ∈ r.ids, s.records x = true) (hruntime : s.runtime = some false)
    (hcalls : s.calls = Manager.entered Manager.initPhase order)
    (hreached : ∀ x ∈ order, s.states x = some .initialized)
    (hsame : ∀ x ∉ order, s.states x = e.manager.states x) :
    ∃ result t, s.startAll r startWalk ok = (result, t) ∧ Started r startWalk ok e result t := by
  unfold Manager.startAll
  rw [hruntime]
  rcases topoOrder_cases r startWalk with ⟨hbroken, -⟩ | ⟨-, order', horder', hperm', hsorted'⟩
  · exact absurd hbroken hwhole
  dsimp only
  rw [horder']
  have hsame : ∀ x ∉ r.ids, s.states x = e.manager.states x := fun x hx =>
    hsame x fun h => hx (hperm.mem_iff.mp h)
  rcases exists_of_not_ok ok .start order' with hok | ⟨before, m, after, err, rfl, hbefore, herr⟩
  · obtain ⟨t, hrun, hcalls', hrec, -, -, hsame'⟩ := Manager.pass_ok Manager.startPhase ok order' []
      { s with runtime := some true } (fun m hm => hrecords m (hperm'.mem_iff.mp hm)) hok
    refine ⟨_, t, hrun, .started order order' hwhole hperm hsorted hperm' hsorted' hok ?_ ?_ ?_⟩
    · rw [hcalls', ← hcalls]
    · intro m hm
      rw [hrec]
      exact hrecords m hm
    · exact fun x hx => (hsame' x fun h => hx (hperm'.mem_iff.mp h)).trans (hsame x hx)
  · obtain ⟨err', t, hrun, hcalls', hsettled, hsame'⟩ := Manager.pass_error Manager.startPhase ok
      before after [] m { s with runtime := some true }
      (fun x hx => hrecords x (hperm'.mem_iff.mp (by simp at hx ⊢; tauto))) hbefore herr
    rw [List.nil_append] at hsettled hsame'
    refine ⟨_, t, hrun, .startFailed order before after m hwhole hperm hsorted hinit horder'
      hperm' hsorted'
      hbefore herr ?_ hsettled ?_ ?_⟩
    · rw [hcalls', ← hcalls]
      rfl
    · intro x hx
      have hnodup := hperm'.nodup_iff.mpr r.nodup
      rw [List.append_cons] at hnodup
      have hout : x ∉ before ++ [m] := fun h => (List.nodup_append.mp hnodup).2.2 x h x hx rfl
      exact (hsame' x hout).trans (hreached x (hperm.mem_iff.mpr (hperm'.mem_iff.mp (by simp [hx]))))
    · intro x hx
      exact (hsame' x fun h => hx (hperm'.mem_iff.mp (by simp at h ⊢; tauto))).trans (hsame x hx)

theorem start_started (initWalk startWalk : r.Walk) (ok : Outcomes) (hlive : e.live = false) :
    Started r startWalk ok e (e.start r initWalk startWalk ok).1 (e.start r initWalk startWalk ok).2.manager ∧
      ((e.start r initWalk startWalk ok).2.live = true ↔
        (e.start r initWalk startWalk ok).1 = .ok ()) := by
  unfold EngineState.start
  rw [if_neg (by simp [hlive])]
  have hrecords : ∀ m ∈ r.ids, (Manager.ensureRecords r { e.manager with calls := [] }).records m =
      true := fun m hm => by simp [Manager.ensureRecords, hm]
  unfold Manager.initAll
  dsimp only
  rcases topoOrder_cases r initWalk with ⟨hbroken, err, horder⟩ | ⟨hwhole, order, horder, hperm, hsorted⟩
  · rw [horder]
    exact ⟨.refused hbroken rfl rfl, nofun, nofun⟩
  rw [horder]
  dsimp only
  rcases exists_of_not_ok ok .init order with hok | ⟨before, m, after, err, rfl, hbefore, herr⟩
  · obtain ⟨t, hrun, hcalls, hrec, hruntime, hreached, hsame⟩ := Manager.pass_ok Manager.initPhase ok
      order [] { Manager.ensureRecords r { e.manager with calls := [] } with runtime := some false }
      (fun m hm => hrecords m (hperm.mem_iff.mp hm)) hok
    obtain ⟨result, u, hstart, hstarted⟩ := startAll_started (s := t) startWalk hwhole hperm hsorted
      hok (fun m hm => by rw [hrec]; exact hrecords m hm) hruntime hcalls hreached hsame
    rw [hrun]
    dsimp only
    rw [hstart]
    cases result with
    | ok u => exact ⟨hstarted, fun _ => rfl, fun _ => rfl⟩
    | error err => exact ⟨hstarted, nofun, nofun⟩
  · obtain ⟨err', t, hrun, hcalls, hsettled, hsame⟩ := Manager.pass_error Manager.initPhase ok
      before after [] m
      { Manager.ensureRecords r { e.manager with calls := [] } with runtime := some false }
      (fun x hx => hrecords x (hperm.mem_iff.mp (by simp at hx ⊢; tauto))) hbefore herr
    rw [hrun]
    exact ⟨.initFailed before after m hwhole hperm hsorted hbefore herr hcalls hsettled hsame,
      nofun, nofun⟩

/-- When every module is initialised, none but the last one to be started fails to start. -/
def OnlyLastFails (r : Registry) (startWalk : r.Walk) (ok : Outcomes) : Prop :=
  (∀ m ∈ r.ids, ok (.init m) = .ok ()) → ∀ order, topoOrder r startWalk = .ok order →
    ∀ m ∈ order.dropLast, ok (.start m) = .ok ()

/-- A module is called when the call of everything it depends on has succeeded. -/
def AfterDependencies (r : Registry) (call : ModuleId → ModuleCall)
    (before : List (ModuleCall × Except SdkError Unit)) (c : ModuleCall × Except SdkError Unit) :
    Prop :=
  ∀ dep m, c.1 = call m → (dep, m) ∈ r.edges → (call dep, .ok ()) ∈ before

/-- A module is stopped when every initialised module that depends on it was. -/
def AfterDependents (r : Registry) (calls before : List (ModuleCall × Except SdkError Unit))
    (c : ModuleCall × Except SdkError Unit) : Prop :=
  ∀ dep m, c.1 = .stop dep → (dep, m) ∈ r.edges → (.init m, .ok ()) ∈ calls →
    ∃ res, (.stop m, res) ∈ before

/-- Modules are called after what they depend on; a start that fails has stopped every module
whose `init` succeeded, dependents first, and leaves no module behind; a broken registry is
refused with no module called. -/
structure StartContract (r : Registry) (result : Except SdkError Unit) (t : Manager) : Prop where
  init_after : AtEach (AfterDependencies r .init) t.calls
  start_after : AtEach (AfterDependencies r .start) t.calls
  stopped : ∀ err, result = .error err → ∀ before m after,
    t.calls = before ++ (.init m, .ok ()) :: after → ∃ res, (.stop m, res) ∈ after
  reverse : ∀ err, result = .error err → AtEach (AfterDependents r t.calls) t.calls
  settled : ∀ err, result = .error err → ∀ m, Settled (t.states m)
  refused : r.Broken → (∃ err, result = .error err) ∧ t.calls = []

theorem afterDependencies_of_ne (h : ∀ m, c.1 ≠ call m)
    (before : List (ModuleCall × Except SdkError Unit)) : AfterDependencies r call before c :=
  fun _ m hm => absurd hm (h m)

/-- What a pass calls up to the module that fails, when there is one. -/
theorem atEach_entered (p : Manager.Phase) (hinj : Function.Injective p.call) (rest : List ModuleId)
    (hsorted : Kahn.Sorted r.edges (order ++ rest)) :
    AtEach (AfterDependencies r p.call) (Manager.entered p order) := by
  intro before c after heq dep m hcall hedge
  obtain ⟨front, back, rfl, rfl, hback⟩ := List.map_eq_append_iff.mp heq
  obtain ⟨m', back, rfl, rfl, rfl⟩ := List.map_eq_cons_iff.mp hback
  obtain rfl := hinj hcall
  rw [List.append_assoc] at hsorted
  exact List.mem_map.mpr ⟨dep, hsorted front m' (back ++ rest) rfl dep hedge, rfl⟩

theorem atEach_attempt (p : Manager.Phase) (hinj : Function.Injective p.call) (after : List ModuleId)
    (hsorted : Kahn.Sorted r.edges (before ++ m :: after)) (res : Except SdkError Unit) :
    AtEach (AfterDependencies r p.call) (Manager.entered p before ++ [(p.call m, res)]) := by
  refine (atEach_entered p hinj (m :: after) hsorted).snoc fun dep m' hcall hedge => ?_
  obtain rfl := hinj hcall
  exact List.mem_map.mpr ⟨dep, hsorted before m after rfl dep hedge, rfl⟩

theorem AfterDependencies.append (h : AfterDependencies r call before c)
    (front : List (ModuleCall × Except SdkError Unit)) :
    AfterDependencies r call (front ++ before) c :=
  fun dep m hcall hedge => List.mem_append_right front (h dep m hcall hedge)

theorem initPhase_injective : Function.Injective Manager.initPhase.call :=
  fun _ _ h => ModuleCall.init.inj h

theorem startPhase_injective : Function.Injective Manager.startPhase.call :=
  fun _ _ h => ModuleCall.start.inj h

theorem mem_stops (ok : Outcomes) (h : c ∈ Manager.stops ok order) : ∃ m ∈ order,
    c = (.stop m, ok (.stop m)) := by
  obtain ⟨m, hm, rfl⟩ := List.mem_map.mp h
  exact ⟨m, hm, rfl⟩

theorem mem_entered (p : Manager.Phase) (h : c ∈ Manager.entered p order) : ∃ m ∈ order,
    c = (p.call m, .ok ()) := by
  obtain ⟨m, hm, rfl⟩ := List.mem_map.mp h
  exact ⟨m, hm, rfl⟩

/-- Stopped from the last one to the first, dependents go before what they depend on. -/
theorem atEach_stops (ok : Outcomes) (after : List ModuleId)
    (head calls : List (ModuleCall × Except SdkError Unit))
    (hsorted : Kahn.Sorted r.edges (order ++ after)) (hnodup : order.Nodup)
    (hhead : ∀ c ∈ head, ∀ m, c.1 ≠ .stop m)
    (hcalls : ∀ m dep, (.init m, .ok ()) ∈ calls → (dep, m) ∈ r.edges → dep ∈ order → m ∈ order) :
    AtEach (AfterDependents r calls) (head ++ Manager.stops ok order.reverse) := by
  have hnone : AtEach (AfterDependents r calls) head := fun before c back heq dep m hcall =>
    absurd hcall (hhead c (heq ▸ List.mem_append_right before List.mem_cons_self) dep)
  refine hnone.append_list fun before c back heq dep m hcall hedge hinit => ?_
  obtain ⟨front, rest, hrev, rfl, hrest⟩ := List.map_eq_append_iff.mp heq
  obtain ⟨m', rest, rfl, rfl, rfl⟩ := List.map_eq_cons_iff.mp hrest
  cases hcall
  have horder : order = rest.reverse ++ dep :: front.reverse := by
    rw [← List.reverse_reverse order, hrev]
    simp
  have hm : m ∈ order := hcalls m dep hinit hedge (by simp [horder])
  -- Otherwise the dependent would come after the module in the order, and not before it.
  have hfront : m ∈ front := by
    rw [horder] at hsorted hnodup hm
    have hleft : dep ∉ rest.reverse := fun h =>
      (List.nodup_append.mp hnodup).2.2 dep h dep List.mem_cons_self rfl
    rcases List.mem_append.mp hm with hin | hin
    · obtain ⟨a, b, hab⟩ := List.append_of_mem hin
      rw [hab, List.append_assoc, List.append_assoc, List.cons_append] at hsorted
      exact absurd (hab ▸ List.mem_append_left _ (hsorted a m _ rfl dep hedge)) hleft
    · rcases List.mem_cons.mp hin with rfl | hin
      · rw [List.append_assoc, List.cons_append] at hsorted
        exact absurd (hsorted rest.reverse m _ rfl m hedge) hleft
      · exact List.mem_reverse.mp hin
  exact ⟨_, List.mem_append_right head (List.mem_map.mpr ⟨m, hfront, rfl⟩)⟩

/-- Engines that were started and stopped so far, with no start that broke its contract. -/
inductive Reached (r : Registry) : EngineState → Prop
  | new : Reached r (.new r)
  | start (e : EngineState) (initWalk startWalk : r.Walk) (ok : Outcomes) (h : Reached r e)
    (honly : e.live = false → OnlyLastFails r startWalk ok) :
    Reached r (e.start r initWalk startWalk ok).2
  | stop (e : EngineState) (walk : r.Walk) (ok : Outcomes) (h : Reached r e) :
    Reached r (e.stop r walk ok)

/-- Without a running engine every module is settled, and no others are known in any case. -/
structure Idle (r : Registry) (e : EngineState) : Prop where
  settled : e.live = false → ∀ m, Settled (e.manager.states m)
  unknown : ∀ m ∉ r.ids, Settled (e.manager.states m)
  records : e.live = true → ∀ m ∈ r.ids, e.manager.records m = true

/-- A start that stopped what it called, from the last module to the first. -/
theorem contract_of_stopped (after : List ModuleId) (hwhole : ¬r.Broken)
    (hsorted : Kahn.Sorted r.edges (order ++ after))
    (hperm : (order ++ after).Perm r.ids) (t : Manager)
    (head : List (ModuleCall × Except SdkError Unit))
    (hcalls : t.calls = head ++ Manager.stops ok order.reverse)
    (hinit : AtEach (AfterDependencies r .init) head)
    (hstart : AtEach (AfterDependencies r .start) head)
    (hhead : ∀ c ∈ head, ∀ m, c.1 ≠ .stop m)
    (hstopped : ∀ m, (.init m, .ok ()) ∈ head → m ∈ order)
    (hsettled : ∀ m, Settled (t.states m)) : StartContract r (.error err) t := by
  have hnone : ∀ c ∈ Manager.stops ok order.reverse, ∃ m, c.1 = .stop m := fun c hc => by
    obtain ⟨m, -, rfl⟩ := mem_stops ok hc
    exact ⟨m, rfl⟩
  have hmem : ∀ m, (ModuleCall.init m, Except.ok ()) ∈ t.calls → m ∈ order := fun m hm => by
    rw [hcalls] at hm
    rcases List.mem_append.mp hm with hm | hm
    · exact hstopped m hm
    · obtain ⟨m', h⟩ := hnone _ hm
      cases h
  have hafter : ∀ (call : ModuleId → ModuleCall), (∀ m m', call m ≠ .stop m') →
      AtEach (AfterDependencies r call) head → AtEach (AfterDependencies r call) t.calls := by
    intro call hcall h
    rw [hcalls]
    refine h.append fun c hc => afterDependencies_of_ne fun m heq => ?_
    obtain ⟨m', hm'⟩ := hnone c hc
    exact hcall m m' (heq.symm.trans hm')
  refine ⟨hafter .init nofun hinit, hafter .start nofun hstart, fun _ _ before m back heq => ?_,
    fun _ _ => ?_, fun _ _ => hsettled, fun h => absurd h hwhole⟩
  · have hm := hmem m (heq ▸ by simp)
    rw [hcalls] at heq
    have hnot : ∀ front, Manager.stops ok order.reverse ≠ front ++ (.init m, .ok ()) :: back :=
      fun front h => by
        obtain ⟨m', h'⟩ := hnone (.init m, .ok ()) (h ▸ by simp)
        cases h'
    rcases List.append_eq_append_iff.mp heq with ⟨mid, -, hmid⟩ | ⟨mid, -, hmid⟩
    · exact absurd hmid (hnot mid)
    · cases mid with
      | nil => exact absurd hmid.symm (hnot [])
      | cons c mid =>
        cases hmid
        exact ⟨_, List.mem_append_right mid
          (List.mem_map.mpr ⟨m, List.mem_reverse.mpr hm, rfl⟩)⟩
  · rw [hcalls]
    refine atEach_stops ok after head _ hsorted ?_ hhead fun m dep hm _ _ => hmem m (hcalls ▸ hm)
    exact (List.nodup_append.mp (hperm.nodup_iff.mpr r.nodup)).1

theorem topoOrder_perm (walk : r.Walk) (h : topoOrder r walk = .ok order) : order.Perm r.ids := by
  rcases topoOrder_cases r walk with ⟨-, err, herr⟩ | ⟨-, order', horder, hperm, -⟩
  · rw [herr] at h
    cases h
  · rw [horder] at h
    cases h
    exact hperm

theorem not_broken_of_topoOrder (walk : r.Walk) (h : topoOrder r walk = .ok order) : ¬r.Broken := by
  rcases topoOrder_cases r walk with ⟨-, err, herr⟩ | ⟨hwhole, -⟩
  · rw [herr] at h
    cases h
  · exact hwhole

/-- What `startFailed` says, where the module that fails is the last one. -/
theorem contract_of_lastFailed (hwhole : ¬r.Broken) (horder : order.Perm r.ids)
    (hsortedOrder : Kahn.Sorted r.edges order) (hperm : (before ++ [m]).Perm r.ids)
    (hsorted : Kahn.Sorted r.edges (before ++ [m])) (t : Manager)
    (hcalls : t.calls = Manager.entered Manager.initPhase order ++
      (Manager.entered Manager.startPhase before ++ (.start m, .error err') ::
        Manager.stops ok (before ++ [m]).reverse))
    (hsettled : ∀ x, Settled (t.states x)) : StartContract r (.error err) t := by
  rw [List.append_cons, ← List.append_assoc] at hcalls
  have hinitPart : AtEach (AfterDependencies r .init) (Manager.entered Manager.initPhase order) :=
    atEach_entered Manager.initPhase initPhase_injective [] (by rwa [List.append_nil])
  have hstartPart := atEach_attempt Manager.startPhase startPhase_injective [] hsorted (.error err')
  have hstartOnly : ∀ c ∈ Manager.entered Manager.startPhase before ++ [(.start m, .error err')],
      ∃ x, c.1 = .start x := by
    intro c hc
    rcases List.mem_append.mp hc with hc | hc
    · obtain ⟨x, -, rfl⟩ := mem_entered _ hc
      exact ⟨x, rfl⟩
    · cases List.mem_singleton.mp hc
      exact ⟨m, rfl⟩
  have hinitOnly : ∀ c ∈ Manager.entered Manager.initPhase order,
      ∃ x ∈ order, c.1 = .init x := by
    intro c hc
    obtain ⟨x, hx, rfl⟩ := mem_entered _ hc
    exact ⟨x, hx, rfl⟩
  refine contract_of_stopped [] hwhole (by rwa [List.append_nil])
    (by rwa [List.append_nil]) t _ hcalls ?_ ?_ ?_ ?_ hsettled
  · refine hinitPart.append fun c hc => afterDependencies_of_ne fun x heq => ?_
    obtain ⟨y, hy⟩ := hstartOnly c hc
    cases heq.symm.trans hy
  · refine AtEach.append_list ?_ fun b c a heq => (hstartPart b c a heq).append _
    intro b c a heq
    refine afterDependencies_of_ne (fun x hx => ?_) b
    obtain ⟨y, -, hy⟩ := hinitOnly c (heq ▸ by simp)
    cases hx.symm.trans hy
  · intro c hc x heq
    rcases List.mem_append.mp hc with hc | hc
    · obtain ⟨y, -, hy⟩ := hinitOnly c hc
      cases heq.symm.trans hy
    · obtain ⟨y, hy⟩ := hstartOnly c hc
      cases heq.symm.trans hy
  · intro x hx
    rcases List.mem_append.mp hx with hx | hx
    · obtain ⟨y, hy, h⟩ := hinitOnly _ hx
      cases h
      exact hperm.mem_iff.mpr (horder.mem_iff.mp hy)
    · obtain ⟨y, h⟩ := hstartOnly _ hx
      cases h

theorem contract_of_initFailed (hwhole : ¬r.Broken) (hperm : (before ++ m :: after).Perm r.ids)
    (hsorted : Kahn.Sorted r.edges (before ++ m :: after)) (t : Manager)
    (hcalls : t.calls = Manager.entered Manager.initPhase before ++ (.init m, .error err') ::
      Manager.stops ok (before ++ [m]).reverse)
    (hsettled : ∀ x, Settled (t.states x)) : StartContract r (.error err) t := by
  have hinitPart := atEach_attempt Manager.initPhase initPhase_injective after hsorted (.error err')
  have hinitOnly : ∀ c ∈ Manager.entered Manager.initPhase before ++ [(.init m, .error err')],
      ∃ x, c.1 = .init x := by
    intro c hc
    rcases List.mem_append.mp hc with hc | hc
    · obtain ⟨x, -, rfl⟩ := mem_entered _ hc
      exact ⟨x, rfl⟩
    · cases List.mem_singleton.mp hc
      exact ⟨m, rfl⟩
  rw [List.append_cons] at hcalls hsorted hperm
  refine contract_of_stopped after hwhole hsorted hperm t _ hcalls hinitPart ?_ ?_ ?_ hsettled
  · intro b c a heq
    refine afterDependencies_of_ne (fun x hx => ?_) b
    obtain ⟨y, hy⟩ := hinitOnly c (heq ▸ by simp)
    cases hx.symm.trans hy
  · intro c hc x heq
    obtain ⟨y, hy⟩ := hinitOnly c hc
    cases heq.symm.trans hy
  · intro x hx
    rcases List.mem_append.mp hx with hx | hx
    · obtain ⟨y, hy, heq⟩ := mem_entered _ hx
      cases heq
      exact List.mem_append_left _ hy
    · cases List.mem_singleton.mp hx

theorem start_contract_of_idle (initWalk startWalk : r.Walk) (hidle : Idle r e)
    (hlive : e.live = false) :
    StartContract r (e.start r initWalk startWalk ok).1 (e.start r initWalk startWalk ok).2.manager ↔
      OnlyLastFails r startWalk ok := by
  have hstarted := (start_started initWalk startWalk ok hlive).1
  generalize (e.start r initWalk startWalk ok).1 = result at hstarted ⊢
  generalize (e.start r initWalk startWalk ok).2.manager = t at hstarted ⊢
  cases hstarted with
  | refused hbroken hcalls hstates =>
    refine ⟨fun _ _ order horder => absurd hbroken (not_broken_of_topoOrder startWalk horder),
      fun _ => ⟨hcalls ▸ atEach_nil, hcalls ▸ atEach_nil, fun _ _ before m after heq => ?_,
        fun _ _ => hcalls ▸ atEach_nil, fun _ _ => hstates ▸ hidle.settled hlive,
        fun _ => ⟨⟨_, rfl⟩, hcalls⟩⟩⟩
    rw [hcalls] at heq
    simp at heq
  | initFailed before after m hwhole hperm hsorted hok herr hcalls hsettled hsame =>
    constructor
    · intro _ hinit
      have := hinit m (hperm.mem_iff.mp (by simp))
      rw [herr] at this
      cases this
    · intro _
      refine contract_of_initFailed hwhole hperm hsorted t hcalls fun x => ?_
      by_cases hx : x ∈ before ++ [m]
      · exact hsettled x hx
      · rw [hsame x hx]
        exact hidle.settled hlive x
  | startFailed order before after m hwhole horder hsortedOrder hinit hstartOrder hperm hsorted hok
      herr hcalls hsettled hleft hsame =>
    constructor
    · intro hcontract _ order' horder'
      rw [hstartOrder] at horder'
      cases horder'
      cases after with
      | nil =>
        rw [List.dropLast_concat]
        exact hok
      | cons x after => exact absurd (hleft x List.mem_cons_self) (hcontract.settled _ rfl x).1
    · intro honly
      have hstart := honly (fun x hx => hinit x (horder.mem_iff.mpr hx)) _ hstartOrder
      cases after with
      | nil =>
        refine contract_of_lastFailed hwhole horder hsortedOrder hperm hsorted t hcalls fun x => ?_
        by_cases hx : x ∈ before ++ [m]
        · exact hsettled x hx
        · rw [hsame x fun h => hx (hperm.mem_iff.mpr h)]
          exact hidle.settled hlive x
      | cons x after =>
        have := hstart m (by rw [List.dropLast_append_cons]; simp)
        rw [herr] at this
        cases this
  | started initOrder startOrder hwhole hinitOrder hsortedInit hstartOrder hsortedStart hok hcalls =>
    refine ⟨fun _ _ order horder m hm => ?_, fun _ => ⟨?_, ?_, nofun, nofun, nofun,
      fun h => absurd h hwhole⟩⟩
    · exact hok m (hstartOrder.mem_iff.mpr ((topoOrder_perm startWalk horder).mem_iff.mp
        (List.dropLast_subset _ hm)))
    · rw [hcalls]
      refine AtEach.append (atEach_entered Manager.initPhase initPhase_injective []
        (by rwa [List.append_nil])) fun c hc => afterDependencies_of_ne fun x hx => ?_
      obtain ⟨y, -, rfl⟩ := mem_entered _ hc
      cases hx
    · rw [hcalls]
      refine AtEach.append_list (fun b c a heq => afterDependencies_of_ne (fun x hx => ?_) b)
        fun b c a heq => ((atEach_entered Manager.startPhase startPhase_injective []
          (by rwa [List.append_nil])) b c a heq).append _
      obtain ⟨y, -, rfl⟩ := mem_entered _ (heq ▸ List.mem_append_right b List.mem_cons_self)
      cases hx

theorem Idle.new : Idle r (.new r) := by
  have hsettled : ∀ m, Settled ((EngineState.new r).manager.states m) := fun m => by
    unfold EngineState.new
    dsimp only
    split
    · exact ⟨nofun, nofun⟩
    · exact ⟨nofun, nofun⟩
  exact ⟨fun _ => hsettled, fun m _ => hsettled m, nofun⟩

theorem Idle.start (h : Idle r e) (initWalk startWalk : r.Walk)
    (honly : e.live = false → OnlyLastFails r startWalk ok) :
    Idle r (e.start r initWalk startWalk ok).2 := by
  cases hlive : e.live with
  | true =>
    rw [EngineState.start, if_pos hlive]
    exact h
  | false =>
    obtain ⟨hstarted, hok⟩ := start_started initWalk startWalk ok hlive
    have hcontract := (start_contract_of_idle initWalk startWalk h hlive).mpr (honly hlive)
    generalize (e.start r initWalk startWalk ok).1 = result at hstarted hok hcontract
    generalize (e.start r initWalk startWalk ok).2 = e' at hstarted hok hcontract
    cases hresult : result with
    | error err =>
      have hsettled := hcontract.settled err hresult
      have hlive' : e'.live ≠ true := fun h' => by
        rw [hok.mp h'] at hresult
        cases hresult
      exact ⟨fun _ => hsettled, fun m _ => hsettled m, fun h' => absurd h' hlive'⟩
    | ok u =>
      have hlive' := hok.mpr hresult
      subst hresult
      cases hstarted with
      | started _ _ _ _ _ _ _ _ _ hrecords hsame =>
        exact ⟨fun h' => absurd (hlive'.symm.trans h') nofun,
          fun m hm => hsame m hm ▸ h.unknown m hm, fun _ => hrecords⟩

theorem Idle.stop (h : Idle r e) (walk : r.Walk) : Idle r (e.stop r walk ok) := by
  unfold EngineState.stop
  split
  · rename_i hlive
    have hall : ∀ order : List ModuleId, order.Perm r.ids → ∀ m,
        Settled ((Manager.rollback ok order.reverse e.manager).2.states m) := by
      intro order hperm m
      obtain ⟨-, -, hsettled, hsame⟩ := Manager.rollback_spec ok order.reverse e.manager
        fun m hm => h.records hlive m (hperm.mem_iff.mp (List.mem_reverse.mp hm))
      by_cases hm : m ∈ order.reverse
      · exact hsettled m hm
      · rw [hsame m hm]
        exact h.unknown m fun hm' => hm (List.mem_reverse.mpr (hperm.mem_iff.mpr hm'))
    have hstates : ∀ m, Settled ((e.manager.stopAll r walk ok).states m) := by
      unfold Manager.stopAll
      split
      · rename_i order horder
        exact hall order (topoOrder_perm walk horder)
      · exact hall walk.keys walk.perm
    exact ⟨fun _ => hstates, fun m _ => hstates m, nofun⟩
  · exact h

theorem Reached.idle (h : Reached r e) : Idle r e := by
  induction h with
  | new => exact .new
  | start e initWalk startWalk ok _ honly ih => exact ih.start initWalk startWalk honly
  | stop e walk ok _ ih => exact ih.stop walk

/-- A start of an engine that is not running keeps its contract exactly when no module but the
last one fails to start. -/
theorem start_contract_iff (initWalk startWalk : r.Walk) (ok : Outcomes) (hreached : Reached r e)
    (hlive : e.live = false) :
    StartContract r (e.start r initWalk startWalk ok).1 (e.start r initWalk startWalk ok).2.manager ↔
      OnlyLastFails r startWalk ok :=
  start_contract_of_idle initWalk startWalk hreached.idle hlive

end

/-- Two modules, of which neither needs the other. -/
def twoModules : Registry where
  manifests := [⟨"rtmp", []⟩, ⟨"rtsp", []⟩]
  nodup := by decide

def inOrder : twoModules.Walk where
  keys := ["rtmp", "rtsp"]
  perm := .refl _

def failsToStart (failing : ModuleId) : Outcomes := fun c =>
  if c = .start failing then .error (.unavailable "bind") else .ok ()

theorem last_start_stops : StartContract twoModules
    ((EngineState.new twoModules).start twoModules inOrder inOrder (failsToStart "rtsp")).1
    ((EngineState.new twoModules).start twoModules inOrder inOrder (failsToStart "rtsp")).2.manager :=
  (start_contract_iff inOrder inOrder (failsToStart "rtsp") .new rfl).mpr fun _ order horder m hm => by
    cases horder
    have hsort : Kahn.sort twoModules.edges inOrder.keys = ["rtmp", "rtsp"] := rfl
    rw [hsort] at hm
    cases List.mem_singleton.mp hm
    rfl

/-- The module that was still to be started stays as it was initialised, and is not stopped. -/
theorem first_start_leaves_second : ¬StartContract twoModules
    ((EngineState.new twoModules).start twoModules inOrder inOrder (failsToStart "rtmp")).1
    ((EngineState.new twoModules).start twoModules inOrder inOrder (failsToStart "rtmp")).2.manager :=
  fun h => (h.settled _ rfl "rtsp").1 rfl

end CheetahMedia.Engine.ModuleManager
