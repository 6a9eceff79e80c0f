import CheetahMedia.Lib.Transition
import Mathlib.Algebra.Order.BigOperators.Group.List
import Mathlib.Algebra.Order.Ring.Nat

namespace CheetahMedia.Lib.Workers

/-- Workers that share a state. Each has a list of what is left for it to do, and is idle when
nothing is left. -/
structure State (σ τ : Type) where
  shared : σ
  work : List (List τ)

inductive Action (κ : Type)
  | call (worker : Nat) (c : κ)
  | advance (worker : Nat)

section
variable {σ τ κ ε : Type}

/-- An idle worker takes a call; a busy one does what comes first in its list, which may add to
the list in its place, and may have to wait. -/
def step (start : κ → List τ) (exec : τ → σ → Option (σ × List τ × List ε)) :
    Transition (State σ τ) (Action κ) (Nat × ε)
  | s, .call i c =>
    match s.work[i]? with
    | some [] => some ({ s with work := s.work.set i (start c) }, [])
    | _ => none
  | s, .advance i =>
    match s.work[i]? with
    | some (t :: rest) =>
      (exec t s.shared).map fun (shared, more, es) =>
        ({ shared, work := s.work.set i (more ++ rest) }, es.map (i, ·))
    | _ => none

def idle (shared : σ) (n : Nat) : State σ τ where
  shared
  work := List.replicate n []

variable {start : κ → List τ} {exec : τ → σ → Option (σ × List τ × List ε)}

theorem call_eq (h : step start exec s (.call i c) = some (u, es)) :
    s.work[i]? = some [] ∧ u = { s with work := s.work.set i (start c) } ∧ es = [] := by
  unfold step at h
  dsimp only at h
  split at h
  · rename_i hidle
    cases h
    exact ⟨hidle, rfl, rfl⟩
  · cases h

theorem advance_eq (h : step start exec s (.advance i) = some (u, fs)) :
    ∃ t rest shared more es, s.work[i]? = some (t :: rest) ∧
      exec t s.shared = some (shared, more, es) ∧
      u = { shared, work := s.work.set i (more ++ rest) } ∧ fs = es.map (i, ·) := by
  unfold step at h
  dsimp only at h
  split at h
  · rename_i t rest hbusy
    obtain ⟨⟨shared, more, es⟩, hexec, heq⟩ := Option.map_eq_some_iff.mp h
    cases heq
    exact ⟨t, rest, shared, more, es, hbusy, hexec, rfl, rfl⟩
  · cases h

/-- What is left for any worker to do. -/
def Left (s : State σ τ) (t : τ) : Prop := ∃ todo ∈ s.work, t ∈ todo

theorem left_of_getElem? {s : State σ τ} {i : Nat} (h : s.work[i]? = some todo) (ht : t ∈ todo) :
    Left s t :=
  ⟨todo, List.mem_of_getElem? h, ht⟩

theorem left_of_set {s : State σ τ} {shared : σ}
    (h : Left { shared, work := s.work.set i todo } t) : Left s t ∨ t ∈ todo := by
  obtain ⟨todo', hmem, ht⟩ := h
  rcases List.mem_or_eq_of_mem_set hmem with hmem | rfl
  · exact .inl ⟨todo', hmem, ht⟩
  · exact .inr ht

variable {whole : State σ τ → Prop} {inv : σ → Prop} {fit : σ → τ → Prop}

/-- The shared state keeps `inv`, and all that is left to do stays fit for it, when whatever is
done sees to it. What is done may count on `whole`, which every step keeps by itself. -/
structure Keeps (start : κ → List τ) (exec : τ → σ → Option (σ × List τ × List ε))
    (whole : State σ τ → Prop) (inv : σ → Prop) (fit : σ → τ → Prop) : Prop where
  step : ∀ s a u es, whole s → Workers.step start exec s a = some (u, es) → whole u
  call : ∀ s c, inv s → ∀ t ∈ start c, fit s t
  exec : ∀ s t s' more es, whole s → Left s t → inv s.shared → fit s.shared t →
    exec t s.shared = some (s', more, es) →
    inv s' ∧ (∀ t' ∈ more, fit s' t') ∧ ∀ t', fit s.shared t' → fit s' t'

structure Kept (whole : State σ τ → Prop) (inv : σ → Prop) (fit : σ → τ → Prop) (s : State σ τ) :
    Prop where
  whole : whole s
  inv : inv s.shared
  fit : ∀ t, Left s t → fit s.shared t

theorem kept_idle (n : Nat) (hwhole : whole (idle shared n)) (hinv : inv shared) :
    Kept whole inv fit (idle shared n) where
  whole := hwhole
  inv := hinv
  fit t := fun ⟨todo, hmem, ht⟩ => by
    rw [List.eq_of_mem_replicate hmem] at ht
    exact absurd ht List.not_mem_nil

theorem Keeps.kept (h : Keeps start exec whole inv fit) (hkept : Kept whole inv fit s)
    (hstep : Workers.step start exec s a = some (u, es)) : Kept whole inv fit u := by
  have hwhole := h.step s a u es hkept.whole hstep
  cases a with
  | call i c =>
    obtain ⟨-, rfl, -⟩ := call_eq hstep
    refine ⟨hwhole, hkept.inv, fun t ht => ?_⟩
    rcases left_of_set ht with ht | ht
    · exact hkept.fit t ht
    · exact h.call _ c hkept.inv t ht
  | advance i =>
    obtain ⟨t, rest, shared, more, es', hbusy, hexec, rfl, -⟩ := advance_eq hstep
    have ht := left_of_getElem? hbusy List.mem_cons_self
    obtain ⟨hinv, hmore, hstable⟩ :=
      h.exec s t _ _ _ hkept.whole ht hkept.inv (hkept.fit t ht) hexec
    refine ⟨hwhole, hinv, fun t' ht' => ?_⟩
    rcases left_of_set ht' with ht' | ht'
    · exact hstable t' (hkept.fit t' ht')
    · rcases List.mem_append.mp ht' with ht' | ht'
      · exact hmore t' ht'
      · exact hstable t' (hkept.fit t' (left_of_getElem? hbusy (List.mem_cons_of_mem t ht')))

theorem Keeps.run (h : Keeps start exec whole inv fit) (hkept : Kept whole inv fit s)
    (hrun : Transition.run (Workers.step start exec) s as = some (u, es)) : Kept whole inv fit u :=
  Transition.run_invariant (Kept whole inv fit) (fun _ _ _ _ hkept _ hstep => h.kept hkept hstep)
    hkept Transition.along_true hrun

/-- What holds of everything that is seen, when it is seen, and is kept from then on. -/
theorem Keeps.run_seen (h : Keeps start exec whole inv fit) (seen : σ → ε → Prop)
    (hseen : ∀ s t s' more es, Kept whole inv fit s → Left s t →
      exec t s.shared = some (s', more, es) →
      (∀ e, seen s.shared e → seen s' e) ∧ ∀ e ∈ es, seen s' e)
    (hkept : Kept whole inv fit s)
    (hrun : Transition.run (Workers.step start exec) s as = some (u, es)) :
    ∀ e ∈ es, seen u.shared e.2 := by
  refine (Transition.run_traced
    (fun (es : List (Nat × ε)) s => Kept whole inv fit s ∧ ∀ e ∈ es, seen s.shared e.2) ?_ []
    ⟨hkept, nofun⟩ Transition.along_true hrun).2
  rintro es s a t fs ⟨hkept, hes⟩ - hstep
  refine ⟨h.kept hkept hstep, ?_⟩
  cases a with
  | call i c =>
    obtain ⟨-, rfl, rfl⟩ := call_eq hstep
    simpa using hes
  | advance i =>
    obtain ⟨t, rest, shared, more, es', hbusy, hexec, rfl, rfl⟩ := advance_eq hstep
    obtain ⟨hstable, hnew⟩ :=
      hseen s t _ _ _ hkept (left_of_getElem? hbusy List.mem_cons_self) hexec
    intro e he
    rcases List.mem_append.mp he with he | he
    · exact hstable e.2 (hes e he)
    · obtain ⟨e', he', rfl⟩ := List.mem_map.mp he
      exact hnew e' he'

/-- The weight of all that is left to do. -/
def weight (wt : τ → Nat) (s : State σ τ) : Nat := (s.work.map fun todo => (todo.map wt).sum).sum

theorem weight_idle (wt : τ → Nat) (shared : σ) (n : Nat) : weight wt (idle shared n) = 0 := by
  simp [weight, idle]

theorem sum_set (l : List Nat) (h : l[i]? = some a) (b : Nat) :
    (l.set i b).sum + a = l.sum + b := by
  induction l generalizing i with
  | nil => simp at h
  | cons x l ih =>
    cases i with
    | zero =>
      cases h
      simp only [List.set_cons_zero, List.sum_cons]
      omega
    | succ i =>
      have := ih (by simpa using h)
      simp only [List.set_cons_succ, List.sum_cons]
      omega

theorem weight_set (wt : τ → Nat) {s : State σ τ} (shared : σ) (h : s.work[i]? = some todo)
    (todo' : List τ) : weight wt { shared, work := s.work.set i todo' } + (todo.map wt).sum =
      weight wt s + (todo'.map wt).sum := by
  unfold weight
  rw [List.map_set]
  exact sum_set _ (by rw [List.getElem?_map, h]; rfl) _

theorem weight_call (wt : τ → Nat) (hstart : ∀ c, ((start c).map wt).sum = 0)
    (h : step start exec s (.call i c) = some (u, es)) : weight wt u = weight wt s := by
  obtain ⟨hidle, rfl, -⟩ := call_eq h
  have hset := weight_set wt s.shared hidle (start c)
  rw [hstart] at hset
  exact hset

theorem weight_advance (wt : τ → Nat) {s : State σ τ} (shared : σ)
    (h : s.work[i]? = some (t :: rest)) (more : List τ) :
    weight wt { shared, work := s.work.set i (more ++ rest) } + wt t =
      weight wt s + (more.map wt).sum := by
  have hset := weight_set wt shared h (more ++ rest)
  rw [List.map_append, List.sum_append, List.map_cons, List.sum_cons] at hset
  omega

theorem le_weight_of_left (wt : τ → Nat) {s : State σ τ} (h : Left s t) : wt t ≤ weight wt s := by
  obtain ⟨todo, hmem, ht⟩ := h
  calc wt t ≤ (todo.map wt).sum :=
        List.single_le_sum (fun _ _ => Nat.zero_le _) _ (List.mem_map.mpr ⟨t, ht, rfl⟩)
    _ ≤ weight wt s :=
        List.single_le_sum (fun _ _ => Nat.zero_le _) _ (List.mem_map.mpr ⟨todo, hmem, rfl⟩)

theorem weight_eq_zero (wt : τ → Nat) {s : State σ τ} (h : ∀ t, Left s t → wt t = 0) :
    weight wt s = 0 := by
  refine List.sum_eq_zero fun x hx => ?_
  obtain ⟨todo, htodo, rfl⟩ := List.mem_map.mp hx
  refine List.sum_eq_zero fun y hy => ?_
  obtain ⟨t, ht, rfl⟩ := List.mem_map.mp hy
  exact h t ⟨todo, htodo, ht⟩

/-- What is seen and what is left to do add up to what the shared state says, when this is so of
whatever is done. -/
theorem Keeps.run_weight (h : Keeps start exec whole inv fit) (we : ε → Nat) (wt : τ → Nat)
    (v : σ → Nat) (hstart : ∀ c, ((start c).map wt).sum = 0)
    (hexec : ∀ s t s' more es, Kept whole inv fit s → Left s t →
      exec t s.shared = some (s', more, es) →
      (es.map we).sum + (more.map wt).sum + v s.shared = wt t + v s')
    (hkept : Kept whole inv fit s)
    (hrun : Transition.run (Workers.step start exec) s as = some (u, es)) :
    (es.map fun e => we e.2).sum + weight wt u + v s.shared = weight wt s + v u.shared := by
  induction as generalizing s es with
  | nil =>
    cases hrun
    simp
  | cons a as ih =>
    obtain ⟨t, fs, gs, hstep, hrest, rfl⟩ := Transition.run_cons_eq hrun
    have hrest := ih (h.kept hkept hstep) hrest
    rw [List.map_append, List.sum_append]
    cases a with
    | call i c =>
      have hcall := weight_call wt hstart hstep
      obtain ⟨-, rfl, rfl⟩ := call_eq hstep
      simp only [List.map_nil, List.sum_nil] at hcall hrest ⊢
      omega
    | advance i =>
      obtain ⟨t, rest, shared, more, es', hbusy, hdone, rfl, rfl⟩ := advance_eq hstep
      have hadvance := weight_advance wt shared hbusy more
      have hbalance :=
        hexec s t _ _ _ hkept (left_of_getElem? hbusy List.mem_cons_self) hdone
      rw [List.map_map]
      have hseen : (es'.map ((fun e => we e.2) ∘ (i, ·))).sum = (es'.map we).sum := rfl
      dsimp only at hrest
      omega

section Guarded
variable {ok : τ → σ → Prop}

/-- A step of a worker is taken only where `ok` holds. -/
def guarded (ok : τ → σ → Prop) [∀ t s, Decidable (ok t s)]
    (exec : τ → σ → Option (σ × List τ × List ε)) (t : τ) (s : σ) : Option (σ × List τ × List ε) :=
  if ok t s then exec t s else none

/-- `ok` holds of what the worker does. -/
def Allowed (ok : τ → σ → Prop) (s : State σ τ) : Action κ → Prop
  | .call _ _ => True
  | .advance i => ∀ t ∈ s.work[i]?.bind List.head?, ok t s.shared

instance [∀ t s, Decidable (ok t s)] (s : State σ τ) (a : Action κ) : Decidable (Allowed ok s a) :=
  match a with
  | .call _ _ => inferInstanceAs (Decidable True)
  | .advance i => inferInstanceAs (Decidable (∀ t ∈ s.work[i]?.bind List.head?, ok t s.shared))

theorem guarded_eq [∀ t s, Decidable (ok t s)] (h : guarded ok exec t s = some r) :
    ok t s ∧ exec t s = some r := by
  unfold guarded at h
  split at h
  · rename_i hok
    exact ⟨hok, h⟩
  · cases h

theorem step_guarded [∀ t s, Decidable (ok t s)] (hok : Allowed ok s a)
    (h : step start exec s a = some r) : step start (guarded ok exec) s a = some r := by
  cases a with
  | call i c => exact h
  | advance i =>
    obtain ⟨t, rest, shared, more, es, hbusy, hexec, hu, hes⟩ := advance_eq h
    have hnow : ok t s.shared := hok t (by rw [hbusy]; rfl)
    have hguarded : guarded ok exec t s.shared = some (shared, more, es) := by
      rw [guarded, if_pos hnow, hexec]
    unfold step
    dsimp only
    rw [hbusy]
    dsimp only
    rw [hguarded, Option.map_some, ← hu, ← hes]

/-- A run whose steps all meet `ok` is a run of the guarded workers. -/
theorem run_guarded [∀ t s, Decidable (ok t s)]
    (hok : Transition.Along (step start exec) (Allowed ok) s as)
    (hrun : Transition.run (step start exec) s as = some (u, es)) :
    Transition.run (step start (guarded ok exec)) s as = some (u, es) := by
  induction as generalizing s es with
  | nil => exact hrun
  | cons a as ih =>
    obtain ⟨t, fs, gs, hstep, hrest, rfl⟩ := Transition.run_cons_eq hrun
    obtain ⟨hnow, hlater⟩ := (Transition.along_cons hstep).mp hok
    simp [Transition.run, step_guarded hnow hstep, ih hlater hrest]

end Guarded
end
end CheetahMedia.Lib.Workers
