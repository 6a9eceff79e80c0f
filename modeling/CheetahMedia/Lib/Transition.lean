import Mathlib.Data.List.Basic

namespace CheetahMedia.Lib

/-- A system that takes labelled steps: an action is enabled or not, and a step
leads to a state and to what an observer sees of it. -/
abbrev Transition (σ α ε : Type) := σ → α → Option (σ × List ε)

namespace Transition
variable {σ α ε : Type} {step : Transition σ α ε} {cond : σ → α → Prop}

/-- Takes the actions in order; stuck at the first one that is not enabled. -/
def run (step : Transition σ α ε) : σ → List α → Option (σ × List ε)
  | s, [] => some (s, [])
  | s, a :: as =>
    match step s a with
    | none => none
    | some (t, es) => (run step t as).map fun r => (r.1, es ++ r.2)

/-- `cond` holds at every step that the actions take. -/
def Along (step : Transition σ α ε) (cond : σ → α → Prop) : σ → List α → Prop
  | _, [] => True
  | s, a :: as =>
    match step s a with
    | none => True
    | some (t, _) => cond s a ∧ Along step cond t as

instance instDecidableAlong [∀ s a, Decidable (cond s a)] :
    ∀ (s : σ) (as : List α), Decidable (Along step cond s as)
  | _, [] => inferInstanceAs (Decidable True)
  | s, a :: as =>
    match h : step s a with
    | none => decidable_of_iff True (by simp [Along, h])
    | some (t, _) =>
      have : Decidable (Along step cond t as) := instDecidableAlong t as
      decidable_of_iff (cond s a ∧ Along step cond t as) (by simp [Along, h])

theorem run_cons_eq (hrun : run step s (a :: as) = some (u, fs)) :
    ∃ t es gs, step s a = some (t, es) ∧ run step t as = some (u, gs) ∧ fs = es ++ gs := by
  cases ha : step s a with
  | none => simp [run, ha] at hrun
  | some r =>
    obtain ⟨t, es⟩ := r
    simp only [run, ha, Option.map_eq_some_iff, Prod.mk.injEq] at hrun
    obtain ⟨⟨v, gs⟩, hrest, rfl, rfl⟩ := hrun
    exact ⟨t, es, gs, rfl, hrest, rfl⟩

theorem run_append (as bs : List α) (h : run step s as = some (t, es)) :
    run step s (as ++ bs) = (run step t bs).map fun r => (r.1, es ++ r.2) := by
  induction as generalizing s es with
  | nil =>
    cases h
    simp
  | cons a as ih =>
    obtain ⟨u, es', gs, ha, hrest, rfl⟩ := run_cons_eq h
    simp only [List.cons_append, run, ha, ih hrest, Option.map_map]
    congr 1
    funext r
    simp

theorem run_append_eq (h : run step s (as ++ bs) = some (u, fs)) : ∃ t es gs,
    run step s as = some (t, es) ∧ run step t bs = some (u, gs) ∧ fs = es ++ gs := by
  induction as generalizing s fs with
  | nil => exact ⟨s, [], fs, rfl, h, rfl⟩
  | cons a as ih =>
    obtain ⟨t, es, gs, ha, hrest, rfl⟩ := run_cons_eq h
    obtain ⟨t', es', gs', has, hbs, rfl⟩ := ih hrest
    exact ⟨t', es ++ es', gs', by simp [run, ha, has], hbs, (List.append_assoc ..).symm⟩

theorem along_cons (h : step s a = some (t, es)) :
    Along step cond s (a :: as) ↔ cond s a ∧ Along step cond t as := by
  simp [Along, h]

theorem along_append (h : run step s as = some (t, es)) :
    Along step cond s (as ++ bs) ↔ Along step cond s as ∧ Along step cond t bs := by
  induction as generalizing s es with
  | nil =>
    cases h
    simp [Along]
  | cons a as ih =>
    obtain ⟨u, es', gs, ha, hrest, -⟩ := run_cons_eq h
    rw [List.cons_append, along_cons ha, along_cons ha, ih hrest, and_assoc]

/-- A relation between the actions taken so far, what was seen of them and the state
reached, kept by every step that meets `cond`, holds after every run of such steps. -/
theorem run_observed (Inv : List α → List ε → σ → Prop)
    (hstep : ∀ as es s a t fs, Inv as es s → cond s a → step s a = some (t, fs) →
      Inv (as ++ [a]) (es ++ fs) t)
    (before : List α) (es : List ε) (hinv : Inv before es s) (hcond : Along step cond s as)
    (hrun : run step s as = some (u, fs)) : Inv (before ++ as) (es ++ fs) u := by
  induction as generalizing before es s fs with
  | nil =>
    cases hrun
    simpa using hinv
  | cons a as ih =>
    obtain ⟨t, es', gs, ha, hrest, rfl⟩ := run_cons_eq hrun
    obtain ⟨hnow, hlater⟩ := (along_cons ha).mp hcond
    rw [← List.append_assoc, List.append_cons]
    exact ih (before ++ [a]) (es ++ es') (hstep before es s a t es' hinv hnow ha) hlater hrest

/-- For what was seen and the state. -/
theorem run_traced (Inv : List ε → σ → Prop)
    (hstep : ∀ es s a t fs, Inv es s → cond s a → step s a = some (t, fs) → Inv (es ++ fs) t)
    (es : List ε) (hinv : Inv es s) (hcond : Along step cond s as)
    (hrun : run step s as = some (u, fs)) : Inv (es ++ fs) u :=
  run_observed (fun _ => Inv) (fun _ => hstep) [] es hinv hcond hrun

/-- For the actions and the state. -/
theorem run_followed (Inv : List α → σ → Prop)
    (hstep : ∀ as s a t es, Inv as s → cond s a → step s a = some (t, es) → Inv (as ++ [a]) t)
    (before : List α) (hinv : Inv before s) (hcond : Along step cond s as)
    (hrun : run step s as = some (u, fs)) : Inv (before ++ as) u :=
  run_observed (fun as _ => Inv as) (fun as _ => hstep as) before [] hinv hcond hrun

/-- A condition on the actions alone. -/
theorem along_of_forall {cond : α → Prop} (h : ∀ a ∈ as, cond a) :
    Along step (fun _ a => cond a) s as := by
  induction as generalizing s with
  | nil => trivial
  | cons a as ih =>
    obtain ⟨hnow, hlater⟩ := List.forall_mem_cons.mp h
    unfold Along
    split
    · trivial
    · exact ⟨hnow, ih hlater⟩

theorem along_true : Along step (fun _ _ => True) s as :=
  along_of_forall fun _ _ => trivial

/-- For a state alone. -/
theorem run_invariant (Inv : σ → Prop)
    (hstep : ∀ s a t es, Inv s → cond s a → step s a = some (t, es) → Inv t)
    (hinv : Inv s) (hcond : Along step cond s as) (hrun : run step s as = some (u, fs)) : Inv u :=
  run_traced (fun _ => Inv) (fun _ => hstep) [] hinv hcond hrun

/-- What an invariant and `cond` give of a single step, every step of a run has. -/
theorem along_of_invariant (Inv : σ → Prop) {prop : σ → α → Prop}
    (hstep : ∀ s a t es, Inv s → cond s a → step s a = some (t, es) → Inv t ∧ prop s a)
    (hinv : Inv s) (hcond : Along step cond s as) : Along step prop s as := by
  induction as generalizing s with
  | nil => trivial
  | cons a as ih =>
    cases ha : step s a with
    | none => simp [Along, ha]
    | some r =>
      obtain ⟨t, es⟩ := r
      obtain ⟨hnow, hlater⟩ := (along_cons ha).mp hcond
      obtain ⟨hnext, hprop⟩ := hstep s a t es hinv hnow ha
      exact (along_cons ha).mpr ⟨hprop, ih hnext hlater⟩

/-- The same system with what was seen so far kept beside the state. -/
def recorded (step : Transition σ α ε) : Transition (σ × List ε) α ε :=
  fun s a => (step s.1 a).map fun r => ((r.1, s.2 ++ r.2), r.2)

/-- A relation between what was seen and the state reached, where the condition on a
step may ask for what was seen before it. -/
theorem run_recorded {cond : σ × List ε → α → Prop} (Inv : List ε → σ → Prop)
    (hstep : ∀ es s a t fs, Inv es s → cond (s, es) a → step s a = some (t, fs) → Inv (es ++ fs) t)
    (es : List ε) (hinv : Inv es s) (hcond : Along (recorded step) cond (s, es) as)
    (hrun : run step s as = some (u, fs)) : Inv (es ++ fs) u := by
  induction as generalizing es s fs with
  | nil =>
    cases hrun
    simpa using hinv
  | cons a as ih =>
    obtain ⟨t, es', gs, ha, hrest, rfl⟩ := run_cons_eq hrun
    have hrecorded : recorded step (s, es) a = some ((t, es ++ es'), es') := by simp [recorded, ha]
    obtain ⟨hnow, hlater⟩ := (along_cons hrecorded).mp hcond
    rw [← List.append_assoc]
    exact ih (es ++ es') (hstep es s a t es' hinv hnow ha) hlater hrest

end Transition

section
variable {ε : Type} {P : List ε → ε → Prop}

/-- An element of a list with one more at its end is this one, or was there before. -/
theorem cases_of_snoc {es before after : List ε} {e e' : ε}
    (h : es ++ [e] = before ++ e' :: after) :
    (before = es ∧ e' = e ∧ after = []) ∨
      ∃ front, after = front ++ [e] ∧ es = before ++ e' :: front := by
  rcases List.eq_nil_or_concat' after with rfl | ⟨front, last, rfl⟩
  · obtain ⟨rfl, hlast⟩ := List.append_inj' h rfl
    cases hlast
    exact .inl ⟨rfl, rfl, rfl⟩
  · rw [← List.cons_append, ← List.append_assoc] at h
    obtain ⟨rfl, hlast⟩ := List.append_inj' h rfl
    cases hlast
    exact .inr ⟨front, rfl, rfl⟩

/-- Every element stands in relation `P` to what comes before it. -/
def AtEach (P : List ε → ε → Prop) (es : List ε) : Prop :=
  ∀ before e after, es = before ++ e :: after → P before e

theorem atEach_nil : AtEach P [] := by
  intro before e after h
  simp at h

theorem AtEach.snoc (h : AtEach P es) (he : P es e) : AtEach P (es ++ [e]) := by
  intro before e' after heq
  rcases cases_of_snoc heq with ⟨rfl, rfl, rfl⟩ | ⟨front, rfl, hes⟩
  · exact he
  · exact h before e' front hes

/-- Elements on which `P` asks nothing. -/
theorem AtEach.append (h : AtEach P es) (hfs : ∀ e ∈ fs, ∀ before, P before e) :
    AtEach P (es ++ fs) := by
  induction fs generalizing es with
  | nil => simpa using h
  | cons f fs ih =>
    obtain ⟨hf, hfs⟩ := List.forall_mem_cons.mp hfs
    rw [List.append_cons]
    exact ih (h.snoc (hf es)) hfs

/-- Two lists in a row, where the second one may look back at the first. -/
theorem AtEach.append_list (h : AtEach P es) (hfs : AtEach (fun before => P (es ++ before)) fs) :
    AtEach P (es ++ fs) := by
  induction fs generalizing es with
  | nil => simpa using h
  | cons f fs ih =>
    have hf : P es f := by simpa using hfs [] f fs rfl
    rw [List.append_cons]
    refine ih (h.snoc hf) fun before e after heq => ?_
    dsimp only
    rw [← List.append_cons]
    exact hfs (f :: before) e after (by rw [heq]; rfl)

/-- Elements that come after what `P` asks for. -/
theorem AtEach.append_after (h : AtEach P es) (hfs : ∀ before, es <+: before → ∀ e, P before e)
    (fs : List ε) : AtEach P (es ++ fs) := by
  induction fs generalizing es with
  | nil => simpa using h
  | cons f fs ih =>
    rw [List.append_cons]
    exact ih (h.snoc (hfs es List.prefix_rfl f)) fun before hbefore =>
      hfs before ((List.prefix_append es [f]).trans hbefore)

end
end CheetahMedia.Lib
