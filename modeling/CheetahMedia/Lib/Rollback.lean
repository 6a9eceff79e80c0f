import Mathlib.Logic.Function.Basic

namespace CheetahMedia.Lib

namespace Compensation
variable {σ α β ε γ : Type} {apply : α → σ → Except ε β × σ}
  {compensate : List α → σ → γ × σ}

/-- Applies the actions one after another; the first that fails ends it, after those that were
applied are compensated for. `applied` and `out` are what is done already. -/
def attempt (apply : α → σ → Except ε β × σ) (compensate : List α → σ → γ × σ)
    (applied : List α) (out : List β) : List α → σ → Except (ε × γ) (List β) × σ
  | [], s => (.ok out, s)
  | a :: rest, s =>
    match apply a s with
    | (.ok b, s) => attempt apply compensate (applied ++ [a]) (out ++ [b]) rest s
    | (.error err, s) =>
      let (failures, s) := compensate applied s
      (.error (err, failures), s)

/-- Where it fails: what each action that succeeds keeps holds before the one that fails. -/
theorem attempt_error (Inv : List α → σ → Prop)
    (hstep : ∀ done a rest s b t, applied ++ as = done ++ a :: rest → Inv done s →
      apply a s = (.ok b, t) → Inv (done ++ [a]) t)
    (hinv : Inv applied s)
    (h : attempt apply compensate applied out as s = (.error (err, failures), u)) :
    ∃ done a rest s' t, applied ++ as = done ++ a :: rest ∧ Inv done s' ∧
      apply a s' = (.error err, t) ∧ compensate done t = (failures, u) := by
  induction as generalizing applied out s with
  | nil => cases h
  | cons a as ih =>
    rcases ha : apply a s with ⟨err' | b, t⟩
    · simp only [attempt, ha, Prod.mk.injEq, Except.error.injEq] at h
      obtain ⟨⟨rfl, rfl⟩, rfl⟩ := h
      exact ⟨applied, a, as, s, t, rfl, hinv, ha, rfl⟩
    · simp only [attempt, ha] at h
      have hnext := hstep applied a as s b t rfl hinv ha
      rw [List.append_cons] at hstep ⊢
      exact ih hstep hnext h

end Compensation

/-- Some cells of a store and what they held. -/
abbrev Snapshot (κ α : Type) := List (κ × α)

namespace Snapshot
variable {κ α : Type} [DecidableEq κ] {keys : List κ} {old now : κ → α} {k : κ}

/-- Writes the cells back, in order. -/
def restore : Snapshot κ α → (κ → α) → κ → α
  | [], cells => cells
  | (k, v) :: rest, cells => restore rest (Function.update cells k v)

def taken (keys : List κ) (cells : κ → α) : Snapshot κ α := keys.map fun k => (k, cells k)

theorem restore_taken (keys : List κ) (old now : κ → α) (k : κ) :
    (taken keys old).restore now k = if k ∈ keys then old k else now k := by
  induction keys generalizing now with
  | nil => rfl
  | cons key keys ih =>
    rw [taken, List.map_cons, restore, ← taken, ih]
    by_cases hk : k = key
    · simp [hk]
    · simp [hk]

theorem restore_taken_mem (h : k ∈ keys) : (taken keys old).restore now k = old k := by
  rw [restore_taken, if_pos h]

/-- A cell that was not taken keeps what it holds. -/
theorem restore_taken_frame (h : k ∉ keys) : (taken keys old).restore now k = now k := by
  rw [restore_taken, if_neg h]

/-- Undoes writes to the cells that were taken. -/
theorem restore_taken_undo (h : ∀ k ∉ keys, now k = old k) : (taken keys old).restore now = old := by
  funext k
  by_cases hk : k ∈ keys
  · exact restore_taken_mem hk
  · rw [restore_taken_frame hk, h k hk]

end Snapshot

end CheetahMedia.Lib
