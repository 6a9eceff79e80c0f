import Mathlib.Data.List.Basic

namespace CheetahMedia.Lib

/-- A value and the number of times that it stands in a row. -/
abbrev Run (α : Type) := Nat × α

namespace RunLength
variable {α : Type}

/-- The values that the runs stand for. -/
def expand (runs : List (Run α)) : List α := runs.flatMap fun r => List.replicate r.1 r.2

@[simp] theorem expand_nil : expand ([] : List (Run α)) = [] := rfl

@[simp] theorem expand_cons (n : Nat) (a : α) (runs : List (Run α)) :
    expand ((n, a) :: runs) = List.replicate n a ++ expand runs := rfl

theorem mem_expand (h : a ∈ expand runs) : ∃ r ∈ runs, r.2 = (a : α) := by
  obtain ⟨r, hr, ha⟩ := List.mem_flatMap.mp h
  exact ⟨r, hr, (List.eq_of_mem_replicate ha).symm⟩

/-- A place in a list of runs: what is left of the run at hand and the runs after it. -/
structure Cursor (α : Type) where
  remaining : Nat
  value : α
  rest : List (Run α)

namespace Cursor

/-- The start of a list of runs, before which an empty run of `value` is put. -/
def start (value : α) : List (Run α) → Cursor α
  | [] => ⟨0, value, []⟩
  | (n, a) :: rest => ⟨n, a, rest⟩

/-- The values that are still to be read. -/
def pending (c : Cursor α) : List α := List.replicate c.remaining c.value ++ expand c.rest

/-- The next run that is not empty. When there is none, the run of `spent` takes its place. -/
def refill (spent : α → Run α) (remaining : Nat) (value : α) : List (Run α) → Cursor α
  | [] =>
    if remaining = 0 then ⟨(spent value).1, (spent value).2, []⟩ else ⟨remaining, value, []⟩
  | (n, a) :: rest =>
    if remaining = 0 then refill spent n a rest else ⟨remaining, value, (n, a) :: rest⟩

/-- One value is read. -/
def next (spent : α → Run α) (c : Cursor α) : α × Cursor α :=
  let c := refill spent c.remaining c.value c.rest
  (c.value, { c with remaining := c.remaining - 1 })

@[simp] theorem pending_start (value : α) (runs : List (Run α)) :
    (start value runs).pending = expand runs := by
  cases runs with
  | nil => rfl
  | cons r rest => rfl

/-- Empty runs are passed over, and nothing else. -/
theorem refill_pending (spent : α → Run α) {rest : List (Run α)}
    (h : List.replicate n v ++ expand rest = a :: as) :
    (refill spent n v rest).value = a ∧
      List.replicate ((refill spent n v rest).remaining - 1) a ++
        expand (refill spent n v rest).rest = as := by
  induction rest generalizing n v with
  | nil =>
    cases n with
    | zero => cases h
    | succ n =>
      rw [List.replicate_succ, List.cons_append, List.cons.injEq] at h
      obtain ⟨rfl, hrest⟩ := h
      exact ⟨rfl, hrest⟩
  | cons r rest ih =>
    cases n with
    | zero => exact ih h
    | succ n =>
      rw [List.replicate_succ, List.cons_append, List.cons.injEq] at h
      obtain ⟨rfl, hrest⟩ := h
      exact ⟨rfl, hrest⟩

/-- As long as values are pending, the next of them is read. -/
theorem next_of_pending (spent : α → Run α) {c : Cursor α} (h : c.pending = a :: as) :
    (c.next spent).1 = a ∧ (c.next spent).2.pending = as := by
  obtain ⟨hvalue, hrest⟩ := refill_pending spent h
  refine ⟨hvalue, ?_⟩
  show List.replicate _ (refill spent c.remaining c.value c.rest).value ++ expand _ = as
  rw [hvalue]
  exact hrest

end Cursor

end RunLength
end CheetahMedia.Lib
