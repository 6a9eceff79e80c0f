import Mathlib.Data.Nat.Basic

namespace CheetahMedia.Lib.Slots
variable {σ : Type}

/-- The newest of the first `n` positions that shares its slot with position `p`. -/
def newest (size n p : Nat) : Nat := p + size * ((n - 1 - p) / size)

theorem le_newest : p ≤ newest size n p := Nat.le_add_right _ _

theorem newest_mod : newest size n p % size = p % size := Nat.add_mul_mod_self_left _ _ _

theorem newest_lt (h : p < n) : newest size n p < n := by
  have := Nat.mul_div_le (n - 1 - p) size
  unfold newest
  omega

theorem newest_recent (hsize : 0 < size) (h : p < n) : n ≤ newest size n p + size := by
  have := Nat.lt_mul_div_succ (n - 1 - p) hsize
  rw [Nat.mul_add] at this
  unfold newest
  omega

theorem newest_of_recent (hsize : 0 < size) (h : n ≤ p + size) : newest size n p = p := by
  rw [newest, Nat.div_eq_of_lt (by omega), Nat.mul_zero, Nat.add_zero]

/-- Entry `p` is in slot `p % size` until its slot is written again. -/
structure Holds (empty : σ) (slots entries : List σ) : Prop where
  kept : ∀ p, p < entries.length → entries.length ≤ p + slots.length →
    slots[p % slots.length]? = entries[p]?
  fresh : ∀ i, entries.length ≤ i → i < slots.length → slots[i]? = some empty

namespace Holds
variable {empty : σ} {slots entries : List σ}

theorem init (size : Nat) : Holds empty (List.replicate size empty) [] where
  kept p h := absurd h (Nat.not_lt_zero p)
  fresh i _ h := by
    rw [List.length_replicate] at h
    simp [h]

theorem push (h : Holds empty slots entries) (hsize : 0 < slots.length) (entry : σ) :
    Holds empty (slots.set (entries.length % slots.length) entry) (entries ++ [entry]) where
  kept p hp hrecent := by
    simp only [List.length_set, List.length_append, List.length_singleton] at hp hrecent ⊢
    have hslot : entries.length % slots.length < slots.length := Nat.mod_lt _ hsize
    rcases Nat.lt_succ_iff_lt_or_eq.mp hp with hold | rfl
    · have hne : entries.length % slots.length ≠ p % slots.length := by
        intro heq
        have hzero := Nat.sub_mod_eq_zero_of_mod_eq heq
        rw [Nat.mod_eq_of_lt (by omega)] at hzero
        omega
      rw [List.getElem?_set_ne hne, List.getElem?_append_left hold]
      exact h.kept p hold (by omega)
    · rw [List.getElem?_set_self hslot]
      simp
  fresh i hi hlt := by
    simp only [List.length_set, List.length_append, List.length_singleton] at hi hlt
    have hmod : entries.length % slots.length = entries.length := Nat.mod_eq_of_lt (by omega)
    rw [hmod, List.getElem?_set_ne (by omega)]
    exact h.fresh i (by omega) hlt

/-- A position that was overwritten shows what overwrote it. -/
theorem read (h : Holds empty slots entries) (hsize : 0 < slots.length) (hp : p < entries.length) :
    slots[p % slots.length]? = entries[newest slots.length entries.length p]? := by
  have hkept := h.kept _ (newest_lt hp) (newest_recent hsize hp)
  rwa [newest_mod] at hkept

end Holds

/-- A search from the last position downwards. -/
def findBack (pred : Nat → Bool) (start stop : Nat) : Option Nat :=
  (List.range' start (stop - start)).reverse.find? pred

theorem findBack_none : findBack pred start stop = none ↔
    ∀ p, start ≤ p → p < stop → pred p = false := by
  simp only [findBack, List.find?_eq_none, List.mem_reverse, List.mem_range'_1]
  constructor
  · intro h p hstart hstop
    simpa using h p ⟨hstart, by omega⟩
  · intro h p hp
    simpa using h p hp.1 (by omega)

/-- The position found is the last one. -/
theorem findBack_some (h : findBack pred start stop = some p) :
    start ≤ p ∧ p < stop ∧ pred p = true ∧ ∀ q, p < q → q < stop → pred q = false := by
  obtain ⟨hp, before, after, heq, hnone⟩ := List.find?_eq_some_iff_append.mp h
  have hrange : List.range' start (stop - start) = after.reverse ++ p :: before.reverse := by
    rw [← List.reverse_inj, heq]
    simp
  have hmem : p ∈ List.range' start (stop - start) := by simp [hrange]
  rw [List.mem_range'_1] at hmem
  refine ⟨hmem.1, by omega, hp, fun q hpq hq => ?_⟩
  have hsorted := List.pairwise_lt_range' (s := start) (n := stop - start)
  rw [hrange] at hsorted
  have hqmem : q ∈ List.range' start (stop - start) := List.mem_range'_1.mpr ⟨by omega, by omega⟩
  rw [hrange] at hqmem
  obtain ⟨-, -, hacross⟩ := List.pairwise_append.mp hsorted
  rcases List.mem_append.mp hqmem with hq | hq
  · have := hacross q hq p List.mem_cons_self
    omega
  · rcases List.mem_cons.mp hq with rfl | hq
    · omega
    · simpa using hnone q (List.mem_reverse.mp hq)

/-- The entries from a position on, read one by one. -/
theorem filterMap_range (entries : List σ) (start : Nat) :
    (List.range' start (entries.length - start)).filterMap (entries[·]?) = entries.drop start := by
  generalize hn : entries.length - start = n
  induction n generalizing start with
  | zero =>
    rw [List.drop_of_length_le (by omega)]
    rfl
  | succ n ih =>
    have hlt : start < entries.length := by omega
    rw [List.range'_succ, List.drop_eq_getElem_cons hlt, ← ih (start + 1) (by omega)]
    simp [hlt]

end CheetahMedia.Lib.Slots
