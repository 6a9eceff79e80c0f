import Mathlib.Data.List.Basic

namespace CheetahMedia.Lib.BinarySearch
variable {α : Type} {cmp : α → Ordering} {l : List α}

/-- The part of `size` elements from `base` on is halved. There is no early exit on an element
that is equal. -/
def narrow (cmp : α → Ordering) (l : List α) : Nat → Nat → Nat → Nat
  | 0, _, base => base
  | passes + 1, size, base =>
    if size ≤ 1 then base
    else
      let half := size / 2
      let mid := base + half
      narrow cmp l passes (size - half) (if (l[mid]?.map cmp) = some .gt then base else mid)

/-- `binary_search_by`: the place of an equal element, or that at which one could be put. -/
def binarySearchBy (cmp : α → Ordering) (l : List α) : Except Nat Nat :=
  let base := narrow cmp l l.length l.length 0
  match l[base]?.map cmp with
  | none => .error 0
  | some .eq => .ok base
  | some .lt => .error (base + 1)
  | some .gt => .error base

/-- The list first has what is not greater than what is searched, then what is. -/
def Ascending (cmp : α → Ordering) (l : List α) : Prop :=
  l.Pairwise fun a b => cmp a = .gt → cmp b = .gt

theorem Ascending.gt {i j : Nat} (h : Ascending cmp l) (hi : l[i]? = some a) (hgt : cmp a = .gt)
    (hle : i ≤ j) (hj : l[j]? = some b) : cmp b = .gt := by
  rcases Nat.lt_or_eq_of_le hle with hlt | rfl
  · obtain ⟨hi', rfl⟩ := List.getElem?_eq_some_iff.mp hi
    obtain ⟨hj', rfl⟩ := List.getElem?_eq_some_iff.mp hj
    exact List.pairwise_iff_getElem.mp h i j hi' hj' hlt hgt
  · rw [hi] at hj
    cases hj
    exact hgt

/-- What is greater lies behind the part that is left, and what starts it is not greater unless
nothing is known of it. -/
structure Narrowed (cmp : α → Ordering) (l : List α) (size base : Nat) : Prop where
  inside : base + size ≤ l.length
  above : ∀ j b, base + size ≤ j → l[j]? = some b → cmp b = .gt
  below : base = 0 ∨ ∃ a, l[base]? = some a ∧ cmp a ≠ .gt

theorem Narrowed.narrow (h : Narrowed cmp l size base) (hasc : Ascending cmp l) (hsize : 0 < size)
    (hpasses : size ≤ passes) : Narrowed cmp l 1 (narrow cmp l passes size base) := by
  induction passes generalizing size base with
  | zero => omega
  | succ passes ih =>
    rw [BinarySearch.narrow]
    split
    · rwa [show size = 1 by omega] at h
    · have hinside := h.inside
      have hmid : base + size / 2 < l.length := by omega
      obtain ⟨a, ha⟩ : ∃ a, l[base + size / 2]? = some a :=
        ⟨_, List.getElem?_eq_getElem hmid⟩
      refine ih ?_ (by omega) (by omega)
      rw [ha, Option.map_some]
      split
      · rename_i hgt
        refine ⟨by omega, fun j b hj hb => ?_, h.below⟩
        exact Ascending.gt hasc ha (Option.some.inj hgt) (by omega) hb
      · rename_i hgt
        refine ⟨by omega, fun j b hj hb => h.above j b (by omega) hb, .inr ⟨a, ha, ?_⟩⟩
        exact fun heq => hgt (congrArg some heq)

/-- The search ends at the last element that is not greater, if there is one. -/
theorem narrowed (hasc : Ascending cmp l) (hne : l ≠ []) :
    Narrowed cmp l 1 (narrow cmp l l.length l.length 0) := by
  refine Narrowed.narrow ⟨by omega, fun j b hj hb => ?_, .inl rfl⟩ hasc
    (List.length_pos_of_ne_nil hne) (Nat.le_refl _)
  rw [List.getElem?_eq_none (by omega)] at hb
  cases hb

/-- An element that is found is the last that is equal. Where none is found, what is before the
place is not greater, and the rest is. -/
theorem binarySearchBy_spec (hasc : Ascending cmp l) :
    match binarySearchBy cmp l with
    | .ok i => (∃ a, l[i]? = some a ∧ cmp a = .eq) ∧
        ∀ j a, i < j → l[j]? = some a → cmp a = .gt
    | .error i => i ≤ l.length ∧ (∀ j a, j < i → l[j]? = some a → cmp a ≠ .gt) ∧
        ∀ j a, i ≤ j → l[j]? = some a → cmp a = .gt := by
  rcases l.eq_nil_or_concat with rfl | ⟨front, last, hl⟩
  · exact ⟨Nat.le_refl _, nofun, nofun⟩
  have hn := narrowed hasc (l := l) (by rw [hl]; simp)
  unfold binarySearchBy
  obtain ⟨hinside, habove, hbelow⟩ := hn
  generalize narrow cmp l l.length l.length 0 = base at hinside habove hbelow ⊢
  have hget : l[base]? = some l[base] := List.getElem?_eq_getElem (by omega)
  have hbefore (hnot : cmp l[base] ≠ .gt) (j : Nat) (a : α) (hj : j < base + 1)
      (ha : l[j]? = some a) : cmp a ≠ .gt :=
    fun hgt => hnot (Ascending.gt hasc ha hgt (by omega) hget)
  simp only [hget, Option.map_some]
  cases hcmp : cmp l[base] with
  | lt => exact ⟨hinside, hbefore (by rw [hcmp]; nofun), habove⟩
  | eq => exact ⟨⟨_, hget, hcmp⟩, fun j a hj => habove j a hj⟩
  | gt =>
    -- only the first element can be greater
    have hzero : base = 0 := by
      rcases hbelow with hzero | ⟨a, ha, hnot⟩
      · exact hzero
      · rw [hget, Option.some.injEq] at ha
        exact absurd (ha ▸ hcmp) hnot
    refine ⟨by omega, fun j a hj => by omega, fun j a hj ha => ?_⟩
    exact Ascending.gt hasc hget hcmp hj ha

end CheetahMedia.Lib.BinarySearch
