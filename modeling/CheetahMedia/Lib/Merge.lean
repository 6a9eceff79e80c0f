import Mathlib.Data.List.Basic
import Mathlib.Order.Defs.PartialOrder

namespace CheetahMedia.Lib

/-- Queues are emptied from their heads, always the one whose head has the least key. -/
inductive Merges {α κ : Type} [LE κ] (key : Nat → α → κ) : List (List α) → List (Nat × α) → Prop
  | done (hempty : ∀ q ∈ queues, q = []) : Merges key queues []
  | next (hhead : queues[i]? = some (a :: rest))
      (hleast : ∀ j b q, queues[j]? = some (b :: q) → key i a ≤ key j b)
      (hrest : Merges key (queues.set i rest) out) : Merges key queues ((i, a) :: out)

namespace Merges
variable {α κ : Type} {key : Nat → α → κ} {queues : List (List α)} {out : List (Nat × α)}

/-- What comes of a queue is the queue. -/
theorem queue [LE κ] (h : Merges key queues out) (hq : queues[j]? = some q) :
    (out.filter (·.1 = j)).map (·.2) = q := by
  induction h generalizing q with
  | done hempty =>
    rw [hempty q (List.mem_of_getElem? hq)]
    rfl
  | @next queues i a rest out hhead hleast hrest ih =>
    by_cases hij : i = j
    · subst hij
      rw [hhead] at hq
      obtain rfl := Option.some.inj hq
      have hset : (queues.set i rest)[i]? = some rest :=
        List.getElem?_set_self (List.getElem?_eq_some_iff.mp hhead).1
      rw [List.filter_cons_of_pos (by simp), List.map_cons, ih hset]
    · rw [List.filter_cons_of_neg (by simpa using hij)]
      apply ih
      rwa [List.getElem?_set_ne hij]

/-- Nothing else comes of them. -/
theorem mem [LE κ] (h : Merges key queues out) (hx : x ∈ out) :
    ∃ q, queues[x.1]? = some q ∧ x.2 ∈ q := by
  induction h with
  | done => cases hx
  | @next queues i a rest out hhead hleast hrest ih =>
    rcases List.mem_cons.mp hx with rfl | hx
    · exact ⟨_, hhead, List.mem_cons_self ..⟩
    · obtain ⟨q, hq, hmem⟩ := ih hx
      by_cases hij : i = x.1
      · subst hij
        rw [List.getElem?_set_self (List.getElem?_eq_some_iff.mp hhead).1] at hq
        obtain rfl := Option.some.inj hq
        exact ⟨_, hhead, List.mem_cons_of_mem _ hmem⟩
      · rw [List.getElem?_set_ne hij] at hq
        exact ⟨q, hq, hmem⟩

/-- Of queues in order comes a list in order. -/
theorem sorted [Preorder κ] (h : Merges key queues out)
    (hqueues : ∀ (i : Nat) (q : List α), queues[i]? = some q → q.Pairwise (key i · ≤ key i ·)) :
    out.Pairwise fun x y => key x.1 x.2 ≤ key y.1 y.2 := by
  induction h with
  | done => exact .nil
  | @next queues i a rest out hhead hleast hrest ih =>
    have hset (j : Nat) (q : List α) (hq : (queues.set i rest)[j]? = some q) :
        q.Pairwise (key j · ≤ key j ·) := by
      by_cases hij : i = j
      · subst hij
        rw [List.getElem?_set_self (List.getElem?_eq_some_iff.mp hhead).1] at hq
        exact Option.some.inj hq ▸ (List.pairwise_cons.mp (hqueues i _ hhead)).2
      · rw [List.getElem?_set_ne hij] at hq
        exact hqueues j q hq
    refine List.pairwise_cons.mpr ⟨fun y hy => ?_, ih hset⟩
    obtain ⟨q, hq, hmem⟩ := hrest.mem hy
    by_cases hij : i = y.1
    · subst hij
      rw [List.getElem?_set_self (List.getElem?_eq_some_iff.mp hhead).1] at hq
      obtain rfl := Option.some.inj hq
      exact (List.pairwise_cons.mp (hqueues _ _ hhead)).1 y.2 hmem
    · rw [List.getElem?_set_ne hij] at hq
      cases q with
      | nil => cases hmem
      | cons b q =>
        have hfirst := hleast y.1 b q hq
        rcases List.mem_cons.mp hmem with heq | hlater
        · rwa [heq]
        · exact le_trans hfirst ((List.pairwise_cons.mp (hqueues _ _ hq)).1 y.2 hlater)

end Merges
end CheetahMedia.Lib
