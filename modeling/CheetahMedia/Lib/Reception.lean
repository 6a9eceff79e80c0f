import Mathlib.Order.Lattice
import Mathlib.Algebra.Order.Group.Int

namespace CheetahMedia.Lib.Reception

/-! Statistics over the packets that arrived, in the order they came. A packet goes by the number
its sender counts it under, of which the wire shows the low bits only. -/

def highest : List Int → Int
  | [] => 0
  | first :: rest => rest.foldl max first

/-- The numbers from the first that arrived to the highest. -/
def expected : List Int → Int
  | [] => 0
  | first :: rest => highest (first :: rest) - first + 1

/-- What is missing; duplicates make up for packets that are. -/
def lost (arrived : List Int) : Int := expected arrived - arrived.length

/-- The highest number, with the cycles counted from the first arrival on. -/
def extendedHighest (period : Int) (arrived : List Int) : Int :=
  let first := arrived.head?.getD 0
  highest arrived - (first - first % period)

/-- The share of the packets expected since `before` that did not arrive, in 256ths. -/
def fraction (before arrived : List Int) : Int :=
  let expectedInterval := expected arrived - expected before
  let receivedInterval : Int := arrived.length - before.length
  let lostInterval := expectedInterval - receivedInterval
  if expectedInterval = 0 ∨ lostInterval ≤ 0 then 0 else lostInterval * 256 / expectedInterval

/-- Each packet is at most half a period away from the highest number before it. -/
def Near (half : Int) (arrived : List Int) : Prop :=
  ∀ before n after, arrived = before ++ n :: after → before ≠ [] →
    highest before - half < n ∧ n ≤ highest before + half

theorem highest_snoc (h : ns ≠ []) (n : Int) : highest (ns ++ [n]) = max (highest ns) n := by
  obtain ⟨first, rest, rfl⟩ := List.exists_cons_of_ne_nil h
  rw [List.cons_append, highest, highest, List.foldl_append]
  rfl

theorem expected_snoc (h : ns ≠ []) (n : Int) :
    expected (ns ++ [n]) = expected ns + (max (highest ns) n - highest ns) := by
  obtain ⟨first, rest, rfl⟩ := List.exists_cons_of_ne_nil h
  have hsnoc := highest_snoc h n
  rw [List.cons_append] at hsnoc ⊢
  rw [expected, expected, hsnoc]
  omega

theorem Near.init (h : Near half (ns ++ [n])) : Near half ns := by
  rintro before m after rfl hne
  exact h before m (after ++ [n]) (by simp) hne

theorem Near.last (h : Near half (ns ++ [n])) (hne : ns ≠ []) :
    highest ns - half < n ∧ n ≤ highest ns + half :=
  h ns n [] rfl hne

end CheetahMedia.Lib.Reception
