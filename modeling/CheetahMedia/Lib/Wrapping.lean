import Mathlib.Algebra.Order.Ring.Abs
import Mathlib.Data.Int.ModEq
import Mathlib.Tactic.Linarith
import Mathlib.Tactic.Ring

namespace CheetahMedia.Lib

/-- Two counts less than a period apart: their readings differ by as much, or one of them is
read after the counter has started again. -/
theorem emod_cases {t u P : Int} (hstep : |u - t| < P) :
    (u % P - t % P = u - t ∧ u / P = t / P) ∨
    (u % P - t % P = u - t - P ∧ u / P = t / P + 1) ∨
    (u % P - t % P = u - t + P ∧ u / P = t / P - 1) := by
  have hP : 0 < P := (abs_nonneg _).trans_lt hstep
  obtain ⟨hlow, hhigh⟩ := abs_lt.mp hstep
  have ht := Int.emod_add_mul_ediv t P
  have hu := Int.emod_add_mul_ediv u P
  have ht0 := Int.emod_nonneg t hP.ne'
  have hu0 := Int.emod_nonneg u hP.ne'
  have htP := Int.emod_lt_of_pos t hP
  have huP := Int.emod_lt_of_pos u hP
  have hdiff : P * (u / P - t / P) = (u - t) - (u % P - t % P) := by rw [mul_sub]; omega
  have hle : u / P - t / P ≤ 1 := by nlinarith
  have hge : -1 ≤ u / P - t / P := by nlinarith
  obtain h | h | h : u / P - t / P = 0 ∨ u / P - t / P = 1 ∨ u / P - t / P = -1 := by omega
  · rw [h] at hdiff
    left
    omega
  · rw [h] at hdiff
    right; left
    omega
  · rw [h] at hdiff
    right; right
    omega

/-- Whole periods, cut at a multiple of the period, leave room for a reading. -/
theorem emod_add_reading {P M r : Int} (hdvd : P ∣ M) (hM : 0 < M) (hr0 : 0 ≤ r) (hrP : r < P)
    (c : Int) : P * c % M + r = (P * c + r) % M := by
  obtain ⟨k, rfl⟩ := hdvd
  have hP : 0 < P := hr0.trans_lt hrP
  have hk : 0 < k := pos_of_mul_pos_right hM hP.le
  have hlt : c % k + 1 ≤ k := Int.emod_lt_of_pos c hk
  have hc0 := mul_nonneg hP.le (Int.emod_nonneg c hk.ne')
  have hbound : P * (c % k) + r < P * k := by nlinarith
  rw [← Int.emod_add_emod, Int.mul_emod_mul_of_pos _ _ hP,
    Int.emod_eq_of_lt (by omega) hbound]

/-- A word of `M` values counts on and back. -/
theorem coe_add_mod {x p M : Nat} {a : Int} (hx : (x : Int) = a % M) :
    (((x + p) % M : Nat) : Int) = (a + p) % M := by
  rw [Int.natCast_emod, Int.natCast_add, hx, Int.emod_add_emod]

theorem coe_sub_mod {x p M : Nat} {a : Int} (hx : (x : Int) = a % M) (hp : p ≤ M) :
    (((x + (M - p)) % M : Nat) : Int) = (a - p) % M := by
  rw [coe_add_mod hx, Int.natCast_sub hp, show a + ((M : Int) - p) = a - p + M by ring,
    Int.add_emod_right]

/-- Each count is less than half a period away from the one before it. -/
def Smooth (P : Int) (ts : List Int) : Prop := ts.IsChain fun t u => 2 * |u - t| < P

end CheetahMedia.Lib
