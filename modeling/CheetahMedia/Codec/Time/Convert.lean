import CheetahMedia.Codec.Time
import Mathlib.Data.Int.Order.Lemmas
import Mathlib.Tactic.Linarith
import Mathlib.Tactic.Ring

namespace CheetahMedia.Codec
open Lib Lib.Checked

namespace Timebase

structure Valid (tb : Timebase) : Prop where
  num : 0 < tb.num
  den : 0 < tb.den

/-- The microseconds of a value before they are cut to 64 bits. -/
def micros (tb : Timebase) (value : Int) : Int :=
  (value * tb.num * 1000000).tdiv (max tb.den 1)

/-- The ticks of microseconds before they are cut to 64 bits. -/
def ticks (tb : Timebase) (us : Int) : Int := (us * tb.den).tdiv (max tb.num 1 * 1000000)

variable {tb src dst : Timebase} {v u : Int}

theorem toMicros_eq (hfits : IsI64 (tb.micros v)) : tb.toMicros v = tb.micros v :=
  asI64_of_isI64 hfits

theorem fromMicros_eq (hfits : IsI64 (tb.ticks u)) : tb.fromMicros u = tb.ticks u :=
  asI64_of_isI64 hfits

theorem micros_mono (h : v ≤ u) : tb.micros v ≤ tb.micros u := by
  refine Int.tdiv_le_tdiv (by omega) ?_
  have := Int.mul_le_mul_of_nonneg_right h (Int.natCast_nonneg tb.num)
  omega

theorem ticks_mono (h : v ≤ u) : tb.ticks v ≤ tb.ticks u :=
  Int.tdiv_le_tdiv (by omega) (Int.mul_le_mul_of_nonneg_right h (Int.natCast_nonneg tb.den))

@[simp] theorem micros_neg : tb.micros (-v) = -tb.micros v := by
  unfold micros
  rw [Int.neg_mul, Int.neg_mul, Int.neg_tdiv]

@[simp] theorem ticks_neg : tb.ticks (-u) = -tb.ticks u := by
  unfold ticks
  rw [Int.neg_mul, Int.neg_tdiv]

/-- A count of microseconds in one tick of the timebase, times its denominator. -/
def scale (tb : Timebase) : Int := tb.num * 1000000

theorem Valid.scale_pos (h : tb.Valid) : 0 < tb.scale := by
  have := h.num
  unfold scale
  omega

/-- The rounding of a value that is not negative: down, once to microseconds and once to
ticks. -/
structure RoundsDown (tb : Timebase) (v r : Int) : Prop where
  nonneg : 0 ≤ r
  le : r ≤ v
  near : (v - r) * tb.scale < tb.den + tb.scale
  exact : r = v ↔ (tb.den : Int) ∣ v * tb.scale

theorem Valid.roundsDown (h : tb.Valid) (hv : 0 ≤ v) :
    tb.RoundsDown v (tb.ticks (tb.micros v)) := by
  have hden : (0 : Int) < tb.den := by have := h.den; omega
  have hscale := h.scale_pos
  have hmax : (max tb.den 1 : Int) = tb.den := by omega
  have hmaxNum : ((max tb.num 1 : Nat) : Int) * 1000000 = tb.scale := by
    have := h.num
    unfold scale
    omega
  have hq : tb.micros v = v * tb.scale / tb.den := by
    unfold micros scale
    rw [Int.tdiv_eq_ediv_of_nonneg (by positivity), hmax, mul_assoc]
  have hq0 : 0 ≤ tb.micros v := by
    rw [hq]
    exact Int.ediv_nonneg (mul_nonneg hv hscale.le) hden.le
  have hr : tb.ticks (tb.micros v) = tb.micros v * tb.den / tb.scale := by
    unfold ticks
    rw [Int.tdiv_eq_ediv_of_nonneg (by positivity), hmaxNum]
  have hqden := Int.emod_add_mul_ediv (v * tb.scale) tb.den
  have hqlow := Int.emod_nonneg (v * tb.scale) hden.ne'
  have hqhigh := Int.emod_lt_of_pos (v * tb.scale) hden
  rw [← hq] at hqden
  have hrscale := Int.emod_add_mul_ediv (tb.micros v * tb.den) tb.scale
  have hrlow := Int.emod_nonneg (tb.micros v * tb.den) hscale.ne'
  have hrhigh := Int.emod_lt_of_pos (tb.micros v * tb.den) hscale
  rw [← hr] at hrscale
  refine ⟨?_, ?_, by nlinarith, ?_, ?_⟩
  · rw [hr]
    exact Int.ediv_nonneg (mul_nonneg hq0 hden.le) hscale.le
  · by_contra hlt
    nlinarith
  · intro heq
    rw [heq] at hrscale
    refine Int.dvd_of_emod_eq_zero ?_
    nlinarith
  · intro hdvd
    rw [hr, hq, Int.ediv_mul_cancel hdvd, Int.mul_ediv_cancel _ hscale.ne']

/-- Between equal timebases a value is cut toward zero, by less than a microsecond and a tick,
and stays as it is where it is a whole number of microseconds. -/
structure Truncates (tb : Timebase) (v r : Int) : Prop where
  ofNonneg : 0 ≤ v → 0 ≤ r ∧ r ≤ v
  ofNonpos : v ≤ 0 → v ≤ r ∧ r ≤ 0
  near : |v - r| * tb.scale < tb.den + tb.scale
  exact : r = v ↔ (tb.den : Int) ∣ v * tb.scale

theorem RoundsDown.truncates (h : tb.RoundsDown v r) : tb.Truncates v r where
  ofNonneg _ := ⟨h.nonneg, h.le⟩
  ofNonpos hv := by have := h.nonneg; have := h.le; omega
  near := by
    rw [abs_of_nonneg (sub_nonneg.mpr h.le)]
    exact h.near
  exact := h.exact

theorem Truncates.neg (h : tb.Truncates v r) : tb.Truncates (-v) (-r) where
  ofNonneg hv := by have := h.ofNonpos (by omega); omega
  ofNonpos hv := by have := h.ofNonneg (by omega); omega
  near := by
    rw [show -v - -r = -(v - r) by ring, abs_neg]
    exact h.near
  exact := by
    rw [neg_inj, neg_mul, dvd_neg]
    exact h.exact

theorem Valid.truncates (h : tb.Valid) (v : Int) :
    tb.Truncates v (tb.ticks (tb.micros v)) := by
  rcases le_total 0 v with hv | hv
  · exact (h.roundsDown hv).truncates
  · have hneg := (h.roundsDown (neg_nonneg.mpr hv)).truncates.neg
    simpa using hneg

/-- Where the microseconds and the ticks are words of 64 bits. -/
def Fits (src dst : Timebase) (v : Int) : Prop :=
  IsI64 (src.micros v) ∧ IsI64 (dst.ticks (src.micros v))

theorem convert_eq (h : src.Fits dst v) :
    TimebaseConverter.convert v src dst = dst.ticks (src.micros v) := by
  unfold TimebaseConverter.convert
  rw [toMicros_eq h.1, fromMicros_eq h.2]

theorem Valid.fits (h : tb.Valid) (hv : IsI64 v) (hus : IsI64 (tb.micros v)) :
    tb.Fits tb v :=
  have ht := h.truncates v
  ⟨hus, hv.of_between ht.ofNonneg ht.ofNonpos⟩

/-- A conversion between equal timebases cuts toward zero, and a conversion between any two
keeps the order, where nothing is cut to 64 bits. -/
theorem convert_truncates_and_mono :
    (∀ (tb : Timebase) v, tb.Valid → IsI64 v → IsI64 (tb.micros v) →
      tb.Truncates v (TimebaseConverter.convert v tb tb)) ∧
    (∀ (src dst : Timebase) v u, src.Fits dst v → src.Fits dst u → v ≤ u →
      TimebaseConverter.convert v src dst ≤ TimebaseConverter.convert u src dst) := by
  constructor
  · intro tb v htb hv hus
    rw [convert_eq (htb.fits hv hus)]
    exact htb.truncates v
  · intro src dst v u hv hu hle
    rw [convert_eq hv, convert_eq hu]
    exact ticks_mono (micros_mono hle)

theorem convert_truncates_and_mono_video :
    TimebaseConverter.convert 1 ⟨1, 90000⟩ ⟨1, 90000⟩ = 0 ∧
    TimebaseConverter.convert (-9) ⟨1, 90000⟩ ⟨1, 90000⟩ = -9 ∧
    TimebaseConverter.convert 1 ⟨1, 90000⟩ ⟨1, 1000⟩ ≤
      TimebaseConverter.convert 180 ⟨1, 90000⟩ ⟨1, 1000⟩ := by
  have h := convert_truncates_and_mono
  refine ⟨by decide, ((h.1 ⟨1, 90000⟩ (-9) ⟨by decide, by decide⟩ (by decide)
    (by decide)).exact).mpr (by decide), ?_⟩
  exact h.2 ⟨1, 90000⟩ ⟨1, 1000⟩ 1 180 (by unfold Fits; decide) (by unfold Fits; decide)
    (by decide)

/-- One tick of a video clock is eleven microseconds and a ninth; from eleven microseconds no
tick comes back. A value whose microseconds are no word comes back below a smaller one. -/
theorem not_convert_lossless :
    ¬ (∀ (tb : Timebase) v, tb.Valid → IsI64 v → IsI64 (tb.micros v) →
        TimebaseConverter.convert v tb tb = v) ∧
    ¬ (∀ (src dst : Timebase) v u, src.Valid → dst.Valid → IsI64 v → IsI64 u → v ≤ u →
        TimebaseConverter.convert v src dst ≤ TimebaseConverter.convert u src dst) := by
  constructor
  · intro h
    have htick := h ⟨1, 90000⟩ 1 ⟨by decide, by decide⟩ (by decide) (by decide)
    revert htick
    decide
  · intro h
    have hword := h ⟨1, 1⟩ ⟨1, 1⟩ 0 (2 ^ 63 - 1) ⟨by decide, by decide⟩ ⟨by decide, by decide⟩
      (by decide) (by decide) (by decide)
    revert hword
    decide

end Timebase
end CheetahMedia.Codec
