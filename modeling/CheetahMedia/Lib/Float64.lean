import Mathlib.Data.Nat.Log
import Mathlib.Tactic.Positivity
import Mathlib.Tactic.Ring

namespace CheetahMedia.Lib

/-- A double-precision number, kept as its 64 bits: equality tells apart what a
copy through a byte string can tell apart, signed zeros and NaN payloads included. -/
structure F64 where
  bits : UInt64

namespace F64

def negative (x : F64) : Bool := x.bits.toNat / 2 ^ 63 = 1
def exponent (x : F64) : Nat := x.bits.toNat / 2 ^ 52 % 2 ^ 11
def fraction (x : F64) : Nat := x.bits.toNat % 2 ^ 52

def isFinite (x : F64) : Bool := x.exponent ≠ 2047
def isNaN (x : F64) : Bool := x.exponent = 2047 ∧ x.fraction ≠ 0

/-- The smallest subnormal number is two to the minus this. -/
def scale : Nat := 1074

/-- One in units of the smallest subnormal number. -/
def one : Int := 2 ^ scale

/-- The magnitude of a finite number in units of the smallest subnormal number. -/
def magnitude (x : F64) : Nat :=
  if x.exponent = 0 then x.fraction else (2 ^ 52 + x.fraction) * 2 ^ (x.exponent - 1)

/-- Every finite number is a whole number of such units. -/
def units (x : F64) : Int := if x.negative then -(x.magnitude : Int) else x.magnitude

/-- Comparison with zero ignores the sign. -/
def isZero (x : F64) : Bool := x.bits.toNat % 2 ^ 63 = 0

/-- What a failed finiteness check prints. -/
def nonFiniteText (x : F64) : String :=
  if x.isNaN then "NaN" else if x.negative then "-inf" else "inf"

def clampI64 (n : Int) : Int64 := .ofInt (max (-2 ^ 63) (min n (2 ^ 63 - 1)))

/-- The saturating cast: toward zero, the bounds for what lies beyond, zero for NaN. -/
def toI64 (x : F64) : Int64 :=
  if x.isNaN then 0
  else if x.isFinite then clampI64 (x.units.tdiv one)
  else if x.negative then clampI64 (-2 ^ 63) else clampI64 (2 ^ 63 - 1)

/-- A significand of 53 bits for a positive number, rounded half to even. A carry
out of the significand moves into the exponent when both are packed. -/
def significand (a : Nat) : Nat :=
  let e := Nat.log 2 a
  if e ≤ 52 then a * 2 ^ (52 - e)
  else
    let q := a / 2 ^ (e - 52)
    let r := a % 2 ^ (e - 52)
    if 2 ^ (e - 52) < 2 * r ∨ (2 ^ (e - 52) = 2 * r ∧ q % 2 = 1) then q + 1 else q

/-- The nearest double-precision number. -/
def ofInt (n : Int) : F64 :=
  let sign := if n < 0 then 2 ^ 63 else 0
  if n = 0 then ⟨0⟩
  else ⟨.ofNat (sign + (Nat.log 2 n.natAbs + 1023) * 2 ^ 52 +
    (significand n.natAbs - 2 ^ 52))⟩

def ofI64 (n : Int64) : F64 := ofInt n.toInt

/-- Whether `x - y` is at least, or at most, a number of units; `y` is finite. -/
def diffAtLeast (x y : F64) (bound : Int) : Bool :=
  if x.isNaN then false
  else if x.isFinite then bound ≤ x.units - y.units else !x.negative

def diffAtMost (x y : F64) (bound : Int) : Bool :=
  if x.isNaN then false
  else if x.isFinite then x.units - y.units ≤ bound else x.negative

/-- The double nearest to `n` is cast back to `n`. -/
def Exact (n : Int64) : Prop := (ofI64 n).toI64 = n

section Exact
variable {n : Int}

/-- The magnitude has no bits below a significand of 53 bits. -/
def Short (a : Nat) : Prop := 2 ^ (Nat.log 2 a - 52) ∣ a

theorem short_of_small (h : a < 2 ^ 53) : Short a := by
  by_cases h0 : a = 0
  · subst h0
    exact dvd_zero _
  · have hlog := (Nat.log_lt_iff_lt_pow (b := 2) (by decide) h0).mpr h
    have hnone : Nat.log 2 a - 52 = 0 := by omega
    rw [Short, hnone]
    exact one_dvd a

/-- Nothing is rounded away. -/
theorem significand_of_short (h : Short a) :
    significand a * 2 ^ Nat.log 2 a = a * 2 ^ 52 := by
  unfold significand
  dsimp only
  split
  · rename_i hlog
    rw [Nat.mul_assoc, ← Nat.pow_add]
    congr 2
    omega
  · rename_i hlog
    obtain ⟨q, hq⟩ := h
    have hpos : 0 < 2 ^ (Nat.log 2 a - 52) := Nat.pow_pos (by decide)
    have hquotient : a / 2 ^ (Nat.log 2 a - 52) = q := Nat.div_eq_of_eq_mul_right hpos hq
    have hrest : a % 2 ^ (Nat.log 2 a - 52) = 0 := Nat.mod_eq_zero_of_dvd ⟨q, hq⟩
    have hexact : ¬ (2 ^ (Nat.log 2 a - 52) < 2 * (a % 2 ^ (Nat.log 2 a - 52)) ∨
        (2 ^ (Nat.log 2 a - 52) = 2 * (a % 2 ^ (Nat.log 2 a - 52)) ∧
          a / 2 ^ (Nat.log 2 a - 52) % 2 = 1)) := by
      rw [hrest]
      omega
    have hsplit : Nat.log 2 a = Nat.log 2 a - 52 + 52 := by omega
    rw [if_neg hexact, hquotient]
    calc q * 2 ^ Nat.log 2 a = q * 2 ^ (Nat.log 2 a - 52 + 52) := by rw [← hsplit]
      _ = 2 ^ (Nat.log 2 a - 52) * q * 2 ^ 52 := by rw [Nat.pow_add]; ring
      _ = a * 2 ^ 52 := by rw [← hq]

theorem significand_bounds (ha : a ≠ 0) (h : Short a) :
    2 ^ 52 ≤ significand a ∧ significand a < 2 ^ 53 := by
  have hlow := Nat.pow_log_le_self 2 ha
  have hhigh := Nat.lt_pow_succ_log_self (b := 2) (by decide) a
  have hpos : 0 < 2 ^ Nat.log 2 a := Nat.pow_pos (by decide)
  have hexact := significand_of_short h
  constructor
  · apply Nat.le_of_mul_le_mul_right _ hpos
    rw [hexact, Nat.mul_comm]
    exact Nat.mul_le_mul_right _ hlow
  · apply Nat.lt_of_mul_lt_mul_right (a := 2 ^ Nat.log 2 a)
    rw [hexact]
    calc a * 2 ^ 52 < 2 ^ (Nat.log 2 a + 1) * 2 ^ 52 :=
          Nat.mul_lt_mul_of_pos_right hhigh (by decide)
      _ = 2 ^ 53 * 2 ^ Nat.log 2 a := by rw [Nat.pow_succ]; ring

/-- Short integers fill the fields without rounding. -/
theorem ofInt_fields (hn : n ≠ 0) (h : Short n.natAbs) (hlog : Nat.log 2 n.natAbs ≤ 63) :
    (ofInt n).negative = decide (n < 0) ∧ (ofInt n).exponent = Nat.log 2 n.natAbs + 1023 ∧
      (ofInt n).fraction = significand n.natAbs - 2 ^ 52 := by
  obtain ⟨hlow, hhigh⟩ := significand_bounds (Int.natAbs_ne_zero.mpr hn) h
  have hbits : (ofInt n).bits.toNat = (if n < 0 then 2 ^ 63 else 0) +
      (Nat.log 2 n.natAbs + 1023) * 2 ^ 52 + (significand n.natAbs - 2 ^ 52) := by
    simp only [ofInt, hn, if_false]
    apply UInt64.toNat_ofNat_of_lt'
    show _ < 2 ^ 64
    split <;> omega
  unfold negative exponent fraction
  rw [hbits]
  refine ⟨?_, ?_, ?_⟩
  · rw [decide_eq_decide]
    split <;> omega
  · split <;> omega
  · split <;> omega

/-- A short integer of 64 bits is a double-precision number. -/
theorem units_ofInt (h : Short n.natAbs) (hlog : Nat.log 2 n.natAbs ≤ 63) :
    (ofInt n).units = n * one := by
  by_cases hn : n = 0
  · subst hn
    simp [ofInt, units, magnitude, exponent, fraction]
  obtain ⟨hneg, hexp, hfrac⟩ := ofInt_fields hn h hlog
  obtain ⟨hlow, hhigh⟩ := significand_bounds (Int.natAbs_ne_zero.mpr hn) h
  have hmag : (ofInt n).magnitude = n.natAbs * 2 ^ scale := by
    have hshift : Nat.log 2 n.natAbs + 1023 - 1 = Nat.log 2 n.natAbs + (scale - 52) := by
      unfold scale
      omega
    have hscale : 52 + (scale - 52) = scale := rfl
    rw [magnitude, hexp, hfrac, if_neg (by omega), Nat.add_sub_cancel' hlow, hshift, Nat.pow_add,
      ← Nat.mul_assoc, significand_of_short h, Nat.mul_assoc, ← Nat.pow_add, hscale]
  rw [units, hneg, hmag]
  rcases Int.natAbs_eq n with heq | heq
  · have : ¬ n < 0 := by omega
    simp only [this, decide_false, Bool.false_eq_true, if_false, one, Nat.cast_mul, Nat.cast_pow,
      Nat.cast_ofNat, ← heq]
  · have : n < 0 := by omega
    simp only [this, decide_true, if_true, one, Nat.cast_mul, Nat.cast_pow, Nat.cast_ofNat,
      ← Int.neg_mul, ← heq]

theorem isNaN_of_isFinite {x : F64} (h : x.isFinite = true) : x.isNaN = false := by
  simp only [isFinite, ne_eq, decide_eq_true_eq] at h
  simp [isNaN, h]

/-- The cast is exact on whole numbers that an `i64` can hold. -/
theorem toI64_of_units {x : F64} {n : Int64} (hfin : x.isFinite = true)
    (h : x.units = n.toInt * one) : x.toI64 = n := by
  have hone : one ≠ 0 := by unfold one; positivity
  have hlow := n.le_toInt
  have hhigh := n.toInt_lt
  have hclamp : max (-2 ^ 63) (min n.toInt (2 ^ 63 - 1)) = n.toInt := by omega
  simp only [toI64, isNaN_of_isFinite hfin, hfin, h, Int.mul_tdiv_cancel _ hone, clampI64, hclamp,
    Bool.false_eq_true, if_false, if_true, Int64.ofInt_toInt]

theorem significand_le (a : Nat) : significand a ≤ 2 ^ 53 := by
  have hhigh := Nat.lt_pow_succ_log_self (b := 2) (by decide) a
  unfold significand
  dsimp only
  split
  · rename_i hlog
    have h53 : 2 ^ (Nat.log 2 a + 1) * 2 ^ (52 - Nat.log 2 a) = 2 ^ 53 := by
      rw [← Nat.pow_add]
      congr 1
      omega
    exact h53 ▸ Nat.mul_le_mul_right _ (Nat.le_of_lt hhigh)
  · rename_i hlog
    have h53 : 2 ^ (Nat.log 2 a + 1) = 2 ^ 53 * 2 ^ (Nat.log 2 a - 52) := by
      rw [← Nat.pow_add]
      congr 1
      omega
    have hq : a / 2 ^ (Nat.log 2 a - 52) < 2 ^ 53 :=
      (Nat.div_lt_iff_lt_mul (Nat.pow_pos (by decide))).mpr (h53 ▸ hhigh)
    split
    · exact hq
    · exact Nat.le_of_lt hq

/-- An `i64` never overflows the exponent. -/
theorem isFinite_ofI64 (n : Int64) : (ofI64 n).isFinite = true := by
  have hlow := n.le_toInt
  have hhigh := n.toInt_lt
  have hlog : Nat.log 2 n.toInt.natAbs ≤ 63 := by
    have := Nat.log_mono_right (b := 2) (show n.toInt.natAbs ≤ 2 ^ 63 by omega)
    rwa [Nat.log_pow (by decide)] at this
  have hsig := significand_le n.toInt.natAbs
  unfold isFinite exponent ofI64 ofInt
  dsimp only
  by_cases hn : n.toInt = 0
  · simp [hn]
  · have hbits : ∀ sign, sign = 0 ∨ sign = 2 ^ 63 →
        (UInt64.ofNat (sign + (Nat.log 2 n.toInt.natAbs + 1023) * 2 ^ 52 +
          (significand n.toInt.natAbs - 2 ^ 52))).toNat / 2 ^ 52 % 2 ^ 11 ≠ 2047 := by
      intro sign hsign
      rw [UInt64.toNat_ofNat_of_lt' (show _ < 2 ^ 64 by rcases hsign with rfl | rfl <;> omega)]
      rcases hsign with rfl | rfl <;> omega
    simp only [hn, if_false, decide_eq_true_eq]
    exact hbits _ (by split <;> simp)

theorem log_natAbs_le (n : Int64) : Nat.log 2 n.toInt.natAbs ≤ 63 := by
  have hlow := n.le_toInt
  have hhigh := n.toInt_lt
  have := Nat.log_mono_right (b := 2) (show n.toInt.natAbs ≤ 2 ^ 63 by omega)
  rwa [Nat.log_pow (by decide)] at this

theorem exact_of_short {n : Int64} (h : Short n.toInt.natAbs) : Exact n :=
  toI64_of_units (isFinite_ofI64 n) (units_ofInt h (log_natAbs_le n))

theorem exact_of_small {n : Int64} (h : n.toInt.natAbs < 2 ^ 53) : Exact n :=
  exact_of_short (short_of_small h)

/-- What is left of a double without its fraction is short. -/
theorem short_whole (x : F64) : Short (x.magnitude / 2 ^ scale) := by
  have hfrac : x.fraction < 2 ^ 52 := Nat.mod_lt _ (by decide)
  unfold magnitude
  split
  · apply short_of_small
    exact Nat.lt_of_le_of_lt (Nat.div_le_self _ _) (by omega)
  · by_cases hshift : x.exponent - 1 ≤ scale
    · apply short_of_small
      have hle : (2 ^ 52 + x.fraction) * 2 ^ (x.exponent - 1) ≤
          (2 ^ 52 + x.fraction) * 2 ^ scale :=
        Nat.mul_le_mul_left _ (Nat.pow_le_pow_right (by decide) hshift)
      have hdiv := Nat.div_le_div_right (c := 2 ^ scale) hle
      rw [Nat.mul_div_cancel _ (Nat.pow_pos (by decide))] at hdiv
      omega
    · obtain ⟨k, hk⟩ : ∃ k, x.exponent - 1 = k + scale := ⟨x.exponent - 1 - scale, by omega⟩
      rw [hk, Nat.pow_add, ← Nat.mul_assoc, Nat.mul_div_cancel _ (Nat.pow_pos (by decide))]
      have hlt : (2 ^ 52 + x.fraction) * 2 ^ k < 2 ^ (53 + k) := by
        rw [Nat.pow_add]
        exact Nat.mul_lt_mul_of_pos_right (by omega) (Nat.pow_pos (by decide))
      have hlog := Nat.log_lt_of_lt_pow (b := 2)
        (Nat.mul_ne_zero (by omega) (Nat.pow_pos (by decide)).ne') hlt
      exact (Nat.pow_dvd_pow 2 (by omega)).trans (Nat.dvd_mul_left _ _)

theorem toInt_clampI64 (hlow : -2 ^ 63 ≤ n) (hhigh : n ≤ 2 ^ 63 - 1) :
    (clampI64 n).toInt = n := by
  have hclamp : max (-2 ^ 63) (min n (2 ^ 63 - 1)) = n := by omega
  rw [clampI64, hclamp]
  exact Int64.toInt_ofInt_of_le hlow (by omega)

/-- The largest `i64` is not a double, but the cast saturates at it. -/
theorem exact_max : Exact (clampI64 (2 ^ 63 - 1)) := by
  unfold Exact
  decide +kernel

theorem exact_min : Exact (clampI64 (-2 ^ 63)) := by
  unfold Exact
  decide +kernel

theorem exact_clampI64 (h : Short n.natAbs) : Exact (clampI64 n) := by
  rcases Int.lt_or_le n (-2 ^ 63) with hn | hlow
  · have hclamp : clampI64 n = clampI64 (-2 ^ 63) := by
      unfold clampI64
      congr 1
      omega
    rw [hclamp]
    exact exact_min
  rcases Int.lt_or_le (2 ^ 63 - 1) n with hn | hhigh
  · have hclamp : clampI64 n = clampI64 (2 ^ 63 - 1) := by
      unfold clampI64
      congr 1
      omega
    rw [hclamp]
    exact exact_max
  · apply exact_of_short
    rwa [toInt_clampI64 hlow hhigh]

/-- A double cast to an `i64` is one that survives the way back. -/
theorem exact_toI64 (x : F64) : Exact x.toI64 := by
  unfold toI64
  split
  · exact exact_of_small (by decide)
  · split
    · apply exact_clampI64
      have hwhole : (x.units.tdiv one).natAbs = x.magnitude / 2 ^ scale := by
        rw [Int.natAbs_tdiv]
        have hunits : x.units.natAbs = x.magnitude := by
          unfold units
          split <;> simp
        have hone : one.natAbs = 2 ^ scale := by
          rw [one, Int.natAbs_pow, show (2 : Int).natAbs = 2 from rfl]
        rw [hunits, hone]
        rfl
      rw [hwhole]
      exact short_whole x
    · split
      · exact exact_min
      · exact exact_max

theorem toI64_of_isZero {x : F64} (h : x.isZero = true) : x.toI64 = 0 := by
  simp only [isZero, decide_eq_true_eq] at h
  have hexp : x.exponent = 0 := by
    unfold exponent
    omega
  have hfrac : x.fraction = 0 := by
    unfold fraction
    omega
  simp [toI64, isNaN, isFinite, units, magnitude, hexp, hfrac, clampI64]

end Exact

end F64

end CheetahMedia.Lib
