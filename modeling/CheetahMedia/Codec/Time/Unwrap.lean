import CheetahMedia.Codec.Time
import CheetahMedia.Lib.Wrapping

namespace CheetahMedia.Codec.WrapUnwrapper
open Lib

/-- What `unwrap` gives for the readings, one after the other. -/
def unwrapAll : List Nat → WrapUnwrapper → List Nat
  | [], _ => []
  | raw :: raws, w => (w.unwrap raw).1 :: unwrapAll raws (w.unwrap raw).2

/-- The reading of a count with `bits` bits. -/
def reading (bits : Nat) (t : Int) : Nat := (t % 2 ^ bits).toNat

theorem coe_reading (bits : Nat) (t : Int) : (reading bits t : Int) = t % 2 ^ bits :=
  Int.toNat_of_nonneg (Int.emod_nonneg t (by positivity))

structure Fresh (bits : Nat) (w : WrapUnwrapper) : Prop where
  width : bits ≠ 0 ∧ bits ≤ 63
  mask : w.mask = 2 ^ bits - 1
  half : w.half = 2 ^ (bits - 1)
  high : w.high = 0
  lastRaw : w.lastRaw = none

/-- The unwrapper last read `t`, `cycles` periods above the place where it counts from. -/
structure Follows (bits : Nat) (origin t : Int) (w : WrapUnwrapper) : Prop where
  width : bits ≠ 0 ∧ bits ≤ 63
  mask : w.mask = 2 ^ bits - 1
  half : w.half = 2 ^ (bits - 1)
  high : (w.high : Int) = 2 ^ bits * (t / 2 ^ bits - origin) % (2 ^ 64 : Nat)
  lastRaw : w.lastRaw = some (reading bits t)

theorem fresh_new (h : new bits = some w) : Fresh bits w := by
  unfold new at h
  split at h
  · cases h
  · rename_i hbits
    cases h
    exact ⟨by omega, rfl, rfl, rfl, rfl⟩

variable {bits raw : Nat} {origin t u : Int} {w : WrapUnwrapper}

theorem two_mul_half (h : bits ≠ 0 ∧ bits ≤ 63) : 2 * 2 ^ (bits - 1) = 2 ^ bits := by
  rw [← pow_succ', Nat.sub_add_cancel (by omega)]

theorem period_dvd (h : bits ≠ 0 ∧ bits ≤ 63) : (2 : Int) ^ bits ∣ (2 ^ 64 : Nat) :=
  pow_dvd_pow 2 (show bits ≤ 64 by omega)

/-- The next count is less than half a period away: a reading that lies further away tells
that the counter has started again. -/
theorem Follows.coe_highAt (h : Follows bits origin t w) (hstep : 2 * |u - t| < 2 ^ bits) :
    (w.highAt (reading bits u) : Int) = 2 ^ bits * (u / 2 ^ bits - origin) % (2 ^ 64 : Nat) := by
  have hhalf := two_mul_half h.width
  have hle : 2 ^ bits ≤ 2 ^ 64 := Nat.pow_le_pow_right (by decide) (by have := h.width; omega)
  have hcast : ((2 ^ bits : Nat) : Int) = 2 ^ bits := by push_cast; rfl
  have ht := coe_reading bits t
  have hu := coe_reading bits u
  have hpos := abs_nonneg (u - t)
  have habs := abs_lt.mp (show |u - t| < ((2 ^ (bits - 1) : Nat) : Int) by omega)
  unfold highAt
  rw [h.lastRaw, h.mask, h.half, Nat.sub_add_cancel (Nat.two_pow_pos bits)]
  dsimp only
  rcases emod_cases (show |u - t| < 2 ^ bits by omega) with
    ⟨hread, hcycle⟩ | ⟨hread, hcycle⟩ | ⟨hread, hcycle⟩
  · rw [if_neg (by omega), if_neg (by omega), hcycle]
    exact h.high
  · rw [if_pos (by omega), coe_add_mod h.high, hcycle, hcast]
    congr 1
    ring
  · rw [if_neg (by omega), if_pos (by omega), coe_sub_mod h.high hle, hcycle, hcast]
    congr 1
    ring

/-- A reading is put together with its periods, in a word of 64 bits. -/
theorem coe_high_add (h : bits ≠ 0 ∧ bits ≤ 63) {high : Nat}
    (hhigh : (high : Int) = 2 ^ bits * (u / 2 ^ bits - origin) % (2 ^ 64 : Nat)) :
    ((high + reading bits u : Nat) : Int) = (u - 2 ^ bits * origin) % (2 ^ 64 : Nat) := by
  have hpos : (0 : Int) < 2 ^ bits := by positivity
  rw [Int.natCast_add, hhigh, coe_reading, emod_add_reading (period_dvd h) (by decide)
    (Int.emod_nonneg u hpos.ne') (Int.emod_lt_of_pos u hpos)]
  congr 1
  have hsplit := Int.emod_add_mul_ediv u (2 ^ bits)
  rw [mul_sub]
  omega

theorem and_mask (hraw : raw % 2 ^ bits = reading bits u) :
    raw &&& (2 ^ bits - 1) = reading bits u := by
  rw [Nat.and_two_pow_sub_one_eq_mod, hraw]

theorem Follows.unwrap (h : Follows bits origin t w) (hstep : 2 * |u - t| < 2 ^ bits)
    (hraw : raw % 2 ^ bits = reading bits u) :
    ((w.unwrap raw).1 : Int) = (u - 2 ^ bits * origin) % (2 ^ 64 : Nat) ∧
      Follows bits origin u (w.unwrap raw).2 := by
  have hmask : raw &&& w.mask = reading bits u := by rw [h.mask, and_mask hraw]
  unfold WrapUnwrapper.unwrap
  rw [hmask]
  exact ⟨coe_high_add h.width (h.coe_highAt hstep),
    h.width, h.mask, h.half, h.coe_highAt hstep, rfl⟩

theorem Fresh.unwrap (h : Fresh bits w) (hraw : raw % 2 ^ bits = reading bits t) :
    ((w.unwrap raw).1 : Int) = t % 2 ^ bits ∧
      Follows bits (t / 2 ^ bits) t (w.unwrap raw).2 := by
  have hmask : raw &&& w.mask = reading bits t := by rw [h.mask, and_mask hraw]
  have hhigh : w.highAt (reading bits t) = 0 := by rw [highAt, h.lastRaw, h.high]
  unfold WrapUnwrapper.unwrap
  rw [hmask]
  dsimp only
  rw [hhigh]
  exact ⟨by rw [Nat.zero_add, coe_reading], h.width, h.mask, h.half, by simp, rfl⟩

theorem reading_mod (bits : Nat) (t : Int) : reading bits t % 2 ^ bits = reading bits t := by
  have hcast : ((2 ^ bits : Nat) : Int) = 2 ^ bits := by push_cast; rfl
  have hlt := Int.emod_lt_of_pos t (show (0 : Int) < 2 ^ bits by positivity)
  have ht := coe_reading bits t
  exact Nat.mod_eq_of_lt (by omega)

theorem Follows.unwrapAll (h : Follows bits origin t w) (hsteps : Smooth (2 ^ bits) (t :: ts)) :
    (w.unwrapAll (ts.map (reading bits))).map ((↑) : Nat → Int) =
      ts.map fun u => (u - 2 ^ bits * origin) % (2 ^ 64 : Nat) := by
  induction ts generalizing t w with
  | nil => rfl
  | cons u ts ih =>
    obtain ⟨hstep, hrest⟩ := List.isChain_cons_cons.mp hsteps
    obtain ⟨hvalue, hnext⟩ := h.unwrap hstep (reading_mod bits u)
    simp only [List.map_cons, WrapUnwrapper.unwrapAll, hvalue, ih hnext hrest]

/-- The first value is the first reading, and the others are counted from it in a word of
64 bits, which has no place for what lies below zero. -/
theorem unwrapAll_eq (hnew : new bits = some w) (hsteps : Smooth (2 ^ bits) (t :: ts)) :
    (w.unwrapAll ((t :: ts).map (reading bits))).map ((↑) : Nat → Int) =
      t % 2 ^ bits :: ts.map fun u => (t % 2 ^ bits + (u - t)) % (2 ^ 64 : Nat) := by
  obtain ⟨hfirst, hfollows⟩ := (fresh_new hnew).unwrap (reading_mod bits t)
  have hsplit := Int.emod_add_mul_ediv t (2 ^ bits)
  simp only [List.map_cons, unwrapAll, hfirst, hfollows.unwrapAll hsteps, List.cons.injEq,
    true_and]
  refine List.map_congr_left fun u _ => ?_
  congr 1
  omega

/-- The distances of the values from the first of them. -/
def fromFirst : List Int → List Int
  | [] => []
  | t :: ts => (t :: ts).map (· - t)

/-- The values lie as far from the first one as the counts do, as long as the counts stay in a
word of 64 bits that starts with the first one's period. -/
theorem unwrap_exact_iff (hnew : new bits = some w) (hsteps : Smooth (2 ^ bits) (t :: ts)) :
    fromFirst ((w.unwrapAll ((t :: ts).map (reading bits))).map (↑)) = fromFirst (t :: ts) ↔
      ∀ u ∈ ts, 0 ≤ t % 2 ^ bits + (u - t) ∧ t % 2 ^ bits + (u - t) < 2 ^ 64 := by
  have hword : ((2 ^ 64 : Nat) : Int) = 2 ^ 64 := by norm_num
  rw [unwrapAll_eq hnew hsteps]
  simp only [fromFirst, List.map_cons, sub_self, List.map_map, List.cons.injEq, true_and,
    List.map_inj_left, Function.comp_def]
  refine forall₂_congr fun u _ => ?_
  rw [sub_eq_iff_eq_add', hword]
  constructor
  · intro hsame
    rw [← hsame]
    exact ⟨Int.emod_nonneg _ (by norm_num), Int.emod_lt_of_pos _ (by norm_num)⟩
  · intro hrange
    exact Int.emod_eq_of_lt hrange.1 hrange.2

/-- One step back from zero is read as a step to the end of the word. -/
theorem unwrap_back_from_zero : ∃ w, new 32 = some w ∧ Smooth (2 ^ 32) [0, -1] ∧
    w.unwrapAll ([0, -1].map (reading 32)) = [0, 2 ^ 64 - 1] ∧
    fromFirst ((w.unwrapAll ([0, -1].map (reading 32))).map (↑)) ≠ fromFirst [0, -1] := by
  refine ⟨_, rfl, ?_, by decide +kernel, by decide +kernel⟩
  norm_num [Smooth, abs_one]

/-- Forward and back across two wraps. -/
theorem unwrap_exact_wraps : ∃ w, new 8 = some w ∧
    fromFirst ((w.unwrapAll ([250, 260, 380, 500, 520, 505].map (reading 8))).map (↑)) =
      fromFirst [250, 260, 380, 500, 520, 505] :=
  ⟨_, rfl, (unwrap_exact_iff rfl (by norm_num [Smooth, abs_of_nonneg, abs_of_neg])).mpr (by decide)⟩

end CheetahMedia.Codec.WrapUnwrapper
