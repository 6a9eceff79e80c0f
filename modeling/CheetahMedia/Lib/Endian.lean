import Mathlib.Tactic.Ring

namespace CheetahMedia.Lib

/-- What holds of all 256 bytes. -/
theorem forall_byte {P : UInt8 → Prop} (h : ∀ n : Fin 256, P (UInt8.ofNat n)) (b : UInt8) : P b := by
  have hb := h ⟨b.toNat, b.toNat_lt⟩
  rwa [UInt8.ofNat_toNat] at hb

/-- The low-order bytes of a number in network order. -/
def toBigEndian : Nat → Nat → List UInt8
  | 0, _ => []
  | width + 1, n => UInt8.ofNat (n / 256 ^ width) :: toBigEndian width n

/-- The number spelled by a byte string in network order. -/
def fromBigEndian : List UInt8 → Nat
  | [] => 0
  | b :: bs => b.toNat * 256 ^ bs.length + fromBigEndian bs

@[simp] theorem toBigEndian_length (width n : Nat) : (toBigEndian width n).length = width := by
  induction width with
  | zero => rfl
  | succ width ih => simp [toBigEndian, ih]

theorem fromBigEndian_lt (bs : List UInt8) : fromBigEndian bs < 256 ^ bs.length := by
  induction bs with
  | nil => simp [fromBigEndian]
  | cons b bs ih =>
    have hb : b.toNat + 1 ≤ 256 := b.toNat_lt
    calc b.toNat * 256 ^ bs.length + fromBigEndian bs
        < (b.toNat + 1) * 256 ^ bs.length := by rw [Nat.succ_mul]; omega
      _ ≤ 256 * 256 ^ bs.length := Nat.mul_le_mul_right _ hb
      _ = 256 ^ (b :: bs).length := by rw [List.length_cons, pow_succ, Nat.mul_comm]

/-- Only the bytes that fit the width survive a write. -/
theorem from_toBigEndian (width n : Nat) :
    fromBigEndian (toBigEndian width n) = n % 256 ^ width := by
  induction width with
  | zero => simp [toBigEndian, fromBigEndian, Nat.mod_one]
  | succ width ih =>
    rw [toBigEndian, fromBigEndian, ih, toBigEndian_length, pow_succ, Nat.mod_mul]
    simp only [UInt8.toNat_ofNat', Nat.reducePow]
    ring

theorem from_toBigEndian_of_lt (h : n < 256 ^ width) :
    fromBigEndian (toBigEndian width n) = n := by
  rw [from_toBigEndian, Nat.mod_eq_of_lt h]

/-- Adding a multiple of the width's range changes no byte that is written. -/
theorem toBigEndian_add (width k n : Nat) :
    toBigEndian width (k * 256 ^ width + n) = toBigEndian width n := by
  induction width generalizing k with
  | zero => rfl
  | succ width ih =>
    have hk : k * 256 ^ (width + 1) + n = (k * 256) * 256 ^ width + n := by ring
    rw [toBigEndian, toBigEndian, hk, ih]
    congr 1
    apply UInt8.toNat_inj.mp
    rw [Nat.add_comm, Nat.add_mul_div_right _ _ (Nat.pow_pos (by decide))]
    simp only [UInt8.toNat_ofNat', Nat.reducePow]
    omega

/-- Writing back the number that was read restores the byte string. -/
theorem to_fromBigEndian (bs : List UInt8) : toBigEndian bs.length (fromBigEndian bs) = bs := by
  induction bs with
  | nil => rfl
  | cons b bs ih =>
    have hlt := fromBigEndian_lt bs
    have hhead : (b.toNat * 256 ^ bs.length + fromBigEndian bs) / 256 ^ bs.length = b.toNat := by
      rw [Nat.add_comm, Nat.add_mul_div_right _ _ (Nat.pow_pos (by decide)),
        Nat.div_eq_of_lt hlt, Nat.zero_add]
    rw [List.length_cons, toBigEndian, fromBigEndian, hhead, toBigEndian_add, ih,
      UInt8.ofNat_toNat]

/-- The number whose bytes are those of `n` in the opposite order. -/
def swapBytes (width n : Nat) : Nat := fromBigEndian (toBigEndian width n).reverse

theorem swapBytes_lt (width n : Nat) : swapBytes width n < 256 ^ width := by
  have h := fromBigEndian_lt (toBigEndian width n).reverse
  rwa [List.length_reverse, toBigEndian_length] at h

theorem swapBytes_swapBytes (h : n < 256 ^ width) : swapBytes width (swapBytes width n) = n := by
  have hb := to_fromBigEndian (toBigEndian width n).reverse
  rw [List.length_reverse, toBigEndian_length] at hb
  rw [swapBytes, swapBytes, hb, List.reverse_reverse, from_toBigEndian_of_lt h]

end CheetahMedia.Lib
