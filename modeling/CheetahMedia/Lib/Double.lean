import CheetahMedia.Lib.Padded

namespace CheetahMedia.Lib
open Text

/-- A finite double-precision number that is not negative, as a whole number of units of the
smallest subnormal number. -/
abbrev Double := Nat

namespace Double

def one : Double := 2 ^ 1074

/-- A fraction rounded to a whole number, half to even. -/
def round (a b : Nat) : Nat :=
  if b < 2 * (a % b) ∨ (b = 2 * (a % b) ∧ a / b % 2 = 1) then a / b + 1 else a / b

/-- The number with 53 significant bits that is nearest to a fraction. -/
def nearest (a b : Nat) : Double :=
  let ulp := 2 ^ (Nat.log2 (a / b) - 52)
  round a (b * ulp) * ulp

def ofNat (n : Nat) : Double := nearest (n * one) 1

/-- Divided by a whole number that is itself a double. -/
def div (x : Double) (n : Nat) : Double := nearest x n

def mul (x : Double) (n : Nat) : Double := nearest (x * n) 1

/-- The quotient of two doubles. -/
def quotient (x y : Double) : Double := nearest (x * one) y

def product (x y : Double) : Double := nearest (x * y) one

/-- The nearest whole number, half away from zero. -/
def roundHalfUp (x : Double) : Double := (2 * x + one) / (2 * one) * one

def ceil (x : Double) : Double := (x + one - 1) / one * one

/-- The saturating cast to 64 bits. -/
def toU64 (x : Double) : Nat := min (x / one) (2 ^ 64 - 1)

/-- Printed with so many digits after the point. -/
def fixed (digits : Nat) (x : Double) : Text :=
  let n := round (x * 10 ^ digits) one
  decimal (n / 10 ^ digits) ++ '.' :: padded digits (n % 10 ^ digits)

example : fixed 3 (div (ofNat 1234567) 1000) = "1234.567".toList := by decide +kernel

example : toU64 (mul (div (ofNat 290) 1000) 1000) = 290 := by decide +kernel

theorem spelled_fixed (h : '.' ∈ letters) (digits : Nat) (x : Double) :
    Spelled letters (fixed digits x) := by
  intro c hmem
  rcases List.mem_append.mp hmem with hfront | hback
  · exact spelled_decimal letters _ c hfront
  · rcases List.mem_cons.mp hback with rfl | hback
    · exact .inr h
    · exact spelled_padded letters _ _ c hback

end Double

end CheetahMedia.Lib
