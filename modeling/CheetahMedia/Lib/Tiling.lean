import Mathlib.Order.Lattice
import Mathlib.Order.MinMax

namespace CheetahMedia.Lib
variable {α : Type} [LinearOrder α]

/-- The intervals `[s, e)` of the list stand one after the other, from `a` to `b`. -/
def Contiguous (a b : α) : List (α × α) → Prop
  | [] => a = b
  | (s, e) :: rest => s = a ∧ s < e ∧ Contiguous e b rest

/-- The part of `[lo, hi)` inside a window. -/
def clip (lo hi : α) (window : α × α) : Option (α × α) :=
  if max lo window.1 < min hi window.2 then some (max lo window.1, min hi window.2) else none

variable {a b m : α} {l l' : List (α × α)}

theorem Contiguous.le (h : Contiguous a b l) : a ≤ b := by
  induction l generalizing a with
  | nil => exact le_of_eq h
  | cons w rest ih =>
    obtain ⟨rfl, hlt, hrest⟩ := h
    exact hlt.le.trans (ih hrest)

theorem contiguous_append :
    Contiguous a b (l ++ l') ↔ ∃ m, Contiguous a m l ∧ Contiguous m b l' := by
  induction l generalizing a with
  | nil => simp [Contiguous]
  | cons w rest ih => simp [Contiguous, ih, and_assoc]

end CheetahMedia.Lib
