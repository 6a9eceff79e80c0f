import Mathlib.Data.List.AList
import Mathlib.Data.Option.Basic

namespace CheetahMedia.Lib

/-- What a step does to the value under a key. It says nothing and keeps the value up to `R`, or
it says that a value begins or ends there, and whatever is there then is new. -/
inductive Evolves (R : α → α → Prop) (F : α → Prop) : Option α → Bool → Option α → Prop
  | kept (h : Option.Rel R before after) : Evolves R F before false after
  | renewed (h : ∀ v, after = some v → F v) : Evolves R F before true after

namespace Evolves
variable {α : Type} {R : α → α → Prop} {F : α → Prop}

theorem refl (hrefl : ∀ v, R v v) (v : Option α) : Evolves R F v false v := by
  cases v with
  | none => exact .kept .none
  | some v => exact .kept (.some (hrefl v))

/-- A new value that is kept is a new value. -/
theorem announced (hrenewed : ∀ v w, F v → R v w → F w) (h : Option.Rel R before after)
    (hnew : ∀ v, before = some v → F v) : Evolves R F other true after := by
  refine .renewed fun w hw => ?_
  cases h with
  | none => cases hw
  | some hkeeps =>
    cases hw
    exact hrenewed _ _ (hnew _ rfl) hkeeps

theorem trans (htrans : ∀ u v w, R u v → R v w → R u w) (hrenewed : ∀ v w, F v → R v w → F w)
    (h : Evolves R F u said v) (h' : Evolves R F v said' w) : Evolves R F u (said || said') w := by
  cases h' with
  | renewed hw => rw [Bool.or_true]; exact .renewed hw
  | kept hkeeps =>
    cases h with
    | renewed hv =>
      exact announced hrenewed hkeeps hv
    | kept hkeeps' =>
      refine .kept ?_
      cases hkeeps' with
      | none => exact hkeeps
      | some hfirst =>
        cases hkeeps with
        | some hsecond => exact .some (htrans _ _ _ hfirst hsecond)

/-- What holds of new values and is kept, holds of the value. -/
theorem preserves (h : Evolves R F before said after) {P : α → Prop}
    (hkept : ∀ v w, P v → R v w → P w) (hnew : ∀ v, F v → P v)
    (hP : ∀ v, before = some v → P v) (hafter : after = some w) : P w := by
  cases h with
  | renewed hv => exact hnew _ (hv _ hafter)
  | kept hkeeps =>
    cases hkeeps with
    | none => cases hafter
    | some hfirst =>
      cases hafter
      exact hkept _ _ (hP _ rfl) hfirst

end Evolves
end CheetahMedia.Lib
