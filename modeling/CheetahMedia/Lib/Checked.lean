import Mathlib.Data.List.Basic
import Mathlib.Data.List.Forall2

namespace CheetahMedia.Lib

/-- What stops a program that checks its indices and its arithmetic. -/
inductive Panic
  | outOfRange
  | overflow
deriving DecidableEq

abbrev Checked := Except Panic

def I64_MIN : Int := -9223372036854775808
def I64_MAX : Int := 9223372036854775807

namespace Checked
variable {α β : Type}

def byteAt (data : List α) (i : Nat) : Checked α :=
  match data[i]? with
  | some b => .ok b
  | none => .error .outOfRange

/-- `data[first..last]` -/
def slice (data : List α) (first last : Nat) : Checked (List α) :=
  if first ≤ last ∧ last ≤ data.length then .ok ((data.drop first).take (last - first))
  else .error .outOfRange

/-- The result of an operation on signed words of 64 bits. -/
def i64 (n : Int) : Checked Int := if I64_MIN ≤ n ∧ n ≤ I64_MAX then .ok n else .error .overflow

/-- The result of an operation on unsigned words of 64 bits. -/
def u64 (n : Nat) : Checked Nat := if n < 18446744073709551616 then .ok n else .error .overflow

/-- The same on 32 bits. -/
def u32 (n : Nat) : Checked Nat := if n < 4294967296 then .ok n else .error .overflow

/-- The signed word with the same bits. -/
def asI64 (n : Int) : Int := Int.bmod n 18446744073709551616

def asU64 (n : Int) : Nat := (n % 18446744073709551616).toNat

/-- The nearest signed word of 64 bits. -/
def saturateI64 (n : Int) : Int := max I64_MIN (min I64_MAX n)

def IsI64 (n : Int) : Prop := I64_MIN ≤ n ∧ n ≤ I64_MAX

instance (n : Int) : Decidable (IsI64 n) := inferInstanceAs (Decidable (_ ∧ _))

theorem asI64_of_isI64 (h : IsI64 n) : asI64 n = n := by
  unfold IsI64 I64_MIN I64_MAX at h
  exact Int.bmod_eq_of_le_mul_two (by omega) (by omega)

/-- What is between zero and a word is a word. -/
theorem IsI64.of_between {n m : Int} (hn : IsI64 n) (hlow : 0 ≤ n → 0 ≤ m ∧ m ≤ n)
    (hhigh : n ≤ 0 → n ≤ m ∧ m ≤ 0) : IsI64 m := by
  unfold IsI64 I64_MIN I64_MAX at *
  omega

/-- The program returns a value with the property, or stops with a panic that is allowed. -/
inductive Yields (allow : Panic → Prop) : Checked α → (α → Prop) → Prop
  | ok (h : P a) : Yields allow (.ok a) P
  | error (h : allow e) : Yields allow (.error e) P

@[simp] theorem pure_eq (a : α) : (Pure.pure a : Checked α) = .ok a := rfl

@[simp] theorem ok_bind (a : α) (k : α → Checked β) : (Except.ok a : Checked α) >>= k = k a := rfl

@[simp] theorem error_bind (e : Panic) (k : α → Checked β) :
    (Except.error e : Checked α) >>= k = .error e := rfl

/-- A program that returns is one whose first part returned. -/
theorem bind_eq_ok {r : Checked α} {k : α → Checked β} (h : r >>= k = .ok b) :
    ∃ a, r = .ok a ∧ k a = .ok b := by
  cases r with
  | ok a => exact ⟨a, rfl, h⟩
  | error e => cases h

/-- What every round of a loop keeps, the loop keeps. -/
theorem foldlM_keeps {P : β → Prop} {f : β → α → Checked β}
    {l : List α} (hstep : ∀ s a u, P s → f s a = .ok u → P u) (hs : P s)
    (h : l.foldlM f s = .ok u) : P u := by
  induction l generalizing s with
  | nil =>
    cases h
    exact hs
  | cons a l ih =>
    rw [List.foldlM_cons] at h
    obtain ⟨t, ht, h⟩ := bind_eq_ok h
    exact ih (hstep s a t hs ht) h

variable {allow : Panic → Prop} {P Q : α → Prop}

theorem u32_eq_ok : u32 n = .ok m ↔ n < 4294967296 ∧ n = m := by
  unfold u32
  split
  · rename_i hfit
    exact ⟨fun h => ⟨hfit, Except.ok.inj h⟩, fun h => congrArg _ h.2⟩
  · rename_i hfit
    exact ⟨(fun h => by cases h), fun h => absurd h.1 hfit⟩

theorem u64_eq_ok : u64 n = .ok m ↔ n < 18446744073709551616 ∧ n = m := by
  unfold u64
  split
  · rename_i hfit
    exact ⟨fun h => ⟨hfit, Except.ok.inj h⟩, fun h => congrArg _ h.2⟩
  · rename_i hfit
    exact ⟨(fun h => by cases h), fun h => absurd h.1 hfit⟩

theorem byteAt_ok (h : data[i]? = some b) : byteAt data i = (.ok b : Checked α) := by
  simp [byteAt, h]

theorem toOption_eq_some {r : Checked α} (h : r.toOption = some a) : r = .ok a := by
  cases r with
  | ok b =>
    cases h
    rfl
  | error e => cases h

theorem byteAt_eq_ok (h : byteAt data i = (.ok b : Checked α)) : data[i]? = some b := by
  unfold byteAt at h
  split at h
  · rename_i heq
    cases h
    exact heq
  · cases h

@[simp] theorem byteAt_cons_zero (b : α) (data : List α) :
    byteAt (b :: data) 0 = (.ok b : Checked α) := rfl

@[simp] theorem byteAt_cons_succ (b : α) (data : List α) (i : Nat) :
    byteAt (b :: data) (i + 1) = byteAt data i := rfl

theorem slice_ok (h : first ≤ last) (h' : last ≤ data.length) :
    slice data first last = (.ok ((data.drop first).take (last - first)) : Checked (List α)) := by
  simp [slice, h, h']

namespace Yields

theorem pure (h : P a) : Yields allow (Pure.pure a) P := .ok h

theorem mono (h : Yields allow r P) (himp : ∀ a, P a → Q a) : Yields allow r Q := by
  cases h with
  | ok h => exact .ok (himp _ h)
  | error h => exact .error h

theorem bind {k : α → Checked β} {R : β → Prop} (h : Yields allow r P)
    (hk : ∀ a, P a → Yields allow (k a) R) : Yields allow (r >>= k) R := by
  cases h with
  | ok h => exact hk _ h
  | error h => exact .error h

theorem byteAt (h : i < data.length) (hP : ∀ b, data[i]? = some b → P b) :
    Yields allow (Checked.byteAt data i) P := by
  rw [byteAt_ok (List.getElem?_eq_getElem h)]
  exact .ok (hP _ (List.getElem?_eq_getElem h))

theorem slice {R : List α → Prop} (h : first ≤ last) (h' : last ≤ data.length)
    (hP : R ((data.drop first).take (last - first))) :
    Yields allow (Checked.slice data first last) R := by
  rw [slice_ok h h']
  exact .ok hP

/-- Either an overflow is allowed or the result is known to fit. -/
theorem i64 {R : Int → Prop} (h : allow .overflow ∨ I64_MIN ≤ n ∧ n ≤ I64_MAX) (hP : R n) :
    Yields allow (Checked.i64 n) R := by
  unfold Checked.i64
  split
  · exact .ok hP
  · rename_i hfit
    exact .error (h.resolve_right hfit)

theorem u64 {R : Nat → Prop} (h : allow .overflow ∨ n < 18446744073709551616) (hP : R n) :
    Yields allow (Checked.u64 n) R := by
  unfold Checked.u64
  split
  · exact .ok hP
  · rename_i hfit
    exact .error (h.resolve_right hfit)

theorem byteAt_bind {k : α → Checked β} {R : β → Prop} (h : i < data.length)
    (hk : ∀ b, data[i]? = some b → Yields allow (k b) R) :
    Yields allow (Checked.byteAt data i >>= k) R :=
  .bind (.byteAt h fun _ hb => hb) hk

theorem slice_bind {k : List α → Checked β} {R : β → Prop} (h : first ≤ last)
    (h' : last ≤ data.length)
    (hk : Yields allow (k ((data.drop first).take (last - first))) R) :
    Yields allow (Checked.slice data first last >>= k) R := by
  rw [slice_ok h h']
  exact hk

theorem i64_bind {k : Int → Checked β} {R : β → Prop}
    (h : allow .overflow ∨ I64_MIN ≤ n ∧ n ≤ I64_MAX) (hk : Yields allow (k n) R) :
    Yields allow (Checked.i64 n >>= k) R :=
  .bind (.i64 h (Eq.refl n)) fun _ h => h ▸ hk

theorem u64_bind {k : Nat → Checked β} {R : β → Prop}
    (h : allow .overflow ∨ n < 18446744073709551616) (hk : Yields allow (k n) R) :
    Yields allow (Checked.u64 n >>= k) R :=
  .bind (.u64 h (Eq.refl n)) fun _ h => h ▸ hk

/-- Where any panic is allowed nothing is asked of a program. -/
theorem any (r : Checked α) : Yields (fun _ => True) r fun _ => True := by
  cases r with
  | ok a => exact .ok trivial
  | error e => exact .error trivial

theorem of_ok (h : Yields allow r P) (hr : r = .ok a) : P a := by
  subst hr
  cases h with
  | ok h => exact h

/-- What is allowed only where `q` fails, is not where it holds. -/
theorem of_not {q : Prop} (h : Yields (fun _ => ¬q) r P) (hq : q) : Yields (fun _ => False) r P := by
  cases h with
  | ok h => exact .ok h
  | error h => exact absurd hq h

/-- With no panic allowed there is a result. -/
theorem exists_ok_of (h : Yields allow r P) (hno : ∀ e, ¬allow e) : ∃ a, r = .ok a ∧ P a := by
  cases h with
  | ok h => exact ⟨_, rfl, h⟩
  | error h => exact absurd h (hno _)

theorem exists_ok (h : Yields (fun _ => False) r P) : ∃ a, r = .ok a ∧ P a :=
  h.exists_ok_of fun _ => id

end Yields
end Checked

/-- Goes on if something holds. -/
def ensure (cond : Bool) (e : ε) : Except ε Unit := if cond then .ok () else .error e

theorem of_ensure {cond : Bool} {e : ε} (h : ensure cond e = .ok u) : cond = true := by
  unfold ensure at h
  split at h
  · assumption
  · cases h

theorem of_bind_ok {x : Except ε α} {f : α → Except ε β} (h : x >>= f = .ok b) :
    ∃ a, x = .ok a ∧ f a = .ok b := by
  cases x with
  | error e => cases h
  | ok a => exact ⟨a, rfl, h⟩

/-- The results of a map that succeeds. -/
theorem forall₂_of_mapM {enc : α → Except ε β} (h : items.mapM enc = .ok parts) :
    List.Forall₂ (fun x part => enc x = .ok part) items parts := by
  induction items generalizing parts with
  | nil =>
    cases h
    exact .nil
  | cons x items ih =>
    rw [List.mapM_cons] at h
    obtain ⟨part, hx, h⟩ := of_bind_ok h
    obtain ⟨rest, hitems, h⟩ := of_bind_ok h
    cases h
    exact .cons hx (ih hitems)

section Loop
open Checked

/-- What a pass of a loop comes to. -/
inductive Pass (σ α : Type)
  | again (state : σ)
  | done (result : α)

/-- A loop that is left with a result. One that is not left within its passes is taken for a
panic. -/
def loop (body : σ → Checked (Pass σ α)) : Nat → σ → Checked α
  | 0, _ => .error .overflow
  | passes + 1, state => body state >>= fun
    | .again state => loop body passes state
    | .done result => .ok result

/-- What a pass keeps and lowers. -/
def Pass.Makes (I : σ → Prop) (variant : σ → Nat) (Q : α → Prop) (state : σ) : Pass σ α → Prop
  | .again next => I next ∧ variant next < variant state
  | .done result => Q result

/-- A loop is left when every pass keeps an invariant and lowers a variant. -/
theorem loop_yields {body : σ → Checked (Pass σ α)} {I : σ → Prop} {Q : α → Prop}
    (variant : σ → Nat)
    (hbody : ∀ s, I s → Yields (fun _ => False) (body s) (Pass.Makes I variant Q s))
    (h : I s) (hpasses : variant s < passes) : Yields (fun _ => False) (loop body passes s) Q := by
  induction passes generalizing s with
  | zero => omega
  | succ passes ih =>
    rw [loop]
    refine (hbody s h).bind fun pass hpass => ?_
    cases pass with
    | again next => exact ih hpass.1 (by have hlt := hpass.2; omega)
    | done result => exact .ok hpass

/-- A loop with one result. -/
theorem loop_eq {body : σ → Checked (Pass σ α)} {I : σ → Prop} (variant : σ → Nat)
    (hbody : ∀ s, I s → Yields (fun _ => False) (body s) (Pass.Makes I variant (· = result) s))
    (h : I s) (hpasses : variant s < passes) : loop body passes s = .ok result := by
  obtain ⟨found, heq, rfl⟩ := (loop_yields variant hbody h hpasses).exists_ok
  exact heq

end Loop
end CheetahMedia.Lib
