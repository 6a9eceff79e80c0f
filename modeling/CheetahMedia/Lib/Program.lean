import CheetahMedia.Lib.Workers

namespace CheetahMedia.Lib

/-- What a caller does: it ends, or makes a call and goes on with the answer. Calls are atomic, and
what others do comes between them. -/
inductive Program (C : Type) (R : C → Type) (α : Type)
  | done (a : α)
  | call (c : C) (next : R c → Program C R α)

/-- A call that was made, with its answer and the state it found. -/
structure Seen (C : Type) (R : C → Type) (σ : Type) where
  call : C
  answer : R call
  before : σ

namespace Program
variable {C : Type} {R : C → Type} {α β γ σ κ : Type}

def bind : Program C R α → (α → Program C R β) → Program C R β
  | done a, f => f a
  | call c next, f => call c fun r => (next r).bind f

instance : Monad (Program C R) where
  pure := done
  bind := bind

/-- A call by itself. -/
def request (c : C) : Program C R (R c) := call c done

@[simp] theorem pure_bind (a : α) (f : α → Program C R β) : (done a >>= f) = f a := rfl

@[simp] theorem call_bind (c : C) (next : R c → Program C R α) (f : α → Program C R β) :
    (call c next >>= f) = call c fun r => next r >>= f := rfl

@[simp] theorem request_bind (c : C) (f : R c → Program C R β) :
    (request c >>= f) = call c f := rfl

/-- Whatever the answers are, every call is made as `ok` asks. -/
def Always (ok : C → Prop) : Program C R α → Prop
  | done _ => True
  | call c next => ok c ∧ ∀ r, (next r).Always ok

theorem Always.bind {ok : C → Prop} {p : Program C R α} {f : α → Program C R β} (h : p.Always ok)
    (hf : ∀ a, (f a).Always ok) : (p >>= f).Always ok := by
  induction p with
  | done a => exact hf a
  | call c next ih => exact ⟨h.1, fun r => ih r (h.2 r)⟩

theorem Always.mono {ok ok' : C → Prop} {p : Program C R α} (h : p.Always ok)
    (himp : ∀ c, ok c → ok' c) : p.Always ok' := by
  induction p with
  | done a => trivial
  | call c next ih => exact ⟨himp c h.1, fun r => ih r (h.2 r)⟩

/-- The calls are answered one after another, from one state to the other. -/
def Follows (answer : (c : C) → σ → σ × R c) : σ → List (Seen C R σ) → σ → Prop
  | s, [], t => s = t
  | s, e :: es, t => e = ⟨e.call, (answer e.call s).2, s⟩ ∧ Follows answer (answer e.call s).1 es t

section
variable {answer : (c : C) → σ → σ × R c}

theorem follows_append : Follows answer s (es ++ fs) u ↔
    ∃ t, Follows answer s es t ∧ Follows answer t fs u := by
  induction es generalizing s with
  | nil => simp [Follows]
  | cons e es ih => simp [Follows, ih, and_assoc]

/-- What was seen between two calls leads from the one to the other. -/
theorem Follows.split (h : Follows answer s (pre ++ e :: mid ++ e' :: post) u) :
    Follows answer (answer e.call e.before).1 mid e'.before ∧
      e.answer = (answer e.call e.before).2 ∧ e'.answer = (answer e'.call e'.before).2 := by
  obtain ⟨t, hfront, he', -⟩ := follows_append.mp h
  obtain ⟨r, -, he, hmid⟩ := follows_append.mp hfront
  have hbefore : e.before = r := congrArg Seen.before he
  have hbefore' : e'.before = t := congrArg Seen.before he'
  subst hbefore hbefore'
  exact ⟨hmid, by rw [he], by rw [he']⟩

/-- What every call that was seen keeps, is kept. -/
theorem Follows.keeps (inv : σ → Prop)
    (hkeep : ∀ s e, e ∈ es → e.before = s → e.answer = (answer e.call s).2 → inv s →
      inv (answer e.call s).1)
    (h : Follows answer s es t) (hinv : inv s) : inv t := by
  induction es generalizing s with
  | nil => exact h ▸ hinv
  | cons e es ih =>
    have hbefore : e.before = s := congrArg Seen.before h.1
    have hanswer : e.answer = (answer e.call s).2 := by rw [h.1]
    exact ih (fun s e' he' => hkeep s e' (List.mem_cons_of_mem e he')) h.2
      (hkeep s e List.mem_cons_self hbefore hanswer hinv)

end

section
variable {ν : Type} {answer : (c : C) → σ → σ × R c} {view : σ → ν} {inv : ν → Prop}

/-- Wherever a program stands, `inv` holds of what can be seen of the state, and `post` where it
ends. What others do between its calls leaves the view as it is. -/
def Ensures (answer : (c : C) → σ → σ × R c) (view : σ → ν) (inv : ν → Prop)
    (post : α → ν → Prop) : Program C R α → ν → Prop
  | done a, v => inv v ∧ post a v
  | call c next, v => inv v ∧
    ∀ s, view s = v → (next (answer c s).2).Ensures answer view inv post (view (answer c s).1)

theorem Ensures.here {post : α → ν → Prop} {p : Program C R α}
    (h : p.Ensures answer view inv post v) : inv v := by
  cases p with
  | done a => exact h.1
  | call c next => exact h.1

theorem Ensures.bind {post : α → ν → Prop} {post' : β → ν → Prop} {p : Program C R α}
    {f : α → Program C R β} (h : p.Ensures answer view inv post v)
    (hf : ∀ a w, inv w → post a w → (f a).Ensures answer view inv post' w) :
    (p >>= f).Ensures answer view inv post' v := by
  induction p generalizing v with
  | done a => exact hf a v h.1 h.2
  | call c next ih => exact ⟨h.1, fun s hs => ih _ (h.2 s hs)⟩

theorem Ensures.mono {post post' : α → ν → Prop} {p : Program C R α}
    (h : p.Ensures answer view inv post v) (hpost : ∀ a w, post a w → post' a w) :
    p.Ensures answer view inv post' v := by
  induction p generalizing v with
  | done a => exact ⟨h.1, hpost a v h.2⟩
  | call c next ih => exact ⟨h.1, fun s hs => ih _ (h.2 s hs)⟩

/-- For a program that may fail: from where `pre` holds it keeps `inv`, and it ends with `post` if
it succeeds. -/
def Sound {E : Type} (answer : (c : C) → σ → σ × R c) (view : σ → ν) (inv pre : ν → Prop)
    (p : ExceptT E (Program C R) α) (post : α → ν → Prop) : Prop :=
  ∀ v, inv v → pre v →
    p.run.Ensures answer view inv (fun r w => ∀ a, r = .ok a → post a w) v

variable {E : Type} {pre mid : ν → Prop}

theorem Sound.bind {post : α → ν → Prop} {post' : β → ν → Prop} {p : ExceptT E (Program C R) α}
    {f : α → ExceptT E (Program C R) β} (h : Sound answer view inv pre p post)
    (hf : ∀ a, Sound answer view inv (post a) (f a) post') :
    Sound answer view inv pre (p >>= f) post' := by
  intro v hv hpre
  rw [ExceptT.run_bind]
  refine (h v hv hpre).bind fun r w hw hpost => ?_
  cases r with
  | ok a => exact hf a w hw (hpost a rfl)
  | error e => exact ⟨hw, fun _ ha => by cases ha⟩

theorem Sound.mono {post post' : α → ν → Prop} {p : ExceptT E (Program C R) α}
    (h : Sound answer view inv mid p post) (hpre : ∀ v, pre v → mid v)
    (hpost : ∀ a v, post a v → post' a v) : Sound answer view inv pre p post' :=
  fun v hv hv' => (h v hv (hpre v hv')).mono fun _ w hw a ha => hpost a w (hw a ha)

theorem Sound.pure {post : α → ν → Prop} {a : α} (h : ∀ v, inv v → pre v → post a v) :
    Sound answer view inv pre (pure a : ExceptT E (Program C R) α) post :=
  fun v hv hpre => ⟨hv, fun _ ha => Except.ok.inj ha ▸ h v hv hpre⟩

theorem Sound.throw {post : α → ν → Prop} {e : E} :
    Sound answer view inv pre (throw e : ExceptT E (Program C R) α) post :=
  fun _ hv _ => ⟨hv, fun _ ha => by cases ha⟩

/-- What is never done is sound. -/
theorem Sound.vacuous {post : α → ν → Prop} {p : ExceptT E (Program C R) α}
    (h : ∀ v, inv v → ¬ pre v) : Sound answer view inv pre p post :=
  fun v hv hpre => (h v hv hpre).elim

theorem Sound.lift {c : C} {post : R c → ν → Prop}
    (h : ∀ s, inv (view s) → pre (view s) →
      inv (view (answer c s).1) ∧ post (answer c s).2 (view (answer c s).1)) :
    Sound answer view inv pre (ExceptT.lift (request c) : ExceptT E (Program C R) (R c)) post := by
  intro v hv hpre
  refine ⟨hv, fun s hs => ?_⟩
  subst hs
  obtain ⟨hnext, hpost⟩ := h s hv hpre
  exact ⟨hnext, fun _ ha => Except.ok.inj ha ▸ hpost⟩

end

/-- The next call of an operation; one that is done leaves nothing to do. -/
def exec (answer : (c : C) → σ → σ × R c) :
    κ × Program C R α → σ → Option (σ × List (κ × Program C R α) × List (κ × Seen C R σ))
  | (_, done _), s => some (s, [], [])
  | (op, call c next), s =>
    some ((answer c s).1, [(op, next (answer c s).2)], [(op, ⟨c, (answer c s).2, s⟩)])

end Program

/-- Callers that share a state and each follow the program of the operation they were asked for. -/
abbrev Program.step {C : Type} {R : C → Type} {α σ κ : Type} (answer : (c : C) → σ → σ × R c)
    (program : κ → Program C R α) : Transition (Workers.State σ (κ × Program C R α))
      (Workers.Action κ) (Nat × κ × Seen C R σ) :=
  Workers.step (fun op => [(op, program op)]) (Program.exec answer)

section
variable {C : Type} {R : C → Type} {α σ κ : Type} {answer : (c : C) → σ → σ × R c}
  {program : κ → Program C R α}

/-- All that is seen of a step is the call that was made, and the state changes with it alone. -/
theorem Program.step_follows (h : Program.step answer program s a = some (t, es)) :
    Follows answer s.shared (es.map fun e => e.2.2) t.shared := by
  cases a with
  | call i op =>
    obtain ⟨-, rfl, rfl⟩ := Workers.call_eq h
    rfl
  | advance i =>
    obtain ⟨⟨op, p⟩, rest, shared, more, es', -, hexec, rfl, rfl⟩ := Workers.advance_eq h
    cases p with
    | done a =>
      cases hexec
      rfl
    | call c next =>
      cases hexec
      exact ⟨rfl, rfl⟩

theorem Program.run_follows (h : Transition.run (Program.step answer program) s as = some (u, es)) :
    Follows answer s.shared (es.map fun e => e.2.2) u.shared := by
  induction as generalizing s es with
  | nil =>
    cases h
    rfl
  | cons a as ih =>
    obtain ⟨t, fs, gs, hstep, hrest, rfl⟩ := Transition.run_cons_eq h
    rw [List.map_append]
    exact follows_append.mpr ⟨t.shared, step_follows hstep, ih hrest⟩

/-- Every call that is seen was made as its operation makes them. -/
theorem Program.run_always {ok : κ → C → Prop} (hok : ∀ op, (program op).Always (ok op))
    (h : Transition.run (Program.step answer program) (Workers.idle s n) as = some (u, es)) :
    ∀ e ∈ es, ok e.2.1 e.2.2.call := by
  have hkeeps : Workers.Keeps (fun op => [(op, program op)]) (Program.exec answer)
      (fun _ => True) (fun _ => True) (fun _ t => t.2.Always (ok t.1)) := by
    refine ⟨fun _ _ _ _ _ _ => trivial, fun s op _ t ht => ?_, ?_⟩
    · rw [List.mem_singleton.mp ht]
      exact hok op
    · rintro s ⟨op, p⟩ s' more es - - - hfit hexec
      refine ⟨trivial, fun t' ht' => ?_, fun _ hfit' => hfit'⟩
      cases p with
      | done a =>
        cases hexec
        exact absurd ht' List.not_mem_nil
      | call c next =>
        cases hexec
        rw [List.mem_singleton.mp ht']
        exact hfit.2 _
  refine hkeeps.run_seen (fun _ e => ok e.1 e.2.call) ?_ (Workers.kept_idle n trivial trivial) h
  rintro s ⟨op, p⟩ s' more es hkept hleft hexec
  refine ⟨fun _ he => he, fun e he => ?_⟩
  cases p with
  | done a =>
    cases hexec
    exact absurd he List.not_mem_nil
  | call c next =>
    cases hexec
    rw [List.mem_singleton.mp he]
    exact (hkept.fit _ hleft).1

end
end CheetahMedia.Lib
