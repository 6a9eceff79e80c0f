namespace CheetahMedia.Lib

/-- A handler changes a state and puts things out as it goes. Both stay when it
stops with an error. -/
structure Handler (σ ω ε α : Type) where
  run : σ → σ × List ω × Except ε α

namespace Handler

def pure (a : α) : Handler σ ω ε α where
  run s := (s, [], .ok a)

def bind (m : Handler σ ω ε α) (f : α → Handler σ ω ε β) : Handler σ ω ε β where
  run s :=
    match m.run s with
    | (s', out, .ok a) =>
      let r := (f a).run s'
      (r.1, out ++ r.2.1, r.2.2)
    | (s', out, .error e) => (s', out, .error e)

instance : Monad (Handler σ ω ε) where
  pure := Handler.pure
  bind := Handler.bind

def fail (e : ε) : Handler σ ω ε α where
  run s := (s, [], .error e)

def ofExcept : Except ε α → Handler σ ω ε α
  | .ok a => pure a
  | .error e => fail e

/-- A part of the state. -/
def gets (p : σ → α) : Handler σ ω ε α where
  run s := (s, [], .ok (p s))

def modify (f : σ → σ) : Handler σ ω ε Unit where
  run s := (f s, [], .ok ())

/-- Change the state and say what came of it. -/
def modifyGet (f : σ → σ × α) : Handler σ ω ε α where
  run s := ((f s).1, [], .ok (f s).2)

def emit (o : ω) : Handler σ ω ε Unit where
  run s := (s, [o], .ok ())

/-- Hand a failure to the caller as a value. -/
def attempt (m : Handler σ ω ε α) : Handler σ ω ε (Except ε α) where
  run s := ((m.run s).1, (m.run s).2.1, .ok (m.run s).2.2)

def when (b : Bool) (m : Handler σ ω ε Unit) : Handler σ ω ε Unit :=
  if b then m else pure ()

/-- Handle the items in turn, up to the first failure. -/
def forEach (f : α → Handler σ ω ε Unit) : List α → Handler σ ω ε Unit
  | [] => pure ()
  | a :: as => f a >>= fun _ => forEach f as

@[simp] theorem when_true (m : Handler σ ω ε Unit) : when true m = m := rfl

@[simp] theorem when_false (m : Handler σ ω ε Unit) : when false m = pure () := rfl

theorem bind_ok {m : Handler σ ω ε α} {f : α → Handler σ ω ε β}
    (h : m.run s = (s', out, .ok a)) :
    (m >>= f).run s = (((f a).run s').1, out ++ ((f a).run s').2.1, ((f a).run s').2.2) := by
  show (match m.run s with
    | (s', out, .ok a) => _
    | (s', out, .error e) => _) = _
  rw [h]

theorem bind_error {m : Handler σ ω ε α} {f : α → Handler σ ω ε β}
    (h : m.run s = (s', out, .error e)) : (m >>= f).run s = (s', out, .error e) := by
  show (match m.run s with
    | (s', out, .ok a) => _
    | (s', out, .error e) => _) = _
  rw [h]

/-- Requests answered in turn: each gives things put out and the next server state. -/
def plays (play : κ → φ → κ × List ω) : κ → List φ → κ × List ω
  | k, [] => (k, [])
  | k, f :: fs =>
    let r := plays play (play k f).1 fs
    (r.1, (play k f).2 ++ r.2)

theorem plays_append (play : κ → φ → κ × List ω) (k : κ) (fs fs' : List φ) :
    plays play k (fs ++ fs') = ((plays play (plays play k fs).1 fs').1,
      (plays play k fs).2 ++ (plays play (plays play k fs).1 fs').2) := by
  induction fs generalizing k with
  | nil => rfl
  | cons f fs ih => simp only [List.cons_append, plays, ih, List.append_assoc]

theorem gets_bind (p : σ → α) (f : α → Handler σ ω ε β) (s : σ) :
    (Handler.gets p >>= f).run s = (f (p s)).run s := rfl

theorem modify_bind (g : σ → σ) (f : Unit → Handler σ ω ε β) (s : σ) :
    (Handler.modify g >>= f).run s = (f ()).run (g s) := rfl

theorem modifyGet_bind (g : σ → σ × α) (f : α → Handler σ ω ε β) (s : σ) :
    (Handler.modifyGet g >>= f).run s = (f (g s).2).run (g s).1 := rfl

theorem bind_eq_ok {m : Handler σ ω ε α} {f : α → Handler σ ω ε β}
    (h : (m >>= f).run s = (s'', out, .ok b)) : ∃ s' out₁ a out₂, m.run s = (s', out₁, .ok a) ∧
      (f a).run s' = (s'', out₂, .ok b) ∧ out = out₁ ++ out₂ := by
  rcases hm : m.run s with ⟨s', out₁, r⟩
  cases r with
  | error e =>
    rw [bind_error hm] at h
    cases h
  | ok a =>
    rw [bind_ok hm] at h
    refine ⟨s', out₁, a, ((f a).run s').2.1, rfl, ?_, ?_⟩
    · simp only [Prod.mk.injEq] at h
      rw [← h.1, ← h.2.2]
    · simp only [Prod.mk.injEq] at h
      exact h.2.1.symm

/-- When it succeeds, all that a handler does to the part `get` of the state, and all
it puts out, is the answer to requests of which `P` holds. `keep` stays. -/
def Serves (get : σ → κ) (play : κ → φ → κ × List ω) (keep : σ → τ) (P : List φ → Prop)
    (m : Handler σ ω ε α) : Prop :=
  ∀ s s' out a, m.run s = (s', out, .ok a) → ∃ fs, P fs ∧ keep s' = keep s ∧
    get s' = (plays play (get s) fs).1 ∧ out = (plays play (get s) fs).2

namespace Serves
variable {get : σ → κ} {play : κ → φ → κ × List ω} {keep : σ → τ} {P Q R : List φ → Prop}

/-- A handler that puts nothing out and leaves the part alone. -/
theorem silent {m : Handler σ ω ε α} (hP : P [])
    (h : ∀ s, get (m.run s).1 = get s ∧ keep (m.run s).1 = keep s ∧ (m.run s).2.1 = []) :
    Serves get play keep P m := by
  intro s s' out a hrun
  have hs := h s
  rw [hrun] at hs
  exact ⟨[], hP, hs.2.1, hs.1, hs.2.2⟩

theorem bind {m : Handler σ ω ε α} {f : α → Handler σ ω ε β}
    (hR : ∀ fs fs', P fs → Q fs' → R (fs ++ fs')) (hm : Serves get play keep P m)
    (hf : ∀ a, Serves get play keep Q (f a)) : Serves get play keep R (m >>= f) := by
  intro s s'' out b hrun
  obtain ⟨s', out₁, a, out₂, hrun₁, hrun₂, rfl⟩ := bind_eq_ok hrun
  obtain ⟨fs, hP, hkeep, hget, hout⟩ := hm s s' out₁ a hrun₁
  obtain ⟨fs', hQ, hkeep', hget', hout'⟩ := hf a s' s'' out₂ b hrun₂
  refine ⟨fs ++ fs', hR fs fs' hP hQ, hkeep'.trans hkeep, ?_, ?_⟩
  · rw [plays_append, ← hget]
    exact hget'
  · rw [plays_append, ← hget, hout, hout']

theorem when {m : Handler σ ω ε Unit} (b : Bool) (hP : P []) (hm : Serves get play keep P m) :
    Serves get play keep P (Handler.when b m) := by
  cases b with
  | true => exact hm
  | false => exact silent hP fun s => ⟨rfl, rfl, rfl⟩

end Serves

/-- A part `κ` of the state that answers requests. -/
structure Device (σ κ φ ω : Type) where
  put : κ → σ → σ
  play : κ → φ → κ × List ω
  put_put : put k (put k' s) = put k s

/-- A handler that is oblivious of the device only sends it requests: which ones,
the answer and the rest of the state do not depend on it. What `keep` reads off the
rest stays. -/
def Oblivious (D : Device σ κ φ ω) (ok : φ → Prop) (keep : σ → τ)
    (m : Handler σ ω ε α) : Prop :=
  ∀ s, ∃ t fs r, keep t = keep s ∧ (∀ f ∈ fs, ok f) ∧
    ∀ k, m.run (D.put k s) = (D.put (plays D.play k fs).1 t, (plays D.play k fs).2, r)

namespace Oblivious
variable {D : Device σ κ φ ω} {ok : φ → Prop} {keep : σ → τ}

theorem pure (a : α) : Oblivious D ok keep (Pure.pure a : Handler σ ω ε α) :=
  fun s => ⟨s, [], .ok a, rfl, nofun, fun _ => rfl⟩

theorem fail (e : ε) : Oblivious D ok keep (Handler.fail e : Handler σ ω ε α) :=
  fun s => ⟨s, [], .error e, rfl, nofun, fun _ => rfl⟩

theorem ofExcept (r : Except ε α) :
    Oblivious D ok keep (Handler.ofExcept r : Handler σ ω ε α) := by
  cases r with
  | ok a => exact pure a
  | error e => exact fail e

theorem gets {p : σ → α} (h : ∀ k s, p (D.put k s) = p s) :
    Oblivious D ok keep (Handler.gets p : Handler σ ω ε α) :=
  fun s => ⟨s, [], .ok (p s), rfl, nofun, fun k => by rw [← h k s]; rfl⟩

theorem modify {f : σ → σ} (h : ∀ k s, f (D.put k s) = D.put k (f s))
    (hkeep : ∀ s, keep (f s) = keep s) :
    Oblivious D ok keep (Handler.modify f : Handler σ ω ε Unit) :=
  fun s => ⟨f s, [], .ok (), hkeep s, nofun, fun k => by rw [plays, ← h k s]; rfl⟩

theorem modifyGet {f : σ → σ × α}
    (h : ∀ k s, f (D.put k s) = (D.put k (f s).1, (f s).2))
    (hkeep : ∀ s, keep (f s).1 = keep s) :
    Oblivious D ok keep (Handler.modifyGet f : Handler σ ω ε α) :=
  fun s => ⟨(f s).1, [], .ok (f s).2, hkeep s, nofun, fun k => by
    show ((f (D.put k s)).1, _, _) = _
    rw [h k s]
    rfl⟩

theorem request {m : Handler σ ω ε α} (f : φ) (a : α) (hf : ok f)
    (h : ∀ k s, m.run (D.put k s) = (D.put (D.play k f).1 s, (D.play k f).2, .ok a)) :
    Oblivious D ok keep m :=
  fun s => ⟨s, [f], .ok a, rfl, by simpa using hf, fun k => by
    rw [h k s]
    simp [plays]⟩

theorem bind {m : Handler σ ω ε α} {f : α → Handler σ ω ε β} (hm : Oblivious D ok keep m)
    (hf : ∀ a, Oblivious D ok keep (f a)) : Oblivious D ok keep (m >>= f) := by
  intro s
  obtain ⟨t, fs, r, hkeep, hok, hrun⟩ := hm s
  cases r with
  | error e => exact ⟨t, fs, .error e, hkeep, hok, fun k => bind_error (hrun k)⟩
  | ok a =>
    obtain ⟨t', fs', r', hkeep', hok', hrun'⟩ := hf a t
    refine ⟨t', fs ++ fs', r', hkeep'.trans hkeep, ?_, fun k => ?_⟩
    · intro g hg
      rcases List.mem_append.mp hg with hfs | hfs'
      · exact hok g hfs
      · exact hok' g hfs'
    · rw [bind_ok (hrun k), hrun', plays_append]

theorem mono {keep' : σ → τ'} {m : Handler σ ω ε α} (hm : Oblivious D ok keep m)
    (h : ∀ s t, keep t = keep s → keep' t = keep' s) : Oblivious D ok keep' m := by
  intro s
  obtain ⟨t, fs, r, hkeep, hrest⟩ := hm s
  exact ⟨t, fs, r, h s t hkeep, hrest⟩

theorem attempt {m : Handler σ ω ε α} (hm : Oblivious D ok keep m) :
    Oblivious D ok keep (Handler.attempt m) := by
  intro s
  obtain ⟨t, fs, r, hkeep, hok, hrun⟩ := hm s
  exact ⟨t, fs, .ok r, hkeep, hok, fun k => by simp only [Handler.attempt, hrun]⟩

theorem when {m : Handler σ ω ε Unit} (b : Bool) (hm : Oblivious D ok keep m) :
    Oblivious D ok keep (Handler.when b m) := by
  cases b with
  | true => exact hm
  | false => exact pure ()

theorem forEach {f : α → Handler σ ω ε Unit} (hf : ∀ a, Oblivious D ok keep (f a))
    (as : List α) : Oblivious D ok keep (Handler.forEach f as) := by
  induction as with
  | nil => exact pure ()
  | cons a as ih => exact bind (hf a) fun _ => ih

/-- What the device answers is all that a view of it notices. -/
theorem serves {m : Handler σ ω ε α} {view : κ → κ'} {get : σ → κ'}
    {play : κ' → φ → κ' × List ω} (hm : Oblivious D ok keep m)
    (hput : ∀ s, ∃ k, D.put k s = s) (hget : ∀ k s, get (D.put k s) = view k)
    (hkeep : ∀ k s, keep (D.put k s) = keep s)
    (hplay : ∀ k f, play (view k) f = (view (D.play k f).1, (D.play k f).2)) :
    Serves get play keep (∀ f ∈ ·, ok f) m := by
  intro s s' out a hrun'
  obtain ⟨t, fs, r, ht, hok, hrun⟩ := hm s
  obtain ⟨k, hk⟩ := hput s
  have hplays (k : κ) (fs : List φ) : plays play (view k) fs =
      (view (plays D.play k fs).1, (plays D.play k fs).2) := by
    induction fs generalizing k with
    | nil => rfl
    | cons f fs ih => simp only [plays, hplay, ih]
  have hboth := hrun k
  rw [hk, hrun'] at hboth
  simp only [Prod.mk.injEq] at hboth
  refine ⟨fs, hok, ?_, ?_, ?_⟩
  · rw [hboth.1, hkeep, ht]
  · rw [← hk, hget, hboth.1, hget, hplays]
  · rw [← hk, hget, hboth.2.1, hplays]

end Oblivious

/-- Look at what a handler puts out through `g`. -/
def observe (g : ω → Option ω') (m : Handler σ ω ε α) : Handler σ ω' ε α where
  run s := ((m.run s).1, (m.run s).2.1.filterMap g, (m.run s).2.2)

theorem ext {m m' : Handler σ ω ε α} (h : ∀ s, m.run s = m'.run s) : m = m' := by
  cases m
  cases m'
  congr
  exact funext h

theorem pure_bind (a : α) (f : α → Handler σ ω ε β) :
    (Pure.pure a : Handler σ ω ε α) >>= f = f a := ext fun _ => rfl

theorem bind_assoc (m : Handler σ ω ε α) (f : α → Handler σ ω ε β) (g : β → Handler σ ω ε γ) :
    m >>= f >>= g = m >>= fun a => f a >>= g := by
  refine ext fun s => ?_
  rcases hm : m.run s with ⟨s', out, r⟩
  cases r with
  | error e => rw [bind_error hm, bind_error (bind_error hm)]
  | ok a =>
    rw [bind_ok hm]
    rcases hf : (f a).run s' with ⟨s'', out', r⟩
    have hboth : (m >>= f).run s = (s'', out ++ out', r) := by rw [bind_ok hm, hf]
    cases r with
    | error e => rw [bind_error hboth, bind_error hf]
    | ok b => rw [bind_ok hboth, bind_ok hf, List.append_assoc]

theorem observe_run (g : ω → Option ω') (m : Handler σ ω ε α) (s : σ) :
    (m.observe g).run s = ((m.run s).1, (m.run s).2.1.filterMap g, (m.run s).2.2) := rfl

theorem observe_bind (g : ω → Option ω') (m : Handler σ ω ε α) (f : α → Handler σ ω ε β) :
    (m >>= f).observe g = m.observe g >>= fun a => (f a).observe g := by
  refine ext fun s => ?_
  rcases hm : m.run s with ⟨s', out, r⟩
  cases r with
  | error e =>
    have hobserve : (m.observe g).run s = (s', out.filterMap g, .error e) := by
      rw [observe_run, hm]
    rw [bind_error hobserve, observe_run, bind_error hm]
  | ok a =>
    have hobserve : (m.observe g).run s = (s', out.filterMap g, .ok a) := by
      rw [observe_run, hm]
    rw [bind_ok hobserve, observe_run, bind_ok hm, List.filterMap_append]
    rfl

theorem observe_forEach (g : ω → Option ω') (f : α → Handler σ ω ε Unit) (as : List α) :
    (forEach f as).observe g = forEach (fun a => (f a).observe g) as := by
  induction as with
  | nil => rfl
  | cons a as ih => rw [forEach, observe_bind, forEach, ih]

theorem observe_when (g : ω → Option ω') (b : Bool) (m : Handler σ ω ε Unit) :
    (Handler.when b m).observe g = Handler.when b (m.observe g) := by
  cases b with
  | true => rfl
  | false => rfl

/-- What was put out under another name is seen as before. -/
theorem observe_observe (g : ω → ω') (g' : ω' → Option ω) (h : ∀ o, g' (g o) = some o)
    (m : Handler σ ω ε α) : (m.observe fun o => some (g o)).observe g' = m := by
  refine ext fun s => ?_
  have hout : ((m.run s).2.1.filterMap fun o => some (g o)).filterMap g' = (m.run s).2.1 := by
    rw [List.filterMap_filterMap]
    simp [h]
  simp only [observe, hout]

/-- A handler that keeps what `view` shows of the state and puts out nothing but what
is `calm`, whether it succeeds or not. -/
def Keeps (view : σ → τ) (calm : ω → Prop) (m : Handler σ ω ε α) : Prop :=
  ∀ s, view (m.run s).1 = view s ∧ ∀ o ∈ (m.run s).2.1, calm o

namespace Keeps
variable {view : σ → τ} {calm : ω → Prop}

theorem pure (a : α) : Keeps view calm (Pure.pure a : Handler σ ω ε α) :=
  fun _ => ⟨rfl, List.forall_mem_nil _⟩

theorem fail (e : ε) : Keeps view calm (Handler.fail e : Handler σ ω ε α) :=
  fun _ => ⟨rfl, List.forall_mem_nil _⟩

theorem ofExcept (r : Except ε α) : Keeps view calm (Handler.ofExcept r : Handler σ ω ε α) := by
  cases r with
  | ok a => exact pure a
  | error e => exact fail e

theorem gets (p : σ → α) : Keeps view calm (Handler.gets p : Handler σ ω ε α) :=
  fun _ => ⟨rfl, List.forall_mem_nil _⟩

theorem modify {f : σ → σ} (h : ∀ s, view (f s) = view s) :
    Keeps view calm (Handler.modify f : Handler σ ω ε Unit) :=
  fun s => ⟨h s, List.forall_mem_nil _⟩

theorem modifyGet {f : σ → σ × α} (h : ∀ s, view (f s).1 = view s) :
    Keeps view calm (Handler.modifyGet f : Handler σ ω ε α) :=
  fun s => ⟨h s, List.forall_mem_nil _⟩

theorem emit {o : ω} (h : calm o) : Keeps view calm (Handler.emit o : Handler σ ω ε Unit) :=
  fun _ => ⟨rfl, List.forall_mem_singleton.mpr h⟩

theorem bind {m : Handler σ ω ε α} {f : α → Handler σ ω ε β} (hm : Keeps view calm m)
    (hf : ∀ a, Keeps view calm (f a)) : Keeps view calm (m >>= f) := by
  intro s
  obtain ⟨hview, hcalm⟩ := hm s
  rcases hrun : m.run s with ⟨s', out, r⟩
  rw [hrun] at hview hcalm
  cases r with
  | error e =>
    rw [bind_error hrun]
    exact ⟨hview, hcalm⟩
  | ok a =>
    obtain ⟨hview', hcalm'⟩ := hf a s'
    rw [bind_ok hrun]
    exact ⟨hview'.trans hview, List.forall_mem_append.mpr ⟨hcalm, hcalm'⟩⟩

theorem attempt {m : Handler σ ω ε α} (hm : Keeps view calm m) :
    Keeps view calm (Handler.attempt m) := hm

theorem when {m : Handler σ ω ε Unit} (b : Bool) (hm : Keeps view calm m) :
    Keeps view calm (Handler.when b m) := by
  cases b with
  | true => exact hm
  | false => exact pure ()

end Keeps

end Handler

end CheetahMedia.Lib
