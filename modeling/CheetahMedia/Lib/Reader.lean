namespace CheetahMedia.Lib

/-- A reader over a buffer with a state that survives a failure. The buffer is
returned only on success: a caller that fails drops its cursor. -/
structure Reader (σ ε β α : Type) where
  run : List β → σ → σ × Except ε (α × List β)

namespace Reader

def pure (a : α) : Reader σ ε β α where
  run buf s := (s, .ok (a, buf))

def bind (m : Reader σ ε β α) (f : α → Reader σ ε β γ) : Reader σ ε β γ where
  run buf s :=
    match m.run buf s with
    | (s', .ok (a, rest)) => (f a).run rest s'
    | (s', .error e) => (s', .error e)

instance : Monad (Reader σ ε β) where
  pure := Reader.pure
  bind := Reader.bind

def fail (e : ε) : Reader σ ε β α where
  run _ s := (s, .error e)

def get : Reader σ ε β σ where
  run buf s := (s, .ok (s, buf))

def modify (f : σ → σ) : Reader σ ε β Unit where
  run buf s := (f s, .ok ((), buf))

/-- Lift a result that needs no input. -/
def ofExcept : Except ε α → Reader σ ε β α
  | .ok a => pure a
  | .error e => fail e

/-- Run `m` on a state of its own, which is stored whether `m` succeeds or fails. -/
def nested (t : τ) (store : τ → σ → σ) (m : Reader τ ε β α) : Reader σ ε β (α × τ) where
  run buf s :=
    match m.run buf t with
    | (t', .ok (a, rest)) => (store t' s, .ok ((a, t'), rest))
    | (t', .error e) => (store t' s, .error e)

/-- Take the next `n` items, or fail with `short` when there are fewer. -/
def take (short : ε) (n : Nat) : Reader σ ε β (List β) where
  run buf s :=
    if buf.length < n then (s, .error short) else (s, .ok (buf.take n, buf.drop n))

/-- The items that are left. -/
def remaining : Reader σ ε β Nat where
  run buf s := (s, .ok (buf.length, buf))

/-- Take everything. -/
def takeAll : Reader σ ε β (List β) where
  run buf s := (s, .ok (buf, []))

/-- Look at the next item without taking it. -/
def peek : Reader σ ε β (Option β) where
  run buf s := (s, .ok (buf.head?, buf))

/-- Run `m` a number of times, stopping at the first failure. -/
def times (m : Reader σ ε β α) : Nat → Reader σ ε β (List α)
  | 0 => Reader.pure []
  | n + 1 => do
    let a ← m
    let as ← times m n
    return a :: as

@[simp] theorem run_pure (a : α) (buf : List β) (s : σ) :
    (Pure.pure a : Reader σ ε β α).run buf s = (s, .ok (a, buf)) := rfl

@[simp] theorem run_fail (e : ε) (buf : List β) (s : σ) :
    (fail e : Reader σ ε β α).run buf s = (s, .error e) := rfl

@[simp] theorem run_get (buf : List β) (s : σ) :
    (get : Reader σ ε β σ).run buf s = (s, .ok (s, buf)) := rfl

@[simp] theorem run_modify (f : σ → σ) (buf : List β) (s : σ) :
    (modify f : Reader σ ε β Unit).run buf s = (f s, .ok ((), buf)) := rfl

@[simp] theorem run_ofExcept_ok (a : α) (buf : List β) (s : σ) :
    (ofExcept (.ok a) : Reader σ ε β α).run buf s = (s, .ok (a, buf)) := rfl

@[simp] theorem run_ofExcept_error (e : ε) (buf : List β) (s : σ) :
    (ofExcept (.error e) : Reader σ ε β α).run buf s = (s, .error e) := rfl

theorem run_bind (m : Reader σ ε β α) (f : α → Reader σ ε β γ) (buf : List β) (s : σ) :
    (m >>= f).run buf s = match m.run buf s with
      | (s', .ok (a, rest)) => (f a).run rest s'
      | (s', .error e) => (s', .error e) := rfl

theorem bind_ok {m : Reader σ ε β α} {f : α → Reader σ ε β γ}
    (h : m.run buf s = (s', .ok (a, rest))) : (m >>= f).run buf s = (f a).run rest s' := by
  rw [run_bind, h]

theorem bind_error {m : Reader σ ε β α} {f : α → Reader σ ε β γ}
    (h : m.run buf s = (s', .error e)) : (m >>= f).run buf s = (s', .error e) := by
  rw [run_bind, h]

/-- A sequence succeeds exactly when both halves do. -/
theorem bind_eq_ok {m : Reader σ ε β α} {f : α → Reader σ ε β γ}
    (h : (m >>= f).run buf s = (t, .ok (c, rest))) :
    ∃ s' a mid, m.run buf s = (s', .ok (a, mid)) ∧ (f a).run mid s' = (t, .ok (c, rest)) := by
  rw [run_bind] at h
  match hm : m.run buf s with
  | (s', .ok (a, mid)) => rw [hm] at h; exact ⟨s', a, mid, rfl, h⟩
  | (s', .error e) => rw [hm] at h; cases h

/-- A sequence fails in one of its halves. -/
theorem bind_eq_error {m : Reader σ ε β α} {f : α → Reader σ ε β γ}
    (h : (m >>= f).run buf s = (t, .error e)) :
    m.run buf s = (t, .error e) ∨
      ∃ s' a mid, m.run buf s = (s', .ok (a, mid)) ∧ (f a).run mid s' = (t, .error e) := by
  rw [run_bind] at h
  match hm : m.run buf s with
  | (s', .ok (a, mid)) => rw [hm] at h; exact .inr ⟨s', a, mid, rfl, h⟩
  | (s', .error e') => rw [hm] at h; cases h; exact .inl rfl

theorem nested_ok {m : Reader τ ε β α} (h : m.run buf t = (t', .ok (a, rest)))
    (store : τ → σ → σ) (s : σ) :
    (nested t store m).run buf s = (store t' s, .ok ((a, t'), rest)) := by
  simp only [nested, h]

theorem nested_error {m : Reader τ ε β α} (h : m.run buf t = (t', .error e))
    (store : τ → σ → σ) (s : σ) :
    (nested t store m).run buf s = (store t' s, .error e) := by
  simp only [nested, h]

theorem nested_eq_ok {m : Reader τ ε β α} {store : τ → σ → σ}
    (h : (nested t store m).run buf s = (s', .ok (r, rest))) :
    m.run buf t = (r.2, .ok (r.1, rest)) ∧ s' = store r.2 s := by
  match hm : m.run buf t with
  | (t', .ok (a, mid)) =>
    rw [nested_ok hm] at h
    cases h
    exact ⟨rfl, rfl⟩
  | (t', .error e) => rw [nested_error hm] at h; cases h

theorem nested_eq_error {m : Reader τ ε β α} {store : τ → σ → σ}
    (h : (nested t store m).run buf s = (s', .error e)) :
    ∃ t', m.run buf t = (t', .error e) ∧ s' = store t' s := by
  match hm : m.run buf t with
  | (t', .ok (a, mid)) => rw [nested_ok hm] at h; cases h
  | (t', .error e') =>
    rw [nested_error hm] at h
    cases h
    exact ⟨t', rfl, rfl⟩

theorem take_append (short : ε) (front rest : List β) (s : σ) :
    (take short front.length).run (front ++ rest) s = (s, .ok (front, rest)) := by
  simp [take]

theorem take_of_length (h : front.length = n) (short : ε) (rest : List β) (s : σ) :
    (take short n).run (front ++ rest) s = (s, .ok (front, rest)) := by
  subst h
  exact take_append short front rest s

theorem take_eq_ok {short : ε} (h : (take short n).run buf s = (t, .ok (front, rest))) :
    t = s ∧ front.length = n ∧ buf = front ++ rest := by
  simp only [take] at h
  split at h
  · cases h
  · rename_i hn
    cases h
    refine ⟨rfl, ?_, (List.take_append_drop n buf).symm⟩
    rw [List.length_take]
    omega

theorem take_eq_error {short : ε} (h : (take short n).run buf s = (t, .error e)) :
    t = s ∧ e = short ∧ buf.length < n := by
  simp only [take] at h
  split at h
  · rename_i hn
    cases h
    exact ⟨rfl, rfl, hn⟩
  · cases h

/-- `m` reads `bytes` as `a` whatever follows them and whatever its state is. -/
def Reads (m : Reader σ ε β α) (bytes : List β) (a : α) : Prop :=
  ∀ rest s, ∃ s', m.run (bytes ++ rest) s = (s', .ok (a, rest))

namespace Reads
variable {m : Reader σ ε β α} {f : α → Reader σ ε β γ}

theorem of_run (h : ∀ rest s, m.run (bytes ++ rest) s = (s, .ok (a, rest))) :
    Reads m bytes a := fun rest s => ⟨s, h rest s⟩

theorem pure (a : α) : Reads (Pure.pure a : Reader σ ε β α) [] a := fun _ s => ⟨s, rfl⟩

theorem modify (f : σ → σ) : Reads (Reader.modify f : Reader σ ε β Unit) [] () :=
  fun _ s => ⟨f s, rfl⟩

theorem bind (hm : Reads m xs a) (hf : Reads (f a) ys c) : Reads (m >>= f) (xs ++ ys) c := by
  intro rest s
  obtain ⟨s', hs'⟩ := hm (ys ++ rest) s
  obtain ⟨t, ht⟩ := hf rest s'
  exact ⟨t, by rw [List.append_assoc, bind_ok hs', ht]⟩

/-- The rest of the sequence takes nothing. -/
theorem bind_last (hm : Reads m bytes a) (hf : Reads (f a) [] c) : Reads (m >>= f) bytes c := by
  have h := hm.bind hf
  rwa [List.append_nil] at h

theorem map (hm : Reads m bytes a) (g : α → γ) :
    Reads (m >>= fun a => Pure.pure (g a)) bytes (g a) := hm.bind_last (.pure (g a))

theorem silent_bind {bytes : List β} (hm : Reads m [] a) (hf : Reads (f a) bytes c) :
    Reads (m >>= f) bytes c := hm.bind hf

theorem get_bind {f : σ → Reader σ ε β γ} (h : ∀ s, Reads (f s) bytes c) :
    Reads (Reader.get >>= f) bytes c := by
  intro rest s
  obtain ⟨t, ht⟩ := h s rest s
  exact ⟨t, by rw [bind_ok (run_get _ _), ht]⟩

theorem peek_bind {f : Option β → Reader σ ε β γ} (h : Reads (f (some b)) (b :: bytes) c) :
    Reads (Reader.peek >>= f) (b :: bytes) c := h

theorem remaining_bind {f : Nat → Reader σ ε β γ} (h : ∀ n, bytes.length ≤ n → Reads (f n) bytes c) :
    Reads (Reader.remaining >>= f) bytes c := by
  intro rest s
  obtain ⟨t, ht⟩ := h (bytes ++ rest).length (by rw [List.length_append]; omega) rest s
  exact ⟨t, by rw [run_bind]; exact ht⟩

theorem nested {m : Reader τ ε β α} (hm : Reads m bytes a) (t : τ) (store : τ → σ → σ)
    {f : α × τ → Reader σ ε β γ} (hf : ∀ t', Reads (f (a, t')) rest c) :
    Reads (Reader.nested t store m >>= f) (bytes ++ rest) c := by
  intro more s
  obtain ⟨t', ht'⟩ := hm (rest ++ more) t
  obtain ⟨s', hs'⟩ := hf t' more (store t' s)
  exact ⟨s', by rw [List.append_assoc, bind_ok (nested_ok ht' store s), hs']⟩

end Reads

/-- As `Reads`, for a reader that may look at the end of its buffer. -/
def ReadsAll (m : Reader σ ε β α) (bytes : List β) (a : α) : Prop :=
  ∀ s, ∃ s', m.run bytes s = (s', .ok (a, []))

namespace ReadsAll
variable {m : Reader σ ε β α} {f : α → Reader σ ε β γ}

theorem of_reads (h : Reads m bytes a) : ReadsAll m bytes a := by
  intro s
  obtain ⟨s', hs'⟩ := h [] s
  rw [List.append_nil] at hs'
  exact ⟨s', hs'⟩

theorem takeAll (bytes : List β) : ReadsAll (Reader.takeAll : Reader σ ε β (List β)) bytes bytes :=
  fun s => ⟨s, rfl⟩

theorem bind (hm : Reads m xs a) (hf : ReadsAll (f a) ys c) :
    ReadsAll (m >>= f) (xs ++ ys) c := by
  intro s
  obtain ⟨s', hs'⟩ := hm ys s
  obtain ⟨t, ht⟩ := hf s'
  exact ⟨t, by rw [bind_ok hs', ht]⟩

theorem silent_bind {bytes : List β} (hm : Reads m [] a) (hf : ReadsAll (f a) bytes c) :
    ReadsAll (m >>= f) bytes c := bind hm hf

/-- As `bind`, after a reader of one item. -/
theorem cons (hm : Reads m [b] a) (hf : ReadsAll (f a) ys c) :
    ReadsAll (m >>= f) (b :: ys) c := bind hm hf

theorem map (hm : ReadsAll m bytes a) (g : α → γ) :
    ReadsAll (m >>= fun a => Pure.pure (g a)) bytes (g a) := by
  intro s
  obtain ⟨s', hs'⟩ := hm s
  exact ⟨s', by rw [bind_ok hs', run_pure]⟩

theorem remaining_bind {f : Nat → Reader σ ε β γ} (h : ReadsAll (f bytes.length) bytes c) :
    ReadsAll (Reader.remaining >>= f) bytes c := h

theorem peek_bind {f : Option β → Reader σ ε β γ} (h : ReadsAll (f bytes.head?) bytes c) :
    ReadsAll (Reader.peek >>= f) bytes c := h

end ReadsAll

/-- A reader is local when its answer depends on the bytes it consumed only,
and a failure that is not a call for more input stays whatever arrives later. -/
structure Local (short : ε → Prop) (m : Reader σ ε β α) : Prop where
  ok : ∀ {buf s t a rest}, m.run buf s = (t, .ok (a, rest)) →
    ∃ used, buf = used ++ rest ∧ ∀ more, m.run (used ++ more) s = (t, .ok (a, more))
  failed : ∀ {buf s t e}, m.run buf s = (t, .error e) → ¬ short e →
    ∀ more, m.run (buf ++ more) s = (t, .error e)

theorem Local.pure (short : ε → Prop) (a : α) :
    Local short (Pure.pure a : Reader σ ε β α) where
  ok h := by
    cases h
    exact ⟨[], rfl, fun _ => rfl⟩
  failed h := by cases h

theorem Local.fail (short : ε → Prop) (e : ε) : Local short (Reader.fail e : Reader σ ε β α) where
  ok h := by cases h
  failed h _ _ := by
    cases h
    rfl

theorem Local.ofExcept (short : ε → Prop) (r : Except ε α) :
    Local short (Reader.ofExcept r : Reader σ ε β α) := by
  cases r with
  | ok a => exact Local.pure short a
  | error e => exact Local.fail short e

theorem Local.get (short : ε → Prop) : Local short (Reader.get : Reader σ ε β σ) where
  ok h := by
    cases h
    exact ⟨[], rfl, fun _ => rfl⟩
  failed h := by cases h

theorem Local.modify (short : ε → Prop) (f : σ → σ) :
    Local short (Reader.modify f : Reader σ ε β Unit) where
  ok h := by
    cases h
    exact ⟨[], rfl, fun _ => rfl⟩
  failed h := by cases h

theorem Local.take {short : ε → Prop} {e : ε} (hs : short e) (n : Nat) :
    Local short (Reader.take e n : Reader σ ε β (List β)) where
  ok h := by
    obtain ⟨rfl, hlen, rfl⟩ := take_eq_ok h
    exact ⟨_, rfl, fun more => take_of_length hlen e more _⟩
  failed h hn := by
    obtain ⟨_, rfl, _⟩ := take_eq_error h
    exact absurd hs hn

theorem Local.bind {short : ε → Prop} {m : Reader σ ε β α} {f : α → Reader σ ε β γ}
    (hm : Local short m) (hf : ∀ a, Local short (f a)) : Local short (m >>= f) where
  ok h := by
    obtain ⟨s', a, mid, hfirst, hrest⟩ := bind_eq_ok h
    obtain ⟨used, rfl, hused⟩ := hm.ok hfirst
    obtain ⟨used', rfl, hused'⟩ := (hf a).ok hrest
    refine ⟨used ++ used', by simp, fun more => ?_⟩
    rw [List.append_assoc, bind_ok (hused (used' ++ more))]
    exact hused' more
  failed h hn more := by
    rcases bind_eq_error h with h | ⟨s', a, mid, hfirst, hrest⟩
    · exact bind_error (hm.failed h hn more)
    · obtain ⟨used, rfl, hused⟩ := hm.ok hfirst
      rw [List.append_assoc, bind_ok (hused (mid ++ more))]
      exact (hf a).failed hrest hn more

theorem Local.nested {short : ε → Prop} {m : Reader τ ε β α} (hm : Local short m) (t : τ)
    (store : τ → σ → σ) : Local short (Reader.nested t store m) where
  ok h := by
    obtain ⟨hrun, rfl⟩ := nested_eq_ok h
    obtain ⟨used, rfl, hused⟩ := hm.ok hrun
    exact ⟨used, rfl, fun more => nested_ok (hused more) store _⟩
  failed h hn more := by
    obtain ⟨t', hrun, rfl⟩ := nested_eq_error h
    exact nested_error (hm.failed hrun hn more) store _

/-- From a state in `Inv`, a success leaves a state in `Inv` and a result in `post`. -/
def Returns (Inv : σ → Prop) (m : Reader σ ε β α) (post : α → Prop) : Prop :=
  ∀ buf s t a rest, Inv s → m.run buf s = (t, .ok (a, rest)) → Inv t ∧ post a

namespace Returns
variable {Inv : σ → Prop} {post : α → Prop} {mid : γ → Prop}

theorem pure (h : post a) : Returns Inv (Pure.pure a : Reader σ ε β α) post := by
  intro buf s t b rest hs hrun
  cases hrun
  exact ⟨hs, h⟩

theorem fail (e : ε) : Returns Inv (Reader.fail e : Reader σ ε β α) post := by
  intro buf s t a rest _ hrun
  cases hrun

theorem bind {m : Reader σ ε β γ} {f : γ → Reader σ ε β α} (hm : Returns Inv m mid)
    (hf : ∀ c, mid c → Returns Inv (f c) post) : Returns Inv (m >>= f) post := by
  intro buf s u b rest hs hrun
  obtain ⟨t, c, after, hfirst, hlater⟩ := bind_eq_ok hrun
  obtain ⟨ht, hc⟩ := hm buf s t c after hs hfirst
  exact hf c hc after t u b rest ht hlater

theorem mono {m : Reader σ ε β α} {post' : α → Prop} (hm : Returns Inv m post)
    (h : ∀ a, post a → post' a) : Returns Inv m post' := by
  intro buf s t a rest hs hrun
  obtain ⟨ht, ha⟩ := hm buf s t a rest hs hrun
  exact ⟨ht, h a ha⟩

theorem map {m : Reader σ ε β γ} {g : γ → α} (hm : Returns Inv m mid)
    (h : ∀ c, mid c → post (g c)) : Returns Inv (m >>= fun c => Pure.pure (g c)) post :=
  hm.bind fun c hc => .pure (h c hc)

theorem get_bind {f : σ → Reader σ ε β α} (h : ∀ s, Inv s → Returns Inv (f s) post) :
    Returns Inv (Reader.get >>= f) post := by
  intro buf s t a rest hs hrun
  rw [bind_ok (run_get _ _)] at hrun
  exact h s hs buf s t a rest hs hrun

theorem modify_bind {g : σ → σ} {f : Unit → Reader σ ε β α} (hg : ∀ s, Inv s → Inv (g s))
    (h : Returns Inv (f ()) post) : Returns Inv (Reader.modify g >>= f) post := by
  intro buf s t a rest hs hrun
  rw [bind_ok (run_modify _ _ _)] at hrun
  exact h buf (g s) t a rest (hg s hs) hrun

theorem peek_bind {f : Option β → Reader σ ε β α} (h : ∀ b, Returns Inv (f b) post) :
    Returns Inv (Reader.peek >>= f) post :=
  fun buf s t a rest hs hrun => h buf.head? buf s t a rest hs hrun

theorem remaining_bind {f : Nat → Reader σ ε β α} (h : ∀ n, Returns Inv (f n) post) :
    Returns Inv (Reader.remaining >>= f) post :=
  fun buf s t a rest hs hrun => h buf.length buf s t a rest hs hrun

theorem take (short : ε) (n : Nat) :
    Returns Inv (Reader.take short n : Reader σ ε β (List β)) fun bytes => bytes.length = n := by
  intro buf s t a rest hs hrun
  obtain ⟨rfl, hlen, -⟩ := take_eq_ok hrun
  exact ⟨hs, hlen⟩

theorem times {m : Reader σ ε β α} (hm : Returns Inv m post) (n : Nat) :
    Returns Inv (Reader.times m n) fun as => as.length = n ∧ ∀ a ∈ as, post a := by
  induction n with
  | zero => exact .pure ⟨rfl, by simp⟩
  | succ n ih =>
    refine hm.bind fun a ha => ih.map fun as has => ?_
    obtain ⟨hlen, hall⟩ := has
    exact ⟨congrArg (· + 1) hlen, List.forall_mem_cons.mpr ⟨ha, hall⟩⟩

/-- A reader with a state of its own, which starts in its own invariant. -/
theorem nested {m : Reader τ ε β α} {Own : τ → Prop} {start : τ} (hm : Returns Own m post)
    (ht : Own start) {store : τ → σ → σ} (hstore : ∀ t s, Inv s → Inv (store t s)) :
    Returns Inv (Reader.nested start store m) fun r => post r.1 := by
  intro buf s u r rest hs hrun
  obtain ⟨hinner, rfl⟩ := nested_eq_ok hrun
  exact ⟨hstore _ _ hs, (hm _ _ _ _ _ ht hinner).2⟩

end Returns

/-- `m` does not touch its state, nor does its answer depend on it. -/
def Stateless (m : Reader σ ε β α) : Prop :=
  ∃ answer : List β → Except ε (α × List β), ∀ buf s, m.run buf s = (s, answer buf)

namespace Stateless

theorem state {m : Reader σ ε β α} (hm : Stateless m) (h : m.run buf s = (t, r)) : t = s := by
  obtain ⟨answer, hanswer⟩ := hm
  rw [hanswer] at h
  exact (congrArg Prod.fst h).symm

/-- The answer from one state is the answer from any other. -/
theorem run_eq {m : Reader σ ε β α} (hm : Stateless m) (h : m.run buf s = (t, r)) (s' : σ) :
    m.run buf s' = (s', r) := by
  obtain ⟨answer, hanswer⟩ := hm
  rw [hanswer] at h ⊢
  exact congrArg (s', ·) (congrArg Prod.snd h)

theorem pure (a : α) : Stateless (Pure.pure a : Reader σ ε β α) := ⟨_, fun _ _ => rfl⟩

theorem fail (e : ε) : Stateless (Reader.fail e : Reader σ ε β α) := ⟨_, fun _ _ => rfl⟩

theorem ofExcept (r : Except ε α) : Stateless (Reader.ofExcept r : Reader σ ε β α) := by
  cases r with
  | ok a => exact pure a
  | error e => exact fail e

theorem take (short : ε) (n : Nat) : Stateless (Reader.take short n : Reader σ ε β (List β)) := by
  refine ⟨fun buf => if buf.length < n then .error short else .ok (buf.take n, buf.drop n),
    fun buf s => ?_⟩
  unfold Reader.take
  dsimp only
  split
  · rfl
  · rfl

theorem bind {m : Reader σ ε β α} {f : α → Reader σ ε β γ} (hm : Stateless m)
    (hf : ∀ a, Stateless (f a)) : Stateless (m >>= f) := by
  obtain ⟨answer, hanswer⟩ := hm
  refine ⟨fun buf => match answer buf with
    | .ok (a, rest) => (hf a).choose rest
    | .error e => .error e, fun buf s => ?_⟩
  rw [run_bind, hanswer]
  dsimp only
  cases answer buf with
  | ok r => exact (hf r.1).choose_spec r.2 s
  | error e => rfl

end Stateless

/-- `m` leads from any state to one that `K` relates to it, also when it fails. -/
def Keeps (K : σ → σ → Prop) (m : Reader σ ε β α) : Prop := ∀ buf s, K s (m.run buf s).1

theorem Keeps.stateless {K : σ → σ → Prop} {m : Reader σ ε β α} (hK : ∀ s, K s s)
    (hm : Stateless m) : Keeps K m := by
  obtain ⟨answer, hanswer⟩ := hm
  intro buf s
  rw [hanswer]
  exact hK s

theorem Keeps.modify {K : σ → σ → Prop} {f : σ → σ} (h : ∀ s, K s (f s)) :
    Keeps K (Reader.modify f : Reader σ ε β Unit) := fun _ s => h s

theorem Keeps.bind {K : σ → σ → Prop} {m : Reader σ ε β α} {f : α → Reader σ ε β γ}
    (hK : ∀ {s t u}, K s t → K t u → K s u) (hm : Keeps K m) (hf : ∀ a, Keeps K (f a)) :
    Keeps K (m >>= f) := by
  intro buf s
  have hfirst := hm buf s
  rw [run_bind]
  match h : m.run buf s with
  | (s', .ok (a, rest)) =>
    rw [h] at hfirst
    exact hK hfirst (hf a rest s')
  | (s', .error e) =>
    rw [h] at hfirst
    exact hfirst

/-- The same answer, and on success states that `Q` relates. -/
inductive Alike {σ ε β α : Type} (Q : σ → σ → Prop) :
    σ × Except ε (α × List β) → σ × Except ε (α × List β) → Prop
  | ok (h : Q s t) : Alike Q (s, .ok r) (t, .ok r)
  | error : Alike Q (s, .error e) (t, .error e)

theorem Alike.refl {Q : σ → σ → Prop} (hQ : ∀ s, Q s s) (r : σ × Except ε (α × List β)) :
    Alike Q r r := by
  match r with
  | (s, .ok _) => exact .ok (hQ s)
  | (s, .error _) => exact .error

/-- From states that `P` relates, `m` gives the same answer and states that `Q` relates. -/
def Respects (P Q : σ → σ → Prop) (m : Reader σ ε β α) : Prop :=
  ∀ buf s t, P s t → Alike Q (m.run buf s) (m.run buf t)

namespace Respects

theorem eq (m : Reader σ ε β α) : Respects Eq Eq m := by
  intro buf s t h
  rw [h]
  exact .refl (fun _ => rfl) _

theorem stateless {P : σ → σ → Prop} {m : Reader σ ε β α} (hm : Stateless m) : Respects P P m := by
  obtain ⟨answer, hanswer⟩ := hm
  intro buf s t h
  rw [hanswer, hanswer]
  cases answer buf with
  | ok r => exact .ok h
  | error e => exact .error

theorem modify {P Q : σ → σ → Prop} {f : σ → σ} (h : ∀ s t, P s t → Q (f s) (f t)) :
    Respects P Q (Reader.modify f : Reader σ ε β Unit) := fun _ s t hP => .ok (h s t hP)

theorem bind {P Q R : σ → σ → Prop} {m : Reader σ ε β α} {f : α → Reader σ ε β γ}
    (hm : Respects P Q m) (hf : ∀ a, Respects Q R (f a)) : Respects P R (m >>= f) := by
  intro buf s t hP
  have hfirst := hm buf s t hP
  rw [run_bind, run_bind]
  generalize m.run buf s = r, m.run buf t = r' at hfirst
  cases hfirst with
  | ok hQ => exact hf _ _ _ _ hQ
  | error => exact .error

theorem mono {P Q R : σ → σ → Prop} {m : Reader σ ε β α} (hm : Respects P Q m)
    (h : ∀ s t, Q s t → R s t) : Respects P R m := by
  intro buf s t hP
  have hrun := hm buf s t hP
  generalize m.run buf s = r, m.run buf t = r' at hrun ⊢
  cases hrun with
  | ok hQ => exact .ok (h _ _ hQ)
  | error => exact .error

/-- A reader that looks at what `P` makes equal. -/
theorem get_bind {P Q : σ → σ → Prop} {f : σ → Reader σ ε β α}
    (heq : ∀ s t, P s t → f s = f t) (hf : ∀ s, Respects P Q (f s)) :
    Respects P Q (Reader.get >>= f) := by
  intro buf s t hP
  rw [bind_ok (run_get _ _), bind_ok (run_get _ _), heq s t hP]
  exact hf t buf s t hP

end Respects

end Reader

end CheetahMedia.Lib
