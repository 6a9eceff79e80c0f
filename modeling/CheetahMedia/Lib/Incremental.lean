namespace CheetahMedia.Lib.Incremental

/-- One attempt of a decoder at the front of its buffer: wait for more input,
consume a non-empty prefix, or fail for good. Waiting may change the state. -/
inductive Attempt (σ ε α : Type)
  | more (s : σ)
  | done (n : Nat) (out : α) (s : σ)
  | fail (e : ε)

abbrev Decoder (σ ε β α : Type) := σ → List β → Attempt σ ε α

/-- Why a drained buffer stopped giving outputs. -/
inductive Halt (σ ε β : Type)
  | waiting (s : σ) (rest : List β)
  | failed (e : ε)

def Halt.error : Halt σ ε β → Option ε
  | .waiting _ _ => none
  | .failed e => some e

def Halt.rest : Halt σ ε β → List β
  | .waiting _ rest => rest
  | .failed _ => []

def drain (f : Decoder σ ε β α) : Nat → σ → List β → List α × Halt σ ε β
  | 0, s, buf => ([], .waiting s buf)
  | fuel + 1, s, buf =>
    match f s buf with
    | .more s' => ([], .waiting s' buf)
    | .fail e => ([], .failed e)
    | .done n out s' =>
      let r := drain f fuel s' (buf.drop n)
      (out :: r.1, r.2)

/-- Call the decoder until it waits or fails. Each output costs input, so the
length of the buffer bounds the number of calls. -/
def run (f : Decoder σ ε β α) (s : σ) (buf : List β) : List α × Halt σ ε β :=
  drain f (buf.length + 1) s buf

/-- Outputs and first failure of a run, without the state it leaves. -/
def observed (r : List α × Halt σ ε β) : List α × Option ε := (r.1, r.2.error)

/-- Feed the pieces one by one, draining after each. `hook` is what the owner of
the decoder does with its state before a piece is appended. -/
def feed (f : Decoder σ ε β α) (hook : σ → List β → σ) :
    σ → List β → List (List β) → List α × Option ε
  | _, _, [] => ([], none)
  | s, buf, p :: ps =>
    match run f (hook s p) (buf ++ p) with
    | (outs, .failed e) => (outs, some e)
    | (outs, .waiting s' rest) =>
      let r := feed f hook s' rest ps
      (outs ++ r.1, r.2)

/-- As `feed`, for an owner that drops the outputs of the piece that fails. -/
def feedAtomic (f : Decoder σ ε β α) (hook : σ → List β → σ) :
    σ → List β → List (List β) → List α × Option ε
  | _, _, [] => ([], none)
  | s, buf, p :: ps =>
    match run f (hook s p) (buf ++ p) with
    | (_, .failed e) => ([], some e)
    | (outs, .waiting s' rest) =>
      let r := feedAtomic f hook s' rest ps
      (outs ++ r.1, r.2)

/-- Attempts that an observer who cannot tell `R`-related states apart takes for
the same. Two decoders that both wait are compared on their next attempt. -/
inductive Same {σ ε α : Type} (R : σ → σ → Prop) : Attempt σ ε α → Attempt σ ε α → Prop
  | more : Same R (.more s) (.more t)
  | done (h : R s t) : Same R (.done n out s) (.done n out t)
  | fail : Same R (.fail e) (.fail e)

/-- What a decoder owes its caller for the cutting of the input not to matter. -/
structure Segmentable (R : σ → σ → Prop) (f : Decoder σ ε β α) : Prop where
  equivalence : Equivalence R
  respects : R s t → Same R (f s buf) (f t buf)
  done_pos : f s buf = .done n out t → 0 < n ∧ n ≤ buf.length
  done_append : f s buf = .done n out t → ∀ q, f s (buf ++ q) = .done n out t
  fail_append : f s buf = .fail e → ∀ q, f s (buf ++ q) = .fail e
  more_append : f s buf = .more t → ∀ q, Same R (f t (buf ++ q)) (f s (buf ++ q))

theorem Same.symm {R : σ → σ → Prop} (hR : Equivalence R) {x y : Attempt σ ε α}
    (h : Same R x y) : Same R y x := by
  cases h with
  | more => exact .more
  | done h => exact .done (hR.symm h)
  | fail => exact .fail

theorem Same.trans {R : σ → σ → Prop} (hR : Equivalence R) {x y z : Attempt σ ε α}
    (h : Same R x y) (h' : Same R y z) : Same R x z := by
  cases h with
  | more => cases h'; exact .more
  | done h => cases h' with | done h' => exact .done (hR.trans h h')
  | fail => cases h'; exact .fail

theorem drain_fuel {R : σ → σ → Prop} {f : Decoder σ ε β α} (hf : Segmentable R f) :
    ∀ (fuel fuel' : Nat) (s : σ) (buf : List β), buf.length < fuel → buf.length < fuel' →
      drain f fuel s buf = drain f fuel' s buf := by
  intro fuel
  induction fuel with
  | zero => intro fuel' s buf h; omega
  | succ fuel ih =>
    intro fuel' s buf h h'
    cases fuel' with
    | zero => omega
    | succ fuel' =>
      unfold drain
      cases ha : f s buf with
      | more t => rfl
      | fail e => rfl
      | done n out t =>
        have hn := hf.done_pos ha
        have hlen : (buf.drop n).length < buf.length := by rw [List.length_drop]; omega
        simp only [ih fuel' t (buf.drop n) (by omega) (by omega)]

theorem run_more {f : Decoder σ ε β α} (h : f s buf = .more t) :
    run f s buf = ([], .waiting t buf) := by
  simp [run, drain, h]

theorem run_fail {f : Decoder σ ε β α} (h : f s buf = .fail e) : run f s buf = ([], .failed e) := by
  simp [run, drain, h]

theorem run_done {R : σ → σ → Prop} {f : Decoder σ ε β α} (hf : Segmentable R f)
    (h : f s buf = .done n out t) :
    run f s buf = (out :: (run f t (buf.drop n)).1, (run f t (buf.drop n)).2) := by
  have hn := hf.done_pos h
  have hlen : (buf.drop n).length < buf.length := by rw [List.length_drop]; omega
  have hfuel := drain_fuel hf buf.length ((buf.drop n).length + 1) t (buf.drop n) hlen (by omega)
  simp only [run, drain, h, hfuel]

/-- `t` cannot be told from `s` by anything that starts with `buf`. -/
def Tracks (R : σ → σ → Prop) (f : Decoder σ ε β α) (buf : List β) (s t : σ) : Prop :=
  ∀ q, Same R (f s (buf ++ q)) (f t (buf ++ q))

theorem Tracks.append {R : σ → σ → Prop} {f : Decoder σ ε β α} (h : Tracks R f buf s t)
    (p : List β) : Tracks R f (buf ++ p) s t := by
  intro q
  simpa using h (p ++ q)

theorem Tracks.of_related {R : σ → σ → Prop} {f : Decoder σ ε β α} (hf : Segmentable R f)
    (h : R s t) (buf : List β) : Tracks R f buf s t := fun _ => hf.respects h

theorem Tracks.hook {R : σ → σ → Prop} {f : Decoder σ ε β α} (hf : Segmentable R f)
    (h : Tracks R f buf s t) (ht : R t' t) : Tracks R f buf s t' := fun q =>
  (h q).trans hf.equivalence (hf.respects (hf.equivalence.symm ht))

theorem Tracks.wait {R : σ → σ → Prop} {f : Decoder σ ε β α} (hf : Segmentable R f)
    (h : Tracks R f buf s t) (hw : f t buf = .more t') : Tracks R f buf s t' := fun q =>
  (h q).trans hf.equivalence ((hf.more_append hw q).symm hf.equivalence)

/-- The relation between draining a buffer with `t` and draining a longer one with
the state `s` that `t` tracks. -/
structure Follows (R : σ → σ → Prop) (f : Decoder σ ε β α) (s : σ) (buf : List β)
    (r : List α × Halt σ ε β) : Prop where
  failed : r.2 = .failed e → ∀ q, run f s (buf ++ q) = r
  waiting : r.2 = .waiting t' rest → (∃ t'', f t' rest = .more t'') ∧
    ∃ s', Tracks R f rest s' t' ∧ ∀ q,
      run f s (buf ++ q) = (r.1 ++ (run f s' (rest ++ q)).1, (run f s' (rest ++ q)).2)

theorem run_follows {R : σ → σ → Prop} {f : Decoder σ ε β α} (hf : Segmentable R f)
    (buf : List β) (s t : σ) (h : Tracks R f buf s t) : Follows R f s buf (run f t buf) := by
  induction hlen : buf.length using Nat.strongRecOn generalizing buf s t with
  | ind len ih =>
    have h0 := h []
    rw [List.append_nil] at h0
    cases ha : f t buf with
    | more t' =>
      rw [run_more ha]
      refine ⟨(fun he => by cases he), fun he => ?_⟩
      cases he
      have hnext := hf.more_append ha []
      rw [List.append_nil, ha] at hnext
      refine ⟨?_, s, h.wait hf ha, fun q => rfl⟩
      cases hm : f t' buf with
      | more t'' => exact ⟨t'', rfl⟩
      | done n out t'' => rw [hm] at hnext; cases hnext
      | fail e => rw [hm] at hnext; cases hnext
    | fail e =>
      rw [run_fail ha]
      refine ⟨fun he q => ?_, fun he => by cases he⟩
      rw [ha] at h0
      cases hs : f s buf with
      | fail e' =>
        rw [hs] at h0
        cases h0
        exact run_fail (hf.fail_append hs q)
      | more s' => rw [hs] at h0; cases h0
      | done n out s' => rw [hs] at h0; cases h0
    | done n out t' =>
      have hn := hf.done_pos ha
      rw [ha] at h0
      cases hs : f s buf with
      | fail e => rw [hs] at h0; cases h0
      | more s' => rw [hs] at h0; cases h0
      | done m out' s' =>
        rw [hs] at h0
        cases h0 with
        | done hR =>
          have hshort : (buf.drop n).length < len := by rw [List.length_drop]; omega
          have hrec := ih _ hshort (buf.drop n) s' t' (Tracks.of_related hf hR _) rfl
          rw [run_done hf ha]
          have hlong : ∀ q, run f s (buf ++ q) =
              (out :: (run f s' (buf.drop n ++ q)).1, (run f s' (buf.drop n ++ q)).2) := by
            intro q
            rw [run_done hf (hf.done_append hs q), List.drop_append_of_le_length hn.2]
          refine ⟨fun he q => ?_, fun he => ?_⟩
          · rw [hlong, hrec.failed he q]
          · obtain ⟨hidle, s'', htrack, hq⟩ := hrec.waiting he
            exact ⟨hidle, s'', htrack, fun q => by rw [hlong, hq]; rfl⟩

section Cutting
variable {R : σ → σ → Prop} {f : Decoder σ ε β α} {hook : σ → List β → σ}

/-- Cutting the rest of the input anywhere gives what one piece gives. -/
theorem feed_eq_run (hf : Segmentable R f) (hk : ∀ s p, R (hook s p) s) (ps : List (List β))
    (buf : List β) (s t : σ) (h : Tracks R f buf s t) (hidle : ∃ t', f t buf = .more t') :
    feed f hook t buf ps = observed (run f s (buf ++ ps.flatten)) := by
  induction ps generalizing buf s t with
  | nil =>
    obtain ⟨t', ht⟩ := hidle
    have h0 := h []
    rw [List.append_nil, ht] at h0
    cases hs : f s buf with
    | more s' => simp [feed, observed, run_more hs, Halt.error]
    | done n out s' => rw [hs] at h0; cases h0
    | fail e => rw [hs] at h0; cases h0
  | cons p ps ih =>
    have htrack := (h.hook hf (hk t p)).append p
    have hfollow := run_follows hf (buf ++ p) s (hook t p) htrack
    rw [List.flatten_cons, ← List.append_assoc]
    cases hr : run f (hook t p) (buf ++ p) with
    | mk outs halt =>
      rw [hr] at hfollow
      cases halt with
      | failed e =>
        rw [hfollow.failed rfl]
        simp [feed, hr, observed, Halt.error]
      | waiting t' rest =>
        obtain ⟨hidle', s', htrack', hq⟩ := hfollow.waiting rfl
        rw [hq]
        simp only [feed, hr, ih rest s' t' htrack' hidle', observed]

theorem feedAtomic_of_ok (h : (feed f hook s buf ps).2 = none) :
    feedAtomic f hook s buf ps = feed f hook s buf ps := by
  induction ps generalizing s buf with
  | nil => rfl
  | cons p ps ih =>
    cases hr : run f (hook s p) (buf ++ p) with
    | mk outs halt =>
      cases halt with
      | failed e => simp [feed, hr] at h
      | waiting s' rest =>
        simp only [feed, hr] at h
        simp only [feed, feedAtomic, hr, ih h]

/-- Dropping the outputs of the failing piece shortens the outputs, no more. -/
theorem feedAtomic_prefix (f : Decoder σ ε β α) (hook : σ → List β → σ) (s : σ) (buf : List β)
    (ps : List (List β)) :
    (feedAtomic f hook s buf ps).2 = (feed f hook s buf ps).2 ∧
      (feedAtomic f hook s buf ps).1 <+: (feed f hook s buf ps).1 := by
  induction ps generalizing s buf with
  | nil => exact ⟨rfl, List.prefix_rfl⟩
  | cons p ps ih =>
    cases hr : run f (hook s p) (buf ++ p) with
    | mk outs halt =>
      cases halt with
      | failed e => simp [feed, feedAtomic, hr]
      | waiting s' rest =>
        have h := ih s' rest
        simp only [feed, feedAtomic, hr]
        exact ⟨h.1, (List.prefix_append_right_inj outs).mpr h.2⟩

/-- One more item completes at most one output, so nothing precedes a failure in
the piece that fails. -/
theorem run_concat (hf : Segmentable R f) (hnil : ∀ s, ∃ s', f s [] = .more s')
    (htake : ∀ {s buf n out t}, f s buf = .done n out t → f s (buf.take n) = .done n out t)
    (hidle : f t buf = .more t') (b : β) (h : (run f t (buf ++ [b])).2 = .failed e) :
    (run f t (buf ++ [b])).1 = [] := by
  cases ha : f t (buf ++ [b]) with
  | more x => rw [run_more ha]
  | fail e' => rw [run_fail ha]
  | done n out x =>
    have hn := hf.done_pos ha
    rw [List.length_append, List.length_singleton] at hn
    by_cases hle : n ≤ buf.length
    · -- the output was complete before the last item arrived
      have hearly := htake ha
      rw [List.take_append_of_le_length hle] at hearly
      have hbuf := hf.done_append hearly (buf.drop n)
      rw [List.take_append_drop, hidle] at hbuf
      cases hbuf
    · have hdrop : (buf ++ [b]).drop n = [] := by
        apply List.drop_eq_nil_of_le
        rw [List.length_append, List.length_singleton]
        omega
      obtain ⟨x', hx⟩ := hnil x
      rw [run_done hf ha, hdrop, run_more hx] at h
      cases h

/-- Item by item nothing is dropped. -/
theorem feedAtomic_singletons (hf : Segmentable R f) (hk : ∀ s p, R (hook s p) s)
    (hnil : ∀ s, ∃ s', f s [] = .more s')
    (htake : ∀ {s buf n out t}, f s buf = .done n out t → f s (buf.take n) = .done n out t)
    (bs : List β) (s : σ) (buf : List β) (hidle : ∃ s', f s buf = .more s') :
    feedAtomic f hook s buf (bs.map ([·])) = feed f hook s buf (bs.map ([·])) := by
  induction bs generalizing s buf with
  | nil => rfl
  | cons b bs ih =>
    obtain ⟨s', hs'⟩ := hidle
    have hsame : Same R (f (hook s [b]) buf) (f s buf) := hf.respects (hk s [b])
    rw [hs'] at hsame
    obtain ⟨t', ht'⟩ : ∃ t', f (hook s [b]) buf = .more t' := by
      cases ha : f (hook s [b]) buf with
      | more t' => exact ⟨t', rfl⟩
      | done n out t' => rw [ha] at hsame; cases hsame
      | fail e => rw [ha] at hsame; cases hsame
    have htrack := Tracks.of_related hf (hf.equivalence.refl (hook s [b])) (buf ++ [b])
    have hfollow := run_follows hf (buf ++ [b]) (hook s [b]) (hook s [b]) htrack
    cases hr : run f (hook s [b]) (buf ++ [b]) with
    | mk outs halt =>
      cases halt with
      | failed e =>
        have hnone := run_concat hf hnil htake ht' b (e := e) (by rw [hr])
        rw [hr] at hnone
        simp [feedAtomic, feed, hr, show outs = [] from hnone]
      | waiting t rest =>
        rw [hr] at hfollow
        simp only [List.map_cons, feedAtomic, feed, hr, ih t rest (hfollow.waiting rfl).1]

/-- What the owner who drops outputs delivers is independent of the cutting exactly
when there is no failure, or there is nothing to drop. `collect` is what counts of the
outputs. -/
theorem feedAtomic_cut_iff (hf : Segmentable R f) (hk : ∀ s p, R (hook s p) s)
    (hnil : ∀ s, ∃ s', f s [] = .more s')
    (htake : ∀ {s buf n out t}, f s buf = .done n out t → f s (buf.take n) = .done n out t)
    (collect : List α → List γ) (hcollect : ∀ outs outs', outs <+: outs' →
      collect outs' = collect [] → collect outs = collect [])
    (hidle : ∃ s', f s buf = .more s') (bs : List β) :
    (∀ ps qs : List (List β), ps.flatten = bs → qs.flatten = bs →
      Prod.map collect id (feedAtomic f hook s buf ps) =
        Prod.map collect id (feedAtomic f hook s buf qs)) ↔
      (observed (run f s (buf ++ bs))).2 = none ∨
        collect (observed (run f s (buf ++ bs))).1 = collect [] := by
  have hfeed : ∀ ps : List (List β), ps.flatten = bs →
      feed f hook s buf ps = observed (run f s (buf ++ bs)) := fun ps hps => by
    rw [feed_eq_run hf hk ps buf s s (Tracks.of_related hf (hf.equivalence.refl s) buf) hidle, hps]
  constructor
  · intro hall
    cases herr : (observed (run f s (buf ++ bs))).2 with
    | none => exact .inl rfl
    | some e =>
      right
      have hbytes : (bs.map ([·])).flatten = bs := by
        rw [← List.flatMap_def, List.flatMap_singleton']
      have hwhole := hfeed [bs] (by simp)
      have hone : feedAtomic f hook s buf [bs] = ([], some e) := by
        rw [← hwhole] at herr
        cases hr : run f (hook s bs) (buf ++ bs) with
        | mk outs halt =>
          cases halt with
          | failed e' => simp only [feed, feedAtomic, hr] at herr ⊢; rw [herr]
          | waiting t rest => simp [feed, hr] at herr
      have heach := hall (bs.map ([·])) [bs] hbytes (by simp)
      rw [hone, feedAtomic_singletons hf hk hnil htake bs s buf hidle, hfeed _ hbytes] at heach
      exact congrArg Prod.fst heach
  · intro hor ps qs hps hqs
    have hdeliver : ∀ ps : List (List β), ps.flatten = bs →
        Prod.map collect id (feedAtomic f hook s buf ps) =
          (collect (observed (run f s (buf ++ bs))).1, (observed (run f s (buf ++ bs))).2) := by
      intro ps hps
      rcases hor with hnone | hempty
      · rw [feedAtomic_of_ok (by rw [hfeed ps hps]; exact hnone), hfeed ps hps]
        rfl
      · obtain ⟨herr, hprefix⟩ := feedAtomic_prefix f hook s buf ps
        rw [hfeed ps hps] at herr hprefix
        rw [hempty, ← herr, ← hcollect _ _ hprefix hempty]
        rfl
    rw [hdeliver ps hps, hdeliver qs hqs]

end Cutting

/-- A parser that takes what it has read off the front of its buffer, or waits. -/
abbrev Parser (ε β α : Type) := List β → Except ε (Option α) × List β

def ofParser (parse : Parser ε β α) : Decoder Unit ε β α := fun _ buf =>
  match parse buf with
  | (.error e, _) => .fail e
  | (.ok none, _) => .more ()
  | (.ok (some out), rest) => .done (buf.length - rest.length) out ()

/-- What is read goes through `g`. -/
def Parser.andThen (parse : Parser ε β α) (g : α → Except ε γ) : Parser ε β γ := fun buf =>
  match parse buf with
  | (.error e, rest) => (.error e, rest)
  | (.ok none, rest) => (.ok none, rest)
  | (.ok (some out), rest) => ((g out).map some, rest)

/-- What comes later changes nothing in what is read, and something is taken for it. -/
structure Splits (parse : Parser ε β α) : Prop where
  kept : parse buf = (.ok none, rest) → rest = buf
  taken : parse buf = (.ok (some out), rest) → ∃ n > 0, n ≤ buf.length ∧ rest = buf.drop n
  settled : (parse buf).1 ≠ .ok none → ∀ q, parse (buf ++ q) = ((parse buf).1, (parse buf).2 ++ q)

section Parsing
variable {parse : Parser ε β α}

theorem Splits.andThen (hp : Splits parse) (g : α → Except ε γ) : Splits (parse.andThen g) where
  kept {buf rest} h := by
    unfold Parser.andThen at h
    rcases hparse : parse buf with ⟨_ | _ | out, rest'⟩ <;> rw [hparse] at h
    · cases h
    · cases h
      exact hp.kept hparse
    · cases hg : g out <;> simp [hg, Except.map] at h
  taken {buf rest out} h := by
    unfold Parser.andThen at h
    rcases hparse : parse buf with ⟨_ | _ | out', rest'⟩ <;> rw [hparse] at h
    · cases h
    · cases h
    · obtain rfl : rest' = rest := congrArg Prod.snd h
      exact hp.taken hparse
  settled {buf} h q := by
    have hsettled : (parse buf).1 ≠ .ok none → _ := hp.settled
    unfold Parser.andThen at h ⊢
    rcases hparse : parse buf with ⟨_ | _ | out, rest⟩ <;> rw [hparse] at h hsettled
    · rw [hsettled (by simp) q]
    · exact absurd rfl h
    · rw [hsettled (by simp) q]

theorem ofParser_done (hp : Splits parse) (h : parse buf = (.ok (some out), rest)) :
    ∃ n > 0, n ≤ buf.length ∧ rest = buf.drop n ∧ ofParser parse () buf = .done n out () := by
  obtain ⟨n, hpos, hle, rfl⟩ := hp.taken h
  refine ⟨n, hpos, hle, rfl, ?_⟩
  have hn : buf.length - (buf.drop n).length = n := by
    rw [List.length_drop]
    omega
  simp only [ofParser, h, hn]

theorem ofParser_segmentable (hp : Splits parse) : Segmentable Eq (ofParser parse) := by
  -- an attempt that does not wait stays the same
  have hmore : ∀ {buf : List β} {a}, ofParser parse () buf = a → (∀ u, a ≠ .more u) →
      ∀ q, ofParser parse () (buf ++ q) = a := by
    intro buf a ha hsettled q
    subst ha
    have h : (parse buf).1 ≠ .ok none → _ := hp.settled
    unfold ofParser at hsettled ⊢
    rcases hparse : parse buf with ⟨out, rest⟩
    rw [hparse] at hsettled h
    rcases out with e | _ | out
    · rw [h (by simp) q]
    · exact absurd rfl (hsettled ())
    · rw [h (by simp) q]
      obtain ⟨n, hpos, hle, rfl⟩ := hp.taken hparse
      dsimp only
      congr 1
      simp only [List.length_append, List.length_drop]
      omega
  exact {
    equivalence := ⟨fun _ => rfl, Eq.symm, Eq.trans⟩
    respects := fun h => by
      subst h
      cases ofParser parse _ _ with
      | more => exact .more
      | done => exact .done rfl
      | fail => exact .fail
    done_pos := fun {_ buf _ _ _} h => by
      unfold ofParser at h
      rcases hparse : parse buf with ⟨_ | _ | out, rest⟩ <;> rw [hparse] at h <;> cases h
      obtain ⟨n, hpos, hle, rfl⟩ := hp.taken hparse
      rw [List.length_drop]
      omega
    done_append := fun h => hmore h (by simp)
    fail_append := fun h => hmore h (by simp)
    more_append := fun _ q => by
      cases ofParser parse _ (_ ++ q) with
      | more => exact .more
      | done => exact .done rfl
      | fail => exact .fail }

/-- The whole of a message is read, whatever follows, and nothing of a part of it. -/
theorem ofParser_part (hp : Splits parse) (h : parse (part ++ more) = (.ok (some out), []))
    (hmore : more ≠ []) : ofParser parse () part = .more () := by
  have hsettled : (parse part).1 ≠ .ok none → _ := hp.settled
  unfold ofParser
  rcases hpart : parse part with ⟨_ | _ | out', rest⟩
  · have := hsettled (by simp [hpart]) more
    simp [h, hpart] at this
  · rfl
  · have := hsettled (by simp [hpart]) more
    simp [h, hpart, hmore] at this

end Parsing

end CheetahMedia.Lib.Incremental
