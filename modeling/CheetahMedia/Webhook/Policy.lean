import CheetahMedia.Webhook.Dispatcher

namespace CheetahMedia.Webhook
open Lib

theorem CircuitBreaker.allow_iff {c : CircuitBreaker} :
    c.allow now = true ↔ c.state now ≠ .opened := by
  unfold allow
  cases c.state now <;> decide

/-- Time alone never opens a breaker. -/
theorem CircuitBreaker.state_later {c : CircuitBreaker} (h : c.state now ≠ .opened)
    (hle : now ≤ later) : c.state later ≠ .opened := by
  unfold state at h ⊢
  split
  · rename_i hreached
    rw [if_pos hreached] at h
    cases hlast : c.lastFailure with
    | none => exact CircuitState.noConfusion
    | some instant =>
      rw [hlast] at h
      dsimp only at h ⊢
      split
      · rename_i hlater
        exact absurd (if_pos (by omega)) h
      · exact CircuitState.noConfusion
  · exact CircuitState.noConfusion

section
variable {Event Key Value : Type} {env : Env Event Key Value}

def Phase.process : Phase Key Value → Option (Process Key Value)
  | .waiting p _ | .sending p => some p
  | .idle | .stopped => none

/-- What a worker was made with and keeps. -/
structure TargetSettings where
  policy : WebhookUrlPolicy
  threshold : Nat
  openDuration : Nat
deriving DecidableEq

namespace TargetWorker

/-- The jobs that may still send. -/
def pending (w : TargetWorker Key Value) : List (WebhookJob Key Value) :=
  w.phase.process.toList.map (·.job) ++ w.queue

def settings (w : TargetWorker Key Value) : TargetSettings :=
  ⟨w.urlPolicy, w.circuit.threshold, w.circuit.openDuration⟩

end TargetWorker

/-- What a worker made for the profile would keep. -/
def targetSettings (env : Env Event Key Value) (p : WebhookProfile) : TargetSettings :=
  (newWorker env p).settings

/-- How many requests were sent for a job. -/
def spent (es : List (Sent Key Value)) (id : JobId) : Nat := es.countP (·.job.id = id)

theorem spent_append (es fs : List (Sent Key Value)) (id : JobId) :
    spent (es ++ fs) id = spent es id + spent fs id := List.countP_append

theorem spent_eq_zero {es : List (Sent Key Value)} {id : JobId} :
    spent es id = 0 ↔ ∀ r ∈ es, r.job.id ≠ id := by
  simp only [spent, List.countP_eq_zero, decide_eq_true_eq, ne_eq]

/-- The attempts of a process that went to the sender. -/
def Phase.Spent (n : JobId → Nat) : Phase Key Value → Prop
  | .waiting p _ => n p.job.id + 1 = p.attempts
  | .sending p => n p.job.id = p.attempts
  | .idle | .stopped => True

structure ProcessSound (es : List (Sent Key Value)) (w : TargetWorker Key Value) (instant : Nat)
    (p : Process Key Value) : Prop where
  permitted : ∃ addr parsed, p.verdict = .allow addr parsed ∧ w.urlPolicy.permits addr.ip = true
  closed : w.circuit.state instant ≠ .opened
  bound : p.attempts ≤ p.job.profile.maxAttempts
  same : ∀ r ∈ es, r.job.id = p.job.id → r.job = p.job

structure WorkerSound (es : List (Sent Key Value)) (handled instant : Nat)
    (w : TargetWorker Key Value) : Prop where
  process : ∀ p, w.phase.process = some p → ProcessSound es w instant p
  sent : w.phase.Spent (spent es)
  unspent : ∀ j ∈ w.queue, spent es j.id = 0
  distinct : (w.pending.map (·.id)).Nodup
  old : ∀ j ∈ w.pending, j.id.event < handled

structure SentSound (es : List (Sent Key Value)) (handled : Nat) (r : Sent Key Value) : Prop where
  old : r.job.id.event < handled
  bound : spent es r.job.id ≤ r.job.profile.maxAttempts
  closed : r.circuit.state r.instant ≠ .opened

/-- What a turn of a worker makes of what was sent. -/
structure Turned (es : List (Sent Key Value)) (handled instant : Nat) (w w' : TargetWorker Key Value)
    (fs : List (Sent Key Value)) : Prop where
  sound : WorkerSound (es ++ fs) handled instant w'
  log : ∀ r ∈ es ++ fs, SentSound (es ++ fs) handled r
  pending : ∀ j ∈ w'.pending, j ∈ w.pending
  settings : w'.settings = w.settings
  jobs : ∀ r ∈ fs, r.job ∈ w.pending
  obeys : ∀ r ∈ fs, r.circuit = w.circuit ∧ ∃ addr parsed,
    r.request.verdict = .allow addr parsed ∧ w.urlPolicy.permits addr.ip = true

theorem Turned.quiet {es : List (Sent Key Value)} {w w' : TargetWorker Key Value}
    (hes : ∀ r ∈ es, SentSound es handled r) (h : WorkerSound es handled instant w')
    (hpending : ∀ j ∈ w'.pending, j ∈ w.pending) (hsettings : w'.settings = w.settings) :
    Turned es handled instant w w' [] where
  sound := by rwa [List.append_nil]
  log := by rwa [List.append_nil]
  pending := hpending
  settings := hsettings
  jobs := fun r hr => by cases hr
  obeys := fun r hr => by cases hr

/-- A worker that has let go of its job. -/
theorem WorkerSound.rest {w w' : TargetWorker Key Value} (h : WorkerSound es handled instant w)
    (hphase : w'.phase.process = none) (hqueue : w'.queue.Sublist w.queue) :
    WorkerSound es handled instant w' ∧ ∀ j ∈ w'.pending, j ∈ w.pending := by
  have hpending : w'.pending.Sublist w.pending := by
    rw [TargetWorker.pending, hphase]
    exact hqueue.trans (List.sublist_append_right _ _)
  refine ⟨⟨fun p hp => ?_, ?_, fun j hj => h.unspent j (hqueue.subset hj),
    (hpending.map _).nodup h.distinct, fun j hj => h.old j (hpending.subset hj)⟩,
    hpending.subset⟩
  · rw [hphase] at hp
    cases hp
  · cases hcase : w'.phase with
    | idle => trivial
    | stopped => trivial
    | waiting p deadline =>
      rw [hcase] at hphase
      cases hphase
    | sending p =>
      rw [hcase] at hphase
      cases hphase

theorem Turned.rest {w w' : TargetWorker Key Value} (h : WorkerSound es handled instant w)
    (hes : ∀ r ∈ es, SentSound es handled r) (hphase : w'.phase.process = none)
    (hqueue : w'.queue.Sublist w.queue) (hsettings : w'.settings = w.settings) :
    Turned es handled instant w w' [] :=
  .quiet hes (h.rest hphase hqueue).1 (h.rest hphase hqueue).2 hsettings

theorem maxAttempts_pos (p : WebhookProfile) : 1 ≤ p.maxAttempts := by
  unfold WebhookProfile.maxAttempts
  omega

/-- The head of `process`: a job that is let through has sent nothing yet. -/
theorem WorkerSound.take (h : WorkerSound es handled clock.instant w)
    (hes : ∀ r ∈ es, SentSound es handled r) (hphase : w.phase = .idle)
    (hqueue : w.queue = job :: queue) :
    Turned es handled clock.instant w (TargetWorker.take { w with queue } env clock resolver job)
      [] := by
  have hsublist : queue.Sublist w.queue := hqueue ▸ List.sublist_cons_self job queue
  have hprocess : w.phase.process = none := by rw [hphase]; rfl
  have hjob : spent es job.id = 0 := h.unspent job (hqueue ▸ List.mem_cons_self)
  unfold TargetWorker.take
  split
  · exact .rest h hes hprocess hsublist rfl
  · rename_i hallow
    split
    · exact .rest h hes rfl hsublist rfl
    · rename_i verdict hverdict
      have hpending : w.pending = job :: queue := by
        rw [TargetWorker.pending, hprocess, hqueue]
        rfl
      refine .quiet hes ⟨?_, ?_, ?_, ?_, ?_⟩ ?_ rfl
      · rintro p hp
        cases hp
        exact ⟨WebhookUrlPolicy.of_evaluate hverdict,
          CircuitBreaker.allow_iff.mp (by simpa using hallow), maxAttempts_pos _,
          fun r hr hid => absurd hid (spent_eq_zero.mp hjob r hr)⟩
      · exact congrArg (· + 1) hjob
      · exact fun j hj => h.unspent j (hsublist.subset hj)
      · have hdistinct := h.distinct
        rw [hpending] at hdistinct
        exact hdistinct
      · have hold := h.old
        rw [hpending] at hold
        exact hold
      · rw [hpending]
        exact fun j hj => hj

/-- One request: the process spends the attempt that it has begun. -/
theorem WorkerSound.attempt (h : WorkerSound es handled clock.instant w)
    (hes : ∀ r ∈ es, SentSound es handled r) (hphase : w.phase = .waiting p deadline)
    (hturn : w.attempt env clock p = (w', fs)) : Turned es handled clock.instant w w' fs := by
  have hprocess : w.phase.process = some p := by rw [hphase]; rfl
  have hsound := h.process p hprocess
  have hspent : spent es p.job.id + 1 = p.attempts := by
    have hsent := h.sent
    rwa [hphase] at hsent
  have hpending : w.pending = p.job :: w.queue := by
    rw [TargetWorker.pending, hprocess]
    rfl
  have hfresh : ∀ j ∈ w.queue, p.job.id ≠ j.id := by
    have hdistinct := h.distinct
    rw [hpending, List.map_cons, List.nodup_cons] at hdistinct
    exact fun j hj hid => hdistinct.1 (List.mem_map.mpr ⟨j, hj, hid.symm⟩)
  unfold TargetWorker.attempt at hturn
  split at hturn
  · cases hturn
    exact .rest h hes rfl (List.Sublist.refl _) rfl
  · split at hturn
    · cases hturn
      exact .rest h hes rfl (List.Sublist.refl _) rfl
    · obtain ⟨rfl, rfl⟩ := Prod.mk.inj hturn
      generalize hr : Sent.mk p.job _ w.circuit clock.instant = r
      have hjob : r.job = p.job := by rw [← hr]
      have hone : ∀ i, spent (es ++ [r]) i = spent es i + if p.job.id = i then 1 else 0 := by
        intro i
        rw [spent_append, spent, spent, List.countP_singleton, hjob]
        simp only [decide_eq_true_eq]
      have hlog : ∀ q ∈ es ++ [r], q.job.id = p.job.id → q.job = p.job := by
        intro q hq hid
        rcases List.mem_append.mp hq with hq | hq
        · exact hsound.same q hq hid
        · rw [List.mem_singleton.mp hq, hjob]
      refine ⟨⟨?_, ?_, ?_, ?_, ?_⟩, ?_, ?_, rfl, ?_, ?_⟩
      · rintro _ ⟨⟩
        exact ⟨hsound.permitted, hsound.closed, hsound.bound, hlog⟩
      · show spent (es ++ [r]) p.job.id = p.attempts
        rw [hone, if_pos rfl, hspent]
      · intro j hj
        rw [hone, if_neg (hfresh j hj), h.unspent j hj]
      · have hdistinct := h.distinct
        rwa [hpending] at hdistinct
      · have hold := h.old
        rwa [hpending] at hold
      · intro q hq
        have hcases : q.job.id = p.job.id ∨ (q.job.id ≠ p.job.id ∧ q ∈ es) := by
          rcases List.mem_append.mp hq with hq | hq
          · exact (em _).imp id fun hid => ⟨hid, hq⟩
          · rw [List.mem_singleton.mp hq, hjob]
            exact .inl rfl
        refine ⟨?_, ?_, ?_⟩
        · rcases List.mem_append.mp hq with hq | hq
          · exact (hes q hq).old
          · rw [List.mem_singleton.mp hq, hjob]
            exact h.old _ (hpending ▸ List.mem_cons_self)
        · rcases hcases with hid | ⟨hid, hq⟩
          · rw [hlog q hq hid, hone, if_pos rfl, hspent]
            exact hsound.bound
          · rw [hone, if_neg (Ne.symm hid)]
            exact (hes q hq).bound
        · rcases List.mem_append.mp hq with hq | hq
          · exact (hes q hq).closed
          · rw [List.mem_singleton.mp hq, ← hr]
            exact hsound.closed
      · rw [hpending]
        exact fun j hj => hj
      · intro q hq
        rw [List.mem_singleton.mp hq, hjob, hpending]
        exact List.mem_cons_self
      · intro q hq
        rw [List.mem_singleton.mp hq, ← hr]
        exact ⟨rfl, hsound.permitted⟩

/-- Another attempt begins only below the bound. -/
theorem WorkerSound.retry (h : WorkerSound es handled clock.instant w)
    (hes : ∀ r ∈ es, SentSound es handled r) (hphase : w.phase = .sending p) :
    Turned es handled clock.instant w (w.retry clock p) [] := by
  have hprocess : w.phase.process = some p := by rw [hphase]; rfl
  have hsound := h.process p hprocess
  have hpending : w.pending = p.job :: w.queue := by
    rw [TargetWorker.pending, hprocess]
    rfl
  unfold TargetWorker.retry
  split
  · rename_i hbelow
    dsimp only
    split
    · exact .rest h hes rfl (List.Sublist.refl _) rfl
    · refine .quiet hes ⟨?_, ?_, h.unspent, ?_, ?_⟩ ?_ rfl
      · rintro _ ⟨⟩
        exact ⟨hsound.permitted, hsound.closed, hbelow, hsound.same⟩
      · have hsent := h.sent
        rw [hphase] at hsent
        exact congrArg (· + 1) hsent
      · have hdistinct := h.distinct
        rwa [hpending] at hdistinct
      · have hold := h.old
        rwa [hpending] at hold
      · rw [hpending]
        exact fun j hj => hj
  · exact .rest h hes rfl (List.Sublist.refl _) rfl

theorem WorkerSound.respond (h : WorkerSound es handled clock.instant w)
    (hes : ∀ r ∈ es, SentSound es handled r) (hphase : w.phase = .sending p)
    (answer : Except WebhookSendError Nat) :
    Turned es handled clock.instant w (w.respond clock p answer) [] := by
  have hrest : Turned es handled clock.instant w (w.fail clock) [] :=
    .rest h hes rfl (List.Sublist.refl _) rfl
  cases answer with
  | ok status =>
    simp only [TargetWorker.respond]
    split
    · exact .rest h hes rfl (List.Sublist.refl _) rfl
    · split
      · exact h.retry hes hphase
      · exact hrest
  | error e =>
    simp only [TargetWorker.respond]
    split
    · exact h.retry hes hphase
    · exact hrest

theorem WorkerSound.turn (h : WorkerSound es handled clock.instant w)
    (hes : ∀ r ∈ es, SentSound es handled r)
    (hturn : w.turn env clock cancelled t = some (w', fs)) :
    Turned es handled clock.instant w w' fs := by
  cases t with
  | take resolver =>
    simp only [TargetWorker.turn] at hturn
    split at hturn
    · rename_i hphase hqueue
      split at hturn
      · cases hturn
      · cases hturn
        exact h.take hes hphase hqueue
    · cases hturn
  | attempt =>
    simp only [TargetWorker.turn] at hturn
    split at hturn
    · rename_i hphase
      split at hturn
      · exact h.attempt hes hphase (Option.some.inj hturn)
      · cases hturn
    · cases hturn
  | respond answer =>
    simp only [TargetWorker.turn] at hturn
    split at hturn
    · rename_i hphase
      cases hturn
      exact h.respond hes hphase answer
    · cases hturn
  | quit =>
    have hquit : cancelled = true → ({ w with phase := .stopped }, []) = (w', fs) →
        Turned es handled clock.instant w w' fs := by
      rintro _ ⟨⟩
      exact .rest h hes rfl (List.Sublist.refl _) rfl
    simp only [TargetWorker.turn] at hturn
    split at hturn
    · split at hturn
      · exact hquit (by assumption) (Option.some.inj hturn)
      · cases hturn
    · split at hturn
      · exact hquit (by assumption) (Option.some.inj hturn)
      · cases hturn
    · cases hturn

theorem WorkerSound.later {w : TargetWorker Key Value} (h : WorkerSound es handled instant w)
    (hhandled : handled ≤ handled') (hinstant : instant ≤ instant') :
    WorkerSound es handled' instant' w where
  process p hp :=
    let hsound := h.process p hp
    ⟨hsound.permitted, CircuitBreaker.state_later hsound.closed hinstant, hsound.bound, hsound.same⟩
  sent := h.sent
  unspent := h.unspent
  distinct := h.distinct
  old j hj := Nat.lt_of_lt_of_le (h.old j hj) hhandled

/-- What others send is nothing to a worker. -/
theorem WorkerSound.others {w : TargetWorker Key Value} (h : WorkerSound es handled instant w)
    (hapart : ∀ r ∈ fs, ∀ k ∈ w.pending, r.job.id ≠ k.id) :
    WorkerSound (es ++ fs) handled instant w := by
  have hspent : ∀ k ∈ w.pending, spent (es ++ fs) k.id = spent es k.id := by
    intro k hk
    rw [spent_append, spent_eq_zero.mpr fun r hr => hapart r hr k hk, Nat.add_zero]
  have hjob : ∀ p, w.phase.process = some p → p.job ∈ w.pending := by
    intro p hp
    rw [TargetWorker.pending, hp]
    exact List.mem_cons_self
  refine ⟨fun p hp => ?_, ?_, fun j hj => ?_, h.distinct, h.old⟩
  · have hsound := h.process p hp
    refine ⟨hsound.permitted, hsound.closed, hsound.bound, fun r hr hid => ?_⟩
    rcases List.mem_append.mp hr with hr | hr
    · exact hsound.same r hr hid
    · exact absurd hid (hapart r hr _ (hjob p hp))
  · have hsent := h.sent
    cases hphase : w.phase with
    | idle => trivial
    | stopped => trivial
    | waiting p deadline =>
      rw [hphase] at hsent
      exact (congrArg (· + 1) (hspent p.job (hjob p (by rw [hphase]; rfl)))).trans hsent
    | sending p =>
      rw [hphase] at hsent
      exact (hspent p.job (hjob p (by rw [hphase]; rfl))).trans hsent
  · rw [hspent j (List.mem_append_right _ hj)]
    exact h.unspent j hj

theorem workerSound_new (env : Env Event Key Value) (p : WebhookProfile) :
    WorkerSound es handled instant (newWorker env p) where
  process _ h := by cases h
  sent := trivial
  unspent _ h := by cases h
  distinct := List.nodup_nil
  old _ h := by cases h

theorem TargetWorker.pending_trySend (w : TargetWorker Key Value) (job : WebhookJob Key Value) :
    (w.trySend job).pending = w.pending ++ [job] ∨ (w.trySend job).pending = w.pending := by
  unfold trySend
  split
  · exact .inl (List.append_assoc ..).symm
  · exact .inr rfl

theorem TargetWorker.settings_trySend (w : TargetWorker Key Value) (job : WebhookJob Key Value) :
    (w.trySend job).settings = w.settings := by
  unfold trySend
  split <;> rfl

theorem WorkerSound.trySend {w : TargetWorker Key Value} (h : WorkerSound es handled instant w)
    (hold : job.id.event < handled) (hunspent : spent es job.id = 0)
    (hfresh : ∀ j ∈ w.pending, j.id ≠ job.id) : WorkerSound es handled instant (w.trySend job) := by
  unfold TargetWorker.trySend
  split
  · have hpending : TargetWorker.pending { w with queue := w.queue ++ [job] } = w.pending ++ [job] :=
      (List.append_assoc ..).symm
    refine ⟨fun p hp => ?_, h.sent, fun j hj => ?_, ?_, ?_⟩
    · obtain ⟨hpermitted, hclosed, hbound, hsame⟩ := h.process p hp
      exact ⟨hpermitted, hclosed, hbound, hsame⟩
    · rcases List.mem_append.mp hj with hj | hj
      · exact h.unspent j hj
      · rwa [List.mem_singleton.mp hj]
    · rw [hpending, List.map_append, List.nodup_append]
      refine ⟨h.distinct, List.pairwise_singleton .., fun i hi k hk => ?_⟩
      obtain ⟨j, hj, hid⟩ := List.mem_map.mp hi
      rw [List.map_singleton, List.mem_singleton] at hk
      rw [hk, ← hid]
      exact hfresh j hj
    · rw [hpending]
      intro j hj
      rcases List.mem_append.mp hj with hj | hj
      · exact h.old j hj
      · rwa [List.mem_singleton.mp hj]
  · exact h

/-- Sound workers, and no job with two of them. -/
structure WorkersSound (es : List (Sent Key Value)) (handled instant : Nat)
    (workers : Workers Key Value) : Prop where
  sound : ∀ n w, workers n = some w → WorkerSound es handled instant w
  apart : ∀ n m w v, workers n = some w → workers m = some v → n ≠ m →
    ∀ j ∈ w.pending, ∀ k ∈ v.pending, j.id ≠ k.id

/-- One worker in the place of another, with no jobs that others have. -/
theorem WorkersSound.update {workers : Workers Key Value}
    (h : WorkersSound es handled instant workers)
    (hw : WorkerSound (es ++ fs) handled instant w)
    (hfs : ∀ m v, workers m = some v → m ≠ n → ∀ r ∈ fs, ∀ k ∈ v.pending, r.job.id ≠ k.id)
    (hapart : ∀ m v, workers m = some v → m ≠ n → ∀ j ∈ w.pending, ∀ k ∈ v.pending, j.id ≠ k.id) :
    WorkersSound (es ++ fs) handled instant (Function.update workers n (some w)) := by
  constructor
  · intro m v hv
    by_cases hm : m = n
    · subst hm
      rw [Function.update_self] at hv
      cases hv
      exact hw
    · rw [Function.update_of_ne hm] at hv
      exact (h.sound m v hv).others (hfs m v hv hm)
  · intro l m u v hu hv hlm
    by_cases hl : l = n
    · subst hl
      rw [Function.update_self] at hu
      cases hu
      rw [Function.update_of_ne (Ne.symm hlm)] at hv
      exact hapart m v hv (Ne.symm hlm)
    · rw [Function.update_of_ne hl] at hu
      by_cases hm : m = n
      · subst hm
        rw [Function.update_self] at hv
        cases hv
        exact fun j hj k hk => Ne.symm (hapart l u hu hl k hk j hj)
      · rw [Function.update_of_ne hm] at hv
        exact h.apart l m u v hu hv hlm

/-- The worker that a job goes to. -/
theorem WorkersSound.target {workers : Workers Key Value}
    (h : WorkersSound es handled instant workers)
    (env : Env Event Key Value) (p : WebhookProfile) :
    WorkerSound es handled instant ((workers p.name).getD (newWorker env p)) ∧
      ∀ j ∈ ((workers p.name).getD (newWorker env p)).pending,
        ∃ w, workers p.name = some w ∧ j ∈ w.pending := by
  cases hname : workers p.name with
  | none => exact ⟨workerSound_new env p, fun j hj => by cases hj⟩
  | some w => exact ⟨h.sound _ w hname, fun j hj => ⟨w, rfl, hj⟩⟩

theorem WorkersSound.enqueue {workers : Workers Key Value}
    (h : WorkersSound es handled instant workers)
    (hold : job.id.event < handled) (hunspent : spent es job.id = 0)
    (hfresh : ∀ n w, workers n = some w → ∀ j ∈ w.pending, j.id ≠ job.id) :
    WorkersSound es handled instant (enqueue env workers job) := by
  obtain ⟨hsound, hpending⟩ := h.target env job.profile
  have hnew := hsound.trySend hold hunspent fun j hj => by
    obtain ⟨w, hw, hj⟩ := hpending j hj
    exact hfresh _ w hw j hj
  have hupdate := h.update (n := job.profile.name) (by rwa [List.append_nil])
    (fun _ _ _ _ r (hr : r ∈ ([] : List (Sent Key Value))) => by cases hr) fun m v hv hm j hj k hk => by
      have hcases : j = job ∨ j ∈ ((workers job.profile.name).getD (newWorker env job.profile)).pending := by
        rcases TargetWorker.pending_trySend _ job with heq | heq
        · rw [heq] at hj
          exact (List.mem_append.mp hj).symm.imp_left List.mem_singleton.mp
        · rw [heq] at hj
          exact .inr hj
      rcases hcases with rfl | hj
      · exact Ne.symm (hfresh m v hv k hk)
      · obtain ⟨w, hw, hj⟩ := hpending j hj
        exact h.apart _ m w v hw hv (Ne.symm hm) j hj k hk
  rwa [List.append_nil] at hupdate

/-- The jobs that may still send after one more was queued. -/
theorem pending_enqueue {workers : Workers Key Value}
    (hw : enqueue env workers job n = some w) (hj : j ∈ w.pending) :
    (j = job ∧ n = job.profile.name) ∨ ∃ v, workers n = some v ∧ j ∈ v.pending := by
  unfold enqueue at hw
  by_cases hn : n = job.profile.name
  · rw [hn, Function.update_self] at hw
    cases hw
    have hcases : j = job ∨ j ∈ ((workers job.profile.name).getD (newWorker env job.profile)).pending := by
      rcases TargetWorker.pending_trySend _ job with heq | heq
      · rw [heq] at hj
        exact (List.mem_append.mp hj).symm.imp_left List.mem_singleton.mp
      · rw [heq] at hj
        exact .inr hj
    refine hcases.imp (fun heq => ⟨heq, hn⟩) fun hj => ?_
    cases hname : workers job.profile.name with
    | none =>
      rw [hname] at hj
      cases hj
    | some v =>
      rw [hname] at hj
      exact ⟨v, hn ▸ hname, hj⟩
  · rw [Function.update_of_ne hn] at hw
    exact .inr ⟨w, hw, hj⟩

theorem WorkersSound.enqueueAll (env : Env Event Key Value) {jobs : List (WebhookJob Key Value)}
    {workers : Workers Key Value} (h : WorkersSound es handled instant workers)
    (hold : ∀ j ∈ jobs, j.id.event < handled) (hunspent : ∀ j ∈ jobs, spent es j.id = 0)
    (hdistinct : (jobs.map (·.id)).Nodup)
    (hfresh : ∀ j ∈ jobs, ∀ n w, workers n = some w → ∀ k ∈ w.pending, k.id ≠ j.id) :
    WorkersSound es handled instant (jobs.foldl (Webhook.enqueue env) workers) := by
  induction jobs generalizing workers with
  | nil => exact h
  | cons job jobs ih =>
    rw [List.map_cons, List.nodup_cons] at hdistinct
    rw [List.forall_mem_cons] at hold hunspent hfresh
    refine ih (h.enqueue hold.1 hunspent.1 hfresh.1) hold.2 hunspent.2 hdistinct.2 ?_
    intro j hj n w hw k hk hid
    rcases pending_enqueue hw hk with ⟨rfl, _⟩ | ⟨v, hv, hk⟩
    · exact hdistinct.1 (List.mem_map.mpr ⟨j, hj, hid.symm⟩)
    · exact hfresh.2 j hj n v hv k hk hid

theorem map_filterMap_sublist {f : α → Option β} {g : β → γ} {h : α → γ}
    (hfg : ∀ x y, f x = some y → g y = h x) (xs : List α) :
    ((xs.filterMap f).map g).Sublist (xs.map h) := by
  induction xs with
  | nil => exact List.Sublist.slnil
  | cons x xs ih =>
    cases hx : f x with
    | none =>
      rw [List.filterMap_cons_none hx]
      exact ih.cons _
    | some y =>
      rw [List.filterMap_cons_some hx, List.map_cons, List.map_cons, hfg x y hx]
      exact ih.cons_cons _

theorem pairwise_zipIdx (xs : List α) : xs.zipIdx.Pairwise fun a b => a.2 ≠ b.2 := by
  have hnodup : (xs.zipIdx.map Prod.snd).Nodup := by
    rw [List.zipIdx_map_snd]
    exact List.nodup_range' 
  exact List.pairwise_map.mp hnodup

theorem of_mem_jobsFor (h : j ∈ jobsFor env number event profile i) :
    j.id.event = number ∧ j.id.profile = i := by
  unfold jobsFor at h
  split at h
  · cases h
  · obtain ⟨⟨dispatch, k⟩, _, hjob⟩ := List.mem_filterMap.mp h
    dsimp only at hjob
    split at hjob
    · cases hjob
      exact ⟨rfl, rfl⟩
    · cases hjob

theorem event_of_mem_jobsOf (h : j ∈ jobsOf env number profiles event) : j.id.event = number := by
  obtain ⟨⟨profile, i⟩, _, hj⟩ := List.mem_flatMap.mp h
  exact (of_mem_jobsFor hj).1

theorem nodup_jobsFor (env : Env Event Key Value) (number : Nat) (event : Event)
    (profile : WebhookProfile) (i : Nat) :
    ((jobsFor env number event profile i).map (·.id)).Nodup := by
  unfold jobsFor
  split
  · exact List.nodup_nil
  · rename_i translate _
    refine (map_filterMap_sublist (h := fun d => JobId.mk number i d.2) ?_ _).nodup ?_
    · rintro ⟨dispatch, k⟩ job hjob
      dsimp only at hjob
      split at hjob
      · cases hjob
        rfl
      · cases hjob
    · exact List.pairwise_map.mpr ((pairwise_zipIdx _).imp fun hne heq => hne (congrArg (·.dispatch) heq))

/-- One job for each profile and dispatch of an event. -/
theorem nodup_jobsOf (env : Env Event Key Value) (number : Nat) (profiles : List WebhookProfile)
    (event : Event) : ((jobsOf env number profiles event).map (·.id)).Nodup := by
  rw [jobsOf, List.map_flatMap]
  refine List.pairwise_flatMap.mpr ⟨fun ⟨profile, i⟩ _ => nodup_jobsFor .., ?_⟩
  refine (pairwise_zipIdx profiles).imp fun {a b} hne x hx y hy heq => hne ?_
  obtain ⟨j, hj, rfl⟩ := List.mem_map.mp hx
  obtain ⟨k, hk, hid⟩ := List.mem_map.mp hy
  rw [← (of_mem_jobsFor hj).2, ← (of_mem_jobsFor hk).2, hid, heq]

/-- What holds of the requests sent and of the system, whatever the configurations. -/
structure Inv (es : List (Sent Key Value)) (s : System Key Value) : Prop where
  workers : WorkersSound es s.handled s.clock.instant s.workers
  log : ∀ r ∈ es, SentSound es s.handled r

theorem inv_new (config : WebhookDispatcherConfig) (clock : Clock) :
    Inv ([] : List (Sent Key Value)) (System.new config clock) where
  workers := ⟨fun n w hw => (by cases hw), fun n m w v hw => (by cases hw)⟩
  log r hr := by cases hr

theorem Inv.event (h : Inv es s) (e : Event) :
    Inv es { s with
      workers := (jobsOf env s.handled s.config.profiles e).foldl (enqueue env) s.workers
      handled := s.handled + 1 } := by
  have hlater : WorkersSound es (s.handled + 1) s.clock.instant s.workers :=
    ⟨fun n w hw => (h.workers.sound n w hw).later (Nat.le_succ _) (Nat.le_refl _), h.workers.apart⟩
  refine ⟨hlater.enqueueAll env ?_ ?_ (nodup_jobsOf ..) ?_, fun r hr => ?_⟩
  · intro j hj
    rw [event_of_mem_jobsOf hj]
    exact Nat.lt_succ_self _
  · intro j hj
    refine spent_eq_zero.mpr fun r hr hid => ?_
    have hold := (h.log r hr).old
    rw [hid, event_of_mem_jobsOf hj] at hold
    exact Nat.lt_irrefl _ hold
  · intro j hj n w hw k hk hid
    have hold := (h.workers.sound n w hw).old k hk
    rw [hid, event_of_mem_jobsOf hj] at hold
    exact Nat.lt_irrefl _ hold
  · have hsent := h.log r hr
    exact ⟨Nat.lt_succ_of_lt hsent.old, hsent.bound, hsent.closed⟩

theorem Inv.turn (h : Inv es s) (hw : s.workers n = some w)
    (hturn : w.turn env s.clock s.cancelled t = some (w', fs)) :
    Inv (es ++ fs) { s with workers := Function.update s.workers n (some w') } := by
  have hturned := (h.workers.sound n w hw).turn h.log hturn
  refine ⟨h.workers.update hturned.sound ?_ ?_, hturned.log⟩
  · intro m v hv hm r hr k hk
    exact h.workers.apart n m w v hw hv (Ne.symm hm) _ (hturned.jobs r hr) k hk
  · intro m v hv hm j hj k hk
    exact h.workers.apart n m w v hw hv (Ne.symm hm) j (hturned.pending j hj) k hk

theorem Inv.step (h : Inv es s) (hstep : step env s a = some (t, fs)) : Inv (es ++ fs) t := by
  cases a with
  | setConfig config =>
    cases hstep
    rw [List.append_nil]
    exact ⟨h.workers, h.log⟩
  | event e =>
    simp only [Webhook.step] at hstep
    split at hstep
    · cases hstep
    · cases hstep
      rw [List.append_nil]
      exact h.event e
  | turn name u =>
    simp only [Webhook.step] at hstep
    split at hstep
    · cases hstep
    · rename_i w hw
      obtain ⟨⟨w', gs⟩, hturn, hresult⟩ := Option.map_eq_some_iff.mp hstep
      cases hresult
      exact h.turn hw hturn
  | elapse instant mono =>
    cases hstep
    rw [List.append_nil]
    exact ⟨⟨fun n w hw => (h.workers.sound n w hw).later (Nat.le_refl _) (Nat.le_add_right ..),
      h.workers.apart⟩, h.log⟩
  | cancel =>
    cases hstep
    rw [List.append_nil]
    exact ⟨h.workers, h.log⟩

/-- The request is for an address that the policy of the profile permits. -/
def permitted (env : Env Event Key Value) (r : Sent Key Value) : Bool :=
  match r.request.verdict with
  | .allow addr _ => (targetPolicy env r.job.profile).permits addr.ip
  | .deny _ => false

/-- The breaker's record under the settings of a profile. -/
def CircuitBreaker.under (c : CircuitBreaker) (settings : TargetSettings) : CircuitBreaker :=
  { c with threshold := settings.threshold, openDuration := settings.openDuration }

/-- What a profile asks of a request that is sent for it. -/
structure Follows (env : Env Event Key Value) (es : List (Sent Key Value)) (r : Sent Key Value) :
    Prop where
  allowed : permitted env r = true
  bounded : spent es r.job.id ≤ r.job.profile.maxRetries + 1
  closed : r.circuit.state r.instant ≠ .opened
  closedUnder : (r.circuit.under (targetSettings env r.job.profile)).state r.instant ≠ .opened

/-- Every profile that the event is for has the settings of the worker of its name, if there is
one, and of the event's other profiles of that name. -/
def Steady (env : Env Event Key Value) (s : System Key Value) : Label Event → Prop
  | .event e =>
    let jobs := jobsOf env s.handled s.config.profiles e
    ∀ j ∈ jobs,
      (∀ w ∈ s.workers j.profile.name, w.settings = targetSettings env j.profile) ∧
      ∀ k ∈ jobs, k.profile.name = j.profile.name →
        targetSettings env k.profile = targetSettings env j.profile
  | _ => True

instance (env : Env Event Key Value) (s : System Key Value) :
    ∀ a, Decidable (Steady env s a)
  | .event _ => inferInstanceAs (Decidable (∀ _ ∈ _, _ ∧ _))
  | .setConfig _ | .turn _ _ | .elapse _ _ | .cancel => inferInstanceAs (Decidable True)

/-- Workers whose jobs all come from profiles with their own settings. -/
def Serving (env : Env Event Key Value) (workers : Workers Key Value) : Prop :=
  ∀ n w, workers n = some w → ∀ j ∈ w.pending, w.settings = targetSettings env j.profile

/-- What was sent obeyed the settings of its profile. -/
def Obeyed (env : Env Event Key Value) (r : Sent Key Value) : Prop :=
  permitted env r = true ∧ r.circuit.under (targetSettings env r.job.profile) = r.circuit

theorem settings_enqueue {workers : Workers Key Value}
    (hjob : ∀ w ∈ workers job.profile.name, w.settings = targetSettings env job.profile)
    (hw : enqueue env workers job n = some w) :
    (n = job.profile.name ∧ w.settings = targetSettings env job.profile) ∨
      ∃ v, workers n = some v ∧ w = v := by
  unfold enqueue at hw
  by_cases hn : n = job.profile.name
  · rw [hn, Function.update_self] at hw
    cases hw
    refine .inl ⟨hn, (TargetWorker.settings_trySend _ job).trans ?_⟩
    cases hname : workers job.profile.name with
    | none => rfl
    | some v => exact hjob v hname
  · rw [Function.update_of_ne hn] at hw
    exact .inr ⟨w, hw, rfl⟩

theorem Serving.enqueue {workers : Workers Key Value} (h : Serving env workers)
    (hjob : ∀ w ∈ workers job.profile.name, w.settings = targetSettings env job.profile) :
    Serving env (enqueue env workers job) := by
  intro n w hw j hj
  rcases settings_enqueue hjob hw with ⟨hn, hsettings⟩ | ⟨v, hv, rfl⟩
  · rcases pending_enqueue hw hj with ⟨rfl, _⟩ | ⟨v, hv, hj⟩
    · exact hsettings
    · rw [hsettings, ← hjob v (hn ▸ hv)]
      exact h n v hv j hj
  · exact h n w hv j hj

theorem Serving.enqueueAll {jobs : List (WebhookJob Key Value)} {workers : Workers Key Value}
    (h : Serving env workers)
    (hjobs : ∀ j ∈ jobs, ∀ w ∈ workers j.profile.name, w.settings = targetSettings env j.profile)
    (hsame : ∀ j ∈ jobs, ∀ k ∈ jobs, k.profile.name = j.profile.name →
      targetSettings env k.profile = targetSettings env j.profile) :
    Serving env (jobs.foldl (Webhook.enqueue env) workers) := by
  induction jobs generalizing workers with
  | nil => exact h
  | cons job jobs ih =>
    have hjob := hjobs job List.mem_cons_self
    refine ih (h.enqueue hjob) ?_ fun j hj k hk =>
      hsame j (List.mem_cons_of_mem _ hj) k (List.mem_cons_of_mem _ hk)
    intro j hj w hw
    rcases settings_enqueue hjob hw with ⟨hn, hsettings⟩ | ⟨v, hv, rfl⟩
    · rw [hsettings]
      exact hsame j (List.mem_cons_of_mem _ hj) job List.mem_cons_self hn.symm
    · exact hjobs j (List.mem_cons_of_mem _ hj) w hv

theorem Serving.turn {s : System Key Value} (h : Serving env s.workers)
    (hes : ∀ r ∈ es, Obeyed env r) (hw : s.workers n = some w)
    (hturned : Turned es s.handled s.clock.instant w w' fs) :
    Serving env (Function.update s.workers n (some w')) ∧ ∀ r ∈ es ++ fs, Obeyed env r := by
  constructor
  · intro m v hv j hj
    by_cases hm : m = n
    · rw [hm, Function.update_self] at hv
      cases hv
      rw [hturned.settings]
      exact h n w hw j (hturned.pending j hj)
    · rw [Function.update_of_ne hm] at hv
      exact h m v hv j hj
  · intro r hr
    rcases List.mem_append.mp hr with hr | hr
    · exact hes r hr
    · have hsettings := h n w hw r.job (hturned.jobs r hr)
      obtain ⟨hcircuit, addr, parsed, hverdict, hpermits⟩ := hturned.obeys r hr
      constructor
      · rw [permitted, hverdict]
        have hpolicy : targetPolicy env r.job.profile = w.urlPolicy :=
          congrArg (·.policy) hsettings.symm
        rwa [hpolicy]
      · rw [← hsettings, hcircuit]
        rfl

theorem steady_step (h : Inv es s) (hserving : Serving env s.workers)
    (hes : ∀ r ∈ es, Obeyed env r) (hsteady : Steady env s a)
    (hstep : step env s a = some (t, fs)) :
    Serving env t.workers ∧ ∀ r ∈ es ++ fs, Obeyed env r := by
  cases a with
  | setConfig config =>
    cases hstep
    rw [List.append_nil]
    exact ⟨hserving, hes⟩
  | event e =>
    simp only [step] at hstep
    split at hstep
    · cases hstep
    · cases hstep
      rw [List.append_nil]
      exact ⟨hserving.enqueueAll (fun j hj => (hsteady j hj).1) fun j hj => (hsteady j hj).2, hes⟩
  | turn name u =>
    simp only [step] at hstep
    split at hstep
    · cases hstep
    · rename_i w hw
      obtain ⟨⟨w', gs⟩, hturn, hresult⟩ := Option.map_eq_some_iff.mp hstep
      cases hresult
      exact hserving.turn hes hw ((h.workers.sound name w hw).turn h.log hturn)
  | elapse instant mono =>
    cases hstep
    rw [List.append_nil]
    exact ⟨hserving, hes⟩
  | cancel =>
    cases hstep
    rw [List.append_nil]
    exact ⟨hserving, hes⟩

/-- In a run whose events find the workers with the settings of their profiles, every request
follows the profile it is for. -/
theorem run_keeps_policy (hsteady : (step env).Along (Steady env) (System.new config clock) labels)
    (hrun : (step env).run (System.new config clock) labels = some (s, es)) :
    ∀ r ∈ es, Follows env es r := by
  obtain ⟨hinv, _, hobeyed⟩ := Transition.run_traced
    (fun es (s : System Key Value) => Inv es s ∧ Serving env s.workers ∧ ∀ r ∈ es, Obeyed env r)
    (fun es s a t fs h hcond hstep =>
      ⟨h.1.step hstep, steady_step h.1 h.2.1 h.2.2 hcond hstep⟩) []
    ⟨inv_new config clock, fun n w hw => (by cases hw), fun r hr => (by cases hr)⟩ hsteady hrun
  intro r hr
  obtain ⟨hpermitted, hunder⟩ := hobeyed r hr
  have hsent := hinv.log r hr
  refine ⟨hpermitted, ?_, hsent.closed, ?_⟩
  · have hmax : r.job.profile.maxAttempts ≤ r.job.profile.maxRetries + 1 := Nat.min_le_left ..
    exact Nat.le_trans hsent.bound hmax
  · rw [hunder]
    exact hsent.closed

end

/-- A dispatcher of native events whose URLs all name one host. -/
def nativeEnv : Env Unit Unit Unit where
  header _ := { eventId := "1".toList, occurredAt := 0, mediaKey := none }
  mediaEventType _ := some "stream_published".toList
  translators _ := some fun _ => [{ hookName := "stream_published".toList, payload := () }]
  urlPolicy := .default
  parseUrl _ := .ok
    { scheme := "http".toList, host := some "hooks".toList, portOrKnownDefault := some 80
      path := "/".toList, query := none }
  payloadToVec _ := .ok []
  envelopeToVec _ _ := .ok []
  signBody _ _ := .error []

def loopbackResolver : Resolver := fun _ => .ok [{ ip := .v4 (.ofOctets [127, 0, 0, 1]), port := 80 }]

def hookProfile (allowedCidrs : List Text) : WebhookProfile :=
  { name := "t".toList, url := "http://hooks/".toList, allowedCidrs }

/-- An event from the queue to the sender. -/
def deliver : List (Label Unit) :=
  [.event (), .turn "t".toList (.take loopbackResolver), .turn "t".toList .attempt]

theorem run_follows_once : ∃ s es,
    (step nativeEnv).run (System.new ⟨[hookProfile ["127.0.0.0/8".toList]]⟩ ⟨0, 0⟩) deliver =
      some (s, es) ∧ es.length = 1 ∧ ∀ r ∈ es, Follows nativeEnv es r := by
  obtain ⟨⟨s, es⟩, hrun, hlength⟩ := Option.map_eq_some_iff.mp
    (show ((step nativeEnv).run (System.new ⟨[hookProfile ["127.0.0.0/8".toList]]⟩ ⟨0, 0⟩)
      deliver).map (·.2.length) = some 1 by decide +kernel)
  exact ⟨s, es, hrun, hlength, run_keeps_policy (by decide +kernel) hrun⟩

/-- The profile's CIDRs are taken away between two events: its worker still posts to loopback. -/
theorem stale_policy : ∃ s es,
    (step nativeEnv).run (System.new ⟨[hookProfile ["127.0.0.0/8".toList]]⟩ ⟨0, 0⟩)
      (deliver ++ [.turn "t".toList (.respond (.ok 200)), .setConfig ⟨[hookProfile []]⟩] ++ deliver) =
      some (s, es) ∧ ¬ ∀ r ∈ es, Follows nativeEnv es r := by
  obtain ⟨⟨s, es⟩, hrun, hdenied⟩ := Option.map_eq_some_iff.mp
    (show ((step nativeEnv).run (System.new ⟨[hookProfile ["127.0.0.0/8".toList]]⟩ ⟨0, 0⟩)
      (deliver ++ [.turn "t".toList (.respond (.ok 200)), .setConfig ⟨[hookProfile []]⟩] ++
        deliver)).map (·.2.all (permitted nativeEnv)) = some false by decide +kernel)
  refine ⟨s, es, hrun, fun h => ?_⟩
  have hall : es.all (permitted nativeEnv) = true := List.all_eq_true.mpr fun r hr => (h r hr).allowed
  exact absurd (hall.symm.trans hdenied) (by decide)

end CheetahMedia.Webhook
