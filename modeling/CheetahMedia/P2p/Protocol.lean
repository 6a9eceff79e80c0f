import CheetahMedia.Lib.Transition
import CheetahMedia.P2p.Job
import Mathlib.Data.List.Induction

namespace CheetahMedia.P2p

/-- One input of a run: the job it came to and the actions that were emitted for it. -/
structure Entry where
  job : P2pJob
  input : P2pJobInput
  actions : List P2pJobAction

abbrev Journal := List Entry

namespace Journal

def actions (log : Journal) : List P2pJobAction := log.flatMap (·.actions)

/-- The candidates that came, in order. -/
def arrivals (log : Journal) : List PendingCandidate :=
  log.filterMap fun e => match e.input with
    | .remoteCandidate c => some c
    | _ => none

/-- Those that the buffer took in. -/
def accepted (log : Journal) : List PendingCandidate :=
  log.filterMap fun e => match e.input with
    | .remoteCandidate c => if e.job.pending.Accepts c then some c else none
    | _ => none

/-- Those that gave way to others before they were handed over. -/
def evicted (log : Journal) : List PendingCandidate :=
  log.flatMap fun e => match e.input with
    | .remoteCandidate c =>
      if e.job.pending.Accepts c ∧ e.job.pending.state = .awaitingAnswer then e.job.pending.drops
      else []
    | _ => []

/-- Those that the driver was given. -/
def added (log : Journal) : List PendingCandidate :=
  log.actions.filterMap fun a => match a with
    | .addRemoteCandidate c => some c
    | _ => none

/-- The strings of those that came when the buffer was open. -/
def passed (log : Journal) : List String :=
  log.filterMap fun e => match e.input with
    | .remoteCandidate c => if e.job.pending.state = .open then some c.candidate else none
    | _ => none

end Journal

def isCheckIn : P2pJobAction → Bool
  | .sendCheckIn _ => true
  | _ => false

def isAnswer : P2pJobAction → Bool
  | .applyRemoteAnswer _ => true
  | _ => false

def isCandidate : P2pJobAction → Bool
  | .addRemoteCandidate _ => true
  | _ => false

/-- The job after the inputs, and what happened for each. -/
def P2pJob.step (s : P2pJob × Journal) (input : P2pJobInput) : P2pJob × Journal :=
  let (job, result) := s.1.apply input
  (job, s.2 ++ [{ job := s.1, input, actions := result.toOption.getD [] }])

def P2pJob.run (config : P2pJobConfig) (inputs : List P2pJobInput) : P2pJob × Journal :=
  inputs.foldl P2pJob.step (P2pJob.new config, [])

/-- The protocol, of a run so far. -/
structure Protocol (s : P2pJob × Journal) : Prop where
  checkIn : s.2.actions.countP isCheckIn ≤ 1
  answer : s.2.actions.countP isAnswer ≤ 1
  answer_first : Lib.AtEach (fun before a => isCandidate a → ∃ b ∈ before, isAnswer b) s.2.actions
  once : (s.2.added.map (·.candidate)).Nodup
  order : s.2.added.Sublist s.2.arrivals
  complete : (∃ a ∈ s.2.actions, isAnswer a) → s.2.accepted = s.2.evicted ++ s.2.added
  connected : s.1.state = .connected → ∃ a ∈ s.2.actions, isAnswer a
  bounded : s.1.pending.queue.length ≤ s.1.pending.cap
  ended : ∀ e ∈ s.2, e.job.state.Ended → e.actions = []

/-- The inputs that the job is meant for: one answer, a connection after the answer, and after
the answer no candidate again that the buffer has forgotten. -/
def Orderly (s : P2pJob × Journal) : P2pJobInput → Prop
  | .remoteAnswer _ => s.1.state = .awaitingAnswer → s.1.pending.state ≠ .open
  | .driverConnected => s.1.state = .awaitingAnswer → s.1.pending.state = .open
  | .remoteCandidate c =>
    s.1.pending.state = .open → c.candidate ∈ s.2.passed → c.candidate ∈ s.1.pending.seen
  | _ => True

namespace Journal
variable {log : Journal} {e : Entry}

@[simp] theorem actions_snoc : actions (log ++ [e]) = log.actions ++ e.actions := by
  simp [actions]

@[simp] theorem added_snoc : added (log ++ [e]) =
    log.added ++ e.actions.filterMap fun a => match a with
      | .addRemoteCandidate c => some c
      | _ => none := by
  simp [added]

theorem arrivals_snoc : arrivals (log ++ [e]) = log.arrivals ++ arrivals [e] := by
  simp [arrivals]

theorem accepted_snoc : accepted (log ++ [e]) = log.accepted ++ accepted [e] := by
  simp [accepted]

theorem evicted_snoc : evicted (log ++ [e]) = log.evicted ++ evicted [e] := by
  simp [evicted]

theorem passed_snoc : passed (log ++ [e]) = log.passed ++ passed [e] := by
  simp [passed]

end Journal

/-- Before the answer: what was taken in and not evicted waits. -/
structure Waiting (b : PendingCandidateBuffer) (log : Journal) : Prop where
  answers : ∀ a ∈ log.actions, isAnswer a = false
  added : log.added = []
  passed : log.passed = []
  kept : log.accepted = log.evicted ++ b.queue
  seen : ∀ x, x ∈ b.seen ↔ x ∈ b.queue.map (·.candidate)
  nodup : (b.queue.map (·.candidate)).Nodup

/-- After the answer: what the driver was given is remembered, or came since. -/
structure Opened (b : PendingCandidateBuffer) (log : Journal) : Prop where
  answered : ∃ a ∈ log.actions, isAnswer a
  remembered : ∀ x ∈ log.added.map (·.candidate), x ∈ b.seen ∨ x ∈ log.passed
  known : ∀ x ∈ b.seen, x ∈ log.added.map (·.candidate)
  passed : ∀ x ∈ log.passed, x ∈ log.added.map (·.candidate)
  queued : ∀ c ∈ b.queue, c.candidate ∈ log.passed

structure Inv (s : P2pJob × Journal) : Prop extends Protocol s where
  offered : s.1.state = .pending → s.2.actions.countP isCheckIn = 0
  closed : s.1.pending.state = .closed ↔ s.1.state.Ended
  arrived : s.2.accepted.Sublist s.2.arrivals
  waiting : s.1.pending.state = .awaitingAnswer → Waiting s.1.pending s.2
  opened : s.1.pending.state = .open → Opened s.1.pending s.2

theorem inv_new (config : P2pJobConfig) : Inv (P2pJob.new config, []) where
  checkIn := Nat.zero_le _
  answer := Nat.zero_le _
  answer_first := Lib.atEach_nil
  once := List.nodup_nil
  order := .slnil
  complete := fun ⟨_, h, _⟩ => nomatch h
  connected h := nomatch h
  bounded := Nat.zero_le _
  ended := fun _ h => nomatch h
  offered _ := rfl
  closed := by
    constructor
    · intro h
      cases h
    · rintro (h | h) <;> cases h
  arrived := .slnil
  waiting _ := {
    answers := fun _ h => nomatch h
    added := rfl
    passed := rfl
    kept := rfl
    seen := fun _ => .rfl
    nodup := List.nodup_nil }
  opened h := nomatch h

/-- What a step that takes in no candidate leaves of the candidates. -/
theorem idle_candidates (e : Entry)
    (h : ∀ c, e.input = .remoteCandidate c → ¬e.job.pending.Accepts c) :
    Journal.accepted [e] = [] ∧ Journal.evicted [e] = [] := by
  unfold Journal.accepted Journal.evicted
  cases hinput : e.input with
  | remoteCandidate c => simp [hinput, h c hinput]
  | _ => simp [hinput]

theorem passed_idle (h : Opened b log) (e : Entry) (hb : e.job.pending = b)
    (hidle : ∀ c, e.input = .remoteCandidate c → ¬b.Accepts c) :
    ∀ x ∈ Journal.passed [e], x ∈ log.added.map (·.candidate) := by
  unfold Journal.passed
  cases hinput : e.input with
  | remoteCandidate c =>
    intro x hx
    rw [List.filterMap_cons, hinput, hb] at hx
    dsimp only at hx
    by_cases hopen : b.state = .open
    · rw [if_pos hopen] at hx
      obtain rfl : x = c.candidate := by simpa using hx
      have hseen : c.candidate ∈ b.seen := by
        by_contra hseen
        exact hidle c hinput ⟨hopen ▸ (fun h => nomatch h), hseen⟩
      exact h.known _ hseen
    · rw [if_neg hopen] at hx
      simp at hx
  | _ => simp [hinput]

/-- A step that takes in and hands over no candidate and applies no answer. -/
theorem Inv.other {j k : P2pJob} (h : Inv (j, log)) (e : Entry) (he : e.job = j)
    (hpending : k.pending = j.pending)
    (hidle : ∀ c, e.input = .remoteCandidate c → ¬j.pending.Accepts c)
    (hanswers : ∀ a ∈ e.actions, isAnswer a = false ∧ isCandidate a = false)
    (hcheckIn : (log.actions ++ e.actions).countP isCheckIn ≤ 1)
    (hoffered : k.state = .pending → (log.actions ++ e.actions).countP isCheckIn = 0)
    (hconnected : k.state = .connected → ∃ a ∈ log.actions, isAnswer a)
    (hended : k.state.Ended ↔ j.state.Ended) (hsilent : j.state.Ended → e.actions = []) :
    Inv (k, log ++ [e]) := by
  subst he
  have hadded : (e.actions.filterMap fun a => match a with
      | .addRemoteCandidate c => some c
      | _ => none) = ([] : List PendingCandidate) := by
    rw [List.filterMap_eq_nil_iff]
    intro a ha
    have hcandidate := (hanswers a ha).2
    cases a <;> first | rfl | cases hcandidate
  have hcount : e.actions.countP isAnswer = 0 :=
    List.countP_eq_zero.mpr fun a ha => by simp [(hanswers a ha).1]
  have hexists : (∃ a ∈ log.actions ++ e.actions, isAnswer a) → ∃ a ∈ log.actions, isAnswer a := by
    rintro ⟨a, ha, hanswer⟩
    rcases List.mem_append.mp ha with ha | ha
    · exact ⟨a, ha, hanswer⟩
    · rw [(hanswers a ha).1] at hanswer
      cases hanswer
  obtain ⟨haccepted, hevicted⟩ := idle_candidates e hidle
  have hsame : (log ++ [e]).added = log.added := by
    rw [Journal.added_snoc, hadded, List.append_nil]
  have hsame' : (log ++ [e]).accepted = log.accepted := by
    rw [Journal.accepted_snoc, haccepted, List.append_nil]
  have hsame'' : (log ++ [e]).evicted = log.evicted := by
    rw [Journal.evicted_snoc, hevicted, List.append_nil]
  have harrivals : log.arrivals.Sublist (log ++ [e]).arrivals := by
    rw [Journal.arrivals_snoc]
    exact List.sublist_append_left ..
  exact {
    checkIn := by simpa using hcheckIn
    answer := by
      have := h.answer
      simpa [hcount] using this
    answer_first := by
      rw [Journal.actions_snoc]
      refine h.answer_first.append fun a ha before hcandidate => ?_
      rw [(hanswers a ha).2] at hcandidate
      cases hcandidate
    once := hsame ▸ h.once
    order := hsame ▸ h.order.trans harrivals
    complete := fun hanswer => by
      rw [Journal.actions_snoc] at hanswer
      rw [hsame, hsame', hsame'']
      exact h.complete (hexists hanswer)
    connected := fun hstate => by
      obtain ⟨a, ha, hanswer⟩ := hconnected hstate
      exact ⟨a, by simp [ha], hanswer⟩
    bounded := hpending ▸ h.bounded
    ended := fun x hx hx' => by
      rcases List.mem_append.mp hx with hx | hx
      · exact h.ended x hx hx'
      · obtain rfl := List.mem_singleton.mp hx
        exact hsilent hx'
    offered := by simpa using hoffered
    closed := by rw [hpending, hended]; exact h.closed
    arrived := hsame' ▸ h.arrived.trans harrivals
    waiting := fun hstate => by
      rw [hpending] at hstate ⊢
      have hw := h.waiting hstate
      have hpassed : Journal.passed [e] = [] := by
        unfold Journal.passed
        cases hinput : e.input with
        | remoteCandidate c =>
          have hstate' : e.job.pending.state = .awaitingAnswer := hstate
          simp [hinput, hstate']
        | _ => simp [hinput]
      exact {
        answers := fun a ha => by
          rcases List.mem_append.mp (Journal.actions_snoc ▸ ha) with ha | ha
          · exact hw.answers a ha
          · exact (hanswers a ha).1
        added := hsame ▸ hw.added
        passed := by rw [Journal.passed_snoc, hpassed, List.append_nil]; exact hw.passed
        kept := by rw [hsame', hsame'']; exact hw.kept
        seen := hw.seen
        nodup := hw.nodup }
    opened := fun hstate => by
      rw [hpending] at hstate ⊢
      have ho := h.opened hstate
      have hpassed := passed_idle ho e rfl hidle
      exact {
        answered := by
          obtain ⟨a, ha, hanswer⟩ := ho.answered
          exact ⟨a, by simp [ha], hanswer⟩
        remembered := fun x hx => by
          rw [hsame] at hx
          rw [Journal.passed_snoc]
          exact (ho.remembered x hx).imp_right (List.mem_append_left _)
        known := hsame ▸ ho.known
        passed := fun x hx => by
          rw [hsame]
          rcases List.mem_append.mp (Journal.passed_snoc ▸ hx) with hx | hx
          · exact ho.passed x hx
          · exact hpassed x hx
        queued := fun c hc => by
          rw [Journal.passed_snoc]
          exact List.mem_append_left _ (ho.queued c hc) } }

/-- The end of a job empties the buffer and closes it. -/
theorem Inv.close {j : P2pJob} (h : Inv (j, log)) (e : Entry) (he : e.job = j)
    (hstate : state.Ended) (hlive : ¬j.state.Ended)
    (hidle : ∀ c, e.input ≠ .remoteCandidate c)
    (hactions : ∀ a ∈ e.actions, isCheckIn a = false ∧ isAnswer a = false ∧ isCandidate a = false) :
    Inv ({ j with state, pending := j.pending.close, lastError := error }, log ++ [e]) := by
  have hcheckIn : e.actions.countP isCheckIn = 0 :=
    List.countP_eq_zero.mpr fun a ha => by simp [(hactions a ha).1]
  have hmid := h.other e he (k := j) rfl (fun c hc => absurd hc (hidle c))
    (fun a ha => (hactions a ha).2)
    (by
      have := h.checkIn
      rw [List.countP_append, hcheckIn]
      exact this)
    (fun hpending => by
      have := h.offered hpending
      rw [List.countP_append, hcheckIn]
      exact this)
    h.connected .rfl (fun hended => absurd hended hlive)
  exact {
    hmid with
    connected := fun hconnected => by
      rcases hstate with rfl | rfl <;> cases hconnected
    bounded := Nat.zero_le _
    offered := fun hpending => by
      rcases hstate with rfl | rfl <;> cases hpending
    closed := ⟨fun _ => hstate, fun _ => rfl⟩
    waiting := fun hwaiting => by cases hwaiting
    opened := fun hopen => by cases hopen }

/-- The first answer hands over what waits. -/
theorem Inv.answered {j : P2pJob} (h : Inv (j, log)) (hstate : j.state = .awaitingAnswer)
    (hwaiting : j.pending.state = .awaitingAnswer) (sdp : String) :
    Inv (P2pJob.step (j, log) (.remoteAnswer sdp)) := by
  have hw := h.waiting hwaiting
  have hlive : ¬j.state.Ended := by
    rw [hstate]
    rintro (h | h) <;> cases h
  have hflush : j.pending.flush = ({ j.pending with state := .open, queue := [] }, j.pending.queue) := by
    unfold PendingCandidateBuffer.flush
    rw [if_neg (by rw [hwaiting]; decide)]
  have hactions : ∀ cs : List PendingCandidate,
      (cs.map P2pJobAction.addRemoteCandidate).countP isCheckIn = 0 ∧
      (cs.map P2pJobAction.addRemoteCandidate).countP isAnswer = 0 := fun cs => by
    constructor <;> exact List.countP_eq_zero.mpr fun a ha => by
      obtain ⟨c, -, rfl⟩ := List.mem_map.mp ha
      simp [isCheckIn, isAnswer]
  obtain ⟨hnoCheckIn, hnoAnswer⟩ := hactions j.pending.queue
  have hcount : log.actions.countP isAnswer = 0 :=
    List.countP_eq_zero.mpr fun a ha => by simp [hw.answers a ha]
  have hadds : (j.pending.queue.map P2pJobAction.addRemoteCandidate).filterMap (fun a => match a with
      | .addRemoteCandidate c => some c
      | _ => none) = j.pending.queue := by
    rw [List.filterMap_map]
    exact List.filterMap_some
  unfold P2pJob.step
  simp only [P2pJob.apply, P2pJob.onRemoteAnswer, if_pos hstate, hflush, Except.toOption,
    Option.getD_some]
  generalize he : Entry.mk j (.remoteAnswer sdp)
    (.applyRemoteAnswer sdp :: j.pending.queue.map .addRemoteCandidate) = e
  have hinput : ∀ c, e.input ≠ .remoteCandidate c := by
    subst he
    intro c h
    cases h
  obtain ⟨haccepted, hevicted⟩ := idle_candidates e fun c hc => absurd hc (hinput c)
  have hpassed : Journal.passed [e] = [] := by
    subst he
    rfl
  have hadded : (log ++ [e]).added = j.pending.queue := by
    rw [Journal.added_snoc, hw.added, ← he, List.nil_append, List.filterMap_cons]
    exact hadds
  have hsame : (log ++ [e]).accepted = log.accepted := by
    rw [Journal.accepted_snoc, haccepted, List.append_nil]
  have hsame' : (log ++ [e]).evicted = log.evicted := by
    rw [Journal.evicted_snoc, hevicted, List.append_nil]
  have harrivals : log.arrivals.Sublist (log ++ [e]).arrivals := by
    rw [Journal.arrivals_snoc]
    exact List.sublist_append_left ..
  have hanswer : ∃ a ∈ (log ++ [e]).actions, isAnswer a := by
    refine ⟨.applyRemoteAnswer sdp, ?_, rfl⟩
    rw [Journal.actions_snoc, ← he]
    exact List.mem_append_right _ List.mem_cons_self
  exact {
    checkIn := by
      have := h.checkIn
      rw [Journal.actions_snoc, ← he, List.countP_append, List.countP_cons, hnoCheckIn]
      exact this
    answer := by
      rw [Journal.actions_snoc, ← he, List.countP_append, List.countP_cons, hnoAnswer, hcount]
      simp [isAnswer]
    answer_first := by
      rw [Journal.actions_snoc, ← he, List.append_cons]
      have hfirst : Lib.AtEach _ (log.actions ++ [.applyRemoteAnswer sdp]) :=
        h.answer_first.append fun a ha _ hcandidate => by
          obtain rfl := List.mem_singleton.mp ha
          cases hcandidate
      exact hfirst.append_after (fun before hbefore a _ =>
        ⟨.applyRemoteAnswer sdp, hbefore.subset (by simp), rfl⟩) _
    once := hadded ▸ hw.nodup
    order := hadded ▸ ((hw.kept ▸ List.sublist_append_right ..).trans h.arrived).trans harrivals
    complete := fun _ => by rw [hsame, hsame', hadded]; exact hw.kept
    connected := fun _ => hanswer
    bounded := Nat.zero_le _
    ended := fun x hx hx' => by
      rcases List.mem_append.mp hx with hx | hx
      · exact h.ended x hx hx'
      · obtain rfl := List.mem_singleton.mp hx
        rw [← he] at hx'
        exact absurd hx' hlive
    offered := fun hpending => by
      have hpending : j.state = .pending := hpending
      rw [hstate] at hpending
      cases hpending
    closed := by
      constructor
      · intro hclosed
        cases hclosed
      · exact fun hended => absurd hended hlive
    arrived := hsame ▸ h.arrived.trans harrivals
    waiting := fun hwaiting => by cases hwaiting
    opened := fun _ => {
      answered := hanswer
      remembered := fun x hx => .inl ((hw.seen x).mpr (hadded ▸ hx))
      known := fun x hx => hadded ▸ (hw.seen x).mp hx
      passed := fun x hx => by
        rw [Journal.passed_snoc, hw.passed, hpassed] at hx
        cases hx
      queued := fun c hc => by cases hc } }

/-- The step on a candidate that is taken in: a diagnostic if another one is dropped for it, and
the candidate itself if the buffer is open. -/
theorem step_taken {j : P2pJob} (log : Journal) (hlive : ¬j.state.Ended) (hacc : j.pending.Accepts c) :
    ∃ diagnostics, (∀ a ∈ diagnostics, ∃ text, a = P2pJobAction.diagnostic text) ∧
      P2pJob.step (j, log) (.remoteCandidate c) = ({ j with pending := (j.pending.push c).1 },
        log ++ [Entry.mk j (.remoteCandidate c)
          (diagnostics ++ if j.pending.state = .open then [.addRemoteCandidate c] else [])]) := by
  obtain ⟨hpush, houtcome⟩ := PendingCandidateBuffer.push_accepted hacc
  unfold P2pJob.step
  simp only [P2pJob.apply, P2pJob.onRemoteCandidate, if_neg hlive]
  rw [houtcome]
  cases hdrops : j.pending.drops with
  | nil =>
    refine ⟨[], fun a h => (by cases h), ?_⟩
    simp [hpush, Except.toOption]
  | cons ev rest =>
    refine ⟨[.diagnostic ("pending candidate buffer evicted oldest entry `" ++ ev.candidate ++ "`")],
      fun a h => ⟨_, List.mem_singleton.mp h⟩, ?_⟩
    simp [hpush, Except.toOption]

theorem Waiting.taken {b : PendingCandidateBuffer} (h : Waiting b log)
    (hstate : b.state = .awaitingAnswer) (hacc : b.Accepts c) (e : Entry) (hb : e.job.pending = b)
    (hinput : e.input = .remoteCandidate c)
    (hactions : ∀ a ∈ e.actions, isAnswer a = false)
    (hadded : (log ++ [e]).added = []) : Waiting (b.push c).1 (log ++ [e]) := by
  subst hb
  have hnodup := h.nodup
  have hseen := h.seen
  have hkept := h.kept
  rw [← PendingCandidateBuffer.drops_append (b := e.job.pending)] at hnodup hkept
  rw [← PendingCandidateBuffer.drops_append (b := e.job.pending)] at hseen
  simp only [List.map_append, List.nodup_append, List.mem_append] at hnodup hseen
  obtain ⟨-, hrest, hdisjoint⟩ := hnodup
  have hnew := (hseen c.candidate).not.mp hacc.2
  rw [(PendingCandidateBuffer.push_accepted hacc).1]
  exact {
    answers := fun a ha => by
      rcases List.mem_append.mp (Journal.actions_snoc ▸ ha) with ha | ha
      · exact h.answers a ha
      · exact hactions a ha
    added := hadded
    passed := by
      rw [Journal.passed_snoc, h.passed]
      simp [Journal.passed, hinput, hstate]
    kept := by
      have haccepted : Journal.accepted [e] = [c] := by simp [Journal.accepted, hinput, hacc]
      have hevicted : Journal.evicted [e] = e.job.pending.drops := by
        simp [Journal.evicted, hinput, hacc, hstate]
      rw [Journal.accepted_snoc, Journal.evicted_snoc, haccepted, hevicted, hkept]
      simp only [List.append_assoc]
    seen := fun x => by
      simp only [List.mem_filter, List.mem_cons, hseen, decide_eq_true_eq, List.map_append,
        List.map_cons, List.map_nil, List.mem_append, List.not_mem_nil, or_false]
      constructor
      · rintro ⟨rfl | hx | hx, hkeep⟩
        · exact .inr rfl
        · exact absurd hx hkeep
        · exact .inl hx
      · rintro (hx | rfl)
        · exact ⟨.inr (.inr hx), fun hx' => hdisjoint x hx' x hx rfl⟩
        · exact ⟨.inl rfl, fun hx' => hnew (.inl hx')⟩
    nodup := by
      simp only [List.map_append, List.map_cons, List.map_nil]
      refine List.nodup_append.mpr ⟨hrest, List.pairwise_singleton .., fun x hx y hy heq => ?_⟩
      obtain rfl := List.mem_singleton.mp hy
      exact hnew (.inr (heq ▸ hx)) }

theorem Opened.taken {b : PendingCandidateBuffer} (h : Opened b log) (hstate : b.state = .open)
    (hacc : b.Accepts c) (e : Entry) (hb : e.job.pending = b) (hinput : e.input = .remoteCandidate c)
    (hadded : (log ++ [e]).added = log.added ++ [c]) : Opened (b.push c).1 (log ++ [e]) := by
  subst hb
  have hpassed : Journal.passed [e] = [c.candidate] := by simp [Journal.passed, hinput, hstate]
  have hdropped : ∀ x ∈ e.job.pending.drops, x ∈ e.job.pending.queue := fun x hx => by
    rw [← PendingCandidateBuffer.drops_append]
    exact List.mem_append_left _ hx
  have hleft : ∀ x ∈ e.job.pending.queue.drop e.job.pending.drops.length,
      x ∈ e.job.pending.queue := fun x hx => List.mem_of_mem_drop hx
  rw [(PendingCandidateBuffer.push_accepted hacc).1]
  exact {
    answered := by
      obtain ⟨a, ha, hanswer⟩ := h.answered
      exact ⟨a, by simp [ha], hanswer⟩
    remembered := fun x hx => by
      rw [Journal.passed_snoc, hpassed]
      rw [hadded, List.map_append] at hx
      rcases List.mem_append.mp hx with hx | hx
      · rcases h.remembered x hx with hseen | hx
        · by_cases hgone : x ∈ e.job.pending.drops.map (·.candidate)
          · obtain ⟨d, hd, rfl⟩ := List.mem_map.mp hgone
            exact .inr (List.mem_append_left _ (h.queued d (hdropped d hd)))
          · exact .inl (List.mem_filter.mpr ⟨List.mem_cons_of_mem _ hseen, by simpa using hgone⟩)
        · exact .inr (List.mem_append_left _ hx)
      · exact .inr (List.mem_append_right _ hx)
    known := fun x hx => by
      rw [hadded, List.map_append]
      rcases List.mem_cons.mp (List.mem_filter.mp hx).1 with rfl | hx
      · exact List.mem_append_right _ (List.mem_singleton.mpr rfl)
      · exact List.mem_append_left _ (h.known x hx)
    passed := fun x hx => by
      rw [hadded, List.map_append]
      rw [Journal.passed_snoc, hpassed] at hx
      rcases List.mem_append.mp hx with hx | hx
      · exact List.mem_append_left _ (h.passed x hx)
      · exact List.mem_append_right _ hx
    queued := fun x hx => by
      rw [Journal.passed_snoc, hpassed]
      rcases List.mem_append.mp hx with hx | hx
      · exact List.mem_append_left _ (h.queued x (hleft x hx))
      · obtain rfl := List.mem_singleton.mp hx
        exact List.mem_append_right _ (List.mem_singleton.mpr rfl) }

theorem Inv.taken {j : P2pJob} (h : Inv (j, log)) (hlive : ¬j.state.Ended)
    (hacc : j.pending.Accepts c) (hfresh : j.pending.state = .open → c.candidate ∉ log.passed) :
    Inv (P2pJob.step (j, log) (.remoteCandidate c)) := by
  obtain ⟨diagnostics, hdiagnostics, hstep⟩ := step_taken log hlive hacc
  rw [hstep]
  generalize he : Entry.mk j (.remoteCandidate c)
    (diagnostics ++ if j.pending.state = .open then [.addRemoteCandidate c] else []) = e
  have hjob : e.job = j := he ▸ rfl
  have hinput : e.input = .remoteCandidate c := he ▸ rfl
  have hquiet : ∀ a ∈ e.actions, isCheckIn a = false ∧ isAnswer a = false := fun a ha => by
    rw [← he] at ha
    rcases List.mem_append.mp ha with ha | ha
    · obtain ⟨text, rfl⟩ := hdiagnostics a ha
      exact ⟨rfl, rfl⟩
    · split at ha
      · obtain rfl := List.mem_singleton.mp ha
        exact ⟨rfl, rfl⟩
      · cases ha
  have hadds : (e.actions.filterMap fun a => match a with
      | .addRemoteCandidate c => some c
      | _ => none) = if j.pending.state = .open then [c] else [] := by
    have hnone : (diagnostics.filterMap fun a => match a with
        | .addRemoteCandidate c => some c
        | _ => none) = ([] : List PendingCandidate) := by
      rw [List.filterMap_eq_nil_iff]
      intro a ha
      obtain ⟨text, rfl⟩ := hdiagnostics a ha
      rfl
    rw [← he, List.filterMap_append, hnone, List.nil_append]
    split <;> rfl
  have hcheckIn : e.actions.countP isCheckIn = 0 :=
    List.countP_eq_zero.mpr fun a ha => by simp [(hquiet a ha).1]
  have hanswer : e.actions.countP isAnswer = 0 :=
    List.countP_eq_zero.mpr fun a ha => by simp [(hquiet a ha).2]
  have hpush := (PendingCandidateBuffer.push_accepted hacc).1
  have hstate : (j.pending.push c).1.state = j.pending.state := by rw [hpush]
  have haccepted : Journal.accepted [e] = [c] := by simp [Journal.accepted, hinput, hjob, hacc]
  have harrivals : Journal.arrivals [e] = [c] := by simp [Journal.arrivals, hinput]
  have hopened : ∀ hopen : j.pending.state = .open, (log ++ [e]).added = log.added ++ [c] :=
    fun hopen => by rw [Journal.added_snoc, hadds, if_pos hopen]
  have hnotOpen : ∀ hopen : j.pending.state ≠ .open, (log ++ [e]).added = log.added :=
    fun hopen => by rw [Journal.added_snoc, hadds, if_neg hopen, List.append_nil]
  have hnew : j.pending.state = .open → c.candidate ∉ log.added.map (·.candidate) :=
    fun hopen hc => by
      rcases (h.opened hopen).remembered _ hc with hseen | hpassed
      · exact hacc.2 hseen
      · exact hfresh hopen hpassed
  exact {
    checkIn := by
      rw [Journal.actions_snoc, List.countP_append, hcheckIn]
      exact h.checkIn
    answer := by
      rw [Journal.actions_snoc, List.countP_append, hanswer]
      exact h.answer
    answer_first := by
      rw [Journal.actions_snoc]
      by_cases hopen : j.pending.state = .open
      · obtain ⟨b, hb, hanswered⟩ := (h.opened hopen).answered
        exact h.answer_first.append_after
          (fun before hbefore _ _ => ⟨b, hbefore.subset hb, hanswered⟩) _
      · refine h.answer_first.append fun a ha _ hcandidate => ?_
        rw [← he, if_neg hopen, List.append_nil] at ha
        obtain ⟨text, rfl⟩ := hdiagnostics a ha
        cases hcandidate
    once := by
      by_cases hopen : j.pending.state = .open
      · rw [hopened hopen, List.map_append]
        refine List.nodup_append.mpr ⟨h.once, List.pairwise_singleton .., fun x hx y hy heq => ?_⟩
        obtain rfl := List.mem_singleton.mp hy
        have heq : x = c.candidate := heq
        exact hnew hopen (heq ▸ hx)
      · rw [hnotOpen hopen]
        exact h.once
    order := by
      rw [Journal.arrivals_snoc, harrivals]
      by_cases hopen : j.pending.state = .open
      · rw [hopened hopen]
        exact h.order.append (.refl [c])
      · rw [hnotOpen hopen]
        exact h.order.trans (List.sublist_append_left ..)
    complete := by
      rintro ⟨a, ha, hanswered⟩
      have hopen : j.pending.state = .open := by
        cases hpending : j.pending.state with
        | «open» => rfl
        | closed => exact absurd hpending hacc.1
        | awaitingAnswer =>
          rcases List.mem_append.mp (Journal.actions_snoc ▸ ha) with ha | ha
          · rw [(h.waiting hpending).answers a ha] at hanswered
            cases hanswered
          · rw [(hquiet a ha).2] at hanswered
            cases hanswered
      have hevicted : Journal.evicted [e] = [] := by
        simp [Journal.evicted, hinput, hjob, hopen]
      rw [Journal.accepted_snoc, haccepted, Journal.evicted_snoc, hevicted, hopened hopen,
        h.complete (h.opened hopen).answered, List.append_nil, List.append_assoc]
    connected := fun hconnected => by
      obtain ⟨a, ha, hanswered⟩ := h.connected hconnected
      exact ⟨a, by simp [ha], hanswered⟩
    bounded := by
      have hroom := PendingCandidateBuffer.drops_length h.bounded
      dsimp only
      rw [hpush]
      simpa using hroom
    ended := fun x hx hx' => by
      rcases List.mem_append.mp hx with hx | hx
      · exact h.ended x hx hx'
      · obtain rfl := List.mem_singleton.mp hx
        rw [hjob] at hx'
        exact absurd hx' hlive
    offered := fun hpending => by
      rw [Journal.actions_snoc, List.countP_append, hcheckIn]
      exact h.offered hpending
    closed := by
      dsimp only
      rw [hstate]
      exact h.closed
    arrived := by
      rw [Journal.accepted_snoc, haccepted, Journal.arrivals_snoc, harrivals]
      exact h.arrived.append (.refl [c])
    waiting := fun hwaiting => by
      have hwaiting : j.pending.state = .awaitingAnswer := hstate.symm.trans hwaiting
      have hclosed : j.pending.state ≠ .open := hwaiting ▸ fun h => nomatch h
      have hw := h.waiting hwaiting
      exact hw.taken hwaiting hacc e (hjob ▸ rfl) hinput (fun a ha => (hquiet a ha).2)
        ((hnotOpen hclosed).trans hw.added)
    opened := fun hopen => by
      have hopen : j.pending.state = .open := hstate.symm.trans hopen
      exact (h.opened hopen).taken hopen hacc e (hjob ▸ rfl) hinput (hopened hopen) }

theorem step_eq {j j' : P2pJob} (h : j.apply input = (j', result)) :
    P2pJob.step (j, log) input = (j', log ++ [Entry.mk j input (result.toOption.getD [])]) := by
  unfold P2pJob.step
  rw [h]

/-- A step that leaves the job as it is. -/
theorem Inv.still {j : P2pJob} (h : Inv (j, log)) (happly : j.apply input = (j, result))
    (hidle : ∀ c, input = .remoteCandidate c → ¬j.pending.Accepts c)
    (hquiet : ∀ a ∈ result.toOption.getD [],
      isCheckIn a = false ∧ isAnswer a = false ∧ isCandidate a = false)
    (hsilent : j.state.Ended → result.toOption.getD [] = []) :
    Inv (P2pJob.step (j, log) input) := by
  have hcheckIn : (result.toOption.getD []).countP isCheckIn = 0 :=
    List.countP_eq_zero.mpr fun a ha => by simp [(hquiet a ha).1]
  rw [step_eq happly]
  refine h.other _ rfl rfl hidle (fun a ha => (hquiet a ha).2) ?_ ?_ h.connected .rfl hsilent
  · rw [List.countP_append, hcheckIn]
    exact h.checkIn
  · intro hpending
    rw [List.countP_append, hcheckIn]
    exact h.offered hpending

theorem Inv.offer {j : P2pJob} (h : Inv (j, log)) (sdp : String) :
    Inv (P2pJob.step (j, log) (.localOfferReady sdp)) := by
  have hidle : ∀ c, P2pJobInput.localOfferReady sdp = .remoteCandidate c → ¬j.pending.Accepts c :=
    fun c hc => nomatch hc
  by_cases hpending : j.state = .pending
  · have hlive : ¬j.state.Ended := by
      rw [hpending]
      rintro (h | h) <;> cases h
    have happly : j.apply (.localOfferReady sdp) = ({ j with state := .awaitingAnswer },
        .ok [.sendCheckIn (.checkIn j.header j.config.kind.direction j.config.stream (some sdp))]) := by
      simp only [P2pJob.apply, P2pJob.onLocalOffer, if_pos hpending]
    rw [step_eq happly]
    refine h.other _ rfl rfl hidle (fun a ha => ?_) ?_ (fun h => nomatch h) (fun h => nomatch h)
      ⟨fun h => ?_, fun h => absurd h hlive⟩ (fun h => absurd h hlive)
    · obtain rfl := List.mem_singleton.mp ha
      exact ⟨rfl, rfl⟩
    · rw [List.countP_append, h.offered hpending]
      exact Nat.le_refl 1
    · rcases h with h | h <;> cases h
  · have happly : j.apply (.localOfferReady sdp) = j.invalid "LocalOfferReady" := by
      simp only [P2pJob.apply, P2pJob.onLocalOffer, if_neg hpending]
    exact h.still happly hidle (fun _ h => nomatch h) fun _ => rfl

theorem Inv.answer_step {j : P2pJob} (h : Inv (j, log)) (sdp : String)
    (ho : Orderly (j, log) (.remoteAnswer sdp)) :
    Inv (P2pJob.step (j, log) (.remoteAnswer sdp)) := by
  by_cases hstate : j.state = .awaitingAnswer
  · have hclosed : j.pending.state ≠ .closed := fun hclosed => by
      have hended := h.closed.mp hclosed
      rw [hstate] at hended
      rcases hended with h | h <;> cases h
    have hwaiting : j.pending.state = .awaitingAnswer := by
      cases hpending : j.pending.state with
      | awaitingAnswer => rfl
      | «open» => exact absurd hpending (ho hstate)
      | closed => exact absurd hpending hclosed
    exact h.answered hstate hwaiting sdp
  · have happly : j.apply (.remoteAnswer sdp) = j.invalid "RemoteAnswer" := by
      simp only [P2pJob.apply, P2pJob.onRemoteAnswer, if_neg hstate]
    exact h.still happly (fun c hc => nomatch hc) (fun _ h => nomatch h) fun _ => rfl

theorem Inv.candidate {j : P2pJob} (h : Inv (j, log)) (c : PendingCandidate)
    (ho : Orderly (j, log) (.remoteCandidate c)) :
    Inv (P2pJob.step (j, log) (.remoteCandidate c)) := by
  by_cases hended : j.state.Ended
  · have happly : j.apply (.remoteCandidate c) = j.invalid "RemoteCandidate" := by
      simp only [P2pJob.apply, P2pJob.onRemoteCandidate, if_pos hended]
    exact h.still happly (fun c' _ hacc => hacc.1 (h.closed.mpr hended)) (fun _ h => nomatch h)
      fun _ => rfl
  · by_cases hacc : j.pending.Accepts c
    · exact h.taken hended hacc fun hopen hpassed => hacc.2 (ho hopen hpassed)
    · obtain ⟨hpush, houtcome⟩ := PendingCandidateBuffer.push_refused hacc
      rw [if_neg fun hclosed => hended (h.closed.mp hclosed)] at houtcome
      have happly : j.apply (.remoteCandidate c) =
          (j, .ok [.diagnostic "duplicate remote candidate ignored"]) := by
        simp only [P2pJob.apply, P2pJob.onRemoteCandidate, if_neg hended]
        rw [houtcome, hpush]
      refine h.still happly (fun c' hc' => ?_) (fun a ha => ?_) fun h => absurd h hended
      · cases hc'
        exact hacc
      · obtain rfl := List.mem_singleton.mp ha
        exact ⟨rfl, rfl, rfl⟩

theorem Inv.connect {j : P2pJob} (h : Inv (j, log)) (ho : Orderly (j, log) .driverConnected) :
    Inv (P2pJob.step (j, log) .driverConnected) := by
  by_cases hstate : j.state = .awaitingAnswer ∨ j.state = .connected
  · have hlive : ¬j.state.Ended := by
      rcases hstate with hstate | hstate <;> rw [hstate] <;> rintro (h | h) <;> cases h
    have happly : j.apply .driverConnected = ({ j with state := .connected }, .ok []) := by
      simp only [P2pJob.apply, P2pJob.onDriverConnected, if_pos hstate]
    rw [step_eq happly]
    refine h.other _ rfl rfl (fun c hc => nomatch hc) (fun _ h => nomatch h) ?_ (fun h => nomatch h)
      (fun _ => ?_) ⟨fun h => ?_, fun h => absurd h hlive⟩ (fun h => absurd h hlive)
    · have := h.checkIn
      simpa [Except.toOption] using this
    · rcases hstate with hstate | hstate
      · exact (h.opened (ho hstate)).answered
      · exact h.connected hstate
    · rcases h with h | h <;> cases h
  · have happly : j.apply .driverConnected = j.invalid "DriverConnected" := by
      simp only [P2pJob.apply, P2pJob.onDriverConnected, if_neg hstate]
    exact h.still happly (fun c hc => nomatch hc) (fun _ h => nomatch h) fun _ => rfl

/-- The inputs that end a job: their action is none that the protocol asks about. -/
theorem Inv.end {j : P2pJob} (h : Inv (j, log)) (hidle : ∀ c, input ≠ .remoteCandidate c)
    (hdone : j.state.Ended → j.apply input = (j, .ok []))
    (hend : ¬j.state.Ended → j.apply input = ({ j with
      state, pending := j.pending.close, lastError := error }, .ok [action]))
    (hstate : state.Ended)
    (haction : isCheckIn action = false ∧ isAnswer action = false ∧ isCandidate action = false) :
    Inv (P2pJob.step (j, log) input) := by
  by_cases hended : j.state.Ended
  · exact h.still (hdone hended) (fun c hc => absurd hc (hidle c)) (fun _ h => nomatch h) fun _ => rfl
  · rw [step_eq (hend hended)]
    refine h.close _ rfl hstate hended hidle fun a ha => ?_
    obtain rfl := List.mem_singleton.mp ha
    exact haction

theorem Inv.step (h : Inv s) (ho : Orderly s input) : Inv (P2pJob.step s input) := by
  obtain ⟨j, log⟩ := s
  cases input with
  | localOfferReady sdp => exact h.offer sdp
  | remoteAnswer sdp => exact h.answer_step sdp ho
  | remoteCandidate c => exact h.candidate c ho
  | driverConnected => exact h.connect ho
  | localBye reason =>
    exact h.end (fun c hc => nomatch hc)
      (fun hended => by simp only [P2pJob.apply, P2pJob.onLocalBye, if_pos hended])
      (fun hlive => by simp only [P2pJob.apply, P2pJob.onLocalBye, if_neg hlive]; rfl)
      (.inl rfl) ⟨rfl, rfl, rfl⟩
  | remoteBye reason =>
    exact h.end (fun c hc => nomatch hc)
      (fun hended => by simp only [P2pJob.apply, P2pJob.onRemoteBye, if_pos hended])
      (fun hlive => by simp only [P2pJob.apply, P2pJob.onRemoteBye, if_neg hlive]; rfl)
      (.inl rfl) ⟨rfl, rfl, rfl⟩
  | transportError reason =>
    exact h.end (fun c hc => nomatch hc)
      (fun hended => by simp only [P2pJob.apply, P2pJob.onTransportError, if_pos hended])
      (fun hlive => by simp only [P2pJob.apply, P2pJob.onTransportError, if_neg hlive]; rfl)
      (.inr rfl) ⟨rfl, rfl, rfl⟩

/-- Any other input breaks the protocol at once. -/
theorem Inv.orderly_of_protocol (h : Inv s) (hp : Protocol (P2pJob.step s input)) :
    Orderly s input := by
  obtain ⟨j, log⟩ := s
  cases input with
  | remoteAnswer sdp =>
    intro hstate hopen
    have happly : j.apply (.remoteAnswer sdp) = ({ j with pending := j.pending.flush.1 },
        .ok (.applyRemoteAnswer sdp :: j.pending.flush.2.map .addRemoteCandidate)) := by
      simp only [P2pJob.apply, P2pJob.onRemoteAnswer, if_pos hstate]
    obtain ⟨a, ha, hanswered⟩ := (h.opened hopen).answered
    have hbefore : 0 < log.actions.countP isAnswer := List.countP_pos_iff.mpr ⟨a, ha, hanswered⟩
    have htwice := hp.answer
    rw [step_eq happly, Journal.actions_snoc, List.countP_append, Except.toOption, Option.getD_some,
      List.countP_cons_of_pos rfl] at htwice
    omega
  | driverConnected =>
    intro hstate
    have happly : j.apply .driverConnected = ({ j with state := .connected }, .ok []) := by
      simp only [P2pJob.apply, P2pJob.onDriverConnected, if_pos (Or.inl hstate)]
    have hanswered := hp.connected (by rw [step_eq happly])
    rw [step_eq happly, Journal.actions_snoc, Except.toOption, Option.getD_some,
      List.append_nil] at hanswered
    obtain ⟨a, ha, hanswer⟩ := hanswered
    cases hpending : j.pending.state with
    | «open» => rfl
    | awaitingAnswer =>
      rw [(h.waiting hpending).answers a ha] at hanswer
      cases hanswer
    | closed =>
      have hended := h.closed.mp hpending
      rw [hstate] at hended
      rcases hended with h | h <;> cases h
  | remoteCandidate c =>
    intro hopen hpassed
    by_contra hseen
    have hacc : j.pending.Accepts c := ⟨fun hclosed => (nomatch hopen.symm.trans hclosed), hseen⟩
    have hlive : ¬j.state.Ended := fun hended => hacc.1 (h.closed.mpr hended)
    obtain ⟨diagnostics, hdiagnostics, hstep⟩ := step_taken log hlive hacc
    have honce := hp.once
    rw [hstep, if_pos hopen, Journal.added_snoc, List.filterMap_append, List.map_append,
      List.map_append, List.nodup_append] at honce
    refine honce.2.2 _ ((h.opened hopen).passed _ hpassed) _ ?_ rfl
    exact List.mem_append_right _ (List.mem_singleton.mpr rfl)
  | localOfferReady sdp => trivial
  | localBye reason => trivial
  | remoteBye reason => trivial
  | transportError reason => trivial

theorem run_snoc (config : P2pJobConfig) (inputs : List P2pJobInput) (input : P2pJobInput) :
    P2pJob.run config (inputs ++ [input]) = P2pJob.step (P2pJob.run config inputs) input := by
  rw [P2pJob.run, List.foldl_append]
  rfl

theorem prefix_snoc_cases {before inputs : List P2pJobInput} (h : before <+: inputs ++ [input]) :
    before <+: inputs ∨ before = inputs ++ [input] := by
  obtain ⟨rest, hrest⟩ := h
  rcases List.eq_nil_or_concat' rest with rfl | ⟨front, last, rfl⟩
  · rw [List.append_nil] at hrest
    exact .inr hrest
  · rw [← List.append_assoc] at hrest
    exact .inl ⟨front, (List.append_inj' hrest rfl).1⟩

/-- Every input of a run comes as the job is meant to get it. -/
def OrderlyRun (config : P2pJobConfig) (inputs : List P2pJobInput) : Prop :=
  ∀ before input, before ++ [input] <+: inputs → Orderly (P2pJob.run config before) input

theorem OrderlyRun.inv (h : OrderlyRun config inputs) : Inv (P2pJob.run config inputs) := by
  induction inputs using List.reverseRecOn with
  | nil => exact inv_new config
  | append_singleton inputs input ih =>
    rw [run_snoc]
    exact (ih fun before a hbefore => h before a (hbefore.trans (List.prefix_append ..))).step
      (h inputs input List.prefix_rfl)

/-- The protocol holds throughout a run if and only if there is no second answer while the job
waits for one, no connection before the answer, and after it no candidate again that was passed
on and has been forgotten. -/
theorem protocol_iff (config : P2pJobConfig) (inputs : List P2pJobInput) :
    (∀ before, before <+: inputs → Protocol (P2pJob.run config before)) ↔
      OrderlyRun config inputs := by
  constructor
  · intro h
    induction inputs using List.reverseRecOn with
    | nil =>
      intro before input hbefore
      have := hbefore.length_le
      simp at this
    | append_singleton inputs input ih =>
      have horderly := ih fun before hbefore => h before (hbefore.trans (List.prefix_append ..))
      intro before a hbefore
      rcases prefix_snoc_cases hbefore with hbefore | heq
      · exact horderly before a hbefore
      · obtain ⟨rfl, hsame⟩ := List.append_inj' heq rfl
        obtain rfl := List.singleton_inj.mp hsame
        have hlast := h (before ++ [a]) List.prefix_rfl
        rw [run_snoc] at hlast
        exact horderly.inv.orderly_of_protocol hlast
  · intro h before hbefore
    exact (OrderlyRun.inv fun first a hfirst => h first a (hfirst.trans hbefore)).toProtocol

/-- The driver reports a connection before there was an answer. -/
theorem connected_unanswered :
    ¬∀ before, before <+: [.localOfferReady "offer", .driverConnected] →
      Protocol (P2pJob.run {} before) := by
  intro h
  have hconnected := (h _ List.prefix_rfl).connected (by decide)
  revert hconnected
  decide

end CheetahMedia.P2p
