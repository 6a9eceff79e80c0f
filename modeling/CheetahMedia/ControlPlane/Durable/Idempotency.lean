import CheetahMedia.ControlPlane.Durable.Recovery

namespace CheetahMedia.ControlPlane.Durable
open Lib

/-- A call of the store, with its answer and the store it found. -/
abbrev Access := Seen Call Answer Store

/-- What a replay hands out. -/
structure Result where
  state : IdempotencyState
  resourceRef : Option ControlledResourceRef
  effectOutcome : EffectOutcome
  serializedDomainResult : Option String
  safeError : Option MediaError
deriving DecidableEq

def IdempotencyRecord.result (r : IdempotencyRecord) : Result where
  state := r.state
  resourceRef := r.resourceRef
  effectOutcome := r.effectOutcome
  serializedDomainResult := r.serializedDomainResult
  safeError := r.safeError

namespace Access

/-- The key, the digest and the outcome of a prepare. -/
def prepared? : Access → Option (IdempotencyKey × CanonicalDigest × IdempotencyOutcome)
  | ⟨.idempotencyPrepare key digest _ _, outcome, _⟩ => some (key, digest, outcome)
  | _ => none

/-- The record of a completion that was stored. -/
def completed? : Access → Option IdempotencyRecord
  | ⟨.idempotencyComplete record, .ok (), _⟩ => some record
  | _ => none

/-- A prepare or a get by whose clock the record of the key has expired. -/
def FoundExpired (e : Access) (key : IdempotencyKey) : Prop :=
  match e.call with
  | .idempotencyPrepare k _ _ now =>
    k = key ∧ ∃ r ∈ e.before.record? key, r.expiresAtMs < now
  | .idempotencyGet k => k = key ∧ ∃ r ∈ e.before.record? key, r.expiresAtMs < e.before.clock
  | _ => False

instance (e : Access) (key : IdempotencyKey) : Decidable (e.FoundExpired key) := by
  unfold FoundExpired
  split <;> infer_instance

/-- A completion that replaces a result replaces it by itself. -/
def KeepsResult (e : Access) : Prop :=
  match e.call with
  | .idempotencyComplete record =>
    ∀ r ∈ e.before.record? record.key, r.state.isFinal → record.result = r.result
  | _ => True

instance (e : Access) : Decidable e.KeepsResult := by
  unfold KeepsResult
  split <;> infer_instance

end Access

/-- Between two prepares that go ahead, the record has expired. -/
def OneProceed (key : IdempotencyKey) (es : List Access) : Prop :=
  ∀ pre e mid e' post digest digest', es = pre ++ e :: mid ++ e' :: post →
    e.prepared? = some (key, digest, .proceed) → e'.prepared? = some (key, digest', .proceed) →
    ∃ x ∈ mid ++ [e'], x.FoundExpired key

/-- While the record lives, a prepare with another digest conflicts. -/
def ConflictWhileAlive (key : IdempotencyKey) (es : List Access) : Prop :=
  ∀ pre e mid e' post digest digest' outcome, es = pre ++ e :: mid ++ e' :: post →
    (e.prepared? = some (key, digest, .proceed) ∨
      ∃ record ∈ e.completed?, record.key = key ∧ record.canonicalDigest = digest) →
    (∀ x ∈ mid ++ [e'], ¬ x.FoundExpired key) →
    e'.prepared? = some (key, digest', outcome) → digest' ≠ digest → outcome = .conflict

/-- A result that is recorded where there was none is what is replayed from then on, until the
record expires. -/
def ReplaysFirst (key : IdempotencyKey) (es : List Access) : Prop :=
  ∀ pre e mid e' post record digest r, es = pre ++ e :: mid ++ e' :: post →
    e.completed? = some record → record.key = key → record.state.isFinal →
    (∀ r ∈ e.before.record? key, ¬ r.state.isFinal) →
    (∀ x ∈ mid ++ [e'], ¬ x.FoundExpired key) →
    e'.prepared? = some (key, digest, .replay r) → r.result = record.result

/-- A record that no one finds expired stays, and only a completion with its digest replaces it. -/
theorem record_alive {c : Call} {a : Answer c} {s : Store} (hrow : s.record? key = some r)
    (halive : ¬ Access.FoundExpired ⟨c, a, s⟩ key) :
    (answer c s).1.record? key = some r ∨
      ∃ record, c = .idempotencyComplete record ∧ record.key = key ∧
        record.canonicalDigest = r.canonicalDigest ∧
        (answer c s).1.record? key = some { record with
          createdAtMs := r.createdAtMs
          attemptCount := r.attemptCount + 1 } := by
  have hsame : ∀ t : Store, t.records = s.records → t.record? key = some r := by
    intro t ht
    rw [← hrow, Store.record?, Store.record?, ht]
  cases c with
  | idempotencyGet key' =>
    refine .inl ?_
    simp only [answer, Store.getRecord]
    split
    next r' hr' =>
      split
      next hexpired =>
        by_cases hkey : key = key'
        · subst hkey
          cases hrow.symm.trans hr'
          exact absurd ⟨rfl, r, hrow, hexpired⟩ halive
        · rw [Store.record?_deleteRecord_of_ne hkey]
          exact hrow
      next => exact hrow
    next => exact hrow
  | idempotencyPrepare key' digest expiresAtMs now =>
    refine .inl ?_
    by_cases hkey : key = key'
    · subst hkey
      have hlive : ¬ r.expiresAtMs < now := fun hlt =>
        halive ⟨rfl, r, hrow, hlt⟩
      simp only [answer, Store.prepare, hrow, if_neg hlive]
      split
      · exact hrow
      · split <;> exact hrow
    · have hput : (s.putRecord (Store.preparedRecord key' digest expiresAtMs now)).record? key =
          some r := by
        rw [Store.record?_putRecord]
        exact (if_neg hkey).trans hrow
      simp only [answer, Store.prepare]
      split
      · split
        · exact hput
        · split
          · exact hrow
          · split <;> exact hrow
      · exact hput
  | idempotencyComplete record =>
    by_cases hkey : record.key = key
    · subst hkey
      by_cases hdigest : r.canonicalDigest = record.canonicalDigest
      · refine .inr ⟨record, rfl, rfl, hdigest.symm, ?_⟩
        simp only [answer, Store.complete, hrow, hdigest, ne_eq, not_true_eq_false, if_false]
        rw [Store.record?_putRecord, if_pos rfl]
      · refine .inl ?_
        simp only [answer, Store.complete, hrow, ne_eq, hdigest, not_false_eq_true, if_true]
    · refine .inl ?_
      have hput : ∀ r' : IdempotencyRecord, r'.key = record.key →
          (s.putRecord r').record? key = some r := by
        intro r' hr'
        rw [Store.record?_putRecord, if_neg (by rw [hr']; exact Ne.symm hkey)]
        exact hrow
      simp only [answer, Store.complete]
      split
      · split
        · exact hrow
        · exact hput _ rfl
      · exact hput _ rfl
  | resourceInsert record => exact .inl (hsame _ (Store.insert_records s record))
  | compareAndSetOwnerEpoch key' expected new =>
    exact .inl (hsame _ (Store.compareAndSetOwnerEpoch_records s key' expected new))
  | compareAndSetGeneration key' expected new state =>
    exact .inl (hsame _ (Store.compareAndSetGeneration_records s key' expected new state))
  | setState key' state => exact .inl (hsame _ (Store.setState_records s key' state))
  | append event => exact .inl (hsame _ (Store.append_records s event))
  | outside o => exact .inl (hsame _ (Store.happen_records s o))
  | now | nodeState | nodeGate | probe | resourceGet | listNonTerminal | listPreparedUnknown
  | nextSequence => exact .inl hrow

/-- What holds of the record of a key, and of every record that replaces it while it lives, holds
until someone finds it expired. -/
theorem follows_alive {es : List Access} (prop : IdempotencyRecord → Prop)
    (hreplace : ∀ e ∈ es, ∀ record r, e.call = .idempotencyComplete record → record.key = key →
      e.before.record? key = some r → record.canonicalDigest = r.canonicalDigest → prop r →
      prop { record with createdAtMs := r.createdAtMs, attemptCount := r.attemptCount + 1 })
    (halive : ∀ e ∈ es, ¬ e.FoundExpired key) (h : Program.Follows answer s es t)
    (hrow : ∃ r, s.record? key = some r ∧ prop r) : ∃ r, t.record? key = some r ∧ prop r := by
  refine h.keeps (fun s => ∃ r, s.record? key = some r ∧ prop r) ?_ hrow
  rintro s ⟨c, a, s'⟩ he rfl - ⟨r, hr, hprop⟩
  rcases record_alive hr (halive _ he) with hsame | ⟨record, rfl, hkey, hdigest, hnew⟩
  · exact ⟨r, hsame, hprop⟩
  · exact ⟨_, hnew, hreplace _ he record r rfl hkey hr hdigest hprop⟩

theorem prepared_eq {e : Access} (h : e.prepared? = some (key, digest, outcome)) :
    ∃ expiresAtMs now, e.call = .idempotencyPrepare key digest expiresAtMs now ∧
      (e.answer = (answer e.call e.before).2 →
        (e.before.prepare key digest expiresAtMs now).2 = outcome) := by
  obtain ⟨c, a, s⟩ := e
  cases c with
  | idempotencyPrepare =>
    cases h
    exact ⟨_, _, rfl, fun heq => heq.symm⟩
  | _ => cases h

theorem proceeded_row {e : Access} (h : e.prepared? = some (key, digest, .proceed))
    (hanswer : e.answer = (answer e.call e.before).2) :
    (∃ r, (answer e.call e.before).1.record? key = some r ∧ r.canonicalDigest = digest) ∧
      (e.before.record? key ≠ none → e.FoundExpired key) := by
  obtain ⟨expiresAtMs, now, hcall, houtcome⟩ := prepared_eq h
  have houtcome := houtcome hanswer
  have hput : (e.before.putRecord (Store.preparedRecord key digest expiresAtMs now)).record? key =
      some (Store.preparedRecord key digest expiresAtMs now) := by
    rw [Store.record?_putRecord]
    exact if_pos rfl
  have hfirst : (answer e.call e.before).1 = (e.before.prepare key digest expiresAtMs now).1 := by
    rw [hcall]
    rfl
  rw [hfirst]
  simp only [Store.prepare] at houtcome ⊢
  cases hrow : e.before.record? key with
  | none => exact ⟨⟨_, hput, rfl⟩, fun hsome => absurd rfl hsome⟩
  | some r =>
    rw [hrow] at houtcome
    dsimp only at houtcome ⊢
    by_cases hexpired : r.expiresAtMs < now
    · rw [if_pos hexpired]
      refine ⟨⟨_, hput, rfl⟩, fun _ => ?_⟩
      unfold Access.FoundExpired
      rw [hcall]
      exact ⟨rfl, r, hrow, hexpired⟩
    · rw [if_neg hexpired] at houtcome
      split at houtcome
      · cases houtcome
      · split at houtcome <;> cases houtcome

/-- A prepare that comes while the record lives. -/
theorem prepared_alive {e : Access} (h : e.prepared? = some (key, digest, outcome))
    (hanswer : e.answer = (answer e.call e.before).2) (halive : ¬ e.FoundExpired key)
    (hrow : e.before.record? key = some r) :
    outcome = if r.canonicalDigest ≠ digest then .conflict
      else if r.state.isFinal then .replay r else .reconcile := by
  obtain ⟨expiresAtMs, now, hcall, houtcome⟩ := prepared_eq h
  have hlive : ¬ r.expiresAtMs < now := by
    intro hlt
    apply halive
    unfold Access.FoundExpired
    rw [hcall]
    exact ⟨rfl, r, hrow, hlt⟩
  rw [← houtcome hanswer]
  simp only [Store.prepare, hrow, if_neg hlive]
  split
  · rfl
  · split <;> rfl

theorem completed_row {e : Access} (h : e.completed? = some record)
    (hanswer : e.answer = (answer e.call e.before).2) :
    ∃ r, (answer e.call e.before).1.record? record.key = some r ∧
      r.canonicalDigest = record.canonicalDigest ∧ r.result = record.result := by
  obtain ⟨c, a, s⟩ := e
  unfold Access.completed? at h
  split at h
  next hcompleted =>
    cases hcompleted
    cases h
    dsimp only at hanswer ⊢
    simp only [answer, Store.complete] at hanswer ⊢
    cases hrow : s.record? record.key with
    | none =>
      dsimp only
      rw [Store.record?_putRecord, if_pos rfl]
      exact ⟨record, rfl, rfl, rfl⟩
    | some r =>
      rw [hrow] at hanswer
      dsimp only at hanswer ⊢
      by_cases hdigest : r.canonicalDigest = record.canonicalDigest
      · rw [if_neg (not_not.mpr hdigest), Store.record?_putRecord, if_pos rfl]
        exact ⟨_, rfl, rfl, rfl⟩
      · rw [if_pos hdigest] at hanswer
        cases hanswer
  next => cases h

theorem oneProceed {es : List Access} (h : Program.Follows answer s es t) : OneProceed key es := by
  rintro pre e mid e' post digest digest' rfl he he'
  obtain ⟨hmid, hanswer, hanswer'⟩ := h.split
  by_contra hnone
  simp only [not_exists, not_and] at hnone
  obtain ⟨r, hrow, -⟩ := (proceeded_row he hanswer).1
  obtain ⟨r', hrow', -⟩ := follows_alive (fun _ => True) (fun _ _ _ _ _ _ _ _ _ => trivial)
    (fun x hx => hnone x (List.mem_append_left _ hx)) hmid ⟨r, hrow, trivial⟩
  exact hnone e' (by simp) ((proceeded_row he' hanswer').2 (by simp [hrow']))

theorem conflictWhileAlive {es : List Access} (h : Program.Follows answer s es t) :
    ConflictWhileAlive key es := by
  rintro pre e mid e' post digest digest' outcome rfl he halive he' hdigest
  obtain ⟨hmid, hanswer, hanswer'⟩ := h.split
  have hbegin : ∃ r, (answer e.call e.before).1.record? key = some r ∧ r.canonicalDigest = digest := by
    rcases he with he | ⟨record, he, rfl, rfl⟩
    · exact (proceeded_row he hanswer).1
    · obtain ⟨r, hrow, hdigest, -⟩ := completed_row he hanswer
      exact ⟨r, hrow, hdigest⟩
  obtain ⟨r, hrow, rfl⟩ := follows_alive (fun r => r.canonicalDigest = digest)
    (fun _ _ record r _ _ _ hsame hr => hsame.trans hr)
    (fun x hx => halive x (List.mem_append_left _ hx)) hmid hbegin
  rw [prepared_alive he' hanswer' (halive e' (by simp)) hrow, if_pos (Ne.symm hdigest)]

theorem replaysFirst {es : List Access} (hkeeps : ∀ e ∈ es, e.KeepsResult)
    (h : Program.Follows answer s es t) : ReplaysFirst key es := by
  rintro pre e mid e' post record digest r rfl he rfl hfinal - halive he'
  obtain ⟨hmid, hanswer, hanswer'⟩ := h.split
  obtain ⟨r', hrow, -, hresult⟩ := completed_row he hanswer
  have hstate : r'.state = record.state := congrArg Result.state hresult
  obtain ⟨q, hq, hqresult, -⟩ := follows_alive
    (fun q => q.result = record.result ∧ q.state.isFinal = true)
    (fun x hx record' q hcall hkey hq _ hprop => by
      have hsame : record'.result = q.result := by
        have hkeep := hkeeps x (by simp [hx])
        simp only [Access.KeepsResult, hcall, hkey] at hkeep
        exact hkeep q hq hprop.2
      have hsamestate : record'.state = q.state := congrArg Result.state hsame
      exact ⟨hsame.trans hprop.1, hsamestate ▸ hprop.2⟩)
    (fun x hx => halive x (List.mem_append_left _ hx)) hmid ⟨r', hrow, hresult, hstate ▸ hfinal⟩
  have houtcome := prepared_alive he' hanswer' (halive e' (by simp)) hq
  split at houtcome
  · cases houtcome
  · split at houtcome
    · cases houtcome
      exact hqresult
    · cases houtcome

/-- In every run, a key goes ahead once and holds to its digest until its record expires; and it
replays its first result, in every run whose completions replace a result by itself only. -/
theorem idempotency_honoured (render : Render) (key : IdempotencyKey)
    (hrun : Transition.run (step render) (Workers.idle s n) actions = some (t, es)) :
    let accesses := es.map fun e => e.2.2
    OneProceed key accesses ∧ ConflictWhileAlive key accesses ∧
      ((∀ e ∈ accesses, e.KeepsResult) → ReplaysFirst key accesses) := by
  intro accesses
  have hfollows := Program.run_follows hrun
  exact ⟨oneProceed hfollows, conflictWhileAlive hfollows,
    fun hkeeps => replaysFirst hkeeps hfollows⟩

def sampleKey : IdempotencyKey where
  tenantId := "tenant-1"
  operationKind := "create_session"
  key := "k1"

def sampleDigest (n : UInt8) : CanonicalDigest := Vector.replicate 32 n

def emptyStore : Store where
  resources := []
  records := []
  events := {}
  clock := 1000
  provider := fun _ => .ok .unknown
  node := none
  nodeGate := none

/-- A caller that is alone with its operation. -/
def alone (i n : Nat) (op : Operation) : List (Workers.Action Operation) :=
  .call i op :: List.replicate n (.advance i)

def prepareSuccess : List (Workers.Action Operation) :=
  alone 0 5 (.prepare sampleKey (sampleDigest 7) 5000) ++
    alone 0 3 (.completeSuccess sampleKey (sampleDigest 7) none (some "1"))

/-- The success is replayed, and a request with another digest conflicts. -/
theorem idempotency_honoured_replay :
    let actions := prepareSuccess ++ alone 1 5 (.prepare sampleKey (sampleDigest 7) 5000) ++
      alone 1 5 (.prepare sampleKey (sampleDigest 8) 5000)
    ∃ t es, Transition.run (step fun _ => "") (Workers.idle emptyStore 2) actions = some (t, es) ∧
      OneProceed sampleKey (es.map fun e => e.2.2) ∧
      ConflictWhileAlive sampleKey (es.map fun e => e.2.2) ∧
      ReplaysFirst sampleKey (es.map fun e => e.2.2) := by
  intro actions
  obtain ⟨⟨t, es⟩, hrun⟩ : ∃ r,
      Transition.run (step fun _ => "") (Workers.idle emptyStore 2) actions = some r :=
    ⟨_, rfl⟩
  have hkeeps : ∀ r ∈ Transition.run (step fun _ => "") (Workers.idle emptyStore 2) actions,
      ∀ e ∈ r.2.map fun e => e.2.2, Access.KeepsResult e := by
    decide +kernel
  obtain ⟨hone, hconflict, hreplays⟩ := idempotency_honoured (fun _ => "") sampleKey hrun
  exact ⟨t, es, hrun, hone, hconflict, hreplays (hkeeps (t, es) hrun)⟩

/-- Two elements of a list, with what lies around them. -/
theorem split_at_two {l : List α} (h : l[i]? = some e) (h' : (l.drop (i + 1))[j]? = some e') :
    l = l.take i ++ e :: (l.drop (i + 1)).take j ++ e' :: (l.drop (i + 1)).drop (j + 1) := by
  have hsplit : ∀ (l : List α) i e, l[i]? = some e → l = l.take i ++ e :: l.drop (i + 1) := by
    intro l i e h
    obtain ⟨hlt, rfl⟩ := List.getElem?_eq_some_iff.mp h
    rw [List.getElem_cons_drop, List.take_append_drop]
  calc l = l.take i ++ e :: l.drop (i + 1) := hsplit l i e h
    _ = l.take i ++ e :: ((l.drop (i + 1)).take j ++ e' :: (l.drop (i + 1)).drop (j + 1)) := by
      rw [← hsplit _ j e' h']
    _ = _ := by simp

/-- A slow caller reports a failure after the success was recorded, and the failure is what is
replayed from then on. -/
theorem first_result_replaced :
    ¬ ∀ render key s n actions t es,
      Transition.run (step render) (Workers.idle s n) actions = some (t, es) →
      OneProceed key (es.map fun e => e.2.2) ∧ ConflictWhileAlive key (es.map fun e => e.2.2) ∧
        ReplaysFirst key (es.map fun e => e.2.2) := by
  intro h
  let error : MediaError := { code := .timeout, message := "upstream timed out" }
  let actions := prepareSuccess ++
    alone 1 3 (.completeFailure sampleKey (sampleDigest 7) error .notApplied none) ++
    alone 1 5 (.prepare sampleKey (sampleDigest 7) 5000)
  obtain ⟨⟨t, es⟩, hrun⟩ : ∃ r,
      Transition.run (step fun _ => "") (Workers.idle emptyStore 2) actions = some r :=
    ⟨_, rfl⟩
  have hreplays := (h _ sampleKey _ _ actions _ _ hrun).2.2
  let success : IdempotencyRecord :=
    { Store.preparedRecord sampleKey (sampleDigest 7) 86401000 1000 with
      state := .completed
      effectOutcome := .applied
      serializedDomainResult := some "1"
      attemptCount := 1 }
  let failure : IdempotencyRecord :=
    { Store.preparedRecord sampleKey (sampleDigest 7) 86401000 1000 with
      state := .failed
      safeError := some error
      attemptCount := 2 }
  -- the success is the sixth call, and the replay the sixth one after it
  have hseen : ∀ r ∈ Transition.run (step fun _ => "") (Workers.idle emptyStore 2) actions,
      let l : List Access := r.2.map fun e => e.2.2
      (l[5]?).bind Access.completed? = some success ∧
        (∀ e ∈ l[5]?, ∀ r ∈ e.before.record? sampleKey, ¬ r.state.isFinal) ∧
        (∀ x ∈ l.drop 6, ¬ x.FoundExpired sampleKey) ∧
        ((l.drop 6)[5]?).bind Access.prepared? =
          some (sampleKey, sampleDigest 7, .replay failure) := by
    decide +kernel
  obtain ⟨hsuccess, hnone, halive, hreplay⟩ := hseen (t, es) hrun
  obtain ⟨e, he, hcompleted⟩ := Option.bind_eq_some_iff.mp hsuccess
  obtain ⟨e', he', hreplayed⟩ := Option.bind_eq_some_iff.mp hreplay
  have hresult : failure.result = success.result :=
    hreplays _ e _ e' _ success _ failure (split_at_two he he') hcompleted rfl rfl (hnone e he)
      (fun x hx => halive x (by
        rcases List.mem_append.mp hx with hx | hx
        · exact List.mem_of_mem_take hx
        · exact List.mem_singleton.mp hx ▸ List.mem_of_getElem? he'))
      hreplayed
  exact absurd hresult (by decide)

end CheetahMedia.ControlPlane.Durable
