import CheetahMedia.ControlPlane.Durable.Recovery

namespace CheetahMedia.ControlPlane.Durable
open Lib

/-- The calls that the database answers, and may fail. -/
def Call.database : Call → Bool
  | .resourceGet _ | .resourceInsert _ | .compareAndSetOwnerEpoch _ _ _
  | .compareAndSetGeneration _ _ _ _ | .setState _ _ | .listNonTerminal _ | .idempotencyGet _
  | .idempotencyPrepare _ _ _ _ | .idempotencyComplete _ | .listPreparedUnknown _
  | .nextSequence _ | .append _ => true
  | .now | .nodeState | .nodeGate | .probe _ | .outside _ => false

/-- A caller that is alone with the store. The database fails the calls it is told to fail, with
the store as it was, and such a failure ends the caller. -/
def runAlone {α : Type} (fails : List (Option String)) :
    Program Call Answer (Except Failure α) → Store → Store × Except Failure α
  | .done a, s => (s, a)
  | .call c next, s =>
    match c.database, fails with
    | true, some message :: _ => (s, .error (.controlPlane (.db message)))
    | true, none :: fails => runAlone fails (next (answer c s).2) (answer c s).1
    | _, fails => runAlone fails (next (answer c s).2) (answer c s).1

/-- The row of the resource is the one that the reference tells of. -/
structure ResourceRecord.Matches (row : ResourceRecord) (ref : ControlledResourceRef) : Prop where
  ownerEpoch : row.acceptedOwnerEpoch = ref.ownerEpoch
  generation : row.generation = ref.generation
  mediaSessionId : row.mediaSessionId = ref.mediaSessionId
  mediaBindingId : row.mediaBindingId = ref.mediaBindingId

instance (row : ResourceRecord) (ref : ControlledResourceRef) : Decidable (row.Matches ref) :=
  decidable_of_iff (row.acceptedOwnerEpoch = ref.ownerEpoch ∧ row.generation = ref.generation ∧
      row.mediaSessionId = ref.mediaSessionId ∧ row.mediaBindingId = ref.mediaBindingId)
    ⟨fun h => ⟨h.1, h.2.1, h.2.2.1, h.2.2.2⟩, fun h => ⟨h.1, h.2, h.3, h.4⟩⟩

/-- A success was saved with a reference to the stored row; a failure left the record alone. -/
structure Describes (key : IdempotencyKey) (resource : ResourceRecord) (before : Store)
    (after : Store × Except Failure IdempotencyRecord) : Prop where
  success : ∀ record, after.2 = .ok record → ∃ saved ref row,
    after.1.record? key = some saved ∧ saved.resourceRef = some ref ∧
      after.1.resource? resource.key = some row ∧ row.Matches ref
  failure : ∀ e, after.2 = .error e → after.1.record? key = before.record? key

namespace MutationOrchestrator

/-- The record that a success saves. -/
def successRecord (key : IdempotencyKey) (digest : CanonicalDigest) (resource : ResourceRecord)
    (domainResult : Option String) (now : Int) : IdempotencyRecord where
  key
  state := .completed
  canonicalDigest := digest
  resourceRef := some resource.resourceRef
  effectOutcome := .applied
  serializedDomainResult := domainResult
  safeError := none
  createdAtMs := now
  updatedAtMs := now
  expiresAtMs := dayAfter now
  attemptCount := 1

section
variable (key : IdempotencyKey) (digest : CanonicalDigest) (resource : ResourceRecord)
  (domainResult : Option String)

/-- What is left to do once the resource is registered. -/
def save : Program Call Answer (Except Failure IdempotencyRecord) :=
  .call .now fun now =>
    let record := successRecord key digest resource domainResult now
    .call (.idempotencyComplete record) fun saved => .done (saved.map fun _ => record)

/-- What is left to do once the database has answered the insertion. -/
def afterInsert : Except Failure Unit → Program Call Answer (Except Failure IdempotencyRecord)
  | .ok () => save key digest resource domainResult
  | .error (.controlPlane (.conflict _)) =>
    .call (.resourceGet resource.key) fun row =>
      if row.isNone then
        .done (.error (.controlPlane
          (.conflict "resource insert conflict without existing row")))
      else save key digest resource domainResult
  | .error e => .done (.error e)

theorem completeSuccess_run : (completeSuccess key digest (some resource) domainResult).run =
    .call (.resourceInsert resource) (afterInsert key digest resource domainResult) := by
  refine congrArg (Program.call _) (funext fun inserted => ?_)
  match inserted with
  | .ok () =>
    refine congrArg (Program.call _) (funext fun now => ?_)
    refine congrArg (Program.call _) (funext fun saved => ?_)
    cases saved <;> rfl
  | .error (.controlPlane (.conflict _)) =>
    refine congrArg (Program.call _) (funext fun row => ?_)
    cases row with
    | none => rfl
    | some row =>
      refine congrArg (Program.call _) (funext fun now => ?_)
      refine congrArg (Program.call _) (funext fun saved => ?_)
      cases saved <;> rfl
  | .error (.media _) | .error .invalidIdempotencyState | .error (.internal _) => rfl
  | .error (.controlPlane (.permissionDenied _)) => rfl
  | .error (.controlPlane (.invalidArgument _)) => rfl
  | .error (.controlPlane (.notFound _)) => rfl
  | .error (.controlPlane (.db _)) => rfl
  | .error (.controlPlane (.unavailable _)) => rfl
  | .error (.controlPlane (.media _ _)) => rfl

/-- A success of a caller that is alone with the store. -/
def completed (fails : List (Option String)) (s : Store) :
    Store × Except Failure IdempotencyRecord :=
  runAlone fails (completeSuccess key digest (some resource) domainResult).run s

end
end MutationOrchestrator

/-- The database fails a call, or the caller goes on with its answer. -/
theorem runAlone_cases {next : Answer c → Program Call Answer (Except Failure α)}
    (hc : c.database = true) (fails : List (Option String)) (s : Store) :
    (∃ e, runAlone fails (.call c next) s = (s, .error e)) ∨
      ∃ fails', runAlone fails (.call c next) s =
        runAlone fails' (next (answer c s).2) (answer c s).1 := by
  match fails with
  | [] => exact .inr ⟨[], by simp only [runAlone, hc]⟩
  | some message :: _ => exact .inl ⟨.controlPlane (.db message), by simp only [runAlone, hc]⟩
  | none :: fails => exact .inr ⟨fails, by simp only [runAlone, hc]⟩

theorem runAlone_sound {next : Answer c → Program Call Answer (Except Failure α)} (s : Store) :
    runAlone [] (.call c next) s = runAlone [] (next (answer c s).2) (answer c s).1 := by
  cases hc : c.database <;> simp only [runAlone, hc]

/-- What the database does not answer, it does not fail. -/
theorem runAlone_outside {next : Answer c → Program Call Answer (Except Failure α)}
    (hc : c.database = false) (fails : List (Option String)) (s : Store) :
    runAlone fails (.call c next) s = runAlone fails (next (answer c s).2) (answer c s).1 := by
  match fails with
  | [] | some _ :: _ | none :: _ => simp only [runAlone, hc]

namespace MutationOrchestrator
variable {key : IdempotencyKey} {digest : CanonicalDigest} {resource : ResourceRecord}
  {domainResult : Option String} {s : Store}

/-- A record stands under the key for another request. -/
def Taken (s : Store) (key : IdempotencyKey) (digest : CanonicalDigest) : Prop :=
  ∃ saved, s.record? key = some saved ∧ saved.canonicalDigest ≠ digest

theorem complete_of_not_taken (resource : ResourceRecord) (domainResult : Option String)
    (h : ¬Taken s key digest) (now : Int) : ∃ saved,
    s.complete (successRecord key digest resource domainResult now) =
      (s.putRecord saved, .ok ()) ∧ saved.key = key ∧
      saved.resourceRef = some resource.resourceRef := by
  unfold Store.complete
  split
  · rename_i found hfound
    have hdigest : ¬found.canonicalDigest ≠ digest := fun hne => h ⟨found, hfound, hne⟩
    exact ⟨_, if_neg hdigest, rfl, rfl⟩
  · exact ⟨_, rfl, rfl, rfl⟩

theorem complete_of_taken (h : Taken s key digest) (now : Int) :
    s.complete (successRecord key digest resource domainResult now) =
      (s, .error .invalidIdempotencyState) := by
  obtain ⟨found, hfound, hne⟩ := h
  have hfound' : s.record? (successRecord key digest resource domainResult now).key = some found :=
    hfound
  unfold Store.complete
  rw [hfound']
  exact if_pos hne

/-- A save that fails leaves the store as it was; one that succeeds puts the record in. -/
theorem save_cases (fails : List (Option String)) (s : Store) :
    (∃ e, runAlone fails (save key digest resource domainResult) s = (s, .error e)) ∨
      ¬Taken s key digest ∧ ∃ saved record,
        runAlone fails (save key digest resource domainResult) s =
          (s.putRecord saved, .ok record) ∧ saved.key = key ∧
        saved.resourceRef = some resource.resourceRef := by
  have hnow : runAlone fails (save key digest resource domainResult) s =
      runAlone fails (.call (.idempotencyComplete
        (successRecord key digest resource domainResult s.clock)) fun saved =>
          .done (saved.map fun _ => successRecord key digest resource domainResult s.clock)) s :=
    runAlone_outside (c := .now) rfl fails s
  rw [hnow]
  rcases runAlone_cases (c := .idempotencyComplete _) rfl fails s with hfailed | ⟨fails', hanswered⟩
  · exact .inl hfailed
  · rw [hanswered]
    by_cases htaken : Taken s key digest
    · left
      refine ⟨.invalidIdempotencyState, ?_⟩
      have hcomplete : answer (.idempotencyComplete
          (successRecord key digest resource domainResult s.clock)) s =
          (s, .error .invalidIdempotencyState) := complete_of_taken htaken _
      rw [hcomplete]
      rfl
    · right
      obtain ⟨saved, hcomplete, hkey, href⟩ := complete_of_not_taken
        resource domainResult htaken s.clock
      have hcomplete' : answer (.idempotencyComplete
          (successRecord key digest resource domainResult s.clock)) s =
          (s.putRecord saved, .ok ()) := hcomplete
      rw [hcomplete']
      exact ⟨htaken, saved, _, rfl, hkey, href⟩

/-- The row of the resource is there once the insertion is answered, and the records are as they
were. -/
theorem insert_cases (resource : ResourceRecord) (s : Store) :
    (∃ row message, s.resource? resource.key = some row ∧
      s.insert resource = (s, .error (.controlPlane (.conflict message)))) ∨
      s.resource? resource.key = none ∧ ∃ row t,
        s.insert resource = (t, .ok ()) ∧ t.records = s.records ∧
        t.resource? resource.key = some row ∧ row.Matches resource.resourceRef := by
  have hrecords := s.insert_records resource
  unfold Store.insert at hrecords ⊢
  cases hrow : s.resource? resource.key with
  | some row =>
    rw [Option.isSome_some, if_pos rfl]
    exact .inl ⟨row, _, rfl, rfl⟩
  | none =>
    rw [Option.isSome_none, if_neg (by simp)]
    refine .inr ⟨rfl, { resource with
      terminalAtMs := if resource.state.isTerminal then some (resource.terminalAtMs.getD s.clock)
        else none }, _, rfl, rfl, ?_, ⟨rfl, rfl, rfl, rfl⟩⟩
    have hnone : s.resources.find? (·.key = resource.key) = none := hrow
    rw [Store.resource?, List.find?_append, hnone, List.find?_singleton]
    simp

/-- What a success makes of the stores: it fails and leaves the records, or it saves a record that
refers to the resource, whose row is the one found or the one it put in. -/
inductive Outcome (key : IdempotencyKey) (digest : CanonicalDigest) (resource : ResourceRecord)
    (s : Store) : Store × Except Failure IdempotencyRecord → Prop
  | failed (t : Store) (e : Failure) (hrecords : t.records = s.records) :
      Outcome key digest resource s (t, .error e)
  | saved (t : Store) (record saved : IdempotencyRecord) (row : ResourceRecord)
      (huntaken : ¬Taken s key digest) (hsaved : t.record? key = some saved)
      (href : saved.resourceRef = some resource.resourceRef)
      (hrow : t.resource? resource.key = some row)
      (hfound : s.resource? resource.key = none ∧ row.Matches resource.resourceRef ∨
        s.resource? resource.key = some row) :
      Outcome key digest resource s (t, .ok record)

theorem save_outcome (hrecords : t.records = s.records)
    (hrow : t.resource? resource.key = some row)
    (hfound : s.resource? resource.key = none ∧ row.Matches resource.resourceRef ∨
      s.resource? resource.key = some row)
    (fails : List (Option String)) :
    Outcome key digest resource s (runAlone fails (save key digest resource domainResult) t) := by
  rcases save_cases fails t with ⟨e, hfailed⟩ | ⟨huntaken, saved, record, hput, hkey, href⟩
  · rw [hfailed]
    exact .failed t e hrecords
  · rw [hput]
    refine .saved _ record saved row ?_ ?_ href hrow hfound
    · rintro ⟨found, hfound', hne⟩
      refine huntaken ⟨found, ?_, hne⟩
      rw [Store.record?, hrecords]
      exact hfound'
    · rw [Store.record?_putRecord, if_pos hkey.symm]

theorem completed_outcome (key : IdempotencyKey) (digest : CanonicalDigest)
    (resource : ResourceRecord) (domainResult : Option String) (fails : List (Option String))
    (s : Store) :
    Outcome key digest resource s (completed key digest resource domainResult fails s) := by
  rw [completed, completeSuccess_run]
  rcases runAlone_cases (c := .resourceInsert resource) rfl fails s with
    ⟨e, hfailed⟩ | ⟨fails', hanswered⟩
  · rw [hfailed]
    exact .failed s e rfl
  rw [hanswered]
  rcases insert_cases resource s with ⟨row, message, hrow, hinsert⟩ |
    ⟨hnone, row, t, hinsert, hrecords, hrow, hmatches⟩
  · have hinsert' : answer (.resourceInsert resource) s =
        (s, .error (.controlPlane (.conflict message))) := hinsert
    rw [hinsert', afterInsert]
    rcases runAlone_cases (c := .resourceGet resource.key) rfl fails' s with
      ⟨e, hfailed⟩ | ⟨fails'', hanswered⟩
    · rw [hfailed]
      exact .failed s e rfl
    · have hget : answer (.resourceGet resource.key) s = (s, some row) := by
        rw [← hrow]
        rfl
      rw [hanswered, hget]
      exact save_outcome rfl hrow (.inr hrow) fails''
  · have hinsert' : answer (.resourceInsert resource) s = (t, .ok ()) := hinsert
    rw [hinsert', afterInsert]
    exact save_outcome hrecords hrow (.inl ⟨hnone, hmatches⟩) fails'

/-- Where no other request has taken the key, a database that answers every call lets the success
through. -/
theorem completed_ok (domainResult : Option String) (hrow : s.resource? resource.key = some row)
    (h : ¬Taken s key digest) :
    ∃ t record, completed key digest resource domainResult [] s = (t, .ok record) := by
  rw [completed, completeSuccess_run, runAlone_sound]
  rcases insert_cases resource s with ⟨row, message, hrow, hinsert⟩ | ⟨hnone, _⟩
  · have hinsert' : answer (.resourceInsert resource) s =
        (s, .error (.controlPlane (.conflict message))) := hinsert
    have hget : answer (.resourceGet resource.key) s = (s, some row) := by
      rw [← hrow]
      rfl
    obtain ⟨saved, hcomplete, -⟩ := complete_of_not_taken resource domainResult h s.clock
    have hcomplete' : answer (.idempotencyComplete
        (successRecord key digest resource domainResult s.clock)) s =
        (s.putRecord saved, .ok ()) := hcomplete
    have hnow : answer .now s = (s, s.clock) := rfl
    rw [hinsert', afterInsert, runAlone_sound, hget, Option.isNone_some, if_neg (by simp), save,
      runAlone_sound, hnow]
    dsimp only
    rw [runAlone_sound, hcomplete']
    exact ⟨_, _, rfl⟩
  · rw [hnone] at hrow
    cases hrow

/-- The row that is stored already, if any, is that of the resource, or the success will fail,
for another request has taken the key. -/
def Agrees (s : Store) (key : IdempotencyKey) (digest : CanonicalDigest)
    (resource : ResourceRecord) : Prop :=
  (∀ row, s.resource? resource.key = some row → row.Matches resource.resourceRef) ∨
    Taken s key digest

/-- However the database fails, a success describes what is stored, just when the row that was
stored before agrees with the resource. -/
theorem completeSuccess_describes_iff (key : IdempotencyKey) (digest : CanonicalDigest)
    (resource : ResourceRecord) (domainResult : Option String) (s : Store) :
    (∀ fails, Describes key resource s (completed key digest resource domainResult fails s)) ↔
      Agrees s key digest resource := by
  constructor
  · intro h
    by_cases htaken : Taken s key digest
    · exact .inr htaken
    · refine .inl fun row hrow => ?_
      obtain ⟨t, record, hok⟩ := completed_ok domainResult hrow htaken
      have houtcome := completed_outcome key digest resource domainResult [] s
      have hdescribes := h []
      rw [hok] at houtcome hdescribes
      obtain ⟨saved, ref, row', hsaved, href, hrow', hmatches⟩ := hdescribes.success record rfl
      cases houtcome with
      | saved t record saved' row'' huntaken hsaved' href' hrow'' hfound =>
        have hsame : row'' = row := by
          rcases hfound with ⟨hnone, _⟩ | hfound
          · rw [hrow] at hnone
            cases hnone
          · exact Option.some.inj (hfound.symm.trans hrow)
        have hrows : row' = row'' := Option.some.inj (hrow'.symm.trans hrow'')
        have hsaves : saved = saved' := Option.some.inj (hsaved.symm.trans hsaved')
        rw [hsaves, href'] at href
        rw [← hsame, ← hrows, Option.some.inj href]
        exact hmatches
  · intro h fails
    have houtcome := completed_outcome key digest resource domainResult fails s
    generalize completed key digest resource domainResult fails s = after at houtcome ⊢
    cases houtcome with
    | failed t e hrecords =>
      refine ⟨fun record hok => (by cases hok), fun e _ => ?_⟩
      rw [Store.record?, Store.record?, hrecords]
    | saved t record saved row huntaken hsaved href hrow hfound =>
      refine ⟨fun _ _ => ⟨saved, _, row, hsaved, href, hrow, ?_⟩, fun e he => by cases he⟩
      rcases hfound with ⟨_, hmatches⟩ | hfound
      · exact hmatches
      · exact (h.resolve_right huntaken) row hfound

/-- A resource of an owner epoch. -/
def ownedAt (ownerEpoch : UInt64) : ResourceRecord where
  key := { tenantId := "tenant-1", resourceKind := "publisher", resourceHandle := "pub-1" }
  mediaSessionId := none
  mediaBindingId := none
  mediaKey := none
  idempotencyScope := none
  canonicalDigest := none
  acceptedOwnerEpoch := ownerEpoch
  mediaNodeId := none
  mediaNodeInstanceId := none
  mediaNodeInstanceEpoch := 1
  generation := 0
  state := .active
  safeLastError := none
  origin := .cluster
  createdAtMs := 1000
  updatedAtMs := 1000
  terminalAtMs := none

/-- A row of an older owner passes for that of the new one. -/
theorem stale_row_described : ¬∀ (key : IdempotencyKey) (digest : CanonicalDigest)
    (resource : ResourceRecord) (domainResult : Option String) (s : Store),
    Describes key resource s (completed key digest resource domainResult [] s) := by
  intro h
  have hdescribes := h { tenantId := "tenant-1", operationKind := "create", key := "k1" }
    (Vector.replicate 32 7) (ownedAt 2) none {
      resources := [ownedAt 1]
      records := []
      events := {}
      clock := 1000
      provider := fun _ => .ok .unknown
      node := none
      nodeGate := none }
  obtain ⟨saved, ref, row, hsaved, href, hrow, hmatches⟩ := hdescribes.success _ rfl
  cases hsaved
  cases href
  cases hrow
  exact absurd hmatches.ownerEpoch (by decide)

end MutationOrchestrator
end CheetahMedia.ControlPlane.Durable
