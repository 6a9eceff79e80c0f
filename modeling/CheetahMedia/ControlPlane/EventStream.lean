import CheetahMedia.ControlPlane.EventStore

namespace CheetahMedia.ControlPlane
open Lib

structure EventCursorContents where
  schemaVersion : Nat
  mediaNodeId : String
  mediaNodeInstanceEpoch : UInt64
  lastDeliveredSequence : UInt64
  tenantFilterDigest : String
  issuedAtMs : Int
  expiresAtMs : Int
  keyId : String

def CURRENT_SCHEMA_VERSION : Nat := 1

/-- `OpaqueCursor`, as it stands in its token. -/
structure SignedEventCursor where
  contents : EventCursorContents
  hmac : List UInt8

/-- The number that a subscriber goes on from. -/
def cursorPosition : Option SignedEventCursor → UInt64
  | none => 0
  | some cursor => cursor.contents.lastDeliveredSequence

/-- The fields of a filter that its check and the event stream read; of the state only
whether it is a terminal one. -/
structure ResourceFilter where
  tenantId : String
  resourceHandle : Option String := none
  stateIsTerminal : Option Bool := none
  nonTerminal : Bool := false
  updatedBeforeMs : Option Int := none
  updatedAfterMs : Option Int := none

def ResourceFilter.validate (f : ResourceFilter) : Except ControlPlaneError Unit :=
  if f.tenantId = "" then .error (.media .invalidArgument "tenant_id is required")
  else if f.updatedAfterMs.any fun after => f.updatedBeforeMs.any fun before => after ≥ before then
    .error (.media .invalidArgument "updated_after_ms must be strictly less than updated_before_ms")
  else if f.stateIsTerminal = some true ∧ f.nonTerminal then
    .error (.media .invalidArgument
      "state filter conflicts with non_terminal: selected state is terminal")
  else .ok ()

structure EventSubscribeRequest where
  tenantId : String
  filter : ResourceFilter
  resumeCursor : Option SignedEventCursor
  maxBatch : Nat

structure EventGap where
  requestedSequence : UInt64
  firstAvailableSequence : UInt64
  instanceEpoch : UInt64
  reconciliationRequired : Bool

structure EventPollPage where
  records : List EventRecord
  gap : Option EventGap
  nextCursor : SignedEventCursor

/-- `EventStreamService`; the signature of a cursor and the digest of a filter are any
functions of what they are made from. -/
structure EventStreamService where
  cursorHmacKey : List UInt8
  nodeId : String
  instanceEpoch : UInt64
  maxBatch : Nat := 64
  cursorTtlMs : Int := 24 * 60 * 60 * 1000
  sign : List UInt8 → EventCursorContents → List UInt8
  digest : ResourceFilter → String

/-- `MIN(sequence)` of what has not expired. -/
def EventStore.firstAvailableSequence (s : EventStore) (epoch : UInt64) (now : Int) : Option UInt64 :=
  (((s.rows.filter fun r => r.instanceEpoch == epoch && r.live now).map (asI64 ·.sequence)).min?).map
    asU64

/-- Addition that stops at the greatest word. -/
def saturatingSucc (n : UInt64) : UInt64 := if n = 0xFFFFFFFFFFFFFFFF then n else n + 1

def saturatingPred (n : UInt64) : UInt64 := if n = 0 then 0 else n - 1

section
variable {store : EventStore} {r : EventRecord}

theorem asU64_asI64 {n : UInt64} (h : n.toNat < 2 ^ 63) : asU64 (asI64 n) = n := by
  have hlt : asI64 n = n.toNat := EventStore.asI64_of_lt h
  apply UInt64.toNat_inj.mp
  have hback := EventStore.asU64_toNat (i := asI64 n) (by omega) (by omega)
  omega

theorem firstAvailableSequence_some (hkeyed : EventStore.Keyed store)
    (h : store.firstAvailableSequence epoch now = some first) :
    first.toNat < 2 ^ 63 ∧
      ∀ r ∈ store.rows, r.instanceEpoch = epoch → r.live now → first ≤ r.sequence := by
  simp only [EventStore.firstAvailableSequence, Option.map_eq_some_iff] at h
  obtain ⟨least, hmin, rfl⟩ := h
  obtain ⟨hmem, hle⟩ := List.min?_eq_some_iff.mp hmin
  obtain ⟨q, hq, rfl⟩ := List.mem_map.mp hmem
  have hqrow := hkeyed.numbered q (List.mem_filter.mp hq).1
  rw [asU64_asI64 hqrow]
  refine ⟨hqrow, fun r hrow hepoch hlive => ?_⟩
  have hfound : r ∈ store.rows.filter fun r => r.instanceEpoch == epoch && r.live now :=
    List.mem_filter.mpr ⟨hrow, by simp [hepoch, hlive]⟩
  have hqr := hle _ (List.mem_map_of_mem hfound)
  rw [EventStore.asI64_of_lt hqrow, EventStore.asI64_of_lt (hkeyed.numbered r hrow)] at hqr
  exact UInt64.le_iff_toNat_le.mpr (by omega)

/-- What comes after the next number comes after the one before it. -/
theorem le_saturatingPred {n m : UInt64} (h : saturatingSucc n < m) :
    n ≤ saturatingPred m ∧ saturatingPred m < m ∧ ∀ k, m ≤ k → saturatingPred m < k := by
  unfold saturatingSucc at h
  have hm := m.toNat_lt
  have hn := n.toNat_lt
  split at h
  next heq =>
    subst heq
    have hlt := UInt64.lt_iff_toNat_lt.mp h
    simp at hlt
    omega
  next hne =>
    have hne : n.toNat ≠ 18446744073709551615 := fun heq => hne (UInt64.toNat_inj.mp heq)
    have hlt := UInt64.lt_iff_toNat_lt.mp h
    rw [UInt64.toNat_add] at hlt
    have hone : (1 : UInt64).toNat = 1 := rfl
    have hpos : m ≠ 0 := by
      rintro rfl
      simp at hlt
    have hpred : (saturatingPred m).toNat = m.toNat - 1 := by
      rw [saturatingPred, if_neg hpos, UInt64.toNat_sub_of_le _ _ (UInt64.le_iff_toNat_le.mpr
        (by have := mt UInt64.toNat_inj.mp hpos; simp at this; simp; omega))]
      rfl
    refine ⟨UInt64.le_iff_toNat_le.mpr (by omega), UInt64.lt_iff_toNat_lt.mpr (by omega),
      fun k hk => ?_⟩
    have hk := UInt64.le_iff_toNat_le.mp hk
    exact UInt64.lt_iff_toNat_lt.mpr (by omega)

end

namespace EventStreamService

def new (cursorHmacKey : List UInt8) (nodeId : String) (instanceEpoch : UInt64)
    (sign : List UInt8 → EventCursorContents → List UInt8) (digest : ResourceFilter → String) :
    Except ControlPlaneError EventStreamService :=
  if cursorHmacKey.length < 32 then
    .error (.invalidArgument "event cursor HMAC key must be at least 32 bytes")
  else .ok
    { cursorHmacKey := cursorHmacKey
      nodeId := nodeId
      instanceEpoch := instanceEpoch
      sign := sign
      digest := digest }

/-- `EventCursorCodec::decode`, of a token that is one. -/
def verifyCursor (svc : EventStreamService) (cursor : SignedEventCursor) (now : Int) :
    Except ControlPlaneError EventCursorContents :=
  let c := cursor.contents
  if svc.cursorHmacKey.length < 32 then
    .error (.media .invalidArgument "event cursor HMAC key must be at least 32 bytes")
  else if c.schemaVersion ≠ CURRENT_SCHEMA_VERSION then
    .error (.media .cursorExpired "event cursor schema version is not supported")
  else if 0 < c.expiresAtMs ∧ c.expiresAtMs < now then
    .error (.media .cursorExpired "event cursor has expired")
  else if c.mediaNodeInstanceEpoch ≠ svc.instanceEpoch then
    .error (.media .cursorExpired
      "event cursor instance epoch does not match the current node instance")
  else if cursor.hmac ≠ svc.sign svc.cursorHmacKey c then
    .error (.media .cursorExpired "event cursor HMAC verification failed")
  else .ok c

def decodeResume (svc : EventStreamService) (request : EventSubscribeRequest) (now : Int) :
    Except ControlPlaneError UInt64 :=
  match request.resumeCursor with
  | none => .ok 0
  | some cursor => do
    let contents ← svc.verifyCursor cursor now
    if contents.mediaNodeId ≠ svc.nodeId then
      throw (.media .staleOwner "event cursor node id does not match this process")
    else if contents.tenantFilterDigest ≠ svc.digest request.filter then
      throw (.invalidArgument "event cursor filter digest does not match subscribe filter")
    else return contents.lastDeliveredSequence

def encodeCursor (svc : EventStreamService) (lastSeq : UInt64) (filterDigest : String) (now : Int) :
    Except ControlPlaneError SignedEventCursor :=
  let contents : EventCursorContents :=
    { schemaVersion := CURRENT_SCHEMA_VERSION
      mediaNodeId := svc.nodeId
      mediaNodeInstanceEpoch := svc.instanceEpoch
      lastDeliveredSequence := lastSeq
      tenantFilterDigest := filterDigest
      issuedAtMs := now
      expiresAtMs := min (now + svc.cursorTtlMs) 9223372036854775807
      keyId := "k1" }
  if svc.cursorHmacKey.length < 32 then
    .error (.media .invalidArgument "event cursor HMAC key must be at least 32 bytes")
  else .ok ⟨contents, svc.sign svc.cursorHmacKey contents⟩

/-- Where a poll goes on from, and the gap that it reports on the way. -/
def resumeAt (svc : EventStreamService) (store : EventStore) (start : UInt64) (now : Int) :
    UInt64 × Option EventGap :=
  match store.firstAvailableSequence svc.instanceEpoch now with
  | none => (start, none)
  | some first =>
    let nextExpected := saturatingSucc start
    if nextExpected < first then
      (saturatingPred first, some
        { requestedSequence := nextExpected
          firstAvailableSequence := first
          instanceEpoch := svc.instanceEpoch
          reconciliationRequired := true })
    else (start, none)

/-- The events that a request is for: of its tenant, and of its handle if it names one. -/
def matching (request : EventSubscribeRequest) (r : EventRecord) : Bool :=
  r.tenantId == request.tenantId &&
    request.filter.resourceHandle.all fun handle => r.resourceHandle == some handle

def batchSize (svc : EventStreamService) (request : EventSubscribeRequest) : Nat :=
  max (min request.maxBatch svc.maxBatch) 1

/-- The journal is read by the wall clock, whatever clock the service has. -/
def poll (svc : EventStreamService) (store : EventStore) (request : EventSubscribeRequest)
    (now wall : Int) : Except ControlPlaneError EventPollPage := do
  request.filter.validate
  if request.tenantId ≠ request.filter.tenantId then
    throw (.invalidArgument "subscribe tenant_id must match filter.tenant_id")
  let start ← svc.decodeResume request now
  let (start, gap) := svc.resumeAt store start now
  let listed := store.listAfterSequence svc.instanceEpoch start (svc.batchSize request) wall
  let records := listed.filter (matching request)
  let lastSeq := (records.getLast?.map (·.sequence)).getD start
  let nextCursor ← svc.encodeCursor lastSeq (svc.digest request.filter) now
  return { records := records, gap := gap, nextCursor := nextCursor }

section
variable {svc : EventStreamService} {store : EventStore} {request : EventSubscribeRequest}

theorem verifyCursor_eq (h : svc.verifyCursor cursor now = .ok contents) :
    contents = cursor.contents := by
  unfold verifyCursor at h
  dsimp only at h
  iterate 5
    split at h
    · cases h
  exact (Except.ok.inj h).symm

theorem decodeResume_eq (h : svc.decodeResume request now = .ok start) :
    start = cursorPosition request.resumeCursor := by
  unfold decodeResume at h
  cases hcursor : request.resumeCursor with
  | none =>
    simp only [hcursor, Except.ok.injEq] at h
    exact h.symm
  | some cursor =>
    simp only [hcursor] at h
    cases hverify : svc.verifyCursor cursor now with
    | error e => simp [hverify, bind, Except.bind] at h
    | ok contents =>
      simp only [hverify, bind, Except.bind] at h
      split at h
      · cases h
      split at h
      · cases h
      · rw [← Except.ok.inj h, verifyCursor_eq hverify]
        rfl

theorem encodeCursor_eq (h : svc.encodeCursor lastSeq filterDigest now = .ok cursor) :
    cursorPosition (some cursor) = lastSeq := by
  unfold encodeCursor at h
  dsimp only at h
  split at h
  · cases h
  · rw [← Except.ok.inj h]
    rfl

/-- What an accepted poll returns. -/
theorem poll_eq (h : svc.poll store request now wall = .ok page) :
    let resume := svc.resumeAt store (cursorPosition request.resumeCursor) now
    page.records = (store.listAfterSequence svc.instanceEpoch resume.1 (svc.batchSize request)
      wall).filter (matching request) ∧
    page.gap = resume.2 ∧
    cursorPosition (some page.nextCursor) = (page.records.getLast?.map (·.sequence)).getD resume.1 := by
  unfold poll at h
  cases hvalid : request.filter.validate with
  | error e => simp [hvalid, bind, Except.bind] at h
  | ok u =>
    simp only [hvalid, bind, Except.bind] at h
    split at h
    · cases h
    cases hresume : svc.decodeResume request now with
    | error e => simp [hresume] at h
    | ok start =>
      rw [← decodeResume_eq hresume]
      simp only [hresume, pure, Except.pure] at h
      split at h
      · cases h
      next hencode =>
        rw [← Except.ok.inj h]
        exact ⟨rfl, rfl, encodeCursor_eq hencode⟩

/-- A poll goes on from its cursor, or from the first event that is left if there is a
number between them. -/
theorem resumeAt_cases (svc : EventStreamService) (store : EventStore) (start : UInt64) (now : Int) :
    svc.resumeAt store start now = (start, none) ∧
        (∀ first ∈ store.firstAvailableSequence svc.instanceEpoch now,
          ¬ saturatingSucc start < first) ∨
      ∃ first gap, svc.resumeAt store start now = (saturatingPred first, some gap) ∧
        store.firstAvailableSequence svc.instanceEpoch now = some first ∧
        saturatingSucc start < first := by
  unfold resumeAt
  split
  next hnone => exact .inl ⟨rfl, by simp [hnone]⟩
  next first hfirst =>
    dsimp only
    split
    next hlt => exact .inr ⟨first, _, rfl, hfirst, hlt⟩
    next hnot =>
      refine .inl ⟨rfl, fun other hother => ?_⟩
      cases hfirst.symm.trans hother
      exact hnot

/-- Nothing that is left is passed over on the way. -/
theorem resumeAt_spec (h : EventStore.Keyed store) (svc : EventStreamService) (start : UInt64)
    (now : Int) :
    let resume := (svc.resumeAt store start now).1
    start ≤ resume ∧ (resume = start ∨ resume.toNat < 2 ^ 63) ∧ ∀ r ∈ store.rows,
      r.instanceEpoch = svc.instanceEpoch → r.live now → start < r.sequence → resume < r.sequence := by
  intro resume
  rcases resumeAt_cases svc store start now with ⟨hstay, -⟩ | ⟨first, gap, hskip, hfirst, hlt⟩
  · have hfrom : resume = start := congrArg Prod.fst hstay
    rw [hfrom]
    exact ⟨UInt64.le_refl _, .inl rfl, fun _ _ _ _ hr => hr⟩
  · have hfrom : resume = saturatingPred first := congrArg Prod.fst hskip
    obtain ⟨hle, hprev, habove⟩ := le_saturatingPred hlt
    obtain ⟨hsmall, hleast⟩ := firstAvailableSequence_some h hfirst
    rw [hfrom]
    refine ⟨hle, .inr (Nat.lt_trans (UInt64.lt_iff_toNat_lt.mp hprev) hsmall), ?_⟩
    intro r hrow hepoch hlive _
    exact habove _ (hleast r hrow hepoch hlive)

end

end EventStreamService
end CheetahMedia.ControlPlane
