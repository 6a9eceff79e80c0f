import CheetahMedia.ControlPlane.Error
import CheetahMedia.Lib.Transition
import Mathlib.Algebra.Group.Int.Defs
import Mathlib.Algebra.Group.Nat.Defs
import Mathlib.Data.List.Sort

namespace CheetahMedia.ControlPlane
open Lib

/-- An event of the journal; the stream it belongs to is its instance epoch. -/
structure EventRecord where
  eventId : String
  instanceEpoch : UInt64
  sequence : UInt64
  tenantId : String
  resourceKind : Option String
  resourceHandle : Option String
  occurredAt : Int
  eventKind : String
  serializedPayload : String
  correlationId : Option String
  traceparent : Option String
  tracestate : Option String
  expiresAt : Int
deriving DecidableEq

/-- `as i64`: how an unsigned number stands in a column. -/
def asI64 (n : UInt64) : Int :=
  if n.toNat < 2 ^ 63 then (n.toNat : Int) else (n.toNat : Int) - 2 ^ 64

/-- `as u64`: how it is read back. -/
def asU64 (i : Int) : UInt64 := UInt64.ofNat (i % 2 ^ 64).toNat

namespace EventRecord

def primaryKey (r : EventRecord) : UInt64 × UInt64 := (r.instanceEpoch, r.sequence)

/-- `ORDER BY expires_at, instance_epoch, sequence`. -/
def expiresBefore (r r' : EventRecord) : Prop :=
  r.expiresAt < r'.expiresAt ∨ r.expiresAt = r'.expiresAt ∧
    (asI64 r.instanceEpoch < asI64 r'.instanceEpoch ∨ r.instanceEpoch = r'.instanceEpoch ∧
      asI64 r.sequence ≤ asI64 r'.sequence)

instance : DecidableRel expiresBefore := fun r r' => by
  unfold expiresBefore
  infer_instance

/-- `ORDER BY sequence`. -/
def comesBefore (r r' : EventRecord) : Prop := asI64 r.sequence ≤ asI64 r'.sequence

instance : DecidableRel comesBefore := fun r r' =>
  inferInstanceAs (Decidable (asI64 r.sequence ≤ asI64 r'.sequence))

instance : Std.Total comesBefore := ⟨fun r r' => Int.le_total (asI64 r.sequence) (asI64 r'.sequence)⟩

instance : IsTrans EventRecord comesBefore := ⟨fun _ _ _ => Int.le_trans⟩

def live (now : Int) (r : EventRecord) : Bool := r.expiresAt == 0 || decide (now < r.expiresAt)

def expired (now : Int) (r : EventRecord) : Bool :=
  decide (0 < r.expiresAt) && decide (r.expiresAt ≤ now)

end EventRecord

/-- The table `media_events`. -/
structure EventStore where
  rows : List EventRecord := []

namespace EventStore

def append (s : EventStore) (r : EventRecord) : Except ControlPlaneError EventStore :=
  if r.primaryKey ∈ s.rows.map (·.primaryKey) then
    .error (.db "UNIQUE constraint failed: media_events.instance_epoch, media_events.sequence")
  else .ok { rows := s.rows ++ [r] }

/-- `COALESCE(MAX(sequence), 0) + 1`; a sum that leaves 64 bits is no integer any more. -/
def nextSequence (s : EventStore) (epoch : UInt64) : Except ControlPlaneError UInt64 :=
  let sequences := (s.rows.filter (·.instanceEpoch = epoch)).map (asI64 ·.sequence)
  let next := sequences.max?.getD 0 + 1
  if next < 2 ^ 63 then .ok (asU64 next)
  else .error (.db "Invalid column type Real at index: 0, name: COALESCE(MAX(sequence), 0) + 1")

def listAfterSequence (s : EventStore) (epoch start : UInt64) (limit : Nat) (now : Int) :
    List EventRecord :=
  ((s.rows.filter fun r =>
    r.instanceEpoch == epoch && decide (asI64 start < asI64 r.sequence) && r.live now).insertionSort
      EventRecord.comesBefore).take limit

/-- The rows that a purge deletes. -/
def purgeable (s : EventStore) (now : Int) (maxRows : Nat) : List EventRecord :=
  ((s.rows.filter (·.expired now)).insertionSort EventRecord.expiresBefore).take maxRows

def purgeExpired (s : EventStore) (now : Int) (maxRows : Nat) : EventStore :=
  let keys := (s.purgeable now maxRows).map (·.primaryKey)
  { rows := s.rows.filter (·.primaryKey ∉ keys) }

/-- An event is given the next number of its stream and appended, as in
`backfill_state_event`. -/
def appendNext (s : EventStore) (r : EventRecord) :
    Except ControlPlaneError (EventStore × EventRecord) := do
  let sequence ← s.nextSequence r.instanceEpoch
  let r := { r with sequence := sequence }
  let s ← s.append r
  return (s, r)

inductive Action
  | append (r : EventRecord)
  | purgeExpired (now : Int) (maxRows : Nat)

inductive Event
  | appended (r : EventRecord)
  | failed (error : ControlPlaneError)
  | purged (deleted : List EventRecord)

def step : Transition EventStore Action Event
  | s, .append r =>
    match s.appendNext r with
    | .ok (s', r) => some (s', [.appended r])
    | .error e => some (s, [.failed e])
  | s, .purgeExpired now maxRows =>
    some (s.purgeExpired now maxRows, [.purged (s.purgeable now maxRows)])

def Event.appended? : Event → Option EventRecord
  | .appended r => some r
  | _ => none

/-- The events that were appended, in order. -/
def journal (es : List Event) : List EventRecord := es.filterMap Event.appended?

/-- A number is greater than all that were given to its stream before. -/
def Increasing (journal : List EventRecord) : Prop :=
  journal.Pairwise fun r r' => r.instanceEpoch = r'.instanceEpoch → r.sequence < r'.sequence

/-- A consumer that has seen `seen` and asks for what follows misses nothing that came
later: a page holds every later event that is there, or is full of earlier ones. -/
def Resumable (s : EventStore) (journal : List EventRecord) : Prop :=
  ∀ pre seen post r, journal = pre ++ seen :: post → r ∈ post → r ∈ s.rows →
    r.instanceEpoch = seen.instanceEpoch → ∀ now limit, r.live now →
    let page := s.listAfterSequence seen.instanceEpoch seen.sequence limit now
    r ∈ page ∨ page.length = limit ∧ ∀ q ∈ page, q.sequence < r.sequence

/-- The newest row of every stream survives the purge. -/
def KeepsNewest (s : EventStore) : Action → Prop
  | .purgeExpired now maxRows => ∀ r ∈ s.rows, ∃ r' ∈ (s.purgeExpired now maxRows).rows,
    r'.instanceEpoch = r.instanceEpoch ∧ r.sequence ≤ r'.sequence
  | .append _ => True

instance (s : EventStore) : ∀ a, Decidable (s.KeepsNewest a)
  | .purgeExpired now maxRows => inferInstanceAs (Decidable (∀ r ∈ s.rows,
    ∃ r' ∈ (s.purgeExpired now maxRows).rows,
      r'.instanceEpoch = r.instanceEpoch ∧ r.sequence ≤ r'.sequence))
  | .append _ => inferInstanceAs (Decidable True)

theorem asI64_of_lt {n : UInt64} (h : n.toNat < 2 ^ 63) : asI64 n = n.toNat := if_pos h

theorem asU64_toNat (hpos : 0 ≤ i) (hlt : i < 2 ^ 63) : ((asU64 i).toNat : Int) = i := by
  have hnat : (i % 2 ^ 64).toNat < 2 ^ 64 := by omega
  rw [asU64, UInt64.toNat_ofNat_of_lt' hnat]
  omega

section
variable {s s' : EventStore} {es fs : List Event} {r : EventRecord}

theorem nextSequence_gt (h : s.nextSequence epoch = .ok n)
    (hrows : ∀ r ∈ s.rows, r.sequence.toNat < 2 ^ 63) :
    n.toNat < 2 ^ 63 ∧ ∀ r ∈ s.rows, r.instanceEpoch = epoch → r.sequence < n := by
  unfold nextSequence at h
  simp only at h
  generalize hseq : (s.rows.filter (·.instanceEpoch = epoch)).map (asI64 ·.sequence) = sequences at h
  have hmem : ∀ i ∈ sequences, ∃ r ∈ s.rows, (r.sequence.toNat : Int) = i := by
    intro i hi
    rw [← hseq] at hi
    obtain ⟨r, hr, rfl⟩ := List.mem_map.mp hi
    have hrow := (List.mem_filter.mp hr).1
    exact ⟨r, hrow, (asI64_of_lt (hrows r hrow)).symm⟩
  have hbound : 0 ≤ sequences.max?.getD 0 ∧ ∀ i ∈ sequences, i ≤ sequences.max?.getD 0 := by
    cases hmax : sequences.max? with
    | none => simp [List.max?_eq_none_iff.mp hmax]
    | some top =>
      obtain ⟨htop, hle⟩ := List.max?_eq_some_iff.mp hmax
      obtain ⟨r, -, hr⟩ := hmem top htop
      simp only [Option.getD_some]
      exact ⟨by omega, hle⟩
  split at h
  next hlt =>
    cases h
    have hn := asU64_toNat (by omega) hlt
    refine ⟨by omega, fun r hr hepoch => ?_⟩
    have hin : asI64 r.sequence ∈ sequences := by
      rw [← hseq]
      exact List.mem_map.mpr ⟨r, List.mem_filter.mpr ⟨hr, by simpa using hepoch⟩, rfl⟩
    have hle := hbound.2 _ hin
    rw [asI64_of_lt (hrows r hr)] at hle
    exact UInt64.lt_iff_toNat_lt.mpr (by omega)
  next => cases h

/-- The rows are numbered once each. -/
structure Keyed (s : EventStore) : Prop where
  numbered : ∀ r ∈ s.rows, r.sequence.toNat < 2 ^ 63
  unique : (s.rows.map (·.primaryKey)).Nodup

theorem Keyed.empty : Keyed {} := ⟨List.forall_mem_nil _, List.nodup_nil⟩

theorem appendNext_number (happ : s.appendNext r = .ok (s', r')) :
    r' = { r with sequence := r'.sequence } ∧ s.nextSequence r.instanceEpoch = .ok r'.sequence := by
  cases hnext : s.nextSequence r.instanceEpoch with
  | error e => simp [appendNext, hnext, bind, Except.bind] at happ
  | ok n =>
    simp only [appendNext, hnext, bind, Except.bind] at happ
    split at happ
    · cases happ
    · cases happ
      exact ⟨rfl, rfl⟩

theorem appendNext_spec (h : Keyed s) (happ : s.appendNext r = .ok (s', r')) :
    s' = { rows := s.rows ++ [r'] } ∧ Keyed s' ∧
      ∀ q ∈ s.rows, q.instanceEpoch = r'.instanceEpoch → q.sequence < r'.sequence := by
  obtain ⟨hr', hnext⟩ := appendNext_number happ
  obtain ⟨hn, hgt⟩ := nextSequence_gt hnext h.numbered
  have hepoch : r'.instanceEpoch = r.instanceEpoch := by rw [hr']
  rw [← hepoch] at hgt
  have hnew : r'.primaryKey ∉ s.rows.map (·.primaryKey) := by
    intro hmem
    obtain ⟨q, hq, hkey⟩ := List.mem_map.mp hmem
    simp only [EventRecord.primaryKey, Prod.mk.injEq] at hkey
    have hlt := hgt q hq hkey.1
    rw [hkey.2] at hlt
    exact UInt64.lt_irrefl _ hlt
  simp only [appendNext, hnext, bind, Except.bind, ← hr', EventStore.append, if_neg hnew, pure,
    Except.pure, Except.ok.injEq, Prod.mk.injEq, and_true] at happ
  subst happ
  refine ⟨rfl, ⟨?_, ?_⟩, hgt⟩
  · intro q hq
    rcases List.mem_append.mp hq with hold | hlast
    · exact h.numbered q hold
    · rw [List.mem_singleton.mp hlast]
      exact hn
  · rw [List.map_append, List.map_singleton]
    exact List.nodup_append.mpr ⟨h.unique, List.nodup_singleton _,
      fun a ha b hb hab => hnew (List.mem_singleton.mp hb ▸ hab ▸ ha)⟩

theorem Keyed.purge (h : Keyed s) (now : Int) (maxRows : Nat) :
    Keyed (s.purgeExpired now maxRows) where
  numbered r hr := h.numbered r (List.mem_filter.mp hr).1
  unique := h.unique.sublist (List.filter_sublist.map _)

/-- A purge deletes what it lists, and nothing else. -/
theorem Keyed.mem_purgeExpired (h : Keyed s) (hr : r ∈ s.rows) (hkept : r ∉ s.purgeable now maxRows) :
    r ∈ (s.purgeExpired now maxRows).rows := by
  refine List.mem_filter.mpr ⟨hr, decide_eq_true fun hkey => ?_⟩
  obtain ⟨q, hq, hkey⟩ := List.mem_map.mp hkey
  have hrow : q ∈ s.rows :=
    (List.mem_filter.mp ((List.mem_insertionSort _).mp (List.mem_of_mem_take hq))).1
  exact hkept (List.inj_on_of_nodup_map h.unique hrow hr hkey ▸ hq)

theorem asI64_lt_iff {n m : UInt64} (hn : n.toNat < 2 ^ 63) (hm : m.toNat < 2 ^ 63) :
    asI64 n < asI64 m ↔ n < m := by
  rw [asI64_of_lt hn, asI64_of_lt hm, UInt64.lt_iff_toNat_lt]
  omega

theorem row_of_mem_listAfterSequence (hr : r ∈ s.listAfterSequence epoch start limit now) :
    r ∈ s.rows ∧ r.instanceEpoch = epoch ∧ asI64 start < asI64 r.sequence ∧ r.live now := by
  have hfound := (List.mem_insertionSort _).mp (List.mem_of_mem_take hr)
  obtain ⟨hrow, hcond⟩ := List.mem_filter.mp hfound
  simp only [Bool.and_eq_true, beq_iff_eq, decide_eq_true_eq] at hcond
  exact ⟨hrow, hcond.1.1, hcond.1.2, hcond.2⟩

theorem mem_listAfterSequence (h : Keyed s) (hstart : start.toNat < 2 ^ 63)
    (hr : r ∈ s.listAfterSequence epoch start limit now) :
    r ∈ s.rows ∧ r.instanceEpoch = epoch ∧ start < r.sequence ∧ r.live now := by
  obtain ⟨hrow, hepoch, hgt, hlive⟩ := row_of_mem_listAfterSequence hr
  exact ⟨hrow, hepoch, (asI64_lt_iff hstart (h.numbered r hrow)).mp hgt, hlive⟩

/-- Two rows of a stream with one number are one row. -/
theorem Keyed.eq_of_sequence (h : Keyed s) (hq : q ∈ s.rows) (hr : r ∈ s.rows)
    (hepoch : q.instanceEpoch = r.instanceEpoch) (hsequence : q.sequence = r.sequence) : q = r :=
  List.inj_on_of_nodup_map h.unique hq hr (by simp [EventRecord.primaryKey, hepoch, hsequence])

theorem listAfterSequence_sorted (h : Keyed s) :
    (s.listAfterSequence epoch start limit now).Pairwise (·.sequence < ·.sequence) := by
  have hkeys : ((s.listAfterSequence epoch start limit now).map (·.primaryKey)).Nodup := by
    have hfound : (((s.rows.filter fun r => r.instanceEpoch == epoch &&
        decide (asI64 start < asI64 r.sequence) && r.live now).insertionSort
          EventRecord.comesBefore).map (·.primaryKey)).Nodup :=
      ((List.perm_insertionSort _ _).map _).nodup_iff.mpr
        (h.unique.sublist (List.filter_sublist.map _))
    exact hfound.sublist ((List.take_sublist _ _).map _)
  have hsorted : (s.listAfterSequence epoch start limit now).Pairwise EventRecord.comesBefore :=
    (List.pairwise_insertionSort _ _).sublist (List.take_sublist _ _)
  have hdistinct := List.pairwise_map.mp hkeys
  refine (hsorted.and hdistinct).imp_of_mem ?_
  intro q r hq hr hqr
  obtain ⟨hqrow, hqepoch, -, -⟩ := row_of_mem_listAfterSequence hq
  obtain ⟨hrrow, hrepoch, -, -⟩ := row_of_mem_listAfterSequence hr
  have hle : asI64 q.sequence ≤ asI64 r.sequence := hqr.1
  rw [asI64_of_lt (h.numbered q hqrow), asI64_of_lt (h.numbered r hrrow)] at hle
  have hne : q.sequence ≠ r.sequence := fun heq => hqr.2 (by
    simp [EventRecord.primaryKey, heq, hqepoch, hrepoch])
  exact UInt64.lt_of_le_of_ne (UInt64.le_iff_toNat_le.mpr (by omega)) hne

/-- A page holds what follows, or is full of what comes before it. -/
theorem listAfterSequence_reaches (h : Keyed s) (hrow : r ∈ s.rows)
    (hepoch : r.instanceEpoch = epoch) (hstart : start < r.sequence) (hlive : r.live now) (limit : Nat) :
    let page := s.listAfterSequence epoch start limit now
    r ∈ page ∨ page.length = limit ∧ ∀ q ∈ page, q.sequence < r.sequence := by
  intro page
  have hr := h.numbered r hrow
  have hnat := UInt64.lt_iff_toNat_lt.mp hstart
  have hlt := (asI64_lt_iff (Nat.lt_trans hnat hr) hr).mpr hstart
  -- the page is the beginning of a sorted list that holds the event
  let found := s.rows.filter fun r => r.instanceEpoch == epoch &&
    decide (asI64 start < asI64 r.sequence) && r.live now
  let sorted := found.insertionSort EventRecord.comesBefore
  have hpage : page = sorted.take limit := rfl
  have hmem : r ∈ sorted := by
    rw [List.mem_insertionSort]
    exact List.mem_filter.mpr ⟨hrow, by simp [hepoch, hlt, hlive]⟩
  have hsorted : sorted.Pairwise EventRecord.comesBefore := List.pairwise_insertionSort _ _
  by_cases hin : r ∈ page
  · exact .inl hin
  refine .inr ?_
  rw [← List.take_append_drop limit sorted] at hmem hsorted
  have hdrop : r ∈ sorted.drop limit := (List.mem_append.mp hmem).resolve_left hin
  have hlong : limit < sorted.length := by
    by_contra hle
    rw [List.drop_eq_nil_of_le (Nat.le_of_not_lt hle)] at hdrop
    cases hdrop
  refine ⟨by rw [hpage, List.length_take, Nat.min_eq_left (Nat.le_of_lt hlong)], fun q hq => ?_⟩
  have hqr : asI64 q.sequence ≤ asI64 r.sequence := (List.pairwise_append.mp hsorted).2.2 q hq r hdrop
  obtain ⟨hqrow, hqepoch, -, -⟩ := row_of_mem_listAfterSequence hq
  rw [asI64_of_lt (h.numbered q hqrow), asI64_of_lt hr] at hqr
  have hne : q.sequence ≠ r.sequence := fun heq =>
    hin (h.eq_of_sequence hqrow hrow (hqepoch.trans hepoch.symm) heq ▸ hq)
  exact UInt64.lt_of_le_of_ne (UInt64.le_iff_toNat_le.mpr (by omega)) hne

/-- The live events of a stream that lie between two numbers. -/
def liveBetween (s : EventStore) (epoch start stop : UInt64) (now : Int) : List EventRecord :=
  s.rows.filter fun r =>
    r.instanceEpoch == epoch && decide (start < r.sequence ∧ r.sequence < stop) && r.live now

/-- An event is on the page if there is room for all that come before it. -/
theorem mem_listAfterSequence_iff (h : Keyed s) (hstart : start.toNat < 2 ^ 63) :
    r ∈ s.listAfterSequence epoch start limit now ↔
      (r ∈ s.rows ∧ r.instanceEpoch = epoch ∧ start < r.sequence ∧ r.live now) ∧
        (s.liveBetween epoch start r.sequence now).length < limit := by
  let page := s.listAfterSequence epoch start limit now
  have hsorted : page.Pairwise (·.sequence < ·.sequence) := listAfterSequence_sorted h
  have hmem : ∀ {q}, q ∈ s.liveBetween epoch start r.sequence now ↔
      q ∈ s.rows ∧ q.instanceEpoch = epoch ∧ (start < q.sequence ∧ q.sequence < r.sequence) ∧
        q.live now := by
    simp [liveBetween, and_assoc]
  constructor
  · intro hr
    refine ⟨mem_listAfterSequence h hstart hr, ?_⟩
    -- what lies before the event is on the page, at other places than its own
    have hnodup : (r :: s.liveBetween epoch start r.sequence now).Nodup := by
      refine List.nodup_cons.mpr ⟨fun hself => ?_, (List.Nodup.of_map _ h.unique).filter _⟩
      exact UInt64.lt_irrefl _ (hmem.mp hself).2.2.1.2
    have hsub : r :: s.liveBetween epoch start r.sequence now ⊆ page := by
      refine List.cons_subset.mpr ⟨hr, fun q hq => ?_⟩
      obtain ⟨hrow, hepoch, ⟨hgt, hlt⟩, hlive⟩ := hmem.mp hq
      rcases listAfterSequence_reaches h hrow hepoch hgt hlive limit with hin | ⟨-, hfull⟩
      · exact hin
      · exact absurd (UInt64.lt_trans hlt (hfull r hr)) (UInt64.lt_irrefl _)
    have hle := (List.subperm_of_subset hnodup hsub).length_le
    have hlimit : page.length ≤ limit := List.length_take_le _ _
    rw [List.length_cons] at hle
    omega
  · rintro ⟨⟨hrow, hepoch, hgt, hlive⟩, hroom⟩
    rcases listAfterSequence_reaches h hrow hepoch hgt hlive limit with hin | ⟨hlength, hfull⟩
    · exact hin
    have hsub : page ⊆ s.liveBetween epoch start r.sequence now := by
      intro q hq
      obtain ⟨hqrow, hqepoch, hqgt, hqlive⟩ := mem_listAfterSequence h hstart hq
      exact hmem.mpr ⟨hqrow, hqepoch, ⟨hqgt, hfull q hq⟩, hqlive⟩
    have hnodup : page.Nodup := hsorted.imp fun hlt => by
      rintro rfl
      exact UInt64.lt_irrefl _ hlt
    have hle := (List.subperm_of_subset hnodup hsub).length_le
    have hlength : page.length = limit := hlength
    omega

/-- Beside that, no stream has given a number above its newest row. -/
structure Inv (es : List Event) (s : EventStore) : Prop extends Keyed s where
  increasing : Increasing (journal es)
  newest : ∀ r ∈ journal es, ∃ r' ∈ s.rows, r'.instanceEpoch = r.instanceEpoch ∧ r.sequence ≤ r'.sequence

theorem Inv.init : Inv [] {} where
  toKeyed := .empty
  increasing := .nil
  newest := List.forall_mem_nil _

theorem Inv.silent (h : Inv es s) (hjournal : journal fs = []) : Inv (es ++ fs) s := by
  have hsame : journal (es ++ fs) = journal es := by
    rw [journal, List.filterMap_append, ← journal, ← journal, hjournal, List.append_nil]
  exact ⟨h.toKeyed, hsame ▸ h.increasing, hsame ▸ h.newest⟩

theorem Inv.append (h : Inv es s) (happ : s.appendNext r = .ok (s', r')) :
    Inv (es ++ [.appended r']) s' := by
  obtain ⟨rfl, hkeyed, hgt⟩ := appendNext_spec h.toKeyed happ
  have hjournal : journal (es ++ [.appended r']) = journal es ++ [r'] := by
    simp [journal, Event.appended?]
  refine ⟨hkeyed, ?_, ?_⟩
  · rw [hjournal]
    refine List.pairwise_append.mpr ⟨h.increasing, List.pairwise_singleton _ _, ?_⟩
    intro q hq last hlast hepoch
    obtain rfl := List.mem_singleton.mp hlast
    obtain ⟨q', hq', hsame, hle⟩ := h.newest q hq
    exact UInt64.lt_of_le_of_lt hle (hgt q' hq' (hsame.trans hepoch))
  · intro q hq
    rw [hjournal] at hq
    rcases List.mem_append.mp hq with hold | hlast
    · obtain ⟨q', hq', hsame⟩ := h.newest q hold
      exact ⟨q', List.mem_append_left _ hq', hsame⟩
    · obtain rfl := List.mem_singleton.mp hlast
      exact ⟨_, List.mem_append_right _ (List.mem_singleton_self _), rfl, UInt64.le_refl _⟩

theorem Inv.purge (h : Inv es s) (hkeeps : s.KeepsNewest (.purgeExpired now maxRows)) :
    Inv es (s.purgeExpired now maxRows) where
  toKeyed := h.toKeyed.purge now maxRows
  increasing := h.increasing
  newest := by
    intro r hr
    obtain ⟨r', hr', hsame, hle⟩ := h.newest r hr
    obtain ⟨r'', hr'', hsame', hle'⟩ := hkeeps r' hr'
    exact ⟨r'', hr'', hsame'.trans hsame, UInt64.le_trans hle hle'⟩

theorem Inv.step (h : Inv es s) (hcond : s.KeepsNewest a) (hstep : step s a = some (s', fs)) :
    Inv (es ++ fs) s' := by
  cases a with
  | append r =>
    simp only [EventStore.step] at hstep
    split at hstep
    next happ =>
      cases hstep
      exact h.append happ
    next =>
      cases hstep
      exact h.silent rfl
  | purgeExpired now maxRows =>
    cases hstep
    exact (h.purge hcond).silent rfl

theorem Inv.resumable (h : Inv es s) : s.Resumable (journal es) := by
  intro pre seen post r hsplit hpost hrow hepoch now limit hlive
  have hseen : seen.sequence < r.sequence := by
    have hinc := h.increasing
    rw [hsplit] at hinc
    exact (List.pairwise_cons.mp (List.pairwise_append.mp hinc).2.1).1 r hpost hepoch.symm
  exact listAfterSequence_reaches h.toKeyed hrow hepoch hseen hlive limit

end

/-- Numbers are never given twice, and a consumer that resumes misses nothing, in every
run whose purges keep the newest row of every stream. -/
theorem sequences_increase (hcond : Transition.Along step KeepsNewest {} actions)
    (hrun : Transition.run step {} actions = some (s, es)) :
    Increasing (journal es) ∧ s.Resumable (journal es) := by
  have hinv := Transition.run_traced Inv (fun _ _ _ _ _ => Inv.step) [] Inv.init hcond hrun
  exact ⟨hinv.increasing, hinv.resumable⟩

def sampleEvent (id : String) (expiresAt : Int) : EventRecord where
  eventId := id
  instanceEpoch := 7
  sequence := 0
  tenantId := "tenant-1"
  resourceKind := none
  resourceHandle := none
  occurredAt := 1000
  eventKind := "resource_state_changed"
  serializedPayload := ""
  correlationId := none
  traceparent := none
  tracestate := none
  expiresAt := expiresAt

/-- The older of two events is purged before a third comes. -/
theorem sequences_increase_rotating :
    let actions := [Action.append (sampleEvent "a" 5), .append (sampleEvent "b" 9),
      .purgeExpired 5 10, .append (sampleEvent "c" 9)]
    ∃ s es, Transition.run step {} actions = some (s, es) ∧
      (journal es).map (·.sequence) = [1, 2, 3] ∧ s.rows.map (·.sequence) = [2, 3] ∧
      Increasing (journal es) ∧ s.Resumable (journal es) := by
  intro actions
  have hcond : Transition.Along step KeepsNewest {} actions := by decide
  exact ⟨_, _, rfl, by decide, by decide, sequences_increase hcond rfl⟩

/-- The only event of a stream is purged, and the next one gets its number. -/
theorem purged_sequence_reused :
    ¬ ∀ actions s es, Transition.run step {} actions = some (s, es) →
      Increasing (journal es) ∧ s.Resumable (journal es) := by
  intro h
  have hincreasing := (h [.append (sampleEvent "a" 5), .purgeExpired 5 10,
    .append (sampleEvent "b" 9)] _ _ rfl).1
  have hlt := (List.pairwise_cons.mp hincreasing).1 { sampleEvent "b" 9 with sequence := 1 }
    (List.mem_singleton_self _) rfl
  exact absurd hlt (by decide)

end EventStore
end CheetahMedia.ControlPlane
