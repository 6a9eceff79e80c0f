import CheetahMedia.ControlPlane.EventStream

namespace CheetahMedia.ControlPlane
open Lib
open EventStreamService (matching)

/-- A subscriber that polls again and again, each time from the cursor of its last page. -/
structure EventSubscription where
  svc : EventStreamService
  tenantId : String
  filter : ResourceFilter
  start : Option SignedEventCursor := none

namespace EventSubscription

structure State where
  store : EventStore := {}
  cursor : Option SignedEventCursor

inductive Action
  | journal (a : EventStore.Action)
  | poll (maxBatch : Nat) (now wall : Int)

inductive Event
  | journal (e : EventStore.Event)
  | page (now wall : Int) (page : EventPollPage)
  | refused (error : ControlPlaneError)

def request (sub : EventSubscription) (cursor : Option SignedEventCursor) (maxBatch : Nat) :
    EventSubscribeRequest where
  tenantId := sub.tenantId
  filter := sub.filter
  resumeCursor := cursor
  maxBatch := maxBatch

/-- The journal is written and purged between the polls in any way. -/
def step (sub : EventSubscription) : Transition State Action Event
  | s, .journal a =>
    (EventStore.step s.store a).map fun r => ({ s with store := r.1 }, r.2.map .journal)
  | s, .poll maxBatch now wall =>
    match sub.svc.poll s.store (sub.request s.cursor maxBatch) now wall with
    | .ok page => some ({ s with cursor := some page.nextCursor }, [.page now wall page])
    | .error e => some (s, [.refused e])

def init (sub : EventSubscription) : State := { cursor := sub.start }

/-- The events of the stream that the subscription is for. -/
def wants (sub : EventSubscription) (r : EventRecord) : Bool :=
  r.instanceEpoch == sub.svc.instanceEpoch && matching (sub.request sub.start 0) r

def Event.records : Event → List EventRecord
  | .page _ _ p => p.records
  | _ => []

def delivered (es : List Event) : List EventRecord := es.flatMap Event.records

/-- The event is not purged, and by no clock expired when a page is made. -/
def Event.Leaves (r : EventRecord) : Event → Prop
  | .journal (.purged deleted) => r ∉ deleted
  | .page now wall _ => r.live now ∧ r.live wall
  | _ => True

/-- An event waits where a poll can come to it: its place on the page is not taken by
events that the subscription is not for. -/
def Reached (sub : EventSubscription) (store : EventStore) (resume : UInt64) (limit : Nat)
    (wall : Int) (r : EventRecord) : Prop :=
  r ∈ store.rows ∧ sub.wants r ∧ resume < r.sequence ∧ r.live wall ∧
    (store.liveBetween sub.svc.instanceEpoch resume r.sequence wall).length < limit

instance (sub : EventSubscription) : Decidable (sub.Reached store resume limit wall r) := by
  unfold Reached
  infer_instance

/-- Of what a poll has before it, one event at least is reached. -/
def Unblocked (sub : EventSubscription) (s : State) (maxBatch : Nat) (now wall : Int) : Prop :=
  let resume := (sub.svc.resumeAt s.store (cursorPosition s.cursor) now).1
  (∃ r ∈ s.store.rows, sub.wants r ∧ resume < r.sequence ∧ r.live now ∧ r.live wall) →
    ∃ r ∈ s.store.rows, sub.Reached s.store resume
      (sub.svc.batchSize (sub.request s.cursor maxBatch)) wall r

instance (sub : EventSubscription) : Decidable (sub.Unblocked s maxBatch now wall) := by
  unfold Unblocked
  infer_instance

/-- No poll is blocked, and no new event gets a number that the cursor has passed. -/
def Advances (sub : EventSubscription) (s : State) : Action → Prop
  | .journal (.append r) => sub.wants r → ∀ n ∈ (s.store.nextSequence r.instanceEpoch).toOption,
    cursorPosition sub.start < n → cursorPosition s.cursor < n
  | .journal (.purgeExpired _ _) => True
  | .poll maxBatch now wall => sub.Unblocked s maxBatch now wall

instance (sub : EventSubscription) (s : State) : ∀ a, Decidable (sub.Advances s a)
  | .journal (.append r) =>
    -- of the one number there is, not of all numbers
    have := Option.decidableForallMem (s.store.nextSequence r.instanceEpoch).toOption
      (p := fun n => cursorPosition sub.start < n → cursorPosition s.cursor < n)
    inferInstanceAs (Decidable (sub.wants r →
      ∀ n ∈ (s.store.nextSequence r.instanceEpoch).toOption,
        cursorPosition sub.start < n → cursorPosition s.cursor < n))
  | .journal (.purgeExpired _ _) => inferInstanceAs (Decidable True)
  | .poll maxBatch now wall => inferInstanceAs (Decidable (sub.Unblocked s maxBatch now wall))

/-- What was delivered is in order and from the journal; it is all that the cursor has
passed and that was there until then, and all that was left when a page is empty. -/
structure Complete (sub : EventSubscription) (es : List Event) (s : State) : Prop where
  ordered : (delivered es).Pairwise (·.sequence < ·.sequence)
  wanted : ∀ r ∈ delivered es, sub.wants r ∧ .journal (.appended r) ∈ es
  passed : ∀ before r after, es = before ++ .journal (.appended r) :: after → sub.wants r →
    cursorPosition sub.start < r.sequence → r.sequence ≤ cursorPosition s.cursor →
    (∀ e ∈ after, e.Leaves r) → r ∈ delivered after
  drained : ∀ before now wall page, es = before ++ [.page now wall page] → page.records = [] →
    ∀ r ∈ s.store.rows, sub.wants r → r.live now → r.live wall → r.sequence ≤ cursorPosition s.cursor

/-- Of the events of the journal, a page delivers all that the cursor passes with it, or
it reports a gap. -/
def Reports (sub : EventSubscription) (h : State × List Event) : Action → Prop
  | .poll maxBatch now wall => ∀ page,
    sub.svc.poll h.1.store (sub.request h.1.cursor maxBatch) now wall = .ok page →
      ∀ r, .journal (.appended r) ∈ h.2 → sub.wants r → cursorPosition h.1.cursor < r.sequence →
        r.sequence ≤ cursorPosition (some page.nextCursor) → r ∉ page.records → page.gap ≠ none
  | .journal _ => True

/-- The cursor of an accepted poll lies below all that is left of the stream, or an event
that is gone comes after all that the poll reaches. -/
def Noticed (sub : EventSubscription) (h : State × List Event) : Action → Prop
  | .poll maxBatch now wall =>
    let request := sub.request h.1.cursor maxBatch
    let start := cursorPosition h.1.cursor
    (∃ page, sub.svc.poll h.1.store request now wall = .ok page) →
      (∃ first ∈ h.1.store.firstAvailableSequence sub.svc.instanceEpoch now,
        saturatingSucc start < first) ∨
      ∀ r, .journal (.appended r) ∈ h.2 → sub.wants r → start < r.sequence →
        r ∉ h.1.store.rows ∨ ¬ r.live wall →
        ∀ q, sub.Reached h.1.store start (sub.svc.batchSize request) wall q → q.sequence < r.sequence
  | .journal _ => True

section
variable {sub : EventSubscription} {s s' : State} {es fs : List Event} {page : EventPollPage}

theorem wants_iff : sub.wants r ↔
    r.instanceEpoch = sub.svc.instanceEpoch ∧ matching (sub.request cursor batch) r := by
  simp [wants, matching, request]

theorem epoch_of_wants (h : sub.wants r) : r.instanceEpoch = sub.svc.instanceEpoch :=
  beq_iff_eq.mp ((Bool.and_eq_true ..).mp h).1

theorem delivered_append (es fs : List Event) : delivered (es ++ fs) = delivered es ++ delivered fs :=
  List.flatMap_append

theorem page_records
    (hpoll : sub.svc.poll s.store (sub.request s.cursor maxBatch) now wall = .ok page) :
    page.records = (s.store.listAfterSequence sub.svc.instanceEpoch
      (sub.svc.resumeAt s.store (cursorPosition s.cursor) now).1
      (sub.svc.batchSize (sub.request s.cursor maxBatch)) wall).filter
        (matching (sub.request s.cursor maxBatch)) :=
  (EventStreamService.poll_eq hpoll).1

section
variable (hkeyed : EventStore.Keyed s.store)
  (hpoll : sub.svc.poll s.store (sub.request s.cursor maxBatch) now wall = .ok page)
include hkeyed hpoll

theorem page_sorted : page.records.Pairwise (·.sequence < ·.sequence) := by
  rw [page_records hpoll]
  exact (EventStore.listAfterSequence_sorted hkeyed).filter _

theorem mem_page (hr : r ∈ page.records) :
    let resume := (sub.svc.resumeAt s.store (cursorPosition s.cursor) now).1
    r ∈ s.store.rows ∧ sub.wants r ∧ r.live wall ∧ (resume.toNat < 2 ^ 63 → resume < r.sequence) := by
  intro resume
  rw [page_records hpoll] at hr
  obtain ⟨hlisted, hmatches⟩ := List.mem_filter.mp hr
  obtain ⟨hrow, hepoch, -, hlive⟩ := EventStore.row_of_mem_listAfterSequence hlisted
  exact ⟨hrow, wants_iff.mpr ⟨hepoch, hmatches⟩, hlive,
    fun hresume => (EventStore.mem_listAfterSequence hkeyed hresume hlisted).2.2.1⟩

/-- The next cursor stands at the last event of the page. -/
theorem page_end :
    let resume := (sub.svc.resumeAt s.store (cursorPosition s.cursor) now).1
    let next := cursorPosition (some page.nextCursor)
    page.records = [] ∧ next = resume ∨
      ∃ r ∈ page.records, next = r.sequence ∧ ∀ q ∈ page.records, q.sequence ≤ r.sequence := by
  intro resume next
  have hnext : next = (page.records.getLast?.map (·.sequence)).getD resume :=
    (EventStreamService.poll_eq hpoll).2.2
  have hsorted := page_sorted hkeyed hpoll
  rcases List.eq_nil_or_concat' page.records with hnil | ⟨front, last, hlast⟩
  · exact .inl ⟨hnil, by simp [hnext, hnil]⟩
  · rw [hlast] at hsorted
    refine .inr ⟨last, by simp [hlast], by simp [hnext, hlast], fun q hq => ?_⟩
    rcases List.mem_append.mp (hlast ▸ hq) with hfront | hself
    · exact UInt64.le_of_lt
        ((List.pairwise_append.mp hsorted).2.2 q hfront last (List.mem_singleton_self _))
    · rw [List.mem_singleton.mp hself]
      exact UInt64.le_refl _

/-- What lies before a poll is on its page, or after the page. -/
theorem page_reaches (hrow : r ∈ s.store.rows) (hwants : sub.wants r) (hlive : r.live wall)
    (hresume : (sub.svc.resumeAt s.store (cursorPosition s.cursor) now).1 < r.sequence) :
    r ∈ page.records ∨ ∀ q ∈ page.records, q.sequence < r.sequence := by
  obtain ⟨hepoch, hmatches⟩ := wants_iff.mp hwants
  rw [page_records hpoll]
  rcases EventStore.listAfterSequence_reaches hkeyed hrow hepoch hresume hlive
    (sub.svc.batchSize (sub.request s.cursor maxBatch)) with hin | ⟨-, hfull⟩
  · exact .inl (List.mem_filter.mpr ⟨hin, hmatches⟩)
  · exact .inr fun q hq => hfull q (List.mem_of_mem_filter hq)

theorem le_next (hr : r ∈ page.records) : r.sequence ≤ cursorPosition (some page.nextCursor) := by
  rcases page_end hkeyed hpoll with ⟨hnil, -⟩ | ⟨q, -, hnext, hall⟩
  · simp [hnil] at hr
  · rw [hnext]
    exact hall r hr

theorem mem_page_iff
    (hresume : (sub.svc.resumeAt s.store (cursorPosition s.cursor) now).1.toNat < 2 ^ 63) :
    r ∈ page.records ↔
      sub.Reached s.store (sub.svc.resumeAt s.store (cursorPosition s.cursor) now).1
        (sub.svc.batchSize (sub.request s.cursor maxBatch)) wall r := by
  rw [page_records hpoll, List.mem_filter,
    EventStore.mem_listAfterSequence_iff hkeyed hresume, Reached, wants_iff]
  constructor
  · rintro ⟨⟨⟨hrow, hepoch, hgt, hlive⟩, hroom⟩, hmatches⟩
    exact ⟨hrow, ⟨hepoch, hmatches⟩, hgt, hlive, hroom⟩
  · rintro ⟨hrow, ⟨hepoch, hmatches⟩, hgt, hlive, hroom⟩
    exact ⟨⟨⟨hrow, hepoch, hgt, hlive⟩, hroom⟩, hmatches⟩

end

/-- All that a step can do. -/
theorem step_cases (h : sub.step s a = some (s', fs)) :
    (∃ r r' store, a = .journal (.append r) ∧ s.store.appendNext r = .ok (store, r') ∧
      s' = { s with store := store } ∧ fs = [.journal (.appended r')]) ∨
    (∃ now maxRows, a = .journal (.purgeExpired now maxRows) ∧
      s' = { s with store := s.store.purgeExpired now maxRows } ∧
      fs = [.journal (.purged (s.store.purgeable now maxRows))]) ∨
    (∃ maxBatch now wall page, a = .poll maxBatch now wall ∧
      sub.svc.poll s.store (sub.request s.cursor maxBatch) now wall = .ok page ∧
      s' = { s with cursor := some page.nextCursor } ∧ fs = [.page now wall page]) ∨
    s' = s ∧ ∃ e, fs = [.journal (.failed e)] ∨ fs = [.refused e] := by
  cases a with
  | journal a =>
    cases a with
    | append r =>
      simp only [step, EventStore.step] at h
      split at h
      next happ =>
        cases h
        exact .inl ⟨r, _, _, rfl, happ, rfl, rfl⟩
      next e _ =>
        cases h
        exact .inr (.inr (.inr ⟨rfl, e, .inl rfl⟩))
    | purgeExpired now maxRows =>
      cases h
      exact .inr (.inl ⟨now, maxRows, rfl, rfl, rfl⟩)
  | poll maxBatch now wall =>
    simp only [step] at h
    split at h
    next page hpoll =>
      cases h
      exact .inr (.inr (.inl ⟨maxBatch, now, wall, page, rfl, hpoll, rfl, rfl⟩))
    next e _ =>
      cases h
      exact .inr (.inr (.inr ⟨rfl, e, .inr rfl⟩))

/-- The journal of a run: its rows were appended, under numbers that fit. -/
structure Kept (es : List Event) (s : State) : Prop where
  keyed : EventStore.Keyed s.store
  rows : ∀ r ∈ s.store.rows, .journal (.appended r) ∈ es
  small : ∀ r, .journal (.appended r) ∈ es → r.sequence.toNat < 2 ^ 63

theorem Kept.init : Kept [] sub.init where
  keyed := .empty
  rows := List.forall_mem_nil _
  small := by
    intro r hr
    cases hr

theorem Kept.silent (h : Kept es s) (hsame : s'.store = s.store)
    (hnew : ∀ r, .journal (.appended r) ∉ fs) : Kept (es ++ fs) s' where
  keyed := hsame ▸ h.keyed
  rows r hr := List.mem_append_left _ (h.rows r (hsame ▸ hr))
  small r hr := h.small r ((List.mem_append.mp hr).resolve_right (hnew r))

theorem Kept.step (h : Kept es s) (hstep : sub.step s a = some (s', fs)) : Kept (es ++ fs) s' := by
  rcases step_cases hstep with ⟨r, r', store, rfl, happ, rfl, rfl⟩ | ⟨now, maxRows, rfl, rfl, rfl⟩ |
    ⟨maxBatch, now, wall, page, rfl, hpoll, rfl, rfl⟩ | ⟨rfl, e, hfs⟩
  · obtain ⟨rfl, hkeyed, -⟩ := EventStore.appendNext_spec h.keyed happ
    refine ⟨hkeyed, fun q hq => ?_, fun q hq => ?_⟩
    · rcases List.mem_append.mp hq with hold | hlast
      · exact List.mem_append_left _ (h.rows q hold)
      · rw [List.mem_singleton.mp hlast]
        exact List.mem_append_right _ (List.mem_singleton_self _)
    · rcases List.mem_append.mp hq with hold | hlast
      · exact h.small q hold
      · cases List.mem_singleton.mp hlast
        exact hkeyed.numbered _ (List.mem_append_right _ (List.mem_singleton_self _))
  · refine ⟨h.keyed.purge now maxRows, fun q hq => ?_, fun q hq => ?_⟩
    · exact List.mem_append_left _ (h.rows q (List.mem_of_mem_filter hq))
    · exact h.small q ((List.mem_append.mp hq).resolve_right (by simp))
  · exact h.silent rfl (by simp)
  · refine h.silent rfl fun r hr => ?_
    rcases hfs with rfl | rfl
    · simp at hr
    · simp at hr

theorem page_gap (hpoll : sub.svc.poll s.store (sub.request s.cursor maxBatch) now wall = .ok page) :
    let start := cursorPosition s.cursor
    let below := ∃ first ∈ s.store.firstAvailableSequence sub.svc.instanceEpoch now,
      saturatingSucc start < first
    page.gap = none ∧ (sub.svc.resumeAt s.store start now).1 = start ∧ ¬ below ∨
      page.gap ≠ none ∧ below := by
  intro start below
  have hgap : page.gap = (sub.svc.resumeAt s.store start now).2 :=
    (EventStreamService.poll_eq hpoll).2.1
  rw [hgap]
  rcases EventStreamService.resumeAt_cases sub.svc s.store start now with
    ⟨hstay, hnot⟩ | ⟨first, gap, hskip, hfirst, hlt⟩
  · refine .inl ⟨congrArg Prod.snd hstay, congrArg Prod.fst hstay, ?_⟩
    rintro ⟨first, hfirst, hlt⟩
    exact hnot first hfirst hlt
  · refine .inr ⟨?_, first, hfirst, hlt⟩
    rw [hskip]
    exact Option.some_ne_none gap

theorem Kept.reports_iff (h : Kept es s) : sub.Reports (s, es) a ↔ sub.Noticed (s, es) a := by
  cases a with
  | journal a => exact Iff.rfl
  | poll maxBatch now wall =>
    constructor
    · rintro hreports ⟨page, hpoll⟩
      rcases page_gap hpoll with ⟨hnone, hstay, -⟩ | ⟨-, hbelow⟩
      · refine .inr fun r hr hwants hgt hgone q hreached => ?_
        by_contra hle
        have hsmall := Nat.lt_trans (UInt64.lt_iff_toNat_lt.mp hgt) (h.small r hr)
        have hq : q ∈ page.records := by
          rw [mem_page_iff h.keyed hpoll (by rw [hstay]; exact hsmall), hstay]
          exact hreached
        have hpassed := UInt64.le_trans (UInt64.not_lt.mp hle) (le_next h.keyed hpoll hq)
        by_cases hin : r ∈ page.records
        · obtain ⟨hrow, -, hlive, -⟩ := mem_page h.keyed hpoll hin
          exact hgone.elim (· hrow) (· hlive)
        · exact hreports page hpoll r hr hwants hgt hpassed hin hnone
      · exact .inl hbelow
    · intro hnoticed page hpoll r hr hwants hgt hpassed hnot hnone
      obtain ⟨-, hstay, hnear⟩ := (page_gap hpoll).resolve_right fun hgap => hgap.1 hnone
      have hsmall := Nat.lt_trans (UInt64.lt_iff_toNat_lt.mp hgt) (h.small r hr)
      have hcomes := (hnoticed ⟨page, hpoll⟩).resolve_left hnear r hr hwants hgt
      -- all that is on the page comes before the event, so the cursor does not pass it
      have hbefore : ∀ q ∈ page.records, q.sequence < r.sequence := by
        by_cases hleft : r ∈ s.store.rows ∧ r.live wall
        · refine (page_reaches h.keyed hpoll hleft.1 hwants hleft.2 ?_).resolve_left hnot
          rw [hstay]
          exact hgt
        · intro q hq
          rw [mem_page_iff h.keyed hpoll (by rw [hstay]; exact hsmall), hstay] at hq
          exact hcomes (not_and_or.mp hleft) q hq
      rcases page_end h.keyed hpoll with ⟨-, hnext⟩ | ⟨q, hq, hnext, -⟩
      · rw [hnext, hstay] at hpassed
        exact UInt64.lt_irrefl _ (UInt64.lt_of_lt_of_le hgt hpassed)
      · rw [hnext] at hpassed
        exact UInt64.lt_irrefl _ (UInt64.lt_of_lt_of_le (hbefore q hq) hpassed)

theorem Kept.recorded {h h' : State × List Event} (hkept : Kept h.2 h.1)
    (hstep : Transition.recorded sub.step h a = some (h', fs)) : Kept h'.2 h'.1 := by
  simp only [Transition.recorded, Option.map_eq_some_iff, Prod.mk.injEq] at hstep
  obtain ⟨⟨s', gs⟩, hstep, rfl, rfl⟩ := hstep
  exact hkept.step hstep

/-- What was delivered lies behind the cursor, and what was not and is still there lies
before it. -/
structure Inv (sub : EventSubscription) (es : List Event) (s : State) : Prop
    extends Kept es s where
  ordered : (delivered es).Pairwise (·.sequence < ·.sequence)
  wanted : ∀ r ∈ delivered es, sub.wants r ∧ .journal (.appended r) ∈ es
  behind : ∀ r ∈ delivered es, r.sequence ≤ cursorPosition s.cursor
  -- a first cursor may stand above all numbers; then the journal is read from its beginning
  below : (cursorPosition s.cursor).toNat < 2 ^ 63 ∨
    cursorPosition s.cursor = cursorPosition sub.start ∧ delivered es = []
  pending : ∀ before r after, es = before ++ .journal (.appended r) :: after → sub.wants r →
    cursorPosition sub.start < r.sequence → (∀ e ∈ after, e.Leaves r) →
    r ∈ delivered after ∨ r ∈ s.store.rows ∧ cursorPosition s.cursor < r.sequence
  drained : ∀ before now wall page, es = before ++ [.page now wall page] → page.records = [] →
    ∀ r ∈ s.store.rows, sub.wants r → r.live now → r.live wall → r.sequence ≤ cursorPosition s.cursor

theorem Inv.init : Inv sub [] sub.init where
  toKept := .init
  ordered := .nil
  wanted := List.forall_mem_nil _
  behind := List.forall_mem_nil _
  below := .inr ⟨rfl, rfl⟩
  pending := by simp
  drained := by simp

theorem Inv.complete (h : Inv sub es s) : Complete sub es s where
  ordered := h.ordered
  wanted := h.wanted
  drained := h.drained
  passed := by
    intro before r after hes hwants hstart hpassed hleaves
    rcases h.pending before r after hes hwants hstart hleaves with hdone | ⟨-, hahead⟩
    · exact hdone
    · exact absurd (UInt64.lt_of_lt_of_le hahead hpassed) (UInt64.lt_irrefl _)

/-- A step that delivers nothing and leaves the cursor. -/
theorem Inv.quiet (h : Inv sub es s) (hkept : Kept (es ++ [e]) s') (hcursor : s'.cursor = s.cursor)
    (hrecords : e.records = []) (hpage : ∀ now wall page, e ≠ .page now wall page)
    (hpending : ∀ r ∈ s.store.rows, e.Leaves r → r ∈ s'.store.rows)
    (hnew : ∀ r, e = .journal (.appended r) → sub.wants r → cursorPosition sub.start < r.sequence →
      r ∈ s'.store.rows ∧ cursorPosition s.cursor < r.sequence) : Inv sub (es ++ [e]) s' := by
  have hsame : delivered (es ++ [e]) = delivered es := by simp [delivered, hrecords]
  refine ⟨hkept, hsame ▸ h.ordered, ?_, ?_, ?_, ?_, ?_⟩
  · intro r hr
    obtain ⟨hwants, hin⟩ := h.wanted r (hsame ▸ hr)
    exact ⟨hwants, List.mem_append_left _ hin⟩
  · rw [hsame, hcursor]
    exact h.behind
  · rw [hsame, hcursor]
    exact h.below
  · rw [hcursor]
    intro before r after heq hwants hstart hleaves
    rcases cases_of_snoc heq with ⟨-, he, -⟩ | ⟨front, rfl, hes⟩
    · exact .inr (hnew r he.symm hwants hstart)
    obtain ⟨hfront, hlast⟩ := List.forall_mem_append.mp hleaves
    rcases h.pending before r front hes hwants hstart hfront with hdone | ⟨hrow, hahead⟩
    · exact .inl (delivered_append front [e] ▸ List.mem_append_left _ hdone)
    · exact .inr ⟨hpending r hrow (hlast e (List.mem_singleton_self _)), hahead⟩
  · intro before now wall page heq
    exact absurd (List.append_inj' heq rfl).2 (by simpa using hpage now wall page)

/-- A page delivers what it reaches, and the cursor moves to its end. -/
theorem Inv.poll (h : Inv sub es s) (hcond : sub.Unblocked s maxBatch now wall)
    (hpoll : sub.svc.poll s.store (sub.request s.cursor maxBatch) now wall = .ok page) :
    Inv sub (es ++ [.page now wall page]) { s with cursor := some page.nextCursor } := by
  let resume := (sub.svc.resumeAt s.store (cursorPosition s.cursor) now).1
  let next := cursorPosition (some page.nextCursor)
  obtain ⟨hle, hfrom, hskips⟩ : cursorPosition s.cursor ≤ resume ∧
      (resume = cursorPosition s.cursor ∨ resume.toNat < 2 ^ 63) ∧ _ :=
    EventStreamService.resumeAt_spec h.keyed sub.svc (cursorPosition s.cursor) now
  have hmem : ∀ r ∈ page.records, r ∈ s.store.rows ∧ sub.wants r ∧ r.live wall ∧
      (resume.toNat < 2 ^ 63 → resume < r.sequence) := fun r => mem_page h.keyed hpoll
  have hend : page.records = [] ∧ next = resume ∨
      ∃ r ∈ page.records, next = r.sequence ∧ ∀ q ∈ page.records, q.sequence ≤ r.sequence :=
    page_end h.keyed hpoll
  have hdelivered : delivered (es ++ [.page now wall page]) = delivered es ++ page.records := by
    simp [delivered, Event.records]
  -- the cursor of a run that has delivered something only moves on
  have hlow : (cursorPosition s.cursor).toNat < 2 ^ 63 → resume.toNat < 2 ^ 63 ∧ resume ≤ next := by
    intro hcursor
    have hresume : resume.toNat < 2 ^ 63 := by
      rcases hfrom with heq | hsmall
      · rw [heq]
        exact hcursor
      · exact hsmall
    refine ⟨hresume, ?_⟩
    rcases hend with ⟨-, hnext⟩ | ⟨q, hq, hnext, -⟩
    · exact UInt64.le_of_eq hnext.symm
    · rw [hnext]
      exact UInt64.le_of_lt ((hmem q hq).2.2.2 hresume)
  -- what is left and wanted is delivered, or comes after the next cursor
  have hreach : ∀ r ∈ s.store.rows, sub.wants r → r.live now → r.live wall →
      cursorPosition s.cursor < r.sequence → r ∈ page.records ∨ next < r.sequence := by
    intro r hrow hwants hnow hwall hahead
    have hresume := hskips r hrow (epoch_of_wants hwants) hnow hahead
    refine (page_reaches h.keyed hpoll hrow hwants hwall hresume).imp_right fun hall => ?_
    rcases hend with ⟨-, hnext⟩ | ⟨q, hq, hnext, -⟩
    · rw [hnext]
      exact hresume
    · rw [hnext]
      exact hall q hq
  refine ⟨h.toKept.silent rfl (by simp), ?_, ?_, ?_, ?_, ?_, ?_⟩
  · rw [hdelivered]
    refine List.pairwise_append.mpr ⟨h.ordered, page_sorted h.keyed hpoll, fun q hq r hr => ?_⟩
    rcases h.below with hcursor | ⟨-, hnil⟩
    · exact UInt64.lt_of_le_of_lt (UInt64.le_trans (h.behind q hq) hle)
        ((hmem r hr).2.2.2 (hlow hcursor).1)
    · simp [hnil] at hq
  · rw [hdelivered]
    intro r hr
    rcases List.mem_append.mp hr with hold | hnew
    · obtain ⟨hwants, hin⟩ := h.wanted r hold
      exact ⟨hwants, List.mem_append_left _ hin⟩
    · obtain ⟨hrow, hwants, -, -⟩ := hmem r hnew
      exact ⟨hwants, List.mem_append_left _ (h.rows r hrow)⟩
  · rw [hdelivered]
    intro r hr
    rcases List.mem_append.mp hr with hold | hnew
    · rcases h.below with hcursor | ⟨-, hnil⟩
      · exact UInt64.le_trans (h.behind r hold) (UInt64.le_trans hle (hlow hcursor).2)
      · simp [hnil] at hold
    · exact le_next h.keyed hpoll hnew
  · rcases hend with ⟨hnil, hnext⟩ | ⟨q, hq, hnext, -⟩
    · rcases hfrom with heq | hsmall
      · rw [hdelivered, hnil, List.append_nil, show cursorPosition (some page.nextCursor) = _ from
          hnext.trans heq]
        exact h.below
      · refine .inl ?_
        rw [show cursorPosition (some page.nextCursor) = _ from hnext]
        exact hsmall
    · refine .inl ?_
      rw [show cursorPosition (some page.nextCursor) = _ from hnext]
      exact h.keyed.numbered q (hmem q hq).1
  · intro before r after heq hwants hstart hleaves
    rcases cases_of_snoc heq with ⟨-, he, -⟩ | ⟨front, rfl, hes⟩
    · cases he
    obtain ⟨hfront, hself⟩ := List.forall_mem_append.mp hleaves
    obtain ⟨hnow, hwall⟩ : r.live now ∧ r.live wall := hself _ (List.mem_singleton_self _)
    rw [delivered_append]
    rcases h.pending before r front hes hwants hstart hfront with hdone | ⟨hrow, hahead⟩
    · exact .inl (List.mem_append_left _ hdone)
    · rcases hreach r hrow hwants hnow hwall hahead with hin | hlater
      · exact .inl (List.mem_append_right _ (by simpa [delivered, Event.records] using hin))
      · exact .inr ⟨hrow, hlater⟩
  · intro before now' wall' page' heq hempty r hrow hwants hnow hwall
    obtain ⟨-, hsame⟩ := List.append_inj' heq rfl
    cases hsame
    rcases hend with ⟨-, hnext⟩ | ⟨q, hq, -, -⟩
    · by_contra hahead
      have hresume : resume < r.sequence := by
        rw [← hnext]
        exact UInt64.not_le.mp hahead
      have hsmall := Nat.lt_trans (UInt64.lt_iff_toNat_lt.mp hresume) (h.keyed.numbered r hrow)
      obtain ⟨q, -, hreached⟩ := hcond ⟨r, hrow, hwants, hresume, hnow, hwall⟩
      exact absurd ((mem_page_iff h.keyed hpoll hsmall).mpr hreached) (by simp [hempty])
    · simp [hempty] at hq

theorem Inv.step (h : Inv sub es s) (hcond : sub.Advances s a)
    (hstep : sub.step s a = some (s', fs)) : Inv sub (es ++ fs) s' := by
  have hkept := h.toKept.step hstep
  rcases step_cases hstep with ⟨r, r', store, rfl, happ, rfl, rfl⟩ | ⟨now, maxRows, rfl, rfl, rfl⟩ |
    ⟨maxBatch, now, wall, page, rfl, hpoll, rfl, rfl⟩ | ⟨rfl, e, hfs⟩
  · obtain ⟨hr', hnext⟩ := EventStore.appendNext_number happ
    obtain ⟨rfl, -, -⟩ := EventStore.appendNext_spec h.keyed happ
    refine h.quiet hkept rfl rfl (by simp) (fun q hq _ => List.mem_append_left _ hq) ?_
    intro q hq hwants hstart
    cases hq
    rw [hr'] at hwants
    exact ⟨List.mem_append_right _ (List.mem_singleton_self _),
      hcond hwants r'.sequence (by simp [hnext, Except.toOption]) hstart⟩
  · exact h.quiet hkept rfl rfl (by simp) (fun q hq hleaves => h.keyed.mem_purgeExpired hq hleaves)
      (by simp)
  · exact h.poll hcond hpoll
  · rcases hfs with rfl | rfl
    · exact h.quiet hkept rfl rfl (by simp) (fun q hq _ => hq) (by simp)
    · exact h.quiet hkept rfl rfl (by simp) (fun q hq _ => hq) (by simp)

end

/-- Whatever the journal holds and whoever else writes to it, a subscriber gets all its
events, each once and in order, in every run in which every step advances it. -/
theorem delivery_complete (sub : EventSubscription)
    (hcond : Transition.Along sub.step sub.Advances sub.init actions)
    (hrun : Transition.run sub.step sub.init actions = some (s, es)) : Complete sub es s :=
  (Transition.run_traced (Inv sub) (fun _ _ _ _ _ => Inv.step) [] Inv.init hcond hrun).complete

def tenantEvent (tenant : String) (expiresAt : Int) : EventRecord :=
  { EventStore.sampleEvent "event" expiresAt with tenantId := tenant }

/-- Of the first tenant, on a node that signs with its key. -/
def sampleSubscription : EventSubscription where
  svc :=
    { cursorHmacKey := List.replicate 32 7
      nodeId := "node"
      instanceEpoch := 7
      sign := fun key contents => contents.lastDeliveredSequence.toUInt8 :: key
      digest := ResourceFilter.tenantId }
  tenantId := "tenant-1"
  filter := { tenantId := "tenant-1" }

/-- Pages of one event, between those of another tenant. -/
theorem delivery_complete_interleaved :
    let append := fun tenant => Action.journal (.append (tenantEvent tenant 0))
    let actions := [append "tenant-1", append "tenant-2", .poll 1 10 10, append "tenant-1",
      .poll 2 20 20, .poll 1 30 30]
    ∃ s es, Transition.run sampleSubscription.step sampleSubscription.init actions = some (s, es) ∧
      (delivered es).map (·.sequence) = [1, 3] ∧ Complete sampleSubscription es s := by
  intro append actions
  have hcond : Transition.Along sampleSubscription.step sampleSubscription.Advances
      sampleSubscription.init actions := by decide +kernel
  exact ⟨_, _, rfl, by decide +kernel, delivery_complete _ hcond rfl⟩

/-- A page that is full of another tenant's events is empty, and an event waits behind it. -/
theorem other_tenant_blocks :
    ¬ ∀ (sub : EventSubscription) actions s es,
      Transition.run sub.step sub.init actions = some (s, es) → Complete sub es s := by
  intro h
  have hdrained := (h sampleSubscription
    [.journal (.append (tenantEvent "tenant-2" 0)), .journal (.append (tenantEvent "tenant-1" 0)),
      .poll 1 10 10] _ _ rfl).drained
      [.journal (.appended { tenantEvent "tenant-2" 0 with sequence := 1 }),
        .journal (.appended { tenantEvent "tenant-1" 0 with sequence := 2 })] _ _ _ rfl rfl
      { tenantEvent "tenant-1" 0 with sequence := 2 }
  exact absurd hdrained (by decide +kernel)

/-- A page is silent about a loss when the hole lies above something that is left, of
whatever tenant, and below an event that it delivers; and in no other case. -/
theorem gap_reported_iff (sub : EventSubscription) (actions : List Action) :
    Transition.Along (Transition.recorded sub.step) sub.Reports (sub.init, []) actions ↔
      Transition.Along (Transition.recorded sub.step) sub.Noticed (sub.init, []) actions := by
  constructor
  · exact Transition.along_of_invariant (fun h => Kept h.2 h.1)
      (fun _ _ _ _ hkept hreports hstep => ⟨hkept.recorded hstep, hkept.reports_iff.mp hreports⟩)
      Kept.init
  · exact Transition.along_of_invariant (fun h => Kept h.2 h.1)
      (fun _ _ _ _ hkept hnoticed hstep => ⟨hkept.recorded hstep, hkept.reports_iff.mpr hnoticed⟩)
      Kept.init

/-- The second of three events expires, and a page delivers the others without a gap. -/
theorem expired_between_unreported :
    ¬ ∀ (sub : EventSubscription) actions,
      Transition.Along (Transition.recorded sub.step) sub.Reports (sub.init, []) actions := by
  intro h
  have hlast := h sampleSubscription
    [.journal (.append (tenantEvent "tenant-1" 0)), .journal (.append (tenantEvent "tenant-1" 5)),
      .journal (.append (tenantEvent "tenant-1" 0)), .poll 10 10 10]
  exact hlast.2.2.2.1 _ rfl { tenantEvent "tenant-1" 5 with sequence := 2 } (by simp; decide +kernel)
    (by decide +kernel) (by decide +kernel) (by decide +kernel) (by decide +kernel) (by decide +kernel)

end EventSubscription
end CheetahMedia.ControlPlane
