import CheetahMedia.Lib.Recency
import CheetahMedia.Lib.Transition
import Mathlib.Algebra.Ring.Nat
import Mathlib.Data.List.MinMax
import Mathlib.Logic.Function.Basic

namespace CheetahMedia.Engine
open Lib

/-- What the bus reads and writes of an event; `mediaKey` is the canonical text of a key. -/
structure MediaEvent where
  eventId : String
  sequence : Option Nat := none
  mediaKey : Option String := none
  source : String
deriving DecidableEq

def MediaEvent.resourceKey (event : MediaEvent) : String :=
  match event.mediaKey with
  | some k => "mk:" ++ k
  | none => "src:" ++ event.source

/-- The sequence counters of a `BusInner`. -/
structure Sequences where
  sequences : AList fun _ : String => Nat := ∅
  sequenceUse : AList fun _ : String => Nat := ∅
  sequenceCounter : Nat := 0

namespace Sequences

/-- Evict the least-recently-used tracked resource. -/
def evict (s : Sequences) : Sequences :=
  match s.sequenceUse.entries.argmin (·.2) with
  | none => s
  | some oldest =>
    { s with
      sequences := s.sequences.erase oldest.1
      sequenceUse := s.sequenceUse.erase oldest.1 }

/-- The entry of a resource is counted up. -/
def countUp (s : Sequences) (resourceKey : String) (now : Nat) : Nat × Sequences :=
  let entry := (s.sequences.lookup resourceKey).getD 0 + 1
  (entry, ⟨s.sequences.insert resourceKey entry, s.sequenceUse.insert resourceKey now, now⟩)

def nextSequence (maxSequenceKeys : Nat) (s : Sequences) (resourceKey : String) : Nat × Sequences :=
  let now := s.sequenceCounter + 1
  if resourceKey ∉ s.sequences ∧ maxSequenceKeys ≤ s.sequences.keys.length then
    s.evict.countUp resourceKey now
  else s.countUp resourceKey now

/-- The counters after the events `pub`: those of the resources used last are kept. -/
structure Tracks (maxSequenceKeys : Nat) (pub : List MediaEvent) (s : Sequences) : Prop where
  keys : s.sequences.keys = (recent (pub.map (·.resourceKey))).take maxSequenceKeys
  useKeys : s.sequenceUse.keys = (recent (pub.map (·.resourceKey))).take maxSequenceKeys
  falling : s.sequenceUse.entries.Pairwise fun a b => b.2 < a.2
  used : ∀ x ∈ s.sequenceUse.entries, x.2 ≤ s.sequenceCounter
  last : ∀ before e after, pub = before ++ e :: after →
    e.resourceKey ∉ after.map (·.resourceKey) → e.resourceKey ∈ s.sequences →
    s.sequences.lookup e.resourceKey = e.sequence

theorem tracks_empty (maxSequenceKeys : Nat) : Tracks maxSequenceKeys [] {} where
  keys := by simp [recent]
  useKeys := by simp [recent]
  falling := .nil
  used := by simp
  last before e after h := by simp at h

variable {s kept : Sequences}

/-- The least-recently-used resource stands last. -/
theorem evict_eq (hfalling : s.sequenceUse.entries.Pairwise fun a b => b.2 < a.2)
    (hentries : s.sequenceUse.entries = front ++ [oldest]) :
    s.evict = { s with
      sequences := s.sequences.erase oldest.1
      sequenceUse := s.sequenceUse.erase oldest.1 } := by
  have hleast : (front ++ [oldest]).argmin (·.2) = some oldest := by
    rw [List.argmin_concat]
    cases hfront : front.argmin (·.2) with
    | none => rfl
    | some x =>
      have hx : x ∈ front := List.argmin_mem hfront
      rw [hentries] at hfalling
      exact if_pos ((List.pairwise_append.mp hfalling).2.2 x hx oldest (List.mem_singleton.mpr rfl))
  rw [evict, hentries, hleast]

theorem erase_last {xs : List String} (h : (xs ++ [x]).Nodup) : (xs ++ [x]).erase x = xs := by
  have hx : x ∉ xs := fun hmem => List.disjoint_of_nodup_append h hmem (List.mem_singleton.mpr rfl)
  rw [List.erase_append_right _ hx, List.erase_cons_head, List.append_nil]

/-- What the counters hold after an eviction. -/
theorem Tracks.evict (h : Tracks n pub s) (hfull : 0 < s.sequences.keys.length) :
    s.evict.sequences.keys = s.sequences.keys.dropLast ∧
      s.evict.sequenceUse.keys = s.sequenceUse.keys.dropLast ∧
      s.evict.sequenceUse.entries.Sublist s.sequenceUse.entries ∧
      s.evict.sequenceCounter = s.sequenceCounter ∧
      ∀ k ∈ s.evict.sequences, s.evict.sequences.lookup k = s.sequences.lookup k := by
  have hsame : s.sequences.keys = s.sequenceUse.keys := h.keys.trans h.useKeys.symm
  rcases List.eq_nil_or_concat' s.sequenceUse.entries with hnil | ⟨front, oldest, hentries⟩
  · rw [hsame, AList.keys, hnil] at hfull
    simp [List.keys] at hfull
  · have hkeys : s.sequenceUse.keys = front.keys ++ [oldest.1] := by
      rw [AList.keys, hentries]
      simp [List.keys]
    have hnodup := s.sequenceUse.keys_nodup
    rw [hkeys] at hnodup
    rw [evict_eq h.falling hentries]
    refine ⟨?_, ?_, List.kerase_sublist .., rfl, fun k hk => ?_⟩
    · rw [AList.keys_erase, hsame, hkeys, erase_last hnodup, List.dropLast_concat]
    · rw [AList.keys_erase, hkeys, erase_last hnodup, List.dropLast_concat]
    · exact AList.lookup_erase_ne (AList.mem_erase.mp hk).1

/-- What is left of the counters when the entry of a resource is counted up. -/
structure Kept (s : Sequences) (maxSequenceKeys : Nat) (pub : List MediaEvent) (k : String)
    (kept : Sequences) : Prop where
  keys : k :: kept.sequences.keys.erase k =
    (recent (pub.map (·.resourceKey) ++ [k])).take maxSequenceKeys
  useKeys : k :: kept.sequenceUse.keys.erase k =
    (recent (pub.map (·.resourceKey) ++ [k])).take maxSequenceKeys
  entries : kept.sequenceUse.entries.Sublist s.sequenceUse.entries
  lookup : ∀ k ∈ kept.sequences, kept.sequences.lookup k = s.sequences.lookup k
  tracked : k ∈ kept.sequences ↔ k ∈ (recent (pub.map (·.resourceKey))).take maxSequenceKeys

theorem Tracks.keeps (h : Tracks n pub s) (hn : 0 < n) (k : String) : ∃ kept,
    s.nextSequence n k = kept.countUp k (s.sequenceCounter + 1) ∧ Kept s n pub k kept := by
  have hmem : k ∈ s.sequences ↔ k ∈ (recent (pub.map (·.resourceKey))).take n := by
    rw [AList.mem_keys, h.keys]
  unfold nextSequence
  dsimp only
  split
  · rename_i hevict
    obtain ⟨hnew, hfull⟩ := hevict
    obtain ⟨hkeys, huse, hentries, -, hlookup⟩ := h.evict (by omega)
    rw [hmem] at hnew
    have hshort : k ∉ ((recent (pub.map (·.resourceKey))).take n).dropLast :=
      fun hk => hnew (List.mem_of_mem_dropLast hk)
    rw [h.keys] at hfull hkeys
    rw [h.useKeys] at huse
    have htake := take_new_full hnew hfull hn
    refine ⟨s.evict, rfl, ?_, ?_, hentries, hlookup, ?_⟩
    · rw [hkeys, List.erase_of_not_mem hshort, recent_snoc, htake]
    · rw [huse, List.erase_of_not_mem hshort, recent_snoc, htake]
    · rw [AList.mem_keys, hkeys]
      exact ⟨fun hk => absurd hk hshort, fun hk => absurd hk hnew⟩
  · rename_i hstay
    have htake : (recent (pub.map (·.resourceKey) ++ [k])).take n =
        k :: ((recent (pub.map (·.resourceKey))).take n).erase k := by
      rw [recent_snoc]
      by_cases hold : k ∈ (recent (pub.map (·.resourceKey))).take n
      · exact take_used hold
      · have hroom : ((recent (pub.map (·.resourceKey))).take n).length < n := by
          rw [← h.keys]
          by_contra hfull
          exact hstay ⟨fun hk => hold (hmem.mp hk), by omega⟩
        rw [List.erase_of_not_mem hold]
        exact take_new_room hold hroom
    exact ⟨s, rfl, by rw [h.keys, htake], by rw [h.useKeys, htake], List.Sublist.refl _,
      fun _ _ => rfl, hmem⟩

/-- The number that an event gets after the events `pub`: it goes on from the last event of
its resource as long as fewer than `maxSequenceKeys` other resources came in between, and
starts anew otherwise. -/
def Numbered (maxSequenceKeys : Nat) (pub : List MediaEvent) (event : MediaEvent) : Prop :=
  (∀ before e between, pub = before ++ e :: between → e.resourceKey = event.resourceKey →
    event.resourceKey ∉ between.map (·.resourceKey) → event.sequence =
      if (between.map (·.resourceKey)).toFinset.card < maxSequenceKeys then
        e.sequence.map (· + 1)
      else some 1) ∧
  (event.resourceKey ∉ pub.map (·.resourceKey) → event.sequence = some 1)

theorem Tracks.numbered (h : Tracks n pub s) (hkept : Kept s n pub event.resourceKey kept)
    (hseq : event.sequence = some ((kept.sequences.lookup event.resourceKey).getD 0 + 1)) :
    Numbered n pub event := by
  have hanew : event.resourceKey ∉ kept.sequences → event.sequence = some 1 := by
    intro hnew
    rw [hseq, AList.lookup_eq_none.mpr hnew]
    rfl
  constructor
  · intro before e between hpub hkey hbetween
    have htracked : event.resourceKey ∈ kept.sequences ↔
        (between.map (·.resourceKey)).toFinset.card < n := by
      rw [hkept.tracked, hpub, List.map_append, List.map_cons, hkey]
      exact mem_take_recent _ hbetween n
    split
    · rename_i hfew
      have hmem := htracked.mpr hfew
      have hlast := hkept.lookup _ hmem
      have hold : event.resourceKey ∈ s.sequences := by
        rw [← AList.lookup_isSome, ← hlast, AList.lookup_isSome]
        exact hmem
      rw [← hkey] at hold hbetween hlast hseq
      rw [h.last before e between hpub hbetween hold] at hlast
      obtain ⟨v, hv⟩ := Option.isSome_iff_exists.mp (AList.lookup_isSome.mpr hold)
      rw [hlast, ← h.last before e between hpub hbetween hold, hv] at hseq
      rw [hseq, ← h.last before e between hpub hbetween hold, hv]
      rfl
    · rename_i hmany
      exact hanew fun hmem => hmany (htracked.mp hmem)
  · intro hnew
    refine hanew fun hmem => hnew ?_
    exact mem_recent.mp (List.mem_of_mem_take (hkept.tracked.mp hmem))

theorem Tracks.next (h : Tracks n pub s) (hkept : Kept s n pub event.resourceKey kept)
    (hseq : event.sequence = some ((kept.sequences.lookup event.resourceKey).getD 0 + 1)) :
    Tracks n (pub ++ [event]) (kept.countUp event.resourceKey (s.sequenceCounter + 1)).2 where
  keys := by
    rw [List.map_append]
    exact (AList.keys_insert _).trans hkept.keys
  useKeys := by
    rw [List.map_append]
    exact (AList.keys_insert _).trans hkept.useKeys
  falling := by
    refine List.pairwise_cons.mpr ⟨fun x hx => ?_, ?_⟩
    · exact Nat.lt_succ_of_le (h.used x (hkept.entries.subset ((List.kerase_sublist ..).subset hx)))
    · exact (h.falling.sublist hkept.entries).sublist (List.kerase_sublist ..)
  used x hx := by
    rcases List.mem_cons.mp hx with rfl | hx
    · exact Nat.le_refl _
    · exact Nat.le_succ_of_le (h.used x (hkept.entries.subset ((List.kerase_sublist ..).subset hx)))
  last before e after hpub hafter hmem := by
    rcases cases_of_snoc hpub with ⟨-, rfl, -⟩ | ⟨front, rfl, hold⟩
    · rw [hseq]
      exact AList.lookup_insert _
    · rw [List.map_append, List.mem_append, not_or] at hafter
      have hne : e.resourceKey ≠ event.resourceKey := fun heq => hafter.2 (by simp [heq])
      have hmemKept : e.resourceKey ∈ kept.sequences :=
        ((AList.mem_insert _).mp hmem).resolve_left hne
      have hlookup := hkept.lookup _ hmemKept
      have hmemOld : e.resourceKey ∈ s.sequences := by
        rw [← AList.lookup_isSome, ← hlookup, AList.lookup_isSome]
        exact hmemKept
      rw [← h.last before e front hold hafter.1 hmemOld, ← hlookup]
      exact AList.lookup_insert_ne hne

end Sequences

namespace LocalMediaEventBus

inductive Stage
  | absent
  /-- It has an id and a forwarder and is not in the map. -/
  | created
  | subscribed
  | removed
deriving DecidableEq

inductive Forwarder
  | receiving
  | sending (event : MediaEvent)
  /-- The loop was left; the receiver is still there. -/
  | breaking
  | ended
deriving DecidableEq

/-- What the forwarder has taken out of the queue and not yet sent. -/
def Forwarder.held : Forwarder → List MediaEvent
  | .sending event => [event]
  | _ => []

/-- A subscriber: its entry in the map, its queue and its forwarder. -/
structure SubscriberState where
  stage : Stage := .absent
  capacity : Nat := 1
  queue : List MediaEvent := []
  forwarder : Forwarder := .receiving
  dropped : Nat := 0
  notifiedDropped : Nat := 0
  /-- The `lagged` callbacks that calls of `publish` still have to make. -/
  owed : List Nat := []

namespace SubscriberState

/-- What `publish` does to a subscriber. -/
def offer (sub : SubscriberState) (event : MediaEvent) : SubscriberState :=
  if sub.stage ≠ .subscribed then sub
  else if sub.forwarder = .ended then { sub with stage := .removed }
  else if sub.queue.length < sub.capacity then { sub with queue := sub.queue ++ [event] }
  else
    let dropped := sub.dropped + 1
    if dropped > sub.notifiedDropped then
      { sub with
        dropped
        notifiedDropped := dropped
        owed := sub.owed ++ [dropped - sub.notifiedDropped] }
    else { sub with dropped }

end SubscriberState

inductive Event
  /-- An event with the sequence it got and the subscribers that were in the map. -/
  | published (event : MediaEvent) (ids : List Nat)
  | delivered (id : Nat) (event : MediaEvent)
  /-- `send` returned an error. -/
  | refused (id : Nat) (event : MediaEvent)
  | lagged (id dropped : Nat)

inductive Action
  | publish (event : MediaEvent)
  /-- The id is taken and the forwarder spawned. -/
  | subscribe (capacity : Nat)
  | insert (id : Nat)
  | unsubscribe (id : Nat)
  | recv (id : Nat)
  | send (id : Nat) (ok : Bool)
  /-- The receiver of a forwarder that broke off is dropped. -/
  | finish (id : Nat)
  /-- The `i`th callback that is owed to a subscriber is made. -/
  | lagged (id i : Nat)

end LocalMediaEventBus

open LocalMediaEventBus

/-- The ids are the numbers that `next_id` has given out. -/
structure LocalMediaEventBus where
  maxSequenceKeys : Nat
  inner : Sequences := {}
  subscribers : Nat → SubscriberState := fun _ => {}
  nextId : Nat := 1

namespace LocalMediaEventBus

def withMaxSequenceKeys (maxSequenceKeys : Nat) : LocalMediaEventBus where
  maxSequenceKeys := max maxSequenceKeys 1

def ids (s : LocalMediaEventBus) : List Nat :=
  (List.range s.nextId).filter fun id => (s.subscribers id).stage = .subscribed

def set (s : LocalMediaEventBus) (id : Nat) (sub : SubscriberState) : LocalMediaEventBus :=
  { s with subscribers := Function.update s.subscribers id sub }

def publish (s : LocalMediaEventBus) (event : MediaEvent) : LocalMediaEventBus × List Event :=
  let (seq, inner) := s.inner.nextSequence s.maxSequenceKeys event.resourceKey
  let event := { event with sequence := some seq }
  ({ s with inner, subscribers := fun id => (s.subscribers id).offer event },
    [.published event s.ids])

def step : Transition LocalMediaEventBus Action Event
  | s, .publish event => some (s.publish event)
  | s, .subscribe capacity =>
    some ({ s.set s.nextId { stage := .created, capacity := max capacity 1 } with
      nextId := s.nextId + 1 }, [])
  | s, .insert id =>
    let sub := s.subscribers id
    if sub.stage = .created then some (s.set id { sub with stage := .subscribed }, []) else none
  | s, .unsubscribe id =>
    let sub := s.subscribers id
    if sub.stage = .subscribed then some (s.set id { sub with stage := .removed }, [])
    else some (s, [])
  | s, .recv id =>
    let sub := s.subscribers id
    match sub.forwarder, sub.queue with
    | .receiving, event :: queue =>
      some (s.set id { sub with forwarder := .sending event, queue }, [])
    | _, _ => none
  | s, .send id ok =>
    let sub := s.subscribers id
    match sub.forwarder with
    | .sending event =>
      if ok then some (s.set id { sub with forwarder := .receiving }, [.delivered id event])
      else some (s.set id { sub with forwarder := .breaking }, [.refused id event])
    | _ => none
  | s, .finish id =>
    let sub := s.subscribers id
    if sub.forwarder = .breaking then
      some (s.set id { sub with forwarder := .ended, queue := [] }, [])
    else none
  | s, .lagged id i =>
    let sub := s.subscribers id
    match sub.owed[i]? with
    | none => none
    | some delta => some (s.set id { sub with owed := sub.owed.eraseIdx i }, [.lagged id delta])

/-- The events that were published while a subscriber was in the map. -/
def offered (id : Nat) (es : List Event) : List MediaEvent :=
  es.filterMap fun
    | .published event ids => if id ∈ ids then some event else none
    | _ => none

def delivered (id : Nat) (es : List Event) : List MediaEvent :=
  es.filterMap fun
    | .delivered i event => if i = id then some event else none
    | _ => none

def refused (id : Nat) (es : List Event) : List MediaEvent :=
  es.filterMap fun
    | .refused i event => if i = id then some event else none
    | _ => none

/-- The lag counts that were reported to a subscriber. -/
def lagged (id : Nat) (es : List Event) : List Nat :=
  es.filterMap fun
    | .lagged i dropped => if i = id then some dropped else none
    | _ => none

def published (es : List Event) : List MediaEvent :=
  es.filterMap fun
    | .published event _ => some event
    | _ => none

section Sound

/-- What was published, delivered, refused and reported, and what is under way, of a
subscriber. -/
structure Sound (offered delivered refused : List MediaEvent) (lagged : List Nat)
    (sub : SubscriberState) : Prop where
  order : (delivered ++ (sub.forwarder.held ++ sub.queue)).Sublist offered
  notified : sub.notifiedDropped = sub.dropped
  running : sub.forwarder = .breaking ∨ sub.forwarder = .ended → refused ≠ []
  count : refused = [] → offered.length =
    delivered.length + (sub.forwarder.held.length + sub.queue.length) + (lagged.sum + sub.owed.sum)
  absent : sub.stage = .absent →
    sub = {} ∧ offered = [] ∧ delivered = [] ∧ refused = [] ∧ lagged = []

variable {P D R : List MediaEvent} {L : List Nat} {sub : SubscriberState}

theorem sound_absent : Sound [] [] [] [] {} where
  order := List.Sublist.refl _
  notified := rfl
  running h := by simp at h
  count _ := rfl
  absent _ := ⟨rfl, rfl, rfl, rfl, rfl⟩

theorem sound_created (capacity : Nat) : Sound [] [] [] [] { stage := .created, capacity } where
  order := List.Sublist.refl _
  notified := rfl
  running h := by simp at h
  count _ := rfl
  absent h := by cases h

theorem Sound.staged (h : Sound P D R L sub) (hstage : stage ≠ .absent) :
    Sound P D R L { sub with stage } :=
  { h with absent := fun habsent => absurd habsent hstage }

/-- An event is offered to a subscriber that is in the map. -/
theorem Sound.offer (h : Sound P D R L sub) (hstage : sub.stage = .subscribed)
    (event : MediaEvent) :
    Sound (P ++ [event]) D R L (sub.offer event) := by
  have hmore : (D ++ (sub.forwarder.held ++ sub.queue)).Sublist (P ++ [event]) :=
    h.order.trans (List.sublist_append_left ..)
  unfold SubscriberState.offer
  rw [if_neg (by simp [hstage])]
  split
  · rename_i hended
    exact { h with
      order := hmore
      count := fun hnone => absurd hnone (h.running (.inr hended))
      absent := fun habsent => by cases habsent }
  · split
    · exact { h with
        order := by
          rw [← List.append_assoc, ← List.append_assoc, List.append_assoc D]
          exact h.order.append (List.Sublist.refl _)
        count := fun hnone => by
          have hcount := h.count hnone
          simp only [List.length_append, List.length_singleton]
          omega
        absent := fun habsent => by simp [hstage] at habsent }
    · rw [h.notified]
      dsimp only
      rw [if_pos (Nat.lt_succ_self _)]
      exact {
        order := hmore
        notified := rfl
        running := h.running
        count := fun hnone => by
          have hcount := h.count hnone
          simp only [List.length_append, List.length_singleton, List.sum_append, List.sum_singleton]
          omega
        absent := fun habsent => by simp [hstage] at habsent }

theorem offer_out (h : sub.stage ≠ .subscribed) (event : MediaEvent) : sub.offer event = sub :=
  if_pos h

theorem Sound.recv (h : Sound P D R L sub) (hstage : sub.stage ≠ .absent)
    (hforwarder : sub.forwarder = .receiving) (hqueue : sub.queue = event :: queue) :
    Sound P D R L { sub with forwarder := .sending event, queue } where
  order := by simpa [hforwarder, hqueue, Forwarder.held] using h.order
  notified := h.notified
  running hbroken := by simp at hbroken
  count hnone := by
    have hcount := h.count hnone
    simp only [hforwarder, hqueue, Forwarder.held, List.length_nil, List.length_cons] at hcount ⊢
    omega
  absent habsent := absurd habsent hstage

theorem Sound.sent (h : Sound P D R L sub) (hstage : sub.stage ≠ .absent)
    (hforwarder : sub.forwarder = .sending event) :
    Sound P (D ++ [event]) R L { sub with forwarder := .receiving } where
  order := by simpa [hforwarder, Forwarder.held] using h.order
  notified := h.notified
  running hbroken := by simp at hbroken
  count hnone := by
    have hcount := h.count hnone
    simp only [hforwarder, Forwarder.held, List.length_nil, List.length_append,
      List.length_singleton] at hcount ⊢
    omega
  absent habsent := absurd habsent hstage

/-- Once a send has failed, events may be lost that no lag count tells of. -/
theorem Sound.failed (h : Sound P D R L sub) (hstage : sub.stage ≠ .absent) (event : MediaEvent) :
    Sound P D (R ++ [event]) L { sub with forwarder := .breaking } where
  order := (List.sublist_append_right ..).append_left D |>.trans h.order
  notified := h.notified
  running _ := by simp
  count hnone := by simp at hnone
  absent habsent := absurd habsent hstage

theorem Sound.finish (h : Sound P D R L sub) (hstage : sub.stage ≠ .absent)
    (hforwarder : sub.forwarder = .breaking) :
    Sound P D R L { sub with forwarder := .ended, queue := [] } where
  order := by simpa [Forwarder.held] using (List.sublist_append_left ..).trans h.order
  notified := h.notified
  running _ := h.running (.inl hforwarder)
  count hnone := absurd hnone (h.running (.inl hforwarder))
  absent habsent := absurd habsent hstage

theorem Sound.report (h : Sound P D R L sub) (hstage : sub.stage ≠ .absent)
    (howed : sub.owed[i]? = some delta) :
    Sound P D R (L ++ [delta]) { sub with owed := sub.owed.eraseIdx i } :=
  { h with
    count := fun hnone => by
      have hcount := h.count hnone
      obtain ⟨hi, hdelta⟩ := List.getElem?_eq_some_iff.mp howed
      have hsum : sub.owed.sum = delta + (sub.owed.eraseIdx i).sum := by
        rw [← hdelta]
        exact (List.getElem_cons_eraseIdx_perm hi).sum_nat.symm
      simp only [List.sum_append, List.sum_singleton]
      omega
    absent := fun habsent => absurd habsent hstage }

end Sound

section Run
variable {s t : LocalMediaEventBus} {es fs : List Event}

/-- The subscriber that an event other than a publication is about. -/
def Event.About (id : Nat) : Event → Prop
  | .published _ _ => False
  | .delivered i _ | .refused i _ | .lagged i _ => i = id

/-- What a run has told of a subscriber, and where the subscriber stands. -/
def SoundAt (es : List Event) (s : LocalMediaEventBus) (id : Nat) : Prop :=
  Sound (offered id es) (delivered id es) (refused id es) (lagged id es) (s.subscribers id)

structure Inv (es : List Event) (s : LocalMediaEventBus) : Prop where
  sound : ∀ id, SoundAt es s id
  unused : ∀ id, s.nextId ≤ id → (s.subscribers id).stage = .absent
  tracks : s.inner.Tracks s.maxSequenceKeys (published es)
  numbered : AtEach (Sequences.Numbered s.maxSequenceKeys) (published es)
  positive : 0 < s.maxSequenceKeys

theorem logs_append (id : Nat) (es fs : List Event) :
    offered id (es ++ fs) = offered id es ++ offered id fs ∧
      delivered id (es ++ fs) = delivered id es ++ delivered id fs ∧
      refused id (es ++ fs) = refused id es ++ refused id fs ∧
      lagged id (es ++ fs) = lagged id es ++ lagged id fs :=
  ⟨List.filterMap_append, List.filterMap_append, List.filterMap_append, List.filterMap_append⟩

theorem logs_published (id : Nat) (event : MediaEvent) (ids : List Nat) :
    offered id [.published event ids] = (if id ∈ ids then [event] else []) ∧
      delivered id [.published event ids] = [] ∧ refused id [.published event ids] = [] ∧
      lagged id [.published event ids] = [] := by
  refine ⟨?_, rfl, rfl, rfl⟩
  by_cases h : id ∈ ids <;> simp [offered, h]

/-- An event about another subscriber tells nothing of this one. -/
theorem logs_other {id i : Nat} (habout : ∀ e ∈ fs, e.About i) (hne : id ≠ i) :
    offered id fs = [] ∧ delivered id fs = [] ∧ refused id fs = [] ∧ lagged id fs = [] := by
  refine ⟨?_, ?_, ?_, ?_⟩
  all_goals
    refine List.filterMap_eq_nil_iff.mpr fun e he => ?_
    have hi := habout e he
    cases e with
    | published event ids => cases hi
    | delivered j event | refused j event | lagged j n =>
      cases hi
      simp [Ne.symm hne]

theorem published_append (es fs : List Event) :
    published (es ++ fs) = published es ++ published fs :=
  List.filterMap_append

theorem published_about (habout : ∀ e ∈ fs, e.About i) : published (es ++ fs) = published es := by
  have hnone : published fs = [] := by
    refine List.filterMap_eq_nil_iff.mpr fun e he => ?_
    have hi := habout e he
    cases e with
    | published event ids => cases hi
    | delivered j event | refused j event | lagged j n => rfl
  rw [published_append, hnone, List.append_nil]

/-- A step about one subscriber leaves the others as they are. -/
theorem Inv.set (h : Inv es s) (hstage : (s.subscribers i).stage ≠ .absent)
    (habout : ∀ e ∈ fs, e.About i) (hsound : Sound (offered i (es ++ fs)) (delivered i (es ++ fs))
      (refused i (es ++ fs)) (lagged i (es ++ fs)) sub) : Inv (es ++ fs) (s.set i sub) where
  sound id := by
    unfold SoundAt LocalMediaEventBus.set
    dsimp only
    by_cases hid : id = i
    · subst hid
      rwa [Function.update_self]
    · obtain ⟨hoffered, hdelivered, hrefused, hlagged⟩ := logs_append id es fs
      obtain ⟨ho, hd, hr, hl⟩ := logs_other habout hid
      rw [Function.update_of_ne hid, hoffered, hdelivered, hrefused, hlagged, ho, hd, hr, hl]
      simp only [List.append_nil]
      exact h.sound id
  unused id hid := by
    have hne : id ≠ i := by
      rintro rfl
      exact hstage (h.unused id hid)
    unfold LocalMediaEventBus.set
    dsimp only
    rw [Function.update_of_ne hne]
    exact h.unused id hid
  tracks := by
    rw [published_about habout]
    exact h.tracks
  numbered := by
    rw [published_about habout]
    exact h.numbered
  positive := h.positive

theorem mem_ids (h : Inv es s) (id : Nat) :
    id ∈ s.ids ↔ (s.subscribers id).stage = .subscribed := by
  simp only [ids, List.mem_filter, List.mem_range, decide_eq_true_eq, and_iff_right_iff_imp]
  intro hstage
  by_contra hid
  rw [h.unused id (Nat.le_of_not_lt hid)] at hstage
  cases hstage

theorem Inv.publish (h : Inv es s) (event : MediaEvent) :
    Inv (es ++ (s.publish event).2) (s.publish event).1 := by
  obtain ⟨kept, hnext, hkept⟩ := h.tracks.keeps h.positive event.resourceKey
  unfold LocalMediaEventBus.publish
  rw [hnext]
  dsimp only [Sequences.countUp]
  exact {
    sound := fun id => by
      unfold SoundAt
      obtain ⟨hoffered, hdelivered, hrefused, hlagged⟩ := logs_append id es _
      obtain ⟨ho, hd, hr, hl⟩ := logs_published id _ s.ids
      rw [hoffered, hdelivered, hrefused, hlagged, ho, hd, hr, hl]
      simp only [List.append_nil]
      by_cases hstage : (s.subscribers id).stage = .subscribed
      · rw [if_pos ((mem_ids h id).mpr hstage)]
        exact (h.sound id).offer hstage _
      · rw [if_neg ((mem_ids h id).not.mpr hstage), offer_out hstage, List.append_nil]
        exact h.sound id
    unused := fun id hid => by
      have habsent := h.unused id hid
      dsimp only
      rwa [offer_out (by simp [habsent])]
    tracks := by
      rw [published_append]
      exact Sequences.Tracks.next h.tracks hkept rfl
    numbered := by
      rw [published_append]
      exact h.numbered.snoc (Sequences.Tracks.numbered h.tracks hkept rfl)
    positive := h.positive }

/-- An id that is given out has told of nothing. -/
theorem Inv.subscribe (h : Inv es s) (capacity : Nat) :
    Inv es { s.set s.nextId { stage := .created, capacity } with nextId := s.nextId + 1 } where
  sound id := by
    unfold SoundAt LocalMediaEventBus.set
    dsimp only
    by_cases hid : id = s.nextId
    · subst hid
      obtain ⟨-, ho, hd, hr, hl⟩ := (h.sound s.nextId).absent (h.unused _ (Nat.le_refl _))
      rw [Function.update_self, ho, hd, hr, hl]
      exact sound_created capacity
    · rw [Function.update_of_ne hid]
      exact h.sound id
  unused id hid := by
    have hne : id ≠ s.nextId := by
      rintro rfl
      exact absurd hid (Nat.not_succ_le_self _)
    unfold LocalMediaEventBus.set
    dsimp only
    rw [Function.update_of_ne hne]
    exact h.unused id (Nat.le_of_succ_le hid)
  tracks := h.tracks
  numbered := h.numbered
  positive := h.positive

/-- A step that tells nothing. -/
theorem Inv.quiet (h : Inv es s) (hstage : (s.subscribers i).stage ≠ .absent)
    (hsound : Sound (offered i es) (delivered i es) (refused i es) (lagged i es) sub) :
    Inv (es ++ []) (s.set i sub) :=
  h.set hstage (fun _ he => by cases he) (by rwa [List.append_nil])

/-- A subscriber that is not as new has been in the map. -/
theorem Inv.present (h : Inv es s) (hne : s.subscribers i ≠ {}) :
    (s.subscribers i).stage ≠ .absent :=
  fun habsent => hne ((h.sound i).absent habsent).1

theorem Inv.step (h : Inv es s) (hstep : step s a = some (t, fs)) : Inv (es ++ fs) t := by
  cases a with
  | publish event =>
    cases hstep
    exact h.publish event
  | subscribe capacity =>
    cases hstep
    rw [List.append_nil]
    exact h.subscribe _
  | insert id =>
    simp only [LocalMediaEventBus.step] at hstep
    split at hstep
    · rename_i hstage
      cases hstep
      exact h.quiet (by simp [hstage]) ((h.sound id).staged (by simp))
    · cases hstep
  | unsubscribe id =>
    simp only [LocalMediaEventBus.step] at hstep
    split at hstep
    · rename_i hstage
      cases hstep
      exact h.quiet (by simp [hstage]) ((h.sound id).staged (by simp))
    · cases hstep
      rwa [List.append_nil]
  | recv id =>
    simp only [LocalMediaEventBus.step] at hstep
    split at hstep
    · rename_i event queue hforwarder hqueue
      cases hstep
      have hstage := h.present (i := id) fun hnew => by simp [hnew] at hqueue
      exact h.quiet hstage ((h.sound id).recv hstage hforwarder hqueue)
    · cases hstep
  | send id ok =>
    simp only [LocalMediaEventBus.step] at hstep
    split at hstep
    · rename_i event hforwarder
      have hstage := h.present (i := id) fun hnew => by simp [hnew] at hforwarder
      split at hstep
      · cases hstep
        refine h.set hstage (fun e he => ?_) ?_
        · cases List.mem_singleton.mp he
          rfl
        · simpa [offered, delivered, refused, lagged] using (h.sound id).sent hstage hforwarder
      · cases hstep
        refine h.set hstage (fun e he => ?_) ?_
        · cases List.mem_singleton.mp he
          rfl
        · simpa [offered, delivered, refused, lagged] using (h.sound id).failed hstage event
    · cases hstep
  | finish id =>
    simp only [LocalMediaEventBus.step] at hstep
    split at hstep
    · rename_i hforwarder
      cases hstep
      have hstage := h.present (i := id) fun hnew => by simp [hnew] at hforwarder
      exact h.quiet hstage ((h.sound id).finish hstage hforwarder)
    · cases hstep
  | lagged id i =>
    simp only [LocalMediaEventBus.step] at hstep
    split at hstep
    · cases hstep
    · rename_i delta howed
      cases hstep
      have hstage := h.present (i := id) fun hnew => by simp [hnew] at howed
      refine h.set hstage (fun e he => ?_) ?_
      · cases List.mem_singleton.mp he
        rfl
      · simpa [offered, delivered, refused, lagged] using (h.sound id).report hstage howed

theorem inv_new (maxSequenceKeys : Nat) : Inv [] (withMaxSequenceKeys maxSequenceKeys) where
  sound _ := sound_absent
  unused _ _ := rfl
  tracks := Sequences.tracks_empty _
  numbered := atEach_nil
  positive := Nat.lt_of_lt_of_le Nat.zero_lt_one (Nat.le_max_right ..)

theorem inv_run (hrun : Transition.run step (withMaxSequenceKeys n) actions = some (s, es)) :
    Inv es s :=
  Transition.run_traced Inv (fun _ _ _ _ _ h _ hstep => h.step hstep) [] (inv_new n)
    Transition.along_true hrun

theorem maxSequenceKeys_step (hstep : step s a = some (t, fs)) :
    t.maxSequenceKeys = s.maxSequenceKeys := by
  unfold step at hstep
  split at hstep
  case h_1 | h_2 =>
    cases hstep
    rfl
  all_goals
    dsimp only at hstep
    repeat' split at hstep
    all_goals
      cases hstep
      try rfl

/-- In every run a subscriber gets events that were published while it was subscribed, in order
and each at most once. Unless a send to it has failed, what it did not get is queued, was
reported to it or is about to be. The numbers of a resource go on from one event to the next
as long as fewer than `maxSequenceKeys` other resources came in between. -/
theorem events_delivered
    (hrun : Transition.run step (withMaxSequenceKeys n) actions = some (s, es)) :
    (∀ id,
      (delivered id es ++ ((s.subscribers id).forwarder.held ++ (s.subscribers id).queue)).Sublist
        (offered id es) ∧
      (refused id es = [] → (offered id es).length = (delivered id es).length +
        ((s.subscribers id).forwarder.held.length + (s.subscribers id).queue.length) +
        ((lagged id es).sum + (s.subscribers id).owed.sum))) ∧
    AtEach (Sequences.Numbered (max n 1)) (published es) := by
  have hinv := inv_run hrun
  have hmax : s.maxSequenceKeys = max n 1 :=
    Transition.run_invariant (fun t => t.maxSequenceKeys = max n 1)
      (fun _ _ _ _ h _ hstep => (maxSequenceKeys_step hstep).trans h) rfl Transition.along_true hrun
  exact ⟨fun id => ⟨(hinv.sound id).order, (hinv.sound id).count⟩, hmax ▸ hinv.numbered⟩

/-- A subscriber whose sender refuses what it gets. -/
def refusedSend : List Action :=
  [.subscribe 4, .insert 1, .publish { eventId := "e", source := "a" }, .recv 1, .send 1 false]

theorem events_delivered_refused : ∃ s es,
    Transition.run step (withMaxSequenceKeys 4096) refusedSend = some (s, es) ∧
      (delivered 1 es).Sublist (offered 1 es) := by
  obtain ⟨⟨s, es⟩, hrun⟩ :
    ∃ r, Transition.run step (withMaxSequenceKeys 4096) refusedSend = some r := ⟨_, rfl⟩
  exact ⟨s, es, hrun,
    (List.sublist_append_left ..).trans ((events_delivered hrun).1 1).1⟩

/-- Two resources in turn on a bus that tracks one: every number is 1. And an event whose send
failed is neither delivered nor queued nor counted as lag. -/
theorem numbers_start_anew :
    (Transition.run step (withMaxSequenceKeys 1)
      (["a", "b", "a"].map fun source => .publish { eventId := "e", source })).map
        (fun r => (published r.2).map fun e => (e.resourceKey, e.sequence)) =
      some [("src:a", some 1), ("src:b", some 1), ("src:a", some 1)] ∧
    (Transition.run step (withMaxSequenceKeys 4096) refusedSend).map
        (fun r => ((offered 1 r.2).length, delivered 1 r.2, (r.1.subscribers 1).queue,
          lagged 1 r.2, (r.1.subscribers 1).owed)) =
      some (1, [], [], [], []) := by
  decide +kernel

end Run

end LocalMediaEventBus
end CheetahMedia.Engine
