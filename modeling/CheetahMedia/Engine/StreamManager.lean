import CheetahMedia.Engine.Error
import CheetahMedia.Lib.Transition
import Mathlib.Algebra.Group.Nat.Defs
import Mathlib.Logic.Function.Basic

namespace CheetahMedia.Engine
open Lib

structure StreamKey where
  ns : String
  path : String
deriving DecidableEq

def StreamKey.display (key : StreamKey) : String := key.ns ++ "/" ++ key.path

/-- An entry with the key it was made for, which no operation reads. -/
structure StreamEntry where
  streamId : Nat
  streamKey : StreamKey
  activeLease : Nat := 0

/-- A publisher: its lease, the address of its entry, and whether it was closed. -/
structure PublisherHandle where
  streamKey : StreamKey
  entry : Nat
  leaseId : Nat
  closed : Bool := false

namespace StreamManager

/-- A call that a task makes; a publisher is named by its place in the order of
acquisitions, and so is the lease that was returned with it. -/
inductive Call
  | acquirePublisher (key : StreamKey)
  | releasePublisher (publisher : Nat)
  | close (publisher : Nat)
  | closeIdlePublisher (key : StreamKey)
  | cleanupIfIdle (key : StreamKey)

/-- Where a task stands: before the atomic step that the name says. -/
inductive Task
  | lookUp (key : StreamKey)
  | insert (key : StreamKey) (streamId : Nat)
  | takeLeaseId (key : StreamKey) (entry : Nat)
  | exchange (key : StreamKey) (entry leaseId : Nat)
  | swapClosed (publisher : Nat)
  | readIdleLease (key : StreamKey)
  | findEntry (key : StreamKey) (leaseId : Nat)
  | checkLease (key : StreamKey) (entry leaseId : Nat)
  | clearLease (key : StreamKey) (entry leaseId : Nat)
  | remove (key : StreamKey)
  | readLease (key : StreamKey)
  | countSubscribers (key : StreamKey) (noPublisher : Bool)
  | removeIdle (key : StreamKey)
  | done

inductive Event
  | opened (handle : PublisherHandle)
  | closed
  | failed (error : SdkError)

inductive Action
  | call (c : Call)
  | advance (task : Nat) (subscribers : Nat)

end StreamManager

/-- The manager and the tasks that call it. `entries` holds the entries by address,
those that left the map included. -/
structure StreamManager where
  entries : List StreamEntry := []
  streams : StreamKey → Option Nat := fun _ => none
  nextStreamId : Nat := 0
  nextLeaseId : Nat := 0
  handles : List PublisherHandle := []
  tasks : List StreamManager.Task := []

namespace StreamManager

def become (s : StreamManager) (t : Nat) (task : Task) : StreamManager :=
  { s with tasks := s.tasks.set t task }

def leaseOf (s : StreamManager) (entry : Nat) : Nat := (s.entries[entry]?.map (·.activeLease)).getD 0

def setLease (s : StreamManager) (entry lease : Nat) : StreamManager :=
  { s with entries := s.entries.modify entry fun e => { e with activeLease := lease } }

/-- The lease is set and the handle of the publisher made. -/
def openPublisher (s : StreamManager) (key : StreamKey) (entry leaseId : Nat) : StreamManager :=
  { s.setLease entry leaseId with handles := s.handles ++ [⟨key, entry, leaseId, false⟩] }

def closeHandle (s : StreamManager) (publisher : Nat) : StreamManager :=
  { s with handles := s.handles.modify publisher fun h => { h with closed := true } }

def insertEntry (s : StreamManager) (key : StreamKey) (streamId : Nat) : StreamManager :=
  { s with
    entries := s.entries ++ [{ streamId := streamId, streamKey := key }]
    streams := Function.update s.streams key (some s.entries.length) }

def removeEntry (s : StreamManager) (key : StreamKey) : StreamManager :=
  { s with streams := Function.update s.streams key none }

/-- `ensure_active`: what `push_frame` asks before it takes a frame. -/
def ensureActive (s : StreamManager) (h : PublisherHandle) : Bool :=
  !h.closed && s.leaseOf h.entry == h.leaseId

/-- The first step of a call. -/
def start (s : StreamManager) : Call → Option Task
  | .acquirePublisher key => some (.lookUp key)
  | .releasePublisher publisher =>
    s.handles[publisher]?.map fun h => .findEntry h.streamKey h.leaseId
  | .close publisher => s.handles[publisher]?.map fun _ => .swapClosed publisher
  | .closeIdlePublisher key => some (.readIdleLease key)
  | .cleanupIfIdle key => some (.readLease key)

/-- The next atomic step of task `t`. `subscribers` is what a count of subscribers
reads; whether a publisher has been idle for long enough is left to the caller. -/
def advance (s : StreamManager) (t : Nat) (subscribers : Nat) :
    Option (StreamManager × List Event) :=
  match s.tasks[t]? with
  | none | some .done => none
  -- get_or_create_stream and acquire_publisher
  | some (.lookUp key) =>
    match s.streams key with
    | some entry => some (s.become t (.takeLeaseId key entry), [])
    | none =>
      let streamId := (s.nextStreamId + 1) % 2 ^ 64
      some ({ s with nextStreamId := streamId }.become t (.insert key streamId), [])
  | some (.insert key streamId) =>
    match s.streams key with
    | some entry => some (s.become t (.takeLeaseId key entry), [])
    | none =>
      some ((s.insertEntry key streamId).become t (.takeLeaseId key s.entries.length), [])
  | some (.takeLeaseId key entry) =>
    let leaseId := (s.nextLeaseId + 1) % 2 ^ 64
    some ({ s with nextLeaseId := leaseId }.become t (.exchange key entry leaseId), [])
  | some (.exchange key entry leaseId) =>
    if s.leaseOf entry = 0 then
      some ((s.openPublisher key entry leaseId).become t .done, [.opened ⟨key, entry, leaseId, false⟩])
    else
      some (s.become t .done,
        [.failed (.conflict s!"stream {key.display} already has an active publisher")])
  -- close
  | some (.swapClosed publisher) =>
    match s.handles[publisher]? with
    | none => none
    | some h =>
      if h.closed then some (s.become t .done, [])
      else
        some ((s.closeHandle publisher).become t (.findEntry h.streamKey h.leaseId), [])
  -- close_idle_publishers, for one entry
  | some (.readIdleLease key) =>
    match s.streams key with
    | none => some (s.become t .done, [])
    | some entry =>
      if s.leaseOf entry = 0 then some (s.become t .done, [])
      else some (s.become t (.findEntry key (s.leaseOf entry)), [])
  -- release_lease
  | some (.findEntry key leaseId) =>
    match s.streams key with
    | none => some (s.become t .done, [.failed (.notFound s!"stream {key.display}")])
    | some entry => some (s.become t (.checkLease key entry leaseId), [])
  | some (.checkLease key entry leaseId) =>
    if s.leaseOf entry = leaseId then some (s.become t (.clearLease key entry leaseId), [])
    else
      some (s.become t .done,
        [.failed (.conflict s!"publisher lease mismatch for stream {key.display}")])
  | some (.clearLease key entry _) => some ((s.setLease entry 0).become t (.remove key), [])
  | some (.remove key) =>
    some ((s.removeEntry key).become t .done, [.closed])
  -- cleanup_if_idle
  | some (.readLease key) =>
    match s.streams key with
    | none => some (s.become t .done, [])
    | some entry => some (s.become t (.countSubscribers key (s.leaseOf entry = 0)), [])
  | some (.countSubscribers key noPublisher) =>
    if noPublisher && subscribers == 0 then some (s.become t (.removeIdle key), [])
    else some (s.become t .done, [])
  | some (.removeIdle key) =>
    some ((s.removeEntry key).become t .done, [])

def step : Transition StreamManager Action Event
  | s, .call c => (s.start c).map fun task => ({ s with tasks := s.tasks ++ [task] }, [])
  | s, .advance t subscribers => s.advance t subscribers

def keyOf (s : StreamManager) (entry : Nat) : Option StreamKey := s.entries[entry]?.map (·.streamKey)

/-- No entry of the key, in the map or out of it, has a publisher. -/
def Vacant (s : StreamManager) (key : StreamKey) : Prop :=
  ∀ entry, s.keyOf entry = some key → s.leaseOf entry = 0

/-- The lease that a task is about to put on an entry. -/
def Task.exchanges : Task → Option Nat
  | .exchange _ _ leaseId => some leaseId
  | _ => none

/-- The key that a task has made up its mind to remove. -/
def Task.removes : Task → Option StreamKey
  | .clearLease key _ _ | .remove key | .countSubscribers key true | .removeIdle key => some key
  | _ => none

/-- What is known where a task stands. -/
def Sound (s : StreamManager) : Task → Prop
  | .takeLeaseId key entry => s.keyOf entry = some key
  | .exchange key entry leaseId =>
    s.keyOf entry = some key ∧ leaseId ≠ 0 ∧ leaseId ≤ s.nextLeaseId ∧
      ∀ h ∈ s.handles, h.leaseId ≠ leaseId
  | .findEntry _ leaseId => leaseId ≠ 0
  | .checkLease key entry leaseId => s.keyOf entry = some key ∧ leaseId ≠ 0
  | .clearLease key entry leaseId => s.keyOf entry = some key ∧
    ∀ other, s.keyOf other = some key → s.leaseOf other ≠ 0 →
      other = entry ∧ s.leaseOf other = leaseId
  | .remove key | .countSubscribers key true | .removeIdle key => s.Vacant key
  | _ => True

/-- An entry with a publisher is in the map under its key; leases are given once. -/
structure Inv (s : StreamManager) : Prop where
  given : ∀ h ∈ s.handles, h.leaseId ≠ 0 ∧ h.leaseId ≤ s.nextLeaseId
  keyed : ∀ h ∈ s.handles, s.keyOf h.entry = some h.streamKey
  distinct : ∀ (i j : Nat) (h h' : PublisherHandle), s.handles[i]? = some h → s.handles[j]? = some h' →
    h.leaseId = h'.leaseId → i = j
  mapped : ∀ key entry, s.streams key = some entry → s.keyOf entry = some key
  live : ∀ key entry, s.keyOf entry = some key → s.leaseOf entry ≠ 0 → s.streams key = some entry
  sound : ∀ task ∈ s.tasks, s.Sound task
  apart : ∀ (i j : Nat) (task other : Task) l, s.tasks[i]? = some task → s.tasks[j]? = some other →
    task.exchanges = some l → other.exchanges = some l → i = j

theorem Inv.init : Inv ({} : StreamManager) where
  given := List.forall_mem_nil _
  keyed := List.forall_mem_nil _
  distinct _ _ _ _ h := by cases h
  mapped _ _ h := by cases h
  live _ _ h := by cases h
  sound := List.forall_mem_nil _
  apart _ _ _ _ _ h := by cases h

section
variable {s s' : StreamManager} {task : Task} {key : StreamKey}

theorem keyOf_setLease (entry lease other : Nat) :
    (s.setLease entry lease).keyOf other = s.keyOf other := by
  simp only [keyOf, setLease, List.getElem?_modify]
  cases s.entries[other]? with
  | none => rfl
  | some e => by_cases h : entry = other <;> simp [h]

theorem leaseOf_setLease_of_ne (h : other ≠ entry) :
    (s.setLease entry lease).leaseOf other = s.leaseOf other := by
  simp [leaseOf, setLease, Ne.symm h]

theorem leaseOf_clear (entry other : Nat) : (s.setLease entry 0).leaseOf other = 0 ∨
    other ≠ entry ∧ (s.setLease entry 0).leaseOf other = s.leaseOf other := by
  by_cases h : other = entry
  · subst h
    left
    cases he : s.entries[other]? <;> simp [leaseOf, setLease, he]
  · exact .inr ⟨h, leaseOf_setLease_of_ne h⟩

theorem insertEntry_old (h : s.keyOf entry = some k) :
    (s.insertEntry key streamId).keyOf entry = some k := by
  obtain ⟨e, he, -⟩ := Option.map_eq_some_iff.mp h
  have hlt : entry < s.entries.length := (List.getElem?_eq_some_iff.mp he).1
  rw [← h]
  simp [keyOf, insertEntry, List.getElem?_append_left hlt]

theorem insertEntry_new : (s.insertEntry key streamId).keyOf s.entries.length = some key := by
  simp [keyOf, insertEntry]

/-- The entry that is new has no lease, the others are as they were. -/
theorem insertEntry_lease (h : (s.insertEntry key streamId).leaseOf entry ≠ 0) :
    (s.insertEntry key streamId).leaseOf entry = s.leaseOf entry ∧
      (s.insertEntry key streamId).keyOf entry = s.keyOf entry := by
  rcases Nat.lt_or_ge entry s.entries.length with hlt | hge
  · simp [leaseOf, keyOf, insertEntry, List.getElem?_append_left hlt]
  · refine absurd ?_ h
    simp only [leaseOf, insertEntry, List.getElem?_append_right hge]
    cases entry - s.entries.length <;> simp

/-- What is known where a task stands stays known while leases are only given up. -/
theorem Sound.mono (h : s.Sound task)
    (hkey : ∀ entry k, s.keyOf entry = some k → s'.keyOf entry = some k)
    (hlease : ∀ entry, s'.leaseOf entry ≠ 0 →
      s'.leaseOf entry = s.leaseOf entry ∧ s'.keyOf entry = s.keyOf entry)
    (hnext : s.nextLeaseId ≤ s'.nextLeaseId)
    (hhandles : ∀ h' ∈ s'.handles, ∃ h ∈ s.handles, h.leaseId = h'.leaseId) : s'.Sound task := by
  have hvacant : ∀ k, s.Vacant k → s'.Vacant k := by
    intro k hk entry hentry
    by_contra hne
    obtain ⟨hl, hsame⟩ := hlease entry hne
    exact hne (hl.trans (hk entry (hsame.symm.trans hentry)))
  cases task with
  | takeLeaseId key entry => exact hkey entry key h
  | exchange key entry leaseId =>
    obtain ⟨hentry, hpos, hle, hnew⟩ := h
    refine ⟨hkey entry key hentry, hpos, Nat.le_trans hle hnext, fun h' hh' => ?_⟩
    obtain ⟨h₀, hmem, heq⟩ := hhandles h' hh'
    exact heq ▸ hnew h₀ hmem
  | checkLease key entry leaseId => exact ⟨hkey entry key h.1, h.2⟩
  | clearLease key entry leaseId =>
    refine ⟨hkey entry key h.1, fun other hother hne => ?_⟩
    obtain ⟨hl, hsame⟩ := hlease other hne
    obtain ⟨rfl, heq⟩ := h.2 other (hsame.symm.trans hother) (hl ▸ hne)
    exact ⟨rfl, hl.trans heq⟩
  | remove key => exact hvacant key h
  | countSubscribers key noPublisher =>
    cases noPublisher with
    | false => trivial
    | true => exact hvacant key h
  | removeIdle key => exact hvacant key h
  | findEntry key leaseId => exact h
  | _ => trivial

/-- A task moves on. -/
theorem Inv.become (h : Inv s) (hsound : s.Sound task)
    (hapart : ∀ l, task.exchanges = some l → ∀ other ∈ s.tasks, other.exchanges ≠ some l) :
    Inv (s.become t task) where
  given := h.given
  keyed := h.keyed
  distinct := h.distinct
  mapped := h.mapped
  live := h.live
  sound := by
    intro other hother
    have hothers : s.Sound other := by
      rcases List.mem_or_eq_of_mem_set hother with hold | rfl
      · exact h.sound other hold
      · exact hsound
    exact Sound.mono hothers (fun _ _ => id) (fun _ _ => ⟨rfl, rfl⟩) (Nat.le_refl _)
      fun h' hh' => ⟨h', hh', rfl⟩
  apart := by
    intro i j u v l hi hj hu hv
    simp only [StreamManager.become, List.getElem?_set] at hi hj
    split at hi <;> split at hj
    next hti htj => exact hti.symm.trans htj
    next hti _ =>
      split at hi
      · cases hi
        exact absurd hv (hapart l hu v (List.mem_of_getElem? hj))
      · cases hi
    next _ htj =>
      split at hj
      · cases hj
        exact absurd hu (hapart l hv u (List.mem_of_getElem? hi))
      · cases hj
    next => exact h.apart i j u v l hi hj hu hv

theorem Inv.idle (h : Inv s) (hsound : s.Sound task) (hnone : task.exchanges = none) :
    Inv (s.become t task) :=
  h.become hsound fun l hl => by rw [hnone] at hl; cases hl

theorem Inv.call (h : Inv s) (hsound : s.Sound task) (hnone : task.exchanges = none) :
    Inv { s with tasks := s.tasks ++ [task] } where
  given := h.given
  keyed := h.keyed
  distinct := h.distinct
  mapped := h.mapped
  live := h.live
  sound := by
    intro other hother
    have hothers : s.Sound other := by
      rcases List.mem_append.mp hother with hold | hnew
      · exact h.sound other hold
      · exact List.mem_singleton.mp hnew ▸ hsound
    exact Sound.mono hothers (fun _ _ => id) (fun _ _ => ⟨rfl, rfl⟩) (Nat.le_refl _)
      fun h' hh' => ⟨h', hh', rfl⟩
  apart := by
    have hold : ∀ (i : Nat) u l, (s.tasks ++ [task])[i]? = some u → u.exchanges = some l →
        s.tasks[i]? = some u := by
      intro i u l hi hu
      rcases Nat.lt_or_ge i s.tasks.length with hlt | hge
      · rwa [List.getElem?_append_left hlt] at hi
      · rw [List.getElem?_append_right hge] at hi
        have hmem := List.mem_singleton.mp (List.mem_of_getElem? hi)
        rw [hmem, hnone] at hu
        cases hu
    intro i j u v l hi hj hu hv
    exact h.apart i j u v l (hold i u l hi hu) (hold j v l hj hv) hu hv

theorem Inv.takeLease (h : Inv s) (hle : s.nextLeaseId ≤ next) :
    Inv { s with nextLeaseId := next } where
  given h' hh' := ⟨(h.given h' hh').1, Nat.le_trans (h.given h' hh').2 hle⟩
  keyed := h.keyed
  distinct := h.distinct
  mapped := h.mapped
  live := h.live
  sound task htask := Sound.mono (h.sound task htask) (fun _ _ => id) (fun _ _ => ⟨rfl, rfl⟩) hle
    fun h' hh' => ⟨h', hh', rfl⟩
  apart := h.apart

theorem Inv.insertEntry (h : Inv s) (hfree : s.streams key = none) :
    Inv (s.insertEntry key streamId) where
  given := h.given
  keyed h' hh' := insertEntry_old (h.keyed h' hh')
  distinct := h.distinct
  mapped := by
    intro k entry hk
    by_cases hkey : k = key
    · subst hkey
      simp only [StreamManager.insertEntry, Function.update_self, Option.some.injEq] at hk
      exact hk ▸ insertEntry_new
    · simp only [StreamManager.insertEntry, Function.update_of_ne hkey] at hk
      exact insertEntry_old (h.mapped k entry hk)
  live := by
    intro k entry hk hne
    obtain ⟨hl, hsame⟩ := insertEntry_lease hne
    have hin := h.live k entry (hsame.symm.trans hk) (hl ▸ hne)
    have hkey : k ≠ key := by
      rintro rfl
      rw [hfree] at hin
      cases hin
    simpa [StreamManager.insertEntry, Function.update_of_ne hkey] using hin
  sound task htask := Sound.mono (h.sound task htask) (fun _ _ => insertEntry_old)
    (fun _ => insertEntry_lease) (Nat.le_refl _) fun h' hh' => ⟨h', hh', rfl⟩
  apart := h.apart

theorem Inv.clear (h : Inv s) (entry : Nat) : Inv (s.setLease entry 0) where
  given := h.given
  keyed h' hh' := (keyOf_setLease ..).trans (h.keyed h' hh')
  distinct := h.distinct
  mapped k other hk := (keyOf_setLease ..).trans (h.mapped k other hk)
  live := by
    intro k other hk hne
    rcases leaseOf_clear (s := s) entry other with hzero | ⟨-, hsame⟩
    · exact absurd hzero hne
    · exact h.live k other ((keyOf_setLease ..).symm.trans hk) (hsame ▸ hne)
  sound := by
    intro task htask
    refine Sound.mono (h.sound task htask) (fun _ _ => (keyOf_setLease ..).trans) ?_ (Nat.le_refl _)
      fun h' hh' => ⟨h', hh', rfl⟩
    intro other hne
    rcases leaseOf_clear (s := s) entry other with hzero | ⟨-, hsame⟩
    · exact absurd hzero hne
    · exact ⟨hsame, keyOf_setLease ..⟩
  apart := h.apart

theorem Inv.removeEntry (h : Inv s) (hvacant : s.Vacant key) : Inv (s.removeEntry key) where
  given := h.given
  keyed := h.keyed
  distinct := h.distinct
  mapped := by
    intro k entry hk
    by_cases hkey : k = key
    · subst hkey
      simp [StreamManager.removeEntry] at hk
    · simp only [StreamManager.removeEntry, Function.update_of_ne hkey] at hk
      exact h.mapped k entry hk
  live := by
    intro k entry hk hne
    have hkey : k ≠ key := by
      rintro rfl
      exact hne (hvacant entry hk)
    have hin := h.live k entry hk hne
    simpa [StreamManager.removeEntry, Function.update_of_ne hkey] using hin
  sound task htask := Sound.mono (h.sound task htask) (fun _ _ => id) (fun _ _ => ⟨rfl, rfl⟩) (Nat.le_refl _)
    fun h' hh' => ⟨h', hh', rfl⟩
  apart := h.apart

theorem closeHandle_handles {i : Nat} {h' : PublisherHandle}
    (hi : (s.closeHandle publisher).handles[i]? = some h') :
    ∃ h : PublisherHandle, s.handles[i]? = some h ∧ h.leaseId = h'.leaseId ∧ h.entry = h'.entry ∧
      h.streamKey = h'.streamKey := by
  simp only [closeHandle, List.getElem?_modify] at hi
  obtain ⟨h, hh, rfl⟩ := Option.map_eq_some_iff.mp hi
  refine ⟨h, hh, ?_⟩
  split <;> exact ⟨rfl, rfl, rfl⟩

theorem Inv.closeHandle (h : Inv s) (publisher : Nat) : Inv (s.closeHandle publisher) := by
  have hfrom : ∀ h' ∈ (s.closeHandle publisher).handles, ∃ h₀ ∈ s.handles,
      h₀.leaseId = h'.leaseId ∧ h₀.entry = h'.entry ∧ h₀.streamKey = h'.streamKey := by
    intro h' hh'
    obtain ⟨i, hi⟩ := List.getElem?_of_mem hh'
    obtain ⟨h₀, hh₀, hsame⟩ := closeHandle_handles hi
    exact ⟨h₀, List.mem_of_getElem? hh₀, hsame⟩
  constructor
  case given =>
    intro h' hh'
    obtain ⟨h₀, hh₀, hlease, -, -⟩ := hfrom h' hh'
    exact hlease ▸ h.given h₀ hh₀
  case keyed =>
    intro h' hh'
    obtain ⟨h₀, hh₀, -, hentry, hkey⟩ := hfrom h' hh'
    exact hentry ▸ hkey ▸ h.keyed h₀ hh₀
  case distinct =>
    intro i j h' h'' hi hj heq
    obtain ⟨h₀, hh₀, hlease, -, -⟩ := closeHandle_handles hi
    obtain ⟨h₁, hh₁, hlease', -, -⟩ := closeHandle_handles hj
    exact h.distinct i j h₀ h₁ hh₀ hh₁ (hlease.trans (heq.trans hlease'.symm))
  case mapped => exact h.mapped
  case live => exact h.live
  case sound =>
    intro task htask
    refine Sound.mono (h.sound task htask) (fun _ _ => id) (fun _ _ => ⟨rfl, rfl⟩) (Nat.le_refl _) ?_
    intro h' hh'
    obtain ⟨h₀, hh₀, hlease, -, -⟩ := hfrom h' hh'
    exact ⟨h₀, hh₀, hlease⟩
  case apart => exact h.apart

/-- The one step that gives a lease. -/
theorem Inv.openPublisher (h : Inv s) (hentry : s.keyOf entry = some key)
    (hin : s.streams key = some entry) (hfree : s.leaseOf entry = 0)
    (hpos : leaseId ≠ 0) (hle : leaseId ≤ s.nextLeaseId)
    (hnew : ∀ h ∈ s.handles, h.leaseId ≠ leaseId)
    (hexchanges : ∀ task ∈ s.tasks, task.exchanges ≠ some leaseId)
    (hremoves : ∀ task ∈ s.tasks, task.removes ≠ some key) :
    Inv (s.openPublisher key entry leaseId) := by
  have hkeyOf : ∀ other, (s.openPublisher key entry leaseId).keyOf other = s.keyOf other :=
    keyOf_setLease entry leaseId
  have hleaseOf : ∀ other, other ≠ entry →
      (s.openPublisher key entry leaseId).leaseOf other = s.leaseOf other :=
    fun other => leaseOf_setLease_of_ne
  -- keys other than the one that gets a publisher see nothing of it
  have hother : ∀ k other, k ≠ key → (s.openPublisher key entry leaseId).keyOf other = some k →
      s.keyOf other = some k ∧ (s.openPublisher key entry leaseId).leaseOf other = s.leaseOf other := by
    intro k other hk hko
    rw [hkeyOf] at hko
    refine ⟨hko, hleaseOf other ?_⟩
    rintro rfl
    exact hk (Option.some.inj (hko.symm.trans hentry))
  have hvacant : ∀ k, k ≠ key → s.Vacant k → (s.openPublisher key entry leaseId).Vacant k := by
    intro k hk hv other hko
    obtain ⟨hko, hsame⟩ := hother k other hk hko
    exact hsame.trans (hv other hko)
  constructor
  case given =>
    intro h' hh'
    rcases List.mem_append.mp hh' with hold | hlast
    · exact h.given h' hold
    · rw [List.mem_singleton.mp hlast]
      exact ⟨hpos, hle⟩
  case keyed =>
    intro h' hh'
    rw [hkeyOf]
    rcases List.mem_append.mp hh' with hold | hlast
    · exact h.keyed h' hold
    · rw [List.mem_singleton.mp hlast]
      exact hentry
  case distinct =>
    have hplace : ∀ (i : Nat) h', (s.handles ++ [⟨key, entry, leaseId, false⟩])[i]? = some h' →
        s.handles[i]? = some h' ∨ i = s.handles.length ∧ h'.leaseId = leaseId := by
      intro i h' hi
      rcases Nat.lt_or_ge i s.handles.length with hlt | hge
      · exact .inl (by rwa [List.getElem?_append_left hlt] at hi)
      · rw [List.getElem?_append_right hge] at hi
        have hlt := (List.getElem?_eq_some_iff.mp hi).1
        rw [List.length_singleton] at hlt
        exact .inr ⟨by omega, by rw [List.mem_singleton.mp (List.mem_of_getElem? hi)]⟩
    intro i j h' h'' hi hj heq
    rcases hplace i h' hi with hold | ⟨hlast, hlease⟩ <;>
      rcases hplace j h'' hj with hold' | ⟨hlast', hlease'⟩
    · exact h.distinct i j h' h'' hold hold' heq
    · exact absurd (heq.trans hlease') (hnew h' (List.mem_of_getElem? hold))
    · exact absurd (heq.symm.trans hlease) (hnew h'' (List.mem_of_getElem? hold'))
    · exact hlast.trans hlast'.symm
  case mapped => exact fun k other hk => (hkeyOf other).trans (h.mapped k other hk)
  case live =>
    intro k other hk hne
    by_cases heq : other = entry
    · subst heq
      rw [hkeyOf, hentry] at hk
      exact Option.some.inj hk ▸ hin
    · exact h.live k other ((hkeyOf other).symm.trans hk) (hleaseOf other heq ▸ hne)
  case sound =>
    intro task htask
    have hs := h.sound task htask
    have hrem := hremoves task htask
    cases task with
    | takeLeaseId k other => exact (hkeyOf other).trans hs
    | exchange k other l =>
      obtain ⟨hko, hlpos, hlle, hlnew⟩ := hs
      refine ⟨(hkeyOf other).trans hko, hlpos, hlle, fun h' hh' => ?_⟩
      rcases List.mem_append.mp hh' with hold | hlast
      · exact hlnew h' hold
      · rw [List.mem_singleton.mp hlast]
        exact fun heq => hexchanges _ htask (congrArg some heq.symm)
    | checkLease k other l => exact ⟨(hkeyOf other).trans hs.1, hs.2⟩
    | clearLease k other l =>
      have hk : k ≠ key := fun heq => hrem (congrArg some heq)
      refine ⟨(hkeyOf other).trans hs.1, fun another hko hne => ?_⟩
      obtain ⟨hko, hsame⟩ := hother k another hk hko
      obtain ⟨rfl, heq⟩ := hs.2 another hko (hsame ▸ hne)
      exact ⟨rfl, hsame.trans heq⟩
    | remove k => exact hvacant k (fun heq => hrem (congrArg some heq)) hs
    | countSubscribers k noPublisher =>
      cases noPublisher with
      | false => trivial
      | true => exact hvacant k (fun heq => hrem (congrArg some heq)) hs
    | removeIdle k => exact hvacant k (fun heq => hrem (congrArg some heq)) hs
    | findEntry k l => exact hs
    | _ => trivial
  case apart => exact h.apart

end

def Task.Timely (s : StreamManager) : Task → Prop
  | .exchange key entry _ => s.leaseOf entry = 0 →
    s.streams key = some entry ∧ ∀ task ∈ s.tasks, task.removes ≠ some key
  | .takeLeaseId _ _ => s.nextLeaseId + 1 < 2 ^ 64
  | _ => True

instance (s : StreamManager) : ∀ task : Task, Decidable (task.Timely s)
  | .exchange key entry _ => inferInstanceAs (Decidable (s.leaseOf entry = 0 →
    s.streams key = some entry ∧ ∀ task ∈ s.tasks, task.removes ≠ some key))
  | .takeLeaseId _ _ => inferInstanceAs (Decidable (s.nextLeaseId + 1 < 2 ^ 64))
  | .lookUp _ | .insert _ _ | .swapClosed _ | .readIdleLease _ | .findEntry _ _
  | .checkLease _ _ _ | .clearLease _ _ _ | .remove _ | .readLease _ | .countSubscribers _ _
  | .removeIdle _ | .done => inferInstanceAs (Decidable True)

/-- A lease is put only on an entry that is in the map, while no task is about to
take an entry of that key out of it; and the lease counter does not come round. -/
def Orderly (s : StreamManager) : Action → Prop
  | .advance t _ => ∀ task ∈ s.tasks[t]?, task.Timely s
  | .call _ => True

instance (s : StreamManager) : ∀ a, Decidable (s.Orderly a)
  | .advance t _ => inferInstanceAs (Decidable (∀ task ∈ s.tasks[t]?, task.Timely s))
  | .call _ => inferInstanceAs (Decidable True)

/-- A release clears the lease it was called with or none, and what leaves the map
has no publisher. -/
def Harmless (s : StreamManager) : Action → Prop
  | .advance t _ =>
    match s.tasks[t]? with
    | some (.clearLease _ entry leaseId) => s.leaseOf entry = leaseId ∨ s.leaseOf entry = 0
    | some (.remove key) | some (.removeIdle key) =>
      ∀ entry, s.streams key = some entry → s.leaseOf entry = 0
    | _ => True
  | .call _ => True

/-- No two publishers of one key are taken frames from. -/
def SinglePublisher (s : StreamManager) : Prop :=
  ∀ (i j : Nat) (h h' : PublisherHandle), s.handles[i]? = some h → s.handles[j]? = some h' →
    h.streamKey = h'.streamKey → s.ensureActive h → s.ensureActive h' → i = j

section
variable {s s' : StreamManager}

theorem Inv.singlePublisher (h : Inv s) : s.SinglePublisher := by
  have hactive : ∀ p ∈ s.handles, s.ensureActive p →
      s.leaseOf p.entry = p.leaseId ∧ s.streams p.streamKey = some p.entry := by
    intro p hp ha
    simp only [ensureActive, Bool.and_eq_true, beq_iff_eq] at ha
    have hne : s.leaseOf p.entry ≠ 0 := by
      rw [ha.2]
      exact (h.given p hp).1
    exact ⟨ha.2, h.live _ _ (h.keyed p hp) hne⟩
  intro i j p q hi hj hkey hp hq
  obtain ⟨hlease, hin⟩ := hactive p (List.mem_of_getElem? hi) hp
  obtain ⟨hlease', hin'⟩ := hactive q (List.mem_of_getElem? hj) hq
  have hentry : p.entry = q.entry := by
    rw [hkey, hin'] at hin
    exact (Option.some.inj hin).symm
  have hsame : p.leaseId = q.leaseId := by rw [← hlease, ← hlease', hentry]
  exact h.distinct i j p q hi hj hsame

theorem Inv.harmless (h : Inv s) (a : Action) : s.Harmless a := by
  cases a with
  | call c => trivial
  | advance t n =>
    simp only [Harmless]
    split
    next key entry leaseId ht =>
      obtain ⟨hkey, hall⟩ := h.sound _ (List.mem_of_getElem? ht)
      by_cases hzero : s.leaseOf entry = 0
      · exact .inr hzero
      · exact .inl (hall entry hkey hzero).2
    next key ht =>
      have hvacant : s.Vacant key := h.sound _ (List.mem_of_getElem? ht)
      exact fun entry hin => hvacant entry (h.mapped key entry hin)
    next key ht =>
      have hvacant : s.Vacant key := h.sound _ (List.mem_of_getElem? ht)
      exact fun entry hin => hvacant entry (h.mapped key entry hin)
    next => trivial

/-- An entry without a lease that is in the map: no other entry of its key has one. -/
theorem Inv.vacant (h : Inv s) (hin : s.streams key = some entry) (hzero : s.leaseOf entry = 0) :
    s.Vacant key := by
  intro other hother
  by_contra hne
  have heq := h.live key other hother hne
  rw [hin] at heq
  exact hne (Option.some.inj heq ▸ hzero)

theorem Inv.advance (h : Inv s) (hcond : s.Orderly (.advance t n))
    (hstep : s.advance t n = some (s', es)) : Inv s' := by
  cases htask : s.tasks[t]? with
  | none => simp [StreamManager.advance, htask] at hstep
  | some task =>
    have hmem := List.mem_of_getElem? htask
    have hsound := h.sound task hmem
    cases task with
    | done => simp [StreamManager.advance, htask] at hstep
    | lookUp key =>
      simp only [StreamManager.advance, htask] at hstep
      split at hstep
      next entry hin =>
        cases hstep
        exact h.idle (h.mapped key entry hin) rfl
      next =>
        cases hstep
        exact Inv.idle (s := { s with nextStreamId := _ }) { h with } trivial rfl
    | insert key streamId =>
      simp only [StreamManager.advance, htask] at hstep
      split at hstep
      next entry hin =>
        cases hstep
        exact h.idle (h.mapped key entry hin) rfl
      next hfree =>
        cases hstep
        exact (h.insertEntry hfree).idle insertEntry_new rfl
    | takeLeaseId key entry =>
      simp only [StreamManager.advance, htask] at hstep
      cases hstep
      have hlt : s.nextLeaseId + 1 < 2 ^ 64 := hcond _ htask
      rw [Nat.mod_eq_of_lt hlt]
      refine (h.takeLease (Nat.le_succ _)).become ⟨hsound, Nat.succ_ne_zero _, Nat.le_refl _, ?_⟩ ?_
      · intro p hp
        have hle := (h.given p hp).2
        omega
      · rintro l ⟨⟩ other hother hex
        cases other with
        | exchange k e l =>
          have hle := (h.sound _ hother).2.2.1
          cases hex
          omega
        | _ => cases hex
    | exchange key entry leaseId =>
      simp only [StreamManager.advance, htask] at hstep
      split at hstep
      next hfree =>
        cases hstep
        obtain ⟨hin, hremoves⟩ := hcond _ htask hfree
        obtain ⟨hkey, hpos, hle, hnew⟩ := hsound
        have hdone : Inv (s.become t .done) := h.idle trivial rfl
        refine Inv.openPublisher hdone hkey hin hfree hpos hle hnew ?_ ?_
        · intro other hother hex
          obtain ⟨j, hj⟩ := List.getElem?_of_mem hother
          simp only [StreamManager.become, List.getElem?_set] at hj
          split at hj
          · split at hj <;> cases hj
            cases hex
          · next hne => exact hne (h.apart t j _ other leaseId htask hj rfl hex)
        · intro other hother
          rcases List.mem_or_eq_of_mem_set hother with hold | rfl
          · exact hremoves other hold
          · nofun
      next =>
        cases hstep
        exact h.idle trivial rfl
    | swapClosed publisher =>
      simp only [StreamManager.advance, htask] at hstep
      split at hstep
      next => cases hstep
      next p hp =>
        split at hstep
        · cases hstep
          exact h.idle trivial rfl
        · cases hstep
          have hpos : p.leaseId ≠ 0 := (h.given p (List.mem_of_getElem? hp)).1
          exact (h.closeHandle publisher).idle hpos rfl
    | readIdleLease key =>
      simp only [StreamManager.advance, htask] at hstep
      split at hstep
      next =>
        cases hstep
        exact h.idle trivial rfl
      next entry hin =>
        split at hstep
        · cases hstep
          exact h.idle trivial rfl
        · next hne =>
          cases hstep
          exact h.idle hne rfl
    | findEntry key leaseId =>
      simp only [StreamManager.advance, htask] at hstep
      split at hstep
      next =>
        cases hstep
        exact h.idle trivial rfl
      next entry hin =>
        cases hstep
        exact h.idle ⟨h.mapped key entry hin, hsound⟩ rfl
    | checkLease key entry leaseId =>
      simp only [StreamManager.advance, htask] at hstep
      obtain ⟨hkey, hpos⟩ := hsound
      split at hstep
      next hlease =>
        cases hstep
        refine h.idle ⟨hkey, fun other hother hne => ?_⟩ rfl
        -- both entries are live, so both are the one in the map
        have hin := h.live key entry hkey (hlease ▸ hpos)
        have hin' := h.live key other hother hne
        rw [hin] at hin'
        obtain rfl := Option.some.inj hin'
        exact ⟨rfl, hlease⟩
      next =>
        cases hstep
        exact h.idle trivial rfl
    | clearLease key entry leaseId =>
      simp only [StreamManager.advance, htask] at hstep
      cases hstep
      refine (h.clear entry).idle ?_ rfl
      intro other hother
      rcases leaseOf_clear (s := s) entry other with hzero | ⟨hne, hsame⟩
      · exact hzero
      · by_contra hlive
        rw [keyOf_setLease] at hother
        exact hne (hsound.2 other hother (hsame ▸ hlive)).1
    | remove key =>
      simp only [StreamManager.advance, htask] at hstep
      cases hstep
      exact (h.removeEntry hsound).idle trivial rfl
    | readLease key =>
      simp only [StreamManager.advance, htask] at hstep
      split at hstep
      next =>
        cases hstep
        exact h.idle trivial rfl
      next entry hin =>
        cases hstep
        by_cases hzero : s.leaseOf entry = 0
        · refine h.idle ?_ rfl
          simp only [hzero, decide_true]
          exact h.vacant hin hzero
        · refine h.idle ?_ rfl
          simp only [hzero, decide_false]
          trivial
    | countSubscribers key noPublisher =>
      simp only [StreamManager.advance, htask] at hstep
      split at hstep
      next hyes =>
        cases hstep
        obtain ⟨rfl, -⟩ := Bool.and_eq_true_iff.mp hyes
        exact h.idle hsound rfl
      next =>
        cases hstep
        exact h.idle trivial rfl
    | removeIdle key =>
      simp only [StreamManager.advance, htask] at hstep
      cases hstep
      exact (h.removeEntry hsound).idle trivial rfl

theorem Inv.step (h : Inv s) (hcond : s.Orderly a) (hstep : step s a = some (s', es)) : Inv s' := by
  cases a with
  | advance t n => exact h.advance hcond hstep
  | call c =>
    obtain ⟨task, hstart, heq⟩ := Option.map_eq_some_iff.mp hstep
    cases heq
    cases c with
    | acquirePublisher key =>
      cases hstart
      exact h.call trivial rfl
    | releasePublisher publisher =>
      obtain ⟨p, hp, rfl⟩ := Option.map_eq_some_iff.mp hstart
      exact h.call (h.given p (List.mem_of_getElem? hp)).1 rfl
    | close publisher =>
      obtain ⟨p, -, rfl⟩ := Option.map_eq_some_iff.mp hstart
      exact h.call trivial rfl
    | closeIdlePublisher key =>
      cases hstart
      exact h.call trivial rfl
    | cleanupIfIdle key =>
      cases hstart
      exact h.call trivial rfl

end

/-- One publisher for a key at every state, and no release or cleanup that touches a
newer publisher, in every run that gives its leases in order. -/
theorem single_publisher (hcond : Transition.Along step Orderly {} actions)
    (hrun : Transition.run step {} actions = some (s, es)) :
    s.SinglePublisher ∧ Transition.Along step Harmless {} actions := by
  have hstep : ∀ s a s' es, Inv s → s.Orderly a → step s a = some (s', es) → Inv s' :=
    fun _ _ _ _ => Inv.step
  have hinv := Transition.run_invariant Inv hstep Inv.init hcond hrun
  have halong := Transition.along_of_invariant Inv
    (fun s a t es h hc hs => ⟨hstep s a t es h hc hs, h.harmless a⟩) Inv.init hcond
  exact ⟨hinv.singlePublisher, halong⟩

/-- A publisher closes before the next one comes. -/
def takeover : List Action :=
  [.call (.acquirePublisher ⟨"live", "cam"⟩), .advance 0 0, .advance 0 0, .advance 0 0, .advance 0 0,
    .call (.close 0), .advance 1 0, .advance 1 0, .advance 1 0, .advance 1 0, .advance 1 0,
    .call (.acquirePublisher ⟨"live", "cam"⟩), .advance 2 0, .advance 2 0, .advance 2 0, .advance 2 0]

theorem single_publisher_takeover :
    ∃ s es, Transition.run step {} takeover = some (s, es) ∧
      s.handles = [⟨⟨"live", "cam"⟩, 0, 1, true⟩, ⟨⟨"live", "cam"⟩, 1, 2, false⟩] ∧
      s.SinglePublisher ∧ Transition.Along step Harmless {} takeover := by
  have hcond : Transition.Along step Orderly {} takeover := by decide
  exact ⟨_, _, rfl, rfl, single_publisher hcond rfl⟩

/-- The next publisher takes its lease between the clearing of the old one and the
removal of the entry, and a third one finds no entry. -/
def hastyTakeover : List Action :=
  [.call (.acquirePublisher ⟨"live", "cam"⟩), .advance 0 0, .advance 0 0, .advance 0 0, .advance 0 0,
    .call (.close 0), .advance 1 0, .advance 1 0, .advance 1 0, .advance 1 0,
    .call (.acquirePublisher ⟨"live", "cam"⟩), .advance 2 0, .advance 2 0, .advance 2 0, .advance 1 0,
    .call (.acquirePublisher ⟨"live", "cam"⟩), .advance 3 0, .advance 3 0, .advance 3 0, .advance 3 0]

theorem hasty_takeover_two_publishers :
    ¬ ∀ actions s es, Transition.run step {} actions = some (s, es) →
      s.SinglePublisher ∧ Transition.Along step Harmless {} actions := by
  intro h
  have hsingle := (h hastyTakeover _ _ rfl).1
  have hsame := hsingle 1 2 _ _ rfl rfl rfl rfl rfl
  cases hsame

end StreamManager
end CheetahMedia.Engine
