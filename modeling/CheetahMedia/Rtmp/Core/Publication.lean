import CheetahMedia.Lib.Transition
import CheetahMedia.Rtmp.Core.Input

namespace CheetahMedia.Rtmp
open Lib

section Queue

def pendingPayload (media : List PendingPublishMedia) : Nat := (media.map (·.payload.length)).sum

theorem pendingPayload_append (media media' : List PendingPublishMedia) :
    pendingPayload (media ++ media') = pendingPayload media + pendingPayload media' := by
  simp [pendingPayload]

theorem pendingPayload_cons (m : PendingPublishMedia) (media : List PendingPublishMedia) :
    pendingPayload (m :: media) = m.payload.length + pendingPayload media := by
  simp [pendingPayload]

theorem takeLastWhere_some (h : takeLastWhere p as = some (a, bs)) :
    ∃ pre post, as = pre ++ a :: post ∧ bs = pre ++ post ∧ p a = true := by
  induction as generalizing bs with
  | nil => cases h
  | cons b as ih =>
    unfold takeLastWhere at h
    cases hrest : takeLastWhere p as with
    | some r =>
      obtain ⟨c, cs⟩ := r
      simp only [hrest, Option.some.injEq, Prod.mk.injEq] at h
      obtain ⟨rfl, rfl⟩ := h
      obtain ⟨pre, post, rfl, rfl, hp⟩ := ih hrest
      exact ⟨b :: pre, post, rfl, rfl, hp⟩
    | none =>
      simp only [hrest] at h
      split at h
      · rename_i hp
        cases h
        exact ⟨[], as, rfl, rfl, hp⟩
      · cases h

theorem takeLastWhere_none (h : takeLastWhere p as = none) : ∀ a ∈ as, p a = false := by
  induction as with
  | nil => exact List.forall_mem_nil _
  | cons b as ih =>
    unfold takeLastWhere at h
    cases hrest : takeLastWhere p as with
    | some r => simp [hrest] at h
    | none =>
      simp only [hrest] at h
      split at h
      · cases h
      · rename_i hp
        exact List.forall_mem_cons.mpr ⟨by simpa using hp, ih hrest⟩

/-- Room is made by taking out what is no sequence header. Either there is room in the
end or only sequence headers are left. -/
theorem makeRoom_spec (payloadLen : Nat) (passes : Nat) (media : List PendingPublishMedia)
    (bytes : Nat) (hpasses : media.length ≤ passes) :
    let r := makeRoom payloadLen passes media bytes
    r.1.Sublist media ∧
      r.1.filter (·.isSequenceHeader) = media.filter (·.isSequenceHeader) ∧
      (bytes = pendingPayload media → r.2 = pendingPayload r.1) ∧
      (r.1.length < MAX_PENDING_PUBLISH_MEDIA_EVENTS ∧
          r.2 + payloadLen ≤ MAX_PENDING_PUBLISH_MEDIA_BYTES ∨
        ∀ m ∈ r.1, m.isSequenceHeader = true) := by
  induction passes generalizing media bytes with
  | zero =>
    cases media with
    | nil => exact ⟨.slnil, rfl, id, .inr (List.forall_mem_nil _)⟩
    | cons m media => cases hpasses
  | succ passes ih =>
    unfold makeRoom
    split
    · cases htake : takeLastWhere (fun m => !m.isSequenceHeader) media with
      | none =>
        refine ⟨.refl _, rfl, id, .inr fun m hm => ?_⟩
        simpa using takeLastWhere_none htake m hm
      | some taken =>
        obtain ⟨removed, rest⟩ := taken
        obtain ⟨pre, post, rfl, rfl, hremoved⟩ := takeLastWhere_some htake
        have hnot : removed.isSequenceHeader = false := by simpa using hremoved
        obtain ⟨hsub, hheaders, hbytes, hroom⟩ := ih (pre ++ post)
          (bytes - removed.payload.length) (by
            simp only [List.length_append, List.length_cons] at hpasses ⊢
            omega)
        refine ⟨hsub.trans ?_, hheaders.trans ?_, fun h => hbytes ?_, hroom⟩
        · exact (List.sublist_cons_self removed post).append_left pre
        · simp [hnot]
        · rw [h, pendingPayload_append, pendingPayload_append, pendingPayload_cons]
          omega
    · rename_i hroom
      obtain ⟨hevents, hbytes⟩ := not_or.mp hroom
      exact ⟨.refl _, rfl, id, .inl ⟨Nat.lt_of_not_le hevents, Nat.le_of_not_lt hbytes⟩⟩

end Queue

/-- What the core keeps about publishing. -/
structure Publication where
  active : Option UInt32 := none
  pending : Option UInt32 := none
  media : List PendingPublishMedia := []
  bytes : Nat := 0

def RtmpCore.publication (core : RtmpCore) : Publication :=
  ⟨core.activePublish, core.pendingPublish, core.pendingMedia, core.pendingMediaBytes⟩

def PendingPublishMedia.event (m : PendingPublishMedia) : RtmpEvent :=
  .mediaData m.streamId m.timestampMs m.mediaType m.payload

namespace Publication

def push (media : PendingPublishMedia) (p : Publication) : Publication :=
  if media.payload.length > MAX_PENDING_PUBLISH_MEDIA_BYTES then p
  else
    let (queue, bytes) := makeRoom media.payload.length p.media.length p.media p.bytes
    { p with media := queue ++ [media], bytes := bytes + media.payload.length }

def clear (p : Publication) : Publication := { p with pending := none, media := [], bytes := 0 }

/-- Media of the active stream is due at once, media of the pending one is kept. -/
def receive (m : PendingPublishMedia) (p : Publication) :
    Publication × List PendingPublishMedia :=
  if p.active = some m.streamId then (p, [m])
  else if p.pending = some m.streamId then (p.push m, [])
  else (p, [])

/-- What is kept for the stream becomes due when it is accepted. -/
def accept (streamId : UInt32) (p : Publication) : Publication × List PendingPublishMedia :=
  if p.pending = some streamId then
    ({ active := some streamId
       pending := none
       media := []
       bytes := p.media.foldl (fun bytes m => bytes - m.payload.length) p.bytes }, p.media)
  else ({ p with active := some streamId }, [])

def reject (streamId : UInt32) (p : Publication) : Publication :=
  if p.pending = some streamId then p.clear else p

def forget (streamId : UInt32) (p : Publication) : Publication :=
  reject streamId (if p.active = some streamId then { p with active := none } else p)

/-- The last command passes media on that the application itself has seen. -/
def obey : RtmpCoreCommand → Publication → Publication × List PendingPublishMedia
  | .acceptPublish streamId, p => p.accept streamId
  | .rejectPublish streamId _, p => (p.reject streamId, [])
  | .closeConnection, _ => ({}, [])
  | .clientObserveMediaData streamId timestampMs mediaType payload, p =>
    (p, [⟨streamId, timestampMs, mediaType, payload, isSequenceHeader mediaType payload⟩])
  | _, p => (p, [])

/-- The core tells of each request to publish and of each stream that is closed. -/
def announce : Emission → Publication → Publication
  | .event (.publishRequested streamId _ _ _), _ => { pending := some streamId }
  | .event (.streamClosed streamId), p => p.forget streamId
  | _, p => p

/-- The queue belongs to the pending stream and is counted right, and the pending stream
is not the active one. -/
structure Sound (p : Publication) : Prop where
  owned : ∀ m ∈ p.media, p.pending = some m.streamId
  counted : p.bytes = pendingPayload p.media
  apart : ∀ streamId, p.active = some streamId → p.pending ≠ some streamId

section Sound
variable {p : Publication}

theorem push_long (h : MAX_PENDING_PUBLISH_MEDIA_BYTES < m.payload.length) : p.push m = p := by
  rw [push, if_pos h]

theorem push_short (h : m.payload.length ≤ MAX_PENDING_PUBLISH_MEDIA_BYTES) :
    p.push m = { p with
      media := (makeRoom m.payload.length p.media.length p.media p.bytes).1 ++ [m]
      bytes := (makeRoom m.payload.length p.media.length p.media p.bytes).2 + m.payload.length } := by
  rw [push, if_neg (Nat.not_lt.mpr h)]

theorem Sound.push (h : p.Sound) (hpending : p.pending = some m.streamId) : (p.push m).Sound := by
  by_cases hlen : m.payload.length ≤ MAX_PENDING_PUBLISH_MEDIA_BYTES
  · obtain ⟨hsub, -, hbytes, -⟩ :=
      makeRoom_spec m.payload.length p.media.length p.media p.bytes (Nat.le_refl _)
    rw [push_short hlen]
    refine ⟨fun m' hm' => ?_, ?_, h.apart⟩
    · rcases List.mem_append.mp hm' with hold | hnew
      · exact h.owned m' (hsub.subset hold)
      · rw [List.mem_singleton.mp hnew]
        exact hpending
    · rw [hbytes h.counted, pendingPayload_append, pendingPayload_cons]
      rfl
  · rw [push_long (Nat.lt_of_not_le hlen)]
    exact h

theorem Sound.receive (h : p.Sound) (m : PendingPublishMedia) : (p.receive m).1.Sound := by
  unfold Publication.receive
  split
  · exact h
  split
  · rename_i hpending
    exact h.push hpending
  · exact h

theorem sub_payloads (media : List PendingPublishMedia) (n : Nat) :
    media.foldl (fun bytes m => bytes - m.payload.length) (pendingPayload media + n) = n := by
  induction media with
  | nil => simp [pendingPayload]
  | cons m media ih =>
    rw [List.foldl_cons, pendingPayload_cons]
    have hrest : m.payload.length + pendingPayload media + n - m.payload.length =
        pendingPayload media + n := by omega
    rw [hrest, ih]

theorem Sound.accept (h : p.Sound) (streamId : UInt32) : (p.accept streamId).1.Sound := by
  unfold Publication.accept
  split
  · refine ⟨List.forall_mem_nil _, ?_, nofun⟩
    show p.media.foldl _ p.bytes = 0
    rw [h.counted]
    exact sub_payloads p.media 0
  · rename_i hpending
    refine ⟨h.owned, h.counted, fun streamId' hactive => ?_⟩
    cases hactive
    exact hpending

theorem Sound.reject (h : p.Sound) (streamId : UInt32) : (p.reject streamId).Sound := by
  unfold Publication.reject
  split
  · exact ⟨List.forall_mem_nil _, rfl, nofun⟩
  · exact h

theorem Sound.forget (h : p.Sound) (streamId : UInt32) : (p.forget streamId).Sound := by
  unfold Publication.forget
  refine Sound.reject ?_ streamId
  split
  · exact ⟨h.owned, h.counted, nofun⟩
  · exact h

theorem Sound.initial : Sound {} := ⟨List.forall_mem_nil _, rfl, nofun⟩

theorem Sound.obey (h : p.Sound) (c : RtmpCoreCommand) : (p.obey c).1.Sound := by
  cases c with
  | acceptPublish streamId => exact h.accept streamId
  | rejectPublish streamId description => exact h.reject streamId
  | closeConnection => exact .initial
  | _ => exact h

theorem Sound.announce (h : p.Sound) (out : Emission) : (p.announce out).Sound := by
  unfold Publication.announce
  split
  · exact ⟨List.forall_mem_nil _, rfl, nofun⟩
  · exact h.forget _
  · exact h

end Sound

end Publication

/-- One entry of the journal of a core: media that arrived, a command, or what the core
put out. -/
inductive Entry
  | received (media : PendingPublishMedia)
  | command (command : RtmpCoreCommand)
  | put (out : Emission)

namespace Entry

def delivered? (streamId : UInt32) : Entry → Option RtmpEvent
  | .put (.event (.mediaData id timestampMs mediaType payload)) =>
    if id = streamId then some (.mediaData id timestampMs mediaType payload) else none
  | _ => none

def received? (streamId : UInt32) : Entry → Option PendingPublishMedia
  | .received m => if m.streamId = streamId then some m else none
  | _ => none

/-- The stream asks to publish. -/
def requests (streamId : UInt32) : Entry → Bool
  | .put (.event (.publishRequested id _ _ _)) => id = streamId
  | _ => false

/-- The application accepts the stream. -/
def accepts (streamId : UInt32) : Entry → Bool
  | .command (.acceptPublish id) => id = streamId
  | _ => false

/-- The entry ends what the stream publishes or asks for another publish, or has media
for it from elsewhere. -/
def cuts (streamId : UInt32) : Entry → Bool
  | .put (.event (.publishRequested ..)) => true
  | .put (.event (.streamClosed id)) => id = streamId
  | .command .closeConnection => true
  | .command (.clientObserveMediaData id _ _ _) => id = streamId
  | _ => false

/-- The application answers the request of the stream. -/
def answers (streamId : UInt32) : Entry → Bool
  | .command (.acceptPublish id) => id = streamId
  | .command (.rejectPublish id _) => id = streamId
  | _ => false

/-- The application accepts another stream. -/
def displaces (streamId : UInt32) : Entry → Bool
  | .command (.acceptPublish id) => id ≠ streamId
  | _ => false

end Entry

/-- The media of a stream that the journal delivers. -/
def delivered (streamId : UInt32) (journal : List Entry) : List RtmpEvent :=
  journal.filterMap (Entry.delivered? streamId)

/-- The media of a stream that arrived. -/
def received (streamId : UInt32) (journal : List Entry) : List PendingPublishMedia :=
  journal.filterMap (Entry.received? streamId)

/-- A sequence header that is not too long for the queue. -/
def PendingPublishMedia.isKept (m : PendingPublishMedia) : Bool :=
  m.isSequenceHeader && decide (m.payload.length ≤ MAX_PENDING_PUBLISH_MEDIA_BYTES)

/-- A publication and the media that is due to be delivered. -/
structure Publishing where
  publication : Publication
  due : List PendingPublishMedia

/-- Publishing as a system of its own: what is due comes out in order, and before
anything else happens. -/
def publishing : Transition Publishing Entry Empty
  | ⟨p, []⟩, .received m => some (⟨(p.receive m).1, (p.receive m).2⟩, [])
  | ⟨p, []⟩, .command c => some (⟨(p.obey c).1, (p.obey c).2⟩, [])
  | ⟨_, []⟩, .put (.event (.mediaData ..)) => none
  | ⟨p, []⟩, .put out => some (⟨p.announce out, []⟩, [])
  | ⟨p, m :: due⟩, .put (.event (.mediaData streamId timestampMs mediaType payload)) =>
    if m.streamId = streamId ∧ m.timestampMs = timestampMs ∧ m.mediaType = mediaType ∧
        m.payload = payload then some (⟨p, due⟩, [])
    else none
  | ⟨_, _ :: _⟩, _ => none


namespace Publishing

/-- The ways in which publishing moves on. -/
theorem step_cases (h : publishing s e = some (t, es)) :
    (s.due = [] ∧ ∃ m, e = .received m ∧
      t = ⟨(s.publication.receive m).1, (s.publication.receive m).2⟩) ∨
    (s.due = [] ∧ ∃ c, e = .command c ∧
      t = ⟨(s.publication.obey c).1, (s.publication.obey c).2⟩) ∨
    (s.due = [] ∧ ∃ out, e = .put out ∧ (∀ i t ty b, out ≠ .event (.mediaData i t ty b)) ∧
      t = ⟨s.publication.announce out, []⟩) ∨
    (∃ m due, s.due = m :: due ∧ e = .put (.event m.event) ∧ t = ⟨s.publication, due⟩) := by
  obtain ⟨p, due⟩ := s
  unfold publishing at h
  split at h
  · rename_i heq
    cases heq
    cases h
    exact .inl ⟨rfl, _, rfl, rfl⟩
  · rename_i heq
    cases heq
    cases h
    exact .inr (.inl ⟨rfl, _, rfl, rfl⟩)
  · cases h
  · rename_i out hmedia heq
    cases heq
    cases h
    refine .inr (.inr (.inl ⟨rfl, _, rfl, fun i t ty b hout => ?_, rfl⟩))
    subst hout
    exact hmedia i t ty b rfl
  · rename_i heq
    cases heq
    split at h
    · rename_i hsame
      obtain ⟨rfl, rfl, rfl, rfl⟩ := hsame
      cases h
      exact .inr (.inr (.inr ⟨_, _, rfl, rfl, rfl⟩))
    · cases h
  · cases h

theorem step_sound (hs : s.publication.Sound) (h : publishing s e = some (t, es)) :
    t.publication.Sound := by
  rcases step_cases h with ⟨-, m, -, rfl⟩ | ⟨-, c, -, rfl⟩ | ⟨-, out, -, -, rfl⟩ |
    ⟨m, due, -, -, rfl⟩
  · exact hs.receive m
  · exact hs.obey c
  · exact hs.announce out
  · exact hs

theorem run_sound (hs : s.publication.Sound)
    (h : Transition.run publishing s journal = some (t, es)) : t.publication.Sound := by
  have hall : Transition.Along publishing (fun _ _ => True) s journal :=
    Transition.along_of_forall fun _ _ => trivial
  exact Transition.run_invariant (fun s => s.publication.Sound)
    (fun _ _ _ _ hinv _ hstep => step_sound hinv hstep) hs hall h

section Bounded

/-- What the limits of the queue allow. -/
def Bounded (p : Publication) : Prop :=
  p.media.length ≤ MAX_PENDING_PUBLISH_MEDIA_EVENTS ∧
    pendingPayload p.media ≤ MAX_PENDING_PUBLISH_MEDIA_BYTES

def headers (p : Publication) : List PendingPublishMedia := p.media.filter (·.isSequenceHeader)

/-- The sequence headers in the queue leave room for what arrives for the pending stream. -/
def Roomy (s : Publishing) : Entry → Prop
  | .received m =>
    s.publication.pending = some m.streamId →
      m.payload.length ≤ MAX_PENDING_PUBLISH_MEDIA_BYTES →
        (headers s.publication).length < MAX_PENDING_PUBLISH_MEDIA_EVENTS ∧
          pendingPayload (headers s.publication) + m.payload.length ≤
            MAX_PENDING_PUBLISH_MEDIA_BYTES
  | _ => True

instance (s : Publishing) : (e : Entry) → Decidable (Roomy s e)
  | .received _ => inferInstanceAs (Decidable (_ → _ → _ ∧ _))
  | .command _ => inferInstanceAs (Decidable True)
  | .put _ => inferInstanceAs (Decidable True)

theorem push_bounded {p : Publication} (hsound : p.Sound) (h : Bounded p)
    (hroom : m.payload.length ≤ MAX_PENDING_PUBLISH_MEDIA_BYTES →
      (headers p).length < MAX_PENDING_PUBLISH_MEDIA_EVENTS ∧
        pendingPayload (headers p) + m.payload.length ≤ MAX_PENDING_PUBLISH_MEDIA_BYTES) :
    Bounded (p.push m) := by
  by_cases hlen : m.payload.length ≤ MAX_PENDING_PUBLISH_MEDIA_BYTES
  · obtain ⟨-, hheaders, hbytes, hend⟩ :=
      makeRoom_spec m.payload.length p.media.length p.media p.bytes (Nat.le_refl _)
    rw [Publication.push_short hlen, Bounded]
    simp only [List.length_append, List.length_singleton, pendingPayload_append]
    have hnew : pendingPayload [m] = m.payload.length := by simp [pendingPayload]
    rw [hnew]
    rcases hend with ⟨hevents, htotal⟩ | hall
    · rw [hbytes hsound.counted] at htotal
      exact ⟨hevents, htotal⟩
    · -- nothing but the headers of the queue before is left
      rw [List.filter_eq_self.mpr hall] at hheaders
      rw [hheaders]
      exact hroom hlen
  · rw [Publication.push_long (Nat.lt_of_not_le hlen)]
    exact h

theorem bounded_nil (h : p.media = []) : Bounded p := by
  simp [Bounded, h, pendingPayload]

theorem reject_bounded {p : Publication} (h : Bounded p) (streamId : UInt32) :
    Bounded (p.reject streamId) := by
  unfold Publication.reject
  split
  · exact bounded_nil rfl
  · exact h

theorem announce_bounded {p : Publication} (h : Bounded p) (out : Emission) :
    Bounded (p.announce out) := by
  unfold Publication.announce
  split
  · exact bounded_nil rfl
  · refine reject_bounded ?_ _
    split
    · exact h
    · exact h
  · exact h

theorem step_bounded (hsound : s.publication.Sound) (hs : Bounded s.publication)
    (hroom : Roomy s e) (h : publishing s e = some (t, es)) : Bounded t.publication := by
  rcases step_cases h with ⟨-, m, rfl, rfl⟩ | ⟨-, c, -, rfl⟩ | ⟨-, out, -, -, rfl⟩ |
    ⟨m, due, -, -, rfl⟩
  · unfold Publication.receive
    split
    · exact hs
    split
    · rename_i hpending
      exact push_bounded hsound hs (hroom hpending)
    · exact hs
  · cases c with
    | acceptPublish streamId =>
      simp only [Publication.obey, Publication.accept]
      split
      · exact bounded_nil rfl
      · exact hs
    | rejectPublish streamId description => exact reject_bounded hs streamId
    | closeConnection => exact bounded_nil rfl
    | _ => exact hs
  · exact announce_bounded hs out
  · exact hs

theorem run_roomy (hroom : Transition.Along publishing Roomy s journal)
    (hsound : s.publication.Sound) (hs : Bounded s.publication)
    (h : Transition.run publishing s journal = some (t, es)) : Bounded t.publication :=
  (Transition.run_invariant (fun s => s.publication.Sound ∧ Bounded s.publication)
    (fun _ _ _ _ hinv hroom hstep =>
      ⟨step_sound hinv.1 hstep, step_bounded hinv.1 hinv.2 hroom hstep⟩)
    ⟨hsound, hs⟩ hroom h).2

end Bounded

section Delivery

/-- The stream has asked to publish and has no answer yet. -/
structure Waiting (streamId : UInt32) (seen : List Entry) (s : Publishing) : Prop where
  pending : s.publication.pending = some streamId
  inactive : s.publication.active ≠ some streamId
  due : ∀ m ∈ s.due, m.streamId ≠ streamId
  delivered : delivered streamId seen = []
  queued : s.publication.media.Sublist (received streamId seen)
  kept : ((received streamId seen).filter (·.isKept)).Sublist s.publication.media

/-- The stream has been accepted, with `queue` in its queue. -/
structure Serving (streamId : UInt32) (queue : List PendingPublishMedia) (seen : List Entry)
    (s : Publishing) : Prop where
  active : s.publication.active = some streamId
  pending : s.publication.pending = none
  balance : delivered streamId seen ++
      (s.due.filter (·.streamId = streamId)).map PendingPublishMedia.event =
    queue.map PendingPublishMedia.event ++
      (received streamId seen).map PendingPublishMedia.event

theorem delivered_snoc_event (seen : List Entry) (m : PendingPublishMedia) :
    delivered streamId (seen ++ [.put (.event m.event)]) = delivered streamId seen ++
      if m.streamId = streamId then [m.event] else [] := by
  unfold delivered
  rw [List.filterMap_append]
  by_cases h : m.streamId = streamId
  · simp [Entry.delivered?, PendingPublishMedia.event, h]
  · simp [Entry.delivered?, PendingPublishMedia.event, h]

theorem delivered_snoc_none (seen : List Entry) (h : e.delivered? streamId = none) :
    delivered streamId (seen ++ [e]) = delivered streamId seen := by
  simp [delivered, h]

theorem received_snoc_none (seen : List Entry) (h : e.received? streamId = none) :
    received streamId (seen ++ [e]) = received streamId seen := by
  simp [received, h]

theorem received_snoc (seen : List Entry) (h : m.streamId = streamId) :
    received streamId (seen ++ [.received m]) = received streamId seen ++ [m] := by
  simp [received, Entry.received?, h]

theorem delivered_none_of_put (h : ∀ i t ty b, out ≠ .event (.mediaData i t ty b)) :
    (Entry.put out).delivered? streamId = none := by
  unfold Entry.delivered?
  split
  · rename_i heq
    cases heq
    exact absurd rfl (h _ _ _ _)
  · rfl

theorem push_waiting {p : Publication} (hqueued : p.media.Sublist (received streamId seen))
    (hkept : ((received streamId seen).filter (·.isKept)).Sublist p.media) :
    (p.push m).media.Sublist (received streamId seen ++ [m]) ∧
      ((received streamId seen ++ [m]).filter (·.isKept)).Sublist (p.push m).media := by
  by_cases hlen : m.payload.length ≤ MAX_PENDING_PUBLISH_MEDIA_BYTES
  · obtain ⟨hsub, hheaders, -, -⟩ :=
      makeRoom_spec m.payload.length p.media.length p.media p.bytes (Nat.le_refl _)
    rw [Publication.push_short hlen]
    refine ⟨(hsub.trans hqueued).append (.refl _), ?_⟩
    rw [List.filter_append]
    refine List.Sublist.append ?_ List.filter_sublist
    -- making room only takes out what is no sequence header
    have hboth := hkept.filter (·.isSequenceHeader)
    rw [List.filter_filter, ← hheaders] at hboth
    have hsame : (received streamId seen).filter (fun m => m.isSequenceHeader && m.isKept) =
        (received streamId seen).filter (·.isKept) := by
      congr 1
      funext m
      cases hm : m.isSequenceHeader <;> simp [PendingPublishMedia.isKept, hm]
    rw [hsame] at hboth
    exact hboth.trans List.filter_sublist
  · rw [Publication.push_long (Nat.lt_of_not_le hlen)]
    refine ⟨hqueued.trans (List.sublist_append_left _ _), ?_⟩
    simpa [PendingPublishMedia.isKept, hlen] using hkept

theorem push_active (m : PendingPublishMedia) (p : Publication) :
    (p.push m).active = p.active ∧ (p.push m).pending = p.pending := by
  unfold Publication.push
  split
  · exact ⟨rfl, rfl⟩
  · exact ⟨rfl, rfl⟩

theorem forget_other {p : Publication} (h : p.pending ≠ some streamId) :
    p.forget streamId =
      { p with active := if p.active = some streamId then none else p.active } := by
  by_cases hactive : p.active = some streamId
  · simp [Publication.forget, Publication.reject, h, hactive]
  · simp [Publication.forget, Publication.reject, h, hactive]

/-- An entry that concerns other streams only. -/
theorem Waiting.other (hw : Waiting streamId seen s) (hdelivered : e.delivered? streamId = none)
    (hreceived : e.received? streamId = none) (hpending : t.publication.pending = some streamId)
    (hactive : t.publication.active ≠ some streamId)
    (hmedia : t.publication.media = s.publication.media)
    (hdue : ∀ m ∈ t.due, m.streamId ≠ streamId) : Waiting streamId (seen ++ [e]) t where
  pending := hpending
  inactive := hactive
  due := hdue
  delivered := (delivered_snoc_none seen hdelivered).trans hw.delivered
  queued := by
    rw [received_snoc_none seen hreceived, hmedia]
    exact hw.queued
  kept := by
    rw [received_snoc_none seen hreceived, hmedia]
    exact hw.kept

theorem Waiting.receive (hw : Waiting streamId seen s) (m : PendingPublishMedia) :
    Waiting streamId (seen ++ [.received m])
      ⟨(s.publication.receive m).1, (s.publication.receive m).2⟩ := by
  by_cases hm : m.streamId = streamId
  · have hreceive : s.publication.receive m = (s.publication.push m, []) := by
      rw [Publication.receive, hm, if_neg hw.inactive, if_pos hw.pending]
    obtain ⟨hactive, hpending⟩ := push_active m s.publication
    obtain ⟨hqueued, hkept⟩ := push_waiting (m := m) hw.queued hw.kept
    rw [hreceive]
    exact ⟨hpending.trans hw.pending, hactive ▸ hw.inactive, List.forall_mem_nil _,
      (delivered_snoc_none seen rfl).trans hw.delivered,
      by rwa [received_snoc seen hm], by rwa [received_snoc seen hm]⟩
  · have hnone : (Entry.received m).received? streamId = none := if_neg hm
    unfold Publication.receive
    split
    · exact hw.other rfl hnone hw.pending hw.inactive rfl (List.forall_mem_singleton.mpr hm)
    split
    · rename_i hpending
      rw [hw.pending] at hpending
      exact absurd (Option.some.inj hpending).symm hm
    · exact hw.other rfl hnone hw.pending hw.inactive rfl (List.forall_mem_nil _)

theorem Waiting.obey (hw : Waiting streamId seen s) (c : RtmpCoreCommand)
    (hcuts : (Entry.command c).cuts streamId = false)
    (hanswers : (Entry.command c).answers streamId = false) :
    Waiting streamId (seen ++ [.command c])
      ⟨(s.publication.obey c).1, (s.publication.obey c).2⟩ := by
  have hkeep (id : UInt32) (h : decide (id = streamId) = false) :
      s.publication.pending ≠ some id := by
    rw [hw.pending]
    rintro ⟨⟩
    simp at h
  have hsame : Waiting streamId (seen ++ [.command c]) ⟨s.publication, []⟩ :=
    hw.other rfl rfl hw.pending hw.inactive rfl (List.forall_mem_nil _)
  cases c with
  | acceptPublish id =>
    have hne : id ≠ streamId := by simpa [Entry.answers] using hanswers
    simp only [Publication.obey, Publication.accept, if_neg (hkeep id hanswers)]
    exact hw.other rfl rfl hw.pending (by simpa using hne) rfl (List.forall_mem_nil _)
  | rejectPublish id description =>
    simp only [Publication.obey, Publication.reject, if_neg (hkeep id hanswers)]
    exact hsame
  | closeConnection => cases hcuts
  | clientObserveMediaData id timestampMs mediaType payload =>
    have hne : id ≠ streamId := by simpa [Entry.cuts] using hcuts
    exact hw.other rfl rfl hw.pending hw.inactive rfl (List.forall_mem_singleton.mpr hne)
  | _ => exact hsame

theorem Waiting.announce (hw : Waiting streamId seen s) (out : Emission)
    (hmedia : ∀ i t ty b, out ≠ .event (.mediaData i t ty b))
    (hcuts : (Entry.put out).cuts streamId = false) :
    Waiting streamId (seen ++ [.put out]) ⟨s.publication.announce out, []⟩ := by
  have hnone : (Entry.put out).delivered? streamId = none := delivered_none_of_put hmedia
  unfold Publication.announce
  split
  · cases hcuts
  · rename_i id
    have hpending : s.publication.pending ≠ some id := by
      rw [hw.pending]
      rintro ⟨⟩
      simp [Entry.cuts] at hcuts
    rw [forget_other hpending]
    refine hw.other hnone rfl hw.pending ?_ rfl (List.forall_mem_nil _)
    dsimp only
    split
    · nofun
    · exact hw.inactive
  · exact hw.other hnone rfl hw.pending hw.inactive rfl (List.forall_mem_nil _)

theorem Waiting.step (hw : Waiting streamId seen s)
    (he : e.cuts streamId = false ∧ e.answers streamId = false)
    (h : publishing s e = some (t, es)) : Waiting streamId (seen ++ [e]) t := by
  rcases step_cases h with ⟨-, m, rfl, rfl⟩ | ⟨-, c, rfl, rfl⟩ | ⟨-, out, rfl, hmedia, rfl⟩ |
    ⟨m, due, hdue, rfl, rfl⟩
  · exact hw.receive m
  · exact hw.obey c he.1 he.2
  · exact hw.announce out hmedia he.1
  · have hall := hw.due
    rw [hdue] at hall
    obtain ⟨hm, hrest⟩ := List.forall_mem_cons.mp hall
    exact hw.other (if_neg hm) rfl hw.pending hw.inactive rfl hrest

/-- An entry that leaves the stream active, with what it makes due and what it
delivers in balance. -/
theorem Serving.next (hs : Serving streamId queue seen s)
    (hactive : t.publication.active = some streamId) (hpending : t.publication.pending = none)
    (hdue : s.due = []) (hdelivered : e.delivered? streamId = none)
    (hbalance : t.due.filter (·.streamId = streamId) = (e.received? streamId).toList) :
    Serving streamId queue (seen ++ [e]) t where
  active := hactive
  pending := hpending
  balance := by
    have hold := hs.balance
    rw [hdue, List.filter_nil, List.map_nil, List.append_nil] at hold
    have hreceived : received streamId (seen ++ [e]) =
        received streamId seen ++ (e.received? streamId).toList := by
      cases he : e.received? streamId <;> simp [received, he]
    rw [delivered_snoc_none seen hdelivered, hold, hbalance, hreceived, List.map_append,
      List.append_assoc]

theorem Serving.receive (hs : Serving streamId queue seen s) (hdue : s.due = [])
    (m : PendingPublishMedia) : Serving streamId queue (seen ++ [.received m])
      ⟨(s.publication.receive m).1, (s.publication.receive m).2⟩ := by
  by_cases hm : m.streamId = streamId
  · have hreceive : s.publication.receive m = (s.publication, [m]) := by
      rw [Publication.receive, hm, if_pos hs.active]
    rw [hreceive]
    exact hs.next hs.active hs.pending hdue rfl (by simp [Entry.received?, hm])
  · have hreceive : s.publication.receive m = (s.publication, []) := by
      have hactive : s.publication.active ≠ some m.streamId := by
        rw [hs.active]
        rintro ⟨⟩
        exact hm rfl
      rw [Publication.receive, if_neg hactive, hs.pending, if_neg nofun]
    rw [hreceive]
    exact hs.next hs.active hs.pending hdue rfl (by simp [Entry.received?, hm])

theorem Serving.obey (hs : Serving streamId queue seen s) (hdue : s.due = [])
    (c : RtmpCoreCommand) (hcuts : (Entry.command c).cuts streamId = false)
    (hdisplaces : (Entry.command c).displaces streamId = false) :
    Serving streamId queue (seen ++ [.command c])
      ⟨(s.publication.obey c).1, (s.publication.obey c).2⟩ := by
  have hkeep (id : UInt32) : s.publication.pending ≠ some id := by
    rw [hs.pending]
    nofun
  have hsame : Serving streamId queue (seen ++ [.command c]) ⟨s.publication, []⟩ :=
    hs.next hs.active hs.pending hdue rfl rfl
  cases c with
  | acceptPublish id =>
    have hid : id = streamId := by simpa [Entry.displaces] using hdisplaces
    simp only [Publication.obey, Publication.accept, if_neg (hkeep id)]
    exact hs.next (congrArg some hid) hs.pending hdue rfl rfl
  | rejectPublish id description =>
    simp only [Publication.obey, Publication.reject, if_neg (hkeep id)]
    exact hsame
  | closeConnection => cases hcuts
  | clientObserveMediaData id timestampMs mediaType payload =>
    have hne : id ≠ streamId := by simpa [Entry.cuts] using hcuts
    exact hs.next hs.active hs.pending hdue rfl (by simp [Publication.obey, hne, Entry.received?])
  | _ => exact hsame

theorem Serving.announce (hs : Serving streamId queue seen s) (hdue : s.due = [])
    (out : Emission) (hmedia : ∀ i t ty b, out ≠ .event (.mediaData i t ty b))
    (hcuts : (Entry.put out).cuts streamId = false) :
    Serving streamId queue (seen ++ [.put out]) ⟨s.publication.announce out, []⟩ := by
  have hnone : (Entry.put out).delivered? streamId = none := delivered_none_of_put hmedia
  unfold Publication.announce
  split
  · cases hcuts
  · rename_i id
    have hne : id ≠ streamId := by simpa [Entry.cuts] using hcuts
    have hpending : s.publication.pending ≠ some id := by
      rw [hs.pending]
      nofun
    have hactive : s.publication.active ≠ some id := by
      rw [hs.active]
      rintro ⟨⟩
      exact hne rfl
    rw [forget_other hpending, if_neg hactive]
    exact hs.next hs.active hs.pending hdue hnone rfl
  · exact hs.next hs.active hs.pending hdue hnone rfl

theorem Serving.step (hs : Serving streamId queue seen s)
    (he : e.cuts streamId = false ∧ e.displaces streamId = false)
    (h : publishing s e = some (t, es)) : Serving streamId queue (seen ++ [e]) t := by
  rcases step_cases h with ⟨hdue, m, rfl, rfl⟩ | ⟨hdue, c, rfl, rfl⟩ |
    ⟨hdue, out, rfl, hmedia, rfl⟩ | ⟨m, due, hdue, rfl, rfl⟩
  · exact hs.receive hdue m
  · exact hs.obey hdue c he.1 he.2
  · exact hs.announce hdue out hmedia he.1
  · refine ⟨hs.active, hs.pending, ?_⟩
    have hreceived : received streamId (seen ++ [.put (.event m.event)]) =
        received streamId seen := received_snoc_none seen rfl
    rw [delivered_snoc_event, hreceived, ← hs.balance, hdue, List.append_assoc]
    congr 1
    by_cases hm : m.streamId = streamId
    · simp [hm]
    · simp [hm]

theorem accept_serving (hw : Waiting streamId seen s) (hsound : s.publication.Sound) :
    Serving streamId s.publication.media [.command (.acceptPublish streamId)]
      ⟨(s.publication.accept streamId).1, (s.publication.accept streamId).2⟩ := by
  have howned : s.publication.media.filter (·.streamId = streamId) = s.publication.media := by
    refine List.filter_eq_self.mpr fun m hm => ?_
    have hpending := hsound.owned m hm
    rw [hw.pending] at hpending
    simpa using (Option.some.inj hpending).symm
  rw [Publication.accept, if_pos hw.pending]
  refine ⟨rfl, rfl, ?_⟩
  have hnone : delivered streamId [.command (.acceptPublish streamId)] = [] := rfl
  have hnone' : received streamId [.command (.acceptPublish streamId)] = [] := rfl
  rw [hnone, hnone', howned, List.nil_append, List.map_nil, List.append_nil]

theorem request_waiting (hrequest : request.requests streamId = true)
    (h : publishing s request = some (t, es)) : Waiting streamId [] t := by
  unfold Entry.requests at hrequest
  split at hrequest
  · simp only [decide_eq_true_eq] at hrequest
    subst hrequest
    rcases step_cases h with ⟨-, m, he, -⟩ | ⟨-, c, he, -⟩ | ⟨-, out, he, -, rfl⟩ |
      ⟨m, due, -, he, -⟩
    · cases he
    · cases he
    · cases he
      exact ⟨rfl, nofun, List.forall_mem_nil _, rfl, .slnil, .slnil⟩
    · cases he
  · cases hrequest

theorem eq_of_accepts {accept : Entry} (h : accept.accepts streamId = true) :
    accept = .command (.acceptPublish streamId) := by
  unfold Entry.accepts at h
  split at h
  · simp only [decide_eq_true_eq] at h
    rw [h]
  · cases h

/-- What a stream publishes between its request and the end of the journal: all that is
delivered arrived, in this order, and no sequence header is missing that is not too long. -/
theorem delivery (hsound : s.publication.Sound)
    (hrun : Transition.run publishing s (pre ++ request :: (mid ++ accept :: post)) =
      some (t, es)) (hdue : t.due = []) (hrequest : request.requests streamId = true)
    (haccept : accept.accepts streamId = true)
    (hmid : ∀ e ∈ mid, e.cuts streamId = false ∧ e.answers streamId = false)
    (hpost : ∀ e ∈ post, e.cuts streamId = false ∧ e.displaces streamId = false) :
    (delivered streamId (mid ++ accept :: post)).Sublist
        ((received streamId (mid ++ accept :: post)).map PendingPublishMedia.event) ∧
      (((received streamId (mid ++ accept :: post)).filter (·.isKept)).map
        PendingPublishMedia.event).Sublist (delivered streamId (mid ++ accept :: post)) := by
  rw [eq_of_accepts haccept] at hrun ⊢
  obtain ⟨s₁, _, _, hpre, hrest, _⟩ := Transition.run_append_eq hrun
  obtain ⟨s₂, _, _, hrequested, hrest, _⟩ := Transition.run_cons_eq hrest
  obtain ⟨s₃, _, _, hrunMid, hrest, _⟩ := Transition.run_append_eq hrest
  obtain ⟨s₄, _, _, haccepted, hrunPost, _⟩ := Transition.run_cons_eq hrest
  have hsound₃ : s₃.publication.Sound :=
    run_sound (step_sound (run_sound hsound hpre) hrequested) hrunMid
  have hwaiting : Waiting streamId ([] ++ mid) s₃ :=
    Transition.run_followed (Waiting streamId) (fun _ _ _ _ _ hw he hstep => hw.step he hstep)
      [] (request_waiting hrequest hrequested) (Transition.along_of_forall hmid) hrunMid
  rw [List.nil_append] at hwaiting
  have hstart : Serving streamId s₃.publication.media [.command (.acceptPublish streamId)] s₄ := by
    rcases step_cases haccepted with ⟨-, m, he, -⟩ | ⟨-, c, he, rfl⟩ | ⟨-, out, he, -, -⟩ |
      ⟨m, due, -, he, -⟩
    · cases he
    · cases he
      exact accept_serving hwaiting hsound₃
    · cases he
    · cases he
  have hserving := Transition.run_followed (Serving streamId s₃.publication.media)
    (fun _ _ _ _ _ hs he hstep => hs.step he hstep) _ hstart
    (Transition.along_of_forall hpost) hrunPost
  have hbalance := hserving.balance
  rw [hdue, List.filter_nil, List.map_nil, List.append_nil] at hbalance
  have hdelivered : delivered streamId (mid ++ .command (.acceptPublish streamId) :: post) =
      delivered streamId ([.command (.acceptPublish streamId)] ++ post) := by
    have hnone := hwaiting.delivered
    unfold delivered at hnone ⊢
    rw [List.filterMap_append, hnone]
    rfl
  have hreceived : received streamId (mid ++ .command (.acceptPublish streamId) :: post) =
      received streamId mid ++ received streamId ([.command (.acceptPublish streamId)] ++ post) :=
    List.filterMap_append
  rw [hdelivered, hreceived, hbalance, List.filter_append, List.map_append, List.map_append]
  exact ⟨(hwaiting.queued.map _).append (.refl _),
    (hwaiting.kept.map _).append (List.filter_sublist.map _)⟩

end Delivery

end Publishing

end CheetahMedia.Rtmp
