import CheetahMedia.Rtmp.Core.Journal
import CheetahMedia.Rtmp.Core.Session

namespace CheetahMedia.Rtmp.RtmpCore
open Lib

section Runs

/-- A core as it is made, for a server or for a client. -/
def Fresh (core : RtmpCore) : Prop := core = new ∨ core = newClient

theorem Fresh.publication (h : Fresh core) : core.publication = {} := by
  rcases h with rfl | rfl
  · rfl
  · rfl

theorem journal_run (h : Fresh core) (inputs : List CoreInput) : ∃ es,
    Transition.run publishing ⟨{}, []⟩ (journal core inputs) =
      some (⟨(after core inputs).publication, []⟩, es) := by
  obtain ⟨es, hrun⟩ := journal_follows inputs core
  rw [h.publication] at hrun
  exact ⟨es, hrun⟩

theorem after_sound (h : Fresh core) (inputs : List CoreInput) :
    (after core inputs).publication.Sound := by
  obtain ⟨es, hrun⟩ := journal_run h inputs
  exact Publishing.run_sound Publication.Sound.initial hrun

/-- As long as no input fails, the caller sees what the journal says was put out. -/
theorem journal_log (inputs : List CoreInput) (core : RtmpCore)
    (h : (runInputs core inputs).stop = none) :
    (journal core inputs).filterMap Entry.put? = (runInputs core inputs).log := by
  induction inputs generalizing core with
  | nil => rfl
  | cons input inputs ih =>
    have hrun := noteInput_run input core
    cases hresult : ((noteInput input).run core).2.2 with
    | error stop =>
      rw [hresult] at hrun
      simp [runInputs, hrun] at h
    | ok u =>
      rw [hresult] at hrun
      simp only [runInputs, hrun] at h ⊢
      rw [journal, List.filterMap_append, hrun, ih _ h]

end Runs

/-- In every state that a core reaches, the queue belongs to the pending stream, its
bytes are counted, and no stream is both active and pending. From the request of a stream
to the end of its publish, what is delivered for it arrived, in this order, and no
sequence header of at most the size of the queue is missing. -/
theorem publish_buffered (hcore : Fresh core) (inputs : List CoreInput) :
    let reached := after core inputs
    (reached.pendingMedia ≠ [] → ∃ streamId, reached.pendingPublish = some streamId ∧
        ∀ m ∈ reached.pendingMedia, m.streamId = streamId) ∧
      reached.pendingMediaBytes = pendingPayload reached.pendingMedia ∧
      (∀ streamId, reached.activePublish = some streamId →
        reached.pendingPublish ≠ some streamId) ∧
      ((runInputs core inputs).stop = none →
        (journal core inputs).filterMap Entry.put? = (runInputs core inputs).log) ∧
      ∀ pre request mid accept post streamId,
        journal core inputs = pre ++ request :: (mid ++ accept :: post) →
        request.requests streamId = true → accept.accepts streamId = true →
        (∀ e ∈ mid, e.cuts streamId = false ∧ e.answers streamId = false) →
        (∀ e ∈ post, e.cuts streamId = false ∧ e.displaces streamId = false) →
        (delivered streamId (mid ++ accept :: post)).Sublist
            ((received streamId (mid ++ accept :: post)).map PendingPublishMedia.event) ∧
          (((received streamId (mid ++ accept :: post)).filter (·.isKept)).map
            PendingPublishMedia.event).Sublist (delivered streamId (mid ++ accept :: post)) := by
  intro reached
  have hsound := after_sound hcore inputs
  refine ⟨fun hne => ?_, hsound.counted, hsound.apart, journal_log inputs core, ?_⟩
  · obtain ⟨m, hm⟩ := List.exists_mem_of_ne_nil _ hne
    refine ⟨m.streamId, hsound.owned m hm, fun m' hm' => ?_⟩
    have hpending := (hsound.owned m' hm').symm.trans (hsound.owned m hm)
    exact Option.some.inj hpending
  · intro pre request mid accept post streamId hsplit hrequest haccept hmid hpost
    obtain ⟨es, hrun⟩ := journal_run hcore inputs
    rw [hsplit] at hrun
    exact Publishing.delivery Publication.Sound.initial hrun rfl hrequest haccept hmid hpost

/-- A request to publish on a stream, as a message in one chunk. -/
def publishMessage (streamId : UInt8) : Bytes :=
  [3, 0, 0, 0, 0, 0, 24, 20, streamId, 0, 0, 0,
    2, 0, 7, 112, 117, 98, 108, 105, 115, 104, 0, 64, 20, 0, 0, 0, 0, 0, 0, 5, 2, 0, 1, 97]

/-- An AAC sequence header on a stream. -/
def headerMessage (streamId : UInt8) : Bytes :=
  [4, 0, 0, 0, 0, 0, 2, 8, streamId, 0, 0, 0, 0xA0, 0]

section Splitting

/-- The entries up to the first of a kind, and those after it. -/
def before (p : Entry → Bool) (es : List Entry) : List Entry := es.takeWhile fun e => !p e

def beyond (p : Entry → Bool) (es : List Entry) : List Entry := (es.dropWhile fun e => !p e).tail

theorem split_first (p : Entry → Bool) (es : List Entry) (h : es.any p = true) :
    ∃ e, p e = true ∧ es = before p es ++ e :: beyond p es := by
  induction es with
  | nil => cases h
  | cons e es ih =>
    cases he : p e with
    | true => exact ⟨e, he, by simp [before, beyond, he]⟩
    | false =>
      rw [List.any_cons, he, Bool.false_or] at h
      obtain ⟨e', he', hsplit⟩ := ih h
      refine ⟨e', he', ?_⟩
      simp only [before, beyond, List.takeWhile_cons, List.dropWhile_cons, he, Bool.not_false,
        if_true, List.cons_append, List.cons.injEq, true_and]
      exact hsplit

end Splitting

/-- A sequence header before the stream is accepted and one after. -/
def acceptedInputs : List CoreInput :=
  [.bytes clientHandshake, .bytes (publishMessage 1), .bytes (headerMessage 1),
    .command (.acceptPublish 1), .bytes (headerMessage 1)]

theorem publish_buffered_header :
    let published := beyond (Entry.requests 1) (journal new acceptedInputs)
    (received 1 published).length = 2 ∧
      (((received 1 published).filter (·.isKept)).map PendingPublishMedia.event).Sublist
        (delivered 1 published) := by
  intro published
  obtain ⟨request, hrequest, hsplit⟩ :=
    split_first (Entry.requests 1) (journal new acceptedInputs) (by decide +kernel)
  obtain ⟨accept, haccept, hpublished⟩ :=
    split_first (Entry.accepts 1) published (by decide +kernel)
  have hsublist := (publish_buffered (.inl rfl) acceptedInputs).2.2.2.2 _ request _ accept _ 1
    (hsplit.trans (congrArg _ (congrArg _ hpublished))) hrequest haccept
    (by decide +kernel) (by decide +kernel)
  rw [← hpublished] at hsublist
  exact ⟨by decide +kernel, hsublist.2⟩

/-- The first stream is accepted when the request of a second one has already emptied
the queue. -/
def supersededInputs : List CoreInput :=
  [.bytes clientHandshake, .bytes (publishMessage 1), .bytes (headerMessage 1),
    .bytes (publishMessage 2), .command (.acceptPublish 1)]

theorem superseded_header_lost : ¬ ∀ (inputs : List CoreInput) pre request mid accept post streamId,
    (runInputs new inputs).stop = none →
    journal new inputs = pre ++ request :: (mid ++ accept :: post) →
    request.requests streamId = true → accept.accepts streamId = true →
    (delivered streamId (mid ++ accept :: post)).Sublist
        ((received streamId (mid ++ accept :: post)).map PendingPublishMedia.event) ∧
      (((received streamId (mid ++ accept :: post)).filter (·.isSequenceHeader)).map
        PendingPublishMedia.event).Sublist (delivered streamId (mid ++ accept :: post)) := by
  intro hclaim
  let published := beyond (Entry.requests 1) (journal new supersededInputs)
  obtain ⟨request, hrequest, hsplit⟩ :=
    split_first (Entry.requests 1) (journal new supersededInputs) (by decide +kernel)
  obtain ⟨accept, haccept, hpublished⟩ :=
    split_first (Entry.accepts 1) published (by decide +kernel)
  have hsublist := hclaim supersededInputs _ request _ accept _ 1 (by decide +kernel)
    (hsplit.trans (congrArg _ (congrArg _ hpublished))) hrequest haccept
  rw [← hpublished] at hsublist
  have hheaders : (((received 1 published).filter (·.isSequenceHeader)).map
      PendingPublishMedia.event).length = 1 := by decide +kernel
  have hnone : (delivered 1 published).length = 0 := by decide +kernel
  have hle := hsublist.2.length_le
  omega

/-- As long as the sequence headers in the queue leave room for what arrives, the queue
keeps to its limits. -/
theorem pending_media_bounded (hcore : Fresh core) (inputs : List CoreInput)
    (hroom : Transition.Along publishing Publishing.Roomy ⟨core.publication, []⟩
      (journal core inputs)) :
    (after core inputs).pendingMedia.length ≤ MAX_PENDING_PUBLISH_MEDIA_EVENTS ∧
      pendingPayload (after core inputs).pendingMedia ≤ MAX_PENDING_PUBLISH_MEDIA_BYTES := by
  rw [hcore.publication] at hroom
  obtain ⟨es, hrun⟩ := journal_run hcore inputs
  exact Publishing.run_roomy hroom Publication.Sound.initial (Publishing.bounded_nil rfl) hrun

theorem pending_media_bounded_header :
    (after new [.bytes clientHandshake, .bytes (publishMessage 1),
        .bytes (headerMessage 1)]).pendingMedia.length ≤ MAX_PENDING_PUBLISH_MEDIA_EVENTS ∧
      pendingPayload (after new [.bytes clientHandshake, .bytes (publishMessage 1),
        .bytes (headerMessage 1)]).pendingMedia ≤ MAX_PENDING_PUBLISH_MEDIA_BYTES :=
  pending_media_bounded (.inl rfl) _ (by decide +kernel)

/-- A publisher that is not accepted sends the same sequence header over and over. -/
def headerFlood : List CoreInput :=
  [.bytes clientHandshake, .bytes (publishMessage 1), .bytes (headerMessage 1)] ++
    List.replicate 256 (.bytes [0xC4, 0xA0, 0])

theorem headers_exceed_queue : ¬ ∀ inputs : List CoreInput,
    (after new inputs).pendingMedia.length ≤ MAX_PENDING_PUBLISH_MEDIA_EVENTS ∧
      pendingPayload (after new inputs).pendingMedia ≤ MAX_PENDING_PUBLISH_MEDIA_BYTES := by
  intro hclaim
  have hlength : (after new headerFlood).pendingMedia.length = 257 := by decide +kernel
  have hbound := (hclaim headerFlood).1
  rw [hlength] at hbound
  exact absurd hbound (by decide)

end CheetahMedia.Rtmp.RtmpCore
