import CheetahMedia.Rtmp.Core.Quiet

namespace CheetahMedia.Rtmp
open Lib
open Lib.Handler hiding pure

/-- A handler of the core that keeps a journal. -/
abbrev Journaled (α : Type) := Handler RtmpCore Entry Stop α

def Entry.put? : Entry → Option Emission
  | .put out => some out
  | _ => none

/-- The media that a message carries. A notification that is empty counts as media. -/
def RtmpChunk.media? (msg : RtmpChunk) : Option PendingPublishMedia :=
  let media (mediaType : RtmpMediaType) : PendingPublishMedia :=
    ⟨msg.messageStreamId.id, msg.timestamp.millis, mediaType, msg.payload,
      isSequenceHeader mediaType msg.payload⟩
  let data (amfVersion : AmfVersion) : Option PendingPublishMedia :=
    match onNotifyMessage msg.messageStreamId.id msg.payload amfVersion with
    | .ok none => some (media .data)
    | _ => none
  match msg.messageType with
  | .audio => some (media .audio)
  | .video => some (media .video)
  | .dataAmf3 => data .amf3
  | .dataAmf0 => data .amf0
  | _ => none

namespace RtmpCore

section Noting

/-- The journal of a handler that takes in no media and obeys no command. -/
def noting (m : CoreHandler α) : Journaled α := m.observe fun out => some (.put out)

def noteMedia (msg : RtmpChunk) : Journaled Unit :=
  match msg.media? with
  | some media => Handler.emit (.received media)
  | none => pure ()

def noteMessage : Nat → RtmpChunk → Journaled Unit
  | 0, _ => pure ()
  | depth + 1, msg =>
    match msg.messageType with
    | .aggregate => Handler.forEach (noteMessage depth) msg.subMessages
    | _ => do
      noteMedia msg
      noting (onMessageWithin (depth + 1) msg)

def noteReady : Nat → Journaled Unit
  | 0 => pure ()
  | calls + 1 => do
    match ← Handler.modifyGet decodeInput with
    | .ok (some chunk) => do
      noteMessage (chunk.payload.length + 1) chunk
      noteReady calls
    | .ok none => noteReady calls
    | .error e => if e.IsShort then pure () else Handler.fail (.ofError e)

def noteReadyBytes (bytes : Bytes) : Journaled Unit := do
  noting (acknowledge bytes.length)
  Handler.modify fun core => { core with inputBuf := core.inputBuf.feed bytes }
  let pending ← Handler.gets (·.inputBuf.get.length)
  noteReady (pending + 1)

def noteFinish : Journaled Unit := do
  let remaining ← Handler.modifyGet takeRemaining
  noting startSession
  Handler.when (!remaining.isEmpty) (noteReadyBytes remaining)

def noteHandshake (bytes : Bytes) : Journaled Unit := do
  match ← Handler.modifyGet (feedHandshake bytes) with
  | .failed e => Handler.fail (.error e)
  | .written pending complete => do
    noting (emitHandshake pending)
    Handler.when complete noteFinish

def noteBytes (bytes : Bytes) : Journaled Unit := do
  match ← Handler.gets (·.state) with
  | .handshaking | .waitC2 => noteHandshake bytes
  | .ready => noteReadyBytes bytes
  | .closed => pure ()

def noteCommand (command : RtmpCoreCommand) : Journaled Unit := do
  Handler.emit (.command command)
  noting (onCommand command)

def noteInput : CoreInput → Journaled Unit
  | .bytes bytes => noteBytes bytes
  | .timeout _ => pure ()
  | .command command => noteCommand command

/-- The state after some inputs, whether they succeed or not. -/
def after (core : RtmpCore) (inputs : List CoreInput) : RtmpCore :=
  inputs.foldl (fun core input => ((onInput input).run core).1) core

/-- The journal of some inputs. -/
def journal (core : RtmpCore) : List CoreInput → List Entry
  | [] => []
  | input :: inputs =>
    ((noteInput input).run core).2.1 ++ journal ((onInput input).run core).1 inputs

end Noting

section Erasure

theorem erase_noting (m : CoreHandler α) : (noting m).observe Entry.put? = m :=
  observe_observe (fun out => Entry.put out) Entry.put? (fun _ => rfl) m

theorem erase_noteMedia (msg : RtmpChunk) :
    (noteMedia msg).observe Entry.put? = (pure () : CoreHandler Unit) := by
  unfold noteMedia
  split
  · rfl
  · rfl

theorem erase_noteMessage (depth : Nat) (msg : RtmpChunk) :
    (noteMessage depth msg).observe Entry.put? = onMessageWithin depth msg := by
  induction depth generalizing msg with
  | zero => rfl
  | succ depth ih =>
    unfold noteMessage
    split
    · rename_i htype
      rw [observe_forEach]
      unfold onMessageWithin
      rw [htype]
      congr 1
      funext sub
      exact ih sub
    · rw [observe_bind, erase_noteMedia, Handler.pure_bind, erase_noting]

theorem erase_noteReady (calls : Nat) :
    (noteReady calls).observe Entry.put? = readyLoop calls := by
  induction calls with
  | zero => rfl
  | succ calls ih =>
    unfold noteReady readyLoop
    rw [observe_bind]
    congr 1
    funext r
    cases r with
    | error e =>
      dsimp only
      split
      · rfl
      · rfl
    | ok chunk =>
      cases chunk with
      | none => exact ih
      | some chunk =>
        dsimp only
        rw [observe_bind, erase_noteMessage, ih]
        rfl

theorem erase_noteReadyBytes (bytes : Bytes) :
    (noteReadyBytes bytes).observe Entry.put? = processReadyBytes bytes := by
  unfold noteReadyBytes processReadyBytes
  simp only [observe_bind, erase_noting, erase_noteReady]
  rfl

theorem erase_noteFinish : noteFinish.observe Entry.put? = finishHandshake := by
  unfold noteFinish finishHandshake
  simp only [observe_bind, observe_when, erase_noting, erase_noteReadyBytes]
  rfl

theorem erase_noteHandshake (bytes : Bytes) :
    (noteHandshake bytes).observe Entry.put? = tryHandshake bytes := by
  unfold noteHandshake tryHandshake
  rw [observe_bind]
  congr 1
  funext r
  cases r with
  | failed e => rfl
  | written pending complete =>
    dsimp only
    rw [observe_bind, observe_when, erase_noting, erase_noteFinish]

theorem erase_noteBytes (bytes : Bytes) :
    (noteBytes bytes).observe Entry.put? = onBytes bytes := by
  unfold noteBytes onBytes
  rw [observe_bind]
  congr 1
  funext state
  cases state with
  | handshaking => exact erase_noteHandshake bytes
  | waitC2 => exact erase_noteHandshake bytes
  | ready => exact erase_noteReadyBytes bytes
  | closed => rfl

/-- Without the notes of what comes in, the journal is what the core does. -/
theorem erase_noteInput (input : CoreInput) :
    (noteInput input).observe Entry.put? = onInput input := by
  cases input with
  | bytes bytes => exact erase_noteBytes bytes
  | timeout id => rfl
  | command command =>
    show (noteCommand command).observe Entry.put? = onCommand command
    unfold noteCommand
    rw [observe_bind, erase_noting]
    exact Handler.pure_bind () fun _ => onCommand command

theorem noteInput_run (input : CoreInput) (core : RtmpCore) :
    (onInput input).run core = (((noteInput input).run core).1,
      ((noteInput input).run core).2.1.filterMap Entry.put?, ((noteInput input).run core).2.2) := by
  rw [← erase_noteInput, observe_run]

end Erasure

section Refinement

/-- The journal is a run of publishing between the publications before and after, with
nothing left due. -/
def Follows (m : Journaled α) : Prop := ∀ core, ∃ es,
  Transition.run publishing ⟨core.publication, []⟩ (m.run core).2.1 =
    some (⟨(m.run core).1.publication, []⟩, es)

namespace Follows

theorem silent {m : Journaled α} (h : ∀ core, (m.run core).2.1 = [] ∧
    (m.run core).1.publication = core.publication) : Follows m := by
  intro core
  obtain ⟨hout, hpublication⟩ := h core
  exact ⟨[], by rw [hout, hpublication]; rfl⟩

theorem pure (a : α) : Follows (Pure.pure a) := silent fun _ => ⟨rfl, rfl⟩

theorem fail (stop : Stop) : Follows (Handler.fail stop : Journaled α) :=
  silent fun _ => ⟨rfl, rfl⟩

theorem bind {m : Journaled α} {f : α → Journaled β} (hm : Follows m)
    (hf : ∀ a, Follows (f a)) : Follows (m >>= f) := by
  intro core
  obtain ⟨es, hrun⟩ := hm core
  rcases h : m.run core with ⟨core', out, r⟩
  rw [h] at hrun
  cases r with
  | error stop =>
    rw [bind_error h]
    exact ⟨es, hrun⟩
  | ok a =>
    obtain ⟨es', hrun'⟩ := hf a core'
    rw [bind_ok h]
    exact ⟨es ++ es', by rw [Transition.run_append _ _ hrun, hrun']; rfl⟩

theorem forEach {f : α → Journaled Unit} (hf : ∀ a, Follows (f a)) (as : List α) :
    Follows (Handler.forEach f as) := by
  induction as with
  | nil => exact pure ()
  | cons a as ih => exact bind (hf a) fun _ => ih

theorem when {m : Journaled Unit} (b : Bool) (hm : Follows m) : Follows (Handler.when b m) := by
  cases b with
  | true => exact hm
  | false => exact pure ()

end Follows

/-- What is calm does not move the publication. -/
theorem run_calm (p : Publication) (outs : List Emission) (h : ∀ out ∈ outs, out.Calm) :
    Transition.run publishing ⟨p, []⟩ (outs.map Entry.put) = some (⟨p, []⟩, []) := by
  induction outs with
  | nil => rfl
  | cons out outs ih =>
    obtain ⟨hout, hrest⟩ := List.forall_mem_cons.mp h
    have hstep : publishing ⟨p, []⟩ (.put out) = some (⟨p, []⟩, []) := by
      cases out with
      | handshake bytes => rfl
      | message sent bytes => rfl
      | event event => cases event <;> first | rfl | exact False.elim hout
    simp only [List.map_cons, Transition.run, hstep, ih hrest]
    rfl

theorem noting_run (m : CoreHandler α) (core : RtmpCore) : (noting m).run core =
    ((m.run core).1, (m.run core).2.1.map Entry.put, (m.run core).2.2) := by
  rw [noting, observe_run, List.filterMap_eq_map']

theorem Quiet.follows {m : CoreHandler α} (h : Quiet m) : Follows (noting m) := by
  intro core
  obtain ⟨hpublication, hcalm⟩ := h core
  exact ⟨[], by rw [noting_run, hpublication, run_calm _ _ hcalm]⟩

theorem handleMediaInput_run (streamId timestampMs : UInt32) (mediaType : RtmpMediaType)
    (payload : Bytes) (core : RtmpCore) :
    (handleMediaInput streamId timestampMs mediaType payload).run core =
      if core.activePublish = some streamId then
        (core, [.event (.mediaData streamId timestampMs mediaType payload)], .ok ())
      else if core.pendingPublish = some streamId then
        (core.pushPendingPublishMedia
          ⟨streamId, timestampMs, mediaType, payload, isSequenceHeader mediaType payload⟩,
          [], .ok ())
      else (core, [.event (.messageIgnored "MediaData"
        (.text s!"media from unauthenticated stream_id={streamId} dropped"))], .ok ()) := by
  unfold handleMediaInput
  rw [gets_bind, gets_bind]
  split
  · rfl
  split
  · rfl
  · rfl

theorem pushPendingPublishMedia_publication (m : PendingPublishMedia) (core : RtmpCore) :
    (core.pushPendingPublishMedia m).publication = core.publication.push m := by
  unfold pushPendingPublishMedia Publication.push
  dsimp only
  split
  · rfl
  · rfl

/-- Media is delivered, kept or ignored as publishing has it. -/
theorem media_follows (streamId timestampMs : UInt32) (mediaType : RtmpMediaType)
    (payload : Bytes) : Follows (Handler.emit (.received
      ⟨streamId, timestampMs, mediaType, payload, isSequenceHeader mediaType payload⟩) >>= fun _ =>
        noting (handleMediaInput streamId timestampMs mediaType payload)) := by
  intro core
  have hreceived : (Handler.emit (.received ⟨streamId, timestampMs, mediaType, payload,
      isSequenceHeader mediaType payload⟩) : Journaled Unit).run core =
        (core, [.received ⟨streamId, timestampMs, mediaType, payload,
          isSequenceHeader mediaType payload⟩], .ok ()) := rfl
  rw [bind_ok hreceived, noting_run, handleMediaInput_run]
  by_cases hactive : core.activePublish = some streamId
  · refine ⟨[], ?_⟩
    have hreceive : publishing ⟨core.publication, []⟩ (.received ⟨streamId, timestampMs, mediaType,
        payload, isSequenceHeader mediaType payload⟩) = some (⟨core.publication,
          [⟨streamId, timestampMs, mediaType, payload, isSequenceHeader mediaType payload⟩]⟩, []) := by
      simp [publishing, Publication.receive, publication, hactive]
    simp only [if_pos hactive, List.map_cons, List.map_nil, List.cons_append, List.nil_append,
      Transition.run, hreceive]
    simp [publishing]
  by_cases hpending : core.pendingPublish = some streamId
  · refine ⟨[], ?_⟩
    simp only [if_neg hactive, if_pos hpending, List.map_nil, List.append_nil, Transition.run,
      pushPendingPublishMedia_publication]
    simp [publishing, Publication.receive, publication, hactive, hpending]
  · refine ⟨[], ?_⟩
    simp only [if_neg hactive, if_neg hpending, List.map_cons, List.map_nil, List.cons_append,
      List.nil_append, Transition.run]
    simp [publishing, Publication.receive, publication, hactive, hpending, Publication.announce]

theorem noting_bind (m : CoreHandler α) (f : α → CoreHandler β) :
    noting (m >>= f) = noting m >>= fun a => noting (f a) := observe_bind _ m f

theorem handlePublishCommand_follows (streamId : UInt32) (streamName : String) :
    Follows (noting (handlePublishCommand streamId streamName)) :=
  fun _ => ⟨[], rfl⟩

theorem forgetStream_publication (streamId : UInt32) (core : RtmpCore) :
    (forgetStream streamId core).publication = core.publication.forget streamId := by
  by_cases hactive : core.activePublish = some streamId
  · by_cases hpending : core.pendingPublish = some streamId
    · simp [forgetStream, publication, Publication.forget, Publication.reject, hactive, hpending,
        clearPendingPublish, Publication.clear]
    · simp [forgetStream, publication, Publication.forget, Publication.reject, hactive, hpending]
  · by_cases hpending : core.pendingPublish = some streamId
    · simp [forgetStream, publication, Publication.forget, Publication.reject, hactive, hpending,
        clearPendingPublish, Publication.clear]
    · simp [forgetStream, publication, Publication.forget, Publication.reject, hactive, hpending]

theorem handleDeleteStreamCommand_follows (streamId : UInt32) :
    Follows (noting (handleDeleteStreamCommand streamId)) := by
  intro core
  refine ⟨[], ?_⟩
  have hrun : (handleDeleteStreamCommand streamId).run core =
      (forgetStream streamId core, [.event (.streamClosed streamId)], .ok ()) := rfl
  rw [noting_run, hrun, forgetStream_publication]
  rfl

theorem handleUnstructuredCommand_follows (command : DecodedCommand) (streamId : UInt32) :
    Follows (noting (handleUnstructuredCommand command streamId)) := by
  have hanswer {event : RtmpEvent} (h : Emission.Calm (.event event)) :
      Follows (noting (sendNullResult command.transactionIdRaw >>= fun _ => emitEvent event)) :=
    Quiet.follows (.bind (sendNullResult_quiet _) fun _ => emitEvent_quiet h)
  unfold handleUnstructuredCommand
  split
  · exact (handleConnectCommand_quiet _ _ _).follows
  · exact (handleCreateStreamCommand_quiet _).follows
  · exact (sendCommand_quiet _ _ _).follows
  · exact handlePublishCommand_follows _ _
  · exact (handlePlayCommand_quiet _ _).follows
  · exact (handlePlayCommand_quiet _ _).follows
  · exact handleDeleteStreamCommand_follows _
  · exact handleDeleteStreamCommand_follows _
  · exact hanswer trivial
  · exact hanswer trivial
  · exact hanswer trivial
  · exact hanswer trivial
  · exact hanswer trivial
  · exact hanswer trivial
  · exact Quiet.follows (emitEvent_quiet trivial)
  · exact Quiet.follows (emitEvent_quiet trivial)
  · exact Quiet.follows (emitEvent_quiet trivial)

theorem dispatchCommand_follows (streamId : UInt32) (command : DecodedCommand) :
    Follows (noting (dispatchCommand streamId command)) := by
  unfold dispatchCommand
  split
  · exact (handleConnectCommand_quiet _ _ _).follows
  · exact (handleCreateStreamCommand_quiet _).follows
  · exact (sendCommand_quiet _ _ _).follows
  · exact handlePublishCommand_follows _ _
  · exact (handlePlayCommand_quiet _ _).follows
  · exact handleDeleteStreamCommand_follows _
  · exact (emitResultReceived_quiet _).follows
  · exact (emitOnStatusReceived_quiet _).follows
  · exact handleUnstructuredCommand_follows _ _

theorem onCommandMessage_follows (streamId : UInt32) (payload : Bytes) (amfVersion : AmfVersion) :
    Follows (noting (onCommandMessage streamId payload amfVersion)) := by
  unfold onCommandMessage
  rw [noting_bind]
  refine .bind (Quiet.follows (.ofExcept _)) fun command => ?_
  split
  · exact Quiet.follows (.pure _)
  · exact dispatchCommand_follows _ _

theorem onCommandAmf3_follows (msg : RtmpChunk) : Follows (noting (onCommandAmf3 msg)) := by
  unfold onCommandAmf3
  rw [noting_bind]
  have hattempt : Follows (noting
      (Handler.attempt (onCommandMessage msg.messageStreamId.id msg.payload .amf3))) :=
    onCommandMessage_follows _ _ _
  refine .bind hattempt fun r => ?_
  split
  · exact Quiet.follows (.pure _)
  · exact (toleratingAmf0_quiet _).follows

theorem noteMedia_none (h : msg.media? = none) : noteMedia msg = Pure.pure () := by
  unfold noteMedia
  rw [h]

/-- A notification is an event, and an empty one is media. -/
theorem notify_follows (msg : RtmpChunk) (amfVersion : AmfVersion)
    (hmedia : msg.media? = match onNotifyMessage msg.messageStreamId.id msg.payload amfVersion with
      | .ok none => some ⟨msg.messageStreamId.id, msg.timestamp.millis, .data, msg.payload,
          isSequenceHeader .data msg.payload⟩
      | _ => none) (m : Stop → CoreHandler Unit) (hm : ∀ stop, Quiet (m stop)) :
    Follows (noteMedia msg >>= fun _ => noting
      (match onNotifyMessage msg.messageStreamId.id msg.payload amfVersion with
        | .ok event => handleNotify msg event
        | .error stop => m stop)) := by
  cases hnotify : onNotifyMessage msg.messageStreamId.id msg.payload amfVersion with
  | error stop =>
    rw [hnotify] at hmedia
    rw [noteMedia_none hmedia]
    exact .bind (.pure _) fun _ => (hm stop).follows
  | ok event =>
    rw [hnotify] at hmedia
    cases event with
    | some event =>
      rw [noteMedia_none hmedia]
      exact .bind (.pure _) fun _ => (emitEvent_quiet (onNotifyMessage_calm hnotify)).follows
    | none =>
      unfold noteMedia
      rw [hmedia]
      exact media_follows _ _ _ _

theorem noteMessage_follows (depth : Nat) (msg : RtmpChunk) : Follows (noteMessage depth msg) := by
  induction depth generalizing msg with
  | zero => exact .pure _
  | succ depth ih =>
    unfold noteMessage
    split
    · exact .forEach ih _
    · rename_i hne
      unfold onMessageWithin
      cases htype : msg.messageType with
      | aggregate => exact absurd htype hne
      | audio =>
        have hmedia : msg.media? = some ⟨msg.messageStreamId.id, msg.timestamp.millis, .audio,
            msg.payload, isSequenceHeader .audio msg.payload⟩ := by simp [RtmpChunk.media?, htype]
        unfold noteMedia
        rw [hmedia]
        exact media_follows _ _ _ _
      | video =>
        have hmedia : msg.media? = some ⟨msg.messageStreamId.id, msg.timestamp.millis, .video,
            msg.payload, isSequenceHeader .video msg.payload⟩ := by simp [RtmpChunk.media?, htype]
        unfold noteMedia
        rw [hmedia]
        exact media_follows _ _ _ _
      | dataAmf3 =>
        exact notify_follows msg .amf3 (by simp [RtmpChunk.media?, htype]) toleratingAmf0
          toleratingAmf0_quiet
      | dataAmf0 =>
        have hbind : onDataAmf0 msg =
            match onNotifyMessage msg.messageStreamId.id msg.payload .amf0 with
            | .ok event => handleNotify msg event
            | .error stop => Handler.fail stop := by
          unfold onDataAmf0
          split
          · rename_i heq
            rw [heq]
            rfl
          · rename_i heq
            rw [heq]
            rfl
        rw [hbind]
        exact notify_follows msg .amf0 (by simp [RtmpChunk.media?, htype]) Handler.fail
          fun _ => .fail _
      | commandAmf0 =>
        rw [noteMedia_none (by simp [RtmpChunk.media?, htype])]
        exact .bind (.pure _) fun _ => onCommandMessage_follows _ _ _
      | commandAmf3 =>
        rw [noteMedia_none (by simp [RtmpChunk.media?, htype])]
        exact .bind (.pure _) fun _ => onCommandAmf3_follows msg
      | _ =>
        rw [noteMedia_none (by simp [RtmpChunk.media?, htype])]
        exact .bind (.pure _) fun _ => (handleControlMessage_quiet msg).follows

theorem noteReady_follows (calls : Nat) : Follows (noteReady calls) := by
  induction calls with
  | zero => exact .pure _
  | succ calls ih =>
    refine .bind (.silent fun core => ⟨rfl, decodeInput_publication core⟩) fun r => ?_
    split
    · exact .bind (noteMessage_follows _ _) fun _ => ih
    · exact ih
    · split
      · exact .pure _
      · exact .fail _

theorem noteReadyBytes_follows (bytes : Bytes) : Follows (noteReadyBytes bytes) :=
  .bind (acknowledge_quiet _).follows fun _ => .bind (.silent fun _ => ⟨rfl, rfl⟩) fun _ =>
    .bind (.silent fun _ => ⟨rfl, rfl⟩) fun _ => noteReady_follows _

theorem noteFinish_follows : Follows noteFinish :=
  .bind (.silent fun core => ⟨rfl, takeRemaining_publication core⟩) fun _ =>
    .bind startSession_quiet.follows fun _ => .when _ (noteReadyBytes_follows _)

theorem noteHandshake_follows (bytes : Bytes) : Follows (noteHandshake bytes) := by
  refine .bind (.silent fun core => ⟨rfl, feedHandshake_publication bytes core⟩) fun r => ?_
  cases r with
  | failed e => exact .fail _
  | written pending complete =>
    exact .bind (emitHandshake_quiet _).follows fun _ => .when _ noteFinish_follows

theorem noteBytes_follows (bytes : Bytes) : Follows (noteBytes bytes) := by
  refine .bind (.silent fun _ => ⟨rfl, rfl⟩) fun state => ?_
  cases state with
  | handshaking => exact noteHandshake_follows bytes
  | waitC2 => exact noteHandshake_follows bytes
  | ready => exact noteReadyBytes_follows bytes
  | closed => exact .pure _

/-- What is due comes out one by one. -/
theorem run_due (p : Publication) (media : List PendingPublishMedia) :
    Transition.run publishing ⟨p, media⟩ (media.map fun m => .put (.event m.event)) =
      some (⟨p, []⟩, []) := by
  induction media with
  | nil => rfl
  | cons m media ih =>
    have hstep : publishing ⟨p, m :: media⟩ (.put (.event m.event)) = some (⟨p, media⟩, []) := by
      simp [publishing, PendingPublishMedia.event]
    simp only [List.map_cons, Transition.run, hstep, ih, Option.map_some, List.nil_append]

theorem emitPendingMedia_run (media : List PendingPublishMedia) (core : RtmpCore) :
    (Handler.forEach emitPendingMedia media).run core =
      (core, media.map fun m => .event m.event, .ok ()) := by
  induction media with
  | nil => rfl
  | cons m media ih =>
    have hemit : (emitPendingMedia m).run core = (core, [.event m.event], .ok ()) := rfl
    rw [Handler.forEach, bind_ok hemit, ih]
    rfl

/-- Obey the command, then put out what that makes due. -/
theorem command_follows {command : RtmpCoreCommand} {m : CoreHandler Unit}
    (h : ∀ core, ∃ core', m.run core =
      (core', (core.publication.obey command).2.map fun m => .event m.event, .ok ()) ∧
        core'.publication = (core.publication.obey command).1) :
    Follows (Handler.emit (.command command) >>= fun _ => noting m) := by
  intro core
  obtain ⟨core', hrun, hpublication⟩ := h core
  have hcommand : (Handler.emit (.command command) : Journaled Unit).run core =
      (core, [.command command], .ok ()) := rfl
  refine ⟨[], ?_⟩
  rw [bind_ok hcommand, noting_run, hrun, List.map_map]
  show Transition.run publishing _ (.command command :: _) = _
  simp only [Transition.run, publishing, hpublication]
  exact congrArg (Option.map _) (run_due _ _)

theorem noteCommand_bind {command : RtmpCoreCommand} {m : CoreHandler α}
    {f : α → CoreHandler Unit} (h : onCommand command = m >>= f) :
    noteCommand command = (Handler.emit (.command command) >>= fun _ => noting m) >>=
      fun a => noting (f a) := by
  unfold noteCommand
  rw [h, noting_bind, Handler.bind_assoc]

theorem flushPendingPublishMedia_run (streamId : UInt32) (core : RtmpCore) :
    (flushPendingPublishMedia streamId).run core =
      if core.pendingPublish = some streamId then
        ({ core with
            pendingPublish := none
            pendingMedia := []
            pendingMediaBytes := core.pendingMedia.foldl
              (fun bytes m => bytes - m.payload.length) core.pendingMediaBytes },
          core.pendingMedia.map fun m => .event m.event, .ok ())
      else (core, [], .ok ()) := by
  unfold flushPendingPublishMedia
  rw [gets_bind]
  split
  · rw [gets_bind, bind_ok (emitPendingMedia_run _ _)]
    simp [Handler.modify]
  · rfl

theorem acceptPublish_follows (streamId : UInt32) :
    Follows (noteCommand (.acceptPublish streamId)) := by
  have hbind : onCommand (.acceptPublish streamId) =
      (Handler.modify (fun core : RtmpCore => { core with activePublish := some streamId }) >>=
        fun _ => flushPendingPublishMedia streamId) >>= fun _ =>
      sendOnStatus streamId "status" "NetStream.Publish.Start" "Start publishing." := by
    rw [Handler.bind_assoc]
    rfl
  rw [noteCommand_bind hbind]
  refine .bind (command_follows fun core => ?_) fun _ => (sendCommand_quiet _ _ _).follows
  rw [modify_bind, flushPendingPublishMedia_run]
  by_cases hpending : core.pendingPublish = some streamId
  · have hobey : core.publication.obey (.acceptPublish streamId) =
        (⟨some streamId, none, [], core.pendingMedia.foldl
          (fun bytes m => bytes - m.payload.length) core.pendingMediaBytes⟩, core.pendingMedia) :=
      if_pos hpending
    rw [if_pos hpending, hobey]
    exact ⟨_, rfl, rfl⟩
  · have hobey : core.publication.obey (.acceptPublish streamId) =
        ({ core.publication with active := some streamId }, []) := if_neg hpending
    rw [if_neg hpending, hobey]
    exact ⟨_, rfl, rfl⟩

theorem rejectPublish_follows (streamId : UInt32) (description : String) :
    Follows (noteCommand (.rejectPublish streamId description)) := by
  have hbind : onCommand (.rejectPublish streamId description) =
      Handler.modify (rejectPending streamId) >>= fun _ =>
        sendOnStatus streamId "error" "NetStream.Publish.BadName" description := rfl
  rw [noteCommand_bind hbind]
  refine .bind (command_follows fun core => ⟨rejectPending streamId core, rfl, ?_⟩)
    fun _ => (sendCommand_quiet _ _ _).follows
  show (if core.pendingPublish = some streamId then core.clearPendingPublish else core).publication =
    if core.pendingPublish = some streamId then core.publication.clear else core.publication
  split
  · rfl
  · rfl

theorem noteCommand_follows (command : RtmpCoreCommand) : Follows (noteCommand command) := by
  by_cases hobey : ∀ p : Publication, p.obey command = (p, [])
  · have hbind : onCommand command = Pure.pure () >>= fun _ => onCommand command :=
      (Handler.pure_bind () fun _ => onCommand command).symm
    rw [noteCommand_bind hbind]
    exact .bind (command_follows fun core => ⟨core, by rw [hobey]; rfl, by rw [hobey]⟩)
      fun _ => (onCommand_quiet hobey).follows
  · cases command with
    | acceptPublish streamId => exact acceptPublish_follows streamId
    | rejectPublish streamId description => exact rejectPublish_follows streamId description
    | clientObserveMediaData streamId timestampMs mediaType payload =>
      exact command_follows fun core => ⟨core, rfl, rfl⟩
    | closeConnection => exact fun _ => ⟨[], rfl⟩
    | _ => exact absurd (fun _ => rfl) hobey

theorem noteInput_follows (input : CoreInput) : Follows (noteInput input) := by
  cases input with
  | bytes bytes => exact noteBytes_follows bytes
  | timeout id => exact .pure _
  | command command => exact noteCommand_follows command

/-- The journal of any inputs is a run of publishing. -/
theorem journal_follows (inputs : List CoreInput) (core : RtmpCore) : ∃ es,
    Transition.run publishing ⟨core.publication, []⟩ (journal core inputs) =
      some (⟨(after core inputs).publication, []⟩, es) := by
  induction inputs generalizing core with
  | nil => exact ⟨[], rfl⟩
  | cons input inputs ih =>
    obtain ⟨es, hrun⟩ := noteInput_follows input core
    have hstate : ((onInput input).run core).1 = ((noteInput input).run core).1 := by
      rw [noteInput_run]
    obtain ⟨es', hrest⟩ := ih ((onInput input).run core).1
    refine ⟨es ++ es', ?_⟩
    show Transition.run publishing _ (_ ++ _) = some (⟨(after _ inputs).publication, []⟩, _)
    rw [Transition.run_append _ _ hrun, ← hstate, hrest]
    rfl

end Refinement

end RtmpCore

end CheetahMedia.Rtmp
