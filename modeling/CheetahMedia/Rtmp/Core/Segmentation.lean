import CheetahMedia.Lib.Incremental
import CheetahMedia.Rtmp.Chunk.Segmentation
import CheetahMedia.Rtmp.Core.Session

namespace CheetahMedia.Rtmp
open Lib Lib.Handler

def events (log : List Emission) : List RtmpEvent := log.filterMap Emission.event?

def CoreOutput.event? : CoreOutput → Option RtmpEvent
  | .event e => some e
  | _ => none

theorem events_output (log : List Emission) :
    (log.map Emission.output).filterMap CoreOutput.event? = events log := by
  rw [events, List.filterMap_map]
  congr 1
  funext emission
  cases emission <;> rfl

theorem events_append (log log' : List Emission) :
    events (log ++ log') = events log ++ events log' := List.filterMap_append

namespace RtmpCore

/-- Give a core its bytes in pieces: the events that its caller gets, up to and
including the first error. -/
def deliver (core : RtmpCore) : List Bytes → List RtmpEvent × Option Stop
  | [] => ([], none)
  | piece :: pieces =>
    match core.handleInput (.bytes piece) with
    | (core', .ok out) =>
      let r := deliver core' pieces
      (out.filterMap CoreOutput.event? ++ r.1, r.2)
    | (_, .error stop) => ([], some stop)

/-- One chunk. The answer is the events of the message that it completes. -/
def coreStep : Incremental.Decoder RtmpCore Stop UInt8 (List RtmpEvent) := fun core buf =>
  match core.decoder.decode buf with
  | (decoder, .ok (n, none)) => .done n [] { core with decoder := decoder }
  | (decoder, .ok (n, some chunk)) =>
    match (onMessage chunk).run { core with decoder := decoder } with
    | (core', out, .ok ()) => .done n (events out) core'
    | (_, _, .error stop) => .fail stop
  | (decoder, .error e) =>
    if e.IsShort then .more { core with decoder := decoder } else .fail (.ofError e)

/-- The events of a stream of chunks, up to the first malformed one. -/
def observe (core : RtmpCore) (bytes : Bytes) : List RtmpEvent × Option Stop :=
  let r := Incremental.observed (Incremental.run coreStep core (core.inputBuf.get ++ bytes))
  (r.1.flatten, r.2)

/-- The same core but for the writing side and the bytes that wait. -/
def Alike (core core' : RtmpCore) : Prop := ∃ k, core' = core.withTransport k

theorem Alike.equivalence : Equivalence Alike where
  refl core := ⟨core.transport, rfl⟩
  symm {core _} h := by
    obtain ⟨k, rfl⟩ := h
    exact ⟨core.transport, rfl⟩
  trans h h' := by
    obtain ⟨k, rfl⟩ := h
    obtain ⟨k', rfl⟩ := h'
    exact ⟨k', rfl⟩

theorem Alike.withDecoder (h : Alike core core') (decoder : RtmpChunkDecoder) :
    Alike { core with decoder := decoder } { core' with decoder := decoder } := by
  obtain ⟨k, rfl⟩ := h
  exact ⟨k, rfl⟩

theorem events_plays (k : Transport) (fs : List Request) :
    events (plays wire.play k fs).2 = fs.filterMap Request.event? := by
  induction fs generalizing k with
  | nil => rfl
  | cons f fs ih =>
    rw [plays, events_append, ih]
    cases f <;> rfl

/-- Handling a message shows nothing of the writing side but what is written. -/
theorem Handles.alike {m : CoreHandler α} (hm : Handles m) (h : Alike core core') :
    (m.run core').2.2 = (m.run core).2.2 ∧ events (m.run core').2.1 = events (m.run core).2.1 ∧
      Alike (m.run core).1 (m.run core').1 := by
  obtain ⟨k, rfl⟩ := h
  obtain ⟨t, fs, r, -, -, hrun⟩ := hm core
  have hcore : m.run core = _ := hrun core.transport
  have hcore' : m.run (core.withTransport k) = _ := hrun k
  rw [hcore, hcore']
  refine ⟨rfl, ?_, (plays wire.play k fs).1, rfl⟩
  rw [events_plays, events_plays]

theorem inputBuf_plays (k : Transport) (fs : List Request) :
    (plays wire.play k fs).1.inputBuf = k.inputBuf := by
  induction fs generalizing k with
  | nil => rfl
  | cons f fs ih => exact (ih _).trans rfl

theorem Handles.inputBuf {m : CoreHandler α} (hm : Handles m) (core : RtmpCore) :
    (m.run core).1.inputBuf = core.inputBuf := by
  obtain ⟨t, fs, r, -, -, hrun⟩ := hm core
  have hcore : m.run core = _ := hrun core.transport
  rw [hcore]
  exact inputBuf_plays core.transport fs

section Step
variable {core : RtmpCore} {buf : Bytes}

theorem coreStep_done (h : coreStep core buf = .done n out core') :
    ∃ d chunk, core.decoder.decode buf = (d, .ok (n, chunk)) := by
  unfold coreStep at h
  split at h
  · rename_i hdec
    cases h
    exact ⟨_, _, hdec⟩
  · rename_i hdec
    split at h
    · cases h
      exact ⟨_, _, hdec⟩
    · cases h
  · split at h
    · cases h
    · cases h

theorem coreStep_more (h : coreStep core buf = .more core') :
    ∃ d e, core.decoder.decode buf = (d, .error e) ∧ e.IsShort ∧
      core' = { core with decoder := d } := by
  unfold coreStep at h
  split at h
  · cases h
  · split at h
    · cases h
    · cases h
  · rename_i d e hdec
    split at h
    · rename_i he
      cases h
      exact ⟨d, e, hdec, he, rfl⟩
    · cases h

/-- The answer depends on what the decoder makes of the buffer, and not on the rest of it. -/
theorem coreStep_congr {buf' : Bytes} (h : core.decoder.decode buf' = core.decoder.decode buf) :
    coreStep core buf' = coreStep core buf := by
  simp only [coreStep, h]

theorem coreStep_respects (h : Alike core core') :
    Incremental.Same Alike (coreStep core buf) (coreStep core' buf) := by
  have hdecoder : core'.decoder = core.decoder := by
    obtain ⟨k, rfl⟩ := h
    rfl
  unfold coreStep
  rw [hdecoder]
  match core.decoder.decode buf with
  | (d, .ok (n, none)) => exact .done (h.withDecoder d)
  | (d, .ok (n, some chunk)) =>
    obtain ⟨hr, hout, hcore⟩ := Handles.alike (onMessage_handles chunk) (h.withDecoder d)
    rcases hrun : (onMessage chunk).run { core with decoder := d } with ⟨s, out, r⟩
    rcases hrun' : (onMessage chunk).run { core' with decoder := d } with ⟨s', out', r'⟩
    rw [hrun, hrun'] at hr hout hcore
    dsimp only at hr hout hcore ⊢
    rw [hrun, hrun', hr]
    cases r with
    | ok u =>
      dsimp only
      rw [hout]
      exact .done hcore
    | error stop => exact .fail
  | (d, .error e) =>
    dsimp only
    split
    · exact .more
    · exact .fail

theorem coreStep_segmentable : Incremental.Segmentable Alike coreStep where
  equivalence := Alike.equivalence
  respects := coreStep_respects
  done_pos h := by
    obtain ⟨d, chunk, hdec⟩ := coreStep_done h
    have hlen := RtmpChunkDecoder.decode_eq_ok hdec
    exact ⟨hlen.1, hlen.2.1⟩
  done_append h q := by
    obtain ⟨d, chunk, hdec⟩ := coreStep_done h
    rw [← h]
    exact coreStep_congr ((RtmpChunkDecoder.decode_append hdec q).trans hdec.symm)
  fail_append {core buf e} h q := by
    rw [← h]
    match hdec : core.decoder.decode buf with
    | (d, .ok (n, chunk)) =>
      exact coreStep_congr ((RtmpChunkDecoder.decode_append hdec q).trans hdec.symm)
    | (d, .error e') =>
      have he : ¬ e'.IsShort := by
        intro he
        simp [coreStep, hdec, he] at h
      exact coreStep_congr ((RtmpChunkDecoder.decode_error_append hdec he q).trans hdec.symm)
  more_append {core buf core'} h q := by
    obtain ⟨d, e, hdec, he, rfl⟩ := coreStep_more h
    rcases RtmpChunkDecoder.decode_retry hdec q with heq | ⟨s, t, e', hs, ht⟩
    · have hsame : coreStep { core with decoder := d } (buf ++ q) = coreStep core (buf ++ q) := by
        simp only [coreStep, heq]
      rw [hsame]
      exact coreStep_respects (Alike.equivalence.refl core)
    · simp only [coreStep, hs, ht]
      split
      · exact .more
      · exact .fail

theorem coreStep_take (h : coreStep core buf = .done n out core') :
    coreStep core (buf.take n) = .done n out core' := by
  obtain ⟨d, chunk, hdec⟩ := coreStep_done h
  rw [← h]
  exact coreStep_congr ((RtmpChunkDecoder.decode_take hdec).trans hdec.symm)

theorem coreStep_nil (core : RtmpCore) : ∃ core', coreStep core [] = .more core' :=
  ⟨{ core with decoder := core.decoder }, by
    simp [coreStep, RtmpChunkDecoder.decode, RtmpChunkDecoder.decodeChunk_nil]⟩

end Step

/-- What draining the input buffer with the core gives, beside a run of single steps
that starts from a core it cannot be told from. -/
inductive Matches : List (List RtmpEvent) × Incremental.Halt RtmpCore Stop UInt8 →
    RtmpCore × List Emission × Except Stop Unit → Prop
  | waiting (hcore : Alike s core) (hbuf : core.inputBuf.get = rest)
      (hout : events out = outs.flatten) : Matches (outs, .waiting s rest) (core, out, .ok ())
  | failed : Matches (outs, .failed stop) (core, out, .error stop)

theorem Matches.prepend (h : Matches r (core, out', result)) (hout : events out = []) :
    Matches r (core, out ++ out', result) := by
  cases h with
  | waiting hcore hbuf hrest =>
    exact .waiting hcore hbuf (by rw [events_append, hout, hrest, List.nil_append])
  | failed => exact .failed

theorem Matches.cons (h : Matches r (core, out', result)) (hout : events out = first) :
    Matches (first :: r.1, r.2) (core, out ++ out', result) := by
  cases h with
  | waiting hcore hbuf hrest =>
    exact .waiting hcore hbuf (by rw [events_append, hout, hrest, List.flatten_cons])
  | failed => exact .failed

section Loop
variable {core core' : RtmpCore} {calls : Nat}

theorem readyLoop_chunk (h : decodeInput core = (core', .ok (some chunk))) :
    (readyLoop (calls + 1)).run core =
      (onMessage chunk >>= fun _ => readyLoop calls).run core' := by
  rw [readyLoop, modifyGet_bind, h]

theorem readyLoop_waiting (h : decodeInput core = (core', .ok none)) :
    (readyLoop (calls + 1)).run core = (readyLoop calls).run core' := by
  rw [readyLoop, modifyGet_bind, h]

theorem readyLoop_error (h : decodeInput core = (core', .error e)) :
    (readyLoop (calls + 1)).run core =
      (core', [], if e.IsShort then .ok () else .error (.ofError e)) := by
  rw [readyLoop, modifyGet_bind, h]
  dsimp only
  split
  · rfl
  · rfl

end Loop

theorem readyLoop_matches (calls : Nat) (h : Alike s core) :
    Matches (Incremental.drain coreStep calls s core.inputBuf.get)
      ((readyLoop calls).run core) := by
  induction calls generalizing s core with
  | zero => exact .waiting h rfl rfl
  | succ calls ih =>
    obtain ⟨k, rfl⟩ := h
    rcases hdec : s.decoder.decode k.inputBuf.get with ⟨d, r⟩
    have hnext : Alike { s with decoder := d } { s.withTransport k with decoder := d } := ⟨k, rfl⟩
    show Matches (Incremental.drain coreStep (calls + 1) s k.inputBuf.get) _
    match r with
    | .error e =>
      have hread : decodeInput (s.withTransport k) =
          ({ s.withTransport k with decoder := d }, .error e) := by
        simp only [decodeInput, withTransport, hdec]
      rw [readyLoop_error hread]
      by_cases he : e.IsShort
      · simp only [Incremental.drain, coreStep, hdec, if_pos he]
        exact .waiting hnext rfl rfl
      · simp only [Incremental.drain, coreStep, hdec, if_neg he]
        exact .failed
    | .ok (n, none) =>
      let core : RtmpCore :=
        { s.withTransport k with decoder := d, inputBuf := k.inputBuf.advance n }
      have hread : decodeInput (s.withTransport k) = (core, .ok none) := by
        simp only [decodeInput, withTransport, hdec, core]
      have hcore : Alike { s with decoder := d } core :=
        ⟨{ k with inputBuf := k.inputBuf.advance n }, rfl⟩
      have hrest := ih hcore
      have hbuf : core.inputBuf.get = k.inputBuf.get.drop n := Buf.get_advance _ _
      rw [hbuf] at hrest
      rw [readyLoop_waiting hread]
      simp only [Incremental.drain, coreStep, hdec]
      exact hrest.cons (rfl : events [] = [])
    | .ok (n, some chunk) =>
      let core : RtmpCore :=
        { s.withTransport k with decoder := d, inputBuf := k.inputBuf.advance n }
      have hread : decodeInput (s.withTransport k) = (core, .ok (some chunk)) := by
        simp only [decodeInput, withTransport, hdec, core]
      have hstart : Alike { s with decoder := d } core :=
        ⟨{ k with inputBuf := k.inputBuf.advance n }, rfl⟩
      obtain ⟨hr, hout, hcore⟩ := Handles.alike (onMessage_handles chunk) hstart
      have hbuf : ((onMessage chunk).run core).1.inputBuf.get = k.inputBuf.get.drop n := by
        rw [Handles.inputBuf (onMessage_handles chunk), Buf.get_advance]
      rw [readyLoop_chunk hread]
      simp only [Incremental.drain, coreStep, hdec]
      rcases hrun : (onMessage chunk).run { s with decoder := d } with ⟨s', out, r⟩
      rcases hrun' : (onMessage chunk).run core with ⟨core', out', r'⟩
      rw [hrun, hrun'] at hr hout hcore
      rw [hrun'] at hbuf
      dsimp only at hr hout hcore hbuf
      subst hr
      cases r' with
      | error stop =>
        rw [bind_error hrun']
        exact .failed
      | ok u =>
        rw [bind_ok hrun']
        dsimp only
        rw [← hbuf]
        exact (ih hcore).cons hout

/-- A handler that succeeds and of which a reader of events notices nothing. -/
def Unseen (m : CoreHandler α) : Prop := ∀ core, ∃ core' out a,
  m.run core = (core', out, .ok a) ∧ Alike core core' ∧ core'.inputBuf = core.inputBuf ∧
    events out = []

theorem Unseen.bind {m : CoreHandler α} {f : α → CoreHandler β} (hm : Unseen m)
    (hf : ∀ a, Unseen (f a)) : Unseen (m >>= f) := by
  intro core
  obtain ⟨core', out, a, hrun, hcore, hbuf, hout⟩ := hm core
  obtain ⟨core'', out', b, hrun', hcore', hbuf', hout'⟩ := hf a core'
  refine ⟨core'', out ++ out', b, ?_, Alike.equivalence.trans hcore hcore', hbuf'.trans hbuf, ?_⟩
  · rw [bind_ok hrun, hrun']
  · rw [events_append, hout, hout', List.nil_append]

theorem takeAck_unseen : Unseen (Handler.modifyGet takeAck) := by
  intro core
  by_cases hdue : core.totalBytesReceived - core.lastAckSent > core.peerAckWindowSize / 2
  · refine ⟨{ core with lastAckSent := core.totalBytesReceived }, [],
      some (.ofNat core.totalBytesReceived), ?_,
      ⟨{ core.transport with lastAckSent := core.totalBytesReceived }, rfl⟩, rfl, rfl⟩
    simp only [Handler.modifyGet, takeAck, if_pos hdue]
  · refine ⟨core, [], none, ?_, Alike.equivalence.refl core, rfl, rfl⟩
    simp only [Handler.modifyGet, takeAck, if_neg hdue]

theorem sendDueAck_unseen (ackValue : Option UInt32) : Unseen (sendDueAck ackValue) := by
  intro core
  cases ackValue with
  | none => exact ⟨core, [], (), rfl, Alike.equivalence.refl core, rfl, rfl⟩
  | some value =>
    have hsend : ∃ chunk, sendDueAck (some value) = encodeRawChunk chunk := ⟨_, rfl⟩
    obtain ⟨chunk, hchunk⟩ := hsend
    rw [hchunk]
    exact ⟨_, _, (), rfl, ⟨{ core.transport with
      encoder := (core.encoder.encodeRawChunk chunk).2 }, rfl⟩, rfl, rfl⟩

theorem acknowledge_unseen (n : Nat) : Unseen (acknowledge n) :=
  .bind (fun core => ⟨countReceived n core, [], (), rfl, ⟨{ core.transport with
    totalBytesReceived := core.totalBytesReceived + n }, rfl⟩, rfl, rfl⟩) fun _ =>
    takeAck_unseen.bind fun _ => sendDueAck_unseen _

/-- Draining after new bytes is a run of single steps over what waited and the new bytes. -/
theorem processReadyBytes_matches (bytes : Bytes) (h : Alike s core) :
    ∃ r, Matches (Incremental.run coreStep s (core.inputBuf.get ++ bytes)) r ∧
      (processReadyBytes bytes).run core = r := by
  obtain ⟨core', out, u, hack, hcore, hbuf, hout⟩ := acknowledge_unseen bytes.length core
  let fed : RtmpCore := { core' with inputBuf := core'.inputBuf.feed bytes }
  have hfed : Alike s fed := by
    obtain ⟨k, rfl⟩ := h
    obtain ⟨k', rfl⟩ := hcore
    exact ⟨{ k' with inputBuf := k'.inputBuf.feed bytes }, rfl⟩
  have hget : fed.inputBuf.get = core.inputBuf.get ++ bytes := by
    rw [← hbuf]
    exact Buf.get_feed _ _
  refine ⟨_, ?_, rfl⟩
  rw [Incremental.run, ← hget, processReadyBytes, bind_ok hack, modify_bind, gets_bind]
  exact (readyLoop_matches _ hfed).prepend hout

/-- The decoder waits for more than the input buffer holds. -/
def Idle (core : RtmpCore) : Prop := ∃ core', coreStep core core.inputBuf.get = .more core'

theorem Idle.alike (h : Alike s core) (hidle : ∃ s', coreStep s core.inputBuf.get = .more s') :
    Idle core := by
  obtain ⟨s', hs'⟩ := hidle
  have hsame : Incremental.Same Alike (coreStep s core.inputBuf.get)
      (coreStep core core.inputBuf.get) := coreStep_respects h
  rw [hs'] at hsame
  unfold Idle
  cases hstep : coreStep core core.inputBuf.get with
  | more core' => exact ⟨core', rfl⟩
  | done n out core' => rw [hstep] at hsame; cases hsame
  | fail e => rw [hstep] at hsame; cases hsame

/-- Input that is accepted is drained. -/
theorem processReadyBytes_run (h : (processReadyBytes bytes).run core = (core', out, .ok ())) :
    Idle core' ∧ phase core' = phase core := by
  obtain ⟨fs, -, hphase, -⟩ := processReadyBytes_writes bytes core core' out () h
  refine ⟨?_, hphase⟩
  obtain ⟨r, hmatch, hr⟩ := processReadyBytes_matches bytes (Alike.equivalence.refl core)
  rw [h] at hr
  subst hr
  have htrack := Incremental.Tracks.of_related coreStep_segmentable
    (Alike.equivalence.refl core) (core.inputBuf.get ++ bytes)
  have hfollow := Incremental.run_follows coreStep_segmentable _ core core htrack
  rcases hrun : Incremental.run coreStep core (core.inputBuf.get ++ bytes) with ⟨outs, halt⟩
  rw [hrun] at hmatch hfollow
  cases hmatch with
  | waiting hcore hbuf hout =>
    have hidle := (hfollow.waiting rfl).1
    rw [← hbuf] at hidle
    exact Idle.alike hcore hidle

/-- The caller's view is that of an owner of `coreStep` who drops what precedes a failure
in the same piece. -/
theorem deliver_eq (pieces : List Bytes) (h : Alike s core) (hready : core.state = .ready) :
    core.deliver pieces = Prod.map List.flatten id
      (Incremental.feedAtomic coreStep (fun s _ => s) s core.inputBuf.get pieces) := by
  induction pieces generalizing s core with
  | nil => rfl
  | cons piece pieces ih =>
    obtain ⟨r, hmatch, hr⟩ := processReadyBytes_matches piece h
    have hinput : (onInput (.bytes piece)).run core = r := by
      rw [onInput, onBytes, gets_bind, hready]
      exact hr
    rcases hrun : Incremental.run coreStep s (core.inputBuf.get ++ piece) with ⟨outs, halt⟩
    rw [hrun] at hmatch
    cases hmatch with
    | failed => simp [deliver, handleInput, hinput, Incremental.feedAtomic, hrun]
    | @waiting s' core' rest out outs hcore hbuf hout =>
      have hphase := (processReadyBytes_run hr).2
      have hready' : core'.state = .ready := (Prod.mk.inj hphase).1.trans hready
      simp only [deliver, handleInput, hinput, Incremental.feedAtomic, hrun, ih hcore hready', hbuf,
        events_output, hout]
      simp

/-- What waits depends on the decoder and the input buffer only. -/
def front (core : RtmpCore) : RtmpChunkDecoder × Buf := (core.decoder, core.inputBuf)

theorem Idle.of_front (h : Idle core) (hfront : front core' = front core) : Idle core' := by
  obtain ⟨hdecoder, hbuf⟩ := Prod.mk.inj hfront
  obtain ⟨s, hs⟩ := h
  obtain ⟨d, e, hdec, he, -⟩ := coreStep_more hs
  refine ⟨{ core' with decoder := d }, ?_⟩
  simp only [coreStep, hdecoder, hbuf, hdec, if_pos he]

theorem idle_of_empty (core : RtmpCore) (h : core.inputBuf.get = []) : Idle core := by
  unfold Idle
  rw [h]
  exact coreStep_nil core

theorem Sends.front {m : CoreHandler α} (hm : Sends m) (core : RtmpCore) :
    front (m.run core).1 = front core := by
  obtain ⟨t, fs, r, hstation, -, hrun⟩ := hm core
  have hcore : m.run core = _ := hrun core.transport
  have hbuf := hm.handles.inputBuf core
  have hdecoder : t.decoder = core.decoder := (Prod.mk.inj (Prod.mk.inj hstation).2).2
  unfold RtmpCore.front
  rw [hbuf, hcore, ← hdecoder]
  rfl

theorem startSession_sends : Sends startSession := by
  unfold startSession
  exact .bind (.gets fun _ _ => rfl) fun _ => .bind (sendSetChunkSize_sends _) fun _ =>
    .bind (sendRtmpMessage_sends 2 (.newWinAckSize 5000000) nofun) fun _ =>
    sendRtmpMessage_sends 2 (.newSetPeerBandwidth 5000000) nofun

theorem feedServer_front (bytes : Bytes) (core : RtmpCore) (role : RtmpServerHandshake) :
    front (feedHandshake.feedServer bytes core role).1 = front core := by
  unfold feedHandshake.feedServer
  split
  · rfl
  · rfl

theorem feedHandshake_front (bytes : Bytes) (core : RtmpCore) :
    front (feedHandshake bytes core).1 = front core := by
  unfold feedHandshake
  split
  · rfl
  · split
    · split
      · rfl
      · exact feedServer_front _ _ _
    · exact feedServer_front _ _ _

theorem takeRemaining_front (core : RtmpCore) : front (takeRemaining core).1 = front core := by
  unfold takeRemaining
  split
  · rfl
  · rfl

theorem finishHandshake_idle (hidle : Idle core)
    (h : finishHandshake.run core = (core', out, .ok ())) : Idle core' := by
  rw [finishHandshake, modifyGet_bind] at h
  have htaken := hidle.of_front (takeRemaining_front core)
  obtain ⟨core₁, out₁, u, out₂, hstart, hread, -⟩ := bind_eq_ok h
  have hstarted : Idle core₁ := by
    have hkept := Sends.front startSession_sends (takeRemaining core).1
    rw [hstart] at hkept
    exact htaken.of_front hkept
  generalize (!(takeRemaining core).2.isEmpty) = pending at hread
  cases pending with
  | false =>
    cases hread
    exact hstarted
  | true => exact (processReadyBytes_run hread).1

theorem emitHandshake_front (pending : Bytes) (core : RtmpCore) :
    front ((emitHandshake pending).run core).1 = front core := by
  unfold emitHandshake
  cases !pending.isEmpty with
  | false => rfl
  | true => rfl

theorem tryHandshake_idle (hidle : Idle core)
    (h : (tryHandshake bytes).run core = (core', out, .ok ())) : Idle core' := by
  rw [tryHandshake, modifyGet_bind] at h
  have hfed := hidle.of_front (feedHandshake_front bytes core)
  generalize feedHandshake bytes core = r at h hfed
  obtain ⟨core₁, step⟩ := r
  cases step with
  | failed e => cases h
  | written pending complete =>
    obtain ⟨core₂, out₁, u, out₂, hemit, hfinish, -⟩ := bind_eq_ok h
    have hemitted : Idle core₂ := by
      have hkept := emitHandshake_front pending core₁
      rw [hemit] at hkept
      exact hfed.of_front hkept
    cases complete with
    | false =>
      cases hfinish
      exact hemitted
    | true =>
      rw [when_true] at hfinish
      exact finishHandshake_idle hemitted hfinish

/-- Between inputs a core that is not closed has decoded all it can. -/
def Settled (core : RtmpCore) : Prop := core.state = .closed ∨ Idle core

theorem onInput_settled (hs : Settled core)
    (h : (onInput input).run core = (core', out, .ok ())) : Settled core' := by
  cases input with
  | timeout id =>
    cases h
    exact hs
  | command command =>
    by_cases hclose : command = .closeConnection
    · subst hclose
      cases h
      exact .inl rfl
    · have hsends := onCommand_sends hclose
      obtain ⟨fs, -, hphase, -⟩ := hsends.handles.writes core core' out () h
      have hfront := hsends.front core
      rw [show (onCommand command).run core = _ from h] at hfront
      rcases hs with hclosed | hidle
      · exact .inl ((Prod.mk.inj hphase).1.trans hclosed)
      · exact .inr (hidle.of_front hfront)
  | bytes bytes =>
    rw [onInput, onBytes, gets_bind] at h
    cases hstate : core.state with
    | closed =>
      rw [hstate] at h
      cases h
      exact .inl hstate
    | ready =>
      rw [hstate] at h
      exact .inr (processReadyBytes_run h).1
    | handshaking =>
      rw [hstate] at h
      refine .inr (tryHandshake_idle (hs.resolve_left ?_) h)
      rw [hstate]
      nofun
    | waitC2 =>
      rw [hstate] at h
      refine .inr (tryHandshake_idle (hs.resolve_left ?_) h)
      rw [hstate]
      nofun

theorem runInputs_settled (inputs : List CoreInput) (hs : Settled core)
    (hstop : (runInputs core inputs).stop = none) : Settled (runInputs core inputs).core := by
  induction inputs generalizing core with
  | nil => exact hs
  | cons input inputs ih =>
    rcases hrun : (onInput input).run core with ⟨core', out, r⟩
    cases r with
    | error stop => simp [runInputs, hrun] at hstop
    | ok u =>
      simp only [runInputs, hrun] at hstop ⊢
      exact ih (onInput_settled hs hrun) hstop

/-- From any core that is ready after a run without errors: the events that are delivered
do not depend on the cutting of the stream, exactly when the stream holds nothing
malformed or no message before the first malformed one has an event. -/
theorem deliver_cut_iff (start : RtmpCore) (hstart : start = new ∨ start = newClient)
    (inputs : List CoreInput) (hstop : (runInputs start inputs).stop = none)
    (hready : (runInputs start inputs).core.state = .ready) (bytes : Bytes) :
    (∀ ps qs : List Bytes, ps.flatten = bytes → qs.flatten = bytes →
      (runInputs start inputs).core.deliver ps = (runInputs start inputs).core.deliver qs) ↔
      ((runInputs start inputs).core.observe bytes).2 = none ∨
        ((runInputs start inputs).core.observe bytes).1 = [] := by
  have hs : Settled start := by
    rcases hstart with rfl | rfl
    · exact .inr (idle_of_empty new rfl)
    · exact .inr (idle_of_empty newClient rfl)
  have hsettled := runInputs_settled inputs hs hstop
  generalize (runInputs start inputs).core = core at hsettled hready ⊢
  have hidle : Idle core := hsettled.resolve_left (by rw [hready]; nofun)
  have hdrop : ∀ outs outs' : List (List RtmpEvent), outs <+: outs' →
      outs'.flatten = [].flatten → outs.flatten = [].flatten := by
    rintro outs _ ⟨more, rfl⟩ hempty
    rw [List.flatten_append] at hempty
    exact (List.append_eq_nil_iff.mp hempty).1
  have hhook : ∀ (s : RtmpCore) (p : Bytes), Alike ((fun s _ => s) s p) s :=
    fun s _ => Alike.equivalence.refl s
  have hcut := Incremental.feedAtomic_cut_iff coreStep_segmentable hhook coreStep_nil coreStep_take
    List.flatten hdrop hidle bytes
  have hdeliver := fun pieces => deliver_eq pieces (Alike.equivalence.refl core) hready
  simp only [hdeliver]
  exact hcut

/-- An acknowledgement before a chunk that continues nothing. -/
def ackThenGarbage : Bytes := [2, 0, 0, 0, 0, 0, 4, 3, 0, 0, 0, 0, 0, 0, 0, 1, 0xC3]

theorem deliver_cut_iff_ack :
    let core := (runInputs new [.bytes clientHandshake]).core
    (∀ ps qs : List Bytes, ps.flatten = ackThenGarbage.take 16 →
      qs.flatten = ackThenGarbage.take 16 → core.deliver ps = core.deliver qs) ↔
      (core.observe (ackThenGarbage.take 16)).2 = none ∨
        (core.observe (ackThenGarbage.take 16)).1 = [] :=
  deliver_cut_iff new (.inl rfl) [.bytes clientHandshake] (by decide +kernel) (by decide +kernel) _

/-- The same bytes in two pieces and in one: the acknowledgement is reported or lost. -/
theorem ack_lost_with_garbage :
    let core := (runInputs new [.bytes clientHandshake]).core
    let pieces := [ackThenGarbage.take 16, ackThenGarbage.drop 16]
    pieces.flatten = [ackThenGarbage].flatten ∧ (core.deliver pieces).1.length = 1 ∧
      (core.deliver [ackThenGarbage]).1 = [] ∧
      (core.deliver pieces).2 = (core.deliver [ackThenGarbage]).2 := by
  decide +kernel

end RtmpCore

end CheetahMedia.Rtmp
