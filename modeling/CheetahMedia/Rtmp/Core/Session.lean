import CheetahMedia.Rtmp.Core.Output

namespace CheetahMedia.Rtmp
open Lib Lib.Handler

namespace RtmpCore

def handshakeDone (core : RtmpCore) : Bool :=
  match core.handshake with
  | .server handshake => handshake.isRecvComplete
  | .client => true

/-- A run over several inputs, up to the first that fails. -/
structure Run where
  core : RtmpCore
  log : List Emission
  stop : Option Stop

def runInputs (core : RtmpCore) : List CoreInput → Run
  | [] => ⟨core, [], none⟩
  | input :: inputs =>
    match (onInput input).run core with
    | (core', out, .ok ()) =>
      let r := runInputs core' inputs
      { r with log := out ++ r.log }
    | (core', _, .error stop) => ⟨core', [], some stop⟩

/-- No input writes a message and leaves the handshake incomplete. -/
def quietUntilReady (core : RtmpCore) : List CoreInput → Bool
  | [] => true
  | input :: inputs =>
    let r := (onInput input).run core
    (r.1.handshakeDone || (sent r.2.1).isEmpty) && quietUntilReady r.1 inputs

/-- Requests that are all proper. -/
def AllProper (fs : List Request) : Prop := ∀ f ∈ fs, f.Proper

theorem AllProper.append (h : AllProper fs) (h' : AllProper fs') : AllProper (fs ++ fs') := by
  intro f hf
  rcases List.mem_append.mp hf with hmem | hmem
  · exact h f hmem
  · exact h' f hmem

/-- The requests of an opening: the announcement comes first. -/
def Opening (fs : List Request) : Prop := AllProper fs ∧ Request.Opens fs

section Writes

theorem silently {m : CoreHandler α} {f : α → CoreHandler β} {P : List Request → Prop}
    (h : ∀ core, (m.run core).1.encoder = core.encoder ∧ (m.run core).1.phase = core.phase ∧
      (m.run core).2.1 = []) (hf : ∀ a, Writes P (f a)) : Writes P (m >>= f) :=
  .bind (P := (· = [])) (fun _ _ h h' => by rw [h]; exact h') (.silent rfl h) hf

theorem decodeInput_phase (core : RtmpCore) :
    (decodeInput core).1.encoder = core.encoder ∧ (decodeInput core).1.phase = core.phase := by
  unfold decodeInput
  split
  · exact ⟨rfl, rfl⟩
  · exact ⟨rfl, rfl⟩

theorem takeAck_phase (core : RtmpCore) :
    (takeAck core).1.encoder = core.encoder ∧ (takeAck core).1.phase = core.phase := by
  unfold takeAck
  split
  · exact ⟨rfl, rfl⟩
  · exact ⟨rfl, rfl⟩

theorem readyLoop_writes (calls : Nat) : Writes AllProper (readyLoop calls) := by
  induction calls with
  | zero => exact .silent (List.forall_mem_nil _) fun _ => ⟨rfl, rfl, rfl⟩
  | succ calls ih =>
    unfold readyLoop
    refine silently (fun core => ⟨(decodeInput_phase core).1, (decodeInput_phase core).2, rfl⟩)
      fun r => ?_
    split
    · exact .bind (fun _ _ => .append) (onMessage_handles _).writes fun _ => ih
    · exact ih
    · split
      · exact .silent (List.forall_mem_nil _) fun _ => ⟨rfl, rfl, rfl⟩
      · exact .silent (List.forall_mem_nil _) fun _ => ⟨rfl, rfl, rfl⟩

theorem sendDueAck_sends (ackValue : Option UInt32) : Sends (sendDueAck ackValue) := by
  cases ackValue with
  | some value =>
    exact sendMessage_sends 2 0 RtmpMessageType.ack.typeId 0 (writeU32 value) (by decide)
  | none => exact .pure _

theorem acknowledge_writes (n : Nat) : Writes AllProper (acknowledge n) := by
  unfold acknowledge
  exact silently (fun _ => ⟨rfl, rfl, rfl⟩) fun _ =>
    silently (fun core => ⟨(takeAck_phase core).1, (takeAck_phase core).2, rfl⟩) fun _ =>
    (sendDueAck_sends _).handles.writes

theorem processReadyBytes_writes (bytes : Bytes) : Writes AllProper (processReadyBytes bytes) := by
  unfold processReadyBytes
  exact .bind (fun _ _ => .append) (acknowledge_writes _) fun _ =>
    silently (fun _ => ⟨rfl, rfl, rfl⟩) fun _ => silently (fun _ => ⟨rfl, rfl, rfl⟩) fun _ =>
    readyLoop_writes _

theorem announce_writes (size : RtmpChunkSize) :
    Writes Opening (sendRtmpMessage 2 (.newSetChunkSize size)) := by
  intro core core' out a hrun
  let chunk : RtmpChunk := ⟨⟨2, by decide⟩, .PCM, .setChunkSize, .ZERO, writeU32 (.ofNat size.size)⟩
  have hproper : (Request.send chunk (some size)).Proper := ⟨rfl, rfl⟩
  refine ⟨[.send chunk (some size)], ⟨?_, [], chunk, size, [], rfl, List.forall_mem_nil _⟩, ?_⟩
  · intro f hf
    rw [List.mem_singleton.mp hf]
    exact hproper
  · have hsend : sendRtmpMessage 2 (.newSetChunkSize size) =
        encodeMessage ⟨2, by decide⟩ (.newSetChunkSize size) := rfl
    rw [hsend] at hrun
    cases hrun
    exact ⟨rfl, rfl, rfl⟩

theorem Opening.append (h : Opening fs) (h' : AllProper fs') : Opening (fs ++ fs') :=
  ⟨h.1.append h', h.2.append fs'⟩

/-- The announcement is the first thing that a session sends. -/
theorem startSession_writes : Writes Opening startSession := by
  have hannounce (chunkSize : UInt32) : Writes Opening (sendSetChunkSize chunkSize) :=
    silently (fun _ => ⟨rfl, rfl, rfl⟩) fun _ => announce_writes _
  unfold startSession
  exact silently (fun _ => ⟨rfl, rfl, rfl⟩) fun _ =>
    .bind (fun _ _ => .append) (hannounce _) fun _ =>
    .bind (fun _ _ => .append) (sendRtmpMessage_sends 2 (.newWinAckSize 5000000) nofun).handles.writes
      fun _ => (sendRtmpMessage_sends 2 (.newSetPeerBandwidth 5000000) nofun).handles.writes

end Writes

/-- What has happened so far in a session that was quiet until it was ready. -/
inductive Stage : RtmpCore → List Request → Prop
  | waiting (hdone : core.handshakeDone = false) (hstate : core.state ≠ .ready)
      (hfs : ∀ f ∈ fs, f.send? = none) : Stage core fs
  | started (hdone : core.handshakeDone = true) (hstate : core.state = .ready ∨ core.state = .closed)
      (hfs : Request.Opens fs) : Stage core fs

theorem handshakeDone_of_phase (h : phase core' = phase core) :
    core'.handshakeDone = core.handshakeDone ∧ core'.state = core.state := by
  obtain ⟨hstate, hhandshake⟩ := Prod.mk.inj h
  exact ⟨by rw [handshakeDone, handshakeDone, hhandshake], hstate⟩

theorem feedServer_written {role : RtmpServerHandshake}
    (h : feedHandshake.feedServer bytes core role = (core', .written pending complete)) :
    core'.handshakeDone = complete ∧ core'.encoder = core.encoder ∧
      (core'.state = core.state ∨ core'.state = .waitC2) := by
  unfold feedHandshake.feedServer at h
  split at h
  · cases h
  · rename_i handshake' hfeed
    obtain ⟨hcore, hstep⟩ := Prod.mk.inj h
    injection hstep with hpending hcomplete
    subst hcore
    refine ⟨hcomplete, rfl, ?_⟩
    dsimp only
    split
    · exact .inr rfl
    · exact .inl rfl

theorem feedHandshake_written (h : feedHandshake bytes core = (core', .written pending complete)) :
    core'.handshakeDone = complete ∧ core'.encoder = core.encoder ∧
      (core'.state = core.state ∨ core'.state = .waitC2) := by
  unfold feedHandshake at h
  split at h
  · cases h
  · split at h
    · split at h
      · cases h
      · exact feedServer_written h
    · exact feedServer_written h

theorem emitHandshake_writes (pending : Bytes) :
    Writes (fun fs => AllProper fs ∧ ∀ f ∈ fs, f.send? = none) (emitHandshake pending) := by
  refine .when _ ⟨List.forall_mem_nil _, List.forall_mem_nil _⟩ fun core core' out a hrun => ?_
  cases hrun
  exact ⟨[.handshake pending], ⟨by simp [AllProper, Request.Proper], by simp [Request.send?]⟩,
    rfl, rfl, rfl⟩

/-- The end of the handshake opens the session before it reads what came with it. -/
theorem finishHandshake_run (hdone : core.handshakeDone = true)
    (h : finishHandshake.run core = (core', out, .ok ())) : ∃ fs, Opening fs ∧
      core'.handshakeDone = true ∧ core'.state = .ready ∧
      core'.encoder = (plays Request.play core.encoder fs).1 ∧
      out = (plays Request.play core.encoder fs).2 := by
  obtain ⟨core₁, out₁, remaining, out₂, htake, hrest, rfl⟩ := bind_eq_ok h
  have hsession : Writes Opening (do
      startSession
      Handler.when (!remaining.isEmpty) (processReadyBytes remaining)) :=
    .bind (fun _ _ => .append) startSession_writes fun _ =>
      .when _ (List.forall_mem_nil _) (processReadyBytes_writes remaining)
  obtain ⟨fs, hfs, hphase, hencoder, hout⟩ := hsession core₁ core' out₂ () hrest
  obtain ⟨hdone', hstate'⟩ := handshakeDone_of_phase hphase
  have htaken : core₁.handshakeDone = true ∧ core₁.state = .ready ∧
      core₁.encoder = core.encoder ∧ out₁ = [] := by
    cases hrole : core.handshake with
    | client =>
      simp only [Handler.modifyGet, takeRemaining, hrole] at htake
      cases htake
      exact ⟨by simp [handshakeDone], rfl, rfl, rfl⟩
    | server handshake =>
      simp only [Handler.modifyGet, takeRemaining, hrole] at htake
      cases htake
      simp only [handshakeDone, hrole] at hdone
      exact ⟨hdone, rfl, rfl, rfl⟩
  refine ⟨fs, hfs, hdone'.trans htaken.1, hstate'.trans htaken.2.1, ?_, ?_⟩
  · rw [hencoder, htaken.2.2.1]
  · rw [htaken.2.2.2, hout, htaken.2.2.1, List.nil_append]

/-- While the handshake is incomplete the core writes no message; the input that
completes it opens the session. -/
theorem tryHandshake_run (hstate : core.state ≠ .ready)
    (hquiet : ∀ f ∈ before, f.send? = none)
    (h : (tryHandshake bytes).run core = (core', out, .ok ())) : ∃ fs, AllProper fs ∧
      Stage core' (before ++ fs) ∧ core'.encoder = (plays Request.play core.encoder fs).1 ∧
      out = (plays Request.play core.encoder fs).2 := by
  obtain ⟨core₁, out₁, step, out₂, hfeed, hrest, rfl⟩ := bind_eq_ok h
  rcases hstep : feedHandshake bytes core with ⟨core₁', step'⟩
  simp only [Handler.modifyGet, hstep] at hfeed
  cases hfeed
  cases step with
  | failed e => cases hrest
  | written pending complete =>
    obtain ⟨hdone₁, hencoder₁, hstate₁⟩ := feedHandshake_written hstep
    obtain ⟨core₂, out₃, u, out₄, hemit, hfinish, rfl⟩ := bind_eq_ok hrest
    obtain ⟨fs, ⟨hproper, hfs⟩, hphase, hencoder, hout⟩ := emitHandshake_writes pending _ _ _ _ hemit
    obtain ⟨hdone₂, hstate₂⟩ := handshakeDone_of_phase hphase
    have hsilent : ∀ f ∈ before ++ fs, f.send? = none := by
      intro f hf
      rcases List.mem_append.mp hf with hmem | hmem
      · exact hquiet f hmem
      · exact hfs f hmem
    rw [hencoder₁] at hencoder hout
    cases complete with
    | false =>
      cases hfinish
      refine ⟨fs, hproper, .waiting (hdone₂.trans hdone₁) ?_ hsilent, hencoder, by simp [hout]⟩
      rw [hstate₂]
      rcases hstate₁ with heq | heq
      · rw [heq]
        exact hstate
      · rw [heq]
        nofun
    | true =>
      obtain ⟨fs', ⟨hproper', hopens⟩, hdone', hstate', hencoder', hout'⟩ :=
        finishHandshake_run (hdone₂.trans hdone₁) hfinish
      refine ⟨fs ++ fs', hproper.append hproper', ?_, ?_, ?_⟩
      · rw [← List.append_assoc]
        exact .started hdone' (.inl hstate') (hopens.prepend hsilent)
      · rw [plays_append, ← hencoder, hencoder']
      · rw [plays_append, ← hencoder, hout, hout', List.nil_append]

/-- A handler that stays in the phase continues the session, if it is quiet where the
session has not started. -/
theorem Stage.continue (hstage : Stage core before) (hphase : phase core' = phase core)
    (hquiet : core'.handshakeDone = true ∨ ∀ f ∈ fs, f.send? = none) :
    Stage core' (before ++ fs) := by
  obtain ⟨hdone', hstate'⟩ := handshakeDone_of_phase hphase
  cases hstage with
  | waiting hdone hstate hfs =>
    refine .waiting (hdone'.trans hdone) (hstate' ▸ hstate) fun f hf => ?_
    rcases List.mem_append.mp hf with hmem | hmem
    · exact hfs f hmem
    · rcases hquiet with hready | hquiet
      · rw [hdone', hdone] at hready
        cases hready
      · exact hquiet f hmem
  | started hdone hstate hfs =>
    exact .started (hdone'.trans hdone) (hstate' ▸ hstate) (hfs.append fs)

theorem Stage.writes {m : CoreHandler Unit} (hstage : Stage core before)
    (hm : Writes AllProper m) (h : m.run core = (core', out, .ok ()))
    (hquiet : (core'.handshakeDone || (sent out).isEmpty) = true) : ∃ fs, AllProper fs ∧
      Stage core' (before ++ fs) ∧ core'.encoder = (plays Request.play core.encoder fs).1 ∧
      out = (plays Request.play core.encoder fs).2 := by
  obtain ⟨fs, hproper, hphase, hencoder, hout⟩ := hm core core' out () h
  refine ⟨fs, hproper, hstage.continue hphase ?_, hencoder, hout⟩
  rcases (Bool.or_eq_true _ _).mp hquiet with hdone | hempty
  · exact .inl hdone
  · rw [List.isEmpty_iff, hout] at hempty
    exact .inr (Request.silent_of_sent hempty)

/-- One input continues the session. -/
theorem onInput_run (hstage : Stage core before)
    (h : (onInput input).run core = (core', out, .ok ()))
    (hquiet : (core'.handshakeDone || (sent out).isEmpty) = true) : ∃ fs, AllProper fs ∧
      Stage core' (before ++ fs) ∧ core'.encoder = (plays Request.play core.encoder fs).1 ∧
      out = (plays Request.play core.encoder fs).2 := by
  cases input with
  | timeout id =>
    cases h
    exact ⟨[], List.forall_mem_nil _, by rwa [List.append_nil], rfl, rfl⟩
  | command command =>
    by_cases hclose : command = .closeConnection
    · subst hclose
      cases h
      refine ⟨[.raise .peerClosed], by simp [AllProper, Request.Proper], ?_, rfl, rfl⟩
      cases hstage with
      | waiting hdone hstate hfs =>
        refine .waiting hdone nofun fun f hf => ?_
        rcases List.mem_append.mp hf with hmem | hmem
        · exact hfs f hmem
        · rw [List.mem_singleton.mp hmem]
          rfl
      | started hdone hstate hfs => exact .started hdone (.inr rfl) (hfs.append _)
    · exact hstage.writes (onCommand_sends hclose).handles.writes h hquiet
  | bytes bytes =>
    obtain ⟨core₁, out₁, state, out₂, hget, hrest, rfl⟩ := bind_eq_ok h
    cases hget
    have hwait (hne : core.state ≠ .ready ∧ core.state ≠ .closed) :
        ∀ f ∈ before, f.send? = none := by
      cases hstage with
      | waiting hdone hstate hfs => exact hfs
      | started hdone hstate hfs => exact absurd hstate (by simp [hne])
    cases hstate : core.state with
    | handshaking =>
      simp only [hstate] at hrest
      exact tryHandshake_run (by simp [hstate]) (hwait (by simp [hstate])) hrest
    | waitC2 =>
      simp only [hstate] at hrest
      exact tryHandshake_run (by simp [hstate]) (hwait (by simp [hstate])) hrest
    | ready =>
      simp only [hstate] at hrest
      exact hstage.writes (processReadyBytes_writes bytes) hrest hquiet
    | closed =>
      simp only [hstate] at hrest
      cases hrest
      exact ⟨[], List.forall_mem_nil _, by rwa [List.append_nil], rfl, rfl⟩

/-- A run over any inputs is a session. -/
theorem runInputs_session (inputs : List CoreInput) (hstage : Stage core before)
    (hstop : (runInputs core inputs).stop = none) (hquiet : quietUntilReady core inputs = true) :
    ∃ fs, AllProper fs ∧ Stage (runInputs core inputs).core (before ++ fs) ∧
      (runInputs core inputs).log = (plays Request.play core.encoder fs).2 := by
  induction inputs generalizing core before with
  | nil => exact ⟨[], List.forall_mem_nil _, by rwa [List.append_nil], rfl⟩
  | cons input inputs ih =>
    rcases hrun : (onInput input).run core with ⟨core', out, r⟩
    cases r with
    | error stop => simp [runInputs, hrun] at hstop
    | ok u =>
      simp only [runInputs, hrun] at hstop ⊢
      simp only [quietUntilReady, hrun, Bool.and_eq_true] at hquiet
      obtain ⟨fs, hproper, hstage', hencoder, hout⟩ := onInput_run hstage hrun hquiet.1
      obtain ⟨fs', hproper', hstage'', hlog⟩ := ih hstage' hstop hquiet.2
      refine ⟨fs ++ fs', hproper.append hproper', ?_, ?_⟩
      · rwa [← List.append_assoc]
      · rw [hlog, plays_append, ← hencoder, hout]

/-- A session that is quiet until the handshake is complete writes what a receiver that
knows nothing but the default chunk size reads, and announces each chunk size before it
uses it for a message that is longer than the default. -/
theorem output_readable (inputs : List CoreInput) (hstop : (runInputs new inputs).stop = none)
    (hquiet : quietUntilReady new inputs = true)
    (hlen : ∀ m ∈ sent (runInputs new inputs).log, m.chunk.payload.length ≤ MAX_MESSAGE_SIZE) :
    Peer.readAll (written (runInputs new inputs).log) =
        ((sent (runInputs new inputs).log).map Sent.chunk, []) ∧
      ∀ pre m post, sent (runInputs new inputs).log = pre ++ m :: post →
        m.chunk.payload.length ≤ 128 ∨ m.chunkSize = Peer.chunkSizeAfter (pre.map Sent.chunk) := by
  have hstart : Stage new [] := .waiting rfl nofun (List.forall_mem_nil _)
  obtain ⟨fs, hproper, hstage, hlog⟩ := runInputs_session inputs hstart hstop hquiet
  rw [List.nil_append] at hstage
  rw [hlog] at hlen ⊢
  cases hstage with
  | waiting hdone hstate hfs =>
    obtain ⟨-, hsent, hwritten⟩ := Request.plays_silent new.encoder hfs
    rw [hsent, hwritten]
    refine ⟨rfl, fun pre m post hsplit => ?_⟩
    cases pre <;> cases hsplit
  | started hdone hstate hfs =>
    exact Peer.read_opening hfs hproper (by decide) Synced.initial hlen

/-- A whole handshake in one piece: version, C1 and C2. -/
def clientHandshake : Bytes := 3 :: List.replicate 3072 0

theorem output_readable_audio :
    let inputs := [.bytes clientHandshake, .command (.sendAudio 1 40 (List.replicate 200 7))]
    Peer.readAll (written (runInputs new inputs).log) =
        ((sent (runInputs new inputs).log).map Sent.chunk, []) ∧
      ∀ pre m post, sent (runInputs new inputs).log = pre ++ m :: post →
        m.chunk.payload.length ≤ 128 ∨
          m.chunkSize = Peer.chunkSizeAfter (pre.map Sent.chunk) := by
  intro inputs
  exact output_readable inputs (by decide +kernel) (by decide +kernel) (by decide +kernel)

/-- A command that writes before the handshake is complete makes the encoder shorten the
announcement after it, which no receiver can then read. -/
theorem early_write_unreadable :
    let early := runInputs new [.command (.setWindowAckSize 1)]
    let later := runInputs early.core [.bytes clientHandshake]
    early.stop = none ∧ later.stop = none ∧ early.core.handshakeDone = false ∧
      later.core.handshakeDone = true ∧ (sent later.log).length = 3 ∧
      Peer.readAll (written later.log) = ([], written later.log) := by
  decide +kernel

end RtmpCore

end CheetahMedia.Rtmp
