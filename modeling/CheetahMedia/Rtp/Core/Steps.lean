import CheetahMedia.Rtp.Core.Evolution

namespace CheetahMedia.Rtp
open Lib Lib.Checked Codec

variable {key k : RtpSessionKey} {p : Prop} {c c' c'' : RtpCore} {s s' : RtpSession}
  {outputs more : List RtpCoreOutput}

theorem quiet_nil : Quiet key [] := fun _ h => by cases h

theorem Quiet.append (h : Quiet key outputs) (h' : Quiet key more) :
    Quiet key (outputs ++ more) := fun o ho => by
  rcases List.mem_append.mp ho with ho | ho
  · exact h o ho
  · exact h' o ho

theorem Quiet.unmarked (h : Quiet key outputs) : outputs.any (·.marks key) = false :=
  List.any_eq_false.mpr fun o ho => by rw [(h o ho).2]; exact Bool.false_ne_true

/-- An event about another thing than a session's beginning or end. -/
theorem quiet_one {o : RtpCoreOutput} (hsend : o.isSend = false) (hmarks : o.marks key = false) :
    Quiet key [o] := fun o' ho => by
  rw [List.mem_singleton.mp ho]
  exact ⟨hsend, hmarks⟩

namespace RtpCore

@[simp] theorem lookup_putSession_self (c : RtpCore) (k : RtpSessionKey) (s : RtpSession) :
    (c.putSession k s).sessions.lookup k = some s := AList.lookup_insert _

theorem lookup_putSession_ne (c : RtpCore) (s : RtpSession) (h : key ≠ k) :
    (c.putSession k s).sessions.lookup key = c.sessions.lookup key := AList.lookup_insert_ne h

@[simp] theorem mapSsrc_sessions (c : RtpCore) (ssrc : UInt32) (k : RtpSessionKey) :
    (c.mapSsrc ssrc k).sessions = c.sessions := rfl

@[simp] theorem mapConn_sessions (c : RtpCore) (connId : Option UInt64) (k : RtpSessionKey) :
    (c.mapConn connId k).sessions = c.sessions := by
  cases connId <;> rfl

@[simp] theorem unmapConn_sessions (c : RtpCore) (connId : Option UInt64) :
    (c.unmapConn connId).sessions = c.sessions := by
  cases connId <;> rfl

end RtpCore

namespace Evolution

theorem of_lookup (h : c'.sessions.lookup key = c.sessions.lookup key) (hq : Quiet key outputs) :
    Evolution key p c c' outputs where
  silent o ho := (hq o ho).1
  session := by
    rw [hq.unmarked, h]
    exact .refl (RtpSession.Keeps.refl p) _

theorem of_sessions (h : c'.sessions = c.sessions) (hq : Quiet key outputs) :
    Evolution key p c c' outputs := of_lookup (by rw [h]) hq

theorem refl (c : RtpCore) : Evolution key p c c [] := of_sessions rfl quiet_nil

theorem trans (h : Evolution key p c c' outputs) (h' : Evolution key p c' c'' more) :
    Evolution key p c c'' (outputs ++ more) where
  silent o ho := by
    rcases List.mem_append.mp ho with ho | ho
    · exact h.silent o ho
    · exact h'.silent o ho
  session := by
    rw [List.any_append]
    exact h.session.trans (fun _ _ _ => .trans) (fun _ _ => .keeps) h'.session

/-- Nor does it matter what was there before a session that is announced. -/
theorem of_announced (h : Evolution key p c c' outputs)
    (hm : outputs.any (·.marks key) = true) : Evolution key p c'' c' outputs where
  silent := h.silent
  session := by
    have hsession := h.session
    rw [hm] at hsession ⊢
    cases hsession with
    | renewed hnew => exact .renewed hnew

theorem of_lookup_eq (h : Evolution key p c c' outputs)
    (hs : c.sessions.lookup key = c''.sessions.lookup key) : Evolution key p c'' c' outputs :=
  ⟨h.silent, by rw [← hs]; exact h.session⟩

/-- The maps beside the sessions do not matter. -/
theorem congr (h : Evolution key p c c' outputs) (hs : c''.sessions = c'.sessions) :
    Evolution key p c c'' outputs := ⟨h.silent, by rw [hs]; exact h.session⟩

/-- A session that is put back in its place; if it is announced, it is new. -/
theorem put (hs : c.sessions.lookup k = some s) (hk : k = key → s.Keeps p s')
    (hsilent : ∀ o ∈ outputs, o.isSend = false)
    (hnew : outputs.any (·.marks key) = true → k = key ∧ s.Fresh key p) :
    Evolution key p c (c.putSession k s') outputs where
  silent := hsilent
  session := by
    by_cases heq : key = k
    · subst heq
      rw [hs, RtpCore.lookup_putSession_self]
      cases hm : outputs.any (·.marks key) with
      | false => exact .kept (.some (hk rfl))
      | true =>
        refine .announced (fun _ _ => RtpSession.Fresh.keeps) (.some (hk rfl)) fun v hv => ?_
        cases hv
        exact (hnew hm).2
    · have hm : outputs.any (·.marks key) = false :=
        Bool.eq_false_iff.mpr fun hm => heq (hnew hm).1.symm
      rw [hm, c.lookup_putSession_ne s' heq]
      exact .refl (RtpSession.Keeps.refl p) _

theorem put_quiet (hs : c.sessions.lookup k = some s) (hk : s.Keeps p s')
    (hq : Quiet key outputs) : Evolution key p c (c.putSession k s') outputs :=
  put hs (fun _ => hk) (fun o ho => (hq o ho).1) fun hm => by rw [hq.unmarked] at hm; cases hm

theorem of_kept (hs : c.sessions.lookup key = some s) (hs' : c'.sessions.lookup key = some s')
    (hk : s.Keeps p s') (hq : Quiet key outputs) : Evolution key p c c' outputs where
  silent o ho := (hq o ho).1
  session := by
    rw [hq.unmarked, hs, hs']
    exact .kept (.some hk)

/-- A session that is made and announced. -/
theorem create (hs : s.Fresh k p) :
    Evolution key p c (c.putSession k s) [.event (.sessionCreated k ssrc mode transport)] where
  silent o ho := by rw [List.mem_singleton.mp ho]; rfl
  session := by
    by_cases heq : key = k
    · subst heq
      have hm : [RtpCoreOutput.event (.sessionCreated key ssrc mode transport)].any
          (·.marks key) = true := by simp [RtpCoreOutput.marks]
      rw [hm, RtpCore.lookup_putSession_self]
      refine .renewed fun v hv => ?_
      cases hv
      exact hs
    · have hm : [RtpCoreOutput.event (.sessionCreated k ssrc mode transport)].any
          (·.marks key) = false := by simp [RtpCoreOutput.marks, Ne.symm heq]
      rw [hm, c.lookup_putSession_ne s heq]
      exact .refl (RtpSession.Keeps.refl p) _

theorem modify (c : RtpCore) (k : RtpSessionKey) {f : RtpSession → RtpSession}
    (hf : ∀ s : RtpSession, s.Keeps p (f s)) : Evolution key p c (c.modifySession k f) [] := by
  unfold RtpCore.modifySession
  split
  · rename_i s hs
    exact put_quiet hs (hf s) quiet_nil
  · exact .refl c

/-- Steps in a row that say nothing. -/
theorem foldl {f : RtpCore → α → RtpCore} (hf : ∀ c a, Evolution key p c (f c a) [])
    (c : RtpCore) (l : List α) : Evolution key p c (l.foldl f c) [] := by
  induction l generalizing c with
  | nil => exact .refl c
  | cons a l ih => exact (hf c a).trans (ih (f c a))

/-- A session that ends says so. -/
theorem close (c : RtpCore) (k : RtpSessionKey) (reason : RtpSessionCloseReason) :
    Evolution key p c (c.closeSession k reason).1 (c.closeSession k reason).2 := by
  unfold RtpCore.closeSession
  split
  · exact .refl c
  · refine ⟨fun o ho => ?_, ?_⟩
    · simp only [List.mem_cons, List.not_mem_nil, or_false] at ho
      rcases ho with rfl | rfl <;> rfl
    · by_cases heq : key = k
      · subst heq
        have hm : [RtpCoreOutput.closeSession key, .event (.sessionClosed key reason)].any
            (·.marks key) = true := by simp [RtpCoreOutput.marks]
        rw [hm]
        refine .renewed fun v hv => ?_
        rw [AList.lookup_erase] at hv
        cases hv
      · have hm : [RtpCoreOutput.closeSession k, .event (.sessionClosed k reason)].any
            (·.marks key) = false := by simp [RtpCoreOutput.marks, Ne.symm heq]
        rw [hm]
        dsimp only
        rw [AList.lookup_erase_ne heq]
        exact .refl (RtpSession.Keeps.refl p) _

theorem closeSessions (c : RtpCore) (l : List (RtpSessionKey × RtpSessionCloseReason)) :
    Evolution key p c (c.closeSessions l).1 (c.closeSessions l).2 := by
  induction l generalizing c with
  | nil => exact .refl c
  | cons x l ih => exact (close c x.1 x.2).trans (ih _)

/-- A step that cannot fail. -/
theorem of_ok {r : RtpCore × List RtpCoreOutput} (hr : Evolution key p c r.1 r.2)
    (h : (.ok r : RtpCoreResult) = .ok (c', outputs)) : Evolution key p c c' outputs := by
  rw [Except.ok.inj h] at hr
  exact hr

/-- One piece of the program and another. -/
theorem andThen {r : RtpCoreResult} {next : RtpCore → RtpCoreResult}
    (hr : ∀ c' outputs, r = .ok (c', outputs) → Evolution key p c c' outputs)
    (hnext : ∀ c' c'' more, next c' = .ok (c'', more) → Evolution key p c' c'' more)
    (h : r.andThen next = .ok (c'', outputs)) : Evolution key p c c'' outputs := by
  obtain ⟨⟨c', outputs⟩, hfirst, h⟩ := bind_eq_ok h
  obtain ⟨⟨c'', more⟩, hsecond, h⟩ := bind_eq_ok h
  cases h
  exact (hr _ _ hfirst).trans (hnext _ _ _ hsecond)

end Evolution

/-- The outputs carry no packet, and only what this packet created is announced. -/
structure Announces (key k : RtpSessionKey) (created : Bool) (outputs : List RtpCoreOutput) :
    Prop where
  silent : ∀ o ∈ outputs, o.isSend = false
  only : ∀ o ∈ outputs, o.marks key = true → created = true ∧ k = key

theorem Quiet.announces (h : Quiet key outputs) : Announces key k created outputs :=
  ⟨fun o ho => (h o ho).1, fun o ho hm => by rw [(h o ho).2] at hm; cases hm⟩

theorem Announces.append (h : Announces key k created outputs)
    (h' : Announces key k created more) : Announces key k created (outputs ++ more) := by
  refine ⟨fun o ho => ?_, fun o ho => ?_⟩ <;> rcases List.mem_append.mp ho with ho | ho
  · exact h.silent o ho
  · exact h'.silent o ho
  · exact h.only o ho
  · exact h'.only o ho

variable (key) in
theorem announce_announces (s : RtpSession) (k : RtpSessionKey) (ssrc : UInt32) (created : Bool) :
    Announces key k created (s.announce k ssrc created).2 := by
  obtain ⟨rest, hrest, heq⟩ := s.announce_outputs key k ssrc created
  rw [heq]
  refine .append ⟨fun o ho => ?_, fun o ho hm => ?_⟩ hrest.announces <;> cases created <;>
    simp only [if_true, Bool.false_eq_true, if_false, List.not_mem_nil, List.mem_singleton] at ho
  · rw [ho]
    rfl
  · rw [ho] at hm
    exact ⟨rfl, by simpa [RtpCoreOutput.marks] using hm⟩

namespace RtpCore
variable {order : RtpMapOrder} {rtp : RtpPacket} {connId : Option UInt64}
  {source : Option SocketAddr}

variable (key) in
/-- What a packet does to its session, when it does not close it. -/
theorem processSingleRtpPacket_cases
    (h : c.processSingleRtpPacket order k rtp connId source receivedAtMs created =
      .ok (c', outputs, reason)) (hs : c.sessions.lookup k = some s) :
    ∃ s', s.Keeps p s' ∧ c'.sessions = (c.putSession k s').sessions ∧
      Announces key k created outputs ∧
      (created = true → s.payloadType = none →
        reason = none ∧ ∃ ssrc mode transport,
          .event (.sessionCreated k ssrc mode transport) ∈ outputs) := by
  have hchecked := s.checkPayloadType_keeps (p := p) c.toRtpCoreSettings k rtp
  have hchanged := s.formatChange_quiet key c.toRtpCoreSettings k rtp
  have hreason := s.checkPayloadType_closeReason c.toRtpCoreSettings k rtp
  unfold processSingleRtpPacket at h
  rw [hs] at h
  dsimp only at h
  split at h
  · rename_i hclose
    cases h
    exact ⟨_, hchecked, rfl, hchanged.announces, fun _ hnone => by
      rw [hreason hnone] at hclose
      cases hclose⟩
  · obtain ⟨s₂, hcount, h⟩ := bind_eq_ok h
    have hkeeps := hchecked.trans (RtpSession.countPacket_keeps hcount)
    rcases hlearn : s₂.learnLength c.toRtpCoreSettings rtp with ⟨s₃, oversized⟩
    have hlearned := s₂.learnLength_keeps (p := p) c.toRtpCoreSettings rtp
    have hoversized := s₂.learnLength_quiet key c.toRtpCoreSettings rtp
    rcases hannounce : s₃.announce k rtp.header.ssrc created with ⟨s₄, announced⟩
    have hannounced := s₃.announce_keeps (p := p) k rtp.header.ssrc created
    have hannounces := announce_announces key s₃ k rtp.header.ssrc created
    obtain ⟨rest, -, hshape⟩ := s₃.announce_outputs key k rtp.header.ssrc created
    rw [hlearn] at h hlearned hoversized
    dsimp only at h
    rw [hannounce] at h hannounced hannounces hshape
    dsimp only at h hshape
    have hsequenced := ((hkeeps.trans hlearned).trans hannounced).trans
      (s₄.checkSequence_keeps rtp)
    have hgap := s₄.checkSequence_quiet key rtp
    have hcreated (hc : created = true) : RtpCoreOutput.event (.sessionCreated k rtp.header.ssrc
        s₃.payloadMode s₃.transportMode) ∈ announced := by
      rw [hshape, if_pos hc]
      exact List.mem_append_left _ (List.mem_singleton.mpr rfl)
    have hall := ((hchanged.announces.append hoversized.announces).append hannounces).append
      hgap.announces
    split at h
    · cases h
      exact ⟨_, hsequenced, rfl, hall, fun hc _ => ⟨rfl, _, _, _,
        List.mem_append_left _ (List.mem_append_right _ (hcreated hc))⟩⟩
    · obtain ⟨⟨s₅, media⟩, hdemux, h⟩ := bind_eq_ok h
      obtain ⟨hdemuxed, hmedia⟩ := RtpSession.demux_keeps key (p := p) hdemux
      cases h
      refine ⟨_, (hsequenced.trans (RtpSession.buildDemuxer_keeps _)).trans
        (hdemuxed.trans ?_), mapConn_sessions .., hall.append hmedia.announces,
        fun hc _ => ⟨rfl, _, _, _, List.mem_append_left _ (List.mem_append_left _
            (List.mem_append_right _ (hcreated hc)))⟩⟩
      exact .of_same rfl rfl rfl rfl

theorem processSingleRtpPacket_evolves
    (h : c.processSingleRtpPacket order k rtp connId source receivedAtMs created =
      .ok (c', outputs, reason))
    (hnew : created = true → ∀ s, c.sessions.lookup k = some s → s.Fresh k p) :
    Evolution key p c c' outputs := by
  cases hs : c.sessions.lookup k with
  | none =>
    unfold processSingleRtpPacket at h
    rw [hs] at h
    cases h
    exact .refl c
  | some s =>
    obtain ⟨s', hkeeps, hsessions, hannounces, -⟩ :=
      processSingleRtpPacket_cases key (p := p) h hs
    refine (Evolution.put hs (fun _ => hkeeps) hannounces.silent fun hm => ?_).congr hsessions
    obtain ⟨o, ho, hmark⟩ := List.any_eq_true.mp hm
    obtain ⟨hcreated, rfl⟩ := hannounces.only o ho hmark
    exact ⟨rfl, hnew hcreated s hs⟩

theorem processReleased_evolves {packets : List (RtpPacket × UInt64 × Option SocketAddr)}
    (h : processReleased order k connId created c packets = .ok (c', outputs))
    (hnew : created = true → ∀ s, c.sessions.lookup k = some s → s.Fresh k p) :
    Evolution key p c c' outputs := by
  induction packets generalizing c created outputs with
  | nil =>
    cases h
    exact .refl _
  | cons x packets ih =>
    obtain ⟨rtp, receivedAtMs, source⟩ := x
    obtain ⟨⟨c₁, first, reason⟩, hfirst, h⟩ := bind_eq_ok h
    have hstep : Evolution key p c c₁ first := processSingleRtpPacket_evolves hfirst hnew
    cases reason with
    | some reason =>
      cases h
      exact hstep.trans (.close c₁ k reason)
    | none =>
      dsimp only at h
      split at h
      · obtain ⟨⟨c₂, more⟩, hmore, h⟩ := bind_eq_ok h
        cases h
        exact hstep.trans (ih hmore fun hfalse => by cases hfalse)
      · cases h
        exact hstep

/-- A session that a packet created is announced with the first of the released packets. -/
theorem processReleased_announces {c : RtpCore} {x : RtpPacket × UInt64 × Option SocketAddr}
    (h : processReleased order k connId true c (x :: packets) = .ok (c', outputs))
    (hs : c.sessions.lookup k = some s) (hnone : s.payloadType = none) :
    ∃ ssrc mode transport, .event (.sessionCreated k ssrc mode transport) ∈ outputs := by
  obtain ⟨rtp, receivedAtMs, source⟩ := x
  obtain ⟨⟨c₁, first, reason⟩, hfirst, h⟩ := bind_eq_ok h
  obtain ⟨s', -, -, -, hcreated⟩ := processSingleRtpPacket_cases k (p := True) hfirst hs
  obtain ⟨rfl, ssrc, mode, transport, hmem⟩ := hcreated rfl hnone
  refine ⟨ssrc, mode, transport, ?_⟩
  dsimp only at h
  split at h
  · obtain ⟨⟨c₂, more⟩, hmore, h⟩ := bind_eq_ok h
    cases h
    exact List.mem_append_left _ hmem
  · cases h
    exact hmem

variable (key) in
/-- Where a packet goes to its session, and what of it the reorder buffer releases. -/
theorem routeRtpPacket_cases
    (h : c.routeRtpPacket order k created rtp source connId receivedAtMs = .ok (c', outputs))
    (hs : c.sessions.lookup k = some s) :
    ∃ s' bound accepted, s.Keeps p s' ∧ Quiet key bound ∧
      (source = none ∨ s.sourceAddr = source →
        accepted = true ∧ s'.reorder = s.reorder ∧ s'.payloadType = s.payloadType) ∧
      (accepted = false → c' = c.putSession k s' ∧ outputs = bound) ∧
      (accepted = true → ∃ more,
        processReleased order k connId created
          (c.putSession k { s' with reorder := (s'.reorder.push rtp.header.sequenceNumber
            receivedAtMs.toNat (rtp, receivedAtMs, source)).1 })
          (s'.reorder.push rtp.header.sequenceNumber receivedAtMs.toNat
            (rtp, receivedAtMs, source)).2 = .ok (c', more) ∧ outputs = bound ++ more) := by
  unfold routeRtpPacket at h
  rw [hs] at h
  obtain ⟨⟨s', bound, accepted⟩, hbind, h⟩ := bind_eq_ok h
  obtain ⟨hkeeps, hquiet⟩ := RtpSession.checkSource_keeps key (p := p) hbind
  refine ⟨s', bound, accepted, hkeeps, hquiet, RtpSession.checkSource_accepts hbind,
    fun hrefused => ?_, fun haccepted => ?_⟩
  · subst hrefused
    cases h
    exact ⟨rfl, rfl⟩
  · subst haccepted
    obtain ⟨⟨c₁, more⟩, hreleased, h⟩ := bind_eq_ok h
    cases h
    exact ⟨more, hreleased, rfl⟩

theorem routeRtpPacket_evolves
    (h : c.routeRtpPacket order k created rtp source connId receivedAtMs = .ok (c', outputs))
    (hnew : created = true → ∀ s, c.sessions.lookup k = some s → s.Fresh k p) :
    Evolution key p c c' outputs := by
  cases hs : c.sessions.lookup k with
  | none =>
    unfold routeRtpPacket at h
    rw [hs] at h
    cases h
    exact .refl c
  | some s =>
    obtain ⟨s', bound, accepted, hkeeps, hquiet, -, hrefused, haccepted⟩ :=
      routeRtpPacket_cases key (p := p) h hs
    cases accepted with
    | false =>
      obtain ⟨rfl, rfl⟩ := hrefused rfl
      exact .put_quiet hs hkeeps hquiet
    | true =>
      obtain ⟨more, hreleased, rfl⟩ := haccepted rfl
      have hput : s.Keeps p { s' with reorder := (s'.reorder.push rtp.header.sequenceNumber
          receivedAtMs.toNat (rtp, receivedAtMs, source)).1 } :=
        hkeeps.trans (.of_same rfl rfl rfl rfl)
      refine (Evolution.put_quiet hs hput hquiet).trans (processReleased_evolves hreleased ?_)
      intro hcreated t ht
      rw [lookup_putSession_self] at ht
      cases ht
      exact (hnew hcreated s hs).keeps hput

/-- The first packet of a buffer is released. -/
theorem push_new (b : RtpReorderBuffer α) (h : b.expectedSeq = none) (seq : UInt16) (arrivalMs : Nat)
    (packet : α) : (b.push seq arrivalMs packet).2 = [packet] := by
  simp [RtpReorderBuffer.push, RtpReorderBuffer.receive, h]

theorem routeRtpPacket_announces
    (h : c.routeRtpPacket order k true rtp source connId receivedAtMs = .ok (c', outputs))
    (hs : c.sessions.lookup k = some s) (hsource : source = none ∨ s.sourceAddr = source)
    (hpayloadType : s.payloadType = none) (hempty : s.reorder.expectedSeq = none) :
    ∃ ssrc mode transport, .event (.sessionCreated k ssrc mode transport) ∈ outputs := by
  obtain ⟨s', bound, accepted, -, -, haccepts, -, haccepted⟩ :=
    routeRtpPacket_cases k (p := True) h hs
  obtain ⟨rfl, hreorder, hsame⟩ := haccepts hsource
  obtain ⟨more, hreleased, rfl⟩ := haccepted rfl
  rw [push_new _ (by rw [hreorder, hempty])] at hreleased
  obtain ⟨ssrc, mode, transport, hmem⟩ :=
    processReleased_announces hreleased (lookup_putSession_self ..) (hsame.trans hpayloadType)
  exact ⟨ssrc, mode, transport, List.mem_append_right _ hmem⟩

/-- A session that a packet creates is kept from the state in between on, and announced. -/
theorem autoCreate_evolves
    (h : (c.autoCreate rtp source connId).routeRtpPacket order (autoSessionKey rtp.header.ssrc)
      true rtp source connId receivedAtMs = .ok (c', outputs)) :
    Evolution key p c c' outputs := by
  let s₀ : RtpSession := { RtpSession.new (autoSessionKey rtp.header.ssrc) rtp.header.ssrc
      (probeRtpPayload rtp.payload) .recvOnly .all .allowValidatedRebind 0 c.wallClockOffsetMs with
    sourceAddr := source
    tcpConnId := connId }
  have hfresh : s₀.Fresh (autoSessionKey rtp.header.ssrc) p :=
    ⟨rfl, rfl, rfl, rfl, rfl, fun _ => ⟨rfl, trivial⟩⟩
  have hsessions : (c.autoCreate rtp source connId).sessions =
      (c.putSession (autoSessionKey rtp.header.ssrc) s₀).sessions := mapConn_sessions ..
  have hlookup : (c.autoCreate rtp source connId).sessions.lookup
      (autoSessionKey rtp.header.ssrc) = some s₀ := by rw [hsessions, lookup_putSession_self]
  obtain ⟨ssrc, mode, transport, hmem⟩ :=
    routeRtpPacket_announces h hlookup (.inr rfl) rfl rfl
  have hroute : Evolution key p (c.autoCreate rtp source connId) c' outputs :=
    routeRtpPacket_evolves h fun _ s hs => by
      rw [hlookup] at hs
      cases hs
      exact hfresh
  by_cases heq : key = autoSessionKey rtp.header.ssrc
  · refine hroute.of_announced (List.any_eq_true.mpr ⟨_, hmem, ?_⟩)
    simp [RtpCoreOutput.marks, heq]
  · exact hroute.of_lookup_eq (by rw [hsessions, lookup_putSession_ne _ _ heq])

theorem feedRtpPacket_evolves
    (h : c.feedRtpPacket order rtp source connId receivedAtMs = .ok (c', outputs)) :
    Evolution key p c c' outputs := by
  unfold feedRtpPacket at h
  dsimp only at h
  split at h
  · cases h
    exact .of_sessions rfl (quiet_one rfl rfl)
  · split at h
    · cases h
      exact .of_sessions rfl (quiet_one rfl rfl)
    · split at h
      · exact routeRtpPacket_evolves h fun hfalse => by cases hfalse
      · split at h
        · cases h
          exact .of_sessions rfl (quiet_one rfl rfl)
        · exact autoCreate_evolves h

theorem processUdpPacket_evolves (h : c.processUdpPacket order datagram = .ok (c', outputs)) :
    Evolution key p c c' outputs := by
  unfold processUdpPacket at h
  split at h
  · exact feedRtpPacket_evolves h
  · split at h
    · split at h <;> cases h <;> exact .of_sessions rfl (quiet_one rfl rfl)
    · cases h
      exact .of_sessions rfl (quiet_one rfl rfl)

variable (key) in
theorem ehomeMedia_keeps
    (h : c.ehomeMedia order conn k s payload = .ok (s', outputs)) :
    s.Keeps p s' ∧ Quiet key outputs := by
  obtain ⟨packets, _, h⟩ := bind_eq_ok h
  obtain ⟨bytes, _, h⟩ := bind_eq_ok h
  have hcounted : s.Keeps p { s with packetsReceived := packets, bytesReceived := bytes } :=
    .of_same rfl rfl rfl rfl
  dsimp only at h
  split at h
  · obtain ⟨hdemuxed, hquiet⟩ := RtpSession.demux_keeps key (p := p) h
    exact ⟨hcounted.trans hdemuxed, hquiet⟩
  · split at h <;> cases h
    · exact ⟨hcounted, quiet_one rfl rfl⟩
    · exact ⟨hcounted, quiet_nil⟩

/-- The codec of a handshake goes with the mode of the session that it reaches. -/
def CodecFits (key : RtpSessionKey) (conn : UInt64) (c : RtpCore) : EhomeOutput → Prop
  | .handshakeCodec codec => c.tcpConnToSession.lookup conn = some key →
    ∀ s, c.sessions.lookup key = some s → (ehomeDemuxer codec).Fits s.payloadMode
  | _ => True

theorem processEhomeOutput_evolves {output : EhomeOutput}
    (h : processEhomeOutput order conn c output = .ok (c', outputs))
    (hfits : p → CodecFits key conn c output) : Evolution key p c c' outputs := by
  cases output with
  | handshakeSsrc text =>
    unfold processEhomeOutput at h
    dsimp only at h
    split at h
    · cases h
      exact .refl c
    · cases h
      refine (Evolution.create (s := { RtpSession.new ("live/".toList ++ text) (ehomeSsrc text)
        .ehome .recvOnly .all .allowValidatedRebind 0 c.wallClockOffsetMs with
        tcpConnId := some conn }) ?_).congr rfl
      exact ⟨rfl, rfl, rfl, rfl, rfl, fun _ => ⟨rfl, trivial⟩⟩
  | handshakeCodec codec =>
    unfold processEhomeOutput at h
    dsimp only at h
    split at h
    · cases h
      exact .refl c
    · rename_i k hk
      split at h
      · cases h
        exact .refl c
      · rename_i s hs
        cases h
        have hquiet : Quiet key (if ehomeTracks codec = [] then []
            else [.event (.trackFound k (ehomeTracks codec))]) := by
          split
          · exact quiet_nil
          · exact quiet_one rfl rfl
        refine .put hs (fun heq => ?_) (fun o ho => (hquiet o ho).1) fun hm => ?_
        · subst heq
          exact ⟨rfl, rfl, rfl, rfl, rfl, id, fun hp hs' => ⟨hs'.clockRate, hfits hp hk s hs⟩⟩
        · rw [hquiet.unmarked] at hm
          cases hm
  | mediaPayload payload =>
    unfold processEhomeOutput at h
    dsimp only at h
    split at h
    · cases h
      exact .refl c
    · split at h
      · cases h
        exact .refl c
      · rename_i s hs
        obtain ⟨⟨s', media⟩, hmedia, h⟩ := bind_eq_ok h
        cases h
        obtain ⟨hkeeps, hquiet⟩ := ehomeMedia_keeps key (p := p) hmedia
        exact .put_quiet hs hkeeps hquiet

/-- Every codec of the outputs goes with the mode that it finds. -/
def CodecsFit (order : RtpMapOrder) (key : RtpSessionKey) (conn : UInt64) :
    RtpCore → List EhomeOutput → Prop
  | _, [] => True
  | c, output :: rest => CodecFits key conn c output ∧
    ∀ c' outputs, processEhomeOutput order conn c output = .ok (c', outputs) →
      CodecsFit order key conn c' rest

theorem processEhomeOutputs_evolves {l : List EhomeOutput}
    (h : processEhomeOutputs order conn c l = .ok (c', outputs))
    (hfit : p → CodecsFit order key conn c l) : Evolution key p c c' outputs := by
  induction l generalizing c outputs with
  | nil =>
    cases h
    exact .refl _
  | cons output l ih =>
    obtain ⟨⟨c₁, first⟩, hfirst, h⟩ := bind_eq_ok h
    obtain ⟨⟨c₂, more⟩, hmore, h⟩ := bind_eq_ok h
    cases h
    exact (processEhomeOutput_evolves hfirst fun hp => (hfit hp).1).trans
      (ih hmore fun hp => (hfit hp).2 _ _ hfirst)

/-- The deframer only feeds packets. -/
theorem deframe_evolves {chunk : RtpTcpChunk} {r : RtpCoreResult} (turns : Nat) (data : Bytes)
    (hr : ∀ c' outputs, r = .ok (c', outputs) → Evolution key p c c' outputs)
    (h : (tcpSink order chunk).deframe framing turns r data = .ok (c', outputs)) :
    Evolution key p c c' outputs := by
  have hfeed (r : RtpCoreResult) (rtp : RtpPacket)
      (hr : ∀ c' outputs, r = .ok (c', outputs) → Evolution key p c c' outputs) :
      ∀ c' outputs, (tcpSink order chunk).feed r rtp = .ok (c', outputs) →
        Evolution key p c c' outputs := fun _ _ h =>
    .andThen hr (fun _ _ _ hnext => feedRtpPacket_evolves hnext) h
  have hresync (r : RtpCoreResult) (rtp : RtpPacket)
      (hr : ∀ c' outputs, r = .ok (c', outputs) → Evolution key p c c' outputs) :
      ∀ c' outputs, (tcpSink order chunk).resync r rtp = .ok (c', outputs) →
        Evolution key p c c' outputs := by
    intro c' outputs h
    obtain ⟨⟨c₁, first⟩, hfirst, h⟩ := bind_eq_ok h
    cases h
    exact (hr _ _ hfirst).trans (.of_sessions rfl (quiet_one rfl rfl))
  induction turns generalizing r data with
  | zero => exact hr _ _ h
  | succ turns ih =>
    unfold TcpSink.deframe at h
    split at h
    · exact hr _ _ h
    · split at h
      · exact ih _ (hfeed _ _ hr) h
      · split at h
        · exact hr _ _ h
        · split at h
          · exact hr _ _ h
          · exact ih _ hr h
          · exact ih _ (hfeed _ _ (hresync _ _ hr)) h

/-- What is decoded of an Ehome chunk. -/
def ehomeOutputs (c : RtpCore) (chunk : RtpTcpChunk) : List EhomeOutput :=
  if c.isEhomeChunk chunk then
    match (c.ehomeDecoder chunk.connId).decode chunk.data with
    | .ok (_, _, outputs) => outputs
    | .error _ => []
  else []

/-- The core with the decoder that the chunk leaves. -/
def ehomeLatched (c : RtpCore) (chunk : RtpTcpChunk) : RtpCore :=
  match (c.ehomeDecoder chunk.connId).decode chunk.data with
  | .ok (decoder, _, _) => { c with ehomeDecoders := c.ehomeDecoders.insert chunk.connId decoder }
  | .error _ => c

theorem processTcpBytes_evolves {chunk : RtpTcpChunk}
    (h : c.processTcpBytes order chunk = .ok (c', outputs))
    (hfit : p → CodecsFit order key chunk.connId (c.ehomeLatched chunk) (c.ehomeOutputs chunk)) :
    Evolution key p c c' outputs := by
  unfold processTcpBytes at h
  split at h
  · rename_i hehome
    obtain ⟨⟨decoder, rest, decoded⟩, hdecoded, h⟩ := bind_eq_ok h
    rw [ehomeLatched, ehomeOutputs, if_pos hehome, hdecoded] at hfit
    exact (processEhomeOutputs_evolves h hfit).of_lookup_eq rfl
  · refine deframe_evolves _ _ (fun c' outputs hstart => ?_) h
    cases hstart
    exact .refl c

theorem processTcpConnectionClosed_evolves
    (h : c.processTcpConnectionClosed order conn = .ok (c', outputs)) :
    Evolution key p c c' outputs := by
  unfold processTcpConnectionClosed at h
  dsimp only at h
  split at h <;> cases h
  · exact .closeSessions c _
  · exact (Evolution.closeSessions c _).trans (.of_sessions rfl (quiet_one rfl rfl))

theorem handleRtcpPackets_evolves (c : RtpCore) (packets : List RtcpPacket) :
    Evolution key p c (handleRtcpPackets order addr c packets).1 [] := by
  have hpacket (c : RtpCore) (packet : RtcpPacket) :
      Evolution key p c (handleRtcpPacket order addr c packet).1 [] := by
    unfold handleRtcpPacket
    split
    · refine .foldl (fun c' k => .modify c' k fun s => ?_) c _
      exact .ite (.of_same rfl rfl rfl rfl) (.refl p s)
    · refine .foldl (fun c' block => ?_) c _
      split
      · exact .modify c' _ fun s => .of_same rfl rfl rfl rfl
      · exact .refl c'
    · exact .refl c
    · exact .refl c
  induction packets generalizing c with
  | nil => exact .refl c
  | cons packet packets ih => exact (hpacket c packet).trans (ih _)

theorem closeByes_evolves (c : RtpCore) (keys : List RtpSessionKey) :
    Evolution key p c (closeByes addr c keys).1 (closeByes addr c keys).2 := by
  induction keys generalizing c with
  | nil => exact .refl c
  | cons k keys ih =>
    have hmodified : Evolution key p c
        (c.modifySession k fun s => { s with rtcpSourceAddr := some addr }) [] :=
      .modify c k fun s => .of_same rfl rfl rfl rfl
    exact (hmodified.trans (.close _ k .bye)).trans (ih _)

theorem processRtcpPacket_evolves (c : RtpCore) (datagram : RtpDatagram) :
    Evolution key p c (c.processRtcpPacket order datagram).1
      (c.processRtcpPacket order datagram).2 := by
  unfold processRtcpPacket
  split
  · exact .refl c
  · exact (handleRtcpPackets_evolves c _).trans (closeByes_evolves _ _)

theorem tickSessions_evolves (c : RtpCore) (keys : List RtpSessionKey) :
    Evolution key p c (c.tickSessions keys).1 (c.tickSessions keys).2.1 := by
  induction keys generalizing c with
  | nil => exact .refl c
  | cons k keys ih =>
    unfold tickSessions
    split
    · exact ih c
    · rename_i s hs
      dsimp only
      have hchecked := s.checkTimeouts_keeps (p := p) c.toRtpCoreSettings c.nowMs
      split
      · exact (Evolution.put_quiet hs hchecked quiet_nil).trans (ih _)
      · obtain ⟨hreported, hquiet⟩ := RtpSession.report_keeps key (p := p)
          (s.checkTimeouts c.toRtpCoreSettings c.nowMs).1 c.toRtpCoreSettings c.nowMs
        exact (Evolution.put_quiet hs (hchecked.trans hreported) hquiet).trans (ih _)

theorem processTick_evolves (c : RtpCore) (nowMs : UInt64) :
    Evolution key p c (c.processTick order nowMs).1 (c.processTick order nowMs).2 :=
  ((tickSessions_evolves _ _).trans (.closeSessions _ _)).of_lookup_eq rfl

theorem createServer_evolves (c : RtpCore) (spec : RtpServerSpec) (random : UInt32) :
    Evolution key p c (c.createServer spec random).1 (c.createServer spec random).2 := by
  unfold createServer
  dsimp only
  split
  · exact .refl c
  · refine (Evolution.create ?_).congr rfl
    exact ⟨rfl, rfl, rfl, rfl, rfl, fun _ => ⟨rfl, trivial⟩⟩

theorem attachClient_evolves (hs : c.sessions.lookup spec.sessionKey = some s) :
    Evolution key p c (c.attachClient s spec).1 (c.attachClient s spec).2 := by
  have hsessions (c₁ : RtpCore) (hc₁ : c₁ = if spec.tcpConnId.isSome then
      (c.unmapConn s.tcpConnId).mapConn spec.tcpConnId spec.sessionKey else c) :
      c₁.sessions = c.sessions := by
    rw [hc₁]
    split <;> simp
  unfold attachClient
  dsimp only
  generalize hc₁ : (if spec.tcpConnId.isSome then (c.unmapConn s.tcpConnId).mapConn
    spec.tcpConnId spec.sessionKey else c) = c₁
  have hlookup : c₁.sessions.lookup spec.sessionKey = some s := by rw [hsessions c₁ hc₁.symm, hs]
  have hbefore : c₁.sessions.lookup key = c.sessions.lookup key := by rw [hsessions c₁ hc₁.symm]
  split
  · have hattached : s.Keeps p { s with
        tcpConnId := spec.tcpConnId.or s.tcpConnId
        transportMode := spec.transportMode
        egressTrackFilter := spec.trackFilter
        egressPayloadMode := spec.payloadMode
        packetDurationMs := spec.packetDurationMs
        destination := some spec.destination } := .of_same rfl rfl rfl rfl
    exact (Evolution.put_quiet hlookup
      (hattached.trans (RtpSession.stateChanged_keeps _ spec.sessionKey .talk))
      (RtpSession.stateChanged_quiet _ _ _)).of_lookup_eq hbefore
  · refine (Evolution.put_quiet hlookup ?_ quiet_nil).of_lookup_eq hbefore
    exact .of_same rfl rfl rfl rfl

theorem createClient_evolves (c : RtpCore) (spec : RtpClientSpec) :
    Evolution key p c (c.createClient spec).1 (c.createClient spec).2 := by
  unfold createClient
  dsimp only
  split
  · rename_i s hs
    exact attachClient_evolves hs
  · refine (Evolution.create ?_).congr (mapConn_sessions ..)
    exact ⟨rfl, rfl, rfl, rfl, rfl, fun _ => ⟨rfl, trivial⟩⟩

theorem setWallClockOffsetMs_evolves (c : RtpCore) (ms : UInt64) :
    Evolution key p c (c.setWallClockOffsetMs order ms) [] := by
  have hmodified (c : RtpCore) (k : RtpSessionKey) : Evolution key p c
      (c.modifySession k fun s => { s with rtcpSender.wallClockOffsetMs := ms }) [] :=
    .modify c k fun s => .of_same rfl rfl rfl rfl
  exact (Evolution.foldl hmodified { c with wallClockOffsetMs := ms } _).of_lookup_eq rfl

/-- The update finds nothing to refuse it for. -/
def Applies (c : RtpCore) (key : RtpSessionKey) (patch : RtpSessionPatch) (s : RtpSession) : Prop :=
  ¬(patch.ssrc = none ∧ patch.payloadType = none ∧ patch.pauseCheck = none ∧
    patch.sourcePolicy = none) ∧
  s.generation = patch.expectedGeneration ∧
  ∀ ssrc, patch.ssrc = some ssrc → ssrc ≠ s.ssrc →
    (c.ssrcToSession.lookup ssrc).any (· ≠ key) = false

/-- The same maps, in which only the order of the entries may differ. -/
def SameMaps (c c' : RtpCore) : Prop :=
  { c' with sessions := c.sessions } = c ∧
    ∀ key, c'.sessions.lookup key = c.sessions.lookup key

/-- The session out of the map and back in its place. -/
theorem sameMaps_put (hs : c.sessions.lookup k = some s) :
    SameMaps c ({ c with sessions := c.sessions.erase k }.putSession k s) := by
  refine ⟨rfl, fun key => ?_⟩
  by_cases heq : key = k
  · subst heq
    rw [hs, lookup_putSession_self]
  · rw [lookup_putSession_ne _ _ heq]
    exact AList.lookup_erase_ne heq

/-- The session that an update leaves, with its new generation. -/
def updated (c : RtpCore) (patch : RtpSessionPatch) (s : RtpSession) (generation : Nat) :
    RtpSession :=
  { (s.patch c.nowMs patch).1 with
    generation := generation
    updatedAtMs := if (s.patch c.nowMs patch).2 then c.nowMs else s.updatedAtMs
    lastError := none }

theorem nextGeneration_eq (h : s.nextGeneration changed = .ok generation) :
    generation = if changed then s.generation + 1 else s.generation := by
  cases changed with
  | true => exact (u64_eq_ok.mp h).2.symm
  | false => exact (Except.ok.inj h).symm

theorem handleUpdateSession_cases {patch : RtpSessionPatch}
    (h : c.handleUpdateSession k patch = .ok (c', outputs)) :
    (∃ reason, outputs = updateFailed k reason ∧ SameMaps c c') ∨
    ∃ s generation, c.sessions.lookup k = some s ∧ c.Applies k patch s ∧
      generation = (if (s.patch c.nowMs patch).2 then s.generation + 1 else s.generation) ∧
      c'.sessions.lookup k = some (c.updated patch s generation) ∧
      (∀ key, key ≠ k → c'.sessions.lookup key = c.sessions.lookup key) ∧
      ∃ ssrc paused policy, outputs =
        [.event (.sessionUpdated k generation ssrc patch.payloadType paused policy)] := by
  unfold handleUpdateSession at h
  split at h
  · cases h
    exact .inl ⟨_, rfl, rfl, fun _ => rfl⟩
  · rename_i s hs
    dsimp only at h
    split at h
    · cases h
      exact .inl ⟨_, rfl, sameMaps_put hs⟩
    · rename_i hempty
      split at h
      · cases h
        exact .inl ⟨_, rfl, sameMaps_put hs⟩
      · rename_i hgeneration
        split at h
        · cases h
          exact .inl ⟨_, rfl, sameMaps_put hs⟩
        · rename_i hfree
          obtain ⟨generation, hnext, h⟩ := bind_eq_ok h
          cases h
          refine .inr ⟨s, generation, hs, ⟨hempty, not_not.mp hgeneration, fun ssrc hssrc hne => ?_⟩,
            ?_, lookup_putSession_self .., fun key hne => ?_, _, _, _, rfl⟩
          · simpa [hssrc, hne] using hfree
          · exact nextGeneration_eq hnext
          · rw [lookup_putSession_ne _ _ hne]
            exact AList.lookup_erase_ne hne

end RtpCore

namespace RtpSession

theorem patchSsrc_keeps (s : RtpSession) (ssrc : Option UInt32) :
    s.Keeps p (s.patchSsrc ssrc).1 := by
  unfold patchSsrc
  split
  · split
    · exact .of_same rfl rfl rfl rfl
    · exact .refl p s
  · exact .refl p s

theorem patchSsrc_payloadMode (s : RtpSession) (ssrc : Option UInt32) :
    (s.patchSsrc ssrc).1.payloadMode = s.payloadMode := by
  unfold patchSsrc
  split
  · split <;> rfl
  · rfl

/-- The clock rate is not set anew, so that it has to fit the new mode as it is. -/
theorem patchPayloadType_keeps (s : RtpSession) {payloadType : Option UInt8}
    (hrate : p → ∀ pt, payloadType = some pt →
      defaultClockRateHz (payloadModeFromPayloadType pt) = defaultClockRateHz s.payloadMode) :
    s.Keeps p (s.patchPayloadType payloadType).1 := by
  unfold patchPayloadType
  split
  · rename_i pt
    dsimp only
    split
    · exact ⟨rfl, rfl, rfl, rfl, rfl, id, fun hp hs =>
        ⟨hs.clockRate.trans (hrate hp pt rfl).symm, trivial⟩⟩
    · exact .of_same rfl rfl rfl rfl
  · exact .refl p s

theorem patchPauseCheck_keeps (s : RtpSession) (nowMs : UInt64) (paused : Option Bool) :
    s.Keeps p (s.patchPauseCheck nowMs paused).1 := by
  unfold patchPauseCheck
  split
  · split
    · exact .of_same rfl rfl rfl rfl
    · exact .refl p s
  · exact .refl p s

theorem patchSourcePolicy_keeps (s : RtpSession) (policy : Option RtpSourcePolicy) :
    s.Keeps p (s.patchSourcePolicy policy).1 := by
  unfold patchSourcePolicy
  split
  · split
    · exact .of_same rfl rfl rfl rfl
    · exact .refl p s
  · exact .refl p s

theorem patch_keeps (s : RtpSession) (nowMs : UInt64) {patch : RtpSessionPatch}
    (hrate : p → ∀ pt, patch.payloadType = some pt →
      defaultClockRateHz (payloadModeFromPayloadType pt) = defaultClockRateHz s.payloadMode) :
    s.Keeps p (s.patch nowMs patch).1 := by
  have hssrc := s.patchSsrc_keeps (p := p) patch.ssrc
  have hpayloadType := (s.patchSsrc patch.ssrc).1.patchPayloadType_keeps (p := p) fun hp pt
    (hpt : patch.payloadType = some pt) => by rw [s.patchSsrc_payloadMode, hrate hp pt hpt]
  exact ((hssrc.trans hpayloadType).trans (patchPauseCheck_keeps _ nowMs patch.pauseCheck)).trans
    (patchSourcePolicy_keeps _ patch.sourcePolicy)

end RtpSession

namespace RtpCore
variable {order : RtpMapOrder}

/-- The clock rate of the session's mode is that of the mode that the patch asks for. -/
def RateFits (c : RtpCore) (key : RtpSessionKey) (patch : RtpSessionPatch) : Prop :=
  ∀ s, c.sessions.lookup key = some s → c.Applies key patch s →
    ∀ pt, patch.payloadType = some pt →
      defaultClockRateHz (payloadModeFromPayloadType pt) = defaultClockRateHz s.payloadMode

theorem handleUpdateSession_evolves {patch : RtpSessionPatch}
    (h : c.handleUpdateSession k patch = .ok (c', outputs))
    (hfit : p → k = key → c.RateFits k patch) : Evolution key p c c' outputs := by
  rcases handleUpdateSession_cases h with ⟨reason, rfl, hsame⟩ |
    ⟨s, generation, hs, happlies, -, hafter, hother, ssrc, paused, policy, rfl⟩
  · exact .of_lookup (hsame.2 key) (quiet_one rfl rfl)
  · by_cases heq : key = k
    · subst heq
      have hpatched : s.Keeps p (s.patch c.nowMs patch).1 :=
        s.patch_keeps c.nowMs fun hp => hfit hp rfl s hs happlies
      have hkeeps : s.Keeps p (c.updated patch s generation) :=
        ⟨hpatched.sessionKey, hpatched.nextSeq, hpatched.nextTimestamp, hpatched.packetsSent,
          hpatched.bytesSent, fun _ => rfl,
          fun hp hc => (hpatched.consistent hp hc).congr rfl rfl rfl⟩
      exact .of_kept hs hafter hkeeps (quiet_one rfl rfl)
    · exact .of_lookup (hother key heq) (quiet_one rfl rfl)

/-- What keeps the state that is derived from the payload mode: an update asks for no mode of
another clock rate, and no Ehome handshake reaches the session with a codec of another mode. -/
def ModeFits (order : RtpMapOrder) (key : RtpSessionKey) (c : RtpCore) : Call → Prop
  | .input (.command (.updateSession k patch)) => k = key → c.RateFits k patch
  | .input (.tcpBytes chunk) =>
    CodecsFit order key chunk.connId (c.ehomeLatched chunk) (c.ehomeOutputs chunk)
  | _ => True

theorem processCommand_evolves {cmd : RtpCoreCommand}
    (h : c.processCommand cmd = .ok (c', outputs)) (hsend : ∀ k frame, cmd ≠ .sendFrame k frame)
    (hfit : p → ModeFits order key c (.input (.command cmd))) : Evolution key p c c' outputs := by
  cases cmd with
  | createServer spec random => exact .of_ok (createServer_evolves c spec random) h
  | createClient spec => exact .of_ok (createClient_evolves c spec) h
  | sendFrame k frame => exact absurd rfl (hsend k frame)
  | stopSession k => exact .of_ok (.close c k .stopped) h
  | updateSession k patch => exact handleUpdateSession_evolves h hfit
  | pauseCheck k paused =>
    cases h
    exact .modify c k fun s => .of_same rfl rfl rfl rfl
  | reportSendFailure k reason =>
    cases h
    exact (Evolution.of_sessions rfl (quiet_one rfl rfl)).trans (.close c k .connectionClosed)

/-- Whatever is done with the core but to send a frame. -/
theorem call_evolves {a : Call} (h : c.call order a = .ok (c', outputs))
    (hsend : ∀ k frame, a ≠ .input (.command (.sendFrame k frame)))
    (hfit : p → ModeFits order key c a) : Evolution key p c c' outputs := by
  cases a with
  | input input =>
    cases input with
    | udpPacket datagram => exact processUdpPacket_evolves h
    | tcpBytes chunk => exact processTcpBytes_evolves h hfit
    | tcpConnectionClosed conn => exact processTcpConnectionClosed_evolves h
    | rtcpPacket datagram => exact .of_ok (processRtcpPacket_evolves c datagram) h
    | tick nowMs => exact .of_ok (processTick_evolves c nowMs) h
    | command cmd =>
      exact processCommand_evolves h (fun k frame heq => hsend k frame (by rw [heq])) hfit
  | setWallClockOffsetMs ms =>
    cases h
    exact setWallClockOffsetMs_evolves c ms
  | _ =>
    cases h
    exact .of_sessions rfl quiet_nil

end RtpCore

end CheetahMedia.Rtp
