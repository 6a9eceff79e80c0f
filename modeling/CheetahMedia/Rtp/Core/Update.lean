import CheetahMedia.Rtp.Core.Egress

namespace CheetahMedia.Rtp
open Lib Lib.Checked Codec

variable {key k : RtpSessionKey} {c c' : RtpCore} {s s' : RtpSession} {outputs : List RtpCoreOutput}

/-- What is asked of a value that there may not be. -/
local instance decidableForallSome {o : Option α} {P : α → Prop} [∀ a, Decidable (P a)] :
    Decidable (∀ a, o = some a → P a) :=
  decidable_of_iff (o.all (decide <| P ·) = true) (by cases o <;> simp)

instance (mode : RtpPayloadMode) : ∀ d : SessionDemuxer, Decidable (d.Fits mode)
  | .pending => inferInstanceAs (Decidable True)
  | .ts _ => inferInstanceAs (Decidable (mode = .ts))
  | .ps _ => inferInstanceAs (Decidable (mode = .ps))
  | .bypass => inferInstanceAs (Decidable (mode ≠ .ts ∧ mode ≠ .ps))

namespace RtpSession

/-- What a patch can ask for. -/
def patchable (s : RtpSession) :
    UInt32 × Option UInt8 × RtpPayloadMode × Bool × RtpSourcePolicy :=
  (s.ssrc, s.payloadType, s.payloadMode, s.checkPaused, s.sourcePolicy)

/-- All of the session but what an update counts it with. -/
def content (s : RtpSession) : RtpSession := { s with generation := 0, updatedAtMs := 0 }

theorem content_ne (h : s'.patchable ≠ s.patchable) : s'.content ≠ s.content := fun heq =>
  h (congrArg patchable heq : s'.content.patchable = s.content.patchable)

/-- The flag tells whether what is looked at has changed. -/
structure Revises (view : RtpSession → α) (s : RtpSession) (r : RtpSession × Bool) : Prop where
  changed : r.2 = true → view r.1 ≠ view s
  kept : r.2 = false → r.1 = s

theorem Revises.unchanged (view : RtpSession → α) (s : RtpSession) : Revises view s (s, false) :=
  ⟨fun h => absurd h Bool.false_ne_true, fun _ => rfl⟩

theorem patchSsrc_revises (s : RtpSession) (ssrc : Option UInt32) :
    Revises (·.ssrc) s (s.patchSsrc ssrc) := by
  unfold patchSsrc
  split
  · split
    · rename_i hne
      exact ⟨fun _ => hne, fun h => by cases h⟩
    · exact .unchanged _ s
  · exact .unchanged _ s

theorem patchPayloadType_revises (s : RtpSession) (payloadType : Option UInt8) :
    Revises (fun s => (s.payloadType, s.payloadMode)) s (s.patchPayloadType payloadType) := by
  unfold patchPayloadType
  split
  · rename_i pt
    dsimp only
    split
    · rename_i hne
      exact ⟨fun _ h => hne (congrArg Prod.snd h).symm, fun h => by cases h⟩
    · refine ⟨fun h heq => of_decide_eq_true h (congrArg Prod.fst heq).symm, fun h => ?_⟩
      have hsame : s.payloadType = some pt := not_not.mp (of_decide_eq_false h)
      rw [← hsame]
  · exact .unchanged _ s

theorem patchPauseCheck_revises (s : RtpSession) (nowMs : UInt64) (paused : Option Bool) :
    Revises (·.checkPaused) s (s.patchPauseCheck nowMs paused) := by
  unfold patchPauseCheck
  split
  · split
    · rename_i hne
      exact ⟨fun _ h => hne h.symm, fun h => by cases h⟩
    · exact .unchanged _ s
  · exact .unchanged _ s

theorem patchSourcePolicy_revises (s : RtpSession) (policy : Option RtpSourcePolicy) :
    Revises (·.sourcePolicy) s (s.patchSourcePolicy policy) := by
  unfold patchSourcePolicy
  split
  · split
    · rename_i hne
      exact ⟨fun _ h => hne h.symm, fun h => by cases h⟩
    · exact .unchanged _ s
  · exact .unchanged _ s

/-- What was patched before stays as it was patched. -/
theorem patchPayloadType_frame (s : RtpSession) (payloadType : Option UInt8) :
    (s.patchPayloadType payloadType).1.ssrc = s.ssrc := by
  unfold patchPayloadType
  split
  · dsimp only
    split <;> rfl
  · rfl

theorem patchPauseCheck_frame (s : RtpSession) (nowMs : UInt64) (paused : Option Bool) :
    ((s.patchPauseCheck nowMs paused).1.ssrc, (s.patchPauseCheck nowMs paused).1.payloadType,
      (s.patchPauseCheck nowMs paused).1.payloadMode) = (s.ssrc, s.payloadType, s.payloadMode) := by
  unfold patchPauseCheck
  split
  · split <;> rfl
  · rfl

theorem patchSourcePolicy_frame (s : RtpSession) (policy : Option RtpSourcePolicy) :
    ((s.patchSourcePolicy policy).1.ssrc, (s.patchSourcePolicy policy).1.payloadType,
      (s.patchSourcePolicy policy).1.payloadMode, (s.patchSourcePolicy policy).1.checkPaused) =
      (s.ssrc, s.payloadType, s.payloadMode, s.checkPaused) := by
  unfold patchSourcePolicy
  split
  · split <;> rfl
  · rfl

/-- The first piece that changes something is seen in the end. -/
theorem patch_revises (s : RtpSession) (nowMs : UInt64) (patch : RtpSessionPatch) :
    Revises patchable s (s.patch nowMs patch) := by
  have hssrc := s.patchSsrc_revises patch.ssrc
  have htype := (s.patchSsrc patch.ssrc).1.patchPayloadType_revises patch.payloadType
  have htype' := (s.patchSsrc patch.ssrc).1.patchPayloadType_frame patch.payloadType
  unfold RtpSession.patch
  generalize s.patchSsrc patch.ssrc = r₁ at *
  obtain ⟨s₁, ssrcChanged⟩ := r₁
  dsimp only at *
  have hpause := (s₁.patchPayloadType patch.payloadType).1.patchPauseCheck_revises nowMs
    patch.pauseCheck
  have hpause' := (s₁.patchPayloadType patch.payloadType).1.patchPauseCheck_frame nowMs
    patch.pauseCheck
  generalize s₁.patchPayloadType patch.payloadType = r₂ at *
  obtain ⟨s₂, typeChanged⟩ := r₂
  dsimp only at *
  have hpolicy := (s₂.patchPauseCheck nowMs patch.pauseCheck).1.patchSourcePolicy_revises
    patch.sourcePolicy
  have hpolicy' := (s₂.patchPauseCheck nowMs patch.pauseCheck).1.patchSourcePolicy_frame
    patch.sourcePolicy
  generalize s₂.patchPauseCheck nowMs patch.pauseCheck = r₃ at *
  obtain ⟨s₃, pauseChanged⟩ := r₃
  dsimp only at *
  generalize s₃.patchSourcePolicy patch.sourcePolicy = r₄ at *
  obtain ⟨s₄, policyChanged⟩ := r₄
  simp only [Prod.mk.injEq] at hpause' hpolicy'
  obtain ⟨hssrc₃, htype₃, hmode₃⟩ := hpause'
  obtain ⟨hssrc₄, htype₄, hmode₄, hpaused₄⟩ := hpolicy'
  refine ⟨fun hchanged heq => ?_, fun hkept => ?_⟩
  · simp only [patchable, Prod.mk.injEq] at heq
    obtain ⟨hsameSsrc, hsameType, hsameMode, hsamePaused, hsamePolicy⟩ := heq
    have hfirst : ssrcChanged = false := Bool.eq_false_iff.mpr fun h =>
      hssrc.changed h (by rw [← htype', ← hssrc₃, ← hssrc₄, hsameSsrc])
    obtain rfl : s₁ = s := hssrc.kept hfirst
    have hsecond : typeChanged = false := Bool.eq_false_iff.mpr fun h =>
      htype.changed h (by rw [← htype₃, ← hmode₃, ← htype₄, ← hmode₄, hsameType, hsameMode])
    obtain rfl : s₂ = s₁ := htype.kept hsecond
    have hthird : pauseChanged = false := Bool.eq_false_iff.mpr fun h =>
      hpause.changed h (by rw [← hpaused₄, hsamePaused])
    obtain rfl : s₃ = s₂ := hpause.kept hthird
    have hfourth : policyChanged = false := Bool.eq_false_iff.mpr fun h =>
      hpolicy.changed h hsamePolicy
    simp [hfirst, hsecond, hthird, hfourth] at hchanged
  · simp only [Bool.or_eq_false_iff] at hkept
    obtain ⟨⟨⟨hfirst, hsecond⟩, hthird⟩, hfourth⟩ := hkept
    rw [← hssrc.kept hfirst, ← htype.kept hsecond, ← hpause.kept hthird]
    exact hpolicy.kept hfourth

end RtpSession

/-- The output says that a session begins. -/
def RtpCoreOutput.creates (key : RtpSessionKey) : RtpCoreOutput → Bool
  | .event (.sessionCreated key' ..) => key' = key
  | _ => false

theorem RtpCoreOutput.marks_of_creates {o : RtpCoreOutput} (h : o.creates key = true) :
    o.marks key = true := by
  unfold creates at h
  split at h
  · exact h
  · cases h

theorem created_marked (h : outputs.any (·.creates key) = true) :
    outputs.any (·.marks key) = true := by
  obtain ⟨o, ho, hcreates⟩ := List.any_eq_true.mp h
  exact List.any_eq_true.mpr ⟨o, ho, RtpCoreOutput.marks_of_creates hcreates⟩

namespace RtpCore
variable {order : RtpMapOrder}

/-- The session is created by an Ehome handshake, if the call creates one. -/
def isHandshake (c : RtpCore) : Call → Bool
  | .input (.tcpBytes chunk) => c.isEhomeChunk chunk
  | _ => false

/-- Whether the session under the key was created by an Ehome handshake. -/
def originates (c : RtpCore) (key : RtpSessionKey) (handshake : Bool) (a : Call)
    (outputs : List RtpCoreOutput) : Bool :=
  if outputs.any (·.creates key) then c.isHandshake a else handshake

/-- The codecs of the outputs go with the modes that they find, but for a session of the
handshake's own. -/
def CodecsAgree (order : RtpMapOrder) (key : RtpSessionKey) (conn : UInt64) :
    Bool → RtpCore → List EhomeOutput → Prop
  | _, _, [] => True
  | handshake, c, output :: rest => (handshake = false → CodecFits key conn c output) ∧
    match processEhomeOutput order conn c output with
    | .ok (c', outputs) =>
      CodecsAgree order key conn (handshake || outputs.any (·.creates key)) c' rest
    | .error _ => True

/-- An update asks for no mode of another clock rate, and no handshake reaches the session with a
codec of another mode, unless it is the handshake's session. -/
def ModeAgrees (order : RtpMapOrder) (key : RtpSessionKey) (x : RtpCore × Bool) : Call → Prop
  | .input (.command (.updateSession k patch)) => x.2 = false → k = key → x.1.RateFits k patch
  | .input (.tcpBytes chunk) =>
    CodecsAgree order key chunk.connId x.2 (x.1.ehomeLatched chunk) (x.1.ehomeOutputs chunk)
  | _ => True

instance (c : RtpCore) (key : RtpSessionKey) (patch : RtpSessionPatch) (s : RtpSession) :
    Decidable (c.Applies key patch s) :=
  inferInstanceAs (Decidable (_ ∧ _ ∧ ∀ ssrc, patch.ssrc = some ssrc → _ → _ = false))

instance (c : RtpCore) (key : RtpSessionKey) (patch : RtpSessionPatch) :
    Decidable (c.RateFits key patch) :=
  inferInstanceAs (Decidable (∀ s, c.sessions.lookup key = some s → c.Applies key patch s →
    ∀ pt, patch.payloadType = some pt → _ = _))

instance (key : RtpSessionKey) (conn : UInt64) (c : RtpCore) :
    ∀ output, Decidable (CodecFits key conn c output)
  | .handshakeCodec codec => inferInstanceAs (Decidable (_ → ∀ s, c.sessions.lookup key = some s →
      (ehomeDemuxer codec).Fits s.payloadMode))
  | .handshakeSsrc _ => inferInstanceAs (Decidable True)
  | .mediaPayload _ => inferInstanceAs (Decidable True)

instance decidableCodecsAgree (order : RtpMapOrder) (key : RtpSessionKey) (conn : UInt64) :
    ∀ handshake c l, Decidable (CodecsAgree order key conn handshake c l)
  | _, _, [] => inferInstanceAs (Decidable True)
  | handshake, c, output :: rest =>
    match h : processEhomeOutput order conn c output with
    | .ok (c', outputs) =>
      have : Decidable (CodecsAgree order key conn (handshake || outputs.any (·.creates key)) c'
        rest) := decidableCodecsAgree order key conn _ c' rest
      decidable_of_iff ((handshake = false → CodecFits key conn c output) ∧
        CodecsAgree order key conn (handshake || outputs.any (·.creates key)) c' rest)
        (by simp [CodecsAgree, h])
    | .error _ => decidable_of_iff (handshake = false → CodecFits key conn c output)
        (by simp [CodecsAgree, h])

instance (order : RtpMapOrder) (key : RtpSessionKey) (x : RtpCore × Bool) :
    ∀ a, Decidable (ModeAgrees order key x a) := fun a => by
  unfold ModeAgrees
  split <;> infer_instance

/-- As long as the handshake creates no session under the key, its codecs have to fit. -/
theorem CodecsAgree.fit {l : List EhomeOutput}
    (h : processEhomeOutputs order conn c l = .ok (c', outputs))
    (hcreates : outputs.any (·.creates key) = false)
    (hagree : CodecsAgree order key conn false c l) : CodecsFit order key conn c l := by
  induction l generalizing c outputs with
  | nil => trivial
  | cons output l ih =>
    obtain ⟨⟨c₁, first⟩, hfirst, h⟩ := bind_eq_ok h
    obtain ⟨⟨c₂, more⟩, hmore, h⟩ := bind_eq_ok h
    cases h
    rw [List.any_append, Bool.or_eq_false_iff] at hcreates
    obtain ⟨hnow, hlater⟩ := hagree
    rw [hfirst] at hlater
    dsimp only at hlater
    rw [hcreates.1, Bool.or_false] at hlater
    refine ⟨hnow rfl, fun c' outputs heq => ?_⟩
    rw [hfirst] at heq
    cases heq
    exact ih hmore hcreates.2 hlater

theorem processTcpBytes_fits {chunk : RtpTcpChunk}
    (h : c.processTcpBytes order chunk = .ok (c', outputs))
    (hagree : CodecsAgree order key chunk.connId handshake (c.ehomeLatched chunk)
      (c.ehomeOutputs chunk))
    (horigin : c.originates key handshake (.input (.tcpBytes chunk)) outputs = false) :
    CodecsFit order key chunk.connId (c.ehomeLatched chunk) (c.ehomeOutputs chunk) := by
  by_cases hehome : c.isEhomeChunk chunk = true
  · have hcreates : outputs.any (·.creates key) = false := Bool.eq_false_iff.mpr fun hcreates => by
      rw [originates, if_pos hcreates, isHandshake, hehome] at horigin
      cases horigin
    rw [originates, hcreates, if_neg Bool.false_ne_true] at horigin
    rw [horigin] at hagree
    unfold processTcpBytes at h
    rw [if_pos hehome] at h
    obtain ⟨⟨decoder, rest, decoded⟩, hdecoded, h⟩ := bind_eq_ok h
    rw [ehomeLatched, ehomeOutputs, if_pos hehome, hdecoded] at hagree ⊢
    exact hagree.fit h hcreates
  · rw [ehomeOutputs, if_neg hehome]
    trivial

/-- A call that leaves a session of no handshake under the key keeps its derived state. -/
theorem ModeAgrees.fits {a : Call} (h : c.call order a = .ok (c', outputs))
    (hagree : ModeAgrees order key (c, handshake) a)
    (horigin : c.originates key handshake a outputs = false) : ModeFits order key c a := by
  cases a with
  | input input =>
    cases input with
    | tcpBytes chunk => exact processTcpBytes_fits h hagree horigin
    | command cmd =>
      cases cmd with
      | updateSession k patch =>
        have hcreates : outputs.any (·.creates key) = false := by
          rcases handleUpdateSession_cases h with ⟨reason, rfl, -⟩ |
            ⟨s, generation, -, -, -, -, -, ssrc, paused, policy, rfl⟩ <;> rfl
        rw [originates, hcreates, if_neg Bool.false_ne_true] at horigin
        exact hagree horigin
      | _ => trivial
    | _ => trivial
  | _ => trivial

end RtpCore

/-- The core, and whether the session under the key was created by an Ehome handshake. -/
def originated (order : RtpMapOrder) (key : RtpSessionKey) :
    Transition (RtpCore × Bool) RtpCore.Call RtpCoreOutput := fun (c, handshake) a =>
  match c.call order a with
  | .ok (c', outputs) => some ((c', c.originates key handshake a outputs), outputs)
  | .error _ => none

/-- No session has an error to forget, and under `p` one of no handshake is consistent. -/
structure Derived (p : Prop) (key : RtpSessionKey) (x : RtpCore × Bool) : Prop where
  lastError : ∀ k s, x.1.sessions.lookup k = some s → s.lastError = none
  consistent : p → x.2 = false → ∀ s, x.1.sessions.lookup key = some s → s.Consistent

theorem derived_new (maxSessions : Nat) (timeoutMs : UInt64) :
    Derived p key (.new maxSessions timeoutMs, false) :=
  ⟨fun _ _ h => (by cases h), fun _ _ _ h => (by cases h)⟩

theorem Evolution.lastError (hnone : ∀ s, c.sessions.lookup k = some s → s.lastError = none)
    (h : Evolution k p c c' outputs) (hs : c'.sessions.lookup k = some s) : s.lastError = none :=
  h.session.preserves (P := fun s => s.lastError = none) (fun _ _ hv hw => hw.lastError hv)
    (fun _ hv => hv.lastError) hnone hs

/-- A call that sends no frame. -/
theorem Derived.evolves {a : RtpCore.Call} (h : Derived p key (c, handshake))
    (hany : ∀ k, Evolution k False c c' outputs)
    (hkey : Evolution key (p ∧ c.originates key handshake a outputs = false) c c' outputs) :
    Derived p key (c', c.originates key handshake a outputs) where
  lastError k s hs := (hany k).lastError (h.lastError k) hs
  consistent hp horigin s hs := by
    have hsession := hkey.session
    generalize hm : outputs.any (·.marks key) = said at hsession
    cases hsession with
    | renewed hnew => exact (hnew s hs).consistent ⟨hp, horigin⟩
    | kept hkeeps =>
      have hcreates : outputs.any (·.creates key) = false := Bool.eq_false_iff.mpr fun hcreates => by
        rw [created_marked hcreates] at hm
        cases hm
      have hbefore := horigin
      rw [RtpCore.originates, hcreates, if_neg Bool.false_ne_true] at hbefore
      rw [show c'.sessions.lookup key = some s from hs] at hkeeps
      generalize hlookup : c.sessions.lookup key = before at hkeeps
      cases hkeeps with
      | some hkept => exact hkept.consistent ⟨hp, horigin⟩ (h.consistent hp hbefore _ hlookup)

/-- What a session looks like where only that under one key has changed. -/
theorem lookup_put {P : RtpSession → Prop} (hput : k' = k → P s)
    (hother : ∀ t, c.sessions.lookup k' = some t → P t)
    (ht : (c.putSession k s).sessions.lookup k' = some t) : P t := by
  by_cases heq : k' = k
  · subst heq
    rw [RtpCore.lookup_putSession_self] at ht
    cases ht
    exact hput rfl
  · exact hother t ((c.lookup_putSession_ne s heq).symm.trans ht)

theorem Derived.sends (h : Derived p key (c, handshake))
    (hsend : c.sendFrame k frame = .ok (c', outputs)) : Derived p key (c',
      c.originates key handshake (.input (.command (.sendFrame k frame))) outputs) := by
  have hkept (hcreates : outputs.any (·.creates key) = false) :
      c.originates key handshake (.input (.command (.sendFrame k frame))) outputs = handshake := by
    rw [RtpCore.originates, hcreates, if_neg Bool.false_ne_true]
  unfold RtpCore.sendFrame at hsend
  cases hs : c.sessions.lookup k with
  | none =>
    rw [hs] at hsend
    cases hsend
    exact h
  | some s =>
    rw [hs] at hsend
    obtain ⟨⟨s', sent⟩, hcase, hsend⟩ := bind_eq_ok hsend
    cases hsend
    have hunmarked : outputs.any (·.marks key) = false ∧ s'.lastError = s.lastError ∧
        (s.Consistent → s'.Consistent) := by
      rcases RtpSession.sendFrame_cases hcase with ⟨-, rfl, rfl⟩ | ⟨-, hsent⟩
      · exact ⟨rfl, rfl, id⟩
      · obtain ⟨herror, hmode, hrtcp⟩ : _ ∧ _ ∧ _ := by
          simpa only [Prod.mk.injEq] using hsent.derived
        exact ⟨hsent.unmarked, herror, fun hc => hc.congr hmode hsent.demuxer (by rw [hrtcp])⟩
    obtain ⟨hmarks, herror, hconsistent⟩ := hunmarked
    rw [hkept (Bool.eq_false_iff.mpr fun hcreates => by
      rw [created_marked hcreates] at hmarks
      cases hmarks)]
    refine ⟨fun k' t ht => ?_, fun hp hfalse t ht => ?_⟩
    · exact lookup_put (fun _ => herror.trans (h.lastError k s hs)) (h.lastError k') ht
    · exact lookup_put (fun heq => hconsistent (h.consistent hp hfalse s (by rw [heq]; exact hs)))
        (h.consistent hp hfalse) ht

theorem Derived.step {order : RtpMapOrder} {x y : RtpCore × Bool} (h : Derived p key x)
    (hagree : p → RtpCore.ModeAgrees order key x a)
    (hstep : originated order key x a = some (y, outputs)) : Derived p key y := by
  obtain ⟨c, handshake⟩ := x
  unfold originated at hstep
  dsimp only at hstep
  split at hstep
  · rename_i c' outputs' hcall
    cases hstep
    by_cases hsend : ∃ k frame, a = .input (.command (.sendFrame k frame))
    · obtain ⟨k, frame, rfl⟩ := hsend
      exact h.sends hcall
    · have hother (k' : RtpSessionKey) (frame : AVFrame) :
          a ≠ .input (.command (.sendFrame k' frame)) := fun heq => hsend ⟨k', frame, heq⟩
      exact h.evolves (fun k => RtpCore.call_evolves hcall hother False.elim)
        (RtpCore.call_evolves hcall hother fun hp => (hagree hp.1).fits hcall hp.2)
  · cases hstep

namespace RtpCore

/-- What an update does: when it fails, nothing; and otherwise the generation goes on by one if and
only if anything in the session has changed. -/
def UpdatesAtomically (c : RtpCore) (key : RtpSessionKey) (c' : RtpCore)
    (outputs : List RtpCoreOutput) : Prop :=
  (∃ reason, outputs = updateFailed key reason ∧ SameMaps c c') ∨
  ∃ s s', c.sessions.lookup key = some s ∧ c'.sessions.lookup key = some s' ∧
    (s'.generation = s.generation + 1 ↔ s'.content ≠ s.content) ∧
    (s'.content = s.content → s' = s) ∧
    ∃ ssrc payloadType paused policy, outputs =
      [.event (.sessionUpdated key s'.generation ssrc payloadType paused policy)]

/-- A patch that changes nothing leaves the session as it is. -/
theorem updated_eq {patch : RtpSessionPatch} (hnone : s.lastError = none)
    (h : (s.patch c.nowMs patch).2 = false) : c.updated patch s s.generation = s := by
  rw [updated, (s.patch_revises c.nowMs patch).kept h, h, ← hnone]
  rfl

theorem updated_content_ne {patch : RtpSessionPatch} (generation : Nat)
    (h : (s.patch c.nowMs patch).2 = true) :
    (c.updated patch s generation).content ≠ s.content :=
  RtpSession.content_ne ((s.patch_revises c.nowMs patch).changed h)

theorem handleUpdateSession_atomic {patch : RtpSessionPatch}
    (hnone : ∀ s, c.sessions.lookup key = some s → s.lastError = none)
    (h : c.handleUpdateSession key patch = .ok (c', outputs)) :
    c.UpdatesAtomically key c' outputs := by
  rcases handleUpdateSession_cases h with hfailed |
    ⟨s, generation, hs, -, hgeneration, hafter, -, ssrc, paused, policy, houtputs⟩
  · exact .inl hfailed
  · refine .inr ⟨s, _, hs, hafter, ?_⟩
    cases hchanged : (s.patch c.nowMs patch).2 with
    | true =>
      have hdiffers := updated_content_ne generation hchanged
      rw [hchanged, if_pos rfl] at hgeneration
      exact ⟨⟨fun _ => hdiffers, fun _ => hgeneration⟩, fun hsame => absurd hsame hdiffers, ssrc, _,
        paused, policy, houtputs⟩
    | false =>
      rw [hchanged, if_neg Bool.false_ne_true] at hgeneration
      subst hgeneration
      have hsame := updated_eq (hnone s hs) hchanged
      refine ⟨⟨fun hnext => ?_, fun hdiffers => ?_⟩, fun _ => hsame, ssrc, _, paused, policy,
        houtputs⟩
      · exact absurd hnext (Nat.ne_of_lt (Nat.lt_succ_self s.generation))
      · exact absurd (congrArg RtpSession.content hsame) hdiffers

/-- The generations do not run out. -/
theorem handleUpdateSession_returns {patch : RtpSessionPatch}
    (h : ∀ s, c.sessions.lookup key = some s → s.generation < 18446744073709551615) :
    ∃ r, c.handleUpdateSession key patch = .ok r := by
  unfold handleUpdateSession
  split
  · exact ⟨_, rfl⟩
  · rename_i s hs
    dsimp only
    split
    · exact ⟨_, rfl⟩
    · split
      · exact ⟨_, rfl⟩
      · split
        · exact ⟨_, rfl⟩
        · have hnext : ∃ generation,
              s.nextGeneration (s.patch c.nowMs patch).2 = .ok generation := by
            have hroom := h s hs
            unfold RtpSession.nextGeneration
            split
            · exact ⟨s.generation + 1, u64_eq_ok.mpr ⟨by omega, rfl⟩⟩
            · exact ⟨s.generation, rfl⟩
          obtain ⟨generation, hnext⟩ := hnext
          rw [hnext, ok_bind]
          exact ⟨_, rfl⟩

end RtpCore

/-- After any run an update is atomic, and does not panic as long as the generations do not run
out. After a run whose updates and handshakes go with the modes that they find, a session that no
handshake created is consistent. -/
theorem updates_consistent (order : RtpMapOrder) (maxSessions : Nat) (timeoutMs : UInt64)
    (key : RtpSessionKey) (calls : List RtpCore.Call)
    (hrun : Transition.run (originated order key) (.new maxSessions timeoutMs, false) calls =
      some ((c, handshake), outputs)) :
    (∀ patch,
      ((∀ s, c.sessions.lookup key = some s → s.generation < 18446744073709551615) →
        ∃ r, c.handleUpdateSession key patch = .ok r) ∧
      ∀ c' updates, c.handleUpdateSession key patch = .ok (c', updates) →
        c.UpdatesAtomically key c' updates) ∧
    (Transition.Along (originated order key) (RtpCore.ModeAgrees order key)
        (.new maxSessions timeoutMs, false) calls →
      handshake = false → ∀ s, c.sessions.lookup key = some s → s.Consistent) := by
  have hfree : Transition.Along (originated order key) (fun _ _ => True)
      (.new maxSessions timeoutMs, false) calls := Transition.along_of_forall fun _ _ => trivial
  have hany : Derived False key (c, handshake) := Transition.run_invariant (Derived False key)
    (fun _ _ _ _ h _ hstep => h.step False.elim hstep) (derived_new maxSessions timeoutMs)
    hfree hrun
  refine ⟨fun patch => ⟨RtpCore.handleUpdateSession_returns, fun _ _ =>
    RtpCore.handleUpdateSession_atomic (hany.lastError key)⟩, fun hagree => ?_⟩
  have hend : Derived True key (c, handshake) := Transition.run_invariant (Derived True key)
    (fun _ _ _ _ h hcond hstep => h.step (fun _ => hcond) hstep)
    (derived_new maxSessions timeoutMs) hagree hrun
  exact hend.consistent trivial

def talkUpdate (expectedGeneration : Nat) (payloadType : UInt8) : RtpCore.Call :=
  .input (.command (.updateSession "talk".toList
    { expectedGeneration := expectedGeneration, payloadType := some payloadType }))

theorem updates_consistent_talk : ∃ c outputs s,
    Transition.run (originated .listed "talk".toList) (.new 4 30000, false)
      [talkServer, talkUpdate 1 8, talkUpdate 1 0] = some ((c, false), outputs) ∧
    c.sessions.lookup "talk".toList = some s ∧ s.generation = 2 ∧ s.payloadType = some 8 ∧
      s.Consistent := by
  have hagree : Transition.Along (originated .listed "talk".toList)
      (RtpCore.ModeAgrees .listed "talk".toList) (.new 4 30000, false)
      [talkServer, talkUpdate 1 8, talkUpdate 1 0] := by decide +kernel
  have hseen : (Transition.run (originated .listed "talk".toList) (.new 4 30000, false)
      [talkServer, talkUpdate 1 8, talkUpdate 1 0]).map (fun r =>
        (r.1.2, (r.1.1.sessions.lookup "talk".toList).map fun s =>
          (s.generation, s.payloadType))) = some (false, some (2, some 8)) := by decide +kernel
  obtain ⟨⟨⟨c, handshake⟩, outputs⟩, hrun, hr⟩ := Option.map_eq_some_iff.mp hseen
  obtain ⟨rfl, hsession⟩ := Prod.mk.inj hr
  obtain ⟨s, hs, hfields⟩ := Option.map_eq_some_iff.mp hsession
  obtain ⟨hgeneration, hpayloadType⟩ := Prod.mk.inj hfields
  have hend := updates_consistent .listed 4 30000 "talk".toList _ hrun
  exact ⟨c, outputs, s, hrun, hs, hgeneration, hpayloadType, hend.2 hagree rfl s hs⟩

/-- An update to a payload type of another mode leaves the clock rate of the old one. -/
theorem update_stale_clockRate :
    (Transition.run (originated .listed "talk".toList) (.new 4 30000, false)
      [talkServer, talkUpdate 1 96]).map (fun r =>
        (r.1.2, (r.1.1.sessions.lookup "talk".toList).map fun s =>
          (s.payloadMode, s.rtcp.clockRateHz, defaultClockRateHz s.payloadMode))) =
      some (false, some (.es, 8000, 90000)) := by
  decide +kernel

end CheetahMedia.Rtp
