import CheetahMedia.Codec.RtpReorder
import CheetahMedia.Lib.Transition
import Mathlib.Data.List.Nodup

namespace CheetahMedia.Codec
open Lib

namespace RtpReorderBuffer
variable {α : Type} {b b' : RtpReorderBuffer α} {pending out : List (PendingPacket α)}

/-- The numbers of these packets. -/
abbrev numbers (packets : List (PendingPacket α)) : List Nat := packets.map (·.sequenceNumber)

theorem perm_of_find? {p : PendingPacket α → Bool} (h : pending.find? p = some a) :
    (a :: pending.eraseP p).Perm pending := by
  induction pending with
  | nil => cases h
  | cons x pending ih =>
    rw [List.find?_cons] at h
    split at h
    · rename_i hx
      cases h
      rw [List.eraseP_cons_of_pos hx]
    · rename_i hx
      rw [List.eraseP_cons_of_neg (by rw [hx]; exact Bool.false_ne_true)]
      exact (List.Perm.swap _ _ _).trans ((ih h).cons x)

theorem find?_of_distinct (hnodup : (numbers pending).Nodup) (hmem : a ∈ pending) :
    pending.find? (·.sequenceNumber = a.sequenceNumber) = some a := by
  cases hfind : pending.find? (·.sequenceNumber = a.sequenceNumber) with
  | none => exact absurd (decide_eq_true rfl) (List.find?_eq_none.mp hfind a hmem)
  | some found =>
    have hnumber : found.sequenceNumber = a.sequenceNumber := by simpa using List.find?_some hfind
    have hfound := List.mem_of_find?_eq_some hfind
    rw [List.inj_on_of_nodup_map hnodup hfound hmem hnumber]

/-- What is released from a number on: packets with no gap between their numbers, up to the first
one that is not there. -/
structure Drained (expected : Nat) (pending : List (PendingPacket α))
    (r : Nat × List (PendingPacket α) × List (PendingPacket α)) : Prop where
  released : numbers r.2.1 = List.range' expected r.2.1.length
  next : r.1 = expected + r.2.1.length
  perm : (r.2.1 ++ r.2.2).Perm pending
  above : ∀ p ∈ r.2.2, r.1 < p.sequenceNumber
  waiting : r.2.2.Sublist pending

theorem drainWithin_drained (hlength : pending.length ≤ passes) (hnodup : (numbers pending).Nodup)
    (hfrom : ∀ p ∈ pending, expected ≤ p.sequenceNumber) :
    Drained expected pending (drainWithin passes expected pending) := by
  induction passes generalizing expected pending with
  | zero =>
    obtain rfl := List.length_eq_zero_iff.mp (Nat.le_zero.mp hlength)
    exact ⟨rfl, rfl, .refl _, nofun, .refl _⟩
  | succ passes ih =>
    unfold drainWithin
    cases hfind : pending.find? (·.sequenceNumber = expected) with
    | none =>
      refine ⟨rfl, rfl, .refl _, fun p hp => ?_, .refl _⟩
      have hne := List.find?_eq_none.mp hfind p hp
      exact Nat.lt_of_le_of_ne (hfrom p hp) fun h => hne (by simpa using h.symm)
    | some first =>
      have hfirst : first.sequenceNumber = expected := by simpa using List.find?_some hfind
      have hperm := perm_of_find? hfind
      have hnodup' := (hperm.map (·.sequenceNumber)).nodup_iff.mpr hnodup
      rw [List.map_cons, List.nodup_cons] at hnodup'
      obtain ⟨hnew, hrest⟩ := hnodup'
      have hfewer : (pending.eraseP (·.sequenceNumber = expected)).length ≤ passes := by
        have := hperm.length_eq
        rw [List.length_cons] at this
        omega
      have hlater : ∀ p ∈ pending.eraseP (·.sequenceNumber = expected),
          expected + 1 ≤ p.sequenceNumber := by
        intro p hp
        refine Nat.lt_of_le_of_ne (hfrom p (hperm.subset (List.mem_cons_of_mem _ hp))) fun h => ?_
        exact hnew (List.mem_map.mpr ⟨p, hp, by rw [hfirst, h]⟩)
      have hdrained := ih hfewer hrest hlater
      refine ⟨?_, ?_, ?_, hdrained.above, hdrained.waiting.trans List.eraseP_sublist⟩
      · show first.sequenceNumber :: numbers _ = List.range' expected (_ + 1)
        rw [hdrained.released, hfirst, List.range'_succ]
      · exact hdrained.next.trans (Nat.succ_add_eq_add_succ _ _)
      · exact (hdrained.perm.cons first).trans hperm

/-- What waits has numbers of its own, behind the expected one. -/
structure Ordered (b : RtpReorderBuffer α) : Prop where
  distinct : (numbers b.pending).Nodup
  above : ∀ p ∈ b.pending, ∃ expected, b.expectedSeq = some expected ∧ expected < p.sequenceNumber

/-- What is released by a packet: numbers without a gap that were still to come, the last of which
is the last one that is not expected any more. -/
structure Releases (b b' : RtpReorderBuffer α) (out : List (PendingPacket α)) : Prop where
  ordered : Ordered b'
  settings : b'.settings = b.settings
  numbers : ∃ first, numbers out = List.range' first out.length ∧
    (∀ expected ∈ b.expectedSeq, expected ≤ first) ∧
    b'.expectedSeq = if out = [] then b.expectedSeq else some (first + out.length)

/-- A packet and those that it was waited for with. -/
theorem release_drained (first : PendingPacket α) (hnodup : (numbers pending).Nodup)
    (habove : ∀ p ∈ pending, first.sequenceNumber < p.sequenceNumber)
    (hexpected : ∀ expected ∈ b.expectedSeq, expected ≤ first.sequenceNumber) :
    let r := { b with
      expectedSeq := some (first.sequenceNumber + 1), pending := pending }.drainContiguous
    Releases b r.1 (first :: r.2) ∧ (first :: r.2 ++ r.1.pending).Perm (first :: pending) ∧
      r.1.pending.Sublist pending := by
  intro r
  have hdrained : Drained (first.sequenceNumber + 1) pending
      (drainWithin pending.length (first.sequenceNumber + 1) pending) :=
    drainWithin_drained (Nat.le_refl _) hnodup habove
  obtain ⟨hreleased, hnext, hperm, hrest, hwaiting⟩ := hdrained
  have hnodup' := (hperm.map (·.sequenceNumber)).nodup_iff.mpr hnodup
  rw [List.map_append, List.nodup_append] at hnodup'
  refine ⟨⟨⟨hnodup'.2.1, fun p hp => ⟨_, rfl, hrest p hp⟩⟩, rfl, first.sequenceNumber, ?_,
    hexpected, ?_⟩, hperm.cons first, hwaiting⟩
  · show first.sequenceNumber :: numbers r.2 = List.range' _ (r.2.length + 1)
    rw [List.range'_succ]
    exact congrArg _ hreleased
  · rw [if_neg (List.cons_ne_nil _ _)]
    exact congrArg some (hnext.trans (Nat.succ_add_eq_add_succ _ _))

/-- The closest packet is given up waiting for the ones before it. -/
theorem forceReleaseClosest_releases (h : Ordered b) (hexpected : b.expectedSeq = some expected)
    (hne : b.pending ≠ []) :
    Releases b (b.forceReleaseClosest expected).1 (b.forceReleaseClosest expected).2 ∧
      ((b.forceReleaseClosest expected).2 ++ (b.forceReleaseClosest expected).1.pending).Perm
        b.pending ∧ (b.forceReleaseClosest expected).2 ≠ [] := by
  unfold forceReleaseClosest
  cases hclosest : b.pending.argmin (·.sequenceNumber - expected) with
  | none => exact absurd (List.argmin_eq_none.mp hclosest) hne
  | some first =>
    have hmem := List.argmin_mem hclosest
    have hfind : b.pending.find? (·.sequenceNumber = first.sequenceNumber) = some first :=
      find?_of_distinct h.distinct hmem
    have hperm := perm_of_find? hfind
    have hnodup := (hperm.map (·.sequenceNumber)).nodup_iff.mpr h.distinct
    rw [List.map_cons, List.nodup_cons] at hnodup
    have habove : ∀ p ∈ b.pending, expected < p.sequenceNumber := by
      intro p hp
      obtain ⟨e, he, hlt⟩ := h.above p hp
      rw [hexpected] at he
      cases he
      exact hlt
    have hlater : ∀ p ∈ b.pending.eraseP (·.sequenceNumber = first.sequenceNumber),
        first.sequenceNumber < p.sequenceNumber := by
      intro p hp
      have hp' := hperm.subset (List.mem_cons_of_mem _ hp)
      have hle := List.le_of_mem_argmin hp' hclosest
      have hne : p.sequenceNumber ≠ first.sequenceNumber := fun h =>
        hnodup.1 (List.mem_map.mpr ⟨p, hp, h⟩)
      have hp := habove p hp'
      have hfirst := habove first hmem
      omega
    obtain ⟨hreleases, hall, -⟩ := release_drained (b := b) first hnodup.2 hlater (by
      rintro e he
      rw [hexpected] at he
      cases he
      exact (habove first hmem).le)
    exact ⟨hreleases, hall.trans hperm, List.cons_ne_nil _ _⟩

/-- No more packets wait than may. -/
structure Bounded (b : RtpReorderBuffer α) : Prop where
  window : 0 < b.settings.maxPackets → b.pending.length ≤ b.settings.maxPackets
  cap : b.pending.length ≤ ABSOLUTE_PENDING_CAP

theorem Bounded.fewer (h : Bounded b) (hsettings : b'.settings = b.settings)
    (hle : b'.pending.length ≤ b.pending.length) : Bounded b' :=
  ⟨fun hpos => hsettings ▸ hle.trans (h.window (hsettings ▸ hpos)), hle.trans h.cap⟩

theorem bounded_of_mustRelease (h : b.mustRelease arrivalMs = false) : Bounded b := by
  simp only [mustRelease, decide_eq_false_iff_not, not_or] at h
  exact ⟨fun hpos => Nat.not_lt.mp fun hlt => h.1 ⟨hpos, hlt⟩, Nat.not_lt.mp h.2.2⟩

/-- What becomes of a packet, as it comes. -/
structure Received (b b' : RtpReorderBuffer α) (received : PendingPacket α)
    (out : List (PendingPacket α)) : Prop extends Releases b b' out where
  once : (out ++ b'.pending).Subperm (b.pending ++ [received])
  bounded : Bounded b → Bounded b'

theorem Ordered.pending_nil (h : Ordered b) (hnone : b.expectedSeq = none) : b.pending = [] := by
  refine List.eq_nil_iff_forall_not_mem.mpr fun p hp => ?_
  obtain ⟨e, he, -⟩ := h.above p hp
  rw [hnone] at he
  cases he

theorem Ordered.behind (h : Ordered b) (hexpected : b.expectedSeq = some expected) :
    ∀ p ∈ b.pending, expected < p.sequenceNumber := by
  intro p hp
  obtain ⟨e, he, hlt⟩ := h.above p hp
  rw [hexpected] at he
  cases he
  exact hlt

theorem Releases.nothing (h : Ordered b) : Releases b b [] := by
  refine ⟨h, rfl, b.expectedSeq.getD 0, rfl, ?_, rfl⟩
  rintro e he
  rw [he]
  exact Nat.le_refl _

theorem buffer_ordered {received : PendingPacket α} (h : Ordered b)
    (hexpected : b.expectedSeq = some expected) (hlt : expected < received.sequenceNumber) :
    Ordered (b.buffer received) := by
  unfold buffer
  split
  · exact h
  · rename_i hnew
    refine ⟨?_, fun p hp => ?_⟩
    · rw [numbers, List.map_append, List.nodup_append]
      refine ⟨h.distinct, by simp, ?_⟩
      rintro a ha c hc rfl
      obtain ⟨p, hp, rfl⟩ := List.mem_map.mp ha
      exact hnew (List.any_eq_true.mpr ⟨p, hp, by simpa using hc⟩)
    · rcases List.mem_append.mp hp with hp | hp
      · exact h.above p hp
      · obtain rfl := List.mem_singleton.mp hp
        exact ⟨expected, hexpected, hlt⟩

theorem buffer_frame (b : RtpReorderBuffer α) (received : PendingPacket α) :
    (b.buffer received).settings = b.settings ∧ (b.buffer received).expectedSeq = b.expectedSeq ∧
      (b.buffer received).pending.Sublist (b.pending ++ [received]) ∧
      (b.buffer received).pending ≠ [] ∧
      (b.buffer received).pending.length ≤ b.pending.length + 1 := by
  unfold buffer
  split
  · rename_i hany
    obtain ⟨p, hp, -⟩ := List.any_eq_true.mp hany
    exact ⟨rfl, rfl, List.sublist_append_left _ _, List.ne_nil_of_mem hp, Nat.le_succ _⟩
  · exact ⟨rfl, rfl, .refl _, by simp, by simp⟩

theorem receive_received (h : Ordered b) (raw : UInt16) (arrivalMs : Nat) (packet : α) :
    Received b (b.receive raw arrivalMs packet).1 ⟨b.extendSequence raw, arrivalMs, packet⟩
      (b.receive raw arrivalMs packet).2 := by
  unfold receive
  dsimp only
  generalize b.extendSequence raw = seq
  cases hexpected : b.expectedSeq with
  | none =>
    have hnil := h.pending_nil hexpected
    refine ⟨⟨⟨h.distinct, fun p hp => ?_⟩, rfl, seq, rfl, by simp [hexpected], by simp⟩, ?_,
      fun hb => ⟨hb.window, hb.cap⟩⟩
    · rw [hnil] at hp
      cases hp
    · rw [hnil]
      exact .refl _
  | some expected =>
    dsimp only
    split
    · exact ⟨.nothing h, (List.sublist_append_left _ _).subperm, id⟩
    · split
      · rename_i hseq
        subst hseq
        obtain ⟨hreleases, hperm, -⟩ := release_drained (b := b) ⟨seq, arrivalMs, packet⟩
          h.distinct (h.behind hexpected) (by simp [hexpected])
        refine ⟨hreleases, (hperm.trans (List.perm_append_singleton _ _).symm).subperm, fun hb => ?_⟩
        have hlength := hperm.length_eq
        simp only [List.length_append, List.length_cons] at hlength
        have hfewer : ({ b with
            expectedSeq := some (seq + 1) } : RtpReorderBuffer α).drainContiguous.1.pending.length ≤
            b.pending.length := by omega
        exact hb.fewer hreleases.settings hfewer
      · rename_i hlate hnext
        have hlt : expected < seq := by omega
        obtain ⟨hsettings, hsame, hsublist, hne, hlength⟩ :=
          buffer_frame b ⟨seq, arrivalMs, packet⟩
        have hordered : Ordered (b.buffer ⟨seq, arrivalMs, packet⟩) :=
          buffer_ordered h hexpected hlt
        split
        · obtain ⟨hreleases, hperm, hout⟩ :=
            forceReleaseClosest_releases hordered (hsame.trans hexpected) hne
          refine ⟨⟨hreleases.ordered, hreleases.settings.trans hsettings, ?_⟩,
            hperm.subperm.trans hsublist.subperm, fun hb => ?_⟩
          · rw [← hsame]
            exact hreleases.numbers
          · have := hperm.length_eq
            have := List.length_pos_iff.mpr hout
            rw [List.length_append] at *
            exact hb.fewer (hreleases.settings.trans hsettings) (by omega)
        · rename_i hkeep
          rw [Bool.not_eq_true] at hkeep
          have hnothing := Releases.nothing hordered
          refine ⟨⟨hordered, hsettings, ?_⟩, hsublist.subperm,
            fun _ => bounded_of_mustRelease hkeep⟩
          rw [← hsame]
          exact hnothing.numbers

end RtpReorderBuffer

/-- A packet as it comes, with the 16 bits of its number. -/
structure RtpArrival (α : Type) where
  sequenceNumber : UInt16
  arrivalMs : Nat
  packet : α

namespace RtpReorderBuffer
variable {α : Type} {b b' : RtpReorderBuffer α} {pushed out : List (PendingPacket α)}

/-- The packets in their order of arrival, and what is released. -/
def run : RtpReorderBuffer α → List (RtpArrival α) → RtpReorderBuffer α × List (PendingPacket α)
  | b, [] => (b, [])
  | b, a :: arrivals =>
    let (b, out) := b.receive a.sequenceNumber a.arrivalMs a.packet
    let (b, out') := b.run arrivals
    (b, out ++ out')

/-- The packets with the numbers that they have when they come. -/
def numbered : RtpReorderBuffer α → List (RtpArrival α) → List (PendingPacket α)
  | _, [] => []
  | b, a :: arrivals =>
    ⟨b.extendSequence a.sequenceNumber, a.arrivalMs, a.packet⟩ ::
      numbered (b.receive a.sequenceNumber a.arrivalMs a.packet).1 arrivals

/-- What may be said of the buffer and of what it has released at any time. -/
structure Sound (pushed : List (PendingPacket α)) (b : RtpReorderBuffer α)
    (out : List (PendingPacket α)) : Prop extends Ordered b, Bounded b where
  increasing : (numbers out).Pairwise (· < ·)
  once : (out ++ b.pending).Subperm pushed

/-- All that was released is below the expected number. -/
def Below (b : RtpReorderBuffer α) (out : List (PendingPacket α)) : Prop :=
  ∀ p ∈ out, ∃ expected, b.expectedSeq = some expected ∧ p.sequenceNumber < expected

theorem receive_settings (b : RtpReorderBuffer α) (raw : UInt16) (arrivalMs : Nat) (packet : α) :
    (b.receive raw arrivalMs packet).1.settings = b.settings := by
  unfold receive
  dsimp only
  split
  · rfl
  · split
    · rfl
    · split
      · rfl
      · split
        · unfold forceReleaseClosest
          split
          · exact (buffer_frame _ _).1
          · exact (buffer_frame _ _).1
        · exact (buffer_frame _ _).1

theorem run_settings (b : RtpReorderBuffer α) (arrivals : List (RtpArrival α)) :
    (b.run arrivals).1.settings = b.settings := by
  induction arrivals generalizing b with
  | nil => rfl
  | cons a arrivals ih =>
    exact (ih _).trans (receive_settings b a.sequenceNumber a.arrivalMs a.packet)

theorem new_sound (settings : RtpReorderSettings) :
    Sound [] (new settings : RtpReorderBuffer α) [] where
  distinct := .nil
  above := nofun
  window _ := Nat.zero_le _
  cap := Nat.zero_le _
  increasing := .nil
  once := .refl _

theorem Sound.receive (h : Sound pushed b out) (hbelow : Below b out) (a : RtpArrival α) :
    let r := b.receive a.sequenceNumber a.arrivalMs a.packet
    Sound (pushed ++ [⟨b.extendSequence a.sequenceNumber, a.arrivalMs, a.packet⟩]) r.1 (out ++ r.2) ∧
      Below r.1 (out ++ r.2) := by
  intro r
  have hreceived := receive_received h.toOrdered a.sequenceNumber a.arrivalMs a.packet
  obtain ⟨first, hnumbers, hfirst, hnext⟩ := hreceived.numbers
  have hlow : ∀ p ∈ out, ∀ q ∈ r.2, p.sequenceNumber < q.sequenceNumber := by
    intro p hp q hq
    obtain ⟨e, he, hlt⟩ := hbelow p hp
    have hmem : q.sequenceNumber ∈ numbers r.2 := List.mem_map_of_mem hq
    rw [hnumbers, List.mem_range'_1] at hmem
    exact hlt.trans_le ((hfirst e he).trans hmem.1)
  refine ⟨⟨hreceived.ordered, hreceived.bounded h.toBounded, ?_, ?_⟩, ?_⟩
  · rw [numbers, List.map_append, List.pairwise_append]
    refine ⟨h.increasing, ?_, fun x hx y hy => ?_⟩
    · show (numbers r.2).Pairwise (· < ·)
      rw [hnumbers]
      exact List.pairwise_lt_range'
    · obtain ⟨p, hp, rfl⟩ := List.mem_map.mp hx
      obtain ⟨q, hq, rfl⟩ := List.mem_map.mp hy
      exact hlow p hp q hq
  · have hnow := (List.subperm_append_left out).mpr hreceived.once
    rw [← List.append_assoc, ← List.append_assoc] at hnow
    exact hnow.trans ((List.subperm_append_right _).mpr h.once)
  · intro p hp
    rw [hnext]
    rcases List.mem_append.mp hp with hp | hp
    · split
      · exact hbelow p hp
      · obtain ⟨e, he, hlt⟩ := hbelow p hp
        have := hfirst e he
        exact ⟨_, rfl, by omega⟩
    · rw [if_neg (List.ne_nil_of_mem hp)]
      have hmem : p.sequenceNumber ∈ numbers r.2 := List.mem_map_of_mem hp
      rw [hnumbers, List.mem_range'_1] at hmem
      exact ⟨_, rfl, hmem.2⟩

theorem Sound.run (h : Sound pushed b out) (hbelow : Below b out) (arrivals : List (RtpArrival α)) :
    Sound (pushed ++ b.numbered arrivals) (b.run arrivals).1 (out ++ (b.run arrivals).2) := by
  induction arrivals generalizing b pushed out with
  | nil => simpa [numbered, RtpReorderBuffer.run] using h
  | cons a arrivals ih =>
    obtain ⟨hnow, hbelow'⟩ := h.receive hbelow a
    have hlater := ih hnow hbelow'
    rw [List.append_assoc, List.append_assoc] at hlater
    exact hlater

theorem run_sound (settings : RtpReorderSettings) (arrivals : List (RtpArrival α)) :
    Sound ((new settings).numbered arrivals) ((new settings).run arrivals).1
      ((new settings).run arrivals).2 :=
  (new_sound settings).run nofun arrivals

/-- How many packets may overtake one that is still to come. -/
def window (settings : RtpReorderSettings) : Nat :=
  if settings.maxPackets = 0 then ABSOLUTE_PENDING_CAP
  else min settings.maxPackets ABSOLUTE_PENDING_CAP

theorem le_window {settings : RtpReorderSettings} (h : n ≤ window settings) :
    (0 < settings.maxPackets → n ≤ settings.maxPackets) ∧ n ≤ ABSOLUTE_PENDING_CAP := by
  unfold window at h
  split at h
  · exact ⟨fun hpos => by omega, h⟩
  · exact ⟨fun _ => h.trans (min_le_left _ _), h.trans (min_le_right _ _)⟩

/-- The packets that came before one with a smaller number. -/
def overtaking (before : List (PendingPacket α)) (number : Nat) : List (PendingPacket α) :=
  before.filter (number < ·.sequenceNumber)

/-- A packet is overtaken by few others, from less than half a period ahead, that come within
the delay. -/
structure InWindow (settings : RtpReorderSettings) (before : List (PendingPacket α))
    (number : Nat) : Prop where
  few : (overtaking before number).length ≤ window settings
  near : ∀ p ∈ overtaking before number, p.sequenceNumber < number + 32768
  soon : 0 < settings.maxDelayMs → (overtaking before number).Pairwise fun p q =>
    q.arrivalMs - p.arrivalMs < settings.maxDelayMs

instance (settings : RtpReorderSettings) (before : List (PendingPacket α)) (number : Nat) :
    Decidable (InWindow settings before number) :=
  decidable_of_iff (_ ∧ _ ∧ _) ⟨fun h => ⟨h.1, h.2.1, h.2.2⟩, fun h => ⟨h.1, h.2, h.3⟩⟩

end RtpReorderBuffer

/-- How a packet with a full number comes. -/
def PendingPacket.arrival {α : Type} (p : PendingPacket α) : RtpArrival α :=
  ⟨UInt16.ofNat p.sequenceNumber, p.arrivalMs, p.packet⟩

namespace RtpReorderBuffer
variable {α : Type} {b b' : RtpReorderBuffer α} {before after packets out : List (PendingPacket α)}
  {p : PendingPacket α} {settings : RtpReorderSettings}

/-- The packets of a run, each once, in any order. -/
def IsRun (first : Nat) (packets : List (PendingPacket α)) : Prop :=
  (numbers packets).Perm (List.range' first packets.length)

instance : Decidable (IsRun first packets) := inferInstanceAs (Decidable (List.Perm _ _))

/-- Each packet of the run is in the window when it comes. -/
def AllInWindow (settings : RtpReorderSettings) (packets : List (PendingPacket α)) : Prop :=
  AtEach (fun before p => InWindow settings before p.sequenceNumber) packets

/-- The run begins with the number that is expected, or with the first packet there is. -/
def Begins (b : RtpReorderBuffer α) (first : Nat) (packets : List (PendingPacket α)) : Prop :=
  b.expectedSeq = some first ∨ b.expectedSeq = none ∧ first < 65536 ∧
    ∀ p ∈ packets.head?, p.sequenceNumber = first

/-- Nothing of a run was lost so far. -/
structure Delivering (first : Nat) (settings : RtpReorderSettings)
    (before : List (PendingPacket α)) (b : RtpReorderBuffer α) (out : List (PendingPacket α)) :
    Prop extends Ordered b where
  settings : b.settings = settings
  perm : (out ++ b.pending).Perm before
  waiting : b.pending.Sublist before
  contiguous : numbers out = List.range' first out.length
  next : b.expectedSeq = some (first + out.length)

theorem receive_expected (hexpected : b.expectedSeq = some expected)
    (hseq : b.extendSequence raw = expected) (arrivalMs : Nat) (packet : α) :
    b.receive raw arrivalMs packet =
      ({ b with expectedSeq := some (expected + 1) }.drainContiguous.1,
        ⟨expected, arrivalMs, packet⟩ ::
          { b with expectedSeq := some (expected + 1) }.drainContiguous.2) := by
  unfold receive
  rw [hseq, hexpected]
  dsimp only
  rw [if_neg (Nat.lt_irrefl _), if_pos rfl]

theorem receive_ahead (hexpected : b.expectedSeq = some expected)
    (hseq : b.extendSequence raw = seq) (hlt : expected < seq) (arrivalMs : Nat) (packet : α)
    (hkeep : (b.buffer ⟨seq, arrivalMs, packet⟩).mustRelease arrivalMs = false) :
    b.receive raw arrivalMs packet = (b.buffer ⟨seq, arrivalMs, packet⟩, []) := by
  unfold receive
  rw [hseq, hexpected]
  dsimp only
  rw [if_neg hlt.not_gt, if_neg hlt.ne', hkeep, if_neg Bool.false_ne_true]

theorem Delivering.extend (h : Delivering first settings before b out)
    (hle : first + out.length ≤ p.sequenceNumber)
    (hlt : p.sequenceNumber < first + out.length + 32768) :
    b.extendSequence p.arrival.sequenceNumber = p.sequenceNumber := by
  unfold extendSequence
  rw [h.next]
  exact extendTo_ahead hle hlt

/-- A packet that is expected is released, with those that have waited for it. -/
theorem Delivering.expected (h : Delivering first settings before b out)
    (hnumber : p.sequenceNumber = first + out.length) :
    let r := b.receive p.arrival.sequenceNumber p.arrivalMs p.packet
    Delivering first settings (before ++ [p]) r.1 (out ++ r.2) := by
  intro r
  have hr : r = ({ b with expectedSeq := some (p.sequenceNumber + 1) }.drainContiguous.1,
      p :: { b with expectedSeq := some (p.sequenceNumber + 1) }.drainContiguous.2) :=
    receive_expected (hnumber ▸ h.next) (h.extend hnumber.ge (by omega)) p.arrivalMs p.packet
  obtain ⟨hreleases, hperm, hwaiting⟩ := release_drained (b := b) p h.distinct
    (by rw [hnumber]; exact h.behind h.next) (by simp [h.next, hnumber])
  obtain ⟨start, hnumbers, -, hnext⟩ := hreleases.numbers
  obtain rfl : p.sequenceNumber = start := by
    have hhead := congrArg List.head? hnumbers
    simpa [List.range'_succ] using hhead
  rw [if_neg (List.cons_ne_nil _ _)] at hnext
  rw [hr]
  refine ⟨hreleases.ordered, hreleases.settings.trans h.settings, ?_, ?_, ?_, ?_⟩
  · rw [List.append_assoc]
    refine ((hperm.trans (List.perm_append_singleton _ _).symm).append_left out).trans ?_
    rw [← List.append_assoc]
    exact h.perm.append_right _
  · exact (hwaiting.trans h.waiting).trans (List.sublist_append_left _ _)
  · rw [numbers, List.map_append]
    show numbers out ++ numbers _ = _
    rw [h.contiguous, hnumbers, hnumber, List.length_append, ← List.range'_append_1]
  · rw [hnext, hnumber, List.length_append, Nat.add_assoc]

/-- A packet from ahead waits, as long as it is in the window of the one that is missing. -/
theorem Delivering.ahead (h : Delivering first settings before b out)
    (hlt : first + out.length < p.sequenceNumber)
    (hnew : p.sequenceNumber ∉ numbers before) (mid : List (PendingPacket α))
    (hwindow : InWindow settings (before ++ p :: mid) (first + out.length)) :
    let r := b.receive p.arrival.sequenceNumber p.arrivalMs p.packet
    Delivering first settings (before ++ [p]) r.1 (out ++ r.2) := by
  intro r
  have hbuffer : b.buffer p = { b with pending := b.pending ++ [p] } := by
    refine if_neg fun hany => ?_
    obtain ⟨q, hq, hnumber⟩ := List.any_eq_true.mp hany
    rw [decide_eq_true_eq] at hnumber
    exact hnew (List.mem_map.mpr ⟨q, h.waiting.subset hq, hnumber⟩)
  -- all that waits, and the packet, overtake the one that is missing
  have hover : (b.pending ++ [p]).Sublist (overtaking (before ++ p :: mid) (first + out.length)) := by
    have hall : (b.pending ++ [p]).filter (first + out.length < ·.sequenceNumber) =
        b.pending ++ [p] := by
      refine List.filter_eq_self.mpr fun q hq => ?_
      rw [decide_eq_true_eq]
      rcases List.mem_append.mp hq with hq | hq
      · exact h.behind h.next q hq
      · obtain rfl := List.mem_singleton.mp hq
        exact hlt
    rw [← hall]
    refine List.Sublist.filter _ (h.waiting.append ?_)
    exact List.singleton_sublist.mpr List.mem_cons_self
  have hkeep : (b.buffer p).mustRelease p.arrivalMs = false := by
    have hfew := hover.length_le.trans hwindow.few
    obtain ⟨hpackets, hcap⟩ := le_window hfew
    rw [hbuffer]
    simp only [mustRelease, decide_eq_false_iff_not, h.settings]
    rintro (⟨hpos, hmany⟩ | ⟨hpos, hany⟩ | hmany)
    · exact hmany.not_ge (hpackets hpos)
    · have hsoon := (hwindow.soon hpos).sublist hover
      obtain ⟨q, hq, hlong⟩ := List.any_eq_true.mp hany
      rw [decide_eq_true_eq] at hlong
      rcases List.mem_append.mp hq with hq | hq
      · have := (List.pairwise_append.mp hsoon).2.2 q hq p List.mem_cons_self
        omega
      · obtain rfl := List.mem_singleton.mp hq
        omega
    · exact hmany.not_ge hcap
  have hnear : p.sequenceNumber < first + out.length + 32768 :=
    hwindow.near p (hover.subset (List.mem_append_right _ List.mem_cons_self))
  have hr : r = (b.buffer p, []) :=
    receive_ahead h.next (h.extend hlt.le hnear) hlt p.arrivalMs p.packet hkeep
  rw [hr, List.append_nil]
  refine ⟨buffer_ordered h.toOrdered h.next hlt, ?_, ?_, ?_, h.contiguous, ?_⟩
  · exact (buffer_frame b p).1.trans h.settings
  · rw [hbuffer]
    dsimp only
    rw [← List.append_assoc]
    exact h.perm.append_right _
  · rw [hbuffer]
    exact h.waiting.append (.refl _)
  · exact (buffer_frame b p).2.1.trans h.next

/-- One more packet of a run, whichever comes. -/
theorem Delivering.step (h : Delivering first settings before b out)
    (hrun : IsRun first (before ++ p :: after))
    (hwindow : AllInWindow settings (before ++ p :: after)) :
    let r := b.receive p.arrival.sequenceNumber p.arrivalMs p.packet
    Delivering first settings (before ++ [p]) r.1 (out ++ r.2) := by
  have hnodup : (numbers (before ++ p :: after)).Nodup := hrun.nodup_iff.mpr List.nodup_range'
  have hnew : p.sequenceNumber ∉ numbers before := by
    rw [numbers, List.map_append, List.nodup_append] at hnodup
    exact fun hmem => hnodup.2.2 _ hmem _ List.mem_cons_self rfl
  have hmem : ∀ n, n ∈ numbers (before ++ p :: after) ↔
      first ≤ n ∧ n < first + (before ++ p :: after).length := fun n => by
    rw [hrun.mem_iff, List.mem_range'_1]
  obtain ⟨hfirst, hlast⟩ := (hmem p.sequenceNumber).mp (List.mem_map_of_mem (by simp))
  have hge : first + out.length ≤ p.sequenceNumber := by
    by_contra hlt
    have hout : p.sequenceNumber ∈ numbers out := by
      rw [h.contiguous, List.mem_range'_1]
      omega
    refine hnew ((h.perm.map _).subset ?_)
    rw [List.map_append]
    exact List.mem_append_left _ hout
  rcases hge.eq_or_lt with heq | hlt
  · exact h.expected heq.symm
  · -- the missing packet is still to come, so it has this one in its window
    have hmissing : first + out.length ∈ numbers (before ++ p :: after) :=
      (hmem _).mpr ⟨Nat.le_add_right _ _, hge.trans_lt hlast⟩
    have hnot : first + out.length ∉ numbers before := by
      intro hin
      have hin := (h.perm.map (·.sequenceNumber)).symm.subset hin
      rw [List.map_append, List.mem_append] at hin
      rcases hin with hin | hin
      · have hin : first + out.length ∈ numbers out := hin
        rw [h.contiguous, List.mem_range'_1] at hin
        omega
      · obtain ⟨q, hq, hnumber⟩ := List.mem_map.mp hin
        exact (h.behind h.next q hq).ne' hnumber
    have hafter : first + out.length ∈ numbers after := by
      rw [numbers, List.map_append, List.map_cons, List.mem_append, List.mem_cons] at hmissing
      exact (hmissing.resolve_left hnot).resolve_left hlt.ne
    obtain ⟨q, hq, hnumber⟩ := List.mem_map.mp hafter
    obtain ⟨mid, rest, rfl⟩ := List.append_of_mem hq
    refine h.ahead hlt hnew mid ?_
    rw [← hnumber]
    exact hwindow (before ++ p :: mid) q rest (by simp)

theorem Delivering.run (h : Delivering first settings before b out)
    (hrun : IsRun first (before ++ after)) (hwindow : AllInWindow settings (before ++ after)) :
    Delivering first settings (before ++ after) (b.run (after.map (·.arrival))).1
      (out ++ (b.run (after.map (·.arrival))).2) := by
  induction after generalizing before b out with
  | nil => simpa [RtpReorderBuffer.run] using h
  | cons p after ih =>
    have hnow := h.step hrun hwindow
    have hlater := ih hnow (by simpa using hrun) (by simpa using hwindow)
    simp only [List.append_assoc, List.singleton_append] at hlater
    exact hlater

/-- Once all of a run have come, all of it is released. -/
theorem Delivering.complete (h : Delivering first settings packets b out)
    (hrun : IsRun first packets) :
    numbers out = List.range' first packets.length ∧ out.Perm packets := by
  have hnil : b.pending = [] := by
    refine List.eq_nil_iff_forall_not_mem.mpr fun p hp => ?_
    have hlast := (hrun.subset (List.mem_map_of_mem (h.perm.subset (List.mem_append_right _ hp))))
    have hbehind := h.behind h.next p hp
    have hmissing : first + out.length ∈ numbers packets := by
      rw [List.mem_range'_1] at hlast
      refine hrun.mem_iff.mpr (List.mem_range'_1.mpr ⟨Nat.le_add_right _ _, ?_⟩)
      exact hbehind.trans hlast.2
    have hin := (h.perm.map (·.sequenceNumber)).symm.subset hmissing
    rw [List.map_append, List.mem_append] at hin
    rcases hin with hin | hin
    · have hin : first + out.length ∈ numbers out := hin
      rw [h.contiguous, List.mem_range'_1] at hin
      omega
    · obtain ⟨q, hq, hnumber⟩ := List.mem_map.mp hin
      exact (h.behind h.next q hq).ne' hnumber
  have hperm := h.perm
  rw [hnil, List.append_nil] at hperm
  exact ⟨hperm.length_eq ▸ h.contiguous, hperm⟩

/-- All packets of a run are released, in order, if each is in the window when it comes. -/
theorem run_delivers (hidle : b.pending = []) (hbegins : Begins b first packets)
    (hrun : IsRun first packets) (hwindow : AllInWindow b.settings packets) :
    numbers (b.run (packets.map (·.arrival))).2 = List.range' first packets.length ∧
      (b.run (packets.map (·.arrival))).2.Perm packets := by
  have hordered : ∀ expectedSeq, Ordered { b with expectedSeq := expectedSeq } := fun _ => by
    refine ⟨?_, fun p hp => ?_⟩
    · rw [hidle]
      exact .nil
    · rw [hidle] at hp
      cases hp
  have hperm : ∀ out : List (PendingPacket α), (out ++ b.pending).Perm out := fun out => by
    rw [hidle, List.append_nil]
  have hwaiting : ∀ packets : List (PendingPacket α), b.pending.Sublist packets := fun packets => by
    rw [hidle]
    exact List.nil_sublist _
  rcases hbegins with hexpected | ⟨hnone, hfirst, hhead⟩
  · have hstart : Delivering first b.settings [] b [] :=
      ⟨hordered b.expectedSeq, rfl, hperm [], hwaiting [], rfl, hexpected⟩
    exact (hstart.run hrun hwindow).complete hrun
  · cases packets with
    | nil => exact ⟨rfl, .refl _⟩
    | cons p after =>
      obtain rfl : p.sequenceNumber = first := hhead p rfl
      have hnumber : b.extendSequence p.arrival.sequenceNumber = p.sequenceNumber := by
        unfold extendSequence
        rw [hnone]
        exact UInt16.toNat_ofNat_of_lt hfirst
      have hreceive : b.receive p.arrival.sequenceNumber p.arrivalMs p.packet =
          ({ b with expectedSeq := some (p.sequenceNumber + 1) }, [p]) := by
        unfold receive
        rw [hnumber, hnone]
      have hstart : Delivering p.sequenceNumber b.settings [p]
          { b with expectedSeq := some (p.sequenceNumber + 1) } [p] :=
        ⟨hordered _, rfl, hperm [p], hwaiting [p], rfl, rfl⟩
      have hall := (hstart.run hrun hwindow).complete hrun
      have hsplit : (b.run ((p :: after).map (·.arrival))).2 = [p] ++
          (run { b with expectedSeq := some (p.sequenceNumber + 1) } (after.map (·.arrival))).2 := by
        show (b.receive p.arrival.sequenceNumber p.arrivalMs p.packet).2 ++
          (run (b.receive p.arrival.sequenceNumber p.arrivalMs p.packet).1 _).2 = _
        rw [hreceive]
      rw [hsplit]
      exact hall

/-- Whatever comes, the order is kept and the buffer is bounded; and from any state where no
packet waits, a run that begins with the number that is expected is released as a whole, if each
of its packets is in the window when it comes. -/
theorem reorder_run (settings : RtpReorderSettings) (arrivals : List (RtpArrival α)) :
    Sound ((new settings).numbered arrivals) ((new settings).run arrivals).1
      ((new settings).run arrivals).2 ∧
    ∀ (first : Nat) (packets : List (PendingPacket α)),
      ((new settings).run arrivals).1.pending = [] →
      Begins ((new settings).run arrivals).1 first packets → IsRun first packets →
      AllInWindow settings packets →
      numbers (((new settings).run arrivals).1.run (packets.map (·.arrival))).2 =
          List.range' first packets.length ∧
        (((new settings).run arrivals).1.run (packets.map (·.arrival))).2.Perm packets := by
  refine ⟨run_sound settings arrivals, fun first packets hidle hbegins hrun hwindow => ?_⟩
  have hsettings : ((new settings).run arrivals).1.settings = settings := run_settings _ _
  exact run_delivers hidle hbegins hrun (hsettings.symm ▸ hwindow)

/-- A run around the end of the 16 bits, in which one packet overtakes another. -/
def wrapping : List (PendingPacket Nat) :=
  [⟨65534, 0, 1⟩, ⟨65536, 10, 2⟩, ⟨65535, 20, 3⟩, ⟨65537, 30, 4⟩]

theorem reorder_run_wrapping :
    Sound ((new {}).numbered []) ((new {}).run ([] : List (RtpArrival Nat))).1 ((new {}).run []).2 ∧
    numbers ((new {}).run (wrapping.map (·.arrival))).2 = [65534, 65535, 65536, 65537] := by
  have hwindow : AllInWindow {} wrapping :=
    (((atEach_nil.snoc (by decide)).snoc (by decide)).snoc (by decide)).snoc (by decide)
  obtain ⟨hsound, hdelivers⟩ := reorder_run {} ([] : List (RtpArrival Nat))
  exact ⟨hsound, (hdelivers 65534 wrapping rfl (.inr ⟨rfl, by decide, by rintro _ ⟨⟩; rfl⟩)
    (by decide) hwindow).1⟩

/-- Where the second packet of a run comes first, the first one is late. -/
theorem not_reorder_run : ¬∀ (settings : RtpReorderSettings) (first : Nat)
    (packets : List (PendingPacket Nat)), IsRun first packets → AllInWindow settings packets →
    numbers ((new settings).run (packets.map (·.arrival))).2 =
      List.range' first packets.length := by
  intro h
  have hwindow : AllInWindow {} [(⟨101, 0, 101⟩ : PendingPacket Nat), ⟨100, 0, 100⟩] :=
    (atEach_nil.snoc (by decide)).snoc (by decide)
  have hall := h {} 100 [⟨101, 0, 101⟩, ⟨100, 0, 100⟩] (by decide) hwindow
  revert hall
  decide

end RtpReorderBuffer
end CheetahMedia.Codec
