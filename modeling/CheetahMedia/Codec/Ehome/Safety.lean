import CheetahMedia.Codec.Ehome

namespace CheetahMedia.Codec.EhomeDecoder
open Lib Lib.Checked Lib.Incremental

variable {inner : Bytes}

/-- One packet at the front of the buffer. -/
def attemptPacket (d : EhomeDecoder) (buf : Bytes) : Attempt EhomeDecoder Panic (Option EhomeOutput) :=
  match splitPacket buf with
  | none => .more d
  | some (inner, rest) =>
    match d.handlePacket inner with
    | .ok (d, output) => .done (buf.length - rest.length) output d
    | .error e => .fail e

/-- The decoder as one that takes what is at the front of its buffer. -/
def attempt : Decoder EhomeDecoder Panic UInt8 (Option EhomeOutput) := fun d buf =>
  if d.firstPacket then
    match preamble buf with
    | .unknown => .more d
    | .ehome2 _ => .done 256 none { d with isEhome2 := true, firstPacket := false }
    | .plain => attemptPacket { d with firstPacket := false } buf
  else attemptPacket d buf

theorem splitPacket_length (h : splitPacket buf = some (inner, rest)) :
    buf.length = 4 + inner.length + rest.length ∧ buf.drop (buf.length - rest.length) = rest := by
  unfold splitPacket at h
  split at h
  · rename_i b₀ b₁ l₀ l₁ tail
    dsimp only at h
    split at h
    · cases h
    · rename_i hlen
      cases h
      have htake := List.length_take (i := l₀.toNat * 256 + l₁.toNat) (l := tail)
      have hdrop := List.length_drop (i := l₀.toNat * 256 + l₁.toNat) (l := tail)
      simp only [List.length_cons]
      refine ⟨by omega, ?_⟩
      have hn : tail.length + 1 + 1 + 1 + 1 - (tail.drop (l₀.toNat * 256 + l₁.toNat)).length =
          l₀.toNat * 256 + l₁.toNat + 4 := by omega
      rw [hn]
      simp only [List.drop_succ_cons]
  · cases h

theorem splitPacket_append (h : splitPacket buf = some (inner, rest)) (more : Bytes) :
    splitPacket (buf ++ more) = some (inner, rest ++ more) := by
  unfold splitPacket at h
  split at h
  · rename_i b₀ b₁ l₀ l₁ tail
    dsimp only at h
    split at h
    · cases h
    · rename_i hlen
      cases h
      simp only [List.cons_append, splitPacket]
      rw [if_neg (by rw [List.length_append]; omega), List.take_append_of_le_length (by omega),
        List.drop_append_of_le_length (by omega)]
  · cases h

theorem preamble_cons (b₀ : UInt8) (more : Bytes) (h : b₀ ≠ 0x01) :
    preamble (b₀ :: more) = .plain := by
  rcases more with _ | ⟨b₁, _ | ⟨b₂, more⟩⟩
  · exact if_pos h
  · exact if_pos (.inl h)
  · exact if_neg fun hmark => h hmark.1

theorem preamble_cons_cons (b₀ b₁ : UInt8) (more : Bytes) (h : b₀ ≠ 0x01 ∨ b₁ ≠ 0x00) :
    preamble (b₀ :: b₁ :: more) = .plain := by
  cases more with
  | nil => exact if_pos h
  | cons b₂ more => exact if_neg fun hmark => h.elim (· hmark.1) (· hmark.2.1)

/-- What is told once stays so. -/
theorem preamble_plain (h : preamble buf = .plain) (more : Bytes) :
    preamble (buf ++ more) = .plain := by
  rcases buf with _ | ⟨b₀, _ | ⟨b₁, _ | ⟨b₂, buf⟩⟩⟩
  · cases h
  · simp only [preamble, ite_eq_left_iff] at h
    exact preamble_cons b₀ more fun hb => nomatch h (not_not.mpr hb)
  · simp only [preamble, ite_eq_left_iff] at h
    exact preamble_cons_cons b₀ b₁ more (not_not.mp fun hb => nomatch h hb)
  · simp only [List.cons_append, preamble] at *
    split at h
    · split at h <;> cases h
    · rename_i hmark
      rw [if_neg hmark]

theorem preamble_ehome2 (h : preamble buf = .ehome2 rest) :
    256 ≤ buf.length ∧ buf.drop 256 = rest ∧
      ∀ more, preamble (buf ++ more) = .ehome2 (rest ++ more) := by
  rcases buf with _ | ⟨b₀, _ | ⟨b₁, _ | ⟨b₂, buf⟩⟩⟩
  · cases h
  · simp only [preamble] at h
    split at h <;> cases h
  · simp only [preamble] at h
    split at h <;> cases h
  · simp only [preamble] at h
    split at h
    · rename_i hmark
      split at h
      · cases h
      · rename_i hlen
        cases h
        refine ⟨by simp only [List.length_cons]; omega, by simp only [List.drop_succ_cons],
          fun more => ?_⟩
        simp only [List.cons_append, preamble]
        rw [if_pos hmark, if_neg (by rw [List.length_append]; omega),
          List.drop_append_of_le_length (by omega)]
    · cases h

theorem attemptPacket_done (h : attemptPacket d buf = .done n out t) :
    0 < n ∧ n ≤ buf.length ∧ ∀ more, attemptPacket d (buf ++ more) = .done n out t := by
  unfold attemptPacket at h
  split at h
  · cases h
  · rename_i inner rest hsplit
    obtain ⟨hlen, -⟩ := splitPacket_length hsplit
    split at h
    · rename_i hhandle
      cases h
      refine ⟨by omega, by omega, fun more => ?_⟩
      rw [attemptPacket, splitPacket_append hsplit]
      dsimp only
      rw [hhandle]
      simp only [List.length_append]
      congr 1
      omega
    · cases h

theorem attemptPacket_fail (h : attemptPacket d buf = .fail e) (more : Bytes) :
    attemptPacket d (buf ++ more) = .fail e := by
  unfold attemptPacket at h
  split at h
  · cases h
  · rename_i inner rest hsplit
    split at h
    · cases h
    · rename_i hhandle
      cases h
      rw [attemptPacket, splitPacket_append hsplit]
      dsimp only
      rw [hhandle]

theorem attemptPacket_more (h : attemptPacket d buf = .more t) : t = d ∧ splitPacket buf = none := by
  unfold attemptPacket at h
  split at h
  · rename_i hsplit
    cases h
    exact ⟨rfl, hsplit⟩
  · split at h <;> cases h

theorem attempt_segmentable : Segmentable Eq attempt where
  equivalence := eq_equivalence
  respects {s _ buf} h := by
    subst h
    cases attempt s buf with
    | more => exact .more
    | done => exact .done rfl
    | fail => exact .fail
  done_pos h := by
    unfold attempt at h
    split at h
    · split at h
      · cases h
      · rename_i hpreamble
        cases h
        exact ⟨by decide, (preamble_ehome2 hpreamble).1⟩
      · exact ⟨(attemptPacket_done h).1, (attemptPacket_done h).2.1⟩
    · exact ⟨(attemptPacket_done h).1, (attemptPacket_done h).2.1⟩
  done_append h q := by
    unfold attempt at *
    split at h
    · rename_i hfirst
      rw [if_pos hfirst]
      split at h
      · cases h
      · rename_i hpreamble
        cases h
        rw [(preamble_ehome2 hpreamble).2.2 q]
      · rename_i hpreamble
        rw [preamble_plain hpreamble q]
        exact (attemptPacket_done h).2.2 q
    · rename_i hfirst
      rw [if_neg hfirst]
      exact (attemptPacket_done h).2.2 q
  fail_append h q := by
    unfold attempt at *
    split at h
    · rename_i hfirst
      rw [if_pos hfirst]
      split at h
      · cases h
      · cases h
      · rename_i hpreamble
        rw [preamble_plain hpreamble q]
        exact attemptPacket_fail h q
    · rename_i hfirst
      rw [if_neg hfirst]
      exact attemptPacket_fail h q
  more_append {s buf t} h q := by
    suffices attempt t (buf ++ q) = attempt s (buf ++ q) by
      rw [this]
      cases attempt s (buf ++ q) with
      | more => exact .more
      | done => exact .done rfl
      | fail => exact .fail
    unfold attempt at h
    split at h
    · rename_i hfirst
      split at h
      · cases h
        rfl
      · cases h
      · rename_i hpreamble
        obtain ⟨rfl, -⟩ := attemptPacket_more h
        rw [attempt, attempt, if_neg Bool.false_ne_true, if_pos hfirst, preamble_plain hpreamble q]
    · obtain ⟨rfl, -⟩ := attemptPacket_more h
      rfl

/-- What a call returns, where nothing stopped it. -/
def returned (r : List (Option EhomeOutput) × Halt EhomeDecoder Panic UInt8) :
    Checked (EhomeDecoder × Bytes × List EhomeOutput) :=
  match r.2 with
  | .waiting d rest => .ok (d, rest, r.1.filterMap id)
  | .failed e => .error e

theorem returned_cons (output : Option EhomeOutput) (outs : List (Option EhomeOutput))
    (halt : Halt EhomeDecoder Panic UInt8) :
    returned (output :: outs, halt) = do
      let (d, buf, outputs) ← returned (outs, halt)
      return (d, buf, output.toList ++ outputs) := by
  cases halt with
  | failed e => rfl
  | waiting d rest => cases output <;> rfl

theorem handlePacket_firstPacket {d : EhomeDecoder} (h : d.handlePacket inner = .ok (t, output)) :
    t.firstPacket = d.firstPacket := by
  unfold handlePacket at h
  split at h
  · cases h
    rfl
  · split at h
    · dsimp only at h
      split at h
      · cases h
        rfl
      · obtain ⟨info, -, h⟩ := bind_eq_ok h
        cases h
        rfl
    · cases h
      rfl

theorem decodePackets_eq {d : EhomeDecoder} (hfirst : d.firstPacket = false)
    (hpasses : buf.length ≤ passes) :
    decodePackets passes d buf = returned (run attempt d buf) := by
  induction passes generalizing d buf with
  | zero =>
    obtain rfl := List.length_eq_zero_iff.mp (Nat.le_zero.mp hpasses)
    rw [run_more (t := d) (by rw [attempt, hfirst]; rfl)]
    rfl
  | succ passes ih =>
    have hattempt : attempt d buf = attemptPacket d buf := by
      rw [attempt, hfirst]
      rfl
    rw [decodePackets]
    rw [attemptPacket] at hattempt
    cases hsplit : splitPacket buf with
    | none =>
      rw [hsplit] at hattempt
      rw [run_more hattempt]
      rfl
    | some r =>
      obtain ⟨inner, rest⟩ := r
      obtain ⟨hlen, hdrop⟩ := splitPacket_length hsplit
      rw [hsplit] at hattempt
      dsimp only at hattempt ⊢
      cases hhandle : d.handlePacket inner with
      | error e =>
        rw [hhandle] at hattempt
        rw [run_fail hattempt]
        rfl
      | ok r =>
        rw [hhandle] at hattempt
        rw [run_done attempt_segmentable hattempt, hdrop, returned_cons, ok_bind,
          ih ((handlePacket_firstPacket hhandle).trans hfirst) (by omega)]

theorem decode_eq (d : EhomeDecoder) (buf : Bytes) :
    d.decode buf = returned (run attempt d buf) := by
  unfold decode
  split
  · rename_i hfirst
    cases hpreamble : preamble buf with
    | unknown =>
      rw [run_more (t := d) (by rw [attempt, if_pos hfirst, hpreamble])]
      rfl
    | ehome2 rest =>
      have hattempt : attempt d buf =
          .done 256 none { d with isEhome2 := true, firstPacket := false } := by
        rw [attempt, if_pos hfirst, hpreamble]
      rw [run_done attempt_segmentable hattempt, (preamble_ehome2 hpreamble).2.1, returned_cons]
      dsimp only
      rw [decodePackets_eq rfl (Nat.le_refl _)]
      cases returned (run attempt { d with isEhome2 := true, firstPacket := false } rest) <;> rfl
    | plain =>
      have hattempt : attempt d buf = attempt { d with firstPacket := false } buf := by
        rw [attempt, attempt, if_pos hfirst, hpreamble]
        rfl
      have hrun : run attempt d buf = run attempt { d with firstPacket := false } buf := by
        rw [run, run, drain, drain, hattempt]
      rw [hrun]
      exact decodePackets_eq rfl (Nat.le_refl _)
  · rename_i hfirst
    exact decodePackets_eq (Bool.eq_false_iff.mpr hfirst) (Nat.le_refl _)

/-- The outputs of a stream, or what stops them. -/
def outputsOf (stream : Bytes) : Checked (List EhomeOutput) := do
  return (← new.decode stream).2.2

/-- However a stream is cut, it gives what it gives in one piece. -/
theorem decodeChunks_eq (chunks : List Bytes) :
    new.decodeChunks [] chunks = outputsOf chunks.flatten := by
  have hfeed (d : EhomeDecoder) (buf : Bytes) : d.decodeChunks buf chunks =
      match feed attempt (fun d _ => d) d buf chunks with
      | (outs, none) => .ok (outs.filterMap id)
      | (_, some e) => .error e := by
    induction chunks generalizing d buf with
    | nil => rfl
    | cons chunk chunks ih =>
      rw [decodeChunks, decode_eq, feed]
      rcases run attempt d (buf ++ chunk) with ⟨outs, d' | e⟩
      · rename_i rest
        simp only [returned, ok_bind, ih]
        rcases feed attempt (fun d _ => d) d' rest chunks with ⟨outs', _ | e⟩
        · simp
        · rfl
      · rfl
  rw [hfeed, feed_eq_run attempt_segmentable (fun _ _ => rfl) chunks [] new new
    (.of_related attempt_segmentable rfl []) ⟨new, rfl⟩, outputsOf, decode_eq, List.nil_append]
  rcases run attempt new chunks.flatten with ⟨outs, d' | e⟩ <;> rfl

/-- The content of the second packet of a stream, in which the codecs are told. -/
def codecHandshake (stream : Bytes) : Option Bytes := do
  let packets := match preamble stream with
    | .unknown => []
    | .ehome2 rest => rest
    | .plain => stream
  let (_, rest) ← splitPacket packets
  let (inner, _) ← splitPacket rest
  return inner

theorem readCodecInfo_ok_iff {inner : Bytes} :
    (∃ info, readCodecInfo inner = .ok info) ↔ 22 ≤ inner.length := by
  constructor
  · rintro ⟨info, h⟩
    unfold readCodecInfo at h
    obtain ⟨_, -, h⟩ := bind_eq_ok h
    obtain ⟨_, -, h⟩ := bind_eq_ok h
    obtain ⟨_, -, h⟩ := bind_eq_ok h
    obtain ⟨_, -, h⟩ := bind_eq_ok h
    obtain ⟨_, -, h⟩ := bind_eq_ok h
    obtain ⟨_, -, h⟩ := bind_eq_ok h
    obtain ⟨_, -, h⟩ := bind_eq_ok h
    obtain ⟨_, -, h⟩ := bind_eq_ok h
    obtain ⟨_, hlast, -⟩ := bind_eq_ok h
    unfold byteAt at hlast
    split at hlast
    · rename_i hsome
      have := (List.getElem?_eq_some_iff.mp hsome).1
      omega
    · cases hlast
  · intro hlong
    have hread : Yields (fun _ => False) (readCodecInfo inner) fun _ => True := by
      unfold readCodecInfo
      refine .byteAt_bind (by omega) fun _ _ => .byteAt_bind (by omega) fun _ _ => ?_
      refine .byteAt_bind (by omega) fun _ _ => .byteAt_bind (by omega) fun _ _ => ?_
      refine .byteAt_bind (by omega) fun _ _ => .byteAt_bind (by omega) fun _ _ => ?_
      refine .byteAt_bind (by omega) fun _ _ => .byteAt_bind (by omega) fun _ _ => ?_
      exact .byteAt_bind (by omega) fun _ _ => .pure trivial
    obtain ⟨info, hinfo, -⟩ := hread.exists_ok
    exact ⟨info, hinfo⟩

/-- Behind the handshake nothing is read that may be missing. -/
theorem decodePackets_media {d : EhomeDecoder} (hseq : d.packetSeq = 2) (passes : Nat)
    (buf : Bytes) : ∃ r, decodePackets passes d buf = .ok r := by
  induction passes generalizing buf with
  | zero => exact ⟨_, rfl⟩
  | succ passes ih =>
    rw [decodePackets]
    cases splitPacket buf with
    | none => exact ⟨_, rfl⟩
    | some r =>
      obtain ⟨inner, rest⟩ := r
      obtain ⟨r, hr⟩ := ih rest
      dsimp only
      rw [handlePacket, if_neg (by omega), if_neg (by omega), pure_eq, ok_bind, hr]
      exact ⟨_, rfl⟩

theorem decodePackets_handshake {d : EhomeDecoder} (hseq : d.packetSeq = 1) (passes : Nat)
    (hsplit : splitPacket buf = some (inner, rest)) :
    (∃ r, decodePackets (passes + 1) d buf = .ok r) ↔ inner.length ≠ 20 ∧ inner.length ≠ 21 := by
  rw [decodePackets, hsplit]
  dsimp only
  rw [handlePacket, if_neg (by omega), if_pos hseq]
  dsimp only
  split
  · rename_i hshort
    obtain ⟨r, hr⟩ := decodePackets_media (d := { d with packetSeq := 2 }) rfl passes rest
    rw [pure_eq, ok_bind, hr]
    exact iff_of_true ⟨_, rfl⟩ (by omega)
  · rename_i hlong
    have hread : (∃ info, readCodecInfo inner = .ok info) ↔ 22 ≤ inner.length :=
      readCodecInfo_ok_iff
    cases hinfo : readCodecInfo inner with
    | error e =>
      refine iff_of_false (by rintro ⟨r, hr⟩; cases hr) fun hne => ?_
      obtain ⟨info, hok⟩ := hread.mpr (by omega)
      rw [hinfo] at hok
      cases hok
    | ok info =>
      have hfull := hread.mp ⟨info, hinfo⟩
      obtain ⟨r, hr⟩ := decodePackets_media
        (d := { d with packetSeq := 2, codecInfo := some info }) rfl passes rest
      rw [ok_bind, pure_eq, ok_bind, hr]
      exact iff_of_true ⟨_, rfl⟩ (by omega)

/-- From the first packet on, it is the second that decides. -/
theorem decodePackets_start {d : EhomeDecoder} (hseq : d.packetSeq = 0)
    (hpasses : buf.length ≤ passes) : (∃ r, decodePackets passes d buf = .ok r) ↔
      ∀ first rest inner rest', splitPacket buf = some (first, rest) →
        splitPacket rest = some (inner, rest') → inner.length ≠ 20 ∧ inner.length ≠ 21 := by
  cases passes with
  | zero =>
    obtain rfl := List.length_eq_zero_iff.mp (Nat.le_zero.mp hpasses)
    exact iff_of_true ⟨_, rfl⟩ nofun
  | succ passes =>
    rw [decodePackets]
    cases hfirst : splitPacket buf with
    | none => exact iff_of_true ⟨_, rfl⟩ nofun
    | some r =>
      obtain ⟨first, rest⟩ := r
      have hlen := (splitPacket_length hfirst).1
      obtain ⟨passes, rfl⟩ : ∃ passes', passes = passes' + 1 := ⟨passes - 1, by omega⟩
      dsimp only
      rw [handlePacket, if_pos hseq, pure_eq, ok_bind]
      dsimp only
      cases hsecond : splitPacket rest with
      | none =>
        rw [decodePackets, hsecond]
        refine iff_of_true ⟨_, rfl⟩ ?_
        rintro _ _ inner rest' ⟨⟩ h
        rw [hsecond] at h
        cases h
      | some r =>
        obtain ⟨inner, rest'⟩ := r
        have hstep := decodePackets_handshake
          (d := { d with packetSeq := 1, ssrc := some (ssrcText first) }) rfl passes hsecond
        have hall : (∀ first' rest₁ inner' rest₂, some (first, rest) = some (first', rest₁) →
            splitPacket rest₁ = some (inner', rest₂) → inner'.length ≠ 20 ∧ inner'.length ≠ 21) ↔
            inner.length ≠ 20 ∧ inner.length ≠ 21 := by
          refine ⟨fun h => h _ _ _ _ rfl hsecond, ?_⟩
          rintro h _ _ inner' rest₂ ⟨⟩ h'
          rw [hsecond] at h'
          cases h'
          exact h
        rw [hall, ← hstep]
        constructor
        · rintro ⟨r, hr⟩
          obtain ⟨t, ht, -⟩ := bind_eq_ok hr
          exact ⟨t, ht⟩
        · rintro ⟨r, hr⟩
          rw [hr]
          exact ⟨_, rfl⟩

/-- The packets of a stream, once it is known where they begin. -/
theorem codecHandshake_iff {packets : Bytes} (p : Bytes → Prop) :
    (∀ inner, (do
      let (_, rest) ← splitPacket packets
      let (inner, _) ← splitPacket rest
      return inner) = some inner → p inner) ↔
    ∀ first rest inner rest', splitPacket packets = some (first, rest) →
      splitPacket rest = some (inner, rest') → p inner := by
  cases splitPacket packets with
  | none => exact iff_of_true nofun nofun
  | some r =>
    obtain ⟨first, rest⟩ := r
    constructor
    · rintro h _ _ inner rest' ⟨⟩ hsecond
      exact h inner (by simp [hsecond])
    · intro h inner hinner
      cases hsecond : splitPacket rest with
      | none => simp [hsecond] at hinner
      | some r =>
        simp only [Option.bind_eq_bind, Option.bind_some, hsecond, Option.pure_def,
          Option.some.injEq] at hinner
        exact hinner ▸ h first rest r.1 r.2 rfl hsecond

theorem outputsOf_ok_iff (stream : Bytes) : (∃ outputs, outputsOf stream = .ok outputs) ↔
    ∀ inner, codecHandshake stream = some inner → inner.length ≠ 20 ∧ inner.length ≠ 21 := by
  have hreturn {r : Checked (EhomeDecoder × Bytes × List EhomeOutput)} :
      (∃ outputs, (do return (← r).2.2) = (.ok outputs : Checked _)) ↔ ∃ t, r = .ok t := by
    cases r with
    | error e => exact iff_of_false (by rintro ⟨_, h⟩; cases h) (by rintro ⟨_, h⟩; cases h)
    | ok t => exact iff_of_true ⟨_, rfl⟩ ⟨t, rfl⟩
  rw [outputsOf, hreturn, decode, if_pos (show new.firstPacket = true from rfl)]
  unfold codecHandshake
  cases hpreamble : preamble stream with
  | unknown => exact iff_of_true ⟨_, rfl⟩ nofun
  | ehome2 packets =>
    exact (decodePackets_start rfl (Nat.le_refl _)).trans (codecHandshake_iff _).symm
  | plain => exact (decodePackets_start rfl (Nat.le_refl _)).trans (codecHandshake_iff _).symm

/-- Nothing is read out of range, and every cutting gives what the whole stream gives. -/
def Safe (stream : Bytes) : Prop :=
  ∃ outputs, outputsOf stream = .ok outputs ∧
    ∀ chunks : List Bytes, chunks.flatten = stream → new.decodeChunks [] chunks = .ok outputs

/-- A stream is decoded safely exactly when its second packet, if all of it came, is not of 20
or 21 bytes. -/
theorem safe_iff (stream : Bytes) : Safe stream ↔
    ∀ inner, codecHandshake stream = some inner → inner.length ≠ 20 ∧ inner.length ≠ 21 := by
  rw [← outputsOf_ok_iff]
  constructor
  · rintro ⟨outputs, h, -⟩
    exact ⟨outputs, h⟩
  · rintro ⟨outputs, h⟩
    refine ⟨outputs, h, fun chunks hchunks => ?_⟩
    rw [decodeChunks_eq, hchunks, h]

/-- A packet without content, and one of twenty bytes. -/
def shortHandshake : Bytes := [0, 0, 0, 0] ++ [0, 0, 0, 20] ++ List.replicate 20 0

theorem not_safe : ¬ Safe shortHandshake := by
  rintro ⟨outputs, h, -⟩
  have hpanic : outputsOf shortHandshake = .error .outOfRange := by decide +kernel
  rw [hpanic] at h
  cases h

end CheetahMedia.Codec.EhomeDecoder
