import CheetahMedia.Rtmp.Chunk.Decoder

namespace CheetahMedia.Rtmp
open Lib
open Reader (Local Stateless Keeps Respects Alike)

namespace RtmpChunkDecoder

/-- What a later attempt at the same header still relies on after an attempt that
ran out of bytes part of the way. -/
def Kept : MessageHeaderFormat → RtmpChunkStream → RtmpChunkStream → Prop
  | .f0, _, _ => True
  | .f1, cs, cs' => cs'.timestamp = cs.timestamp ∧ cs'.messageStreamId = cs.messageStreamId
  | .f2, cs, cs' => cs' = { cs with
      timestampDelta := cs'.timestampDelta
      enableF3ExtendedTimestamp := cs'.enableF3ExtendedTimestamp }
  | .f3, cs, cs' => cs' = { cs with timestampDelta := cs'.timestampDelta } ∧
      (cs.enableF3ExtendedTimestamp = false → cs'.timestampDelta = cs.timestampDelta)

theorem Kept.refl (format : MessageHeaderFormat) (cs : RtmpChunkStream) : Kept format cs cs := by
  cases format with
  | f0 => exact trivial
  | f1 => exact ⟨rfl, rfl⟩
  | f2 => exact rfl
  | f3 => exact ⟨rfl, fun _ => rfl⟩

theorem Kept.trans (h : Kept format cs₁ cs₂) (h' : Kept format cs₂ cs₃) : Kept format cs₁ cs₃ := by
  cases format with
  | f0 => exact trivial
  | f1 => exact ⟨h'.1.trans h.1, h'.2.trans h.2⟩
  | f2 =>
    obtain ⟨⟩ := cs₁
    obtain ⟨⟩ := cs₂
    obtain ⟨⟩ := cs₃
    simp only [Kept, RtmpChunkStream.mk.injEq, true_and] at h h' ⊢
    grind
  | f3 =>
    obtain ⟨⟩ := cs₁
    obtain ⟨⟩ := cs₂
    obtain ⟨⟩ := cs₃
    simp only [Kept, RtmpChunkStream.mk.injEq, true_and] at h h' ⊢
    grind

section Stateless
variable {σ : Type}

theorem readUint_stateless (width : Nat) : Stateless (readUint width : BytesReader σ Nat) :=
  .bind (.take _ _) fun _ => .pure _

theorem readU8_stateless : Stateless (readU8 : BytesReader σ UInt8) :=
  .bind (readUint_stateless 1) fun _ => .pure _

theorem readU16_stateless : Stateless (readU16 : BytesReader σ UInt16) :=
  .bind (readUint_stateless 2) fun _ => .pure _

theorem readU24_stateless : Stateless (readU24 : BytesReader σ UInt32) :=
  .bind (readUint_stateless 3) fun _ => .pure _

theorem readU32_stateless : Stateless (readU32 : BytesReader σ UInt32) :=
  .bind (readUint_stateless 4) fun _ => .pure _

theorem decodeStreamId_stateless (idBits : UInt8) :
    Stateless (decodeStreamId idBits : BytesReader σ Nat) := by
  unfold decodeStreamId
  split
  · exact .bind readU8_stateless fun _ => .pure _
  split
  · exact .bind readU16_stateless fun _ => .pure _
  · exact .pure _

theorem decodeChunkBasicHeader_stateless :
    Stateless (decodeChunkBasicHeader : BytesReader σ (MessageHeaderFormat × RtmpChunkStreamId)) := by
  refine .bind readU8_stateless fun firstByte => .bind (decodeStreamId_stateless _) fun id => ?_
  split
  · exact .pure _
  · exact .fail _

theorem decodeMessageSize_stateless : Stateless (decodeMessageSize : BytesReader σ Nat) := by
  refine .bind readU24_stateless fun size => ?_
  dsimp only
  split
  · exact .fail _
  · exact .pure _

theorem decodeExtendedTimestamp_stateless (delta : UInt32) :
    Stateless (decodeExtendedTimestamp delta : BytesReader σ UInt32) := by
  unfold decodeExtendedTimestamp
  split
  · exact readU32_stateless
  · exact .pure _

end Stateless

section Local
variable {σ : Type}

theorem decodeStreamId_local (idBits : UInt8) :
    Local Error.IsShort (decodeStreamId idBits : BytesReader σ Nat) := by
  unfold decodeStreamId
  split
  · exact .bind readU8_local fun _ => .pure _ _
  split
  · exact .bind readU16_local fun _ => .pure _ _
  · exact .pure _ _

theorem decodeChunkBasicHeader_local : Local Error.IsShort
    (decodeChunkBasicHeader : BytesReader σ (MessageHeaderFormat × RtmpChunkStreamId)) := by
  refine .bind readU8_local fun firstByte => .bind (decodeStreamId_local _) fun id => ?_
  split
  · exact .pure _ _
  · exact .fail _ _

theorem decodeMessageSize_local : Local Error.IsShort (decodeMessageSize : BytesReader σ Nat) := by
  refine .bind readU24_local fun size => ?_
  dsimp only
  split
  · exact .fail _ _
  · exact .pure _ _

theorem decodeExtendedTimestamp_local (delta : UInt32) :
    Local Error.IsShort (decodeExtendedTimestamp delta : BytesReader σ UInt32) := by
  unfold decodeExtendedTimestamp
  split
  · exact readU32_local
  · exact .pure _ _

theorem decodeTimestampDelta_local (delta : UInt32) :
    Local Error.IsShort (decodeTimestampDelta delta) :=
  .bind (.modify _ _) fun _ => .bind (decodeExtendedTimestamp_local delta) fun _ => .modify _ _

theorem decodeMessageHeader_local (format : MessageHeaderFormat) :
    Local Error.IsShort (decodeMessageHeader format) := by
  cases format with
  | f0 =>
    exact .bind (.modify _ _) fun _ => .bind readU24_local fun _ =>
      .bind decodeMessageSize_local fun _ => .bind readU8_local fun _ =>
      .bind readU32_local fun _ => .bind (decodeTimestampDelta_local _) fun _ =>
      .bind (.modify _ _) fun _ => .bind (.ofExcept _ _) fun _ => .modify _ _
  | f1 =>
    exact .bind readU24_local fun _ => .bind decodeMessageSize_local fun _ =>
      .bind readU8_local fun _ => .bind (decodeTimestampDelta_local _) fun _ =>
      .bind (.modify _ _) fun _ => .bind (.ofExcept _ _) fun _ => .modify _ _
  | f2 => exact .bind readU24_local fun _ => decodeTimestampDelta_local _
  | f3 =>
    refine .bind (.get _) fun cs => ?_
    split
    · exact .bind readU32_local fun _ => .modify _ _
    · exact .pure _ _

theorem decodeMessagePayload_local (chunkSize : RtmpChunkSize) :
    Local Error.IsShort (decodeMessagePayload chunkSize) := by
  refine .bind (.get _) fun cs => ?_
  split
  · exact .fail _ _
  refine .bind (readBytes_local _) fun payload => ?_
  dsimp only
  split
  · exact .bind (.modify _ _) fun _ => .pure _ _
  · exact .bind (.modify _ _) fun _ => .pure _ _

theorem decodeChunk_local : Local Error.IsShort decodeChunk :=
  .bind decodeChunkBasicHeader_local fun _ => .bind (.get _) fun _ =>
    .bind (.ofExcept _ _) fun _ =>
    .bind (.nested (.bind (decodeMessageHeader_local _) fun _ => decodeMessagePayload_local _) _ _)
      fun _ => .pure _ _

end Local

/-- An attempt at a header touches nothing that a later one relies on. -/
theorem decodeTimestampDelta_keeps (delta : UInt32) (hformat : format = .f1 ∨ format = .f2) :
    Keeps (Kept format) (decodeTimestampDelta delta) := by
  refine .bind Kept.trans (.modify fun cs => ?_) fun _ => .bind Kept.trans
    (.stateless (Kept.refl _) (decodeExtendedTimestamp_stateless delta)) fun _ =>
    .modify fun cs => ?_
  · rcases hformat with rfl | rfl
    · exact ⟨rfl, rfl⟩
    · exact rfl
  · rcases hformat with rfl | rfl
    · exact ⟨rfl, rfl⟩
    · exact rfl

theorem decodeMessageHeader_keeps (format : MessageHeaderFormat) :
    Keeps (Kept format) (decodeMessageHeader format) := by
  have hquiet {α : Type} {m : BytesReader RtmpChunkStream α} (h : Stateless m) :
      Keeps (Kept format) m := .stateless (Kept.refl format) h
  cases format with
  | f0 => exact fun _ _ => trivial
  | f1 =>
    exact .bind Kept.trans (hquiet readU24_stateless) fun _ =>
      .bind Kept.trans (hquiet decodeMessageSize_stateless) fun _ =>
      .bind Kept.trans (hquiet readU8_stateless) fun _ =>
      .bind Kept.trans (decodeTimestampDelta_keeps _ (.inl rfl)) fun _ =>
      .bind Kept.trans (.modify fun _ => ⟨rfl, rfl⟩) fun _ =>
      .bind Kept.trans (hquiet (.ofExcept _)) fun _ => .modify fun _ => ⟨rfl, rfl⟩
  | f2 =>
    exact .bind Kept.trans (hquiet readU24_stateless) fun _ =>
      decodeTimestampDelta_keeps _ (.inr rfl)
  | f3 =>
    intro buf cs
    rw [decodeMessageHeader, Reader.bind_ok (Reader.run_get _ _)]
    split
    · rename_i hflag
      obtain ⟨answer, hanswer⟩ := readU32_stateless (σ := RtmpChunkStream)
      rw [Reader.run_bind, hanswer]
      cases answer buf with
      | ok r => exact ⟨rfl, fun h => absurd (hflag.symm.trans h) (by decide)⟩
      | error e => exact Kept.refl _ _
    · exact Kept.refl _ _

/-- Both records were given the same delta. -/
def Retimed (P : RtmpChunkStream → RtmpChunkStream → Prop) (cs cs' : RtmpChunkStream) : Prop :=
  ∃ last last' isExtended delta, P last last' ∧
    cs = { last with enableF3ExtendedTimestamp := isExtended, timestampDelta := delta } ∧
    cs' = { last' with enableF3ExtendedTimestamp := isExtended, timestampDelta := delta }

theorem decodeTimestampDelta_respects (P : RtmpChunkStream → RtmpChunkStream → Prop)
    (delta : UInt32) : Respects P (Retimed P) (decodeTimestampDelta delta) := by
  let Marked (cs cs' : RtmpChunkStream) : Prop := ∃ last last' isExtended, P last last' ∧
    cs = { last with enableF3ExtendedTimestamp := isExtended } ∧
    cs' = { last' with enableF3ExtendedTimestamp := isExtended }
  have hmark (cs cs' : RtmpChunkStream) (h : P cs cs') : Marked
      { cs with enableF3ExtendedTimestamp := delta = 0xFFFFFF }
      { cs' with enableF3ExtendedTimestamp := delta = 0xFFFFFF } := ⟨cs, cs', _, h, rfl, rfl⟩
  refine .bind (.modify hmark) fun _ =>
    .bind (.stateless (decodeExtendedTimestamp_stateless delta)) fun delta => .modify ?_
  rintro _ _ ⟨last, last', isExtended, h, rfl, rfl⟩
  exact ⟨last, last', isExtended, ⟨delta⟩, h, rfl, rfl⟩

/-- A header makes up for everything that an earlier attempt may have changed. -/
theorem decodeMessageHeader_respects (format : MessageHeaderFormat) :
    Respects (Kept format) Eq (decodeMessageHeader format) := by
  cases format with
  | f0 =>
    let Cleared (cs cs' : RtmpChunkStream) : Prop := cs'.accPayload = cs.accPayload
    let Sized (cs cs' : RtmpChunkStream) : Prop := cs' = { cs with
      messageType := cs'.messageType, messageStreamId := cs'.messageStreamId }
    refine .bind (Q := Cleared) (.modify fun _ _ _ => rfl) fun _ =>
      .bind (.stateless readU24_stateless) fun timestamp =>
      .bind (.stateless decodeMessageSize_stateless) fun messageSize =>
      .bind (.stateless readU8_stateless) fun messageType =>
      .bind (.stateless readU32_stateless) fun messageStreamId =>
      .bind (decodeTimestampDelta_respects _ _) fun _ =>
      .bind (Q := Sized) (.modify ?_) fun _ =>
      .bind (.stateless (.ofExcept _)) fun messageType => .modify ?_
    · rintro _ _ ⟨last, last', isExtended, delta, h, rfl, rfl⟩
      have hacc : last'.accPayload = last.accPayload := h
      simp [Sized, hacc]
    · intro cs cs' h
      have hcs : cs' = _ := h
      rw [hcs]
  | f1 =>
    let Typeless (cs cs' : RtmpChunkStream) : Prop :=
      cs' = { cs with messageType := cs'.messageType }
    refine .bind (.stateless readU24_stateless) fun timestampDelta =>
      .bind (.stateless decodeMessageSize_stateless) fun messageSize =>
      .bind (.stateless readU8_stateless) fun messageType =>
      .bind (decodeTimestampDelta_respects _ _) fun _ =>
      .bind (Q := Typeless) (.modify ?_) fun _ =>
      .bind (.stateless (.ofExcept _)) fun messageType => .modify ?_
    · rintro _ _ ⟨last, last', isExtended, delta, h, rfl, rfl⟩
      have hlast : last'.timestamp = last.timestamp ∧
        last'.messageStreamId = last.messageStreamId := h
      simp [Typeless, hlast]
    · intro cs cs' h
      have hcs : cs' = _ := h
      rw [hcs]
  | f2 =>
    refine .bind (.stateless readU24_stateless) fun timestampDelta =>
      (decodeTimestampDelta_respects _ _).mono ?_
    rintro _ _ ⟨last, last', isExtended, delta, h, rfl, rfl⟩
    have hlast : last' = _ := h
    rw [hlast]
  | f3 =>
    intro buf cs cs' h
    obtain ⟨hcs, hdelta⟩ : cs' = { cs with timestampDelta := cs'.timestampDelta } ∧ _ := h
    have hflag : cs'.enableF3ExtendedTimestamp = cs.enableF3ExtendedTimestamp := by rw [hcs]
    rw [decodeMessageHeader, Reader.bind_ok (Reader.run_get _ _),
      Reader.bind_ok (Reader.run_get _ _), hflag]
    split
    · refine Respects.bind (P := Kept .f3) (.stateless readU32_stateless) (fun delta => .modify ?_)
        buf cs cs' ⟨hcs, hdelta⟩
      rintro last last' ⟨hlast, -⟩
      rw [hlast]
    · rename_i hoff
      rw [hcs, hdelta (by simpa using hoff)]
      exact .refl (fun _ => rfl) _

theorem decodeMessagePayload_error {chunkSize : RtmpChunkSize}
    (h : (decodeMessagePayload chunkSize).run buf cs = (cs', .error e)) : cs' = cs := by
  rw [decodeMessagePayload, Reader.bind_ok (Reader.run_get _ _)] at h
  split at h
  · cases h
    rfl
  rcases Reader.bind_eq_error h with hshort | ⟨s, payload, mid, -, hrest⟩
  · exact (Reader.take_eq_error hshort).1
  · dsimp only at hrest
    split at hrest
    · cases hrest
    · cases hrest

/-- The part of a chunk that works on the record of its stream. -/
theorem decodeBody_error {chunkSize : RtmpChunkSize} (h : (decodeMessageHeader format >>= fun _ =>
    decodeMessagePayload chunkSize).run buf cs = (cs', .error e)) : Kept format cs cs' := by
  have hkeep := decodeMessageHeader_keeps format buf cs
  rcases Reader.bind_eq_error h with hheader | ⟨s, _, mid, hheader, hpayload⟩
  · rw [hheader] at hkeep
    exact hkeep
  · rw [hheader] at hkeep
    rw [decodeMessagePayload_error hpayload]
    exact hkeep

theorem decodeBody_respects (format : MessageHeaderFormat) (chunkSize : RtmpChunkSize) :
    Respects (Kept format) Eq (decodeMessageHeader format >>= fun _ =>
      decodeMessagePayload chunkSize) :=
  (decodeMessageHeader_respects format).bind fun _ => .eq _

/-- A failed attempt is not noticed later: the next one answers as a first one would. -/
theorem decodeChunk_retry (h : decodeChunk.run buf d = (d', .error e)) (more : Bytes) :
    Alike Eq (decodeChunk.run (buf ++ more) d) (decodeChunk.run (buf ++ more) d') := by
  rcases Reader.bind_eq_error h with hheader | ⟨d₁, header, mid, hheader, hrest⟩
  · rw [decodeChunkBasicHeader_stateless.state hheader]
    exact .refl (fun _ => rfl) _
  obtain rfl := decodeChunkBasicHeader_stateless.state hheader
  obtain ⟨used, rfl, hused⟩ := decodeChunkBasicHeader_local.ok hheader
  have hagain := decodeChunkBasicHeader_stateless.run_eq (hused (mid ++ more))
  rw [Reader.bind_ok (Reader.run_get _ _)] at hrest
  cases hresume : d₁.resume header.1 header.2 with
  | error e' =>
    rw [hresume] at hrest
    cases hrest
    exact .refl (fun _ => rfl) _
  | ok cs =>
    rw [hresume, Reader.bind_ok (Reader.run_ofExcept_ok _ _ _)] at hrest
    rcases Reader.bind_eq_error hrest with hnested | ⟨_, _, _, _, hpure⟩
    · obtain ⟨cs', hbody, rfl⟩ := Reader.nested_eq_error hnested
      have hsame := decodeBody_respects header.1 d₁.chunkSize (mid ++ more) cs cs'
        (decodeBody_error hbody)
      rw [List.append_assoc, decodeChunk, Reader.bind_ok (hagain d₁),
        Reader.bind_ok (hagain (d₁.insert header.2 cs')), Reader.bind_ok (Reader.run_get _ _),
        Reader.bind_ok (Reader.run_get _ _), hresume, resume_insert,
        Reader.bind_ok (Reader.run_ofExcept_ok _ _ _),
        Reader.bind_ok (Reader.run_ofExcept_ok _ _ _), insert_chunkSize]
      generalize hr : (decodeMessageHeader header.1 >>= fun _ =>
        decodeMessagePayload d₁.chunkSize).run (mid ++ more) cs = r at hsame
      generalize hr' : (decodeMessageHeader header.1 >>= fun _ =>
        decodeMessagePayload d₁.chunkSize).run (mid ++ more) cs' = r' at hsame
      cases hsame with
      | ok heq =>
        cases heq
        rw [Reader.bind_ok (Reader.nested_ok hr _ _), Reader.bind_ok (Reader.nested_ok hr' _ _),
          insert_insert]
        exact .refl (fun _ => rfl) _
      | error =>
        rw [Reader.bind_error (Reader.nested_error hr _ _),
          Reader.bind_error (Reader.nested_error hr' _ _)]
        exact .error
    · cases hpure

theorem decodeChunk_nil (d : RtmpChunkDecoder) :
    decodeChunk.run [] d = (d, .error .insufficientBuffer) := rfl

/-- A chunk that was decoded takes a part of the buffer and depends on it only. -/
theorem decode_eq_ok (h : decode d buf = (d', .ok (n, chunk))) : 0 < n ∧ n ≤ buf.length ∧
    ∀ more, decode d (buf.take n ++ more) = (d', .ok (n, chunk)) := by
  unfold decode at h
  split at h
  · rename_i d₁ chunk' rest hrun
    cases h
    obtain ⟨used, rfl, hused⟩ := decodeChunk_local.ok hrun
    have hpos : 0 < used.length := by
      cases used with
      | nil =>
        have hnil := hused []
        rw [List.append_nil, decodeChunk_nil] at hnil
        cases hnil
      | cons b bs => simp
    have hn : (used ++ rest).length - rest.length = used.length := by simp
    rw [hn]
    refine ⟨hpos, by simp, fun more => ?_⟩
    rw [List.take_left]
    exact decode_of_run (hused more)
  · cases h

theorem decode_append (h : decode d buf = (d', .ok (n, chunk))) (more : Bytes) :
    decode d (buf ++ more) = (d', .ok (n, chunk)) := by
  have happend := (decode_eq_ok h).2.2 (buf.drop n ++ more)
  rwa [← List.append_assoc, List.take_append_drop] at happend

theorem decode_take (h : decode d buf = (d', .ok (n, chunk))) :
    decode d (buf.take n) = (d', .ok (n, chunk)) := by
  have htake := (decode_eq_ok h).2.2 []
  rwa [List.append_nil] at htake

theorem decode_eq_error (h : decode d buf = (d', .error e)) :
    decodeChunk.run buf d = (d', .error e) := by
  unfold decode at h
  split at h
  · cases h
  · rename_i hrun
    cases h
    exact hrun

/-- A malformed chunk stays malformed whatever arrives behind it. -/
theorem decode_error_append (h : decode d buf = (d', .error e)) (he : ¬ e.IsShort)
    (more : Bytes) : decode d (buf ++ more) = (d', .error e) := by
  have hrun := decodeChunk_local.failed (decode_eq_error h) he more
  simp only [decode, hrun]

theorem decode_retry (h : decode d buf = (d', .error e)) (more : Bytes) :
    decode d (buf ++ more) = decode d' (buf ++ more) ∨ ∃ s t e',
      decode d (buf ++ more) = (s, .error e') ∧ decode d' (buf ++ more) = (t, .error e') := by
  have hsame := decodeChunk_retry (decode_eq_error h) more
  unfold decode
  generalize decodeChunk.run (buf ++ more) d = r, decodeChunk.run (buf ++ more) d' = r' at hsame
  cases hsame with
  | ok heq =>
    rw [heq]
    exact .inl rfl
  | error => exact .inr ⟨_, _, _, rfl, rfl⟩

end RtmpChunkDecoder

end CheetahMedia.Rtmp
