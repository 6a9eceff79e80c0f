import CheetahMedia.Rtmp.Chunk.RoundTrip
import CheetahMedia.Rtmp.Message.Encoder
import CheetahMedia.Rtmp.Message.Segmentation

namespace CheetahMedia.Rtmp
open Lib RtmpMessageEncoder
open RtmpMessageDecoder (feedAll trace onMessage)

/-- A message and the chunk stream that carries it. -/
structure Outgoing where
  chunkStreamId : RtmpChunkStreamId
  message : RtmpMessage

namespace Outgoing

def chunk (op : Outgoing) : Option RtmpChunk := messageToChunk op.chunkStreamId op.message

/-- The payload is one the decoder takes. -/
def Fits (op : Outgoing) : Prop :=
  ∀ chunk, op.chunk = some chunk → chunk.payload.length ≤ MAX_MESSAGE_SIZE

/-- The payload alone says what the message was. -/
def Survives (op : Outgoing) : Prop :=
  ∃ chunk, op.chunk = some chunk ∧ decodeRtmpChunkToMessage chunk = .ok op.message

/-- The header of `op` can leave out what it shares with `last`. -/
def Continues (op last : Outgoing) : Prop :=
  op.message.header.streamId = last.message.header.streamId ∧
    last.message.header.timestamp.millis ≤ op.message.header.timestamp.millis

end Outgoing

def RtmpMessage.abortedStream : RtmpMessage → Option RtmpChunkStreamId
  | .abort _ chunkStreamId => some chunkStreamId
  | _ => none

/-- The messages sent so far, latest first. -/
abbrev History := List Outgoing

namespace History

def last (csid : RtmpChunkStreamId) (sent : History) : Option Outgoing :=
  sent.find? fun op => op.chunkStreamId = csid

/-- No message went out on the chunk stream after an abort of it. -/
def Aborted (csid : RtmpChunkStreamId) : History → Prop
  | [] => False
  | op :: sent => op.message.abortedStream = some csid ∨
      op.chunkStreamId ≠ csid ∧ Aborted csid sent

/-- Each message that is the first on its chunk stream after an abort of it does
not continue the last one before. -/
def Unharmed : History → List Outgoing → Prop
  | _, [] => True
  | sent, op :: ops =>
    (sent.Aborted op.chunkStreamId →
      ∀ last, sent.last op.chunkStreamId = some last → ¬ op.Continues last) ∧
      Unharmed (op :: sent) ops

end History

/-- Encode one message after the other. -/
def RtmpMessageEncoder.encodeAll :
    RtmpMessageEncoder → List Outgoing → Option (Bytes × RtmpMessageEncoder)
  | e, [] => some ([], e)
  | e, op :: ops => do
    let r ← e.encode op.chunkStreamId op.message
    let later ← encodeAll r.2 ops
    return (r.1 ++ later.1, later.2)

/-- Both ends after a run of messages: they agree on every chunk stream but those
that were aborted, of which the decoder knows nothing. -/
structure InTouch (sent : History) (e : RtmpChunkEncoder) (d : RtmpChunkDecoder) : Prop where
  chunkSize : d.chunkSize = e.chunkSize
  unknown : e.chunkStreams csid = none → sent.last csid = none
  known : e.chunkStreams csid = some record → ∃ last, sent.last csid = some last ∧
    last.message.header.streamId = record.messageStreamId ∧
    last.message.header.timestamp = record.timestamp
  live : ¬ sent.Aborted csid → e.chunkStreams csid = some record →
    ∃ cs, d.chunkStreams csid = some cs ∧ InStep record cs
  reset : sent.Aborted csid → d.chunkStreams csid = none

theorem InTouch.initial : InTouch [] {} {} where
  chunkSize := rfl
  unknown _ := rfl
  known h := by cases h
  live _ h := by cases h
  reset h := h.elim

section Step
variable {sent : History} {e : RtmpChunkEncoder} {d : RtmpChunkDecoder} {op : Outgoing}
  {chunk : RtmpChunk}

theorem Outgoing.chunk_eq (h : op.chunk = some chunk) :
    chunk.chunkStreamId = op.chunkStreamId ∧
      chunk.messageStreamId = op.message.header.streamId ∧
      chunk.timestamp = op.message.header.timestamp := by
  unfold Outgoing.chunk messageToChunk at h
  obtain ⟨payload, -, h⟩ := Option.bind_eq_some_iff.mp h
  cases h
  exact ⟨rfl, rfl, rfl⟩

/-- The encoder leaves the header short exactly when the message continues the last one. -/
theorem InTouch.full_iff (h : InTouch sent e d) (hchunk : op.chunk = some chunk) :
    (e.resolveChunkStream chunk).format = .f0 ↔
      ∀ last, sent.last op.chunkStreamId = some last → ¬ op.Continues last := by
  obtain ⟨hid, hstream, htime⟩ := Outgoing.chunk_eq hchunk
  rw [RtmpChunkEncoder.resolve_full_iff, hid]
  cases hrecord : e.chunkStreams op.chunkStreamId with
  | none => simp [h.unknown hrecord]
  | some record =>
    obtain ⟨last, hlast, hstream', htime'⟩ := h.known hrecord
    simp only [hlast, Option.some.injEq, forall_eq', Outgoing.Continues]
    rw [hstream, htime, hstream', htime']

/-- The next message can be followed unless an abort stands in its way. -/
theorem InTouch.followable (h : InTouch sent e d) (hchunk : op.chunk = some chunk)
    (hsafe : sent.Aborted op.chunkStreamId →
      ∀ last, sent.last op.chunkStreamId = some last → ¬ op.Continues last) :
    Followable e d chunk := by
  by_cases habort : sent.Aborted op.chunkStreamId
  · exact .inl ((h.full_iff hchunk).mpr (hsafe habort))
  · by_cases hf0 : (e.resolveChunkStream chunk).format = .f0
    · exact .inl hf0
    · obtain ⟨record, hrecord, _⟩ := RtmpChunkEncoder.resolve_compacts hf0
      have hid := (Outgoing.chunk_eq hchunk).1
      rw [hid] at hrecord
      obtain ⟨cs, hcs, hstep⟩ := h.live habort hrecord
      exact .inr ⟨record, cs, by rw [hid]; exact hrecord, by rw [hid]; exact hcs, hstep⟩

theorem encode_eq (hchunk : op.chunk = some chunk) (e : RtmpMessageEncoder) :
    e.encode op.chunkStreamId op.message = some ((e.chunkEncoder.encode chunk).1,
      { chunkEncoder := afterMessage (e.chunkEncoder.encode chunk).2 op.message }) := by
  unfold Outgoing.chunk at hchunk
  simp [encode, hchunk]

@[simp] theorem afterMessage_chunkStreams (e : RtmpChunkEncoder) (message : RtmpMessage) :
    (afterMessage e message).chunkStreams = e.chunkStreams := by
  unfold afterMessage
  split
  · rfl
  · rfl

/-- What the decoder keeps of a chunk stream after a message. -/
theorem onMessage_chunkStreams (d : RtmpChunkDecoder) (message : RtmpMessage)
    (csid : RtmpChunkStreamId) : (onMessage d message).chunkStreams csid =
      if message.abortedStream = some csid then none else d.chunkStreams csid := by
  cases message with
  | abort header chunkStreamId =>
    simp only [onMessage, RtmpMessage.abortedStream, RtmpChunkDecoder.resetChunkStream,
      Function.update_apply, Option.some.injEq, eq_comm]
  | setChunkSize header size => rfl
  | _ => rfl

theorem onMessage_chunkSize (h : d.chunkSize = e.chunkSize) (message : RtmpMessage) :
    (onMessage d message).chunkSize = (afterMessage e message).chunkSize := by
  cases message with
  | setChunkSize header size => rfl
  | _ => exact h

theorem InTouch.step (h : InTouch sent e d) (hchunk : op.chunk = some chunk)
    (hstep : InStep (e.encoded chunk) cs) :
    InTouch (op :: sent) (afterMessage (e.encode chunk).2 op.message)
      (onMessage (d.insert chunk.chunkStreamId cs) op.message) := by
  obtain ⟨hid, hstream, htime⟩ := Outgoing.chunk_eq hchunk
  obtain ⟨delta, format, extended, hencoded⟩ := RtmpChunkEncoder.encoded_eq e chunk
  have hencoder : ∀ csid, (afterMessage (e.encode chunk).2 op.message).chunkStreams csid =
      if csid = op.chunkStreamId then some (e.encoded chunk) else e.chunkStreams csid := by
    intro csid
    rw [afterMessage_chunkStreams, RtmpChunkEncoder.encode_chunkStreams, hid,
      Function.update_apply]
  have hdecoder : ∀ csid, (d.insert chunk.chunkStreamId cs).chunkStreams csid =
      if csid = op.chunkStreamId then some cs else d.chunkStreams csid := by
    intro csid
    rw [hid]
    exact Function.update_apply ..
  have hlast : ∀ csid, History.last csid (op :: sent) =
      if op.chunkStreamId = csid then some op else sent.last csid := by
    intro csid
    simp only [History.last, List.find?_cons]
    by_cases heq : op.chunkStreamId = csid
    · simp [heq]
    · simp [heq]
  refine ⟨onMessage_chunkSize (d := d.insert _ cs) (e := (e.encode chunk).2) h.chunkSize _,
    fun {csid} he => ?_, fun {csid record} he => ?_,
    fun {csid record} habort he => ?_, fun {csid} habort => ?_⟩
  · rw [hencoder] at he
    split at he
    · cases he
    · rename_i hne
      rw [hlast, if_neg (Ne.symm hne), h.unknown he]
  · rw [hencoder] at he
    rw [hlast]
    split at he
    · rename_i heq
      cases he
      refine ⟨op, if_pos heq.symm, ?_, ?_⟩
      · rw [hencoded]
        exact hstream.symm
      · rw [hencoded]
        exact htime.symm
    · rename_i hne
      rw [if_neg (Ne.symm hne)]
      exact h.known he
  · have hkeep : op.message.abortedStream ≠ some csid := fun ha => habort (.inl ha)
    rw [onMessage_chunkStreams, if_neg hkeep, hdecoder]
    rw [hencoder] at he
    split at he
    · rename_i heq
      cases he
      exact ⟨cs, if_pos heq, hstep⟩
    · rename_i hne
      rw [if_neg hne]
      exact h.live (fun ha => habort (.inr ⟨Ne.symm hne, ha⟩)) he
  · rw [onMessage_chunkStreams]
    rcases habort with ha | ⟨hne, ha⟩
    · rw [if_pos ha]
    · rw [hdecoder, if_neg (Ne.symm hne), h.reset ha]
      split
      · rfl
      · rfl

end Step

theorem encodeAll_cons
    (h : RtmpMessageEncoder.encodeAll ⟨e⟩ (op :: ops) = some (bytes, e')) : ∃ chunk rest,
      op.chunk = some chunk ∧ bytes = (e.encode chunk).1 ++ rest ∧
      RtmpMessageEncoder.encodeAll ⟨afterMessage (e.encode chunk).2 op.message⟩ ops =
        some (rest, e') := by
  obtain ⟨r, hr, h⟩ := Option.bind_eq_some_iff.mp h
  obtain ⟨later, hlater, h⟩ := Option.bind_eq_some_iff.mp h
  cases h
  obtain ⟨chunk, hchunk, -⟩ := Option.bind_eq_some_iff.mp hr
  rw [encode_eq hchunk] at hr
  cases hr
  exact ⟨chunk, later.1, hchunk, rfl, hlater⟩

/-- The next message reaches the other end as its chunk, whatever follows it. -/
theorem InTouch.deliver (h : InTouch sent e d) (hchunk : op.chunk = some chunk)
    (hlen : chunk.payload.length ≤ MAX_MESSAGE_SIZE)
    (hsafe : sent.Aborted op.chunkStreamId →
      ∀ last, sent.last op.chunkStreamId = some last → ¬ op.Continues last) (rest : Bytes) :
    ∃ d', InTouch (op :: sent) (afterMessage (e.encode chunk).2 op.message)
        (onMessage d' op.message) ∧
      (∀ message, decodeRtmpChunkToMessage chunk = .ok message →
        trace d ((e.encode chunk).1 ++ rest) = (.ok message :: (trace (onMessage d' message) rest).1,
          (trace (onMessage d' message) rest).2)) ∧
      ∀ err, decodeRtmpChunkToMessage chunk = .error err →
        trace d ((e.encode chunk).1 ++ rest) = ([], .failed err) ∨ ∃ later halt,
          trace d ((e.encode chunk).1 ++ rest) = (.error err :: later, halt) := by
  obtain ⟨cs, hstep, hnext⟩ := nextChunk_encode h.chunkSize (h.followable hchunk hsafe) hlen
    rest (Nat.le_refl _)
  exact ⟨_, h.step hchunk hstep, RtmpMessageDecoder.trace_of_nextChunk hnext⟩

/-- A run is delivered, message by message, when each message says what it is and
no short header follows an abort. -/
theorem trace_encodeAll (ops : List Outgoing) (h : InTouch sent e d)
    (hfits : ∀ op ∈ ops, op.Fits) (hbytes : RtmpMessageEncoder.encodeAll ⟨e⟩ ops = some (bytes, e'))
    (hsurvive : ∀ op ∈ ops, op.Survives) (hunharmed : sent.Unharmed ops) :
    ∃ d', InTouch (ops.reverse ++ sent) e'.chunkEncoder d' ∧
      trace d bytes = (ops.map fun op => .ok op.message, .waiting d' []) := by
  induction ops generalizing sent e d bytes with
  | nil =>
    cases hbytes
    exact ⟨d, h, RtmpMessageDecoder.trace_nil d⟩
  | cons op ops ih =>
    obtain ⟨chunk, rest, hchunk, rfl, hrest⟩ := encodeAll_cons hbytes
    obtain ⟨d₁, htouch, hdelivered, -⟩ := h.deliver hchunk
      (hfits op List.mem_cons_self chunk hchunk) hunharmed.1 rest
    obtain ⟨chunk', hchunk', hmsg⟩ := hsurvive op List.mem_cons_self
    rw [hchunk] at hchunk'
    cases hchunk'
    obtain ⟨d', htouch', htrace⟩ := ih htouch (fun op hmem => hfits op (List.mem_cons_of_mem _ hmem))
      hrest (fun op hmem => hsurvive op (List.mem_cons_of_mem _ hmem)) hunharmed.2
    refine ⟨d', ?_, ?_⟩
    · rwa [List.reverse_cons, List.append_assoc]
    · rw [hdelivered _ hmsg, htrace]
      rfl

/-- Otherwise it is not. -/
theorem encodeAll_of_trace (ops : List Outgoing) (h : InTouch sent e d)
    (hfits : ∀ op ∈ ops, op.Fits) (hbytes : RtmpMessageEncoder.encodeAll ⟨e⟩ ops = some (bytes, e'))
    (htrace : (trace d bytes).1 = ops.map fun op => .ok op.message)
    (hend : (trace d bytes).2.error = none) :
    (∀ op ∈ ops, op.Survives) ∧ sent.Unharmed ops := by
  induction ops generalizing sent e d bytes with
  | nil => exact ⟨nofun, trivial⟩
  | cons op ops ih =>
    obtain ⟨chunk, rest, hchunk, rfl, hrest⟩ := encodeAll_cons hbytes
    have hsafe : sent.Aborted op.chunkStreamId →
        ∀ last, sent.last op.chunkStreamId = some last → ¬ op.Continues last := by
      intro habort last hlast hcontinues
      have hshort : (e.resolveChunkStream chunk).format ≠ .f0 := fun hf0 =>
        (h.full_iff hchunk).mp hf0 last hlast hcontinues
      have hunknown : d.chunkStreams chunk.chunkStreamId = none := by
        rw [(Outgoing.chunk_eq hchunk).1]
        exact h.reset habort
      rw [RtmpMessageDecoder.trace_of_error (decode_unknown hshort hunknown rest) (by simp)] at hend
      cases hend
    obtain ⟨d', htouch, hdelivered, hreported⟩ := h.deliver hchunk
      (hfits op List.mem_cons_self chunk hchunk) hsafe rest
    cases hmsg : decodeRtmpChunkToMessage chunk with
    | ok message =>
      rw [hdelivered message hmsg] at htrace hend
      simp only [List.map_cons, List.cons.injEq, Except.ok.injEq] at htrace
      obtain ⟨rfl, hlater⟩ := htrace
      obtain ⟨hsurvive, hunharmed⟩ := ih htouch
        (fun op hmem => hfits op (List.mem_cons_of_mem _ hmem)) hrest hlater hend
      exact ⟨List.forall_mem_cons.mpr ⟨⟨chunk, hchunk, hmsg⟩, hsurvive⟩, hsafe, hunharmed⟩
    | error err =>
      rcases hreported err hmsg with hfailed | ⟨later, halt, hfailed⟩
      · rw [hfailed] at hend
        cases hend
      · rw [hfailed] at htrace
        cases htrace

/-- An abort is harmless exactly when the next message on its chunk stream does not
lean on the one before it. -/
theorem feedAll_encodeAll_iff (ops : List Outgoing) (hfits : ∀ op ∈ ops, op.Fits)
    (hbytes : RtmpMessageEncoder.encodeAll {} ops = some (bytes, e)) :
    feedAll {} [bytes] = (ops.map fun op => .ok op.message, none) ↔
      (∀ op ∈ ops, op.Survives) ∧ History.Unharmed [] ops := by
  rw [RtmpMessageDecoder.feedAll_eq_trace, List.flatten_singleton, Prod.mk.injEq]
  constructor
  · rintro ⟨htrace, hend⟩
    exact encodeAll_of_trace ops .initial hfits hbytes htrace hend
  · rintro ⟨hsurvive, hunharmed⟩
    obtain ⟨d, -, htrace⟩ := trace_encodeAll ops .initial hfits hbytes hsurvive hunharmed
    rw [htrace]
    exact ⟨rfl, rfl⟩

/-- A message that goes back in time after the abort is announced in full. -/
theorem feedAll_encodeAll_iff_rewound :
    let ack (millis : UInt32) : Outgoing := ⟨⟨2, by decide⟩, .ack ⟨.PCM, ⟨millis⟩⟩ 1⟩
    let ops := [ack 7, ⟨⟨3, by decide⟩, .abort .PCM ⟨2, by decide⟩⟩, ack 5]
    ∃ bytes e, RtmpMessageEncoder.encodeAll {} ops = some (bytes, e) ∧
      (feedAll {} [bytes] = (ops.map fun op => .ok op.message, none) ↔
        (∀ op ∈ ops, op.Survives) ∧ History.Unharmed [] ops) := by
  intro ack ops
  refine ⟨_, _, rfl, feedAll_encodeAll_iff ops ?_ rfl⟩
  intro op hop chunk hchunk
  simp only [ops, ack, List.mem_cons, List.not_mem_nil, or_false] at hop
  rcases hop with rfl | rfl | rfl
  · cases hchunk
    decide
  · cases hchunk
    decide
  · cases hchunk
    decide

/-- The second message repeats the first on a chunk stream that was aborted in
between, so its header leaves everything out. -/
theorem abort_between_repeated_acks :
    ¬ ∀ ops : List Outgoing, (∀ op ∈ ops, op.Fits) → ∀ bytes e,
      RtmpMessageEncoder.encodeAll {} ops = some (bytes, e) →
      feedAll {} [bytes] = (ops.map fun op => .ok op.message, none) := by
  intro hall
  let ack : Outgoing := ⟨⟨2, by decide⟩, .ack .PCM 1⟩
  let ops := [ack, ⟨⟨3, by decide⟩, .abort .PCM ⟨2, by decide⟩⟩, ack]
  have hfits : ∀ op ∈ ops, op.Fits := by
    intro op hop chunk hchunk
    simp only [ops, ack, List.mem_cons, List.not_mem_nil, or_false] at hop
    rcases hop with rfl | rfl | rfl
    · cases hchunk
      decide
    · cases hchunk
      decide
    · cases hchunk
      decide
  let bytes : Bytes := [0x02, 0, 0, 0, 0, 0, 4, 3, 0, 0, 0, 0, 0, 0, 0, 1,
    0x03, 0, 0, 0, 0, 0, 4, 2, 0, 0, 0, 0, 0, 0, 0, 2,
    0xC2, 0, 0, 0, 1]
  have hbytes : (RtmpMessageEncoder.encodeAll {} ops).map Prod.fst = some bytes := by decide
  obtain ⟨r, hr, hfst⟩ := Option.map_eq_some_iff.mp hbytes
  have herror : (feedAll {} [bytes]).2 =
      some (.invalidData "format ID must be 0 for the first chunk") := by decide
  rw [← hfst, hall ops hfits r.1 r.2 hr] at herror
  cases herror

end CheetahMedia.Rtmp
