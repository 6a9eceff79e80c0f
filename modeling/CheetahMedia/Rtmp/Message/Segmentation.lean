import CheetahMedia.Lib.Incremental
import CheetahMedia.Rtmp.Chunk.Segmentation
import CheetahMedia.Rtmp.Message.Decoder

namespace CheetahMedia.Rtmp
open Lib

namespace RtmpMessageDecoder

/-- Call `decode` until it has nothing more to give. A message whose payload ends too
early is reported and does not end the draining. -/
def drainWithin : Nat → RtmpMessageDecoder →
    List (Except Error RtmpMessage) × Except Error RtmpMessageDecoder
  | 0, d => ([], .ok d)
  | calls + 1, d =>
    match d.decode with
    | (d', .ok none) => ([], .ok d')
    | (d', .ok (some message)) =>
      let r := drainWithin calls d'
      (.ok message :: r.1, r.2)
    | (d', .error e) =>
      if e.IsShort then
        let r := drainWithin calls d'
        (.error e :: r.1, r.2)
      else ([], .error e)

def drain (d : RtmpMessageDecoder) :
    List (Except Error RtmpMessage) × Except Error RtmpMessageDecoder :=
  drainWithin (d.buf.get.length + 1) d

/-- Feed the pieces one by one and drain after each, up to the first failure. -/
def feedAll : RtmpMessageDecoder → List Bytes → List (Except Error RtmpMessage) × Option Error
  | _, [] => ([], none)
  | d, piece :: pieces =>
    match (d.feedBuf piece).drain with
    | (messages, .error e) => (messages, some e)
    | (messages, .ok d') =>
      let r := feedAll d' pieces
      (messages ++ r.1, r.2)

/-- One chunk. The answer is a message, or a report that its payload ends too early. -/
def messageStep :
    Incremental.Decoder RtmpChunkDecoder Error UInt8 (Option (Except Error RtmpMessage)) :=
  fun d buf =>
    match d.decode buf with
    | (d', .ok (n, none)) => .done n none d'
    | (d', .ok (n, some chunk)) =>
      match decodeRtmpChunkToMessage chunk with
      | .ok message => .done n (some (.ok message)) (onMessage d' message)
      | .error e => if e.IsShort then .done n (some (.error e)) d' else .fail e
    | (d', .error e) => if e.IsShort then .more d' else .fail e

section Steps
variable {buf : Bytes}

/-- What a step that consumed input says about the chunk layer. -/
theorem messageStep_done (h : messageStep d buf = .done n out t) :
    ∃ d' chunk, d.decode buf = (d', .ok (n, chunk)) := by
  unfold messageStep at h
  split at h
  · rename_i hdec
    cases h
    exact ⟨_, _, hdec⟩
  · rename_i hdec
    split at h
    · cases h
      exact ⟨_, _, hdec⟩
    · split at h
      · cases h
        exact ⟨_, _, hdec⟩
      · cases h
  · split at h
    · cases h
    · cases h

theorem messageStep_more (h : messageStep d buf = .more t) :
    ∃ e, d.decode buf = (t, .error e) ∧ e.IsShort := by
  unfold messageStep at h
  split at h
  · cases h
  · split at h
    · cases h
    · split at h
      · cases h
      · cases h
  · rename_i hdec
    split at h
    · rename_i he
      cases h
      exact ⟨_, hdec, he⟩
    · cases h

theorem messageStep_segmentable : Incremental.Segmentable Eq messageStep where
  equivalence := ⟨fun _ => rfl, Eq.symm, Eq.trans⟩
  respects {s t buf} h := by
    rw [h]
    cases messageStep t buf with
    | more => exact .more
    | done n out u => exact .done rfl
    | fail => exact .fail
  done_pos h := by
    obtain ⟨d', chunk, hdec⟩ := messageStep_done h
    have hlen := RtmpChunkDecoder.decode_eq_ok hdec
    exact ⟨hlen.1, hlen.2.1⟩
  done_append h q := by
    obtain ⟨d', chunk, hdec⟩ := messageStep_done h
    rw [← h]
    simp only [messageStep, RtmpChunkDecoder.decode_append hdec q, hdec]
  fail_append {d buf e} h q := by
    rw [← h]
    rcases hdec : d.decode buf with ⟨d', e' | ⟨n, chunk⟩⟩
    · have he : ¬ e'.IsShort := by
        intro he
        simp [messageStep, hdec, he] at h
      simp only [messageStep, RtmpChunkDecoder.decode_error_append hdec he q, hdec]
    · simp only [messageStep, RtmpChunkDecoder.decode_append hdec q, hdec]
  more_append {d buf t} h q := by
    obtain ⟨e, hdec, he⟩ := messageStep_more h
    rcases RtmpChunkDecoder.decode_retry hdec q with heq | ⟨s, t', e', hs, ht⟩
    · have hsame : messageStep t (buf ++ q) = messageStep d (buf ++ q) := by
        simp only [messageStep, heq]
      rw [hsame]
      cases messageStep d (buf ++ q) with
      | more => exact .more
      | done n out u => exact .done rfl
      | fail => exact .fail
    · simp only [messageStep, hs, ht]
      split
      · exact .more
      · exact .fail

end Steps

theorem decodeWithin_fuel (calls calls' : Nat) (d : RtmpMessageDecoder)
    (h : d.buf.get.length < calls) (h' : d.buf.get.length < calls') :
    decodeWithin calls d = decodeWithin calls' d := by
  induction calls generalizing calls' d with
  | zero => omega
  | succ calls ih =>
    cases calls' with
    | zero => omega
    | succ calls' =>
      unfold decodeWithin
      split
      · rename_i hdec
        have hn := RtmpChunkDecoder.decode_eq_ok hdec
        refine ih calls' _ ?_ ?_
        · simp only [Buf.get_advance, List.length_drop]
          omega
        · simp only [Buf.get_advance, List.length_drop]
          omega
      · rfl
      · rfl

section Decode
variable {d : RtmpMessageDecoder}

theorem decode_of_more (h : messageStep d.chunkDecoder d.buf.get = .more s) :
    d.decode = ({ d with chunkDecoder := s }, .ok none) := by
  obtain ⟨e, hdec, he⟩ := messageStep_more h
  have hkind : e.kind = .insufficientBuffer := he
  simp [decode, decodeWithin, hdec, hkind]

/-- A chunk that completes no message is passed over. -/
theorem decode_of_waiting (h : messageStep d.chunkDecoder d.buf.get = .done n none s) :
    d.decode = decode { chunkDecoder := s, buf := d.buf.advance n } := by
  unfold messageStep at h
  split at h
  · rename_i hdec
    cases h
    have hn := RtmpChunkDecoder.decode_eq_ok hdec
    rw [decode, decodeWithin, hdec]
    refine decodeWithin_fuel _ _ _ ?_ ?_
    · simp only [Buf.get_advance, List.length_drop]
      omega
    · simp only [Buf.get_advance, List.length_drop]
      omega
  · split at h
    · cases h
    · split at h
      · cases h
      · cases h
  · split at h
    · cases h
    · cases h

theorem decode_of_message (h : messageStep d.chunkDecoder d.buf.get = .done n (some (.ok message)) s) :
    d.decode = ({ chunkDecoder := s, buf := d.buf.advance n }, .ok (some message)) := by
  unfold messageStep at h
  split at h
  · cases h
  · rename_i hdec
    split at h
    · rename_i hmsg
      cases h
      simp only [decode, decodeWithin, hdec, hmsg]
    · split at h
      · cases h
      · cases h
  · split at h
    · cases h
    · cases h

theorem decode_of_report (h : messageStep d.chunkDecoder d.buf.get = .done n (some (.error e)) s) :
    d.decode = ({ chunkDecoder := s, buf := d.buf.advance n }, .error e) ∧ e.IsShort := by
  unfold messageStep at h
  split at h
  · cases h
  · rename_i hdec
    split at h
    · cases h
    · rename_i hmsg
      split at h
      · rename_i he
        cases h
        exact ⟨by simp only [decode, decodeWithin, hdec, hmsg], he⟩
      · cases h
  · split at h
    · cases h
    · cases h

theorem decode_of_fail (h : messageStep d.chunkDecoder d.buf.get = .fail e) :
    ∃ d', d.decode = (d', .error e) ∧ ¬ e.IsShort := by
  unfold messageStep at h
  split at h
  · cases h
  · rename_i s n chunk hdec
    split at h
    · cases h
    · rename_i hmsg
      split at h
      · cases h
      · rename_i he
        cases h
        exact ⟨{ chunkDecoder := s, buf := d.buf.advance n },
          by simp only [decode, decodeWithin, hdec, hmsg], he⟩
  · rename_i s _ hdec
    split at h
    · cases h
    · rename_i he
      cases h
      have hkind : ¬ e.kind = .insufficientBuffer := he
      exact ⟨{ d with chunkDecoder := s },
        by simp only [decode, decodeWithin, hdec, if_neg hkind], he⟩

end Decode

/-- What a run of single chunks looks like to a caller of `decode`. -/
inductive Drains : List (Option (Except Error RtmpMessage)) ×
    Incremental.Halt RtmpChunkDecoder Error UInt8 →
    List (Except Error RtmpMessage) × Except Error RtmpMessageDecoder → Prop
  | waiting (outs : List _) {buf : Buf} (h : buf.get = rest) :
    Drains (outs, .waiting s rest) (outs.filterMap (·), .ok { chunkDecoder := s, buf := buf })
  | failed (outs : List _) : Drains (outs, .failed e) (outs.filterMap (·), .error e)

theorem Drains.cons_none (h : Drains r r') : Drains (none :: r.1, r.2) r' := by
  cases h with
  | waiting outs h => exact .waiting (none :: outs) h
  | failed outs => exact .failed (none :: outs)

theorem Drains.cons_some (h : Drains r r') (a : Except Error RtmpMessage) :
    Drains (some a :: r.1, r.2) (a :: r'.1, r'.2) := by
  cases h with
  | waiting outs h => exact .waiting (some a :: outs) h
  | failed outs => exact .failed (some a :: outs)

theorem drainWithin_run (d : RtmpMessageDecoder) (calls : Nat) (hcalls : d.buf.get.length < calls) :
    Drains (Incremental.run messageStep d.chunkDecoder d.buf.get) (drainWithin calls d) := by
  induction hlen : d.buf.get.length using Nat.strongRecOn generalizing d calls with
  | ind len ih =>
    obtain ⟨calls, rfl⟩ : ∃ n, calls = n + 1 := ⟨calls - 1, by omega⟩
    cases ha : messageStep d.chunkDecoder d.buf.get with
    | more s =>
      rw [Incremental.run_more ha, drainWithin, decode_of_more ha]
      exact .waiting [] rfl
    | fail e =>
      obtain ⟨d', hdec, he⟩ := decode_of_fail ha
      rw [Incremental.run_fail ha, drainWithin, hdec]
      simp only [if_neg he]
      exact .failed []
    | done n out s =>
      have hn := messageStep_segmentable.done_pos ha
      rw [Incremental.run_done messageStep_segmentable ha]
      have hrec := ih (d.buf.advance n).get.length (by simp; omega)
        { chunkDecoder := s, buf := d.buf.advance n }
      simp only [Buf.get_advance, List.length_drop] at hrec
      match out with
      | none =>
        rw [drainWithin, decode_of_waiting ha, ← drainWithin]
        exact (hrec (calls + 1) (by omega) trivial).cons_none
      | some (.ok message) =>
        rw [drainWithin, decode_of_message ha]
        exact (hrec calls (by omega) trivial).cons_some (.ok message)
      | some (.error e) =>
        obtain ⟨hdec, he⟩ := decode_of_report ha
        rw [drainWithin, hdec]
        simp only [if_pos he]
        exact (hrec calls (by omega) trivial).cons_some (.error e)

/-- The messages of a stream, each delivered or reported, and how it ends. -/
def trace (d : RtmpChunkDecoder) (buf : Bytes) :
    List (Except Error RtmpMessage) × Incremental.Halt RtmpChunkDecoder Error UInt8 :=
  let r := Incremental.run messageStep d buf
  (r.1.filterMap (·), r.2)

theorem drain_of_trace {d : RtmpMessageDecoder}
    (h : trace d.chunkDecoder d.buf.get = (messages, .waiting d' rest)) :
    ∃ buf : Buf, buf.get = rest ∧
      d.drain = (messages, .ok { chunkDecoder := d', buf := buf }) := by
  have hdrain := drainWithin_run d _ (Nat.lt_succ_self _)
  simp only [trace, drain] at h ⊢
  generalize Incremental.run messageStep d.chunkDecoder d.buf.get = r,
    drainWithin (d.buf.get.length + 1) d = r' at h hdrain
  cases hdrain with
  | failed => cases h
  | waiting _ hbuf =>
    cases h
    exact ⟨_, hbuf, rfl⟩

theorem feedAll_eq_feed (d : RtmpMessageDecoder) (pieces : List Bytes) :
    let r := Incremental.feed messageStep (fun s _ => s) d.chunkDecoder d.buf.get pieces
    feedAll d pieces = (r.1.filterMap (·), r.2) := by
  induction pieces generalizing d with
  | nil => rfl
  | cons piece pieces ih =>
    have hdrain := drainWithin_run (d.feedBuf piece) _ (Nat.lt_succ_self _)
    have hget : (d.feedBuf piece).buf.get = d.buf.get ++ piece := Buf.get_feed _ _
    rw [hget] at hdrain
    simp only [feedAll, drain, Incremental.feed, hget]
    change Drains (Incremental.run messageStep d.chunkDecoder (d.buf.get ++ piece))
      (drainWithin ((d.buf.get ++ piece).length + 1) (d.feedBuf piece)) at hdrain
    generalize Incremental.run messageStep d.chunkDecoder (d.buf.get ++ piece) = r,
      drainWithin ((d.buf.get ++ piece).length + 1) (d.feedBuf piece) = r' at hdrain
    cases hdrain with
    | failed => rfl
    | @waiting rest outs s buf hrest =>
      subst hrest
      simp only [ih, List.filterMap_append]

/-- Feeding in pieces shows what the whole stream holds. -/
theorem feedAll_eq_trace (pieces : List Bytes) :
    feedAll {} pieces = ((trace {} pieces.flatten).1, (trace {} pieces.flatten).2.error) := by
  have htrack := Incremental.Tracks.of_related messageStep_segmentable
    (rfl : ({} : RtmpChunkDecoder) = {}) []
  have hhook : ∀ (s : RtmpChunkDecoder) (p : Bytes), (fun s _ => s) s p = s := fun _ _ => rfl
  have hcut := Incremental.feed_eq_run messageStep_segmentable hhook pieces [] {} {} htrack ⟨{}, rfl⟩
  rw [feedAll_eq_feed]
  exact congrArg (fun r => (r.1.filterMap (·), r.2)) hcut

/-- How the network cuts the stream changes neither the messages nor the first failure. -/
theorem feedAll_flatten (pieces : List Bytes) :
    feedAll {} pieces = feedAll {} [pieces.flatten] := by
  rw [feedAll_eq_trace, feedAll_eq_trace, List.flatten_singleton]

theorem trace_nil (d : RtmpChunkDecoder) : trace d [] = ([], .waiting d []) := rfl

theorem trace_of_error {buf : Bytes} (h : d.decode buf = (d', .error e)) (he : ¬ e.IsShort) :
    trace d buf = ([], .failed e) := by
  have hstep : messageStep d buf = .fail e := by simp only [messageStep, h, if_neg he]
  simp only [trace, Incremental.run_fail hstep]
  rfl

theorem trace_of_waiting {buf : Bytes} (h : d.decode buf = (d', .ok (n, none))) :
    trace d buf = trace d' (buf.drop n) := by
  have hstep : messageStep d buf = .done n none d' := by simp only [messageStep, h]
  simp only [trace, Incremental.run_done messageStep_segmentable hstep]
  rfl

theorem trace_of_chunk {buf : Bytes} (h : d.decode buf = (d', .ok (n, some chunk)))
    (hmsg : decodeRtmpChunkToMessage chunk = .ok message) :
    trace d buf = (.ok message :: (trace (onMessage d' message) (buf.drop n)).1,
      (trace (onMessage d' message) (buf.drop n)).2) := by
  have hstep : messageStep d buf = .done n (some (.ok message)) (onMessage d' message) := by
    simp only [messageStep, h, hmsg]
  simp only [trace, Incremental.run_done messageStep_segmentable hstep]
  rfl

theorem trace_of_chunk_error {buf : Bytes} (h : d.decode buf = (d', .ok (n, some chunk)))
    (hmsg : decodeRtmpChunkToMessage chunk = .error e) :
    trace d buf = ([], .failed e) ∨ ∃ later failure, trace d buf = (.error e :: later, failure) := by
  by_cases he : e.IsShort
  · have hstep : messageStep d buf = .done n (some (.error e)) d' := by
      simp only [messageStep, h, hmsg, if_pos he]
    refine .inr ⟨(trace d' (buf.drop n)).1, (trace d' (buf.drop n)).2, ?_⟩
    simp only [trace, Incremental.run_done messageStep_segmentable hstep]
    rfl
  · have hstep : messageStep d buf = .fail e := by simp only [messageStep, h, hmsg, if_neg he]
    refine .inl ?_
    simp only [trace, Incremental.run_fail hstep]
    rfl

/-- The chunks of one message may be taken for a single one. -/
theorem trace_of_nextChunk {buf : Bytes}
    (h : RtmpChunkDecoder.nextChunk calls d buf = ((d', rest), .ok chunk)) :
    (∀ message, decodeRtmpChunkToMessage chunk = .ok message → trace d buf =
        (.ok message :: (trace (onMessage d' message) rest).1,
          (trace (onMessage d' message) rest).2)) ∧
      ∀ e, decodeRtmpChunkToMessage chunk = .error e →
        trace d buf = ([], .failed e) ∨ ∃ later failure, trace d buf = (.error e :: later, failure) := by
  induction calls generalizing d buf with
  | zero => cases h
  | succ calls ih =>
    unfold RtmpChunkDecoder.nextChunk at h
    split at h
    · rename_i hdec
      cases h
      exact ⟨fun message => trace_of_chunk hdec, fun e => trace_of_chunk_error hdec⟩
    · rename_i hdec
      rw [trace_of_waiting hdec]
      exact ih h
    · cases h

end RtmpMessageDecoder

end CheetahMedia.Rtmp
