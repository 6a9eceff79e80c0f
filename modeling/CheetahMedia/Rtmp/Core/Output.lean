import CheetahMedia.Rtmp.Core.Requests
import CheetahMedia.Rtmp.Message.RoundTrip

namespace CheetahMedia.Rtmp
open Lib Lib.Handler

/-- The bytes of the messages, without the packets of the handshake. -/
def Emission.written : Emission → Bytes
  | .message _ bytes => bytes
  | _ => []

def written (log : List Emission) : Bytes := log.flatMap Emission.written

def sent (log : List Emission) : List Sent := log.filterMap Emission.sent?

namespace Peer

/-- The receiver obeys the messages that are about the chunk layer. -/
def follow (d : RtmpChunkDecoder) (chunk : RtmpChunk) : RtmpChunkDecoder :=
  match chunk.messageType with
  | .setChunkSize | .abort =>
    match decodeRtmpChunkToMessage chunk with
    | .ok message => RtmpMessageDecoder.onMessage d message
    | .error _ => d
  | _ => d

/-- Read messages until no more can be read: the messages and what is left over. -/
def read : Nat → RtmpChunkDecoder → Bytes → List RtmpChunk × Bytes
  | 0, _, buf => ([], buf)
  | calls + 1, d, buf =>
    match d.nextChunk buf.length buf with
    | ((d', rest), .ok chunk) =>
      let r := read calls (follow d' chunk) rest
      (chunk :: r.1, r.2)
    | ((_, rest), .error _) => ([], rest)

/-- A receiver that starts with the default chunk size. -/
def readAll (buf : Bytes) : List RtmpChunk × Bytes := read (buf.length + 1) {} buf

/-- The chunk size that a receiver uses after these messages. -/
def chunkSizeAfter (chunks : List RtmpChunk) : RtmpChunkSize := (chunks.foldl follow {}).chunkSize

end Peer

namespace Request

def send? : Request → Option (RtmpChunk × Option RtmpChunkSize)
  | .send chunk resize => some (chunk, resize)
  | _ => none

/-- The first message announces a chunk size. -/
def Opens (fs : List Request) : Prop := ∃ before chunk size after,
  fs = before ++ .send chunk (some size) :: after ∧ ∀ f ∈ before, f.send? = none

theorem Opens.append (h : Opens fs) (fs' : List Request) : Opens (fs ++ fs') := by
  obtain ⟨before, chunk, size, after, rfl, hbefore⟩ := h
  exact ⟨before, chunk, size, after ++ fs', by simp, hbefore⟩

theorem Opens.prepend (h : Opens fs') (hfs : ∀ f ∈ fs, f.send? = none) : Opens (fs ++ fs') := by
  obtain ⟨before, chunk, size, after, rfl, hbefore⟩ := h
  refine ⟨fs ++ before, chunk, size, after, by simp, ?_⟩
  intro f hf
  rcases List.mem_append.mp hf with hmem | hmem
  · exact hfs f hmem
  · exact hbefore f hmem

/-- The encoder after a request. -/
def next (e : RtmpMessageEncoder) (f : Request) : RtmpMessageEncoder := (play e f).1

theorem written_send (e : RtmpMessageEncoder) (chunk : RtmpChunk) (resize : Option RtmpChunkSize)
    (fs : List Request) : written (plays play e (.send chunk resize :: fs)).2 =
      (e.chunkEncoder.encode chunk).1 ++ written (plays play (next e (.send chunk resize)) fs).2 :=
  rfl

theorem sent_send (e : RtmpMessageEncoder) (chunk : RtmpChunk) (resize : Option RtmpChunkSize)
    (fs : List Request) : sent (plays play e (.send chunk resize :: fs)).2 =
      ⟨chunk, e.chunkEncoder.chunkSize, resize⟩ ::
        sent (plays play (next e (.send chunk resize)) fs).2 := rfl

/-- Requests that send nothing leave the encoder alone and write no message. -/
theorem plays_silent (e : RtmpMessageEncoder) (h : ∀ f ∈ fs, f.send? = none) :
    (plays play e fs).1 = e ∧ sent (plays play e fs).2 = [] ∧ written (plays play e fs).2 = [] := by
  induction fs with
  | nil => exact ⟨rfl, rfl, rfl⟩
  | cons f fs ih =>
    have hrest := ih fun g hg => h g (List.mem_cons_of_mem f hg)
    have hf := h f List.mem_cons_self
    cases f with
    | send chunk resize => cases hf
    | raise event => exact hrest
    | handshake bytes => exact hrest

theorem silent_of_sent (h : sent (plays play e fs).2 = []) : ∀ f ∈ fs, f.send? = none := by
  induction fs generalizing e with
  | nil => exact List.forall_mem_nil _
  | cons f fs ih =>
    cases f with
    | send chunk resize => cases h
    | raise event => simpa [send?] using ih h
    | handshake bytes => simpa [send?] using ih h

end Request

namespace Peer

theorem decode_announcement (htype : chunk.messageType = .setChunkSize)
    (hpayload : chunk.payload = writeU32 (.ofNat size.size)) :
    decodeRtmpChunkToMessage chunk =
      .ok (.setChunkSize ⟨chunk.messageStreamId, chunk.timestamp⟩ size) := by
  have hlen : chunk.payload.length < 2 ^ 32 := by simp [hpayload, writeU32]
  refine decode_of_readsAll ?_
  rw [htype]
  exact reads_payload .setChunkSize (congrArg some hpayload.symm) hlen

/-- The receiver changes its chunk size where the sender does. -/
theorem follow_proper (h : (Request.send chunk resize).Proper) (d : RtmpChunkDecoder) :
    follow d chunk = resize.elim d d.setChunkSize := by
  cases resize with
  | some size =>
    simp only [follow, h.1, decode_announcement h.1 h.2, RtmpMessageDecoder.onMessage,
      Option.elim_some]
  | none =>
    unfold follow
    split
    · rename_i htype
      exact absurd htype h.1
    · rename_i htype
      exact absurd htype h.2
    · rfl

theorem synced_follow (h : Synced e d) (hproper : (Request.send chunk resize).Proper) :
    Synced (Request.resized e resize) (follow d chunk) := by
  rw [follow_proper hproper]
  cases resize with
  | some size => exact h.setChunkSize size
  | none => exact h

/-- A receiver in step reads what the requests write, and nothing is left over. -/
theorem read_plays (fs : List Request) {e : RtmpMessageEncoder} (h : Synced e.chunkEncoder d)
    (hproper : ∀ f ∈ fs, f.Proper) (hlen : ∀ m ∈ sent (plays Request.play e fs).2,
      m.chunk.payload.length ≤ MAX_MESSAGE_SIZE) (calls : Nat)
    (hcalls : (written (plays Request.play e fs).2).length < calls) :
    read calls d (written (plays Request.play e fs).2) =
      ((sent (plays Request.play e fs).2).map Sent.chunk, []) := by
  induction fs generalizing e d calls with
  | nil =>
    cases calls with
    | zero => cases hcalls
    | succ calls => rfl
  | cons f fs ih =>
    have htail := fun g hg => hproper g (List.mem_cons_of_mem f hg)
    have hf := hproper f List.mem_cons_self
    cases f with
    | raise event => exact ih h htail hlen calls hcalls
    | handshake bytes => exact ih h htail hlen calls hcalls
    | send chunk resize =>
      cases calls with
      | zero => cases hcalls
      | succ calls =>
        rw [Request.sent_send] at hlen ⊢
        rw [Request.written_send] at hcalls ⊢
        obtain ⟨hchunk, hrest⟩ := List.forall_mem_cons.mp hlen
        obtain ⟨cs, hstep, hnext⟩ := nextChunk_encode h.chunkSize (h.followable chunk) hchunk
          (written (plays Request.play (Request.next e (.send chunk resize)) fs).2) (Nat.le_refl _)
        have hwire := List.length_pos_iff.mpr (RtmpChunkEncoder.encode_ne_nil e.chunkEncoder chunk)
        have hread := ih (e := Request.next e (.send chunk resize))
          (synced_follow (h.encode hstep) hf) htail hrest calls (by
            rw [List.length_append] at hcalls
            omega)
        simp only [read, hnext, hread, List.map_cons]

/-- Each message is cut with the size that the messages before it announce. -/
theorem chunkSize_plays (fs : List Request) {e : RtmpMessageEncoder}
    (h : d.chunkSize = e.chunkEncoder.chunkSize) (hproper : ∀ f ∈ fs, f.Proper)
    (hsplit : sent (plays Request.play e fs).2 = pre ++ m :: post) :
    m.chunkSize = ((pre.map Sent.chunk).foldl follow d).chunkSize := by
  induction fs generalizing e d pre with
  | nil => cases pre <;> cases hsplit
  | cons f fs ih =>
    have htail := fun g hg => hproper g (List.mem_cons_of_mem f hg)
    have hf := hproper f List.mem_cons_self
    cases f with
    | raise event => exact ih h htail hsplit
    | handshake bytes => exact ih h htail hsplit
    | send chunk resize =>
      cases pre with
      | nil =>
        cases hsplit
        exact h.symm
      | cons first pre =>
        rw [Request.sent_send] at hsplit
        injection hsplit with hfirst hsplit
        subst hfirst
        show m.chunkSize = ((pre.map Sent.chunk).foldl follow (follow d chunk)).chunkSize
        refine ih ?_ htail hsplit
        rw [follow_proper hf]
        cases resize with
        | some size => rfl
        | none => exact h

/-- The first message is short and tells the receiver the chunk size in use, so the
receiver need not know it before. -/
theorem read_opening {e : RtmpMessageEncoder} (hopen : Request.Opens fs)
    (hproper : ∀ f ∈ fs, f.Proper) (hsize : 4 ≤ e.chunkEncoder.chunkSize.size)
    (h : Synced (e.chunkEncoder.setChunkSize default) {})
    (hlen : ∀ m ∈ sent (plays Request.play e fs).2, m.chunk.payload.length ≤ MAX_MESSAGE_SIZE) :
    readAll (written (plays Request.play e fs).2) =
        ((sent (plays Request.play e fs).2).map Sent.chunk, []) ∧
      ∀ pre m post, sent (plays Request.play e fs).2 = pre ++ m :: post →
        m.chunk.payload.length ≤ 128 ∨ m.chunkSize = chunkSizeAfter (pre.map Sent.chunk) := by
  obtain ⟨before, chunk, size, after, rfl, hbefore⟩ := hopen
  obtain ⟨hencoder, hnone, hempty⟩ := Request.plays_silent e hbefore
  have hfirst : (Request.send chunk (some size)).Proper := hproper _ (by simp)
  have hafter : ∀ f ∈ Request.send chunk (some size) :: after, f.Proper :=
    fun f hf => hproper f (List.mem_append_right _ hf)
  have hshort : chunk.payload.length = 4 := by simp [hfirst.2, writeU32]
  have hsent : sent (plays Request.play e (before ++ .send chunk (some size) :: after)).2 =
      sent (plays Request.play e (.send chunk (some size) :: after)).2 := by
    rw [plays_append, hencoder, sent, List.filterMap_append, ← sent, ← sent, hnone, List.nil_append]
  have hwritten : written (plays Request.play e (before ++ .send chunk (some size) :: after)).2 =
      written (plays Request.play e (.send chunk (some size) :: after)).2 := by
    rw [plays_append, hencoder, written, List.flatMap_append, ← written, ← written, hempty,
      List.nil_append]
  -- as far as the bytes go, the announcement was cut with the default chunk size
  let e' : RtmpMessageEncoder := { chunkEncoder := e.chunkEncoder.setChunkSize default }
  have hdefault : chunk.payload.length ≤ (default : RtmpChunkSize).size := by rw [hshort]; decide
  have hencode := RtmpChunkEncoder.encode_short
    (show chunk.payload.length ≤ e.chunkEncoder.chunkSize.size by omega) hdefault
  have hnext : Request.next e' (.send chunk (some size)) = Request.next e (.send chunk (some size)) := by
    simp only [Request.next, Request.play, e', hencode]
    rfl
  have hbytes : written (plays Request.play e' (.send chunk (some size) :: after)).2 =
      written (plays Request.play e (.send chunk (some size) :: after)).2 := by
    rw [Request.written_send, Request.written_send, hnext]
    simp only [e', hencode]
  have hchunks : (sent (plays Request.play e' (.send chunk (some size) :: after)).2).map Sent.chunk =
      (sent (plays Request.play e (.send chunk (some size) :: after)).2).map Sent.chunk := by
    rw [Request.sent_send, Request.sent_send, hnext, List.map_cons, List.map_cons]
  rw [hsent] at hlen ⊢
  rw [hwritten]
  constructor
  · have hfits : ∀ m ∈ sent (plays Request.play e' (.send chunk (some size) :: after)).2,
        m.chunk.payload.length ≤ MAX_MESSAGE_SIZE := by
      intro m hm
      have hmem := List.mem_map_of_mem (f := Sent.chunk) hm
      rw [hchunks] at hmem
      obtain ⟨m', hm', heq⟩ := List.mem_map.mp hmem
      rw [← heq]
      exact hlen m' hm'
    rw [readAll, ← hbytes, ← hchunks]
    exact read_plays _ h hafter hfits _ (Nat.lt_succ_self _)
  · intro pre m post hsplit
    rw [Request.sent_send] at hsplit
    cases pre with
    | nil =>
      injection hsplit with hm _
      rw [← hm]
      left
      show chunk.payload.length ≤ 128
      omega
    | cons first pre =>
      right
      injection hsplit with hm htail
      subst hm
      refine chunkSize_plays (d := follow {} chunk) after ?_
        (fun f hf => hafter f (List.mem_cons_of_mem _ hf)) htail
      rw [follow_proper hfirst]
      rfl

end Peer

end CheetahMedia.Rtmp
