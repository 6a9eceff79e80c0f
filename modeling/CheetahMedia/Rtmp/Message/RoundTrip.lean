import CheetahMedia.Rtmp.Message.Abort

namespace CheetahMedia.Rtmp
open Lib RtmpMessageEncoder
open Lib.Reader (Reads ReadsAll)

namespace AmfValue

theorem decode_nil (version : AmfVersion) (s : σ) :
    (decode version).run [] s = (s, .error .insufficientBuffer) := by
  cases version
  · rfl
  · rfl

theorem encode_pos {v : AmfValue} (h : v.Canonical) (he : v.encode = some bytes)
    (hlen : bytes.length < 2 ^ 32) : 0 < bytes.length := by
  cases bytes with
  | nil =>
    obtain ⟨s', hs'⟩ := reads_encode (σ := Unit) h he hlen [] ()
    rw [List.append_nil, decode_nil] at hs'
    cases hs'
  | cons b bs => exact Nat.succ_pos _

/-- The byte that an AMF3 command may start with to carry AMF0 values. -/
theorem encode_ofStr_head (h : (ofStr .amf3 s).encode = some bytes) :
    bytes.head? ≠ some 0 := by
  obtain ⟨str, -, hbytes⟩ := Option.bind_eq_some_iff.mp h
  cases hbytes
  nofun

end AmfValue

/-- Values of the version that the message is sent in. -/
def Uniform (version : AmfVersion) (values : List AmfValue) : Prop :=
  ∀ v ∈ values, v.version = version ∧ v.Canonical

theorem encodeDataPayload_cons (h : encodeDataPayload (v :: values) = some bytes) :
    ∃ front rest, v.encode = some front ∧ encodeDataPayload values = some rest ∧
      bytes = front ++ rest := by
  obtain ⟨front, hfront, h⟩ := Option.bind_eq_some_iff.mp h
  obtain ⟨rest, hrest, h⟩ := Option.bind_eq_some_iff.mp h
  cases h
  exact ⟨front, rest, hfront, hrest, rfl⟩

theorem reads_valuesWithin (h : Uniform version values)
    (he : encodeDataPayload values = some bytes) (hlen : bytes.length < 2 ^ 32)
    (hfuel : bytes.length ≤ fuel) :
    ReadsAll (decodeAmfValuesWithin version fuel : BytesReader σ (List AmfValue)) bytes values := by
  induction values generalizing bytes fuel with
  | nil =>
    cases he
    cases fuel with
    | zero => exact .of_reads (.pure [])
    | succ fuel => exact .remaining_bind (.of_reads (.pure []))
  | cons v values ih =>
    obtain ⟨front, rest, hfront, hrest, rfl⟩ := encodeDataPayload_cons he
    obtain ⟨⟨rfl, hv⟩, htail⟩ := List.forall_mem_cons.mp h
    rw [List.length_append] at hlen hfuel
    have hpos := AmfValue.encode_pos hv hfront (by omega)
    obtain ⟨fuel, rfl⟩ : ∃ n, fuel = n + 1 := ⟨fuel - 1, by omega⟩
    refine .remaining_bind ?_
    rw [if_neg (by rw [List.length_append]; omega)]
    exact .bind (AmfValue.reads_encode hv hfront (by omega))
      ((ih htail hrest (by omega) (by omega)).map _)

theorem reads_values (h : Uniform version values) (he : encodeDataPayload values = some bytes)
    (hlen : bytes.length < 2 ^ 32) :
    ReadsAll (decodeAmfValues version : BytesReader σ (List AmfValue)) bytes values :=
  .remaining_bind (reads_valuesWithin h he hlen (Nat.le_refl _))

/-- The messages that the wire tells apart. A frame agrees with the header and with
the payload it came from, and the values of a message are of its own version. -/
inductive CanonicalMessage : RtmpMessage → Prop
  | setChunkSize : CanonicalMessage (.setChunkSize header size)
  | ack : CanonicalMessage (.ack header sequenceNumber)
  | winAckSize : CanonicalMessage (.winAckSize header ackSize)
  | setPeerBandwidth : CanonicalMessage (.setPeerBandwidth header bandwidth limitType)
  | userControl : CanonicalMessage (.userControl header event)
  | audio (frame : audioFrame.Canonical) (timestamp : audioFrame.timestamp = header.timestamp)
      (payload : encodeAudioFrame audioFrame = payloadBytes) :
      CanonicalMessage (.audio header audioFrame payloadBytes)
  | video (frame : videoFrame.Canonical) (timestamp : videoFrame.timestamp = header.timestamp)
      (payload : encodeVideoFrame videoFrame = some payloadBytes) :
      CanonicalMessage (.video header videoFrame payloadBytes)
  | command (transactionId : F64.Exact tid.id) (object : obj.version = version ∧ obj.Canonical)
      (args : Uniform version argValues) :
      CanonicalMessage (.command header version name tid obj argValues)
  | data (values : Uniform version dataValues) : CanonicalMessage (.data header version dataValues)

theorem encodeCommand_eq (h : encodeCommand version name tid obj args = some bytes) :
    ∃ nameBytes tidBytes objBytes argBytes,
      (AmfValue.ofStr version name).encode = some nameBytes ∧
      (AmfValue.ofF64 version tid.toF64).encode = some tidBytes ∧
      obj.encode = some objBytes ∧ encodeDataPayload args = some argBytes ∧
      bytes = nameBytes ++ (tidBytes ++ (objBytes ++ argBytes)) := by
  obtain ⟨nameBytes, hname, h⟩ := Option.bind_eq_some_iff.mp h
  obtain ⟨tidBytes, htid, h⟩ := Option.bind_eq_some_iff.mp h
  obtain ⟨objBytes, hobj, h⟩ := Option.bind_eq_some_iff.mp h
  obtain ⟨argBytes, hargs, h⟩ := Option.bind_eq_some_iff.mp h
  cases h
  exact ⟨nameBytes, tidBytes, objBytes, argBytes, hname, htid, hobj, hargs, rfl⟩

theorem reads_command (htid : F64.Exact tid.id) (hobj : obj.version = version ∧ obj.Canonical)
    (hargs : Uniform version args) (he : encodeCommand version name tid obj args = some bytes)
    (hlen : bytes.length < 2 ^ 32) :
    ReadsAll (decodeCommand version header : BytesReader σ RtmpMessage) bytes
      (.command header version name tid obj args) := by
  obtain ⟨nameBytes, tidBytes, objBytes, argBytes, hname, htidBytes, hobjBytes, hargBytes, rfl⟩ :=
    encodeCommand_eq he
  simp only [List.length_append] at hlen
  obtain ⟨rfl, hobj⟩ := hobj
  have hreads : ReadsAll (decodeCommandArgs obj.version header : BytesReader σ RtmpMessage)
      (nameBytes ++ (tidBytes ++ (objBytes ++ argBytes)))
      (.command header obj.version name tid obj args) := by
    have hstr := AmfValue.reads_encode (σ := σ) (AmfValue.canonical_ofStr obj.version name) hname
      (by omega)
    have hnum := AmfValue.reads_encode (σ := σ) (AmfValue.canonical_ofF64 obj.version tid.toF64)
      htidBytes (by omega)
    rw [AmfValue.ofStr_version] at hstr
    rw [AmfValue.ofF64_version] at hnum
    refine .bind hstr ?_
    rw [AmfValue.expectStr_ofStr]
    refine .silent_bind (Reads.pure name) (.bind hnum ?_)
    rw [AmfValue.expectNumber_ofF64]
    refine .silent_bind (Reads.pure tid.toF64)
      (.bind (AmfValue.reads_encode hobj hobjBytes (by omega)) ?_)
    rw [TransactionId.fromF64_toF64 htid]
    exact (reads_values hargs hargBytes (by omega)).map _
  refine .peek_bind ?_
  rw [if_neg]
  · exact hreads
  · rintro ⟨hversion, hzero⟩
    rw [hversion] at hname
    have hpos := AmfValue.encode_pos (AmfValue.canonical_ofStr .amf3 name) hname (by omega)
    rw [List.head?_append_of_ne_nil _ (List.ne_nil_of_length_pos hpos)] at hzero
    exact AmfValue.encode_ofStr_head hname hzero

theorem RtmpChunkSize.saturatingNew_size (size : RtmpChunkSize) : saturatingNew size.size = size := by
  have := size.inRange
  cases size
  simp only [saturatingNew, mk.injEq]
  omega

/-- The payload of a message, read under its type, is the message. -/
theorem reads_payload (h : CanonicalMessage message)
    (he : encodeMessagePayload message = some payload) (hlen : payload.length < 2 ^ 32) :
    ReadsAll (decodePayload message.header payload message.messageType :
      BytesReader Unit RtmpMessage) payload message := by
  cases h with
  | @setChunkSize header size =>
    cases he
    have hnat : (UInt32.ofNat size.size).toNat = size.size :=
      UInt32.toNat_ofNat_of_lt' (by have := size.inRange; show _ < 4294967296; omega)
    have hread := (reads_u32 (σ := Unit) (.ofNat size.size)).map fun n =>
      RtmpMessage.setChunkSize header (.saturatingNew n.toNat)
    rw [hnat, RtmpChunkSize.saturatingNew_size] at hread
    exact .of_reads hread
  | ack =>
    cases he
    exact .of_reads ((reads_u32 _).map _)
  | winAckSize =>
    cases he
    exact .of_reads ((reads_u32 _).map _)
  | @setPeerBandwidth header bandwidth limitType =>
    cases he
    refine .of_reads ((reads_u32 _).bind ((reads_u8 _).bind_last ?_))
    rw [SetPeerBandwidthLimitType.ofByte_byte]
    exact (Reads.pure limitType).silent_bind (.pure _)
  | @userControl header event =>
    cases he
    exact .of_reads ((RtmpUserControlEvent.reads_encode event).map _)
  | audio frame timestamp hpayload =>
    cases he
    subst hpayload
    have hread := reads_audioFrame (σ := Unit) frame
    rw [timestamp] at hread
    exact hread.map _
  | video frame timestamp hpayload =>
    rw [encodeMessagePayload, hpayload] at he
    cases he
    have hread := reads_videoFrame (σ := Unit) frame hpayload
    rw [timestamp] at hread
    exact hread.map _
  | @command version _ _ _ _ _ htid hobj hargs =>
    cases version with
    | amf0 => exact reads_command htid hobj hargs he hlen
    | amf3 => exact reads_command htid hobj hargs he hlen
  | @data version _ _ hvalues =>
    cases version with
    | amf0 => exact (reads_values hvalues he hlen).map _
    | amf3 => exact (reads_values hvalues he hlen).map _

theorem decode_of_readsAll (h : ReadsAll (decodePayload ⟨chunk.messageStreamId, chunk.timestamp⟩
      chunk.payload chunk.messageType : BytesReader Unit RtmpMessage) chunk.payload message) :
    decodeRtmpChunkToMessage chunk = .ok message := by
  obtain ⟨s, hs⟩ := h ()
  unfold decodeRtmpChunkToMessage
  dsimp only
  rw [hs]

theorem CanonicalMessage.survives {op : Outgoing} (h : CanonicalMessage op.message)
    (hchunk : op.chunk = some chunk) (hfits : op.Fits) : op.Survives := by
  have hlen := hfits chunk hchunk
  obtain ⟨payload, hpayload, heq⟩ := Option.bind_eq_some_iff.mp hchunk
  cases heq
  have hbound : payload.length < 2 ^ 32 := Nat.lt_of_le_of_lt hlen (by decide)
  exact ⟨_, hchunk, decode_of_readsAll (reads_payload h hpayload hbound)⟩

theorem History.not_aborted (csid : RtmpChunkStreamId) {sent : History}
    (h : ∀ op ∈ sent, op.message.abortedStream = none) : ¬ sent.Aborted csid := by
  induction sent with
  | nil => exact id
  | cons op sent ih =>
    obtain ⟨hop, htail⟩ := List.forall_mem_cons.mp h
    rintro (habort | ⟨-, habort⟩)
    · rw [hop] at habort
      cases habort
    · exact ih htail habort

theorem History.unharmed_of_no_abort {sent : History} {ops : List Outgoing}
    (hsent : ∀ op ∈ sent, op.message.abortedStream = none)
    (hops : ∀ op ∈ ops, op.message.abortedStream = none) : sent.Unharmed ops := by
  induction ops generalizing sent with
  | nil => exact trivial
  | cons op ops ih =>
    obtain ⟨hop, htail⟩ := List.forall_mem_cons.mp hops
    exact ⟨fun habort => absurd habort (not_aborted _ hsent),
      ih (List.forall_mem_cons.mpr ⟨hop, hsent⟩) htail⟩

theorem CanonicalMessage.abortedStream (h : CanonicalMessage message) :
    message.abortedStream = none := by
  cases h with
  | _ => rfl

theorem encodeAll_chunk {e : RtmpChunkEncoder} (ops : List Outgoing)
    (h : RtmpMessageEncoder.encodeAll ⟨e⟩ ops = some (bytes, e')) :
    ∀ op ∈ ops, ∃ chunk, op.chunk = some chunk := by
  induction ops generalizing e bytes with
  | nil => nofun
  | cons op ops ih =>
    obtain ⟨chunk, rest, hchunk, -, hrest⟩ := encodeAll_cons h
    exact List.forall_mem_cons.mpr ⟨⟨chunk, hchunk⟩, ih hrest⟩

/-- A run of canonical messages comes back as it was sent. Both ends are left with
the same chunk size, after the run as after each part of it. -/
theorem drain_encodeAll (ops : List Outgoing) (hcanonical : ∀ op ∈ ops, CanonicalMessage op.message)
    (hfits : ∀ op ∈ ops, op.Fits) (hbytes : RtmpMessageEncoder.encodeAll {} ops = some (bytes, e)) :
    ∃ d : RtmpMessageDecoder, (RtmpMessageDecoder.feedBuf {} bytes).drain =
        (ops.map fun op => .ok op.message, .ok d) ∧
      d.buf.get = [] ∧ d.chunkDecoder.chunkSize = e.chunkEncoder.chunkSize := by
  have hsurvive : ∀ op ∈ ops, op.Survives := by
    intro op hop
    obtain ⟨chunk, hchunk⟩ := encodeAll_chunk ops hbytes op hop
    exact (hcanonical op hop).survives hchunk (hfits op hop)
  have hunharmed : History.Unharmed [] ops := History.unharmed_of_no_abort nofun
    fun op hop => (hcanonical op hop).abortedStream
  obtain ⟨d, htouch, htrace⟩ := trace_encodeAll ops .initial hfits hbytes hsurvive hunharmed
  have hfed : (RtmpMessageDecoder.feedBuf {} bytes).buf.get = bytes := Buf.get_feed _ _
  obtain ⟨buf, hbuf, hdrain⟩ := RtmpMessageDecoder.drain_of_trace
    (d := RtmpMessageDecoder.feedBuf {} bytes) (by rw [hfed]; exact htrace)
  exact ⟨_, hdrain, hbuf, htouch.chunkSize⟩

/-- The second message is cut into chunks of the size that the first announces. -/
theorem drain_encodeAll_resized :
    let ops : List Outgoing := [⟨⟨2, by decide⟩, .setChunkSize .PCM ⟨3, by decide⟩⟩,
      ⟨⟨5, by decide⟩, .data ⟨.FIRST, ⟨40⟩⟩ .amf0 [.amf0 (.number ⟨7⟩), .amf0 .null]⟩]
    ∃ bytes e, RtmpMessageEncoder.encodeAll {} ops = some (bytes, e) ∧
      ∃ d : RtmpMessageDecoder, (RtmpMessageDecoder.feedBuf {} bytes).drain =
          (ops.map fun op => .ok op.message, .ok d) ∧
        d.buf.get = [] ∧ d.chunkDecoder.chunkSize = e.chunkEncoder.chunkSize := by
  intro ops
  have hvalues : Uniform .amf0 [.amf0 (.number ⟨7⟩), .amf0 .null] := by
    intro v hv
    simp only [List.mem_cons, List.not_mem_nil, or_false] at hv
    rcases hv with rfl | rfl
    · exact ⟨rfl, .number⟩
    · exact ⟨rfl, .null⟩
  refine ⟨_, _, rfl, drain_encodeAll ops ?_ ?_ rfl⟩
  · intro op hop
    simp only [ops, List.mem_cons, List.not_mem_nil, or_false] at hop
    rcases hop with rfl | rfl
    · exact .setChunkSize
    · exact .data hvalues
  · intro op hop chunk hchunk
    simp only [ops, List.mem_cons, List.not_mem_nil, or_false] at hop
    rcases hop with rfl | rfl
    · cases hchunk
      decide
    · cases hchunk
      decide

/-- A date that no double holds comes back as its neighbour. -/
theorem date_not_survives : ¬ Outgoing.Survives
    ⟨⟨3, by decide⟩, .data .PCM .amf0 [.amf0 (.date 9007199254740993)]⟩ := by
  rintro ⟨chunk, hchunk, hmsg⟩
  cases hchunk
  injection hmsg with hmessage
  injection hmessage with _ _ hvalues
  injection hvalues with hvalue
  injection hvalue with hvalue
  injection hvalue with hdate
  exact absurd hdate (by decide +kernel)

theorem date_beyond_double :
    ¬ ∀ ops : List Outgoing, (∀ op ∈ ops, op.Fits ∧ op.message.abortedStream = none) →
      ∀ bytes e, RtmpMessageEncoder.encodeAll {} ops = some (bytes, e) →
      ∃ d, (RtmpMessageDecoder.feedBuf {} bytes).drain =
        (ops.map fun op => .ok op.message, .ok d) := by
  intro hall
  let op : Outgoing := ⟨⟨3, by decide⟩, .data .PCM .amf0 [.amf0 (.date 9007199254740993)]⟩
  have hfits : op.Fits := by
    intro chunk hchunk
    cases hchunk
    decide +kernel
  obtain ⟨bytes, e, hbytes⟩ : ∃ bytes e, RtmpMessageEncoder.encodeAll {} [op] = some (bytes, e) :=
    ⟨_, _, rfl⟩
  obtain ⟨d, hd⟩ := hall [op] (by simp [hfits, op, RtmpMessage.abortedStream]) bytes e hbytes
  have hfeed : RtmpMessageDecoder.feedAll {} [bytes] = ([.ok op.message], none) := by
    simp [RtmpMessageDecoder.feedAll, hd]
  rw [RtmpMessageDecoder.feedAll_eq_trace, List.flatten_singleton, Prod.mk.injEq] at hfeed
  obtain ⟨hsurvive, -⟩ := encodeAll_of_trace [op] .initial (by simp [hfits]) hbytes hfeed.1 hfeed.2
  exact date_not_survives (hsurvive op List.mem_cons_self)

end CheetahMedia.Rtmp
