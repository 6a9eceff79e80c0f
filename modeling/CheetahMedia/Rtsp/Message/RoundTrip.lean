import CheetahMedia.Lib.Framing
import CheetahMedia.Rtsp.Message.Layout

namespace CheetahMedia.Rtsp
open Lib Incremental

def RtspRequestMessage.startLine (m : RtspRequestMessage) : Text :=
  m.method ++ ' ' :: m.uri ++ ' ' :: m.version

def RtspResponseMessage.startLine (m : RtspResponseMessage) : Text :=
  m.version ++ ' ' :: Text.decimal m.statusCode.toNat ++ ' ' :: m.reasonPhrase

/-- With the `Content-Length` that the encoder adds. -/
def RtspRequestMessage.sent (m : RtspRequestMessage) : RtspRequestMessage :=
  if m.body ≠ [] ∧ ¬ hasContentLength m.headers then
    { m with headers := m.headers ++ [contentLengthHeader m.body] }
  else m

def RtspResponseMessage.sent (m : RtspResponseMessage) : RtspResponseMessage :=
  if ¬ hasContentLength m.headers then
    { m with headers := m.headers ++ [contentLengthHeader m.body] }
  else m

/-- A request that takes the decoder to its own end: its start line falls into its three fields
again, nothing is trimmed off its headers, and the first line that names a content length
gives the length of its body. -/
structure RtspRequestMessage.Delimited (m : RtspRequestMessage) : Prop where
  words : ∀ c ∈ m.method ++ m.uri ++ m.version, Text.isWhitespace c = false
  request : "RTSP/".toList.isPrefixOf m.method = false
  trimmed : ∀ h ∈ m.headers, h.trimmed = h
  length : contentLengthOf (m.startLine :: headerLines m.sent.headers) = .ok m.body.length

structure RtspResponseMessage.Delimited (m : RtspResponseMessage) : Prop where
  word : ' ' ∉ m.version
  response : "RTSP/".toList.isPrefixOf m.version = true
  trimmed : ∀ h ∈ m.headers, h.trimmed = h
  length : contentLengthOf (m.startLine :: headerLines m.sent.headers) = .ok m.body.length

/-- The limits let a message through that has these headers, body and encoding. -/
structure RtspMessageLimits.Allow (limits : RtspMessageLimits) (headers : List RtspHeader)
    (body bytes : Bytes) : Prop where
  count : headers.length ≤ limits.maxHeadersCount
  lines : ∀ h ∈ headers, (Text.toBytes h.line).length ≤ limits.maxHeaderLineSize
  body : body.length ≤ limits.maxBodySize
  size : bytes.length ≤ limits.maxBufferSize

def RtspRequestDecoder.parser (limits : RtspMessageLimits) :
    Parser RtspCoreError UInt8 RtspRequestMessage := fun buffer =>
  let r := RtspRequestDecoder.decode { buffer, limits }
  (r.1, r.2.buffer)

def RtspResponseDecoder.parser (limits : RtspMessageLimits) :
    Parser RtspCoreError UInt8 RtspResponseMessage := fun buffer =>
  let r := RtspResponseDecoder.decode { buffer, limits }
  (r.1, r.2.buffer)

/-- The pieces are fed to a new decoder, which decodes after each until it waits. -/
def RtspRequestDecoder.decodeAll (limits : RtspMessageLimits) (pieces : List Bytes) :
    List RtspRequestMessage × Option RtspCoreError :=
  Framing.decodeAll limits.validateBufferGrowth (parser limits) [] pieces

def RtspResponseDecoder.decodeAll (limits : RtspMessageLimits) (pieces : List Bytes) :
    List RtspResponseMessage × Option RtspCoreError :=
  Framing.decodeAll limits.validateBufferGrowth (parser limits) [] pieces

theorem RtspRequestDecoder.parser_eq (limits : RtspMessageLimits) :
    parser limits = Parser.andThen (tryParseMessage limits) fun
      | .request request => .ok request
      | .response _ => .error .unexpectedRtspResponse := by
  funext buffer
  rcases hparse : tryParseMessage limits buffer with ⟨_ | _ | _ | _, rest⟩ <;>
    simp [parser, decode, Parser.andThen, hparse, Except.bind, Except.map]

theorem RtspResponseDecoder.parser_eq (limits : RtspMessageLimits) :
    parser limits = Parser.andThen (tryParseMessage limits) fun
      | .request _ => .error .unexpectedRtspRequest
      | .response response => .ok response := by
  funext buffer
  rcases hparse : tryParseMessage limits buffer with ⟨_ | _ | _ | _, rest⟩ <;>
    simp [parser, decode, Parser.andThen, hparse, Except.bind, Except.map]

theorem sent_headers_valid {headers : List RtspHeader} (hvalid : ∀ h ∈ headers, h.Valid)
    (body : Bytes) : ∀ h ∈ headers ++ [contentLengthHeader body], h.Valid := by
  intro h hmem
  rcases List.mem_append.mp hmem with hmem | hmem
  · exact hvalid h hmem
  · rw [List.mem_singleton.mp hmem]
    exact contentLengthHeader_valid body

/-- What the encoder takes and writes. -/
theorem encodeRtspRequest_ok {m : RtspRequestMessage} (h : encodeRtspRequest m = .ok bytes) :
    (m.method ≠ [] ∧ m.uri ≠ [] ∧ m.version ≠ [] ∧ Clean m.startLine) ∧
      (∀ h ∈ m.sent.headers, h.Valid) ∧
      bytes = Text.toBytes (headerBlock m.startLine (headerLines m.sent.headers)) ++ m.body := by
  obtain ⟨_, hmethod, h⟩ := exists_of_bind h
  obtain ⟨_, huri, h⟩ := exists_of_bind h
  obtain ⟨_, hversion, h⟩ := exists_of_bind h
  obtain ⟨text, htext, h⟩ := exists_of_bind h
  obtain ⟨hmethod, hm⟩ := validateStartLineField_ok hmethod
  obtain ⟨huri, hu⟩ := validateStartLineField_ok huri
  obtain ⟨hversion, hv⟩ := validateStartLineField_ok hversion
  obtain ⟨hvalid, rfl⟩ := encodeHeaders_ok htext
  have hstart : Clean m.startLine := by
    simp_all [Clean, RtspRequestMessage.startLine]
  refine ⟨⟨hmethod, huri, hversion, hstart⟩, ?_⟩
  cases h
  rw [headerBlock, ← List.append_assoc, joinLines_crlf]
  unfold RtspRequestMessage.sent
  split
  · refine ⟨sent_headers_valid hvalid m.body, ?_⟩
    simp [headerLines, RtspRequestMessage.startLine]
  · refine ⟨hvalid, ?_⟩
    simp [headerLines, RtspRequestMessage.startLine]

theorem encodeRtspResponse_ok {m : RtspResponseMessage} (h : encodeRtspResponse m = .ok bytes) :
    (m.version ≠ [] ∧ Clean m.reasonPhrase ∧ Clean m.startLine) ∧
      (∀ h ∈ m.sent.headers, h.Valid) ∧
      bytes = Text.toBytes (headerBlock m.startLine (headerLines m.sent.headers)) ++ m.body := by
  obtain ⟨_, hversion, h⟩ := exists_of_bind h
  obtain ⟨_, hreason, h⟩ := exists_of_bind h
  obtain ⟨text, htext, h⟩ := exists_of_bind h
  obtain ⟨hversion, hv⟩ := validateStartLineField_ok hversion
  have hr := validateReasonPhrase_ok hreason
  obtain ⟨hvalid, rfl⟩ := encodeHeaders_ok htext
  have hcode : Clean (Text.decimal m.statusCode.toNat) := clean_decimal
  have hstart : Clean m.startLine := by
    simp_all [Clean, RtspResponseMessage.startLine]
  refine ⟨⟨hversion, hr, hstart⟩, ?_⟩
  cases h
  rw [headerBlock, ← List.append_assoc, joinLines_crlf]
  unfold RtspResponseMessage.sent
  split
  · refine ⟨sent_headers_valid hvalid m.body, ?_⟩
    simp [headerLines, RtspResponseMessage.startLine]
  · refine ⟨hvalid, ?_⟩
    simp [headerLines, RtspResponseMessage.startLine]

/-- The trimming of headers that the encoder has added to. -/
theorem trimmed_contentLengthHeader (body : Bytes) :
    (contentLengthHeader body).trimmed = contentLengthHeader body := by
  have hname : Text.trim "Content-Length".toList = "Content-Length".toList :=
    Text.trim_word (Text.noWhitespace_of_all (by decide))
  have hvalue : Text.trim (Text.decimal body.length) = Text.decimal body.length :=
    Text.trim_word fun c hc => Text.not_isWhitespace_of_isDigit (Text.isDigit_of_mem_decimal hc)
  exact (RtspHeader.mk.injEq ..).mpr ⟨hname, hvalue⟩

theorem map_trimmed_iff {headers : List RtspHeader} :
    headers.map RtspHeader.trimmed = headers ↔ ∀ h ∈ headers, h.trimmed = h := by
  constructor
  · intro hmap
    have hid : headers.map RtspHeader.trimmed = headers.map id := by rw [hmap, List.map_id]
    exact List.map_inj_left.mp hid
  · intro hall
    rw [List.map_congr_left hall]
    exact List.map_id' headers

section
variable {limits : RtspMessageLimits} {startLine : Text} {headers : List RtspHeader} {body : Bytes}

theorem headerLines_clean (hstart : Clean startLine) (hvalid : ∀ h ∈ headers, h.Valid) :
    (∀ x ∈ startLine :: headerLines headers, Clean x) ∧ ∀ x ∈ headerLines headers, x ≠ [] := by
  have hlines : ∀ x ∈ headerLines headers, Clean x ∧ x ≠ [] := fun x hx => by
    obtain ⟨h, hh, rfl⟩ := List.mem_map.mp hx
    exact ⟨(hvalid h hh).line_clean, RtspHeader.Valid.line_ne_nil⟩
  refine ⟨fun x hx => ?_, fun x hx => (hlines x hx).2⟩
  rcases List.mem_cons.mp hx with rfl | hx
  · exact hstart
  · exact (hlines x hx).1

/-- A message is read with as much of what follows as its lines say. -/
theorem of_tryParseMessage (hstart : Clean startLine) (hvalid : ∀ h ∈ headers, h.Valid)
    (hparse : tryParseMessage limits
      (Text.toBytes (headerBlock startLine (headerLines headers)) ++ follows) =
        (.ok (some out), rest)) :
    ∃ n ≤ follows.length, contentLengthOf (startLine :: headerLines headers) = .ok n ∧
      parseLines limits startLine (headerLines headers) (follows.take n) = .ok out := by
  obtain ⟨hclean, hne⟩ := headerLines_clean hstart hvalid
  rw [tryParseMessage_headerBlock limits hclean hne] at hparse
  cases hlength : contentLengthOf (startLine :: headerLines headers) with
  | error e => rw [hlength] at hparse; cases hparse
  | ok n =>
    rw [hlength] at hparse
    dsimp only at hparse
    split at hparse
    · cases hparse
    · split at hparse
      · cases hparse
      · split at hparse
        · cases hparse
        · refine ⟨n, by omega, rfl, ?_⟩
          cases hlines : parseLines limits startLine (headerLines headers) (follows.take n) with
          | error e => rw [hlines] at hparse; cases hparse
          | ok out' => rw [hlines] at hparse; cases hparse; rfl

theorem tryParseMessage_written (hstart : Clean startLine) (hvalid : ∀ h ∈ headers, h.Valid)
    (hallow : limits.Allow headers body
      (Text.toBytes (headerBlock startLine (headerLines headers)) ++ body))
    (hlength : contentLengthOf (startLine :: headerLines headers) = .ok body.length)
    (more : Bytes) :
    tryParseMessage limits
        (Text.toBytes (headerBlock startLine (headerLines headers)) ++ body ++ more) =
      ((parseLines limits startLine (headerLines headers) body).map some, more) := by
  obtain ⟨hclean, hne⟩ := headerLines_clean hstart hvalid
  have hbody := hallow.body
  have hsize := hallow.size
  have hmax := limits.maxBufferSize_le
  rw [List.length_append] at hsize
  rw [List.append_assoc, tryParseMessage_headerBlock limits hclean hne, hlength]
  dsimp only
  rw [if_neg (by omega), if_neg (by omega), if_neg (by rw [List.length_append]; omega),
    List.take_left, List.drop_left]

theorem parseLines_written (hvalid : ∀ h ∈ headers, h.Valid)
    (hallow : limits.Allow headers allowed bytes) :
    parseLines limits startLine (headerLines headers) body =
      if "RTSP/".toList.isPrefixOf startLine then
        (parseResponseStartLine startLine).map fun (version, statusCode, reasonPhrase) =>
          .response { version, statusCode, reasonPhrase, headers := headers.map .trimmed, body }
      else
        (parseRequestStartLine startLine).map fun (method, uri, version) =>
          .request { method, uri, version, headers := headers.map .trimmed, body } := by
  have hcount : 0 + headers.length ≤ limits.maxHeadersCount := by simpa using hallow.count
  have hheaders := parseHeaders_lines hvalid hcount hallow.lines
  rw [parseLines, hheaders]
  split
  · cases hline : parseResponseStartLine startLine with
    | error e => simp_all; rfl
    | ok fields => simp_all; rfl
  · cases hline : parseRequestStartLine startLine with
    | error e => simp_all; rfl
    | ok fields => simp_all; rfl

end

theorem parseRequestStartLine_iff {m : RtspRequestMessage} (hmethod : m.method ≠ [])
    (huri : m.uri ≠ []) (hversion : m.version ≠ []) :
    parseRequestStartLine m.startLine = .ok (m.method, m.uri, m.version) ↔
      ∀ c ∈ m.method ++ m.uri ++ m.version, Text.isWhitespace c = false := by
  rw [← Text.splitWhitespace_three hmethod huri hversion, parseRequestStartLine,
    RtspRequestMessage.startLine]
  constructor
  · intro h
    split at h
    · rename_i hwords
      cases h
      exact hwords
    · cases h
  · intro h
    rw [h]

/-- The status code never gets in the way. -/
theorem parseResponseStartLine_iff {m : RtspResponseMessage} (hversion : m.version ≠ [])
    (hreason : Clean m.reasonPhrase) :
    parseResponseStartLine m.startLine = .ok (m.version, m.statusCode, m.reasonPhrase) ↔
      ' ' ∉ m.version := by
  constructor
  · intro h hspace
    unfold parseResponseStartLine at h
    cases hsplit : Text.splitOnce ' ' m.startLine with
    | none => rw [hsplit] at h; cases h
    | some sides =>
      rw [hsplit] at h
      dsimp only at h
      split at h
      · cases h
      · split at h
        · cases h
        · split at h
          · cases h
          · have hsame := (Prod.mk.inj (Except.ok.inj h)).1
            exact (Text.of_splitOnce hsplit).2 (hsame ▸ hspace)
  · intro hword
    have hdigits : ∀ c ∈ Text.decimal m.statusCode.toNat, Text.isWhitespace c = false :=
      fun c hc => Text.not_isWhitespace_of_isDigit (Text.isDigit_of_mem_decimal hc)
    have hcode : Text.parseUnsigned 16 (Text.decimal m.statusCode.toNat) =
        some m.statusCode.toNat := Text.parseUnsigned_decimal m.statusCode.toNat_lt
    rw [parseResponseStartLine, RtspResponseMessage.startLine, List.append_assoc, List.cons_append,
      Text.splitOnce_append hword]
    dsimp only
    rw [Text.trimStart_append hdigits Text.decimal_ne_nil,
      Text.splitOnce_append (Text.not_mem_decimal (by decide))]
    dsimp only
    rw [if_neg (by simp [hversion, hreason.1, hreason.2]), hcode]
    dsimp only
    rw [UInt16.ofNat_toNat]

theorem mem_sent_trimmed {headers : List RtspHeader} {body : Bytes} :
    (∀ h ∈ headers ++ [contentLengthHeader body], h.trimmed = h) ↔
      ∀ h ∈ headers, h.trimmed = h := by
  simp [or_imp, forall_and, trimmed_contentLengthHeader]

section
variable {m : RtspRequestMessage} {limits : RtspMessageLimits}

theorem RtspRequestMessage.sent_fields (m : RtspRequestMessage) :
    m.sent = { m with headers := m.sent.headers } ∧
      ((∀ h ∈ m.sent.headers, h.trimmed = h) ↔ ∀ h ∈ m.headers, h.trimmed = h) := by
  unfold sent
  split
  · exact ⟨rfl, mem_sent_trimmed⟩
  · exact ⟨rfl, .rfl⟩

theorem RtspRequestMessage.Delimited.prefix_startLine (m : RtspRequestMessage) :
    "RTSP/".toList.isPrefixOf m.startLine = "RTSP/".toList.isPrefixOf m.method := by
  rw [RtspRequestMessage.startLine, List.append_assoc, List.cons_append,
    Text.isPrefixOf_word (by decide)]

/-- A request that is read back delimits itself. -/
theorem RtspRequestMessage.delimited_of_parser (henc : encodeRtspRequest m = .ok bytes)
    (hallow : limits.Allow m.sent.headers m.body bytes)
    (hparse : RtspRequestDecoder.parser limits (bytes ++ more) = (.ok (some m.sent), rest)) :
    m.Delimited := by
  obtain ⟨⟨hmethod, huri, hversion, hstart⟩, hvalid, rfl⟩ := encodeRtspRequest_ok henc
  obtain ⟨hfields, htrimmed⟩ := m.sent_fields
  rw [RtspRequestDecoder.parser_eq, List.append_assoc] at hparse
  unfold Parser.andThen at hparse
  rcases hfound : tryParseMessage limits (Text.toBytes (headerBlock m.startLine
    (headerLines m.sent.headers)) ++ (m.body ++ more)) with ⟨_ | _ | found | _, left⟩ <;>
    rw [hfound] at hparse <;> cases hparse
  obtain ⟨n, hn, hlength, hlines⟩ := of_tryParseMessage hstart hvalid hfound
  rw [parseLines_written hvalid hallow] at hlines
  split at hlines
  · cases hline : parseResponseStartLine m.startLine <;> rw [hline] at hlines <;> cases hlines
  · rename_i hrequest
    cases hline : parseRequestStartLine m.startLine with
    | error e => rw [hline] at hlines; cases hlines
    | ok fields =>
      obtain ⟨method, uri, version⟩ := fields
      rw [hline, hfields] at hlines
      simp only [Except.map, Except.ok.injEq, ParsedMessageBody.request.injEq,
        RtspRequestMessage.mk.injEq] at hlines
      obtain ⟨rfl, rfl, rfl, hheaders, hbody⟩ := hlines
      have hlen : n = m.body.length := by
        have := congrArg List.length hbody
        rw [List.length_take] at this
        omega
      exact {
        words := (parseRequestStartLine_iff hmethod huri hversion).mp hline
        request := by
          rw [RtspRequestMessage.Delimited.prefix_startLine] at hrequest
          exact Bool.eq_false_iff.mpr hrequest
        trimmed := htrimmed.mp (map_trimmed_iff.mp hheaders)
        length := hlen ▸ hlength }

theorem RtspRequestMessage.Delimited.delimits (hd : m.Delimited)
    (henc : encodeRtspRequest m = .ok bytes)
    (hallow : limits.Allow m.sent.headers m.body bytes) :
    Framing.Delimits (RtspRequestDecoder.parser limits) bytes m.sent := by
  obtain ⟨⟨hmethod, huri, hversion, hstart⟩, hvalid, rfl⟩ := encodeRtspRequest_ok henc
  obtain ⟨hfields, htrimmed⟩ := m.sent_fields
  intro more
  have hline := (parseRequestStartLine_iff hmethod huri hversion).mpr hd.words
  have hheaders := map_trimmed_iff.mpr (htrimmed.mpr hd.trimmed)
  rw [RtspRequestDecoder.parser_eq, Parser.andThen,
    tryParseMessage_written hstart hvalid hallow hd.length, parseLines_written hvalid hallow,
    prefix_startLine, hd.request, hline, hheaders]
  rw [hfields]
  rfl

end

section
variable {m : RtspResponseMessage} {limits : RtspMessageLimits}

theorem RtspResponseMessage.sent_fields (m : RtspResponseMessage) :
    m.sent = { m with headers := m.sent.headers } ∧
      ((∀ h ∈ m.sent.headers, h.trimmed = h) ↔ ∀ h ∈ m.headers, h.trimmed = h) := by
  unfold sent
  split
  · exact ⟨rfl, mem_sent_trimmed⟩
  · exact ⟨rfl, .rfl⟩

theorem RtspResponseMessage.prefix_startLine (m : RtspResponseMessage) :
    "RTSP/".toList.isPrefixOf m.startLine = "RTSP/".toList.isPrefixOf m.version := by
  rw [RtspResponseMessage.startLine, List.append_assoc, List.cons_append,
    Text.isPrefixOf_word (by decide)]

/-- A response that is read back delimits itself. -/
theorem RtspResponseMessage.delimited_of_parser (henc : encodeRtspResponse m = .ok bytes)
    (hallow : limits.Allow m.sent.headers m.body bytes)
    (hparse : RtspResponseDecoder.parser limits (bytes ++ more) = (.ok (some m.sent), rest)) :
    m.Delimited := by
  obtain ⟨⟨hversion, hreason, hstart⟩, hvalid, rfl⟩ := encodeRtspResponse_ok henc
  obtain ⟨hfields, htrimmed⟩ := m.sent_fields
  rw [RtspResponseDecoder.parser_eq, List.append_assoc] at hparse
  unfold Parser.andThen at hparse
  rcases hfound : tryParseMessage limits (Text.toBytes (headerBlock m.startLine
    (headerLines m.sent.headers)) ++ (m.body ++ more)) with ⟨_ | _ | _ | found, left⟩ <;>
    rw [hfound] at hparse <;> cases hparse
  obtain ⟨n, hn, hlength, hlines⟩ := of_tryParseMessage hstart hvalid hfound
  rw [parseLines_written hvalid hallow] at hlines
  split at hlines
  · rename_i hresponse
    cases hline : parseResponseStartLine m.startLine with
    | error e => rw [hline] at hlines; cases hlines
    | ok fields =>
      obtain ⟨version, statusCode, reasonPhrase⟩ := fields
      rw [hline, hfields] at hlines
      simp only [Except.map, Except.ok.injEq, ParsedMessageBody.response.injEq,
        RtspResponseMessage.mk.injEq] at hlines
      obtain ⟨rfl, rfl, rfl, hheaders, hbody⟩ := hlines
      have hlen : n = m.body.length := by
        have := congrArg List.length hbody
        rw [List.length_take] at this
        omega
      exact {
        word := (parseResponseStartLine_iff hversion hreason).mp hline
        response := by rwa [prefix_startLine] at hresponse
        trimmed := htrimmed.mp (map_trimmed_iff.mp hheaders)
        length := hlen ▸ hlength }
  · cases hline : parseRequestStartLine m.startLine <;> rw [hline] at hlines <;> cases hlines

theorem RtspResponseMessage.Delimited.delimits (hd : m.Delimited)
    (henc : encodeRtspResponse m = .ok bytes)
    (hallow : limits.Allow m.sent.headers m.body bytes) :
    Framing.Delimits (RtspResponseDecoder.parser limits) bytes m.sent := by
  obtain ⟨⟨hversion, hreason, hstart⟩, hvalid, rfl⟩ := encodeRtspResponse_ok henc
  obtain ⟨hfields, htrimmed⟩ := m.sent_fields
  intro more
  have hline := (parseResponseStartLine_iff hversion hreason).mpr hd.word
  have hheaders := map_trimmed_iff.mpr (htrimmed.mpr hd.trimmed)
  rw [RtspResponseDecoder.parser_eq, Parser.andThen,
    tryParseMessage_written hstart hvalid hallow hd.length, parseLines_written hvalid hallow,
    prefix_startLine, hd.response, hline, hheaders]
  rw [hfields]
  rfl

end

section
variable {limits : RtspMessageLimits} {pieces : List Bytes}

theorem decodeAll_requests_iff {written : List (Bytes × RtspRequestMessage)}
    (henc : ∀ x ∈ written, encodeRtspRequest x.2 = .ok x.1)
    (hallow : ∀ x ∈ written, limits.Allow x.2.sent.headers x.2.body x.1)
    (hpieces : pieces.flatten = (written.map (·.1)).flatten)
    (hfits : Framing.Fits limits.validateBufferGrowth (written.map (·.1)) 0 pieces) :
    RtspRequestDecoder.decodeAll limits pieces = (written.map (·.2.sent), none) ↔
      ∀ x ∈ written, x.2.Delimited := by
  have hp : Splits (RtspRequestDecoder.parser limits) := by
    rw [RtspRequestDecoder.parser_eq]
    exact (tryParseMessage_splits limits).andThen _
  exact Framing.decodeAll_written_iff hp rfl
    (fun x hx _ _ => RtspRequestMessage.delimited_of_parser (henc x hx) (hallow x hx))
    (fun x hx hd => hd.delimits (henc x hx) (hallow x hx)) hpieces hfits

theorem decodeAll_responses_iff {written : List (Bytes × RtspResponseMessage)}
    (henc : ∀ x ∈ written, encodeRtspResponse x.2 = .ok x.1)
    (hallow : ∀ x ∈ written, limits.Allow x.2.sent.headers x.2.body x.1)
    (hpieces : pieces.flatten = (written.map (·.1)).flatten)
    (hfits : Framing.Fits limits.validateBufferGrowth (written.map (·.1)) 0 pieces) :
    RtspResponseDecoder.decodeAll limits pieces = (written.map (·.2.sent), none) ↔
      ∀ x ∈ written, x.2.Delimited := by
  have hp : Splits (RtspResponseDecoder.parser limits) := by
    rw [RtspResponseDecoder.parser_eq]
    exact (tryParseMessage_splits limits).andThen _
  exact Framing.decodeAll_written_iff hp rfl
    (fun x hx _ _ => RtspResponseMessage.delimited_of_parser (henc x hx) (hallow x hx))
    (fun x hx hd => hd.delimits (henc x hx) (hallow x hx)) hpieces hfits

end

/-- Messages that the encoders accept and the limits allow, however their encodings are fed:
they are read back in order, with what the encoder added, if and only if every one of them
delimits itself. -/
theorem self_delimiting_iff (limits : RtspMessageLimits) (pieces : List Bytes) :
    (∀ requests : List (Bytes × RtspRequestMessage),
      (∀ x ∈ requests, encodeRtspRequest x.2 = .ok x.1 ∧
        limits.Allow x.2.sent.headers x.2.body x.1) →
      pieces.flatten = (requests.map (·.1)).flatten →
      Framing.Fits limits.validateBufferGrowth (requests.map (·.1)) 0 pieces →
      (RtspRequestDecoder.decodeAll limits pieces = (requests.map (·.2.sent), none) ↔
        ∀ x ∈ requests, x.2.Delimited)) ∧
    ∀ responses : List (Bytes × RtspResponseMessage),
      (∀ x ∈ responses, encodeRtspResponse x.2 = .ok x.1 ∧
        limits.Allow x.2.sent.headers x.2.body x.1) →
      pieces.flatten = (responses.map (·.1)).flatten →
      Framing.Fits limits.validateBufferGrowth (responses.map (·.1)) 0 pieces →
      (RtspResponseDecoder.decodeAll limits pieces = (responses.map (·.2.sent), none) ↔
        ∀ x ∈ responses, x.2.Delimited) :=
  ⟨fun _ hx => decodeAll_requests_iff (fun x h => (hx x h).1) fun x h => (hx x h).2,
    fun _ hx => decodeAll_responses_iff (fun x h => (hx x h).1) fun x h => (hx x h).2⟩

instance (limits : RtspMessageLimits) (headers : List RtspHeader) (body bytes : Bytes) :
    Decidable (limits.Allow headers body bytes) :=
  decidable_of_iff (headers.length ≤ limits.maxHeadersCount ∧
      (∀ h ∈ headers, (Text.toBytes h.line).length ≤ limits.maxHeaderLineSize) ∧
      body.length ≤ limits.maxBodySize ∧ bytes.length ≤ limits.maxBufferSize)
    ⟨fun ⟨hc, hl, hb, hs⟩ => ⟨hc, hl, hb, hs⟩, fun ⟨hc, hl, hb, hs⟩ => ⟨hc, hl, hb, hs⟩⟩

def encoded (result : Except RtspCoreError Bytes) : Bytes := result.toOption.getD []

theorem eq_ok {result : Except RtspCoreError α} (h : result.toOption = some a) :
    result = .ok a := by
  cases result with
  | error e => cases h
  | ok a' => exact congrArg Except.ok (Option.some.inj h)

def sampleRequest (headers : List RtspHeader) : RtspRequestMessage where
  method := ['A']
  uri := ['b']
  version := ['c']
  headers := headers
  body := [0x07]

def sampleResponse : RtspResponseMessage where
  version := "RTSP/1.0".toList
  statusCode := 200
  reasonPhrase := ['O', 'K']
  headers := []
  body := [0x07]

def sampleHeader : RtspHeader := { name := ['n'], value := ['v'] }

/-- Two requests, cut inside the first one's header; and a response. -/
theorem self_delimiting_iff_samples :
    let first := encoded (encodeRtspRequest (sampleRequest []))
    let second := encoded (encodeRtspRequest (sampleRequest [sampleHeader]))
    let response := encoded (encodeRtspResponse sampleResponse)
    RtspRequestDecoder.decodeAll {} [first.take 4, first.drop 4 ++ second] =
        ([(sampleRequest []).sent, (sampleRequest [sampleHeader]).sent], none) ∧
      RtspResponseDecoder.decodeAll {} [response] = ([sampleResponse.sent], none) := by
  intro first second response
  have hrequests := (self_delimiting_iff {} [first.take 4, first.drop 4 ++ second]).1
    [(first, sampleRequest []), (second, sampleRequest [sampleHeader])]
  have hresponses := (self_delimiting_iff {} [response]).2 [(response, sampleResponse)]
  constructor
  · refine (hrequests ?_ (by decide) ⟨eq_ok (by decide), eq_ok (by decide), trivial⟩).mpr ?_
    · exact List.forall_mem_cons.mpr ⟨⟨eq_ok (by decide), by decide⟩,
        List.forall_mem_singleton.mpr ⟨eq_ok (by decide), by decide⟩⟩
    · exact List.forall_mem_cons.mpr
        ⟨⟨Text.noWhitespace_of_all (by decide), by decide, by decide, eq_ok (by decide)⟩,
          List.forall_mem_singleton.mpr
            ⟨Text.noWhitespace_of_all (by decide), by decide, by decide, eq_ok (by decide)⟩⟩
  · refine (hresponses ?_ (by decide) ⟨eq_ok (by decide), trivial⟩).mpr ?_
    · exact List.forall_mem_singleton.mpr ⟨eq_ok (by decide), by decide⟩
    · exact List.forall_mem_singleton.mpr ⟨by decide, by decide, by decide, eq_ok (by decide)⟩

/-- A caller's `Content-Length` of 0 leaves the body to the next message. -/
theorem body_left_to_next :
    ¬ ∀ (limits : RtspMessageLimits) (bytes : Bytes) (m : RtspRequestMessage),
      encodeRtspRequest m = .ok bytes → limits.Allow m.sent.headers m.body bytes →
      RtspRequestDecoder.decodeAll limits [bytes] = ([m.sent], none) := by
  intro h
  let m := sampleRequest [{ name := "Content-Length".toList, value := ['0'] }]
  let written := [(encoded (encodeRtspRequest m), m)]
  have henc : ∀ x ∈ written, encodeRtspRequest x.2 = .ok x.1 :=
    List.forall_mem_singleton.mpr (eq_ok (by decide))
  have hallow : ∀ x ∈ written, ({} : RtspMessageLimits).Allow x.2.sent.headers x.2.body x.1 := by
    decide
  have hread := h {} (encoded (encodeRtspRequest m)) m (henc _ List.mem_cons_self)
    (hallow _ List.mem_cons_self)
  have hdelimited : m.Delimited := (decodeAll_requests_iff henc hallow rfl
    ⟨eq_ok (by decide), trivial⟩).mp hread _ List.mem_cons_self
  exact absurd (congrArg Except.toOption hdelimited.length) (by decide)

end CheetahMedia.Rtsp
