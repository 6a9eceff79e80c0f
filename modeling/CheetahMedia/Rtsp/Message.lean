import CheetahMedia.Lib.Incremental
import CheetahMedia.Lib.Text

namespace CheetahMedia.Rtsp
open Lib

abbrev Bytes := List UInt8

inductive RtspCoreError
  | invalidUtf8
  | invalidStartLine
  | invalidContentLength
  | invalidHeaderLine
  | invalidMessageField (field : String)
  | unexpectedRtspResponse
  | unexpectedRtspRequest
  | interleavedPayloadTooLarge (actual : Nat)
  | interleavedFrameSizeLimitExceeded (limit actual : Nat)
  | bufferSizeLimitExceeded (limit actual : Nat)
  | headerCountLimitExceeded (limit actual : Nat)
  | headerLineSizeLimitExceeded (limit actual : Nat)
  | bodySizeLimitExceeded (limit actual : Nat)

def USIZE_MAX : Nat := 2 ^ 64 - 1

structure RtspMessageLimits where
  maxBufferSize : Nat := 1024 * 1024
  maxHeadersCount : Nat := 64
  maxHeaderLineSize : Nat := 8 * 1024
  maxBodySize : Nat := 512 * 1024
  maxInterleavedFrameSize : Nat := 64 * 1024
  maxBufferSize_le : maxBufferSize ≤ USIZE_MAX := by decide

def RtspMessageLimits.validateBufferGrowth (limits : RtspMessageLimits)
    (currentLen incomingLen : Nat) : Except RtspCoreError Unit :=
  if currentLen + incomingLen > USIZE_MAX then
    .error (.bufferSizeLimitExceeded limits.maxBufferSize USIZE_MAX)
  else if currentLen + incomingLen > limits.maxBufferSize then
    .error (.bufferSizeLimitExceeded limits.maxBufferSize (currentLen + incomingLen))
  else .ok ()

structure RtspHeader where
  name : Text
  value : Text
deriving DecidableEq

structure RtspRequestMessage where
  method : Text
  uri : Text
  version : Text
  headers : List RtspHeader
  body : Bytes

structure RtspResponseMessage where
  version : Text
  statusCode : UInt16
  reasonPhrase : Text
  headers : List RtspHeader
  body : Bytes

/-- Where the first empty line starts, with the line end before it. -/
def findHeaderEnd : Bytes → Option Nat
  | [] => none
  | b :: rest =>
    if (b :: rest).take 4 = [0x0D, 0x0A, 0x0D, 0x0A] then some 0
    else (findHeaderEnd rest).map (· + 1)

def splitHeaderLine (line : Text) : Option (Text × Text) :=
  (Text.splitOnce ':' line).map fun (name, value) => (Text.trim name, Text.trim value)

def namesContentLength (name : Text) : Bool :=
  Text.eqIgnoreAsciiCase name "content-length".toList

/-- The first line of that name decides. -/
def contentLengthOf : List Text → Except RtspCoreError Nat
  | [] => .ok 0
  | line :: rest =>
    match splitHeaderLine line with
    | none => contentLengthOf rest
    | some (name, value) =>
      if namesContentLength name then
        match Text.parseUnsigned 64 value with
        | none => .error .invalidContentLength
        | some n => .ok n
      else contentLengthOf rest

def parseContentLength (headers : Bytes) : Except RtspCoreError Nat :=
  match Text.fromUtf8 headers with
  | none => .error .invalidUtf8
  | some text => contentLengthOf (Text.splitCrlf text)

/-- `count` headers are parsed already. -/
def parseHeaders (limits : RtspMessageLimits) (count : Nat) :
    List Text → Except RtspCoreError (List RtspHeader)
  | [] => .ok []
  | line :: rest =>
    if line = [] then parseHeaders limits count rest
    else if (Text.toBytes line).length > limits.maxHeaderLineSize then
      .error (.headerLineSizeLimitExceeded limits.maxHeaderLineSize (Text.toBytes line).length)
    else if count = limits.maxHeadersCount then
      .error (.headerCountLimitExceeded limits.maxHeadersCount (count + 1))
    else match splitHeaderLine line with
      | none => .error .invalidHeaderLine
      | some (name, value) => (parseHeaders limits (count + 1) rest).map (⟨name, value⟩ :: ·)

def parseRequestStartLine (line : Text) : Except RtspCoreError (Text × Text × Text) :=
  match Text.splitWhitespace line with
  | [method, uri, version] => .ok (method, uri, version)
  | _ => .error .invalidStartLine

def parseResponseStartLine (line : Text) : Except RtspCoreError (Text × UInt16 × Text) :=
  match Text.splitOnce ' ' line with
  | none => .error .invalidStartLine
  | some (version, rest) =>
    match Text.splitOnce ' ' (Text.trimStart rest) with
    | none => .error .invalidStartLine
    | some (statusCode, reasonPhrase) =>
      if version = [] ∨ '\r' ∈ reasonPhrase ∨ '\n' ∈ reasonPhrase then .error .invalidStartLine
      else match Text.parseUnsigned 16 statusCode with
        | none => .error .invalidStartLine
        | some code => .ok (version, UInt16.ofNat code, reasonPhrase)

inductive ParsedMessageBody
  | request (request : RtspRequestMessage)
  | response (response : RtspResponseMessage)

/-- The lines of a header block, with the body after it. -/
def parseLines (limits : RtspMessageLimits) (startLine : Text) (lines : List Text) (body : Bytes) :
    Except RtspCoreError ParsedMessageBody := do
  let headers ← parseHeaders limits 0 lines
  if "RTSP/".toList.isPrefixOf startLine then
    let (version, statusCode, reasonPhrase) ← parseResponseStartLine startLine
    return .response { version, statusCode, reasonPhrase, headers, body }
  else
    let (method, uri, version) ← parseRequestStartLine startLine
    return .request { method, uri, version, headers, body }

def parseRtspMessage (limits : RtspMessageLimits) (message : Bytes) :
    Except RtspCoreError ParsedMessageBody :=
  match findHeaderEnd message with
  | none => .error .invalidStartLine
  | some headerEnd =>
    match Text.fromUtf8 (message.take headerEnd) with
    | none => .error .invalidUtf8
    | some headers =>
      match Text.splitCrlf headers with
      | [] => .error .invalidStartLine
      | startLine :: lines => parseLines limits startLine lines (message.drop (headerEnd + 4))

/-- A message at the front of the buffer, if there is a whole one, and what is left then. A
message that turns out malformed is gone too, if its length was found. -/
def tryParseMessage (limits : RtspMessageLimits) (buffer : Bytes) :
    Except RtspCoreError (Option ParsedMessageBody) × Bytes :=
  match findHeaderEnd buffer with
  | none => (.ok none, buffer)
  | some headerEnd =>
    let headerLen := headerEnd + 4
    match parseContentLength (buffer.take headerLen) with
    | .error e => (.error e, buffer)
    | .ok contentLength =>
      let totalLen := headerLen + contentLength
      if contentLength > limits.maxBodySize then
        (.error (.bodySizeLimitExceeded limits.maxBodySize contentLength), buffer)
      else if totalLen > USIZE_MAX then
        (.error (.bufferSizeLimitExceeded limits.maxBufferSize USIZE_MAX), buffer)
      else if buffer.length < totalLen then (.ok none, buffer)
      else ((parseRtspMessage limits (buffer.take totalLen)).map some, buffer.drop totalLen)

def validateStartLineField (value : Text) (field : String) : Except RtspCoreError Unit :=
  if value = [] ∨ '\r' ∈ value ∨ '\n' ∈ value then .error (.invalidMessageField field) else .ok ()

def validateHeaderName (name : Text) : Except RtspCoreError Unit :=
  if name = [] ∨ '\r' ∈ name ∨ '\n' ∈ name ∨ ':' ∈ name then
    .error (.invalidMessageField "header_name")
  else .ok ()

def validateHeaderValue (value : Text) : Except RtspCoreError Unit :=
  if '\r' ∈ value ∨ '\n' ∈ value then .error (.invalidMessageField "header_value") else .ok ()

def validateReasonPhrase (value : Text) : Except RtspCoreError Unit :=
  if '\r' ∈ value ∨ '\n' ∈ value then .error (.invalidMessageField "reason_phrase") else .ok ()

def CRLF : Text := ['\r', '\n']

def RtspHeader.line (h : RtspHeader) : Text := h.name ++ ": ".toList ++ h.value

def contentLengthHeader (body : Bytes) : RtspHeader :=
  { name := "Content-Length".toList, value := Text.decimal body.length }

def hasContentLength (headers : List RtspHeader) : Bool := headers.any (namesContentLength ·.name)

/-- The lines of the headers. -/
def encodeHeaders : List RtspHeader → Except RtspCoreError Text
  | [] => .ok []
  | h :: rest => do
    validateHeaderName h.name
    validateHeaderValue h.value
    return h.line ++ CRLF ++ (← encodeHeaders rest)

def encodeRtspRequest (request : RtspRequestMessage) : Except RtspCoreError Bytes := do
  validateStartLineField request.method "method"
  validateStartLineField request.uri "uri"
  validateStartLineField request.version "version"
  let headers ← encodeHeaders request.headers
  let added := if request.body ≠ [] ∧ ¬ hasContentLength request.headers then
    (contentLengthHeader request.body).line ++ CRLF else []
  return Text.toBytes (request.method ++ ' ' :: request.uri ++ ' ' :: request.version ++ CRLF ++
    headers ++ added ++ CRLF) ++ request.body

def encodeRtspResponse (response : RtspResponseMessage) : Except RtspCoreError Bytes := do
  validateStartLineField response.version "version"
  validateReasonPhrase response.reasonPhrase
  let headers ← encodeHeaders response.headers
  let added := if ¬ hasContentLength response.headers then
    (contentLengthHeader response.body).line ++ CRLF else []
  return Text.toBytes (response.version ++ ' ' :: Text.decimal response.statusCode.toNat ++
    ' ' :: response.reasonPhrase ++ CRLF ++ headers ++ added ++ CRLF) ++ response.body

def encodeRtspResponseParts (cseq : Option UInt32) (statusCode : UInt16) (reason : Text)
    (headers : List (Text × Text)) (body : Bytes) : Except RtspCoreError Bytes :=
  let messageHeaders := headers.map fun (name, value) => { name, value : RtspHeader }
  let hasCseq := headers.any fun (name, _) => Text.eqIgnoreAsciiCase name "cseq".toList
  let added := if hasCseq then [] else cseq.toList.map fun n =>
    { name := "CSeq".toList, value := Text.decimal n.toNat : RtspHeader }
  encodeRtspResponse
    { version := "RTSP/1.0".toList
      statusCode
      reasonPhrase := reason
      headers := messageHeaders ++ added
      body }

structure RtspRequestDecoder where
  buffer : Bytes := []
  limits : RtspMessageLimits

structure RtspResponseDecoder where
  buffer : Bytes := []
  limits : RtspMessageLimits

/-- The buffer that is fed, for either decoder. -/
def feedBuffer (limits : RtspMessageLimits) (buffer data : Bytes) : Except RtspCoreError Bytes := do
  limits.validateBufferGrowth buffer.length data.length
  return buffer ++ data

def RtspRequestDecoder.feed (d : RtspRequestDecoder) (data : Bytes) :
    Except RtspCoreError RtspRequestDecoder :=
  (feedBuffer d.limits d.buffer data).map fun buffer => { d with buffer }

def RtspResponseDecoder.feed (d : RtspResponseDecoder) (data : Bytes) :
    Except RtspCoreError RtspResponseDecoder :=
  (feedBuffer d.limits d.buffer data).map fun buffer => { d with buffer }

def RtspRequestDecoder.decode (d : RtspRequestDecoder) :
    Except RtspCoreError (Option RtspRequestMessage) × RtspRequestDecoder :=
  let (parsed, buffer) := tryParseMessage d.limits d.buffer
  (parsed.bind fun
    | none => .ok none
    | some (.request request) => .ok (some request)
    | some (.response _) => .error .unexpectedRtspResponse, { d with buffer })

def RtspResponseDecoder.decode (d : RtspResponseDecoder) :
    Except RtspCoreError (Option RtspResponseMessage) × RtspResponseDecoder :=
  let (parsed, buffer) := tryParseMessage d.limits d.buffer
  (parsed.bind fun
    | none => .ok none
    | some (.request _) => .error .unexpectedRtspRequest
    | some (.response response) => .ok (some response), { d with buffer })

theorem findHeaderEnd_le (h : findHeaderEnd bytes = some n) : n + 4 ≤ bytes.length := by
  induction bytes generalizing n with
  | nil => cases h
  | cons b rest ih =>
    rw [findHeaderEnd] at h
    split at h
    · rename_i hfour
      cases h
      have hlen := congrArg List.length hfour
      rw [List.length_take, List.length_cons, List.length_cons] at hlen
      simp only [List.length_cons, List.length_nil] at hlen ⊢
      omega
    · obtain ⟨m, hm, rfl⟩ := Option.map_eq_some_iff.mp h
      have := ih hm
      rw [List.length_cons]
      omega

theorem findHeaderEnd_append (h : findHeaderEnd bytes = some n) (q : Bytes) :
    findHeaderEnd (bytes ++ q) = some n := by
  induction bytes generalizing n with
  | nil => cases h
  | cons b rest ih =>
    have hle := findHeaderEnd_le h
    rw [findHeaderEnd] at h
    rw [List.cons_append, findHeaderEnd, ← List.cons_append,
      List.take_append_of_le_length (by omega)]
    split at h
    · rename_i hfour
      rwa [if_pos hfour]
    · rename_i hfour
      obtain ⟨m, hm, rfl⟩ := Option.map_eq_some_iff.mp h
      rw [if_neg hfour, ih hm]
      rfl

theorem tryParseMessage_splits (limits : RtspMessageLimits) :
    Incremental.Splits (tryParseMessage limits) where
  kept {buf _} h := by
    unfold tryParseMessage at h
    cases hend : findHeaderEnd buf with
    | none => simp_all
    | some headerEnd =>
      cases hlen : parseContentLength (buf.take (headerEnd + 4)) with
      | error e => simp [hend, hlen] at h
      | ok contentLength =>
        simp only [hend, hlen] at h
        split at h
        · cases h
        · split at h
          · cases h
          · split at h
            · exact (congrArg Prod.snd h).symm
            · cases hmessage :
                parseRtspMessage limits (buf.take (headerEnd + 4 + contentLength)) <;>
                rw [hmessage] at h <;> cases h
  taken {buf _ _} h := by
    unfold tryParseMessage at h
    cases hend : findHeaderEnd buf with
    | none => simp [hend] at h
    | some headerEnd =>
      cases hlen : parseContentLength (buf.take (headerEnd + 4)) with
      | error e => simp [hend, hlen] at h
      | ok contentLength =>
        simp only [hend, hlen] at h
        split at h
        · cases h
        · split at h
          · cases h
          · split at h
            · cases h
            · rename_i htotal
              exact ⟨headerEnd + 4 + contentLength, by omega, by omega, (congrArg Prod.snd h).symm⟩
  settled {buf} h q := by
    unfold tryParseMessage at h ⊢
    cases hend : findHeaderEnd buf with
    | none => simp [hend] at h
    | some headerEnd =>
      have hle := findHeaderEnd_le hend
      simp only [findHeaderEnd_append hend, List.take_append_of_le_length hle]
      cases hlen : parseContentLength (buf.take (headerEnd + 4)) with
      | error e => rfl
      | ok contentLength =>
        simp only [hend, hlen] at h ⊢
        split
        · rfl
        · rename_i hbody
          rw [if_neg hbody] at h
          split
          · rfl
          · rename_i hoverflow
            rw [if_neg hoverflow] at h
            by_cases htotal : buf.length < headerEnd + 4 + contentLength
            · rw [if_pos htotal] at h
              exact absurd rfl h
            · rw [if_neg htotal, if_neg (by rw [List.length_append]; omega),
                List.take_append_of_le_length (by omega), List.drop_append_of_le_length (by omega)]

end CheetahMedia.Rtsp
