import CheetahMedia.Lib.Utf8

namespace CheetahMedia.Rtsp
open Lib

inductive RtspRtpInfoError
  | emptyHeader
  | emptyStreamEntry
  | missingUrl
  | invalidParameter (parameter : String) (value : Text)

structure RtspRtpInfoStream where
  url : Text
  seq : Option Nat
  rtptime : Option Nat

structure RtspRtpInfo where
  streams : List RtspRtpInfoStream

namespace RtspRtpInfo

/-- The tokenizer's state: the offset of the current entry and whether a `url` value is open. -/
structure Scan where
  streams : List Text
  start : Nat
  inUrlValue : Bool

/-- One character of the tokenizer. A slice that cuts a character is a panic: `none`. -/
def scanChar (value : Text) (s : Scan) (at' : Nat × Char) : Option Scan :=
  let (index, ch) := at'
  if ch = '=' ∧ ¬s.inUrlValue then do
    let key ← Text.slice value s.start index
    if Text.eqIgnoreAsciiCase (Text.trim key) "url".toList then some { s with inUrlValue := true }
    else some s
  else if ch = ';' ∧ s.inUrlValue then some { s with inUrlValue := false }
  else if ch = ',' ∧ s.inUrlValue then do
    let remaining := Text.trimStart (← Text.dropBytes value (index + ch.utf8Size))
    let next ←
      if 4 ≤ Text.utf8Len remaining then
        (Text.takeBytes remaining 4).map (Text.eqIgnoreAsciiCase · "url=".toList)
      else some false
    if next then do
      let stream ← Text.slice value s.start index
      some { streams := s.streams ++ [stream], start := index + 1, inUrlValue := false }
    else some s
  else if ch = ',' ∧ ¬s.inUrlValue then do
    let stream ← Text.slice value s.start index
    some { s with streams := s.streams ++ [stream], start := index + 1 }
  else some s

def splitRtpInfoStreams (value : Text) : Option (List Text) := do
  let s ← (Text.charIndices 0 value).foldlM (scanChar value)
    { streams := [], start := 0, inUrlValue := false }
  if s.start < Text.utf8Len value then
    let stream ← Text.dropBytes value s.start
    some (s.streams ++ [stream])
  else some s.streams

/-- The fields of an entry read so far. -/
structure Fields where
  url : Option Text
  seq : Option Nat
  rtptime : Option Nat

def parseNumber (parameter : String) (width : Nat) (value : Text) :
    Except RtspRtpInfoError Nat :=
  match Text.parseUnsigned width value with
  | some n => .ok n
  | none => .error (.invalidParameter parameter value)

/-- One `key=value` part of an entry. -/
def parsePart (fields : Fields) (part : Text) : Except RtspRtpInfoError Fields :=
  let part := Text.trim part
  if part = [] then .ok fields
  else
    match Text.splitOnce '=' part with
    | none => .ok fields
    | some (key, rawValue) =>
      let key := Text.trim key
      let fieldValue := Text.trim rawValue
      if Text.eqIgnoreAsciiCase key "url".toList then
        if fieldValue = [] then .error .missingUrl
        else .ok { fields with url := some fieldValue }
      else if Text.eqIgnoreAsciiCase key "seq".toList then do
        let seq ← parseNumber "seq" 16 fieldValue
        .ok { fields with seq := some seq }
      else if Text.eqIgnoreAsciiCase key "rtptime".toList then do
        let rtptime ← parseNumber "rtptime" 32 fieldValue
        .ok { fields with rtptime := some rtptime }
      else .ok fields

def parseStream (value : Text) : Except RtspRtpInfoError RtspRtpInfoStream := do
  let fields ← (value.splitOn ';').foldlM parsePart { url := none, seq := none, rtptime := none }
  match fields.url with
  | none => .error .missingUrl
  | some url => .ok { url, seq := fields.seq, rtptime := fields.rtptime }

def parseEntry (streamValue : Text) : Except RtspRtpInfoError RtspRtpInfoStream :=
  let streamValue := Text.trim streamValue
  if streamValue = [] then .error .emptyStreamEntry else parseStream streamValue

/-- A panic is `none`. -/
def parse (headerValue : Text) : Option (Except RtspRtpInfoError RtspRtpInfo) :=
  let value := Text.trim headerValue
  if value = [] then some (.error .emptyHeader)
  else do
    let entries ← splitRtpInfoStreams value
    some do
      let streams ← entries.mapM parseEntry
      if streams = [] then .error .emptyHeader else .ok { streams }

/-- `Display` for an entry. -/
def displayStream (s : RtspRtpInfoStream) : Text :=
  "url=".toList ++ s.url ++ (s.seq.elim [] fun seq => ";seq=".toList ++ Text.decimal seq) ++
    (s.rtptime.elim [] fun rtptime => ";rtptime=".toList ++ Text.decimal rtptime)

/-- `Display` joins the entries by commas. -/
def display (info : RtspRtpInfo) : Text :=
  List.intercalate [','] (info.streams.map displayStream)

end RtspRtpInfo
end CheetahMedia.Rtsp
