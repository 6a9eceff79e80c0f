import CheetahMedia.Rtmp.Amf3

namespace CheetahMedia.Rtmp
open Lib

inductive Amf0Value
  | number (n : F64)
  | boolean (b : Bool)
  | string (s : String)
  /-- No name is an anonymous object. -/
  | object (className : Option String) (entries : List (Pair String Amf0Value))
  | null
  | undefined
  | ecmaArray (entries : List (Pair String Amf0Value))
  | array (entries : List Amf0Value)
  | date (unixTimeMs : Int64)
  | xmlDocument (s : String)
  | avmPlus (value : Amf3Value)

namespace Amf0

@[match_pattern] abbrev MARKER_NUMBER : UInt8 := 0x00
@[match_pattern] abbrev MARKER_BOOLEAN : UInt8 := 0x01
@[match_pattern] abbrev MARKER_STRING : UInt8 := 0x02
@[match_pattern] abbrev MARKER_OBJECT : UInt8 := 0x03
@[match_pattern] abbrev MARKER_MOVIECLIP : UInt8 := 0x04
@[match_pattern] abbrev MARKER_NULL : UInt8 := 0x05
@[match_pattern] abbrev MARKER_UNDEFINED : UInt8 := 0x06
@[match_pattern] abbrev MARKER_REFERENCE : UInt8 := 0x07
@[match_pattern] abbrev MARKER_ECMA_ARRAY : UInt8 := 0x08
@[match_pattern] abbrev MARKER_OBJECT_END_MARKER : UInt8 := 0x09
@[match_pattern] abbrev MARKER_STRICT_ARRAY : UInt8 := 0x0A
@[match_pattern] abbrev MARKER_DATE : UInt8 := 0x0B
@[match_pattern] abbrev MARKER_LONG_STRING : UInt8 := 0x0C
@[match_pattern] abbrev MARKER_UNSUPPORTED : UInt8 := 0x0D
@[match_pattern] abbrev MARKER_RECORDSET : UInt8 := 0x0E
@[match_pattern] abbrev MARKER_XML_DOCUMENT : UInt8 := 0x0F
@[match_pattern] abbrev MARKER_TYPED_OBJECT : UInt8 := 0x10
@[match_pattern] abbrev MARKER_AVMPLUS_OBJECT : UInt8 := 0x11

section Encoder

def encodeString (s : String) : Bytes :=
  let len := (utf8 s).length
  if len ≤ 0xFFFF then MARKER_STRING :: (writeU16 (.ofNat len) ++ utf8 s)
  else MARKER_LONG_STRING :: (writeU32 (.ofNat len) ++ utf8 s)

def encodeXmlDocument (xml : String) : Bytes :=
  MARKER_XML_DOCUMENT :: (writeU32 (.ofNat (utf8 xml).length) ++ utf8 xml)

def encodeDate (unixTimeMs : Int64) : Bytes :=
  MARKER_DATE :: (writeF64 (.ofI64 unixTimeMs) ++ writeU16 0)

/-- Names and keys have a length field of 16 bits, which an assertion guards. -/
def encodeKey (key : String) : Option Bytes :=
  let len := (utf8 key).length
  if len ≤ 0xFFFF then some (writeU16 (.ofNat len) ++ utf8 key) else none

def encodeObjectHeader : Option String → Option Bytes
  | some className => do
    let name ← encodeKey className
    return MARKER_TYPED_OBJECT :: name
  | none => some [MARKER_OBJECT]

mutual

/-- The addresses of the parts of one value differ, so the encoder, which compares
addresses, never writes a reference. -/
def encodeValue : Amf0Value → Option Bytes
  | .object className entries => do
    let header ← encodeObjectHeader className
    let pairs ← encodePairs entries
    return header ++ pairs
  | .ecmaArray entries => do
    let pairs ← encodePairs entries
    return MARKER_ECMA_ARRAY :: (writeU32 (.ofNat entries.length) ++ pairs)
  | .array entries => do
    let values ← encodeValues entries
    return MARKER_STRICT_ARRAY :: (writeU32 (.ofNat entries.length) ++ values)
  | .date unixTimeMs => some (encodeDate unixTimeMs)
  | .number n => some (MARKER_NUMBER :: writeF64 n)
  | .boolean b => some [MARKER_BOOLEAN, if b then 1 else 0]
  | .string s => some (encodeString s)
  | .null => some [MARKER_NULL]
  | .undefined => some [MARKER_UNDEFINED]
  | .xmlDocument xml => some (encodeXmlDocument xml)
  | .avmPlus value => do
    let bytes ← value.encode
    return MARKER_AVMPLUS_OBJECT :: bytes

def encodeValues : List Amf0Value → Option Bytes
  | [] => some []
  | value :: values => do
    let value ← encodeValue value
    let values ← encodeValues values
    return value ++ values

/-- An empty key and the end marker close the pairs. -/
def encodePairs : List (Pair String Amf0Value) → Option Bytes
  | [] => some (writeU16 0 ++ [MARKER_OBJECT_END_MARKER])
  | ⟨key, value⟩ :: pairs => do
    let key ← encodeKey key
    let value ← encodeValue value
    let pairs ← encodePairs pairs
    return key ++ value ++ pairs

end

end Encoder

section Decoder

structure Decoder where
  complexes : List Amf0Value := []
  decoding : List Nat := []

abbrev Decode (α : Type) := BytesReader Decoder α

def decodeReference : Decode Amf0Value := do
  let index := (← readU16).toNat
  let d ← Reader.get
  match d.complexes[index]? with
  | none => Reader.fail (.invalidData s!"reference index out of range: {index}")
  | some v =>
    if index ∈ d.decoding then Reader.fail (.unsupported s!"circular reference at index {index}")
    else return v

def decodeComplexType (f : Decode Amf0Value) : Decode Amf0Value := do
  let d ← Reader.get
  let index := d.complexes.length
  Reader.modify fun d =>
    { complexes := d.complexes ++ [.null], decoding := index :: d.decoding }
  let value ← f
  Reader.modify fun d =>
    { complexes := d.complexes.set index value, decoding := d.decoding.filter (· ≠ index) }
  return value

def decodeDate : Decode Amf0Value := do
  let millis ← readF64
  let _timeZone ← readU16
  if millis.isFinite then return .date (dateOf millis)
  else
    Reader.fail (.invalidData s!"invalid date: millis must be finite, got {millis.nonFiniteText}")

def decodeShortUtf8 : Decode String := do readUtf8 (← readU16).toNat
def decodeLongUtf8 : Decode String := do readUtf8 (← readU32).toNat

section Nested
variable (value : Decode Amf0Value)

/-- The end marker closes the pairs whatever key stands before it. Every pair takes
input, so the length of the buffer bounds their number. -/
def decodePairs : Nat → Decode (List (Pair String Amf0Value))
  | 0 => Reader.fail .insufficientBuffer
  | fuel + 1 => do
    let key ← decodeShortUtf8
    let marker ← Reader.peek
    if marker = some MARKER_OBJECT_END_MARKER then do
      let _end ← readU8
      return []
    else do
      let v ← value
      let pairs ← decodePairs fuel
      return ⟨key, v⟩ :: pairs

def decodeObject (fuel : Nat) : Decode Amf0Value := do
  let entries ← decodePairs value fuel
  return .object none entries

def decodeTypedObject (fuel : Nat) : Decode Amf0Value := do
  let className ← decodeShortUtf8
  let entries ← decodePairs value fuel
  return .object (some className) entries

def decodeEcmaArray (fuel : Nat) : Decode Amf0Value := do
  let _count ← readU32
  let entries ← decodePairs value fuel
  return .ecmaArray entries

def decodeStrictArray : Decode Amf0Value := do
  let count ← readU32
  let entries ← Reader.times value count.toNat
  return .array entries

def decodeMarked (fuel : Nat) : UInt8 → Decode Amf0Value
  | MARKER_NUMBER => do return .number (← readF64)
  | MARKER_BOOLEAN => do return .boolean ((← readU8) ≠ 0)
  | MARKER_STRING => do return .string (← decodeShortUtf8)
  | MARKER_OBJECT => decodeComplexType (decodeObject value fuel)
  | MARKER_NULL => return .null
  | MARKER_UNDEFINED => return .undefined
  | MARKER_REFERENCE => decodeReference
  | MARKER_ECMA_ARRAY => decodeComplexType (decodeEcmaArray value fuel)
  | MARKER_STRICT_ARRAY => decodeComplexType (decodeStrictArray value)
  | MARKER_DATE => decodeComplexType decodeDate
  | MARKER_LONG_STRING => do return .string (← decodeLongUtf8)
  | MARKER_XML_DOCUMENT => do return .xmlDocument (← decodeLongUtf8)
  | MARKER_TYPED_OBJECT => decodeComplexType (decodeTypedObject value fuel)
  | MARKER_AVMPLUS_OBJECT => do return .avmPlus (← Amf3Value.decode)
  | MARKER_MOVIECLIP => Reader.fail (.unsupported s!"unsupported AMF0 marker {MARKER_MOVIECLIP}")
  | MARKER_RECORDSET => Reader.fail (.unsupported s!"unsupported AMF0 marker {MARKER_RECORDSET}")
  | MARKER_UNSUPPORTED =>
    Reader.fail (.unsupported s!"unsupported AMF0 marker {MARKER_UNSUPPORTED}")
  | marker => Reader.fail (.invalidData s!"unexpected AMF0 marker {marker}")

end Nested

/-- As for AMF3, the length of the buffer bounds the depth. -/
def decodeValue : Nat → Decode Amf0Value
  | 0 => Reader.fail .insufficientBuffer
  | fuel + 1 => do
    let marker ← readU8
    decodeMarked (decodeValue fuel) fuel marker

end Decoder

end Amf0

def Amf0Value.decode : BytesReader σ Amf0Value := do
  let len ← Reader.remaining
  let result ← Reader.nested {} (fun _ s => s) (Amf0.decodeValue len)
  return result.1

def Amf0Value.encode (v : Amf0Value) : Option Bytes := Amf0.encodeValue v

end CheetahMedia.Rtmp
