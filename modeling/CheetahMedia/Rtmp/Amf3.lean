import CheetahMedia.Rtmp.Bytes

namespace CheetahMedia.Rtmp
open Lib

structure Pair (κ υ : Type) where
  key : κ
  value : υ

inductive Amf3Value
  | undefined
  | null
  | boolean (b : Bool)
  | integer (i : Int32)
  | double (d : F64)
  | string (s : String)
  | xmlDocument (s : String)
  | date (unixTimeMs : Int64)
  | array (assocEntries : List (Pair String Amf3Value)) (denseEntries : List Amf3Value)
  /-- The first `sealedCount` entries belong to the class; no name is an anonymous object. -/
  | object (className : Option String) (sealedCount : Nat) (entries : List (Pair String Amf3Value))
  | xml (s : String)
  | byteArray (bytes : Bytes)
  | intVector (isFixed : Bool) (entries : List Int32)
  | uintVector (isFixed : Bool) (entries : List UInt32)
  | doubleVector (isFixed : Bool) (entries : List F64)
  /-- No name means elements of any type. -/
  | objectVector (className : Option String) (isFixed : Bool) (entries : List Amf3Value)
  | dictionary (isWeak : Bool) (entries : List (Pair Amf3Value Amf3Value))

/-- The saturating cast of a date, with zero for both zeros. -/
def dateOf (millis : F64) : Int64 := if millis.isZero then 0 else millis.toI64

namespace Amf3

@[match_pattern] abbrev MARKER_UNDEFINED : UInt8 := 0x00
@[match_pattern] abbrev MARKER_NULL : UInt8 := 0x01
@[match_pattern] abbrev MARKER_FALSE : UInt8 := 0x02
@[match_pattern] abbrev MARKER_TRUE : UInt8 := 0x03
@[match_pattern] abbrev MARKER_INTEGER : UInt8 := 0x04
@[match_pattern] abbrev MARKER_DOUBLE : UInt8 := 0x05
@[match_pattern] abbrev MARKER_STRING : UInt8 := 0x06
@[match_pattern] abbrev MARKER_XML_DOCUMENT : UInt8 := 0x07
@[match_pattern] abbrev MARKER_DATE : UInt8 := 0x08
@[match_pattern] abbrev MARKER_ARRAY : UInt8 := 0x09
@[match_pattern] abbrev MARKER_OBJECT : UInt8 := 0x0A
@[match_pattern] abbrev MARKER_XML : UInt8 := 0x0B
@[match_pattern] abbrev MARKER_BYTE_ARRAY : UInt8 := 0x0C
@[match_pattern] abbrev MARKER_INT_VECTOR : UInt8 := 0x0D
@[match_pattern] abbrev MARKER_UINT_VECTOR : UInt8 := 0x0E
@[match_pattern] abbrev MARKER_DOUBLE_VECTOR : UInt8 := 0x0F
@[match_pattern] abbrev MARKER_OBJECT_VECTOR : UInt8 := 0x10
@[match_pattern] abbrev MARKER_DICTIONARY : UInt8 := 0x11

section Encoder

/-- Seven bits and the mark that more bytes follow. -/
def continued (n : Nat) : UInt8 := .ofNat (0x80 + n % 0x80)

/-- One to four bytes; the last of four carries eight bits. -/
def encodeU29 (u29 : Nat) : Bytes :=
  if u29 < 0x80 then [.ofNat u29]
  else if u29 < 0x4000 then [continued (u29 / 2 ^ 7), .ofNat (u29 % 0x80)]
  else if u29 < 0x200000 then
    [continued (u29 / 2 ^ 14), continued (u29 / 2 ^ 7), .ofNat (u29 % 0x80)]
  else
    [continued (u29 / 2 ^ 22), continued (u29 / 2 ^ 15), continued (u29 / 2 ^ 8),
      .ofNat (u29 % 0x100)]

/-- An encoder gives nothing where the code stops at an assertion. -/
def encodeSize (size : Nat) : Option Bytes :=
  if size < 2 ^ 28 then some (encodeU29 (2 * size + 1)) else none

def encodeUtf8 (s : String) : Option Bytes := do
  let size ← encodeSize (utf8 s).length
  return size ++ utf8 s

def encodeInteger (i : Int32) : Option Bytes :=
  if -2 ^ 28 ≤ i.toInt ∧ i.toInt < 2 ^ 28 then
    let u29 := if 0 ≤ i.toInt then i.toInt else 2 ^ 29 + i.toInt
    some (MARKER_INTEGER :: encodeU29 u29.toNat)
  else none

def encodeDate (unixTimeMs : Int64) : Option Bytes := do
  let size ← encodeSize 0
  return MARKER_DATE :: (size ++ writeF64 (.ofI64 unixTimeMs))

def encodeFlag (flag : Bool) : Bytes := writeU8 (if flag then 1 else 0)

/-- The three vectors of numbers: a size, a flag and the numbers. -/
def encodeVector (marker : UInt8) (write : α → Bytes) (isFixed : Bool) (entries : List α) :
    Option Bytes := do
  let size ← encodeSize entries.length
  return marker :: (size ++ encodeFlag isFixed ++ entries.flatMap write)

def encodeKeys : List (Pair String Amf3Value) → Option Bytes
  | [] => some []
  | pair :: pairs => do
    let key ← encodeUtf8 pair.key
    let keys ← encodeKeys pairs
    return key ++ keys

def encodeTrait (className : Option String) (sealedCount : Nat)
    (entries : List (Pair String Amf3Value)) : Option Bytes := do
  let isDynamic := if sealedCount < entries.length then 1 else 0
  let u28 ← encodeSize (sealedCount * 8 + isDynamic * 4 + 1)
  let name ← encodeUtf8 (className.getD "")
  let keys ← encodeKeys (entries.take sealedCount)
  return u28 ++ name ++ keys

mutual

def encodeValue : Amf3Value → Option Bytes
  | .undefined => some [MARKER_UNDEFINED]
  | .null => some [MARKER_NULL]
  | .boolean b => some [if b then MARKER_TRUE else MARKER_FALSE]
  | .integer i => encodeInteger i
  | .double d => some (MARKER_DOUBLE :: writeF64 d)
  | .string s => do
    let s ← encodeUtf8 s
    return MARKER_STRING :: s
  | .xmlDocument s => do
    let s ← encodeUtf8 s
    return MARKER_XML_DOCUMENT :: s
  | .date unixTimeMs => encodeDate unixTimeMs
  | .array assocEntries denseEntries => do
    let size ← encodeSize denseEntries.length
    let assoc ← encodePairs assocEntries
    let dense ← encodeValues denseEntries
    return MARKER_ARRAY :: (size ++ assoc ++ dense)
  | .object className sealedCount entries => do
    let trait ← encodeTrait className sealedCount entries
    let members ← encodeMembers sealedCount entries
    return MARKER_OBJECT :: (trait ++ members)
  | .xml s => do
    let s ← encodeUtf8 s
    return MARKER_XML :: s
  | .byteArray bytes => do
    let size ← encodeSize bytes.length
    return MARKER_BYTE_ARRAY :: (size ++ bytes)
  | .intVector isFixed entries => encodeVector MARKER_INT_VECTOR writeI32 isFixed entries
  | .uintVector isFixed entries => encodeVector MARKER_UINT_VECTOR writeU32 isFixed entries
  | .doubleVector isFixed entries => encodeVector MARKER_DOUBLE_VECTOR writeF64 isFixed entries
  | .objectVector className isFixed entries => do
    let size ← encodeSize entries.length
    let name ← encodeUtf8 (className.getD "*")
    let values ← encodeValues entries
    return MARKER_OBJECT_VECTOR :: (size ++ encodeFlag isFixed ++ name ++ values)
  | .dictionary isWeak entries => do
    let size ← encodeSize entries.length
    let values ← encodeDictionary entries
    return MARKER_DICTIONARY :: (size ++ encodeFlag isWeak ++ values)

def encodeValues : List Amf3Value → Option Bytes
  | [] => some []
  | value :: values => do
    let value ← encodeValue value
    let values ← encodeValues values
    return value ++ values

/-- An empty key ends the pairs. -/
def encodePairs : List (Pair String Amf3Value) → Option Bytes
  | [] => encodeUtf8 ""
  | ⟨key, value⟩ :: pairs => do
    let key ← encodeUtf8 key
    let value ← encodeValue value
    let pairs ← encodePairs pairs
    return key ++ value ++ pairs

/-- Values of the sealed members, then whole pairs when there are more entries. -/
def encodeMembers : Nat → List (Pair String Amf3Value) → Option Bytes
  | _, [] => some []
  | 0, ⟨key, value⟩ :: pairs => do
    let key ← encodeUtf8 key
    let value ← encodeValue value
    let pairs ← encodePairs pairs
    return key ++ value ++ pairs
  | sealedCount + 1, ⟨_, value⟩ :: pairs => do
    let value ← encodeValue value
    let pairs ← encodeMembers sealedCount pairs
    return value ++ pairs

def encodeDictionary : List (Pair Amf3Value Amf3Value) → Option Bytes
  | [] => some []
  | ⟨key, value⟩ :: pairs => do
    let key ← encodeValue key
    let value ← encodeValue value
    let pairs ← encodeDictionary pairs
    return key ++ value ++ pairs

end

end Encoder

section Decoder

structure Trait where
  className : Option String
  isDynamic : Bool
  fields : List String

/-- Values, strings and traits that a later reference may name. -/
structure Decoder where
  complexes : List Amf3Value := []
  strings : List String := []
  traits : List Trait := []
  decoding : List Nat := []

abbrev Decode (α : Type) := BytesReader Decoder α

inductive SizeOrIndex
  | size (n : Nat)
  | index (n : Nat)

/-- Up to `more` bytes of seven bits, then one of eight. -/
def decodeU29From : Nat → Nat → Decode Nat
  | 0, n => do
    let b ← readU8
    return n * 2 ^ 8 + b.toNat
  | more + 1, n => do
    let b ← readU8
    let n := n * 2 ^ 7 + b.toNat % 0x80
    if b.toNat < 0x80 then return n else decodeU29From more n

def decodeU29 : Decode Nat := decodeU29From 3 0

def decodeSizeOrIndex : Decode SizeOrIndex := do
  let u29 ← decodeU29
  return if u29 % 2 = 0 then .index (u29 / 2) else .size (u29 / 2)

def decodeInteger : Decode Amf3Value := do
  let n ← decodeU29
  return .integer (.ofInt (if n ≥ 2 ^ 28 then (n : Int) - 2 ^ 29 else n))

def decodeUtf8 : Decode String := do
  match ← decodeSizeOrIndex with
  | .size len => do
    let s ← readUtf8 len
    Reader.modify fun d => if s = "" then d else { d with strings := d.strings ++ [s] }
    return s
  | .index idx => do
    let d ← Reader.get
    match d.strings[idx]? with
    | some s => return s
    | none => Reader.fail (.invalidData s!"string reference out of range: {idx}")

/-- A value under construction is on the list of complex values, but no reference
may name it yet. -/
def decodeComplexType (f : Nat → Decode Amf3Value) : Decode Amf3Value := do
  match ← decodeSizeOrIndex with
  | .index idx => do
    let d ← Reader.get
    match d.complexes[idx]? with
    | none => Reader.fail (.invalidData s!"complex reference out of range: {idx}")
    | some value =>
      if idx ∈ d.decoding then Reader.fail (.unsupported s!"circular reference at index: {idx}")
      else return value
  | .size len => do
    let d ← Reader.get
    let idx := d.complexes.length
    Reader.modify fun d =>
      { d with complexes := d.complexes ++ [.null], decoding := idx :: d.decoding }
    let value ← f len
    Reader.modify fun d =>
      { d with complexes := d.complexes.set idx value, decoding := d.decoding.filter (· ≠ idx) }
    return value

def decodeDate (_len : Nat) : Decode Amf3Value := do
  let millis ← readF64
  if millis.isFinite then return .date (dateOf millis)
  else Reader.fail (.invalidData s!"invalid date millis: {millis.nonFiniteText}")

def decodeTrait (u28 : Nat) : Decode Trait :=
  if u28 % 2 = 0 then do
    let d ← Reader.get
    match d.traits[u28 / 2]? with
    | some trait => return trait
    | none => Reader.fail (.invalidData s!"trait reference out of range: {u28 / 2}")
  else if u28 / 2 % 2 ≠ 0 then Reader.fail (.unsupported "externalizable types not supported")
  else do
    let className ← decodeUtf8
    let fields ← Reader.times decodeUtf8 (u28 / 8)
    let trait : Trait :=
      { className := if className = "" then none else some className
        isDynamic := u28 / 4 % 2 ≠ 0
        fields := fields }
    Reader.modify fun d => { d with traits := d.traits ++ [trait] }
    return trait

section Nested
variable (value : Decode Amf3Value)

/-- Every pair takes input, so the length of the buffer bounds their number. -/
def decodePairs : Nat → Decode (List (Pair String Amf3Value))
  | 0 => Reader.fail .insufficientBuffer
  | fuel + 1 => do
    let key ← decodeUtf8
    if key = "" then return []
    else do
      let v ← value
      let pairs ← decodePairs fuel
      return ⟨key, v⟩ :: pairs

def decodeFields : List String → Decode (List (Pair String Amf3Value))
  | [] => return []
  | key :: keys => do
    let v ← value
    let pairs ← decodeFields keys
    return ⟨key, v⟩ :: pairs

def decodeDynamic (fuel : Nat) (isDynamic : Bool) : Decode (List (Pair String Amf3Value)) :=
  if isDynamic then decodePairs value fuel else return []

def decodeArray (fuel count : Nat) : Decode Amf3Value := do
  let assocEntries ← decodePairs value fuel
  let denseEntries ← Reader.times value count
  return .array assocEntries denseEntries

def decodeObject (fuel u28 : Nat) : Decode Amf3Value := do
  let trait ← decodeTrait u28
  let entries ← decodeFields value trait.fields
  let dynamic ← decodeDynamic value fuel trait.isDynamic
  return .object trait.className trait.fields.length (entries ++ dynamic)

def decodeXmlDocument (len : Nat) : Decode Amf3Value := do return .xmlDocument (← readUtf8 len)
def decodeXml (len : Nat) : Decode Amf3Value := do return .xml (← readUtf8 len)
def decodeByteArray (len : Nat) : Decode Amf3Value := do return .byteArray (← readBytes len)

def decodeVector (read : Decode α) (make : Bool → List α → Amf3Value) (count : Nat) :
    Decode Amf3Value := do
  let isFixed ← readU8
  let entries ← Reader.times read count
  return make (isFixed ≠ 0) entries

def decodeObjectVector (count : Nat) : Decode Amf3Value := do
  let isFixed ← readU8
  let className ← decodeUtf8
  let entries ← Reader.times value count
  return .objectVector (if className = "*" then none else some className) (isFixed ≠ 0) entries

def decodePair : Decode (Pair Amf3Value Amf3Value) := do
  let k ← value
  let v ← value
  return ⟨k, v⟩

def decodeDictionary (count : Nat) : Decode Amf3Value := do
  let isWeak ← readU8
  let entries ← Reader.times (decodePair value) count
  return .dictionary (isWeak = 1) entries

end Nested

/-- What follows a marker, with `value` for the nested values. -/
def decodeMarked (value : Decode Amf3Value) (fuel : Nat) : UInt8 → Decode Amf3Value
  | MARKER_UNDEFINED => return .undefined
  | MARKER_NULL => return .null
  | MARKER_FALSE => return .boolean false
  | MARKER_TRUE => return .boolean true
  | MARKER_INTEGER => decodeInteger
  | MARKER_DOUBLE => do return .double (← readF64)
  | MARKER_STRING => do return .string (← decodeUtf8)
  | MARKER_XML_DOCUMENT => decodeComplexType decodeXmlDocument
  | MARKER_DATE => decodeComplexType decodeDate
  | MARKER_ARRAY => decodeComplexType (decodeArray value fuel)
  | MARKER_OBJECT => decodeComplexType (decodeObject value fuel)
  | MARKER_XML => decodeComplexType decodeXml
  | MARKER_BYTE_ARRAY => decodeComplexType decodeByteArray
  | MARKER_INT_VECTOR => decodeComplexType (decodeVector readI32 .intVector)
  | MARKER_UINT_VECTOR => decodeComplexType (decodeVector readU32 .uintVector)
  | MARKER_DOUBLE_VECTOR => decodeComplexType (decodeVector readF64 .doubleVector)
  | MARKER_OBJECT_VECTOR => decodeComplexType (decodeObjectVector value)
  | MARKER_DICTIONARY => decodeComplexType (decodeDictionary value)
  | marker => Reader.fail (.invalidData s!"unknown AMF3 marker: {marker}")

/-- Nested values start after the marker of the outer one, so the length of the
buffer bounds the depth: out of fuel there is no marker left to read. -/
def decodeValue : Nat → Decode Amf3Value
  | 0 => Reader.fail .insufficientBuffer
  | fuel + 1 => do
    let marker ← readU8
    decodeMarked (decodeValue fuel) fuel marker

end Decoder

end Amf3

/-- Decode one value with reference tables of its own. -/
def Amf3Value.decode : BytesReader σ Amf3Value := do
  let len ← Reader.remaining
  let result ← Reader.nested {} (fun _ s => s) (Amf3.decodeValue len)
  return result.1

def Amf3Value.encode (v : Amf3Value) : Option Bytes := Amf3.encodeValue v

end CheetahMedia.Rtmp
