import CheetahMedia.Rtmp.Amf0.RoundTrip

namespace CheetahMedia.Rtmp
open Lib
open Lib.Reader (Reads)

inductive AmfVersion
  | amf0
  | amf3
deriving DecidableEq

inductive AmfValue
  | amf0 (v : Amf0Value)
  | amf3 (v : Amf3Value)

namespace AmfValue

def version : AmfValue → AmfVersion
  | .amf0 _ => .amf0
  | .amf3 _ => .amf3

def decode : AmfVersion → BytesReader σ AmfValue
  | .amf0 => do return .amf0 (← Amf0Value.decode)
  | .amf3 => do return .amf3 (← Amf3Value.decode)

def encode : AmfValue → Option Bytes
  | .amf0 v => v.encode
  | .amf3 v => v.encode

def ofStr : AmfVersion → String → AmfValue
  | .amf0, s => .amf0 (.string s)
  | .amf3, s => .amf3 (.string s)

def ofF64 : AmfVersion → F64 → AmfValue
  | .amf0, n => .amf0 (.number n)
  | .amf3, n => .amf3 (.double n)

def expectStr : AmfValue → Except Error String
  | .amf0 (.string s) => .ok s
  | .amf3 (.string s) => .ok s
  | _ => .error (.invalidData "value is not an AMF string")

def expectNumber : AmfValue → Except Error F64
  | .amf0 (.number n) => .ok n
  | .amf3 (.integer n) => .ok (.ofInt n.toInt)
  | .amf3 (.double n) => .ok n
  | _ => .error (.invalidData "value is not an AMF number")

/-- The last entry with a key is the one that counts. -/
def expectObjectMember (key : String) : AmfValue → Except Error AmfValue
  | .amf0 (.object _ entries) =>
    match entries.reverse.find? (·.key = key) with
    | some pair => .ok (.amf0 pair.value)
    | none => .error (.invalidData s!"missing required key: {key}")
  | .amf3 (.object _ _ entries) =>
    match entries.reverse.find? (·.key = key) with
    | some pair => .ok (.amf3 pair.value)
    | none => .error (.invalidData s!"missing required key: {key}")
  | _ => .error (.invalidData "value is not an AMF object")

def amf0Object (entries : List (String × Amf0Value)) : AmfValue :=
  .amf0 (.object none (entries.map fun (k, v) => ⟨k, v⟩))

def Canonical : AmfValue → Prop
  | .amf0 v => Amf0.Canonical v
  | .amf3 v => Amf3.Canonical v

@[simp] theorem ofStr_version (version : AmfVersion) (s : String) :
    (ofStr version s).version = version := by cases version <;> rfl

@[simp] theorem ofF64_version (version : AmfVersion) (n : F64) :
    (ofF64 version n).version = version := by cases version <;> rfl

@[simp] theorem expectStr_ofStr (version : AmfVersion) (s : String) :
    (ofStr version s).expectStr = .ok s := by cases version <;> rfl

@[simp] theorem expectNumber_ofF64 (version : AmfVersion) (n : F64) :
    (ofF64 version n).expectNumber = .ok n := by cases version <;> rfl

theorem canonical_ofStr (version : AmfVersion) (s : String) : (ofStr version s).Canonical := by
  cases version
  · exact Amf0.Canonical.string
  · exact Amf3.Canonical.string

theorem canonical_ofF64 (version : AmfVersion) (n : F64) : (ofF64 version n).Canonical := by
  cases version
  · exact Amf0.Canonical.number
  · exact Amf3.Canonical.double

theorem reads_encode {v : AmfValue} (h : v.Canonical) (he : v.encode = some bytes)
    (hlen : bytes.length < 2 ^ 32) :
    Reads (decode v.version : BytesReader σ AmfValue) bytes v := by
  cases v with
  | amf0 v => exact (Amf0Value.reads_encode h he hlen).map _
  | amf3 v => exact (Amf3Value.reads_encode h he).map _

end AmfValue

end CheetahMedia.Rtmp
