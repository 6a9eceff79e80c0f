import CheetahMedia.Lib.Endian
import CheetahMedia.Lib.Float64
import CheetahMedia.Lib.Reader

namespace CheetahMedia.Rtmp
open Lib

abbrev Bytes := List UInt8

inductive ErrorKind
  | invalidInput
  | invalidData
  | invalidState
  | unsupported
  | insufficientBuffer
deriving DecidableEq

/-- The source location that the code records with an error is not kept. -/
structure Error where
  kind : ErrorKind
  reason : String
deriving DecidableEq

namespace Error

def invalidData (reason : String) : Error := ⟨.invalidData, reason⟩
def invalidState (reason : String) : Error := ⟨.invalidState, reason⟩
def unsupported (reason : String) : Error := ⟨.unsupported, reason⟩
def insufficientBuffer : Error := ⟨.insufficientBuffer, ""⟩

/-- The failures that a longer buffer may cure. -/
def IsShort (e : Error) : Prop := e.kind = .insufficientBuffer

instance (e : Error) : Decidable e.IsShort := inferInstanceAs (Decidable (e.kind = _))

@[simp] theorem isShort_insufficientBuffer : insufficientBuffer.IsShort := rfl

@[simp] theorem not_isShort_invalidData (reason : String) : ¬ (invalidData reason).IsShort := by
  simp [IsShort, invalidData]

end Error

/-- Decoders move a cursor over a slice and keep a record of their own. -/
abbrev BytesReader (σ α : Type) := Reader σ Error UInt8 α

section BytesReader
variable {σ : Type}

def readBytes (len : Nat) : BytesReader σ Bytes := Reader.take .insufficientBuffer len

/-- An unsigned value of `width` bytes in network order. -/
def readUint (width : Nat) : BytesReader σ Nat := do
  let bytes ← readBytes width
  return fromBigEndian bytes

def readU8 : BytesReader σ UInt8 := do return .ofNat (← readUint 1)
def readU16 : BytesReader σ UInt16 := do return .ofNat (← readUint 2)
def readU24 : BytesReader σ UInt32 := do return .ofNat (← readUint 3)
def readU32 : BytesReader σ UInt32 := do return .ofNat (← readUint 4)
def readI32 : BytesReader σ Int32 := do return (← readU32).toInt32
def readF64 : BytesReader σ F64 := do return ⟨.ofNat (← readUint 8)⟩

/-- The sign bit of the first byte fills the missing high byte. -/
def readI24 : BytesReader σ Int32 := do
  let v ← readUint 3
  return (UInt32.ofNat (if v < 0x800000 then v else 0xFF000000 + v)).toInt32

/-- The position of the first bad byte, which the code adds to the text, is not kept. -/
def readUtf8 (len : Nat) : BytesReader σ String := do
  let bytes ← readBytes len
  match String.fromUTF8? ⟨bytes.toArray⟩ with
  | some s => return s
  | none => Reader.fail (.invalidData "invalid UTF-8 bytes")

end BytesReader

def writeU8 (v : UInt8) : Bytes := [v]
def writeU16 (v : UInt16) : Bytes := toBigEndian 2 v.toNat
/-- The lower 24 bits. -/
def writeU24 (v : UInt32) : Bytes := toBigEndian 3 v.toNat
def writeU32 (v : UInt32) : Bytes := toBigEndian 4 v.toNat
def writeI24 (v : Int32) : Bytes := writeU24 v.toUInt32
def writeI32 (v : Int32) : Bytes := writeU32 v.toUInt32
def writeF64 (v : F64) : Bytes := toBigEndian 8 v.bits.toNat

/-- The bytes of a string on the wire. -/
def utf8 (s : String) : Bytes := s.toUTF8.data.toList

/-- Written little endian by swapping before a network-order write. -/
def swapBytes16 (v : UInt16) : UInt16 := .ofNat (swapBytes 2 v.toNat)
def swapBytes32 (v : UInt32) : UInt32 := .ofNat (swapBytes 4 v.toNat)

@[simp] theorem swapBytes16_swapBytes16 (v : UInt16) : swapBytes16 (swapBytes16 v) = v := by
  have hlt : swapBytes 2 v.toNat < 2 ^ 16 := swapBytes_lt 2 v.toNat
  rw [swapBytes16, swapBytes16, UInt16.toNat_ofNat_of_lt' hlt, swapBytes_swapBytes v.toNat_lt,
    UInt16.ofNat_toNat]

@[simp] theorem swapBytes32_swapBytes32 (v : UInt32) : swapBytes32 (swapBytes32 v) = v := by
  have hlt : swapBytes 4 v.toNat < 2 ^ 32 := swapBytes_lt 4 v.toNat
  rw [swapBytes32, swapBytes32, UInt32.toNat_ofNat_of_lt' hlt, swapBytes_swapBytes v.toNat_lt,
    UInt32.ofNat_toNat]

section ReadBack
variable {σ : Type} (rest : Bytes) (s : σ)

theorem readBytes_append (bytes : Bytes) :
    (readBytes bytes.length).run (bytes ++ rest) s = (s, .ok (bytes, rest)) :=
  Reader.take_append _ _ _ _

theorem readUint_toBigEndian_mod (width n : Nat) :
    (readUint width).run (toBigEndian width n ++ rest) s = (s, .ok (n % 256 ^ width, rest)) := by
  have hread := readBytes_append rest s (toBigEndian width n)
  rw [toBigEndian_length] at hread
  unfold readUint
  rw [Reader.bind_ok hread, from_toBigEndian]
  rfl

theorem readUint_toBigEndian (h : n < 256 ^ width) :
    (readUint width).run (toBigEndian width n ++ rest) s = (s, .ok (n, rest)) := by
  rw [readUint_toBigEndian_mod, Nat.mod_eq_of_lt h]

theorem readU8_writeU8 (v : UInt8) : readU8.run (writeU8 v ++ rest) s = (s, .ok (v, rest)) := by
  have hlt : v.toNat < 256 ^ 1 := v.toNat_lt
  have h := readUint_toBigEndian rest s hlt
  have hb : toBigEndian 1 v.toNat = writeU8 v := by simp [toBigEndian, writeU8]
  rw [hb] at h
  unfold readU8
  rw [Reader.bind_ok h, UInt8.ofNat_toNat]
  rfl

theorem readU8_cons (v : UInt8) : readU8.run (v :: rest) s = (s, .ok (v, rest)) :=
  readU8_writeU8 rest s v

theorem readU16_writeU16 (v : UInt16) : readU16.run (writeU16 v ++ rest) s = (s, .ok (v, rest)) := by
  unfold readU16 writeU16
  rw [Reader.bind_ok (readUint_toBigEndian rest s v.toNat_lt), UInt16.ofNat_toNat]
  rfl

theorem readU24_writeU24 (v : UInt32) (h : v.toNat < 2 ^ 24) :
    readU24.run (writeU24 v ++ rest) s = (s, .ok (v, rest)) := by
  unfold readU24 writeU24
  rw [Reader.bind_ok (readUint_toBigEndian rest s h), UInt32.ofNat_toNat]
  rfl

theorem readU32_writeU32 (v : UInt32) : readU32.run (writeU32 v ++ rest) s = (s, .ok (v, rest)) := by
  unfold readU32 writeU32
  rw [Reader.bind_ok (readUint_toBigEndian rest s v.toNat_lt), UInt32.ofNat_toNat]
  rfl

theorem readI32_writeI32 (v : Int32) : readI32.run (writeI32 v ++ rest) s = (s, .ok (v, rest)) := by
  unfold readI32 writeI32
  rw [Reader.bind_ok (readU32_writeU32 rest s v.toUInt32)]
  rfl

theorem readF64_writeF64 (v : F64) : readF64.run (writeF64 v ++ rest) s = (s, .ok (v, rest)) := by
  unfold readF64 writeF64
  rw [Reader.bind_ok (readUint_toBigEndian rest s v.bits.toNat_lt), UInt64.ofNat_toNat]
  rfl

/-- The sign bit that was written is the one that fills the missing byte. -/
theorem readI24_writeI24 (v : Int32) (h : -0x800000 ≤ v.toInt ∧ v.toInt < 0x800000) :
    readI24.run (writeI24 v ++ rest) s = (s, .ok (v, rest)) := by
  have hsign : v.toInt = if 2 * v.toUInt32.toNat < 2 ^ 32 then (v.toUInt32.toNat : Int)
      else (v.toUInt32.toNat : Int) - 2 ^ 32 := BitVec.toInt_eq_toNat_cond v.toBitVec
  have hlt := v.toUInt32.toNat_lt
  have hback : (if v.toUInt32.toNat % 256 ^ 3 < 0x800000 then v.toUInt32.toNat % 256 ^ 3
      else 0xFF000000 + v.toUInt32.toNat % 256 ^ 3) = v.toUInt32.toNat := by
    split at hsign <;> split <;> omega
  unfold readI24 writeI24 writeU24
  rw [Reader.bind_ok (readUint_toBigEndian_mod rest s 3 v.toUInt32.toNat), hback,
    UInt32.ofNat_toNat]
  rfl

/-- A string is its own valid UTF-8, whatever follows it. -/
theorem readUtf8_utf8 (str : String) :
    (readUtf8 (utf8 str).length).run (utf8 str ++ rest) s = (s, .ok (str, rest)) := by
  unfold readUtf8
  rw [Reader.bind_ok (readBytes_append rest s (utf8 str))]
  have h : String.fromUTF8? ⟨(utf8 str).toArray⟩ = some str := by
    have hb : (⟨(utf8 str).toArray⟩ : ByteArray) = str.toByteArray := by simp [utf8]
    rw [hb, String.fromUTF8?, dif_pos str.isValidUTF8]
    rfl
  rw [h]
  rfl

end ReadBack

section Reads
variable {σ : Type}
open Reader

theorem reads_bytes (bytes : Bytes) :
    Reads (readBytes bytes.length : BytesReader σ Bytes) bytes bytes :=
  .of_run (readBytes_append · · bytes)

theorem reads_u8 (v : UInt8) : Reads (readU8 : BytesReader σ UInt8) (writeU8 v) v :=
  .of_run (readU8_writeU8 · · v)

theorem reads_u16 (v : UInt16) : Reads (readU16 : BytesReader σ UInt16) (writeU16 v) v :=
  .of_run (readU16_writeU16 · · v)

theorem reads_u32 (v : UInt32) : Reads (readU32 : BytesReader σ UInt32) (writeU32 v) v :=
  .of_run (readU32_writeU32 · · v)

theorem reads_i32 (v : Int32) : Reads (readI32 : BytesReader σ Int32) (writeI32 v) v :=
  .of_run (readI32_writeI32 · · v)

theorem reads_f64 (v : F64) : Reads (readF64 : BytesReader σ F64) (writeF64 v) v :=
  .of_run (readF64_writeF64 · · v)

theorem reads_utf8 (str : String) :
    Reads (readUtf8 (utf8 str).length : BytesReader σ String) (utf8 str) str :=
  .of_run (readUtf8_utf8 · · str)

/-- A length field of 16 bits, then the string. -/
theorem reads_utf8_u16 (str : String) (h : (utf8 str).length < 2 ^ 16) :
    Reads (do readUtf8 (← readU16).toNat : BytesReader σ String)
      (writeU16 (UInt16.ofNat (utf8 str).length) ++ utf8 str) str := by
  refine (reads_u16 _).bind ?_
  rw [UInt16.toNat_ofNat_of_lt' h]
  exact reads_utf8 str

/-- A length field of 32 bits, then the string. -/
theorem reads_utf8_u32 (str : String) (h : (utf8 str).length < 2 ^ 32) :
    Reads (do readUtf8 (← readU32).toNat : BytesReader σ String)
      (writeU32 (UInt32.ofNat (utf8 str).length) ++ utf8 str) str := by
  refine (reads_u32 _).bind ?_
  rw [UInt32.toNat_ofNat_of_lt' h]
  exact reads_utf8 str

end Reads

section Returns
variable {σ : Type} {Inv : σ → Prop}
open Reader

theorem returns_uint (width : Nat) :
    Returns Inv (readUint width : BytesReader σ Nat) fun _ => True :=
  (Returns.take _ width).map fun _ _ => trivial

theorem returns_u8 : Returns Inv (readU8 : BytesReader σ UInt8) fun _ => True :=
  (returns_uint 1).map fun _ _ => trivial

theorem returns_u16 : Returns Inv (readU16 : BytesReader σ UInt16) fun _ => True :=
  (returns_uint 2).map fun _ _ => trivial

theorem returns_u32 : Returns Inv (readU32 : BytesReader σ UInt32) fun _ => True :=
  (returns_uint 4).map fun _ _ => trivial

theorem returns_i32 : Returns Inv (readI32 : BytesReader σ Int32) fun _ => True :=
  returns_u32.map fun _ _ => trivial

theorem returns_f64 : Returns Inv (readF64 : BytesReader σ F64) fun _ => True :=
  (returns_uint 8).map fun _ _ => trivial

/-- What is decoded from a number of bytes has that many bytes. -/
theorem returns_utf8 (len : Nat) :
    Returns Inv (readUtf8 len : BytesReader σ String) fun s => (utf8 s).length = len := by
  refine (Returns.take _ len).bind fun bytes hlen => ?_
  split
  · rename_i s hs
    apply Returns.pure
    rw [String.fromUTF8?] at hs
    split at hs
    · cases hs
      exact hlen
    · cases hs
  · exact Returns.fail _

end Returns

section Local
variable {σ : Type}

theorem readBytes_local (len : Nat) :
    Reader.Local Error.IsShort (readBytes len : BytesReader σ Bytes) :=
  .take Error.isShort_insufficientBuffer len

theorem readUint_local (width : Nat) :
    Reader.Local Error.IsShort (readUint width : BytesReader σ Nat) :=
  .bind (readBytes_local width) fun _ => .pure _ _

theorem readU8_local : Reader.Local Error.IsShort (readU8 : BytesReader σ UInt8) :=
  .bind (readUint_local 1) fun _ => .pure _ _

theorem readU16_local : Reader.Local Error.IsShort (readU16 : BytesReader σ UInt16) :=
  .bind (readUint_local 2) fun _ => .pure _ _

theorem readU24_local : Reader.Local Error.IsShort (readU24 : BytesReader σ UInt32) :=
  .bind (readUint_local 3) fun _ => .pure _ _

theorem readU32_local : Reader.Local Error.IsShort (readU32 : BytesReader σ UInt32) :=
  .bind (readUint_local 4) fun _ => .pure _ _

end Local

/-- The receive buffer: storage and the offset of the first byte not consumed. -/
structure Buf where
  bytes : Bytes := []
  offset : Nat := 0
  inBounds : offset ≤ bytes.length := by decide

namespace Buf

def empty : Buf := {}

def MAX_SIZE : Nat := 1024 * 1024

def get (b : Buf) : Bytes := b.bytes.drop b.offset

/-- Consumed storage is given up once the buffer is larger than `MAX_SIZE`. -/
def feed (b : Buf) (buf : Bytes) : Buf :=
  let bytes := b.bytes ++ buf
  if 0 < b.offset ∧ bytes.length > MAX_SIZE then
    { bytes := bytes.drop b.offset, offset := 0, inBounds := Nat.zero_le _ }
  else
    { bytes := bytes
      offset := b.offset
      inBounds := by
        have := b.inBounds
        simp only [bytes, List.length_append]
        omega }

/-- Callers never advance past the end; a buffer that is used up is reset. -/
def advance (b : Buf) (n : Nat) : Buf :=
  if h : b.offset + n < b.bytes.length then
    { b with offset := b.offset + n, inBounds := Nat.le_of_lt h }
  else { bytes := [], offset := 0 }

/-- Compaction is invisible: the unread bytes are the old ones and the new ones. -/
@[simp] theorem get_feed (b : Buf) (buf : Bytes) : (b.feed buf).get = b.get ++ buf := by
  have h := b.inBounds
  unfold feed get
  dsimp only
  split
  · simp [List.drop_append_of_le_length h]
  · simp [List.drop_append_of_le_length h]

@[simp] theorem get_advance (b : Buf) (n : Nat) : (b.advance n).get = b.get.drop n := by
  unfold advance get
  split
  · simp [List.drop_drop]
  · rename_i h
    have hlen : b.bytes.length ≤ b.offset + n := by omega
    simp [List.drop_drop, List.drop_eq_nil_of_le hlen]

end Buf

end CheetahMedia.Rtmp
