import CheetahMedia.Rtmp.Amf0.RoundTrip
import CheetahMedia.Rtmp.Amf3.Reencode

namespace CheetahMedia.Rtmp.Amf0
open Lib
open Lib.Reader (Reads Returns times)

/-- The encoder takes the value, and the decoder reads back what it writes. -/
structure Decoded (v : Amf0Value) : Prop where
  encodes : ∃ bytes, encodeValue v = some bytes
  rereads : Rereads v

/-- A name or key that its assertion lets pass. -/
def Sized (s : String) : Prop := (utf8 s).length ≤ 0xFFFF

structure Member (p : Pair String Amf0Value) : Prop where
  key : Sized p.key
  value : Decoded p.value

section Encodes

theorem encodeKey_some (h : Sized s) : ∃ bytes, encodeKey s = some bytes := ⟨_, if_pos h⟩

theorem encodeValues_some (h : ∀ v ∈ values, Decoded v) :
    ∃ bytes, encodeValues values = some bytes := by
  induction values with
  | nil => exact ⟨[], rfl⟩
  | cons v values ih =>
    obtain ⟨hv, hvalues⟩ := List.forall_mem_cons.mp h
    obtain ⟨first, hfirst⟩ := hv.encodes
    obtain ⟨later, hlater⟩ := ih hvalues
    exact ⟨_, by simp only [encodeValues, hfirst, hlater]; rfl⟩

theorem encodePairs_some (h : ∀ p ∈ pairs, Member p) : ∃ bytes, encodePairs pairs = some bytes := by
  induction pairs with
  | nil => exact ⟨_, rfl⟩
  | cons p pairs ih =>
    obtain ⟨hp, hpairs⟩ := List.forall_mem_cons.mp h
    obtain ⟨key, hkey⟩ := encodeKey_some hp.key
    obtain ⟨value, hvalue⟩ := hp.value.encodes
    obtain ⟨later, hlater⟩ := ih hpairs
    exact ⟨_, by simp only [encodePairs, hkey, hvalue, hlater]; rfl⟩

end Encodes

namespace Decoded

theorem number : Decoded (.number n) := ⟨⟨_, rfl⟩, rereads_number⟩

theorem boolean : Decoded (.boolean b) := ⟨⟨_, rfl⟩, rereads_boolean⟩

theorem null : Decoded .null := ⟨⟨_, rfl⟩, rereads_null⟩

theorem undefined : Decoded .undefined := ⟨⟨_, rfl⟩, rereads_undefined⟩

theorem string (h : (utf8 s).length < 2 ^ 32) : Decoded (.string s) :=
  ⟨⟨_, rfl⟩, rereads_string h⟩

theorem xmlDocument (h : (utf8 s).length < 2 ^ 32) : Decoded (.xmlDocument s) :=
  ⟨⟨_, rfl⟩, rereads_xmlDocument h⟩

theorem date (h : F64.Exact t) : Decoded (.date t) := ⟨⟨_, rfl⟩, rereads_date h⟩

theorem avmPlus (h : Amf3.Decoded value) : Decoded (.avmPlus value) := by
  obtain ⟨bytes, hbytes⟩ := h.encodes
  exact ⟨⟨_, by simp only [encodeValue, Amf3Value.encode, hbytes]; rfl⟩,
    rereads_avmPlus h.readsBack⟩

theorem object (hname : ∀ name ∈ className, Sized name) (h : ∀ p ∈ entries, Member p) :
    Decoded (.object className entries) := by
  obtain ⟨pairs, hpairs⟩ := encodePairs_some h
  obtain ⟨header, hheader⟩ : ∃ header, encodeObjectHeader className = some header := by
    cases className with
    | none => exact ⟨_, rfl⟩
    | some name =>
      obtain ⟨bytes, hbytes⟩ := encodeKey_some (hname name rfl)
      exact ⟨_, by simp only [encodeObjectHeader, hbytes]; rfl⟩
  exact ⟨⟨_, by simp only [encodeValue, hheader, hpairs]; rfl⟩,
    rereads_object fun p hp => (h p hp).value.rereads⟩

theorem ecmaArray (h : ∀ p ∈ entries, Member p) : Decoded (.ecmaArray entries) := by
  obtain ⟨pairs, hpairs⟩ := encodePairs_some h
  exact ⟨⟨_, by simp only [encodeValue, hpairs]; rfl⟩,
    rereads_ecmaArray fun p hp => (h p hp).value.rereads⟩

theorem array (hlen : elements.length < 2 ^ 32) (h : ∀ v ∈ elements, Decoded v) :
    Decoded (.array elements) := by
  obtain ⟨values, hvalues⟩ := encodeValues_some h
  exact ⟨⟨_, by simp only [encodeValue, hvalues]; rfl⟩,
    rereads_array hlen fun v hv => (h v hv).rereads⟩

end Decoded

section Returns

/-- The values that a reference may name. -/
def Complexes (d : Decoder) : Prop := ∀ v ∈ d.complexes, Decoded v

theorem returns_shortUtf8 : Returns Complexes decodeShortUtf8 Sized :=
  returns_u16.bind fun len _ => (returns_utf8 len.toNat).mono fun s hs => by
    have hlen := len.toNat_lt
    unfold Sized
    omega

theorem returns_longUtf8 :
    Returns Complexes decodeLongUtf8 fun s => (utf8 s).length < 2 ^ 32 :=
  returns_u32.bind fun len _ => (returns_utf8 len.toNat).mono fun s hs => by
    have hlen := len.toNat_lt
    omega

theorem returns_reference : Returns Complexes decodeReference Decoded := by
  refine returns_u16.bind fun index _ => .get_bind fun d hd => ?_
  cases h : d.complexes[index.toNat]? with
  | none => exact .fail _
  | some v =>
    dsimp only
    split
    · exact .fail _
    · exact .pure (hd v (List.mem_of_getElem? h))

/-- The placeholder of a value under construction is as good as any value. -/
theorem returns_complex {f : Decode Amf0Value} (hf : Returns Complexes f Decoded) :
    Returns Complexes (decodeComplexType f) Decoded := by
  refine .get_bind fun _ _ => .modify_bind (fun d hd v hv => ?_) ?_
  · rcases List.mem_append.mp hv with hv | hv
    · exact hd v hv
    · rw [List.mem_singleton.mp hv]
      exact .null
  · refine hf.bind fun value hvalue => .modify_bind (fun d hd v hv => ?_) (.pure hvalue)
    rcases List.mem_or_eq_of_mem_set hv with hv | rfl
    · exact hd v hv
    · exact hvalue

theorem returns_date : Returns Complexes decodeDate Decoded := by
  refine returns_f64.bind fun millis _ => returns_u16.bind fun _ _ => ?_
  split
  · exact .pure (.date (Amf3.exact_dateOf millis))
  · exact .fail _

section Nested
variable {value : Decode Amf0Value}

theorem returns_pairs (hv : Returns Complexes value Decoded) (fuel : Nat) :
    Returns Complexes (decodePairs value fuel) fun pairs => ∀ p ∈ pairs, Member p := by
  induction fuel with
  | zero => exact .fail _
  | succ fuel ih =>
    refine returns_shortUtf8.bind fun key hkey => .peek_bind fun marker => ?_
    split
    · exact returns_u8.map fun _ _ => by simp
    · exact hv.bind fun v hvalue => ih.map fun pairs hpairs =>
        List.forall_mem_cons.mpr ⟨⟨hkey, hvalue⟩, hpairs⟩

theorem returns_object (hv : Returns Complexes value Decoded) (fuel : Nat) :
    Returns Complexes (decodeObject value fuel) Decoded :=
  (returns_pairs hv fuel).map fun _ h => .object (by simp) h

theorem returns_typedObject (hv : Returns Complexes value Decoded) (fuel : Nat) :
    Returns Complexes (decodeTypedObject value fuel) Decoded :=
  returns_shortUtf8.bind fun name hname => (returns_pairs hv fuel).map fun _ h =>
    .object (by simpa using hname) h

theorem returns_ecmaArray (hv : Returns Complexes value Decoded) (fuel : Nat) :
    Returns Complexes (decodeEcmaArray value fuel) Decoded :=
  returns_u32.bind fun _ _ => (returns_pairs hv fuel).map fun _ h => .ecmaArray h

theorem returns_strictArray (hv : Returns Complexes value Decoded) :
    Returns Complexes (decodeStrictArray value) Decoded :=
  returns_u32.bind fun count _ => (hv.times count.toNat).map fun _ h =>
    .array (by rw [h.1]; exact count.toNat_lt) h.2

theorem returns_marked (hv : Returns Complexes value Decoded) (fuel : Nat) (marker : UInt8) :
    Returns Complexes (decodeMarked value fuel marker) Decoded := by
  unfold decodeMarked
  split
  · exact returns_f64.map fun _ _ => .number
  · exact returns_u8.map fun _ _ => .boolean
  · exact returns_shortUtf8.map fun s hs => .string (Nat.lt_of_le_of_lt hs (by decide))
  · exact returns_complex (returns_object hv fuel)
  · exact .pure .null
  · exact .pure .undefined
  · exact returns_reference
  · exact returns_complex (returns_ecmaArray hv fuel)
  · exact returns_complex (returns_strictArray hv)
  · exact returns_complex returns_date
  · exact returns_longUtf8.map fun _ => .string
  · exact returns_longUtf8.map fun _ => .xmlDocument
  · exact returns_complex (returns_typedObject hv fuel)
  · exact Amf3Value.returns_decode.map fun _ => .avmPlus
  · exact .fail _
  · exact .fail _
  · exact .fail _
  · exact .fail _

end Nested

theorem returns_value (fuel : Nat) : Returns Complexes (decodeValue fuel) Decoded := by
  induction fuel with
  | zero => exact .fail _
  | succ fuel ih => exact returns_u8.bind fun marker _ => returns_marked ih fuel marker

end Returns

end CheetahMedia.Rtmp.Amf0

namespace CheetahMedia.Rtmp
open Lib
open Lib.Reader (Reads Returns)

theorem Amf0Value.returns_decode {Inv : σ → Prop} :
    Returns Inv (Amf0Value.decode : BytesReader σ Amf0Value) Amf0.Decoded := by
  refine .remaining_bind fun len => ?_
  have hnone : Amf0.Complexes {} := by simp [Amf0.Complexes]
  exact ((Amf0.returns_value len).nested hnone fun _ _ hs => hs).map fun _ h => h

/-- A value that was decoded passes every assertion of the encoder, and its encoding is read
back as this value, wherever it stands. -/
theorem Amf0Value.encode_decode
    (h : (Amf0Value.decode : BytesReader Unit Amf0Value).run b () = ((), .ok (v, rest))) :
    ∃ bytes, v.encode = some bytes ∧ ∀ more,
      (Amf0Value.decode : BytesReader Unit Amf0Value).run (bytes ++ more) () =
        ((), .ok (v, more)) := by
  have hreturns : Returns (fun _ => True) (Amf0Value.decode : BytesReader Unit Amf0Value)
      Amf0.Decoded := Amf0Value.returns_decode
  obtain ⟨-, hv⟩ := hreturns b () () v rest trivial h
  obtain ⟨bytes, hbytes⟩ := hv.encodes
  refine ⟨bytes, hbytes, fun more => ?_⟩
  obtain ⟨s, hs⟩ := hv.rereads.reads (σ := Unit) hbytes more ()
  exact hs

/-- An object with an array of a date, the same array by reference, and an AMF3 integer. -/
def sharedArray : Bytes :=
  [0x03, 0, 1, 97, 0x0A, 0, 0, 0, 1, 0x0B, 0x3F, 0xF0, 0, 0, 0, 0, 0, 0, 0, 0,
    0, 1, 98, 0x07, 0, 1, 0, 1, 99, 0x11, 0x04, 5, 0, 0, 0x09]

/-- What the encoder writes for what stands at the front of `b`, and what comes after it. -/
def Amf0Value.reencode (b : Bytes) : Option (Option Bytes × Bytes) :=
  match ((Amf0Value.decode : BytesReader Unit Amf0Value).run b ()).2 with
  | .ok (v, rest) => some (v.encode, rest)
  | .error _ => none

/-- The second array is written in full, as the encoder never refers back. -/
theorem reencode_sharedArray : Amf0Value.reencode sharedArray = some
    (some [0x03, 0, 1, 97, 0x0A, 0, 0, 0, 1, 0x0B, 0x3F, 0xF0, 0, 0, 0, 0, 0, 0, 0, 0,
      0, 1, 98, 0x0A, 0, 0, 0, 1, 0x0B, 0x3F, 0xF0, 0, 0, 0, 0, 0, 0, 0, 0,
      0, 1, 99, 0x11, 0x04, 5, 0, 0, 0x09], []) := by
  decide +kernel

theorem Amf0Value.encode_decode_shared : ∃ v bytes,
    (Amf0Value.decode : BytesReader Unit Amf0Value).run sharedArray () = ((), .ok (v, [])) ∧
    v.encode = some bytes ∧ bytes.length = 48 ∧
    (Amf0Value.decode : BytesReader Unit Amf0Value).run bytes () = ((), .ok (v, [])) := by
  have hsample := reencode_sharedArray
  unfold Amf0Value.reencode at hsample
  match h : (Amf0Value.decode : BytesReader Unit Amf0Value).run sharedArray () with
  | ((), .ok (v, rest)) =>
    rw [h] at hsample
    obtain ⟨hencode, rfl⟩ := Prod.mk.inj (Option.some.inj hsample)
    obtain ⟨bytes, hbytes, hagain⟩ := Amf0Value.encode_decode h
    have hread := hagain []
    rw [List.append_nil] at hread
    refine ⟨v, bytes, rfl, hbytes, ?_, hread⟩
    rw [hbytes] at hencode
    rw [Option.some.inj hencode]
    rfl
  | ((), .error e) =>
    rw [h] at hsample
    cases hsample

end CheetahMedia.Rtmp
