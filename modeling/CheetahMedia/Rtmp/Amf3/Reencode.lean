import CheetahMedia.Rtmp.Amf3.RoundTrip

namespace CheetahMedia.Rtmp.Amf3
open Lib
open Lib.Reader (Reads Returns times)

/-- The encoder takes the value, and the decoder reads back what it writes. -/
structure Decoded (v : Amf3Value) : Prop where
  encodes : ∃ bytes, encodeValue v = some bytes
  readsBack : ReadsBack v

/-- The length field of the string holds its length. -/
def Sized (s : String) : Prop := ∃ bytes, encodeUtf8 s = some bytes

section Encodes

theorem encodeSize_some (h : n < 2 ^ 28) : ∃ bytes, encodeSize n = some bytes := ⟨_, if_pos h⟩

theorem sized_of_length (h : (utf8 s).length < 2 ^ 28) : Sized s := by
  obtain ⟨size, hsize⟩ := encodeSize_some h
  exact ⟨_, by simp only [encodeUtf8, hsize]; rfl⟩

theorem encodeValues_some (h : ∀ v ∈ values, Decoded v) :
    ∃ bytes, encodeValues values = some bytes := by
  induction values with
  | nil => exact ⟨[], rfl⟩
  | cons v values ih =>
    obtain ⟨hv, hvalues⟩ := List.forall_mem_cons.mp h
    obtain ⟨first, hfirst⟩ := hv.encodes
    obtain ⟨later, hlater⟩ := ih hvalues
    exact ⟨_, by simp only [encodeValues, hfirst, hlater]; rfl⟩

/-- An entry whose key has a length that fits. -/
structure Member (p : Pair String Amf3Value) : Prop where
  key : Sized p.key
  value : Decoded p.value

theorem encodePairs_some (h : ∀ p ∈ pairs, Member p) : ∃ bytes, encodePairs pairs = some bytes := by
  induction pairs with
  | nil => exact sized_of_length (by decide)
  | cons p pairs ih =>
    obtain ⟨hp, hpairs⟩ := List.forall_mem_cons.mp h
    obtain ⟨key, hkey⟩ := hp.key
    obtain ⟨value, hvalue⟩ := hp.value.encodes
    obtain ⟨later, hlater⟩ := ih hpairs
    exact ⟨_, by simp only [encodePairs, hkey, hvalue, hlater]; rfl⟩

theorem encodeMembers_some (sealedCount : Nat) (h : ∀ p ∈ entries, Member p) :
    ∃ bytes, encodeMembers sealedCount entries = some bytes := by
  induction entries generalizing sealedCount with
  | nil => exact ⟨[], by cases sealedCount <;> rfl⟩
  | cons p entries ih =>
    obtain ⟨hp, hentries⟩ := List.forall_mem_cons.mp h
    obtain ⟨value, hvalue⟩ := hp.value.encodes
    cases sealedCount with
    | zero =>
      obtain ⟨key, hkey⟩ := hp.key
      obtain ⟨later, hlater⟩ := encodePairs_some hentries
      exact ⟨_, by simp only [encodeMembers, hkey, hvalue, hlater]; rfl⟩
    | succ sealedCount =>
      obtain ⟨later, hlater⟩ := ih sealedCount hentries
      exact ⟨_, by simp only [encodeMembers, hvalue, hlater]; rfl⟩

theorem encodeKeys_some (h : ∀ p ∈ pairs, Sized p.key) : ∃ bytes, encodeKeys pairs = some bytes := by
  induction pairs with
  | nil => exact ⟨[], rfl⟩
  | cons p pairs ih =>
    obtain ⟨hp, hpairs⟩ := List.forall_mem_cons.mp h
    obtain ⟨key, hkey⟩ := hp
    obtain ⟨later, hlater⟩ := ih hpairs
    exact ⟨_, by simp only [encodeKeys, hkey, hlater]; rfl⟩

theorem encodeDictionary_some (h : ∀ p ∈ pairs, Decoded p.key ∧ Decoded p.value) :
    ∃ bytes, encodeDictionary pairs = some bytes := by
  induction pairs with
  | nil => exact ⟨[], rfl⟩
  | cons p pairs ih =>
    obtain ⟨⟨hkey, hvalue⟩, hpairs⟩ := List.forall_mem_cons.mp h
    obtain ⟨key, hkey⟩ := hkey.encodes
    obtain ⟨value, hvalue⟩ := hvalue.encodes
    obtain ⟨later, hlater⟩ := ih hpairs
    exact ⟨_, by simp only [encodeDictionary, hkey, hvalue, hlater]; rfl⟩

end Encodes

namespace Decoded

theorem undefined : Decoded .undefined := ⟨⟨_, rfl⟩, Amf3.readsBack .undefined⟩

theorem null : Decoded .null := ⟨⟨_, rfl⟩, Amf3.readsBack .null⟩

theorem boolean : Decoded (.boolean b) := ⟨⟨_, rfl⟩, Amf3.readsBack .boolean⟩

theorem integer (h : -2 ^ 28 ≤ i.toInt ∧ i.toInt < 2 ^ 28) : Decoded (.integer i) :=
  ⟨⟨_, if_pos h⟩, Amf3.readsBack .integer⟩

theorem double : Decoded (.double d) := ⟨⟨_, rfl⟩, Amf3.readsBack .double⟩

theorem string (h : Sized s) : Decoded (.string s) := by
  obtain ⟨bytes, hbytes⟩ := h
  exact ⟨⟨_, by simp only [encodeValue, hbytes]; rfl⟩, Amf3.readsBack .string⟩

theorem xmlDocument (h : Sized s) : Decoded (.xmlDocument s) := by
  obtain ⟨bytes, hbytes⟩ := h
  exact ⟨⟨_, by simp only [encodeValue, hbytes]; rfl⟩, Amf3.readsBack .xmlDocument⟩

theorem xml (h : Sized s) : Decoded (.xml s) := by
  obtain ⟨bytes, hbytes⟩ := h
  exact ⟨⟨_, by simp only [encodeValue, hbytes]; rfl⟩, Amf3.readsBack .xml⟩

theorem date (h : F64.Exact t) : Decoded (.date t) := by
  obtain ⟨size, hsize⟩ := encodeSize_some (n := 0) (by decide)
  exact ⟨⟨_, by simp only [encodeValue, encodeDate, hsize]; rfl⟩, Amf3.readsBack (.date h)⟩

theorem byteArray (h : bytes.length < 2 ^ 28) : Decoded (.byteArray bytes) := by
  obtain ⟨size, hsize⟩ := encodeSize_some h
  exact ⟨⟨_, by simp only [encodeValue, hsize]; rfl⟩, Amf3.readsBack .byteArray⟩

theorem encodeVector_some {entries : List α} (marker : UInt8) (write : α → Bytes) (isFixed : Bool)
    (h : entries.length < 2 ^ 28) :
    ∃ bytes, encodeVector marker write isFixed entries = some bytes := by
  obtain ⟨size, hsize⟩ := encodeSize_some h
  exact ⟨_, by simp only [encodeVector, hsize]; rfl⟩

theorem intVector (h : entries.length < 2 ^ 28) : Decoded (.intVector isFixed entries) :=
  ⟨encodeVector_some _ _ _ h, Amf3.readsBack .intVector⟩

theorem uintVector (h : entries.length < 2 ^ 28) : Decoded (.uintVector isFixed entries) :=
  ⟨encodeVector_some _ _ _ h, Amf3.readsBack .uintVector⟩

theorem doubleVector (h : entries.length < 2 ^ 28) : Decoded (.doubleVector isFixed entries) :=
  ⟨encodeVector_some _ _ _ h, Amf3.readsBack .doubleVector⟩

theorem array (hlen : denseEntries.length < 2 ^ 28)
    (hassoc : ∀ p ∈ assocEntries, p.key ≠ "" ∧ Member p) (hdense : ∀ v ∈ denseEntries, Decoded v) :
    Decoded (.array assocEntries denseEntries) := by
  obtain ⟨size, hsize⟩ := encodeSize_some hlen
  obtain ⟨assoc, ha⟩ := encodePairs_some fun p hp => (hassoc p hp).2
  obtain ⟨dense, hd⟩ := encodeValues_some hdense
  exact ⟨⟨_, by simp only [encodeValue, hsize, ha, hd]; rfl⟩,
    readsBack_array (fun p hp => (hassoc p hp).1) (fun p hp => (hassoc p hp).2.value.readsBack)
      fun v hv => (hdense v hv).readsBack⟩

theorem objectVector (hname : className ≠ some "*") (hsized : Sized (className.getD "*"))
    (hlen : elements.length < 2 ^ 28) (h : ∀ v ∈ elements, Decoded v) :
    Decoded (.objectVector className isFixed elements) := by
  obtain ⟨size, hsize⟩ := encodeSize_some hlen
  obtain ⟨name, hn⟩ := hsized
  obtain ⟨values, hv⟩ := encodeValues_some h
  exact ⟨⟨_, by simp only [encodeValue, hsize, hn, hv]; rfl⟩,
    readsBack_objectVector hname fun v hv => (h v hv).readsBack⟩

theorem dictionary (hlen : entries.length < 2 ^ 28)
    (h : ∀ p ∈ entries, Decoded p.key ∧ Decoded p.value) :
    Decoded (.dictionary isWeak entries) := by
  obtain ⟨size, hsize⟩ := encodeSize_some hlen
  obtain ⟨values, hv⟩ := encodeDictionary_some h
  exact ⟨⟨_, by simp only [encodeValue, hsize, hv]; rfl⟩,
    readsBack_dictionary (fun p hp => (h p hp).1.readsBack) fun p hp => (h p hp).2.readsBack⟩

/-- The number of sealed members takes what is left of a size after three flags. -/
theorem object (hname : className ≠ some "") (hsized : Sized (className.getD ""))
    (hsealed : sealedCount < 2 ^ 25) (hcount : sealedCount ≤ entries.length)
    (hmembers : ∀ p ∈ entries, Member p) (hkeys : ∀ p ∈ entries.drop sealedCount, p.key ≠ "") :
    Decoded (.object className sealedCount entries) := by
  have hu28 : sealedCount * 8 + (if sealedCount < entries.length then 1 else 0) * 4 + 1 < 2 ^ 28 := by
    split <;> omega
  obtain ⟨u28, hu⟩ := encodeSize_some hu28
  obtain ⟨name, hn⟩ := hsized
  have hsized : ∀ p ∈ entries.take sealedCount, Sized p.key :=
    fun p hp => (hmembers p (List.mem_of_mem_take hp)).key
  obtain ⟨keys, hk⟩ := encodeKeys_some hsized
  obtain ⟨members, hm⟩ := encodeMembers_some sealedCount hmembers
  have htrait : encodeTrait className sealedCount entries = some (u28 ++ name ++ keys) := by
    simp only [encodeTrait, hu, hn, hk]
    rfl
  exact ⟨⟨_, by simp only [encodeValue, htrait, hm]; rfl⟩,
    readsBack_object hname hcount hkeys fun p hp => (hmembers p hp).value.readsBack⟩

end Decoded

section Returns

/-- What the decoder keeps for later references. -/
structure TraitSized (t : Trait) : Prop where
  named : t.className ≠ some ""
  name : Sized (t.className.getD "")
  fields : ∀ f ∈ t.fields, Sized f
  count : t.fields.length < 2 ^ 25

structure Tables (d : Decoder) : Prop where
  complexes : ∀ v ∈ d.complexes, Decoded v
  strings : ∀ s ∈ d.strings, Sized s
  traits : ∀ t ∈ d.traits, TraitSized t

/-- Each byte but the last of four adds seven bits. -/
theorem returns_u29From (h : n < 2 ^ k) :
    Returns Tables (decodeU29From more n) (· < 2 ^ (k + 7 * more + 8)) := by
  induction more generalizing n k with
  | zero =>
    refine returns_u8.map fun b _ => ?_
    have hb := b.toNat_lt
    rw [Nat.mul_zero, Nat.add_zero, Nat.pow_add]
    omega
  | succ more ih =>
    refine returns_u8.bind fun b _ => ?_
    have hn : n * 2 ^ 7 + b.toNat % 0x80 < 2 ^ (k + 7) := by
      rw [Nat.pow_add]
      omega
    dsimp only
    split
    · exact .pure (Nat.lt_of_lt_of_le hn (Nat.pow_le_pow_right (by decide) (by omega)))
    · exact (ih hn).mono fun u hu => by
        rwa [show k + 7 * (more + 1) + 8 = k + 7 + 7 * more + 8 by omega]

theorem returns_u29 : Returns Tables decodeU29 (· < 2 ^ 29) := returns_u29From (k := 0) (by decide)

theorem returns_sizeOrIndex :
    Returns Tables decodeSizeOrIndex fun r => ∀ n, r = .size n → n < 2 ^ 28 := by
  refine returns_u29.map fun u29 hu n hn => ?_
  split at hn
  · cases hn
  · cases hn
    omega

theorem returns_sized : Returns Tables decodeUtf8 Sized := by
  refine returns_sizeOrIndex.bind fun r hr => ?_
  cases r with
  | size len =>
    have hlen := hr len rfl
    refine (returns_utf8 len).bind fun s hs => ?_
    have hsized : Sized s := sized_of_length (by omega)
    refine .modify_bind (fun d hd => ?_) (.pure hsized)
    split
    · exact hd
    · refine ⟨hd.complexes, fun t ht => ?_, hd.traits⟩
      rcases List.mem_append.mp ht with ht | ht
      · exact hd.strings t ht
      · rw [List.mem_singleton.mp ht]
        exact hsized
  | index idx =>
    refine .get_bind fun d hd => ?_
    cases h : d.strings[idx]? with
    | none => exact .fail _
    | some s => exact .pure (hd.strings s (List.mem_of_getElem? h))

/-- The placeholder of a value under construction is as good as any value. -/
theorem returns_complex {f : Nat → Decode Amf3Value}
    (hf : ∀ len, len < 2 ^ 28 → Returns Tables (f len) Decoded) :
    Returns Tables (decodeComplexType f) Decoded := by
  refine returns_sizeOrIndex.bind fun r hr => ?_
  cases r with
  | index idx =>
    refine .get_bind fun d hd => ?_
    cases h : d.complexes[idx]? with
    | none => exact .fail _
    | some v =>
      dsimp only
      split
      · exact .fail _
      · exact .pure (hd.complexes v (List.mem_of_getElem? h))
  | size len =>
    refine .get_bind fun _ _ => .modify_bind (fun d hd => ?_) ?_
    · refine ⟨fun v hv => ?_, hd.strings, hd.traits⟩
      rcases List.mem_append.mp hv with hv | hv
      · exact hd.complexes v hv
      · rw [List.mem_singleton.mp hv]
        exact .null
    · refine (hf len (hr len rfl)).bind fun value hvalue =>
        .modify_bind (fun d hd => ?_) (.pure hvalue)
      refine ⟨fun v hv => ?_, hd.strings, hd.traits⟩
      rcases List.mem_or_eq_of_mem_set hv with hv | rfl
      · exact hd.complexes v hv
      · exact hvalue

theorem returns_trait (h : u28 < 2 ^ 28) : Returns Tables (decodeTrait u28) TraitSized := by
  unfold decodeTrait
  split
  · refine .get_bind fun d hd => ?_
    cases ht : d.traits[u28 / 2]? with
    | none => exact .fail _
    | some t => exact .pure (hd.traits t (List.mem_of_getElem? ht))
  · split
    · exact .fail _
    · refine returns_sized.bind fun className hname =>
        (returns_sized.times _).bind fun fields hf => ?_
      have htrait : TraitSized
          { className := if className = "" then none else some className
            isDynamic := u28 / 4 % 2 ≠ 0
            fields := fields } := by
        refine ⟨?_, ?_, hf.2, ?_⟩
        · dsimp only
          split <;> simp_all
        · dsimp only
          split <;> simp_all
        · rw [hf.1]
          omega
      refine .modify_bind (fun d hd => ⟨hd.complexes, hd.strings, fun t ht => ?_⟩) (.pure htrait)
      rcases List.mem_append.mp ht with ht | ht
      · exact hd.traits t ht
      · rw [List.mem_singleton.mp ht]
        exact htrait

section Nested
variable {value : Decode Amf3Value}

theorem returns_pairs (hv : Returns Tables value Decoded) (fuel : Nat) :
    Returns Tables (decodePairs value fuel) fun pairs => ∀ p ∈ pairs, p.key ≠ "" ∧ Member p := by
  induction fuel with
  | zero => exact .fail _
  | succ fuel ih =>
    refine returns_sized.bind fun key hkey => ?_
    split
    · exact .pure (by simp)
    · rename_i hne
      exact hv.bind fun v hvalue => ih.map fun pairs hpairs =>
        List.forall_mem_cons.mpr ⟨⟨hne, hkey, hvalue⟩, hpairs⟩

theorem returns_fields (hv : Returns Tables value Decoded) (keys : List String) :
    Returns Tables (decodeFields value keys) fun pairs =>
      pairs.map Pair.key = keys ∧ ∀ p ∈ pairs, Decoded p.value := by
  induction keys with
  | nil => exact .pure ⟨rfl, by simp⟩
  | cons key keys ih =>
    refine hv.bind fun v hvalue => ih.map fun pairs hpairs => ?_
    exact ⟨by simp [hpairs.1], List.forall_mem_cons.mpr ⟨hvalue, hpairs.2⟩⟩

theorem returns_dynamic (hv : Returns Tables value Decoded) (fuel : Nat) (isDynamic : Bool) :
    Returns Tables (decodeDynamic value fuel isDynamic) fun pairs =>
      ∀ p ∈ pairs, p.key ≠ "" ∧ Member p := by
  cases isDynamic with
  | true => exact returns_pairs hv fuel
  | false => exact .pure (by simp)

theorem returns_array (hv : Returns Tables value Decoded) (fuel : Nat) (h : count < 2 ^ 28) :
    Returns Tables (decodeArray value fuel count) Decoded := by
  refine (returns_pairs hv fuel).bind fun assoc hassoc => (hv.times count).map fun dense hdense => ?_
  exact .array (by rw [hdense.1]; exact h) hassoc hdense.2

theorem returns_object (hv : Returns Tables value Decoded) (fuel : Nat) (h : u28 < 2 ^ 28) :
    Returns Tables (decodeObject value fuel u28) Decoded := by
  refine (returns_trait h).bind fun trait ht => (returns_fields hv _).bind fun entries he =>
    (returns_dynamic hv fuel _).map fun dynamic hd => ?_
  obtain ⟨hkeys, hvalues⟩ := he
  have hlen : entries.length = trait.fields.length := by rw [← hkeys, List.length_map]
  have hsealed : ∀ p ∈ entries, Member p := fun p hp =>
    ⟨ht.fields p.key (hkeys ▸ List.mem_map_of_mem hp), hvalues p hp⟩
  refine .object ht.named ht.name ht.count (by rw [List.length_append]; omega) (fun p hp => ?_)
    fun p hp => ?_
  · rcases List.mem_append.mp hp with hp | hp
    · exact hsealed p hp
    · exact (hd p hp).2
  · rw [← hlen, List.drop_left] at hp
    exact (hd p hp).1

theorem returns_objectVector (hv : Returns Tables value Decoded) (h : count < 2 ^ 28) :
    Returns Tables (decodeObjectVector value count) Decoded := by
  refine returns_u8.bind fun flag _ => returns_sized.bind fun name hname =>
    (hv.times count).map fun entries he => ?_
  refine .objectVector ?_ ?_ (by rw [he.1]; exact h) he.2
  · split <;> simp_all
  · split <;> simp_all

theorem returns_dictionary (hv : Returns Tables value Decoded) (h : count < 2 ^ 28) :
    Returns Tables (decodeDictionary value count) Decoded := by
  have hpair : Returns Tables (decodePair value) fun p => Decoded p.key ∧ Decoded p.value :=
    hv.bind fun k hk => hv.map fun v hvalue => ⟨hk, hvalue⟩
  exact returns_u8.bind fun flag _ => (hpair.times count).map fun entries he =>
    .dictionary (by rw [he.1]; exact h) he.2

end Nested

theorem returns_vector {read : Decode α} {make : Bool → List α → Amf3Value}
    (hread : Returns Tables read fun _ => True)
    (hmake : ∀ isFixed entries, entries.length < 2 ^ 28 → Decoded (make isFixed entries))
    (h : count < 2 ^ 28) : Returns Tables (decodeVector read make count) Decoded :=
  returns_u8.bind fun _ _ => (hread.times count).map fun entries he =>
    hmake _ entries (by rw [he.1]; exact h)

theorem returns_integer : Returns Tables decodeInteger Decoded := by
  refine returns_u29.map fun n hn => .integer ?_
  have hvalue : (Int32.ofInt (if n ≥ 2 ^ 28 then (n : Int) - 2 ^ 29 else n)).toInt =
      (if n ≥ 2 ^ 28 then (n : Int) - 2 ^ 29 else n : Int) :=
    Int32.toInt_ofInt_of_le (by split <;> omega) (by split <;> omega)
  rw [hvalue]
  split <;> omega

theorem exact_dateOf (millis : F64) : F64.Exact (dateOf millis) := by
  unfold dateOf
  split
  · exact F64.exact_of_small (by decide)
  · exact F64.exact_toI64 millis

theorem returns_date (len : Nat) : Returns Tables (decodeDate len) Decoded := by
  refine returns_f64.bind fun millis _ => ?_
  split
  · exact .pure (.date (exact_dateOf millis))
  · exact .fail _

theorem returns_text {make : String → Amf3Value} (hmake : ∀ s, Sized s → Decoded (make s))
    (h : len < 2 ^ 28) :
    Returns Tables (do return make (← readUtf8 len) : Decode Amf3Value) Decoded :=
  (returns_utf8 len).map fun s hs => hmake s (sized_of_length (by omega))

theorem returns_marked {value : Decode Amf3Value} (hv : Returns Tables value Decoded) (fuel : Nat)
    (marker : UInt8) : Returns Tables (decodeMarked value fuel marker) Decoded := by
  unfold decodeMarked
  split
  · exact .pure .undefined
  · exact .pure .null
  · exact .pure .boolean
  · exact .pure .boolean
  · exact returns_integer
  · exact returns_f64.map fun _ _ => .double
  · exact returns_sized.map fun _ => .string
  · exact returns_complex fun _ => returns_text fun _ => .xmlDocument
  · exact returns_complex fun len _ => returns_date len
  · exact returns_complex fun _ => returns_array hv fuel
  · exact returns_complex fun _ => returns_object hv fuel
  · exact returns_complex fun _ => returns_text fun _ => .xml
  · exact returns_complex fun len hlen => (Returns.take _ len).map fun bytes hbytes =>
      .byteArray (by rw [hbytes]; exact hlen)
  · exact returns_complex fun _ => returns_vector returns_i32 fun _ _ => .intVector
  · exact returns_complex fun _ => returns_vector returns_u32 fun _ _ => .uintVector
  · exact returns_complex fun _ => returns_vector returns_f64 fun _ _ => .doubleVector
  · exact returns_complex fun _ => returns_objectVector hv
  · exact returns_complex fun _ => returns_dictionary hv
  · exact .fail _

theorem returns_value (fuel : Nat) : Returns Tables (decodeValue fuel) Decoded := by
  induction fuel with
  | zero => exact .fail _
  | succ fuel ih => exact returns_u8.bind fun marker _ => returns_marked ih fuel marker

end Returns

end CheetahMedia.Rtmp.Amf3

namespace CheetahMedia.Rtmp
open Lib
open Lib.Reader (Returns)

/-- Whatever is decoded can be encoded again and is read back. -/
theorem Amf3Value.returns_decode {Inv : σ → Prop} :
    Returns Inv (Amf3Value.decode : BytesReader σ Amf3Value) Amf3.Decoded := by
  refine .remaining_bind fun len => ?_
  have htables : Amf3.Tables {} := ⟨by simp, by simp, by simp⟩
  exact ((Amf3.returns_value len).nested htables fun _ _ hs => hs).map fun _ h => h

/-- A value that was decoded passes every assertion of the encoder, and its encoding is read
back as this value, wherever it stands. -/
theorem Amf3Value.encode_of_decode
    (h : (Amf3Value.decode : BytesReader Unit Amf3Value).run b () = ((), .ok (v, rest))) :
    ∃ bytes, v.encode = some bytes ∧ ∀ more,
      (Amf3Value.decode : BytesReader Unit Amf3Value).run (bytes ++ more) () =
        ((), .ok (v, more)) := by
  have hreturns : Returns (fun _ => True) (Amf3Value.decode : BytesReader Unit Amf3Value)
      Amf3.Decoded := Amf3Value.returns_decode
  obtain ⟨-, hv⟩ := hreturns b () () v rest trivial h
  obtain ⟨bytes, hbytes⟩ := hv.encodes
  refine ⟨bytes, hbytes, fun more => ?_⟩
  obtain ⟨s, hs⟩ := hv.readsBack.reads (σ := Unit) hbytes more ()
  exact hs

/-- An array of an object, another of the same class with a string by reference, and the
first object by reference. -/
def sharedTrait : Bytes :=
  [0x09, 7, 1, 0x0A, 0x13, 1, 3, 97, 0x04, 0xFF, 0xFF, 0xFF, 0xFF, 0x0A, 1, 0x06, 0, 0x0A, 2]

/-- What the encoder writes for what stands at the front of `b`, and what comes after it. -/
def Amf3Value.reencode (b : Bytes) : Option (Option Bytes × Bytes) :=
  match ((Amf3Value.decode : BytesReader Unit Amf3Value).run b ()).2 with
  | .ok (v, rest) => some (v.encode, rest)
  | .error _ => none

/-- Classes and strings are written in full, as the encoder never refers back. -/
theorem reencode_sharedTrait : Amf3Value.reencode sharedTrait = some
    (some [0x09, 7, 1, 0x0A, 0x13, 1, 3, 97, 0x04, 0xFF, 0xFF, 0xFF, 0xFF,
      0x0A, 0x13, 1, 3, 97, 0x06, 3, 97,
      0x0A, 0x13, 1, 3, 97, 0x04, 0xFF, 0xFF, 0xFF, 0xFF], []) := by
  decide +kernel

theorem Amf3Value.encode_of_decode_shared : ∃ v bytes,
    (Amf3Value.decode : BytesReader Unit Amf3Value).run sharedTrait () = ((), .ok (v, [])) ∧
    v.encode = some bytes ∧ bytes.length = 31 ∧
    (Amf3Value.decode : BytesReader Unit Amf3Value).run bytes () = ((), .ok (v, [])) := by
  have hsample := reencode_sharedTrait
  unfold Amf3Value.reencode at hsample
  match h : (Amf3Value.decode : BytesReader Unit Amf3Value).run sharedTrait () with
  | ((), .ok (v, rest)) =>
    rw [h] at hsample
    obtain ⟨hencode, rfl⟩ := Prod.mk.inj (Option.some.inj hsample)
    obtain ⟨bytes, hbytes, hagain⟩ := Amf3Value.encode_of_decode h
    have hread := hagain []
    rw [List.append_nil] at hread
    refine ⟨v, bytes, rfl, hbytes, ?_, hread⟩
    rw [hbytes] at hencode
    rw [Option.some.inj hencode]
    rfl
  | ((), .error e) =>
    rw [h] at hsample
    cases hsample

end CheetahMedia.Rtmp
