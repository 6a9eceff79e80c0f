import CheetahMedia.Rtmp.Amf0
import CheetahMedia.Rtmp.Amf3.RoundTrip

namespace CheetahMedia.Rtmp.Amf0
open Lib
open Lib.Reader (Reads times)

/-- What the encoder writes for a value, the decoder reads as that value. The
length fields hold 32 bits. -/
def ReadsBack (v : Amf0Value) : Prop :=
  ∀ bytes fuel, encodeValue v = some bytes → bytes.length < 2 ^ 32 → bytes.length ≤ fuel →
    Reads (decodeValue fuel) bytes v

/-- The same for a value of any size whose own length fields hold what they count. -/
def Rereads (v : Amf0Value) : Prop :=
  ∀ bytes fuel, encodeValue v = some bytes → bytes.length ≤ fuel →
    Reads (decodeValue fuel) bytes v

theorem reads_marked (hfuel : (marker :: bytes).length ≤ fuel)
    (h : ∀ fuel, bytes.length ≤ fuel →
      Reads (decodeMarked (decodeValue fuel) fuel marker) bytes v) :
    Reads (decodeValue fuel) (marker :: bytes) v := by
  cases fuel with
  | zero => cases hfuel
  | succ fuel => exact (reads_u8 marker).bind (h fuel (Nat.le_of_succ_le_succ hfuel))

/-- A value never starts like the end of an object. -/
theorem encodeValue_marker (h : encodeValue v = some bytes) :
    ∃ marker rest, bytes = marker :: rest ∧ marker ≠ MARKER_OBJECT_END_MARKER := by
  cases v with
  | object className entries =>
    cases className with
    | none =>
      simp only [encodeValue, encodeObjectHeader, Option.bind_eq_bind, Option.bind_some,
        Option.bind_eq_some_iff, Option.pure_def, Option.some.injEq] at h
      obtain ⟨pairs, _, rfl⟩ := h
      exact ⟨_, _, rfl, by decide⟩
    | some name =>
      simp only [encodeValue, encodeObjectHeader, Option.bind_eq_bind, Option.bind_eq_some_iff,
        Option.pure_def, Option.some.injEq] at h
      obtain ⟨_, ⟨name, _, rfl⟩, pairs, _, rfl⟩ := h
      exact ⟨_, _, rfl, by decide⟩
  | ecmaArray entries =>
    obtain ⟨pairs, _, hb⟩ := Option.bind_eq_some_iff.mp h
    cases hb
    exact ⟨_, _, rfl, by decide⟩
  | array entries =>
    obtain ⟨values, _, hb⟩ := Option.bind_eq_some_iff.mp h
    cases hb
    exact ⟨_, _, rfl, by decide⟩
  | avmPlus value =>
    obtain ⟨values, _, hb⟩ := Option.bind_eq_some_iff.mp h
    cases hb
    exact ⟨_, _, rfl, by decide⟩
  | string s =>
    cases h
    unfold encodeString
    dsimp only
    split
    · exact ⟨_, _, rfl, by decide⟩
    · exact ⟨_, _, rfl, by decide⟩
  | date t => cases h; exact ⟨_, _, rfl, by decide⟩
  | number n => cases h; exact ⟨_, _, rfl, by decide⟩
  | boolean b => cases h; exact ⟨_, _, rfl, by decide⟩
  | null => cases h; exact ⟨_, _, rfl, by decide⟩
  | undefined => cases h; exact ⟨_, _, rfl, by decide⟩
  | xmlDocument s => cases h; exact ⟨_, _, rfl, by decide⟩

theorem reads_key (h : encodeKey key = some bytes) : Reads decodeShortUtf8 bytes key := by
  unfold encodeKey at h
  dsimp only at h
  split at h
  · cases h
    exact reads_utf8_u16 key (by omega)
  · cases h

theorem encodeKey_pos (h : encodeKey key = some bytes) : 0 < bytes.length := by
  unfold encodeKey at h
  dsimp only at h
  split at h
  · cases h
    simp [writeU16]
  · cases h

section Nested

theorem encodeValues_length (h : encodeValues values = some bytes) :
    values.length ≤ bytes.length := by
  induction values generalizing bytes with
  | nil => exact Nat.zero_le _
  | cons v values ih =>
    simp only [encodeValues, Option.bind_eq_bind, Option.bind_eq_some_iff, Option.pure_def,
      Option.some.injEq] at h
    obtain ⟨first, hfirst, later, hlater, rfl⟩ := h
    obtain ⟨marker, rest, rfl, _⟩ := encodeValue_marker hfirst
    have := ih hlater
    simp only [List.length_append, List.length_cons]
    omega

theorem reads_values (ih : ∀ v ∈ values, Rereads v) (h : encodeValues values = some bytes)
    (hfuel : bytes.length ≤ fuel) :
    Reads (times (decodeValue fuel) values.length) bytes values := by
  induction values generalizing bytes with
  | nil =>
    cases h
    exact .pure []
  | cons v values ihs =>
    simp only [encodeValues, Option.bind_eq_bind, Option.bind_eq_some_iff, Option.pure_def,
      Option.some.injEq] at h
    obtain ⟨first, hfirst, later, hlater, rfl⟩ := h
    rw [List.length_append] at hfuel
    have hv := ih v List.mem_cons_self first fuel hfirst (by omega)
    have hvs := ihs (fun v hv => ih v (List.mem_cons_of_mem _ hv)) hlater (by omega)
    exact hv.bind (hvs.map _)

/-- The key that stands before the end marker is empty. -/
theorem reads_end (value : Decode Amf0Value) (count : Nat) :
    Reads (decodePairs value (count + 1)) (writeU16 0 ++ [MARKER_OBJECT_END_MARKER]) [] := by
  have hkey : Reads decodeShortUtf8 (writeU16 0) "" := reads_key (by simp [encodeKey, utf8])
  refine hkey.bind (.peek_bind ?_)
  rw [if_pos rfl]
  exact (reads_u8 _).map _

theorem reads_pairs (ih : ∀ p ∈ pairs, Rereads p.value) (h : encodePairs pairs = some bytes)
    (hfuel : bytes.length ≤ fuel) (hcount : bytes.length ≤ count) :
    Reads (decodePairs (decodeValue fuel) count) bytes pairs := by
  induction pairs generalizing bytes count with
  | nil =>
    cases h
    cases count with
    | zero => cases hcount
    | succ count => exact reads_end _ _
  | cons p pairs ihs =>
    obtain ⟨key, v⟩ := p
    simp only [encodePairs, Option.bind_eq_bind, Option.bind_eq_some_iff, Option.pure_def,
      Option.some.injEq] at h
    obtain ⟨kbytes, hkey, vbytes, hv, later, hlater, rfl⟩ := h
    have hpos := encodeKey_pos hkey
    simp only [List.length_append] at hfuel hcount
    cases count with
    | zero => omega
    | succ count =>
      have hvalue := ih _ List.mem_cons_self vbytes fuel hv (by omega)
      have hpairs := ihs (fun p hp => ih p (List.mem_cons_of_mem _ hp)) hlater (by omega)
        (show later.length ≤ count by omega)
      obtain ⟨marker, rest, rfl, hmarker⟩ := encodeValue_marker hv
      rw [List.append_assoc]
      refine (reads_key hkey).bind (.peek_bind ?_)
      rw [if_neg (by simpa using hmarker)]
      exact hvalue.bind (hpairs.map _)

theorem reads_complex {f : Decode Amf0Value} (hf : Reads f bytes v) :
    Reads (decodeComplexType f) bytes v :=
  .get_bind fun _ => .silent_bind (.modify _)
    (hf.bind_last (.silent_bind (.modify _) (.pure v)))

end Nested

/-- The values that the format tells apart: dates must be exact as doubles. -/
inductive Canonical : Amf0Value → Prop
  | number : Canonical (.number n)
  | boolean : Canonical (.boolean b)
  | string : Canonical (.string s)
  | object (values : ∀ p ∈ entries, Canonical p.value) : Canonical (.object className entries)
  | null : Canonical .null
  | undefined : Canonical .undefined
  | ecmaArray (values : ∀ p ∈ entries, Canonical p.value) : Canonical (.ecmaArray entries)
  | array (values : ∀ v ∈ elements, Canonical v) : Canonical (.array elements)
  | date (exactMillis : F64.Exact t) : Canonical (.date t)
  | xmlDocument : Canonical (.xmlDocument s)
  | avmPlus (value : Amf3.Canonical amf3) : Canonical (.avmPlus amf3)

section Cases

theorem rereads_string (h : (utf8 s).length < 2 ^ 32) : Rereads (.string s) := by
  intro bytes fuel hb hfuel
  cases hb
  unfold encodeString at hfuel ⊢
  dsimp only at hfuel ⊢
  by_cases hshort : (utf8 s).length ≤ 0xFFFF
  · rw [if_pos hshort] at hfuel ⊢
    exact reads_marked hfuel fun _ _ => (reads_utf8_u16 s (by omega)).map _
  · rw [if_neg hshort] at hfuel ⊢
    exact reads_marked hfuel fun _ _ => (reads_utf8_u32 s h).map _

theorem rereads_xmlDocument (h : (utf8 s).length < 2 ^ 32) : Rereads (.xmlDocument s) := by
  intro bytes fuel hb hfuel
  cases hb
  exact reads_marked hfuel fun _ _ => (reads_utf8_u32 s h).map _

theorem rereads_number : Rereads (.number n) := by
  intro bytes fuel hb hfuel
  cases hb
  exact reads_marked hfuel fun _ _ => (reads_f64 _).map _

theorem rereads_null : Rereads .null := by
  intro bytes fuel hb hfuel
  cases hb
  exact reads_marked hfuel fun _ _ => .pure _

theorem rereads_undefined : Rereads .undefined := by
  intro bytes fuel hb hfuel
  cases hb
  exact reads_marked hfuel fun _ _ => .pure _

theorem rereads_boolean : Rereads (.boolean b) := by
  intro bytes fuel hb hfuel
  cases hb
  refine reads_marked hfuel fun _ _ => (reads_u8 _).bind_last ?_
  have hb : decide ((if b then 1 else 0 : UInt8) ≠ 0) = b := by cases b <;> rfl
  rw [hb]
  exact .pure _

theorem rereads_date (h : F64.Exact t) : Rereads (.date t) := by
  intro bytes fuel hb hfuel
  cases hb
  refine reads_marked hfuel fun _ _ => reads_complex ((reads_f64 _).bind ((reads_u16 _).bind_last ?_))
  rw [if_pos (F64.isFinite_ofI64 t), dateOf_ofI64 h]
  exact .pure _

theorem rereads_avmPlus (h : Amf3.ReadsBack value) : Rereads (.avmPlus value) := by
  intro bytes fuel hb hfuel
  obtain ⟨amf3, hamf3, hbytes⟩ := Option.bind_eq_some_iff.mp hb
  cases hbytes
  exact reads_marked hfuel fun _ _ => (h.reads hamf3).map _

theorem rereads_object (ih : ∀ p ∈ entries, Rereads p.value) :
    Rereads (.object className entries) := by
  intro bytes fuel hb hfuel
  cases className with
  | none =>
    simp only [encodeValue, encodeObjectHeader, Option.bind_eq_bind, Option.bind_some,
      Option.bind_eq_some_iff, Option.pure_def, Option.some.injEq] at hb
    obtain ⟨pairs, hpairs, rfl⟩ := hb
    exact reads_marked hfuel fun fuel hfuel => reads_complex
      ((reads_pairs ih hpairs hfuel hfuel).map _)
  | some className =>
    simp only [encodeValue, encodeObjectHeader, Option.bind_eq_bind, Option.bind_eq_some_iff,
      Option.pure_def, Option.some.injEq] at hb
    obtain ⟨_, ⟨name, hname, rfl⟩, pairs, hpairs, rfl⟩ := hb
    rw [List.cons_append] at hfuel ⊢
    refine reads_marked hfuel fun fuel hfuel => reads_complex ((reads_key hname).bind ?_)
    rw [List.length_append] at hfuel
    exact (reads_pairs ih hpairs (by omega) (by omega)).map _

theorem rereads_ecmaArray (ih : ∀ p ∈ entries, Rereads p.value) :
    Rereads (.ecmaArray entries) := by
  intro bytes fuel hb hfuel
  simp only [encodeValue, Option.bind_eq_bind, Option.bind_eq_some_iff, Option.pure_def,
    Option.some.injEq] at hb
  obtain ⟨pairs, hpairs, rfl⟩ := hb
  refine reads_marked hfuel fun fuel hfuel => reads_complex ((reads_u32 _).bind ?_)
  rw [List.length_append] at hfuel
  exact (reads_pairs ih hpairs (by omega) (by omega)).map _

theorem rereads_array (h : elements.length < 2 ^ 32) (ih : ∀ v ∈ elements, Rereads v) :
    Rereads (.array elements) := by
  intro bytes fuel hb hfuel
  simp only [encodeValue, Option.bind_eq_bind, Option.bind_eq_some_iff, Option.pure_def,
    Option.some.injEq] at hb
  obtain ⟨values, hvalues, rfl⟩ := hb
  refine reads_marked hfuel fun fuel hfuel => reads_complex ((reads_u32 _).bind ?_)
  rw [List.length_append] at hfuel
  rw [UInt32.toNat_ofNat_of_lt' h]
  exact (reads_values ih hvalues (by omega)).map _

end Cases

section Parts

/-- The encoding of a part is no longer than that of the whole. -/
theorem encodeValues_part (h : encodeValues values = some bytes) (hv : v ∈ values) :
    ∃ part, encodeValue v = some part ∧ part.length ≤ bytes.length := by
  induction values generalizing bytes with
  | nil => cases hv
  | cons first values ih =>
    simp only [encodeValues, Option.bind_eq_bind, Option.bind_eq_some_iff, Option.pure_def,
      Option.some.injEq] at h
    obtain ⟨front, hfront, later, hlater, rfl⟩ := h
    rw [List.length_append]
    rcases List.mem_cons.mp hv with rfl | hv
    · exact ⟨front, hfront, by omega⟩
    · obtain ⟨part, hpart, hle⟩ := ih hlater hv
      exact ⟨part, hpart, by omega⟩

theorem encodePairs_part (h : encodePairs pairs = some bytes) (hp : p ∈ pairs) :
    ∃ part, encodeValue p.value = some part ∧ part.length ≤ bytes.length := by
  induction pairs generalizing bytes with
  | nil => cases hp
  | cons first pairs ih =>
    obtain ⟨key, value⟩ := first
    simp only [encodePairs, Option.bind_eq_bind, Option.bind_eq_some_iff, Option.pure_def,
      Option.some.injEq] at h
    obtain ⟨kbytes, -, vbytes, hvbytes, later, hlater, rfl⟩ := h
    simp only [List.length_append]
    rcases List.mem_cons.mp hp with rfl | hp
    · exact ⟨vbytes, hvbytes, by omega⟩
    · obtain ⟨part, hpart, hle⟩ := ih hlater hp
      exact ⟨part, hpart, by omega⟩

theorem encodeObject_parts (h : encodeValue (.object className entries) = some bytes) :
    ∃ pairs, encodePairs entries = some pairs ∧ pairs.length ≤ bytes.length := by
  simp only [encodeValue, Option.bind_eq_bind, Option.bind_eq_some_iff, Option.pure_def,
    Option.some.injEq] at h
  obtain ⟨header, -, pairs, hpairs, rfl⟩ := h
  exact ⟨pairs, hpairs, by rw [List.length_append]; omega⟩

end Parts

/-- An encoding that a 32-bit length could count has no length field that overflows. By
induction on the value, as for AMF3. -/
theorem rereads_of_encode (h : Canonical v) (he : encodeValue v = some bytes)
    (hlen : bytes.length < 2 ^ 32) : Rereads v := by
  induction h generalizing bytes with
  | number => exact rereads_number
  | boolean => exact rereads_boolean
  | @string s =>
    have hsize : (utf8 s).length ≤ bytes.length := by
      cases he
      unfold encodeString
      dsimp only
      split <;> simp only [List.length_cons, List.length_append] <;> omega
    exact rereads_string (by omega)
  | object _ ih =>
    obtain ⟨pairs, hpairs, hle⟩ := encodeObject_parts he
    refine rereads_object fun p hp => ?_
    obtain ⟨part, hpart, hpartLe⟩ := encodePairs_part hpairs hp
    exact ih p hp hpart (by omega)
  | null => exact rereads_null
  | undefined => exact rereads_undefined
  | ecmaArray _ ih =>
    obtain ⟨pairs, hpairs, hbytes⟩ := Option.bind_eq_some_iff.mp he
    cases hbytes
    simp only [List.length_cons, List.length_append] at hlen
    refine rereads_ecmaArray fun p hp => ?_
    obtain ⟨part, hpart, hle⟩ := encodePairs_part hpairs hp
    exact ih p hp hpart (by omega)
  | array _ ih =>
    obtain ⟨values, hvalues, hbytes⟩ := Option.bind_eq_some_iff.mp he
    cases hbytes
    have hcount := encodeValues_length hvalues
    simp only [List.length_cons, List.length_append] at hlen
    refine rereads_array (by omega) fun v hv => ?_
    obtain ⟨part, hpart, hle⟩ := encodeValues_part hvalues hv
    exact ih v hv hpart (by omega)
  | date ht => exact rereads_date ht
  | xmlDocument =>
    cases he
    simp only [encodeXmlDocument, List.length_cons, List.length_append] at hlen
    exact rereads_xmlDocument (by omega)
  | avmPlus hv => exact rereads_avmPlus (Amf3.readsBack hv)

theorem readsBack (h : Canonical v) : ReadsBack v :=
  fun bytes fuel he hlen hfuel => rereads_of_encode h he hlen bytes fuel he hfuel

end CheetahMedia.Rtmp.Amf0

namespace CheetahMedia.Rtmp
open Lib
open Lib.Reader (Reads)

theorem Amf0.Rereads.reads {v : Amf0Value} (h : Amf0.Rereads v) (he : v.encode = some bytes) :
    Reads (Amf0Value.decode : BytesReader σ Amf0Value) bytes v := by
  refine .remaining_bind fun n hn => ?_
  have hnested := Reads.nested (h bytes n he hn) {} (fun _ (s : σ) => s)
    (f := fun result => pure result.1) fun _ => .pure v
  rwa [List.append_nil] at hnested

theorem Amf0Value.reads_encode {v : Amf0Value} (h : Amf0.Canonical v)
    (he : v.encode = some bytes) (hlen : bytes.length < 2 ^ 32) :
    Reads (Amf0Value.decode : BytesReader σ Amf0Value) bytes v :=
  (Amf0.rereads_of_encode h he hlen).reads he

end CheetahMedia.Rtmp
