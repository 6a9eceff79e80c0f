import CheetahMedia.Rtmp.Amf3

namespace CheetahMedia.Rtmp
open Lib

theorem dateOf_ofI64 (h : F64.Exact t) : dateOf (.ofI64 t) = t := by
  unfold dateOf
  split
  · rename_i hz
    rw [← F64.toI64_of_isZero hz, h]
  · exact h

end CheetahMedia.Rtmp

namespace CheetahMedia.Rtmp.Amf3
open Lib
open Lib.Reader (Reads times)

section Sizes

theorem reads_continued (k : Nat) (h : Reads (decodeU29From more (n * 2 ^ 7 + k % 0x80)) bytes u) :
    Reads (decodeU29From (more + 1) n) (continued k :: bytes) u := by
  have hb : (continued k).toNat = 0x80 + k % 0x80 :=
    UInt8.toNat_ofNat_of_lt' (show _ < 256 by omega)
  refine (reads_u8 (continued k)).bind ?_
  have hge : ¬ 0x80 + k % 0x80 < 0x80 := by omega
  have hmod : (0x80 + k % 0x80) % 0x80 = k % 0x80 := by omega
  simp only [hb, hge, hmod, if_false]
  exact h

theorem reads_last_of_seven (hk : k < 0x80) (hu : u = n * 2 ^ 7 + k) :
    Reads (decodeU29From (more + 1) n) [UInt8.ofNat k] u := by
  have hb : (UInt8.ofNat k).toNat = k := UInt8.toNat_ofNat_of_lt' (show _ < 256 by omega)
  refine (reads_u8 (UInt8.ofNat k)).bind_last ?_
  simp only [hb, hk, if_true, Nat.mod_eq_of_lt hk, ← hu]
  exact .pure u

theorem reads_last_of_eight (hk : k < 0x100) (hu : u = n * 2 ^ 8 + k) :
    Reads (decodeU29From 0 n) [UInt8.ofNat k] u := by
  have hb : (UInt8.ofNat k).toNat = k := UInt8.toNat_ofNat_of_lt' hk
  refine (reads_u8 (UInt8.ofNat k)).bind_last ?_
  rw [hb, ← hu]
  exact .pure u

theorem reads_u29 (h : u < 2 ^ 29) : Reads decodeU29 (encodeU29 u) u := by
  unfold decodeU29 encodeU29
  split
  · exact reads_last_of_seven (by omega) (by omega)
  · split
    · exact reads_continued _ (reads_last_of_seven (by omega) (by omega))
    · split
      · exact reads_continued _ (reads_continued _ (reads_last_of_seven (by omega) (by omega)))
      · exact reads_continued _ (reads_continued _ (reads_continued _
          (reads_last_of_eight (by omega) (by omega))))

theorem encodeU29_pos (u : Nat) : 0 < (encodeU29 u).length := by
  unfold encodeU29
  repeat' split
  all_goals simp

theorem encodeSize_eq (h : encodeSize n = some bytes) :
    n < 2 ^ 28 ∧ bytes = encodeU29 (2 * n + 1) := by
  unfold encodeSize at h
  split at h
  · cases h
    exact ⟨‹_›, rfl⟩
  · cases h

theorem encodeSize_pos (h : encodeSize n = some bytes) : 0 < bytes.length := by
  rw [(encodeSize_eq h).2]
  exact encodeU29_pos _

theorem reads_size (h : encodeSize n = some bytes) :
    Reads decodeSizeOrIndex bytes (.size n) := by
  obtain ⟨hlt, rfl⟩ := encodeSize_eq h
  have hodd : (2 * n + 1) % 2 ≠ 0 := by omega
  have hhalf : (2 * n + 1) / 2 = n := by omega
  have hmap := (reads_u29 (u := 2 * n + 1) (by omega)).map
    fun u => if u % 2 = 0 then SizeOrIndex.index (u / 2) else .size (u / 2)
  simp only [hodd, hhalf, if_false] at hmap
  exact hmap

theorem reads_utf8_sized (h : encodeUtf8 s = some bytes) : Reads decodeUtf8 bytes s := by
  obtain ⟨size, hsize, hbytes⟩ := Option.bind_eq_some_iff.mp h
  cases hbytes
  refine (reads_size hsize).bind ?_
  exact (reads_utf8 s).bind_last (.silent_bind (.modify _) (.pure s))

theorem encodeUtf8_pos (h : encodeUtf8 s = some bytes) : 0 < bytes.length := by
  obtain ⟨size, hsize, hbytes⟩ := Option.bind_eq_some_iff.mp h
  cases hbytes
  have := encodeSize_pos hsize
  rw [List.length_append]
  omega

theorem reads_complex {f : Nat → Decode Amf3Value} (hsize : encodeSize n = some size)
    (hf : Reads (f n) bytes v) : Reads (decodeComplexType f) (size ++ bytes) v := by
  refine (reads_size hsize).bind ?_
  refine .get_bind fun d => .silent_bind (.modify _) ?_
  exact hf.bind_last (.silent_bind (.modify _) (.pure v))

end Sizes

section Values

/-- What the encoder writes for a value, the decoder reads as that value. -/
def ReadsBack (v : Amf3Value) : Prop :=
  ∀ bytes fuel, encodeValue v = some bytes → bytes.length ≤ fuel →
    Reads (decodeValue fuel) bytes v

theorem reads_marked (hfuel : (marker :: bytes).length ≤ fuel)
    (h : ∀ fuel, bytes.length ≤ fuel →
      Reads (decodeMarked (decodeValue fuel) fuel marker) bytes v) :
    Reads (decodeValue fuel) (marker :: bytes) v := by
  cases fuel with
  | zero => cases hfuel
  | succ fuel => exact (reads_u8 marker).bind (h fuel (Nat.le_of_succ_le_succ hfuel))

theorem reads_values (ih : ∀ v ∈ values, ReadsBack v) (h : encodeValues values = some bytes)
    (hfuel : bytes.length ≤ fuel) :
    Reads (times (decodeValue fuel) values.length) bytes values := by
  induction values generalizing bytes with
  | nil =>
    cases h
    exact .pure []
  | cons v values ihs =>
    simp only [encodeValues, Option.bind_eq_bind, Option.bind_eq_some_iff, Option.pure_def,
      Option.some.injEq] at h
    obtain ⟨first, hfirst, later, hlater, rfl⟩ := h
    rw [List.length_append] at hfuel
    have hv := ih v List.mem_cons_self first fuel hfirst (by omega)
    have hvs := ihs (fun v hv => ih v (List.mem_cons_of_mem _ hv)) hlater (by omega)
    exact hv.bind (hvs.map _)

theorem reads_pairs (hkeys : ∀ p ∈ pairs, p.key ≠ "") (ih : ∀ p ∈ pairs, ReadsBack p.value)
    (h : encodePairs pairs = some bytes) (hfuel : bytes.length ≤ fuel)
    (hcount : bytes.length ≤ count) :
    Reads (decodePairs (decodeValue fuel) count) bytes pairs := by
  induction pairs generalizing bytes count with
  | nil =>
    have hpos := encodeUtf8_pos h
    cases count with
    | zero => omega
    | succ count =>
      refine (reads_utf8_sized h).bind_last ?_
      rw [if_pos rfl]
      exact .pure []
  | cons p pairs ihs =>
    obtain ⟨key, v⟩ := p
    simp only [encodePairs, Option.bind_eq_bind, Option.bind_eq_some_iff, Option.pure_def,
      Option.some.injEq] at h
    obtain ⟨kbytes, hkey, vbytes, hv, later, hlater, rfl⟩ := h
    have hpos := encodeUtf8_pos hkey
    simp only [List.length_append] at hfuel hcount
    cases count with
    | zero => omega
    | succ count =>
      have hne : key ≠ "" := hkeys _ List.mem_cons_self
      have hvalue := ih _ List.mem_cons_self vbytes fuel hv (by omega)
      have hpairs := ihs (fun p hp => hkeys p (List.mem_cons_of_mem _ hp))
        (fun p hp => ih p (List.mem_cons_of_mem _ hp)) hlater (by omega)
        (show later.length ≤ count by omega)
      rw [List.append_assoc]
      refine (reads_utf8_sized hkey).bind ?_
      rw [if_neg hne]
      exact hvalue.bind (hpairs.map _)

theorem reads_vector {read : Decode α} {write : α → Bytes} (h : ∀ a, Reads read (write a) a)
    (make : Bool → List α → Amf3Value) (isFixed : Bool) (entries : List α) :
    Reads (decodeVector read make entries.length) (encodeFlag isFixed ++ entries.flatMap write)
      (make isFixed entries) := by
  have hflag : (decide ((if isFixed then 1 else 0 : UInt8) ≠ 0)) = isFixed := by
    cases isFixed <;> rfl
  have htimes : Reads (times read entries.length) (entries.flatMap write) entries := by
    induction entries with
    | nil => exact .pure []
    | cons a entries ih => exact (h a).bind (ih.map _)
  refine (reads_u8 _).bind ?_
  rw [hflag]
  exact htimes.map (make isFixed)

theorem reads_dictionary (hkeys : ∀ p ∈ entries, ReadsBack p.key)
    (ih : ∀ p ∈ entries, ReadsBack p.value) (h : encodeDictionary entries = some bytes)
    (hfuel : bytes.length ≤ fuel) :
    Reads (times (decodePair (decodeValue fuel)) entries.length) bytes entries := by
  induction entries generalizing bytes with
  | nil =>
    cases h
    exact .pure []
  | cons p entries ihs =>
    obtain ⟨key, v⟩ := p
    simp only [encodeDictionary, Option.bind_eq_bind, Option.bind_eq_some_iff, Option.pure_def,
      Option.some.injEq] at h
    obtain ⟨kbytes, hkey, vbytes, hv, later, hlater, rfl⟩ := h
    simp only [List.length_append] at hfuel
    have hk := hkeys _ List.mem_cons_self kbytes fuel hkey (by omega)
    have hvalue := ih _ List.mem_cons_self vbytes fuel hv (by omega)
    have hrest := ihs (fun p hp => hkeys p (List.mem_cons_of_mem _ hp))
      (fun p hp => ih p (List.mem_cons_of_mem _ hp)) hlater (by omega)
    exact (hk.bind (hvalue.map _)).bind (hrest.map _)

/-- The sealed values come first, the dynamic pairs, if there are any, after them. -/
theorem reads_members (hcount : sealedCount ≤ entries.length)
    (hkeys : ∀ p ∈ entries.drop sealedCount, p.key ≠ "")
    (ih : ∀ p ∈ entries, ReadsBack p.value) (h : encodeMembers sealedCount entries = some bytes)
    (hfuel : bytes.length ≤ fuel) (hpairs : bytes.length ≤ count) :
    ∃ front back, bytes = front ++ back ∧
      Reads (decodeFields (decodeValue fuel) ((entries.take sealedCount).map Pair.key)) front
        (entries.take sealedCount) ∧
      Reads (decodeDynamic (decodeValue fuel) count (sealedCount < entries.length)) back
        (entries.drop sealedCount) := by
  induction entries generalizing sealedCount bytes with
  | nil =>
    cases h
    exact ⟨[], [], rfl, by rw [List.take_nil]; exact .pure [],
      by rw [List.drop_nil]; exact .pure []⟩
  | cons p entries ihs =>
    obtain ⟨key, v⟩ := p
    cases sealedCount with
    | zero =>
      refine ⟨[], bytes, rfl, .pure [], ?_⟩
      have hdyn : decide (0 < (⟨key, v⟩ :: entries : List (Pair String Amf3Value)).length) = true :=
        decide_eq_true (Nat.succ_pos _)
      rw [hdyn]
      exact reads_pairs hkeys ih h hfuel hpairs
    | succ sealedCount =>
      simp only [encodeMembers, Option.bind_eq_bind, Option.bind_eq_some_iff, Option.pure_def,
        Option.some.injEq] at h
      obtain ⟨vbytes, hv, later, hlater, rfl⟩ := h
      simp only [List.length_append] at hfuel hpairs
      obtain ⟨front, back, rfl, hfront, hback⟩ := ihs (by simpa using hcount) hkeys
        (fun p hp => ih p (List.mem_cons_of_mem _ hp)) hlater (by omega) (by omega)
      have hvalue := ih _ List.mem_cons_self vbytes fuel hv (by omega)
      refine ⟨vbytes ++ front, back, by simp, hvalue.bind (hfront.map _), ?_⟩
      simpa using hback

theorem reads_keys (h : encodeKeys pairs = some bytes) :
    Reads (times decodeUtf8 pairs.length) bytes (pairs.map Pair.key) := by
  induction pairs generalizing bytes with
  | nil =>
    cases h
    exact .pure []
  | cons p pairs ih =>
    simp only [encodeKeys, Option.bind_eq_bind, Option.bind_eq_some_iff, Option.pure_def,
      Option.some.injEq] at h
    obtain ⟨key, hkey, keys, hkeys, rfl⟩ := h
    exact (reads_utf8_sized hkey).bind ((ih hkeys).map _)

theorem reads_trait (hname : className ≠ some "") (hcount : sealedCount ≤ entries.length)
    (h : encodeTrait className sealedCount entries = some bytes) : ∃ u28 size rest,
      bytes = size ++ rest ∧ encodeSize u28 = some size ∧
      Reads (decodeTrait u28) rest
        { className := className
          isDynamic := sealedCount < entries.length
          fields := (entries.take sealedCount).map Pair.key } := by
  simp only [encodeTrait, Option.bind_eq_bind, Option.bind_eq_some_iff, Option.pure_def,
    Option.some.injEq] at h
  obtain ⟨size, hsize, name, hname', keys, hkeys, rfl⟩ := h
  refine ⟨_, size, name ++ keys, by simp, hsize, ?_⟩
  have hlen : (entries.take sealedCount).length = sealedCount := by
    rw [List.length_take]
    omega
  have hkeys := reads_keys hkeys
  rw [hlen] at hkeys
  have hclass : (if className.getD "" = "" then none else some (className.getD "")) = className := by
    cases className with
    | none => rfl
    | some s => simpa using hname
  have hdyn : ∃ d, d < 2 ∧ (if sealedCount < entries.length then 1 else 0) = d ∧
      decide (sealedCount < entries.length) = decide (d ≠ 0) := by
    by_cases h : sealedCount < entries.length
    · exact ⟨1, by omega, if_pos h, by simp [h]⟩
    · exact ⟨0, by omega, if_neg h, by simp [h]⟩
  obtain ⟨d, hd, hif, hdec⟩ := hdyn
  have hfield : (sealedCount * 8 + d * 4 + 1) / 8 = sealedCount := by omega
  have hbit : decide ((sealedCount * 8 + d * 4 + 1) / 4 % 2 ≠ 0) = decide (d ≠ 0) := by
    rw [show (sealedCount * 8 + d * 4 + 1) / 4 % 2 = d by omega]
  rw [hif, hdec]
  unfold decodeTrait
  rw [if_neg (by omega), if_neg (by omega), hfield]
  refine (reads_utf8_sized hname').bind (hkeys.bind_last ?_)
  rw [hclass, hbit]
  exact .silent_bind (.modify _) (.pure _)

theorem reads_object (hname : className ≠ some "") (hcount : sealedCount ≤ entries.length)
    (hkeys : ∀ p ∈ entries.drop sealedCount, p.key ≠ "") (ih : ∀ p ∈ entries, ReadsBack p.value)
    (htrait : encodeTrait className sealedCount entries = some trait)
    (hmembers : encodeMembers sealedCount entries = some members)
    (hfuel : members.length ≤ fuel) :
    Reads (decodeComplexType (decodeObject (decodeValue fuel) fuel)) (trait ++ members)
      (.object className sealedCount entries) := by
  obtain ⟨u28, size, rest, rfl, hsize, hrest⟩ := reads_trait hname hcount htrait
  obtain ⟨front, back, rfl, hfront, hback⟩ :=
    reads_members hcount hkeys ih hmembers hfuel hfuel
  rw [List.append_assoc]
  refine reads_complex hsize (hrest.bind (hfront.bind ?_))
  have hlen : ((entries.take sealedCount).map Pair.key).length = sealedCount := by
    rw [List.length_map, List.length_take]
    omega
  have h := hback.map fun dynamic => Amf3Value.object className sealedCount
    (entries.take sealedCount ++ dynamic)
  rw [List.take_append_drop] at h
  dsimp only
  rw [hlen]
  exact h

theorem reads_date (h : F64.Exact t) (len : Nat) :
    Reads (decodeDate len) (writeF64 (.ofI64 t)) (.date t) := by
  refine (reads_f64 _).bind_last ?_
  rw [if_pos (F64.isFinite_ofI64 t), dateOf_ofI64 h]
  exact .pure _

theorem reads_integer (h : encodeInteger i = some bytes) : ∃ u29,
    bytes = MARKER_INTEGER :: encodeU29 u29 ∧ Reads decodeInteger (encodeU29 u29) (.integer i) := by
  unfold encodeInteger at h
  split at h
  · rename_i hrange
    cases h
    refine ⟨_, rfl, ?_⟩
    have hlt : (if 0 ≤ i.toInt then i.toInt else 2 ^ 29 + i.toInt).toNat < 2 ^ 29 := by
      split <;> omega
    refine (reads_u29 hlt).bind_last ?_
    have hback : (if (if 0 ≤ i.toInt then i.toInt else 2 ^ 29 + i.toInt).toNat ≥ 2 ^ 28
        then ((if 0 ≤ i.toInt then i.toInt else 2 ^ 29 + i.toInt).toNat : Int) - 2 ^ 29
        else ((if 0 ≤ i.toInt then i.toInt else 2 ^ 29 + i.toInt).toNat : Int)) = i.toInt := by
      split <;> split <;> omega
    rw [hback, Int32.ofInt_toInt]
    exact .pure _
  · cases h

end Values

/-- The values that the format tells apart. Times of day must be exact as doubles,
and a name that the format uses as a mark must not be used as a name. -/
inductive Canonical : Amf3Value → Prop
  | undefined : Canonical .undefined
  | null : Canonical .null
  | boolean : Canonical (.boolean b)
  | integer : Canonical (.integer i)
  | double : Canonical (.double d)
  | string : Canonical (.string s)
  | xmlDocument : Canonical (.xmlDocument s)
  | date (exactMillis : F64.Exact t) : Canonical (.date t)
  | array (keyed : ∀ p ∈ assocEntries, p.key ≠ "")
      (assoc : ∀ p ∈ assocEntries, Canonical p.value)
      (dense : ∀ v ∈ denseEntries, Canonical v) : Canonical (.array assocEntries denseEntries)
  | object (named : className ≠ some "") (sealedMembers : sealedCount ≤ entries.length)
      (keyed : ∀ p ∈ entries.drop sealedCount, p.key ≠ "")
      (values : ∀ p ∈ entries, Canonical p.value) :
      Canonical (.object className sealedCount entries)
  | xml : Canonical (.xml s)
  | byteArray : Canonical (.byteArray bytes)
  | intVector : Canonical (.intVector isFixed ints)
  | uintVector : Canonical (.uintVector isFixed uints)
  | doubleVector : Canonical (.doubleVector isFixed doubles)
  | objectVector (named : className ≠ some "*") (values : ∀ v ∈ elements, Canonical v) :
      Canonical (.objectVector className isFixed elements)
  | dictionary (keys : ∀ p ∈ pairs, Canonical p.key) (values : ∀ p ∈ pairs, Canonical p.value) :
      Canonical (.dictionary isWeak pairs)

section Cases

theorem readsBack_empty (h : ∀ fuel, Reads (decodeMarked (decodeValue fuel) fuel marker) [] v)
    (he : encodeValue v = some [marker]) : ReadsBack v := by
  intro bytes fuel hb hfuel
  rw [he] at hb
  cases hb
  exact reads_marked hfuel fun fuel _ => h fuel

theorem readsBack_utf8 (marker : UInt8)
    (h : ∀ fuel bytes, encodeUtf8 s = some bytes →
      Reads (decodeMarked (decodeValue fuel) fuel marker) bytes v)
    (he : encodeValue v = (encodeUtf8 s).bind fun s => some (marker :: s)) : ReadsBack v := by
  intro bytes fuel hb hfuel
  rw [he, Option.bind_eq_some_iff] at hb
  obtain ⟨str, hstr, hbytes⟩ := hb
  cases hbytes
  exact reads_marked hfuel fun fuel _ => h fuel str hstr

theorem reads_text {f : Nat → Decode Amf3Value} (h : encodeUtf8 s = some bytes)
    (hf : Reads (f (utf8 s).length) (utf8 s) v) : Reads (decodeComplexType f) bytes v := by
  obtain ⟨size, hsize, hbytes⟩ := Option.bind_eq_some_iff.mp h
  cases hbytes
  exact reads_complex hsize hf

theorem readsBack_vector {read : Decode α} {write : α → Bytes}
    {make : Bool → List α → Amf3Value} {isFixed : Bool} {entries : List α}
    (hread : ∀ a, Reads read (write a) a)
    (hmark : ∀ value fuel, decodeMarked value fuel marker = decodeComplexType (decodeVector read make))
    (he : encodeValue (make isFixed entries) = encodeVector marker write isFixed entries) :
    ReadsBack (make isFixed entries) := by
  intro bytes fuel hb hfuel
  rw [he] at hb
  obtain ⟨size, hsize, hbytes⟩ := Option.bind_eq_some_iff.mp hb
  cases hbytes
  refine reads_marked hfuel fun fuel _ => ?_
  rw [hmark, List.append_assoc]
  exact reads_complex hsize (reads_vector hread make isFixed entries)

theorem readsBack_array (hkeys : ∀ p ∈ assocEntries, p.key ≠ "")
    (hassoc : ∀ p ∈ assocEntries, ReadsBack p.value) (hdense : ∀ v ∈ denseEntries, ReadsBack v) :
    ReadsBack (.array assocEntries denseEntries) := by
  intro bytes fuel hb hfuel
  simp only [encodeValue, Option.bind_eq_bind, Option.bind_eq_some_iff, Option.pure_def,
    Option.some.injEq] at hb
  obtain ⟨size, hsize, assoc, ha, dense, hd, rfl⟩ := hb
  refine reads_marked hfuel fun fuel hfuel => ?_
  simp only [List.length_append] at hfuel
  rw [List.append_assoc]
  have hlen : assoc.length ≤ fuel := by omega
  have hpairs := reads_pairs hkeys hassoc ha hlen hlen
  exact reads_complex hsize (hpairs.bind ((reads_values hdense hd (by omega)).map _))

theorem readsBack_object (hname : className ≠ some "") (hcount : sealedCount ≤ entries.length)
    (hkeys : ∀ p ∈ entries.drop sealedCount, p.key ≠ "")
    (ih : ∀ p ∈ entries, ReadsBack p.value) :
    ReadsBack (.object className sealedCount entries) := by
  intro bytes fuel hb hfuel
  simp only [encodeValue, Option.bind_eq_bind, Option.bind_eq_some_iff, Option.pure_def,
    Option.some.injEq] at hb
  obtain ⟨trait, ht, members, hm, rfl⟩ := hb
  refine reads_marked hfuel fun fuel hfuel => ?_
  rw [List.length_append] at hfuel
  exact reads_object hname hcount hkeys ih ht hm (by omega)

theorem readsBack_objectVector (hname : className ≠ some "*")
    (ih : ∀ v ∈ elements, ReadsBack v) :
    ReadsBack (.objectVector className isFixed elements) := by
  intro bytes fuel hb hfuel
  simp only [encodeValue, Option.bind_eq_bind, Option.bind_eq_some_iff, Option.pure_def,
    Option.some.injEq] at hb
  obtain ⟨size, hsize, name, hn, values, hv, rfl⟩ := hb
  refine reads_marked hfuel fun fuel hfuel => ?_
  simp only [List.length_append] at hfuel
  have hclass : (if className.getD "*" = "*" then none else some (className.getD "*")) =
      className := by
    cases className with
    | none => rfl
    | some s => simpa using hname
  have hflag : decide ((if isFixed then 1 else 0 : UInt8) ≠ 0) = isFixed := by
    cases isFixed <;> rfl
  rw [List.append_assoc, List.append_assoc]
  refine reads_complex hsize ((reads_u8 _).bind ((reads_utf8_sized hn).bind ?_))
  rw [hclass, hflag]
  exact (reads_values ih hv (by omega)).map _

theorem readsBack_dictionary (hkeys : ∀ p ∈ pairs, ReadsBack p.key)
    (ih : ∀ p ∈ pairs, ReadsBack p.value) : ReadsBack (.dictionary isWeak pairs) := by
  intro bytes fuel hb hfuel
  simp only [encodeValue, Option.bind_eq_bind, Option.bind_eq_some_iff, Option.pure_def,
    Option.some.injEq] at hb
  obtain ⟨size, hsize, values, hv, rfl⟩ := hb
  refine reads_marked hfuel fun fuel hfuel => ?_
  simp only [List.length_append] at hfuel
  have hflag : decide ((if isWeak then 1 else 0 : UInt8) = 1) = isWeak := by
    cases isWeak <;> rfl
  rw [List.append_assoc]
  refine reads_complex hsize ((reads_u8 _).bind ?_)
  rw [hflag]
  exact (reads_dictionary hkeys ih hv (by omega)).map _

end Cases

/-- By induction on the value: every nested value is read back before the value is. -/
theorem readsBack (h : Canonical v) : ReadsBack v := by
  induction h with
  | undefined => exact readsBack_empty (fun _ => .pure _) rfl
  | null => exact readsBack_empty (fun _ => .pure _) rfl
  | @boolean b => cases b <;> exact readsBack_empty (fun _ => .pure _) rfl
  | integer =>
    intro bytes fuel hb hfuel
    obtain ⟨u29, rfl, hread⟩ := reads_integer hb
    exact reads_marked hfuel fun _ _ => hread
  | double =>
    intro bytes fuel hb hfuel
    cases hb
    exact reads_marked hfuel fun _ _ => (reads_f64 _).map _
  | string => exact readsBack_utf8 MARKER_STRING (fun _ _ hs => (reads_utf8_sized hs).map _) rfl
  | xmlDocument =>
    exact readsBack_utf8 MARKER_XML_DOCUMENT
      (fun _ _ hs => reads_text hs ((reads_utf8 _).map _)) rfl
  | date ht =>
    intro bytes fuel hb hfuel
    simp only [encodeValue, encodeDate, Option.bind_eq_bind, Option.bind_eq_some_iff,
      Option.pure_def, Option.some.injEq] at hb
    obtain ⟨size, hsize, rfl⟩ := hb
    exact reads_marked hfuel fun _ _ => reads_complex hsize (reads_date ht _)
  | array hkeys _ _ hassoc hdense => exact readsBack_array hkeys hassoc hdense
  | object hname hcount hkeys _ ih => exact readsBack_object hname hcount hkeys ih
  | xml =>
    exact readsBack_utf8 MARKER_XML (fun _ _ hs => reads_text hs ((reads_utf8 _).map _)) rfl
  | byteArray =>
    intro bytes fuel hb hfuel
    obtain ⟨size, hsize, hbytes⟩ := Option.bind_eq_some_iff.mp hb
    cases hbytes
    exact reads_marked hfuel fun _ _ => reads_complex hsize ((reads_bytes _).map _)
  | intVector => exact readsBack_vector reads_i32 (fun _ _ => rfl) rfl
  | uintVector => exact readsBack_vector reads_u32 (fun _ _ => rfl) rfl
  | doubleVector => exact readsBack_vector reads_f64 (fun _ _ => rfl) rfl
  | objectVector hname _ ih => exact readsBack_objectVector hname ih
  | dictionary _ _ hkeys hvalues => exact readsBack_dictionary hkeys hvalues

end CheetahMedia.Rtmp.Amf3

namespace CheetahMedia.Rtmp
open Lib
open Lib.Reader (Reads)

theorem Amf3.ReadsBack.reads {v : Amf3Value} (h : Amf3.ReadsBack v)
    (he : v.encode = some bytes) : Reads (Amf3Value.decode : BytesReader σ Amf3Value) bytes v := by
  refine .remaining_bind fun n hn => ?_
  have hnested := Reads.nested (h bytes n he hn) {} (fun _ (s : σ) => s)
    (f := fun result => pure result.1) fun _ => .pure v
  rwa [List.append_nil] at hnested

theorem Amf3Value.reads_encode {v : Amf3Value} (h : Amf3.Canonical v)
    (he : v.encode = some bytes) : Reads (Amf3Value.decode : BytesReader σ Amf3Value) bytes v :=
  (Amf3.readsBack h).reads he

end CheetahMedia.Rtmp
