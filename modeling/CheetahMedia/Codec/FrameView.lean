import CheetahMedia.Codec.Annexb
import CheetahMedia.Codec.Extradata

namespace CheetahMedia.Codec
open Lib

/-- The units up to the first one that does not fit. -/
def convertUnitsWithin : Nat → Bytes → Bytes
  | 0, _ => []
  | passes + 1, cursor =>
    if 4 ≤ cursor.length then
      let size := fromBigEndian (cursor.take 4)
      let cursor := cursor.drop 4
      if size = 0 ∨ cursor.length < size then []
      else [0x00, 0x00, 0x00, 0x01] ++ cursor.take size ++
        convertUnitsWithin passes (cursor.drop size)
    else []

def convertToAnnexb (payload : Bytes) : Bytes :=
  if looksLikeAnnexb payload then payload
  else
    let out := convertUnitsWithin payload.length payload
    if out.isEmpty then payload else out

def annexbFromPayload (payload : Bytes) : Bytes := convertToAnnexb payload

/-- The units with their lengths in four bytes. -/
def lengthPrefixed (units : List Bytes) : Bytes :=
  units.flatMap fun unit => toBigEndian 4 unit.length ++ unit

theorem lengthPrefixed_cons (unit : Bytes) (units : List Bytes) :
    lengthPrefixed (unit :: units) =
      toBigEndian 4 unit.length ++ (unit ++ lengthPrefixed units) := by
  rw [lengthPrefixed, List.flatMap_cons, List.append_assoc]
  rfl

theorem annexbFromAccessUnit_cons (unit : Bytes) (units : List Bytes) :
    annexbFromAccessUnit (unit :: units) =
      [0x00, 0x00, 0x00, 0x01] ++ (unit ++ annexbFromAccessUnit units) := by
  rw [annexbFromAccessUnit, List.flatMap_cons, List.append_assoc]
  rfl

section Lengths

theorem toBigEndian_take (n : Nat) (rest : Bytes) :
    (toBigEndian 4 n ++ rest).take 4 = toBigEndian 4 n :=
  List.take_left' (toBigEndian_length 4 n)

theorem toBigEndian_drop (n : Nat) (rest : Bytes) : (toBigEndian 4 n ++ rest).drop 4 = rest :=
  List.drop_left' (toBigEndian_length 4 n)

/-- The length that is read back with what follows it. -/
theorem read_length (h : n < 2 ^ 32) (rest : Bytes) :
    4 ≤ (toBigEndian 4 n ++ rest).length ∧
      fromBigEndian ((toBigEndian 4 n ++ rest).take 4) = n ∧
      (toBigEndian 4 n ++ rest).drop 4 = rest := by
  refine ⟨?_, ?_, toBigEndian_drop n rest⟩
  · rw [List.length_append, toBigEndian_length]
    omega
  · rw [toBigEndian_take, from_toBigEndian_of_lt h]

theorem looksLikeAnnexb_eq (data : Bytes) : looksLikeAnnexb data =
    ([0x00, 0x00, 0x01].isPrefixOf data || [0x00, 0x00, 0x00, 0x01].isPrefixOf data) := by
  unfold looksLikeAnnexb
  split
  · rfl
  · rfl
  · rename_i hthree hfour
    symm
    rw [Bool.or_eq_false_iff, Bool.eq_false_iff, Bool.eq_false_iff, Ne, Ne,
      List.isPrefixOf_iff_prefix, List.isPrefixOf_iff_prefix]
    exact ⟨fun ⟨rest, hrest⟩ => hthree rest hrest.symm, fun ⟨rest, hrest⟩ => hfour rest hrest.symm⟩

theorem ofNat_eq_iff (hb : b < 256) : UInt8.ofNat n = UInt8.ofNat b ↔ n % 256 = b := by
  rw [← UInt8.toNat_inj, UInt8.toNat_ofNat', UInt8.toNat_ofNat']
  omega

/-- Lengths from 256 to 511, and of one byte, begin like a start code. -/
theorem looksLikeAnnexb_length (h : n < 2 ^ 32) (rest : Bytes) :
    looksLikeAnnexb (toBigEndian 4 n ++ rest) = true ↔ n = 1 ∨ 256 ≤ n ∧ n < 512 := by
  have hzero (m : Nat) : ((0 : UInt8) == UInt8.ofNat m) = true ↔ m % 256 = 0 := by
    rw [beq_iff_eq, eq_comm]
    exact ofNat_eq_iff (by decide)
  have hone (m : Nat) : ((1 : UInt8) == UInt8.ofNat m) = true ↔ m % 256 = 1 := by
    rw [beq_iff_eq, eq_comm]
    exact ofNat_eq_iff (by decide)
  rw [looksLikeAnnexb_eq]
  simp only [toBigEndian, List.cons_append, List.nil_append, List.isPrefixOf, Bool.or_eq_true,
    Bool.and_eq_true, hzero, hone, and_true]
  omega

end Lengths

section Forward

theorem convertUnitsWithin_units (h : ∀ unit ∈ units, unit ≠ [] ∧ unit.length < 2 ^ 32)
    (hpasses : units.length ≤ passes) :
    convertUnitsWithin passes (lengthPrefixed units) = annexbFromAccessUnit units := by
  induction units generalizing passes with
  | nil => cases passes <;> rfl
  | cons unit units ih =>
    obtain ⟨⟨hne, hlt⟩, hunits⟩ := List.forall_mem_cons.mp h
    obtain ⟨passes, rfl⟩ : ∃ n, passes = n + 1 :=
      Nat.exists_eq_add_of_lt (Nat.lt_of_lt_of_le (Nat.zero_lt_succ _) hpasses) |>.imp
        fun n hn => by omega
    obtain ⟨hfour, hsize, hdrop⟩ := read_length hlt (unit ++ lengthPrefixed units)
    have hfits : ¬(unit.length = 0 ∨ (unit ++ lengthPrefixed units).length < unit.length) := by
      rw [List.length_append, List.length_eq_zero_iff]
      rintro (hnil | hshort)
      · exact hne hnil
      · omega
    rw [lengthPrefixed_cons, annexbFromAccessUnit_cons, convertUnitsWithin, if_pos hfour, hsize,
      hdrop]
    dsimp only
    rw [if_neg hfits, List.take_left, List.drop_left, ih hunits (Nat.le_of_succ_le_succ hpasses),
      List.append_assoc]

theorem length_le_lengthPrefixed (units : List Bytes) :
    units.length ≤ (lengthPrefixed units).length := by
  induction units with
  | nil => exact Nat.le_refl _
  | cons unit units ih =>
    rw [lengthPrefixed_cons, List.length_append, List.length_append, toBigEndian_length,
      List.length_cons]
    omega

/-- Length-prefixed units that do not begin like a start code are converted. -/
theorem annexbFromPayload_units (h : ∀ unit ∈ units, unit ≠ [] ∧ unit.length < 2 ^ 32)
    (hne : units ≠ []) (hlooks : looksLikeAnnexb (lengthPrefixed units) = false) :
    annexbFromPayload (lengthPrefixed units) = annexbFromAccessUnit units := by
  obtain ⟨unit, units, rfl⟩ := List.exists_cons_of_ne_nil hne
  have hconvert := convertUnitsWithin_units h (length_le_lengthPrefixed (unit :: units))
  rw [annexbFromPayload, convertToAnnexb, hlooks, hconvert, annexbFromAccessUnit_cons]
  rfl

end Forward

/-- Where all units have one byte, both forms are the same. -/
theorem lengthPrefixed_eq_iff (h : ∀ unit ∈ units, unit.length < 2 ^ 32) :
    lengthPrefixed units = annexbFromAccessUnit units ↔ ∀ unit ∈ units, unit.length = 1 := by
  induction units with
  | nil => simp [lengthPrefixed, annexbFromAccessUnit]
  | cons unit units ih =>
    obtain ⟨hlt, hunits⟩ := List.forall_mem_cons.mp h
    have hcode : toBigEndian 4 unit.length = [0x00, 0x00, 0x00, 0x01] ↔ unit.length = 1 := by
      refine ⟨fun heq => ?_, fun heq => by rw [heq]; rfl⟩
      have hread : fromBigEndian (toBigEndian 4 unit.length) = unit.length :=
        from_toBigEndian_of_lt hlt
      rw [← hread, heq]
      rfl
    rw [lengthPrefixed_cons, annexbFromAccessUnit_cons, List.forall_mem_cons, ← ih hunits]
    constructor
    · intro heq
      obtain ⟨hlength, hrest⟩ := List.append_inj heq (by rw [toBigEndian_length]; rfl)
      exact ⟨hcode.mp hlength, List.append_cancel_left hrest⟩
    · rintro ⟨hlength, hrest⟩
      rw [hcode.mpr hlength, hrest]

section Backward

theorem looksLengthPrefixedWithin_units (h : ∀ unit ∈ units, unit ≠ [] ∧ unit.length < 2 ^ 32)
    (hpasses : units.length < passes) (hcount : 0 < count + units.length) :
    looksLikeH26xLengthPrefixedWithin passes count (lengthPrefixed units) = true := by
  induction units generalizing passes count with
  | nil =>
    have hpos : 0 < count := hcount
    obtain ⟨passes, rfl⟩ : ∃ n, passes = n + 1 := Nat.exists_eq_add_one.mpr hpasses
    simp [looksLikeH26xLengthPrefixedWithin, lengthPrefixed, hpos]
  | cons unit units ih =>
    obtain ⟨⟨hne, hlt⟩, hunits⟩ := List.forall_mem_cons.mp h
    obtain ⟨passes, rfl⟩ : ∃ n, passes = n + 1 :=
      ⟨passes - 1, by rw [List.length_cons] at hpasses; omega⟩
    obtain ⟨hfour, hsize, hdrop⟩ := read_length hlt (unit ++ lengthPrefixed units)
    have hfits : ¬(unit.length = 0 ||
        (unit ++ lengthPrefixed units).length < unit.length) = true := by
      simpa using hne
    rw [lengthPrefixed_cons, looksLikeH26xLengthPrefixedWithin, if_neg (by omega), hsize, hdrop]
    dsimp only
    rw [if_neg hfits, List.drop_left]
    exact ih hunits (Nat.lt_of_succ_lt_succ hpasses) (by omega)

theorem looksLikeH26xLengthPrefixed_units (h : ∀ unit ∈ units, unit ≠ [] ∧ unit.length < 2 ^ 32)
    (hne : units ≠ []) : looksLikeH26xLengthPrefixed (lengthPrefixed units) = true :=
  looksLengthPrefixedWithin_units h (Nat.lt_succ_of_le (length_le_lengthPrefixed units)) (by
    have := List.length_pos_iff.mpr hne
    omega)

/-- Annex B that does not look length-prefixed is converted. -/
theorem h26xLengthPrefixedFromPayload_units
    (h : ∀ unit ∈ units, Delimitable unit ∧ unit.length < 2 ^ 32) (hne : units ≠ [])
    (hlooks : looksLikeH26xLengthPrefixed (annexbFromAccessUnit units) = false) :
    h26xLengthPrefixedFromPayload (annexbFromAccessUnit units) = lengthPrefixed units := by
  have hsplit := splitAnnexbUnits_units fun unit hunit => (h unit hunit).1
  have hunits : lengthPrefixedUnits units = lengthPrefixed units := by
    rw [lengthPrefixedUnits, lengthPrefixed, List.flatMap_def, List.flatMap_def,
      List.map_congr_left fun unit hunit => if_pos (h unit hunit).2]
  obtain ⟨unit, rest, rfl⟩ := List.exists_cons_of_ne_nil hne
  have hannexb : looksLikeAnnexb (annexbFromAccessUnit (unit :: rest)) = true := by
    rw [annexbFromAccessUnit_cons]
    rfl
  have hpayload : (annexbFromAccessUnit (unit :: rest)).isEmpty = false := rfl
  have hout : (lengthPrefixed (unit :: rest)).isEmpty = false := rfl
  rw [h26xLengthPrefixedFromPayload, hpayload, hlooks, hannexb, hsplit]
  simp only [Bool.false_eq_true, if_false, if_true, hunits, hout, Bool.not_false]

end Backward

/-- A unit whose length in four bytes begins like a start code. -/
def LengthLikeCode (unit : Bytes) : Prop :=
  unit.length = 1 ∨ 256 ≤ unit.length ∧ unit.length < 512

/-- The two forms convert into each other exactly if they are the same, all units having one byte,
or the form of the input is guessed right both times. -/
theorem forms_convert_iff (h : ∀ unit ∈ units, Delimitable unit ∧ unit.length < 2 ^ 32)
    (hne : units ≠ []) :
    annexbFromPayload (lengthPrefixed units) = annexbFromAccessUnit units ∧
        h26xLengthPrefixedFromPayload (annexbFromAccessUnit units) = lengthPrefixed units ↔
      (∀ unit ∈ units, unit.length = 1) ∨ (∀ unit ∈ units.head?, ¬LengthLikeCode unit) ∧
        looksLikeH26xLengthPrefixed (annexbFromAccessUnit units) = false := by
  have hlengths (unit : Bytes) (hunit : unit ∈ units) : unit ≠ [] ∧ unit.length < 2 ^ 32 :=
    ⟨(h unit hunit).1.nonempty, (h unit hunit).2⟩
  have hsame := lengthPrefixed_eq_iff fun unit hunit => (hlengths unit hunit).2
  have hlooks : looksLikeAnnexb (lengthPrefixed units) = true ↔
      ∃ unit ∈ units.head?, LengthLikeCode unit := by
    obtain ⟨unit, rest, rfl⟩ := List.exists_cons_of_ne_nil hne
    rw [lengthPrefixed_cons, looksLikeAnnexb_length (hlengths unit List.mem_cons_self).2]
    simp [LengthLikeCode]
  constructor
  · rintro ⟨hforward, hbackward⟩
    by_cases hones : ∀ unit ∈ units, unit.length = 1
    · exact .inl hones
    refine .inr ⟨fun unit hunit hcode => hones (hsame.mp ?_), ?_⟩
    · rw [← hforward, annexbFromPayload, convertToAnnexb, if_pos (hlooks.mpr ⟨unit, hunit, hcode⟩)]
    · by_contra htrue
      refine hones (hsame.mp ?_)
      rw [Bool.not_eq_false] at htrue
      rw [← hbackward, h26xLengthPrefixedFromPayload, if_pos htrue, ite_self]
  · rintro (hones | ⟨hcode, hprefixed⟩)
    · have heq := hsame.mpr hones
      have hprefixed := looksLikeH26xLengthPrefixed_units hlengths hne
      constructor
      · rw [heq]
        obtain ⟨unit, rest, rfl⟩ := List.exists_cons_of_ne_nil hne
        rfl
      · rw [← heq, h26xLengthPrefixedFromPayload, if_pos hprefixed, ite_self]
    · refine ⟨annexbFromPayload_units hlengths hne ?_,
        h26xLengthPrefixedFromPayload_units h hne hprefixed⟩
      rw [Bool.eq_false_iff]
      intro htrue
      obtain ⟨unit, hunit, hlike⟩ := hlooks.mp htrue
      exact hcode unit hunit hlike

theorem forms_convert_two : (annexbFromPayload (lengthPrefixed [[0x67, 0x42], [0x68]]) =
      annexbFromAccessUnit [[0x67, 0x42], [0x68]] ∧
    h26xLengthPrefixedFromPayload (annexbFromAccessUnit [[0x67, 0x42], [0x68]]) =
      lengthPrefixed [[0x67, 0x42], [0x68]]) :=
  (forms_convert_iff (List.forall_mem_cons.mpr ⟨⟨⟨by decide, by decide, by decide⟩, by decide⟩,
    List.forall_mem_singleton.mpr ⟨⟨by decide, by decide, by decide⟩, by decide⟩⟩)
    (by decide)).mpr (.inr ⟨by
      intro unit hunit
      cases hunit
      unfold LengthLikeCode
      decide, by decide⟩)

/-- The length of a first unit with one byte is read as a start code. -/
theorem forms_confused : ¬∀ units : List Bytes, units ≠ [] →
    (∀ unit ∈ units, Delimitable unit ∧ unit.length < 2 ^ 32) →
      annexbFromPayload (lengthPrefixed units) = annexbFromAccessUnit units ∧
        h26xLengthPrefixedFromPayload (annexbFromAccessUnit units) = lengthPrefixed units := by
  intro h
  have hunits : ∀ unit ∈ [[0x09], [0x41, 0x9A]], Delimitable unit ∧ unit.length < 2 ^ 32 :=
    List.forall_mem_cons.mpr ⟨⟨⟨by decide, by decide, by decide⟩, by decide⟩,
      List.forall_mem_singleton.mpr ⟨⟨by decide, by decide, by decide⟩, by decide⟩⟩
  exact absurd (h [[0x09], [0x41, 0x9A]] (by decide) hunits).1 (by decide)

end CheetahMedia.Codec
