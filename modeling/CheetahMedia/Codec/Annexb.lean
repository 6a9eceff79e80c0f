import CheetahMedia.Codec.Video

namespace CheetahMedia.Codec

/-- What is behind the start code that the bytes begin with. -/
def behindStartCode : Bytes → Option Bytes
  | 0 :: 0 :: 1 :: rest => some rest
  | 0 :: 0 :: 0 :: 1 :: rest => some rest
  | _ => none

/-- How far a unit of the RTP path reaches: up to the next start code, or to the end. -/
def unitLength : Bytes → Nat
  | [] => 0
  | b :: rest => if (behindStartCode (b :: rest)).isSome then 0 else unitLength rest + 1

/-- `split_annexb` from the cursor on. Each pass moves the cursor, so the length of the payload
bounds the passes. -/
def splitAnnexbWithin : Nat → Bytes → List Bytes
  | passes + 1, b :: payload =>
    match behindStartCode (b :: payload) with
    | none => splitAnnexbWithin passes payload
    | some [] => []
    | some rest =>
      let units := splitAnnexbWithin passes (rest.drop (unitLength rest))
      if 0 < unitLength rest then rest.take (unitLength rest) :: units else units
  | _, _ => []

def splitAnnexb (payload : Bytes) : List Bytes := splitAnnexbWithin payload.length payload

/-- Bytes with a start code anywhere. -/
abbrev HasStartCode (unit : Bytes) : Prop := [0x00, 0x00, 0x01] <:+: unit

/-- A unit that a start code before it and one behind it do not blur. -/
structure Delimitable (unit : Bytes) : Prop where
  nonempty : unit ≠ []
  codeless : ¬ HasStartCode unit
  last : unit.getLast? ≠ some 0x00

theorem findStartCode_behind (h : behindStartCode payload = some rest) :
    ∃ codeLen, findStartCode payload = some (0, codeLen) ∧ payload.drop codeLen = rest ∧
      rest.length + 3 ≤ payload.length := by
  unfold behindStartCode at h
  split at h
  · cases h
    exact ⟨3, rfl, rfl, Nat.le_refl _⟩
  · cases h
    exact ⟨4, rfl, rfl, Nat.le_succ _⟩
  · cases h

theorem findStartCode_ahead (h : behindStartCode (b :: payload) = none) :
    findStartCode (b :: payload) = (findStartCode payload).map fun r => (r.1 + 1, r.2) := by
  unfold behindStartCode at h
  split at h
  · cases h
  · cases h
  · rename_i h₃ h₄
    rw [findStartCode]
    · rintro rest rfl rfl
      exact h₃ rest rfl
    · rintro rest rfl rfl
      exact h₄ rest rfl

/-- Both ways to tell where a unit ends. -/
theorem unitLength_eq (payload : Bytes) :
    unitLength payload = ((findStartCode payload).map (·.1)).getD payload.length := by
  induction payload with
  | nil => rfl
  | cons b payload ih =>
    rw [unitLength]
    cases hbehind : behindStartCode (b :: payload) with
    | some rest =>
      obtain ⟨codeLen, hfind, -⟩ := findStartCode_behind hbehind
      rw [hfind]
      rfl
    | none =>
      rw [findStartCode_ahead hbehind, if_neg (by simp), ih]
      cases findStartCode payload <;> rfl

theorem splitAnnexbUnitsWithin_ahead (h : behindStartCode (b :: payload) = none) (passes : Nat) :
    splitAnnexbUnitsWithin passes (b :: payload) = splitAnnexbUnitsWithin passes payload := by
  cases passes with
  | zero => rfl
  | succ passes =>
    rw [splitAnnexbUnitsWithin, splitAnnexbUnitsWithin, findStartCode_ahead h]
    cases findStartCode payload with
    | none => rfl
    | some r =>
      have hdrop : r.1 + 1 + r.2 = r.1 + r.2 + 1 := by omega
      simp only [Option.map_some, hdrop, List.drop_succ_cons]

theorem splitAnnexbUnitsWithin_nil (passes : Nat) : splitAnnexbUnitsWithin passes [] = [] := by
  cases passes <;> rfl

theorem splitAnnexbWithin_eq (hn : payload.length ≤ n) (hm : payload.length ≤ m) :
    splitAnnexbWithin n payload = splitAnnexbUnitsWithin m payload := by
  induction n generalizing payload m with
  | zero =>
    obtain rfl := List.length_eq_zero_iff.mp (Nat.le_zero.mp hn)
    rw [splitAnnexbUnitsWithin_nil]
    rfl
  | succ n ih =>
    cases payload with
    | nil => rw [splitAnnexbUnitsWithin_nil]; rfl
    | cons b payload =>
      rw [List.length_cons] at hn hm
      rw [splitAnnexbWithin]
      cases hbehind : behindStartCode (b :: payload) with
      | none => rw [splitAnnexbUnitsWithin_ahead hbehind, ← ih (by omega) (by omega)]
      | some rest =>
        obtain ⟨codeLen, hfind, hdrop, hle⟩ := findStartCode_behind hbehind
        rw [List.length_cons] at hle
        obtain ⟨m, rfl⟩ : ∃ m', m = m' + 1 := ⟨m - 1, by omega⟩
        rw [splitAnnexbUnitsWithin, hfind]
        simp only [Nat.zero_add, hdrop, ← unitLength_eq]
        cases rest with
        | nil => simp [unitLength, splitAnnexbUnitsWithin_nil]
        | cons c rest =>
          have hrest : ((c :: rest).drop (unitLength (c :: rest))).length ≤ rest.length + 1 := by
            rw [List.length_drop, List.length_cons]
            omega
          rw [List.length_cons] at hle
          dsimp only
          rw [ih (m := m) (by omega) (by omega)]

/-- The two splitters cut a payload alike. -/
theorem splitAnnexb_eq (payload : Bytes) : splitAnnexb payload = splitAnnexbUnits payload :=
  splitAnnexbWithin_eq (Nat.le_refl _) (Nat.le_refl _)

theorem Delimitable.tail (h : Delimitable (b :: c :: unit)) : Delimitable (c :: unit) where
  nonempty := List.cons_ne_nil c unit
  codeless hcode := h.codeless (hcode.trans (List.suffix_cons b _).isInfix)
  last := by
    have hlast := h.last
    rwa [List.getLast?_cons_cons] at hlast

/-- No start code begins inside of such a unit, whatever follows it. -/
theorem Delimitable.behind (h : Delimitable (b :: unit)) (rest : Bytes) :
    behindStartCode (b :: (unit ++ rest)) = none := by
  unfold behindStartCode
  split
  · rename_i heq
    obtain ⟨rfl, htail⟩ := List.cons.inj heq
    rcases unit with _ | ⟨c, _ | ⟨d, unit⟩⟩
    · exact absurd rfl h.last
    · obtain ⟨rfl, -⟩ := List.cons.inj htail
      exact absurd rfl h.last
    · simp only [List.cons_append, List.cons.injEq] at htail
      obtain ⟨rfl, rfl, -⟩ := htail
      exact absurd ⟨[], unit, rfl⟩ h.codeless
  · rename_i heq
    obtain ⟨rfl, htail⟩ := List.cons.inj heq
    rcases unit with _ | ⟨c, _ | ⟨d, _ | ⟨e, unit⟩⟩⟩
    · exact absurd rfl h.last
    · obtain ⟨rfl, -⟩ := List.cons.inj htail
      exact absurd rfl h.last
    · simp only [List.cons_append, List.cons.injEq] at htail
      obtain ⟨-, rfl, -⟩ := htail
      exact absurd rfl h.last
    · simp only [List.cons_append, List.cons.injEq] at htail
      obtain ⟨rfl, rfl, rfl, -⟩ := htail
      exact absurd ⟨[0], unit, rfl⟩ h.codeless
  · rfl

theorem Delimitable.findStartCode (h : Delimitable unit) (rest : Bytes) :
    findStartCode (unit ++ 0 :: 0 :: 0 :: 1 :: rest) = some (unit.length, 4) := by
  induction unit with
  | nil => exact absurd rfl h.nonempty
  | cons b unit ih =>
    rw [List.cons_append, findStartCode_ahead (h.behind _)]
    cases unit with
    | nil => rfl
    | cons c unit => rw [ih h.tail]; rfl

theorem Delimitable.findStartCode_none (h : Delimitable unit) : Codec.findStartCode unit = none := by
  induction unit with
  | nil => rfl
  | cons b unit ih =>
    have hbehind := h.behind []
    rw [List.append_nil] at hbehind
    rw [findStartCode_ahead hbehind]
    cases unit with
    | nil => rfl
    | cons c unit => rw [ih h.tail]; rfl

theorem splitAnnexbUnitsWithin_units (h : ∀ unit ∈ units, Delimitable unit)
    (hpasses : units.length ≤ passes) :
    splitAnnexbUnitsWithin passes (annexbFromAccessUnit units) = units := by
  induction units generalizing passes with
  | nil => exact splitAnnexbUnitsWithin_nil passes
  | cons unit units ih =>
    obtain ⟨hunit, hunits⟩ := List.forall_mem_cons.mp h
    obtain ⟨passes, rfl⟩ : ∃ passes', passes = passes' + 1 :=
      ⟨passes - 1, by rw [List.length_cons] at hpasses; omega⟩
    have hlen : 0 < unit.length := List.length_pos_iff.mpr hunit.nonempty
    have hbytes : annexbFromAccessUnit (unit :: units) =
        0 :: 0 :: 0 :: 1 :: (unit ++ annexbFromAccessUnit units) := by
      simp [annexbFromAccessUnit]
    have hnext : ((findStartCode (unit ++ annexbFromAccessUnit units)).map (·.1)).getD
        (unit ++ annexbFromAccessUnit units).length = unit.length := by
      cases units with
      | nil => 
        have hnone := hunit.findStartCode_none
        simp [annexbFromAccessUnit, hnone]
      | cons next units => 
        have hsome := hunit.findStartCode (next ++ annexbFromAccessUnit units)
        simp only [annexbFromAccessUnit, List.flatMap_cons, List.cons_append, List.nil_append] at *
        rw [hsome]
        rfl
    rw [List.length_cons] at hpasses
    have hrest := ih hunits (show units.length ≤ passes by omega)
    rw [hbytes, splitAnnexbUnitsWithin]
    simp only [findStartCode, Nat.zero_add, List.drop_succ_cons, List.drop_zero, hnext, hlen,
      if_true, List.take_left, List.drop_left, hrest]

/-- The units that an access unit was put together from are cut out of it again. -/
theorem splitAnnexbUnits_units (h : ∀ unit ∈ units, Delimitable unit) :
    splitAnnexbUnits (annexbFromAccessUnit units) = units := by
  refine splitAnnexbUnitsWithin_units h ?_
  induction units with
  | nil => exact Nat.zero_le _
  | cons unit units ih =>
    have := ih fun unit hunit => h unit (List.mem_cons_of_mem _ hunit)
    simp only [annexbFromAccessUnit, List.flatMap_cons, List.length_append, List.length_cons] at *
    omega

/-- Annex B can be read back: the two splitters cut every payload alike, and they give back the
units that an access unit was put together from. -/
theorem annexb_splitters_agree : (∀ payload, splitAnnexb payload = splitAnnexbUnits payload) ∧
    ∀ units, (∀ unit ∈ units, Delimitable unit) →
      splitAnnexbUnits (annexbFromAccessUnit units) = units ∧
        splitAnnexb (annexbFromAccessUnit units) = units :=
  ⟨splitAnnexb_eq, fun units h => ⟨splitAnnexbUnits_units h, by
    rw [splitAnnexb_eq, splitAnnexbUnits_units h]⟩⟩

theorem annexb_splitters_agree_zeros :
    splitAnnexbUnits (annexbFromAccessUnit [[0x67, 0, 0, 3], [0, 0, 0x41]]) =
        [[0x67, 0, 0, 3], [0, 0, 0x41]] ∧
      splitAnnexb (annexbFromAccessUnit [[0x67, 0, 0, 3], [0, 0, 0x41]]) =
        [[0x67, 0, 0, 3], [0, 0, 0x41]] :=
  annexb_splitters_agree.2 _ (List.forall_mem_cons.mpr
    ⟨⟨by decide, by decide, by decide⟩,
      List.forall_mem_singleton.mpr ⟨by decide, by decide, by decide⟩⟩)

end CheetahMedia.Codec
