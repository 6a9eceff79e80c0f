import CheetahMedia.Lib.Text

namespace CheetahMedia.Lib.Text

/-- A number in decimal, with zeros in front up to the width. -/
def padded (width n : Nat) : Text :=
  List.replicate (width - (decimal n).length) '0' ++ decimal n

/-- An integer in decimal, with zeros in front up to the width; a sign takes part of the width. -/
def paddedInt (width : Nat) : Int → Text
  | .ofNat n => padded width n
  | .negSucc n => '-' :: padded (width - 1) (n + 1)

theorem decimal_length_le (hw : 0 < width) (h : n < 10 ^ width) : (decimal n).length ≤ width :=
  (Nat.length_toDigits_le_iff (by decide) hw).mpr h

theorem padded_length (hw : 0 < width) (h : n < 10 ^ width) : (padded width n).length = width := by
  have := decimal_length_le hw h
  rw [padded, List.length_append, List.length_replicate]
  omega

theorem isDigit_of_mem_padded (h : c ∈ padded width n) : c.isDigit := by
  rcases List.mem_append.mp h with hzero | hdigit
  · rw [List.eq_of_mem_replicate hzero]
    decide
  · exact isDigit_of_mem_decimal hdigit

theorem not_mem_paddedInt (h : c.isDigit = false) (hsign : c ≠ '-') (n : Int) :
    c ∉ paddedInt width n := by
  intro hmem
  cases n with
  | ofNat n => rw [isDigit_of_mem_padded hmem] at h; cases h
  | negSucc n =>
    rcases List.mem_cons.mp hmem with heq | hmem
    · exact hsign heq
    · rw [isDigit_of_mem_padded hmem] at h; cases h

/-- Spelled with digits and with characters of a text. -/
def Spelled (letters t : Text) : Prop := ∀ c ∈ t, c.isDigit = true ∨ c ∈ letters

instance (letters t : Text) : Decidable (Spelled letters t) := List.decidableBAll _ _

theorem Spelled.not_mem (h : Spelled letters t) (hdigit : c.isDigit = false)
    (hletters : c ∉ letters) : c ∉ t := fun hmem => by
  rcases h c hmem with hc | hc
  · rw [hdigit] at hc
    cases hc
  · exact hletters hc

theorem Spelled.append (hs : Spelled letters s) (ht : Spelled letters t) : Spelled letters (s ++ t) :=
  fun c hmem => (List.mem_append.mp hmem).elim (hs c) (ht c)

theorem spelled_decimal (letters : Text) (n : Nat) : Spelled letters (decimal n) :=
  fun _ hmem => .inl (isDigit_of_mem_decimal hmem)

theorem spelled_padded (letters : Text) (width n : Nat) : Spelled letters (padded width n) :=
  fun _ hmem => .inl (isDigit_of_mem_padded hmem)

theorem spelled_paddedInt (h : '-' ∈ letters) (width : Nat) (n : Int) :
    Spelled letters (paddedInt width n) := by
  cases n with
  | ofNat n => exact spelled_padded letters width n
  | negSucc n =>
    intro c hmem
    rcases List.mem_cons.mp hmem with rfl | hmem
    · exact .inr h
    · exact spelled_padded letters _ _ c hmem

/-- The last digit stands at the end. -/
theorem padded_succ (hw : 0 < width) (n : Nat) :
    padded (width + 1) n = padded width (n / 10) ++ [Nat.digitChar (n % 10)] := by
  unfold padded decimal
  by_cases hn : n < 10
  · have hzeros : List.replicate (width - 1) '0' ++ ['0'] = List.replicate width '0' := by
      rw [← List.replicate_succ', Nat.sub_add_cancel hw]
    rw [Nat.toDigits_of_lt_base hn, Nat.div_eq_of_lt hn, Nat.mod_eq_of_lt hn, Nat.toDigits_zero,
      List.length_singleton, List.length_singleton, hzeros, Nat.add_sub_cancel]
  · rw [Nat.toDigits_of_base_le (by decide) (by omega), List.length_append, List.length_singleton,
      Nat.add_sub_add_right, List.append_assoc]

theorem append_lt_append {a b : Text} (h : a < b) (hlength : a.length = b.length) (s t : Text) :
    a ++ s < b ++ t := by
  induction a generalizing b with
  | nil =>
    obtain rfl := List.length_eq_zero_iff.mp hlength.symm
    exact absurd h (List.lt_irrefl _)
  | cons c a ih =>
    cases b with
    | nil => cases hlength
    | cons d b =>
      rw [List.cons_append, List.cons_append, List.cons_lt_cons_iff]
      rcases List.cons_lt_cons_iff.mp h with hlt | ⟨heq, hlt⟩
      · exact .inl hlt
      · exact .inr ⟨heq, ih hlt (Nat.succ.inj hlength)⟩

theorem digitChar_lt (h : n < m) (hm : m < 10) : [Nat.digitChar n] < [Nat.digitChar m] := by
  have htoNat : (Nat.digitChar n).toNat < (Nat.digitChar m).toNat := by
    rw [Nat.toNat_digitChar_of_lt_ten (Nat.lt_trans h hm), Nat.toNat_digitChar_of_lt_ten hm]
    omega
  exact List.cons_lt_cons_iff.mpr (.inl (UInt32.lt_iff_toNat_lt.mpr htoNat))

/-- Of numbers that fit the smaller one stands first. -/
theorem padded_lt (hw : 0 < width) (h : n < m) (hm : m < 10 ^ width) :
    padded width n < padded width m := by
  induction width, hw using Nat.le_induction generalizing n m with
  | base =>
    have hone {k : Nat} (hk : k < 10) : padded 1 k = [Nat.digitChar k] := by
      rw [padded, decimal, Nat.toDigits_of_lt_base hk]
      rfl
    rw [hone (by omega), hone (by omega)]
    exact digitChar_lt h (by omega)
  | succ width hw ih =>
    have hdiv : m / 10 < 10 ^ width := by
      rw [Nat.pow_succ] at hm
      omega
    rw [padded_succ hw, padded_succ hw]
    rcases Nat.lt_or_eq_of_le (Nat.div_le_div_right (c := 10) (Nat.le_of_lt h)) with hlt | heq
    · refine append_lt_append (ih hlt hdiv) ?_ _ _
      rw [padded_length hw (Nat.lt_trans hlt hdiv), padded_length hw hdiv]
    · rw [heq]
      exact List.append_left_lt (digitChar_lt (by omega) (Nat.mod_lt m (by decide)))

theorem padded_injective (hw : 0 < width) (hn : n < 10 ^ width) (hm : m < 10 ^ width)
    (h : padded width n = padded width m) : n = m := by
  rcases Nat.lt_trichotomy n m with hlt | heq | hlt
  · exact absurd (h ▸ padded_lt hw hlt hm) (List.lt_irrefl _)
  · exact heq
  · exact absurd (h ▸ padded_lt hw hlt hn) (List.lt_irrefl _)

end CheetahMedia.Lib.Text
