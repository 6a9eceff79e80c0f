import Mathlib.Data.Int.SuccPred
import Mathlib.Order.Monotone.Basic
import CheetahMedia.Lib.Padded

namespace CheetahMedia.Lib.Calendar

def IsLeap (year : Int) : Prop := year % 4 = 0 ∧ (year % 100 ≠ 0 ∨ year % 400 = 0)

instance (year : Int) : Decidable (IsLeap year) :=
  inferInstanceAs (Decidable (_ ∧ _))

def monthLength (year month : Int) : Int :=
  if month = 2 then if IsLeap year then 29 else 28
  else if month = 4 ∨ month = 6 ∨ month = 9 ∨ month = 11 then 30
  else 31

/-- A date of the Gregorian calendar, which also goes on before its introduction. -/
@[ext]
structure Date where
  year : Int
  month : Int
  day : Int
  month_pos : 1 ≤ month
  month_le : month ≤ 12
  day_pos : 1 ≤ day
  day_le : day ≤ monthLength year month

theorem monthLength_pos (year month : Int) : 1 ≤ monthLength year month := by
  unfold monthLength
  split
  · split <;> decide
  · split <;> decide

theorem monthLength_le (year month : Int) : monthLength year month ≤ 31 := by
  unfold monthLength
  split
  · split <;> decide
  · split <;> decide

theorem monthLength_december (year : Int) : monthLength year 12 = 31 := rfl

namespace Date

/-- The following day. -/
def next (d : Date) : Date :=
  if hday : d.day < monthLength d.year d.month then
    { d with
      day := d.day + 1
      day_pos := by have := d.day_pos; omega
      day_le := hday }
  else if hmonth : d.month < 12 then
    { year := d.year
      month := d.month + 1
      day := 1
      month_pos := by have := d.month_pos; omega
      month_le := hmonth
      day_pos := Int.le_refl 1
      day_le := monthLength_pos _ _ }
  else
    { year := d.year + 1
      month := 1
      day := 1
      month_pos := Int.le_refl 1
      month_le := by decide
      day_pos := Int.le_refl 1
      day_le := monthLength_pos _ _ }

/-- The day before. -/
def prev (d : Date) : Date :=
  if hday : 1 < d.day then
    { d with
      day := d.day - 1
      day_pos := by omega
      day_le := by have := d.day_le; omega }
  else if hmonth : 1 < d.month then
    { year := d.year
      month := d.month - 1
      day := monthLength d.year (d.month - 1)
      month_pos := by omega
      month_le := by have := d.month_le; omega
      day_pos := monthLength_pos _ _
      day_le := Int.le_refl _ }
  else
    { year := d.year - 1
      month := 12
      day := 31
      month_pos := by decide
      month_le := Int.le_refl 12
      day_pos := by decide
      day_le := Int.le_refl 31 }

theorem next_prev (d : Date) : d.prev.next = d := by
  obtain ⟨year, month, day, hmp, hml, hdp, hdl⟩ := d
  unfold prev
  dsimp only
  split
  · unfold next
    rw [dif_pos (by dsimp only; omega)]
    ext <;> dsimp only <;> omega
  · split
    · unfold next
      rw [dif_neg (by dsimp only; omega), dif_pos (by dsimp only; omega)]
      ext <;> dsimp only <;> omega
    · unfold next
      rw [dif_neg (by dsimp only; rw [monthLength_december]; omega), dif_neg (by dsimp only; omega)]
      ext <;> dsimp only <;> omega

theorem prev_next (d : Date) : d.next.prev = d := by
  obtain ⟨year, month, day, hmp, hml, hdp, hdl⟩ := d
  unfold next
  dsimp only
  split
  · unfold prev
    rw [dif_pos (by dsimp only; omega)]
    ext
    · rfl
    · rfl
    · dsimp only
      omega
  · split
    · unfold prev
      rw [dif_neg (by dsimp only; omega), dif_pos (by dsimp only; omega)]
      ext <;> dsimp only
      · omega
      · rw [Int.add_sub_cancel]
        omega
    · have hmonth : month = 12 := by omega
      obtain rfl := hmonth
      rw [monthLength_december] at hdl
      rename_i hday _
      rw [monthLength_december] at hday
      unfold prev
      rw [dif_neg (by dsimp only; omega), dif_neg (by dsimp only; omega)]
      ext <;> dsimp only <;> omega

theorem eq_next_of_day {d e : Date} (hyear : e.year = d.year) (hmonth : e.month = d.month)
    (hday : e.day = d.day + 1) : e = d.next := by
  have hlt : d.day < monthLength d.year d.month := by
    have := e.day_le
    rw [hyear, hmonth, hday] at this
    omega
  rw [next, dif_pos hlt]
  exact Date.ext hyear hmonth hday

theorem eq_next_of_month {d e : Date} (hover : d.day = monthLength d.year d.month)
    (hyear : e.year = d.year) (hmonth : e.month = d.month + 1) (hday : e.day = 1) :
    e = d.next := by
  have hlt : d.month < 12 := by
    have := e.month_le
    omega
  rw [next, dif_neg (by omega), dif_pos hlt]
  exact Date.ext hyear hmonth hday

theorem eq_next_of_year {d e : Date} (hover : d.day = monthLength d.year d.month)
    (hdecember : d.month = 12) (hyear : e.year = d.year + 1) (hmonth : e.month = 1)
    (hday : e.day = 1) : e = d.next := by
  rw [next, dif_neg (by omega), dif_neg (by omega)]
  exact Date.ext hyear hmonth hday

theorem next_injective : Function.Injective next := Function.LeftInverse.injective prev_next

/-- One date is before the other. -/
def Before (a b : Date) : Prop :=
  a.year < b.year ∨ a.year = b.year ∧ (a.month < b.month ∨ a.month = b.month ∧ a.day < b.day)

/-- A number that grows from date to date. -/
def key (d : Date) : Int := (d.year * 12 + d.month) * 31 + d.day

theorem before_iff_key {a b : Date} : a.Before b ↔ a.key < b.key := by
  have ha := a.day_le.trans (monthLength_le _ _)
  have hb := b.day_le.trans (monthLength_le _ _)
  have := a.month_pos
  have := a.month_le
  have := a.day_pos
  have := b.month_pos
  have := b.month_le
  have := b.day_pos
  unfold Before key
  omega

theorem key_lt_next (d : Date) : d.key < d.next.key := by
  have := d.day_le.trans (monthLength_le _ _)
  have := d.month_le
  have := d.month_pos
  unfold next key
  split
  · dsimp only
    omega
  · split
    · dsimp only
      omega
    · dsimp only
      omega

end Date

/-- The first day that has a number. -/
def epoch : Date where
  year := 1970
  month := 1
  day := 1
  month_pos := by decide
  month_le := by decide
  day_pos := by decide
  day_le := by decide

/-- The date of a day that is so many days after, or before, the epoch. -/
def dateOf : Int → Date
  | .ofNat n => Date.next^[n] epoch
  | .negSucc n => Date.prev^[n + 1] epoch

theorem dateOf_add_one (n : Int) : dateOf (n + 1) = (dateOf n).next := by
  cases n with
  | ofNat n => exact Function.iterate_succ_apply' Date.next n epoch
  | negSucc n =>
    rw [show dateOf (.negSucc n) = Date.prev (Date.prev^[n] epoch) from
      Function.iterate_succ_apply' Date.prev n epoch, Date.next_prev]
    cases n with
    | zero => rfl
    | succ n => rfl

/-- What starts at the epoch and goes from each day to the next one is the calendar. -/
theorem eq_dateOf {f : Int → Date} (hzero : f 0 = epoch) (hnext : ∀ n, f (n + 1) = (f n).next)
    (n : Int) : f n = dateOf n := by
  induction n using Int.induction_on with
  | zero => exact hzero
  | succ n ih => rw [hnext, dateOf_add_one, ih]
  | pred n ih =>
    refine Date.next_injective ?_
    rw [← hnext, ← dateOf_add_one, Int.sub_add_cancel]
    exact ih

theorem dateOf_before (h : m < n) : (dateOf m).Before (dateOf n) := by
  have hmono : StrictMono fun n => (dateOf n).key := strictMono_int_of_lt_succ fun n => by
    rw [dateOf_add_one]
    exact Date.key_lt_next _
  exact Date.before_iff_key.mpr (hmono h)

end CheetahMedia.Lib.Calendar

namespace CheetahMedia.Lib.Calendar
open Text

def dateText (d : Date) : Text :=
  paddedInt 4 d.year ++ '-' :: (paddedInt 2 d.month ++ '-' :: paddedInt 2 d.day)

/-- A time of the day, in milliseconds from its begin. -/
def timeText (ms : Int) : Text :=
  paddedInt 2 (ms / 3600000) ++ ':' :: (paddedInt 2 (ms / 60000 % 60) ++
    ':' :: (paddedInt 2 (ms / 1000 % 60) ++ '.' :: (paddedInt 3 (ms % 1000) ++ ['Z'])))

/-- Milliseconds since the epoch as the date and time in UTC. -/
def timestamp (unixMs : Int) : Text :=
  dateText (dateOf (unixMs / 86400000)) ++ 'T' :: timeText (unixMs % 86400000)

/-- The date has four digits for its year. -/
structure Date.Printable (d : Date) : Prop where
  nonneg : 0 ≤ d.year
  le : d.year ≤ 9999

/-- The instant falls in the years 0000 to 9999. -/
def Printable (unixMs : Int) : Prop := (dateOf (unixMs / 86400000)).Printable

theorem paddedInt_ofNat (width n : Nat) : paddedInt width n = padded width n := rfl

/-- The first number that differs decides. -/
theorem number_lt {a b : Int} (hw : 0 < width) (ha : 0 ≤ a) (ha' : a < 10 ^ width) (hb : 0 ≤ b)
    (hb' : b < 10 ^ width) {s t : Text} (h : a < b ∨ a = b ∧ s < t) :
    paddedInt width a ++ s < paddedInt width b ++ t := by
  rcases h with h | ⟨rfl, h⟩
  · obtain ⟨m, rfl⟩ := Int.eq_ofNat_of_zero_le ha
    obtain ⟨n, rfl⟩ := Int.eq_ofNat_of_zero_le hb
    have hm : m < 10 ^ width := by exact_mod_cast ha'
    have hn : n < 10 ^ width := by exact_mod_cast hb'
    rw [paddedInt_ofNat, paddedInt_ofNat]
    refine append_lt_append (padded_lt hw (by omega) hn) ?_ s t
    rw [padded_length hw hm, padded_length hw hn]
  · exact List.append_left_lt h

theorem separator_lt {s t : Text} (c : Char) (h : s < t) : c :: s < c :: t :=
  List.cons_lt_cons_iff.mpr (.inr ⟨rfl, h⟩)

theorem dateText_lt {a b : Date} (h : a.Before b) (ha : a.Printable) (hb : b.Printable)
    (s t : Text) : dateText a ++ s < dateText b ++ t := by
  have hday (d : Date) : d.day < 10 ^ 2 := by
    have := d.day_le.trans (monthLength_le _ _)
    omega
  have hmonth (d : Date) : d.month < 10 ^ 2 := by
    have := d.month_le
    omega
  have hpos (d : Date) : 0 ≤ d.month ∧ 0 ≤ d.day := by
    have := d.month_pos
    have := d.day_pos
    omega
  have hnonneg := ha.nonneg
  have hle := ha.le
  have hnonneg' := hb.nonneg
  have hle' := hb.le
  simp only [dateText, List.append_assoc, List.cons_append]
  refine number_lt (by decide) hnonneg (by omega) hnonneg' (by omega) ?_
  rcases h with h | ⟨hyear, h⟩
  · exact .inl h
  refine .inr ⟨hyear, separator_lt _ ?_⟩
  refine number_lt (by decide) (hpos a).1 (hmonth a) (hpos b).1 (hmonth b) ?_
  rcases h with h | ⟨hmonth, h⟩
  · exact .inl h
  refine .inr ⟨hmonth, separator_lt _ ?_⟩
  exact number_lt (by decide) (hpos a).2 (hday a) (hpos b).2 (hday b) (.inl h)

theorem timeText_lt {a b : Int} (h : a < b) (ha : 0 ≤ a) (hb : b < 86400000) :
    timeText a < timeText b := by
  refine number_lt (by decide) (by omega) (by omega) (by omega) (by omega) ?_
  by_cases hhour : a / 3600000 < b / 3600000
  · exact .inl hhour
  refine .inr ⟨by omega, separator_lt _ ?_⟩
  refine number_lt (by decide) (by omega) (by omega) (by omega) (by omega) ?_
  by_cases hminute : a / 60000 % 60 < b / 60000 % 60
  · exact .inl hminute
  refine .inr ⟨by omega, separator_lt _ ?_⟩
  refine number_lt (by decide) (by omega) (by omega) (by omega) (by omega) ?_
  by_cases hsecond : a / 1000 % 60 < b / 1000 % 60
  · exact .inl hsecond
  refine .inr ⟨by omega, separator_lt _ ?_⟩
  exact number_lt (by decide) (by omega) (by omega) (by omega) (by omega) (.inl (by omega))

/-- An earlier instant stands first. -/
theorem timestamp_lt (h : m < n) (hm : Printable m) (hn : Printable n) :
    timestamp m < timestamp n := by
  unfold timestamp
  rcases Int.lt_or_eq_of_le (show m / 86400000 ≤ n / 86400000 by omega) with hday | hday
  · exact dateText_lt (dateOf_before hday) hm hn _ _
  · rw [hday]
    exact List.append_left_lt (separator_lt _ (timeText_lt (by omega) (by omega) (by omega)))

end CheetahMedia.Lib.Calendar
