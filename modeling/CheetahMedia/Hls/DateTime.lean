import Mathlib.Tactic.IntervalCases
import CheetahMedia.Lib.Calendar

namespace CheetahMedia.Hls
open Lib Lib.Calendar Lib.Text

/-- The date of a number of days since 1970-01-01. -/
def civilFromDays (daysSinceEpoch : Int) : Int × Int × Int :=
  let z := daysSinceEpoch + 719468
  let era := (if z ≥ 0 then z else z - 146096).tdiv 146097
  let doe := z - era * 146097
  let yoe := (doe - doe.tdiv 1460 + doe.tdiv 36524 - doe.tdiv 146096).tdiv 365
  let y := yoe + era * 400
  let doy := doe - (365 * yoe + yoe.tdiv 4 - yoe.tdiv 100)
  let mp := (5 * doy + 2).tdiv 153
  let d := doy - (153 * mp + 2).tdiv 5 + 1
  let m := if mp < 10 then mp + 3 else mp - 9
  (if m ≤ 2 then y + 1 else y, m, d)

/-- Milliseconds since the epoch as a date and time. -/
def formatIso8601 (unixMs : Int) : Text :=
  let secs := unixMs.tdiv 1000
  let millis := (unixMs.tmod 1000).natAbs
  let daysSinceEpoch := secs.tdiv 86400
  let timeOfDay := (secs.tmod 86400 + 86400).tmod 86400
  let hours := timeOfDay.tdiv 3600
  let minutes := (timeOfDay.tmod 3600).tdiv 60
  let seconds := timeOfDay.tmod 60
  let (y, m, d) := civilFromDays daysSinceEpoch
  paddedInt 4 y ++ '-' :: (paddedInt 2 m ++ '-' :: (paddedInt 2 d ++ 'T' :: (paddedInt 2 hours ++
    ':' :: (paddedInt 2 minutes ++ ':' :: (paddedInt 2 seconds ++ '.' ::
      (padded 3 millis ++ ['Z']))))))

example : formatIso8601 1778893323456 = "2026-05-16T01:02:03.456Z".toList := by decide +kernel

section Years

/-- The days from the first of March of year 0 to the first of March of this year. -/
def yearStart (y : Int) : Int := 365 * y + y / 4 - y / 100 + y / 400

/-- The year of an era as the code finds it. -/
def yearOfEra (doe : Int) : Int := (doe - doe / 1460 + doe / 36524 - doe / 146096) / 365

theorem yearOfEra_mono {a b : Int} (h : a ≤ b) : yearOfEra a ≤ yearOfEra b := by
  have hstep (n : Int) : n - n / 1460 + n / 36524 - n / 146096 ≤
      (n + 1) - (n + 1) / 1460 + (n + 1) / 36524 - (n + 1) / 146096 := by omega
  have hmono : Monotone fun n : Int => n - n / 1460 + n / 36524 - n / 146096 :=
    monotone_int_of_le_succ hstep
  exact Int.ediv_le_ediv (by decide) (hmono h)

/-- At both ends of each of the 400 years of an era the code finds the year. -/
theorem yearOfEra_ends (hlow : 0 ≤ y) (hhigh : y < 400) :
    yearOfEra (yearStart y) = y ∧ yearOfEra (yearStart (y + 1) - 1) = y := by
  have hall : (List.range 400).all (fun n => yearOfEra (yearStart n) = n ∧
      yearOfEra (yearStart (n + 1) - 1) = n) = true := by decide +kernel
  obtain ⟨n, rfl⟩ := Int.eq_ofNat_of_zero_le hlow
  have hn := List.all_eq_true.mp hall n (List.mem_range.mpr (by omega))
  exact of_decide_eq_true hn

theorem yearOfEra_spec (hlow : 0 ≤ doe) (hhigh : doe < 146097) :
    0 ≤ yearOfEra doe ∧ yearOfEra doe < 400 ∧ yearStart (yearOfEra doe) ≤ doe ∧
      doe < yearStart (yearOfEra doe + 1) := by
  have hfirst : 0 ≤ yearOfEra doe := yearOfEra_mono (a := 0) hlow
  have hlast : yearOfEra doe ≤ 399 := yearOfEra_mono (b := 146096) (by omega)
  refine ⟨hfirst, by omega, ?_, ?_⟩
  · by_contra hlt
    have hpos : 1 ≤ yearOfEra doe := by
      by_contra hzero
      have hyear : yearOfEra doe = 0 := by omega
      rw [hyear] at hlt
      exact hlt hlow
    have hbefore := yearOfEra_mono (a := doe) (b := yearStart (yearOfEra doe - 1 + 1) - 1) (by
      rw [Int.sub_add_cancel]
      omega)
    rw [(yearOfEra_ends (by omega) (by omega)).2] at hbefore
    omega
  · by_contra hge
    have hyear : yearOfEra doe + 1 < 400 := by
      by_contra hend
      have hyear : yearOfEra doe = 399 := by omega
      rw [hyear] at hge
      exact hge hhigh
    have hafter := yearOfEra_mono (a := yearStart (yearOfEra doe + 1)) (b := doe) (by omega)
    rw [(yearOfEra_ends (by omega) hyear).1] at hafter
    omega

theorem yearStart_add_eras (y era : Int) : yearStart (y + 400 * era) =
    yearStart y + 146097 * era := by
  unfold yearStart
  omega

theorem yearStart_mono {a b : Int} (h : a ≤ b) : yearStart a ≤ yearStart b := by
  unfold yearStart
  omega

theorem yearLength (y : Int) :
    yearStart (y + 1) - yearStart y = if IsLeap (y + 1) then 366 else 365 := by
  unfold yearStart
  by_cases h : IsLeap (y + 1)
  · rw [if_pos h]
    unfold IsLeap at h
    omega
  · rw [if_neg h]
    unfold IsLeap at h
    omega

/-- The day lies in the year that begins in this March. -/
structure InYear (z y doy : Int) : Prop where
  eq : z = yearStart y + doy
  nonneg : 0 ≤ doy
  lt : z < yearStart (y + 1)

theorem InYear.le (h : InYear z y doy) : doy ≤ 365 := by
  have hlength := yearLength y
  have := h.eq
  have := h.lt
  split at hlength <;> omega

/-- The day after is the next day of the year or the first of the next year. -/
theorem InYear.next (h : InYear z y doy) (h' : InYear (z + 1) y' doy') :
    y' = y ∧ doy' = doy + 1 ∨ y' = y + 1 ∧ doy' = 0 ∧ z + 1 = yearStart (y + 1) := by
  obtain ⟨heq, hnonneg, hlt⟩ := h
  obtain ⟨heq', hnonneg', hlt'⟩ := h'
  rcases Int.lt_trichotomy y y' with hyear | rfl | hyear
  · have hfirst := yearStart_mono (a := y + 1) (b := y') hyear
    rcases Int.lt_or_eq_of_le (show y + 1 ≤ y' from hyear) with hlater | rfl
    · have hsecond := yearStart_mono (a := y + 1 + 1) (b := y') hlater
      have hlength := yearLength (y + 1)
      split at hlength <;> omega
    · omega
  · omega
  · have := yearStart_mono (a := y' + 1) (b := y) hyear
    omega

/-- The year, the month and the day of the day with this number in a year that begins in March. -/
def marchDate (y doy : Int) : Int × Int × Int :=
  let mp := (5 * doy + 2) / 153
  (if mp < 10 then y else y + 1, if mp < 10 then mp + 3 else mp - 9, doy - (153 * mp + 2) / 5 + 1)

theorem civilFromDays_eq (n : Int) :
    ∃ y doy, InYear (n + 719468) y doy ∧ civilFromDays n = marchDate y doy := by
  have hera : (if n + 719468 ≥ 0 then n + 719468 else n + 719468 - 146096).tdiv 146097 =
      (n + 719468) / 146097 := by
    rw [Int.tdiv_eq_ediv, show (146097 : Int).sign = 1 from rfl]
    split <;> split <;> omega
  have hdoe : n + 719468 - (n + 719468) / 146097 * 146097 = (n + 719468) % 146097 := by omega
  unfold civilFromDays
  dsimp only
  rw [hera, hdoe]
  generalize hz : n + 719468 = z
  have hlow : 0 ≤ z % 146097 := by omega
  have hhigh : z % 146097 < 146097 := by omega
  generalize hdoe : z % 146097 = doe at hlow hhigh
  obtain ⟨hyoe, hyoe', hstart, hend⟩ := yearOfEra_spec hlow hhigh
  have hcode : (doe - doe.tdiv 1460 + doe.tdiv 36524 - doe.tdiv 146096).tdiv 365 =
      yearOfEra doe := by
    rw [Int.tdiv_eq_ediv_of_nonneg hlow, Int.tdiv_eq_ediv_of_nonneg hlow,
      Int.tdiv_eq_ediv_of_nonneg hlow, Int.tdiv_eq_ediv_of_nonneg (by omega)]
    rfl
  rw [hcode]
  generalize yearOfEra doe = yoe at hyoe hyoe' hstart hend
  rw [Int.tdiv_eq_ediv_of_nonneg hyoe, Int.tdiv_eq_ediv_of_nonneg hyoe]
  have hdoy : doe - (365 * yoe + yoe / 4 - yoe / 100) = doe - yearStart yoe := by
    unfold yearStart
    omega
  rw [hdoy]
  have hyear : InYear z (yoe + z / 146097 * 400) (doe - yearStart yoe) := by
    have hstarts := yearStart_add_eras yoe (z / 146097)
    have hends := yearStart_add_eras (yoe + 1) (z / 146097)
    rw [Int.mul_comm _ (400 : Int)]
    refine ⟨?_, by omega, ?_⟩
    · omega
    · rw [Int.add_right_comm]
      omega
  refine ⟨_, _, hyear, ?_⟩
  generalize doe - yearStart yoe = doy at hyear
  have hle := hyear.le
  have hnonneg := hyear.nonneg
  rw [Int.tdiv_eq_ediv_of_nonneg (a := 5 * doy + 2) (by omega)]
  unfold marchDate
  dsimp only
  rw [Int.tdiv_eq_ediv_of_nonneg (by omega)]
  split <;> split <;> first | rfl | omega

/-- Where the months begin in a year that begins in March. -/
theorem month_bounds (h : InYear z y doy) : 0 ≤ (5 * doy + 2) / 153 ∧ (5 * doy + 2) / 153 ≤ 11 ∧
    (153 * ((5 * doy + 2) / 153) + 2) / 5 ≤ doy ∧
    doy < (153 * ((5 * doy + 2) / 153 + 1) + 2) / 5 := by
  have := h.nonneg
  have := h.le
  omega

/-- So long are the months from March to January. -/
theorem monthLength_march (y : Int) (hlow : 0 ≤ mp) (hhigh : mp ≤ 10) :
    monthLength (if mp < 10 then y else y + 1) (if mp < 10 then mp + 3 else mp - 9) =
      (153 * (mp + 1) + 2) / 5 - (153 * mp + 2) / 5 := by
  obtain ⟨n, rfl⟩ := Int.eq_ofNat_of_zero_le hlow
  have hn : n ≤ 10 := by omega
  interval_cases n <;> rfl

/-- February goes to the end of the year. -/
theorem monthLength_february (y : Int) :
    monthLength (y + 1) 2 = yearStart (y + 1) - yearStart y - 337 := by
  rw [yearLength, monthLength, if_pos rfl]
  split <;> rfl

theorem marchDate_day_le (h : InYear z y doy) :
    (marchDate y doy).2.2 ≤ monthLength (marchDate y doy).1 (marchDate y doy).2.1 := by
  obtain ⟨hlow, hhigh, hfirst, hlast⟩ := month_bounds h
  unfold marchDate
  dsimp only
  generalize (5 * doy + 2) / 153 = mp at hlow hhigh hfirst hlast
  by_cases hfebruary : mp ≤ 10
  · rw [monthLength_march y hlow hfebruary]
    omega
  · obtain rfl : mp = 11 := by omega
    have := h.eq
    have := h.lt
    show _ ≤ monthLength (y + 1) 2
    rw [monthLength_february]
    omega

/-- The date of the day with this number from the first of March of year 0. -/
def InYear.date (h : InYear z y doy) : Date where
  year := (marchDate y doy).1
  month := (marchDate y doy).2.1
  day := (marchDate y doy).2.2
  month_pos := by
    obtain ⟨hlow, hhigh, -⟩ := month_bounds h
    unfold marchDate
    dsimp only
    split <;> omega
  month_le := by
    obtain ⟨hlow, hhigh, -⟩ := month_bounds h
    unfold marchDate
    dsimp only
    split <;> omega
  day_pos := by
    obtain ⟨-, -, hfirst, -⟩ := month_bounds h
    unfold marchDate
    dsimp only
    omega
  day_le := marchDate_day_le h

theorem InYear.date_fields (h : InYear z y doy) (hmp : (5 * doy + 2) / 153 = mp) :
    h.date.year = (if mp < 10 then y else y + 1) ∧
      h.date.month = (if mp < 10 then mp + 3 else mp - 9) ∧
      h.date.day = doy - (153 * mp + 2) / 5 + 1 := by
  subst hmp
  exact ⟨rfl, rfl, rfl⟩

theorem InYear.date_next (h : InYear z y doy) (h' : InYear (z + 1) y' doy') :
    h'.date = h.date.next := by
  obtain ⟨hlow, hhigh, hfirst, hlast⟩ := month_bounds h
  obtain ⟨-, hhigh', -⟩ := month_bounds h'
  generalize hmp : (5 * doy + 2) / 153 = mp at hlow hhigh hfirst hlast
  generalize hmp' : (5 * doy' + 2) / 153 = mp' at hhigh'
  obtain ⟨hy, hm, hd⟩ := h.date_fields hmp
  obtain ⟨hy', hm', hd'⟩ := h'.date_fields hmp'
  rcases h.next h' with ⟨rfl, rfl⟩ | ⟨rfl, rfl, hstart⟩
  · by_cases hsame : mp' = mp
    · obtain rfl := hsame
      exact Date.eq_next_of_day (hy'.trans hy.symm) (hm'.trans hm.symm) (by omega)
    · obtain rfl : mp' = mp + 1 := by omega
      have hover : h.date.day = monthLength h.date.year h.date.month := by
        rw [hy, hm, hd, monthLength_march y' hlow (by omega)]
        omega
      by_cases hdecember : mp = 9
      · obtain rfl := hdecember
        exact Date.eq_next_of_year hover hm (by rw [hy', hy]; rfl) hm' (by omega)
      · refine Date.eq_next_of_month hover ?_ ?_ (by omega)
        · rw [hy', hy]
          split <;> split <;> omega
        · rw [hm', hm]
          split <;> split <;> omega
  · obtain rfl : mp = 11 := by
      have hlength := yearLength y
      have := h.eq
      split at hlength <;> omega
    obtain rfl : mp' = 0 := by omega
    have hover : h.date.day = monthLength h.date.year h.date.month := by
      have hlength := monthLength_february y
      have := h.eq
      rw [hy, hm, hd]
      show _ = monthLength (y + 1) 2
      omega
    exact Date.eq_next_of_month hover (hy'.trans hy.symm) (by rw [hm', hm]; rfl) (by omega)

/-- The date that the code finds is the date of the day. -/
theorem civilFromDays_dateOf (n : Int) :
    civilFromDays n = ((dateOf n).year, (dateOf n).month, (dateOf n).day) := by
  choose y doy hyear hcivil using civilFromDays_eq
  have hcalendar (n : Int) : (hyear n).date = dateOf n := by
    refine eq_dateOf (f := fun n => (hyear n).date) ?_ (fun n => ?_) n
    · have hzero : marchDate (y 0) (doy 0) = (1970, 1, 1) := (hcivil 0).symm
      ext
      · exact congrArg Prod.fst hzero
      · exact congrArg (·.2.1) hzero
      · exact congrArg (·.2.2) hzero
    · have hnext : InYear (n + 719468 + 1) (y (n + 1)) (doy (n + 1)) := by
        rw [Int.add_right_comm]
        exact hyear (n + 1)
      exact (hyear n).date_next hnext
  rw [hcivil, ← hcalendar]
  rfl

end Years

/-- The days that truncating division leaves. -/
def printedDay (unixMs : Int) : Int := (unixMs.tdiv 1000).tdiv 86400

/-- The milliseconds of the day that are printed. -/
def printedTime (unixMs : Int) : Int :=
  ((unixMs.tdiv 1000).tmod 86400 + 86400).tmod 86400 * 1000 + (unixMs.tmod 1000).natAbs

/-- What truncating division by a positive number leaves. -/
theorem truncated (a : Int) (hb : 0 < b) : a = b * a.tdiv b + a.tmod b ∧
    (0 ≤ a → 0 ≤ a.tmod b ∧ a.tmod b < b) ∧ (a ≤ 0 → -b < a.tmod b ∧ a.tmod b ≤ 0) := by
  refine ⟨(Int.mul_tdiv_add_tmod a b).symm, fun h => ?_, fun h => ?_⟩
  · exact ⟨Int.tmod_nonneg b h, Int.tmod_lt_of_pos a hb⟩
  · have hneg := Int.tmod_lt_of_pos (-a) hb
    have hnonneg := Int.tmod_nonneg b (show 0 ≤ -a by omega)
    rw [Int.neg_tmod] at hneg hnonneg
    omega

theorem secs_range (unixMs : Int) :
    0 ≤ ((unixMs.tdiv 1000).tmod 86400 + 86400).tmod 86400 ∧
      ((unixMs.tdiv 1000).tmod 86400 + 86400).tmod 86400 < 86400 := by
  obtain ⟨-, hpos, hneg⟩ := truncated (unixMs.tdiv 1000) (b := 86400) (by decide)
  have hsum : 0 ≤ (unixMs.tdiv 1000).tmod 86400 + 86400 := by
    rcases Int.le_total 0 (unixMs.tdiv 1000) with h | h
    · have := hpos h
      omega
    · have := hneg h
      omega
  exact ⟨Int.tmod_nonneg _ hsum, Int.tmod_lt_of_pos _ (by decide)⟩

theorem millis_lt (unixMs : Int) : (unixMs.tmod 1000).natAbs < 1000 := by
  obtain ⟨-, hpos, hneg⟩ := truncated unixMs (b := 1000) (by decide)
  omega

/-- What is printed is the date of one day and a time. -/
theorem formatIso8601_eq (unixMs : Int) : formatIso8601 unixMs =
    dateText (dateOf (printedDay unixMs)) ++ 'T' :: timeText (printedTime unixMs) := by
  have hrange := secs_range unixMs
  have hmillis := millis_lt unixMs
  unfold formatIso8601 printedDay printedTime dateText timeText
  dsimp only
  rw [civilFromDays_dateOf]
  generalize ((unixMs.tdiv 1000).tmod 86400 + 86400).tmod 86400 = secs at hrange
  generalize (unixMs.tmod 1000).natAbs = millis at hmillis
  have hhours : (secs * 1000 + millis) / 3600000 = secs.tdiv 3600 := by
    rw [Int.tdiv_eq_ediv_of_nonneg hrange.1]
    omega
  have hminutes : (secs * 1000 + millis) / 60000 % 60 = (secs.tmod 3600).tdiv 60 := by
    rw [Int.tmod_eq_emod_of_nonneg hrange.1, Int.tdiv_eq_ediv_of_nonneg (by omega)]
    omega
  have hseconds : (secs * 1000 + millis) / 1000 % 60 = secs.tmod 60 := by
    rw [Int.tmod_eq_emod_of_nonneg hrange.1]
    omega
  have hmillis : (secs * 1000 + millis) % 1000 = millis := by omega
  rw [hhours, hminutes, hseconds, hmillis, paddedInt_ofNat]
  simp

/-- The instants that truncating division leaves in their own day. -/
def Whole (unixMs : Int) : Prop := 0 ≤ unixMs ∨ 86400000 ∣ unixMs

theorem printed_whole (h : Whole unixMs) :
    printedDay unixMs = unixMs / 86400000 ∧ printedTime unixMs = unixMs % 86400000 := by
  unfold printedDay printedTime
  obtain ⟨hms, hpos, hneg⟩ := truncated unixMs (b := 1000) (by decide)
  obtain ⟨hsecs, hpos', hneg'⟩ := truncated (unixMs.tdiv 1000) (b := 86400) (by decide)
  have hsum : 0 ≤ (unixMs.tdiv 1000).tmod 86400 + 86400 := by omega
  rw [Int.tmod_eq_emod_of_nonneg hsum]
  generalize (unixMs.tdiv 1000).tmod 86400 = time at *
  generalize (unixMs.tdiv 1000).tdiv 86400 = days at *
  generalize unixMs.tdiv 1000 = secs at *
  generalize unixMs.tmod 1000 = millis at *
  unfold Whole at h
  omega

/-- Of the other instants the day that follows is printed. -/
theorem printed_broken (h : ¬Whole unixMs) : printedDay unixMs = unixMs / 86400000 + 1 := by
  unfold printedDay
  obtain ⟨hms, hpos, hneg⟩ := truncated unixMs (b := 1000) (by decide)
  obtain ⟨hsecs, hpos', hneg'⟩ := truncated (unixMs.tdiv 1000) (b := 86400) (by decide)
  generalize (unixMs.tdiv 1000).tmod 86400 = time at *
  generalize (unixMs.tdiv 1000).tdiv 86400 = days at *
  generalize unixMs.tdiv 1000 = secs at *
  generalize unixMs.tmod 1000 = millis at *
  unfold Whole at h
  omega

theorem formatIso8601_whole (h : Whole unixMs) : formatIso8601 unixMs = timestamp unixMs := by
  obtain ⟨hday, htime⟩ := printed_whole h
  rw [formatIso8601_eq, hday, htime]
  rfl

theorem formatIso8601_broken (hprintable : Printable unixMs) (h : ¬Whole unixMs) :
    formatIso8601 unixMs ≠ timestamp unixMs := by
  have hepoch : unixMs / 86400000 + 1 ≤ 0 := by
    unfold Whole at h
    omega
  have hyear : (dateOf (unixMs / 86400000 + 1)).year ≤ 1970 := by
    rcases Int.lt_or_eq_of_le hepoch with hlt | heq
    · rcases dateOf_before hlt with hyear | ⟨hyear, -⟩
      · exact Int.le_of_lt hyear
      · exact Int.le_of_eq hyear
    · rw [heq]
      exact Int.le_refl 1970
  have hbefore := dateOf_before (Int.lt_succ (unixMs / 86400000))
  have hprintable' : (dateOf (unixMs / 86400000 + 1)).Printable := by
    refine ⟨?_, by omega⟩
    have hnonneg := hprintable.nonneg
    rcases hbefore with hyear | ⟨hyear, -⟩ <;> omega
  have hlt := dateText_lt hbefore hprintable hprintable'
    ('T' :: timeText (unixMs % 86400000)) ('T' :: timeText (printedTime unixMs))
  intro heq
  rw [formatIso8601_eq, printed_broken h] at heq
  unfold timestamp at heq
  rw [heq] at hlt
  exact List.lt_irrefl _ hlt

/-- What is printed is the date and time of the instant exactly from the epoch on and at the begin
of the days before it, and among these instants the earlier one stands first. -/
theorem formatIso8601_right (hm : Printable m) (hn : Printable n) :
    (formatIso8601 m = timestamp m ↔ Whole m) ∧
      (Whole m → Whole n → m < n → formatIso8601 m < formatIso8601 n) := by
  refine ⟨⟨fun h => ?_, formatIso8601_whole⟩, fun hm' hn' hlt => ?_⟩
  · by_contra hbroken
    exact formatIso8601_broken hm hbroken h
  · rw [formatIso8601_whole hm', formatIso8601_whole hn']
    exact timestamp_lt hlt hm hn

theorem formatIso8601_right_second : Printable 0 ∧ Printable 1000 ∧
    ((formatIso8601 0 = timestamp 0 ↔ Whole 0) ∧
      (Whole 0 → Whole 1000 → 0 < (1000 : Int) → formatIso8601 0 < formatIso8601 1000)) :=
  have hday : Printable 0 ∧ Printable 1000 :=
    ⟨⟨by decide +kernel, by decide +kernel⟩, ⟨by decide +kernel, by decide +kernel⟩⟩
  ⟨hday.1, hday.2, formatIso8601_right hday.1 hday.2⟩

/-- The millisecond before the epoch is printed as the one after it. -/
theorem formatIso8601_before_epoch :
    ¬∀ unixMs, Printable unixMs → formatIso8601 unixMs = timestamp unixMs := by
  intro h
  have hprinted : formatIso8601 (-1) = "1970-01-01T00:00:00.001Z".toList := by decide +kernel
  have hright : timestamp (-1) = "1969-12-31T23:59:59.999Z".toList := by decide +kernel
  have heq := h (-1) ⟨by decide +kernel, by decide +kernel⟩
  rw [hprinted, hright] at heq
  exact absurd heq (by decide)

end CheetahMedia.Hls
