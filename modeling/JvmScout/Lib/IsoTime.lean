import JvmScout.Lib.PaddedDigits

namespace IsoTime

def yearOfEra (doe : ℕ) : ℕ := (doe - doe / 1460 + doe / 36524 - doe / 146096) / 365

def daysBefore (yoe : ℕ) : ℕ := 365 * yoe + yoe / 4 - yoe / 100

def monthPart (doy : ℕ) : ℕ := (5 * doy + 2) / 153

def marchYear (z : ℕ) : ℕ := yearOfEra (z % 146097) + z / 146097 * 400

def dayOfYear (z : ℕ) : ℕ := z % 146097 - daysBefore (yearOfEra (z % 146097))

def monthOf (mp : ℕ) : ℕ := if mp < 10 then mp + 3 else mp - 9

def dayOfMonth (doy : ℕ) : ℕ := doy - (153 * monthPart doy + 2) / 5 + 1

def civil (z : ℕ) : ℕ × ℕ × ℕ :=
  let month := monthOf (monthPart (dayOfYear z))
  (marchYear z + (if month ≤ 2 then 1 else 0), month, dayOfMonth (dayOfYear z))

theorem civilOfDays_eq (days : ℕ) : Python.civilOfDays days = civil (days + 719468) := rfl

theorem yearOfEra_mono {m n : ℕ} (h : m ≤ n) (hn : n < 146097) : yearOfEra m ≤ yearOfEra n := by
  induction n, h using Nat.le_induction with
  | base => exact le_rfl
  | succ n hmn ih =>
    apply (ih (by omega)).trans
    unfold yearOfEra
    apply Nat.div_le_div_right
    omega

theorem yearOfEra_daysBefore {y : ℕ} (h : y < 400) :
    yearOfEra (daysBefore y) = y ∧ yearOfEra (daysBefore (y + 1) - 1) = y := by
  have hall : ∀ y < 400, yearOfEra (daysBefore y) = y ∧ yearOfEra (daysBefore (y + 1) - 1) = y := by
    decide +kernel
  exact hall y h

theorem yearOfEra_lt {doe : ℕ} (h : doe < 146097) : yearOfEra doe < 400 := by
  have hmono := yearOfEra_mono (show doe ≤ 146096 by omega) (by omega)
  have hlast : yearOfEra 146096 = 399 := by decide
  omega

theorem daysBefore_le {doe : ℕ} (h : doe < 146097) :
    daysBefore (yearOfEra doe) ≤ doe ∧ doe - daysBefore (yearOfEra doe) ≤ 365 := by
  have hyear := yearOfEra_lt h
  constructor
  · by_contra hlate
    have hpos : yearOfEra doe - 1 + 1 = yearOfEra doe := by
      have hzero : daysBefore 0 = 0 := rfl
      rcases Nat.eq_zero_or_pos (yearOfEra doe) with hz | hpos
      · rw [hz, hzero] at hlate
        omega
      · omega
    have hlast := (yearOfEra_daysBefore (show yearOfEra doe - 1 < 400 by omega)).2
    rw [hpos] at hlast
    have hle : yearOfEra doe ≤ yearOfEra (daysBefore (yearOfEra doe) - 1) := by
      apply yearOfEra_mono
      · omega
      · unfold daysBefore
        omega
    omega
  · by_contra hlong
    by_cases hend : yearOfEra doe = 399
    · have hstart : daysBefore 399 = 145731 := by decide
      rw [hend, hstart] at hlong
      omega
    · have hnext := (yearOfEra_daysBefore (show yearOfEra doe + 1 < 400 by omega)).1
      have hstep : daysBefore (yearOfEra doe + 1) ≤ daysBefore (yearOfEra doe) + 366 := by
        unfold daysBefore
        omega
      have hle : yearOfEra (daysBefore (yearOfEra doe + 1)) ≤ yearOfEra doe := by
        apply yearOfEra_mono
        · omega
        · exact h
      omega

theorem dayOfYear_le (z : ℕ) : dayOfYear z ≤ 365 := by
  apply (daysBefore_le _).2
  exact Nat.mod_lt z (by decide)

theorem marchYear_lt {y z : ℕ} (h : y < z) :
    marchYear y < marchYear z ∨ marchYear y = marchYear z ∧ dayOfYear y < dayOfYear z := by
  have hy : y % 146097 < 146097 := Nat.mod_lt y (by decide)
  have hz : z % 146097 < 146097 := Nat.mod_lt z (by decide)
  have hyear := yearOfEra_lt hy
  have hera : y / 146097 ≤ z / 146097 := Nat.div_le_div_right h.le
  unfold marchYear dayOfYear
  by_cases hsame : y / 146097 = z / 146097
  · have hday : y % 146097 < z % 146097 := by omega
    have hmono := yearOfEra_mono hday.le hz
    have hbegun := (daysBefore_le hy).1
    by_cases heq : yearOfEra (y % 146097) = yearOfEra (z % 146097)
    · rw [heq] at hbegun ⊢
      omega
    · omega
  · omega

theorem monthPart_lt {c d : ℕ} (h : c < d) :
    monthPart c < monthPart d ∨ monthPart c = monthPart d ∧ dayOfMonth c < dayOfMonth d := by
  unfold dayOfMonth monthPart
  omega

theorem monthPart_le {d : ℕ} (h : d ≤ 365) : monthPart d ≤ 11 ∧ dayOfMonth d ≤ 31 := by
  unfold dayOfMonth monthPart
  omega

theorem monthOf_spec {mp : ℕ} (h : mp ≤ 11) (y : ℕ) :
    12 * (y + if monthOf mp ≤ 2 then 1 else 0) + monthOf mp = 12 * y + mp + 3 ∧ 1 ≤ monthOf mp ∧ monthOf mp ≤ 12 := by
  unfold monthOf
  split <;> split <;> omega

theorem civil_lt {y z : ℕ} (h : y < z) : (civil y).1 < (civil z).1 ∨ (civil y).1 = (civil z).1 ∧
    ((civil y).2.1 < (civil z).2.1 ∨ (civil y).2.1 = (civil z).2.1 ∧ (civil y).2.2 < (civil z).2.2) := by
  have hy := monthOf_spec (monthPart_le (dayOfYear_le y)).1 (marchYear y)
  have hz := monthOf_spec (monthPart_le (dayOfYear_le z)).1 (marchYear z)
  have hlast := (monthPart_le (dayOfYear_le y)).1
  simp only [civil]
  rcases marchYear_lt h with hyear | ⟨hyear, hday⟩
  · omega
  · rcases monthPart_lt hday with hmonth | ⟨hmonth, hdate⟩
    · omega
    · rw [hyear, hmonth]
      omega

def fields (width : ℕ) (sep : String) (v : ℕ × ℕ × ℕ) : String :=
  Python.digits (width + 1) v.1 ++ (sep ++ (Python.digits 2 v.2.1 ++ (sep ++ Python.digits 2 v.2.2)))

structure Fits (width : ℕ) (v : ℕ × ℕ × ℕ) : Prop where
  first : v.1 < 10 ^ (width + 1)
  second : v.2.1 < 10 ^ 2
  third : v.2.2 < 10 ^ 2

section Fields

variable {width : ℕ} {sep : String} {v w : ℕ × ℕ × ℕ}

theorem length_fields (h : Fits width v) : (fields width sep v).length = width + 5 + 2 * sep.length := by
  have hfirst := PaddedDigits.length_digits h.first
  have hsecond : (Python.digits 2 v.2.1).length = 2 := PaddedDigits.length_digits h.second
  have hthird : (Python.digits 2 v.2.2).length = 2 := PaddedDigits.length_digits h.third
  simp only [fields, String.length_append]
  omega

theorem fields_lt (hv : Fits width v) (hw : Fits width w)
    (h : v.1 < w.1 ∨ v.1 = w.1 ∧ (v.2.1 < w.2.1 ∨ v.2.1 = w.2.1 ∧ v.2.2 < w.2.2)) :
    fields width sep v < fields width sep w := by
  unfold fields
  rcases h with hfirst | ⟨hfirst, hsecond | ⟨hsecond, hthird⟩⟩
  · apply PaddedDigits.text_lt_of_field
    · rw [PaddedDigits.length_digits hv.first, PaddedDigits.length_digits hw.first]
    · exact PaddedDigits.digits_lt hfirst hw.first
  · rw [hfirst]
    apply PaddedDigits.text_lt_of_rest
    apply PaddedDigits.text_lt_of_rest
    apply PaddedDigits.text_lt_of_field
    · rw [PaddedDigits.length_digits hv.second, PaddedDigits.length_digits hw.second]
    · exact PaddedDigits.digits_lt hsecond hw.second
  · rw [hfirst, hsecond]
    apply PaddedDigits.text_lt_of_rest
    apply PaddedDigits.text_lt_of_rest
    apply PaddedDigits.text_lt_of_rest
    apply PaddedDigits.text_lt_of_rest
    exact PaddedDigits.digits_lt hthird hw.third

end Fields

def clock (ofDay : ℕ) : ℕ × ℕ × ℕ := (ofDay / 3600, ofDay / 60 % 60, ofDay % 60)

def isoText (t : ℕ) : String :=
  fields 3 "-" (civil (t / 86400)) ++ ("T" ++ (fields 1 ":" (clock (t % 86400)) ++ "Z"))

def yearOf (t : ℕ) : ℕ := (civil (t / 86400)).1

def epoch : ℕ := 719468 * 86400

theorem isoFormat_eq (n : ℕ) : Python.isoFormat n = isoText (n + epoch) := by
  have hday : (n + epoch) / 86400 = n / 86400 + 719468 := by
    unfold epoch
    omega
  have hofDay : (n + epoch) % 86400 = n % 86400 := by
    unfold epoch
    omega
  rw [isoText, hday, hofDay, Python.isoFormat, civilOfDays_eq]
  simp only [fields, clock, String.append_assoc]

theorem yearOf_mono {t u : ℕ} (h : t ≤ u) : yearOf t ≤ yearOf u := by
  have hday : t / 86400 ≤ u / 86400 := Nat.div_le_div_right h
  unfold yearOf
  rcases Nat.lt_or_eq_of_le hday with hlt | heq
  · have hcivil := civil_lt hlt
    omega
  · rw [heq]

theorem fits_civil {z : ℕ} (h : (civil z).1 < 10000) : Fits 3 (civil z) := by
  have hmonth := monthPart_le (dayOfYear_le z)
  have hspec := monthOf_spec hmonth.1 (marchYear z)
  refine ⟨h, ?_, ?_⟩
  · simp only [civil]
    omega
  · simp only [civil]
    omega

theorem fits_clock {ofDay : ℕ} (h : ofDay < 86400) : Fits 1 (clock ofDay) := by
  refine ⟨?_, ?_, ?_⟩ <;> simp only [clock] <;> omega

theorem isoText_lt {t u : ℕ} (h : t < u) (hyear : yearOf u < 10000) : isoText t < isoText u := by
  have hearlier : yearOf t < 10000 := (yearOf_mono h.le).trans_lt hyear
  unfold isoText
  by_cases hday : t / 86400 < u / 86400
  · apply PaddedDigits.text_lt_of_field
    · rw [length_fields (fits_civil hearlier), length_fields (fits_civil hyear)]
    · exact fields_lt (fits_civil hearlier) (fits_civil hyear) (civil_lt hday)
  · have hsame : t / 86400 = u / 86400 := by omega
    have ht : t % 86400 < 86400 := Nat.mod_lt t (by decide)
    have hu : u % 86400 < 86400 := Nat.mod_lt u (by decide)
    rw [hsame]
    apply PaddedDigits.text_lt_of_rest
    apply PaddedDigits.text_lt_of_rest
    apply PaddedDigits.text_lt_of_field
    · rw [length_fields (fits_clock ht), length_fields (fits_clock hu)]
    · apply fields_lt (fits_clock ht) (fits_clock hu)
      simp only [clock]
      omega

theorem isoText_lt_iff {t u : ℕ} (ht : yearOf t < 10000) (hu : yearOf u < 10000) :
    isoText t < isoText u ↔ t < u := by
  constructor
  · intro h
    rcases Nat.lt_trichotomy t u with hlt | rfl | hgt
    · exact hlt
    · exact absurd h (String.lt_irrefl _)
    · exact absurd (isoText_lt hgt ht) (String.lt_asymm h)
  · intro h
    exact isoText_lt h hu

end IsoTime
