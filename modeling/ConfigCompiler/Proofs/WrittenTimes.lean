import ConfigCompiler.Proofs.WrittenNumbers
import ConfigCompiler.Time.Reader

/-!
# How points in time are written

**Relation.**  `Timestamp.IsWritable` holds of the points in time that a clock can show: a second
of the day, a fraction of it (a whole second more in a leap second), and a year in range.

**Results.**
* `dayOfDate_dateOfDay`, `dateOfDay_bounds`: the date of a day is a date of the calendar, and
  its day is that day.
* `read?_text`: a point in time is read back from its text.
-/

namespace ConfigCompiler
namespace Timestamp

variable {width n : Nat} {ds rest : List Char}

/-- The year of a span of 400 years that a day of it stands in. -/
def yearOfEra (dayOfEra : Int) : Int :=
  (dayOfEra - dayOfEra / 1460 + dayOfEra / 36524 - dayOfEra / 146096) / 365

/-- The year of a day that is given by its century, the four years in it and the day in those.
The last day of four years is late: it is counted to the year before. -/
theorem yearOfEra_eq {century cycle day : Int} (hcentury : 0 ≤ century ∧ century ≤ 3)
    (hcycle : 0 ≤ cycle) (hday : 0 ≤ day ∧ day ≤ 1460) (hend : 1461 * cycle + day < 36524) :
    ∃ late, (late = 0 ∨ late = 1 ∧ 1364 ≤ day) ∧ (day = 1460 → late = 1) ∧
      yearOfEra (36524 * century + 1461 * cycle + day) =
        100 * century + 4 * cycle + (day - late) / 365 := by
  refine ⟨(24 * century + cycle + day) / 1460, by omega, by omega, ?_⟩
  have hyears : (36524 * century + 1461 * cycle + day) / 1460 =
      25 * century + cycle + (24 * century + cycle + day) / 1460 := by omega
  have hcenturies : (36524 * century + 1461 * cycle + day) / 36524 = century := by omega
  have hspan : (36524 * century + 1461 * cycle + day) / 146096 = 0 := by omega
  rw [yearOfEra, hyears, hcenturies, hspan]
  omega

/-- A span has 400 years, a year 365 days from March on, or 366 before the end of February in a
leap year. -/
theorem yearOfEra_bounds {d : Int} (hmin : 0 ≤ d) (hmax : d < 146097) :
    let year := yearOfEra d
    let day := d - (365 * year + year / 4 - year / 100)
    (0 ≤ year ∧ year ≤ 399) ∧ (0 ≤ day ∧ day ≤ 365) ∧
      (day = 365 → isLeapYear (year + 1) = true) := by
  by_cases hlast : d = 146096
  · subst hlast
    decide
  · obtain ⟨century, cycle, day, hcentury, hcycle, hday, hend, rfl⟩ :
        ∃ century cycle day : Int, (0 ≤ century ∧ century ≤ 3) ∧ 0 ≤ cycle ∧
          (0 ≤ day ∧ day ≤ 1460) ∧ 1461 * cycle + day < 36524 ∧
          d = 36524 * century + 1461 * cycle + day :=
      ⟨d / 36524, d % 36524 / 1461, d % 36524 % 1461, by omega, by omega, by omega, by omega,
        by omega⟩
    obtain ⟨late, hlate, hfull, hyear⟩ := yearOfEra_eq hcentury hcycle hday hend
    obtain ⟨year, hquarter⟩ : ∃ year, year = (day - late) / 365 := ⟨_, rfl⟩
    have hbound : 0 ≤ year ∧ year ≤ 3 := by omega
    rw [← hquarter] at hyear
    have hcycles : (100 * century + 4 * cycle + year) / 4 = 25 * century + cycle := by omega
    have hcenturies : (100 * century + 4 * cycle + year) / 100 = century := by omega
    simp only [hyear, hcycles, hcenturies]
    refine ⟨by omega, by omega, fun h => ?_⟩
    have hleap : year = 3 ∧ cycle ≤ 23 := by omega
    simp [isLeapYear]
    omega

/-- The date of a day of a year that is counted from March, in a span of 400 years. -/
def dateInEra (era year day : Int) : Int × Nat × Nat :=
  let monthFromMarch := (5 * day + 2) / 153
  let dayOfMonth := day - (153 * monthFromMarch + 2) / 5 + 1
  let month := if monthFromMarch < 10 then monthFromMarch + 3 else monthFromMarch - 9
  (year + era * 400 + (if month ≤ 2 then 1 else 0), month.toNat, dayOfMonth.toNat)

/-- Every day is a day of a year that is counted from March. -/
theorem dateOfDay_eq (d : Int) :
    ∃ era year day : Int, (0 ≤ year ∧ year ≤ 399) ∧ (0 ≤ day ∧ day ≤ 365) ∧
      (day = 365 → isLeapYear (year + 1) = true) ∧
      d = era * 146097 + (year * 365 + year / 4 - year / 100 + day) - 719468 ∧
      dateOfDay d = dateInEra era year day := by
  obtain ⟨hyear, hday, hleap⟩ := yearOfEra_bounds
    (d := d + 719468 - (d + 719468) / 146097 * 146097) (by omega) (by omega)
  exact ⟨_, _, _, hyear, hday, hleap, by omega, rfl⟩

/-- The day of the date of a day is that day. -/
theorem dayOfDate_dateOfDay (d : Int) :
    dayOfDate (dateOfDay d).1 (dateOfDay d).2.1 (dateOfDay d).2.2 = d := by
  obtain ⟨era, year, day, hyear, hday, -, hd, hdate⟩ := dateOfDay_eq d
  rw [hdate]
  obtain ⟨m, hm⟩ : ∃ m, m = (5 * day + 2) / 153 := ⟨_, rfl⟩
  obtain ⟨first, hfirst⟩ : ∃ first, first = (153 * m + 2) / 5 := ⟨_, rfl⟩
  have hera : (year + era * 400) / 400 = era := by omega
  have hmpos : 0 ≤ m := by omega
  simp only [dateInEra, ← hm, ← hfirst]
  by_cases hmonth : m < 10
  · have hfromMarch : ((m + 3).toNat + 9) % 12 = m.toNat := by omega
    have hlate : ¬(m + 3).toNat ≤ 2 := by omega
    have hmarch : ¬m + 3 ≤ 2 := by omega
    simp only [if_pos hmonth, dayOfDate, if_neg hlate, if_neg hmarch, hfromMarch, Int.add_zero,
      hera]
    omega
  · have hfromMarch : ((m - 9).toNat + 9) % 12 = m.toNat := by omega
    have hearly : (m - 9).toNat ≤ 2 := by omega
    have hmarch : m - 9 ≤ 2 := by omega
    simp only [if_neg hmonth, dayOfDate, if_pos hearly, if_pos hmarch, hfromMarch,
      Int.add_sub_cancel, hera]
    omega

/-- A year in a later span is a leap year if it is one in the first. -/
theorem isLeapYear_add_era {year : Int} (era : Int) (h : isLeapYear (year + 1) = true) :
    isLeapYear (year + era * 400 + 1) = true := by
  simp [isLeapYear] at h ⊢
  omega

/-- The date of a day is a date of the calendar. -/
theorem dateOfDay_bounds (d : Int) :
    (1 ≤ (dateOfDay d).2.1 ∧ (dateOfDay d).2.1 ≤ 12) ∧ 1 ≤ (dateOfDay d).2.2 ∧
      (dateOfDay d).2.2 ≤ daysInMonth (dateOfDay d).1 (dateOfDay d).2.1 := by
  obtain ⟨era, year, day, -, hday, hleap, -, hdate⟩ := dateOfDay_eq d
  obtain ⟨m, hm⟩ : ∃ m, m = (5 * day + 2) / 153 := ⟨_, rfl⟩
  rw [hdate]
  simp only [dateInEra, ← hm]
  refine ⟨by split <;> omega, by omega, ?_⟩
  by_cases hfebruary : m = 11
  · -- February is the last month of a year that starts in March
    rw [hfebruary] at hm ⊢
    by_cases hlast : day = 365
    · simp [daysInMonth, isLeapYear_add_era era (hleap hlast)]
      omega
    · have hdays : 28 ≤ daysInMonth (year + era * 400 + 1) 2 := by
        rw [daysInMonth, if_pos rfl]
        split <;> decide
      refine Nat.le_trans ?_ hdays
      omega
  · have hmonths : m = 0 ∨ m = 1 ∨ m = 2 ∨ m = 3 ∨ m = 4 ∨ m = 5 ∨ m = 6 ∨ m = 7 ∨ m = 8 ∨
        m = 9 ∨ m = 10 := by omega
    rcases hmonths with h | h | h | h | h | h | h | h | h | h | h
    all_goals
      rw [h] at hm ⊢
      simp [daysInMonth]
      omega

/-- A padded number is written with digits. -/
theorem isTimeDigit_of_mem_padded {c : Char} (h : c ∈ padded width n) : isTimeDigit c = true := by
  rw [padded, List.mem_append, List.mem_replicate] at h
  rcases h with ⟨-, rfl⟩ | h
  · decide
  · exact Json.isDecimalDigit_of_mem_toDigits h

/-- A padded number has the width asked for if it fits. -/
theorem length_padded (hwidth : 0 < width) (h : n < Nat.pow 10 width) :
    (padded width n).length = width := by
  have hlength := (Nat.length_toDigits_le_iff (b := 10) (by decide) hwidth).2 h
  simp only [padded, List.length_append, List.length_replicate]
  omega

theorem padded_ne_nil : padded width n ≠ [] := by
  simp [padded]

/-- The value of the digits of a padded number. -/
theorem ofDigitChars_padded : Nat.ofDigitChars 10 (padded width n) 0 = n := by
  have hzeros : ∀ k, Nat.ofDigitChars 10 (List.replicate k '0') 0 = 0 := by
    intro k
    induction k with
    | zero => rfl
    | succ k ih => simp [List.replicate_succ, Nat.ofDigitChars_cons, ih]
  rw [padded, Nat.ofDigitChars_append, hzeros]
  exact Nat.ofDigitChars_ten_toDigits

/-- No blank stands before a digit or a sign. -/
theorem skipBlanks_cons {c : Char} (h : isBlank c = false) (cs : List Char) :
    skipBlanks (c :: cs) = c :: cs := by
  simp [skipBlanks, h]

theorem isBlank_of_isTimeDigit {c : Char} (h : isTimeDigit c = true) : isBlank c = false := by
  simp only [isTimeDigit, Bool.and_eq_true, decide_eq_true_eq, Char.le_def,
    UInt32.le_iff_toNat_le] at h
  have hmin : 48 ≤ c.toNat := h.1
  have hmax : c.toNat ≤ 57 := h.2
  simp [isBlank]
  omega

theorem skipBlanks_padded : skipBlanks (padded width n ++ rest) = padded width n ++ rest := by
  cases hdigits : padded width n with
  | nil => exact absurd hdigits padded_ne_nil
  | cons c cs =>
      have hmem : c ∈ padded width n := by simp [hdigits]
      have hdigit : isTimeDigit c = true := isTimeDigit_of_mem_padded hmem
      exact skipBlanks_cons (isBlank_of_isTimeDigit hdigit) _

/-- A padded number is read up to its width, or up to what is no digit. -/
theorem readNumber?_padded {limit : Nat} (hlimit : (padded width n).length ≤ limit)
    (hstop : limit = (padded width n).length ∨ ∀ c ∈ rest.head?, isTimeDigit c = false) :
    readNumber? limit (padded width n ++ rest) = some (n, rest) := by
  have hafter : (rest.take (limit - (padded width n).length)).takeWhile isTimeDigit = [] := by
    rcases hstop with heq | hrest
    · simp [heq]
    · cases rest with
      | nil => simp
      | cons c rest =>
          have hc := hrest c rfl
          cases limit - (padded width n).length <;> simp [hc]
  have hdigits : ((padded width n ++ rest).take limit).takeWhile isTimeDigit = padded width n := by
    rw [List.take_append, List.take_of_length_le hlimit,
      List.takeWhile_append_of_pos (fun c hc => isTimeDigit_of_mem_padded hc), hafter,
      List.append_nil]
  unfold readNumber?
  rw [hdigits]
  split
  · next hnil => exact absurd hnil padded_ne_nil
  · rw [ofDigitChars_padded, List.drop_left]

/-- A part of a date or a time is read back. -/
theorem readPart?_padded (rest : List Char) (h : n < 100) :
    readPart? (padded 2 n ++ rest) = some (n, rest) := by
  have hlength : (padded 2 n).length = 2 := length_padded (by decide) h
  rw [readPart?, skipBlanks_padded]
  exact readNumber?_padded (by omega) (Or.inl hlength.symm)

theorem readMark?_cons {mark : Char} (h : isBlank mark = false) :
    readMark? mark (mark :: rest) = some rest := by
  simp [readMark?, skipBlanks_cons h]

/-- A year is read back. -/
theorem readYear?_yearText (year : Int) :
    readYear? (yearText year ++ '-' :: rest) = some (year, '-' :: rest) := by
  have hstop : ∀ c ∈ ('-' :: rest).head?, isTimeDigit c = false := by
    simp
    decide
  rw [yearText]
  split
  · next h =>
      simp only [Bool.and_eq_true, decide_eq_true_eq] at h
      have hlength : (padded 4 year.toNat).length = 4 :=
        length_padded (by decide) (show year.toNat < 10000 by omega)
      have hread : readNumber? 4 (padded 4 year.toNat ++ '-' :: rest) =
          some (year.toNat, '-' :: rest) :=
        readNumber?_padded (by omega) (Or.inl hlength.symm)
      have hsign : ∀ sign more, isTimeDigit sign = false →
          padded 4 year.toNat ++ '-' :: rest ≠ sign :: more := by
        intro sign more hsign heq
        cases hdigits : padded 4 year.toNat with
        | nil => exact padded_ne_nil hdigits
        | cons c cs =>
            have hmem : c ∈ padded 4 year.toNat := by simp [hdigits]
            have hdigit : isTimeDigit c = true := isTimeDigit_of_mem_padded hmem
            rw [hdigits, List.cons_append] at heq
            rw [(List.cons.inj heq).1, hsign] at hdigit
            cases hdigit
      unfold readYear?
      rw [skipBlanks_padded]
      split
      · next heq => exact absurd heq (hsign '-' _ (by decide))
      · next heq => exact absurd heq (hsign '+' _ (by decide))
      · rw [hread, Option.map_some, Int.toNat_of_nonneg h.1]
  · have hread : readNumber? (padded 4 year.natAbs ++ '-' :: rest).length
        (padded 4 year.natAbs ++ '-' :: rest) = some (year.natAbs, '-' :: rest) :=
      readNumber?_padded (by simp) (Or.inr hstop)
    unfold readYear?
    by_cases hneg : year < 0
    · rw [if_pos hneg, List.cons_append, skipBlanks_cons (by decide)]
      simp only [hread, Option.map_some]
      rw [show -(year.natAbs : Int) = year by omega]
    · rw [if_neg hneg, List.cons_append, skipBlanks_cons (by decide)]
      simp only [hread, Option.map_some]
      rw [show (year.natAbs : Int) = year by omega]

/-- A fraction of a second is read back. -/
theorem readFraction?_fractionText {nano : Nat} (h : nano < 1000000000) :
    readFraction? (fractionText nano ++ 'Z' :: rest) = some (nano, 'Z' :: rest) := by
  have hdigits : ∀ {width n : Nat}, 0 < width → width ≤ 9 → n < Nat.pow 10 width →
      readFraction? ('.' :: padded width n ++ 'Z' :: rest) =
        some (n * Nat.pow 10 (9 - width), 'Z' :: rest) := by
    intro width n hwidth hnine hn
    have hlength := length_padded hwidth hn
    have hall : ∀ c ∈ padded width n, isTimeDigit c = true :=
      fun c hc => isTimeDigit_of_mem_padded hc
    have htake : (padded width n ++ 'Z' :: rest).takeWhile isTimeDigit = padded width n := by
      rw [List.takeWhile_append_of_pos hall, List.takeWhile_cons_of_neg (by decide),
        List.append_nil]
    have hdrop : (padded width n ++ 'Z' :: rest).dropWhile isTimeDigit = 'Z' :: rest := by
      rw [List.dropWhile_append_of_pos hall, List.dropWhile_cons_of_neg (by decide)]
    rw [List.cons_append, readFraction?]
    simp only [htake, hdrop]
    split
    · next hnil => exact absurd hnil padded_ne_nil
    · rw [List.take_of_length_le (by omega), hlength, ofDigitChars_padded]
  unfold fractionText
  split
  · next hzero =>
      rw [hzero]
      rfl
  split
  · rw [hdigits (by decide) (by decide) (show nano / 1000000 < 1000 by omega)]
    rw [show nano / 1000000 * Nat.pow 10 (9 - 3) = nano / 1000000 * 1000000 from rfl]
    rw [show nano / 1000000 * 1000000 = nano by omega]
  split
  · rw [hdigits (by decide) (by decide) (show nano / 1000 < 1000000 by omega)]
    rw [show nano / 1000 * Nat.pow 10 (9 - 6) = nano / 1000 * 1000 from rfl]
    rw [show nano / 1000 * 1000 = nano by omega]
  · rw [hdigits (by decide) (by decide) h]
    rw [show nano * Nat.pow 10 (9 - 9) = nano * 1 from rfl, Nat.mul_one]

/-- Whether a point in time is one that a clock can show and that can be written: a second of a
day, with less than a second more of it, or less than two at the end of a minute, in a year in
range. -/
def IsWritable (t : Timestamp) : Prop :=
  t.second < 86400 ∧
    (t.nano < 1000000000 ∨ t.nano < 2000000000 ∧ t.second % 60 = 59) ∧
    isYear (dateOfDay t.day).1 = true

instance (t : Timestamp) : Decidable t.IsWritable :=
  inferInstanceAs (Decidable (_ ∧ _))

/-- The date of a day is read back. -/
theorem readDate?_dateOfDay {d : Int} (rest : List Char) (h : isYear (dateOfDay d).1 = true) :
    readDate? (yearText (dateOfDay d).1 ++ '-' :: (padded 2 (dateOfDay d).2.1 ++ '-' ::
      (padded 2 (dateOfDay d).2.2 ++ rest))) = some (d, rest) := by
  obtain ⟨⟨hjanuary, hdecember⟩, hfirst, hlast⟩ := dateOfDay_bounds d
  have hmonth : daysInMonth (dateOfDay d).1 (dateOfDay d).2.1 ≤ 31 := by
    unfold daysInMonth
    repeat' split
    all_goals omega
  have hdash : isBlank '-' = false := by decide
  have hmonthPart := readPart?_padded ('-' :: (padded 2 (dateOfDay d).2.2 ++ rest))
    (show (dateOfDay d).2.1 < 100 by omega)
  have hdayPart := readPart?_padded rest (show (dateOfDay d).2.2 < 100 by omega)
  have hdate : (isYear (dateOfDay d).1 && 1 ≤ (dateOfDay d).2.1 && (dateOfDay d).2.1 ≤ 12 &&
      1 ≤ (dateOfDay d).2.2 &&
      (dateOfDay d).2.2 ≤ daysInMonth (dateOfDay d).1 (dateOfDay d).2.1) = true := by
    simp only [Bool.and_eq_true, decide_eq_true_eq]
    exact ⟨⟨⟨⟨h, hjanuary⟩, hdecember⟩, hfirst⟩, hlast⟩
  refine Option.bind_eq_some_iff.2 ⟨_, readYear?_yearText _, ?_⟩
  refine Option.bind_eq_some_iff.2 ⟨_, readMark?_cons hdash, ?_⟩
  refine Option.bind_eq_some_iff.2 ⟨_, hmonthPart, ?_⟩
  refine Option.bind_eq_some_iff.2 ⟨_, readMark?_cons hdash, ?_⟩
  refine Option.bind_eq_some_iff.2 ⟨_, hdayPart, ?_⟩
  refine Option.bind_eq_some_iff.2 ⟨(), if_pos hdate, ?_⟩
  exact congrArg (fun day => some (day, rest)) (dayOfDate_dateOfDay d)

/-- A time of day is read back; a leap second is written as a sixtieth one. -/
theorem readTime?_text {second nano : Nat} (rest : List Char) (hsecond : second < 86400)
    (hnano : nano < 1000000000 ∨ nano < 2000000000 ∧ second % 60 = 59) :
    readTime? (padded 2 (second / 3600) ++ ':' :: (padded 2 (second / 60 % 60) ++ ':' ::
      (padded 2 (second % 60 + if 1000000000 ≤ nano then 1 else 0) ++
        (fractionText (if 1000000000 ≤ nano then nano - 1000000000 else nano) ++
          'Z' :: rest)))) = some ((second, nano), 'Z' :: rest) := by
  have hcolon : isBlank ':' = false := by decide
  obtain ⟨written, hwritten⟩ :
      ∃ w, w = second % 60 + if 1000000000 ≤ nano then 1 else 0 := ⟨_, rfl⟩
  obtain ⟨fraction, hfraction⟩ :
      ∃ f, f = if 1000000000 ≤ nano then nano - 1000000000 else nano := ⟨_, rfl⟩
  rw [← hwritten, ← hfraction]
  have hsplit : written ≤ 60 ∧ fraction < 1000000000 ∧ min written 59 = second % 60 ∧
      (if written = 60 then fraction + 1000000000 else fraction) = nano := by
    by_cases hleap : 1000000000 ≤ nano
    · rw [if_pos hleap] at hwritten hfraction
      rw [if_pos (by omega)]
      omega
    · rw [if_neg hleap] at hwritten hfraction
      rw [if_neg (by omega)]
      omega
  obtain ⟨hsixty, hpart, hmin, hleap⟩ := hsplit
  have hhour : ∀ rest, readPart? (padded 2 (second / 3600) ++ rest) =
      some (second / 3600, rest) := fun rest => readPart?_padded rest (by omega)
  have hminute : ∀ rest, readPart? (padded 2 (second / 60 % 60) ++ rest) =
      some (second / 60 % 60, rest) := fun rest => readPart?_padded rest (by omega)
  have hlast : ∀ rest, readPart? (padded 2 written ++ rest) = some (written, rest) :=
    fun rest => readPart?_padded rest (by omega)
  have hguard : (decide (second / 3600 ≤ 23) && decide (second / 60 % 60 ≤ 59) &&
      decide (written ≤ 60)) = true := by
    simp only [Bool.and_eq_true, decide_eq_true_eq]
    omega
  have hseconds : second / 3600 * 3600 + second / 60 % 60 * 60 + min written 59 = second := by
    omega
  refine Option.bind_eq_some_iff.2 ⟨_, hhour _, ?_⟩
  refine Option.bind_eq_some_iff.2 ⟨_, readMark?_cons hcolon, ?_⟩
  refine Option.bind_eq_some_iff.2 ⟨_, hminute _, ?_⟩
  refine Option.bind_eq_some_iff.2 ⟨_, readMark?_cons hcolon, ?_⟩
  refine Option.bind_eq_some_iff.2 ⟨_, hlast _, ?_⟩
  refine Option.bind_eq_some_iff.2 ⟨_, readFraction?_fractionText hpart, ?_⟩
  refine Option.bind_eq_some_iff.2 ⟨(), if_pos hguard, ?_⟩
  exact congrArg some (Prod.ext (Prod.ext hseconds hleap) rfl)

/-- A point in time is read back from its text. -/
theorem read?_text {t : Timestamp} (h : t.IsWritable) : read? t.text = some t := by
  obtain ⟨hsecond, hnano, hyear⟩ := h
  have hdate := fun rest => readDate?_dateOfDay rest hyear
  have htime := readTime?_text [] hsecond hnano
  have hzone : readOffset? (skipBlanks ['Z']) = some (0, []) := by decide
  have hday : (t.day * 86400 + t.second - 0 * 60) / 86400 = t.day := by omega
  have hrest : ((t.day * 86400 + t.second - 0 * 60) % 86400).toNat = t.second := by omega
  have hresult : (⟨(t.day * 86400 + t.second - 0 * 60) / 86400,
      ((t.day * 86400 + t.second - 0 * 60) % 86400).toNat, t.nano⟩ : Timestamp) = t := by
    rw [hday, hrest]
  have hseparator : ∀ cs, readSeparator? ('T' :: cs) = some cs := fun _ => rfl
  unfold text
  simp only [List.append_assoc, List.cons_append]
  unfold read?
  rw [String.toList_ofList]
  refine Option.bind_eq_some_iff.2 ⟨_, hdate _, ?_⟩
  refine Option.bind_eq_some_iff.2 ⟨_, hseparator _, ?_⟩
  refine Option.bind_eq_some_iff.2 ⟨_, htime, ?_⟩
  refine Option.bind_eq_some_iff.2 ⟨_, hzone, ?_⟩
  refine Option.bind_eq_some_iff.2 ⟨(), if_pos (by decide), ?_⟩
  refine Option.bind_eq_some_iff.2 ⟨(), if_pos (by decide), ?_⟩
  refine Option.bind_eq_some_iff.2 ⟨(), if_pos ?_, ?_⟩
  · show isYear (dateOfDay ((t.day * 86400 + t.second - 0 * 60) / 86400)).1 = true
    rw [hday]
    exact hyear
  · exact congrArg some hresult

end Timestamp
end ConfigCompiler
