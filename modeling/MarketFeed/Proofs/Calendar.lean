import Mathlib
import MarketFeed.Time.Instant

/-!
The days of the calendar. A day is followed by the next of its month, by the first of the next month
or by the first of the next year, and the number of a day is how often one has to go on from the
start of 1970 to come to it, or from it to come there. Every date has one number, which the closed
form of the days before a year and before a month gives, leap years and all.
-/
namespace MarketFeed.Time

/-- Months and days are counted from one. -/
structure Date where
  year : Nat
  month : Nat
  day : Nat
deriving DecidableEq

namespace Date

/-- A date that is in the calendar. -/
structure Exists (d : Date) : Prop where
  month_pos : 1 ≤ d.month
  month_le : d.month ≤ 12
  day_pos : 1 ≤ d.day
  day_le : d.day ≤ daysInMonth d.year d.month

/-- The day after. -/
def next (d : Date) : Date :=
  if d.day < daysInMonth d.year d.month then { d with day := d.day + 1 }
  else if d.month < 12 then { d with month := d.month + 1, day := 1 }
  else { year := d.year + 1, month := 1, day := 1 }

def epoch : Date := { year := 1970, month := 1, day := 1 }

/-- Whether a date is so many days after the start of 1970, or before it if the number is negative:
as many steps lead from the one to the other. -/
def IsDay (d : Date) (number : Int) : Prop :=
  next^[number.toNat] epoch = next^[(-number).toNat] d

/-- The days from the start of year 0 to a date. -/
def ordinal (d : Date) : Nat :=
  daysBeforeYear d.year + daysBeforeMonth d.year d.month + (d.day - 1)

end Date

def daysInYear (year : Nat) : Nat := if isLeap year then 366 else 365

/-- Going on by one, the multiples that lie before a year become one more at a multiple. -/
theorem ceil_succ (year : Nat) {cycle : Nat} (hcycle : 0 < cycle) :
    (year + 1 + (cycle - 1)) / cycle =
      (year + (cycle - 1)) / cycle + if year % cycle = 0 then 1 else 0 := by
  have hyear := Nat.div_add_mod year cycle
  have hlt := Nat.mod_lt year hcycle
  generalize year / cycle = whole at hyear
  generalize hrest : year % cycle = rest at hyear hlt
  have hnext : year + 1 + (cycle - 1) = rest + cycle * (whole + 1) := by
    rw [Nat.mul_add, Nat.mul_one]
    omega
  have hthis : year + (cycle - 1) = rest + (cycle - 1) + cycle * whole := by omega
  rw [hnext, hthis, Nat.add_mul_div_left _ _ hcycle, Nat.add_mul_div_left _ _ hcycle,
    Nat.div_eq_of_lt hlt]
  by_cases hzero : rest = 0
  · rw [if_pos hzero, hzero, Nat.zero_add, Nat.div_eq_of_lt (by omega)]
    omega
  · have hone : rest + (cycle - 1) = (rest - 1) + cycle * 1 := by omega
    rw [if_neg hzero, hone, Nat.add_mul_div_left _ _ hcycle, Nat.div_eq_of_lt (by omega)]
    omega

theorem daysBeforeYear_succ (year : Nat) :
    daysBeforeYear (year + 1) = daysBeforeYear year + daysInYear year := by
  have hfour : (year + 1 + 3) / 4 = (year + 3) / 4 + if year % 4 = 0 then 1 else 0 :=
    ceil_succ year (show 0 < 4 by omega)
  have hhundred : (year + 1 + 99) / 100 = (year + 99) / 100 + if year % 100 = 0 then 1 else 0 :=
    ceil_succ year (show 0 < 100 by omega)
  have hfourHundred : (year + 1 + 399) / 400 =
      (year + 399) / 400 + if year % 400 = 0 then 1 else 0 :=
    ceil_succ year (show 0 < 400 by omega)
  have hle : (year + 99) / 100 ≤ year := by omega
  have hcenturies : year % 400 = 0 → year % 100 = 0 := by omega
  have hcentury : year % 100 = 0 → year % 4 = 0 := by omega
  have hleap : isLeap year = true ↔ year % 4 = 0 ∧ (year % 100 ≠ 0 ∨ year % 400 = 0) := by
    simp [isLeap]
  unfold daysBeforeYear daysInYear
  rw [hfour, hhundred, hfourHundred, if_congr hleap rfl rfl]
  clear hleap hfour hhundred hfourHundred
  generalize (year + 3) / 4 = fours
  generalize (year + 99) / 100 = hundreds at hle ⊢
  generalize (year + 399) / 400 = fourHundreds
  generalize year % 4 = four at hcentury ⊢
  generalize year % 100 = hundred at hcenturies hcentury ⊢
  generalize year % 400 = fourHundred at hcenturies ⊢
  -- a full century makes no leap year unless it is the fourth
  by_cases hfour : four = 0
  · by_cases hhundred : hundred = 0
    · by_cases hfourHundred : fourHundred = 0
      · rw [if_pos hfour, if_pos hhundred, if_pos hfourHundred,
          if_pos ⟨hfour, Or.inr hfourHundred⟩]
        omega
      · rw [if_pos hfour, if_pos hhundred, if_neg hfourHundred,
          if_neg fun hleap => hleap.2.elim (absurd hhundred) hfourHundred]
        omega
    · rw [if_pos hfour, if_neg hhundred, if_neg (mt hcenturies hhundred),
        if_pos ⟨hfour, Or.inl hhundred⟩]
      omega
  · have hhundred : hundred ≠ 0 := mt hcentury hfour
    rw [if_neg hfour, if_neg hhundred, if_neg (mt hcenturies hhundred),
      if_neg fun hleap => hfour hleap.1]
    omega

theorem daysBeforeMonth_succ (year : Nat) {month : Nat} (hmonth : 1 ≤ month) :
    daysBeforeMonth year (month + 1) = daysBeforeMonth year month + daysInMonth year month := by
  obtain ⟨before, rfl⟩ := Nat.exists_eq_add_of_le' hmonth
  simp only [daysBeforeMonth, Nat.add_sub_cancel, List.range_succ, List.foldl_append,
    List.foldl_cons, List.foldl_nil]

/-- The twelve months make up the year. -/
theorem daysBeforeMonth_thirteen (year : Nat) : daysBeforeMonth year 13 = daysInYear year := by
  unfold daysInYear
  cases h : isLeap year <;> simp [daysBeforeMonth, List.range_succ, daysInMonth, h]

theorem daysInMonth_pos (year month : Nat) : 0 < daysInMonth year month := by
  unfold daysInMonth
  repeat' split
  all_goals omega

theorem daysBeforeMonth_mono (year : Nat) {month later : Nat} (hmonth : 1 ≤ month)
    (hlater : month ≤ later) : daysBeforeMonth year month ≤ daysBeforeMonth year later := by
  induction later, hlater using Nat.le_induction with
  | base => exact Nat.le_refl _
  | succ later hle ih =>
    rw [daysBeforeMonth_succ year (by omega)]
    omega

theorem daysBeforeYear_mono {year later : Nat} (hlater : year ≤ later) :
    daysBeforeYear year ≤ daysBeforeYear later := by
  induction later, hlater using Nat.le_induction with
  | base => exact Nat.le_refl _
  | succ later hle ih =>
    rw [daysBeforeYear_succ]
    omega

namespace Date

theorem exists_epoch : epoch.Exists := ⟨by decide, by decide, by decide, by decide⟩

theorem Exists.next {d : Date} (h : d.Exists) : d.next.Exists := by
  obtain ⟨hmonth, hmonth', hday, hday'⟩ := h
  unfold Date.next
  split
  · exact ⟨hmonth, hmonth', by show 1 ≤ d.day + 1; omega, by assumption⟩
  · split
    · exact ⟨by show 1 ≤ d.month + 1; omega, by assumption, Nat.le_refl 1, daysInMonth_pos _ _⟩
    · exact ⟨Nat.le_refl 1, by show 1 ≤ 12; omega, Nat.le_refl 1, daysInMonth_pos _ _⟩

/-- The next day is one day later. -/
theorem Exists.ordinal_next {d : Date} (h : d.Exists) : d.next.ordinal = d.ordinal + 1 := by
  obtain ⟨hmonth, hmonth', hday, hday'⟩ := h
  unfold Date.next
  split
  · show daysBeforeYear d.year + daysBeforeMonth d.year d.month + (d.day + 1 - 1) = d.ordinal + 1
    unfold ordinal
    omega
  · next hlast =>
    split
    · show daysBeforeYear d.year + daysBeforeMonth d.year (d.month + 1) + 0 = d.ordinal + 1
      rw [daysBeforeMonth_succ d.year hmonth]
      unfold ordinal
      omega
    · next hdecember =>
      have hyear := daysBeforeMonth_thirteen d.year
      have htwelve : d.month = 12 := by omega
      rw [daysBeforeMonth_succ d.year (by omega), ← htwelve] at hyear
      show daysBeforeYear (d.year + 1) + 0 + 0 = d.ordinal + 1
      rw [daysBeforeYear_succ]
      unfold ordinal
      omega

theorem Exists.iterate_next {d : Date} (h : d.Exists) (steps : Nat) :
    (Date.next^[steps] d).Exists ∧ (Date.next^[steps] d).ordinal = d.ordinal + steps := by
  induction steps with
  | zero => exact ⟨h, rfl⟩
  | succ steps ih =>
    rw [Function.iterate_succ_apply']
    exact ⟨ih.1.next, by rw [ih.1.ordinal_next, ih.2]; rfl⟩

/-- A date lies within its year. -/
theorem Exists.ordinal_lt {d : Date} (h : d.Exists) :
    daysBeforeYear d.year ≤ d.ordinal ∧ d.ordinal < daysBeforeYear (d.year + 1) := by
  obtain ⟨hmonth, hmonth', hday, hday'⟩ := h
  have hwithin := daysBeforeMonth_mono d.year (Nat.le_succ_of_le hmonth) (Nat.succ_le_succ hmonth')
  rw [daysBeforeMonth_succ d.year hmonth, daysBeforeMonth_thirteen] at hwithin
  rw [daysBeforeYear_succ]
  unfold ordinal
  omega

/-- Dates with the same number of days before them are the same date. -/
theorem Exists.eq_of_ordinal {d d' : Date} (h : d.Exists) (h' : d'.Exists)
    (hsame : d.ordinal = d'.ordinal) : d = d' := by
  have hyear : d.year = d'.year := by
    obtain ⟨hlow, hhigh⟩ := h.ordinal_lt
    obtain ⟨hlow', hhigh'⟩ := h'.ordinal_lt
    by_contra hne
    rcases Nat.lt_or_gt_of_ne hne with hlt | hgt
    · have hlater : daysBeforeYear (d.year + 1) ≤ daysBeforeYear d'.year :=
        daysBeforeYear_mono hlt
      omega
    · have hlater : daysBeforeYear (d'.year + 1) ≤ daysBeforeYear d.year :=
        daysBeforeYear_mono hgt
      omega
  obtain ⟨year, month, day⟩ := d
  obtain ⟨year', month', day'⟩ := d'
  obtain ⟨hmonth, -, hday, hdayLe⟩ := h
  obtain ⟨hmonth', -, hday', hdayLe'⟩ := h'
  simp only at hyear hmonth hday hdayLe hmonth' hday' hdayLe'
  subst hyear
  have hdays : daysBeforeMonth year month + (day - 1) =
      daysBeforeMonth year month' + (day' - 1) := by
    unfold ordinal at hsame
    simp only at hsame
    omega
  have hmonths : month = month' := by
    by_contra hne
    rcases Nat.lt_or_gt_of_ne hne with hlt | hgt
    · have hwithin := daysBeforeMonth_mono year (by omega) (Nat.succ_le_of_lt hlt)
      rw [Nat.succ_eq_add_one, daysBeforeMonth_succ year hmonth] at hwithin
      omega
    · have hwithin := daysBeforeMonth_mono year (by omega) (Nat.succ_le_of_lt hgt)
      rw [Nat.succ_eq_add_one, daysBeforeMonth_succ year hmonth'] at hwithin
      omega
  subst hmonths
  have hday : day = day' := by omega
  rw [hday]

/-- A date has one number, and that is the difference of the days before it and before 1970. -/
theorem Exists.isDay_iff {d : Date} (h : d.Exists) (number : Int) :
    d.IsDay number ↔ number = (d.ordinal : Int) - epoch.ordinal := by
  obtain ⟨hthere, hordinal⟩ := exists_epoch.iterate_next number.toNat
  obtain ⟨hthere', hordinal'⟩ := h.iterate_next (-number).toNat
  constructor
  · intro hsame
    have := congrArg ordinal hsame
    omega
  · intro hnumber
    exact hthere.eq_of_ordinal hthere' (by omega)

end Date

end MarketFeed.Time
