import Mathlib
import MarketFeed.Feed.Frame
import MarketFeed.Proofs.Calendar
import MarketFeed.Proofs.PlainDecimals

/-!
Texts of dates and times by their grammar, and the instants that they denote. A text is written from
a date of the calendar, a time of day and the place of the local clock; its instant is that many
nanoseconds from the start of 1970 as the days of the calendar and the clock make. Exactly the texts
of the grammar are read, and a timestamp is the distance of their instant, if a signed count of 64
bits holds it and it is not negative.
-/
namespace MarketFeed.Time

open Number.Digits

/-- So many digits and nothing else. -/
structure AreDigits (count : Nat) (s : List Char) : Prop where
  length_eq : s.length = count
  isDigit : ∀ c ∈ s, isDigit c = true

/-- How a text says where the local clock stands. -/
inductive Zone where
  | utc (letter : Char)
  | offset (sign : Char) (hours minutes : List Char)
deriving DecidableEq

namespace Zone

def text : Zone → List Char
  | utc letter => [letter]
  | offset sign hours minutes => sign :: (hours ++ ':' :: minutes)

/-- The minus sign may be the mathematical one. -/
def WellFormed : Zone → Prop
  | utc letter => letter = 'Z' ∨ letter = 'z'
  | offset sign hours minutes =>
    sign ∈ ['+', '-', '\u2212'] ∧ AreDigits 2 hours ∧ AreDigits 2 minutes ∧
      value hours ≤ 23 ∧ value minutes ≤ 59

/-- The minutes that the local clock is ahead of UTC. -/
def ahead : Zone → Int
  | utc _ => 0
  | offset sign hours minutes =>
    if sign = '+' then (value hours * 60 + value minutes : Nat)
    else -(value hours * 60 + value minutes : Nat)

end Zone

/-- A date and time by the parts of its text. Where there are no digits of a fraction, there is no
point either. -/
structure Written where
  year : List Char
  month : List Char
  day : List Char
  separator : Char
  hour : List Char
  minute : List Char
  second : List Char
  fraction : List Char
  zone : Zone
deriving DecidableEq

/-- The nanoseconds in a fraction of a second; what is left beyond them is dropped. -/
def nanosecondsIn (fraction : List Char) : Nat := value fraction * 10 ^ 9 / 10 ^ fraction.length

def fractionText (fraction : List Char) : List Char :=
  if fraction = [] then [] else '.' :: fraction

namespace Written

def text (w : Written) : List Char :=
  w.year ++ '-' :: (w.month ++ '-' :: (w.day ++ w.separator :: (w.hour ++ ':' ::
    (w.minute ++ ':' :: (w.second ++ (fractionText w.fraction ++ w.zone.text))))))

def date (w : Written) : Date :=
  { year := value w.year, month := value w.month, day := value w.day }

/-- What the grammar asks of the parts. Second 60 is the one after second 59. -/
structure WellFormed (w : Written) : Prop where
  year : AreDigits 4 w.year
  month : AreDigits 2 w.month
  day : AreDigits 2 w.day
  date : w.date.Exists
  separator : w.separator ∈ ['T', 't', ' ']
  hour : AreDigits 2 w.hour
  hour_le : value w.hour ≤ 23
  minute : AreDigits 2 w.minute
  minute_le : value w.minute ≤ 59
  second : AreDigits 2 w.second
  second_le : value w.second ≤ 60
  fraction : ∀ c ∈ w.fraction, isDigit c = true
  zone : w.zone.WellFormed

/-- Whether a date and time is so many nanoseconds from the start of 1970 in UTC. -/
def IsAt (w : Written) (n : Int) : Prop :=
  ∃ day, w.date.IsDay day ∧
    n = (((day * 24 + value w.hour) * 60 + value w.minute - w.zone.ahead) * 60 +
      value w.second) * 10 ^ 9 + nanosecondsIn w.fraction

/-- The parts as they are read. -/
def asRead (w : Written) : Local where
  year := value w.year
  month := value w.month
  day := value w.day
  hour := value w.hour
  minute := value w.minute
  second := value w.second
  nanosecond := nanosecondsIn w.fraction
  offset := w.zone.ahead

end Written

section Readers

theorem readDigits_append {count : Nat} (hcount : 0 < count) {digits : List Char}
    (h : AreDigits count digits) (rest : List Char) :
    readDigits count (digits ++ rest) = some (value digits, rest) := by
  obtain ⟨hlength, hdigits⟩ := h
  have hne : digits ≠ [] := by
    intro hnil
    rw [hnil] at hlength
    simp at hlength
    omega
  have htake : (digits ++ rest).take count = digits := by
    rw [← hlength, List.take_left]
  have hdrop : (digits ++ rest).drop count = rest := by
    rw [← hlength, List.drop_left]
  have hvalue : value? digits = some (value digits) :=
    if_pos ⟨hne, List.all_eq_true.mpr hdigits⟩
  simp only [readDigits, htake, hdrop, hvalue, Option.bind_some, if_pos hlength]

theorem exists_of_readDigits {count n : Nat} {s rest : List Char}
    (h : readDigits count s = some (n, rest)) :
    ∃ digits, AreDigits count digits ∧ s = digits ++ rest ∧ n = value digits := by
  unfold readDigits at h
  obtain ⟨m, hm, h⟩ := Option.bind_eq_some_iff.mp h
  unfold value? at hm
  split at hm
  · next hdigits =>
    cases hm
    split at h
    · next hlength =>
      cases h
      exact ⟨s.take count, ⟨hlength, List.all_eq_true.mp hdigits.2⟩,
        (List.take_append_drop count s).symm, rfl⟩
    · cases h
  · cases hm

theorem readChar_cons {accepted : List Char} {c : Char} (hc : c ∈ accepted) (rest : List Char) :
    readChar accepted (c :: rest) = some rest := if_pos hc

theorem exists_of_readChar {accepted s rest : List Char} (h : readChar accepted s = some rest) :
    ∃ c ∈ accepted, s = c :: rest := by
  cases s with
  | nil => cases h
  | cons c s =>
    by_cases hc : c ∈ accepted
    · rw [readChar, if_pos hc] at h
      cases h
      exact ⟨c, hc, rfl⟩
    · rw [readChar, if_neg hc] at h
      cases h

/-- Nine digits of a fraction count, filled up with zeros if there are fewer. -/
theorem nanosecondsIn_eq (fraction : List Char) :
    value (fraction.take 9) * tens (9 - (fraction.take 9).length) = nanosecondsIn fraction := by
  unfold nanosecondsIn
  rw [tens_eq_pow]
  by_cases hlong : fraction.length ≤ 9
  · rw [List.take_of_length_le hlong]
    have hsplit : 10 ^ 9 = 10 ^ (9 - fraction.length) * 10 ^ fraction.length := by
      rw [← pow_add, Nat.sub_add_cancel hlong]
    rw [hsplit, ← Nat.mul_assoc, Nat.mul_div_cancel _ (Nat.pow_pos (by omega))]
  · have hcut : (fraction.take 9).length = 9 := by
      rw [List.length_take]
      omega
    have hlength : fraction.length = 9 + (fraction.drop 9).length := by
      rw [List.length_drop]
      omega
    have hvalue : value fraction =
        value (fraction.take 9) * 10 ^ (fraction.drop 9).length + value (fraction.drop 9) := by
      rw [← value_append, List.take_append_drop]
    have hdropped := value_lt (fraction.drop 9)
    rw [hcut, hvalue, hlength, pow_add, Nat.mul_comm (10 ^ 9),
      Nat.mul_div_mul_right _ _ (Nat.pow_pos (by omega)), Nat.add_comm,
      Nat.add_mul_div_right _ _ (Nat.pow_pos (by omega)), Nat.div_eq_of_lt hdropped]
    simp

theorem nanosecondsIn_lt (fraction : List Char) : nanosecondsIn fraction < second := by
  have hvalue := value_lt fraction
  have hpow : 0 < 10 ^ fraction.length := Nat.pow_pos (by omega)
  show nanosecondsIn fraction < 10 ^ 9
  unfold nanosecondsIn
  rw [Nat.div_lt_iff_lt_mul hpow, Nat.mul_comm (10 ^ 9)]
  exact Nat.mul_lt_mul_of_pos_right hvalue (by omega)

theorem readNanoseconds_append {fraction : List Char}
    (hdigits : ∀ c ∈ fraction, isDigit c = true) {rest : List Char} (hrest : NoDigitFirst rest)
    (hpoint : rest.head? ≠ some '.') :
    readNanoseconds (fractionText fraction ++ rest) = some (nanosecondsIn fraction, rest) := by
  unfold fractionText
  by_cases hnil : fraction = []
  · subst hnil
    rw [if_pos rfl, List.nil_append]
    cases rest with
    | nil => rfl
    | cons c rest =>
      have hc : c ≠ '.' := fun h => hpoint (congrArg some h)
      unfold readNanoseconds
      split
      · next heq => exact absurd (List.cons.inj heq).1 hc
      · rfl
  · rw [if_neg hnil, List.cons_append]
    have hsplit := split_append_of_digits hdigits hrest
    obtain ⟨c, digits, rfl⟩ := List.exists_cons_of_ne_nil hnil
    simp only [readNanoseconds, hsplit, nanosecondsIn_eq]

theorem exists_of_readNanoseconds {s rest : List Char} {n : Nat}
    (h : readNanoseconds s = some (n, rest)) :
    ∃ fraction, (∀ c ∈ fraction, isDigit c = true) ∧ s = fractionText fraction ++ rest ∧
      n = nanosecondsIn fraction := by
  unfold readNanoseconds at h
  split at h
  · next after =>
    split at h
    · cases h
    · next digits _ hne hsplit =>
      cases h
      have hdigits : digits = after.takeWhile isDigit := (congrArg Prod.fst hsplit).symm
      have hjoin : digits ++ rest = after := by
        rw [← split_append after, hsplit]
      refine ⟨digits, ?_, ?_, nanosecondsIn_eq digits⟩
      · intro c hc
        rw [hdigits] at hc
        exact List.mem_takeWhile_imp hc
      · rw [fractionText, if_neg hne, List.cons_append, hjoin]
  · cases h
    exact ⟨[], by simp, rfl, rfl⟩

/-- After a fraction comes a letter or a sign, which is neither a digit nor a point. -/
theorem Zone.noDigitFirst {zone : Zone} (h : zone.WellFormed) :
    NoDigitFirst zone.text ∧ zone.text.head? ≠ some '.' := by
  have hchars : ∀ c ∈ ['Z', 'z', '+', '-', '\u2212'], isDigit c = false ∧ c ≠ '.' := by
    simp [isDigit, digit?]
  obtain ⟨c, hc, hfirst⟩ : ∃ c ∈ ['Z', 'z', '+', '-', '\u2212'], zone.text.head? = some c := by
    cases zone with
    | utc letter =>
      refine ⟨letter, ?_, rfl⟩
      rcases h with hletter | hletter
      · simp [hletter]
      · simp [hletter]
    | offset sign hours minutes =>
      exact ⟨sign, List.mem_cons_of_mem _ (List.mem_cons_of_mem _ h.1), rfl⟩
  obtain ⟨hdigit, hpoint⟩ := hchars c hc
  rw [NoDigitFirst, hfirst]
  constructor
  · intro d hd
    cases hd
    exact hdigit
  · intro hsame
    exact hpoint (Option.some.inj hsame)

theorem readOffset_text {zone : Zone} (h : zone.WellFormed) :
    readOffset zone.text = some (zone.ahead, []) := by
  cases zone with
  | utc letter => exact if_pos h
  | offset sign hours minutes =>
    obtain ⟨hsign, hhours, hminutes, -, hminutesLe⟩ := h
    have hletter : ¬ (sign = 'Z' ∨ sign = 'z') := by
      rintro (rfl | rfl)
      · exact absurd hsign (by decide)
      · exact absurd hsign (by decide)
    have hhoursRead := readDigits_append (by omega) hhours (':' :: minutes)
    have hcolon : readChar [':'] (':' :: minutes) = some minutes := rfl
    have hminutesRead := readDigits_append (by omega) hminutes []
    rw [List.append_nil] at hminutesRead
    simp only [Zone.text, readOffset, if_neg hletter, if_pos hsign, hhoursRead, hcolon,
      hminutesRead, Option.bind_eq_bind, Option.bind_some, if_pos hminutesLe, Zone.ahead]
    push_cast
    rfl

theorem exists_of_readOffset {s : List Char} {ahead : Int} (h : readOffset s = some (ahead, []))
    (hahead : ahead.natAbs < 24 * 60) :
    ∃ zone : Zone, zone.WellFormed ∧ s = zone.text ∧ ahead = zone.ahead := by
  cases s with
  | nil => cases h
  | cons c rest =>
    by_cases hletter : c = 'Z' ∨ c = 'z'
    · rw [readOffset, if_pos hletter] at h
      cases h
      exact ⟨.utc c, hletter, rfl, rfl⟩
    by_cases hsign : c ∈ ['+', '-', '\u2212']
    · rw [readOffset, if_neg hletter, if_pos hsign] at h
      simp only [Option.bind_eq_bind, Option.bind_eq_some_iff, Prod.exists,
        Option.ite_none_right_eq_some, Option.some.injEq, Prod.mk.injEq] at h
      obtain ⟨_, _, hhoursRead, _, hcolon, _, _, hminutesRead, hminutesLe, rfl, rfl⟩ := h
      obtain ⟨hours, hhours, rfl, rfl⟩ := exists_of_readDigits hhoursRead
      obtain ⟨colon, hcolonMem, rfl⟩ := exists_of_readChar hcolon
      obtain ⟨minutes, hminutes, rfl, rfl⟩ := exists_of_readDigits hminutesRead
      cases List.mem_singleton.mp hcolonMem
      refine ⟨.offset c hours minutes, ⟨hsign, hhours, hminutes, ?_, hminutesLe⟩,
        by simp [Zone.text], by simp [Zone.ahead]⟩
      split at hahead <;> omega
    · rw [readOffset, if_neg hletter, if_neg hsign] at h
      cases h

end Readers

namespace Written

/-- What the grammar asks of a date, a time of day and the local clock is what makes it valid. -/
theorem WellFormed.isValid {w : Written} (h : w.WellFormed) : w.asRead.isValid = true := by
  obtain ⟨hmonth, hmonthLe, hday, hdayLe⟩ := h.date
  have hzone : w.zone.ahead.natAbs < 24 * 60 := by
    have hwell := h.zone
    unfold Zone.ahead
    cases hz : w.zone with
    | utc letter => simp
    | offset sign hours minutes =>
      rw [hz] at hwell
      obtain ⟨-, -, -, hhours, hminutes⟩ := hwell
      simp only
      split <;> omega
  have hhour := h.hour_le
  have hminute := h.minute_le
  have hsecond := h.second_le
  have hnanosecond := nanosecondsIn_lt w.fraction
  simp only [Local.isValid, Bool.and_eq_true, decide_eq_true_eq]
  exact ⟨⟨⟨⟨⟨⟨⟨⟨hmonth, hmonthLe⟩, hday⟩, hdayLe⟩, hhour⟩, hminute⟩, hsecond⟩, hnanosecond⟩, hzone⟩

/-- A text of the grammar is read. -/
theorem WellFormed.ofText?_text {w : Written} (h : w.WellFormed) :
    Local.ofText? w.text = some w.asRead := by
  obtain ⟨hrest, hpoint⟩ := Zone.noDigitFirst h.zone
  have htwo : 0 < 2 := by omega
  refine Option.bind_eq_some_iff.mpr ⟨_, readDigits_append (by omega) h.year _, ?_⟩
  refine Option.bind_eq_some_iff.mpr ⟨_, readChar_cons (List.mem_singleton_self _) _, ?_⟩
  refine Option.bind_eq_some_iff.mpr ⟨_, readDigits_append htwo h.month _, ?_⟩
  refine Option.bind_eq_some_iff.mpr ⟨_, readChar_cons (List.mem_singleton_self _) _, ?_⟩
  refine Option.bind_eq_some_iff.mpr ⟨_, readDigits_append htwo h.day _, ?_⟩
  refine Option.bind_eq_some_iff.mpr ⟨_, readChar_cons h.separator _, ?_⟩
  refine Option.bind_eq_some_iff.mpr ⟨_, readDigits_append htwo h.hour _, ?_⟩
  refine Option.bind_eq_some_iff.mpr ⟨_, readChar_cons (List.mem_singleton_self _) _, ?_⟩
  refine Option.bind_eq_some_iff.mpr ⟨_, readDigits_append htwo h.minute _, ?_⟩
  refine Option.bind_eq_some_iff.mpr ⟨_, readChar_cons (List.mem_singleton_self _) _, ?_⟩
  refine Option.bind_eq_some_iff.mpr ⟨_, readDigits_append htwo h.second _, ?_⟩
  refine Option.bind_eq_some_iff.mpr ⟨_, readNanoseconds_append h.fraction hrest hpoint, ?_⟩
  refine Option.bind_eq_some_iff.mpr ⟨_, readOffset_text h.zone, ?_⟩
  exact if_pos ⟨rfl, h.isValid⟩

end Written

/-- Exactly the texts of the grammar are read, each by its parts. -/
theorem Local.ofText?_eq_some_iff (s : List Char) (t : Local) :
    ofText? s = some t ↔ ∃ w : Written, w.WellFormed ∧ w.text = s ∧ w.asRead = t := by
  constructor
  · intro h
    obtain ⟨⟨year, s₁⟩, hyear, h⟩ := Option.bind_eq_some_iff.mp h
    obtain ⟨s₂, hdash, h⟩ := Option.bind_eq_some_iff.mp h
    obtain ⟨⟨month, s₃⟩, hmonth, h⟩ := Option.bind_eq_some_iff.mp h
    obtain ⟨s₄, hdash', h⟩ := Option.bind_eq_some_iff.mp h
    obtain ⟨⟨day, s₅⟩, hday, h⟩ := Option.bind_eq_some_iff.mp h
    obtain ⟨s₆, hseparator, h⟩ := Option.bind_eq_some_iff.mp h
    obtain ⟨⟨hour, s₇⟩, hhour, h⟩ := Option.bind_eq_some_iff.mp h
    obtain ⟨s₈, hcolon, h⟩ := Option.bind_eq_some_iff.mp h
    obtain ⟨⟨minute, s₉⟩, hminute, h⟩ := Option.bind_eq_some_iff.mp h
    obtain ⟨s₁₀, hcolon', h⟩ := Option.bind_eq_some_iff.mp h
    obtain ⟨⟨second, s₁₁⟩, hsecond, h⟩ := Option.bind_eq_some_iff.mp h
    obtain ⟨⟨nanosecond, s₁₂⟩, hnanosecond, h⟩ := Option.bind_eq_some_iff.mp h
    obtain ⟨⟨offset, s₁₃⟩, hoffset, h⟩ := Option.bind_eq_some_iff.mp h
    simp only [Option.ite_none_right_eq_some, Option.some.injEq] at h
    obtain ⟨⟨rfl, hvalid⟩, rfl⟩ := h
    simp only [isValid, Bool.and_eq_true, decide_eq_true_eq] at hvalid
    obtain ⟨⟨⟨⟨⟨⟨⟨⟨hmonthPos, hmonthLe⟩, hdayPos⟩, hdayLe⟩, hhourLe⟩, hminuteLe⟩, hsecondLe⟩, -⟩,
      hoffsetLt⟩ := hvalid
    obtain ⟨yearDigits, hyearDigits, rfl, rfl⟩ := exists_of_readDigits hyear
    obtain ⟨_, hc, rfl⟩ := exists_of_readChar hdash
    cases List.mem_singleton.mp hc
    obtain ⟨monthDigits, hmonthDigits, rfl, rfl⟩ := exists_of_readDigits hmonth
    obtain ⟨_, hc, rfl⟩ := exists_of_readChar hdash'
    cases List.mem_singleton.mp hc
    obtain ⟨dayDigits, hdayDigits, rfl, rfl⟩ := exists_of_readDigits hday
    obtain ⟨separator, hseparatorMem, rfl⟩ := exists_of_readChar hseparator
    obtain ⟨hourDigits, hhourDigits, rfl, rfl⟩ := exists_of_readDigits hhour
    obtain ⟨_, hc, rfl⟩ := exists_of_readChar hcolon
    cases List.mem_singleton.mp hc
    obtain ⟨minuteDigits, hminuteDigits, rfl, rfl⟩ := exists_of_readDigits hminute
    obtain ⟨_, hc, rfl⟩ := exists_of_readChar hcolon'
    cases List.mem_singleton.mp hc
    obtain ⟨secondDigits, hsecondDigits, rfl, rfl⟩ := exists_of_readDigits hsecond
    obtain ⟨fraction, hfraction, rfl, rfl⟩ := exists_of_readNanoseconds hnanosecond
    obtain ⟨zone, hzone, rfl, rfl⟩ := exists_of_readOffset hoffset hoffsetLt
    exact ⟨⟨yearDigits, monthDigits, dayDigits, separator, hourDigits, minuteDigits, secondDigits,
        fraction, zone⟩,
      ⟨hyearDigits, hmonthDigits, hdayDigits, ⟨hmonthPos, hmonthLe, hdayPos, hdayLe⟩, hseparatorMem,
        hhourDigits, hhourLe, hminuteDigits, hminuteLe, hsecondDigits, hsecondLe, hfraction, hzone⟩,
      rfl, rfl⟩
  · intro ⟨w, hw, hs, ht⟩
    rw [← hs, ← ht]
    exact hw.ofText?_text

namespace Written

/-- The one distance of a date and time is what is computed from its parts. -/
theorem WellFormed.isAt_iff {w : Written} (h : w.WellFormed) (n : Int) :
    w.IsAt n ↔ n = w.asRead.distance := by
  have hdays : w.asRead.days = (w.date.ordinal : Int) - Date.epoch.ordinal := by
    have hday := h.date.day_pos
    have hepoch : daysBeforeMonth 1970 1 = 0 := rfl
    show (daysBeforeYear w.date.year : Int) + daysBeforeMonth w.date.year w.date.month +
      (w.date.day - 1) - daysBeforeYear 1970 = _
    simp only [Date.ordinal, Date.epoch, hepoch]
    omega
  have hsecond : (Time.second : Int) = 10 ^ 9 := rfl
  unfold IsAt Local.distance
  simp only [h.date.isDay_iff, exists_eq_left, hdays, hsecond]
  rfl

end Written

/-- Whether a text is one of the grammar, and so many nanoseconds from the start of 1970 the instant
that it denotes. -/
def Denotes (raw : String) (n : Int) : Prop :=
  ∃ w : Written, w.WellFormed ∧ w.text = raw.toList ∧ w.IsAt n

theorem denotes_iff (raw : String) (n : Int) :
    Denotes raw n ↔ ∃ t, Local.ofText? raw.toList = some t ∧ n = t.distance := by
  simp only [Local.ofText?_eq_some_iff]
  constructor
  · intro ⟨w, hw, htext, hn⟩
    exact ⟨w.asRead, ⟨w, hw, htext, rfl⟩, (hw.isAt_iff n).mp hn⟩
  · intro ⟨_, ⟨w, hw, htext, ht⟩, hn⟩
    rw [← ht] at hn
    exact ⟨w, hw, htext, (hw.isAt_iff n).mpr hn⟩

end MarketFeed.Time

namespace MarketFeed.Feed.Frame

open Time

theorem timestamp_of_denotes {raw : String} {n : Int} (h : Denotes raw n) :
    timestamp raw =
      if n < -2 ^ 63 ∨ 2 ^ 63 - 1 < n then .error (.malformed ("timestamp out of range: " ++ raw))
      else if n < 0 then .error (.malformed ("timestamp before epoch: " ++ raw))
      else .ok (.ofNat n.toNat) := by
  obtain ⟨t, ht, hn⟩ := (denotes_iff raw n).mp h
  have hlow : Int64.minValue.toInt = -2 ^ 63 := by decide
  have hhigh : Int64.maxValue.toInt = 2 ^ 63 - 1 := by decide
  simp only [timestamp, Time.timestamp, ht, ← hn, hlow, hhigh]
  by_cases hrange : n < -2 ^ 63 ∨ 2 ^ 63 - 1 < n
  · simp only [if_pos hrange]
    rfl
  · by_cases hepoch : n < 0
    · simp only [if_neg hrange, if_pos hepoch]
      rfl
    · simp only [if_neg hrange, if_neg hepoch]

theorem timestamp_of_not_denotes {raw : String} (h : ∀ n, ¬ Denotes raw n) :
    timestamp raw = .error (.malformed ("invalid timestamp " ++ Text.Quoted.quote raw)) := by
  have hnone : Local.ofText? raw.toList = none := by
    cases ht : Local.ofText? raw.toList with
    | none => rfl
    | some t => exact absurd ((denotes_iff raw _).mpr ⟨t, ht, rfl⟩) (h t.distance)
  simp only [timestamp, Time.timestamp, hnone]
  rfl

/-- A text that denotes an instant is a timestamp exactly if the instant is not before 1970 and a
signed count of 64 bits reaches it, and then the timestamp is its distance. -/
theorem timestamp_eq_ok_iff_of_denotes {raw : String} {n : Int} (h : Denotes raw n)
    (time : UInt64) :
    timestamp raw = .ok time ↔ 0 ≤ n ∧ n ≤ 2 ^ 63 - 1 ∧ (time.toNat : Int) = n := by
  rw [timestamp_of_denotes h]
  by_cases hrange : n < -2 ^ 63 ∨ 2 ^ 63 - 1 < n
  · rw [if_pos hrange]
    constructor
    · intro hok
      cases hok
    · intro ⟨hlow, hhigh, _⟩
      omega
  · by_cases hepoch : n < 0
    · rw [if_neg hrange, if_pos hepoch]
      constructor
      · intro hok
        cases hok
      · intro ⟨hlow, _⟩
        omega
    · rw [if_neg hrange, if_neg hepoch]
      have hfits : n.toNat < 2 ^ 64 := by omega
      have hword : (UInt64.ofNat n.toNat).toNat = n.toNat := by
        rw [UInt64.toNat_ofNat', Nat.mod_eq_of_lt hfits]
      constructor
      · intro hok
        cases hok
        omega
      · intro ⟨hlow, hhigh, htime⟩
        have hsame : UInt64.ofNat n.toNat = time := by
          apply UInt64.toNat_inj.mp
          omega
        rw [hsame]

/-- Every text of the grammar denotes one instant. Its timestamp is the distance of the instant if
that is neither negative nor above the largest signed count of 64 bits; it is out of range if such a
count does not hold the distance, and before the epoch where the count would be negative. A text that
is not of the grammar is no timestamp. So texts of one instant have the same timestamp, and a later
instant has no smaller one. -/
theorem timestamp_exact (raw : String) :
    (∀ w : Written, w.WellFormed → w.text = raw.toList → ∃! n, w.IsAt n) ∧
    (∀ n, Denotes raw n →
      (∀ time, timestamp raw = .ok time ↔ 0 ≤ n ∧ n ≤ 2 ^ 63 - 1 ∧ (time.toNat : Int) = n) ∧
      (n < -2 ^ 63 ∨ 2 ^ 63 - 1 < n →
        timestamp raw = .error (.malformed ("timestamp out of range: " ++ raw))) ∧
      (-2 ^ 63 ≤ n ∧ n < 0 →
        timestamp raw = .error (.malformed ("timestamp before epoch: " ++ raw)))) ∧
    ((∀ n, ¬ Denotes raw n) →
      timestamp raw = .error (.malformed ("invalid timestamp " ++ Text.Quoted.quote raw))) ∧
    ∀ raw' n n', Denotes raw n → Denotes raw' n' →
      (n = n' → ∀ time, timestamp raw = .ok time ↔ timestamp raw' = .ok time) ∧
      (n ≤ n' → ∀ time time', timestamp raw = .ok time → timestamp raw' = .ok time' →
        time ≤ time') := by
  refine ⟨?_, ?_, timestamp_of_not_denotes, ?_⟩
  · intro w hw htext
    refine ⟨w.asRead.distance, (hw.isAt_iff _).mpr rfl, ?_⟩
    intro n hn
    exact (hw.isAt_iff n).mp hn
  · intro n hn
    refine ⟨timestamp_eq_ok_iff_of_denotes hn, ?_, ?_⟩
    · intro hrange
      rw [timestamp_of_denotes hn, if_pos hrange]
    · intro hepoch
      rw [timestamp_of_denotes hn, if_neg (by omega), if_pos hepoch.2]
  · intro raw' n n' hn hn'
    constructor
    · intro hsame time
      rw [timestamp_eq_ok_iff_of_denotes hn, timestamp_eq_ok_iff_of_denotes hn', hsame]
    · intro hle time time' htime htime'
      have htime := (timestamp_eq_ok_iff_of_denotes hn time).mp htime
      have htime' := (timestamp_eq_ok_iff_of_denotes hn' time').mp htime'
      rw [UInt64.le_iff_toNat_le]
      omega

/-- A leap second on the last day of a February, an hour behind UTC. -/
def behind : String := "2000-02-29t22:59:60.1234567899\u221201:00"

/-- The same instant in UTC, which is in March. -/
def ahead : String := "2000-03-01T00:00:00.123456789Z"

theorem timestamp_exact_leapSecond :
    Denotes behind 951868800123456789 ∧ Denotes ahead 951868800123456789 ∧
      timestamp behind = .ok 951868800123456789 ∧ timestamp ahead = .ok 951868800123456789 := by
  have hbehind : Denotes behind 951868800123456789 := by
    rw [denotes_iff]
    exact ⟨_, by cbv, by decide⟩
  have hahead : Denotes ahead 951868800123456789 := by
    rw [denotes_iff]
    exact ⟨_, by cbv, by decide⟩
  obtain ⟨-, hdistance, -, hsame⟩ := timestamp_exact behind
  have htime : timestamp behind = .ok 951868800123456789 :=
    ((hdistance _ hbehind).1 _).mpr ⟨by decide, by decide, rfl⟩
  exact ⟨hbehind, hahead, htime, ((hsame _ _ _ hbehind hahead).1 rfl _).mp htime⟩

end MarketFeed.Feed.Frame
