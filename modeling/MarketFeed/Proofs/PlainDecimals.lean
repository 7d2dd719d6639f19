import Mathlib
import MarketFeed.Json.Reader
import MarketFeed.Proofs.Numerals

/-!
Decimals as rational numbers. Text of digits with at most one point is read exactly whenever its
value is that of some decimal: the reader stops early only where the mantissa or the places are
full, and then all the digits that it leaves out are zeros.
-/
namespace MarketFeed.Number

namespace Digits

theorem digit?_lt {c : Char} {digit : Nat} (h : digit? c = some digit) : digit < 10 := by
  rw [digit?, Option.ite_none_right_eq_some, Option.some.injEq] at h
  obtain ⟨⟨-, hhigh⟩, rfl⟩ := h
  have hhigh : c.toNat ≤ 57 := hhigh
  omega

theorem tens_eq_pow (zeros : Nat) : tens zeros = 10 ^ zeros := by
  induction zeros with
  | zero => rfl
  | succ zeros ih => rw [tens, ih, pow_succ, mul_comm]

theorem tens_pos (zeros : Nat) : 0 < tens zeros := by
  rw [tens_eq_pow]
  exact Nat.pow_pos (by decide)

theorem more_cons (n : Nat) (c : Char) (s : List Char) :
    more n (c :: s) = more (n * 10 + (digit? c).getD 0) s := rfl

theorem value_eq_more (c : Char) (s : List Char) :
    value (c :: s) = more ((digit? c).getD 0) s := by
  simp [value, more]

theorem more_eq (n : Nat) (s : List Char) : more n s = n * 10 ^ s.length + value s := by
  induction s generalizing n with
  | nil => simp [more, value]
  | cons c s ih =>
    rw [more_cons, ih, value_eq_more, ih, List.length_cons]
    ring

theorem value_cons (c : Char) (s : List Char) :
    value (c :: s) = (digit? c).getD 0 * 10 ^ s.length + value s := by
  rw [value_eq_more, more_eq]

theorem value_append (s t : List Char) : value (s ++ t) = value s * 10 ^ t.length + value t := by
  have happend : value (s ++ t) = more (value s) t := more_append 0 s t
  rw [happend, more_eq]

theorem value_lt (s : List Char) : value s < 10 ^ s.length := by
  induction s with
  | nil => simp [value]
  | cons c s ih =>
    have hdigit : (digit? c).getD 0 < 10 := by
      cases h : digit? c with
      | none => simp
      | some digit => exact digit?_lt h
    rw [value_cons, List.length_cons, pow_succ]
    nlinarith

/-- Digits behind the places that a number needs are zeros. -/
theorem value_eq_zero_of_short {n m k p : Nat} {s : List Char} (hkp : k ≤ p)
    (h : more n s * 10 ^ k = m * 10 ^ (p + s.length)) : value s = 0 := by
  obtain ⟨gap, rfl⟩ := Nat.exists_eq_add_of_le hkp
  have hmore : more n s = m * 10 ^ gap * 10 ^ s.length := by
    refine Nat.eq_of_mul_eq_mul_right (Nat.pow_pos (by decide) : 0 < 10 ^ k) ?_
    rw [h]
    ring
  have hdvd : 10 ^ s.length ∣ n * 10 ^ s.length + value s := by
    rw [← more_eq, hmore]
    exact Nat.dvd_mul_left _ _
  exact Nat.eq_zero_of_dvd_of_lt ((Nat.dvd_add_right (Nat.dvd_mul_left _ _)).mp hdvd) (value_lt s)

/-- A number that needs more places than have been read is no less in them than what was read. -/
theorem le_of_long {n m k p : Nat} {s : List Char} (hpk : p + 1 ≤ k)
    (h : more n s * 10 ^ k = m * 10 ^ (p + (s.length + 1))) : n ≤ m := by
  obtain ⟨gap, rfl⟩ := Nat.exists_eq_add_of_le hpk
  have hmul : n * 10 ^ gap * 10 ^ (p + (s.length + 1)) ≤ m * 10 ^ (p + (s.length + 1)) := by
    calc n * 10 ^ gap * 10 ^ (p + (s.length + 1)) = n * 10 ^ s.length * 10 ^ (p + 1 + gap) := by ring
      _ ≤ more n s * 10 ^ (p + 1 + gap) := by
          rw [more_eq]
          exact Nat.mul_le_mul_right _ (Nat.le_add_right _ _)
      _ = m * 10 ^ (p + (s.length + 1)) := h
  have hgap := Nat.le_of_mul_le_mul_right hmul (Nat.pow_pos (by decide))
  exact (Nat.le_mul_of_pos_right _ (Nat.pow_pos (by decide))).trans hgap

end Digits

namespace Decimal

open Digits

/-- The value of a decimal. -/
def toRat (d : Decimal) : ℚ := d.mantissa / 10 ^ d.places

theorem roundUp?_of_zero {c : Char} (hc : digit? c = some 0) (mantissa places : Nat) :
    roundUp? mantissa places c = some (mantissa, places) := by
  have hplain : ¬(c = '_' ∨ c = '.') := by
    rintro (rfl | rfl) <;> cases hc
  simp [roundUp?, hplain, hc]

/-- A fraction is read exactly if the whole number has the value of some mantissa and places. -/
theorem readFrom_fraction {n p m k : Nat} {s : List Char} (hs : ∀ c ∈ s, isDigit c = true)
    (hn : n < 1 <<< 96) (hp : p ≤ maxPlaces) (hm : m < 1 <<< 96) (hk : k ≤ maxPlaces)
    (hvalue : more n s * 10 ^ k = m * 10 ^ (p + s.length)) :
    ∃ n' p', readFrom n p true true s = some (n', p') ∧ n' < 1 <<< 96 ∧ p' ≤ maxPlaces ∧
      n' * 10 ^ (p + s.length) = more n s * 10 ^ p' := by
  induction s generalizing n p with
  | nil => exact ⟨n, p, rfl, hn, hp, rfl⟩
  | cons c s ih =>
    obtain ⟨digit, hdigit⟩ := Option.isSome_iff_exists.mp (hs c List.mem_cons_self)
    have hmore : more n (c :: s) = more (n * 10 + digit) s := by
      rw [more_cons, hdigit, Option.getD_some]
    have hzeros : k ≤ p → ∃ n' p', roundUp? n p c = some (n', p') ∧ n' < 1 <<< 96 ∧
        p' ≤ maxPlaces ∧ n' * 10 ^ (p + (c :: s).length) = more n (c :: s) * 10 ^ p' := by
      intro hkp
      have hnone := value_eq_zero_of_short hkp hvalue
      have hdigit0 : digit = 0 := by
        rw [value_cons, hdigit, Option.getD_some, Nat.add_eq_zero_iff, Nat.mul_eq_zero] at hnone
        exact hnone.1.resolve_right (Nat.pow_pos (by decide)).ne'
      refine ⟨n, p, roundUp?_of_zero (hdigit0 ▸ hdigit) n p, hn, hp, ?_⟩
      rw [more_eq, hnone]
      ring
    rw [readFrom]
    by_cases hfull : maxPlaces ≤ p
    · rw [if_pos ⟨rfl, hfull⟩]
      exact hzeros (hk.trans hfull)
    · rw [if_neg (by simp [hfull]), hdigit]
      simp only [if_true]
      by_cases hnext : n * 10 + digit < 1 <<< 96
      · have hlength : p + 1 + s.length = p + (c :: s).length := by
          rw [List.length_cons]
          omega
        rw [if_pos hnext, hmore, ← hlength]
        exact ih (fun c hc => hs c (List.mem_cons_of_mem _ hc)) hnext (by omega)
          (by rw [← hmore, hvalue, hlength])
      · rw [if_neg hnext]
        refine hzeros (Nat.le_of_lt_succ (Nat.lt_of_not_le fun hlong => ?_))
        have hle := le_of_long hlong (by rwa [hmore] at hvalue)
        omega

end Decimal

/-- A number as it is written: digits, a point with digits, and an exponent. -/
structure Literal where
  negative : Bool
  whole : List Char
  fraction : Option (List Char)
  exponent : Option Int

namespace Literal

open Digits

def digits (l : Literal) : List Char := l.whole ++ l.fraction.getD []

/-- The power of ten that the last digit counts. -/
def power (l : Literal) : Int := l.exponent.getD 0 - (l.fraction.getD []).length

/-- The exact value that is written. -/
def toRat (l : Literal) : ℚ :=
  (if l.negative then -1 else 1) * (value l.digits * 10 ^ l.power)

theorem abs_toRat (l : Literal) : |l.toRat| = value l.digits * 10 ^ l.power := by
  have hsign : |(if l.negative then -1 else 1 : ℚ)| = 1 := by split <;> simp
  have hpower : (0 : ℚ) < 10 ^ l.power := zpow_pos (by norm_num) _
  rw [toRat, abs_mul, hsign, one_mul, abs_mul, Nat.abs_cast, abs_of_pos hpower]

/-- Digits with at most one point among them and nothing else but a sign. -/
structure Plain (l : Literal) : Prop where
  whole_ne_nil : l.whole ≠ []
  isDigit : ∀ c ∈ l.digits, isDigit c = true
  exponent : l.exponent = none

/-- The text of a literal without an exponent. -/
def text (l : Literal) : List Char :=
  (if l.negative then ['-'] else []) ++ (l.whole ++ (l.fraction.map ('.' :: ·)).getD [])

end Literal

namespace Decimal

open Digits

variable {l : Literal}

theorem readFrom_plain (hl : l.Plain) {m k : Nat} (hm : m < 1 <<< 96) (hk : k ≤ maxPlaces)
    (hvalue : value l.digits * 10 ^ k = m * 10 ^ (l.fraction.getD []).length) :
    ∃ n p, readFrom 0 0 false false (l.whole ++ (l.fraction.map ('.' :: ·)).getD []) =
        some (n, p) ∧ n < 1 <<< 96 ∧ p ≤ maxPlaces ∧
      n * 10 ^ (l.fraction.getD []).length = value l.digits * 10 ^ p := by
  have hpos : ∀ power, 0 < 10 ^ power := fun _ => Nat.pow_pos (by decide)
  have hwhole : value l.whole ≤ m := by
    have hle : value l.whole * 10 ^ k * 10 ^ (l.fraction.getD []).length ≤
        m * 10 ^ (l.fraction.getD []).length := by
      calc value l.whole * 10 ^ k * 10 ^ (l.fraction.getD []).length
          = value l.whole * 10 ^ (l.fraction.getD []).length * 10 ^ k := by ring
        _ ≤ value l.digits * 10 ^ k := by
            rw [Literal.digits, value_append]
            exact Nat.mul_le_mul_right _ (Nat.le_add_right _ _)
        _ = m * 10 ^ (l.fraction.getD []).length := hvalue
    exact (Nat.le_mul_of_pos_right _ (hpos k)).trans
      (Nat.le_of_mul_le_mul_right hle (hpos _))
  have hseen : l.whole.isEmpty = false := List.isEmpty_eq_false_iff.mpr hl.whole_ne_nil
  have hfront : ∀ rest, readFrom 0 0 false false (l.whole ++ rest) =
      readFrom (value l.whole) 0 false true rest := by
    intro rest
    have hread := readFrom_digits 0 0 false false rest
      (fun c hc => hl.isDigit c (List.mem_append_left _ hc)) (Nat.lt_of_le_of_lt hwhole hm) rfl
    rw [hseen] at hread
    exact hread
  cases hfraction : l.fraction with
  | none =>
    refine ⟨value l.whole, 0, ?_, Nat.lt_of_le_of_lt hwhole hm, by decide, ?_⟩
    · exact hfront []
    · simp [Literal.digits, hfraction]
  | some fraction =>
    rw [hfraction] at hvalue
    have hpoint : readFrom (value l.whole) 0 false true ('.' :: fraction) =
        readFrom (value l.whole) 0 true true fraction := by
      simp [readFrom, digit?]
    have hdigits : value l.digits = more (value l.whole) fraction := by
      rw [Literal.digits, hfraction]
      exact more_append 0 l.whole fraction
    rw [hdigits] at hvalue ⊢
    obtain ⟨n, p, hread, hn, hp, hnp⟩ := readFrom_fraction
      (fun c hc => hl.isDigit c (List.mem_append_right _ (by rwa [hfraction])))
      (Nat.lt_of_le_of_lt hwhole hm) (Nat.zero_le maxPlaces) hm hk
      (by rwa [Nat.zero_add])
    rw [Nat.zero_add] at hnp
    refine ⟨n, p, ?_, hn, hp, hnp⟩
    exact (hfront _).trans (hpoint.trans hread)

theorem ofPlain?_text_of_plain (hl : l.Plain) :
    ofPlain? l.text = signed? l.negative
      (readFrom 0 0 false false (l.whole ++ (l.fraction.map ('.' :: ·)).getD [])) := by
  cases hnegative : l.negative with
  | true => rw [Literal.text, hnegative]; rfl
  | false =>
    obtain ⟨c, rest, hwhole⟩ := List.exists_cons_of_ne_nil hl.whole_ne_nil
    have hc : isDigit c = true := by
      refine hl.isDigit c (List.mem_append_left _ ?_)
      rw [hwhole]
      exact List.mem_cons_self
    rw [Literal.text, hnegative, hwhole]
    exact ofPlain?_of_digit hc _

/-- Plain digits whose value is that of some decimal are read as one with this value. -/
theorem ofText?_plain (hl : l.Plain) (hfit : ∃ d : Decimal, d.toRat = l.toRat) :
    ∃ d, ofText? l.text = some d ∧ d.toRat = l.toRat := by
  obtain ⟨d, hd⟩ := hfit
  have hten : ∀ power : Nat, (10 : ℚ) ^ power ≠ 0 := fun _ => pow_ne_zero _ (by norm_num)
  have hpower : (10 : ℚ) ^ l.power = (10 ^ (l.fraction.getD []).length)⁻¹ := by
    rw [Literal.power, hl.exponent, Option.getD_none, zero_sub, zpow_neg, zpow_natCast]
  have hvalue : value l.digits * 10 ^ d.places =
      d.mantissa.natAbs * 10 ^ (l.fraction.getD []).length := by
    have habs : |d.toRat| = |l.toRat| := by rw [hd]
    rw [Literal.abs_toRat, toRat, hpower, abs_div,
      abs_of_pos (by positivity : (0 : ℚ) < 10 ^ d.places), ← div_eq_mul_inv,
      div_eq_div_iff (hten _) (hten _), ← Int.cast_abs, Int.abs_eq_natAbs] at habs
    exact_mod_cast habs.symm
  obtain ⟨n, p, hread, hn, hp, hnp⟩ := readFrom_plain hl d.mantissa_lt d.places_le hvalue
  have hparts : ∀ mantissa : Int, mantissa.natAbs = n →
      ∃ d', ofParts? mantissa p = some d' ∧ d'.mantissa = mantissa ∧ d'.places = p := by
    rintro mantissa rfl
    rw [ofParts?, dif_pos ⟨hn, hp⟩]
    exact ⟨_, rfl, rfl, rfl⟩
  obtain ⟨d', hd', hmantissa, hplaces⟩ := hparts (if l.negative then -(n : Int) else n) (by
    split <;> simp)
  refine ⟨d', ?_, ?_⟩
  · rw [ofText?, ofPlain?_text_of_plain hl, hread]
    simp only [signed?, Option.bind_eq_bind, Option.bind_some, hd']
    rfl
  · have hquotient : (n : ℚ) / 10 ^ p = value l.digits * (10 ^ (l.fraction.getD []).length)⁻¹ := by
      rw [← div_eq_mul_inv, div_eq_div_iff (hten _) (hten _)]
      exact_mod_cast hnp
    rw [toRat, hmantissa, hplaces, Literal.toRat, hpower, ← hquotient]
    split <;> push_cast <;> ring

end Decimal

end MarketFeed.Number
