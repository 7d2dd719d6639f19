import Mathlib
import MarketFeed.Number.Double
import MarketFeed.Proofs.PlainDecimals

/-!
Rounding to doubles. The double nearest to a number has a significand of 53 bits, and the number
lies in the interval of those that round to it.
-/
namespace MarketFeed.Number

namespace Digits

theorem lt_pow_length_ofNat (n : Nat) : n < 10 ^ (ofNat n).length := by
  have hlt := value_lt (ofNat n)
  rwa [value_ofNat] at hlt

theorem zpow_eq_tens (power : Int) :
    (10 : ℚ) ^ power = tens power.toNat / tens (-power).toNat := by
  rw [tens_eq_pow, tens_eq_pow]
  push_cast
  rcases Int.eq_nat_or_neg power with ⟨n, rfl | rfl⟩
  · simp
  · simp

end Digits

namespace Double

/-- Whether a number lies in an interval. -/
def Interval.Contains (i : Interval) (q : ℚ) : Prop :=
  (-i.below < i.den * q - i.num ∧ i.den * q - i.num < i.above) ∨
    (i.closed = true ∧ -i.below ≤ i.den * q - i.num ∧ i.den * q - i.num ≤ i.above)

theorem exponentOf_spec {a d : Nat} (hd : 0 < d) (ha : d * 2 ^ 53 ≤ a) :
    d * 2 ^ (exponentOf a d + 52) ≤ a ∧ a < d * 2 ^ (exponentOf a d + 53) := by
  have hapos : 0 < a := (Nat.mul_pos hd (by decide)).trans_le ha
  have hlow := Nat.log2_self_le hapos.ne'
  have hhigh := Nat.lt_log2_self (n := a)
  have hdlow := Nat.log2_self_le hd.ne'
  have hdhigh := Nat.lt_log2_self (n := d)
  have hgap : d.log2 + 53 ≤ a.log2 := by
    have hpow : 2 ^ (d.log2 + 53) < 2 ^ (a.log2 + 1) := by
      calc 2 ^ (d.log2 + 53) = 2 ^ d.log2 * 2 ^ 53 := pow_add _ _ _
        _ ≤ d * 2 ^ 53 := Nat.mul_le_mul_right _ hdlow
        _ < 2 ^ (a.log2 + 1) := ha.trans_lt hhigh
    have hlt := (Nat.pow_lt_pow_iff_right (by decide)).mp hpow
    omega
  obtain ⟨g, hg⟩ := Nat.exists_eq_add_of_le hgap
  have hguess : a.log2 - (d.log2 + 52) = g + 1 := by omega
  rw [exponentOf, hguess, Nat.shiftLeft_eq]
  split
  · next hsmall =>
    refine ⟨?_, hsmall⟩
    calc d * 2 ^ (g + 52) ≤ 2 ^ (d.log2 + 1) * 2 ^ (g + 52) := Nat.mul_le_mul_right _ hdhigh.le
      _ = 2 ^ a.log2 := by rw [hg, ← pow_add]; congr 1; omega
      _ ≤ a := hlow
  · next hlarge =>
    refine ⟨Nat.le_of_not_lt hlarge, ?_⟩
    calc a < 2 ^ (a.log2 + 1) := hhigh
      _ = 2 ^ d.log2 * 2 ^ (g + 1 + 53) := by rw [hg, ← pow_add]; congr 1; omega
      _ ≤ d * 2 ^ (g + 1 + 53) := Nat.mul_le_mul_right _ hdlow

/-- A rounded quotient is off by at most a half, and by exactly a half only if it is even. -/
theorem roundHalfEven_spec (a : Nat) {d : Nat} (hd : 0 < d) :
    ((roundHalfEven a d : ℚ) - 1 / 2 ≤ a / d ∧ (a : ℚ) / d ≤ roundHalfEven a d + 1 / 2) ∧
      (roundHalfEven a d % 2 = 1 →
        (roundHalfEven a d : ℚ) - 1 / 2 < a / d ∧ (a : ℚ) / d < roundHalfEven a d + 1 / 2) := by
  have hdpos : (0 : ℚ) < d := Nat.cast_pos.mpr hd
  have hdiv : d * (a / d) + a % d = a := Nat.div_add_mod a d
  have hmod : a % d < d := Nat.mod_lt a hd
  have hcomm : a / d * d = d * (a / d) := Nat.mul_comm _ _
  have hsucc : (a / d + 1) * d = d * (a / d) + d := by ring
  have hnat : 2 * (roundHalfEven a d * d) ≤ 2 * a + d ∧ 2 * a ≤ 2 * (roundHalfEven a d * d) + d ∧
      (roundHalfEven a d % 2 = 1 →
        2 * (roundHalfEven a d * d) < 2 * a + d ∧ 2 * a < 2 * (roundHalfEven a d * d) + d) := by
    unfold roundHalfEven
    dsimp only
    split
    · omega
    · split
      · omega
      · rcases Nat.mod_two_eq_zero_or_one (a / d) with heven | hodd
        · rw [heven, Nat.add_zero]
          omega
        · rw [hodd]
          omega
  generalize roundHalfEven a d = n at hnat ⊢
  obtain ⟨hlow, hhigh, hodd⟩ := hnat
  simp only [le_div_iff₀ hdpos, div_le_iff₀ hdpos, lt_div_iff₀ hdpos, div_lt_iff₀ hdpos]
  refine ⟨⟨?_, ?_⟩, fun h => ⟨?_, ?_⟩⟩
  · have hlow : (2 * (n * d) : ℚ) ≤ 2 * a + d := by exact_mod_cast hlow
    linarith
  · have hhigh : (2 * a : ℚ) ≤ 2 * (n * d) + d := by exact_mod_cast hhigh
    linarith
  · have hlow : (2 * (n * d) : ℚ) < 2 * a + d := by exact_mod_cast (hodd h).1
    linarith
  · have hhigh : (2 * a : ℚ) < 2 * (n * d) + d := by exact_mod_cast (hodd h).2
    linarith

/-- A significand that fills its 53 bits. -/
def Normal (x : Double) : Prop := 2 ^ 52 ≤ x.significand ∧ x.significand < 2 ^ 53

/-- How far a number of steps is from the value of a double, in quarters of a step. -/
theorem gap_interval (x : Double) (steps : ℚ) :
    x.interval.den * (steps / 2 ^ 1074) - x.interval.num =
      4 * steps - 4 * x.significand * 2 ^ x.exponent := by
  have hpos : (2 : ℚ) ^ 1074 ≠ 0 := pow_ne_zero _ (by norm_num)
  have hcast : ((2 ^ 1074 : Nat) : ℚ) = 2 ^ 1074 := Nat.cast_pow 2 1074
  simp only [interval, Nat.shiftLeft_eq, one_mul, Nat.cast_mul, hcast]
  generalize (2 : ℚ) ^ 1074 = unit at *
  push_cast
  field_simp

theorem below_interval (x : Double) :
    x.interval.below = if x.significand = 2 ^ 52 ∧ 0 < x.exponent then 2 ^ x.exponent
      else 2 * 2 ^ x.exponent := by
  simp only [interval, Nat.shiftLeft_eq, one_mul]

theorem above_interval (x : Double) : x.interval.above = 2 * 2 ^ x.exponent := by
  simp only [interval, Nat.shiftLeft_eq, one_mul]

/-- A ratio of steps lies in the interval of the double that it is rounded to. -/
theorem ofRatio?_spec {negative : Bool} {a d : Nat} {x : Double} (hd : 0 < d)
    (ha : d * 2 ^ 53 ≤ a) (h : ofRatio? negative a d = some x) :
    x.negative = negative ∧ x.Normal ∧ x.interval.Contains (a / d / 2 ^ 1074) := by
  obtain ⟨hlow, hhigh⟩ := exponentOf_spec hd ha
  have hunit : 0 < d * 2 ^ exponentOf a d := Nat.mul_pos hd (Nat.two_pow_pos _)
  obtain ⟨⟨hbelow, habove⟩, hodd⟩ := roundHalfEven_spec a hunit
  simp only [ofRatio?, Nat.shiftLeft_eq, one_mul] at h
  generalize exponentOf a d = e at *
  generalize roundHalfEven a (d * 2 ^ e) = n at *
  have hdpos : (0 : ℚ) < d := by exact_mod_cast hd
  have hepos : (0 : ℚ) < 2 ^ e := by positivity
  have hratio : (a : ℚ) / d = a / ↑(d * 2 ^ e) * 2 ^ e := by
    push_cast
    field_simp
  have hleast : (2 : ℚ) ^ 52 ≤ a / ↑(d * 2 ^ e) := by
    rw [le_div_iff₀ (by exact_mod_cast hunit)]
    rw [pow_add] at hlow
    exact_mod_cast (by linarith : 2 ^ 52 * (d * 2 ^ e) ≤ a)
  have hmost : (a : ℚ) / ↑(d * 2 ^ e) < 2 ^ 53 := by
    rw [div_lt_iff₀ (by exact_mod_cast hunit)]
    rw [pow_add] at hhigh
    exact_mod_cast (by linarith : a < 2 ^ 53 * (d * 2 ^ e))
  rw [hratio]
  generalize (a : ℚ) / ↑(d * 2 ^ e) = q at *
  have hnlow : 2 ^ 52 ≤ n := by
    by_contra hn
    have hn : (n : ℚ) + 1 ≤ 2 ^ 52 := by exact_mod_cast (by omega : n + 1 ≤ 2 ^ 52)
    linarith
  have hnhigh : n ≤ 2 ^ 53 := by
    by_contra hn
    have hn : (2 : ℚ) ^ 53 + 1 ≤ n := by exact_mod_cast (by omega : 2 ^ 53 + 1 ≤ n)
    linarith
  -- The gap between the ratio and the rounded one, in quarters of a step.
  have hgapLow := mul_le_mul_of_nonneg_right hbelow hepos.le
  have hgapHigh := mul_le_mul_of_nonneg_right habove hepos.le
  by_cases hcarry : n = 2 ^ 53
  · simp only [hcarry, if_true] at h
    rw [Option.ite_none_right_eq_some, Option.some.injEq] at h
    obtain ⟨-, rfl⟩ := h
    refine ⟨rfl, ⟨le_refl _, by norm_num⟩, Or.inr ⟨by norm_num [interval], ?_, ?_⟩⟩
    · rw [gap_interval, below_interval, if_pos ⟨rfl, Nat.succ_pos e⟩]
      subst hcarry
      push_cast at hgapLow ⊢
      rw [pow_succ]
      linarith
    · rw [gap_interval, above_interval]
      have hover := mul_lt_mul_of_pos_right hmost hepos
      push_cast
      rw [pow_succ]
      linarith
  · simp only [hcarry, if_false] at h
    rw [Option.ite_none_right_eq_some, Option.some.injEq] at h
    obtain ⟨-, rfl⟩ := h
    refine ⟨rfl, ⟨hnlow, by dsimp only; omega⟩, ?_⟩
    simp only [Interval.Contains, gap_interval, below_interval, above_interval]
    split
    · next hlowest =>
      -- Nothing that is rounded to the least significand is below it.
      obtain ⟨rfl, -⟩ := hlowest
      have hover := mul_le_mul_of_nonneg_right hleast hepos.le
      refine Or.inr ⟨by norm_num [interval], ?_, ?_⟩
      · push_cast
        linarith
      · push_cast at hgapHigh ⊢
        linarith
    · rcases Nat.mod_two_eq_zero_or_one n with heven | hn
      · refine Or.inr ⟨?_, ?_, ?_⟩
        · simp [interval, heven]
        · push_cast
          linarith
        · push_cast
          linarith
      · obtain ⟨hlow, hhigh⟩ := hodd hn
        have hgapLow := mul_lt_mul_of_pos_right hlow hepos
        have hgapHigh := mul_lt_mul_of_pos_right hhigh hepos
        refine Or.inl ⟨?_, ?_⟩
        · push_cast
          linarith
        · push_cast
          linarith

/-- A number that is neither zero nor tiny lies in the interval of the double nearest to it. -/
theorem nearest?_spec {negative : Bool} {digits : Nat} {power : Int} {x : Double}
    (hlow : (10 : ℚ) ^ (-28 : Int) ≤ digits * 10 ^ power)
    (h : nearest? negative digits power = some x) :
    x.negative = negative ∧ x.Normal ∧ x.interval.Contains (digits * 10 ^ power) := by
  have hten : (0 : ℚ) < 10 := by norm_num
  have hzero : digits ≠ 0 := by
    rintro rfl
    rw [Nat.cast_zero, zero_mul] at hlow
    exact absurd hlow (not_le.mpr (zpow_pos hten _))
  have hmagnitude : -28 < power + (Digits.ofNat digits).length := by
    have hdigits : (digits : ℚ) < 10 ^ ((Digits.ofNat digits).length : Int) := by
      rw [zpow_natCast]
      exact_mod_cast Digits.lt_pow_length_ofNat digits
    have hless : (10 : ℚ) ^ (-28 : Int) < 10 ^ (power + (Digits.ofNat digits).length) := by
      rw [zpow_add₀ hten.ne', mul_comm ((10 : ℚ) ^ power)]
      exact hlow.trans_lt (mul_lt_mul_of_pos_right hdigits (zpow_pos hten _))
    exact (zpow_lt_zpow_iff_right₀ (by norm_num)).mp hless
  rw [nearest?] at h
  simp only [hzero, false_or] at h
  rw [if_neg (by omega)] at h
  split at h
  · cases h
  · obtain ⟨bits, hbits⟩ : ∃ bits, 1074 = bits := ⟨_, rfl⟩
    have hunit : (0 : ℚ) < 2 ^ bits := pow_pos two_pos bits
    have hpos : 0 < Digits.tens (-power).toNat := Digits.tens_pos _
    rw [Nat.shiftLeft_eq, hbits] at h
    have hratio : ((digits * Digits.tens power.toNat * 2 ^ bits : Nat) : ℚ) /
        Digits.tens (-power).toNat = digits * 10 ^ power * 2 ^ bits := by
      rw [Digits.zpow_eq_tens]
      push_cast
      ring
    have hsteps : Digits.tens (-power).toNat * 2 ^ 53 ≤
        digits * Digits.tens power.toNat * 2 ^ bits := by
      have hlarge : (2 : ℚ) ^ 53 ≤ digits * 10 ^ power * 2 ^ bits := by
        calc (2 : ℚ) ^ 53 ≤ (10 : ℚ) ^ (-28 : Int) * 2 ^ 147 := by norm_num
          _ ≤ (10 : ℚ) ^ (-28 : Int) * 2 ^ bits :=
            mul_le_mul_of_nonneg_left (pow_le_pow_right₀ one_le_two (by omega))
              (zpow_pos hten _).le
          _ ≤ digits * 10 ^ power * 2 ^ bits := mul_le_mul_of_nonneg_right hlow hunit.le
      rw [← hratio, le_div_iff₀ (by exact_mod_cast hpos), mul_comm] at hlarge
      exact_mod_cast hlarge
    obtain ⟨hsign, hnormal, hcontains⟩ := ofRatio?_spec hpos hsteps h
    rw [hratio, hbits, mul_div_cancel_right₀ _ hunit.ne'] at hcontains
    exact ⟨hsign, hnormal, hcontains⟩

end Double

end MarketFeed.Number
