import Mathlib
import MarketFeed.Proofs.NearestDouble

/-!
The shortest decimal of a double. The search goes through finer and finer grids of decimals and ends
at the first that has a point in the interval of the double. The interval of a double is too narrow
for two decimals of fifteen digits, so if the double was read from one, it is found again.
-/
namespace MarketFeed.Number

namespace Digits

theorem pow_length_ofNat_le {n : Nat} (hn : 0 < n) : 10 ^ ((ofNat n).length - 1) ≤ n := by
  induction n using ofNat.induct with
  | case1 n hsmall =>
    rw [ofNat, if_pos hsmall]
    exact hn
  | case2 n hlarge ih =>
    have hfront := ih (by omega)
    have hlength : (ofNat (n / 10)).length ≠ 0 := by
      rw [ne_eq, List.length_eq_zero_iff]
      exact ofNat_ne_nil (n / 10)
    obtain ⟨more, hmore⟩ := Nat.exists_eq_succ_of_ne_zero hlength
    rw [ofNat, if_neg hlarge, List.length_append, List.length_singleton, hmore]
    rw [hmore] at hfront
    calc 10 ^ (more.succ + 1 - 1) = 10 ^ (more.succ - 1) * 10 := by
          rw [← pow_succ]
          rfl
      _ ≤ n / 10 * 10 := Nat.mul_le_mul_right _ hfront
      _ ≤ n := Nat.div_mul_le_self n 10

end Digits

namespace Double

namespace Interval

/-- An interval around its value, with points on either side of it. -/
structure Proper (i : Interval) : Prop where
  den_pos : 0 < i.den
  below_pos : 0 < i.below
  above_pos : 0 < i.above

variable {i : Interval}

theorem Proper.scaled (hi : i.Proper) (power : Int) : (i.scaled power).Proper where
  den_pos := Nat.mul_pos hi.den_pos (Digits.tens_pos _)
  below_pos := Nat.mul_pos hi.below_pos (Digits.tens_pos _)
  above_pos := Nat.mul_pos hi.above_pos (Digits.tens_pos _)

/-- The interval counted in steps holds the numbers of steps that lie in it. -/
theorem contains_scaled_iff (power : Int) (q : ℚ) :
    (i.scaled power).Contains q ↔ i.Contains (q * 10 ^ power) := by
  have hup : (0 : ℚ) < Digits.tens (-power).toNat := Nat.cast_pos.mpr (Digits.tens_pos _)
  have hgap : ((i.scaled power).den : ℚ) * q - (i.scaled power).num =
      (i.den * (q * 10 ^ power) - i.num) * Digits.tens (-power).toNat := by
    rw [Digits.zpow_eq_tens, Interval.scaled]
    push_cast
    field_simp
  have hbelow : (-(i.scaled power).below : ℚ) = -i.below * Digits.tens (-power).toNat := by
    rw [Interval.scaled]
    push_cast
    ring
  have habove : ((i.scaled power).above : ℚ) = i.above * Digits.tens (-power).toNat := by
    rw [Interval.scaled]
    push_cast
    ring
  rw [Contains, Contains, hgap, hbelow, habove]
  simp only [mul_lt_mul_iff_left₀ hup, mul_le_mul_iff_left₀ hup]
  rfl

theorem holds_iff (hi : i.Proper) (n : Nat) : i.holds n = true ↔ i.Contains n := by
  have hbelow := hi.below_pos
  have habove := hi.above_pos
  have hcomm : n * i.den = i.den * n := Nat.mul_comm _ _
  have hlow : (-(i.below : ℚ) < i.den * n - i.num ↔ i.num < i.below + i.den * n) ∧
      (-(i.below : ℚ) ≤ i.den * n - i.num ↔ i.num ≤ i.below + i.den * n) := by
    rw [neg_lt_sub_iff_lt_add, neg_le_sub_iff_le_add']
    norm_cast
  have hhigh : ((i.den * n - i.num : ℚ) < i.above ↔ i.den * n < i.num + i.above) ∧
      ((i.den * n - i.num : ℚ) ≤ i.above ↔ i.den * n ≤ i.num + i.above) := by
    rw [sub_lt_iff_lt_add', sub_le_iff_le_add']
    norm_cast
  rw [Contains, hlow.1, hlow.2, hhigh.1, hhigh.2, holds]
  by_cases hle : n * i.den ≤ i.num
  · simp only [hle, if_true]
    cases i.closed <;> simp <;> omega
  · simp only [hle, if_false]
    cases i.closed <;> simp <;> omega

/-- A point of the interval below its value is no closer to it than the last one below. -/
theorem holds_low {n : Nat} (hn : i.holds n = true) (hle : n ≤ i.num / i.den) (hi : i.Proper) :
    i.holds (i.num / i.den) = true := by
  have hbelow := hi.below_pos
  have hmul : n * i.den ≤ i.num / i.den * i.den := Nat.mul_le_mul_right _ hle
  have hdiv : i.num / i.den * i.den ≤ i.num := Nat.div_mul_le_self _ _
  rw [holds] at hn ⊢
  simp only [hmul.trans hdiv, hdiv, if_true] at hn ⊢
  cases hclosed : i.closed <;> simp only [hclosed] at hn ⊢ <;> simp at hn ⊢ <;> omega

theorem holds_high {n : Nat} (hn : i.holds n = true) (hlt : i.num / i.den < n) (hi : i.Proper) :
    i.holds (i.num / i.den + 1) = true := by
  have hmul : (i.num / i.den + 1) * i.den ≤ n * i.den := Nat.mul_le_mul_right _ hlt
  have hdiv : i.num < (i.num / i.den + 1) * i.den :=
    (Nat.div_lt_iff_lt_mul hi.den_pos).mp (Nat.lt_succ_self _)
  rw [holds] at hn ⊢
  simp only [not_le.mpr (hdiv.trans_le hmul), not_le.mpr hdiv, if_false] at hn ⊢
  cases hclosed : i.closed <;> simp only [hclosed] at hn ⊢ <;> simp at hn ⊢ <;> omega

/-- A whole number is found if there is one in the interval. -/
theorem whole?_spec (hi : i.Proper) (tie : Tie) :
    (∀ n, i.whole? tie = some n → i.holds n = true) ∧
      (i.whole? tie = none → ∀ n, i.holds n = false) := by
  unfold whole?
  dsimp only
  split
  · next hlow hhigh =>
    refine ⟨fun n h => absurd h (by simp), fun _ n => ?_⟩
    rw [← Bool.not_eq_true]
    intro hn
    rcases Nat.lt_or_ge (i.num / i.den) n with hlt | hge
    · rw [holds_high hn hlt hi] at hhigh
      cases hhigh
    · rw [holds_low hn hge hi] at hlow
      cases hlow
  · next hlow hhigh =>
    refine ⟨fun n h => ?_, fun h => absurd h (by simp)⟩
    cases h
    exact hlow
  · next hlow hhigh =>
    refine ⟨fun n h => ?_, fun h => absurd h (by simp)⟩
    cases h
    exact hhigh
  · next hlow hhigh =>
    constructor
    · intro n h
      split at h
      · cases h
        exact hlow
      · split at h
        · cases h
          exact hhigh
        · cases h
          split
          · exact hlow
          · exact hhigh
    · intro h
      split at h
      · cases h
      · split at h <;> cases h

end Interval

/-- The search ends at a point of the interval, on a grid at least as coarse as any that has one. -/
theorem search_spec {i : Interval} (hi : i.Proper) (tie : Tie) (lead : Int) (left : Nat)
    {count : Int} {finer n : Nat} (hfiner : finer < left)
    (hn : i.Contains (n * 10 ^ (lead - count - finer))) :
    i.Contains ((search i tie lead left count).1 * 10 ^ (search i tie lead left count).2) ∧
      lead - count - finer ≤ (search i tie lead left count).2 := by
  induction left generalizing count finer with
  | zero => omega
  | succ left ih =>
    obtain ⟨hfound, hnone⟩ := (i.scaled (lead - count)).whole?_spec (hi.scaled _) tie
    have hpoint : ∀ m : Nat, (i.scaled (lead - count)).holds m = true ↔
        i.Contains (m * 10 ^ (lead - count)) := fun m =>
      (Interval.holds_iff (hi.scaled _) m).trans (Interval.contains_scaled_iff _ _)
    rw [search]
    split
    · next digits hdigits =>
      refine ⟨(hpoint digits).mp (hfound digits hdigits), ?_⟩
      dsimp only
      omega
    · next hwhole =>
      cases finer with
      | zero =>
        rw [Nat.cast_zero, sub_zero] at hn
        have habsurd := hnone hwhole n
        rw [(hpoint n).mpr hn] at habsurd
        cases habsurd
      | succ finer =>
        have hsame : lead - count - (finer + 1 : Nat) = lead - (count + 1) - finer := by
          push_cast
          ring
        rw [hsame] at hn ⊢
        exact ih (by omega) hn

theorem stripZeros_spec (fuel digits : Nat) (power : Int) :
    ((stripZeros fuel digits power).1 : ℚ) * 10 ^ (stripZeros fuel digits power).2 =
      digits * 10 ^ power := by
  induction fuel generalizing digits power with
  | zero => rfl
  | succ fuel ih =>
    rw [stripZeros]
    split
    · next hzero =>
      have hten : digits = digits / 10 * 10 := by omega
      have hcast : (digits : ℚ) = (digits / 10 : Nat) * 10 := by exact_mod_cast hten
      rw [ih, zpow_add_one₀ (by norm_num), hcast]
      ring
    · rfl

/-- The first digit of a positive number is at its leading power. -/
theorem leadingPower_spec {num den : Nat} (hnum : 0 < num) (hden : 0 < den) :
    (10 : ℚ) ^ leadingPower num den ≤ num / den ∧
      (num : ℚ) / den < 10 ^ (leadingPower num den + 1) := by
  have hdenpos : (0 : ℚ) < den := Nat.cast_pos.mpr hden
  have hnumpos : (0 : ℚ) < num := Nat.cast_pos.mpr hnum
  unfold leadingPower
  split
  · next hle =>
    have hquotient : 0 < num / den := Nat.div_pos hle hden
    have hlength : 0 < (Digits.ofNat (num / den)).length :=
      List.length_pos_iff.mpr (Digits.ofNat_ne_nil _)
    have hpower : ((Digits.ofNat (num / den)).length : Int) - 1 =
        ((Digits.ofNat (num / den)).length - 1 : Nat) := by omega
    rw [sub_add_cancel, hpower, zpow_natCast, zpow_natCast, le_div_iff₀ hdenpos,
      div_lt_iff₀ hdenpos]
    constructor
    · have hfirst := Digits.pow_length_ofNat_le hquotient
      exact_mod_cast (Nat.mul_le_mul_right den hfirst).trans (Nat.div_mul_le_self num den)
    · have hafter : num / den + 1 ≤ 10 ^ (Digits.ofNat (num / den)).length :=
        Digits.lt_pow_length_ofNat _
      have hnext : num < (num / den + 1) * den :=
        (Nat.div_lt_iff_lt_mul hden).mp (Nat.lt_succ_self _)
      exact_mod_cast hnext.trans_le (Nat.mul_le_mul_right den hafter)
  · next hlt =>
    have hquotient : 0 < (den - 1) / num := Nat.div_pos (by omega) hnum
    have hlength : 0 < (Digits.ofNat ((den - 1) / num)).length :=
      List.length_pos_iff.mpr (Digits.ofNat_ne_nil _)
    have hpower : -((Digits.ofNat ((den - 1) / num)).length : Int) + 1 =
        -((Digits.ofNat ((den - 1) / num)).length - 1 : Nat) := by omega
    have hten : ∀ n : Nat, (0 : ℚ) < 10 ^ n := fun n => pow_pos (by norm_num) n
    rw [hpower, zpow_neg, zpow_neg, zpow_natCast, zpow_natCast, inv_eq_one_div, inv_eq_one_div,
      div_le_div_iff₀ (hten _) hdenpos, div_lt_div_iff₀ hdenpos (hten _), one_mul]
    constructor
    · have hafter : (den - 1) / num + 1 ≤ 10 ^ (Digits.ofNat ((den - 1) / num)).length :=
        Digits.lt_pow_length_ofNat _
      have hnext : den - 1 < ((den - 1) / num + 1) * num :=
        (Nat.div_lt_iff_lt_mul hnum).mp (Nat.lt_succ_self _)
      have hmul := Nat.mul_le_mul_right num hafter
      rw [mul_comm (num : ℚ)]
      exact_mod_cast (by omega : den ≤ 10 ^ (Digits.ofNat ((den - 1) / num)).length * num)
    · have hfirst := Nat.mul_le_mul_left num (Digits.pow_length_ofNat_le hquotient)
      have hdiv : num * ((den - 1) / num) ≤ den - 1 := Nat.mul_div_le _ _
      exact_mod_cast (by omega : num * 10 ^ ((Digits.ofNat ((den - 1) / num)).length - 1) < den)

theorem interval_proper (x : Double) : x.interval.Proper where
  den_pos := by
    have hshift : ∀ bits, 0 < 4 <<< bits := by
      intro bits
      rw [Nat.shiftLeft_eq]
      positivity
    exact hshift 1074
  below_pos := by
    rw [below_interval]
    split <;> positivity
  above_pos := by
    rw [above_interval]
    positivity

theorem contains_value (x : Double) :
    x.interval.Contains ((x.interval.num : ℚ) / x.interval.den) := by
  have hproper := x.interval_proper
  have hden : (x.interval.den : ℚ) ≠ 0 := Nat.cast_ne_zero.mpr hproper.den_pos.ne'
  have hbelow : (0 : ℚ) < x.interval.below := Nat.cast_pos.mpr hproper.below_pos
  have habove : (0 : ℚ) < x.interval.above := Nat.cast_pos.mpr hproper.above_pos
  refine Or.inl ?_
  rw [mul_div_cancel₀ _ hden, sub_self]
  exact ⟨neg_lt_zero.mpr hbelow, habove⟩

/-- A multiple of a power of ten is one of every smaller power. -/
theorem exists_multiple (n : Nat) {low high : Int} (h : low ≤ high) :
    ∃ m : Nat, (m : ℚ) * 10 ^ low = n * 10 ^ high := by
  obtain ⟨zeros, hzeros⟩ := Int.eq_ofNat_of_zero_le (sub_nonneg.mpr h)
  refine ⟨n * 10 ^ zeros, ?_⟩
  rw [Nat.cast_mul, Nat.cast_pow, Nat.cast_ofNat, ← zpow_natCast, ← hzeros, mul_assoc,
    ← zpow_add₀ (by norm_num), sub_add_cancel]

namespace Normal

variable {x : Double}

theorem significand_pos (hx : x.Normal) : 0 < x.significand :=
  (Nat.two_pow_pos 52).trans_le hx.1

/-- The interval is narrow: no two of its points are further apart than one of them divided by as
many as a significand can be. -/
theorem close (hx : x.Normal) {p q : ℚ} (hp : x.interval.Contains p)
    (hq : x.interval.Contains q) : |p - q| * (2 ^ 52 - 1) ≤ q := by
  have hden : (0 : ℚ) < x.interval.den := Nat.cast_pos.mpr x.interval_proper.den_pos
  have hstep : (0 : ℚ) < 2 ^ x.exponent := by positivity
  have hsignificand : (2 : ℚ) ^ 52 ≤ x.significand := by exact_mod_cast hx.1
  have hnum : (x.interval.num : ℚ) = 4 * x.significand * 2 ^ x.exponent := by
    rw [interval, Nat.one_shiftLeft]
    push_cast
    rfl
  have hbelow : (x.interval.below : ℚ) ≤ 2 * 2 ^ x.exponent := by
    rw [below_interval]
    split <;> push_cast <;> linarith
  have habove : (x.interval.above : ℚ) = 2 * 2 ^ x.exponent := by
    rw [above_interval]
    push_cast
    rfl
  have hbounds : ∀ r : ℚ, x.interval.Contains r →
      -(2 * 2 ^ x.exponent : ℚ) ≤ x.interval.den * r - x.interval.num ∧
        x.interval.den * r - x.interval.num ≤ 2 * 2 ^ x.exponent := by
    rintro r (⟨hlow, hhigh⟩ | ⟨-, hlow, hhigh⟩)
    · constructor <;> linarith
    · constructor <;> linarith
  obtain ⟨hplow, hphigh⟩ := hbounds p hp
  obtain ⟨hqlow, hqhigh⟩ := hbounds q hq
  have hgap : x.interval.den * |p - q| ≤ 4 * 2 ^ x.exponent := by
    have habs : x.interval.den * |p - q| = |x.interval.den * (p - q)| := by
      rw [abs_mul, abs_of_pos hden]
    rw [habs, abs_le, mul_sub]
    constructor <;> linarith
  have hlarge : (2 ^ 52 - 1) * (4 * 2 ^ x.exponent : ℚ) ≤ x.interval.den * q := by
    have hmul := mul_le_mul_of_nonneg_right hsignificand hstep.le
    rw [hnum] at hqlow
    linarith
  refine le_of_mul_le_mul_left ?_ hden
  calc (x.interval.den : ℚ) * (|p - q| * (2 ^ 52 - 1))
      = (2 ^ 52 - 1) * (x.interval.den * |p - q|) := by ring
    _ ≤ (2 ^ 52 - 1) * (4 * 2 ^ x.exponent) :=
        mul_le_mul_of_nonneg_left hgap (by norm_num)
    _ ≤ x.interval.den * q := hlarge

/-- A grid that is not too fine has no two points in the interval. -/
theorem eq_of_multiples (hx : x.Normal) {n m : Nat} {power : Int}
    (hn : x.interval.Contains (n * 10 ^ power)) (hm : x.interval.Contains (m * 10 ^ power))
    (hfine : (m : ℚ) < 2 ^ 52 - 1) : n = m := by
  have hunit : (0 : ℚ) < 10 ^ power := zpow_pos (by norm_num) power
  have hwidth := hx.close hn hm
  rw [← sub_mul, abs_mul, abs_of_pos hunit, mul_right_comm] at hwidth
  have hone : |(n : ℚ) - m| < 1 := by
    have hgap := le_of_mul_le_mul_right hwidth hunit
    linarith
  have hint : |(n : Int) - m| < 1 := by exact_mod_cast hone
  have hzero := Int.abs_lt_one_iff.mp hint
  omega

/-- A decimal of at most fifteen digits is the shortest one of a double in whose interval it lies. -/
theorem shortest_eq (hx : x.Normal) (tie : Tie) {c : Nat} {e : Int} (hc : c < 10 ^ 15)
    (hcontains : x.interval.Contains (c * 10 ^ e)) :
    ((x.shortest tie).1 : ℚ) * 10 ^ (x.shortest tie).2 = c * 10 ^ e := by
  have hten : ∀ power : Int, (0 : ℚ) < 10 ^ power := fun power => zpow_pos (by norm_num) power
  have hproper := x.interval_proper
  have hnum : 0 < x.interval.num := by
    rw [interval, Nat.one_shiftLeft]
    have hpos := hx.significand_pos
    positivity
  obtain ⟨hlead, hnext⟩ := leadingPower_spec hnum hproper.den_pos
  have hzero : x.isZero = false := by
    rw [isZero, beq_eq_false_iff_ne]
    exact hx.significand_pos.ne'
  have hnear := hx.close x.contains_value hcontains
  have hnear' := hx.close hcontains x.contains_value
  rw [shortest, hzero, if_neg Bool.false_ne_true]
  dsimp only
  rw [stripZeros_spec]
  generalize leadingPower x.interval.num x.interval.den = lead at *
  generalize (x.interval.num : ℚ) / x.interval.den = value at *
  have hless := le_abs_self (value - c * 10 ^ e)
  have hless' := le_abs_self (c * 10 ^ e - value)
  have hdecimal : (c : ℚ) * 10 ^ e < 10 ^ 15 * 10 ^ e :=
    mul_lt_mul_of_pos_right (by exact_mod_cast hc) (hten e)
  -- The grid of the decimal, or that of the leading digit if it is finer.
  have hclose : lead < e + 16 := by
    refine (zpow_lt_zpow_iff_right₀ (by norm_num : (1 : ℚ) < 10)).mp ?_
    rw [zpow_add₀ (by norm_num)]
    norm_num at hdecimal ⊢
    linarith
  obtain ⟨m, hm⟩ := exists_multiple c (min_le_left e lead)
  have hfine : (m : ℚ) < 2 ^ 52 - 1 := by
    refine lt_of_mul_lt_mul_right ?_ (hten (min e lead)).le
    rw [hm]
    rcases min_choice e lead with hmin | hmin
    · rw [hmin]
      norm_num at hdecimal ⊢
      linarith [hten e]
    · rw [hmin]
      rw [zpow_add₀ (by norm_num)] at hnext
      norm_num at hnext hnear' ⊢
      linarith [hten lead]
  obtain ⟨finer, hfiner⟩ : ∃ finer : Nat, (finer : Int) = lead - min e lead :=
    ⟨(lead - min e lead).toNat, by omega⟩
  have hgrid : lead - 0 - finer = min e lead := by omega
  rw [← hm] at hcontains ⊢
  rw [← hgrid] at hcontains
  obtain ⟨hfound, hle⟩ := search_spec hproper tie lead 17 (by omega) hcontains
  rw [hgrid] at hle hcontains
  obtain ⟨n, hn⟩ := exists_multiple (search x.interval tie lead 17 0).1 hle
  rw [← hn] at hfound ⊢
  rw [hx.eq_of_multiples hfound hcontains hfine]

end Normal

/-- Digits around a point keep their value. -/
theorem positional_spec {digits : List Char} (hne : digits ≠ [])
    (hdigits : ∀ c ∈ digits, Digits.isDigit c = true) (whole : Int) :
    (positional digits whole).1 ≠ [] ∧
      (∀ c ∈ (positional digits whole).1 ++ (positional digits whole).2,
        Digits.isDigit c = true) ∧
      (Digits.value ((positional digits whole).1 ++ (positional digits whole).2) : ℚ) *
          10 ^ (-(positional digits whole).2.length : Int) =
        Digits.value digits * 10 ^ (whole - digits.length) := by
  have hzeros : ∀ count, Digits.value (List.replicate count '0') = 0 := Digits.more_zeros
  have hzero : ∀ count, ∀ c ∈ List.replicate count '0', Digits.isDigit c = true := by
    intro count c hc
    rw [List.eq_of_mem_replicate hc]
    rfl
  unfold positional
  split
  · next hneg =>
    refine ⟨List.cons_ne_nil _ _, ?_, ?_⟩
    · intro c hc
      rcases List.mem_append.mp hc with hc | hc
      · rw [List.mem_singleton.mp hc]
        rfl
      · rcases List.mem_append.mp hc with hc | hc
        · exact hzero _ c hc
        · exact hdigits c hc
    · have hfront : Digits.value ['0'] = 0 := rfl
      have hpower : -((List.replicate (-whole).toNat '0' ++ digits).length : Int) =
          whole - digits.length := by
        rw [List.length_append, List.length_replicate]
        omega
      dsimp only
      rw [Digits.value_append, Digits.value_append, hfront, hzeros, hpower]
      simp
  · next hpos =>
    dsimp only
    refine ⟨?_, ?_, ?_⟩
    · rw [ne_eq, List.append_eq_nil_iff, List.take_eq_nil_iff]
      rintro ⟨h | h, -⟩
      · omega
      · exact hne h
    · intro c hc
      rcases List.mem_append.mp hc with hc | hc
      · rcases List.mem_append.mp hc with hc | hc
        · exact hdigits c (List.mem_of_mem_take hc)
        · exact hzero _ c hc
      · exact hdigits c (List.mem_of_mem_drop hc)
    · rcases Nat.lt_or_ge digits.length whole.toNat with hlong | hshort
      · have hpower : whole - digits.length = (whole.toNat - digits.length : Nat) := by omega
        rw [List.take_of_length_le hlong.le, List.drop_of_length_le hlong.le, List.append_nil,
          Digits.value_append, hzeros, hpower, List.length_replicate, zpow_natCast]
        simp
      · have hnone : whole.toNat - digits.length = 0 := by omega
        have hpower : -((digits.drop whole.toNat).length : Int) = whole - digits.length := by
          rw [List.length_drop]
          omega
        rw [hnone, List.replicate_zero, List.append_nil, List.take_append_drop, hpower]

/-- The text of a double has the value of its shortest decimal. -/
theorem exists_plain_plainText (x : Double) :
    ∃ l : Literal, l.Plain ∧ l.text = x.plainText ∧
      l.toRat = (if x.negative then -1 else 1) *
        ((x.shortest .up).1 * 10 ^ (x.shortest .up).2) := by
  have hdigits := Digits.ofNat_ne_nil (x.shortest .up).1
  obtain ⟨hwhole, hall, hvalue⟩ := positional_spec hdigits
    (fun c hc => Digits.isDigit_of_mem_ofNat hc)
    ((x.shortest .up).2 + (Digits.ofNat (x.shortest .up).1).length)
  rw [Digits.value_ofNat, add_sub_cancel_right] at hvalue
  have htext : x.plainText = (if x.negative then ['-'] else []) ++
      (positional (Digits.ofNat (x.shortest .up).1)
        ((x.shortest .up).2 + (Digits.ofNat (x.shortest .up).1).length)).1 ++
      (if (positional (Digits.ofNat (x.shortest .up).1)
          ((x.shortest .up).2 + (Digits.ofNat (x.shortest .up).1).length)).2 = [] then []
        else '.' :: (positional (Digits.ofNat (x.shortest .up).1)
          ((x.shortest .up).2 + (Digits.ofNat (x.shortest .up).1).length)).2) := rfl
  generalize positional (Digits.ofNat (x.shortest .up).1)
    ((x.shortest .up).2 + (Digits.ofNat (x.shortest .up).1).length) = parts at *
  obtain ⟨whole, fraction⟩ := parts
  dsimp only at *
  rw [← hvalue]
  by_cases hnil : fraction = []
  · subst hnil
    refine ⟨⟨x.negative, whole, none, none⟩, ⟨hwhole, hall, rfl⟩, ?_, ?_⟩
    · rw [htext, Literal.text]
      simp
    · simp [Literal.toRat, Literal.digits, Literal.power]
  · refine ⟨⟨x.negative, whole, some fraction, none⟩, ⟨hwhole, hall, rfl⟩, ?_, ?_⟩
    · rw [htext, if_neg hnil, Literal.text]
      simp
    · simp [Literal.toRat, Literal.digits, Literal.power]

end Double

/-- The least value of a decimal that is not zero. -/
theorem Decimal.le_abs_toRat {d : Decimal} (hd : d.toRat ≠ 0) :
    (10 : ℚ) ^ (-28 : Int) ≤ |d.toRat| := by
  have hmantissa : d.mantissa ≠ 0 := by
    intro h
    rw [toRat, h, Int.cast_zero, zero_div] at hd
    exact hd rfl
  have hone : (1 : ℚ) ≤ |(d.mantissa : ℚ)| := by exact_mod_cast Int.one_le_abs hmantissa
  have hpos : ∀ n : Nat, (0 : ℚ) < 10 ^ n := fun n => pow_pos (by norm_num) n
  have hplaces : (10 : ℚ) ^ d.places ≤ 10 ^ 28 := pow_le_pow_right₀ (by norm_num) d.places_le
  rw [toRat, abs_div, abs_of_pos (hpos d.places), le_div_iff₀ (hpos _), zpow_neg]
  calc ((10 : ℚ) ^ (28 : Int))⁻¹ * 10 ^ d.places ≤ ((10 : ℚ) ^ (28 : Int))⁻¹ * 10 ^ 28 :=
        mul_le_mul_of_nonneg_left hplaces (by positivity)
    _ = 1 := by norm_num
    _ ≤ |(d.mantissa : ℚ)| := hone

/-- A number that is too long neither for a double nor for a decimal is read exactly by way of the
double nearest to it. -/
theorem Decimal.ofText?_nearest {l : Literal} {x : Double} {c : Nat} {e : Int}
    (hx : Double.nearest? l.negative (Digits.value l.digits) l.power = some x)
    (hc : c < 10 ^ 15) (hshort : (Digits.value l.digits : ℚ) * 10 ^ l.power = c * 10 ^ e)
    (hfit : ∃ d : Decimal, d.toRat = l.toRat) :
    ∃ d, ofText? x.plainText = some d ∧ d.toRat = l.toRat := by
  obtain ⟨text, hplain, htext, hvalue⟩ := x.exists_plain_plainText
  suffices hsame : text.toRat = l.toRat by
    obtain ⟨d, hd, hrat⟩ := ofText?_plain hplain (by rwa [hsame])
    exact ⟨d, by rw [← htext]; exact hd, hrat.trans hsame⟩
  by_cases hzero : Digits.value l.digits = 0
  · have hx : x = ⟨l.negative, 0, 0⟩ := by
      rw [Double.nearest?, if_pos (Or.inl hzero), Option.some.injEq] at hx
      exact hx.symm
    have hnothing : (x.shortest .up).1 = 0 := by
      rw [hx]
      rfl
    rw [hvalue, hnothing, Literal.toRat, hzero, Nat.cast_zero, zero_mul, zero_mul]
    simp
  · have hpos : (0 : ℚ) < Digits.value l.digits * 10 ^ l.power :=
      mul_pos (Nat.cast_pos.mpr (Nat.pos_of_ne_zero hzero)) (zpow_pos (by norm_num) _)
    have hlow : (10 : ℚ) ^ (-28 : Int) ≤ Digits.value l.digits * 10 ^ l.power := by
      obtain ⟨d, hd⟩ := hfit
      rw [← l.abs_toRat, ← hd]
      refine le_abs_toRat fun h => ?_
      rw [hd] at h
      rw [← l.abs_toRat, h, abs_zero] at hpos
      exact lt_irrefl _ hpos
    obtain ⟨hsign, hnormal, hcontains⟩ := Double.nearest?_spec hlow hx
    rw [hshort] at hcontains
    rw [hvalue, hnormal.shortest_eq .up hc hcontains, hsign, ← hshort, Literal.toRat]

end MarketFeed.Number
