import Mathlib
import MarketFeed.Text.Utf8

/-!
The order of texts by their octets. A character with a higher code point has higher octets: either
its first octet says that more follow, or the first octet in which the two differ is the higher one.
So texts stand in the same order by their characters and by their octets.
-/
namespace MarketFeed.Text.Utf8

/-- How many octets follow the first one of a code point. -/
def owed (n : Nat) : Nat :=
  if n < 0x80 then 0 else if n < 0x800 then 1 else if n < 0x10000 then 2 else 3

/-- What the first octet is counted from if so many follow. -/
def leadBase : Nat → Nat
  | 0 => 0
  | 1 => 0xC0
  | 2 => 0xE0
  | _ => 0xF0

/-- A number over so many octets of six bits, after a first octet with what they do not hold. -/
def spread (base : Nat) : (owed n : Nat) → List UInt8
  | 0, n => [UInt8.ofNat (base + n)]
  | owed + 1, n => spread base owed (n / 64) ++ [UInt8.ofNat (0x80 + n % 64)]

theorem owed_cases (n : Nat) :
    n < 0x80 ∧ owed n = 0 ∨ (0x80 ≤ n ∧ n < 0x800) ∧ owed n = 1 ∨
      (0x800 ≤ n ∧ n < 0x10000) ∧ owed n = 2 ∨ 0x10000 ≤ n ∧ owed n = 3 := by
  unfold owed
  repeat' split
  all_goals omega

theorem encodeChar_eq_spread (c : Char) :
    encodeChar c = spread (leadBase (owed c.toNat)) (owed c.toNat) c.toNat := by
  have hfour : c.toNat / 64 / 64 = c.toNat / 4096 := Nat.div_div_eq_div_mul _ _ _
  have hsix : c.toNat / 4096 / 64 = c.toNat / 262144 := Nat.div_div_eq_div_mul _ _ _
  unfold encodeChar
  rcases owed_cases c.toNat with ⟨hn, howed⟩ | ⟨hn, howed⟩ | ⟨hn, howed⟩ | ⟨hn, howed⟩
  · rw [howed, if_pos hn]
    simp only [spread, leadBase, Nat.zero_add]
  · rw [howed, if_neg (by omega), if_pos hn.2]
    rfl
  · rw [howed, if_neg (by omega), if_neg (by omega), if_pos hn.2, ← hfour]
    rfl
  · rw [howed, if_neg (by omega), if_neg (by omega), if_neg (by omega), ← hsix, ← hfour]
    rfl

theorem exists_spread_eq (base owed n : Nat) :
    ∃ rest, spread base owed n = UInt8.ofNat (base + n / 64 ^ owed) :: rest := by
  induction owed generalizing n with
  | zero => exact ⟨[], by rw [pow_zero, Nat.div_one, spread]⟩
  | succ owed ih =>
    obtain ⟨rest, hrest⟩ := ih (n / 64)
    rw [Nat.div_div_eq_div_mul, Nat.mul_comm, ← pow_succ] at hrest
    exact ⟨rest ++ [UInt8.ofNat (0x80 + n % 64)], by rw [spread, hrest, List.cons_append]⟩

theorem ofNat_lt_ofNat {m n : Nat} (hn : n < 256) (h : m < n) : UInt8.ofNat m < UInt8.ofNat n := by
  rw [UInt8.lt_iff_toNat_lt, UInt8.toNat_ofNat', UInt8.toNat_ofNat', Nat.mod_eq_of_lt hn,
    Nat.mod_eq_of_lt (h.trans hn)]
  exact h

/-- Of two numbers over the same count of octets the lower one comes first, whatever follows. -/
theorem spread_append_lt {base owed m n : Nat} (hn : base + n / 64 ^ owed < 256) (h : m < n)
    (s t : List UInt8) : spread base owed m ++ s < spread base owed n ++ t := by
  induction owed generalizing m n s t with
  | zero =>
    rw [pow_zero, Nat.div_one] at hn
    exact List.cons_lt_cons_iff.mpr (Or.inl (ofNat_lt_ofNat hn (by omega)))
  | succ owed ih =>
    rw [pow_succ, Nat.mul_comm, ← Nat.div_div_eq_div_mul] at hn
    simp only [spread, List.append_assoc, List.cons_append, List.nil_append]
    by_cases hhigh : m / 64 < n / 64
    · exact ih hn hhigh _ _
    · have hsame : m / 64 = n / 64 := by omega
      have hlow : UInt8.ofNat (0x80 + m % 64) < UInt8.ofNat (0x80 + n % 64) :=
        ofNat_lt_ofNat (by omega) (by omega)
      rw [hsame]
      exact List.append_left_lt (List.cons_lt_cons_iff.mpr (Or.inl hlow))

theorem toNat_lt (c : Char) : c.toNat < 0x110000 := by
  have hvalid : c.toNat.isValidChar := c.valid
  unfold Nat.isValidChar at hvalid
  omega

/-- The first octet of a code point is below 256, and higher the more octets follow. -/
theorem leadBase_bounds {m n : Nat} (hn : n < 0x110000) (h : m < n) :
    leadBase (owed n) + n / 64 ^ owed n < 256 ∧
      (owed m = owed n ∨
        leadBase (owed m) + m / 64 ^ owed m < leadBase (owed n) + n / 64 ^ owed n) := by
  rcases owed_cases n with ⟨hn', howed⟩ | ⟨hn', howed⟩ | ⟨hn', howed⟩ | ⟨hn', howed⟩ <;>
    rcases owed_cases m with ⟨hm, howed'⟩ | ⟨hm, howed'⟩ | ⟨hm, howed'⟩ | ⟨hm, howed'⟩ <;>
    rw [howed, howed'] <;> simp only [leadBase, true_or, and_true] <;> omega

/-- The character with the lower code point comes first, whatever follows either. -/
theorem encodeChar_append_lt {c d : Char} (h : c.toNat < d.toNat) (s t : List UInt8) :
    encodeChar c ++ s < encodeChar d ++ t := by
  obtain ⟨hbound, hsame | hlead⟩ := leadBase_bounds (toNat_lt d) h
  · rw [encodeChar_eq_spread, encodeChar_eq_spread, hsame]
    exact spread_append_lt hbound h s t
  · obtain ⟨rest, hc⟩ := exists_spread_eq (leadBase (owed c.toNat)) (owed c.toNat) c.toNat
    obtain ⟨rest', hd⟩ := exists_spread_eq (leadBase (owed d.toNat)) (owed d.toNat) d.toNat
    rw [encodeChar_eq_spread, encodeChar_eq_spread, hc, hd]
    exact List.cons_lt_cons_iff.mpr (Or.inl (ofNat_lt_ofNat hbound hlead))

theorem encode_lt_encode {s t : List Char} (h : s < t) : encode s < encode t := by
  induction h with
  | nil =>
    next d t =>
    obtain ⟨rest, hd⟩ := exists_spread_eq (leadBase (owed d.toNat)) (owed d.toNat) d.toNat
    rw [encode, encode, List.flatMap_cons, encodeChar_eq_spread, hd]
    exact List.Lex.nil
  | rel hlt => exact encodeChar_append_lt hlt _ _
  | cons _ ih => exact List.append_left_lt ih

end MarketFeed.Text.Utf8
