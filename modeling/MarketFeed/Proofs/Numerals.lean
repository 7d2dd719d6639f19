import MarketFeed.Number.Decimal

/-!
Numbers written as text and read back. The digits of a number have its value and no zero too many
in front. More digits never make a value smaller, so a mantissa that fits once it is whole fits at
every digit before, and the text of a decimal is read as the decimal itself, with its places.
-/
namespace MarketFeed.Number

namespace Digits

theorem digit?_toChar {d : Nat} (hd : d < 10) : digit? (toChar d) = some d := by
  revert d
  decide

theorem isDigit_toChar {d : Nat} (hd : d < 10) : isDigit (toChar d) = true := by
  simp only [isDigit, digit?_toChar hd, Option.isSome_some]

/-- A character that is no digit is told from every digit. -/
theorem ne_of_isDigit {c other : Char} (hc : isDigit c = true)
    (hother : isDigit other = false) : c ≠ other := by
  rintro rfl
  rw [hc] at hother
  cases hother

theorem ofNat_ne_nil (n : Nat) : ofNat n ≠ [] := by
  rw [ofNat]
  split <;> simp

theorem isDigit_of_mem_ofNat {n : Nat} {c : Char} (hc : c ∈ ofNat n) : isDigit c = true := by
  induction n using ofNat.induct with
  | case1 n hn =>
    rw [ofNat, if_pos hn, List.mem_singleton] at hc
    rw [hc]
    exact isDigit_toChar hn
  | case2 n hn ih =>
    rw [ofNat, if_neg hn, List.mem_append, List.mem_singleton] at hc
    rcases hc with hc | rfl
    · exact ih hc
    · exact isDigit_toChar (Nat.mod_lt n (by omega))

/-- The value of a number already read with more digits behind it. -/
def more (n : Nat) (s : List Char) : Nat := s.foldl (fun n c => n * 10 + (digit? c).getD 0) n

theorem more_append (n : Nat) (s t : List Char) : more n (s ++ t) = more (more n s) t :=
  List.foldl_append

theorem le_more (n : Nat) (s : List Char) : n ≤ more n s := by
  induction s generalizing n with
  | nil => exact Nat.le_refl n
  | cons c s ih =>
    have hs := ih (n * 10 + (digit? c).getD 0)
    simp only [more, List.foldl_cons] at hs ⊢
    omega

theorem more_zeros (count : Nat) : more 0 (List.replicate count '0') = 0 := by
  induction count with
  | zero => rfl
  | succ count ih => exact ih

@[simp] theorem value_ofNat (n : Nat) : value (ofNat n) = n := by
  induction n using ofNat.induct with
  | case1 n hn =>
    rw [ofNat, if_pos hn]
    simp [value, digit?_toChar hn]
  | case2 n hn ih =>
    rw [ofNat, if_neg hn]
    have hlast : digit? (toChar (n % 10)) = some (n % 10) := digit?_toChar (Nat.mod_lt n (by omega))
    simp only [value, List.foldl_append, List.foldl_cons, List.foldl_nil, hlast,
      Option.getD_some] at ih ⊢
    rw [ih]
    omega

theorem head?_ofNat_of_pos {n : Nat} (hn : 0 < n) : (ofNat n).head? ≠ some '0' := by
  induction n using ofNat.induct with
  | case1 n hsmall =>
    have hpos : ∀ d < 10, 0 < d → toChar d ≠ '0' := by decide
    rw [ofNat, if_pos hsmall, List.head?_cons, ne_eq, Option.some.injEq]
    exact hpos n hsmall hn
  | case2 n hlarge ih =>
    obtain ⟨c, rest, hfront⟩ := List.exists_cons_of_ne_nil (ofNat_ne_nil (n / 10))
    have hfirst := ih (by omega)
    rw [ofNat, if_neg hlarge]
    rw [hfront] at hfirst ⊢
    exact hfirst

/-- Only a number of one digit starts with a zero. -/
theorem ofNat_head (n : Nat) : (ofNat n).length = 1 ∨ (ofNat n).head? ≠ some '0' := by
  rcases Nat.eq_zero_or_pos n with rfl | hn
  · left
    rw [ofNat, if_pos (by omega)]
    rfl
  · exact Or.inr (head?_ofNat_of_pos hn)

theorem isDigit_of_mem_padded {width n : Nat} {c : Char} (hc : c ∈ padded width n) :
    isDigit c = true := by
  rcases List.mem_append.mp hc with hc | hc
  · rw [List.eq_of_mem_replicate hc]
    rfl
  · exact isDigit_of_mem_ofNat hc

theorem le_length_padded (width n : Nat) : width ≤ (padded width n).length := by
  simp only [padded, List.length_append, List.length_replicate]
  omega

@[simp] theorem more_padded (width n : Nat) : more 0 (padded width n) = n := by
  rw [padded, more_append, more_zeros]
  exact value_ofNat n

/-- A text in front of which no digit can be read. -/
def NoDigitFirst (s : List Char) : Prop := ∀ c ∈ s.head?, isDigit c = false

theorem split_append_of_digits {s rest : List Char} (hs : ∀ c ∈ s, isDigit c = true)
    (hrest : NoDigitFirst rest) : split (s ++ rest) = (s, rest) := by
  have htake : rest.takeWhile isDigit = [] ∧ rest.dropWhile isDigit = rest := by
    cases rest with
    | nil => exact ⟨rfl, rfl⟩
    | cons c rest => simp [hrest c rfl]
  rw [split, List.takeWhile_append_of_pos hs, List.dropWhile_append_of_pos hs, htake.1, htake.2,
    List.append_nil]

end Digits

namespace Decimal

open Digits

/-- Digits that leave the mantissa and the places room are all read, before the point without
places and after it one place for each. -/
theorem readFrom_digits (mantissa places : Nat) (seenPoint seenDigit : Bool) {s : List Char}
    (rest : List Char) (hs : ∀ c ∈ s, isDigit c = true) (hfit : more mantissa s < 1 <<< 96)
    (hplaces : if seenPoint then places + s.length ≤ maxPlaces else places = 0) :
    readFrom mantissa places seenPoint seenDigit (s ++ rest) =
      readFrom (more mantissa s) (if seenPoint then places + s.length else 0) seenPoint
        (seenDigit || !s.isEmpty) rest := by
  induction s generalizing mantissa places seenDigit with
  | nil => cases seenPoint <;> simp_all [more]
  | cons c s ih =>
    obtain ⟨digit, hdigit⟩ := Option.isSome_iff_exists.mp (hs c List.mem_cons_self)
    have hmore : more mantissa (c :: s) = more (mantissa * 10 + digit) s := by
      simp [more, hdigit]
    rw [hmore] at hfit ⊢
    have hnext : mantissa * 10 + digit < 1 <<< 96 := Nat.lt_of_le_of_lt (le_more _ s) hfit
    have hroom : ¬(seenPoint = true ∧ maxPlaces ≤ places) := by
      rintro ⟨rfl, hfull⟩
      simp only [if_true, List.length_cons] at hplaces
      omega
    have htail := ih (mantissa * 10 + digit) (if seenPoint then places + 1 else 0) true
      (fun c hc => hs c (List.mem_cons_of_mem _ hc)) hfit (by
        cases seenPoint
        · rfl
        · simp only [if_true, List.length_cons] at hplaces ⊢
          omega)
    rw [List.cons_append, readFrom, if_neg hroom, hdigit]
    simp only [hnext, if_true, htail]
    congr 1
    · cases seenPoint
      · rfl
      · simp only [if_true, List.length_cons]
        omega
    · cases seenDigit <;> rfl

/-- Digits with a point among them are read as their value with a place for each digit behind it. -/
theorem readFrom_pointed {whole fraction : List Char} (hwhole : whole ≠ [])
    (hdigits : ∀ c ∈ whole ++ fraction, isDigit c = true)
    (hfit : more 0 (whole ++ fraction) < 1 <<< 96) (hplaces : fraction.length ≤ maxPlaces) :
    readFrom 0 0 false false (whole ++ if fraction.length = 0 then [] else '.' :: fraction) =
      some (more 0 (whole ++ fraction), fraction.length) := by
  rw [more_append] at hfit ⊢
  have hseen : whole.isEmpty = false := List.isEmpty_eq_false_iff.mpr hwhole
  have hfront := readFrom_digits 0 0 false false
    (if fraction.length = 0 then [] else '.' :: fraction)
    (fun c hc => hdigits c (List.mem_append_left _ hc))
    (Nat.lt_of_le_of_lt (le_more _ fraction) hfit) rfl
  rw [hfront, hseen]
  by_cases hnil : fraction = []
  · subst hnil
    simp [readFrom, more]
  · have hpoint : readFrom (more 0 whole) 0 false true ('.' :: fraction) =
        readFrom (more 0 whole) 0 true true fraction := by
      simp [readFrom, digit?]
    have hfraction := readFrom_digits (more 0 whole) 0 true true []
      (fun c hc => hdigits c (List.mem_append_right _ hc)) hfit
      (by simpa only [if_true, Nat.zero_add] using hplaces)
    rw [List.append_nil] at hfraction
    simp [hnil, hpoint, hfraction, readFrom]

theorem ofPlain?_of_digit {c : Char} (hc : isDigit c = true) (rest : List Char) :
    ofPlain? (c :: rest) = signed? false (readFrom 0 0 false false (c :: rest)) := by
  unfold ofPlain?
  split
  · next heq => cases heq; cases hc
  · next heq => cases heq; cases hc
  · rfl

theorem signed?_natAbs (d : Decimal) :
    signed? (decide (d.mantissa < 0)) (some (d.mantissa.natAbs, d.places)) = some d := by
  have hsign : (if decide (d.mantissa < 0) then -(d.mantissa.natAbs : Int) else d.mantissa.natAbs) =
      d.mantissa := by
    by_cases hneg : d.mantissa < 0
    · rw [if_pos (decide_eq_true hneg)]
      omega
    · rw [if_neg (by simpa only [decide_eq_true_eq] using hneg)]
      omega
  simp only [signed?, Option.bind_eq_bind, Option.bind_some, hsign, ofParts?]
  rw [dif_pos ⟨d.mantissa_lt, d.places_le⟩]

/-- The text of a decimal: a sign, digits, and a point with the rest of the digits. -/
theorem exists_text_eq (d : Decimal) :
    ∃ whole fraction : List Char, whole ≠ [] ∧ fraction.length = d.places ∧
      whole ++ fraction = padded (d.places + 1) d.mantissa.natAbs ∧
      d.text = (if d.mantissa < 0 then ['-'] else []) ++
        (whole ++ if fraction.length = 0 then [] else '.' :: fraction) := by
  have hlong := le_length_padded (d.places + 1) d.mantissa.natAbs
  have hlength : ∀ digits : List Char, d.places + 1 ≤ digits.length →
      (digits.drop (digits.length - d.places)).length = d.places := by
    intro digits hdigits
    rw [List.length_drop]
    omega
  refine ⟨_, _, ?_, hlength _ hlong, List.take_append_drop _ _, ?_⟩
  · rw [ne_eq, ← List.length_eq_zero_iff, List.length_take]
    omega
  · rw [hlength _ hlong, text, List.append_assoc]

/-- A decimal is read back from its text, digit for digit and place for place. -/
theorem ofPlain?_text (d : Decimal) : ofPlain? d.text = some d := by
  obtain ⟨whole, fraction, hwhole, hplaces, hjoin, htext⟩ := exists_text_eq d
  have hdigits : ∀ c ∈ whole ++ fraction, isDigit c = true := by
    rw [hjoin]
    exact fun c hc => isDigit_of_mem_padded hc
  have hvalue : more 0 (whole ++ fraction) = d.mantissa.natAbs := by
    rw [hjoin, more_padded]
  have hread := readFrom_pointed hwhole hdigits (by rw [hvalue]; exact d.mantissa_lt)
    (by rw [hplaces]; exact d.places_le)
  rw [hvalue, hplaces] at hread
  have hsigned := signed?_natAbs d
  rw [htext, hplaces]
  by_cases hneg : d.mantissa < 0
  · rw [decide_eq_true hneg] at hsigned
    rw [if_pos hneg, List.singleton_append, ofPlain?, hread, hsigned]
  · rw [decide_eq_false hneg] at hsigned
    obtain ⟨c, rest, rfl⟩ := List.exists_cons_of_ne_nil hwhole
    rw [if_neg hneg, List.nil_append, List.cons_append,
      ofPlain?_of_digit (hdigits c List.mem_cons_self), ← List.cons_append, hread, hsigned]

theorem ofText?_text (d : Decimal) : ofText? d.text = some d := by
  rw [ofText?, ofPlain?_text]
  rfl

end Decimal

end MarketFeed.Number
