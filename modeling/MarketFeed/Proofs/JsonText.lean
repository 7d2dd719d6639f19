import MarketFeed.Json.Printer
import MarketFeed.Json.Reader
import MarketFeed.Proofs.Numerals

/-!
JSON text read back. A value made of constants, whole numbers of 64 bits, texts, arrays and objects
is the value of its own text, whatever characters it holds. Each reader takes exactly what the
printer wrote and leaves what follows, which is shown by induction on the value; the steps that a
reader is given are counted by the characters it has to read. Text may nest so deep that the value
is not readable, so the room for nesting is part of what makes a value plain.
-/
namespace MarketFeed.Json

open Number Digits

/-- A value that its text tells from all others, nested no deeper than there is room for. -/
inductive Plain : (room : Nat) → Json → Prop where
  | null {room : Nat} : Plain room null
  | bool {room : Nat} (b : Bool) : Plain room (bool b)
  | int {room : Nat} {n : Int} (hlow : -((1 <<< 63 : Nat) : Int) ≤ n) (hhigh : n < UInt64.size) :
    Plain room (int n)
  | text {room : Nat} (s : String) : Plain room (text s)
  | array {room : Nat} {items : List Json} (hroom : 1 < room)
    (hitems : ∀ j ∈ items, Plain (room - 1) j) : Plain room (array items)
  | object {room : Nat} {fields : List (String × Json)} (hroom : 1 < room)
    (hfields : ∀ f ∈ fields, Plain (room - 1) f.2) : Plain room (object fields)

/-- What may follow a value: nothing, a comma or a closing bracket. -/
def Stops (rest : List Char) : Prop := ∀ c ∈ rest.head?, c = ',' ∨ c = ']' ∨ c = '\x7d'

namespace Stops

theorem nil : Stops [] := by
  rintro c ⟨⟩

theorem cons {c : Char} (hc : c = ',' ∨ c = ']' ∨ c = '\x7d') (rest : List Char) :
    Stops (c :: rest) := by
  rintro _ ⟨⟩
  exact hc

variable {rest : List Char}

theorem noDigitFirst (h : Stops rest) : NoDigitFirst rest := by
  intro c hc
  rcases h c hc with rfl | rfl | rfl <;> rfl

theorem readFraction (h : Stops rest) : readFraction rest = some (none, rest) := by
  cases rest with
  | nil => rfl
  | cons c rest => rcases h c rfl with rfl | rfl | rfl <;> rfl

theorem readExponent (h : Stops rest) : readExponent rest = some (none, rest) := by
  cases rest with
  | nil => rfl
  | cons c rest => rcases h c rfl with rfl | rfl | rfl <;> rfl

end Stops

section Numbers

variable {rest : List Char}

theorem readWhole_ofNat (n : Nat) (hrest : NoDigitFirst rest) :
    readWhole (Digits.ofNat n ++ rest) = some (Digits.ofNat n, rest) := by
  have hdigits : ∀ c ∈ Digits.ofNat n, isDigit c = true := fun c hc => isDigit_of_mem_ofNat hc
  have hhead := ofNat_head n
  obtain ⟨c, s, hn⟩ := List.exists_cons_of_ne_nil (ofNat_ne_nil n)
  rw [hn] at hdigits hhead ⊢
  simp only [readWhole, split_append_of_digits hdigits hrest, if_pos hhead]

theorem readNumber_ofInt {n : Int} (hlow : -((1 <<< 63 : Nat) : Int) ≤ n) (hhigh : n < UInt64.size)
    (hrest : Stops rest) : readNumber (ofInt n ++ rest) = some (int n, rest) := by
  have hwhole := readWhole_ofNat n.natAbs hrest.noDigitFirst
  by_cases hn : n < 0
  · have hmagnitude : 0 < n.natAbs ∧ n.natAbs ≤ 1 <<< 63 := by omega
    have hvalue : -(n.natAbs : Int) = n := by omega
    have hsign : ('-' :: (Digits.ofNat n.natAbs ++ rest)).head? == some '-' := rfl
    simp only [readNumber, ofInt, if_pos hn, hsign, if_true, List.cons_append, List.drop_succ_cons,
      List.drop_zero, hwhole, hrest.readFraction, hrest.readExponent, Option.bind_eq_bind,
      Option.bind_some, ofLiteral, value_ofNat, if_pos hmagnitude, hvalue]
  · have hmagnitude : n.natAbs < UInt64.size := by omega
    have hvalue : (n.natAbs : Int) = n := by omega
    have hsign : ((Digits.ofNat n.natAbs ++ rest).head? == some '-') = false := by
      obtain ⟨c, s, hs⟩ := List.exists_cons_of_ne_nil (ofNat_ne_nil n.natAbs)
      have hc : isDigit c = true := isDigit_of_mem_ofNat (hs ▸ List.mem_cons_self)
      rw [hs]
      exact beq_eq_false_iff_ne.mpr fun h => ne_of_isDigit hc rfl (Option.some.inj h)
    simp only [readNumber, ofInt, if_neg hn, hsign, Bool.false_eq_true, if_false, hwhole,
      hrest.readFraction, hrest.readExponent, Option.bind_eq_bind, Option.bind_some, ofLiteral,
      value_ofNat, if_pos hmagnitude, hvalue]

end Numbers

section Texts

theorem hexDigit?_hexDigit {n : Nat} (hn : n < 16) :
    hexDigit? (Text.Quoted.hexDigit n) = some n := by
  revert n
  decide

/-- A character is read back from what stands for it in a text. -/
theorem piece?_escape (c : Char) (rest : List Char) :
    piece? (escape c ++ rest) = some (.char c, rest) := by
  by_cases hsimple : c ∈ ['"', '\\', '\x08', '\x0c', '\n', '\r', '\t']
  · simp only [List.mem_cons, List.not_mem_nil, or_false] at hsimple
    rcases hsimple with rfl | rfl | rfl | rfl | rfl | rfl | rfl <;> rfl
  simp only [List.mem_cons, List.not_mem_nil, or_false, not_or] at hsimple
  obtain ⟨hquote, hbackslash, hb, hf, hn, hr, ht⟩ := hsimple
  by_cases hcontrol : c.toNat < 0x20
  · have hunit : (c.toNat / 16) * 16 + c.toNat % 16 = c.toNat := Nat.div_add_mod' _ _
    have hhigh : c.toNat / 16 < 16 := by omega
    have hlow : c.toNat % 16 < 16 := Nat.mod_lt _ (by omega)
    have hplain : ¬(0xD800 ≤ c.toNat ∧ c.toNat ≤ 0xDFFF) := by omega
    have hzero : hexDigit? '0' = some 0 := rfl
    simp [escape, hquote, hbackslash, hb, hf, hn, hr, ht, hcontrol, piece?, unit?, hzero,
      hexDigit?_hexDigit, hhigh, hlow, hunit, hplain, Char.ofNat_toNat]
  · simp only [escape, hquote, hbackslash, hb, hf, hn, hr, ht, hcontrol, or_self, if_false,
      List.singleton_append]
    unfold piece?
    split <;> simp_all

theorem escape_ne_nil (c : Char) : escape c ≠ [] := by
  unfold escape
  repeat' split
  all_goals simp

theorem length_le_flatMap_escape (s : List Char) : s.length ≤ (s.flatMap escape).length := by
  induction s with
  | nil => exact Nat.le_refl 0
  | cons c s ih =>
    have hc := List.length_pos_iff.mpr (escape_ne_nil c)
    rw [List.flatMap_cons, List.length_append, List.length_cons]
    omega

theorem pieces?_escape {fuel : Nat} (s rest : List Char) (hfuel : s.length < fuel) :
    pieces? fuel (s.flatMap escape ++ '"' :: rest) = some (s.map .char, rest) := by
  induction s generalizing fuel with
  | nil =>
    cases fuel with
    | zero => cases hfuel
    | succ fuel => rfl
  | cons c s ih =>
    cases fuel with
    | zero => cases hfuel
    | succ fuel =>
      have hmore := ih (Nat.lt_of_succ_lt_succ hfuel)
      simp only [List.flatMap_cons, List.append_assoc, pieces?, piece?_escape,
        Option.bind_eq_bind, Option.bind_some, hmore, List.map_cons]

theorem paired?_chars (s : List Char) : paired? (s.map .char) = some s := by
  induction s with
  | nil => rfl
  | cons c s ih => rw [List.map_cons, paired?, ih, Option.map_some]

theorem readText_escape (s : String) (rest : List Char) :
    readText (s.toList.flatMap escape ++ '"' :: rest) = some (some s, rest) := by
  have hfuel : s.toList.length < (s.toList.flatMap escape ++ '"' :: rest).length + 1 := by
    have hlength := length_le_flatMap_escape s.toList
    rw [List.length_append]
    omega
  simp only [readText, pieces?_escape _ _ hfuel, Option.bind_eq_bind, Option.bind_some,
    paired?_chars, Option.map_some, String.ofList_toList]

end Texts

section Values

variable {fuel : Nat} {rest : List Char}

theorem skipBlanks_cons {c : Char} (hc : isBlank c = false) (s : List Char) :
    skipBlanks (c :: s) = c :: s := by
  rw [skipBlanks, List.dropWhile_cons_of_neg (by simp [hc])]

theorem encodeItems_eq_map (items : List Json) : encodeItems items = items.map encode := by
  induction items with
  | nil => rfl
  | cons item items ih => rw [encodeItems, ih, List.map_cons]

/-- A field as it stands in the text of an object. -/
def encodeField (f : String × Json) : List Char := encodeText f.1.toList ++ ':' :: encode f.2

theorem encodeFields_eq_map (fields : List (String × Json)) :
    encodeFields fields = fields.map encodeField := by
  induction fields with
  | nil => rfl
  | cons f fields ih => rw [encodeFields, ih, List.map_cons, encodeField]

/-- A text that starts with a character that is neither blank nor a closing bracket. -/
def Opens (s : List Char) : Prop :=
  ∃ c rest, s = c :: rest ∧ isBlank c = false ∧ c ≠ ']' ∧ c ≠ '\x7d'

theorem Opens.append {s : List Char} (h : Opens s) (rest : List Char) : Opens (s ++ rest) := by
  obtain ⟨c, s, rfl, hc⟩ := h
  exact ⟨c, s ++ rest, rfl, hc⟩

theorem isBlank_of_isDigit {c : Char} (hc : isDigit c = true) : isBlank c = false := by
  simp only [isBlank, Bool.or_eq_false_iff, beq_eq_false_iff_ne, ne_eq]
  exact ⟨⟨⟨ne_of_isDigit hc rfl, ne_of_isDigit hc rfl⟩, ne_of_isDigit hc rfl⟩, ne_of_isDigit hc rfl⟩

/-- A whole number starts with a digit or a minus sign. -/
theorem exists_ofInt_eq (n : Int) :
    ∃ c s, ofInt n = c :: s ∧ (isDigit c = true ∨ c = '-') := by
  unfold ofInt
  split
  · exact ⟨'-', _, rfl, Or.inr rfl⟩
  · obtain ⟨c, s, hs⟩ := List.exists_cons_of_ne_nil (ofNat_ne_nil n.natAbs)
    exact ⟨c, s, hs, Or.inl (isDigit_of_mem_ofNat (hs ▸ List.mem_cons_self))⟩

theorem Plain.opens {room : Nat} {j : Json} (h : Plain room j) : Opens j.encode := by
  cases h with
  | null => exact ⟨_, _, rfl, rfl, by decide⟩
  | bool b => cases b <;> exact ⟨_, _, rfl, rfl, by decide⟩
  | int _ _ =>
    obtain ⟨c, s, hs, hc | rfl⟩ := exists_ofInt_eq _
    · exact ⟨c, s, hs, isBlank_of_isDigit hc, ne_of_isDigit hc rfl, ne_of_isDigit hc rfl⟩
    · exact ⟨_, s, hs, rfl, by decide⟩
  | text s => exact ⟨_, _, rfl, rfl, by decide⟩
  | array _ _ => exact ⟨_, _, rfl, rfl, by decide⟩
  | object _ _ => exact ⟨_, _, rfl, rfl, by decide⟩

theorem readValue_number {c : Char} {s : List Char} (hc : isDigit c = true ∨ c = '-') :
    readValue (fuel + 1) (c :: s) = readNumber (c :: s) := by
  have hblank : isBlank c = false := by
    rcases hc with hc | rfl
    · exact isBlank_of_isDigit hc
    · rfl
  rw [readValue, skipBlanks_cons hblank]
  split <;> first | rfl | (next heq => cases heq; rcases hc with hc | hc <;> cases hc)

theorem readValue_array {s : List Char} {items : List Json} (hs : Opens s)
    (hitems : readItems fuel s = some (items, rest)) :
    readValue (fuel + 1) ('[' :: s) = some (array items, rest) := by
  obtain ⟨c, s, rfl, hblank, hc, -⟩ := hs
  rw [readValue, skipBlanks_cons rfl]
  simp only [skipBlanks_cons hblank]
  split
  · next heq => exact absurd (List.cons.inj heq).1 hc
  · simp only [hitems, Option.bind_eq_bind, Option.bind_some]

theorem readValue_object {s : List Char} {fields : List (Option String × Json)} (hs : Opens s)
    (hfields : readFields fuel s = some (fields, rest)) :
    readValue (fuel + 1) ('\x7b' :: s) = some (ofFields fields, rest) := by
  obtain ⟨c, s, rfl, hblank, -, hc⟩ := hs
  rw [readValue, skipBlanks_cons rfl]
  simp only [skipBlanks_cons hblank]
  split
  · next heq => exact absurd (List.cons.inj heq).1 hc
  · simp only [hfields, Option.bind_eq_bind, Option.bind_some]

theorem readItems_last {s : List Char} {item : Json}
    (hitem : readValue fuel s = some (item, ']' :: rest)) :
    readItems (fuel + 1) s = some ([item], rest) := by
  simp only [readItems, hitem, Option.bind_eq_bind, Option.bind_some,
    skipBlanks_cons (c := ']') rfl]

theorem readItems_cons {s t : List Char} {item : Json} {items : List Json}
    (hitem : readValue fuel s = some (item, ',' :: t))
    (hitems : readItems fuel t = some (items, rest)) :
    readItems (fuel + 1) s = some (item :: items, rest) := by
  simp only [readItems, hitem, hitems, Option.bind_eq_bind, Option.bind_some,
    skipBlanks_cons (c := ',') rfl]

theorem readFields_last {s : List Char} {name : String} {value : Json}
    (hvalue : readValue fuel s = some (value, '\x7d' :: rest)) :
    readFields (fuel + 1) (encodeText name.toList ++ ':' :: s) =
      some ([(some name, value)], rest) := by
  simp only [readFields, encodeText, List.cons_append, List.append_assoc, List.nil_append,
    skipBlanks_cons (c := '"') rfl, skipBlanks_cons (c := ':') rfl,
    skipBlanks_cons (c := '\x7d') rfl, readText_escape, hvalue, Option.bind_eq_bind,
    Option.bind_some]

theorem readFields_cons {s t : List Char} {name : String} {value : Json}
    {fields : List (Option String × Json)} (hvalue : readValue fuel s = some (value, ',' :: t))
    (hfields : readFields fuel t = some (fields, rest)) :
    readFields (fuel + 1) (encodeText name.toList ++ ':' :: s) =
      some ((some name, value) :: fields, rest) := by
  simp only [readFields, encodeText, List.cons_append, List.append_assoc, List.nil_append,
    skipBlanks_cons (c := '"') rfl, skipBlanks_cons (c := ':') rfl, skipBlanks_cons (c := ',') rfl,
    readText_escape, hvalue, hfields, Option.bind_eq_bind, Option.bind_some]

theorem ofFields_some (fields : List (String × Json)) :
    ofFields (fields.map fun f => (some f.1, f.2)) = object fields := by
  have hnames : (fields.map fun f => (some f.1, f.2)).mapM
      (fun f => f.1.map fun name => (name, f.2)) = some fields := by
    induction fields with
    | nil => rfl
    | cons f fields ih => simp [List.mapM_cons, ih]
  rw [ofFields, hnames]

/-- The reader takes the text of a value off the front and leaves what follows. -/
def Reads (j : Json) : Prop :=
  ∀ fuel rest, 2 * j.encode.length ≤ fuel → Stops rest →
    readValue fuel (j.encode ++ rest) = some (j, rest)

theorem readItems_separated (fuel : Nat) (rest : List Char) {items : List Json}
    (hsome : items ≠ []) (hitems : ∀ j ∈ items, Reads j)
    (hfuel : 2 * (separated (items.map encode)).length < fuel) :
    readItems fuel (separated (items.map encode) ++ ']' :: rest) = some (items, rest) := by
  induction items generalizing fuel with
  | nil => exact absurd rfl hsome
  | cons item items ih =>
    obtain ⟨fuel, rfl⟩ := Nat.exists_eq_succ_of_ne_zero (Nat.ne_zero_of_lt hfuel)
    have hitem := hitems item List.mem_cons_self
    cases items with
    | nil =>
      simp only [List.map_cons, List.map_nil, separated] at hfuel ⊢
      exact readItems_last (hitem fuel _ (by omega) (Stops.cons (by decide) rest))
    | cons second items =>
      simp only [List.map_cons, separated, List.length_append, List.length_cons,
        List.append_assoc, List.cons_append] at hfuel ih ⊢
      exact readItems_cons (hitem fuel _ (by omega) (Stops.cons (by decide) _))
        (ih fuel (List.cons_ne_nil _ _) (fun j hj => hitems j (List.mem_cons_of_mem _ hj))
          (by omega))

theorem readFields_separated (fuel : Nat) (rest : List Char) {fields : List (String × Json)}
    (hsome : fields ≠ []) (hfields : ∀ f ∈ fields, Reads f.2)
    (hfuel : 2 * (separated (fields.map encodeField)).length < fuel) :
    readFields fuel (separated (fields.map encodeField) ++ '\x7d' :: rest) =
      some (fields.map fun f => (some f.1, f.2), rest) := by
  induction fields generalizing fuel with
  | nil => exact absurd rfl hsome
  | cons f fields ih =>
    obtain ⟨fuel, rfl⟩ := Nat.exists_eq_succ_of_ne_zero (Nat.ne_zero_of_lt hfuel)
    have hvalue := hfields f List.mem_cons_self
    cases fields with
    | nil =>
      simp only [List.map_cons, List.map_nil, separated, encodeField, List.length_append,
        List.length_cons, List.append_assoc, List.cons_append] at hfuel ⊢
      exact readFields_last (hvalue fuel _ (by omega) (Stops.cons (by decide) rest))
    | cons second fields =>
      simp only [List.map_cons, separated, encodeField, List.length_append, List.length_cons,
        List.append_assoc, List.cons_append] at hfuel ih ⊢
      exact readFields_cons (hvalue fuel _ (by omega) (Stops.cons (by decide) _))
        (ih fuel (List.cons_ne_nil _ _) (fun f hf => hfields f (List.mem_cons_of_mem _ hf))
          (by omega))

theorem Opens.separated {part : List Char} (h : Opens part) (parts : List (List Char)) :
    Opens (Json.separated (part :: parts)) := by
  cases parts with
  | nil => exact h
  | cons second parts => exact h.append _

/-- No text of a value is empty, so a reader that has steps enough has one to take. -/
theorem reads_of_step {j : Json} (hj : Opens j.encode)
    (hstep : ∀ fuel rest, 2 * j.encode.length ≤ fuel + 1 → Stops rest →
      readValue (fuel + 1) (j.encode ++ rest) = some (j, rest)) : Reads j := by
  intro fuel rest hfuel hrest
  cases fuel with
  | zero =>
    obtain ⟨c, s, hs, -⟩ := hj
    rw [hs] at hfuel
    cases hfuel
  | succ fuel => exact hstep fuel rest hfuel hrest

theorem reads_array {items : List Json} (hopens : ∀ j ∈ items, Opens j.encode)
    (hitems : ∀ j ∈ items, Reads j) : Reads (array items) := by
  have htext : (array items).encode = '[' :: separated (items.map encode) ++ [']'] := by
    rw [encode, encodeItems_eq_map]
  refine reads_of_step (htext ▸ ⟨_, _, rfl, rfl, by decide⟩) fun fuel rest hfuel _ => ?_
  rw [htext] at hfuel ⊢
  cases items with
  | nil => rfl
  | cons item items =>
    have hfirst : Opens (separated ((item :: items).map encode)) :=
      Opens.separated (hopens item List.mem_cons_self) _
    have hread := readItems_separated fuel rest (List.cons_ne_nil item items) hitems
      (by simp only [List.length_append, List.length_cons] at hfuel; omega)
    simp only [List.cons_append, List.append_assoc, List.nil_append]
    exact readValue_array (hfirst.append _) hread

theorem reads_object {fields : List (String × Json)} (hfields : ∀ f ∈ fields, Reads f.2) :
    Reads (object fields) := by
  have htext : (object fields).encode =
      '\x7b' :: separated (fields.map encodeField) ++ ['\x7d'] := by
    rw [encode, encodeFields_eq_map]
  refine reads_of_step (htext ▸ ⟨_, _, rfl, rfl, by decide⟩) fun fuel rest hfuel _ => ?_
  rw [htext] at hfuel ⊢
  cases fields with
  | nil => rfl
  | cons f fields =>
    have hfirst : Opens (separated ((f :: fields).map encodeField)) :=
      Opens.separated ⟨_, _, rfl, rfl, by decide⟩ _
    have hread := readFields_separated fuel rest (List.cons_ne_nil f fields) hfields
      (by simp only [List.length_append, List.length_cons] at hfuel; omega)
    simp only [List.cons_append, List.append_assoc, List.nil_append]
    rw [readValue_object (hfirst.append _) hread, ofFields_some]

/-- A plain value is read off the front of any text that starts with its own. -/
theorem Plain.reads {room : Nat} {j : Json} (h : Plain room j) : Reads j := by
  induction h with
  | null => exact reads_of_step (@Plain.null 0).opens fun fuel rest _ _ => rfl
  | bool b =>
    refine reads_of_step (@Plain.bool 0 b).opens fun fuel rest _ _ => ?_
    cases b <;> rfl
  | int hlow hhigh =>
    refine reads_of_step (@Plain.int 0 _ hlow hhigh).opens fun fuel rest _ hrest => ?_
    obtain ⟨c, s, hs, hc⟩ := exists_ofInt_eq _
    have hnumber := readNumber_ofInt hlow hhigh hrest
    rw [hs] at hnumber
    rw [encode, hs, List.cons_append, readValue_number hc, ← List.cons_append, hnumber]
  | text s =>
    refine reads_of_step (@Plain.text 0 s).opens fun fuel rest _ _ => ?_
    simp only [encode, encodeText, List.cons_append, List.append_assoc, List.nil_append, readValue,
      skipBlanks_cons (c := '"') rfl, readText_escape, Option.bind_eq_bind, Option.bind_some,
      Option.map_some, Option.getD_some]
  | array _ hitems ih => exact reads_array (fun j hj => (hitems j hj).opens) ih
  | object _ _ ih => exact reads_object ih

/-- The text of a plain value is read as the value. -/
theorem Plain.ofText?_render {room : Nat} {j : Json} (h : Plain room j) :
    ofText? j.render = some j := by
  have hread := h.reads (2 * j.encode.length + 2) [] (Nat.le_add_right _ 2) Stops.nil
  rw [List.append_nil] at hread
  rw [ofText?, render, String.toList_ofList, ofChars?, hread]
  rfl

end Values

section Room

variable {room : Nat}

theorem isSome_canonicalItems {items : List Json}
    (hitems : ∀ j ∈ items, (canonicalIn room j).isSome = true) :
    (canonicalItems room items).isSome = true := by
  induction items with
  | nil => rfl
  | cons item items ih =>
    obtain ⟨first, hfirst⟩ := Option.isSome_iff_exists.mp (hitems item List.mem_cons_self)
    obtain ⟨others, hothers⟩ :=
      Option.isSome_iff_exists.mp (ih fun j hj => hitems j (List.mem_cons_of_mem _ hj))
    simp only [canonicalItems, hfirst, hothers, Option.bind_eq_bind, Option.bind_some,
      Option.isSome_some]

theorem isSome_canonicalFields {fields : List (String × Json)}
    (hfields : ∀ f ∈ fields, (canonicalIn room f.2).isSome = true) :
    (canonicalFields room fields).isSome = true := by
  induction fields with
  | nil => rfl
  | cons f fields ih =>
    obtain ⟨first, hfirst⟩ := Option.isSome_iff_exists.mp (hfields f List.mem_cons_self)
    obtain ⟨others, hothers⟩ :=
      Option.isSome_iff_exists.mp (ih fun f hf => hfields f (List.mem_cons_of_mem _ hf))
    simp only [canonicalFields, hfirst, hothers, Option.bind_eq_bind, Option.bind_some,
      Option.isSome_some]

theorem Plain.isSome_canonicalIn {j : Json} (h : Plain room j) :
    (canonicalIn room j).isSome = true := by
  induction h with
  | null => rfl
  | bool _ => rfl
  | int _ _ => rfl
  | text _ => rfl
  | array hroom _ ih =>
    rw [canonicalIn, if_neg (Nat.not_le_of_lt hroom), Option.isSome_map]
    exact isSome_canonicalItems ih
  | object hroom _ ih =>
    rw [canonicalIn, if_neg (Nat.not_le_of_lt hroom), Option.isSome_map]
    exact isSome_canonicalFields ih

/-- A plain value with no more nesting than text may have is readable. -/
theorem Plain.isReadable {j : Json} (h : Plain Json.room j) : j.isReadable = true :=
  h.isSome_canonicalIn

end Room

end MarketFeed.Json
