import Mathlib.Data.List.Forall2

/-!
Lists read element by element. Reading a list succeeds exactly if reading each element does, and
the results are those of the elements in their order. A list that grows at its end keeps its places.
-/
namespace MarketFeed

variable {α β ε : Type} {R : α → β → Prop}

theorem forall_of_forall₂ {p : β → Prop} {l : List α} {m : List β} (h : List.Forall₂ R l m)
    (hp : ∀ a b, R a b → p b) : ∀ b ∈ m, p b := by
  induction h with
  | nil => exact fun _ hb => absurd hb List.not_mem_nil
  | cons hab _ ih => exact List.forall_mem_cons.mpr ⟨hp _ _ hab, ih⟩

theorem exists_of_forall₂_mem {l : List α} {m : List β} (h : List.Forall₂ R l m) {a : α}
    (ha : a ∈ l) : ∃ b ∈ m, R a b := by
  induction h with
  | nil => cases ha
  | cons hab _ ih =>
    rcases List.mem_cons.mp ha with rfl | ha
    · exact ⟨_, List.mem_cons_self, hab⟩
    · obtain ⟨b, hb, hab⟩ := ih ha
      exact ⟨b, List.mem_cons_of_mem _ hb, hab⟩

theorem forall₂_congr {S : α → β → Prop} {l : List α} {m : List β}
    (h : ∀ a ∈ l, ∀ b, R a b ↔ S a b) : List.Forall₂ R l m ↔ List.Forall₂ S l m := by
  induction l generalizing m with
  | nil => simp
  | cons a l ih =>
    obtain ⟨ha, hl⟩ := List.forall_mem_cons.mp h
    simp only [List.forall₂_cons_left_iff, ha, ih hl]

/-- Lists whose elements stand in a relation to the same values do so as wholes. -/
theorem forall₂_congr_left {S : α → α → Prop} (hS : ∀ a a', S a a' → ∀ b, R a b ↔ R a' b)
    {l l' : List α} (h : List.Forall₂ S l l') (m : List β) :
    List.Forall₂ R l m ↔ List.Forall₂ R l' m := by
  induction h generalizing m with
  | nil => rfl
  | cons ha _ ih => simp only [List.forall₂_cons_left_iff, hS _ _ ha, ih]

theorem forall₂_append_left_iff {l l' : List α} {m : List β} :
    List.Forall₂ R (l ++ l') m ↔
      ∃ front back, m = front ++ back ∧ List.Forall₂ R l front ∧ List.Forall₂ R l' back := by
  constructor
  · intro h
    refine ⟨m.take l.length, m.drop l.length, (List.take_append_drop _ _).symm, ?_, ?_⟩
    · simpa using List.forall₂_take l.length h
    · simpa using List.forall₂_drop l.length h
  · rintro ⟨front, back, rfl, hfront, hback⟩
    exact List.rel_append hfront hback

/-- Elements that are looked up in the same place stand in the relation, or there are none. -/
theorem rel_find? {p : α → Bool} {q : β → Bool} (hpq : ∀ a b, R a b → p a = q b) {l : List α}
    {m : List β} (h : List.Forall₂ R l m) : Option.Rel R (l.find? p) (m.find? q) := by
  induction h with
  | nil => exact Option.Rel.none
  | @cons a b l m hab _ ih =>
    rw [List.find?_cons, List.find?_cons, ← hpq a b hab]
    cases p a with
    | true => exact Option.Rel.some hab
    | false => exact ih

/-- Two relations element by element, one after the other. -/
theorem exists_forall₂_iff {γ : Type} {S : β → γ → Prop} {l : List α} {n : List γ} :
    (∃ m, List.Forall₂ R l m ∧ List.Forall₂ S m n) ↔
      List.Forall₂ (fun a c => ∃ b, R a b ∧ S b c) l n := by
  induction l generalizing n with
  | nil => simp
  | cons a l ih =>
    simp only [List.forall₂_cons_left_iff, ← ih]
    constructor
    · rintro ⟨_, ⟨b, m, hab, hl, rfl⟩, hm⟩
      obtain ⟨c, n, hbc, hn, rfl⟩ := List.forall₂_cons_left_iff.mp hm
      exact ⟨c, n, ⟨b, hab, hbc⟩, ⟨m, hl, hn⟩, rfl⟩
    · rintro ⟨c, n, ⟨b, hab, hbc⟩, ⟨m, hl, hn⟩, rfl⟩
      exact ⟨b :: m, ⟨b, m, hab, hl, rfl⟩, .cons hbc hn⟩

theorem mapM_eq_some_iff {read : α → Option β} {l : List α} {results : List β} :
    l.mapM read = some results ↔ List.Forall₂ (fun a b => read a = some b) l results := by
  induction l generalizing results with
  | nil => simp [eq_comm]
  | cons a l ih =>
    rw [List.mapM_cons, List.forall₂_cons_left_iff]
    constructor
    · intro h
      obtain ⟨b, hb, h⟩ := Option.bind_eq_some_iff.mp h
      obtain ⟨rest, hrest, h⟩ := Option.bind_eq_some_iff.mp h
      exact ⟨b, rest, hb, ih.mp hrest, (Option.some.inj h).symm⟩
    · rintro ⟨b, rest, hb, hrest, rfl⟩
      simp only [hb, ih.mpr hrest, Option.bind_eq_bind, Option.bind_some, Option.pure_def]

/-- A reader that takes each value in one form takes a list in the form of its elements. -/
theorem mapM_eq_some_iff_eq_map {read : α → Option β} {shown : β → α}
    (h : ∀ a b, read a = some b ↔ a = shown b) {l : List α} {results : List β} :
    l.mapM read = some results ↔ l = results.map shown := by
  rw [mapM_eq_some_iff, ← List.forall₂_eq_eq_eq, List.forall₂_map_right_iff]
  simp only [h]

theorem mapM_eq_ok_iff {read : α → Except ε β} {l : List α} {results : List β} :
    l.mapM read = .ok results ↔ List.Forall₂ (fun a b => read a = .ok b) l results := by
  induction l generalizing results with
  | nil => simp [pure, Except.pure, eq_comm]
  | cons a l ih =>
    rw [List.mapM_cons, List.forall₂_cons_left_iff]
    cases ha : read a with
    | error e => simp [bind, Except.bind]
    | ok b =>
      cases hl : l.mapM read with
      | error e =>
        have hnone : ∀ rest, ¬ List.Forall₂ (fun a b => read a = .ok b) l rest := by
          intro rest hrest
          rw [ih.mpr hrest] at hl
          cases hl
        simp [bind, Except.bind, hnone]
      | ok rest =>
        have hrest := ih.mp hl
        constructor
        · intro h
          exact ⟨b, rest, rfl, hrest, (Except.ok.inj h).symm⟩
        · rintro ⟨b', rest', hb, hrest', rfl⟩
          cases hb
          cases hl.symm.trans (ih.mpr hrest')
          rfl

theorem exists_mapM_eq_ok_iff {read : α → Except ε β} {l : List α} :
    (∃ results, l.mapM read = .ok results) ↔ ∀ a ∈ l, ∃ b, read a = .ok b := by
  simp only [mapM_eq_ok_iff]
  induction l with
  | nil => simp
  | cons a l ih => simp [List.forall₂_cons_left_iff, ← ih]

/-- A reader of lists fails at the first element that it cannot read, and as it does there. -/
theorem mapM_eq_error_iff {read : α → Except ε β} {l : List α} {e : ε} :
    l.mapM read = .error e ↔
      ∃ known a rest, l = known ++ a :: rest ∧ (∀ a' ∈ known, ∃ b, read a' = .ok b) ∧
        read a = .error e := by
  induction l with
  | nil => simp [pure, Except.pure]
  | cons a l ih =>
    rw [List.mapM_cons]
    cases ha : read a with
    | error e' =>
      constructor
      · intro h
        cases h
        exact ⟨[], a, l, rfl, by simp, ha⟩
      · intro ⟨known, a', rest, hl, hknown, ha'⟩
        cases known with
        | nil =>
          cases hl
          cases ha.symm.trans ha'
          rfl
        | cons first known =>
          cases hl
          obtain ⟨b, hb⟩ := hknown a List.mem_cons_self
          cases ha.symm.trans hb
    | ok b =>
      have hrest : (do let bs ← l.mapM read; pure (b :: bs)) = .error e ↔
          l.mapM read = .error e := by
        cases l.mapM read with
        | error e' => exact Iff.rfl
        | ok bs => simp [bind, Except.bind, pure, Except.pure]
      refine hrest.trans (ih.trans ?_)
      constructor
      · intro ⟨known, a', rest, hl, hknown, ha'⟩
        refine ⟨a :: known, a', rest, by rw [hl]; rfl, ?_, ha'⟩
        exact List.forall_mem_cons.mpr ⟨⟨b, ha⟩, hknown⟩
      · intro ⟨known, a', rest, hl, hknown, ha'⟩
        cases known with
        | nil =>
          cases hl
          cases ha.symm.trans ha'
        | cons first known =>
          cases hl
          exact ⟨known, a', rest, rfl, (List.forall_mem_cons.mp hknown).2, ha'⟩

/-- An element of a list with one more at its end is that one, or stood in the list before. -/
theorem split_concat {front earlier later : List α} {last x : α}
    (h : front ++ [last] = earlier ++ x :: later) :
    (later = [] ∧ front = earlier ∧ last = x) ∨
      ∃ later', later = later' ++ [last] ∧ front = earlier ++ x :: later' := by
  rcases List.eq_nil_or_concat later with rfl | ⟨later', last', rfl⟩
  · obtain ⟨hfront, hlast⟩ := List.append_inj' h rfl
    cases hlast
    exact Or.inl ⟨rfl, hfront, rfl⟩
  · have hsplit : front ++ [last] = (earlier ++ x :: later') ++ [last'] := by simpa using h
    obtain ⟨hfront, hlast⟩ := List.append_inj' hsplit rfl
    cases hlast
    exact Or.inr ⟨later', List.concat_eq_append, hfront⟩

end MarketFeed
