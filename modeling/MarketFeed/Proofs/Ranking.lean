import Mathlib
import MarketFeed.Proofs.Levels

/-!
The order of a book. On each side the levels stand best first, no two of them at prices of equal
value, and every one has a size. Each operation keeps this, so it holds of all books that operations
build from an empty one, and what a book tells of itself follows from it.
-/
namespace MarketFeed.Market

open Number

theorem isZero_iff_units (d : Decimal) : d.isZero = true ↔ d.units = 0 := by
  have htens : ∀ zeros, (Digits.tens zeros : Int) ≠ 0 := by
    intro zeros
    induction zeros with
    | zero => decide
    | succ zeros ih =>
      simp only [Digits.tens]
      omega
  rw [Decimal.units, Int.mul_eq_zero, or_iff_left (htens _)]
  exact beq_iff_eq

namespace Side

/-- Where a price stands on a side: the lower its rank, the better the price. -/
def rank : Side → Decimal → Int
  | .bid, p => -p.units
  | .ask, p => p.units

theorem better_iff_rank (side : Side) (p q : Decimal) :
    side.better p q = true ↔ side.rank p < side.rank q := by
  cases side with
  | bid => simp [better, rank]
  | ask => simp [better, rank]

theorem rank_eq_iff (side : Side) (p q : Decimal) :
    side.rank p = side.rank q ↔ p.units = q.units := by
  cases side with
  | bid => simp [rank]
  | ask => simp [rank]

end Side

namespace Level

variable {side : Side} {levels : List Level}

/-- Levels that stand best first and all have a size. -/
structure Ranked (side : Side) (levels : List Level) : Prop where
  sized : ∀ l ∈ levels, l.size.isZero = false
  better : levels.Pairwise fun l m => side.rank l.price < side.rank m.price

theorem ranked_nil (side : Side) : Ranked side [] where
  sized l h := by cases h
  better := .nil

theorem Ranked.tail {l : Level} (h : Ranked side (l :: levels)) : Ranked side levels where
  sized m hm := h.sized m (List.mem_cons_of_mem _ hm)
  better := h.better.of_cons

theorem Ranked.filter (h : Ranked side levels) (p : Level → Bool) :
    Ranked side (levels.filter p) where
  sized l hl := h.sized l (List.mem_of_mem_filter hl)
  better := h.better.filter p

theorem mem_place {merge : Level → Level → Level} {new l : Level}
    (h : l ∈ place side merge new levels) :
    l = new ∨ l ∈ levels ∨
      ∃ old ∈ levels, old.price.units = new.price.units ∧ l = merge old new := by
  induction levels with
  | nil => simpa [place] using h
  | cons old rest ih =>
    unfold place at h
    split at h
    · next heq =>
      rcases List.mem_cons.mp h with rfl | hrest
      · exact Or.inr (Or.inr ⟨old, List.mem_cons_self, heq.symm, rfl⟩)
      · exact Or.inr (Or.inl (List.mem_cons_of_mem _ hrest))
    · split at h
      · rcases List.mem_cons.mp h with rfl | hold
        · exact Or.inl rfl
        · exact Or.inr (Or.inl hold)
      · rcases List.mem_cons.mp h with rfl | hplaced
        · exact Or.inr (Or.inl List.mem_cons_self)
        · rcases ih hplaced with hnew | hrest | ⟨other, hother, heq, hmerged⟩
          · exact Or.inl hnew
          · exact Or.inr (Or.inl (List.mem_cons_of_mem _ hrest))
          · exact Or.inr (Or.inr ⟨other, List.mem_cons_of_mem _ hother, heq, hmerged⟩)

/-- A level that has a size is placed in the order of the side. -/
theorem Ranked.place {merge : Level → Level → Level} {new : Level} (h : Ranked side levels)
    (hsized : new.size.isZero = false) (hsize : ∀ old, (merge old new).size = new.size)
    (hprice : ∀ old, old.price.units = new.price.units →
      (merge old new).price.units = new.price.units) :
    Ranked side (place side merge new levels) := by
  constructor
  · intro l hl
    rcases mem_place hl with rfl | hkept | ⟨old, -, -, rfl⟩
    · exact hsized
    · exact h.sized l hkept
    · rw [hsize]
      exact hsized
  · have hmerged : ∀ old, old.price.units = new.price.units →
        side.rank (merge old new).price = side.rank new.price := fun old heq =>
      (side.rank_eq_iff _ _).mpr (hprice old heq)
    obtain ⟨-, hbetter⟩ := h
    induction levels with
    | nil => simp [Level.place]
    | cons old rest ih =>
      obtain ⟨hold, hrest⟩ := List.pairwise_cons.mp hbetter
      unfold Level.place
      split
      · next heq =>
        have hsame := (side.rank_eq_iff new.price old.price).mpr heq
        refine List.pairwise_cons.mpr ⟨fun l hl => ?_, hrest⟩
        have := hold l hl
        rw [hmerged old heq.symm]
        omega
      · next hne =>
        have hrank : side.rank new.price ≠ side.rank old.price := fun h =>
          hne ((side.rank_eq_iff _ _).mp h)
        split
        · next hbest =>
          have hfront := (side.better_iff_rank _ _).mp hbest
          refine List.pairwise_cons.mpr ⟨fun l hl => ?_, hbetter⟩
          rcases List.mem_cons.mp hl with rfl | hl
          · exact hfront
          · have := hold l hl
            omega
        · next hworse =>
          have hbehind : side.rank old.price < side.rank new.price := by
            have := mt (side.better_iff_rank new.price old.price).mpr hworse
            omega
          refine List.pairwise_cons.mpr ⟨fun l hl => ?_, ih hrest⟩
          rcases mem_place hl with rfl | hl | ⟨other, -, heq, rfl⟩
          · exact hbehind
          · exact hold l hl
          · rw [hmerged other heq]
            exact hbehind

theorem Ranked.put {new : Level} (h : Ranked side levels) (hsized : new.size.isZero = false) :
    Ranked side (put side new levels) :=
  h.place hsized (fun _ => rfl) fun _ _ => rfl

theorem Ranked.apply (h : Ranked side levels) (l : Level) : Ranked side (apply side l levels) := by
  unfold Level.apply
  split
  · exact h.filter _
  · next hsized => exact h.place (by simpa using hsized) (fun _ => rfl) fun _ heq => heq

theorem Ranked.foldl_apply (h : Ranked side levels) (entries : List Level) :
    Ranked side (entries.foldl (fun levels l => Level.apply side l levels) levels) := by
  induction entries generalizing levels with
  | nil => exact h
  | cons l rest ih => exact ih (h.apply l)

theorem ranked_collect (side : Side) (levels : List Level) : Ranked side (collect side levels) := by
  have hfold : ∀ (new kept : List Level), (∀ l ∈ new, l.size.isZero = false) →
      Ranked side kept → Ranked side (new.foldl (fun kept l => put side l kept) kept) := by
    intro new
    induction new with
    | nil => exact fun kept _ h => h
    | cons l rest ih =>
      intro kept hsized h
      exact ih _ (fun m hm => hsized m (List.mem_cons_of_mem _ hm))
        (h.put (hsized l List.mem_cons_self))
  refine hfold _ [] (fun l hl => ?_) (ranked_nil side)
  simpa using (List.mem_filter.mp hl).2

theorem Ranked.distinct (h : Ranked side levels) :
    levels.Pairwise fun l m => l.price.units ≠ m.price.units := by
  refine h.better.imp fun {l m} hlt heq => ?_
  have hsame := (side.rank_eq_iff l.price m.price).mpr heq
  omega

/-- There is at most one level for all prices of one value. -/
theorem Ranked.eq_of_units (h : Ranked side levels) {l m : Level} (hl : l ∈ levels)
    (hm : m ∈ levels) (heq : l.price.units = m.price.units) : l = m := by
  by_contra hne
  have hsymm : Std.Symm fun l m : Level => l.price.units ≠ m.price.units := ⟨fun _ _ h => h.symm⟩
  exact h.distinct.forall hl hm hne heq

theorem Ranked.levelAt_eq_some_iff (h : Ranked side levels) {price : Decimal} {l : Level} :
    levelAt price levels = some l ↔ l ∈ levels ∧ l.price.units = price.units := by
  constructor
  · intro hfound
    exact ⟨List.mem_of_find?_eq_some hfound, by simpa using List.find?_some hfound⟩
  · rintro ⟨hl, hprice⟩
    cases hfound : levelAt price levels with
    | none =>
      have hnone := List.find?_eq_none.mp hfound l hl
      simp [hprice] at hnone
    | some m =>
      have hm : m.price.units = price.units := by simpa using List.find?_some hfound
      rw [h.eq_of_units (List.mem_of_find?_eq_some hfound) hl (hm.trans hprice.symm)]

/-- Levels of a side that agree at every price are the same levels. -/
theorem Ranked.eq_of_levelAt {others : List Level} (h : Ranked side levels)
    (hothers : Ranked side others) (hat : ∀ price, levelAt price levels = levelAt price others) :
    levels = others := by
  have hanti : Std.Antisymm fun l m : Level => side.rank l.price < side.rank m.price :=
    ⟨fun _ _ hlt hgt => by omega⟩
  have hirrefl : Std.Irrefl fun l m : Level => side.rank l.price < side.rank m.price :=
    ⟨fun _ => lt_irrefl _⟩
  refine List.Pairwise.eq_of_mem_iff h.better hothers.better fun l => ?_
  calc l ∈ levels ↔ levelAt l.price levels = some l := by simp [h.levelAt_eq_some_iff]
    _ ↔ levelAt l.price others = some l := by rw [hat]
    _ ↔ l ∈ others := by simp [hothers.levelAt_eq_some_iff]

/-- The first level is the one whose price none is better than. -/
theorem Ranked.head?_eq_some_iff (h : Ranked side levels) {l : Level} :
    levels.head? = some l ↔
      l ∈ levels ∧ ∀ m ∈ levels, side.rank l.price ≤ side.rank m.price := by
  cases levels with
  | nil => simp
  | cons first rest =>
    obtain ⟨hbehind, -⟩ := List.pairwise_cons.mp h.better
    constructor
    · intro hfirst
      cases hfirst
      refine ⟨List.mem_cons_self, fun m hm => ?_⟩
      rcases List.mem_cons.mp hm with rfl | hrest
      · exact le_refl _
      · exact (hbehind m hrest).le
    · rintro ⟨hl, hbest⟩
      rcases List.mem_cons.mp hl with rfl | hrest
      · rfl
      · have := hbehind l hrest
        have := hbest first List.mem_cons_self
        omega

end Level

/-- An operation on a book: both sides given anew, one change, a batch of changes, or a delta that
another book reported. -/
inductive Operation where
  | replace (bids asks : List Level)
  | apply (c : Change)
  | update (changes : List Change)
  | replay (d : Delta)

namespace Book

def perform (b : Book) : Operation → Book
  | .replace bids asks => b.replace bids asks
  | .apply c => b.apply c
  | .update changes => (b.update changes).1
  | .replay d => b.replay d

def performAll (b : Book) (operations : List Operation) : Book := operations.foldl perform b

/-- Whether both sides of a book are in their order. -/
def Ranked (b : Book) : Prop := ∀ side, Level.Ranked side (b.levels side)

theorem ranked_empty (symbol : String) : ({ symbol } : Book).Ranked := by
  intro side
  cases side with
  | bid => exact Level.ranked_nil .bid
  | ask => exact Level.ranked_nil .ask

theorem Ranked.applyAll {b : Book} (h : b.Ranked) (changes : List Change) :
    (b.applyAll changes).Ranked := by
  intro side
  rw [levels_applyAll]
  exact (h side).foldl_apply _

theorem Ranked.perform {b : Book} (h : b.Ranked) (operation : Operation) :
    (b.perform operation).Ranked := by
  cases operation with
  | replace bids asks =>
    intro side
    rw [Book.perform, levels_replace]
    exact Level.ranked_collect side _
  | apply c => exact h.applyAll [c]
  | update changes => exact h.applyAll changes
  | replay d => exact h.applyAll d.changes

theorem Ranked.performAll {b : Book} (h : b.Ranked) (operations : List Operation) :
    (b.performAll operations).Ranked := by
  induction operations generalizing b with
  | nil => exact h
  | cons operation rest ih => exact ih (h.perform operation)

/-- What can be relied on in a book: the order of its levels, and that what it tells of itself is
what its levels say. Prices are compared by value. -/
structure InOrder (b : Book) : Prop where
  sized : ∀ side, ∀ l ∈ b.levels side, l.size.units ≠ 0
  distinct : ∀ side, (b.levels side).Pairwise fun l m => l.price.units ≠ m.price.units
  bids_descend : (b.levels .bid).Pairwise fun l m => m.price.units < l.price.units
  asks_ascend : (b.levels .ask).Pairwise fun l m => l.price.units < m.price.units
  best_bid : ∀ l, b.best .bid = some l ↔
    l ∈ b.levels .bid ∧ ∀ m ∈ b.levels .bid, m.price.units ≤ l.price.units
  best_ask : ∀ l, b.best .ask = some l ↔
    l ∈ b.levels .ask ∧ ∀ m ∈ b.levels .ask, l.price.units ≤ m.price.units
  best_none : ∀ side, b.best side = none ↔ b.levels side = []
  depth : ∀ side, b.depth side = (b.levels side).length
  sizeAt : ∀ side price size, b.sizeAt side price = some size ↔
    ∃ l ∈ b.levels side, l.price.units = price.units ∧ l.size = size
  isEmpty : b.isEmpty = true ↔ ∀ side, b.levels side = []

/-- Whatever operations built a book, its levels are in order, and it tells of itself what they
say. -/
theorem performAll_inOrder (symbol : String) (operations : List Operation) :
    (({ symbol } : Book).performAll operations).InOrder := by
  have h := (ranked_empty symbol).performAll operations
  generalize ({ symbol } : Book).performAll operations = b at h
  refine ⟨fun side l hl => ?_, fun side => (h side).distinct, ?_, (h .ask).better, fun l => ?_,
    fun l => (h .ask).head?_eq_some_iff, fun side => ?_, fun side => rfl, fun side price size => ?_,
    ?_⟩
  · rw [ne_eq, ← isZero_iff_units, (h side).sized l hl]
    exact Bool.false_ne_true
  · exact (h .bid).better.imp fun hlt => neg_lt_neg_iff.mp hlt
  · have hbest := (h .bid).head?_eq_some_iff (l := l)
    simp only [Side.rank, neg_le_neg_iff] at hbest
    exact hbest
  · exact List.head?_eq_none_iff
  · rw [Book.sizeAt, Level.sizeAt_eq_map_levelAt, Option.map_eq_some_iff]
    simp only [(h side).levelAt_eq_some_iff, and_assoc]
  · constructor
    · intro hempty side
      obtain ⟨hbids, hasks⟩ := Bool.and_eq_true_iff.mp hempty
      cases side with
      | bid => exact List.isEmpty_iff.mp hbids
      | ask => exact List.isEmpty_iff.mp hasks
    · intro hempty
      exact Bool.and_eq_true_iff.mpr
        ⟨List.isEmpty_iff.mpr (hempty .bid), List.isEmpty_iff.mpr (hempty .ask)⟩

end Book

end MarketFeed.Market
