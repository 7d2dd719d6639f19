import MarketFeed.Market.Book

/-!
The size at a price, read off what was done to one side of a book. Prices count by value: what an
entry does, it does to every price equal to its own, however either is written. Of several entries
for one price the last decides.
-/
namespace MarketFeed.Market

open Number

namespace Level

/-- The level of a price, whichever way the price is written. -/
def levelAt (price : Decimal) (levels : List Level) : Option Level :=
  levels.find? fun l => l.price.units = price.units

/-- The last level of a list whose price equals a given one in value. -/
def last? (price : Decimal) (levels : List Level) : Option Level :=
  levels.reverse.find? fun l => l.price.units = price.units

/-- The size that an entry gives its price; size zero takes the level away. -/
def sizeSet (l : Level) : Option Decimal := if l.size.isZero then none else some l.size

/-- The levels of a list that have a size. -/
def sized (levels : List Level) : List Level := levels.filter fun l => !l.size.isZero

/-- The size of a price after a snapshot and changes of it: the last change decides, and where there
is none, the last entry of the snapshot that has a size. -/
def sizeGiven (price : Decimal) (snapshot changes : List Level) : Option Decimal :=
  match last? price changes with
  | some l => l.sizeSet
  | none => (last? price (sized snapshot)).map (·.size)

variable (price : Decimal)

theorem sizeAt_eq_map_levelAt (levels : List Level) :
    sizeAt price levels = (levelAt price levels).map (·.size) := rfl

theorem last?_cons (l : Level) (rest : List Level) :
    last? price (l :: rest) =
      (last? price rest).or (if l.price.units = price.units then some l else none) := by
  rw [last?, List.reverse_cons, List.find?_append]
  by_cases h : l.price.units = price.units
  · simp [last?, h]
  · simp [last?, h]

/-- Placing a level sets the size at its price and at no other. The list need not be in order. -/
theorem sizeAt_place (side : Side) (merge : Level → Level → Level) (new : Level)
    (hsize : ∀ old, (merge old new).size = new.size)
    (hprice : ∀ old, old.price.units = new.price.units →
      (merge old new).price.units = new.price.units) (levels : List Level) :
    sizeAt price (place side merge new levels) =
      if new.price.units = price.units then some new.size else sizeAt price levels := by
  induction levels with
  | nil =>
    by_cases h : new.price.units = price.units
    · simp [place, sizeAt, h]
    · simp [place, sizeAt, h]
  | cons old rest ih =>
    unfold place
    split
    · next heq =>
      have hmerged := hprice old heq.symm
      by_cases h : new.price.units = price.units
      · simp [sizeAt, hmerged, h, hsize]
      · have hold : old.price.units ≠ price.units := by omega
        simp [sizeAt, hmerged, h, hold]
    · next hne =>
      split
      · by_cases h : new.price.units = price.units
        · simp [sizeAt, h]
        · simp [sizeAt, h]
      · by_cases hold : old.price.units = price.units
        · have h : new.price.units ≠ price.units := by omega
          simp [sizeAt, hold, h]
        · simpa [sizeAt, hold] using ih

theorem sizeAt_put (side : Side) (new : Level) (levels : List Level) :
    sizeAt price (put side new levels) =
      if new.price.units = price.units then some new.size else sizeAt price levels :=
  sizeAt_place price side _ new (fun _ => rfl) (fun _ _ => rfl) levels

theorem sizeAt_resize (side : Side) (new : Level) (levels : List Level) :
    sizeAt price (resize side new levels) =
      if new.price.units = price.units then some new.size else sizeAt price levels :=
  sizeAt_place price side _ new (fun _ => rfl) (fun _ h => h) levels

theorem levelAt_remove (other : Decimal) (levels : List Level) :
    levelAt price (remove other levels) =
      if other.units = price.units then none else levelAt price levels := by
  induction levels with
  | nil => simp [remove, levelAt]
  | cons l rest ih =>
    by_cases hl : l.price.units = other.units
    · have hdropped : remove other (l :: rest) = remove other rest := by simp [remove, hl]
      by_cases h : other.units = price.units
      · simpa [hdropped, h] using ih
      · have hne : l.price.units ≠ price.units := by omega
        simpa [hdropped, h, levelAt, hne] using ih
    · have hkept : remove other (l :: rest) = l :: remove other rest := by simp [remove, hl]
      by_cases h : l.price.units = price.units
      · have hne : other.units ≠ price.units := by omega
        simp [hkept, levelAt, h, hne]
      · simpa [hkept, levelAt, h] using ih

theorem sizeAt_remove (other : Decimal) (levels : List Level) :
    sizeAt price (remove other levels) =
      if other.units = price.units then none else sizeAt price levels := by
  rw [sizeAt_eq_map_levelAt, levelAt_remove, sizeAt_eq_map_levelAt]
  split <;> rfl

theorem sizeAt_apply (side : Side) (l : Level) (levels : List Level) :
    sizeAt price (apply side l levels) =
      if l.price.units = price.units then l.sizeSet else sizeAt price levels := by
  unfold apply sizeSet
  split
  · exact sizeAt_remove price l.price levels
  · exact sizeAt_resize price side l levels

theorem sizeAt_foldl_put (side : Side) (levels kept : List Level) :
    sizeAt price (levels.foldl (fun kept l => put side l kept) kept) =
      ((last? price levels).map (·.size)).or (sizeAt price kept) := by
  induction levels generalizing kept with
  | nil => rfl
  | cons l rest ih =>
    rw [List.foldl_cons, ih, sizeAt_put, last?_cons]
    cases last? price rest with
    | some last => rfl
    | none =>
      by_cases h : l.price.units = price.units
      · simp [h]
      · simp [h]

theorem sizeAt_collect (side : Side) (levels : List Level) :
    sizeAt price (collect side levels) = (last? price (sized levels)).map (·.size) := by
  have h := sizeAt_foldl_put price side (sized levels) []
  rw [show sizeAt price [] = none from rfl, Option.or_none] at h
  exact h

/-- After entries one by one, the last entry for a price decides. -/
theorem sizeAt_foldl_apply (side : Side) (entries levels : List Level) :
    sizeAt price (entries.foldl (fun levels l => apply side l levels) levels) =
      match last? price entries with
      | some l => l.sizeSet
      | none => sizeAt price levels := by
  induction entries generalizing levels with
  | nil => rfl
  | cons l rest ih =>
    rw [List.foldl_cons, ih, sizeAt_apply, last?_cons]
    cases last? price rest with
    | some last => rfl
    | none =>
      by_cases h : l.price.units = price.units
      · simp [h]
      · simp [h]

/-- What a snapshot and entries after it leave at a price. -/
theorem sizeAt_foldl_apply_collect (side : Side) (snapshot entries : List Level) :
    sizeAt price (entries.foldl (fun levels l => apply side l levels) (collect side snapshot)) =
      sizeGiven price snapshot entries := by
  rw [sizeAt_foldl_apply, sizeAt_collect]
  rfl

end Level

/-- The one of two things that belongs to a side. -/
def Side.pick {α : Type} (side : Side) (bid ask : α) : α :=
  match side with
  | .bid => bid
  | .ask => ask

/-- The entries of one side among changes, in their order. -/
def onSide (side : Side) (changes : List Change) : List Level :=
  (changes.filter fun c => c.side = side).map (·.level)

theorem onSide_append (side : Side) (changes more : List Change) :
    onSide side (changes ++ more) = onSide side changes ++ onSide side more := by
  simp [onSide]

theorem onSide_map_mk (side other : Side) (levels : List Level) :
    onSide side (levels.map (Change.mk other)) = if other = side then levels else [] := by
  by_cases h : other = side
  · simp [onSide, h, List.filter_map, Function.comp_def]
  · simp [onSide, h, List.filter_map, Function.comp_def]

namespace Delta

/-- A delta keeps the changes of each side in their order. -/
theorem levels_ofChanges (changes : List Change) (side : Side) :
    (ofChanges changes).levels side = onSide side changes := by
  have hfold : ∀ d : Delta, (changes.foldl push d).levels side =
      d.levels side ++ onSide side changes := by
    induction changes with
    | nil =>
      intro d
      simp [onSide]
    | cons c rest ih =>
      intro d
      rw [List.foldl_cons, ih, levels_push]
      by_cases h : c.side = side
      · simp [onSide, h]
      · simp [onSide, h]
  have hempty : ({} : Delta).levels side = [] := by cases side <;> rfl
  rw [ofChanges, hfold, hempty, List.nil_append]

theorem onSide_changes (d : Delta) (side : Side) : onSide side d.changes = d.levels side := by
  rw [changes, onSide_append, onSide_map_mk, onSide_map_mk]
  cases side with
  | bid => exact List.append_nil d.bid
  | ask => exact List.nil_append d.ask

theorem eq_of_levels {d e : Delta} (hlevels : ∀ side, d.levels side = e.levels side) : d = e := by
  have hbid : d.bid = e.bid := hlevels .bid
  have hask : d.ask = e.ask := hlevels .ask
  cases d
  cases e
  simp_all

theorem ofChanges_changes (d : Delta) : ofChanges d.changes = d :=
  eq_of_levels fun side => by rw [levels_ofChanges, onSide_changes]

end Delta

namespace Book

theorem eq_of_levels {b c : Book} (hsymbol : b.symbol = c.symbol)
    (hlevels : ∀ side, b.levels side = c.levels side) : b = c := by
  have hbid : b.bids = c.bids := hlevels .bid
  have hask : b.asks = c.asks := hlevels .ask
  cases b
  cases c
  simp_all

theorem levels_replace (b : Book) (bids asks : List Level) (side : Side) :
    (b.replace bids asks).levels side = Level.collect side (side.pick bids asks) := by
  cases side <;> rfl

theorem symbol_applyAll (b : Book) (changes : List Change) :
    (b.applyAll changes).symbol = b.symbol := by
  induction changes generalizing b with
  | nil => rfl
  | cons c rest ih =>
    have hstep : (b.apply c).symbol = b.symbol := by
      unfold apply
      split <;> rfl
    exact (ih (b.apply c)).trans hstep

/-- Changes act on each side by the entries of that side alone. -/
theorem levels_applyAll (b : Book) (changes : List Change) (side : Side) :
    (b.applyAll changes).levels side =
      (onSide side changes).foldl (fun levels l => Level.apply side l levels)
        (b.levels side) := by
  induction changes generalizing b with
  | nil => rfl
  | cons c rest ih =>
    have htail := ih (b.apply c)
    rw [levels_apply] at htail
    by_cases h : c.side = side
    · simpa [onSide, applyAll, h] using htail
    · simpa [onSide, applyAll, h] using htail

/-- To replay what a book reported is to do what it did, level for level. -/
theorem replay_ofChanges (b : Book) (changes : List Change) :
    b.replay (Delta.ofChanges changes) = b.applyAll changes := by
  refine eq_of_levels ?_ fun side => ?_
  · rw [replay, symbol_applyAll, symbol_applyAll]
  · rw [replay, levels_applyAll, levels_applyAll, Delta.onSide_changes, Delta.levels_ofChanges]

end Book

end MarketFeed.Market
