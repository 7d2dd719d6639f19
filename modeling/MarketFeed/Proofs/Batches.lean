import Mathlib
import MarketFeed.Proofs.Replay

/-!
Entries for one book, given one by one or a whole side at once. The last entry for a price decides
its size, so that earlier ones for the same price may be left out, and the order matters among the
entries for one price of one side alone. How a price is written is up to the entry that brought its
level. A side given at once has the levels that its entries with a size make one by one.
-/
namespace MarketFeed.Market

open Number

/-- Where a level stands on a side, by its value. -/
def Side.rankValue (side : Side) (v : Int × Int) : Int := side.pick (-v.1) v.1

theorem Side.rankValue_value (side : Side) (l : Level) :
    side.rankValue l.value = side.rank l.price := by
  cases side <;> rfl

namespace Level

variable {side : Side} {levels others : List Level}

theorem Ranked.sizeAt_eq_some_iff (h : Ranked side levels) {price size : Decimal} :
    sizeAt price levels = some size ↔
      ∃ l ∈ levels, l.price.units = price.units ∧ l.size = size := by
  rw [sizeAt_eq_map_levelAt, Option.map_eq_some_iff]
  simp only [h.levelAt_eq_some_iff, and_assoc]

/-- Levels of a side with equal sizes at every price are equal in value, in turn. -/
theorem Ranked.agree_of_sizeAt (h : Ranked side levels) (hothers : Ranked side others)
    (hat : ∀ price, sizeAt price levels = sizeAt price others) : agree levels others = true := by
  rw [agree_iff]
  have hbetter : ∀ {l : List Level}, Ranked side l →
      (l.map value).Pairwise fun v w => side.rankValue v < side.rankValue w := fun hl =>
    List.pairwise_map.mpr (by simpa only [Side.rankValue_value] using hl.better)
  have hsubset : ∀ {l m : List Level}, Ranked side l → Ranked side m →
      (∀ price, sizeAt price l = sizeAt price m) → ∀ v ∈ l.map value, v ∈ m.map value := by
    intro l m hl hm hsame v hv
    obtain ⟨x, hx, rfl⟩ := List.mem_map.mp hv
    have hfound : sizeAt x.price l = some x.size := hl.sizeAt_eq_some_iff.mpr ⟨x, hx, rfl, rfl⟩
    rw [hsame] at hfound
    obtain ⟨y, hy, hprice, hsize⟩ := hm.sizeAt_eq_some_iff.mp hfound
    exact List.mem_map.mpr ⟨y, hy, by rw [value, value, hprice, hsize]⟩
  have hanti : Std.Antisymm fun v w => side.rankValue v < side.rankValue w :=
    ⟨fun _ _ hlt hgt => absurd hlt (lt_asymm hgt)⟩
  have hirrefl : Std.Irrefl fun v w => side.rankValue v < side.rankValue w :=
    ⟨fun _ => lt_irrefl _⟩
  refine List.Pairwise.eq_of_mem_iff (hbetter h) (hbetter hothers) fun v => ?_
  exact ⟨hsubset h hothers hat v, hsubset hothers h (fun price => (hat price).symm) v⟩

theorem sizeSet_of_mem_sized {l : Level} (h : l ∈ sized levels) : l.sizeSet = some l.size := by
  have hsized : l.size.isZero = false := by simpa using (List.mem_filter.mp h).2
  rw [sizeSet, hsized]
  exact if_neg Bool.false_ne_true

/-- The levels that are collected are among those that have a size. -/
theorem mem_collect {l : Level} (h : l ∈ collect side levels) : l ∈ sized levels := by
  have hfold : ∀ new kept : List Level, l ∈ new.foldl (fun kept l => put side l kept) kept →
      l ∈ new ∨ l ∈ kept := by
    intro new
    induction new with
    | nil => exact fun kept hkept => Or.inr hkept
    | cons first rest ih =>
      intro kept hmem
      rcases ih _ hmem with hrest | hput
      · exact Or.inl (List.mem_cons_of_mem _ hrest)
      · rcases mem_place hput with rfl | hkept | ⟨-, -, -, rfl⟩
        · exact Or.inl List.mem_cons_self
        · exact Or.inr hkept
        · exact Or.inl List.mem_cons_self
  rcases hfold _ [] h with hmem | hmem
  · exact hmem
  · cases hmem

end Level

/-- Whether two changes are for one price of one side. -/
def Change.SamePlace (c d : Change) : Prop :=
  c.side = d.side ∧ c.level.price.units = d.level.price.units

instance (c d : Change) : Decidable (c.SamePlace d) := inferInstanceAs (Decidable (_ ∧ _))

/-- Changes without those that are followed by another one for the same price of the same side. -/
def latest : List Change → List Change
  | [] => []
  | c :: rest => if ∃ later ∈ rest, c.SamePlace later then latest rest else c :: latest rest

/-- The changes for one price of a side, in their order. -/
def changesAt (side : Side) (price : Decimal) (changes : List Change) : List Change :=
  changes.filter fun c => c.side = side ∧ c.level.price.units = price.units

/-- Whether changes are the same in another order, but not those for one price of one side. -/
def Reordered (changes other : List Change) : Prop :=
  ∀ side price, changesAt side price other = changesAt side price changes

theorem onSide_cons (side : Side) (c : Change) (rest : List Change) :
    onSide side (c :: rest) =
      if c.side = side then c.level :: onSide side rest else onSide side rest := by
  by_cases h : c.side = side
  · simp [onSide, h]
  · simp [onSide, h]

theorem map_level_changesAt (side : Side) (price : Decimal) (changes : List Change) :
    (changesAt side price changes).map Change.level =
      (onSide side changes).filter fun l => l.price.units = price.units := by
  rw [changesAt, onSide, List.filter_map, List.filter_filter]
  congr 2
  funext c
  simp [Bool.and_comm]

theorem last?_eq_none_iff {price : Decimal} {levels : List Level} :
    Level.last? price levels = none ↔ ∀ l ∈ levels, l.price.units ≠ price.units := by
  simp [Level.last?]

theorem last?_latest (side : Side) (price : Decimal) (changes : List Change) :
    Level.last? price (onSide side (latest changes)) =
      Level.last? price (onSide side changes) := by
  induction changes with
  | nil => rfl
  | cons c rest ih =>
    rw [latest]
    split
    · next hlater =>
      obtain ⟨later, hmem, hside, hprice⟩ := hlater
      rw [ih, onSide_cons]
      split
      · next hc =>
        rw [Level.last?_cons]
        by_cases heq : c.level.price.units = price.units
        · -- The later one stands in the place of this one.
          have hsome : Level.last? price (onSide side rest) ≠ none := by
            intro hnone
            have hlevel : later.level ∈ onSide side rest :=
              List.mem_map.mpr ⟨later, List.mem_filter.mpr ⟨hmem, by simp [← hside, hc]⟩, rfl⟩
            exact last?_eq_none_iff.mp hnone _ hlevel (hprice.symm.trans heq)
          obtain ⟨l, hl⟩ := Option.ne_none_iff_exists'.mp hsome
          rw [hl, Option.some_or]
        · rw [if_neg heq, Option.or_none]
      · rfl
    · rw [onSide_cons, onSide_cons]
      split
      · rw [Level.last?_cons, Level.last?_cons, ih]
      · exact ih

/-- Two neighbours for different prices or sides may change places. -/
theorem Reordered.swap (front : List Change) {c d : Change} (h : ¬ c.SamePlace d)
    (back : List Change) : Reordered (front ++ c :: d :: back) (front ++ d :: c :: back) := by
  intro side price
  have hapart : ¬ ((c.side = side ∧ c.level.price.units = price.units) ∧
      d.side = side ∧ d.level.price.units = price.units) := by
    rintro ⟨⟨hcside, hcprice⟩, hdside, hdprice⟩
    exact h ⟨hcside.trans hdside.symm, hcprice.trans hdprice.symm⟩
  simp only [changesAt, List.filter_append, List.filter_cons, decide_eq_true_eq]
  split
  · next hd => rw [if_neg fun hc => hapart ⟨hc, hd⟩, if_neg fun hc => hapart ⟨hc, hd⟩]
  · rfl

namespace Book

/-- Whether there is a level at a price of a side all the time that changes are applied. -/
def Stays (b : Book) (side : Side) (price : Decimal) (changes : List Change) : Prop :=
  ∀ front back, changes = front ++ back → (b.update front).1.sizeAt side price ≠ none

/-- How the price of a level comes to be written. Either the level was there before the changes and
stayed, or one of the changes brought it when it was not there, and it stayed since. -/
inductive Spelled (b : Book) (changes : List Change) (side : Side) (price : Decimal) : Prop where
  | kept (old : Level) (hold : old ∈ b.levels side) (hprice : old.price = price)
      (hstays : b.Stays side price changes)
  | brought (earlier : List Change) (c : Change) (later : List Change)
      (hchanges : changes = earlier ++ c :: later) (hside : c.side = side)
      (hprice : c.level.price = price) (habsent : (b.update earlier).1.sizeAt side price = none)
      (hstays : (b.update (earlier ++ [c])).1.Stays side price later)

theorem update_append (b : Book) (changes more : List Change) :
    (b.update (changes ++ more)).1 = ((b.update changes).1.update more).1 :=
  List.foldl_append

theorem Ranked.sizeAt_ne_none {b : Book} (h : b.Ranked) {side : Side} {l : Level}
    (hl : l ∈ b.levels side) : b.sizeAt side l.price ≠ none := by
  have hfound := (h side).sizeAt_eq_some_iff.mpr ⟨l, hl, rfl, rfl⟩
  rw [Book.sizeAt, hfound]
  exact Option.some_ne_none _

theorem Stays.concat {b : Book} {side : Side} {price : Decimal} {changes : List Change} {c : Change}
    (h : b.Stays side price changes)
    (hlast : (b.update (changes ++ [c])).1.sizeAt side price ≠ none) :
    b.Stays side price (changes ++ [c]) := by
  intro front back hsplit
  rcases List.eq_nil_or_concat back with rfl | ⟨back, last, rfl⟩
  · rw [List.append_nil] at hsplit
    rwa [← hsplit]
  · rw [List.concat_eq_append, ← List.append_assoc] at hsplit
    exact h front back (List.append_inj' hsplit rfl).1

/-- One more change leaves a price written as it was, if its level is still there. -/
theorem Spelled.concat {b : Book} {side : Side} {price : Decimal} {changes : List Change}
    {c : Change} (h : b.Spelled changes side price)
    (hlast : (b.update (changes ++ [c])).1.sizeAt side price ≠ none) :
    b.Spelled (changes ++ [c]) side price := by
  cases h with
  | kept old hold hprice hstays => exact .kept old hold hprice (hstays.concat hlast)
  | brought earlier d later hchanges hside hprice habsent hstays =>
    refine .brought earlier d (later ++ [c]) (by simp [hchanges]) hside hprice habsent ?_
    refine hstays.concat ?_
    rw [← update_append]
    simpa [hchanges] using hlast

/-- A level after a change was there before it, with its price written in the same way, or the
change brought it. -/
theorem Ranked.mem_apply {b : Book} (h : b.Ranked) (c : Change) {side : Side} {l : Level}
    (hl : l ∈ (b.apply c).levels side) :
    (∃ old ∈ b.levels side, old.price = l.price) ∨
      c.side = side ∧ c.level.price = l.price ∧ b.sizeAt side l.price = none := by
  rw [levels_apply] at hl
  split at hl
  · next hside =>
    have hfound := (((h side).apply c.level).levelAt_eq_some_iff).mpr ⟨hl, rfl⟩
    rw [(h side).levelAt_apply] at hfound
    split at hfound
    · cases hbefore : Level.levelAt l.price (b.levels side) with
      | none =>
        rw [hbefore, Level.settle] at hfound
        split at hfound
        · cases hfound
        · cases hfound
          refine Or.inr ⟨hside, rfl, ?_⟩
          rw [Book.sizeAt, Level.sizeAt_eq_map_levelAt, hbefore, Option.map_none]
      | some old =>
        rw [hbefore, Level.settle] at hfound
        split at hfound
        · cases hfound
        · cases hfound
          exact Or.inl ⟨old, ((h side).levelAt_eq_some_iff.mp hbefore).1, rfl⟩
    · exact Or.inl ⟨l, ((h side).levelAt_eq_some_iff.mp hfound).1, rfl⟩
  · exact Or.inl ⟨l, hl, rfl⟩

theorem Ranked.spelled {b : Book} (h : b.Ranked) (changes : List Change) {side : Side} {l : Level}
    (hl : l ∈ (b.update changes).1.levels side) : b.Spelled changes side l.price := by
  induction changes using List.reverseRecOn generalizing l with
  | nil =>
    refine .kept l hl rfl fun front back hsplit => ?_
    obtain ⟨rfl, rfl⟩ := List.append_eq_nil_iff.mp hsplit.symm
    exact h.sizeAt_ne_none hl
  | append_singleton changes c ih =>
    have hbefore : (b.update changes).1.Ranked := h.applyAll changes
    have hlast : (b.update (changes ++ [c])).1.sizeAt side l.price ≠ none :=
      Ranked.sizeAt_ne_none (h.applyAll _) hl
    rw [update_append] at hl
    rcases hbefore.mem_apply c hl with ⟨old, hold, hprice⟩ | ⟨hside, hprice, habsent⟩
    · rw [← hprice] at hlast ⊢
      exact (ih hold).concat hlast
    · refine .brought changes c [] rfl hside hprice habsent fun front back hsplit => ?_
      obtain ⟨rfl, rfl⟩ := List.append_eq_nil_iff.mp hsplit.symm
      exact hlast

theorem levels_update (b : Book) (changes : List Change) (side : Side) :
    (b.update changes).1.levels side =
      (onSide side changes).foldl (fun levels l => Level.apply side l levels) (b.levels side) :=
  b.levels_applyAll changes side

theorem sizeAt_update (b : Book) (changes : List Change) (side : Side) (price : Decimal) :
    (b.update changes).1.sizeAt side price =
      match Level.last? price (onSide side changes) with
      | some l => l.sizeSet
      | none => b.sizeAt side price := by
  rw [Book.sizeAt, levels_update, Level.sizeAt_foldl_apply]
  rfl

theorem Ranked.sameLevels_of_sizeAt {a b : Book} (ha : a.Ranked) (hb : b.Ranked)
    (hat : ∀ side price, a.sizeAt side price = b.sizeAt side price) : a.SameLevels b := fun side =>
  (ha side).agree_of_sizeAt (hb side) (hat side)

theorem Ranked.update_latest {b : Book} (h : b.Ranked) (changes : List Change) :
    (b.update (latest changes)).1.SameLevels (b.update changes).1 := by
  refine Ranked.sameLevels_of_sizeAt (h.applyAll _) (h.applyAll _) fun side price => ?_
  rw [sizeAt_update, sizeAt_update, last?_latest]

/-- Where the changes for each price stay in their order, the levels come out the same, the spelling
of their prices too. -/
theorem Ranked.update_reordered {b : Book} (h : b.Ranked) {changes other : List Change}
    (hother : Reordered changes other) : (b.update other).1 = (b.update changes).1 := by
  refine eq_of_levels ?_ fun side => ?_
  · exact (symbol_applyAll b other).trans (symbol_applyAll b changes).symm
  · refine Level.Ranked.eq_of_levelAt (h.applyAll _ side) (h.applyAll _ side) fun price => ?_
    rw [levels_update, levels_update, (h side).levelAt_foldl_apply,
      (h side).levelAt_foldl_apply, ← map_level_changesAt, ← map_level_changesAt, hother side price]

/-- After a batch the size at a price is up to the last entry for it on the side, whichever way the
prices are written, and is what it was if there is none. The price of a level is written as before,
if the level was there all along, and else as by the entry that brought it when it was last absent.
So entries that are followed by another one for the same price may be left out, and entries for
different prices or sides may come in any order. -/
theorem last_entry_decides {b : Book} (hb : b.Built) (changes : List Change) :
    (∀ side price, (b.update changes).1.sizeAt side price =
      match Level.last? price (onSide side changes) with
      | some l => if l.size.isZero then none else some l.size
      | none => b.sizeAt side price) ∧
    (∀ side, ∀ l ∈ (b.update changes).1.levels side, b.Spelled changes side l.price) ∧
    (b.update (latest changes)).1.SameLevels (b.update changes).1 ∧
    ∀ other, Reordered changes other → (b.update other).1 = (b.update changes).1 :=
  ⟨b.sizeAt_update changes, fun _ _ hl => hb.ranked.spelled changes hl,
    hb.ranked.update_latest changes, fun _ hother => hb.ranked.update_reordered hother⟩

/-- The bid goes away and is brought back in another spelling, around a change of the ask. -/
theorem last_entry_decides_respelled :
    let changes : List Change :=
      [⟨.bid, levelOf 1 0 0⟩, ⟨.bid, levelOf 1000 3 5⟩, ⟨.ask, levelOf 2 0 0⟩,
        ⟨.bid, levelOf 1 0 4⟩]
    let other : List Change :=
      [⟨.bid, levelOf 1 0 0⟩, ⟨.ask, levelOf 2 0 0⟩, ⟨.bid, levelOf 1000 3 5⟩,
        ⟨.bid, levelOf 1 0 4⟩]
    spelled.Built ∧
      (spelled.update changes).1.sizeAt .bid (levelOf 10 1 0).price = some (levelOf 0 0 4).size ∧
      levelOf 1000 3 4 ∈ (spelled.update changes).1.levels .bid ∧
      spelled.Spelled changes .bid (levelOf 1000 3 4).price ∧
      Reordered changes other ∧ (spelled.update other).1 = (spelled.update changes).1 := by
  intro changes other
  have hspelled : spelled.Built := ⟨"BTC-USD", _, rfl⟩
  obtain ⟨hsize, hprice, -, horder⟩ := last_entry_decides hspelled changes
  have hlevel : levelOf 1000 3 4 ∈ (spelled.update changes).1.levels .bid := by decide
  have hother : Reordered changes other := Reordered.swap [_] (by decide) [_]
  exact ⟨hspelled, (hsize .bid _).trans (by decide), hlevel, hprice .bid _ hlevel, hother,
    horder other hother⟩

theorem sizeAt_replace (b : Book) (bids asks : List Level) (side : Side) (price : Decimal) :
    (b.replace bids asks).sizeAt side price =
      (Level.last? price (Level.sized (side.pick bids asks))).map (·.size) := by
  rw [Book.sizeAt, levels_replace, Level.sizeAt_collect]

theorem ranked_replace (b : Book) (bids asks : List Level) : (b.replace bids asks).Ranked := by
  intro side
  rw [levels_replace]
  exact Level.ranked_collect side _

/-- Entries with a size one by one, those of each side in their order, make what the sides at once
make. -/
theorem replace_sameLevels (b : Book) {bids asks : List Level} {changes : List Change}
    (h : ∀ side, onSide side changes = Level.sized (side.pick bids asks)) (symbol : String) :
    (b.replace bids asks).SameLevels (({ symbol } : Book).applyAll changes) := by
  refine (b.ranked_replace bids asks).sameLevels_of_sizeAt ((ranked_empty symbol).applyAll changes)
    fun side price => ?_
  have hupdate := ({ symbol } : Book).sizeAt_update changes side price
  have hempty : ({ symbol } : Book).sizeAt side price = none := by cases side <;> rfl
  rw [hempty, h side] at hupdate
  rw [sizeAt_replace,
    show (({ symbol } : Book).applyAll changes).sizeAt side price = _ from hupdate]
  cases hlast : Level.last? price (Level.sized (side.pick bids asks)) with
  | none => rfl
  | some l =>
    have hmem : l ∈ Level.sized (side.pick bids asks) :=
      List.mem_reverse.mp (List.mem_of_find?_eq_some hlast)
    exact (Level.sizeSet_of_mem_sized hmem).symm

/-- Sides given at once have the levels that their entries with a size make one by one in a new
book, in whatever way those of the two sides come in between each other. Nothing of the book before
is left: any other gets the same sides, and every level is one of the entries. Entries of size zero
take no level away: the last entry with a size decides, and every such entry has a level at its
price. -/
theorem replace_as_one_by_one (b : Book) (bids asks : List Level) :
    (∀ symbol changes, (∀ side, onSide side changes = Level.sized (side.pick bids asks)) →
      (b.replace bids asks).SameLevels (({ symbol } : Book).applyAll changes)) ∧
    (∀ other : Book, ∀ side,
      (other.replace bids asks).levels side = (b.replace bids asks).levels side) ∧
    (∀ side, ∀ l ∈ (b.replace bids asks).levels side, l ∈ Level.sized (side.pick bids asks)) ∧
    (∀ side price, (b.replace bids asks).sizeAt side price =
      (Level.last? price (Level.sized (side.pick bids asks))).map (·.size)) ∧
    ∀ side, ∀ l ∈ Level.sized (side.pick bids asks),
      (b.replace bids asks).sizeAt side l.price ≠ none := by
  refine ⟨fun symbol changes h => b.replace_sameLevels h symbol, fun other side => ?_,
    fun side l hl => ?_, b.sizeAt_replace bids asks, fun side l hl => ?_⟩
  · rw [levels_replace, levels_replace]
  · rw [levels_replace] at hl
    exact Level.mem_collect hl
  · rw [sizeAt_replace, ne_eq, Option.map_eq_none_iff, last?_eq_none_iff]
    exact fun hnone => hnone l hl rfl

/-- Entries of size zero stand before and after others for their price, and the sides are mixed. -/
theorem replace_as_one_by_one_mixed :
    let bids := [levelOf 1 0 0, levelOf 1 0 2, levelOf 10 1 3, levelOf 100 2 0]
    let asks := [levelOf 2 0 1, levelOf 3 0 0]
    let changes : List Change :=
      [⟨.bid, levelOf 1 0 2⟩, ⟨.ask, levelOf 2 0 1⟩, ⟨.bid, levelOf 10 1 3⟩]
    (∀ side, onSide side changes = Level.sized (side.pick bids asks)) ∧
      (respelled.replace bids asks).SameLevels (({ symbol := "BTC-USD" } : Book).applyAll changes) ∧
      (respelled.replace bids asks).sizeAt .bid (levelOf 1 0 0).price =
        some (levelOf 0 0 3).size := by
  intro bids asks changes
  have hsides : ∀ side, onSide side changes = Level.sized (side.pick bids asks) := by
    intro side
    cases side with
    | bid => decide
    | ask => decide
  obtain ⟨hsame, -, -, hsize, -⟩ := replace_as_one_by_one respelled bids asks
  exact ⟨hsides, hsame "BTC-USD" changes hsides, (hsize .bid _).trans (by decide)⟩

end Book

end MarketFeed.Market
