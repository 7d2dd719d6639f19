import Mathlib
import MarketFeed.Proofs.Ranking

/-!
Deltas replayed. A book reports the changes that it applied, and another book whose levels were
equal in value replays the report and has equal levels again, batch after batch. The level of a price
depends on the entries for this price alone and not on where the others stand among them. What it
was before matters only for the way the price is written, so that one report replayed twice does
what it does once.
-/
namespace MarketFeed.Market

open Number

namespace Level

variable {side : Side} {levels : List Level}

/-- Price and size by value. -/
def value (l : Level) : Int × Int := (l.price.units, l.size.units)

theorem agree_iff (l m : List Level) : agree l m = true ↔ l.map value = m.map value := beq_iff_eq

/-- Levels that are equal in value stay so when one level is placed among them. -/
theorem map_value_place (side : Side) {merge : Level → Level → Level} {new : Level}
    (hmerge : ∀ old other, old.value = other.value →
      (merge old new).value = (merge other new).value)
    {l m : List Level} (h : l.map value = m.map value) :
    (place side merge new l).map value = (place side merge new m).map value := by
  induction l generalizing m with
  | nil =>
    obtain rfl := List.map_eq_nil_iff.mp h.symm
    rfl
  | cons old rest ih =>
    cases m with
    | nil => cases h
    | cons other others =>
      obtain ⟨hhead, htail⟩ := List.cons.inj h
      have hprice : old.price.units = other.price.units := congrArg Prod.fst hhead
      have hbetter : side.better new.price old.price = side.better new.price other.price := by
        rw [Bool.eq_iff_iff, Side.better_iff_rank, Side.better_iff_rank,
          (side.rank_eq_iff _ _).mpr hprice]
      simp only [place, hprice, hbetter]
      split
      · simp only [List.map_cons, hmerge old other hhead, htail]
      · split
        · simp only [List.map_cons, hhead, htail]
        · simp only [List.map_cons, hhead, ih htail]

theorem map_value_remove (price : Decimal) (levels : List Level) :
    (remove price levels).map value =
      (levels.map value).filter fun v => v.1 ≠ price.units := by
  rw [List.filter_map]
  rfl

theorem map_value_apply (side : Side) (entry : Level) {l m : List Level}
    (h : l.map value = m.map value) :
    (apply side entry l).map value = (apply side entry m).map value := by
  unfold apply
  split
  · rw [map_value_remove, map_value_remove, h]
  · refine map_value_place side (fun old other hvalue => ?_) h
    have hprice : old.price.units = other.price.units := congrArg Prod.fst hvalue
    simp only [value, hprice]

theorem map_value_foldl_apply (side : Side) (entries : List Level) {l m : List Level}
    (h : l.map value = m.map value) :
    (entries.foldl (fun levels l => apply side l levels) l).map value =
      (entries.foldl (fun levels l => apply side l levels) m).map value := by
  induction entries generalizing l m with
  | nil => exact h
  | cons entry rest ih => exact ih (map_value_apply side entry h)

/-- What an entry makes of the level at its price, if there is one. -/
def settle (kept : Option Level) (entry : Level) : Option Level :=
  if entry.size.isZero then none
  else
    match kept with
    | none => some entry
    | some old => some { old with size := entry.size }

theorem settle_of_isZero {entry : Level} (h : entry.size.isZero = true) (kept : Option Level) :
    settle kept entry = none := if_pos h

theorem Ranked.levelAt_resize (h : Ranked side levels) (price : Decimal) {entry : Level}
    (hsized : entry.size.isZero = false) :
    levelAt price (resize side entry levels) =
      if entry.price.units = price.units then settle (levelAt price levels) entry
      else levelAt price levels := by
  induction levels with
  | nil =>
    by_cases heq : entry.price.units = price.units
    · simp [resize, Level.place, levelAt, settle, hsized, heq]
    · simp [resize, Level.place, levelAt, heq]
  | cons old rest ih =>
    unfold resize Level.place
    split
    · next hsame =>
      by_cases heq : entry.price.units = price.units
      · have hold : old.price.units = price.units := by omega
        simp [levelAt, settle, hsized, heq, hold]
      · have hold : old.price.units ≠ price.units := by omega
        simp [levelAt, heq, hold]
    · next hne =>
      split
      · next hbest =>
        by_cases heq : entry.price.units = price.units
        · -- The levels stand best first, so none behind the new one has its price.
          have hnone : levelAt price (old :: rest) = none := by
            refine List.find?_eq_none.mpr fun l hl => ?_
            have hfront := (side.better_iff_rank _ _).mp hbest
            have hbehind : side.rank old.price ≤ side.rank l.price := by
              rcases List.mem_cons.mp hl with rfl | hrest
              · exact le_refl _
              · exact (List.rel_of_pairwise_cons h.better hrest).le
            have hrank := mt (side.rank_eq_iff entry.price l.price).mpr (by omega)
            simp only [decide_eq_true_eq]
            omega
          rw [if_pos heq, hnone]
          simp [levelAt, settle, hsized, heq]
        · simp [levelAt, heq]
      · have hrest := ih h.tail
        by_cases hold : old.price.units = price.units
        · have heq : entry.price.units ≠ price.units := by omega
          simp [levelAt, hold, heq]
        · simpa [levelAt, hold, resize] using hrest

/-- One entry decides the level of its own price and no other. -/
theorem Ranked.levelAt_apply (h : Ranked side levels) (price : Decimal) (entry : Level) :
    levelAt price (Level.apply side entry levels) =
      if entry.price.units = price.units then settle (levelAt price levels) entry
      else levelAt price levels := by
  unfold Level.apply
  split
  · next hzero => rw [levelAt_remove, settle_of_isZero hzero]
  · next hsized => exact h.levelAt_resize price (by simpa using hsized)

/-- The level of a price after a batch of entries, by the entries for this price. -/
theorem Ranked.levelAt_foldl_apply (h : Ranked side levels) (price : Decimal)
    (entries : List Level) :
    levelAt price (entries.foldl (fun levels l => Level.apply side l levels) levels) =
      (entries.filter fun l => l.price.units = price.units).foldl settle
        (levelAt price levels) := by
  induction entries generalizing levels with
  | nil => rfl
  | cons entry rest ih =>
    rw [List.foldl_cons, ih (h.apply entry), h.levelAt_apply]
    by_cases heq : entry.price.units = price.units
    · simp [heq]
    · simp [heq]

/-- Entries of which one has size zero leave the same, whatever was there before. -/
theorem foldl_settle_of_mem_isZero {entries : List Level} {entry : Level} (hmem : entry ∈ entries)
    (hzero : entry.size.isZero = true) (kept other : Option Level) :
    entries.foldl settle kept = entries.foldl settle other := by
  obtain ⟨before, after, rfl⟩ := List.append_of_mem hmem
  simp only [List.foldl_append, List.foldl_cons, settle_of_isZero hzero]

/-- Entries that all have a size keep the price of a level as it is written. -/
theorem foldl_settle_of_sized {entries : List Level}
    (hsized : ∀ l ∈ entries, l.size.isZero = false) (old : Level) :
    ∃ l, entries.foldl settle (some old) = some l ∧ l.price = old.price := by
  induction entries generalizing old with
  | nil => exact ⟨old, rfl, rfl⟩
  | cons entry rest ih =>
    have hentry : settle (some old) entry = some { old with size := entry.size } := by
      simp [settle, hsized entry List.mem_cons_self]
    rw [List.foldl_cons, hentry]
    exact ih (fun l hl => hsized l (List.mem_cons_of_mem _ hl)) _

/-- What entries leave at a price is left by them once more. -/
theorem foldl_settle_twice (entries : List Level) (kept : Option Level) :
    entries.foldl settle (entries.foldl settle kept) = entries.foldl settle kept := by
  by_cases hzero : ∃ l ∈ entries, l.size.isZero = true
  · obtain ⟨l, hmem, hzero⟩ := hzero
    exact foldl_settle_of_mem_isZero hmem hzero _ _
  · have hsized : ∀ l ∈ entries, l.size.isZero = false := fun l hl =>
      Bool.eq_false_iff.mpr fun h => hzero ⟨l, hl, h⟩
    rcases List.eq_nil_or_concat entries with rfl | ⟨front, last, rfl⟩
    · rfl
    · rw [List.concat_eq_append] at hsized ⊢
      have hlast := hsized last (by simp)
      have hfront : ∀ l ∈ front, l.size.isZero = false := fun l hl => hsized l (by simp [hl])
      have honce : ∃ price, (front ++ [last]).foldl settle kept =
          some { price, size := last.size } := by
        rw [List.foldl_append, List.foldl_cons, List.foldl_nil]
        cases front.foldl settle kept with
        | none => exact ⟨last.price, by simp [settle, hlast]⟩
        | some old => exact ⟨old.price, by simp [settle, hlast]⟩
      obtain ⟨price, honce⟩ := honce
      obtain ⟨l, hagain, hprice⟩ := foldl_settle_of_sized hfront { price, size := last.size }
      rw [honce, List.foldl_append, hagain]
      simp [settle, hlast, hprice]

theorem Ranked.foldl_apply_twice (h : Ranked side levels) (entries : List Level) :
    entries.foldl (fun levels l => Level.apply side l levels)
        (entries.foldl (fun levels l => Level.apply side l levels) levels) =
      entries.foldl (fun levels l => Level.apply side l levels) levels := by
  have honce := h.foldl_apply entries
  refine (honce.foldl_apply entries).eq_of_levelAt honce fun price => ?_
  rw [honce.levelAt_foldl_apply, h.levelAt_foldl_apply, foldl_settle_twice]

end Level

theorem Delta.size_ofChanges (changes : List Change) :
    (ofChanges changes).size = changes.length := by
  have hfold : ∀ d : Delta, (changes.foldl push d).size = d.size + changes.length := by
    induction changes with
    | nil => exact fun d => rfl
    | cons c rest ih =>
      intro d
      rw [List.foldl_cons, ih, size_push, List.length_cons]
      omega
  rw [ofChanges, hfold]
  exact Nat.zero_add _

namespace Book

/-- Whether the levels of two books are equal in value on both sides. -/
def SameLevels (a b : Book) : Prop :=
  ∀ side, Level.agree (a.levels side) (b.levels side) = true

/-- Whether operations made a book from an empty one. -/
def Built (b : Book) : Prop :=
  ∃ symbol operations, b = ({ symbol } : Book).performAll operations

theorem Built.ranked {b : Book} (h : b.Built) : b.Ranked := by
  obtain ⟨symbol, operations, rfl⟩ := h
  exact (ranked_empty symbol).performAll operations

/-- Applies batches of changes and reports a delta for each. -/
def updateAll (b : Book) : List (List Change) → Book × List Delta
  | [] => (b, [])
  | batch :: rest =>
    let (b, d) := b.update batch
    let (b, deltas) := b.updateAll rest
    (b, d :: deltas)

def replayAll (b : Book) (deltas : List Delta) : Book := deltas.foldl replay b

/-- What holds of a book and its follower for one batch: the follower replays the report and has the
same levels again, the report has the entries of each side in their order and no others, and to
replay it once more changes neither book. -/
structure Reports (b follower : Book) (changes : List Change) : Prop where
  same : (b.update changes).1.SameLevels (follower.replay (b.update changes).2)
  levels : ∀ side, (b.update changes).2.levels side = onSide side changes
  size : (b.update changes).2.size = changes.length
  once : (follower.replay (b.update changes).2).replay (b.update changes).2 =
    follower.replay (b.update changes).2
  own : (b.update changes).1.replay (b.update changes).2 = (b.update changes).1

theorem SameLevels.applyAll {a b : Book} (h : a.SameLevels b) (changes : List Change) :
    (a.applyAll changes).SameLevels (b.applyAll changes) := by
  intro side
  have hvalues := (Level.agree_iff _ _).mp (h side)
  rw [Level.agree_iff, levels_applyAll, levels_applyAll]
  exact Level.map_value_foldl_apply side _ hvalues

/-- To replay a report is to apply the changes that were reported. -/
theorem update_fst (b : Book) (changes : List Change) :
    (b.update changes).1 = b.replay (b.update changes).2 :=
  (replay_ofChanges b changes).symm

theorem SameLevels.update {a b : Book} (h : a.SameLevels b) (changes : List Change) :
    (a.update changes).1.SameLevels (b.replay (a.update changes).2) := by
  rw [update_fst]
  exact h.applyAll _

theorem Ranked.replay_replay {b : Book} (h : b.Ranked) (d : Delta) :
    (b.replay d).replay d = b.replay d := by
  refine eq_of_levels ?_ fun side => ?_
  · exact symbol_applyAll _ _
  · simp only [replay, levels_applyAll]
    exact (h side).foldl_apply_twice _

theorem Ranked.reports {b follower : Book} (hb : b.Ranked) (hfollower : follower.Ranked)
    (hsame : b.SameLevels follower) (changes : List Change) : b.Reports follower changes where
  same := hsame.update changes
  levels side := Delta.levels_ofChanges changes side
  size := Delta.size_ofChanges changes
  once := hfollower.replay_replay _
  own := by
    rw [update_fst]
    exact hb.replay_replay _

/-- Batch after batch, a follower that replays the reports of a book has the same levels. -/
theorem Ranked.updateAll {b follower : Book} (hb : b.Ranked) (hfollower : follower.Ranked)
    (hsame : b.SameLevels follower) (batches : List (List Change)) :
    (b.updateAll batches).1.Ranked ∧ (follower.replayAll (b.updateAll batches).2).Ranked ∧
      (b.updateAll batches).1.SameLevels (follower.replayAll (b.updateAll batches).2) := by
  induction batches generalizing b follower with
  | nil => exact ⟨hb, hfollower, hsame⟩
  | cons batch rest ih =>
    exact ih (hb.applyAll batch) (hfollower.applyAll _) (hsame.update batch)

/-- After any number of batches a follower that has replayed their reports has the levels of the
book, and the next batch is reported and replayed as all before it. -/
theorem reports_replayed {b follower : Book} (hb : b.Built) (hfollower : follower.Built)
    (hsame : b.SameLevels follower) (batches : List (List Change)) (next : List Change) :
    (b.updateAll batches).1.SameLevels (follower.replayAll (b.updateAll batches).2) ∧
      (b.updateAll batches).1.Reports (follower.replayAll (b.updateAll batches).2) next := by
  obtain ⟨hafter, hreplayed, hequal⟩ := hb.ranked.updateAll hfollower.ranked hsame batches
  exact ⟨hequal, hafter.reports hreplayed hequal next⟩

/-- A level with so many decimal places in its price. -/
def levelOf (price : Int) (places : Nat) (size : Int) : Level where
  price := (Decimal.ofParts? price places).getD .zero
  size := (Decimal.ofParts? size 0).getD .zero

/-- Two bids at one price, the last of them written as `1.0`, and an ask. -/
def spelled : Book :=
  ({ symbol := "BTC-USD" } : Book).performAll
    [.replace [levelOf 1 0 2, levelOf 10 1 3] [levelOf 2 0 1]]

/-- The same levels, with the bid written as `1.00` and made by changes. -/
def respelled : Book :=
  ({ symbol := "BTC-USD" } : Book).performAll
    [.apply ⟨.ask, levelOf 20 1 1⟩, .update [⟨.bid, levelOf 100 2 3⟩, ⟨.bid, levelOf 5 0 0⟩]]

/-- A level goes away and comes back between changes of the other side. -/
theorem reports_replayed_respelled :
    let going : List Change := [⟨.bid, levelOf 1 0 0⟩, ⟨.ask, levelOf 2 0 7⟩]
    let coming : List Change :=
      [⟨.bid, levelOf 1 0 4⟩, ⟨.ask, levelOf 9 0 0⟩, ⟨.bid, levelOf 10 1 5⟩]
    spelled.SameLevels respelled ∧
      (spelled.updateAll [going]).1.Reports
        (respelled.replayAll (spelled.updateAll [going]).2) coming := by
  intro going coming
  have hspelled : spelled.Built := ⟨"BTC-USD", _, rfl⟩
  have hrespelled : respelled.Built := ⟨"BTC-USD", _, rfl⟩
  have hsame : spelled.SameLevels respelled := by
    intro side
    cases side with
    | bid => decide
    | ask => decide
  obtain ⟨-, hreports⟩ := reports_replayed hspelled hrespelled hsame [going] coming
  exact ⟨hsame, hreports⟩

end Book

end MarketFeed.Market
