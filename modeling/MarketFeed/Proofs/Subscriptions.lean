import Mathlib
import MarketFeed.Feed.Subscription
import MarketFeed.Proofs.Tables

/-!
Subscriptions as sets of pairs: which symbols a channel has after symbols were added to it. Sets of
symbols stand in ascending order, so that those with the same symbols are equal.
-/
namespace MarketFeed

namespace Table

variable {κ β : Type} [DecidableEq κ]

theorem mem_keys_iff (t : Table κ β) (k : κ) : k ∈ t.keys ↔ (t.find? k).isSome = true := by
  obtain ⟨entries⟩ := t
  change k ∈ entries.map (·.1) ↔ (findIn k entries).isSome = true
  induction entries with
  | nil => simp [findIn]
  | cons e rest ih =>
    rw [List.map_cons, List.mem_cons, ih, findIn]
    split
    · next heq => simp [heq]
    · next hne => simp [hne]

end Table

namespace Feed

theorem Channel.mem_all (c : Channel) : c ∈ Channel.all := by cases c <;> decide

namespace SymbolSet

theorem mem_add (s : SymbolSet) (x y : String) : x ∈ (s.add y).toList ↔ x = y ∨ x ∈ s.toList := by
  rw [toList, toList, Table.mem_keys_iff, Table.mem_keys_iff, add, Table.find?_insert]
  split
  · next heq => simp [heq]
  · next hne => simp [hne]

theorem mem_foldl_add (l : List String) (s : SymbolSet) (x : String) :
    x ∈ (l.foldl add s).toList ↔ x ∈ l ∨ x ∈ s.toList := by
  induction l generalizing s with
  | nil => simp
  | cons y rest ih => rw [List.foldl_cons, ih, mem_add, List.mem_cons]; tauto

theorem mem_ofList (l : List String) (x : String) : x ∈ (ofList l).toList ↔ x ∈ l := by
  rw [ofList, mem_foldl_add]
  simp [toList, Table.keys, Table.empty]

theorem ascending_ofList (l : List String) : (ofList l).Ascending := by
  have hfold : ∀ s : SymbolSet, s.Ascending → (l.foldl add s).Ascending := by
    induction l with
    | nil => exact fun s hs => hs
    | cons x rest ih => exact fun s hs => ih _ (hs.insert x ())
  exact hfold _ Table.ascending_empty

/-- Sets with the same symbols are equal. -/
theorem eq_of_mem {s t : SymbolSet} (hs : s.Ascending) (ht : t.Ascending)
    (h : ∀ x, x ∈ s.toList ↔ x ∈ t.toList) : s = t := by
  refine hs.eq_of_find? ht fun x => ?_
  have hkeys : (s.find? x).isSome = (t.find? x).isSome := by
    rw [Bool.eq_iff_iff, ← Table.mem_keys_iff, ← Table.mem_keys_iff]
    exact h x
  cases hl : s.find? x <;> cases hm : t.find? x <;> simp_all

/-- Sets made of lists with the same symbols are equal. -/
theorem ofList_congr {l m : List String} (h : ∀ x, x ∈ l ↔ x ∈ m) : ofList l = ofList m :=
  eq_of_mem (ascending_ofList l) (ascending_ofList m) fun x =>
    (mem_ofList l x).trans ((h x).trans (mem_ofList m x).symm)

theorem ofList_toList {s : SymbolSet} (hs : s.Ascending) : ofList s.toList = s :=
  eq_of_mem (ascending_ofList _) hs fun x => mem_ofList _ x

end SymbolSet

namespace Subscription

theorem mem_pairs (s : Subscription) (c : Channel) (x : String) :
    (c, x) ∈ s.pairs ↔ x ∈ s.symbols c := by
  simp [pairs, Channel.mem_all]

theorem symbols_add (s : Subscription) (c d : Channel) (x y : String) :
    x ∈ (s.add c y).symbols d ↔ (d = c ∧ x = y) ∨ x ∈ s.symbols d := by
  rw [symbols, add, listed_list]
  split
  · next heq =>
    subst heq
    rw [Option.map_some, Option.getD_some, SymbolSet.mem_add, symbols]
    cases hlisted : s.listed d <;> simp [SymbolSet.toList, Table.keys, Table.empty]
  · next hne => simp [hne, symbols]

theorem symbols_addAll (s : Subscription) (c d : Channel) (l : List String) (x : String) :
    x ∈ (s.addAll c l).symbols d ↔ (d = c ∧ x ∈ l) ∨ x ∈ s.symbols d := by
  induction l generalizing s with
  | nil => simp [addAll]
  | cons y rest ih =>
    have hcons : s.addAll c (y :: rest) = (s.add c y).addAll c rest := rfl
    rw [hcons, ih, symbols_add, List.mem_cons]
    tauto

theorem mem_allSymbols (s : Subscription) (x : String) :
    x ∈ s.allSymbols ↔ ∃ c, (c, x) ∈ s.pairs := by
  simp [allSymbols, SymbolSet.mem_ofList, Channel.mem_all, mem_pairs]

/-- The symbols of all channels are a matter of which symbols there are. -/
theorem allSymbols_congr {s t : Subscription}
    (h : ∀ x, (∃ c, (c, x) ∈ s.pairs) ↔ ∃ c, (c, x) ∈ t.pairs) : s.allSymbols = t.allSymbols := by
  have hsame : SymbolSet.ofList (Channel.all.flatMap s.symbols) =
      SymbolSet.ofList (Channel.all.flatMap t.symbols) := by
    refine SymbolSet.ofList_congr fun x => ?_
    have hx := h x
    simp only [mem_pairs] at hx
    simpa [Channel.mem_all] using hx
  rw [allSymbols, allSymbols, hsame]

end Subscription

end Feed

end MarketFeed
