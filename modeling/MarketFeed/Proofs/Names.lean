import Mathlib
import MarketFeed.Feed.SymbolTable

/-!
Symbol tables made of pairs of names. If no name has two partners, each lookup finds exactly the
pairs of the list, and so the two lookups are inverse to each other: a standard name belongs to one
symbol of the exchange, and that symbol to no other name.
-/
namespace MarketFeed

namespace Table

variable {κ β : Type} [DecidableEq κ] [LT κ] [DecidableLT κ]

theorem ofList_concat (front : List (κ × β)) (e : κ × β) :
    ofList (front ++ [e]) = (ofList front).insert e.1 e.2 := by
  simp [ofList]

/-- Of several entries for one key the last stays. -/
theorem find?_ofList (l : List (κ × β)) (k : κ) :
    (ofList l).find? k = (l.reverse.find? fun e => e.1 = k).map Prod.snd := by
  induction l using List.reverseRecOn with
  | nil => rfl
  | append_singleton front e ih =>
    rw [ofList_concat, find?_insert, List.reverse_append, List.reverse_singleton, List.singleton_append,
      List.find?_cons, ih]
    by_cases heq : e.1 = k
    · simp [heq]
    · simp [heq, Ne.symm heq]

theorem find?_ofList_eq_some_iff {l : List (κ × β)} {k : κ} {v : β} :
    (ofList l).find? k = some v ↔
      ∃ before after, l = before ++ (k, v) :: after ∧ ∀ e ∈ after, e.1 ≠ k := by
  rw [find?_ofList, Option.map_eq_some_iff]
  constructor
  · rintro ⟨e, hfound, rfl⟩
    obtain ⟨hkey, after, before, hsplit, hafter⟩ := List.find?_eq_some_iff_append.mp hfound
    refine ⟨before.reverse, after.reverse, ?_, fun e' he' => ?_⟩
    · rw [List.reverse_eq_iff.mp hsplit, ← of_decide_eq_true hkey]
      simp
    · simpa using hafter e' (List.mem_reverse.mp he')
  · rintro ⟨before, after, rfl, hafter⟩
    refine ⟨(k, v), List.find?_eq_some_iff_append.mpr ⟨by simp, ?_⟩, rfl⟩
    refine ⟨after.reverse, before.reverse, by simp, fun e he => ?_⟩
    simpa using hafter e (List.mem_reverse.mp he)

/-- Where a key has one value only, the entries of a list are found, and no others. -/
theorem find?_ofList_iff {l : List (κ × β)} (hone : ∀ e ∈ l, ∀ e' ∈ l, e.1 = e'.1 → e.2 = e'.2)
    (k : κ) (v : β) : (ofList l).find? k = some v ↔ (k, v) ∈ l := by
  constructor
  · intro hfound
    obtain ⟨before, after, rfl, -⟩ := find?_ofList_eq_some_iff.mp hfound
    simp
  · intro hmem
    cases hfound : (ofList l).find? k with
    | none =>
      rw [find?_ofList, Option.map_eq_none_iff] at hfound
      have hnone := List.find?_eq_none.mp hfound (k, v) (List.mem_reverse.mpr hmem)
      simp at hnone
    | some w =>
      obtain ⟨before, after, rfl, -⟩ := find?_ofList_eq_some_iff.mp hfound
      exact congrArg some (hone (k, w) (by simp) (k, v) hmem rfl)

end Table

namespace Feed.SymbolTable

theorem exchange_ofPairs (pairs : List (String × String)) :
    (ofPairs pairs).exchange = Table.ofList pairs := by
  induction pairs using List.reverseRecOn with
  | nil => rfl
  | append_singleton front pair ih =>
    rw [ofPairs, List.foldl_append, ← ofPairs]
    simp [insert, ih, Table.ofList]

theorem standard_ofPairs (pairs : List (String × String)) :
    (ofPairs pairs).standard = Table.ofList (pairs.map Prod.swap) := by
  induction pairs using List.reverseRecOn with
  | nil => rfl
  | append_singleton front pair ih =>
    rw [ofPairs, List.foldl_append, ← ofPairs]
    simp [insert, ih, Table.ofList]

variable {t : SymbolTable} {standard exchange : String}

theorem exchangeSymbol_eq_ok_iff :
    t.exchangeSymbol standard = .ok exchange ↔ t.exchange.find? standard = some exchange := by
  unfold exchangeSymbol
  cases t.exchange.find? standard with
  | none => simp
  | some found => simp

theorem standardSymbol_eq_ok_iff :
    t.standardSymbol exchange = .ok standard ↔ t.standard.find? exchange = some standard := by
  unfold standardSymbol
  cases t.standard.find? exchange with
  | none => simp
  | some found => simp

/-- A name is resolved by its pair, or it stands for itself because nothing is known of it. -/
theorem resolve_eq_ok_iff :
    t.resolve exchange = .ok standard ↔
      t.standardSymbol exchange = .ok standard ∨
        (t.allowMissing = true ∧ t.standardSymbol exchange = .error (.unknownSymbol exchange) ∧
          exchange = standard) := by
  unfold resolve standardSymbol
  cases t.standard.find? exchange with
  | none =>
    cases t.allowMissing with
    | true => simp
    | false => simp
  | some found => simp

/-- Whether the two lookups are inverse to each other. -/
def Paired (t : SymbolTable) : Prop :=
  ∀ standard exchange,
    t.exchangeSymbol standard = .ok exchange ↔ t.standardSymbol exchange = .ok standard

/-- Whether no name stands in two pairs with different partners. -/
def OneToOne (pairs : List (String × String)) : Prop :=
  ∀ p ∈ pairs, ∀ q ∈ pairs, p.1 = q.1 ↔ p.2 = q.2

theorem exchangeSymbol_ofPairs_iff {pairs : List (String × String)} (hone : OneToOne pairs) :
    (ofPairs pairs).exchangeSymbol standard = .ok exchange ↔ (standard, exchange) ∈ pairs := by
  rw [exchangeSymbol_eq_ok_iff, exchange_ofPairs,
    Table.find?_ofList_iff fun p hp q hq => (hone p hp q hq).mp]

theorem standardSymbol_ofPairs_iff {pairs : List (String × String)} (hone : OneToOne pairs) :
    (ofPairs pairs).standardSymbol exchange = .ok standard ↔ (standard, exchange) ∈ pairs := by
  have hswapped : ∀ e ∈ pairs.map Prod.swap, ∀ e' ∈ pairs.map Prod.swap, e.1 = e'.1 →
      e.2 = e'.2 := by
    rintro _ he _ he' heq
    obtain ⟨p, hp, rfl⟩ := List.mem_map.mp he
    obtain ⟨q, hq, rfl⟩ := List.mem_map.mp he'
    exact (hone p hp q hq).mpr heq
  rw [standardSymbol_eq_ok_iff, standard_ofPairs, Table.find?_ofList_iff hswapped]
  simp

/-- Pairs in which no name has two partners are found from both sides. -/
theorem paired_of_oneToOne {pairs : List (String × String)} (hone : OneToOne pairs) :
    (ofPairs pairs).Paired := fun _ _ =>
  (exchangeSymbol_ofPairs_iff hone).trans (standardSymbol_ofPairs_iff hone).symm

theorem oneToOne_of_nodup {pairs : List (String × String)} (hstandard : (pairs.map Prod.fst).Nodup)
    (hexchange : (pairs.map Prod.snd).Nodup) : OneToOne pairs := by
  intro p hp q hq
  constructor
  · intro heq
    rw [List.inj_on_of_nodup_map hstandard hp hq heq]
  · intro heq
    rw [List.inj_on_of_nodup_map hexchange hp hq heq]

theorem paired_ofPairs {pairs : List (String × String)} (hstandard : (pairs.map Prod.fst).Nodup)
    (hexchange : (pairs.map Prod.snd).Nodup) : (ofPairs pairs).Paired :=
  paired_of_oneToOne (oneToOne_of_nodup hstandard hexchange)

end Feed.SymbolTable

end MarketFeed
