import Mathlib
import MarketFeed.Proofs.Ownership
import MarketFeed.Proofs.Publication

/-!
Symbol tables while pairs are added to them. Each of the two lookups is decided by the last pair
that has the name it is asked for. A pair whose name already has another partner replaces that
partner on the side of the name, and the partner it had still leads back to the name. So the lookups
stay inverse to each other exactly as long as no name gets a second partner, and as long as they
are, everything about the symbol that a standard name asks for is published under this name.
-/
namespace MarketFeed.Feed

open Market

namespace SymbolTable

variable {t : SymbolTable} {standard exchange : String}

theorem exchangeSymbol_insert (name : String) :
    (t.insert standard exchange).exchangeSymbol name =
      if name = standard then .ok exchange else t.exchangeSymbol name := by
  unfold exchangeSymbol
  simp only [insert, Table.find?_insert]
  by_cases h : name = standard
  · simp [h]
  · simp [h]

theorem standardSymbol_insert (name : String) :
    (t.insert standard exchange).standardSymbol name =
      if name = exchange then .ok standard else t.standardSymbol name := by
  unfold standardSymbol
  simp only [insert, Table.find?_insert]
  by_cases h : name = exchange
  · simp [h]
  · simp [h]

/-- A pair keeps the lookups inverse exactly if neither of its names has another partner. -/
theorem Paired.insert_iff (hpaired : t.Paired) :
    (t.insert standard exchange).Paired ↔
      (∀ partner, t.exchangeSymbol standard = .ok partner → partner = exchange) ∧
        ∀ partner, t.standardSymbol exchange = .ok partner → partner = standard := by
  constructor
  · intro hafter
    constructor
    · intro partner hold
      -- The old partner still leads back to the name, which leads to the new one.
      by_contra hne
      have hstale : (t.insert standard exchange).standardSymbol partner = .ok standard := by
        rw [standardSymbol_insert, if_neg hne]
        exact (hpaired _ _).mp hold
      have hnew := (hafter _ _).mpr hstale
      rw [exchangeSymbol_insert, if_pos rfl] at hnew
      exact hne (Except.ok.inj hnew).symm
    · intro partner hold
      by_contra hne
      have hstale : (t.insert standard exchange).exchangeSymbol partner = .ok exchange := by
        rw [exchangeSymbol_insert, if_neg hne]
        exact (hpaired _ _).mpr hold
      have hnew := (hafter _ _).mp hstale
      rw [standardSymbol_insert, if_pos rfl] at hnew
      exact hne (Except.ok.inj hnew).symm
  · rintro ⟨hexchange, hstandard⟩ name symbol
    rw [exchangeSymbol_insert, standardSymbol_insert]
    by_cases hname : name = standard
    · subst hname
      by_cases hsymbol : symbol = exchange
      · simp [hsymbol]
      · have hother : t.standardSymbol symbol ≠ .ok name := fun h =>
          hsymbol (hexchange symbol ((hpaired _ _).mpr h))
        simp [hsymbol, Ne.symm hsymbol, hother]
    · by_cases hsymbol : symbol = exchange
      · subst hsymbol
        have hother : t.exchangeSymbol name ≠ .ok symbol := fun h =>
          hname (hstandard name ((hpaired _ _).mp h))
        simp [hname, Ne.symm hname, hother]
      · rw [if_neg hname, if_neg hsymbol]
        exact hpaired name symbol

theorem ofPairs_concat (front : List (String × String)) (p : String × String) :
    ofPairs (front ++ [p]) = (ofPairs front).insert p.1 p.2 := by
  simp [ofPairs]

theorem oneToOne_concat {front : List (String × String)} {p : String × String} :
    OneToOne (front ++ [p]) ↔ OneToOne front ∧ ∀ q ∈ front, q.1 = p.1 ↔ q.2 = p.2 := by
  constructor
  · intro h
    exact ⟨fun q hq r hr => h q (by simp [hq]) r (by simp [hr]),
      fun q hq => h q (by simp [hq]) p (by simp)⟩
  · rintro ⟨hfront, hlast⟩ q hq r hr
    rcases List.mem_append.mp hq with hq | hq
    · rcases List.mem_append.mp hr with hr | hr
      · exact hfront q hq r hr
      · rw [List.mem_singleton.mp hr]
        exact hlast q hq
    · rw [List.mem_singleton.mp hq]
      rcases List.mem_append.mp hr with hr | hr
      · have hback := hlast r hr
        exact ⟨fun h => (hback.mp h.symm).symm, fun h => (hback.mpr h.symm).symm⟩
      · rw [List.mem_singleton.mp hr]
        exact ⟨fun _ => rfl, fun _ => rfl⟩

theorem paired_throughout_iff (pairs : List (String × String)) :
    (∀ front, front <+: pairs → (ofPairs front).Paired) ↔ OneToOne pairs := by
  constructor
  · induction pairs using List.reverseRecOn with
    | nil => exact fun _ p hp => by cases hp
    | append_singleton front p ih =>
      intro hthroughout
      have hfront : OneToOne front := ih fun earlier hearlier =>
        hthroughout earlier (hearlier.trans (List.prefix_append front [p]))
      have hafter := hthroughout (front ++ [p]) List.prefix_rfl
      rw [ofPairs_concat, (paired_of_oneToOne hfront).insert_iff] at hafter
      obtain ⟨hexchange, hstandard⟩ := hafter
      refine oneToOne_concat.mpr ⟨hfront, fun q hq => ⟨fun heq => ?_, fun heq => ?_⟩⟩
      · refine hexchange q.2 ?_
        rw [← heq, exchangeSymbol_ofPairs_iff hfront]
        exact hq
      · refine hstandard q.1 ?_
        rw [← heq, standardSymbol_ofPairs_iff hfront]
        exact hq
  · intro hone front hfront
    exact paired_of_oneToOne fun p hp q hq => hone p (hfront.subset hp) q (hfront.subset hq)

theorem exchangeSymbol_ofPairs_last (pairs : List (String × String)) :
    (ofPairs pairs).exchangeSymbol standard = .ok exchange ↔
      ∃ before after, pairs = before ++ (standard, exchange) :: after ∧
        ∀ p ∈ after, p.1 ≠ standard := by
  rw [exchangeSymbol_eq_ok_iff, exchange_ofPairs, Table.find?_ofList_eq_some_iff]

theorem standardSymbol_ofPairs_last (pairs : List (String × String)) :
    (ofPairs pairs).standardSymbol exchange = .ok standard ↔
      ∃ before after, pairs = before ++ (standard, exchange) :: after ∧
        ∀ p ∈ after, p.2 ≠ exchange := by
  rw [standardSymbol_eq_ok_iff, standard_ofPairs, Table.find?_ofList_eq_some_iff]
  constructor
  · rintro ⟨before, after, hsplit, hafter⟩
    refine ⟨before.map Prod.swap, after.map Prod.swap, ?_, ?_⟩
    · simpa using congrArg (List.map Prod.swap) hsplit
    · exact List.forall_mem_map.mpr hafter
  · rintro ⟨before, after, rfl, hafter⟩
    exact ⟨before.map Prod.swap, after.map Prod.swap, by simp, List.forall_mem_map.mpr hafter⟩

theorem nameFor_of_standardSymbol (h : t.standardSymbol exchange = .ok standard) (frame : Frame) :
    t.nameFor exchange frame = .ok standard := by
  cases frame with
  | snapshot book => exact h
  | ticker _ | update _ | trades _ | result _ | serverError _ | unrecognized _ =>
    exact resolve_eq_ok_iff.mpr (Or.inl h)

end SymbolTable

theorem Frame.symbol_of_mem_events {symbol : String} {receipt : UInt64} {frame : Frame}
    {e : Event} (he : e ∈ frame.events symbol receipt) : e.symbol = symbol := by
  cases frame with
  | ticker frame =>
    rw [List.mem_singleton.mp he]
    rfl
  | snapshot frame | update frame =>
    rw [List.mem_singleton.mp he]
    rfl
  | trades frame =>
    obtain ⟨t, -, rfl⟩ := List.mem_map.mp he
    rfl
  | result _ | serverError _ | unrecognized _ => cases he

/-- Where the names are paired, what a feed publishes about the symbol of a standard name bears this
name. -/
theorem Takes.symbol_eq {f f' : Feed} {receipt : UInt64} {frame : Frame}
    {emissions : List Emission} (h : f.Takes receipt frame f' emissions)
    (hpaired : f.symbols.Paired) {standard exchange : String} {number : Option UInt64}
    (hname : f.symbols.exchangeSymbol standard = .ok exchange)
    (hsubject : frame.subject? = some (exchange, number)) :
    ∀ e ∈ emissions, e.event.symbol = standard := by
  intro e he
  have hfor := SymbolTable.nameFor_of_standardSymbol ((hpaired _ _).mp hname) frame
  have hpublished : e.event ∈ frame.published f.symbols receipt := by
    rw [← h.events_eq]
    exact List.mem_map_of_mem he
  simp only [Frame.published, hsubject, hfor] at hpublished
  exact Frame.symbol_of_mem_events hpublished

/-- What a table holds after pairs were added one after another. Each lookup is decided by the last
pair with the name that is looked up. The lookups are inverse to each other all the time if and only
if no name stands in two pairs with different partners. In this case everything that a feed
publishes about the symbol of a standard name bears this name. -/
theorem names_stay_paired (pairs : List (String × String)) :
    (∀ standard exchange, (SymbolTable.ofPairs pairs).exchangeSymbol standard = .ok exchange ↔
      ∃ before after, pairs = before ++ (standard, exchange) :: after ∧
        ∀ p ∈ after, p.1 ≠ standard) ∧
    (∀ standard exchange, (SymbolTable.ofPairs pairs).standardSymbol exchange = .ok standard ↔
      ∃ before after, pairs = before ++ (standard, exchange) :: after ∧
        ∀ p ∈ after, p.2 ≠ exchange) ∧
    ((∀ front, front <+: pairs → (SymbolTable.ofPairs front).Paired) ↔
      SymbolTable.OneToOne pairs) ∧
    (SymbolTable.OneToOne pairs → ∀ (f f' : Feed) (allow : Bool),
      f.symbols = { SymbolTable.ofPairs pairs with allowMissing := allow } →
      ∀ standard exchange, f.symbols.exchangeSymbol standard = .ok exchange →
      ∀ raw receipt frame number emissions, Frame.decode raw = .ok frame →
        frame.subject? = some (exchange, number) →
        f.handle raw receipt = (f', .ok emissions) →
        ∀ e ∈ emissions, e.event.symbol = standard) := by
  refine ⟨fun _ _ => SymbolTable.exchangeSymbol_ofPairs_last pairs,
    fun _ _ => SymbolTable.standardSymbol_ofPairs_last pairs,
    SymbolTable.paired_throughout_iff pairs, ?_⟩
  intro hone f f' allow hsymbols standard exchange hname raw receipt frame number emissions hread
    hsubject hhandle
  have hpaired : f.symbols.Paired := by
    rw [hsymbols]
    exact SymbolTable.paired_of_oneToOne hone
  obtain ⟨same, hsame, htakes⟩ := handle_eq_ok_iff.mp hhandle
  cases hsame.symm.trans hread
  exact htakes.symbol_eq hpaired hname hsubject

/-- A pair that is added a second time, with another pair in between. -/
def repeated : List (String × String) :=
  [("BTC-USD", "BTCUSD"), ("ETH-USD", "ETHUSD"), ("BTC-USD", "BTCUSD")]

/-- The table stays paired, and a new book of the symbol is published under the one name it has. -/
theorem names_stay_paired_repeated :
    (SymbolTable.ofPairs repeated).Paired ∧
    ∃ f' emissions,
      ({ symbols := SymbolTable.ofPairs repeated, subscription := {} } : Feed).handle opening 1 =
        (f', .ok emissions) ∧
      emissions ≠ [] ∧ ∀ e ∈ emissions, e.event.symbol = "BTC-USD" := by
  have hone : SymbolTable.OneToOne repeated := by
    unfold SymbolTable.OneToOne
    decide
  obtain ⟨-, -, hthroughout, hpublished⟩ := names_stay_paired repeated
  have hread : Frame.decode opening = .ok (.snapshot openingFrame) := by cbv
  have hname : (SymbolTable.ofPairs repeated).exchangeSymbol "BTC-USD" = .ok "BTCUSD" := by cbv
  have hsymbol : (SymbolTable.ofPairs repeated).standardSymbol "BTCUSD" = .ok "BTC-USD" := by cbv
  have htakes : Takes { symbols := SymbolTable.ofPairs repeated, subscription := {} } 1
      (.snapshot openingFrame) _ _ :=
    .snapshot openingFrame "BTC-USD" _ (fun _ hnumber => by cases hnumber) hsymbol rfl
  have hhandle := handle_of_takes hread htakes
  refine ⟨hthroughout.mpr hone repeated List.prefix_rfl, _, _, hhandle, List.cons_ne_nil _ _, ?_⟩
  exact hpublished hone _ _ false rfl "BTC-USD" "BTCUSD" hname opening 1 _ none _ hread rfl hhandle

/-- Two standard names for one symbol: the first still leads to the symbol, which leads to the
second. -/
theorem stale_partner :
    ¬ (SymbolTable.ofPairs [("BTC-USD", "BTCUSD"), ("XBT-USD", "BTCUSD")]).Paired := by
  intro hpaired
  have hstale : (SymbolTable.ofPairs
      [("BTC-USD", "BTCUSD"), ("XBT-USD", "BTCUSD")]).exchangeSymbol "BTC-USD" =
        .ok "BTCUSD" := by cbv
  have hlast : (SymbolTable.ofPairs
      [("BTC-USD", "BTCUSD"), ("XBT-USD", "BTCUSD")]).standardSymbol "BTCUSD" =
        .ok "XBT-USD" := by cbv
  have hback := (hpaired _ _).mp hstale
  rw [hlast] at hback
  exact absurd (Except.ok.inj hback) (by decide)

end MarketFeed.Feed
