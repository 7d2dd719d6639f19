import Mathlib
import MarketFeed.Proofs.Elementwise
import MarketFeed.Proofs.EventText
import MarketFeed.Proofs.OctetOrder
import MarketFeed.Proofs.Subscriptions
import MarketFeed.Settings.File

/-!
Subscriptions made by calls, one pair or several of one channel at a time. Which calls were made is
seen in a subscription only by the set of the pairs, and the pairs are listed in the order of the
channels and then of the octets of the symbols, each of them once. A subscription is read back from
its text, with the channels that are listed without symbols.
-/
namespace MarketFeed.Feed

/-- The place of a channel among all. -/
def Channel.place : Channel → Nat
  | .ticker => 0
  | .trades => 1
  | .orderbook => 2

/-- Whether a symbol comes before another by its octets. -/
def Precedes (x y : String) : Prop := Text.Utf8.encode x.toList < Text.Utf8.encode y.toList

theorem precedes_of_lt {x y : String} (h : x < y) : Precedes x y :=
  Text.Utf8.encode_lt_encode (String.lt_iff.mp h)

theorem Precedes.ne {x y : String} (h : Precedes x y) : x ≠ y := by
  intro hsame
  subst hsame
  exact List.lt_irrefl _ h

namespace SymbolSet

theorem pairwise_toList {s : SymbolSet} (hs : s.Ascending) : s.toList.Pairwise Precedes :=
  List.pairwise_map.mpr (hs.imp precedes_of_lt)

theorem ascending_add {s : SymbolSet} (hs : s.Ascending) (x : String) : (s.add x).Ascending :=
  hs.insert x ()

theorem enter_fst (s : SymbolSet) (x : String) : (s.enter x).1 = true ↔ x ∉ s.toList := by
  rw [toList, Table.mem_keys_iff]
  simp [enter, Table.contains]

end SymbolSet

namespace Subscription

/-- Whether a pair comes before another by its channel or, on the same one, by its symbol. -/
def Before (p q : Channel × String) : Prop :=
  p.1.place < q.1.place ∨ p.1 = q.1 ∧ Precedes p.2 q.2

theorem Before.ne {p q : Channel × String} (h : Before p q) : p ≠ q := by
  intro hsame
  subst hsame
  rcases h with hplace | ⟨-, hsymbol⟩
  · exact Nat.lt_irrefl _ hplace
  · exact hsymbol.ne rfl

/-- A subscription whose symbols stand in order on every channel that is listed. -/
def Ordered (s : Subscription) : Prop := ∀ c, ∀ symbols ∈ s.listed c, symbols.Ascending

theorem eq_of_listed {s t : Subscription} (h : ∀ c, s.listed c = t.listed c) : s = t := by
  obtain ⟨ticker, trades, orderbook⟩ := s
  obtain ⟨ticker', trades', orderbook'⟩ := t
  have hticker : ticker = ticker' := h .ticker
  have htrades : trades = trades' := h .trades
  have horderbook : orderbook = orderbook' := h .orderbook
  rw [hticker, htrades, horderbook]

theorem ordered_empty : ({} : Subscription).Ordered := by
  intro c symbols h
  cases c <;> cases h

theorem Ordered.list {s : Subscription} (hs : s.Ordered) (c : Channel) {symbols : SymbolSet}
    (hsymbols : symbols.Ascending) : (s.list c symbols).Ordered := by
  intro d listed hlisted
  rw [listed_list] at hlisted
  by_cases hd : d = c
  · rw [if_pos hd] at hlisted
    cases hlisted
    exact hsymbols
  · rw [if_neg hd] at hlisted
    exact hs d listed hlisted

theorem Ordered.getD {s : Subscription} (hs : s.Ordered) (c : Channel) :
    ((s.listed c).getD .empty).Ascending := by
  cases h : s.listed c with
  | none => exact Table.ascending_empty
  | some symbols => exact hs c symbols h

theorem Ordered.add {s : Subscription} (hs : s.Ordered) (c : Channel) (x : String) :
    (s.add c x).Ordered :=
  hs.list c (SymbolSet.ascending_add (hs.getD c) x)

theorem symbols_eq_getD (s : Subscription) (c : Channel) :
    s.symbols c = ((s.listed c).getD .empty).toList := by
  rw [symbols]
  cases s.listed c <;> rfl

theorem Ordered.symbols {s : Subscription} (hs : s.Ordered) (c : Channel) :
    (s.symbols c).Pairwise Precedes := by
  rw [symbols_eq_getD]
  exact SymbolSet.pairwise_toList (hs.getD c)

theorem Ordered.pairs {s : Subscription} (hs : s.Ordered) : s.pairs.Pairwise Before := by
  unfold Subscription.pairs
  rw [List.pairwise_flatMap]
  constructor
  · intro c _
    rw [List.pairwise_map]
    exact (hs.symbols c).imp fun h => Or.inr ⟨rfl, h⟩
  · have hplaces : Channel.all.Pairwise fun c d => c.place < d.place := by decide
    refine hplaces.imp ?_
    intro c d hcd p hp q hq
    obtain ⟨x, -, rfl⟩ := List.mem_map.mp hp
    obtain ⟨y, -, rfl⟩ := List.mem_map.mp hq
    exact Or.inl hcd

theorem enter_fst (s : Subscription) (c : Channel) (x : String) :
    (s.enter c x).1 = true ↔ x ∉ s.symbols c := by
  rw [symbols_eq_getD]
  exact SymbolSet.enter_fst _ x

/-! Subscriptions as text. -/

/-- What is written of some channels: those that are listed, by their names. -/
def entriesOf (s : Subscription) (channels : List Channel) : List (String × List String) :=
  channels.filterMap fun c => (s.listed c).map fun symbols => (c.name, symbols.toList)

def entries (s : Subscription) : List (String × List String) := s.entriesOf Channel.all

/-- Reading one entry. -/
def listEntry (s : Subscription) (entry : String × List String) : Option Subscription :=
  (Channel.ofName? entry.1).map fun c => s.list c (SymbolSet.ofList entry.2)

theorem ofEntries?_eq (l : List (String × List String)) : ofEntries? l = l.foldlM listEntry {} :=
  rfl

/-- Reading back what was written of some channels lists these as they were, and no others anew. -/
theorem exists_foldlM_entriesOf {t : Subscription} (ht : t.Ordered) (channels : List Channel)
    (s : Subscription) :
    ∃ s', (t.entriesOf channels).foldlM listEntry s = some s' ∧
      ∀ d, s'.listed d = if d ∈ channels ∧ t.listed d ≠ none then t.listed d else s.listed d := by
  induction channels generalizing s with
  | nil => exact ⟨s, rfl, by simp⟩
  | cons c rest ih =>
    cases hc : t.listed c with
    | none =>
      obtain ⟨s', hread, hlisted⟩ := ih s
      refine ⟨s', by rw [← hread, entriesOf, List.filterMap_cons, hc]; rfl, ?_⟩
      intro d
      rw [hlisted]
      by_cases hd : d = c
      · simp [hd, hc]
      · simp [hd]
    | some symbols =>
      obtain ⟨s', hread, hlisted⟩ := ih (s.list c symbols)
      have hentry : s.listEntry (c.name, symbols.toList) = some (s.list c symbols) := by
        rw [listEntry, Channel.ofName?_name, SymbolSet.ofList_toList (ht c symbols hc)]
        rfl
      have hentries : t.entriesOf (c :: rest) = (c.name, symbols.toList) :: t.entriesOf rest := by
        rw [entriesOf, List.filterMap_cons, hc]
        rfl
      refine ⟨s', by rw [hentries, List.foldlM_cons, hentry]; exact hread, ?_⟩
      intro d
      rw [hlisted, listed_list]
      by_cases hd : d = c
      · simp [hd, hc]
      · simp [hd]

theorem ofEntries?_entries {s : Subscription} (hs : s.Ordered) :
    ofEntries? s.entries = some s := by
  obtain ⟨s', hread, hlisted⟩ := exists_foldlM_entriesOf hs Channel.all {}
  have hsame : s' = s := by
    refine eq_of_listed fun d => ?_
    have hnone : ({} : Subscription).listed d = none := by cases d <;> rfl
    rw [hlisted, hnone]
    by_cases hd : s.listed d = none
    · simp [hd]
    · rw [if_pos ⟨Channel.mem_all d, hd⟩]
  rw [ofEntries?_eq, entries, hread, hsame]

/-- Reading lists channels one after another, each with an ordered set. -/
theorem ordered_of_foldlM {l : List (String × List String)} {s t : Subscription} (hs : s.Ordered)
    (h : l.foldlM listEntry s = some t) : t.Ordered := by
  induction l generalizing s with
  | nil =>
    cases h
    exact hs
  | cons e rest ih =>
    rw [List.foldlM_cons] at h
    obtain ⟨next, hnext, h⟩ := Option.bind_eq_some_iff.mp h
    obtain ⟨c, -, rfl⟩ := Option.map_eq_some_iff.mp hnext
    exact ih (hs.list c (SymbolSet.ascending_ofList e.2)) h

theorem ordered_of_ofJson? {j : Json} {s : Subscription} (h : ofJson? j = some s) :
    s.Ordered := by
  cases j with
  | object fields =>
    obtain ⟨l, -, hl⟩ := Option.bind_eq_some_iff.mp h
    exact ordered_of_foldlM ordered_empty hl
  | _ => cases h

theorem ordered_of_ofToml? {v : Toml} {s : Subscription} (h : ofToml? v = some s) :
    s.Ordered := by
  cases v with
  | table fields =>
    obtain ⟨l, -, hl⟩ := Option.bind_eq_some_iff.mp h
    exact ordered_of_foldlM ordered_empty hl
  | _ => cases h

theorem toJson_eq (s : Subscription) :
    s.toJson = .object (s.entries.map fun e => (e.1, .array (e.2.map .text))) := by
  rw [toJson, entries, entriesOf, List.map_filterMap]
  simp only [Option.map_map, Function.comp_def]

/-- A list of named lists is read from the table in which it is written. -/
theorem mapM_entries {α : Type} {read : α → Option (List String)} {write : List String → α}
    (h : ∀ l, read (write l) = some l) (l : List (String × List String)) :
    (l.map fun e => (e.1, write e.2)).mapM (fun (e : String × α) => do some (e.1, ← read e.2)) =
      some l := by
  rw [mapM_eq_some_iff, List.forall₂_map_left_iff]
  refine List.forall₂_same.mpr fun e _ => ?_
  simp only [h, Option.bind_eq_bind, Option.bind_some]

theorem ofJson?_toJson {s : Subscription} (hs : s.Ordered) : ofJson? s.toJson = some s := by
  rw [toJson_eq]
  exact Option.bind_eq_some_iff.mpr
    ⟨s.entries, mapM_entries Json.inverts_text.list s.entries, ofEntries?_entries hs⟩

/-- The table of a subscription in a settings file. -/
def toTable (s : Subscription) : Toml :=
  .table (s.entries.map fun e => (e.1, .array (e.2.map .text)))

theorem ofToml?_toTable {s : Subscription} (hs : s.Ordered) : ofToml? s.toTable = some s := by
  have hlist : ∀ l : List String, Toml.list? Toml.asText? (.array (l.map .text)) = some l := by
    intro l
    show (l.map Toml.text).mapM Toml.asText? = some l
    rw [mapM_eq_some_iff, List.forall₂_map_left_iff]
    exact List.forall₂_same.mpr fun _ _ => rfl
  exact Option.bind_eq_some_iff.mpr
    ⟨s.entries, mapM_entries hlist s.entries, ofEntries?_entries hs⟩

theorem plain_toJson (s : Subscription) : Json.Plain Json.room s.toJson := by
  rw [toJson_eq]
  refine Json.Plain.object (by decide) ?_
  rw [List.forall_mem_map]
  intro e _
  refine Json.Plain.array (by decide) ?_
  rw [List.forall_mem_map]
  exact fun x _ => Json.Plain.text x

/-! Subscriptions by the calls that made them. -/

/-- One pair, or several of one channel. -/
inductive Call where
  | one (c : Channel) (symbol : String)
  | several (c : Channel) (symbols : List String)

def Call.pairs : Call → List (Channel × String)
  | one c symbol => [(c, symbol)]
  | several c symbols => symbols.map (c, ·)

def call (s : Subscription) : Call → Subscription
  | .one c symbol => (s.enter c symbol).2
  | .several c symbols => s.addAll c symbols

def ofCalls (calls : List Call) : Subscription := calls.foldl call {}

/-- The pairs of calls, as often as they are in them. -/
def added (calls : List Call) : List (Channel × String) := calls.flatMap Call.pairs

/-- The subscriptions that there are: those made by calls, and those that are read and then changed by
calls. -/
inductive Made : Subscription → Prop where
  | empty : Made {}
  | json {j : Json} {s : Subscription} (h : ofJson? j = some s) : Made s
  | toml {v : Toml} {s : Subscription} (h : ofToml? v = some s) : Made s
  | call {s : Subscription} (h : Made s) (step : Call) : Made (s.call step)

theorem Ordered.addAll {s : Subscription} (hs : s.Ordered) (c : Channel) (symbols : List String) :
    (s.addAll c symbols).Ordered := by
  induction symbols generalizing s with
  | nil => exact hs
  | cons x rest ih => exact ih (hs.add c x)

theorem Made.ordered {s : Subscription} (h : s.Made) : s.Ordered := by
  induction h with
  | empty => exact ordered_empty
  | json h => exact ordered_of_ofJson? h
  | toml h => exact ordered_of_ofToml? h
  | call _ step ih =>
    cases step with
    | one c symbol => exact ih.add c symbol
    | several c symbols => exact ih.addAll c symbols

/-- A subscription to which just these pairs were added, and that lists no other channels. -/
structure Holds (s : Subscription) (pairs : List (Channel × String)) : Prop where
  ordered : s.Ordered
  mem_iff : ∀ c x, x ∈ s.symbols c ↔ (c, x) ∈ pairs
  used : ∀ c, s.listed c ≠ none → ∃ x, (c, x) ∈ pairs

theorem holds_empty : ({} : Subscription).Holds [] where
  ordered := ordered_empty
  mem_iff c x := by cases c <;> simp [Subscription.symbols, listed]
  used c h := by cases c <;> exact absurd rfl h

theorem Holds.add {s : Subscription} {pairs : List (Channel × String)} (hs : s.Holds pairs)
    (c : Channel) (x : String) : (s.add c x).Holds (pairs ++ [(c, x)]) where
  ordered := hs.ordered.add c x
  mem_iff d y := by
    rw [symbols_add, hs.mem_iff, List.mem_append, List.mem_singleton, Prod.mk.injEq, or_comm]
  used d h := by
    rw [Subscription.add, listed_list] at h
    by_cases hd : d = c
    · subst hd
      exact ⟨x, List.mem_append_right _ (List.mem_singleton_self _)⟩
    · rw [if_neg hd] at h
      obtain ⟨y, hy⟩ := hs.used d h
      exact ⟨y, List.mem_append_left _ hy⟩

theorem Holds.addAll {s : Subscription} {pairs : List (Channel × String)} (hs : s.Holds pairs)
    (c : Channel) (symbols : List String) :
    (s.addAll c symbols).Holds (pairs ++ symbols.map (c, ·)) := by
  induction symbols generalizing s pairs with
  | nil => rwa [List.map_nil, List.append_nil]
  | cons x rest ih =>
    have hrest := ih (hs.add c x)
    rwa [List.append_assoc] at hrest

theorem Holds.call {s : Subscription} {pairs : List (Channel × String)} (hs : s.Holds pairs)
    (step : Call) : (s.call step).Holds (pairs ++ step.pairs) := by
  cases step with
  | one c symbol => exact hs.add c symbol
  | several c symbols => exact hs.addAll c symbols

theorem Holds.callAll {s : Subscription} {pairs : List (Channel × String)} (hs : s.Holds pairs)
    (calls : List Call) : (calls.foldl Subscription.call s).Holds (pairs ++ added calls) := by
  induction calls generalizing s pairs with
  | nil => rwa [added, List.flatMap_nil, List.append_nil]
  | cons step rest ih =>
    have hrest := ih (hs.call step)
    rwa [List.append_assoc] at hrest

theorem holds_ofCalls (calls : List Call) : (ofCalls calls).Holds (added calls) :=
  holds_empty.callAll calls

/-- A channel is listed exactly if one of the pairs is on it. -/
theorem Holds.listed_eq_none_iff {s : Subscription} {pairs : List (Channel × String)}
    (hs : s.Holds pairs) (c : Channel) : s.listed c = none ↔ ∀ x, (c, x) ∉ pairs := by
  constructor
  · intro hnone x hx
    rw [← hs.mem_iff, Subscription.symbols, hnone] at hx
    exact absurd hx List.not_mem_nil
  · intro hpairs
    by_contra hlisted
    obtain ⟨x, hx⟩ := hs.used c hlisted
    exact hpairs x hx

/-- What a subscription holds determines it. -/
theorem Holds.eq {s t : Subscription} {pairs pairs' : List (Channel × String)}
    (hs : s.Holds pairs) (ht : t.Holds pairs') (h : ∀ p, p ∈ pairs ↔ p ∈ pairs') : s = t := by
  refine eq_of_listed fun c => ?_
  have hnone : s.listed c = none ↔ t.listed c = none := by
    rw [hs.listed_eq_none_iff, ht.listed_eq_none_iff]
    exact forall_congr' fun x => not_congr (h (c, x))
  cases hsListed : s.listed c with
  | none => exact (hnone.mp hsListed).symm
  | some symbols =>
    cases htListed : t.listed c with
    | none => exact absurd (hsListed.symm.trans (hnone.mpr htListed)) (by simp)
    | some symbols' =>
      have hsame : ∀ x, x ∈ s.symbols c ↔ x ∈ t.symbols c := by
        intro x
        rw [hs.mem_iff, ht.mem_iff, h]
      rw [Subscription.symbols, Subscription.symbols, hsListed, htListed] at hsame
      exact congrArg some (SymbolSet.eq_of_mem (hs.ordered c symbols hsListed)
        (ht.ordered c symbols' htListed) hsame)

theorem Holds.mem_pairs {s : Subscription} {pairs : List (Channel × String)} (hs : s.Holds pairs)
    (p : Channel × String) : p ∈ s.pairs ↔ p ∈ pairs :=
  (Subscription.mem_pairs s p.1 p.2).trans (hs.mem_iff p.1 p.2)

/-- The size is the number of different pairs. -/
theorem Holds.size_eq {s : Subscription} {pairs : List (Channel × String)} (hs : s.Holds pairs) :
    s.size = pairs.toFinset.card := by
  have hnodup : s.pairs.Nodup := hs.ordered.pairs.imp Before.ne
  have hsame : pairs.toFinset = s.pairs.toFinset := by
    ext p
    rw [List.mem_toFinset, List.mem_toFinset, hs.mem_pairs]
  rw [hsame, List.toFinset_card_of_nodup hnodup, Subscription.size_eq_length_pairs]

/-- The pairs of one channel are its symbols. -/
theorem symbols_eq_filter (s : Subscription) (c : Channel) :
    s.symbols c = (s.pairs.filter fun p => p.1 = c).map Prod.snd := by
  have hsame : ∀ d, ((s.symbols d).map (d, ·)).filter (fun p => p.1 = c) =
      if d = c then (s.symbols d).map (d, ·) else [] := by
    intro d
    by_cases hd : d = c
    · rw [if_pos hd, List.filter_eq_self]
      intro p hp
      obtain ⟨x, -, rfl⟩ := List.mem_map.mp hp
      exact decide_eq_true hd
    · rw [if_neg hd, List.filter_eq_nil_iff]
      intro p hp
      obtain ⟨x, -, rfl⟩ := List.mem_map.mp hp
      simpa using hd
  rw [Subscription.pairs, List.filter_flatMap]
  simp only [hsame, Channel.all]
  cases c <;> simp [List.map_map, Function.comp_def]

theorem pairwise_allSymbols (s : Subscription) : s.allSymbols.Pairwise Precedes :=
  SymbolSet.pairwise_toList (SymbolSet.ascending_ofList _)

/-- A subscription made by calls lists the pairs that were added, each once, by the place of the
channel and then by the octets of the symbol. Adding another pair says whether it is new. The size
is the number of pairs, and the symbols of one channel or of all are those of the pairs, each once
and in order. Calls that add the same pairs make the same subscription. Every subscription that there
is stands in order, and whatever symbols it lists for whatever channels, be it none, it is read back
from its text and from its table. -/
theorem pairs_enlisted (calls : List Call) :
    let s := ofCalls calls
    s.pairs.Pairwise Before ∧ (∀ p, p ∈ s.pairs ↔ p ∈ added calls) ∧
    (∀ c x, (s.enter c x).1 = true ↔ (c, x) ∉ added calls) ∧
    s.size = (added calls).toFinset.card ∧
    (∀ c, s.symbols c = (s.pairs.filter fun p => p.1 = c).map Prod.snd ∧
      (s.symbols c).Pairwise Precedes) ∧
    (s.allSymbols.Pairwise Precedes ∧ ∀ x, x ∈ s.allSymbols ↔ ∃ c, (c, x) ∈ added calls) ∧
    (∀ calls', (∀ p, p ∈ added calls ↔ p ∈ added calls') → ofCalls calls' = s) ∧
    (∀ t : Subscription, t.Made → t.Ordered) ∧
    ∀ t : Subscription, t.Ordered →
      (Json.ofText? t.toJson.render).bind ofJson? = some t ∧ ofToml? t.toTable = some t := by
  intro s
  have hs := holds_ofCalls calls
  refine ⟨hs.ordered.pairs, hs.mem_pairs, ?_, hs.size_eq, ?_, ⟨s.pairwise_allSymbols, ?_⟩, ?_,
    fun _ => Made.ordered, ?_⟩
  · intro c x
    rw [enter_fst, hs.mem_iff]
  · intro c
    exact ⟨s.symbols_eq_filter c, hs.ordered.symbols c⟩
  · intro x
    rw [mem_allSymbols]
    exact exists_congr fun c => hs.mem_pairs (c, x)
  · intro calls' hsame
    exact (holds_ofCalls calls').eq hs fun p => (hsame p).symm
  · intro t ht
    rw [t.plain_toJson.ofText?_render]
    exact ⟨ofJson?_toJson ht, ofToml?_toTable ht⟩

/-- Executions are listed without a symbol. -/
def quiet : Subscription :=
  { trades := some .empty, orderbook := some (.ofList ["ETH-BTC", "BTC-USD"]) }

/-- A pair that is added again is not new and does not count. -/
theorem pairs_enlisted_quiet :
    let calls := [Call.several .trades ["ETH-BTC", "BTC-USD", "ETH-BTC"], .one .ticker "ETH-BTC"]
    (ofCalls calls).size = 3 ∧ ((ofCalls calls).enter .trades "BTC-USD").1 = false ∧
      quiet.Ordered ∧ (Json.ofText? quiet.toJson.render).bind ofJson? = some quiet := by
  intro calls
  obtain ⟨-, -, hnew, hsize, -, -, -, -, hread⟩ := pairs_enlisted calls
  have hquiet : quiet.Ordered := by
    have hempty : ({ trades := some .empty } : Subscription).Ordered :=
      ordered_empty.list .trades Table.ascending_empty
    exact hempty.list .orderbook (SymbolSet.ascending_ofList _)
  have hthere : ¬ ((ofCalls calls).enter .trades "BTC-USD").1 = true := by
    rw [hnew]
    decide
  exact ⟨hsize.trans (by decide), Bool.eq_false_iff.mpr hthere, hquiet, (hread quiet hquiet).1⟩

end Subscription

end MarketFeed.Feed
