import MarketFeed.Feed.Channel
import MarketFeed.Json.Record

/-!
What a feed subscribes to: for each channel a set of symbols, in ascending order. A channel may be
listed with no symbols; it is then written out as such and subscribes to nothing.
-/
namespace MarketFeed.Feed

abbrev SymbolSet := Table String Unit

namespace SymbolSet

def add (s : SymbolSet) (symbol : String) : SymbolSet := s.insert symbol ()

/-- Adds a symbol and says whether it is new. -/
def enter (s : SymbolSet) (symbol : String) : Bool × SymbolSet :=
  (!s.contains symbol, s.add symbol)

def ofList (symbols : List String) : SymbolSet := symbols.foldl add .empty

def toList (s : SymbolSet) : List String := s.keys

end SymbolSet

structure Subscription where
  ticker : Option SymbolSet := none
  trades : Option SymbolSet := none
  orderbook : Option SymbolSet := none

namespace Subscription

instance : Inhabited Subscription := ⟨{}⟩

/-- The symbols listed for a channel, if it is listed. -/
def listed (s : Subscription) : Channel → Option SymbolSet
  | .ticker => s.ticker
  | .trades => s.trades
  | .orderbook => s.orderbook

/-- Lists a channel with a set of symbols, in place of what was listed for it. -/
def list (s : Subscription) (c : Channel) (symbols : SymbolSet) : Subscription :=
  match c with
  | .ticker => { s with ticker := some symbols }
  | .trades => { s with trades := some symbols }
  | .orderbook => { s with orderbook := some symbols }

def symbols (s : Subscription) (c : Channel) : List String :=
  ((s.listed c).map SymbolSet.toList).getD []

/-- Adds one symbol to a channel. -/
def add (s : Subscription) (c : Channel) (symbol : String) : Subscription :=
  s.list c (((s.listed c).getD .empty).add symbol)

/-- Adds one symbol to a channel and says whether it is new there. -/
def enter (s : Subscription) (c : Channel) (symbol : String) : Bool × Subscription :=
  let (new, symbols) := ((s.listed c).getD .empty).enter symbol
  (new, s.list c symbols)

def addAll (s : Subscription) (c : Channel) (symbols : List String) : Subscription :=
  symbols.foldl (fun s symbol => s.add c symbol) s

def pairs (s : Subscription) : List (Channel × String) :=
  Channel.all.flatMap fun c => (s.symbols c).map (c, ·)

/-- The symbols of all channels, each once. -/
def allSymbols (s : Subscription) : List String :=
  (SymbolSet.ofList (Channel.all.flatMap s.symbols)).toList

/-- How many symbols are listed, over all channels. -/
def size (s : Subscription) : Nat :=
  Channel.all.foldl (fun n c => n + ((s.listed c).map Table.size).getD 0) 0

def isEmpty (s : Subscription) : Bool := s.size == 0

/-- The subscription that lists channels by name, one after another. -/
def ofEntries? (entries : List (String × List String)) : Option Subscription :=
  entries.foldlM (fun s (name, symbols) =>
    (Channel.ofName? name).map fun c => s.list c (SymbolSet.ofList symbols)) {}

def toJson (s : Subscription) : Json :=
  .object (Channel.all.filterMap fun c =>
    (s.listed c).map fun symbols => (c.name, .array (symbols.toList.map Json.text)))

def ofJson? : Json → Option Subscription
  | .object fields => do
    ofEntries? (← fields.mapM fun (name, j) => do some (name, ← Json.list? Json.asText? j))
  | _ => none

theorem length_symbols (s : Subscription) (c : Channel) :
    (s.symbols c).length = ((s.listed c).map Table.size).getD 0 := by
  rw [symbols]
  cases s.listed c with
  | none => rfl
  | some symbols => exact List.length_map _

theorem size_eq_length_pairs (s : Subscription) : s.size = s.pairs.length := by
  simp [size, pairs, Channel.all, length_symbols]
  omega

theorem listed_list (s : Subscription) (c d : Channel) (symbols : SymbolSet) :
    (s.list c symbols).listed d = if d = c then some symbols else s.listed d := by
  cases c <;> cases d <;> rfl

end Subscription

end MarketFeed.Feed
