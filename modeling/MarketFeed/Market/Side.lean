/-!
The two directions of a market: who takes an execution, a buyer or a seller, and on which side of
the order book a price level rests.
-/
namespace MarketFeed.Market

/-- The side that took liquidity. -/
inductive Taker where
  | buy
  | sell
deriving DecidableEq, Repr

/-- Bids rest with the highest price best, asks with the lowest. -/
inductive Side where
  | bid
  | ask
deriving DecidableEq, Repr

namespace Taker

def all : List Taker := [buy, sell]

def name : Taker → String
  | buy => "buy"
  | sell => "sell"

/-- Reads a name in lower case, in upper case or with a capital. -/
def ofName? (s : String) : Option Taker :=
  if s ∈ ["buy", "BUY", "Buy"] then some buy
  else if s ∈ ["sell", "SELL", "Sell"] then some sell
  else none

/-- The message for a text that names no taker. -/
def refusal (s : String) : String := "invalid side: " ++ s

theorem ofName?_name (t : Taker) : ofName? t.name = some t := by cases t <;> decide

end Taker

namespace Side

def all : List Side := [bid, ask]

def name : Side → String
  | bid => "bid"
  | ask => "ask"

end Side

end MarketFeed.Market
