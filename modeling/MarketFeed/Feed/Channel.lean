import MarketFeed.Feed.Error
import MarketFeed.Text.Characters

/-!
The kinds of data a feed can subscribe to, in the order in which it does.
-/
namespace MarketFeed.Feed

inductive Channel where
  | ticker
  | trades
  | orderbook
deriving DecidableEq, Repr

namespace Channel

def all : List Channel := [ticker, trades, orderbook]

def name : Channel → String
  | ticker => "ticker"
  | trades => "trades"
  | orderbook => "orderbook"

/-- The method that subscribes to a channel. -/
def method : Channel → String
  | ticker => "subscribeTicker"
  | trades => "subscribeTrades"
  | orderbook => "subscribeOrderbook"

/-- A channel by its name; order books have two. -/
def ofName? (s : String) : Option Channel :=
  match s with
  | "ticker" => some ticker
  | "trades" => some trades
  | "orderbook" | "l2_book" => some orderbook
  | _ => none

/-- A name as people write it: blanks around it and capital letters do not matter. -/
def ofText (s : String) : Except Error Channel :=
  let name := String.ofList ((Text.Blank.trim s.toList).map Char.toLower)
  match ofName? name with
  | some c => .ok c
  | none => .error (.configuration ("Unknown feed channel: " ++ name))

theorem ofName?_name (c : Channel) : ofName? c.name = some c := by cases c <;> rfl

end Channel

end MarketFeed.Feed
