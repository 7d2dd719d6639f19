import MarketFeed.Market.Side
import MarketFeed.Number.Decimal

/-!
Changes of price levels. A delta lists the changes of one book frame by side, each side in the
order in which they came; size zero takes a level away, also one that was not there.
-/
namespace MarketFeed.Market

open Number

structure Level where
  price : Decimal
  size : Decimal
deriving DecidableEq

instance : Inhabited Level := ⟨{ price := Decimal.zero, size := Decimal.zero }⟩

/-- A level of one side. -/
structure Change where
  side : Side
  level : Level
deriving DecidableEq

structure Delta where
  bid : List Level := []
  ask : List Level := []
deriving DecidableEq

namespace Delta

def levels (d : Delta) : Side → List Level
  | .bid => d.bid
  | .ask => d.ask

/-- Adds one change after those of its side. -/
def push (d : Delta) (c : Change) : Delta :=
  match c.side with
  | .bid => { d with bid := d.bid ++ [c.level] }
  | .ask => { d with ask := d.ask ++ [c.level] }

def ofChanges (changes : List Change) : Delta := changes.foldl push {}

/-- The changes of a delta, those of bids first. -/
def changes (d : Delta) : List Change :=
  d.bid.map (Change.mk .bid) ++ d.ask.map (Change.mk .ask)

def size (d : Delta) : Nat := d.bid.length + d.ask.length

def isEmpty (d : Delta) : Bool := d.bid.isEmpty && d.ask.isEmpty

theorem levels_push (d : Delta) (c : Change) (s : Side) :
    (d.push c).levels s = d.levels s ++ if c.side = s then [c.level] else [] := by
  obtain ⟨side, level⟩ := c
  cases side <;> cases s <;> simp [push, levels]

theorem size_push (d : Delta) (c : Change) : (d.push c).size = d.size + 1 := by
  obtain ⟨side, level⟩ := c
  cases side <;> simp [push, size] <;> omega

end Delta

end MarketFeed.Market
