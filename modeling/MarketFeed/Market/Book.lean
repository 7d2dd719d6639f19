import MarketFeed.Market.Delta

/-!
The order book of one symbol. Each side lists its levels best first. Prices that are equal in value
are one level, however they are written. No level of size zero is kept.
-/
namespace MarketFeed.Market

open Number

/-- Whether one price is better than another. -/
def Side.better : Side → Decimal → Decimal → Bool
  | .bid, p, q => q.units < p.units
  | .ask, p, q => p.units < q.units

namespace Level

/-- Puts a level where its price belongs. If there is a level of an equal price already, `merge`
says what the two become. -/
def place (side : Side) (merge : Level → Level → Level) (new : Level) : List Level → List Level
  | [] => [new]
  | old :: rest =>
    if new.price.units = old.price.units then merge old new :: rest
    else if side.better new.price old.price then new :: old :: rest
    else old :: place side merge new rest

/-- The new level instead of the old one. -/
def put (side : Side) : Level → List Level → List Level := place side fun _ new => new

/-- The new size at the old level, whose price stays as it was written. -/
def resize (side : Side) : Level → List Level → List Level :=
  place side fun old new => { old with size := new.size }

def remove (price : Decimal) (levels : List Level) : List Level :=
  levels.filter fun l => l.price.units ≠ price.units

def sizeAt (price : Decimal) (levels : List Level) : Option Decimal :=
  (levels.find? fun l => l.price.units = price.units).map (·.size)

/-- The levels of a list that have a size. Of several with an equal price the last one counts. -/
def collect (side : Side) (levels : List Level) : List Level :=
  (levels.filter fun l => !l.size.isZero).foldl (fun kept l => put side l kept) []

/-- Size zero takes a level away, any other size sets it. -/
def apply (side : Side) (l : Level) (levels : List Level) : List Level :=
  if l.size.isZero then remove l.price levels else resize side l levels

/-- Whether two lists of levels have equal prices and sizes in turn. -/
def agree (l m : List Level) : Bool :=
  l.map (fun x => (x.price.units, x.size.units)) == m.map fun x => (x.price.units, x.size.units)

end Level

structure Book where
  symbol : String
  bids : List Level := []
  asks : List Level := []
deriving DecidableEq

namespace Book

def levels (b : Book) : Side → List Level
  | .bid => b.bids
  | .ask => b.asks

def sizeAt (b : Book) (side : Side) (price : Decimal) : Option Decimal :=
  Level.sizeAt price (b.levels side)

def best (b : Book) (side : Side) : Option Level := (b.levels side).head?

def depth (b : Book) (side : Side) : Nat := (b.levels side).length

def isEmpty (b : Book) : Bool := b.bids.isEmpty && b.asks.isEmpty

/-- Both sides given anew. -/
def replace (b : Book) (bids asks : List Level) : Book :=
  { b with bids := Level.collect .bid bids, asks := Level.collect .ask asks }

def apply (b : Book) (c : Change) : Book :=
  match c.side with
  | .bid => { b with bids := Level.apply .bid c.level b.bids }
  | .ask => { b with asks := Level.apply .ask c.level b.asks }

def applyAll (b : Book) (changes : List Change) : Book := changes.foldl apply b

/-- Applies changes and reports them as a delta. -/
def update (b : Book) (changes : List Change) : Book × Delta :=
  (b.applyAll changes, Delta.ofChanges changes)

/-- Applies a delta reported by another book. -/
def replay (b : Book) (d : Delta) : Book := b.applyAll d.changes

/-- Whether two books of a symbol have equal levels. -/
def agrees (a b : Book) : Bool :=
  a.symbol == b.symbol && Level.agree a.bids b.bids && Level.agree a.asks b.asks

theorem levels_apply (b : Book) (c : Change) (side : Side) :
    (b.apply c).levels side =
      if c.side = side then Level.apply side c.level (b.levels side) else b.levels side := by
  obtain ⟨s, level⟩ := c
  cases s <;> cases side <;> simp [apply, levels]

end Book

end MarketFeed.Market
