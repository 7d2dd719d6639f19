import MarketFeed.Market.Book
import MarketFeed.Table

/-!
The books of all symbols. A symbol has a book from its first snapshot on.
-/
namespace MarketFeed.Market

abbrev Store := Table String Book

namespace Store

/-- Makes a book from a snapshot, in place of the one before. -/
def snapshot (s : Store) (symbol : String) (bids asks : List Level) : Book × Store :=
  let book := ((s.find? symbol).getD { symbol }).replace bids asks
  (book, s.insert symbol book)

/-- Applies changes to a symbol's book, if it has one. -/
def update (s : Store) (symbol : String) (changes : List Change) :
    Option (Book × Delta × Store) :=
  (s.find? symbol).map fun book =>
    let (book, delta) := book.update changes
    (book, delta, s.insert symbol book)

theorem update_of_find? {s : Store} {symbol : String} {book : Book}
    (h : s.find? symbol = some book) (changes : List Change) :
    s.update symbol changes =
      some (book.applyAll changes, Delta.ofChanges changes,
        s.insert symbol (book.applyAll changes)) := by
  rw [update, h]
  rfl

end Store

end MarketFeed.Market
