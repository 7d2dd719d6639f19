import MarketFeed.Feed.Error
import MarketFeed.Transport.Capture
import MarketFeed.Market.Book
import MarketFeed.Market.Event

/-!
Where a feed's events go. A sink takes events one by one and may refuse one. A queue passes events
on until its reader is gone; a log writes a line for each.
-/
namespace MarketFeed.Feed

open Market

/-- What a feed hands to a sink: an event, and with a change of a book the book after it. -/
inductive Emission where
  | ticker (t : Ticker)
  | trade (t : Trade)
  | book (book : Book) (change : BookChange)
deriving DecidableEq

namespace Emission

def event : Emission → Event
  | ticker t => .ticker t
  | trade t => .trade t
  | book _ change => .book change

def kind : Emission → String
  | ticker _ => "Ticker"
  | trade _ => "Trade"
  | book .. => "L2Book"

end Emission

/-- A sink with a state: the state after an event, or the error with which the event is refused. -/
abbrev Sink (σ : Type) := σ → Emission → Except Error σ

/-- Hands events to a sink until one is refused. -/
def Sink.deliver {σ : Type} (sink : Sink σ) : σ → List Emission → σ × Except Error Unit
  | s, [] => (s, .ok ())
  | s, e :: rest =>
    match sink s e with
    | .ok s => sink.deliver s rest
    | .error error => (s, .error error)

/-- Events passed on so far, and whether there is someone to read them. -/
structure Queue where
  isOpen : Bool := true
  events : List Event := []
deriving DecidableEq

namespace Queue

def sink : Sink Queue := fun q e =>
  if q.isOpen then .ok { q with events := q.events ++ [e.event] }
  else .error (.sinkClosed ("dropped " ++ e.kind ++ " event"))

end Queue

namespace Emission

def someText (text : Option String) : String :=
  match text with
  | some text => "Some(" ++ text ++ ")"
  | none => "None"

def levelText (l : Level) : String := "(" ++ toString l.price ++ ", " ++ toString l.size ++ ")"

/-- The line that describes an event; a new book is described by its best levels. -/
def line : Emission → Log.Line
  | ticker t =>
    { severity := .debug
      text := "ticker " ++ t.symbol ++ " bid=" ++ someText (t.bid.map toString) ++
        " ask=" ++ someText (t.ask.map toString) }
  | trade t =>
    { severity := .debug
      text := "trade " ++ t.symbol ++ " " ++ t.taker.name ++ " " ++ toString t.amount ++ "@" ++
        toString t.price ++ " id=" ++ t.id }
  | book b change =>
    if change.isSnapshot then
      { severity := .info
        text := "book snapshot " ++ change.symbol ++
          " best bid=" ++ someText ((b.best .bid).map levelText) ++
          " best ask=" ++ someText ((b.best .ask).map levelText) }
    else
      { severity := .debug
        text := "book delta " ++ change.symbol ++ " " ++
          toString ((change.delta.map Delta.size).getD 0) ++ " levels" }

end Emission

/-- The sink that writes a line for each event and refuses none. -/
def logSink : Sink (List Log.Line) := fun lines e => .ok (lines ++ [e.line])

end MarketFeed.Feed
