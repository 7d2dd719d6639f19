import MarketFeed.Feed.Continuity
import MarketFeed.Feed.Frame
import MarketFeed.Feed.Sink
import MarketFeed.Feed.Subscription
import MarketFeed.Feed.SymbolTable
import MarketFeed.Market.Store

/-!
A feed: what it subscribes to, the last numbers of its symbols and their order books. `handle` says
what one frame does. A frame is taken if it is well formed, continues its symbol's numbers, has a
known symbol, and, if it changes a book, finds one; any other frame changes nothing.
-/
namespace MarketFeed.Feed

open Market

/-- The stages of a feed's life. -/
inductive Phase where
  | disconnected
  | subscribing
  | streaming
  | gap
  | connectionLost
deriving DecidableEq

namespace Phase

def all : List Phase := [disconnected, subscribing, streaming, gap, connectionLost]

def name : Phase → String
  | disconnected => "disconnected"
  | subscribing => "subscribing"
  | streaming => "streaming"
  | gap => "gap"
  | connectionLost => "connection_lost"

/-- Whether a session has ended in this stage. -/
def isTerminal : Phase → Bool
  | gap | connectionLost => true
  | _ => false

end Phase

end Feed

structure Feed where
  symbols : Feed.SymbolTable
  subscription : Feed.Subscription
  guard : Feed.Continuity := .empty
  books : Market.Store := .empty
  phase : Feed.Phase := .disconnected

namespace Feed

open Market

/-- The name of the exchange. -/
def exchange : String := "HITBTC"

/-- The symbols of the exchange that a subscription asks for, by channel. -/
def requests (symbols : SymbolTable) (subscription : Subscription) :
    Except Error (List (Channel × String)) :=
  subscription.pairs.mapM fun (channel, symbol) =>
    (symbols.exchangeSymbol symbol).map fun exchange => (channel, exchange)

/-- A feed for a subscription that is not empty and has only known symbols. -/
def make (symbols : SymbolTable) (subscription : Subscription) : Except Error Feed :=
  if subscription.isEmpty then .error (.configuration "HitBTC subscription is empty")
  else (requests symbols subscription).map fun _ => { symbols, subscription }

/-- The frame that subscribes to a symbol of the exchange on a channel. -/
def subscribeFrame (id : String) (channel : Channel) (exchange : String) : Json :=
  .object [("id", .text id), ("method", .text channel.method),
    ("params", .object [("symbol", .text exchange)])]

/-- The frames a feed subscribes with, one for each channel and symbol. -/
def subscribeFrames (f : Feed) (id : String) : Except Error (List String) :=
  (requests f.symbols f.subscription).map fun pairs =>
    pairs.map fun (channel, exchange) => (subscribeFrame id channel exchange).render

/-- Keeps the number of a numbered frame. -/
def confirm (f : Feed) (symbol : String) (sequence : Option UInt64) : Except Error Feed :=
  match sequence with
  | none => .ok f
  | some sequence => (f.guard.observe symbol sequence).map fun guard => { f with guard }

/-- What a frame leads to: the feed after it, and the events to publish or an error. -/
abbrev Outcome := Feed × Except Error (List Emission)

def Outcome.fail (f : Feed) (e : Error) : Outcome := (f, .error e)

def onTicker (f : Feed) (frame : TickerFrame) (receipt : UInt64) : Outcome :=
  match f.symbols.resolve frame.symbol with
  | .error e => .fail f e
  | .ok symbol =>
    match f.confirm frame.symbol frame.sequence with
    | .error e => .fail f e
    | .ok f =>
      (f, .ok [.ticker { symbol, bid := frame.bid, ask := frame.ask,
                         timestamp := frame.timestamp, receipt }])

def onSnapshot (f : Feed) (frame : BookFrame) (receipt : UInt64) : Outcome :=
  match f.symbols.standardSymbol frame.symbol with
  | .error e => .fail f e
  | .ok symbol =>
    match f.confirm frame.symbol frame.sequence with
    | .error e => .fail f e
    | .ok f =>
      let (book, books) := f.books.snapshot symbol frame.bid frame.ask
      ({ f with books },
        .ok [.book book (.snapshot symbol (frame.timestamp.getD receipt) receipt)])

def onUpdate (f : Feed) (frame : BookFrame) (receipt : UInt64) : Outcome :=
  match f.symbols.resolve frame.symbol with
  | .error e => .fail f e
  | .ok symbol =>
    if !f.books.contains symbol then .fail f (.missingSnapshot symbol)
    else
      match f.confirm frame.symbol frame.sequence with
      | .error e => .fail f e
      | .ok f =>
        match f.books.update symbol frame.changes with
        | none => .fail f (.missingSnapshot symbol)
        | some (book, delta, books) =>
          ({ f with books },
            .ok [.book book (.incremental symbol delta (frame.timestamp.getD receipt) receipt)])

def onTrades (f : Feed) (frame : TradesFrame) (receipt : UInt64) : Outcome :=
  match f.symbols.resolve frame.symbol with
  | .error e => .fail f e
  | .ok symbol =>
    match f.confirm frame.symbol frame.sequence with
    | .error e => .fail f e
    | .ok f =>
      (f, .ok (frame.trades.map fun t =>
        .trade { symbol, taker := t.taker, price := t.price, amount := t.amount, id := t.id,
                 timestamp := t.timestamp, receipt }))

/-- What a frame that was read does. -/
def apply (f : Feed) (receipt : UInt64) : Frame → Outcome
  | .ticker frame => f.onTicker frame receipt
  | .snapshot frame => f.onSnapshot frame receipt
  | .update frame => f.onUpdate frame receipt
  | .trades frame => f.onTrades frame receipt
  | .result _ | .serverError _ | .unrecognized _ => (f, .ok [])

/-- Whether a frame continues the numbers of its symbol. -/
def checkFrame (f : Feed) (frame : Frame) : Except Error Unit :=
  match frame.sequenced? with
  | none => .ok ()
  | some (symbol, sequence) => f.guard.check symbol sequence

/-- What a raw frame does. -/
def handle (f : Feed) (raw : String) (receipt : UInt64) : Outcome :=
  match Frame.decode raw with
  | .error e => .fail f e
  | .ok frame =>
    match f.checkFrame frame with
    | .error e => .fail f e
    | .ok () => f.apply receipt frame

/-- Handles a raw frame and hands its events to a sink. -/
def handleWith {σ : Type} (sink : Sink σ) (f : Feed) (s : σ) (raw : String) (receipt : UInt64) :
    Feed × σ × Except Error Unit :=
  match f.handle raw receipt with
  | (f, .error e) => (f, s, .error e)
  | (f, .ok emissions) => (f, sink.deliver s emissions)

/-- A feed at the start of a session: no numbers and no books. -/
def beginSession (f : Feed) : Feed :=
  { f with guard := .empty, books := .empty, phase := .subscribing }

end Feed

end MarketFeed
