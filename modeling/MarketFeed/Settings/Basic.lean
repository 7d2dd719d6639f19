import MarketFeed.Feed.Subscription
import MarketFeed.Settings.Backoff
import MarketFeed.Toml.Basic
import MarketFeed.Url.Basic

/-!
Settings of a feed, with the values they have if nothing else is said, and which of them a feed can
run with.
-/
namespace MarketFeed

namespace Settings

structure Streaming where
  url : String := "wss://api.hitbtc.com/api/2/ws"
  /-- How long connecting may take, in milliseconds. -/
  connectTimeout : UInt64 := 10000
  /-- The base of connection ids. -/
  idBase : String := "hitbtc"
deriving DecidableEq

structure Rest where
  symbolsUrl : String := "https://api.hitbtc.com/api/2/public/symbol"
  /-- The weight of requests allowed in a minute. -/
  limit : UInt32 := 100
  /-- The interval that is reported, in seconds. -/
  interval : UInt64 := 60
  /-- How long a request may take, in milliseconds. -/
  timeout : UInt64 := 10000
deriving DecidableEq

structure Naming where
  /-- Whether a symbol of the exchange that is not in its list may stand for itself. -/
  allowMissing : Bool := false
  /-- What stands between base and quote in standard names. -/
  separator : String := "-"
deriving DecidableEq

def defaultSubscription : Feed.Subscription :=
  (({} : Feed.Subscription).addAll .ticker ["BTC-USD"]).addAll .trades ["BTC-USD", "ETH-BTC"]
    |>.addAll .orderbook ["BTC-USD"]

end Settings

structure Settings where
  rawCapture : Bool := false
  streaming : Settings.Streaming := {}
  rest : Settings.Rest := {}
  subscription : Feed.Subscription := Settings.defaultSubscription
  naming : Settings.Naming := {}
  reconnect : Settings.Reconnect := {}

namespace Settings

instance : Inhabited Settings := ⟨{}⟩

def toJson (s : Settings) : Json :=
  .object [
    ("raw_capture", .bool s.rawCapture),
    ("websocket", .object [("url", .text s.streaming.url),
      ("connect_timeout_ms", .int s.streaming.connectTimeout.toNat),
      ("connection_id_base", .text s.streaming.idBase)]),
    ("rest", .object [("symbols_url", .text s.rest.symbolsUrl),
      ("throttle_limit", .int s.rest.limit.toNat),
      ("throttle_interval_secs", .int s.rest.interval.toNat),
      ("request_timeout_ms", .int s.rest.timeout.toNat)]),
    ("subscription", s.subscription.toJson),
    ("symbols", .object [("allow_missing", .bool s.naming.allowMissing),
      ("separator", .text s.naming.separator)]),
    ("reconnect", s.reconnect.toJson)]

def invalid {α : Type} (reason : String) : Except Feed.Error α := .error (.configuration reason)

/-- Checks an address. -/
def checkUrl (address scheme name mustUse : String) : Except Feed.Error Unit :=
  match Url.ofText? address with
  | none => invalid ("Invalid " ++ name ++ " URL " ++ address)
  | some url =>
    if url.scheme = scheme then .ok ()
    else invalid (mustUse ++ " URL must use " ++ scheme ++ "://, got " ++ address)

def validate (s : Settings) : Except Feed.Error Unit := do
  if s.subscription.isEmpty then invalid "No channel/pair subscriptions configured"
  checkUrl s.streaming.url "wss" "WebSocket" "WebSocket"
  checkUrl s.rest.symbolsUrl "https" "symbols" "Symbols"
  if s.rest.limit = 0 then invalid "throttle_limit must be positive"
  if s.reconnect.max < s.reconnect.base then
    invalid ("base_backoff_ms (" ++ toString s.reconnect.base ++ ") exceeds max_backoff_ms (" ++
      toString s.reconnect.max ++ ")")

end Settings

end MarketFeed
