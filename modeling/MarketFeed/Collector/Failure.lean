import MarketFeed.Feed.Error

/-!
Why a collector fails: what it was about, and the cause below it.
-/
namespace MarketFeed.Collector

inductive Failure where
  | loading (path : String) (cause : Feed.Error)
  | environment (cause : Feed.Error)
  | settings (cause : Feed.Error)
  | fetching (url : String) (cause : Transport.Error)
  | symbols (cause : Feed.Error)
  | feed (cause : Feed.Error)
  | socket (cause : Transport.Error)
  | stopped (cause : Feed.Error)
  | exhausted (cause : Feed.Error)
deriving DecidableEq

namespace Failure

/-- What the collector was about. -/
def context : Failure → String
  | loading path _ => "Failed to load " ++ path
  | environment _ => "Invalid environment override"
  | settings _ => "Invalid configuration"
  | fetching url _ => "Failed to fetch symbols from " ++ url
  | symbols _ => "Failed to parse HitBTC symbol table"
  | feed _ => "Failed to create HitBTC feed"
  | socket _ => "Failed to create WebSocket channel"
  | stopped _ => "HitBTC feed stopped"
  | exhausted _ => "Max WebSocket connection attempts exceeded"

/-- The cause in words. -/
def cause : Failure → String
  | fetching _ cause | socket cause => cause.message
  | loading _ cause | environment cause | settings cause | symbols cause | feed cause
  | stopped cause | exhausted cause => cause.message

end Failure

end MarketFeed.Collector
