import MarketFeed.Settings.Basic
import MarketFeed.Toml.Reader

/-!
Settings in a TOML file. A setting that is not given keeps the value it has without a file, and a
name that is no setting is left alone; a subscription is given as a whole.
-/
namespace MarketFeed

namespace Feed.Subscription

def ofToml? : Toml → Option Subscription
  | .table entries => do
    ofEntries? (← entries.mapM fun (name, v) => do some (name, ← Toml.list? Toml.asText? v))
  | _ => none

end Feed.Subscription

namespace Settings

open Toml (group? setting?)

def word? (v : Toml) : Option UInt64 := (v.asNat? 64).map UInt64.ofNat

def count? (v : Toml) : Option UInt32 := (v.asNat? 32).map UInt32.ofNat

def Streaming.ofToml? (v : Toml) : Option Streaming := do
  let d : Streaming := {}
  let group ← group? ["url", "connect_timeout_ms", "connection_id_base"] v
  let url ← setting? group "url" d.url Toml.asText?
  let connectTimeout ← setting? group "connect_timeout_ms" d.connectTimeout word?
  let idBase ← setting? group "connection_id_base" d.idBase Toml.asText?
  some { url, connectTimeout, idBase }

def Rest.ofToml? (v : Toml) : Option Rest := do
  let d : Rest := {}
  let group ← group?
    ["symbols_url", "throttle_limit", "throttle_interval_secs", "request_timeout_ms"] v
  let symbolsUrl ← setting? group "symbols_url" d.symbolsUrl Toml.asText?
  let limit ← setting? group "throttle_limit" d.limit count?
  let interval ← setting? group "throttle_interval_secs" d.interval word?
  let timeout ← setting? group "request_timeout_ms" d.timeout word?
  some { symbolsUrl, limit, interval, timeout }

def Naming.ofToml? (v : Toml) : Option Naming := do
  let d : Naming := {}
  let group ← group? ["allow_missing", "separator"] v
  let allowMissing ← setting? group "allow_missing" d.allowMissing Toml.asBool?
  let separator ← setting? group "separator" d.separator Toml.asText?
  some { allowMissing, separator }

def Reconnect.ofToml? (v : Toml) : Option Reconnect := do
  let d : Reconnect := {}
  let group ← group? ["base_backoff_ms", "max_backoff_ms", "max_attempts"] v
  let base ← setting? group "base_backoff_ms" d.base word?
  let max ← setting? group "max_backoff_ms" d.max word?
  let attempts ← setting? group "max_attempts" d.attempts count?
  some { base, max, attempts }

def ofToml? (v : Toml) : Option Settings := do
  let d : Settings := {}
  let group ← group?
    ["raw_capture", "websocket", "rest", "subscription", "symbols", "reconnect"] v
  let rawCapture ← setting? group "raw_capture" d.rawCapture Toml.asBool?
  let streaming ← setting? group "websocket" d.streaming Streaming.ofToml?
  let rest ← setting? group "rest" d.rest Rest.ofToml?
  let subscription ← setting? group "subscription" d.subscription Feed.Subscription.ofToml?
  let naming ← setting? group "symbols" d.naming Naming.ofToml?
  let reconnect ← setting? group "reconnect" d.reconnect Reconnect.ofToml?
  some { rawCapture, streaming, rest, subscription, naming, reconnect }

/-- Reads the text of a settings file. -/
def ofText (text : String) : Except Feed.Error Settings :=
  match (Toml.ofText? text).bind ofToml? with
  | some s => .ok s
  | none => .error (.configuration "Failed to parse TOML configuration")

end Settings

end MarketFeed
