import MarketFeed.Collector.CommandLine
import MarketFeed.Collector.Failure
import MarketFeed.Collector.Supervisor
import MarketFeed.Collector.Surroundings
import MarketFeed.Feed.Session
import MarketFeed.Settings.Basic
import MarketFeed.Time.Clock
import MarketFeed.Transport.AsyncHttp
import MarketFeed.Transport.Socket
import MarketFeed.Transport.Throttle

/-!
A run of the collector: it loads its settings, fetches the table of symbols, and then runs one
session of the feed after another.
-/
namespace MarketFeed.Collector

open Transport (AsyncHttp Socket Throttled)

/-- Events consumed so far, and lines logged. -/
structure Tally where
  events : Nat := 0
  log : List Log.Line := []
deriving DecidableEq

namespace Tally

def say (t : Tally) (severity : Log.Severity) (text : String) : Tally :=
  { t with log := t.log ++ [{ severity, text }] }

/-- How often the number of events is logged. -/
def step : Nat := 10000

/-- Counts an event, and reports the count now and then. -/
def sink : Feed.Sink Tally := fun t _ =>
  let t := { t with events := t.events + 1 }
  .ok (if t.events % step = 0 then
    t.say .info ("📊 " ++ toString t.events ++ " events received") else t)

end Tally

/-- How a run ends. `broken` is a run that breaks off because no buffer of the size asked for can be
made, and `unfinished` one that was given no further session. -/
inductive Ending where
  | done
  | failed (f : Failure)
  | mistake
  | broken
  | unfinished
deriving DecidableEq

/-- The exit code of a run. -/
def Ending.exit : Ending → Nat
  | done | unfinished => 0
  | failed _ => 1
  | mistake => 2
  | broken => 101

/-- The failure of a run, if it failed. -/
def Ending.failure? : Ending → Option Failure
  | failed f => some f
  | _ => none

/-- What is left after a run. -/
structure Report (η ω : Type) where
  ending : Ending
  log : List Log.Line
  network : η
  wire : ω

variable {η ω : Type}

/-- Settings from the file under a path, or from the environment alone if there is none; with them
the lines logged so far. -/
def loadSettings (w : Surroundings η ω) (path : String) :
    List Log.Line × Except Failure Settings :=
  match w.find path with
  | .nothing =>
    let (settings, applied) := ({} : Settings).withEnvironment w.environment
    ([Log.info ("📋 " ++ path ++ " not found, using default configuration")],
      match applied with
      | .ok () => .ok settings
      | .error e => .error (.environment e))
  | found =>
    ([], (Settings.load found.octets? w.environment).mapError (.loading path))

/-- Settings that a run can use. -/
def checkSettings (s : Settings) : Except Failure Settings :=
  match s.validate with
  | .ok () => .ok s
  | .error e => .error (.settings e)

/-- The lines that a run begins with. -/
def greeting (s : Settings) : List Log.Line :=
  [Log.info "🚀 Starting HitBTC Collector",
    Log.info ("   WebSocket: " ++ s.streaming.url),
    Log.info ("   Subscriptions: " ++ toString s.subscription.size ++ " channel/symbol pairs"),
    Log.info ("   Raw capture: " ++ toString s.rawCapture)]

/-- Fetches the table of symbols over a throttled channel. -/
def fetchSymbols (w : Surroundings η ω) (s : Settings) (identity : Transport.Identity)
    (network : η) : η × Except Failure Feed.SymbolTable :=
  let channel : Throttled (AsyncHttp η) :=
    { inner :=
        { identity, network, timeout := some s.rest.timeout.toNat
          records := if s.rawCapture then some [] else none }
      window := { limit := s.rest.limit }
      clock := w.clock }
  let client := Throttled.client (AsyncHttp.client w.net)
  match client.read channel { address := s.rest.symbolsUrl } with
  | (channel, .error e) => (channel.inner.network, .error (.fetching s.rest.symbolsUrl e))
  | (channel, .ok reply) =>
    ((client.close channel).inner.network,
      match Feed.SymbolTable.ofPayload reply.text s.naming.separator with
      | .ok table => .ok { table with allowMissing := s.naming.allowMissing }
      | .error e => .error (.symbols e))

/-- A running collector. -/
structure Running (ω : Type) where
  setup : Feed.Setup (Socket ω) Tally
  backoff : Settings.Backoff

namespace Running

def say (r : Running ω) (severity : Log.Severity) (text : String) : Running ω :=
  { r with setup := { r.setup with sink := r.setup.sink.say severity text } }

def farewell (r : Running ω) : Running ω := r.say .info "📡 Received Ctrl+C, shutting down..."

/-- How the last session ended, if it did with this error. -/
def sessionEnd (r : Running ω) (error : Feed.Error) : SessionEnd :=
  { phase := r.setup.feed.phase, received := r.setup.stream.identity.received, error }

/-- The line that announces another attempt. -/
def retryText (r : Running ω) (e : Feed.Error) (delay : UInt64) : String :=
  r.setup.stream.identity.id ++ " ended in state " ++ r.setup.feed.phase.name ++ ": " ++
    e.message ++ ". Reconnecting in " ++ Time.Duration.text delay.toNat ++ " (attempt " ++
    toString r.backoff.attempts ++ "/" ++ toString r.backoff.reconnect.attempts.toNat ++ ")"

/-- Runs sessions, at most so many, until one ends the collector or waiting is given up. -/
def supervise (w : Surroundings η ω) : (sessions : Nat) → Running ω → Running ω × Ending
  | 0, r => (r, .unfinished)
  | sessions + 1, r =>
    let (setup, ending) := r.setup.run (Socket.stream w.wire) Tally.sink
    let r := { r with setup }
    match ending with
    | .interrupted =>
      let r := r.farewell
      ({ r with setup := { r.setup with stream := r.setup.stream.close w.wire } }, .done)
    | .failed e =>
      let (verdict, backoff) := (r.sessionEnd e).judge r.backoff
      let r := { r with backoff }
      match verdict with
      | .stop =>
        (r.say .error ("🔥 HitBTC feed failed permanently: " ++ e.message), .failed (.stopped e))
      | .giveUp =>
        (r.say .error ("🔥 CRASH: Exceeded maximum WebSocket connection attempts (" ++
          toString r.backoff.reconnect.attempts.toNat ++ ")"), .failed (.exhausted e))
      | .wait delay =>
        let r := r.say .warn (r.retryText e delay)
        let (given, wire) := w.pause r.setup.stream.wire delay
        let r := { r with setup := { r.setup with stream := { r.setup.stream with wire } } }
        if given then (r.farewell, .done) else supervise w sessions r

end Running

/-- The most events that a buffer can be made for. -/
def maxBuffer : Nat := 1 <<< 61 - 1

/-- Makes the feed and its socket. -/
def prepare (s : Settings) (symbols : Feed.SymbolTable) (identity : Transport.Identity)
    (wire : ω) (log : List Log.Line) : Except Failure (Running ω) := do
  let feed ← (Feed.make symbols s.subscription).mapError .feed
  let stream ← (Socket.make s.streaming.url identity wire).mapError .socket
  let stream := { stream with
    timeout := s.streaming.connectTimeout.toNat
    records := if s.rawCapture then some [] else none }
  .ok { setup := { feed, stream, sink := { log } }, backoff := { reconnect := s.reconnect } }

/-- Runs the feed with settings that are good. -/
def runWith (w : Surroundings η ω) (o : Options) (s : Settings) (sessions : Nat) (network : η)
    (wire : ω) (log : List Log.Line) : Report η ω :=
  let ids : Transport.IdSource := {}
  let (httpIdentity, ids) := ids.identity s.streaming.idBase .http
  let (network, symbols) := fetchSymbols w s httpIdentity network
  match symbols with
  | .error f => { ending := .failed f, log, network, wire }
  | .ok symbols =>
    if o.buffer = 0 ∨ maxBuffer < o.buffer then { ending := .broken, log, network, wire }
    else
      match prepare s symbols (ids.identity s.streaming.idBase .ws).1 wire log with
      | .error f => { ending := .failed f, log, network, wire }
      | .ok running =>
        let (r, ending) := running.supervise w sessions
        let tally := r.setup.sink.say .info
          ("📊 Final stats: " ++ toString r.setup.sink.events ++ " events received")
        { ending, log := tally.log, network, wire := r.setup.stream.wire }

/-- Runs a collector with arguments from the command line. How many sessions it runs at most may
depend on its settings. -/
def run (w : Surroundings η ω) (arguments : List String) (sessions : Settings → Nat) (network : η)
    (wire : ω) : Report η ω :=
  match CommandLine.read arguments with
  | .information => { ending := .done, log := [], network, wire }
  | .mistake => { ending := .mistake, log := [], network, wire }
  | .run options =>
    let (log, loaded) := loadSettings w options.config
    match loaded.bind checkSettings with
    | .error f => { ending := .failed f, log, network, wire }
    | .ok s => runWith w options s (sessions s) network wire (log ++ greeting s)

/-- A run with a scripted service and a scripted server. Between two sessions that the server plays
no more attempts are made than are allowed, so the run comes to its end. -/
def runScripted (folder : Folder) (environment : Settings.Environment) (arguments : List String)
    (host : Transport.Host) (peer : Transport.Peer) : Report Transport.Host Transport.Peer :=
  let sessions (s : Settings) : Nat :=
    (peer.meetings.length + 1) * (s.reconnect.attempts.toNat + 1) + 1
  run (.scripted folder environment) arguments sessions host peer

end MarketFeed.Collector
