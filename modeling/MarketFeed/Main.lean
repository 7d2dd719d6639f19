import MarketFeed.Collector.Run

/-!
The collector as a program. It has no network of its own: every connection is refused.
-/
namespace MarketFeed.Main

open Collector

def variableNames : List String :=
  ["HITBTC_WS_URL", "HITBTC_SYMBOLS_URL", "HITBTC_PAIRS", "HITBTC_CHANNELS"]

def environment : IO Settings.Environment := do
  let values ← variableNames.mapM fun name => do
    let value ← IO.getEnv name
    pure (name, value)
  pure fun name => (values.lookup name).join

def look (path : String) : IO Found := do
  try
    let content ← IO.FS.readBinFile path
    pure (.file content.toList)
  catch
    | .noFileOrDirectory .. => pure .nothing
    | _ => pure .unreadable

end MarketFeed.Main

open MarketFeed Collector in
def main (arguments : List String) : IO UInt32 := do
  let path := match CommandLine.read arguments with
    | .run options => options.config
    | _ => ""
  let found ← if path.isEmpty then pure .nothing else Main.look path
  let surroundings := Surroundings.offline (fun _ => found) (← Main.environment)
  let report := run surroundings arguments (·.reconnect.attempts.toNat + 2) () ()
  for line in report.log do
    IO.println (line.severity.name ++ " " ++ line.text)
  match report.ending.failure? with
  | some f => IO.eprintln ("Error: " ++ f.context ++ "\n\nCaused by:\n    " ++ f.cause)
  | none => pure ()
  pure (UInt32.ofNat report.ending.exit)
