import MarketFeed.Collector.Folder
import MarketFeed.Settings.Environment
import MarketFeed.Time.Clock
import MarketFeed.Transport.Host
import MarketFeed.Transport.Peer

/-!
What a collector finds around itself: files, variables, a network, a wire and a clock.
-/
namespace MarketFeed.Collector

open Transport (Network Wire)

structure Surroundings (η ω : Type) where
  find : String → Found
  environment : Settings.Environment
  clock : Time.Clock
  net : Network η
  wire : Wire ω
  /-- Waits so many milliseconds, and says whether waiting was given up. -/
  pause : ω → UInt64 → Bool × ω

/-- Surroundings with a scripted service and a scripted server. -/
def Surroundings.scripted (folder : Folder) (environment : Settings.Environment) :
    Surroundings Transport.Host Transport.Peer where
  find := folder.find
  environment
  clock := { reading := 0 }
  net := Transport.Host.network
  wire := Transport.Peer.wire
  pause p _ := (p.isInterrupting, { p with isInterrupting := false })

/-- Surroundings in which nobody can be reached. -/
def Surroundings.offline (find : String → Found) (environment : Settings.Environment) :
    Surroundings Unit Unit where
  find
  environment
  clock := { reading := 0 }
  net :=
    { build := fun () _ => (true, ())
      send := fun () _ _ => (.error true, ())
      now := fun () => 0 }
  wire :=
    { handshake := fun () _ _ => (.refused, ())
      send := fun () _ => (false, ())
      receive := fun () => (.failed, ())
      close := fun () => ()
      now := fun () => 0
      pending := fun () => 0
      pending_lt := fun _ _ h => by contradiction }
  pause := fun () _ => (false, ())

end MarketFeed.Collector
