/-!
Names and counters of connections. An id source numbers the connections of each kind on their own,
from zero. An identity counts the sessions of one connection and the messages of the latest.
-/
namespace MarketFeed.Transport

inductive Kind where
  | http
  | ws
deriving DecidableEq

def Kind.all : List Kind := [http, ws]

def Kind.name : Kind → String
  | http => "http"
  | ws => "ws"

/-- How many ids of each kind have been given out, counted in 64 bits. -/
structure IdSource where
  http : UInt64 := 0
  ws : UInt64 := 0
deriving DecidableEq

/-- All counters count in 64 bits. -/
structure Identity where
  id : String
  kind : Kind
  sent : UInt64 := 0
  received : UInt64 := 0
  /-- The time of the last message received in this session, zero before the first. -/
  lastReceipt : UInt64 := 0
  sessions : UInt64 := 0
deriving DecidableEq

namespace IdSource

def drawn (s : IdSource) : Kind → UInt64
  | .http => s.http
  | .ws => s.ws

/-- The next id of a kind: the base, the kind and the number, with points between them. -/
def next (s : IdSource) (base : String) (kind : Kind) : String × IdSource :=
  (base ++ "." ++ kind.name ++ "." ++ toString (s.drawn kind),
    match kind with
    | .http => { s with http := s.http + 1 }
    | .ws => { s with ws := s.ws + 1 })

def identity (s : IdSource) (base : String) (kind : Kind) : Identity × IdSource :=
  let (id, s) := s.next base kind
  ({ id, kind }, s)

end IdSource

namespace Identity

def markReceived (i : Identity) (now : UInt64) : Identity :=
  { i with received := i.received + 1, lastReceipt := now }

def markSent (i : Identity) : Identity := { i with sent := i.sent + 1 }

/-- A new session counts its own messages. -/
def beginSession (i : Identity) : Identity :=
  { i with sent := 0, received := 0, lastReceipt := 0, sessions := i.sessions + 1 }

end Identity

end MarketFeed.Transport
