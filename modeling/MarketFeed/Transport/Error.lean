/-!
What can go wrong on a connection. Nothing here retries; each cause says whether the connection is
gone, whether the same request may be tried again, and whether trying again is in vain.
-/
namespace MarketFeed.Transport

/-- An `http` failure is transient if the server was not reached in time or not at all. -/
inductive Error where
  | closed (id : String)
  | status (id address : String) (code : Nat)
  | construction (reason : String)
  | http (transient : Bool)
  | webSocket
  | timeout (operation : String) (milliseconds : Nat)
  | io (reason : String)
deriving DecidableEq

namespace Error

def message : Error → String
  | closed id => "Connection " ++ id ++ " is closed"
  | status id address code =>
    "Connection " ++ id ++ ": " ++ address ++ " returned HTTP " ++ toString code
  | construction reason => "Invalid channel configuration: " ++ reason
  | http _ => "HTTP error"
  | webSocket => "WebSocket error"
  | timeout operation milliseconds =>
    "Timeout error: " ++ operation ++ " exceeded " ++ toString milliseconds ++ "ms"
  | io reason => "I/O error: " ++ reason

def isClosed : Error → Bool
  | closed _ => true
  | _ => false

def isRetryable : Error → Bool
  | status .. | timeout .. | webSocket | io _ => true
  | http transient => transient
  | closed _ | construction _ => false

def isPermanent : Error → Bool
  | construction _ => true
  | _ => false

end Error

end MarketFeed.Transport
