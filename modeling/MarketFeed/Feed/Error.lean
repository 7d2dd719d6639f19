import MarketFeed.Transport.Error

/-!
What can go wrong in a feed. A gap or a missing snapshot calls for a fresh start of the books;
those and lost connections are worth another attempt, and permanent causes are not.
-/
namespace MarketFeed.Feed

inductive Error where
  | gap (symbol : String) (expected actual : UInt64)
  | missingSnapshot (symbol : String)
  | malformed (reason : String)
  | unknownSymbol (reason : String)
  | channel (cause : Transport.Error)
  | payload
  | sinkClosed (reason : String)
  | configuration (reason : String)
deriving DecidableEq

namespace Error

def message : Error → String
  | gap symbol expected actual =>
    "Sequence gap for " ++ symbol ++ ": expected " ++ toString expected ++ ", got " ++
      toString actual
  | missingSnapshot symbol => "Book update for " ++ symbol ++ " received before snapshot"
  | malformed reason => "Malformed frame: " ++ reason
  | unknownSymbol reason => "Unknown symbol: " ++ reason
  | channel cause => "Channel error: " ++ cause.message
  | payload => "Failed to parse JSON"
  | sinkClosed reason => "Event sink closed: " ++ reason
  | configuration reason => "Configuration error: " ++ reason

def requiresResync : Error → Bool
  | gap .. | missingSnapshot _ => true
  | _ => false

def isRecoverable : Error → Bool
  | gap .. | missingSnapshot _ => true
  | channel cause => cause.isClosed || cause.isRetryable
  | _ => false

def isPermanent : Error → Bool
  | configuration _ | unknownSymbol _ | sinkClosed _ => true
  | channel cause => cause.isPermanent
  | _ => false

end Error

end MarketFeed.Feed
