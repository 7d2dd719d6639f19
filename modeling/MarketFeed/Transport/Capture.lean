/-!
Lines of a log, a severity and a text each. Raw capture: a record of each payload that crosses a
connection, made before anything is read out of it.
-/
namespace MarketFeed.Log

inductive Severity where
  | trace
  | debug
  | info
  | warn
  | error
deriving DecidableEq

def Severity.name : Severity → String
  | trace => "TRACE"
  | debug => "DEBUG"
  | info => "INFO"
  | warn => "WARN"
  | error => "ERROR"

structure Line where
  severity : Severity
  text : String
deriving DecidableEq

def info (text : String) : Line := { severity := .info, text }

def warn (text : String) : Line := { severity := .warn, text }

end MarketFeed.Log

namespace MarketFeed.Transport

abbrev Octets := List UInt8

/-- Names and values in the order in which they were sent. -/
abbrev Headers := List (String × String)

/-- Where a payload came from or went to. A `connect` record marks an attempt to connect. -/
inductive Context where
  | endpoint (address : String) (headers : Option Headers)
  | send (address : String)
  | connect (address : String)
deriving DecidableEq

def Context.address : Context → String
  | endpoint address _ | send address | connect address => address

structure Record where
  payload : Option Octets
  time : UInt64
  connection : String
  context : Context
deriving DecidableEq

/-- The line that describes a record. -/
def Record.line (r : Record) : Log.Line :=
  let size := toString ((r.payload.map List.length).getD 0) ++ " bytes"
  let time := " at " ++ toString r.time
  { severity := .trace
    text :=
      match r.context with
      | .endpoint address headers =>
        r.connection ++ " <- " ++ address ++ " (" ++ size ++ ", " ++
          toString ((headers.map List.length).getD 0) ++ " headers)" ++ time
      | .send address => r.connection ++ " -> " ++ address ++ " (" ++ size ++ ")" ++ time
      | .connect address => r.connection ++ " connecting to " ++ address ++ time }

end MarketFeed.Transport
