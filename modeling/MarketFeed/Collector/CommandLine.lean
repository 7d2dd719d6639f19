/-!
The command line of the collector. Arguments are read from left to right and the first thing that
settles the matter wins: a request for information, or a mistake.
-/
namespace MarketFeed.Collector

/-- What a run is asked for. -/
structure Options where
  config : String := "hitbtc.toml"
  /-- How many events may wait for the consumer. -/
  buffer : Nat := 10000
deriving DecidableEq

inductive Invocation where
  | run (options : Options)
  | information
  | mistake
deriving DecidableEq

namespace CommandLine

inductive Setting where
  | config
  | buffer
deriving DecidableEq

/-- What has been given so far. -/
structure Given where
  config : Option String := none
  buffer : Option Nat := none
deriving DecidableEq

/-- A count in 64 bits: digits, perhaps after a plus. -/
def count? (s : String) : Option Nat :=
  let digits := match s.toList with
    | '+' :: rest => rest
    | digits => digits
  if digits.isEmpty || !digits.all Char.isDigit then none
  else
    let n := digits.foldl (fun n c => n * 10 + (c.toNat - 48)) 0
    if n < UInt64.size then some n else none

/-- Takes a value for a setting, once. -/
def Given.set (g : Given) : Setting → String → Option Given
  | .config, value =>
    if g.config.isSome || value.isEmpty then none else some { g with config := some value }
  | .buffer, value =>
    if g.buffer.isSome then none
    else (count? value).map fun n => { g with buffer := some n }

def Given.options (g : Given) : Options :=
  let d : Options := {}
  { config := g.config.getD d.config, buffer := g.buffer.getD d.buffer }

/-- What a single argument says. A setting may have its value with it or wait for the next one. -/
inductive Argument where
  | setting (name : Setting) (value : Option String)
  | information
  | stop
  | mistake
deriving DecidableEq

/-- An argument after two dashes. -/
def long (name : List Char) : Argument :=
  let value := match name.dropWhile (· != '=') with
    | _ :: value => some (String.ofList value)
    | [] => none
  match String.ofList (name.takeWhile (· != '=')), value with
  | "config", value => .setting .config value
  | "buffer", value => .setting .buffer value
  | "help", none | "version", none => .information
  | _, _ => .mistake

/-- An argument after one dash, by its first letter. -/
def short : List Char → Argument
  | 'c' :: [] => .setting .config none
  | 'c' :: '=' :: value => .setting .config (some (String.ofList value))
  | 'c' :: value => .setting .config (some (String.ofList value))
  | 'h' :: _ | 'V' :: _ => .information
  | _ => .mistake

def argument (s : String) : Argument :=
  match s.toList with
  | ['-', '-'] => .stop
  | '-' :: '-' :: name => long name
  | '-' :: letters => short letters
  | _ => .mistake

/-- Whether an argument can be the value of the one before it. -/
def isValue (s : String) : Bool := s == "-" || !s.startsWith "-"

/-- Nothing is expected after the options. -/
def finish (g : Given) : List String → Invocation
  | [] => .run g.options
  | _ :: _ => .mistake

def readFrom (g : Given) : List String → Invocation
  | [] => finish g []
  | s :: rest =>
    match argument s, rest with
    | .information, _ => .information
    | .mistake, _ => .mistake
    | .stop, rest => finish g rest
    | .setting name (some value), rest =>
      match g.set name value with
      | some g => readFrom g rest
      | none => .mistake
    | .setting _ none, [] => .mistake
    | .setting name none, value :: rest =>
      if isValue value then
        match g.set name value with
        | some g => readFrom g rest
        | none => .mistake
      else .mistake

def read (arguments : List String) : Invocation := readFrom {} arguments

end CommandLine

end MarketFeed.Collector
