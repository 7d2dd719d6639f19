import MarketFeed.Toml.Basic

/-!
The tree that the lines of a TOML document build. Each table keeps how it came about: by a header of
its own, as a parent in other headers, or through dotted keys. A table gets one header at most, and
dotted keys add only to tables that dotted keys have made.
-/
namespace MarketFeed.Toml

/-- How a table came about. -/
inductive Origin where
  | header
  | parent
  | dotted
deriving DecidableEq

/-- A part of a document: a finished value, a table, or a list of tables with the last one open. -/
inductive Node where
  | value (v : Toml)
  | table (origin : Origin) (entries : List (String × Node))
  | tables (closed : List Node) (last : List (String × Node))

abbrev Entries := List (String × Node)

namespace Entries

/-- Puts a node under a key: where the key is, or else at the end. -/
def put (key : String) (node : Node) : Entries → Entries
  | [] => [(key, node)]
  | e :: rest => if e.1 = key then (key, node) :: rest else e :: put key node rest

end Entries

/-- Changes the table at the end of a path that headers follow. Missing tables on the way come about
as parents, and of a list of tables the last one counts. -/
def alongHeader (f : Entries → Option Entries) : (path : List String) → Entries → Option Entries
  | [], entries => f entries
  | key :: path, entries =>
    match entries.lookup key with
    | none => (alongHeader f path []).map fun inner => entries.put key (.table .parent inner)
    | some (.value _) => none
    | some (.table origin inner) =>
      (alongHeader f path inner).map fun inner => entries.put key (.table origin inner)
    | some (.tables closed last) =>
      (alongHeader f path last).map fun last => entries.put key (.tables closed last)

/-- Changes the table at the end of a path of dotted keys, which dotted keys must have made, as
`dotted` says of the table in hand. On the way a table with a header of its own stops the path. -/
def alongDotted (f : Entries → Option Entries) :
    (path : List String) → (dotted : Bool) → Entries → Option Entries
  | [], dotted, entries => if dotted then f entries else none
  | key :: path, _, entries =>
    match entries.lookup key with
    | none => (alongDotted f path true []).map fun inner => entries.put key (.table .dotted inner)
    | some (.value _) => none
    | some (.table .header _) => none
    | some (.table origin inner) =>
      (alongDotted f path (origin = .dotted) inner).map fun inner =>
        entries.put key (.table origin inner)
    | some (.tables closed last) =>
      (alongDotted f path false last).map fun last => entries.put key (.tables closed last)

/-- Adds a value under a key that is not there yet. -/
def addNew (key : String) (v : Toml) (entries : Entries) : Option Entries :=
  match entries.lookup key with
  | none => some (entries.put key (.value v))
  | some _ => none

/-- Adds a value under a key, which may be dotted. -/
def addValue (keys : List String) (v : Toml) (entries : Entries) : Option Entries :=
  match keys.getLast? with
  | none => none
  | some key =>
    let path := keys.dropLast
    if path = [] then addNew key v entries else alongDotted (addNew key v) path false entries

/-- Opens the table of a header. -/
def openTable (keys : List String) (entries : Entries) : Option Entries :=
  match keys.getLast? with
  | none => none
  | some key =>
    alongHeader (fun entries =>
      match entries.lookup key with
      | none => some (entries.put key (.table .header []))
      | some (.table .parent inner) => some (entries.put key (.table .header inner))
      | some _ => none) keys.dropLast entries

/-- Opens one more table in the list of tables of a header. -/
def openListed (keys : List String) (entries : Entries) : Option Entries :=
  match keys.getLast? with
  | none => none
  | some key =>
    alongHeader (fun entries =>
      match entries.lookup key with
      | none => some (entries.put key (.tables [] []))
      | some (.tables closed last) =>
        some (entries.put key (.tables (closed ++ [.table .header last]) []))
      | some _ => none) keys.dropLast entries

mutual

def Node.toToml : Node → Toml
  | .value v => v
  | .table _ entries => .table (entriesToToml entries)
  | .tables closed last => .array (nodesToToml closed ++ [.table (entriesToToml last)])

def nodesToToml : List Node → List Toml
  | [] => []
  | node :: rest => node.toToml :: nodesToToml rest

def entriesToToml : List (String × Node) → List (String × Toml)
  | [] => []
  | (key, node) :: rest => (key, node.toToml) :: entriesToToml rest

end

/-- The table that keys and values one after another make. -/
def tableOf (pairs : List (List String × Toml)) : Option Toml :=
  (pairs.foldlM (fun entries (keys, v) => addValue keys v entries) ([] : Entries)).map fun entries =>
    .table (entriesToToml entries)

end MarketFeed.Toml
