import MarketFeed.Transport.Capture

/-!
A folder of files, as far as a collector looks at it.
-/
namespace MarketFeed.Collector

open Transport (Octets)

/-- What is found under a path. -/
inductive Found where
  | nothing
  | unreadable
  | file (octets : Octets)
deriving DecidableEq

/-- The file that can be read, if there is one. -/
def Found.octets? : Found → Option Octets
  | file octets => some octets
  | nothing | unreadable => none

/-- Files by name. -/
structure Folder where
  files : List (String × Octets) := []
deriving DecidableEq

namespace Folder

/-- The steps of a path; one that leads nowhere new is left out. -/
def steps (path : String) : List String :=
  (path.splitOn "/").filter fun s => !s.isEmpty && s != "."

/-- Looks up a path that begins in the folder. One that leads to a folder can be found and not read,
and one that ends with a slash names no file. -/
def find (f : Folder) (path : String) : Found :=
  if path.isEmpty then .nothing
  else if (steps path).all (· == "..") then .unreadable
  else
    match steps path with
    | [name] =>
      if path.startsWith "/" || path.endsWith "/" || path.endsWith "/." then .nothing
      else ((f.files.lookup name).map Found.file).getD .nothing
    | _ => .nothing

end Folder

end MarketFeed.Collector
