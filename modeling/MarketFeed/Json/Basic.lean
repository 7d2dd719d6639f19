import MarketFeed.Number.Double
import MarketFeed.Table

/-!
JSON values. A value read from text keeps the fields of an object in their order, repeated ones
too. `canonical` is the form with one field for each name: the last one wins and names ascend.
-/
namespace MarketFeed

/-- `unreadable` stands for well-formed text without a value: a number past the largest double, a
text with an unpaired surrogate, or an object with such a text for a name. -/
inductive Json where
  | null
  | bool (b : Bool)
  | int (n : Int)
  | double (x : Number.Double)
  | text (s : String)
  | array (items : List Json)
  | object (fields : List (String × Json))
  | unreadable

namespace Json

instance : Inhabited Json := ⟨null⟩

/-- How deep arrays and objects may be nested in a canonical value, and one more. -/
def room : Nat := 128

mutual

def canonicalIn : (room : Nat) → Json → Option Json
  | _, null => some null
  | _, bool b => some (bool b)
  | _, int n => some (int n)
  | _, double x => some (double x)
  | _, text s => some (text s)
  | room, array items =>
    if room ≤ 1 then none else (canonicalItems (room - 1) items).map array
  | room, object fields =>
    if room ≤ 1 then none
    else (canonicalFields (room - 1) fields).map fun fields => object (Table.ofList fields).entries
  | _, unreadable => none

def canonicalItems : (room : Nat) → List Json → Option (List Json)
  | _, [] => some []
  | room, item :: rest => do
    let item ← canonicalIn room item
    let rest ← canonicalItems room rest
    some (item :: rest)

def canonicalFields : (room : Nat) → List (String × Json) → Option (List (String × Json))
  | _, [] => some []
  | room, (name, value) :: rest => do
    let value ← canonicalIn room value
    let rest ← canonicalFields room rest
    some ((name, value) :: rest)

end

/-- The canonical form, if every part of a value is readable and nothing is nested too deep. -/
def canonical (j : Json) : Option Json := canonicalIn room j

/-- Whether a value has a canonical form. -/
def isReadable (j : Json) : Bool := j.canonical.isSome

/-- The value of a field of an object. -/
def field? (name : String) : Json → Option Json
  | object fields => Table.findIn name fields
  | _ => none

def asText? : Json → Option String
  | text s => some s
  | _ => none

def asInt? : Json → Option Int
  | int n => some n
  | _ => none

def asArray? : Json → Option (List Json)
  | array items => some items
  | _ => none

/-- A whole number of at most `bits` bits. -/
def asNat? (bits : Nat) : Json → Option Nat
  | int n => if 0 ≤ n ∧ n < (1 <<< bits : Nat) then some n.toNat else none
  | _ => none

def asBool? : Json → Option Bool
  | bool b => some b
  | _ => none

def ofNat (n : Nat) : Json := int n

def ofOption (j : Option Json) : Json := j.getD null

end Json

end MarketFeed
