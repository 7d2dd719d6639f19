import MarketFeed.Json.Basic
import MarketFeed.Number.Decimal

/-!
Records in JSON. A record is an object with fields by name, or an array with the same fields by
position. An object may have further fields, which are ignored, but none of the record's own twice.
An array has exactly the record's fields, save that some at the end may be left out.
-/
namespace MarketFeed.Json

open Number

variable {α β : Type}

abbrev Fields := List (String × Json)

/-- The fields of a record that has fields `names`, of which an array holds at least the first
`least`. -/
def record? (names : List String) (least : Nat) : Json → Option Fields
  | object fields =>
    let known := fields.filter fun f => f.1 ∈ names
    if (known.map (·.1)).Nodup then some known else none
  | array items =>
    if least ≤ items.length ∧ items.length ≤ names.length then some (names.zip items) else none
  | _ => none

/-- A field that has to be there. -/
def required (fields : Fields) (name : String) (read : Json → Option α) : Option α :=
  (Table.findIn name fields).bind read

/-- A field that may be left out or `null`. -/
def optional (fields : Fields) (name : String) (read : Json → Option α) : Option (Option α) :=
  match Table.findIn name fields with
  | none | some null => some none
  | some j => (read j).map some

/-- A field that may be left out, with the value it then has. -/
def withDefault (fields : Fields) (name : String) (default : α) (read : Json → Option α) :
    Option α :=
  match Table.findIn name fields with
  | none => some default
  | some j => read j

def list? (read : Json → Option α) : Json → Option (List α)
  | array items => items.mapM read
  | _ => none

/-- A pair of values as an array of two. -/
def pair? (first : Json → Option α) (second : Json → Option β) : Json → Option (α × β)
  | array [a, b] => do some (← first a, ← second b)
  | _ => none

/-- A decimal, given as text, as a whole number, or as a double, which stands for its shortest
decimal. -/
def decimal? : Json → Option Decimal
  | text s => Decimal.ofText? s.toList
  | int n => Decimal.ofParts? n 0
  | double x => Decimal.ofText? x.plainText
  | _ => none

def ofDecimal (d : Decimal) : Json := text (toString d)

end MarketFeed.Json
