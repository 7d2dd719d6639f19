/-!
Values of a settings file in TOML. Numbers with a fraction and dates are checked when they are read
and then kept without their value, since no setting has either of them.
-/
namespace MarketFeed

inductive Toml where
  | text (s : String)
  | int (n : Int)
  | float
  | bool (b : Bool)
  | date
  | array (items : List Toml)
  | table (entries : List (String × Toml))

namespace Toml

instance : Inhabited Toml := ⟨table []⟩

def asText? : Toml → Option String
  | text s => some s
  | _ => none

/-- A whole number of at most `bits` bits. -/
def asNat? (bits : Nat) : Toml → Option Nat
  | int n => if 0 ≤ n ∧ n < (1 <<< bits : Nat) then some n.toNat else none
  | _ => none

def asBool? : Toml → Option Bool
  | bool b => some b
  | _ => none

def list? {α : Type} (read : Toml → Option α) : Toml → Option (List α)
  | array items => items.mapM read
  | _ => none

/-- The settings of a group called `names`: a table by name, of which other names are left alone, or
an array by position, of which further items are. A date has none. -/
def group? (names : List String) : Toml → Option (List (String × Toml))
  | table entries => some entries
  | array items => some (names.zip items)
  | date => some []
  | _ => none

/-- One setting of a group, with a value in case it is not given. -/
def setting? {α : Type} (group : List (String × Toml)) (name : String) (default : α)
    (read : Toml → Option α) : Option α :=
  match group.lookup name with
  | none => some default
  | some v => read v

end Toml

end MarketFeed
