/-!
Tables: entries in ascending order of their keys, one for each key. `find?` looks a key up, and
each change of a table is described by what it does to `find?`. Tables with the same content are
equal, in whatever order the content came in.
-/
namespace MarketFeed

structure Table (κ : Type) (β : Type) where
  entries : List (κ × β) := []
deriving Repr

namespace Table

variable {κ β : Type}

def empty : Table κ β := {}

instance : Inhabited (Table κ β) := ⟨empty⟩

def size (t : Table κ β) : Nat := t.entries.length

def isEmpty (t : Table κ β) : Bool := t.entries.isEmpty

def keys (t : Table κ β) : List κ := t.entries.map (·.1)

def values (t : Table κ β) : List β := t.entries.map (·.2)

variable [DecidableEq κ]

def findIn (k : κ) : List (κ × β) → Option β
  | [] => none
  | e :: rest => if k = e.1 then some e.2 else findIn k rest

def find? (t : Table κ β) (k : κ) : Option β := findIn k t.entries

def contains (t : Table κ β) (k : κ) : Bool := (t.find? k).isSome

def erase (t : Table κ β) (k : κ) : Table κ β :=
  { entries := t.entries.filter fun e => k ≠ e.1 }

variable [LT κ] [DecidableLT κ]

def insertIn (k : κ) (v : β) : List (κ × β) → List (κ × β)
  | [] => [(k, v)]
  | e :: rest =>
    if k = e.1 then (k, v) :: rest
    else if k < e.1 then (k, v) :: e :: rest
    else e :: insertIn k v rest

/-- Adds an entry, in place of the one with the same key if there is one. -/
def insert (t : Table κ β) (k : κ) (v : β) : Table κ β := { entries := insertIn k v t.entries }

/-- The entries of a list one after another, so that of several for one key the last stays. -/
def ofList (l : List (κ × β)) : Table κ β := l.foldl (fun t e => t.insert e.1 e.2) empty

omit [LT κ] [DecidableLT κ] in
@[simp] theorem find?_empty (k : κ) : (empty : Table κ β).find? k = none := rfl

theorem findIn_insertIn (k k' : κ) (v : β) (l : List (κ × β)) :
    findIn k' (insertIn k v l) = if k' = k then some v else findIn k' l := by
  induction l with
  | nil => simp [insertIn, findIn]
  | cons e rest ih =>
    simp only [insertIn]
    split
    · next h => subst h; simp only [findIn]; split <;> rfl
    · split
      · simp only [findIn]
      · next h _ => simp only [findIn, ih]; grind

@[simp] theorem find?_insert (t : Table κ β) (k k' : κ) (v : β) :
    (t.insert k v).find? k' = if k' = k then some v else t.find? k' :=
  findIn_insertIn k k' v t.entries

omit [LT κ] [DecidableLT κ] in
@[simp] theorem find?_erase (t : Table κ β) (k k' : κ) :
    (t.erase k).find? k' = if k' = k then none else t.find? k' := by
  simp only [find?, erase]
  induction t.entries with
  | nil => simp [findIn]
  | cons e rest ih =>
    rw [List.filter_cons]
    split <;> simp only [findIn, ih] <;> grind

end Table

end MarketFeed
