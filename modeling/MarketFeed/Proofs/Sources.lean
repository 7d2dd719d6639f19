import Mathlib
import MarketFeed.Proofs.Canonical
import MarketFeed.Proofs.Grammar
import MarketFeed.Proofs.PlainDecimals

/-!
JSON as it is written. A source is a value in which numbers are still the literals that stand in the
text. Reading a text as a source and then taking the values of its literals is reading the text.
-/
namespace MarketFeed.Json

open Number

/-- A value whose numbers are literals. -/
inductive Source where
  | null
  | bool (b : Bool)
  | number (l : Literal)
  | text (s : String)
  | array (items : List Source)
  | object (fields : List (String × Source))
  | unreadable

namespace Source

mutual

/-- What a source is read as. -/
def value : Source → Json
  | null => .null
  | bool b => .bool b
  | number l => ofLiteral l.negative l.whole l.fraction l.exponent
  | text s => .text s
  | array items => .array (valueItems items)
  | object fields => .object (valueFields fields)
  | unreadable => .unreadable

def valueItems : List Source → List Json
  | [] => []
  | item :: rest => value item :: valueItems rest

def valueFields : List (String × Source) → List (String × Json)
  | [] => []
  | (name, item) :: rest => (name, value item) :: valueFields rest

end

theorem valueItems_eq_map (items : List Source) : valueItems items = items.map value := by
  induction items with
  | nil => rfl
  | cons item rest ih => rw [valueItems, ih, List.map_cons]

theorem valueFields_eq_map (fields : List (String × Source)) :
    valueFields fields = fields.map fun f => (f.1, f.2.value) := by
  induction fields with
  | nil => rfl
  | cons f rest ih => rw [valueFields, ih, List.map_cons]

def readLiteral (s : List Char) : Option (Literal × List Char) := do
  let negative := s.head? == some '-'
  let (whole, rest) ← readWhole (if negative then s.drop 1 else s)
  let (fraction, rest) ← readFraction rest
  let (exponent, rest) ← readExponent rest
  some (⟨negative, whole, fraction, exponent⟩, rest)

def ofFields (fields : List (Option String × Source)) : Source :=
  match fields.mapM fun f => f.1.map fun name => (name, f.2) with
  | some fields => object fields
  | none => unreadable

mutual

def readValue : (fuel : Nat) → List Char → Option (Source × List Char)
  | 0, _ => none
  | fuel + 1, s =>
    match skipBlanks s with
    | 'n' :: 'u' :: 'l' :: 'l' :: rest => some (null, rest)
    | 't' :: 'r' :: 'u' :: 'e' :: rest => some (bool true, rest)
    | 'f' :: 'a' :: 'l' :: 's' :: 'e' :: rest => some (bool false, rest)
    | '"' :: rest => do
      let (s, rest) ← readText rest
      some ((s.map text).getD unreadable, rest)
    | '[' :: rest =>
      match skipBlanks rest with
      | ']' :: rest => some (array [], rest)
      | rest => do
        let (items, rest) ← readItems fuel rest
        some (array items, rest)
    | '\x7b' :: rest =>
      match skipBlanks rest with
      | '\x7d' :: rest => some (object [], rest)
      | rest => do
        let (fields, rest) ← readFields fuel rest
        some (ofFields fields, rest)
    | rest => do
      let (l, rest) ← readLiteral rest
      some (number l, rest)

def readItems : (fuel : Nat) → List Char → Option (List Source × List Char)
  | 0, _ => none
  | fuel + 1, s => do
    let (item, rest) ← readValue fuel s
    match skipBlanks rest with
    | ']' :: rest => some ([item], rest)
    | ',' :: rest =>
      let (more, rest) ← readItems fuel rest
      some (item :: more, rest)
    | _ => none

def readFields : (fuel : Nat) → List Char → Option (List (Option String × Source) × List Char)
  | 0, _ => none
  | fuel + 1, s => do
    let '"' :: rest := skipBlanks s | none
    let (name, rest) ← readText rest
    let ':' :: rest := skipBlanks rest | none
    let (value, rest) ← readValue fuel rest
    match skipBlanks rest with
    | '\x7d' :: rest => some ([(name, value)], rest)
    | ',' :: rest =>
      let (more, rest) ← readFields fuel rest
      some ((name, value) :: more, rest)
    | _ => none

end

def ofChars? (s : List Char) : Option Source := do
  let (source, rest) ← readValue (2 * s.length + 2) s
  if skipBlanks rest = [] then some source else none

def ofText? (s : String) : Option Source := ofChars? s.toList

theorem readNumber_eq (s : List Char) :
    readNumber s = (readLiteral s).map fun p => ((number p.1).value, p.2) := by
  simp [readNumber, readLiteral, Option.map_bind, value]

theorem value_ofFields (fields : List (Option String × Source)) :
    (ofFields fields).value = Json.ofFields (fields.map fun f => (f.1, f.2.value)) := by
  have hmap : ((fields.map fun f => (f.1, f.2.value)).mapM
      fun f : Option String × Json => f.1.map fun name => (name, f.2)) =
        (fields.mapM fun f : Option String × Source => f.1.map fun name => (name, f.2)).map
          valueFields := by
    induction fields with
    | nil => rfl
    | cons f rest ih =>
      rw [List.map_cons, List.mapM_cons, List.mapM_cons, ih]
      obtain ⟨_ | name, source⟩ := f
      · rfl
      · cases rest.mapM fun f : Option String × Source => f.1.map fun name => (name, f.2) with
        | none => rfl
        | some fields => rfl
  rw [ofFields, Json.ofFields, hmap]
  cases fields.mapM fun f : Option String × Source => f.1.map fun name => (name, f.2) with
  | none => rfl
  | some fields => rfl

theorem value_text (s : Option String) :
    ((s.map text).getD unreadable).value = (s.map Json.text).getD .unreadable := by
  cases s with
  | none => rfl
  | some s => rfl

/-- Reading a source and then the values of its literals is reading, part by part. -/
theorem read_eq (fuel : Nat) (s : List Char) :
    (Json.readValue fuel s = (readValue fuel s).map fun p => (p.1.value, p.2)) ∧
      (Json.readItems fuel s = (readItems fuel s).map fun p => (p.1.map value, p.2)) ∧
      (Json.readFields fuel s = (readFields fuel s).map fun p =>
        (p.1.map fun f => (f.1, f.2.value), p.2)) := by
  induction fuel generalizing s with
  | zero => exact ⟨rfl, rfl, rfl⟩
  | succ fuel ih =>
    refine ⟨?_, ?_, ?_⟩
    · rw [Json.readValue, readValue]
      split
      · simp [*, value]
      · simp [*, value]
      · simp [*, value]
      · simp [*, Option.map_bind, value_text]
      · simp only [*]
        split
        · simp [*, value, valueItems]
        · simp [Option.map_bind, Option.bind_map, value, valueItems_eq_map]
      · simp only [*]
        split
        · simp [*, value, valueFields]
        · simp [Option.map_bind, Option.bind_map, value_ofFields]
      · simp only [readNumber_eq, Option.bind_eq_bind, *]
        cases readLiteral (skipBlanks s) with
        | none => rfl
        | some p => rfl
    · rw [Json.readItems, readItems, (ih s).1]
      cases readValue fuel s with
      | none => rfl
      | some p =>
        simp only [Option.map_some, Option.bind_eq_bind, Option.bind_some]
        split
        · simp [*]
        · simp [*, Option.map_bind, Option.bind_map]
        · simp [*]
    · rw [Json.readFields, readFields]
      split
      · next rest _ =>
        simp only [*]
        cases readText rest with
        | none => rfl
        | some name =>
          simp only [Option.bind_eq_bind, Option.bind_some]
          split
          · next rest' _ =>
            cases hread : readValue fuel rest' with
            | none => simp [*]
            | some p =>
              simp only [Option.map_some, Option.bind_some, *]
              split
              · simp [*]
              · simp [*, Option.map_bind, Option.bind_map]
              · simp [*]
          · simp [*]
      · simp [*]

theorem ofText?_eq (s : String) : Json.ofText? s = (ofText? s).map value := by
  rw [Json.ofText?, ofText?, Json.ofChars?, ofChars?, (read_eq _ _).1]
  cases readValue (2 * s.toList.length + 2) s.toList with
  | none => rfl
  | some p =>
    simp only [Option.map_some, Option.bind_eq_bind, Option.bind_some]
    split <;> simp [*]

/-- The last field of a name. -/
def field? (name : String) : Source → Option Source
  | object fields => (fields.reverse.find? fun f => f.1 = name).map Prod.snd
  | _ => none

/-- A part of a record, by name in an object and by the position of the name in an array. -/
def part? (names : List String) (name : String) : Source → Option Source
  | array items => Table.findIn name (names.zip items)
  | s => s.field? name

/-- Whether a source stands for a canonical value. -/
def Stands (s : Source) (j : Json) : Prop := ∃ room, canonicalIn room s.value = some j

/-- What a source stands for by its form: a part for each part of it, but of several fields with one
name the last alone. -/
inductive Shape : Source → Json → Prop where
  | null : Shape null .null
  | bool (b : Bool) : Shape (bool b) (.bool b)
  | int (l : Literal) (n : Int) : Shape (number l) (.int n)
  | double (l : Literal) (x : Double) : Shape (number l) (.double x)
  | text (s : String) : Shape (text s) (.text s)
  | array {sources : List Source} {items : List Json} (hitems : List.Forall₂ Stands sources items) :
      Shape (array sources) (.array items)
  | object {sources : List (String × Source)} {fields : Fields}
      (hfields : List.Forall₂ (fun f f' => f'.1 = f.1 ∧ Stands f.2 f'.2) sources fields) :
      Shape (object sources) (.object (Table.ofList fields).entries)

theorem value_number_cases (l : Literal) :
    (∃ n, (number l).value = .int n) ∨ (∃ x, (number l).value = .double x) ∨
      (number l).value = .unreadable := by
  have hdouble : ∀ x, (∃ y, ofDouble? x = .double y) ∨ ofDouble? x = .unreadable := by
    rintro (_ | x)
    · exact Or.inr rfl
    · exact Or.inl ⟨x, rfl⟩
  simp only [value, ofLiteral]
  split
  · split
    · split
      · exact Or.inl ⟨_, rfl⟩
      · exact Or.inr (hdouble _)
    · split
      · exact Or.inl ⟨_, rfl⟩
      · exact Or.inr (hdouble _)
  · exact Or.inr (hdouble _)

theorem Stands.shape {s : Source} {j : Json} (h : s.Stands j) : Shape s j := by
  obtain ⟨room, h⟩ := h
  cases s with
  | null =>
    cases h
    exact Shape.null
  | bool b =>
    cases h
    exact Shape.bool b
  | number l =>
    rcases value_number_cases l with ⟨n, hn⟩ | ⟨x, hx⟩ | hnone
    · rw [hn] at h
      cases h
      exact Shape.int l n
    · rw [hx] at h
      cases h
      exact Shape.double l x
    · rw [hnone] at h
      cases h
  | text s =>
    cases h
    exact Shape.text s
  | array sources =>
    rw [value, valueItems_eq_map, canonicalIn_array_iff] at h
    obtain ⟨-, items, rfl, hall⟩ := h
    rw [List.forall₂_map_left_iff] at hall
    exact Shape.array (hall.imp fun _ _ hitem => ⟨room - 1, hitem⟩)
  | object sources =>
    rw [value, valueFields_eq_map, canonicalIn_object_iff] at h
    obtain ⟨-, fields, rfl, hall⟩ := h
    rw [List.forall₂_map_left_iff] at hall
    exact Shape.object (hall.imp fun _ _ hfield => ⟨hfield.1, room - 1, hfield.2⟩)
  | unreadable => cases h

/-- The field of a canonical object is what the last field of that name stands for. -/
theorem Stands.field? {s : Source} {j : Json} (h : s.Stands j) (name : String) :
    Option.Rel Stands (s.field? name) (j.field? name) := by
  cases h.shape with
  | @object sources fields hfields =>
    have hfind : (Json.object (Table.ofList fields).entries).field? name =
        (fields.reverse.find? fun f => f.1 = name).map Prod.snd := Table.find?_ofList fields name
    have hlast := rel_find? (p := fun f => decide (f.1 = name))
      (q := fun f => decide (f.1 = name)) (fun f f' hfield => by rw [hfield.1])
      (List.forall₂_reverse_iff.mpr hfields)
    rw [hfind, Source.field?]
    generalize sources.reverse.find? (fun f => decide (f.1 = name)) = found at *
    generalize fields.reverse.find? (fun f => decide (f.1 = name)) = found' at *
    cases hlast with
    | none => exact Option.Rel.none
    | some hfield => exact Option.Rel.some hfield.2
  | _ => exact Option.Rel.none

theorem rel_findIn_zip {sources : List Source} {items : List Json}
    (h : List.Forall₂ Stands sources items) (names : List String) (name : String) :
    Option.Rel Stands (Table.findIn name (names.zip sources))
      (Table.findIn name (names.zip items)) := by
  induction h generalizing names with
  | nil => cases names <;> exact Option.Rel.none
  | cons hitem _ ih =>
    cases names with
    | nil => exact Option.Rel.none
    | cons first names =>
      rw [List.zip_cons_cons, List.zip_cons_cons, Table.findIn, Table.findIn]
      split
      · exact Option.Rel.some hitem
      · exact ih names

/-- The parts of a record stand where its names or their positions are. -/
theorem Stands.part {s : Source} {j : Json} (h : s.Stands j) {names : List String} {least : Nat}
    {fields : Fields} (hfields : record? names least j = some fields) {name : String}
    (hname : name ∈ names) :
    Option.Rel Stands (s.part? names name) (Table.findIn name fields) := by
  have htidy : Tidy j := by
    obtain ⟨_, h⟩ := h
    exact tidy_of_canonicalIn h
  have hfield := h.field? name
  cases h.shape with
  | object _ =>
    rw [record?_of_nodup least htidy.nodup_names, Option.some.injEq] at hfields
    rw [← hfields, findIn_known hname]
    exact hfield
  | array hitems =>
    rw [record?, Option.ite_none_right_eq_some, Option.some.injEq] at hfields
    rw [← hfields.2]
    exact rel_findIn_zip hitems names name
  | _ => cases hfields

end Source

end MarketFeed.Json
