import Mathlib
import MarketFeed.Json.Basic
import MarketFeed.Proofs.Elementwise
import MarketFeed.Proofs.Names
import MarketFeed.Proofs.Tables

/-!
Canonical values. In the canonical form of a value no object has two fields of one name, and each
field is the canonical form of the last one with its name. The order in which an object lists fields
of different names is lost, at any depth, so values that differ in nothing else have the same
canonical form.
-/
namespace MarketFeed

namespace Table

variable {κ β : Type} [DecidableEq κ] [LT κ] [DecidableLT κ]

omit [LT κ] [DecidableLT κ] in
theorem mem_of_findIn {k : κ} {v : β} {l : List (κ × β)} (h : findIn k l = some v) :
    (k, v) ∈ l := by
  induction l with
  | nil => cases h
  | cons e rest ih =>
    simp only [findIn] at h
    split at h
    · next heq =>
      cases h
      rw [heq]
      exact List.mem_cons_self
    · exact List.mem_cons_of_mem _ (ih h)

theorem mem_of_mem_ofList {l : List (κ × β)} {e : κ × β} (he : e ∈ (ofList l).entries) :
    e ∈ l := by
  induction l using List.reverseRecOn with
  | nil => exact he
  | append_singleton front last ih =>
    rw [ofList_concat] at he
    rcases mem_insertIn he with rfl | he
    · simp
    · exact List.mem_append_left _ (ih he)

theorem ascending_ofList [IsStrictTotalOrder κ (· < ·)] (l : List (κ × β)) :
    (ofList l).Ascending := by
  induction l using List.reverseRecOn with
  | nil => exact ascending_empty
  | append_singleton front last ih =>
    rw [ofList_concat]
    exact ih.insert last.1 last.2

omit [DecidableEq κ] [DecidableLT κ] in
theorem Ascending.nodup_keys [IsStrictTotalOrder κ (· < ·)] {t : Table κ β} (h : t.Ascending) :
    t.keys.Nodup := by
  rw [keys, List.Nodup, List.pairwise_map]
  refine h.imp fun hlt heq => ?_
  rw [heq] at hlt
  exact irrefl_of (· < ·) _ hlt

/-- Two entries for different keys may come in either order. -/
theorem ofList_swap [IsStrictTotalOrder κ (· < ·)] {e e' : κ × β} (hne : e.1 ≠ e'.1)
    (front back : List (κ × β)) :
    ofList (front ++ e :: e' :: back) = ofList (front ++ e' :: e :: back) := by
  have hstep : ∀ l : List (κ × β), ofList (front ++ l) =
      l.foldl (fun t e => t.insert e.1 e.2) (ofList front) := by
    intro l
    rw [ofList, List.foldl_append, ← ofList]
  have hboth : ((ofList front).insert e.1 e.2).insert e'.1 e'.2 =
      ((ofList front).insert e'.1 e'.2).insert e.1 e.2 := by
    have hfront := ascending_ofList front
    refine ((hfront.insert _ _).insert _ _).eq_of_find? ((hfront.insert _ _).insert _ _) ?_
    intro k
    simp only [find?_insert]
    by_cases hk : k = e.1
    · simp [hk, hne]
    · simp [hk]
  rw [hstep, hstep, List.foldl_cons, List.foldl_cons, List.foldl_cons, List.foldl_cons, hboth]

end Table

namespace Json

theorem canonicalItems_eq_mapM (room : Nat) (items : List Json) :
    canonicalItems room items = items.mapM (canonicalIn room) := by
  induction items with
  | nil => rfl
  | cons item items ih =>
    rw [canonicalItems, ih, List.mapM_cons]
    rfl

theorem canonicalFields_eq_mapM (room : Nat) (fields : List (String × Json)) :
    canonicalFields room fields =
      fields.mapM fun f => (canonicalIn room f.2).map fun value => (f.1, value) := by
  induction fields with
  | nil => rfl
  | cons f fields ih =>
    rw [canonicalFields, ih, List.mapM_cons]
    cases canonicalIn room f.2 with
    | none => rfl
    | some value => rfl

/-- The items of a canonical array are the canonical forms of the items. -/
theorem canonicalIn_array_iff {room : Nat} {items : List Json} {c : Json} :
    canonicalIn room (array items) = some c ↔
      1 < room ∧ ∃ items', c = array items' ∧
        List.Forall₂ (fun j j' => canonicalIn (room - 1) j = some j') items items' := by
  rw [canonicalIn]
  split
  · next hroom => simp [Nat.not_lt.mpr hroom]
  · next hroom =>
    simp only [canonicalItems_eq_mapM, Option.map_eq_some_iff, mapM_eq_some_iff, Nat.not_le.mp hroom,
      true_and]
    constructor
    · rintro ⟨items', hitems, rfl⟩
      exact ⟨items', rfl, hitems⟩
    · rintro ⟨items', rfl, hitems⟩
      exact ⟨items', hitems, rfl⟩

/-- The fields of a canonical object are the canonical forms of the fields, the last one for each
name, in ascending order of the names. -/
theorem canonicalIn_object_iff {room : Nat} {fields : List (String × Json)} {c : Json} :
    canonicalIn room (object fields) = some c ↔
      1 < room ∧ ∃ fields', c = object (Table.ofList fields').entries ∧
        List.Forall₂ (fun f f' => f'.1 = f.1 ∧ canonicalIn (room - 1) f.2 = some f'.2)
          fields fields' := by
  have hfield : ∀ f f' : String × Json,
      ((canonicalIn (room - 1) f.2).map fun value => (f.1, value)) = some f' ↔
        f'.1 = f.1 ∧ canonicalIn (room - 1) f.2 = some f'.2 := by
    rintro ⟨name, j⟩ ⟨name', j'⟩
    cases canonicalIn (room - 1) j with
    | none => simp
    | some value => simp [eq_comm]
  rw [canonicalIn]
  split
  · next hroom => simp [Nat.not_lt.mpr hroom]
  · next hroom =>
    simp only [canonicalFields_eq_mapM, Option.map_eq_some_iff, mapM_eq_some_iff, hfield,
      Nat.not_le.mp hroom, true_and]
    constructor
    · rintro ⟨fields', hfields, rfl⟩
      exact ⟨fields', rfl, hfields⟩
    · rintro ⟨fields', rfl, hfields⟩
      exact ⟨fields', hfields, rfl⟩

/-- A value in which no object has two fields of one name. -/
inductive Tidy : Json → Prop where
  | null : Tidy null
  | bool (b : Bool) : Tidy (bool b)
  | int (n : Int) : Tidy (int n)
  | double (x : Number.Double) : Tidy (double x)
  | text (s : String) : Tidy (text s)
  | array {items : List Json} (hitems : ∀ j ∈ items, Tidy j) : Tidy (array items)
  | object {fields : List (String × Json)} (hnames : (fields.map Prod.fst).Nodup)
      (hfields : ∀ f ∈ fields, Tidy f.2) : Tidy (object fields)

theorem Tidy.items {items : List Json} (h : Tidy (.array items)) : ∀ j ∈ items, Tidy j := by
  cases h with
  | array hitems => exact hitems

theorem Tidy.nodup_names {fields : List (String × Json)} (h : Tidy (.object fields)) :
    (fields.map Prod.fst).Nodup := by
  cases h with
  | object hnames _ => exact hnames

theorem Tidy.of_findIn {fields : List (String × Json)} (h : Tidy (.object fields)) {name : String}
    {j : Json} (hfind : Table.findIn name fields = some j) : Tidy j := by
  cases h with
  | object _ hfields => exact hfields (name, j) (Table.mem_of_findIn hfind)

/-- A canonical form is tidy. -/
theorem tidy_of_canonicalIn {room : Nat} {j c : Json} (h : canonicalIn room j = some c) :
    Tidy c := by
  induction room using Nat.strong_induction_on generalizing j c with
  | h room ih =>
    cases j with
    | null | bool _ | int _ | double _ | text _ => cases h; constructor
    | array items =>
      obtain ⟨hroom, items', rfl, hitems⟩ := canonicalIn_array_iff.mp h
      exact Tidy.array (forall_of_forall₂ hitems fun _ _ hitem => ih (room - 1) (by omega) hitem)
    | object fields =>
      obtain ⟨hroom, fields', rfl, hfields⟩ := canonicalIn_object_iff.mp h
      have hall : ∀ f ∈ fields', Tidy f.2 :=
        forall_of_forall₂ hfields fun _ _ hfield => ih (room - 1) (by omega) hfield.2
      exact Tidy.object (Table.ascending_ofList fields').nodup_keys fun f hf =>
        hall f (Table.mem_of_mem_ofList hf)
    | unreadable => cases h

/-- Values that differ in the order in which objects list fields of different names. -/
inductive Reordered : Json → Json → Prop where
  | refl (j : Json) : Reordered j j
  | trans {j j' j'' : Json} (h : Reordered j j') (h' : Reordered j' j'') : Reordered j j''
  | swap {f g : String × Json} (hne : f.1 ≠ g.1) (front back : List (String × Json)) :
      Reordered (object (front ++ f :: g :: back)) (object (front ++ g :: f :: back))
  | item {j j' : Json} (h : Reordered j j') (front back : List Json) :
      Reordered (array (front ++ j :: back)) (array (front ++ j' :: back))
  | field {j j' : Json} (h : Reordered j j') (name : String) (front back : List (String × Json)) :
      Reordered (object (front ++ (name, j) :: back)) (object (front ++ (name, j') :: back))

theorem Reordered.symm {j j' : Json} (h : Reordered j j') : Reordered j' j := by
  induction h with
  | refl j => exact refl j
  | trans _ _ ih ih' => exact trans ih' ih
  | swap hne front back => exact swap (Ne.symm hne) front back
  | item _ front back ih => exact item ih front back
  | field _ name front back ih => exact field ih name front back

theorem Reordered.canonicalIn_of {j j' : Json} (h : Reordered j j') {room : Nat} {c : Json}
    (hc : canonicalIn room j = some c) : canonicalIn room j' = some c := by
  induction h generalizing room c with
  | refl j => exact hc
  | trans _ _ ih ih' => exact ih' (ih hc)
  | @swap f g hne front back =>
    obtain ⟨hroom, fields, rfl, hfields⟩ := canonicalIn_object_iff.mp hc
    obtain ⟨front', _, rfl, hfront, hrest⟩ := forall₂_append_left_iff.mp hfields
    obtain ⟨f', _, hf, htail, rfl⟩ := List.forall₂_cons_left_iff.mp hrest
    obtain ⟨g', back', hg, hback, rfl⟩ := List.forall₂_cons_left_iff.mp htail
    have hsame : Table.ofList (front' ++ f' :: g' :: back') =
        Table.ofList (front' ++ g' :: f' :: back') :=
      Table.ofList_swap (by rwa [hf.1, hg.1]) front' back'
    rw [canonicalIn_object_iff, hsame]
    exact ⟨hroom, _, rfl, List.rel_append hfront (.cons hg (.cons hf hback))⟩
  | @item j j' _ front back ih =>
    obtain ⟨hroom, items, rfl, hitems⟩ := canonicalIn_array_iff.mp hc
    obtain ⟨front', _, rfl, hfront, hrest⟩ := forall₂_append_left_iff.mp hitems
    obtain ⟨c, back', hj, hback, rfl⟩ := List.forall₂_cons_left_iff.mp hrest
    rw [canonicalIn_array_iff]
    exact ⟨hroom, _, rfl, List.rel_append hfront (.cons (ih hj) hback)⟩
  | @field j j' _ name front back ih =>
    obtain ⟨hroom, fields, rfl, hfields⟩ := canonicalIn_object_iff.mp hc
    obtain ⟨front', _, rfl, hfront, hrest⟩ := forall₂_append_left_iff.mp hfields
    obtain ⟨f, back', hf, hback, rfl⟩ := List.forall₂_cons_left_iff.mp hrest
    rw [canonicalIn_object_iff]
    exact ⟨hroom, _, rfl, List.rel_append hfront (.cons ⟨hf.1, ih hf.2⟩ hback)⟩

/-- The order of fields with different names is not seen in the canonical form. -/
theorem Reordered.canonical_eq {j j' : Json} (h : Reordered j j') : j.canonical = j'.canonical :=
  Option.ext fun _ => ⟨h.canonicalIn_of, h.symm.canonicalIn_of⟩

end Json

end MarketFeed
