import Mathlib.Data.List.Nodup
import MarketFeed.Transport.Identity

/-!
The ids of one source. A base may hold points and digits of its own, and still the kind and the
number of an id are found again after its last two points. The numbers of one kind count up,
whatever is drawn of the other in between, so no id is given out twice before a counter has run
through all of its words.
-/
namespace MarketFeed.Transport

/-- The base, the kind and a number, with points between them. -/
def numbered (base : String) (kind : Kind) (n : Nat) : String :=
  base ++ "." ++ kind.name ++ "." ++ toString n

/-- A point with none after it is not before another one. -/
theorem eq_nil_of_last_point {more back back' : List Char} (hback : '.' ∉ back)
    (h : '.' :: back = more ++ '.' :: back') : more = [] := by
  cases more with
  | nil => rfl
  | cons c more =>
    have hmem : '.' ∈ back := by
      rw [(List.cons.inj h).2]
      simp
    exact absurd hmem hback

/-- What stands on the two sides of the last point of a text. -/
theorem eq_of_last_point {front front' back back' : List Char} (hback : '.' ∉ back)
    (hback' : '.' ∉ back') (h : front ++ '.' :: back = front' ++ '.' :: back') :
    front = front' ∧ back = back' := by
  rcases List.append_eq_append_iff.mp h with ⟨more, hfront, htail⟩ | ⟨more, hfront, htail⟩
  · obtain rfl := eq_nil_of_last_point hback htail
    rw [List.append_nil] at hfront
    exact ⟨hfront.symm, (List.cons.inj htail).2⟩
  · obtain rfl := eq_nil_of_last_point hback' htail
    rw [List.append_nil] at hfront
    exact ⟨hfront, (List.cons.inj htail).2.symm⟩

theorem point_not_mem_name (kind : Kind) : '.' ∉ kind.name.toList := by
  cases kind <;> decide

theorem name_inj {kind kind' : Kind} (h : kind.name.toList = kind'.name.toList) : kind = kind' := by
  cases kind with
  | http =>
    cases kind' with
    | http => rfl
    | ws => exact absurd h (by decide)
  | ws =>
    cases kind' with
    | http => exact absurd h (by decide)
    | ws => rfl

theorem point_not_mem_toDigits (n : Nat) : '.' ∉ Nat.toDigits 10 n := by
  intro h
  exact absurd (Nat.isDigit_of_mem_toDigits (by decide) (by decide) h) (by decide)

theorem toDigits_inj {n m : Nat} (h : Nat.toDigits 10 n = Nat.toDigits 10 m) : n = m := by
  calc n = Nat.ofDigitChars 10 (Nat.toDigits 10 n) 0 := Nat.ofDigitChars_ten_toDigits.symm
    _ = Nat.ofDigitChars 10 (Nat.toDigits 10 m) 0 := by rw [h]
    _ = m := Nat.ofDigitChars_ten_toDigits

theorem toList_numbered (base : String) (kind : Kind) (n : Nat) :
    (numbered base kind n).toList =
      (base.toList ++ '.' :: kind.name.toList) ++ '.' :: Nat.toDigits 10 n := by
  simp [numbered, Nat.toString_eq_repr, Nat.toList_repr]

/-- Whatever the bases hold, ids that are equal are so part for part. -/
theorem numbered_inj {base base' : String} {kind kind' : Kind} {n n' : Nat}
    (h : numbered base kind n = numbered base' kind' n') :
    base = base' ∧ kind = kind' ∧ n = n' := by
  have hlists := congrArg String.toList h
  rw [toList_numbered, toList_numbered] at hlists
  obtain ⟨hfront, hdigits⟩ :=
    eq_of_last_point (point_not_mem_toDigits n) (point_not_mem_toDigits n') hlists
  obtain ⟨hbase, hname⟩ :=
    eq_of_last_point (point_not_mem_name kind) (point_not_mem_name kind') hfront
  exact ⟨String.toList_inj.mp hbase, name_inj hname, toDigits_inj hdigits⟩

/-- A way to get an id: by itself, or within a new identity. -/
inductive Draw where
  | id (base : String) (kind : Kind)
  | identity (base : String) (kind : Kind)

namespace Draw

def base : Draw → String
  | id base _ => base
  | identity base _ => base

def kind : Draw → Kind
  | id _ kind => kind
  | identity _ kind => kind

/-- How many of some draws are of one kind. -/
def count (kind : Kind) (draws : List Draw) : Nat := draws.countP fun d => d.kind = kind

theorem count_cons (kind : Kind) (d : Draw) (draws : List Draw) :
    count kind (d :: draws) = count kind draws + if d.kind = kind then 1 else 0 := by
  simp [count, List.countP_cons]

/-- A draw makes more of its own kind. -/
theorem count_take_lt {draws : List Draw} {i j : Nat} (hij : i < j) (hi : i < draws.length) :
    count draws[i].kind (draws.take i) < count draws[i].kind (draws.take j) := by
  have hstep : count draws[i].kind (draws.take (i + 1)) =
      count draws[i].kind (draws.take i) + 1 := by
    rw [← List.take_append_getElem hi, count, List.countP_append, List.countP_singleton,
      decide_eq_true rfl]
    rfl
  have hmono : count draws[i].kind (draws.take (i + 1)) ≤ count draws[i].kind (draws.take j) :=
    (List.take_sublist_take_left hij).countP_le
  omega

end Draw

namespace IdSource

/-- The id that a draw gives, and the source after it. -/
def draw (s : IdSource) : Draw → String × IdSource
  | .id base kind => s.next base kind
  | .identity base kind => ((s.identity base kind).1.id, (s.identity base kind).2)

/-- The ids of draws one after another. -/
def ids (s : IdSource) : List Draw → List String
  | [] => []
  | d :: rest => (s.draw d).1 :: (s.draw d).2.ids rest

theorem draw_eq_next (s : IdSource) (d : Draw) : s.draw d = s.next d.base d.kind := by
  cases d <;> rfl

theorem draw_fst (s : IdSource) (d : Draw) :
    (s.draw d).1 = numbered d.base d.kind (s.drawn d.kind).toNat := by
  rw [draw_eq_next]
  rfl

/-- A draw counts for its own kind alone. -/
theorem drawn_draw (s : IdSource) (d : Draw) (kind : Kind) :
    (s.draw d).2.drawn kind = s.drawn kind + if d.kind = kind then 1 else 0 := by
  rw [draw_eq_next]
  generalize d.kind = drawnKind
  cases drawnKind <;> cases kind <;> simp [next, drawn]

theorem length_ids (s : IdSource) (draws : List Draw) : (s.ids draws).length = draws.length := by
  induction draws generalizing s with
  | nil => rfl
  | cons d rest ih => rw [ids, List.length_cons, List.length_cons, ih]

/-- The number of a draw counts on from the source by the draws of its kind before it. -/
theorem getElem?_ids (s : IdSource) (earlier : List Draw) (d : Draw) (later : List Draw) :
    (s.ids (earlier ++ d :: later))[earlier.length]? =
      some (numbered d.base d.kind
        (s.drawn d.kind + UInt64.ofNat (Draw.count d.kind earlier)).toNat) := by
  induction earlier generalizing s with
  | nil =>
    rw [List.nil_append, ids, List.length_nil, List.getElem?_cons_zero, draw_fst]
    simp [Draw.count]
  | cons first earlier ih =>
    rw [List.cons_append, ids, List.length_cons, List.getElem?_cons_succ, ih, drawn_draw,
      Draw.count_cons]
    by_cases hkind : first.kind = d.kind
    · simp only [hkind, if_true, UInt64.ofNat_add, UInt64.add_assoc]
      rw [UInt64.add_comm 1]
      rfl
    · simp [hkind]

/-- The id at a place of a new source, where the counters do not run out. -/
theorem getElem?_ids_new {draws : List Draw} (hfew : draws.length < UInt64.size) {i : Nat}
    (hi : i < draws.length) :
    (({} : IdSource).ids draws)[i]? =
      some (numbered draws[i].base draws[i].kind (Draw.count draws[i].kind (draws.take i))) := by
  have hplace := getElem?_ids {} (draws.take i) draws[i] (draws.drop (i + 1))
  have hlength : (draws.take i).length = i := List.length_take_of_le (by omega)
  have hzero : ({} : IdSource).drawn draws[i].kind = 0 := by cases draws[i].kind <;> rfl
  have hcount : Draw.count draws[i].kind (draws.take i) ≤ (draws.take i).length :=
    List.countP_le_length
  have hword : (UInt64.ofNat (Draw.count draws[i].kind (draws.take i))).toNat =
      Draw.count draws[i].kind (draws.take i) := UInt64.toNat_ofNat_of_lt' (by omega)
  rwa [List.getElem_cons_drop, List.take_append_drop, hlength, hzero, UInt64.zero_add, hword]
    at hplace

/-- From a new source, fewer draws than there are words of 64 bits get ids of which no two are
equal, whatever their bases and kinds. The id of a draw is its base, its kind and the number of
draws of this kind before it. -/
theorem ids_distinct (draws : List Draw) (hfew : draws.length < UInt64.size) :
    (({} : IdSource).ids draws).length = draws.length ∧ (({} : IdSource).ids draws).Nodup ∧
    ∀ i (_ : i < draws.length), (({} : IdSource).ids draws)[i]? =
      some (draws[i].base ++ "." ++ draws[i].kind.name ++ "." ++
        toString (Draw.count draws[i].kind (draws.take i))) := by
  refine ⟨length_ids _ draws, ?_, fun i hi => getElem?_ids_new hfew hi⟩
  rw [List.nodup_iff_getElem?_ne_getElem?]
  intro i j hij hj hsame
  rw [length_ids] at hj
  have hi : i < draws.length := Nat.lt_trans hij hj
  rw [getElem?_ids_new hfew hi, getElem?_ids_new hfew hj] at hsame
  obtain ⟨-, hkind, hcount⟩ := numbered_inj (Option.some.inj hsame)
  have hmore := Draw.count_take_lt hij hi
  rw [hcount, hkind] at hmore
  exact Nat.lt_irrefl _ hmore

/-- The end of one base looks like the id before it, and the numbers of the kinds are apart. -/
theorem ids_distinct_nested :
    let draws := [Draw.id "a.ws.0" .http, .identity "a" .ws, .id "a.ws" .ws, .identity "" .http]
    draws.length < UInt64.size ∧ (({} : IdSource).ids draws).Nodup ∧
      (({} : IdSource).ids draws)[3]? = some ".http.1" := by
  intro draws
  have hfew : draws.length < UInt64.size := by decide
  obtain ⟨-, hnodup, hat⟩ := ids_distinct draws hfew
  refine ⟨hfew, hnodup, (hat 3 (by decide)).trans ?_⟩
  decide

end IdSource

end MarketFeed.Transport
