import Mathlib
import MarketFeed.Proofs.Canonical
import MarketFeed.Proofs.Decoding

/-!
The grammar of data frames. A frame of an order book or of executions is accepted exactly if it is
written as the grammar says: a symbol, a number or none, and lists of which every element is valid.
What is read then has one entry for each element, in their order. A single invalid element refuses
the whole frame. Nothing else in the text has a part in it: neither fields that the grammar does not
name nor the order of fields.
-/
namespace MarketFeed

namespace Json

variable {names : List String} {fields : Fields}

/-- Whether values are the parts of a record, by name in an object and by position in an array. -/
inductive Holds (names : List String) : Json → List Json → Prop where
  | object {fields : Fields} {values : List Json}
      (hvalues : names.map (Table.findIn · fields) = values.map some) :
      Holds names (object fields) values
  | array {values : List Json} (hlength : values.length = names.length) :
      Holds names (array values) values

/-- The fields of an object that a record knows. -/
def known (names : List String) (fields : Fields) : Fields := fields.filter fun f => f.1 ∈ names

theorem record?_of_nodup (least : Nat) (hnodup : (fields.map Prod.fst).Nodup) :
    record? names least (object fields) = some (known names fields) := by
  have hknown : ((known names fields).map Prod.fst).Nodup :=
    (List.filter_sublist.map Prod.fst).nodup hnodup
  rw [record?]
  exact if_pos hknown

theorem findIn_known {name : String} (hname : name ∈ names) (fields : Fields) :
    Table.findIn name (known names fields) = Table.findIn name fields := by
  induction fields with
  | nil => rfl
  | cons f fields ih =>
    by_cases hf : f.1 ∈ names
    · simp only [known, List.filter_cons, hf, decide_true, if_true, Table.findIn] at ih ⊢
      rw [ih]
    · have hne : name ≠ f.1 := by
        rintro rfl
        exact hf hname
      simp only [known, List.filter_cons, hf, decide_false, Bool.false_eq_true, if_false,
        Table.findIn, if_neg hne] at ih ⊢
      exact ih

/-- In an array the parts stand in the order of their names. -/
theorem map_findIn_zip (hnames : names.Nodup) {items : List Json}
    (hlength : items.length = names.length) :
    names.map (Table.findIn · (names.zip items)) = items.map some := by
  induction names generalizing items with
  | nil =>
    obtain rfl : items = [] := List.length_eq_zero_iff.mp hlength
    rfl
  | cons name names ih =>
    cases items with
    | nil => cases hlength
    | cons item items =>
      obtain ⟨hname, hnames⟩ := List.nodup_cons.mp hnames
      have hrest : ∀ other ∈ names, Table.findIn other ((name :: names).zip (item :: items)) =
          Table.findIn other (names.zip items) := by
        intro other hother
        have hne : other ≠ name := by
          rintro rfl
          exact hname hother
        rw [List.zip_cons_cons, Table.findIn, if_neg hne]
      rw [List.map_cons, List.map_cons, List.map_congr_left hrest,
        ih hnames (Nat.succ.inj hlength), List.zip_cons_cons, Table.findIn, if_pos rfl]

/-- A record of which an array has to hold every part has the parts that a value holds. -/
theorem exists_record?_iff (names : List String) (hnames : names.Nodup) {j : Json} (hj : Tidy j)
    (values : List Json) :
    (∃ fields, record? names names.length j = some fields ∧
      names.map (Table.findIn · fields) = values.map some) ↔ Holds names j values := by
  have hsome : Function.Injective (List.map (some : Json → Option Json)) :=
    List.map_injective_iff.mpr (Option.some_injective Json)
  constructor
  · rintro ⟨parts, hrecord, hparts⟩
    cases hj with
    | @object fields hnodup _ =>
      rw [record?_of_nodup _ hnodup, Option.some.injEq] at hrecord
      subst hrecord
      rw [List.map_congr_left fun name hname => findIn_known hname fields] at hparts
      exact Holds.object hparts
    | @array items _ =>
      simp only [record?, Option.ite_none_right_eq_some, Option.some.injEq] at hrecord
      obtain ⟨hlength, rfl⟩ := hrecord
      have hlength : items.length = names.length := by omega
      rw [map_findIn_zip hnames hlength] at hparts
      rw [← hsome hparts]
      exact Holds.array hlength
    | _ => cases hrecord
  · intro hholds
    cases hholds with
    | @object fields _ hvalues =>
      cases hj with
      | object hnodup _ =>
        refine ⟨known names fields, record?_of_nodup _ hnodup, ?_⟩
        rw [List.map_congr_left fun name hname => findIn_known hname fields, hvalues]
    | array hlength =>
      refine ⟨names.zip values, ?_, map_findIn_zip hnames hlength⟩
      rw [record?, if_pos (by omega)]

/-- Values with the same parts of a record: equal ones, or objects that agree on each name. -/
inductive SameParts (names : List String) : Json → Json → Prop where
  | refl (j : Json) : SameParts names j j
  | objects {fields fields' : Fields}
      (hfields : ∀ name ∈ names, Table.findIn name fields = Table.findIn name fields') :
      SameParts names (object fields) (object fields')

theorem SameParts.holds_iff {j j' : Json} (h : SameParts names j j') {values : List Json} :
    Holds names j values ↔ Holds names j' values := by
  cases h with
  | refl j => rfl
  | objects hfields =>
    constructor
    · rintro ⟨hvalues⟩
      exact Holds.object ((List.map_congr_left hfields).symm.trans hvalues)
    · rintro ⟨hvalues⟩
      exact Holds.object ((List.map_congr_left hfields).trans hvalues)

/-- Parts that are the same, or arrays of the same length whose items have the same parts. -/
inductive SameList (names : List String) : Option Json → Option Json → Prop where
  | refl (part : Option Json) : SameList names part part
  | arrays {items items' : List Json} (hitems : List.Forall₂ (SameParts names) items items') :
      SameList names (some (array items)) (some (array items'))

/-- The value of a text. Such as `1e999`, half of a surrogate pair or too deep a nesting have
none. -/
def value? (raw : String) : Option Json := (ofText? raw).bind canonical

theorem tidy_of_value? {raw : String} {j : Json} (h : value? raw = some j) : Tidy j := by
  obtain ⟨_, _, hcanonical⟩ := Option.bind_eq_some_iff.mp h
  exact tidy_of_canonicalIn hcanonical

end Json

namespace Feed.Frame

open Json Number Market

/-- Whether a value is a price level: a price and a size, both decimals. -/
def LevelIn (j : Json) (l : Level) : Prop :=
  ∃ price size, j.Holds ["price", "size"] [price, size] ∧
    decimal? price = some l.price ∧ decimal? size = some l.size

/-- Whether a value names who takes: by a name, or by an object with the name and nothing in it. -/
inductive TakerIn : Json → Taker → Prop where
  | name (t : Taker) : TakerIn (.text t.name) t
  | object (t : Taker) : TakerIn (.object [(t.name, .null)]) t

/-- Whether a value is an execution: any id, decimals, a side and the text of a time. -/
def ExecutionIn (j : Json) (x : Execution) : Prop :=
  ∃ id price quantity side time n,
    j.Holds ["id", "price", "quantity", "side", "timestamp"] [id, price, quantity, side, .text time] ∧
    x.id = idText id ∧ decimal? price = some x.price ∧ decimal? quantity = some x.amount ∧
    TakerIn side x.taker ∧ Time.timestamp time = .ok n ∧ x.timestamp = UInt64.ofNat n

/-- Whether a part is the number of a frame, which may be left out or `null`. A number is written
with digits alone. -/
inductive NumberIn : Option Json → Option UInt64 → Prop where
  | absent : NumberIn none none
  | null : NumberIn (some .null) none
  | int {n : Nat} (hn : n < 2 ^ 64) : NumberIn (some (.int n)) (some (UInt64.ofNat n))

/-- Whether a part is the time of a book, which may be left out or `null`. -/
inductive TimeIn : Option Json → Option UInt64 → Prop where
  | absent : TimeIn none none
  | null : TimeIn (some .null) none
  | text {time : String} {n : Nat} (htime : Time.timestamp time = .ok n) :
      TimeIn (some (.text time)) (some (UInt64.ofNat n))

/-- Whether a part is one side of a book, which is empty if it is left out. -/
inductive LevelsIn : Option Json → List Level → Prop where
  | absent : LevelsIn none []
  | array {items : List Json} {levels : List Level} (hitems : List.Forall₂ LevelIn items levels) :
      LevelsIn (some (.array items)) levels

/-- Whether fields are those of a book. -/
structure BookIn (params : Fields) (f : BookFrame) : Prop where
  symbol : Table.findIn "symbol" params = some (.text f.symbol)
  sequence : NumberIn (Table.findIn "sequence" params) f.sequence
  bid : LevelsIn (Table.findIn "bid" params) f.bid
  ask : LevelsIn (Table.findIn "ask" params) f.ask
  timestamp : TimeIn (Table.findIn "timestamp" params) f.timestamp

/-- Whether fields are those of a list of executions. -/
structure TradesIn (params : Fields) (f : TradesFrame) : Prop where
  symbol : Table.findIn "symbol" params = some (.text f.symbol)
  sequence : NumberIn (Table.findIn "sequence" params) f.sequence
  data : ∃ items, Table.findIn "data" params = some (.array items) ∧
    List.Forall₂ ExecutionIn items f.trades

/-- The methods of frames that carry levels of a book. -/
def bookMethods : List String := ["snapshotOrderbook", "updateOrderbook"]

/-- The methods of frames that carry executions. -/
def tradesMethods : List String := ["updateTrades", "snapshotTrades"]

/-- The data frames by their methods. -/
inductive DataIn (params : Fields) (method : String) : Frame → Prop where
  | snapshot {f : BookFrame} (hmethod : method = "snapshotOrderbook") (hbook : BookIn params f) :
      DataIn params method (.snapshot f)
  | update {f : BookFrame} (hmethod : method = "updateOrderbook") (hbook : BookIn params f) :
      DataIn params method (.update f)
  | trades {f : TradesFrame} (hmethod : method ∈ tradesMethods) (htrades : TradesIn params f) :
      DataIn params method (.trades f)

theorem level?_eq_some_iff {j : Json} (hj : Tidy j) {l : Level} :
    level? j = some l ↔ LevelIn j l := by
  have hrecord := fun price size =>
    exists_record?_iff ["price", "size"] (by decide) hj [price, size]
  simp only [List.map_cons, List.map_nil, List.cons.injEq, and_true] at hrecord
  simp only [level?, Option.bind_eq_bind, Option.bind_eq_some_iff, required, LevelIn, ← hrecord]
  constructor
  · rintro ⟨parts, hparts, p, ⟨price, hprice, hp⟩, s, ⟨size, hsize, hs⟩, ⟨⟩⟩
    exact ⟨price, size, ⟨parts, hparts, hprice, hsize⟩, hp, hs⟩
  · rintro ⟨price, size, ⟨parts, hparts, hprice, hsize⟩, hp, hs⟩
    exact ⟨parts, hparts, l.price, ⟨price, hprice, hp⟩, l.size, ⟨size, hsize, hs⟩, rfl⟩

theorem takerOfJson?_eq_some_iff {isNothing : Json → Bool}
    (hnothing : ∀ j, isNothing j = true ↔ j = .null) {j : Json} {t : Taker} :
    Taker.ofJson? isNothing j = some t ↔ TakerIn j t := by
  have hname : ∀ s : String, Taker.all.find? (·.name == s) = some t ↔ t.name = s := by
    intro s
    constructor
    · intro h
      simpa using List.find?_some h
    · rintro rfl
      cases t <;> rfl
  constructor
  · intro h
    unfold Taker.ofJson? at h
    split at h
    · next s =>
      rw [← (hname s).mp h]
      exact TakerIn.name t
    · next s value =>
      split at h
      · next hnull =>
        rw [← (hname s).mp h, (hnothing value).mp hnull]
        exact TakerIn.object t
      · cases h
    · cases h
  · rintro (t | t)
    · exact (hname _).mpr rfl
    · rw [Taker.ofJson?, if_pos ((hnothing _).mpr rfl)]
      exact (hname _).mpr rfl

/-- What is read of an execution before its time is. -/
theorem execution?_eq_some_iff {j : Json} (hj : Tidy j) {x : Execution} {time : String} :
    execution? j = some (x, time) ↔
      ∃ id price quantity side,
        j.Holds ["id", "price", "quantity", "side", "timestamp"]
          [id, price, quantity, side, .text time] ∧
        x.id = idText id ∧ decimal? price = some x.price ∧ decimal? quantity = some x.amount ∧
        TakerIn side x.taker ∧ x.timestamp = 0 := by
  have hrecord := fun id price quantity side time =>
    exists_record?_iff ["id", "price", "quantity", "side", "timestamp"] (by decide) hj
      [id, price, quantity, side, time]
  simp only [List.map_cons, List.map_nil, List.cons.injEq, and_true] at hrecord
  simp only [execution?, Option.bind_eq_bind, Option.bind_eq_some_iff, required, ← hrecord]
  constructor
  · rintro ⟨parts, hparts, id, ⟨_, hid, ⟨⟩⟩, p, ⟨price, hprice, hp⟩, q, ⟨quantity, hquantity, hq⟩,
      t, ⟨side, hside, ht⟩, raw, ⟨j', htime, hraw⟩, ⟨⟩⟩
    obtain rfl : j' = .text time := by
      cases j' <;> cases hraw
      rfl
    exact ⟨id, price, quantity, side, ⟨parts, hparts, hid, hprice, hquantity, hside, htime⟩, rfl,
      hp, hq, (takerOfJson?_eq_some_iff fun j => by cases j <;> simp).mp ht, rfl⟩
  · rintro ⟨id, price, quantity, side, ⟨parts, hparts, hid, hprice, hquantity, hside, htime⟩,
      hidText, hp, hq, ht, htimestamp⟩
    refine ⟨parts, hparts, id, ⟨id, hid, rfl⟩, x.price, ⟨price, hprice, hp⟩, x.amount,
      ⟨quantity, hquantity, hq⟩, x.taker, ⟨side, hside, ?_⟩, time, ⟨.text time, htime, rfl⟩, ?_⟩
    · exact (takerOfJson?_eq_some_iff fun j => by cases j <;> simp).mpr ht
    · rw [← hidText, ← htimestamp]

theorem timestamp_eq_ok_iff {time : String} {at_ : UInt64} :
    timestamp time = .ok at_ ↔ ∃ n, Time.timestamp time = .ok n ∧ at_ = UInt64.ofNat n := by
  unfold timestamp
  cases Time.timestamp time with
  | error e => simp [malformed]
  | ok n => simp [eq_comm]

/-- An execution and then its time. -/
theorem executionIn_iff {j : Json} (hj : Tidy j) {x : Execution} :
    (∃ read, execution? j = some read ∧
      ((timestamp read.2).map fun at_ => { read.1 with timestamp := at_ }) = .ok x) ↔
      ExecutionIn j x := by
  simp only [Prod.exists, map_eq_ok_iff, execution?_eq_some_iff hj, timestamp_eq_ok_iff, ExecutionIn]
  constructor
  · rintro ⟨y, time, ⟨id, price, quantity, side, hholds, hid, hp, hq, ht, -⟩, _, ⟨n, hn, rfl⟩, rfl⟩
    exact ⟨id, price, quantity, side, time, n, hholds, hid, hp, hq, ht, hn, rfl⟩
  · rintro ⟨id, price, quantity, side, time, n, hholds, hid, hp, hq, ht, hn, htimestamp⟩
    refine ⟨{ x with timestamp := 0 }, time, ⟨id, price, quantity, side, hholds, hid, hp, hq, ht, rfl⟩,
      _, ⟨n, hn, rfl⟩, ?_⟩
    rw [← htimestamp]

theorem asNat?_eq_some_iff {bits : Nat} {j : Json} {n : Nat} :
    j.asNat? bits = some n ↔ j = .int n ∧ n < 2 ^ bits := by
  cases j with
  | int i =>
    simp only [asNat?, Option.ite_none_right_eq_some, Option.some.injEq, Json.int.injEq,
      Nat.one_shiftLeft]
    omega
  | _ => simp [asNat?]

theorem sequence_eq_ok_iff {params : Fields} {number : Option UInt64} :
    sequence (.object params) = .ok number ↔ NumberIn (Table.findIn "sequence" params) number := by
  unfold sequence
  rw [field?]
  split
  · next hfind =>
    rw [hfind]
    constructor
    · rintro ⟨⟩
      exact NumberIn.absent
    · rintro ⟨⟩
      rfl
  · next hfind =>
    rw [hfind]
    constructor
    · rintro ⟨⟩
      exact NumberIn.null
    · rintro ⟨⟩
      rfl
  · next j hnull hfind =>
    rw [hfind]
    constructor
    · intro h
      split at h
      · next n hn =>
        cases h
        obtain ⟨rfl, hlt⟩ := asNat?_eq_some_iff.mp hn
        exact NumberIn.int hlt
      · cases h
    · rintro (_ | _ | hlt)
      · exact absurd rfl hnull
      · rw [asNat?_eq_some_iff.mpr ⟨rfl, hlt⟩]

theorem list?_eq_some_iff {α : Type} {read : Json → Option α} {j : Json} {l : List α} :
    list? read j = some l ↔ ∃ items, j = .array items ∧
      List.Forall₂ (fun item a => read item = some a) items l := by
  cases j with
  | array items => simp [list?, mapM_eq_some_iff]
  | _ => simp [list?]

theorem optional_text_eq_some_iff {fields : Fields} {name : String} {raw : Option String} :
    Json.optional fields name asText? = some raw ↔
      (raw = none ∧ (Table.findIn name fields = none ∨ Table.findIn name fields = some .null)) ∨
        ∃ s, raw = some s ∧ Table.findIn name fields = some (.text s) := by
  unfold Json.optional
  split
  · next hfind => simp [hfind, eq_comm]
  · next hfind => simp [hfind, eq_comm]
  · next j hnull hfind =>
    rw [hfind]
    cases j with
    | null => exact absurd rfl hnull
    | text s => simp [asText?, eq_comm]
    | _ => simp [asText?]

section Objects

variable {params : Fields} (hparams : Tidy (.object params))

include hparams

theorem withDefault_levels_iff {name : String} {levels : List Level} :
    withDefault params name [] (list? level?) = some levels ↔
      LevelsIn (Table.findIn name params) levels := by
  unfold withDefault
  cases hfind : Table.findIn name params with
  | none =>
    constructor
    · rintro ⟨⟩
      exact LevelsIn.absent
    · rintro ⟨⟩
      rfl
  | some j =>
    simp only [list?_eq_some_iff]
    constructor
    · rintro ⟨items, rfl, hitems⟩
      have htidy := (hparams.of_findIn hfind).items
      exact LevelsIn.array
        ((forall₂_congr fun j hj l => level?_eq_some_iff (htidy j hj)).mp hitems)
    · rintro ⟨⟩
      next items hitems =>
        have htidy := (hparams.of_findIn hfind).items
        exact ⟨items, rfl,
          (forall₂_congr fun j hj l => level?_eq_some_iff (htidy j hj)).mpr hitems⟩

theorem bookFields?_eq_some_iff {symbol : String} {bid ask : List Level} {raw : Option String} :
    bookFields? (.object params) = some (symbol, bid, ask, raw) ↔
      Table.findIn "symbol" params = some (.text symbol) ∧
        LevelsIn (Table.findIn "bid" params) bid ∧ LevelsIn (Table.findIn "ask" params) ask ∧
        optional params "timestamp" asText? = some raw := by
  have hpart : ∀ name ∈ ["symbol", "bid", "ask", "timestamp"],
      Table.findIn name (known ["symbol", "bid", "ask", "timestamp"] params) =
        Table.findIn name params := fun name hname => findIn_known hname params
  have hlevels : ∀ name ∈ ["symbol", "bid", "ask", "timestamp"], ∀ levels,
      withDefault (known ["symbol", "bid", "ask", "timestamp"] params) name [] (list? level?) =
        some levels ↔ LevelsIn (Table.findIn name params) levels := by
    intro name hname levels
    rw [← withDefault_levels_iff hparams, withDefault, withDefault, hpart name hname]
  have htime : optional (known ["symbol", "bid", "ask", "timestamp"] params) "timestamp" asText? =
      optional params "timestamp" asText? := by
    unfold Json.optional
    rw [hpart "timestamp" (by decide)]
  simp only [bookFields?, record?_of_nodup _ hparams.nodup_names, required,
    hpart "symbol" (by decide), htime,
    Option.bind_eq_bind, Option.bind_some, Option.bind_eq_some_iff, hlevels "bid" (by decide),
    hlevels "ask" (by decide)]
  constructor
  · rintro ⟨_, ⟨j, hsymbol, htext⟩, _, hbid, _, hask, _, hraw, ⟨⟩⟩
    cases j <;> cases htext
    exact ⟨hsymbol, hbid, hask, hraw⟩
  · rintro ⟨hsymbol, hbid, hask, hraw⟩
    exact ⟨symbol, ⟨_, hsymbol, rfl⟩, bid, hbid, ask, hask, raw, hraw, rfl⟩

theorem bookOf_eq_ok_iff {number : Option UInt64} {f : BookFrame} :
    bookOf (.object params) number = .ok f ↔
      f.sequence = number ∧ Table.findIn "symbol" params = some (.text f.symbol) ∧
        LevelsIn (Table.findIn "bid" params) f.bid ∧ LevelsIn (Table.findIn "ask" params) f.ask ∧
        TimeIn (Table.findIn "timestamp" params) f.timestamp := by
  simp only [bookOf, bind_eq_ok_iff, orMalformed_eq_ok_iff, Prod.exists,
    bookFields?_eq_some_iff hparams]
  constructor
  · rintro ⟨symbol, bid, ask, raw, ⟨hsymbol, hbid, hask, hraw⟩, hread⟩
    rcases optional_text_eq_some_iff.mp hraw with ⟨rfl, hfind⟩ | ⟨s, rfl, hfind⟩
    · cases hread
      refine ⟨rfl, hsymbol, hbid, hask, ?_⟩
      rcases hfind with hfind | hfind
      · rw [hfind]
        exact TimeIn.absent
      · rw [hfind]
        exact TimeIn.null
    · obtain ⟨_, hmapped, ⟨⟩⟩ := bind_eq_ok_iff.mp hread
      obtain ⟨_, htime, rfl⟩ := map_eq_ok_iff.mp hmapped
      obtain ⟨n, hn, rfl⟩ := timestamp_eq_ok_iff.mp htime
      refine ⟨rfl, hsymbol, hbid, hask, ?_⟩
      rw [hfind]
      exact TimeIn.text hn
  · rintro ⟨rfl, hsymbol, hbid, hask, htime⟩
    obtain ⟨symbol, bid, ask, number, t⟩ := f
    generalize hfind : Table.findIn "timestamp" params = found at htime
    cases htime with
    | absent =>
      have hraw := optional_text_eq_some_iff.mpr (Or.inl ⟨rfl, Or.inl hfind⟩)
      exact ⟨symbol, bid, ask, none, ⟨hsymbol, hbid, hask, hraw⟩, rfl⟩
    | null =>
      have hraw := optional_text_eq_some_iff.mpr (Or.inl ⟨rfl, Or.inr hfind⟩)
      exact ⟨symbol, bid, ask, none, ⟨hsymbol, hbid, hask, hraw⟩, rfl⟩
    | @text time n hn =>
      have hraw := optional_text_eq_some_iff.mpr (Or.inr ⟨time, rfl, hfind⟩)
      have htime : timestamp time = .ok (UInt64.ofNat n) := timestamp_eq_ok_iff.mpr ⟨n, hn, rfl⟩
      refine ⟨symbol, bid, ask, some time, ⟨hsymbol, hbid, hask, hraw⟩, ?_⟩
      simp only [htime]
      rfl

theorem tradesFields?_eq_some_iff {symbol : String} {data : List (Execution × String)} :
    tradesFields? (.object params) = some (symbol, data) ↔
      Table.findIn "symbol" params = some (.text symbol) ∧
        ∃ items, Table.findIn "data" params = some (.array items) ∧
          List.Forall₂ (fun item read => execution? item = some read) items data := by
  have hpart : ∀ name ∈ ["symbol", "data"],
      Table.findIn name (known ["symbol", "data"] params) = Table.findIn name params :=
    fun name hname => findIn_known hname params
  simp only [tradesFields?, record?_of_nodup _ hparams.nodup_names, required,
    hpart "symbol" (by decide), hpart "data" (by decide), Option.bind_eq_bind, Option.bind_some,
    Option.bind_eq_some_iff, list?_eq_some_iff]
  constructor
  · rintro ⟨_, ⟨j, hsymbol, htext⟩, _, ⟨_, hdata, items, rfl, hitems⟩, ⟨⟩⟩
    cases j <;> cases htext
    exact ⟨hsymbol, items, hdata, hitems⟩
  · rintro ⟨hsymbol, items, hdata, hitems⟩
    exact ⟨symbol, ⟨_, hsymbol, rfl⟩, data, ⟨_, hdata, items, rfl, hitems⟩, rfl⟩

theorem tradesOf_eq_ok_iff {number : Option UInt64} {frame : Frame} :
    tradesOf (.object params) number = .ok frame ↔
      ∃ f : TradesFrame, frame = .trades f ∧ f.sequence = number ∧
        Table.findIn "symbol" params = some (.text f.symbol) ∧
        ∃ items, Table.findIn "data" params = some (.array items) ∧
          List.Forall₂ ExecutionIn items f.trades := by
  simp only [tradesOf, bind_eq_ok_iff, orMalformed_eq_ok_iff, Prod.exists,
    tradesFields?_eq_some_iff hparams, mapM_eq_ok_iff]
  constructor
  · rintro ⟨symbol, data, ⟨hsymbol, items, hdata, hitems⟩, executions, htimes, ⟨⟩⟩
    refine ⟨_, rfl, rfl, hsymbol, items, hdata, ?_⟩
    have htidy := (hparams.of_findIn hdata).items
    have hboth := exists_forall₂_iff.mp ⟨data, hitems, htimes⟩
    exact (forall₂_congr fun j hj x => executionIn_iff (htidy j hj)).mp hboth
  · rintro ⟨f, rfl, rfl, hsymbol, items, hdata, hitems⟩
    have htidy := (hparams.of_findIn hdata).items
    have hboth := (forall₂_congr fun j hj x => executionIn_iff (htidy j hj)).mpr hitems
    obtain ⟨data, hread, htimes⟩ := exists_forall₂_iff.mpr hboth
    exact ⟨f.symbol, data, ⟨hsymbol, items, hdata, hread⟩, f.trades, htimes, rfl⟩

theorem ofMethod_book_iff (read : BookFrame → Frame) {frame : Frame} :
    (sequence (.object params) >>= fun number => (bookOf (.object params) number).map read) =
        .ok frame ↔ ∃ f, BookIn params f ∧ read f = frame := by
  simp only [bind_eq_ok_iff, map_eq_ok_iff, sequence_eq_ok_iff, bookOf_eq_ok_iff hparams]
  constructor
  · rintro ⟨_, hnumber, f, ⟨rfl, hsymbol, hbid, hask, htime⟩, hread⟩
    exact ⟨f, ⟨hsymbol, hnumber, hbid, hask, htime⟩, hread⟩
  · rintro ⟨f, hbook, hread⟩
    exact ⟨f.sequence, hbook.sequence, f,
      ⟨rfl, hbook.symbol, hbook.bid, hbook.ask, hbook.timestamp⟩, hread⟩

theorem ofMethod_trades_iff {frame : Frame} :
    (sequence (.object params) >>= fun number => tradesOf (.object params) number) = .ok frame ↔
      ∃ f, TradesIn params f ∧ .trades f = frame := by
  simp only [bind_eq_ok_iff, sequence_eq_ok_iff, tradesOf_eq_ok_iff hparams]
  constructor
  · rintro ⟨_, hnumber, f, rfl, rfl, hsymbol, hdata⟩
    exact ⟨f, ⟨hsymbol, hnumber, hdata⟩, rfl⟩
  · rintro ⟨f, htrades, rfl⟩
    exact ⟨f.sequence, htrades.sequence, f, rfl, rfl, htrades.symbol, htrades.data⟩

theorem ofMethod_data_iff {method : String} (hmethod : method ∈ bookMethods ++ tradesMethods)
    {frame : Frame} :
    ofMethod (.text method) (.object [("params", .object params)]) = .ok frame ↔
      DataIn params method frame := by
  simp only [bookMethods, tradesMethods, List.cons_append, List.nil_append, List.mem_cons,
    List.not_mem_nil, or_false] at hmethod
  have htrades {method : String} (hmethod : method ∈ tradesMethods) :
      (∃ f, TradesIn params f ∧ .trades f = frame) ↔ DataIn params method frame := by
    constructor
    · rintro ⟨f, htrades, rfl⟩
      exact DataIn.trades hmethod htrades
    · rintro (⟨rfl, -⟩ | ⟨rfl, -⟩ | ⟨-, htrades⟩)
      · simp [tradesMethods] at hmethod
      · simp [tradesMethods] at hmethod
      · exact ⟨_, htrades, rfl⟩
  rcases hmethod with rfl | rfl | rfl | rfl
  · refine (ofMethod_book_iff hparams .snapshot).trans ⟨?_, ?_⟩
    · rintro ⟨f, hbook, rfl⟩
      exact DataIn.snapshot rfl hbook
    · rintro (⟨-, hbook⟩ | ⟨hmethod, -⟩ | ⟨hmethod, -⟩)
      · exact ⟨_, hbook, rfl⟩
      · simp at hmethod
      · simp [tradesMethods] at hmethod
  · refine (ofMethod_book_iff hparams .update).trans ⟨?_, ?_⟩
    · rintro ⟨f, hbook, rfl⟩
      exact DataIn.update rfl hbook
    · rintro (⟨hmethod, -⟩ | ⟨-, hbook⟩ | ⟨hmethod, -⟩)
      · simp at hmethod
      · exact ⟨_, hbook, rfl⟩
      · simp [tradesMethods] at hmethod
  · exact (ofMethod_trades_iff hparams).trans (htrades (by simp [tradesMethods]))
  · exact (ofMethod_trades_iff hparams).trans (htrades (by simp [tradesMethods]))

end Objects

section Same

variable {params params' : Fields}

/-- Whether contents of data frames agree on everything that the grammar names. -/
inductive SameContent (params params' : Fields) (method : String) : Prop where
  | book (hmethod : method ∈ bookMethods)
      (hparts : ∀ name ∈ ["symbol", "sequence", "timestamp"],
        Table.findIn name params = Table.findIn name params')
      (hlevels : ∀ side ∈ ["bid", "ask"], SameList ["price", "size"]
        (Table.findIn side params) (Table.findIn side params'))
  | trades (hmethod : method ∈ tradesMethods)
      (hparts : ∀ name ∈ ["symbol", "sequence"],
        Table.findIn name params = Table.findIn name params')
      (hdata : SameList ["id", "price", "quantity", "side", "timestamp"]
        (Table.findIn "data" params) (Table.findIn "data" params'))

theorem levelsIn_congr {part part' : Option Json} (h : SameList ["price", "size"] part part')
    {levels : List Level} : LevelsIn part levels ↔ LevelsIn part' levels := by
  cases h with
  | refl part => rfl
  | @arrays items items' hitems =>
    have hlevels : List.Forall₂ LevelIn items levels ↔ List.Forall₂ LevelIn items' levels := by
      refine forall₂_congr_left (fun j j' hj l => ?_) hitems levels
      simp only [LevelIn, hj.holds_iff]
    constructor
    · rintro (_ | h)
      exact LevelsIn.array (hlevels.mp h)
    · rintro (_ | h)
      exact LevelsIn.array (hlevels.mpr h)

theorem executions_congr {items items' : List Json} (hitems : ∀ j ∈ items, Tidy j)
    (hitems' : ∀ j ∈ items', Tidy j)
    (h : List.Forall₂ (SameParts ["id", "price", "quantity", "side", "timestamp"]) items items')
    {data : List (Execution × String)} :
    List.Forall₂ (fun item read => execution? item = some read) items data ↔
      List.Forall₂ (fun item read => execution? item = some read) items' data := by
  rw [forall₂_congr fun j hj read => execution?_eq_some_iff (hitems j hj),
    forall₂_congr fun j hj read => execution?_eq_some_iff (hitems' j hj)]
  refine forall₂_congr_left (fun j j' hj read => ?_) h data
  simp only [hj.holds_iff]

section Objects

variable (hparams : Tidy (.object params)) (hparams' : Tidy (.object params'))

include hparams hparams'

theorem bookFields?_congr
    (hparts : ∀ name ∈ ["symbol", "timestamp"],
      Table.findIn name params = Table.findIn name params')
    (hlevels : ∀ side ∈ ["bid", "ask"], SameList ["price", "size"]
      (Table.findIn side params) (Table.findIn side params')) :
    bookFields? (.object params) = bookFields? (.object params') := by
  have htime : Json.optional params "timestamp" asText? =
      Json.optional params' "timestamp" asText? := by
    simp only [Json.optional, hparts "timestamp" (by decide)]
  refine Option.ext fun fields => ?_
  obtain ⟨symbol, bid, ask, raw⟩ := fields
  simp only [bookFields?_eq_some_iff hparams, bookFields?_eq_some_iff hparams',
    hparts "symbol" (by decide), levelsIn_congr (hlevels "bid" (by decide)),
    levelsIn_congr (hlevels "ask" (by decide)), htime]

theorem tradesFields?_congr
    (hsymbol : Table.findIn "symbol" params = Table.findIn "symbol" params')
    (hdata : SameList ["id", "price", "quantity", "side", "timestamp"]
      (Table.findIn "data" params) (Table.findIn "data" params')) :
    tradesFields? (.object params) = tradesFields? (.object params') := by
  refine Option.ext fun fields => ?_
  obtain ⟨symbol, data⟩ := fields
  rw [tradesFields?_eq_some_iff hparams, tradesFields?_eq_some_iff hparams', hsymbol]
  generalize hpart : Table.findIn "data" params = part at hdata
  generalize hpart' : Table.findIn "data" params' = part' at hdata
  cases hdata with
  | refl part => rfl
  | arrays hitems =>
    simp only [Option.some.injEq, Json.array.injEq, exists_eq_left',
      executions_congr (hparams.of_findIn hpart).items (hparams'.of_findIn hpart').items hitems]

/-- Only what the grammar names has a part in how content is read. -/
theorem ofMethod_congr {method : String} (h : SameContent params params' method) :
    ofMethod (.text method) (.object [("params", .object params)]) =
      ofMethod (.text method) (.object [("params", .object params')]) := by
  have hsequence : Table.findIn "sequence" params = Table.findIn "sequence" params' →
      sequence (.object params) = sequence (.object params') := by
    intro hfind
    simp only [sequence, field?, hfind]
  cases h with
  | book hmethod hparts hlevels =>
    have hfields := bookFields?_congr hparams hparams'
      (fun name hname => hparts name (by simp at hname ⊢; tauto)) hlevels
    have hread : ∀ read : BookFrame → Frame,
        (sequence (.object params) >>= fun number => (bookOf (.object params) number).map read) =
          (sequence (.object params') >>= fun number =>
            (bookOf (.object params') number).map read) := by
      intro read
      simp only [bookOf, hfields, hsequence (hparts "sequence" (by decide))]
    simp only [bookMethods, List.mem_cons, List.not_mem_nil, or_false] at hmethod
    rcases hmethod with rfl | rfl
    · exact hread .snapshot
    · exact hread .update
  | trades hmethod hparts hdata =>
    have hfields := tradesFields?_congr hparams hparams' (hparts "symbol" (by decide)) hdata
    have hread : (sequence (.object params) >>= fun number => tradesOf (.object params) number) =
        (sequence (.object params') >>= fun number => tradesOf (.object params') number) := by
      simp only [tradesOf, hfields, hsequence (hparts "sequence" (by decide))]
    simp only [tradesMethods, List.mem_cons, List.not_mem_nil, or_false] at hmethod
    rcases hmethod with rfl | rfl
    · exact hread
    · exact hread

end Objects

end Same

/-- A list of a data frame has an element that is not valid. -/
inductive Flawed (params : Fields) (method : String) : Prop where
  | level {side : String} {items : List Json} {j : Json} (hmethod : method ∈ bookMethods)
      (hside : side ∈ ["bid", "ask"]) (hitems : Table.findIn side params = some (.array items))
      (hj : j ∈ items) (hbad : ¬ ∃ l, LevelIn j l)
  | execution {items : List Json} {j : Json} (hmethod : method ∈ tradesMethods)
      (hitems : Table.findIn "data" params = some (.array items)) (hj : j ∈ items)
      (hbad : ¬ ∃ x, ExecutionIn j x)

theorem Flawed.not_dataIn {params : Fields} {method : String} (h : Flawed params method)
    (frame : Frame) : ¬ DataIn params method frame := by
  have hdisjoint : method ∈ bookMethods → method ∉ tradesMethods := by
    simp only [bookMethods, tradesMethods, List.mem_cons, List.not_mem_nil, or_false]
    rintro (rfl | rfl) <;> decide
  cases h with
  | @level side items j hmethod hside hitems hj hbad =>
    -- Each element of an array of levels is one.
    have hnone : ∀ levels, ¬ LevelsIn (Table.findIn side params) levels := by
      rw [hitems]
      rintro levels (_ | hlevels)
      obtain ⟨l, -, hl⟩ := exists_of_forall₂_mem hlevels hj
      exact hbad ⟨l, hl⟩
    have hbook : ∀ f, ¬ BookIn params f := by
      intro f hf
      simp only [List.mem_cons, List.not_mem_nil, or_false] at hside
      rcases hside with rfl | rfl
      · exact hnone _ hf.bid
      · exact hnone _ hf.ask
    rintro (⟨-, hf⟩ | ⟨-, hf⟩ | ⟨htrades, -⟩)
    · exact hbook _ hf
    · exact hbook _ hf
    · exact hdisjoint hmethod htrades
  | @execution items j hmethod hitems hj hbad =>
    rintro (⟨rfl, -⟩ | ⟨rfl, -⟩ | ⟨-, hf⟩)
    · exact hdisjoint (by decide) hmethod
    · exact hdisjoint (by decide) hmethod
    · obtain ⟨items', hitems', hexecutions⟩ := hf.data
      cases hitems.symm.trans hitems'
      obtain ⟨x, -, hx⟩ := exists_of_forall₂_mem hexecutions hj
      exact hbad ⟨x, hx⟩

/-- A frame with a data method is read from its content alone. -/
theorem decode_eq_ofMethod {raw method : String} {members : Fields} {params : Json}
    (hvalue : value? raw = some (.object members))
    (hmethod : Table.findIn "method" members = some (.text method))
    (hparams : Table.findIn "params" members = some params) :
    decode raw = ofMethod (.text method) (.object [("params", params)]) := by
  have hdecode : decode raw = ofJson (.object members) := by
    rw [value?] at hvalue
    rw [decode, hvalue]
    rfl
  rw [hdecode, ofJson, field?, hmethod]
  simp only [ofMethod, field?, hparams, Table.findIn, if_true]

/-- A text with a data method and an object for its content is a frame exactly if the content is
written as the grammar says, and is malformed otherwise, as it is if one element of a list is not
valid. Texts whose contents agree on what the grammar names are read alike, and so are texts that
differ in the order of fields. -/
theorem decode_data {raw method : String} {members params : Fields}
    (hvalue : value? raw = some (.object members))
    (hmethod : Table.findIn "method" members = some (.text method))
    (hdata : method ∈ bookMethods ++ tradesMethods)
    (hparams : Table.findIn "params" members = some (.object params)) :
    (∀ frame, decode raw = .ok frame ↔ DataIn params method frame) ∧
      ((∀ frame, ¬ DataIn params method frame) →
        ∃ reason, decode raw = .error (.malformed reason)) ∧
      (Flawed params method → ∃ reason, decode raw = .error (.malformed reason)) ∧
      (∀ raw' members' params', value? raw' = some (.object members') →
        Table.findIn "method" members' = some (.text method) →
        Table.findIn "params" members' = some (.object params') →
        SameContent params params' method → decode raw' = decode raw) ∧
      ∀ raw' j j', ofText? raw = some j → ofText? raw' = some j' → Reordered j j' →
        decode raw' = decode raw := by
  have htidy : Tidy (.object params) := (tidy_of_value? hvalue).of_findIn hparams
  have hdecode := decode_eq_ofMethod hvalue hmethod hparams
  have hiff : ∀ frame, decode raw = .ok frame ↔ DataIn params method frame := by
    intro frame
    rw [hdecode]
    exact ofMethod_data_iff htidy hdata
  have hmalformed : (∀ frame, ¬ DataIn params method frame) →
      ∃ reason, decode raw = .error (.malformed reason) := by
    intro hnone
    cases h : decode raw with
    | ok frame => exact absurd ((hiff frame).mp h) (hnone frame)
    | error e =>
      obtain ⟨reason, rfl⟩ := decode_formOnly raw e h
      exact ⟨reason, rfl⟩
  refine ⟨hiff, hmalformed, fun hflawed => hmalformed hflawed.not_dataIn, ?_, ?_⟩
  · intro raw' members' params' hvalue' hmethod' hparams' hsame
    have htidy' : Tidy (.object params') := (tidy_of_value? hvalue').of_findIn hparams'
    rw [decode_eq_ofMethod hvalue' hmethod' hparams', hdecode]
    exact (ofMethod_congr htidy htidy' hsame).symm
  · intro raw' j j' hj hj' hreordered
    rw [decode, decode, hj, hj', Option.bind_some, Option.bind_some, hreordered.canonical_eq]

/-- The decimal that a text writes. -/
def decimalOf (s : String) : Decimal := (Decimal.ofText? s.toList).getD .zero

/-- Two asks, one by position and one with a field that no level has, before the method. -/
def mixed : String :=
  "\x7b\"error\":null,\"params\":\x7b\"ask\":[[1,\"0.5\"]," ++
  "\x7b\"x\":[],\"size\":2,\"price\":\"3\"\x7d],\"sequence\":8,\"symbol\":\"ETHBTC\"\x7d," ++
  "\"method\":\"updateOrderbook\"\x7d"

/-- The same with a second ask that has no size. -/
def mixedFlawed : String :=
  "\x7b\"params\":\x7b\"ask\":[[1,\"0.5\"],[3]],\"symbol\":\"ETHBTC\"\x7d," ++
  "\"method\":\"updateOrderbook\"\x7d"

def mixedParams : Fields :=
  [("ask", .array [.array [.int 1, .text "0.5"],
      .object [("price", .text "3"), ("size", .int 2), ("x", .array [])]]),
    ("sequence", .int 8), ("symbol", .text "ETHBTC")]

def mixedFlawedParams : Fields :=
  [("ask", .array [.array [.int 1, .text "0.5"], .array [.int 3]]), ("symbol", .text "ETHBTC")]

def mixedFrame : BookFrame where
  symbol := "ETHBTC"
  bid := []
  ask := [⟨decimalOf "1", decimalOf "0.5"⟩, ⟨decimalOf "3", decimalOf "2"⟩]
  sequence := some 8
  timestamp := none

theorem mixedParams_bookIn : BookIn mixedParams mixedFrame where
  symbol := rfl
  sequence := .int (by decide)
  bid := .absent
  ask := .array (.cons ⟨_, _, .array rfl, rfl, rfl⟩ (.cons ⟨_, _, .object rfl, rfl, rfl⟩ .nil))
  timestamp := .absent

theorem mixedFlawedParams_flawed : Flawed mixedFlawedParams "updateOrderbook" := by
  have hbad : ¬ ∃ l, LevelIn (.array [.int 3]) l := by
    rintro ⟨l, price, size, ⟨⟩, -⟩
  exact .level (by decide) (List.mem_cons_of_mem _ List.mem_cons_self) rfl
    (List.mem_cons_of_mem _ List.mem_cons_self) hbad

/-- The asks are read in their order, and one that is not valid spoils the frame. -/
theorem decode_data_mixed :
    decode mixed = .ok (.update mixedFrame) ∧
      ∃ reason, decode mixedFlawed = .error (.malformed reason) := by
  have hvalue : value? mixed = some (.object [("error", .null), ("method", .text "updateOrderbook"),
      ("params", .object mixedParams)]) := by cbv
  have hflawed : value? mixedFlawed = some (.object [("method", .text "updateOrderbook"),
      ("params", .object mixedFlawedParams)]) := by
    clear hvalue
    cbv
  obtain ⟨haccepted, -⟩ := decode_data hvalue rfl (by decide) rfl
  obtain ⟨-, -, hrefused, -⟩ := decode_data hflawed rfl (by decide) rfl
  exact ⟨(haccepted _).mpr (.update rfl mixedParams_bookIn), hrefused mixedFlawedParams_flawed⟩

end Feed.Frame

end MarketFeed
