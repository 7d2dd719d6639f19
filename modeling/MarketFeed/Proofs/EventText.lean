import MarketFeed.Market.Event
import MarketFeed.Proofs.JsonText

/-!
Events written as text and read back. Each reader of a part takes back what its writer did, and
lists, optional parts and records carry this over to the whole, so that an event is read from its
own text with every decimal, every level and every time as it was.
-/
namespace MarketFeed

namespace Json

open Number

variable {α : Type} {read : Json → Option α} {write : α → Json}

/-- Reading takes back what writing did. -/
def Inverts (read : Json → Option α) (write : α → Json) : Prop := ∀ a, read (write a) = some a

theorem inverts_decimal : Inverts decimal? ofDecimal := by
  intro d
  simp only [ofDecimal, decimal?, toString, String.toList_ofList, Decimal.ofText?_text]

theorem ofDecimal_ne_null (d : Decimal) : ofDecimal d ≠ null := nofun

theorem Inverts.list (h : Inverts read write) :
    Inverts (list? read) fun l => array (l.map write) := by
  intro l
  rw [list?]
  induction l with
  | nil => rfl
  | cons a l ih =>
    simp only [List.map_cons, List.mapM_cons, h a, ih, Option.bind_eq_bind, Option.bind_some,
      Option.pure_def]

theorem inverts_text : Inverts asText? text := fun _ => rfl

theorem inverts_bool : Inverts asBool? bool := fun _ => rfl

theorem Inverts.required (h : Inverts read write) {fields : Fields} {name : String} {a : α}
    (hfield : Table.findIn name fields = some (write a)) :
    Json.required fields name read = some a := by
  rw [Json.required, hfield]
  exact h a

/-- A part that is missing is written as `null`, and no part that is there is written so. -/
theorem Inverts.optional (h : Inverts read write) (hnull : ∀ a, write a ≠ null) {fields : Fields}
    {name : String} {part : Option α}
    (hfield : Table.findIn name fields = some (ofOption (part.map write))) :
    Json.optional fields name read = some part := by
  cases part with
  | none => rw [Json.optional, hfield]; rfl
  | some a =>
    rw [Json.optional, hfield]
    split
    · next heq => cases heq
    · next heq => exact absurd (Option.some.inj heq) (hnull a)
    · next heq =>
      cases heq
      exact congrArg (Option.map some) (h a)

/-- A record with its own fields only, each of them once. -/
theorem record?_object {fields : Fields} {names : List String} (least : Nat)
    (hnames : fields.map (·.1) = names) (hnodup : names.Nodup) :
    record? names least (object fields) = some fields := by
  have hall : fields.filter (fun f => decide (f.1 ∈ names)) = fields := by
    rw [List.filter_eq_self]
    intro f hf
    exact decide_eq_true (hnames ▸ List.mem_map_of_mem hf)
  rw [record?]
  simp only [hall, hnames, if_pos hnodup]

theorem plain_ofOption {room : Nat} (hwrite : ∀ a, Plain room (write a))
    (part : Option α) : Plain room (ofOption (part.map write)) := by
  cases part with
  | none => exact Plain.null
  | some a => exact hwrite a

end Json

namespace Market

open Json Number

namespace Level

theorem inverts : Inverts ofJson? toJson := by
  intro l
  simp only [toJson, ofJson?, pair?, inverts_decimal _, Option.bind_eq_bind, Option.bind_some,
    Option.map_some]

theorem plain_toJson (l : Level) {room : Nat} (hroom : 1 < room) : Plain room l.toJson := by
  refine Plain.array hroom ?_
  simp only [List.forall_mem_cons]
  exact ⟨Plain.text _, Plain.text _, List.forall_mem_nil _⟩

end Level

namespace Delta

/-- What is written of a delta. -/
def fields (d : Delta) : Fields :=
  [("bid", .array (d.bid.map Level.toJson)), ("ask", .array (d.ask.map Level.toJson))]

theorem inverts : Inverts ofJson? toJson := by
  intro d
  have hrecord : record? ["bid", "ask"] 2 d.toJson = some d.fields :=
    record?_object 2 rfl (by decide)
  have hbid : required d.fields "bid" (list? Level.ofJson?) = some d.bid :=
    Level.inverts.list.required rfl
  have hask : required d.fields "ask" (list? Level.ofJson?) = some d.ask :=
    Level.inverts.list.required rfl
  simp only [ofJson?, hrecord, hbid, hask, Option.bind_eq_bind, Option.bind_some]

theorem plain_toJson (d : Delta) {room : Nat} (hroom : 3 < room) : Plain room d.toJson := by
  have hlevels : ∀ levels : List Level, Plain (room - 1) (.array (levels.map Level.toJson)) := by
    intro levels
    refine Plain.array (by omega) ?_
    rw [List.forall_mem_map]
    exact fun l _ => l.plain_toJson (by omega)
  refine Plain.object (by omega) ?_
  simp only [List.forall_mem_cons]
  exact ⟨hlevels d.bid, hlevels d.ask, List.forall_mem_nil _⟩

end Delta

theorem Taker.inverts (isNothing : Json → Bool) :
    Inverts (ofJson? isNothing) fun t => .text t.name := by
  intro t
  cases t <;> rfl

/-- What is written of best prices after the kind. -/
def Ticker.fields (t : Ticker) : Fields :=
  [("symbol", .text t.symbol), ("bid", ofOption (t.bid.map ofDecimal)),
    ("ask", ofOption (t.ask.map ofDecimal)), ("timestamp", Event.word t.timestamp),
    ("receipt_timestamp", Event.word t.receipt)]

/-- What is written of an execution after the kind. -/
def Trade.fields (t : Trade) : Fields :=
  [("symbol", .text t.symbol), ("side", .text t.taker.name), ("price", ofDecimal t.price),
    ("amount", ofDecimal t.amount), ("order_id", .text t.id),
    ("timestamp", Event.word t.timestamp), ("receipt_timestamp", Event.word t.receipt)]

/-- What is written of a book after the kind. -/
def BookChange.fields (b : BookChange) : Fields :=
  [("symbol", .text b.symbol), ("is_snapshot", .bool b.isSnapshot),
    ("delta", ofOption (b.delta.map Delta.toJson)), ("timestamp", Event.word b.timestamp),
    ("receipt_timestamp", Event.word b.receipt)]

namespace Event

theorem inverts_word : Inverts readWord word := by
  intro n
  have hfits : 0 ≤ (n.toNat : Int) ∧ (n.toNat : Int) < (1 <<< 64 : Nat) := by
    have hn := n.toNat_lt
    omega
  simp only [readWord, word, asNat?, if_pos hfits, Option.map_some, Int.toNat_natCast,
    UInt64.ofNat_toNat]

theorem tickerOfJson?_fields (t : Ticker) : tickerOfJson? (.object t.fields) = some t := by
  have hrecord : record? ["symbol", "bid", "ask", "timestamp", "receipt_timestamp"] 5
      (.object t.fields) = some t.fields := record?_object 5 rfl (by decide)
  have hsymbol : required t.fields "symbol" asText? = some t.symbol := inverts_text.required rfl
  have hbid : optional t.fields "bid" decimal? = some t.bid :=
    inverts_decimal.optional ofDecimal_ne_null rfl
  have hask : optional t.fields "ask" decimal? = some t.ask :=
    inverts_decimal.optional ofDecimal_ne_null rfl
  have htimestamp : required t.fields "timestamp" readWord = some t.timestamp :=
    inverts_word.required rfl
  have hreceipt : required t.fields "receipt_timestamp" readWord = some t.receipt :=
    inverts_word.required rfl
  simp only [tickerOfJson?, hrecord, hsymbol, hbid, hask, htimestamp, hreceipt,
    Option.bind_eq_bind, Option.bind_some]

theorem tradeOfJson?_fields (t : Trade) : tradeOfJson? (.object t.fields) = some t := by
  have hrecord : record?
      ["symbol", "side", "price", "amount", "order_id", "timestamp", "receipt_timestamp"] 7
      (.object t.fields) = some t.fields := record?_object 7 rfl (by decide)
  have hsymbol : required t.fields "symbol" asText? = some t.symbol := inverts_text.required rfl
  have htaker : required t.fields "side" (Taker.ofJson? isNothing) = some t.taker :=
    (Taker.inverts isNothing).required rfl
  have hprice : required t.fields "price" decimal? = some t.price :=
    inverts_decimal.required rfl
  have hamount : required t.fields "amount" decimal? = some t.amount :=
    inverts_decimal.required rfl
  have hid : required t.fields "order_id" asText? = some t.id := inverts_text.required rfl
  have htimestamp : required t.fields "timestamp" readWord = some t.timestamp :=
    inverts_word.required rfl
  have hreceipt : required t.fields "receipt_timestamp" readWord = some t.receipt :=
    inverts_word.required rfl
  simp only [tradeOfJson?, hrecord, hsymbol, htaker, hprice, hamount, hid, htimestamp, hreceipt,
    Option.bind_eq_bind, Option.bind_some]

theorem bookOfJson?_fields (b : BookChange) : bookOfJson? (.object b.fields) = some b := by
  have hrecord : record? ["symbol", "is_snapshot", "delta", "timestamp", "receipt_timestamp"] 5
      (.object b.fields) = some b.fields := record?_object 5 rfl (by decide)
  have hsymbol : required b.fields "symbol" asText? = some b.symbol := inverts_text.required rfl
  have hsnapshot : required b.fields "is_snapshot" asBool? = some b.isSnapshot :=
    inverts_bool.required rfl
  have hdelta : optional b.fields "delta" Delta.ofJson? = some b.delta :=
    Delta.inverts.optional (fun _ => nofun) rfl
  have htimestamp : required b.fields "timestamp" readWord = some b.timestamp :=
    inverts_word.required rfl
  have hreceipt : required b.fields "receipt_timestamp" readWord = some b.receipt :=
    inverts_word.required rfl
  simp only [bookOfJson?, hrecord, hsymbol, hsnapshot, hdelta, htimestamp, hreceipt,
    Option.bind_eq_bind, Option.bind_some]

/-- The tag is split off the fields it was put in front of. -/
theorem tagged?_object (tag : String) {fields : Fields} (hfields : "type" ∉ fields.map (·.1)) :
    tagged? (.object (("type", .text tag) :: fields)) = some (tag, .object fields) := by
  have hother : ∀ f ∈ fields, f.1 ≠ "type" := by
    intro f hf heq
    exact hfields (heq ▸ List.mem_map_of_mem hf)
  have htype : fields.filter (fun f => f.1 == "type") = [] := by
    rw [List.filter_eq_nil_iff]
    exact fun f hf => by simpa using hother f hf
  have hrest : fields.filter (fun f => f.1 != "type") = fields := by
    rw [List.filter_eq_self]
    exact fun f hf => by simpa using hother f hf
  simp [tagged?, htype, hrest]

/-- The value of an event is read as the event. -/
theorem ofJson?_toJson (e : Event) (hreadable : e.toJson.isReadable = true) :
    ofJson? e.toJson = some e := by
  rw [ofJson?, if_pos hreadable]
  cases e with
  | ticker t =>
    have htag : tagged? (toJson (ticker t)) = some ("ticker", .object t.fields) :=
      tagged?_object "ticker" (by simp)
    simp only [htag, tickerOfJson?_fields, Option.map_some]
  | trade t =>
    have htag : tagged? (toJson (trade t)) = some ("trade", .object t.fields) :=
      tagged?_object "trade" (by simp)
    simp only [htag, tradeOfJson?_fields, Option.map_some]
  | book b =>
    have htag : tagged? (toJson (book b)) = some ("book_update", .object b.fields) :=
      tagged?_object "book_update" (by simp)
    simp only [htag, bookOfJson?_fields, Option.map_some]

theorem plain_word {room : Nat} (n : UInt64) : Plain room (word n) :=
  Plain.int (by omega) (Int.ofNat_lt.mpr n.toNat_lt_size)

theorem plain_toJson (e : Event) {room : Nat} (hroom : 4 < room) : Plain room e.toJson := by
  cases e with
  | ticker t =>
    refine Plain.object (by omega) ?_
    simp only [List.forall_mem_cons]
    exact ⟨Plain.text _, Plain.text _, plain_ofOption (fun _ => Plain.text _) _,
      plain_ofOption (fun _ => Plain.text _) _, plain_word _, plain_word _, List.forall_mem_nil _⟩
  | trade t =>
    refine Plain.object (by omega) ?_
    simp only [List.forall_mem_cons]
    exact ⟨Plain.text _, Plain.text _, Plain.text _, Plain.text _, Plain.text _, Plain.text _,
      plain_word _, plain_word _, List.forall_mem_nil _⟩
  | book b =>
    refine Plain.object (by omega) ?_
    simp only [List.forall_mem_cons]
    exact ⟨Plain.text _, Plain.text _, Plain.bool _,
      plain_ofOption (fun d => d.plain_toJson (by omega)) _, plain_word _, plain_word _,
      List.forall_mem_nil _⟩

/-- An event is read from its own text as it was: its kind, its texts, times and missing parts,
every decimal with its places and every list of levels in its order. -/
theorem read_render (e : Event) : (Json.ofText? e.toJson.render).bind ofJson? = some e := by
  have hplain : Plain Json.room e.toJson := e.plain_toJson (by decide)
  rw [hplain.ofText?_render, Option.bind_some]
  exact ofJson?_toJson e hplain.isReadable

end Event

end Market

end MarketFeed
