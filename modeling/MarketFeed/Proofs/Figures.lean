import Mathlib
import MarketFeed.Proofs.ShortestDecimal
import MarketFeed.Proofs.Sources

/-!
The figures of a frame and how they are written. Each price and size of a frame is read from one
place of its text. Text of digits and whole numbers of 64 bits keep their value. Any other number
goes by way of the nearest double: up to fifteen digits are safe there, and more can be lost.
-/
namespace MarketFeed

namespace Json.Source

open Number Market

/-- Whether a source writes a value: as text of plain digits or as a number. -/
inductive Writes : Source → ℚ → Prop where
  | text {s : String} {l : Literal} (hplain : l.Plain) (htext : l.text = s.toList) :
      Writes (.text s) l.toRat
  | number (l : Literal) : Writes (.number l) l.toRat

/-- Whether a double is not needed for a source or can hold it: text, a whole number of 64 bits, or
a number of at most fifteen digits and zeros. -/
inductive Safe : Source → Prop where
  | text (s : String) : Safe (.text s)
  | whole {l : Literal} (hfraction : l.fraction = none) (hexponent : l.exponent = none)
      (hlow : -2 ^ 63 ≤ l.toRat) (hhigh : l.toRat < 2 ^ 64) : Safe (.number l)
  | short {l : Literal} {c : Nat} {e : Int} (hc : c < 10 ^ 15) (hvalue : |l.toRat| = c * 10 ^ e) :
      Safe (.number l)

/-- Whether a decimal is read from a source. -/
def Carries (s : Source) (d : Decimal) : Prop := ∃ j, s.Stands j ∧ decimal? j = some d

end Json.Source

namespace Number

theorem Literal.toRat_of_whole {l : Literal} (hfraction : l.fraction = none)
    (hexponent : l.exponent = none) :
    l.toRat = (if l.negative then -1 else 1) * Digits.value l.whole := by
  simp [Literal.toRat, Literal.digits, Literal.power, hfraction, hexponent]

end Number

namespace Json.Source

open Number Market

/-- A literal is read as its value or else as the double nearest to it, and a whole number of 64
bits is read as its value unless it is a negative zero. -/
theorem value_number (l : Literal) :
    (∃ n : Int, (number l).value = .int n ∧ l.toRat = n) ∨
      ((number l).value = ofDouble? (Double.nearest? l.negative (Digits.value l.digits) l.power) ∧
        (l.fraction = none → l.exponent = none → -2 ^ 63 ≤ l.toRat → l.toRat < 2 ^ 64 →
          l.toRat = 0)) := by
  obtain ⟨negative, whole, fraction, exponent⟩ := l
  simp only [value, ofLiteral]
  split
  · next hfraction hexponent =>
    have hrat := Literal.toRat_of_whole (l := ⟨negative, whole, none, none⟩) rfl rfl
    have hdigits : Literal.digits ⟨negative, whole, none, none⟩ = whole := List.append_nil whole
    have hpower : Literal.power ⟨negative, whole, none, none⟩ = 0 := rfl
    dsimp only at hrat
    rw [hrat, hdigits, hpower]
    cases negative with
    | true =>
      simp only [if_true, Nat.one_shiftLeft]
      split
      · next hn => exact Or.inl ⟨_, rfl, by push_cast; ring⟩
      · next hn =>
        refine Or.inr ⟨rfl, fun _ _ hlow _ => ?_⟩
        have hle : Digits.value whole ≤ 2 ^ 63 := by
          have hcast : (Digits.value whole : ℚ) ≤ 2 ^ 63 := by linarith
          exact_mod_cast hcast
        have hzero : Digits.value whole = 0 := by omega
        rw [hzero, Nat.cast_zero, mul_zero]
    | false =>
      simp only [Bool.false_eq_true, if_false]
      split
      · next hn => exact Or.inl ⟨_, rfl, by push_cast; ring⟩
      · next hn =>
        refine Or.inr ⟨rfl, fun _ _ _ hhigh => absurd ?_ hn⟩
        have hcast : (Digits.value whole : ℚ) < 2 ^ 64 := by linarith
        exact_mod_cast hcast
  · next hsome =>
    refine Or.inr ⟨rfl, fun hfraction hexponent => ?_⟩
    exact (hsome hfraction hexponent).elim

/-- A figure that fits a decimal and is safe is carried exactly. -/
theorem Carries.exact {s : Source} {d : Decimal} {q : ℚ} (h : s.Carries d) (hwrites : s.Writes q)
    (hfit : ∃ d' : Decimal, d'.toRat = q) (hsafe : s.Safe) : d.toRat = q := by
  obtain ⟨j, ⟨room, hstands⟩, hd⟩ := h
  cases hwrites with
  | @text t l hplain htext =>
    cases hstands
    obtain ⟨d', hd', hrat⟩ := Decimal.ofText?_plain hplain hfit
    rw [decimal?, ← htext, hd', Option.some.injEq] at hd
    rw [← hd, hrat]
  | number l =>
    rcases value_number l with ⟨n, hvalue, hrat⟩ | ⟨hvalue, hzero⟩
    · rw [hvalue] at hstands
      cases hstands
      rw [decimal?, Decimal.ofParts?] at hd
      split at hd
      · cases hd
        rw [Decimal.toRat, hrat]
        simp
      · cases hd
    · -- What a literal short enough is rounded to leads back to it.
      have hshort : ∃ (c : Nat) (e : Int), c < 10 ^ 15 ∧ |l.toRat| = c * 10 ^ e := by
        cases hsafe with
        | whole hfraction hexponent hlow hhigh =>
          exact ⟨0, 0, by decide, by rw [hzero hfraction hexponent hlow hhigh]; simp⟩
        | short hc hvalue => exact ⟨_, _, hc, hvalue⟩
      obtain ⟨c, e, hc, hce⟩ := hshort
      rw [hvalue] at hstands
      cases hx : Double.nearest? l.negative (Digits.value l.digits) l.power with
      | none =>
        rw [hx] at hstands
        cases hstands
      | some x =>
        rw [hx] at hstands
        cases hstands
        obtain ⟨d', hd', hrat⟩ := Decimal.ofText?_nearest hx hc
          (by rw [← hce, Literal.abs_toRat]) hfit
        rw [decimal?, hd', Option.some.injEq] at hd
        rw [← hd, hrat]

end Json.Source

namespace Feed.Frame

open Json Number Market Source

/-- The prices and sizes of a frame. -/
def figures : Frame → List Decimal
  | ticker f => f.bid.toList ++ f.ask.toList
  | snapshot f | update f => (f.bid ++ f.ask).flatMap fun l => [l.price, l.size]
  | trades f => f.trades.flatMap fun x => [x.price, x.amount]
  | result _ | serverError _ | unrecognized _ => []

/-- Where the content of a data frame is written. -/
def content? (source : Source) : Option Source :=
  match source.field? "method" with
  | some _ => source.field? "params"
  | none => source.field? "data"

/-- A best price, which may be `null`. -/
def bestPrices (content : Source) (name : String) : List Source :=
  match content.part? ["symbol", "bid", "ask", "timestamp"] name with
  | none | some .null => []
  | some s => [s]

/-- The parts that a list of records has under two names, one record after another. -/
def listed (names : List String) (first second : String) : Option Source → List Source
  | some (.array items) =>
    items.flatMap fun item => (item.part? names first).toList ++ (item.part? names second).toList
  | _ => []

/-- The places of a content in which the figures of a frame are written. -/
def writtenIn (content : Source) : Frame → List Source
  | ticker _ => bestPrices content "bid" ++ bestPrices content "ask"
  | snapshot _ | update _ =>
    let side name := content.part? ["symbol", "bid", "ask", "timestamp"] name
    listed ["price", "size"] "price" "size" (side "bid") ++
      listed ["price", "size"] "price" "size" (side "ask")
  | trades _ =>
    listed ["id", "price", "quantity", "side", "timestamp"] "price" "quantity"
      (content.part? ["symbol", "data"] "data")
  | result _ | serverError _ | unrecognized _ => []

/-- The places of a text in which the figures of a frame are written. -/
def written (source : Source) (frame : Frame) : List Source :=
  match content? source with
  | some content => writtenIn content frame
  | none => []

section Contents

variable {s : Source} {j : Json} {frame : Frame}

/-- A part that a record has to have is written somewhere. -/
theorem exists_part_of_required {α : Type} (h : s.Stands j) {names : List String} {least : Nat}
    {fields : Fields} (hfields : record? names least j = some fields) {name : String}
    (hname : name ∈ names) {read : Json → Option α} {a : α}
    (ha : required fields name read = some a) :
    ∃ part value, s.part? names name = some part ∧ part.Stands value ∧ read value = some a := by
  obtain ⟨value, hfind, hread⟩ := Option.bind_eq_some_iff.mp ha
  have hpart := h.part hfields hname
  rw [hfind] at hpart
  generalize s.part? names name = part at hpart
  cases hpart with
  | some hvalue => exact ⟨_, value, rfl, hvalue, hread⟩

theorem carries_level (h : s.Stands j) {l : Level} (hl : level? j = some l) :
    List.Forall₂ Carries ((s.part? ["price", "size"] "price").toList ++
      (s.part? ["price", "size"] "size").toList) [l.price, l.size] := by
  simp only [level?, Option.bind_eq_bind, Option.bind_eq_some_iff] at hl
  obtain ⟨fields, hfields, price, hprice, size, hsize, ⟨⟩⟩ := hl
  obtain ⟨_, _, hpart, hstands, hread⟩ := exists_part_of_required h hfields (by simp) hprice
  obtain ⟨_, _, hpart', hstands', hread'⟩ := exists_part_of_required h hfields (by simp) hsize
  rw [hpart, hpart']
  exact .cons ⟨_, hstands, hread⟩ (.cons ⟨_, hstands', hread'⟩ .nil)

theorem carries_execution (h : s.Stands j) {x : Execution} {time : String}
    (hx : execution? j = some (x, time)) :
    List.Forall₂ Carries
      ((s.part? ["id", "price", "quantity", "side", "timestamp"] "price").toList ++
        (s.part? ["id", "price", "quantity", "side", "timestamp"] "quantity").toList)
      [x.price, x.amount] := by
  simp only [execution?, Option.bind_eq_bind, Option.bind_eq_some_iff] at hx
  obtain ⟨fields, hfields, _, -, price, hprice, quantity, hquantity, _, -, _, -, ⟨⟩⟩ := hx
  obtain ⟨_, _, hpart, hstands, hread⟩ := exists_part_of_required h hfields (by simp) hprice
  obtain ⟨_, _, hpart', hstands', hread'⟩ := exists_part_of_required h hfields (by simp) hquantity
  rw [hpart, hpart']
  exact .cons ⟨_, hstands, hread⟩ (.cons ⟨_, hstands', hread'⟩ .nil)

/-- The figures of a list are written in its items, in their order. -/
theorem carries_listed {α : Type} {names : List String} {first second : String}
    {read : Json → Option α} (figuresOf : α → List Decimal)
    (hread : ∀ (s : Source) j a, s.Stands j → read j = some a →
      List.Forall₂ Carries ((s.part? names first).toList ++ (s.part? names second).toList)
        (figuresOf a))
    (h : s.Stands j) {l : List α} (hl : list? read j = some l) :
    List.Forall₂ Carries (listed names first second (some s)) (l.flatMap figuresOf) := by
  obtain ⟨items, rfl, hitems⟩ := list?_eq_some_iff.mp hl
  cases h.shape with
  | array hsources =>
    have hboth := exists_forall₂_iff.mp ⟨items, hsources, hitems⟩
    refine List.rel_flatMap hboth ?_
    rintro source a ⟨item, hstands, hitem⟩
    exact hread source item a hstands hitem

/-- A side of a book that is left out has no figures and none written. -/
theorem carries_side (h : s.Stands j) {names : List String} {least : Nat} {fields : Fields}
    (hfields : record? names least j = some fields) {name : String} (hname : name ∈ names)
    {levels : List Level} (hlevels : withDefault fields name [] (list? level?) = some levels) :
    List.Forall₂ Carries (listed ["price", "size"] "price" "size" (s.part? names name))
      (levels.flatMap fun l => [l.price, l.size]) := by
  have hpart := h.part hfields hname
  rw [withDefault] at hlevels
  generalize s.part? names name = part at *
  generalize Table.findIn name fields = value at *
  cases hpart with
  | none =>
    cases hlevels
    exact .nil
  | some hstands =>
    exact carries_listed _ (fun s j l hs hl => carries_level hs hl) hstands hlevels

theorem carries_book (h : s.Stands j) {number : Option UInt64} {f : BookFrame}
    (hf : bookOf j number = .ok f) :
    List.Forall₂ Carries (writtenIn s (.snapshot f)) (figures (.snapshot f)) := by
  simp only [bookOf, bind_eq_ok_iff, orMalformed_eq_ok_iff, Prod.exists] at hf
  obtain ⟨symbol, bid, ask, raw, hread, hrest⟩ := hf
  have hsides : f.bid = bid ∧ f.ask = ask := by
    cases raw with
    | none =>
      cases hrest
      exact ⟨rfl, rfl⟩
    | some raw =>
      obtain ⟨_, _, ⟨⟩⟩ := bind_eq_ok_iff.mp hrest
      exact ⟨rfl, rfl⟩
  simp only [bookFields?, Option.bind_eq_bind, Option.bind_eq_some_iff] at hread
  obtain ⟨fields, hfields, _, -, _, hbid, _, hask, _, -, ⟨⟩⟩ := hread
  rw [figures, List.flatMap_append, hsides.1, hsides.2]
  exact List.rel_append (carries_side h hfields (by simp) hbid)
    (carries_side h hfields (by simp) hask)

theorem carries_trades (h : s.Stands j) {number : Option UInt64}
    (hf : tradesOf j number = .ok frame) :
    List.Forall₂ Carries (writtenIn s frame) frame.figures := by
  simp only [tradesOf, bind_eq_ok_iff, orMalformed_eq_ok_iff, Prod.exists, mapM_eq_ok_iff] at hf
  obtain ⟨_, data, hread, executions, htimes, ⟨⟩⟩ := hf
  simp only [tradesFields?, Option.bind_eq_bind, Option.bind_eq_some_iff] at hread
  obtain ⟨fields, hfields, _, -, _, hdata, ⟨⟩⟩ := hread
  obtain ⟨part, value, hpart, hstands, hlist⟩ := exists_part_of_required h hfields (by simp) hdata
  have hcarried := carries_listed (fun x : Execution × String => [x.1.price, x.1.amount])
    (fun s j x hs hx => carries_execution hs hx) hstands hlist
  -- The times that are filled in later are no figures.
  have hsame : (data.flatMap fun x => [x.1.price, x.1.amount]) =
      executions.flatMap fun x => [x.price, x.amount] := by
    clear hlist hcarried hdata
    induction htimes with
    | nil => rfl
    | cons hx _ ih =>
      obtain ⟨_, -, rfl⟩ := map_eq_ok_iff.mp hx
      simp only [List.flatMap_cons, ih]
  rw [figures, ← hsame, writtenIn, hpart]
  exact hcarried

theorem carries_bestPrices (h : s.Stands j) {fields : Fields}
    (hfields : record? ["symbol", "bid", "ask", "timestamp"] 4 j = some fields) {name : String}
    (hname : name ∈ ["symbol", "bid", "ask", "timestamp"]) {price : Option Decimal}
    (hprice : Json.optional fields name decimal? = some price) :
    List.Forall₂ Carries (bestPrices s name) price.toList := by
  have hpart := h.part hfields hname
  rw [Json.optional] at hprice
  rw [bestPrices]
  generalize s.part? ["symbol", "bid", "ask", "timestamp"] name = part at *
  generalize Table.findIn name fields = value at *
  cases hpart with
  | none =>
    cases hprice
    exact .nil
  | @some part value hstands =>
    cases hstands.shape with
    | null =>
      cases hprice
      exact .nil
    | bool _ | text _ | int _ _ | double _ _ | array _ | object _ =>
      obtain ⟨d, hd, rfl⟩ := Option.map_eq_some_iff.mp hprice
      exact .cons ⟨_, hstands, hd⟩ .nil

theorem carries_ticker (h : s.Stands j) {number : Option UInt64}
    (hf : tickerOf j number = .ok frame) :
    List.Forall₂ Carries (writtenIn s frame) frame.figures := by
  simp only [tickerOf, bind_eq_ok_iff, orMalformed_eq_ok_iff, Prod.exists] at hf
  obtain ⟨_, bid, ask, _, hread, _, -, ⟨⟩⟩ := hf
  simp only [tickerFields?, Option.bind_eq_bind, Option.bind_eq_some_iff] at hread
  obtain ⟨fields, hfields, _, -, _, hbid, _, hask, _, -, ⟨⟩⟩ := hread
  exact List.rel_append (carries_bestPrices h hfields (by simp) hbid)
    (carries_bestPrices h hfields (by simp) hask)

theorem carries_method {method : Json} (hf : ofMethod method j = .ok frame) :
    ∃ content, j.field? "params" = some content ∧ ∀ s : Source, s.Stands content →
      List.Forall₂ Carries (writtenIn s frame) frame.figures := by
  simp only [ofMethod, bind_eq_ok_iff, orMalformed_eq_ok_iff] at hf
  obtain ⟨name, -, content, hcontent, number, -, hf⟩ := hf
  refine ⟨content, hcontent, fun s h => ?_⟩
  split at hf
  · exact carries_ticker h hf
  · obtain ⟨f, hbook, rfl⟩ := map_eq_ok_iff.mp hf
    exact carries_book h hbook
  · obtain ⟨f, hbook, rfl⟩ := map_eq_ok_iff.mp hf
    exact carries_book h hbook
  · exact carries_trades h hf
  · exact carries_trades h hf
  · cases hf
    exact .nil

theorem carries_channel {channel : Json} (hf : ofChannel channel j = .ok frame) :
    (∃ what, frame = .unrecognized what) ∨ ∃ content, j.field? "data" = some content ∧
      ∀ s : Source, s.Stands content → List.Forall₂ Carries (writtenIn s frame) frame.figures := by
  unfold ofChannel at hf
  split at hf
  · simp only [bind_eq_ok_iff, orMalformed_eq_ok_iff] at hf
    obtain ⟨content, hcontent, hf⟩ := hf
    exact Or.inr ⟨content, hcontent, fun s h => carries_ticker h hf⟩
  · cases hf
    exact Or.inl ⟨_, rfl⟩
  · cases hf

end Contents

/-- Each figure of a frame is read from the place where it is written. -/
theorem carries_decode {raw : String} {frame : Frame} (h : decode raw = .ok frame) :
    ∃ source, Source.ofText? raw = some source ∧
      List.Forall₂ Carries (written source frame) frame.figures := by
  simp only [decode, bind_eq_ok_iff, orMalformed_eq_ok_iff, Option.bind_eq_some_iff,
    Source.ofText?_eq, Option.map_eq_some_iff] at h
  obtain ⟨j, ⟨_, ⟨source, hsource, rfl⟩, hcanonical⟩, hf⟩ := h
  have hstands : source.Stands j := ⟨room, hcanonical⟩
  refine ⟨source, hsource, ?_⟩
  have hmethod := hstands.field? "method"
  rw [written, content?]
  unfold ofJson at hf
  split at hf
  · next method hfound =>
    obtain ⟨content, hcontent, hcarried⟩ := carries_method hf
    have hparams := hstands.field? "params"
    rw [hfound] at hmethod
    rw [hcontent] at hparams
    generalize source.field? "method" = found at *
    generalize source.field? "params" = params at *
    cases hmethod
    cases hparams with
    | some h => exact hcarried _ h
  · next hfound =>
    have hdata := hstands.field? "data"
    rw [hfound] at hmethod
    generalize source.field? "method" = found at *
    generalize source.field? "data" = data at *
    cases hmethod
    split at hf
    · rcases carries_channel hf with ⟨what, rfl⟩ | ⟨content, hcontent, hcarried⟩
      · cases data <;> exact .nil
      · rw [hcontent] at hdata
        cases hdata with
        | some h => exact hcarried _ h
    · split at hf
      · cases hf
        cases data <;> exact .nil
      · split at hf
        · next answer _ =>
          cases hf
          cases data <;> cases saysSomething answer <;> exact .nil
        · cases hf
          cases data <;> exact .nil

/-- Whatever fits a decimal is carried exactly from the text to the frame, if it is written as plain
digits in quotes, as a whole number of 64 bits, or with at most fifteen digits.

For a bare number with a fraction or an exponent this rests on the reader giving the nearest double.
A reader that scales the digits by a power of ten in floating point does so up to 22 decimal places,
where the power is exact; from 23 on it can miss the nearest double and with it the value. -/
theorem figures_exact {raw : String} {frame : Frame} (h : decode raw = .ok frame) :
    ∃ source, Source.ofText? raw = some source ∧
      List.Forall₂ (fun (s : Source) (d : Decimal) => ∀ q, s.Writes q →
        (∃ d' : Decimal, d'.toRat = q) → s.Safe → d.toRat = q)
        (written source frame) frame.figures := by
  obtain ⟨source, hsource, hcarried⟩ := carries_decode h
  exact ⟨source, hsource, hcarried.imp fun _ _ hd _ => hd.exact⟩

/-- Best prices with a bid as a bare number and no ask. -/
def bareBid : String :=
  "\x7b\"channel\":\"ticker\",\"data\":\x7b\"symbol\":\"ETHBTC\",\"bid\":0.3," ++
  "\"ask\":null,\"timestamp\":\"1970-01-01T00:00:01Z\"\x7d\x7d"

/-- The same with a bid that is larger by 10⁻¹⁹. -/
def longBid : String :=
  "\x7b\"channel\":\"ticker\",\"data\":\x7b\"symbol\":\"ETHBTC\"," ++
  "\"bid\":0.3000000000000000001,\"ask\":null,\"timestamp\":\"1970-01-01T00:00:01Z\"\x7d\x7d"

/-- The source of best prices with a bid that starts with `0.`. -/
def bidSource (fraction : List Char) : Source :=
  .object [("channel", .text "ticker"), ("data", .object [("symbol", .text "ETHBTC"),
    ("bid", .number ⟨false, ['0'], some fraction, none⟩), ("ask", .null),
    ("timestamp", .text "1970-01-01T00:00:01Z")])]

theorem ofText?_bareBid : Source.ofText? bareBid = some (bidSource ['3']) := by cbv

theorem ofText?_longBid :
    Source.ofText? longBid = some (bidSource "3000000000000000001".toList) := by cbv

theorem written_bid (fraction : List Char) (f : TickerFrame) :
    written (bidSource fraction) (.ticker f) =
      [.number ⟨false, ['0'], some fraction, none⟩] := rfl

theorem toRat_bid (fraction : List Char) : Literal.toRat ⟨false, ['0'], some fraction, none⟩ =
    Digits.value fraction / 10 ^ fraction.length := by
  have hzero : Digits.value ['0'] = 0 := rfl
  have hdigits : Digits.value (Literal.digits ⟨false, ['0'], some fraction, none⟩) =
      Digits.value fraction := by
    rw [Literal.digits, Digits.value_append, hzero, zero_mul, zero_add, Option.getD_some]
  have hpower : Literal.power ⟨false, ['0'], some fraction, none⟩ = -(fraction.length : Int) := by
    rw [Literal.power, Option.getD_none, Option.getD_some, zero_sub]
  rw [Literal.toRat, hdigits, hpower, zpow_neg, zpow_natCast, if_neg Bool.false_ne_true, one_mul,
    div_eq_mul_inv]

/-- The double that the bids are read as. -/
def bidDouble : Double := { negative := false, significand := 5404319552844595, exponent := 1020 }

/-- What is read of both. -/
def bidFrame : TickerFrame where
  symbol := "ETHBTC"
  bid := some (decimalOf "0.3")
  ask := none
  timestamp := 1000000000
  sequence := none

theorem decode_bid {raw : String} {fraction : List Char}
    (hsource : Source.ofText? raw = some (bidSource fraction))
    (hdouble : Double.nearest? false (Digits.value ('0' :: fraction)) (-fraction.length) =
      some bidDouble) :
    decode raw = .ok (.ticker bidFrame) := by
  have hvalue : (bidSource fraction).value = .object [("channel", .text "ticker"),
      ("data", .object [("symbol", .text "ETHBTC"), ("bid", .double bidDouble), ("ask", .null),
        ("timestamp", .text "1970-01-01T00:00:01Z")])] := by
    simp [bidSource, value, valueFields, ofLiteral, hdouble, ofDouble?]
  have hcanonical : (bidSource fraction).value.canonical = some (.object
      [("channel", .text "ticker"), ("data", .object [("ask", .null), ("bid", .double bidDouble),
        ("symbol", .text "ETHBTC"), ("timestamp", .text "1970-01-01T00:00:01Z")])]) := by
    rw [hvalue]
    rfl
  have hdecimal : decimal? (.double bidDouble) = some (decimalOf "0.3") := by decide +kernel
  have htime : timestamp "1970-01-01T00:00:01Z" = .ok 1000000000 := by rfl
  have hfields : tickerFields? (.object [("ask", .null), ("bid", .double bidDouble),
      ("symbol", .text "ETHBTC"), ("timestamp", .text "1970-01-01T00:00:01Z")]) =
        some ("ETHBTC", some (decimalOf "0.3"), none, "1970-01-01T00:00:01Z") := by
    simp [tickerFields?, record?, required, Json.optional, Table.findIn, asText?, hdecimal]
  have hticker : tickerOf (.object [("ask", .null), ("bid", .double bidDouble),
      ("symbol", .text "ETHBTC"), ("timestamp", .text "1970-01-01T00:00:01Z")]) none =
        .ok (.ticker bidFrame) := by
    rw [tickerOf, hfields]
    exact bind_eq_ok_iff.mpr ⟨_, rfl, bind_eq_ok_iff.mpr ⟨_, htime, rfl⟩⟩
  rw [decode, Source.ofText?_eq, hsource, Option.map_some, Option.bind_some, hcanonical]
  exact hticker

theorem toRat_decimalOf_bid : (decimalOf "0.3").toRat = 3 / 10 := by
  have hparts : (decimalOf "0.3").mantissa = 3 ∧ (decimalOf "0.3").places = 1 := by decide +kernel
  rw [Decimal.toRat, hparts.1, hparts.2]
  norm_num

theorem figures_exact_bareBid :
    decode bareBid = .ok (.ticker bidFrame) ∧
      ∀ d ∈ figures (.ticker bidFrame), d.toRat = 3 / 10 := by
  have hread : decode bareBid = .ok (.ticker bidFrame) :=
    decode_bid ofText?_bareBid (by decide +kernel)
  have hrat : Literal.toRat ⟨false, ['0'], some ['3'], none⟩ = 3 / 10 := by
    have hvalue : Digits.value ['3'] = 3 := by decide
    rw [toRat_bid, hvalue]
    norm_num
  have hsafe : Safe (.number ⟨false, ['0'], some ['3'], none⟩) :=
    .short (c := 3) (e := -1) (by decide) (by rw [hrat]; norm_num)
  obtain ⟨source, hsource, hexact⟩ := figures_exact hread
  obtain rfl : bidSource ['3'] = source := Option.some.inj (ofText?_bareBid.symm.trans hsource)
  rw [written_bid] at hexact
  refine ⟨hread, fun d hd => ?_⟩
  obtain ⟨s, hs, hd⟩ := exists_of_forall₂_mem hexact.flip hd
  rw [List.mem_singleton.mp hs] at hd
  rw [hd _ (.number _) ⟨decimalOf "0.3", toRat_decimalOf_bid.trans hrat.symm⟩ hsafe, hrat]

/-- A bid that fits a decimal is not carried exactly: it is longer than a double can hold. -/
theorem longBid_cut :
    decode longBid = .ok (.ticker bidFrame) ∧
      ∃ source, Source.ofText? longBid = some source ∧
        ¬ List.Forall₂ (fun (s : Source) (d : Decimal) => ∀ q, s.Writes q →
            (∃ d' : Decimal, d'.toRat = q) → d.toRat = q)
          (written source (.ticker bidFrame)) (figures (.ticker bidFrame)) := by
  refine ⟨decode_bid ofText?_longBid (by decide +kernel), _, ofText?_longBid, fun hexact => ?_⟩
  have hparts : (decimalOf "0.3000000000000000001").mantissa = 3000000000000000001 ∧
      (decimalOf "0.3000000000000000001").places = 19 := by decide +kernel
  have hvalue : Digits.value "3000000000000000001".toList = 3000000000000000001 ∧
      "3000000000000000001".toList.length = 19 := by decide +kernel
  have hrat : Literal.toRat ⟨false, ['0'], some "3000000000000000001".toList, none⟩ =
      3000000000000000001 / 10 ^ 19 := by
    rw [toRat_bid, hvalue.1, hvalue.2]
    norm_num
  rw [written_bid] at hexact
  obtain ⟨d, hd, hcut⟩ := exists_of_forall₂_mem hexact List.mem_cons_self
  rw [List.mem_singleton.mp hd] at hcut
  have hsame := hcut _ (.number _) ⟨decimalOf "0.3000000000000000001", by
    rw [hrat, Decimal.toRat, hparts.1, hparts.2]
    norm_num⟩
  rw [toRat_decimalOf_bid, hrat] at hsame
  norm_num at hsame

end Feed.Frame

end MarketFeed
