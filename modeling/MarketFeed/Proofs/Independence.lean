import Mathlib
import MarketFeed.Proofs.Ownership
import MarketFeed.Proofs.Publication
import MarketFeed.Proofs.Numbering
import MarketFeed.Proofs.Tables

/-!
Symbols do not get in each other's way. Where every symbol has a name of its own and unknown symbols
are refused, what a feed answers to the frames of one symbol, what it publishes for them, and the
number and the book that it keeps for that symbol are the same as if no other frames had come. So the
order in which the frames of different symbols come has no influence on what is kept in the end.
-/
namespace MarketFeed.Feed

open Market

variable {σ : Type}

/-- Whether different symbols of the exchange have different standard names. -/
def SymbolTable.Distinct (t : SymbolTable) : Prop :=
  ∀ symbol other name, t.standardSymbol symbol = .ok name → t.standardSymbol other = .ok name →
    symbol = other

/-- Whether raw frames are attributed to symbols as their contents say. A text that holds no frame
about a symbol may be attributed to any symbol or to none. -/
def Attributes (whose : Arrival → Option String) : Prop :=
  ∀ a frame symbol sequence, Frame.decode a.raw = .ok frame →
    frame.subject? = some (symbol, sequence) → whose a = some symbol

/-- Feeds that are the same for one symbol: its name, its last number and its book. -/
structure Alike (symbol : String) (f g : Feed) : Prop where
  symbols : f.symbols = g.symbols
  guard : f.guard.find? symbol = g.guard.find? symbol
  book : ∀ name, f.symbols.standardSymbol symbol = .ok name →
    f.books.find? name = g.books.find? name

theorem Continuity.check_congr {c d : Continuity} {symbol : String}
    (h : c.find? symbol = d.find? symbol) (n : UInt64) : c.check symbol n = d.check symbol n := by
  rw [check, check, h]

theorem subject?_of_sequenced? {frame : Frame} {symbol : String} {n : UInt64}
    (h : frame.sequenced? = some (symbol, n)) : frame.subject? = some (symbol, some n) := by
  rw [sequenced?_eq, Option.bind_eq_some_iff] at h
  obtain ⟨⟨own, sequence⟩, hsubject, hnumber⟩ := h
  cases sequence with
  | none => cases hnumber
  | some m =>
    cases hnumber
    exact hsubject

/-- Only a frame about a symbol is refused. -/
theorem Refuses.subject? {f : Feed} {frame : Frame} {e : Error} (h : f.Refuses frame e) :
    ∃ symbol sequence, frame.subject? = some (symbol, sequence) := by
  cases h with
  | gap frame symbol n last hnumber hlast hgap =>
    exact ⟨symbol, some n, subject?_of_sequenced? hnumber⟩
  | unknown frame symbol sequence e hsubject hnext hsymbol => exact ⟨symbol, sequence, hsubject⟩
  | missing frame symbol hnext hsymbol hbook => exact ⟨frame.symbol, frame.sequence, rfl⟩

theorem after_symbols (f : Feed) (a : Arrival) : (f.after a).symbols = f.symbols := by
  rcases arrival_cases f a with ⟨hsame, -, -⟩ | ⟨frame, emissions, -, -, -, htakes⟩
  · rw [hsame]
  · exact htakes.symbols_eq

/-- Where unknown symbols are refused, there are no names but those of the table. -/
theorem SymbolTable.standardSymbol_of_resolve {t : SymbolTable} (hstrict : t.allowMissing = false)
    {symbol name : String} (h : t.resolve symbol = .ok name) :
    t.standardSymbol symbol = .ok name := by
  rcases resolve_eq_ok_iff.mp h with hknown | ⟨hallow, -, -⟩
  · exact hknown
  · rw [hstrict] at hallow
    cases hallow

namespace Alike

variable {symbol : String} {f g f' : Feed} {receipt : UInt64} {frame : Frame}
  {emissions : List Emission} {sequence : Option UInt64} {e : Error}

theorem refl (symbol : String) (f : Feed) : Alike symbol f f := ⟨rfl, rfl, fun _ _ => rfl⟩

theorem trans {h : Feed} (hfg : Alike symbol f g) (hgh : Alike symbol g h) :
    Alike symbol f h where
  symbols := hfg.symbols.trans hgh.symbols
  guard := hfg.guard.trans hgh.guard
  book name hname := (hfg.book name hname).trans (hgh.book name (hfg.symbols ▸ hname))

theorem allows (h : Alike symbol f g) (hnext : f.guard.Allows symbol sequence) :
    g.guard.Allows symbol sequence := by
  intro n hn
  rw [← Continuity.check_congr h.guard]
  exact hnext n hn

theorem keep (h : Alike symbol f g) (sequence : Option UInt64) :
    Alike symbol (f.keep symbol sequence) (g.keep symbol sequence) where
  symbols := h.symbols
  guard := by
    simp only [Feed.keep, Continuity.find?_keep, h.guard]
  book := h.book

/-- Both feeds store the same book for the symbol. -/
theorem store (h : Alike symbol f g) {name : String}
    (hname : f.symbols.standardSymbol symbol = .ok name) (book : Book) :
    Alike symbol { f with books := f.books.insert name book }
      { g with books := g.books.insert name book } where
  symbols := h.symbols
  guard := h.guard
  book other hother := by
    cases hname.symm.trans hother
    rw [Table.find?_insert, Table.find?_insert, if_pos rfl, if_pos rfl]

theorem symm (h : Alike symbol f g) : Alike symbol g f where
  symbols := h.symbols.symm
  guard := h.guard.symm
  book name hname := (h.book name (h.symbols ▸ hname)).symm

/-- What one of the feeds takes for the symbol, the other takes in the same way. -/
theorem takes (h : Alike symbol f g) (hstrict : f.symbols.allowMissing = false)
    (hsubject : frame.subject? = some (symbol, sequence))
    (htakes : f.Takes receipt frame f' emissions) :
    ∃ g', g.Takes receipt frame g' emissions ∧ Alike symbol f' g' := by
  cases htakes with
  | ticker frame name hnext hname =>
    cases hsubject
    refine ⟨_, .ticker frame name (h.allows hnext) (h.symbols ▸ hname), h.keep _⟩
  | snapshot frame name book hnext hname hbook =>
    cases hsubject
    rw [h.book name hname] at hbook
    exact ⟨_, .snapshot frame name book (h.allows hnext) (h.symbols ▸ hname) hbook,
      (h.keep _).store hname book⟩
  | update frame name old hnext hname hold =>
    cases hsubject
    have hknown := SymbolTable.standardSymbol_of_resolve hstrict hname
    have hold' : g.books.find? name = some old := (h.book name hknown).symm.trans hold
    exact ⟨_, .update frame name old (h.allows hnext) (h.symbols ▸ hname) hold',
      (h.keep _).store hknown _⟩
  | trades frame name hnext hname =>
    cases hsubject
    exact ⟨_, .trades frame name (h.allows hnext) (h.symbols ▸ hname), h.keep _⟩
  | answer frame hanswer =>
    rw [hanswer] at hsubject
    cases hsubject

/-- What one of the feeds refuses for the symbol, the other refuses for the same reason. -/
theorem refuses (h : Alike symbol f g) (hstrict : f.symbols.allowMissing = false)
    (hsubject : frame.subject? = some (symbol, sequence)) (hrefuses : f.Refuses frame e) :
    g.Refuses frame e := by
  cases hrefuses with
  | gap frame own n last hnumber hlast hgap =>
    cases hsubject.symm.trans (subject?_of_sequenced? hnumber)
    exact .gap frame symbol n last hnumber (h.guard ▸ hlast) hgap
  | unknown frame own sequence' e hsubject' hnext hname =>
    cases hsubject.symm.trans hsubject'
    exact .unknown frame symbol sequence e hsubject (h.allows hnext) (h.symbols ▸ hname)
  | missing frame name hnext hname hbook =>
    cases hsubject
    have hknown := SymbolTable.standardSymbol_of_resolve hstrict hname
    exact .missing frame name (h.allows hnext) (h.symbols ▸ hname)
      ((h.book name hknown).symm.trans hbook)

/-- To a frame of the symbol both feeds give the same answer, and they stay the same for it. -/
theorem own (h : Alike symbol f g) {whose : Arrival → Option String} (hwhose : Attributes whose)
    (hstrict : f.symbols.allowMissing = false) {a : Arrival} (hown : whose a = some symbol) :
    (f.handle a.raw a.receipt).2 = (g.handle a.raw a.receipt).2 ∧
      Alike symbol (f.after a) (g.after a) := by
  rcases handle_cases f a.raw a.receipt with
    ⟨e, hread⟩ | ⟨frame, e, hread, hrefuses⟩ | ⟨frame, f', emissions, hread, htakes⟩
  · have hf := handle_of_error f a.receipt hread
    have hg := handle_of_error g a.receipt hread
    simp only [after, hf, hg]
    exact ⟨trivial, h⟩
  · obtain ⟨own, sequence, hsubject⟩ := hrefuses.subject?
    cases hown.symm.trans (hwhose a frame own sequence hread hsubject)
    have hf := handle_of_refuses a.receipt hread hrefuses
    have hg := handle_of_refuses a.receipt hread (h.refuses hstrict hsubject hrefuses)
    simp only [after, hf, hg]
    exact ⟨trivial, h⟩
  · have hsame : ∃ g', g.Takes a.receipt frame g' emissions ∧ Alike symbol f' g' := by
      cases hsubject : frame.subject? with
      | none =>
        cases htakes with
        | answer frame hanswer => exact ⟨g, .answer frame hanswer, h⟩
        | ticker _ _ _ _ | snapshot _ _ _ _ _ _ | update _ _ _ _ _ _ | trades _ _ _ _ =>
          cases hsubject
      | some subject =>
        obtain ⟨own, sequence⟩ := subject
        cases hown.symm.trans (hwhose a frame own sequence hread hsubject)
        exact h.takes hstrict hsubject htakes
    obtain ⟨g', htakes', halike⟩ := hsame
    have hf := handle_of_takes hread htakes
    have hg := handle_of_takes hread htakes'
    simp only [after, hf, hg]
    exact ⟨trivial, halike⟩

/-- A frame of another symbol, or of none, leaves everything about the symbol as it was. -/
theorem other {whose : Arrival → Option String} (hwhose : Attributes whose)
    (hstrict : f.symbols.allowMissing = false) (hdistinct : f.symbols.Distinct) {a : Arrival}
    (hother : whose a ≠ some symbol) : Alike symbol (f.after a) f := by
  rcases arrival_cases f a with ⟨hsame, -, -⟩ | ⟨frame, emissions, hread, -, -, htakes⟩
  · rw [hsame]
    exact refl symbol f
  · have hforeign : ∀ sequence, frame.subject? ≠ some (symbol, sequence) := fun sequence hsubject =>
      hother (hwhose a frame symbol sequence hread hsubject)
    have hnumber : frame.numberFor symbol = none := by
      refine Option.eq_none_iff_forall_ne_some.mpr fun n hn => ?_
      exact hforeign _ (subject?_of_sequenced? (numberFor_eq_some_iff.mp hn))
    refine ⟨after_symbols f a, ?_, fun name hname => ?_⟩
    · rw [htakes.find?_guard symbol, hnumber, Option.none_or]
    · rw [after_symbols] at hname
      by_contra hchanged
      cases htakes.writes hchanged with
      | snapshot book name hnext hwritten =>
        cases hdistinct symbol book.symbol name hname hwritten
        exact hforeign _ rfl
      | update book name hnext hwritten hold =>
        cases hdistinct symbol book.symbol name hname
          (SymbolTable.standardSymbol_of_resolve hstrict hwritten)
        exact hforeign _ rfl

end Alike

/-- What comes out of a turn: the answer, and the events that reach the sink. -/
def Turn.told (sink : Sink σ) (t : Turn σ) : Except Error Unit × List Emission :=
  ((t.result sink).2.2, t.offered sink)

/-- With a sink that refuses nothing, what comes out of a turn is up to the feed. -/
theorem Turn.told_congr {sink : Sink σ} (hsink : sink.TakesAll) {t u : Turn σ}
    (h : (t.feed.handle t.arrival.raw t.arrival.receipt).2 =
      (u.feed.handle u.arrival.raw u.arrival.receipt).2) : t.told sink = u.told sink := by
  have htold : ∀ v : Turn σ, v.told sink =
      match (v.feed.handle v.arrival.raw v.arrival.receipt).2 with
      | .error e => (.error e, [])
      | .ok emissions => (.ok (), emissions) := by
    intro v
    cases hhandle : v.feed.handle v.arrival.raw v.arrival.receipt with
    | mk f' answer =>
      cases answer with
      | error e =>
        obtain ⟨hresult, hoffered⟩ := handleWith_of_error hhandle sink v.kept
        simp only [told, result, offered, hresult, hoffered]
      | ok emissions =>
        obtain ⟨hresult, hoffered⟩ := handleWith_of_ok hhandle sink v.kept
        simp only [told, result, offered, hresult, hoffered, hsink.deliver_eq_ok,
          hsink.offered_eq]
  rw [htold t, htold u, h]

/-- Two feeds that are the same for a symbol stay so if one of them handles all frames and the other
only those of the symbol, and what comes out for these is the same. -/
theorem Alike.run {symbol : String} {whose : Arrival → Option String} (hwhose : Attributes whose)
    {sink : Sink σ} (hsink : sink.TakesAll) {f g : Feed} (h : Alike symbol f g)
    (hstrict : f.symbols.allowMissing = false) (hdistinct : f.symbols.Distinct) (s s' : σ)
    (arrivals : List Arrival) :
    ((turns sink f s arrivals).filter fun t => whose t.arrival = some symbol).map
        (Turn.told sink) =
      (turns sink g s' (arrivals.filter fun a => whose a = some symbol)).map (Turn.told sink) ∧
    Alike symbol (f.afterAll arrivals)
      (g.afterAll (arrivals.filter fun a => whose a = some symbol)) := by
  induction arrivals generalizing f g s s' with
  | nil => exact ⟨rfl, h⟩
  | cons a rest ih =>
    have hstrict' : (f.after a).symbols.allowMissing = false := by rw [after_symbols, hstrict]
    have hdistinct' : (f.after a).symbols.Distinct := by rwa [after_symbols]
    simp only [turns, afterAll, List.foldl_cons, result_feed]
    by_cases hown : whose a = some symbol
    · obtain ⟨hanswer, halike⟩ := h.own hwhose hstrict hown
      obtain ⟨htold, hend⟩ := ih halike hstrict' hdistinct' (Turn.result sink ⟨f, s, a⟩).2.1
        (Turn.result sink ⟨g, s', a⟩).2.1
      have hfirst : Turn.told sink ⟨f, s, a⟩ = Turn.told sink ⟨g, s', a⟩ :=
        Turn.told_congr hsink hanswer
      simp only [hown, decide_true, List.filter_cons_of_pos, List.map_cons, turns, result_feed,
        List.foldl_cons, hfirst, htold]
      exact ⟨trivial, hend⟩
    · have halike := (other hwhose hstrict hdistinct hown).trans h
      obtain ⟨htold, hend⟩ := ih halike hstrict' hdistinct' (Turn.result sink ⟨f, s, a⟩).2.1 s'
      simp only [hown, decide_false, Bool.false_eq_true, not_false_eq_true,
        List.filter_cons_of_neg, htold]
      exact ⟨trivial, hend⟩

/-- A feed whose numbers and books stand in the order of their keys, each book under the name of a
known symbol. -/
structure Tidy (f : Feed) : Prop where
  guard : f.guard.Ascending
  books : f.books.Ascending
  named : f.Named

theorem Tidy.keep {f : Feed} (h : f.Tidy) (symbol : String) (sequence : Option UInt64) :
    (f.keep symbol sequence).Tidy where
  guard := by
    cases sequence with
    | none => exact h.guard
    | some n => exact h.guard.insert symbol n
  books := h.books
  named := h.named

theorem Takes.tidy {f f' : Feed} {receipt : UInt64} {frame : Frame} {emissions : List Emission}
    (h : f.Takes receipt frame f' emissions) (htidy : f.Tidy) : f'.Tidy := by
  have hnamed := h.named htidy.named
  cases h with
  | ticker frame symbol hnext hsymbol => exact htidy.keep _ _
  | snapshot frame symbol book hnext hsymbol hbook =>
    exact ⟨(htidy.keep _ _).guard, htidy.books.insert _ _, hnamed⟩
  | update frame symbol old hnext hsymbol hold =>
    exact ⟨(htidy.keep _ _).guard, htidy.books.insert _ _, hnamed⟩
  | trades frame symbol hnext hsymbol => exact htidy.keep _ _
  | answer frame hanswer => exact htidy

theorem tidy_afterAll (f : Feed) (arrivals : List Arrival) :
    (f.beginSession.afterAll arrivals).Tidy :=
  history_induction f.beginSession (motive := fun _ g => g.Tidy)
    ⟨Table.ascending_empty, Table.ascending_empty, fun _ hbook => absurd rfl hbook⟩
    (fun _ _ _ _ _ _ htidy htakes => htakes.tidy htidy) arrivals

theorem afterAll_symbols (f : Feed) (arrivals : List Arrival) :
    (f.afterAll arrivals).symbols = f.symbols := by
  induction arrivals generalizing f with
  | nil => rfl
  | cons a rest ih =>
    rw [afterAll, List.foldl_cons, ← afterAll, ih, after_symbols]

/-- Feeds over one symbol table that are the same for every symbol have the same numbers and the same
books. -/
theorem Tidy.eq_of_alike {f g : Feed} (hf : f.Tidy) (hg : g.Tidy) (hsymbols : f.symbols = g.symbols)
    (h : ∀ symbol, Alike symbol f g) : f.guard = g.guard ∧ f.books = g.books := by
  refine ⟨hf.guard.eq_of_find? hg.guard fun symbol => (h symbol).guard, ?_⟩
  refine hf.books.eq_of_find? hg.books fun name => ?_
  by_cases hknown : ∃ symbol, f.symbols.standardSymbol symbol = .ok name
  · obtain ⟨symbol, hname⟩ := hknown
    exact (h symbol).book name hname
  · have hnone : f.books.find? name = none := by
      by_contra hbook
      exact hknown (hf.named name hbook)
    have hnone' : g.books.find? name = none := by
      by_contra hbook
      exact hknown (hsymbols ▸ hg.named name hbook)
    rw [hnone, hnone']

/-- In a session in which unknown symbols are refused and no two symbols share a name, the answers to
the frames of a symbol, the events that are published for them, its last number and its book are those
of a session with its frames alone. Sessions with the same frames of each symbol, in whatever order
these come among each other, end with the same numbers and the same books. -/
theorem symbols_do_not_interfere {whose : Arrival → Option String} (hwhose : Attributes whose)
    (f : Feed) (hstrict : f.symbols.allowMissing = false) (hdistinct : f.symbols.Distinct)
    {sink : Sink σ} (hsink : sink.TakesAll) (s s' : σ) (arrivals : List Arrival) :
    (∀ symbol,
      let own := arrivals.filter fun a => whose a = some symbol
      let all := (handleAll sink f.beginSession s arrivals).1
      let alone := (handleAll sink f.beginSession s' own).1
      ((turns sink f.beginSession s arrivals).filter fun t => whose t.arrival = some symbol).map
          (Turn.told sink) = (turns sink f.beginSession s' own).map (Turn.told sink) ∧
        all.guard.find? symbol = alone.guard.find? symbol ∧
        ∀ name, f.symbols.standardSymbol symbol = .ok name →
          all.books.find? name = alone.books.find? name) ∧
    ∀ others : List Arrival,
      (∀ symbol, (others.filter fun a => whose a = some symbol) =
        arrivals.filter fun a => whose a = some symbol) →
      let one := (handleAll sink f.beginSession s arrivals).1
      let other := (handleAll sink f.beginSession s' others).1
      one.guard = other.guard ∧ one.books = other.books := by
  have hrun := fun symbol => Alike.run hwhose hsink (.refl symbol f.beginSession)
    hstrict hdistinct s s'
  simp only [handleAll_feed]
  constructor
  · intro symbol
    obtain ⟨htold, halike⟩ := hrun symbol arrivals
    exact ⟨htold, halike.guard, fun name hname =>
      halike.book name (by rwa [afterAll_symbols])⟩
  · intro others hsame
    refine (tidy_afterAll f arrivals).eq_of_alike (tidy_afterAll f others) ?_ fun symbol => ?_
    · rw [afterAll_symbols, afterAll_symbols]
    · have hone := (hrun symbol arrivals).2
      have hother := (hrun symbol others).2
      rw [hsame symbol] at hother
      exact hone.trans hother.symm

/-- The symbol that a raw frame is about, if it can be read and is about one. -/
def Arrival.symbol? (a : Arrival) : Option String :=
  match Frame.decode a.raw with
  | .ok frame => frame.subject?.map Prod.fst
  | .error _ => none

theorem attributes_symbol? : Attributes Arrival.symbol? := by
  intro a frame symbol sequence hread hsubject
  simp only [Arrival.symbol?, hread, hsubject, Option.map_some]

/-- A feed for two symbols. -/
def twofold : Feed where
  symbols := SymbolTable.ofPairs [("BTC-USD", "BTCUSD"), ("ETH-USD", "ETHUSD")]
  subscription := {}

theorem twofold_distinct : twofold.symbols.Distinct := by
  have hpaired : twofold.symbols.Paired := SymbolTable.paired_ofPairs (by decide) (by decide)
  intro symbol other name hname hother
  have hown := (hpaired name symbol).mpr hname
  cases hown.symm.trans ((hpaired name other).mpr hother)
  rfl

/-- A change of a book that has none yet. -/
def early : String :=
  "\x7b\"method\":\"updateOrderbook\",\"params\":\x7b\"symbol\":\"ETHUSD\",\"sequence\":3\x7d\x7d"

/-- A book that is opened and changed, while a change of another comes too soon. -/
theorem symbols_do_not_interfere_early :
    ((turns logSink twofold.beginSession [] [⟨opening, 1⟩, ⟨early, 2⟩, ⟨resizing, 3⟩]).filter
        fun t => t.arrival.symbol? = some "BTCUSD").map (Turn.told logSink) =
      (turns logSink twofold.beginSession [] [⟨opening, 1⟩, ⟨resizing, 3⟩]).map
        (Turn.told logSink) ∧
    (handleAll logSink twofold.beginSession [] [⟨opening, 1⟩, ⟨early, 2⟩, ⟨resizing, 3⟩]).1.books =
      (handleAll logSink twofold.beginSession []
        [⟨early, 2⟩, ⟨opening, 1⟩, ⟨resizing, 3⟩]).1.books := by
  have hopening : Arrival.symbol? ⟨opening, 1⟩ = some "BTCUSD" := by cbv
  have hearly : Arrival.symbol? ⟨early, 2⟩ = some "ETHUSD" := by cbv
  have hresizing : Arrival.symbol? ⟨resizing, 3⟩ = some "BTCUSD" := by cbv
  obtain ⟨hown, hshuffled⟩ := symbols_do_not_interfere attributes_symbol? twofold (by decide)
    twofold_distinct logSink_takesAll [] [] [⟨opening, 1⟩, ⟨early, 2⟩, ⟨resizing, 3⟩]
  constructor
  · obtain ⟨htold, -⟩ := hown "BTCUSD"
    simpa [hopening, hearly, hresizing] using htold
  · refine (hshuffled [⟨early, 2⟩, ⟨opening, 1⟩, ⟨resizing, 3⟩] fun symbol => ?_).2
    by_cases hbitcoin : symbol = "BTCUSD"
    · simp [hopening, hearly, hresizing, hbitcoin]
    · simp [List.filter_cons, hopening, hearly, hresizing, Ne.symm hbitcoin]

end MarketFeed.Feed
