import Mathlib
import MarketFeed.Proofs.BookHistory
import MarketFeed.Proofs.Lifecycle
import MarketFeed.Proofs.Names

/-!
Books stand under standard names, numbers under the exchange's. If the names are paired, the book
under a standard name is changed by the frames of one symbol only, the one whose numbers are kept for
it. The exception is a symbol that is not in the table and is spelled like a standard name: where
unknown names may stand for themselves, a change under it reaches the book of that name.
-/
namespace MarketFeed.Feed

open Market
open Transport (Stream)

variable {σ κ : Type}

/-- The states of a feed over a symbol table: it is made for a subscription, begins sessions, handles
raw frames, and goes from one phase to another. -/
inductive Reachable (symbols : SymbolTable) : Feed → Prop
  | made (subscription : Subscription) (f : Feed)
      (hmade : Feed.make symbols subscription = .ok f) : Reachable symbols f
  | begun (f : Feed) (hbefore : Reachable symbols f) : Reachable symbols f.beginSession
  | handled (f : Feed) (a : Arrival) (hbefore : Reachable symbols f) :
      Reachable symbols (f.after a)
  | moved (f : Feed) (phase : Phase) (hbefore : Reachable symbols f) :
      Reachable symbols { f with phase }

variable {symbols : SymbolTable}

theorem Setup.Follows.reachable {stream : Stream σ} {sink : Sink κ} {x : Setup σ κ}
    {came : List Arrival} {r : Setup σ κ × Ending} (h : Follows stream sink x came r)
    (hstart : Reachable symbols x.feed) : Reachable symbols r.1.feed := by
  induction h with
  | interrupted x s hreceive => exact hstart
  | ended x s hreceive => exact .moved _ _ hstart
  | failed x s e hreceive => exact .moved _ _ hstart
  | stopped x a s e hreceive herror hstops =>
    have hafter : Reachable symbols (x.next sink a s).feed := by
      rw [next_feed]
      exact .handled _ a hstart
    exact .moved _ _ hafter
  | goesOn x a s rest r hreceive hgoes hrest ih =>
    refine ih ?_
    rw [next_feed]
    exact .handled _ a hstart

/-- A whole session leads a feed from one of its states to another. -/
theorem Reachable.run (stream : Stream σ) (sink : Sink κ) {x : Setup σ κ}
    (hstart : Reachable symbols x.feed) : Reachable symbols (x.run stream sink).1.feed := by
  by_cases hfails : x.OpenFails stream
  · obtain ⟨e, hrun⟩ := Setup.run_of_openFails sink hfails
    rw [hrun]
    exact .moved _ _ hstart
  · rw [Setup.run_of_not_openFails hfails]
    cases x.feed.beginSession.subscribe stream (x.opened stream) with
    | mk s answer =>
      cases answer with
      | error e => exact .moved _ _ (.begun _ hstart)
      | ok n =>
        obtain ⟨came, hfollows⟩ :=
          Setup.follow_follows stream sink { x with feed := x.feed.fresh, stream := s }
        exact hfollows.reachable (.moved _ .streaming (.begun _ hstart))

/-- The contents of a frame about a book. -/
def Frame.book? : Frame → Option BookFrame
  | .snapshot book | .update book => some book
  | _ => none

/-- What a feed writes into its store for a frame: a new book or a change under a standard name. -/
inductive Writes (f : Feed) : Frame → String → Prop
  | snapshot (book : BookFrame) (name : String)
      (hnext : f.guard.Allows book.symbol book.sequence)
      (hname : f.symbols.standardSymbol book.symbol = .ok name) : Writes f (.snapshot book) name
  | update (book : BookFrame) (name : String)
      (hnext : f.guard.Allows book.symbol book.sequence)
      (hname : f.symbols.resolve book.symbol = .ok name)
      (hold : f.books.find? name ≠ none) : Writes f (.update book) name

/-- A frame that is taken changes no book but the one it writes. -/
theorem Takes.writes {f f' : Feed} {receipt : UInt64} {frame : Frame} {emissions : List Emission}
    (h : f.Takes receipt frame f' emissions) {name : String}
    (hchanged : f'.books.find? name ≠ f.books.find? name) : f.Writes frame name := by
  cases h with
  | ticker frame symbol hnext hsymbol => exact absurd rfl hchanged
  | snapshot frame symbol book hnext hsymbol hbook =>
    by_cases heq : name = symbol
    · subst heq
      exact .snapshot frame name hnext hsymbol
    · rw [Table.find?_insert, if_neg heq] at hchanged
      exact absurd rfl hchanged
  | update frame symbol old hnext hsymbol hold =>
    by_cases heq : name = symbol
    · subst heq
      exact .update frame name hnext hsymbol (by simp [hold])
    · rw [Table.find?_insert, if_neg heq] at hchanged
      exact absurd rfl hchanged
  | trades frame symbol hnext hsymbol => exact absurd rfl hchanged
  | answer frame hanswer => exact absurd rfl hchanged

/-- Every book stands under the standard name of a known symbol of the exchange. -/
def Named (f : Feed) : Prop :=
  ∀ name, f.books.find? name ≠ none → ∃ symbol, f.symbols.standardSymbol symbol = .ok name

/-- A change finds a book that stood there before, so it makes no book under a new name. -/
theorem Takes.named {f f' : Feed} {receipt : UInt64} {frame : Frame} {emissions : List Emission}
    (h : f.Takes receipt frame f' emissions) (hnamed : f.Named) : f'.Named := by
  intro name hbook
  rw [h.symbols_eq]
  by_cases hsame : f'.books.find? name = f.books.find? name
  · exact hnamed name (hsame ▸ hbook)
  · cases h.writes hsame with
    | snapshot book name hnext hname => exact ⟨book.symbol, hname⟩
    | update book name hnext hname hold => exact hnamed name hold

theorem Reachable.symbols_eq_named {f : Feed} (h : Reachable symbols f) :
    f.symbols = symbols ∧ f.Named := by
  induction h with
  | made subscription f hmade =>
    unfold Feed.make at hmade
    split at hmade
    · cases hmade
    · cases hrequests : requests symbols subscription with
      | error e =>
        rw [hrequests] at hmade
        cases hmade
      | ok pairs =>
        rw [hrequests] at hmade
        cases hmade
        exact ⟨rfl, fun name hbook => absurd rfl hbook⟩
  | begun f hbefore ih => exact ⟨ih.1, fun name hbook => absurd rfl hbook⟩
  | handled f a hbefore ih =>
    obtain ⟨hsymbols, hnamed⟩ := ih
    rcases arrival_cases f a with ⟨hsame, -, -⟩ | ⟨frame, emissions, -, -, -, htakes⟩
    · rw [hsame]
      exact ⟨hsymbols, hnamed⟩
    · exact ⟨htakes.symbols_eq.trans hsymbols, htakes.named hnamed⟩
  | moved f phase hbefore ih => exact ih

/-- A frame that changes the book under a standard name is a snapshot or a change of the symbol that
is paired with that name, and its number was checked against that symbol's. Only where unknown names
may stand for themselves can it also be a change under the standard name itself, if that is no symbol
of the table. -/
theorem book_changed_by {pairs : List (String × String)} (allow : Bool)
    (hstandard : (pairs.map Prod.fst).Nodup) (hexchange : (pairs.map Prod.snd).Nodup) {f : Feed}
    (hreachable : Reachable { SymbolTable.ofPairs pairs with allowMissing := allow } f)
    (sink : Sink σ) (s : σ) (raw : String) (receipt : UInt64) (name : String)
    (hchanged : (f.handleWith sink s raw receipt).1.books.find? name ≠ f.books.find? name) :
    ∃ frame book, Frame.decode raw = .ok frame ∧ frame.book? = some book ∧
      f.guard.Allows book.symbol book.sequence ∧
      ((f.symbols.standardSymbol book.symbol = .ok name ∧
          f.symbols.exchangeSymbol name = .ok book.symbol) ∨
        (allow = true ∧ frame = .update book ∧ book.symbol = name ∧
          f.symbols.standardSymbol name = .error (.unknownSymbol name) ∧
          ∃ own, f.symbols.exchangeSymbol name = .ok own)) := by
  obtain ⟨hsymbols, hnamed⟩ := hreachable.symbols_eq_named
  have hpaired : f.symbols.Paired := by
    rw [hsymbols]
    exact SymbolTable.paired_ofPairs hstandard hexchange
  have hresult := result_feed sink ⟨f, s, ⟨raw, receipt⟩⟩
  simp only [Turn.result] at hresult
  rw [hresult] at hchanged
  rcases arrival_cases f ⟨raw, receipt⟩ with
    ⟨hsame, -, -⟩ | ⟨frame, emissions, hread, -, -, htakes⟩
  · rw [hsame] at hchanged
    exact absurd rfl hchanged
  · cases htakes.writes hchanged with
    | snapshot book name hnext hname =>
      exact ⟨_, book, hread, rfl, hnext, Or.inl ⟨hname, (hpaired _ _).mpr hname⟩⟩
    | update book name hnext hname hold =>
      refine ⟨_, book, hread, rfl, hnext, ?_⟩
      rcases SymbolTable.resolve_eq_ok_iff.mp hname with hknown | ⟨hallow, hunknown, hself⟩
      · exact Or.inl ⟨hknown, (hpaired _ _).mpr hknown⟩
      · obtain ⟨own, hown⟩ := hnamed name hold
        rw [hself] at hunknown
        rw [hsymbols] at hallow
        exact Or.inr ⟨hallow, rfl, hself, hunknown, own, (hpaired _ _).mpr hown⟩

/-- A feed that lets unknown names stand for themselves, with one book. -/
def lenient : Feed :=
  let symbols := { SymbolTable.ofPairs [("BTC-USD", "BTCUSD")] with allowMissing := true }
  let subscription := Subscription.add {} .orderbook "BTC-USD"
  ({ symbols, subscription } : Feed).after ⟨opening, 1⟩

theorem lenient_reachable :
    Reachable { SymbolTable.ofPairs [("BTC-USD", "BTCUSD")] with allowMissing := true } lenient :=
  .handled _ _ (.made (Subscription.add {} .orderbook "BTC-USD") _ (by cbv))

/-- A frame that leaves another size at the one bid has changed the book. -/
theorem lenient_changed (raw : String)
    (hafter : ((lenient.handleWith logSink [] raw 2).1.books.find? "BTC-USD").map
      (·.sizeAt .bid (decimal 1 0)) = some (some (decimal 2 0))) :
    (lenient.handleWith logSink [] raw 2).1.books.find? "BTC-USD" ≠
      lenient.books.find? "BTC-USD" := by
  have hbefore : (lenient.books.find? "BTC-USD").map (·.sizeAt .bid (decimal 1 0)) =
      some (some (decimal 3 0)) := by cbv
  intro hsame
  rw [hsame, hbefore] at hafter
  exact absurd hafter (by decide)

/-- A change of the symbol that is paired with the name of the book. -/
theorem book_changed_by_resizing :
    (lenient.handleWith logSink [] resizing 2).1.books.find? "BTC-USD" ≠
      lenient.books.find? "BTC-USD" ∧
    ∃ frame book, Frame.decode resizing = .ok frame ∧ frame.book? = some book ∧
      lenient.guard.Allows book.symbol book.sequence ∧
      lenient.symbols.exchangeSymbol "BTC-USD" = .ok book.symbol := by
  have hchanged := lenient_changed resizing (by cbv)
  obtain ⟨frame, book, hread, hbook, hnext, hown | ⟨-, -, hself, -, -⟩⟩ :=
    book_changed_by true (by decide) (by decide) lenient_reachable logSink [] resizing 2
      "BTC-USD" hchanged
  · exact ⟨hchanged, frame, book, hread, hbook, hnext, hown.2⟩
  · have hresizing : Frame.decode resizing = .ok (.update resizingFrame) := by cbv
    cases hresizing.symm.trans hread
    cases hbook
    exact absurd hself (by decide)

/-- A change under a symbol that the table does not know, spelled like a standard name. -/
def posing : String :=
  "\x7b\"method\":\"updateOrderbook\",\"params\":\x7b\"symbol\":\"BTC-USD\"," ++
  "\"bid\":[\x7b\"price\":\"1.0\",\"size\":\"2\"\x7d]\x7d\x7d"

def posingFrame : BookFrame := { resizingFrame with symbol := "BTC-USD" }

/-- A book is changed by a symbol that the table does not know. -/
theorem book_changed_by_stranger :
    ¬ ∀ (pairs : List (String × String)) (allow : Bool), (pairs.map Prod.fst).Nodup →
      (pairs.map Prod.snd).Nodup → ∀ f : Feed,
      Reachable { SymbolTable.ofPairs pairs with allowMissing := allow } f →
      ∀ (raw : String) (receipt : UInt64) (name : String),
        (f.handleWith logSink [] raw receipt).1.books.find? name ≠ f.books.find? name →
        ∃ frame book, Frame.decode raw = .ok frame ∧ frame.book? = some book ∧
          f.symbols.standardSymbol book.symbol = .ok name := by
  intro h
  have hchanged := lenient_changed posing (by cbv)
  obtain ⟨frame, book, hread, hbook, hname⟩ := h [("BTC-USD", "BTCUSD")] true (by decide)
    (by decide) lenient lenient_reachable posing 2 "BTC-USD" hchanged
  have hposing : Frame.decode posing = .ok (.update posingFrame) := by cbv
  cases hposing.symm.trans hread
  cases hbook
  have hunknown : lenient.symbols.standardSymbol "BTC-USD" =
      .error (.unknownSymbol "BTC-USD") := by cbv
  cases hunknown.symm.trans hname

end MarketFeed.Feed
