import Mathlib
import MarketFeed.Proofs.Elementwise
import MarketFeed.Proofs.History
import MarketFeed.Proofs.Levels

/-!
The books of a session, read off the frames that were taken in it. A symbol has a book from its
first snapshot on, and its book is the last snapshot of it with all changes that came after.
-/
namespace MarketFeed.Feed

open Market Number

variable {σ : Type}

/-- Whether a frame is a snapshot of a symbol's book. -/
def Frame.IsSnapshotOf (symbols : SymbolTable) (symbol : String) : Frame → Prop
  | .snapshot frame => symbols.standardSymbol frame.symbol = .ok symbol
  | _ => False

/-- What a frame changes in a symbol's book. -/
def Frame.changesFor (symbols : SymbolTable) (symbol : String) : Frame → List Change
  | .update frame =>
    match symbols.resolve frame.symbol with
    | .ok name => if name = symbol then frame.changes else []
    | .error _ => []
  | _ => []

theorem Takes.symbols_eq {f f' : Feed} {receipt : UInt64} {frame : Frame}
    {emissions : List Emission} (h : f.Takes receipt frame f' emissions) :
    f'.symbols = f.symbols := by
  cases h with
  | ticker frame name hnext hname => rfl
  | snapshot frame name book hnext hname hbook => rfl
  | update frame name old hnext hname hold => rfl
  | trades frame name hnext hname => rfl
  | answer frame hanswer => rfl

/-- A snapshot of a symbol leaves nothing of the book before. -/
theorem Takes.find?_of_snapshot {f f' : Feed} {receipt : UInt64} {snap : BookFrame}
    {emissions : List Emission} {symbol : String}
    (h : f.Takes receipt (.snapshot snap) f' emissions)
    (hsnap : f.symbols.standardSymbol snap.symbol = .ok symbol) :
    ∃ old : Book, f'.books.find? symbol = some (old.replace snap.bid snap.ask) := by
  cases h with
  | snapshot frame name book hnext hname hbook =>
    cases hname.symm.trans hsnap
    refine ⟨(f.books.find? symbol).getD { symbol }, ?_⟩
    rw [← hbook, Table.find?_insert, if_pos rfl]
  | answer frame hanswer => cases hanswer

/-- Any other frame does no more to the book of a symbol than its changes for it. -/
theorem Takes.find?_of_not_snapshot {f f' : Feed} {receipt : UInt64} {frame : Frame}
    {emissions : List Emission} {symbol : String} (h : f.Takes receipt frame f' emissions)
    (hother : ¬ frame.IsSnapshotOf f.symbols symbol) :
    f'.books.find? symbol =
      (f.books.find? symbol).map (·.applyAll (frame.changesFor f.symbols symbol)) := by
  have hsame : ∀ book : Option Book, book.map (·.applyAll []) = book := fun book => by
    cases book <;> rfl
  cases h with
  | ticker frame name hnext hname => exact (hsame _).symm
  | snapshot frame name book hnext hname hbook =>
    have hne : symbol ≠ name := by
      rintro rfl
      exact hother hname
    simp only [Table.find?_insert, if_neg hne]
    exact (hsame _).symm
  | update frame name old hnext hname hold =>
    simp only [Frame.changesFor, hname, Table.find?_insert]
    by_cases heq : symbol = name
    · subst heq
      simp [hold]
    · have hne : name ≠ symbol := Ne.symm heq
      simp only [if_neg heq, if_neg hne]
      exact (hsame _).symm
  | trades frame name hnext hname => exact (hsame _).symm
  | answer frame hanswer =>
    cases frame with
    | ticker _ | snapshot _ | update _ | trades _ => cases hanswer
    | result _ | serverError _ | unrecognized _ => exact (hsame _).symm

/-- The book of a symbol is what the frames taken in a session say. -/
structure Recorded (symbols : SymbolTable) (symbol : String) (frames : List Frame)
    (books : Store) : Prop where
  unseen : books.find? symbol = none ↔ ∀ frame ∈ frames, ¬ frame.IsSnapshotOf symbols symbol
  seen : ∀ earlier snap later, frames = earlier ++ .snapshot snap :: later →
    symbols.standardSymbol snap.symbol = .ok symbol →
    (∀ frame ∈ later, ¬ frame.IsSnapshotOf symbols symbol) →
    ∃ old : Book, books.find? symbol = some
      ((old.replace snap.bid snap.ask).applyAll (later.flatMap (Frame.changesFor symbols symbol)))

namespace Recorded

variable {f f' : Feed} {receipt : UInt64} {frame : Frame} {emissions : List Emission}
  {symbol : String} {frames : List Frame}

theorem step_snapshot {snap : BookFrame}
    (htakes : f.Takes receipt (.snapshot snap) f' emissions)
    (hsnap : f.symbols.standardSymbol snap.symbol = .ok symbol) :
    Recorded f.symbols symbol (frames ++ [.snapshot snap]) f'.books := by
  obtain ⟨old, hbook⟩ := htakes.find?_of_snapshot hsnap
  constructor
  · rw [hbook]
    constructor
    · intro h
      cases h
    · intro h
      exact absurd hsnap (h (.snapshot snap) (by simp))
  · intro earlier snap' later hframes hsnap' hlater
    -- The snapshot that was just taken is the last one, so that nothing comes after `snap'`.
    rcases split_concat hframes with ⟨rfl, -, hlast⟩ | ⟨later', rfl, -⟩
    · cases hlast
      exact ⟨old, hbook⟩
    · exact absurd hsnap (hlater (.snapshot snap) (by simp))

theorem step_other (h : Recorded f.symbols symbol frames f.books)
    (htakes : f.Takes receipt frame f' emissions)
    (hother : ¬ frame.IsSnapshotOf f.symbols symbol) :
    Recorded f.symbols symbol (frames ++ [frame]) f'.books := by
  have hbook := htakes.find?_of_not_snapshot hother
  constructor
  · rw [hbook, Option.map_eq_none_iff, h.unseen]
    simp [or_imp, forall_and, hother]
  · intro earlier snap later hframes hsnap hlater
    rcases split_concat hframes with ⟨-, -, rfl⟩ | ⟨later', rfl, hfront⟩
    · exact absurd hsnap hother
    · obtain ⟨old, hold⟩ := h.seen earlier snap later' hfront hsnap
        fun other hmem => hlater other (by simp [hmem])
      refine ⟨old, ?_⟩
      rw [hbook, hold]
      simp [Book.applyAll, List.flatMap_append]

theorem step (h : Recorded f.symbols symbol frames f.books)
    (htakes : f.Takes receipt frame f' emissions) :
    Recorded f.symbols symbol (frames ++ [frame]) f'.books := by
  by_cases hsnap : frame.IsSnapshotOf f.symbols symbol
  · cases frame with
    | snapshot snap => exact step_snapshot htakes hsnap
    | ticker _ | update _ | trades _ | result _ | serverError _ | unrecognized _ =>
      exact hsnap.elim
  · exact h.step_other htakes hsnap

theorem start (symbols : SymbolTable) (symbol : String) : Recorded symbols symbol [] .empty := by
  constructor
  · simp
  · intro earlier snap later hframes
    simp at hframes

end Recorded

theorem recorded_history (f : Feed) (arrivals : List Arrival) (symbol : String) :
    Recorded f.symbols symbol ((f.beginSession.history arrivals).map (·.frame))
      (f.beginSession.afterAll arrivals).books := by
  have h := history_induction f.beginSession
    (motive := fun past g => g.symbols = f.symbols ∧
      Recorded f.symbols symbol (past.map (·.frame)) g.books)
    ⟨rfl, .start f.symbols symbol⟩
    (fun past g receipt frame g' emissions hpast htakes => by
      obtain ⟨hsymbols, hrecorded⟩ := hpast
      refine ⟨htakes.symbols_eq.trans hsymbols, ?_⟩
      rw [← hsymbols] at hrecorded ⊢
      rw [List.map_append]
      exact hrecorded.step htakes)
    arrivals
  exact h.2

/-- A symbol has a book exactly if a snapshot of it was taken in the session. The size at a price is
then what the last of the changes after the last snapshot says about an equal price, and where they
say nothing, what that snapshot says. -/
theorem books_eq_history (sink : Sink σ) (hsink : sink.TakesAll) (f : Feed) (s : σ)
    (arrivals : List Arrival) (symbol : String) :
    let frames := successes sink f.beginSession s arrivals
    let books := (handleAll sink f.beginSession s arrivals).1.books
    (books.find? symbol = none ↔ ∀ frame ∈ frames, ¬ frame.IsSnapshotOf f.symbols symbol) ∧
    ∀ earlier snap later, frames = earlier ++ .snapshot snap :: later →
      f.symbols.standardSymbol snap.symbol = .ok symbol →
      (∀ frame ∈ later, ¬ frame.IsSnapshotOf f.symbols symbol) →
      ∃ book, books.find? symbol = some book ∧ ∀ side price, book.sizeAt side price =
        Level.sizeGiven price (side.pick snap.bid snap.ask)
          (onSide side (later.flatMap (Frame.changesFor f.symbols symbol))) := by
  intro frames books
  have hframes : frames = (f.beginSession.history arrivals).map (·.frame) :=
    successes_eq hsink f.beginSession s arrivals
  have hbooks : books = (f.beginSession.afterAll arrivals).books :=
    congrArg Feed.books (handleAll_feed sink f.beginSession s arrivals)
  have hrecorded := recorded_history f arrivals symbol
  rw [← hframes, ← hbooks] at hrecorded
  refine ⟨hrecorded.unseen, ?_⟩
  intro earlier snap later hsplit hsnap hlater
  obtain ⟨old, hbook⟩ := hrecorded.seen earlier snap later hsplit hsnap hlater
  refine ⟨_, hbook, fun side price => ?_⟩
  rw [Book.sizeAt, Book.levels_applyAll, Book.levels_replace]
  exact Level.sizeAt_foldl_apply_collect price side _ _

/-- A number from its parts, if they fit. -/
def decimal (mantissa : Int) (places : Nat) : Decimal :=
  (Decimal.ofParts? mantissa places).getD .zero

/-- A book with one bid. -/
def opening : String :=
  "\x7b\"method\":\"snapshotOrderbook\",\"params\":\x7b\"symbol\":\"BTCUSD\"," ++
  "\"bid\":[\x7b\"price\":\"1\",\"size\":\"3\"\x7d]\x7d\x7d"

def openingFrame : BookFrame where
  symbol := "BTCUSD"
  bid := [⟨decimal 1 0, decimal 3 0⟩]
  ask := []
  sequence := none
  timestamp := none

/-- A new size at the one bid, whose price is written in another way. -/
def resizing : String :=
  "\x7b\"method\":\"updateOrderbook\",\"params\":\x7b\"symbol\":\"BTCUSD\"," ++
  "\"bid\":[\x7b\"price\":\"1.0\",\"size\":\"2\"\x7d]\x7d\x7d"

def resizingFrame : BookFrame where
  symbol := "BTCUSD"
  bid := [⟨decimal 10 1, decimal 2 0⟩]
  ask := []
  sequence := none
  timestamp := none

/-- A symbol without a snapshot, and the one bid of another after it was resized. -/
theorem books_eq_history_resizing :
    let arrivals : List Arrival := [⟨opening, 1⟩, ⟨resizing, 2⟩]
    let books := (handleAll logSink midway.beginSession [] arrivals).1.books
    books.find? "ETH-USD" = none ∧ ∃ book, books.find? "BTC-USD" = some book ∧
      book.sizeAt .bid (decimal 1 0) = some (decimal 2 0) := by
  intro arrivals books
  have hframes : successes logSink midway.beginSession [] [⟨opening, 1⟩, ⟨resizing, 2⟩] =
      [.snapshot openingFrame, .update resizingFrame] := by cbv
  have hopening : midway.symbols.standardSymbol openingFrame.symbol = .ok "BTC-USD" := by cbv
  have hother : midway.symbols.standardSymbol openingFrame.symbol ≠ .ok "ETH-USD" := by
    rw [hopening]
    simp
  obtain ⟨hnone, -⟩ :=
    books_eq_history logSink logSink_takesAll midway [] arrivals "ETH-USD"
  obtain ⟨-, hsizes⟩ :=
    books_eq_history logSink logSink_takesAll midway [] arrivals "BTC-USD"
  refine ⟨hnone.mpr ?_, ?_⟩
  · rw [hframes]
    intro frame hmem
    rcases List.mem_cons.mp hmem with rfl | hmem
    · exact hother
    · rw [List.mem_singleton.mp hmem]
      exact id
  · have hlater : ∀ frame ∈ [Frame.update resizingFrame],
        ¬ frame.IsSnapshotOf midway.symbols "BTC-USD" := by simp [Frame.IsSnapshotOf]
    obtain ⟨book, hbook, hsize⟩ := hsizes [] openingFrame _ hframes hopening hlater
    exact ⟨book, hbook, (hsize .bid _).trans (by cbv)⟩

end MarketFeed.Feed
