import Mathlib
import MarketFeed.Proofs.BookHistory

/-!
A consumer that copies every new book and replays every change of one holds the same books as the
feed. At each event about a book its replica, the book that comes with the event and the book in the
feed's store are equal, level for level, and a change never comes before the session's first
snapshot of its symbol. Replicas from earlier sessions do no harm.
-/
namespace MarketFeed.Feed

open Market

variable {σ : Type}

/-- The books that a consumer keeps, by symbol. -/
abbrev Replicas := String → Option Book

/-- A new book is copied, a change of one is replayed. -/
def Replicas.receive (r : Replicas) : Emission → Replicas
  | .ticker _ | .trade _ => r
  | .book book change => fun symbol =>
    if symbol = change.symbol then
      if change.isSnapshot then some book
      else (r symbol).map (·.replay (change.delta.getD {}))
    else r symbol

/-- A sink that refuses nothing and keeps replicas. -/
def Sink.Follows (sink : Sink σ) (replicas : σ → Replicas) : Prop :=
  ∀ s e, ∃ s', sink s e = .ok s' ∧ replicas s' = (replicas s).receive e

def replicaSink : Sink Replicas := fun r e => .ok (r.receive e)

theorem replicaSink_follows : replicaSink.Follows id := fun _ _ => ⟨_, rfl, rfl⟩

namespace Sink.Follows

variable {sink : Sink σ} {replicas : σ → Replicas} (hsink : sink.Follows replicas)
include hsink

theorem takesAll : sink.TakesAll := by
  intro s e
  obtain ⟨s', htaken, -⟩ := hsink s e
  exact ⟨s', htaken⟩

theorem replicas_deliver (s : σ) (emissions : List Emission) :
    replicas (sink.deliver s emissions).1 = emissions.foldl Replicas.receive (replicas s) := by
  induction emissions generalizing s with
  | nil => rfl
  | cons e rest ih =>
    obtain ⟨s', htaken, hreceived⟩ := hsink s e
    simp only [Sink.deliver, htaken, List.foldl_cons]
    rw [ih s', hreceived]

/-- The replicas after a run are made by the events of the frames that were taken. -/
theorem replicas_handleAll (f : Feed) (s : σ) (arrivals : List Arrival) :
    replicas (Feed.handleAll sink f s arrivals).2 =
      ((f.history arrivals).flatMap (·.emissions)).foldl Replicas.receive (replicas s) := by
  induction arrivals generalizing f s with
  | nil => rfl
  | cons a rest ih =>
    rw [Feed.handleAll, ih, result_feed]
    rcases arrival_cases f a with
      ⟨-, hnone, e, hhandle⟩ | ⟨frame, emissions, -, hsome, hhandle, -⟩
    · have hresult := (handleWith_of_error hhandle sink s).1
      simp [Turn.result, hresult, history, hnone]
    · have hresult := (handleWith_of_ok hhandle sink s).1
      simp [Turn.result, hresult, history, hsome, hsink.replicas_deliver]

end Sink.Follows

theorem foldl_receive_trades (r : Replicas) (trades : List Trade) :
    (trades.map Emission.trade).foldl Replicas.receive r = r := by
  induction trades with
  | nil => rfl
  | cons t rest ih => exact ih

/-- Every book of a feed is also the replica of its symbol. -/
def Mirrored (books : Store) (r : Replicas) : Prop :=
  ∀ symbol book, books.find? symbol = some book → r symbol = some book

/-- Whether there is a new book of a symbol among events. -/
def Opened (symbol : String) (emissions : List Emission) : Prop :=
  ∃ book change, .book book change ∈ emissions ∧ change.symbol = symbol ∧ change.isSnapshot = true

theorem Opened.append {symbol : String} {emissions : List Emission} (h : Opened symbol emissions)
    (more : List Emission) : Opened symbol (emissions ++ more) := by
  obtain ⟨book, change, hmem, hopened⟩ := h
  exact ⟨book, change, List.mem_append_left more hmem, hopened⟩

theorem Takes.mirrored {f f' : Feed} {receipt : UInt64} {frame : Frame}
    {emissions : List Emission} {r : Replicas} (h : f.Takes receipt frame f' emissions)
    (hmirrored : Mirrored f.books r) :
    Mirrored f'.books (emissions.foldl Replicas.receive r) := by
  cases h with
  | ticker frame name hnext hname => exact hmirrored
  | snapshot frame name book hnext hname hbook =>
    intro symbol found hfound
    rw [Table.find?_insert] at hfound
    by_cases heq : symbol = name
    · simpa [Replicas.receive, BookChange.snapshot, heq] using hfound
    · rw [if_neg heq] at hfound
      simpa [Replicas.receive, BookChange.snapshot, heq] using hmirrored symbol found hfound
  | update frame name old hnext hname hold =>
    intro symbol found hfound
    rw [Table.find?_insert] at hfound
    by_cases heq : symbol = name
    · have hreplica := hmirrored name old hold
      simpa [Replicas.receive, BookChange.incremental, heq, hreplica, Book.replay_ofChanges]
        using hfound
    · rw [if_neg heq] at hfound
      simpa [Replicas.receive, BookChange.incremental, heq] using hmirrored symbol found hfound
  | trades frame name hnext hname =>
    have hsame := foldl_receive_trades r (frame.trades.map fun t =>
      { symbol := name, taker := t.taker, price := t.price, amount := t.amount, id := t.id,
        timestamp := t.timestamp, receipt })
    rw [List.map_map] at hsame
    exact hsame.symm ▸ hmirrored
  | answer frame hanswer => exact hmirrored

/-- A book that a frame leaves in the store was there before, or the frame published it. -/
theorem Takes.opened {f f' : Feed} {receipt : UInt64} {frame : Frame}
    {emissions : List Emission} (h : f.Takes receipt frame f' emissions) {symbol : String}
    (hbook : f'.books.find? symbol ≠ none) :
    f.books.find? symbol ≠ none ∨ Opened symbol emissions := by
  cases h with
  | ticker frame name hnext hname => exact Or.inl hbook
  | snapshot frame name book hnext hname hmade =>
    by_cases heq : symbol = name
    · exact Or.inr ⟨book, _, List.mem_singleton_self _, heq.symm, rfl⟩
    · rw [Table.find?_insert, if_neg heq] at hbook
      exact Or.inl hbook
  | update frame name old hnext hname hold =>
    by_cases heq : symbol = name
    · left
      rw [heq, hold]
      simp
    · rw [Table.find?_insert, if_neg heq] at hbook
      exact Or.inl hbook
  | trades frame name hnext hname => exact Or.inl hbook
  | answer frame hanswer => exact Or.inl hbook

/-- An event about a book is the only one of its frame, and is about the book in the store. A change
is published only of a book that was there before. -/
theorem Takes.book_event {f f' : Feed} {receipt : UInt64} {frame : Frame}
    {emissions : List Emission} {book : Book} {change : BookChange}
    (h : f.Takes receipt frame f' emissions) (hmem : .book book change ∈ emissions) :
    emissions = [.book book change] ∧ f'.books.find? change.symbol = some book ∧
      (change.isSnapshot = false → f.books.find? change.symbol ≠ none) := by
  cases h with
  | ticker frame name hnext hname => simp at hmem
  | snapshot frame name made hnext hname hmade =>
    cases List.mem_singleton.mp hmem
    refine ⟨rfl, ?_, ?_⟩
    · simp [BookChange.snapshot]
    · intro hchange
      cases hchange
  | update frame name old hnext hname hold =>
    cases List.mem_singleton.mp hmem
    refine ⟨rfl, ?_, ?_⟩
    · simp [BookChange.incremental]
    · intro _
      simp [BookChange.incremental, hold]
  | trades frame name hnext hname => simp at hmem
  | answer frame hanswer => simp at hmem

/-- Through a session every book of the feed is mirrored and has been opened. -/
theorem mirrored_history (f : Feed) (r : Replicas) (arrivals : List Arrival) :
    let published := (f.beginSession.history arrivals).flatMap (·.emissions)
    let books := (f.beginSession.afterAll arrivals).books
    Mirrored books (published.foldl Replicas.receive r) ∧
      ∀ symbol, books.find? symbol ≠ none → Opened symbol published := by
  refine history_induction f.beginSession
    (motive := fun past g =>
      Mirrored g.books ((past.flatMap (·.emissions)).foldl Replicas.receive r) ∧
        ∀ symbol, g.books.find? symbol ≠ none → Opened symbol (past.flatMap (·.emissions)))
    ⟨?_, ?_⟩ ?_ arrivals
  · intro symbol book hbook
    cases hbook
  · intro symbol hbook
    exact absurd rfl hbook
  · rintro past g receipt frame g' emissions ⟨hmirrored, hopened⟩ htakes
    rw [List.flatMap_append, List.flatMap_singleton]
    constructor
    · rw [List.foldl_append]
      exact htakes.mirrored hmirrored
    · intro symbol hbook
      rcases htakes.opened hbook with hbefore | ⟨book, change, hmem, hsnapshot⟩
      · exact (hopened symbol hbefore).append emissions
      · exact ⟨book, change, List.mem_append_right _ hmem, hsnapshot⟩

/-- At every event about a book, in any session after any number of others, the replica of a
consumer that follows, the book of the event and the feed's own book are equal. A change comes only
after a new book of its symbol in the same session. -/
theorem replicas_converge (sink : Sink σ) (replicas : σ → Replicas)
    (hsink : sink.Follows replicas) (f : Feed) (s : σ) (past : List (List Arrival))
    (arrivals : List Arrival) (a : Arrival) (before rest : List Emission) (book : Book)
    (change : BookChange) :
    let start := sessions sink f s past
    let now := handleAll sink start.1.beginSession start.2 arrivals
    now.1.offered sink now.2 a.raw a.receipt = before ++ .book book change :: rest →
      replicas (sink.deliver now.2 (before ++ [.book book change])).1 change.symbol = some book ∧
      (now.1.handleWith sink now.2 a.raw a.receipt).1.books.find? change.symbol = some book ∧
      (change.isSnapshot = false → Opened change.symbol
        (received sink start.1.beginSession start.2 arrivals ++ before)) := by
  intro start now hoffered
  obtain ⟨hmirrored, hopened⟩ := mirrored_history start.1 (replicas start.2) arrivals
  have hfeed : now.1 = start.1.beginSession.afterAll arrivals :=
    handleAll_feed sink start.1.beginSession start.2 arrivals
  have hreplicas := hsink.replicas_handleAll start.1.beginSession start.2 arrivals
  rw [← hreplicas, ← hfeed] at hmirrored
  rw [← hfeed, ← received_eq hsink.takesAll start.1.beginSession start.2 arrivals] at hopened
  rcases arrival_cases now.1 a with
    ⟨-, -, e, hhandle⟩ | ⟨frame, emissions, -, -, hhandle, htakes⟩
  · rw [(handleWith_of_error hhandle sink now.2).2] at hoffered
    simp at hoffered
  · obtain ⟨hwith, hevents⟩ := handleWith_of_ok hhandle sink now.2
    rw [hoffered, hsink.takesAll.offered_eq] at hevents
    obtain ⟨hsingle, hstored, hchange⟩ :=
      htakes.book_event (hevents ▸ List.mem_append_right before (List.mem_cons_self ..))
    have hfirst : before = [] := by
      rw [hsingle] at hevents
      rcases List.append_eq_singleton_iff.mp hevents with ⟨hnone, -⟩ | ⟨-, hnone⟩
      · exact hnone
      · cases hnone
    refine ⟨?_, ?_, ?_⟩
    · rw [hfirst, List.nil_append, ← hsingle, hsink.replicas_deliver]
      exact htakes.mirrored hmirrored change.symbol book hstored
    · rw [hwith]
      exact hstored
    · intro hincremental
      exact (hopened change.symbol (hchange hincremental)).append before

def resized : Book where
  symbol := "BTC-USD"
  bids := [⟨decimal 1 0, decimal 2 0⟩]

def resizedChange : BookChange := .incremental "BTC-USD" (Delta.ofChanges resizingFrame.changes) 3 3

/-- A change in a second session, after a new book there. -/
theorem replicas_converge_resizing :
    let start := sessions replicaSink midway (fun _ => none) [[⟨opening, 1⟩]]
    let now := handleAll replicaSink start.1.beginSession start.2 [⟨opening, 2⟩]
    now.1.offered replicaSink now.2 resizing 3 = [.book resized resizedChange] ∧
    (replicaSink.deliver now.2 [.book resized resizedChange]).1 "BTC-USD" = some resized ∧
    Opened "BTC-USD" (received replicaSink start.1.beginSession start.2 [⟨opening, 2⟩]) := by
  intro start now
  have hoffered : now.1.offered replicaSink now.2 resizing 3 =
      [] ++ .book resized resizedChange :: [] := by cbv
  obtain ⟨hreplica, -, hopened⟩ := replicas_converge replicaSink id replicaSink_follows midway
    (fun _ => none) [[⟨opening, 1⟩]] [⟨opening, 2⟩] ⟨resizing, 3⟩ [] [] resized resizedChange
    hoffered
  refine ⟨hoffered, hreplica, ?_⟩
  rw [← List.append_nil (received replicaSink _ _ _)]
  exact hopened rfl

end MarketFeed.Feed
