import Mathlib
import MarketFeed.Proofs.BookHistory

/-!
The events of a run, read off the frames that were accepted in it. Each accepted frame stands for
events of its own: one for best prices, one for a book or a change of one, one for each execution.
A sink receives these and no others, in the order in which the frames came. Where it refuses an
event, it has taken all events before that one, and those after it never reach it.
-/
namespace MarketFeed.Feed

open Market

variable {σ : Type}

/-- The events that a frame stands for, under the standard name of its symbol. -/
def Frame.events (symbol : String) (receipt : UInt64) : Frame → List Event
  | .ticker frame =>
    [.ticker { symbol, bid := frame.bid, ask := frame.ask, timestamp := frame.timestamp, receipt }]
  | .snapshot frame =>
    [.book { symbol, isSnapshot := true, delta := none,
             timestamp := frame.timestamp.getD receipt, receipt }]
  | .update frame =>
    [.book { symbol, isSnapshot := false, delta := some { bid := frame.bid, ask := frame.ask },
             timestamp := frame.timestamp.getD receipt, receipt }]
  | .trades frame =>
    frame.trades.map fun t =>
      .trade { symbol, taker := t.taker, price := t.price, amount := t.amount, id := t.id,
               timestamp := t.timestamp, receipt }
  | .result _ | .serverError _ | .unrecognized _ => []

/-- The events of a frame whose symbol a table resolves; an answer to a request has none. -/
def Frame.published (symbols : SymbolTable) (receipt : UInt64) (frame : Frame) : List Event :=
  match frame.subject? with
  | none => []
  | some (exchange, _) =>
    match symbols.nameFor exchange frame with
    | .ok symbol => frame.events symbol receipt
    | .error _ => []

/-- The events of the frame of a turn, if the frame is accepted. -/
def Turn.published (sink : Sink σ) (t : Turn σ) : List Event :=
  if t.Accepted sink then
    match Frame.decode t.arrival.raw with
    | .ok frame => frame.published t.feed.symbols t.arrival.receipt
    | .error _ => []
  else []

/-- The events that reach the sink in a turn. -/
def Turn.offered (sink : Sink σ) (t : Turn σ) : List Emission :=
  t.feed.offered sink t.kept t.arrival.raw t.arrival.receipt

/-- What becomes of the events of a turn: there are none, the sink takes them all, or it takes those
before the one that it refuses, and the answer is its refusal. -/
inductive Turn.Delivers (sink : Sink σ) (t : Turn σ) : Prop
  | refused (hrefused : ¬ t.Accepted sink) (hnone : t.offered sink = [])
      (hkept : (t.result sink).2.1 = t.kept)
  | whole (haccepted : t.Accepted sink)
      (hall : (t.offered sink).map Emission.event = t.published sink)
      (htaken : sink.deliver t.kept (t.offered sink) = ((t.result sink).2.1, .ok ()))
      (hanswer : (t.result sink).2.2 = .ok ())
  | cut (before : List Emission) (e : Emission) (rest : List Event) (error : Error)
      (haccepted : t.Accepted sink)
      (hsplit : t.published sink = before.map Emission.event ++ e.event :: rest)
      (hoffered : t.offered sink = before ++ [e])
      (htaken : sink.deliver t.kept before = ((t.result sink).2.1, .ok ()))
      (herror : sink (t.result sink).2.1 e = .error error)
      (hanswer : (t.result sink).2.2 = .error error)

/-- A feed publishes the events that the frame it took stands for. -/
theorem Takes.events_eq {f f' : Feed} {receipt : UInt64} {frame : Frame}
    {emissions : List Emission} (h : f.Takes receipt frame f' emissions) :
    emissions.map Emission.event = frame.published f.symbols receipt := by
  cases h with
  | ticker frame symbol hnext hsymbol =>
    simp only [Frame.published, Frame.subject?, SymbolTable.nameFor, hsymbol]
    rfl
  | snapshot frame symbol book hnext hsymbol hbook =>
    simp only [Frame.published, Frame.subject?, SymbolTable.nameFor, hsymbol]
    rfl
  | update frame symbol old hnext hsymbol hold =>
    have hdelta : Delta.ofChanges frame.changes = { bid := frame.bid, ask := frame.ask } :=
      Delta.ofChanges_changes { bid := frame.bid, ask := frame.ask }
    simp only [Frame.published, Frame.subject?, SymbolTable.nameFor, hsymbol, hdelta]
    rfl
  | trades frame symbol hnext hsymbol =>
    simp only [Frame.published, Frame.subject?, SymbolTable.nameFor, hsymbol, List.map_map]
    rfl
  | answer frame hanswer =>
    simp only [Frame.published, hanswer, List.map_nil]

/-- A sink takes all events it is handed, or those before the first that it refuses. -/
theorem Sink.deliver_cases (sink : Sink σ) (s : σ) (emissions : List Emission) :
    ((sink.deliver s emissions).2 = .ok () ∧ sink.offered s emissions = emissions) ∨
    ∃ before e rest error, emissions = before ++ e :: rest ∧
      sink.offered s emissions = before ++ [e] ∧
      sink.deliver s before = ((sink.deliver s emissions).1, .ok ()) ∧
      sink (sink.deliver s emissions).1 e = .error error ∧
      (sink.deliver s emissions).2 = .error error := by
  induction emissions generalizing s with
  | nil => exact Or.inl ⟨rfl, rfl⟩
  | cons e rest ih =>
    cases htaken : sink s e with
    | error error =>
      refine Or.inr ⟨[], e, rest, error, rfl, ?_, ?_, ?_, ?_⟩
      · simp only [Sink.offered, htaken, List.nil_append]
      · simp only [Sink.deliver, htaken]
      · simp only [Sink.deliver, htaken]
      · simp only [Sink.deliver, htaken]
    | ok s' =>
      have hdeliver : sink.deliver s (e :: rest) = sink.deliver s' rest := by
        simp only [Sink.deliver, htaken]
      have hoffered : sink.offered s (e :: rest) = e :: sink.offered s' rest := by
        simp only [Sink.offered, htaken]
      rw [hdeliver, hoffered]
      rcases ih s' with
        ⟨hok, hall⟩ | ⟨before, e', rest', error, hsplit, hcut, hbefore, herror, hanswer⟩
      · exact Or.inl ⟨hok, by rw [hall]⟩
      · refine Or.inr ⟨e :: before, e', rest', error, ?_, ?_, ?_, herror, hanswer⟩
        · rw [hsplit, List.cons_append]
        · rw [hcut, List.cons_append]
        · simp only [Sink.deliver, htaken, hbefore]

theorem Turn.published_of_taken (sink : Sink σ) {t : Turn σ} {frame : Frame}
    {emissions : List Emission} (hread : Frame.decode t.arrival.raw = .ok frame)
    (hsome : t.feed.taken? t.arrival = some ⟨frame, emissions⟩)
    (htakes : t.feed.Takes t.arrival.receipt frame (t.feed.after t.arrival) emissions) :
    t.Accepted sink ∧ t.published sink = emissions.map Emission.event := by
  have haccepted : t.Accepted sink := (Turn.accepted_iff sink t).mpr (by simp [hsome])
  refine ⟨haccepted, ?_⟩
  simp only [Turn.published, if_pos haccepted, hread]
  exact htakes.events_eq.symm

theorem Turn.delivers (sink : Sink σ) (t : Turn σ) : t.Delivers sink := by
  rcases arrival_cases t.feed t.arrival with
    ⟨-, hnone, e, hhandle⟩ | ⟨frame, emissions, hread, hsome, hhandle, htakes⟩
  · obtain ⟨hresult, hoffered⟩ := handleWith_of_error hhandle sink t.kept
    refine .refused ?_ hoffered ?_
    · simp [Turn.accepted_iff, hnone]
    · rw [Turn.result, hresult]
  · obtain ⟨haccepted, hpublished⟩ := Turn.published_of_taken sink hread hsome htakes
    obtain ⟨hresult, hoffered⟩ := handleWith_of_ok hhandle sink t.kept
    have hresult : (t.result sink).2 = sink.deliver t.kept emissions := by
      rw [Turn.result, hresult]
    have hoffered : t.offered sink = sink.offered t.kept emissions := hoffered
    rcases Sink.deliver_cases sink t.kept emissions with
      ⟨hok, hall⟩ | ⟨before, e, rest, error, hsplit, hcut, hbefore, herror, hanswer⟩
    · rw [hall] at hoffered
      refine .whole haccepted ?_ ?_ ?_
      · rw [hoffered, hpublished]
      · rw [hoffered, hresult, ← hok]
      · rw [hresult, hok]
    · rw [← hresult] at hbefore herror hanswer
      refine .cut before e (rest.map Emission.event) error haccepted ?_ ?_ hbefore herror hanswer
      · rw [hpublished, hsplit, List.map_append, List.map_cons]
      · rw [hoffered, hcut]

/-- The events that reach a sink in a run in which it refuses none are those of the accepted frames,
one frame after another. In any turn, whatever the feed and the sink are like, the events of an
accepted frame are taken in their order, all of them or all before the one that is refused; the
answer is then the sink's own error, and nothing after that event reaches it. -/
theorem events_published (sink : Sink σ) (f : Feed) (s : σ) (arrivals : List Arrival) :
    ((∀ t ∈ turns sink f s arrivals, t.Accepted sink → (t.result sink).2.2 = .ok ()) →
      (received sink f s arrivals).map Emission.event =
        (turns sink f s arrivals).flatMap (Turn.published sink)) ∧
    ∀ t : Turn σ, t.Delivers sink := by
  refine ⟨fun hclean => ?_, Turn.delivers sink⟩
  rw [received, List.map_flatMap]
  refine List.flatMap_congr fun t ht => ?_
  cases Turn.delivers sink t with
  | refused hrefused hnone hkept =>
    have hpublished : t.published sink = [] := if_neg hrefused
    rw [hpublished]
    exact congrArg (List.map Emission.event) hnone
  | whole haccepted hall htaken hanswer => exact hall
  | cut before e rest error haccepted hsplit hoffered htaken herror hanswer =>
    rw [hclean t ht haccepted] at hanswer
    cases hanswer

/-- A sink that refuses nothing refuses no event of an accepted frame. -/
theorem Sink.TakesAll.answer_of_accepted {sink : Sink σ} (hsink : sink.TakesAll) {t : Turn σ}
    (haccepted : t.Accepted sink) : (t.result sink).2.2 = .ok () := by
  rcases haccepted with hok | ⟨emissions, e, -, hfail⟩
  · cases hanswer : (t.result sink).2.2 with
    | ok _ => rfl
    | error e =>
      rw [hanswer] at hok
      cases hok
  · rw [hsink.deliver_eq_ok t.kept emissions] at hfail
    cases hfail

/-- Two executions of different times. -/
def executions : String :=
  "\x7b\"method\":\"updateTrades\",\"params\":\x7b\"symbol\":\"BTCUSD\",\"data\":[" ++
  "\x7b\"id\":7,\"price\":\"1\",\"quantity\":\"2\",\"side\":\"buy\"," ++
  "\"timestamp\":\"1970-01-01T00:00:01Z\"\x7d," ++
  "\x7b\"id\":\"8\",\"price\":\"1.0\",\"quantity\":\"3\",\"side\":\"sell\"," ++
  "\"timestamp\":\"1970-01-01T00:00:02Z\"\x7d]\x7d\x7d"

/-- A new book, a change of it, a frame that cannot be read, and two executions. -/
theorem events_published_executions :
    (received logSink midway.beginSession []
        [⟨opening, 1⟩, ⟨resizing, 2⟩, ⟨"", 3⟩, ⟨executions, 4⟩]).map Emission.event =
      [.book { symbol := "BTC-USD", isSnapshot := true, delta := none, timestamp := 1,
               receipt := 1 },
       .book { symbol := "BTC-USD", isSnapshot := false, timestamp := 2, receipt := 2,
               delta := some { bid := [⟨decimal 10 1, decimal 2 0⟩], ask := [] } },
       .trade { symbol := "BTC-USD", taker := .buy, price := decimal 1 0, amount := decimal 2 0,
                id := "7", timestamp := 1000000000, receipt := 4 },
       .trade { symbol := "BTC-USD", taker := .sell, price := decimal 10 1,
                amount := decimal 3 0, id := "8", timestamp := 2000000000, receipt := 4 }] := by
  obtain ⟨hreceived, -⟩ := events_published logSink midway.beginSession []
    [⟨opening, 1⟩, ⟨resizing, 2⟩, ⟨"", 3⟩, ⟨executions, 4⟩]
  refine (hreceived fun t _ haccepted => logSink_takesAll.answer_of_accepted haccepted).trans ?_
  cbv

end MarketFeed.Feed
