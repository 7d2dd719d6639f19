import Mathlib
import MarketFeed.Proofs.Handling

/-!
A frame that is refused leaves no trace. Whatever state a feed is in, an error that is no failure of
the sink stands for a frame that changed neither the numbers nor the books and of which no event
reached the sink, and so does success with an answer to a request.
-/
namespace MarketFeed.Feed

open Market

variable {σ : Type}

/-- The events that reach a sink: those it takes, and the first that it refuses. -/
def Sink.offered (sink : Sink σ) : σ → List Emission → List Emission
  | _, [] => []
  | s, e :: rest =>
    match sink s e with
    | .ok s => e :: sink.offered s rest
    | .error _ => [e]

/-- The events of a raw frame that reach the sink. -/
def offered (sink : Sink σ) (f : Feed) (s : σ) (raw : String) (receipt : UInt64) :
    List Emission :=
  match f.handle raw receipt with
  | (_, .error _) => []
  | (_, .ok emissions) => sink.offered s emissions

/-- A sink that refuses events only because it is closed. -/
def Sink.FailsClosed (sink : Sink σ) : Prop :=
  ∀ s e error, sink s e = .error error → ∃ reason, error = .sinkClosed reason

theorem Sink.FailsClosed.sinkClosed_of_deliver {sink : Sink σ} (hsink : sink.FailsClosed) (s : σ)
    (emissions : List Emission) (error : Error)
    (h : (sink.deliver s emissions).2 = .error error) : ∃ reason, error = .sinkClosed reason := by
  induction emissions generalizing s with
  | nil => cases h
  | cons e rest ih =>
    cases htaken : sink s e with
    | ok s' =>
      simp only [Sink.deliver, htaken] at h
      exact ih s' h
    | error error' =>
      simp only [Sink.deliver, htaken] at h
      cases h
      exact hsink s e _ htaken

theorem Queue.sink_failsClosed : Queue.sink.FailsClosed := by
  intro q e error h
  unfold Queue.sink at h
  split at h
  · cases h
  · cases h
    exact ⟨_, rfl⟩

theorem handleWith_of_error {f f' : Feed} {raw : String} {receipt : UInt64} {e : Error}
    (h : f.handle raw receipt = (f', .error e)) (sink : Sink σ) (s : σ) :
    f.handleWith sink s raw receipt = (f', s, .error e) ∧ f.offered sink s raw receipt = [] := by
  constructor
  · simp only [handleWith, h]
  · simp only [offered, h]

theorem handleWith_of_ok {f f' : Feed} {raw : String} {receipt : UInt64}
    {emissions : List Emission} (h : f.handle raw receipt = (f', .ok emissions)) (sink : Sink σ)
    (s : σ) : f.handleWith sink s raw receipt = (f', sink.deliver s emissions) ∧
      f.offered sink s raw receipt = sink.offered s emissions := by
  constructor
  · simp only [handleWith, h]
  · simp only [offered, h]

theorem books_of_confirm {f f' : Feed} {symbol : String} {sequence : Option UInt64}
    (h : f.confirm symbol sequence = .ok f') : f'.books = f.books := by
  cases sequence with
  | none =>
    cases h
    rfl
  | some n =>
    cases hguard : f.guard.observe symbol n with
    | error e =>
      simp only [confirm, hguard] at h
      cases h
    | ok guard =>
      simp only [confirm, hguard] at h
      cases h
      rfl

/-- An error is the refusal of the frame, which then changed nothing, or the sink is closed. An
answer to a request changes nothing either. A change of a book that had one when the number of the
frame was kept still finds it. -/
theorem refusal_changes_nothing (sink : Sink σ) (hsink : sink.FailsClosed) (f : Feed) (s : σ)
    (raw : String) (receipt : UInt64) :
    (∀ e, (f.handleWith sink s raw receipt).2.2 = .error e →
      (e.isRefusal = true ∧ f.handleWith sink s raw receipt = (f, s, .error e) ∧
        f.offered sink s raw receipt = []) ∨
      ∃ reason, e = .sinkClosed reason) ∧
    (∀ frame, Frame.decode raw = .ok frame → frame.subject? = none →
      f.handleWith sink s raw receipt = (f, s, .ok ()) ∧ f.offered sink s raw receipt = []) ∧
    ∀ (frame : BookFrame) (symbol : String) (f' : Feed),
      f.symbols.resolve frame.symbol = .ok symbol → f.books.contains symbol = true →
      f.confirm frame.symbol frame.sequence = .ok f' →
      (f'.books.update symbol frame.changes).isSome = true := by
  refine ⟨?_, ?_, ?_⟩
  · intro e he
    cases hhandle : f.handle raw receipt with
    | mk f' answer =>
      cases answer with
      | error e' =>
        obtain ⟨hwith, hoffered⟩ := handleWith_of_error hhandle sink s
        have hkind := isRefusal_of_handle hhandle
        obtain ⟨rfl, -⟩ := handle_eq_error_iff.mp hhandle
        rw [hwith] at he
        cases he
        exact Or.inl ⟨hkind, hwith, hoffered⟩
      | ok emissions =>
        rw [(handleWith_of_ok hhandle sink s).1] at he
        exact Or.inr (hsink.sinkClosed_of_deliver s emissions e he)
  · intro frame hread hanswer
    have htakes : f.Takes receipt frame f [] := .answer frame hanswer
    exact handleWith_of_ok (handle_of_takes hread htakes) sink s
  · intro frame symbol f' _ hcontains hconfirm
    obtain ⟨book, hbook⟩ := Option.isSome_iff_exists.mp hcontains
    rw [← books_of_confirm hconfirm] at hbook
    rw [Store.update_of_find? hbook]
    rfl

/-- A feed in the middle of a session: one known symbol, its last number and its book. -/
def midway : Feed where
  symbols := SymbolTable.ofPairs [("BTC-USD", "BTCUSD")]
  subscription := {}
  guard := Continuity.keep .empty "BTCUSD" (some 7)
  books := Table.empty.insert "BTC-USD" { symbol := "BTC-USD" }

/-- A change of a book that should carry the number 8. -/
def late : String :=
  "\x7b\"method\":\"updateOrderbook\",\"params\":\x7b\"symbol\":\"BTCUSD\",\"sequence\":9\x7d\x7d"

theorem late_gap :
    (midway.handleWith Queue.sink {} late 5).2.2 = .error (.gap "BTCUSD" 8 9) := by
  cbv

/-- A gap, an answer to a request, and a change of a book at a feed in the middle of a session. -/
theorem refusal_changes_nothing_midway :
    (midway.handleWith Queue.sink {} late 5 = (midway, {}, .error (.gap "BTCUSD" 8 9)) ∧
      midway.offered Queue.sink {} late 5 = []) ∧
    (midway.handleWith Queue.sink {} "\x7b\"result\":true\x7d" 5 = (midway, {}, .ok ()) ∧
      midway.offered Queue.sink {} "\x7b\"result\":true\x7d" 5 = []) ∧
    midway.confirm "BTCUSD" (some 8) = .ok (midway.keep "BTCUSD" (some 8)) ∧
      ((midway.keep "BTCUSD" (some 8)).books.update "BTC-USD" []).isSome = true := by
  have hanswer : Frame.decode "\x7b\"result\":true\x7d" =
      .ok (.result (.object [("result", .bool true)])) := by cbv
  have hconfirm : midway.confirm "BTCUSD" (some 8) = .ok (midway.keep "BTCUSD" (some 8)) := by
    rfl
  obtain ⟨hrefused, -, -⟩ :=
    refusal_changes_nothing Queue.sink Queue.sink_failsClosed midway {} late 5
  obtain ⟨-, hanswered, hfound⟩ := refusal_changes_nothing Queue.sink Queue.sink_failsClosed
    midway {} "\x7b\"result\":true\x7d" 5
  refine ⟨?_, hanswered _ hanswer rfl, hconfirm, ?_⟩
  · rcases hrefused _ late_gap with ⟨-, hwith, hoffered⟩ | ⟨reason, heq⟩
    · exact ⟨hwith, hoffered⟩
    · cases heq
  · exact hfound ⟨"BTCUSD", [], [], some 8, none⟩ "BTC-USD" _ (by cbv) (by cbv) hconfirm

end MarketFeed.Feed
