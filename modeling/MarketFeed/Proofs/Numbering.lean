import Mathlib
import MarketFeed.Proofs.History

/-!
The numbers of the frames that a feed accepts for one symbol of the exchange count up by one, zero
coming after the greatest, and the feed keeps the last of them. A frame that does not carry the next
number is refused as a gap, and one that carries it is not refused for its number again.
-/
namespace MarketFeed.Feed

variable {σ : Type}

/-- A feed that has forgotten all numbers. -/
def reset (f : Feed) : Feed := { f with guard := .empty }

/-- The number that a frame carries for a symbol of the exchange. -/
def Frame.numberFor (symbol : String) (frame : Frame) : Option UInt64 :=
  match frame.sequenced? with
  | some (s, n) => if s = symbol then some n else none
  | none => none

/-- Whether each number is one more than the one before it, modulo 2⁶⁴. -/
def CountsUp (numbers : List UInt64) : Prop :=
  ∃ first : UInt64, numbers = (List.range numbers.length).map fun i => first + UInt64.ofNat i

theorem countsUp_append_singleton {numbers : List UInt64} {n : UInt64} (h : CountsUp numbers)
    (hnext : ∀ last, numbers.getLast? = some last → last + 1 = n) :
    CountsUp (numbers ++ [n]) := by
  obtain ⟨first, hcount⟩ := h
  cases hlength : numbers.length with
  | zero =>
    have hempty : numbers = [] := List.length_eq_zero_iff.mp hlength
    subst hempty
    exact ⟨n, by simp⟩
  | succ k =>
    rw [hlength, List.range_succ, List.map_append] at hcount
    have hlast : numbers.getLast? = some (first + UInt64.ofNat k) := by simp [hcount]
    have hn : first + UInt64.ofNat (k + 1) = n := by
      rw [← hnext _ hlast, UInt64.ofNat_add, UInt64.add_assoc]
      rfl
    refine ⟨first, ?_⟩
    rw [List.length_append, hlength, List.length_singleton, List.range_succ, List.range_succ]
    simp only [List.map_append, List.map_cons, List.map_nil, hn]
    rw [hcount]
    simp

theorem Takes.guard_eq {f f' : Feed} {receipt : UInt64} {frame : Frame}
    {emissions : List Emission} (h : f.Takes receipt frame f' emissions) :
    f'.guard = match frame.subject? with
      | some (symbol, sequence) => f.guard.keep symbol sequence
      | none => f.guard := by
  cases h with
  | ticker frame symbol hnext hsymbol => rfl
  | snapshot frame symbol book hnext hsymbol hbook => rfl
  | update frame symbol old hnext hsymbol hold => rfl
  | trades frame symbol hnext hsymbol => rfl
  | answer frame hanswer => rw [hanswer]

theorem numberFor_eq_some_iff {symbol : String} {frame : Frame} {n : UInt64} :
    frame.numberFor symbol = some n ↔ frame.sequenced? = some (symbol, n) := by
  unfold Frame.numberFor
  cases frame.sequenced? with
  | none => simp
  | some number =>
    obtain ⟨s, m⟩ := number
    by_cases hs : s = symbol
    · simp [hs]
    · simp [hs]

/-- The number of a frame that is taken becomes its symbol's last; other symbols keep theirs. -/
theorem Takes.find?_guard {f f' : Feed} {receipt : UInt64} {frame : Frame}
    {emissions : List Emission} (h : f.Takes receipt frame f' emissions) (symbol : String) :
    f'.guard.find? symbol = (frame.numberFor symbol).or (f.guard.find? symbol) := by
  rw [h.guard_eq, Frame.numberFor, sequenced?_eq]
  cases frame.subject? with
  | none => rfl
  | some subject =>
    obtain ⟨s, sequence⟩ := subject
    simp only [Continuity.find?_keep]
    by_cases hs : symbol = s
    · subst hs
      cases sequence with
      | none => simp
      | some n => simp
    · have hs' : s ≠ symbol := Ne.symm hs
      cases sequence with
      | none => simp [hs]
      | some n => simp [hs, hs']

theorem Takes.number_next {f f' : Feed} {receipt : UInt64} {frame : Frame}
    {emissions : List Emission} (h : f.Takes receipt frame f' emissions) {symbol : String}
    {n last : UInt64} (hnumber : frame.numberFor symbol = some n)
    (hlast : f.guard.find? symbol = some last) : last + 1 = n := by
  have hcheck := h.checkFrame
  rw [Feed.checkFrame, numberFor_eq_some_iff.mp hnumber] at hcheck
  exact (Continuity.check_eq_ok_iff f.guard symbol n).mp hcheck last hlast

/-- The numbers of a history count up, and the feed keeps the last of them. -/
def Numbered (symbol : String) (past : List Taken) (f : Feed) : Prop :=
  CountsUp (past.filterMap fun t => t.frame.numberFor symbol) ∧
    f.guard.find? symbol = (past.filterMap fun t => t.frame.numberFor symbol).getLast?

theorem Numbered.step {symbol : String} {past : List Taken} {f f' : Feed} {receipt : UInt64}
    {frame : Frame} {emissions : List Emission} (h : Numbered symbol past f)
    (htakes : f.Takes receipt frame f' emissions) :
    Numbered symbol (past ++ [⟨frame, emissions⟩]) f' := by
  obtain ⟨hcount, hlast⟩ := h
  have hguard := htakes.find?_guard symbol
  rw [Numbered, List.filterMap_append]
  cases hnumber : frame.numberFor symbol with
  | none =>
    rw [hnumber, Option.none_or] at hguard
    simpa [hnumber, hguard] using And.intro hcount hlast
  | some n =>
    rw [hnumber, Option.some_or] at hguard
    have hnext : ∀ last, (past.filterMap fun t => t.frame.numberFor symbol).getLast? = some last →
        last + 1 = n := by
      intro last hl
      exact htakes.number_next hnumber (hlast.trans hl)
    have hnumbers : [(⟨frame, emissions⟩ : Taken)].filterMap
        (fun t => t.frame.numberFor symbol) = [n] := by simp [hnumber]
    rw [hnumbers]
    exact ⟨countsUp_append_singleton hcount hnext, by rw [hguard, List.getLast?_concat]⟩

theorem numbered_history (symbol : String) (f : Feed) (hstart : f.guard.find? symbol = none)
    (arrivals : List Arrival) : Numbered symbol (f.history arrivals) (f.afterAll arrivals) :=
  history_induction f ⟨⟨0, rfl⟩, hstart⟩
    (fun _ _ _ _ _ _ h htakes => h.step htakes) arrivals

/-- From a start without numbers, the numbers of the frames accepted for a symbol count up, whatever
else comes between them, and the last of them is the symbol's last number. A data frame with any
other number than the next is then refused as a gap, whatever its kind or name, and a number that
was checked is kept without another refusal. -/
theorem numbers_count_up (sink : Sink σ) (f : Feed) (s : σ) (arrivals : List Arrival)
    (symbol : String) :
    let numbers := (acceptedFrames sink f.reset s arrivals).filterMap (Frame.numberFor symbol)
    let now := handleAll sink f.reset s arrivals
    CountsUp numbers ∧ now.1.guard.find? symbol = numbers.getLast? ∧
    (∀ (a : Arrival) (frame : Frame) (n last : UInt64), Frame.decode a.raw = .ok frame →
      frame.sequenced? = some (symbol, n) → now.1.guard.find? symbol = some last → n ≠ last + 1 →
      now.1.handleWith sink now.2 a.raw a.receipt =
        (now.1, now.2, .error (.gap symbol (last + 1) n))) ∧
    ∀ (frame : Frame) (exchange : String) (sequence : Option UInt64),
      frame.subject? = some (exchange, sequence) → now.1.checkFrame frame = .ok () →
      now.1.confirm exchange sequence = .ok (now.1.keep exchange sequence) := by
  intro numbers now
  have hnumbers :
      numbers = (f.reset.history arrivals).filterMap fun t => t.frame.numberFor symbol := by
    simp only [numbers, acceptedFrames_eq, List.filterMap_map]
    rfl
  have hnow : now.1 = f.reset.afterAll arrivals := handleAll_feed sink f.reset s arrivals
  obtain ⟨hcount, hlast⟩ := numbered_history symbol f.reset rfl arrivals
  rw [← hnumbers] at hcount hlast
  rw [← hnow] at hlast
  refine ⟨hcount, hlast, ?_, ?_⟩
  · intro a frame n last hread hnumber hkept hne
    have hrefuses : now.1.Refuses frame (.gap symbol (last + 1) n) :=
      .gap frame symbol n last hnumber hkept (Ne.symm hne)
    exact (handleWith_of_error (handle_of_refuses a.receipt hread hrefuses) sink now.2).1
  · intro frame exchange sequence hsubject hcheck
    exact confirm_of_allows ((checkFrame_eq_ok_iff hsubject).mp hcheck)

/-- Executions, of which there are none, with the number 7. -/
def seventh : String :=
  "\x7b\"method\":\"updateTrades\",\"params\":\x7b\"symbol\":\"BTCUSD\"," ++
  "\"sequence\":7,\"data\":[]\x7d\x7d"

/-- A gap right after the first number of a symbol. -/
theorem numbers_count_up_seventh :
    let now := handleAll Queue.sink midway.reset {} [⟨seventh, 3⟩]
    now.1.guard.find? "BTCUSD" = some 7 ∧
    now.1.handleWith Queue.sink now.2 late 5 =
      (now.1, now.2, .error (.gap "BTCUSD" (7 + 1) 9)) ∧
    now.1.confirm "BTCUSD" (some 8) = .ok (now.1.keep "BTCUSD" (some 8)) := by
  have hkept : (handleAll Queue.sink midway.reset {} [⟨seventh, 3⟩]).1.guard.find? "BTCUSD" =
      some 7 := by cbv
  have hcheck : (handleAll Queue.sink midway.reset {} [⟨seventh, 3⟩]).1.checkFrame
      (.trades ⟨"BTCUSD", [], some 8⟩) = .ok () := by cbv
  have hread : Frame.decode late = .ok (.update ⟨"BTCUSD", [], [], some 9, none⟩) := by cbv
  obtain ⟨-, -, hgap, hconfirm⟩ :=
    numbers_count_up Queue.sink midway {} [⟨seventh, 3⟩] "BTCUSD"
  refine ⟨hkept, ?_, ?_⟩
  · exact hgap ⟨late, 5⟩ _ 9 7 hread rfl hkept (by decide)
  · exact hconfirm _ "BTCUSD" (some 8) rfl hcheck

end MarketFeed.Feed
