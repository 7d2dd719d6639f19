import MarketFeed.Feed.Basic
import MarketFeed.Proofs.Decoding

/-!
What one raw frame does to a feed, said once. `Takes` lists what a feed does with a frame that it
takes, one case for each kind, and `Refuses` why it refuses one; `handle_eq_ok_iff` and
`handle_eq_error_iff` say that handling does exactly this. A frame that is refused changes nothing,
and the number of a frame that was checked is never refused again when it is kept.
-/
namespace MarketFeed.Feed

open Market

/-- The exchange's symbol of a data frame, and its number if it has one. -/
def Frame.subject? : Frame → Option (String × Option UInt64)
  | .ticker frame => some (frame.symbol, frame.sequence)
  | .snapshot frame | .update frame => some (frame.symbol, frame.sequence)
  | .trades frame => some (frame.symbol, frame.sequence)
  | .result _ | .serverError _ | .unrecognized _ => none

/-- The standard name under which a data frame is handled. Only a snapshot needs a known one. -/
def SymbolTable.nameFor (t : SymbolTable) (symbol : String) : Frame → Except Error String
  | .snapshot _ => t.standardSymbol symbol
  | _ => t.resolve symbol

/-- A feed after it kept the number of a frame. -/
def keep (f : Feed) (symbol : String) (sequence : Option UInt64) : Feed :=
  { f with guard := f.guard.keep symbol sequence }

/-- What a feed does with a frame that it takes: the feed after it, and the events it publishes. -/
inductive Takes (f : Feed) (receipt : UInt64) : Frame → Feed → List Emission → Prop
  | ticker (frame : TickerFrame) (symbol : String)
      (hnext : f.guard.Allows frame.symbol frame.sequence)
      (hsymbol : f.symbols.resolve frame.symbol = .ok symbol) :
      Takes f receipt (.ticker frame) (f.keep frame.symbol frame.sequence)
        [.ticker { symbol, bid := frame.bid, ask := frame.ask, timestamp := frame.timestamp,
                   receipt }]
  | snapshot (frame : BookFrame) (symbol : String) (book : Book)
      (hnext : f.guard.Allows frame.symbol frame.sequence)
      (hsymbol : f.symbols.standardSymbol frame.symbol = .ok symbol)
      (hbook : book = ((f.books.find? symbol).getD { symbol }).replace frame.bid frame.ask) :
      Takes f receipt (.snapshot frame)
        { f.keep frame.symbol frame.sequence with books := f.books.insert symbol book }
        [.book book (.snapshot symbol (frame.timestamp.getD receipt) receipt)]
  | update (frame : BookFrame) (symbol : String) (old : Book)
      (hnext : f.guard.Allows frame.symbol frame.sequence)
      (hsymbol : f.symbols.resolve frame.symbol = .ok symbol)
      (hold : f.books.find? symbol = some old) :
      Takes f receipt (.update frame)
        { f.keep frame.symbol frame.sequence with
          books := f.books.insert symbol (old.applyAll frame.changes) }
        [.book (old.applyAll frame.changes)
          (.incremental symbol (Delta.ofChanges frame.changes) (frame.timestamp.getD receipt)
            receipt)]
  | trades (frame : TradesFrame) (symbol : String)
      (hnext : f.guard.Allows frame.symbol frame.sequence)
      (hsymbol : f.symbols.resolve frame.symbol = .ok symbol) :
      Takes f receipt (.trades frame) (f.keep frame.symbol frame.sequence)
        (frame.trades.map fun t =>
          .trade { symbol, taker := t.taker, price := t.price, amount := t.amount, id := t.id,
                   timestamp := t.timestamp, receipt })
  | answer (frame : Frame) (hanswer : frame.subject? = none) : Takes f receipt frame f []

/-- Why a feed refuses a frame that it could read. -/
inductive Refuses (f : Feed) : Frame → Error → Prop
  | gap (frame : Frame) (symbol : String) (n last : UInt64)
      (hnumber : frame.sequenced? = some (symbol, n))
      (hlast : f.guard.find? symbol = some last) (hgap : last + 1 ≠ n) :
      Refuses f frame (.gap symbol (last + 1) n)
  | unknown (frame : Frame) (symbol : String) (sequence : Option UInt64) (e : Error)
      (hsubject : frame.subject? = some (symbol, sequence))
      (hnext : f.guard.Allows symbol sequence)
      (hsymbol : f.symbols.nameFor symbol frame = .error e) : Refuses f frame e
  | missing (frame : BookFrame) (symbol : String)
      (hnext : f.guard.Allows frame.symbol frame.sequence)
      (hsymbol : f.symbols.resolve frame.symbol = .ok symbol)
      (hbook : f.books.find? symbol = none) : Refuses f (.update frame) (.missingSnapshot symbol)

theorem sequenced?_eq (frame : Frame) :
    frame.sequenced? = frame.subject?.bind fun s => s.2.map (s.1, ·) := by
  cases frame <;> rfl

/-- A checked number is never refused when it is kept. -/
theorem confirm_of_allows {f : Feed} {symbol : String} {sequence : Option UInt64}
    (h : f.guard.Allows symbol sequence) :
    f.confirm symbol sequence = .ok (f.keep symbol sequence) := by
  cases sequence with
  | none => rfl
  | some n =>
    simp only [confirm, Continuity.observe_of_check f.guard symbol (h n rfl)]
    rfl

theorem checkFrame_eq_ok_iff {f : Feed} {frame : Frame} {symbol : String}
    {sequence : Option UInt64} (hsubject : frame.subject? = some (symbol, sequence)) :
    f.checkFrame frame = .ok () ↔ f.guard.Allows symbol sequence := by
  unfold checkFrame
  rw [sequenced?_eq, hsubject]
  cases sequence with
  | none => simp [Continuity.Allows]
  | some n => simp [Continuity.Allows]

theorem checkFrame_of_answer {f : Feed} {frame : Frame} (h : frame.subject? = none) :
    f.checkFrame frame = .ok () := by
  unfold checkFrame
  rw [sequenced?_eq, h]
  rfl

theorem checkFrame_eq_error_iff {f : Feed} {frame : Frame} {e : Error} :
    f.checkFrame frame = .error e ↔
      ∃ symbol n last, frame.sequenced? = some (symbol, n) ∧ f.guard.find? symbol = some last ∧
        last + 1 ≠ n ∧ e = .gap symbol (last + 1) n := by
  unfold checkFrame
  cases hnumber : frame.sequenced? with
  | none => simp
  | some number =>
    obtain ⟨symbol, n⟩ := number
    simp only [Continuity.check_eq_error_iff]
    constructor
    · rintro ⟨last, hlast, hgap, rfl⟩
      exact ⟨symbol, n, last, rfl, hlast, hgap, rfl⟩
    · rintro ⟨symbol', n', last, heq, hlast, hgap, rfl⟩
      cases heq
      exact ⟨last, hlast, hgap, rfl⟩

theorem Takes.checkFrame {f f' : Feed} {receipt : UInt64} {frame : Frame}
    {emissions : List Emission} (h : f.Takes receipt frame f' emissions) :
    f.checkFrame frame = .ok () := by
  cases h with
  | ticker frame symbol hnext hsymbol => exact (checkFrame_eq_ok_iff rfl).mpr hnext
  | snapshot frame symbol book hnext hsymbol hbook => exact (checkFrame_eq_ok_iff rfl).mpr hnext
  | update frame symbol old hnext hsymbol hold => exact (checkFrame_eq_ok_iff rfl).mpr hnext
  | trades frame symbol hnext hsymbol => exact (checkFrame_eq_ok_iff rfl).mpr hnext
  | answer frame hanswer => exact checkFrame_of_answer hanswer

theorem Takes.apply {f f' : Feed} {receipt : UInt64} {frame : Frame}
    {emissions : List Emission} (h : f.Takes receipt frame f' emissions) :
    f.apply receipt frame = (f', .ok emissions) := by
  cases h with
  | ticker frame symbol hnext hsymbol =>
    simp only [Feed.apply, onTicker, hsymbol, confirm_of_allows hnext]
  | snapshot frame symbol book hnext hsymbol hbook =>
    simp only [Feed.apply, onSnapshot, hsymbol, confirm_of_allows hnext, Store.snapshot, hbook]
    rfl
  | update frame symbol old hnext hsymbol hold =>
    have hcontains : f.books.contains symbol = true := by simp [Table.contains, hold]
    have hkept : (f.keep frame.symbol frame.sequence).books.find? symbol = some old := hold
    simp only [Feed.apply, onUpdate, hsymbol, hcontains, confirm_of_allows hnext,
      Store.update_of_find? hkept]
    rfl
  | trades frame symbol hnext hsymbol =>
    simp only [Feed.apply, onTrades, hsymbol, confirm_of_allows hnext]
  | answer frame hanswer =>
    cases frame with
    | ticker _ | snapshot _ | update _ | trades _ => cases hanswer
    | result _ | serverError _ | unrecognized _ => rfl

theorem Refuses.apply {f : Feed} {receipt : UInt64} {frame : Frame} {e : Error}
    (h : f.Refuses frame e) (hcheck : f.checkFrame frame = .ok ()) :
    f.apply receipt frame = (f, .error e) := by
  cases h with
  | gap frame symbol n last hnumber hlast hgap =>
    have herror := checkFrame_eq_error_iff.mpr ⟨symbol, n, last, hnumber, hlast, hgap, rfl⟩
    rw [hcheck] at herror
    cases herror
  | unknown frame symbol sequence e hsubject hnext hsymbol =>
    cases frame with
    | ticker frame =>
      cases hsubject
      simp only [SymbolTable.nameFor] at hsymbol
      simp only [Feed.apply, onTicker, hsymbol, Outcome.fail]
    | snapshot frame =>
      cases hsubject
      simp only [SymbolTable.nameFor] at hsymbol
      simp only [Feed.apply, onSnapshot, hsymbol, Outcome.fail]
    | update frame =>
      cases hsubject
      simp only [SymbolTable.nameFor] at hsymbol
      simp only [Feed.apply, onUpdate, hsymbol, Outcome.fail]
    | trades frame =>
      cases hsubject
      simp only [SymbolTable.nameFor] at hsymbol
      simp only [Feed.apply, onTrades, hsymbol, Outcome.fail]
    | result _ | serverError _ | unrecognized _ => cases hsubject
  | missing frame symbol hnext hsymbol hbook =>
    have hcontains : f.books.contains symbol = false := by simp [Table.contains, hbook]
    simp [Feed.apply, onUpdate, hsymbol, hcontains, Outcome.fail]

/-- A frame that passed the check is taken or refused for want of a name or of a book. -/
theorem takes_or_refuses {f : Feed} {frame : Frame} (receipt : UInt64)
    (hcheck : f.checkFrame frame = .ok ()) :
    (∃ f' emissions, f.Takes receipt frame f' emissions) ∨ ∃ e, f.Refuses frame e := by
  cases frame with
  | ticker frame =>
    have hnext := (checkFrame_eq_ok_iff rfl).mp hcheck
    cases hsymbol : f.symbols.resolve frame.symbol with
    | error e => exact Or.inr ⟨e, .unknown (.ticker frame) _ _ e rfl hnext hsymbol⟩
    | ok symbol => exact Or.inl ⟨_, _, .ticker frame symbol hnext hsymbol⟩
  | snapshot frame =>
    have hnext := (checkFrame_eq_ok_iff rfl).mp hcheck
    cases hsymbol : f.symbols.standardSymbol frame.symbol with
    | error e => exact Or.inr ⟨e, .unknown (.snapshot frame) _ _ e rfl hnext hsymbol⟩
    | ok symbol => exact Or.inl ⟨_, _, .snapshot frame symbol _ hnext hsymbol rfl⟩
  | update frame =>
    have hnext := (checkFrame_eq_ok_iff rfl).mp hcheck
    cases hsymbol : f.symbols.resolve frame.symbol with
    | error e => exact Or.inr ⟨e, .unknown (.update frame) _ _ e rfl hnext hsymbol⟩
    | ok symbol =>
      cases hbook : f.books.find? symbol with
      | none => exact Or.inr ⟨_, .missing frame symbol hnext hsymbol hbook⟩
      | some old => exact Or.inl ⟨_, _, .update frame symbol old hnext hsymbol hbook⟩
  | trades frame =>
    have hnext := (checkFrame_eq_ok_iff rfl).mp hcheck
    cases hsymbol : f.symbols.resolve frame.symbol with
    | error e => exact Or.inr ⟨e, .unknown (.trades frame) _ _ e rfl hnext hsymbol⟩
    | ok symbol => exact Or.inl ⟨_, _, .trades frame symbol hnext hsymbol⟩
  | result json => exact Or.inl ⟨_, _, .answer (.result json) rfl⟩
  | serverError json => exact Or.inl ⟨_, _, .answer (.serverError json) rfl⟩
  | unrecognized what => exact Or.inl ⟨_, _, .answer (.unrecognized what) rfl⟩

theorem handle_of_error (f : Feed) {raw : String} {e : Error} (receipt : UInt64)
    (hread : Frame.decode raw = .error e) : f.handle raw receipt = (f, .error e) := by
  simp only [handle, hread, Outcome.fail]

theorem handle_of_takes {f f' : Feed} {raw : String} {receipt : UInt64} {frame : Frame}
    {emissions : List Emission} (hread : Frame.decode raw = .ok frame)
    (h : f.Takes receipt frame f' emissions) : f.handle raw receipt = (f', .ok emissions) := by
  simp only [handle, hread, h.checkFrame, h.apply]

theorem handle_of_refuses {f : Feed} {raw : String} {frame : Frame} {e : Error}
    (receipt : UInt64) (hread : Frame.decode raw = .ok frame) (h : f.Refuses frame e) :
    f.handle raw receipt = (f, .error e) := by
  cases hcheck : f.checkFrame frame with
  | ok _ => simp only [handle, hread, hcheck, h.apply hcheck]
  | error e' =>
    simp only [handle, hread, hcheck, Outcome.fail]
    obtain ⟨symbol, n, last, hnumber, hlast, hgap, rfl⟩ := checkFrame_eq_error_iff.mp hcheck
    cases h with
    | gap frame symbol' n' last' hnumber' hlast' hgap' =>
      cases hnumber.symm.trans hnumber'
      cases hlast.symm.trans hlast'
      rfl
    | unknown frame symbol' sequence e hsubject hnext hsymbol =>
      rw [(checkFrame_eq_ok_iff hsubject).mpr hnext] at hcheck
      cases hcheck
    | missing frame symbol' hnext hsymbol hbook =>
      have hok : f.checkFrame (.update frame) = .ok () := (checkFrame_eq_ok_iff rfl).mpr hnext
      rw [hok] at hcheck
      cases hcheck

/-- A raw frame cannot be read, is refused, or is taken. -/
theorem handle_cases (f : Feed) (raw : String) (receipt : UInt64) :
    (∃ e, Frame.decode raw = .error e) ∨
    (∃ frame e, Frame.decode raw = .ok frame ∧ f.Refuses frame e) ∨
    ∃ frame f' emissions, Frame.decode raw = .ok frame ∧ f.Takes receipt frame f' emissions := by
  cases hread : Frame.decode raw with
  | error e => exact Or.inl ⟨e, rfl⟩
  | ok frame =>
    right
    cases hcheck : f.checkFrame frame with
    | error e =>
      obtain ⟨symbol, n, last, hnumber, hlast, hgap, rfl⟩ := checkFrame_eq_error_iff.mp hcheck
      exact Or.inl ⟨frame, _, rfl, .gap frame symbol n last hnumber hlast hgap⟩
    | ok _ =>
      rcases takes_or_refuses receipt hcheck with ⟨f', emissions, htakes⟩ | ⟨e, hrefuses⟩
      · exact Or.inr ⟨frame, f', emissions, rfl, htakes⟩
      · exact Or.inl ⟨frame, e, rfl, hrefuses⟩

theorem handle_eq_ok_iff {f f' : Feed} {raw : String} {receipt : UInt64}
    {emissions : List Emission} :
    f.handle raw receipt = (f', .ok emissions) ↔
      ∃ frame, Frame.decode raw = .ok frame ∧ f.Takes receipt frame f' emissions := by
  constructor
  · intro h
    rcases handle_cases f raw receipt with
      ⟨e, hread⟩ | ⟨frame, e, hread, hrefuses⟩ | ⟨frame, f₁, emissions₁, hread, htakes⟩
    · rw [handle_of_error f receipt hread] at h
      cases h
    · rw [handle_of_refuses receipt hread hrefuses] at h
      cases h
    · rw [handle_of_takes hread htakes] at h
      cases h
      exact ⟨frame, hread, htakes⟩
  · rintro ⟨frame, hread, htakes⟩
    exact handle_of_takes hread htakes

/-- A frame that is not taken leaves the feed as it was. -/
theorem handle_eq_error_iff {f f' : Feed} {raw : String} {receipt : UInt64} {e : Error} :
    f.handle raw receipt = (f', .error e) ↔
      f' = f ∧ (Frame.decode raw = .error e ∨
        ∃ frame, Frame.decode raw = .ok frame ∧ f.Refuses frame e) := by
  constructor
  · intro h
    rcases handle_cases f raw receipt with
      ⟨e, hread⟩ | ⟨frame, e, hread, hrefuses⟩ | ⟨frame, f₁, emissions, hread, htakes⟩
    · rw [handle_of_error f receipt hread] at h
      cases h
      exact ⟨rfl, Or.inl hread⟩
    · rw [handle_of_refuses receipt hread hrefuses] at h
      cases h
      exact ⟨rfl, Or.inr ⟨frame, hread, hrefuses⟩⟩
    · rw [handle_of_takes hread htakes] at h
      cases h
  · rintro ⟨rfl, hread | ⟨frame, hread, hrefuses⟩⟩
    · exact handle_of_error _ receipt hread
    · exact handle_of_refuses receipt hread hrefuses

/-- Whether an error is the refusal of one frame. -/
def Error.isRefusal : Error → Bool
  | .malformed _ | .unknownSymbol _ | .gap .. | .missingSnapshot _ => true
  | _ => false

theorem Refuses.isRefusal {f : Feed} {frame : Frame} {e : Error} (h : f.Refuses frame e) :
    e.isRefusal = true := by
  cases h with
  | gap frame symbol n last hnumber hlast hgap => rfl
  | unknown frame symbol sequence e hsubject hnext hsymbol =>
    cases frame with
    | snapshot frame => rw [SymbolTable.standardSymbol_error hsymbol]; rfl
    | ticker _ | update _ | trades _ | result _ | serverError _ | unrecognized _ =>
      rw [SymbolTable.resolve_error hsymbol]; rfl
  | missing frame symbol hnext hsymbol hbook => rfl

theorem isRefusal_of_handle {f f' : Feed} {raw : String} {receipt : UInt64} {e : Error}
    (h : f.handle raw receipt = (f', .error e)) : e.isRefusal = true := by
  obtain ⟨-, hread | ⟨frame, -, hrefuses⟩⟩ := handle_eq_error_iff.mp h
  · obtain ⟨reason, rfl⟩ := Frame.decode_formOnly raw e hread
    rfl
  · exact hrefuses.isRefusal

end MarketFeed.Feed
