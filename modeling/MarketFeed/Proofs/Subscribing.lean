import Mathlib
import MarketFeed.Feed.Session
import MarketFeed.Proofs.Elementwise
import MarketFeed.Proofs.JsonText
import MarketFeed.Transport.Script

/-!
How a feed subscribes. A feed is made exactly if it has something to ask for and knows the exchange's
name of every symbol it asks for. Such a feed can always write its requests down, one for each pair
of a channel and a symbol, and each text is the JSON of its request whatever characters the names
hold. The texts go out in this order, up to the first that the stream does not take.
-/
namespace MarketFeed

namespace Transport.Stream

variable {σ : Type}

/-- Texts written one after another, all of them with success. -/
inductive Sends (stream : Stream σ) : σ → List String → σ → Prop where
  | nil {s : σ} : Sends stream s [] s
  | cons {s s' s'' : σ} {text : String} {rest : List String}
      (hwrite : stream.write s text = (s', .ok ())) (hrest : Sends stream s' rest s'') :
      Sends stream s (text :: rest) s''

variable {stream : Stream σ} {s s' : σ} {texts : List String} {e : Error}

theorem writeAll_eq_ok_iff : stream.writeAll s texts = (s', .ok ()) ↔ Sends stream s texts s' := by
  induction texts generalizing s with
  | nil =>
    constructor
    · rintro ⟨⟩
      exact Sends.nil
    · rintro ⟨⟩
      rfl
  | cons text rest ih =>
    constructor
    · intro hall
      rw [writeAll] at hall
      split at hall
      · next hwrite => exact Sends.cons hwrite (ih.mp hall)
      · cases hall
    · rintro ⟨⟩
      next hwrite hrest => simp only [writeAll, hwrite, ih.mpr hrest]

/-- Writing stops at a text that fails, after all that stand before it. -/
theorem writeAll_eq_error_iff :
    stream.writeAll s texts = (s', .error e) ↔
      ∃ sent text rest between, texts = sent ++ text :: rest ∧ Sends stream s sent between ∧
        stream.write between text = (s', .error e) := by
  induction texts generalizing s with
  | nil => simp [writeAll]
  | cons first rest ih =>
    constructor
    · intro hall
      rw [writeAll] at hall
      split at hall
      · next hwrite =>
        obtain ⟨sent, text, unsent, between, rfl, hsent, hfails⟩ := ih.mp hall
        exact ⟨first :: sent, text, unsent, between, rfl, Sends.cons hwrite hsent, hfails⟩
      · next hwrite =>
        cases hall
        exact ⟨[], first, rest, s, rfl, Sends.nil, hwrite⟩
    · rintro ⟨sent, text, unsent, between, hsplit, hsent, hfails⟩
      cases hsent with
      | nil =>
        cases hsplit
        simp only [writeAll, hfails]
      | cons hwrite hrest =>
        cases hsplit
        simp only [writeAll, hwrite, ih.mpr ⟨_, _, _, _, rfl, hrest, hfails⟩]

end Transport.Stream

namespace Feed

open Transport (Script Stream)

variable {symbols : SymbolTable} {subscription : Subscription}

/-- Whether the exchange's name of every symbol that is asked for is known. -/
def Known (symbols : SymbolTable) (subscription : Subscription) : Prop :=
  ∀ channel symbol, (channel, symbol) ∈ subscription.pairs →
    ∃ exchange, symbols.exchangeSymbol symbol = .ok exchange

/-- Whether a text is the request for a symbol on a channel, with the id of its connection. -/
def IsRequest (symbols : SymbolTable) (id : String) (pair : Channel × String) (text : String) :
    Prop :=
  ∃ exchange, symbols.exchangeSymbol pair.2 = .ok exchange ∧
    Json.ofText? text = some (.object [("id", .text id), ("method", .text pair.1.method),
      ("params", .object [("symbol", .text exchange)])])

theorem exists_requests_iff :
    (∃ asked, requests symbols subscription = .ok asked) ↔ Known symbols subscription := by
  rw [requests, exists_mapM_eq_ok_iff]
  constructor
  · intro hall channel symbol hmem
    obtain ⟨asked, hasked⟩ := hall (channel, symbol) hmem
    cases hname : symbols.exchangeSymbol symbol with
    | error e => simp [hname, Except.map] at hasked
    | ok exchange => exact ⟨exchange, rfl⟩
  · rintro hknown ⟨channel, symbol⟩ hmem
    obtain ⟨exchange, hname⟩ := hknown channel symbol hmem
    exact ⟨(channel, exchange), by simp only [hname, Except.map]⟩

theorem exists_make_iff :
    (∃ f, Feed.make symbols subscription = .ok f) ↔
      subscription.isEmpty = false ∧ Known symbols subscription := by
  rw [← exists_requests_iff]
  unfold Feed.make
  cases subscription.isEmpty with
  | true => simp
  | false =>
    cases requests symbols subscription with
    | error e => simp [Except.map]
    | ok asked => simp [Except.map]

theorem eq_of_make {made : Feed} (hmade : Feed.make symbols subscription = .ok made) :
    made = { symbols, subscription } := by
  unfold Feed.make at hmade
  split at hmade
  · cases hmade
  · cases hrequests : requests symbols subscription with
    | error e =>
      rw [hrequests] at hmade
      cases hmade
    | ok asked =>
      rw [hrequests] at hmade
      exact (Except.ok.inj hmade).symm

/-- The text of a request is the JSON of the request, whatever characters the names hold. -/
theorem ofText?_subscribeFrame (id : String) (channel : Channel) (exchange : String) :
    Json.ofText? (subscribeFrame id channel exchange).render =
      some (subscribeFrame id channel exchange) := by
  have hplain : Json.Plain Json.room (subscribeFrame id channel exchange) := by
    refine Json.Plain.object (by decide) ?_
    simp only [List.forall_mem_cons]
    refine ⟨Json.Plain.text _, Json.Plain.text _, Json.Plain.object (by decide) ?_,
      List.forall_mem_nil _⟩
    simp only [List.forall_mem_cons]
    exact ⟨Json.Plain.text _, List.forall_mem_nil _⟩
  exact hplain.ofText?_render

theorem exists_subscribeFrames {f : Feed} (hknown : Known f.symbols f.subscription) (id : String) :
    ∃ texts, f.subscribeFrames id = .ok texts ∧
      List.Forall₂ (IsRequest f.symbols id) f.subscription.pairs texts := by
  obtain ⟨asked, hasked⟩ := exists_requests_iff.mpr hknown
  refine ⟨_, by rw [subscribeFrames, hasked]; rfl, ?_⟩
  rw [requests, mapM_eq_ok_iff] at hasked
  rw [List.forall₂_map_right_iff]
  refine hasked.imp ?_
  rintro ⟨channel, symbol⟩ request hrequest
  cases hname : f.symbols.exchangeSymbol symbol with
  | error e => simp [hname, Except.map] at hrequest
  | ok exchange =>
    simp only [hname, Except.map, Except.ok.injEq] at hrequest
    subst hrequest
    exact ⟨exchange, hname, ofText?_subscribeFrame id channel exchange⟩

variable {σ : Type} {stream : Stream σ} {s s' : σ} {f : Feed} {texts : List String}

theorem subscribe_eq_ok_iff (htexts : f.subscribeFrames (stream.id s) = .ok texts) {count : Nat} :
    f.subscribe stream s = (s', .ok count) ↔ count = texts.length ∧ stream.Sends s texts s' := by
  rw [← Stream.writeAll_eq_ok_iff]
  simp only [subscribe, htexts]
  split
  · next hwrite => simp [hwrite, and_comm, eq_comm]
  · next hwrite => simp [hwrite]

theorem subscribe_eq_error_iff (htexts : f.subscribeFrames (stream.id s) = .ok texts) {e : Error} :
    f.subscribe stream s = (s', .error e) ↔
      ∃ sent text rest between cause, texts = sent ++ text :: rest ∧
        stream.Sends s sent between ∧ stream.write between text = (s', .error cause) ∧
        e = .channel cause := by
  have hcause : f.subscribe stream s = (s', .error e) ↔
      ∃ cause, stream.writeAll s texts = (s', .error cause) ∧ e = .channel cause := by
    simp only [subscribe, htexts]
    split
    · next hwrite => simp [hwrite]
    · next hwrite => simp [hwrite, eq_comm, and_assoc]
  rw [hcause]
  simp only [Stream.writeAll_eq_error_iff]
  constructor
  · rintro ⟨cause, ⟨sent, text, rest, between, hsplit, hsent, hfails⟩, rfl⟩
    exact ⟨sent, text, rest, between, cause, hsplit, hsent, hfails, rfl⟩
  · rintro ⟨sent, text, rest, between, cause, hsplit, hsent, hfails, rfl⟩
    exact ⟨cause, ⟨sent, text, rest, between, hsplit, hsent, hfails⟩, rfl⟩

/-- A feed is made exactly if it has something to ask for and knows every name it needs. Later on it
can always write its requests down, one text for each pair in their order, each of them the JSON of
its request. Subscribing writes the texts in this order: it tells their number if the stream took
them all, and otherwise it fails with the error of the first one that the stream did not take. -/
theorem requests_written (symbols : SymbolTable) (subscription : Subscription) :
    ((∃ f, Feed.make symbols subscription = .ok f) ↔
      subscription.isEmpty = false ∧ Known symbols subscription) ∧
    ∀ made, Feed.make symbols subscription = .ok made →
      ∀ f : Feed, f.symbols = made.symbols → f.subscription = made.subscription →
      ∀ id, ∃ texts, f.subscribeFrames id = .ok texts ∧ texts.length = subscription.size ∧
        List.Forall₂ (IsRequest symbols id) subscription.pairs texts ∧
        ∀ (σ : Type) (stream : Stream σ) (s : σ), stream.id s = id →
          (∀ s' count, f.subscribe stream s = (s', .ok count) ↔
            count = subscription.size ∧ stream.Sends s texts s') ∧
          ∀ s' e, f.subscribe stream s = (s', .error e) ↔
            ∃ sent text rest between cause, texts = sent ++ text :: rest ∧
              stream.Sends s sent between ∧ stream.write between text = (s', .error cause) ∧
              e = .channel cause := by
  refine ⟨exists_make_iff, ?_⟩
  intro made hmade f hsymbols hsubscription id
  rw [eq_of_make hmade] at hsymbols hsubscription
  subst hsymbols hsubscription
  obtain ⟨-, hknown⟩ := exists_make_iff.mp ⟨made, hmade⟩
  obtain ⟨texts, htexts, hrequests⟩ := exists_subscribeFrames hknown id
  have hlength : texts.length = f.subscription.size := by
    rw [Subscription.size_eq_length_pairs]
    exact hrequests.length_eq.symm
  refine ⟨texts, htexts, hlength, hrequests, ?_⟩
  rintro σ stream s rfl
  rw [← hlength]
  exact ⟨fun s' count => subscribe_eq_ok_iff htexts, fun s' e => subscribe_eq_error_iff htexts⟩

/-- A feed that asks for a symbol with a quote in its name and for another one. -/
def asking : Feed where
  symbols := .ofPairs [("BTC-USD", "BTCUSD"), ("\"É\"", "\"É")]
  subscription := (Subscription.add {} .orderbook "BTC-USD").add .ticker "\"É\""

/-- A stream that takes one text and no more. -/
def reluctant : Script where
  id := "feed.ws.0"
  isOpen := true
  writeFailure := some (1, .closed "feed.ws.0")

/-- Both requests are written down, and the stream fails at one of them. -/
theorem requests_written_reluctant :
    ∃ texts, asking.subscribeFrames "feed.ws.0" = .ok texts ∧ texts.length = 2 ∧
      List.Forall₂ (IsRequest asking.symbols "feed.ws.0")
        [(.ticker, "\"É\""), (.orderbook, "BTC-USD")] texts ∧
      ∃ sent text rest between cause, texts = sent ++ text :: rest ∧
        Script.stream.Sends reluctant sent between ∧
        Script.stream.write between text =
          ((asking.subscribe Script.stream reluctant).1, .error cause) := by
  have hmade : Feed.make asking.symbols asking.subscription = .ok asking := by cbv
  have hpairs : asking.subscription.pairs = [(.ticker, "\"É\""), (.orderbook, "BTC-USD")] := by cbv
  have hrun : (asking.subscribe Script.stream reluctant).2 =
      .error (.channel (.closed "feed.ws.0")) := by cbv
  obtain ⟨texts, htexts, hlength, hrequests, hsubscribe⟩ :=
    (requests_written asking.symbols asking.subscription).2 asking hmade asking rfl rfl "feed.ws.0"
  obtain ⟨-, hstops⟩ := hsubscribe _ Script.stream reluctant rfl
  obtain ⟨sent, text, rest, between, cause, hsplit, hsent, hfails, -⟩ :=
    (hstops _ _).mp (Prod.ext rfl hrun)
  rw [hpairs] at hrequests
  rw [Subscription.size_eq_length_pairs, hpairs] at hlength
  exact ⟨texts, htexts, hlength, hrequests, sent, text, rest, between, cause, hsplit, hsent, hfails⟩

end Feed

end MarketFeed
