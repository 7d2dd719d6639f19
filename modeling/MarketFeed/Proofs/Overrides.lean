import Mathlib
import MarketFeed.Proofs.Elementwise
import MarketFeed.Proofs.Listing
import MarketFeed.Proofs.Subscriptions

/-!
Settings after what the environment says was applied to them. Only the addresses and the subscription
change. The subscription becomes every channel with every symbol, where the environment lists one of
the two and what it does not list is what the subscription had. Once applied, the environment has
nothing more to say. If it lists a channel that is not known, it is refused, and only the addresses
have changed.
-/
namespace MarketFeed.Settings

open Feed (Channel Subscription)

/-- The channels that are meant: those that the environment lists or, if it lists none, those that
had a symbol. -/
def MeansChannel (s : Settings) (env : Environment) (c : Channel) : Prop :=
  match env "HITBTC_CHANNELS" with
  | some text => ∃ name, IsItem text name ∧ Channel.ofText name = .ok c
  | none => ∃ x, (c, x) ∈ s.subscription.pairs

/-- The symbols that are meant: those that the environment lists or, if it lists none, those that any
channel had. -/
def MeansSymbol (s : Settings) (env : Environment) (x : String) : Prop :=
  match env "HITBTC_PAIRS" with
  | some text => IsItem text x
  | none => ∃ c, (c, x) ∈ s.subscription.pairs

/-- Whether every channel that the environment lists has a name that is known. -/
def NamesKnown (env : Environment) : Prop :=
  ∀ text, env "HITBTC_CHANNELS" = some text → ∀ name, IsItem text name →
    ∃ c, Channel.ofText name = .ok c

theorem mem_product (channels : List Channel) (symbols : List String) (c : Channel) (x : String) :
    (c, x) ∈ (product channels symbols).pairs ↔ c ∈ channels ∧ x ∈ symbols := by
  have hfold : ∀ s : Subscription,
      x ∈ (channels.foldl (fun s c => s.addAll c symbols) s).symbols c ↔
        (c ∈ channels ∧ x ∈ symbols) ∨ x ∈ s.symbols c := by
    induction channels with
    | nil => simp
    | cons d rest ih =>
      intro s
      rw [List.foldl_cons, ih, Subscription.symbols_addAll, List.mem_cons]
      tauto
  have hnone : x ∉ ({} : Subscription).symbols c := by cases c <;> exact List.not_mem_nil
  rw [Subscription.mem_pairs, product, hfold, or_iff_left hnone]

theorem product_nil (channels : List Channel) : product channels [] = {} := by
  rw [product]
  induction channels with
  | nil => rfl
  | cons c rest ih => exact ih

theorem mem_usedChannels (s : Subscription) (c : Channel) :
    c ∈ usedChannels s ↔ ∃ x, (c, x) ∈ s.pairs := by
  simp only [usedChannels, List.mem_filter, Channel.mem_all, true_and, Subscription.mem_pairs,
    Bool.not_eq_true', List.isEmpty_eq_false_iff_exists_mem]

/-- The channels in use are a matter of which channels there are. -/
theorem usedChannels_congr {s t : Subscription}
    (h : ∀ c, (∃ x, (c, x) ∈ s.pairs) ↔ ∃ x, (c, x) ∈ t.pairs) :
    usedChannels s = usedChannels t := by
  refine List.filter_congr fun c _ => ?_
  have hc := h c
  simp only [Subscription.mem_pairs, ← List.isEmpty_eq_false_iff_exists_mem] at hc
  rwa [Bool.eq_iff_iff, Bool.not_eq_true', Bool.not_eq_true']

/-- What a product took from a subscription it takes from itself as well. -/
theorem product_again (t : Subscription) (channels? : Option (List Channel))
    (symbols? : Option (List String)) (hsome : channels? ≠ none ∨ symbols? ≠ none) :
    let made := product (channels?.getD (usedChannels t)) (symbols?.getD t.allSymbols)
    product (channels?.getD (usedChannels made)) (symbols?.getD made.allSymbols) = made := by
  intro made
  cases channels? with
  | none =>
    cases symbols? with
    | none => simp at hsome
    | some symbols =>
      cases symbols with
      | nil => exact (product_nil _).trans (product_nil _).symm
      | cons x rest =>
        have hused : usedChannels made = usedChannels t := by
          refine usedChannels_congr fun c => ?_
          have hc : (∃ y, (c, y) ∈ made.pairs) ↔ c ∈ usedChannels t := by
            simp only [made, mem_product, Option.getD_none, Option.getD_some]
            exact ⟨fun ⟨y, hc, _⟩ => hc, fun hc => ⟨x, hc, List.mem_cons_self⟩⟩
          rw [hc, mem_usedChannels]
        simp only [Option.getD_none, hused]
        rfl
  | some channels =>
    cases symbols? with
    | some symbols => rfl
    | none =>
      cases channels with
      | nil => rfl
      | cons d rest =>
        have hall : made.allSymbols = t.allSymbols := by
          refine Subscription.allSymbols_congr fun x => ?_
          have hx : (∃ c, (c, x) ∈ made.pairs) ↔ x ∈ t.allSymbols := by
            simp only [made, mem_product, Option.getD_none, Option.getD_some]
            exact ⟨fun ⟨c, _, hx⟩ => hx, fun hx => ⟨d, List.mem_cons_self, hx⟩⟩
          rw [hx, Subscription.mem_allSymbols]
        simp only [Option.getD_none, hall]
        rfl

theorem withAddresses_again (s : Settings) (env : Environment) :
    (s.withAddresses env).withAddresses env = s.withAddresses env := by
  cases hurl : env "HITBTC_WS_URL" <;> cases hsymbols : env "HITBTC_SYMBOLS_URL" <;>
    simp [withAddresses, hurl, hsymbols]

/-- Addresses do not come in the way of a subscription. -/
theorem withAddresses_subscription (s : Settings) (env : Environment) (t : Subscription) :
    { s with subscription := t }.withAddresses env =
      { s.withAddresses env with subscription := t } := rfl

/-- Where all names are known, the list of channels is read: to none if there is no list, and else to
the channels that are meant. -/
theorem envChannels_of_known (s : Settings) {env : Environment} (h : NamesKnown env) :
    ∃ channels?, envChannels env = .ok channels? ∧
      (channels? = none ↔ env "HITBTC_CHANNELS" = none) ∧
      ∀ c, c ∈ channels?.getD (usedChannels s.subscription) ↔ s.MeansChannel env c := by
  cases htext : env "HITBTC_CHANNELS" with
  | none =>
    refine ⟨none, by rw [envChannels, htext], by simp, fun c => ?_⟩
    rw [Option.getD_none, mem_usedChannels, MeansChannel, htext]
  | some text =>
    have hknown : ∀ name ∈ listed text, ∃ c, Channel.ofText name = .ok c := fun name hname =>
      h text htext name ((mem_listed_iff text name).mp hname)
    obtain ⟨channels, hchannels⟩ := exists_mapM_eq_ok_iff.mpr hknown
    refine ⟨some channels, by rw [envChannels, htext]; simp only [hchannels]; rfl, by simp,
      fun c => ?_⟩
    have hall := mapM_eq_ok_iff.mp hchannels
    rw [Option.getD_some, MeansChannel, htext]
    constructor
    · intro hc
      obtain ⟨name, hname, hread⟩ := exists_of_forall₂_mem hall.flip hc
      exact ⟨name, (mem_listed_iff text name).mp hname, hread⟩
    · rintro ⟨name, hname, hread⟩
      obtain ⟨d, hd, hread'⟩ := exists_of_forall₂_mem hall ((mem_listed_iff text name).mpr hname)
      cases hread.symm.trans hread'
      exact hd

theorem mem_symbols_iff (s : Settings) (env : Environment) (x : String) :
    x ∈ ((env "HITBTC_PAIRS").map listed).getD s.subscription.allSymbols ↔
      s.MeansSymbol env x := by
  cases htext : env "HITBTC_PAIRS" with
  | none => rw [Option.map_none, Option.getD_none, Subscription.mem_allSymbols, MeansSymbol, htext]
  | some text => rw [Option.map_some, Option.getD_some, mem_listed_iff, MeansSymbol, htext]

/-- Settings that are not to get another subscription get the addresses alone. -/
theorem withEnvironment_of_none (s : Settings) {env : Environment}
    (hchannels : envChannels env = .ok none) (hpairs : env "HITBTC_PAIRS" = none) :
    s.withEnvironment env = (s.withAddresses env, .ok ()) := by
  simp [withEnvironment, hchannels, hpairs]

theorem withEnvironment_of_some (s : Settings) {env : Environment}
    {channels? : Option (List Channel)} (hchannels : envChannels env = .ok channels?)
    (hsome : channels? ≠ none ∨ (env "HITBTC_PAIRS").map listed ≠ none) :
    s.withEnvironment env =
      ({ s.withAddresses env with
          subscription := product (channels?.getD (usedChannels s.subscription))
            (((env "HITBTC_PAIRS").map listed).getD s.subscription.allSymbols) }, .ok ()) := by
  have hnot : ¬ (((env "HITBTC_PAIRS").map listed).isNone = true ∧ channels?.isNone = true) := by
    rintro ⟨hpairs, hlist⟩
    rw [Option.isNone_iff_eq_none] at hpairs hlist
    exact hsome.elim (absurd hlist) (absurd hpairs)
  simp only [withEnvironment, hchannels, if_neg hnot]
  rfl

/-- Where all names of channels are known, applying the environment succeeds. It changes the two
addresses that are given and the subscription, and that only if one of its lists is given: then it is
every channel that is meant with every symbol that is meant. Applied again it changes nothing. -/
theorem environment_applied (s : Settings) (env : Environment) (hknown : NamesKnown env) :
    ∃ s', s.withEnvironment env = (s', .ok ()) ∧
      s' = { s with
        streaming := { s.streaming with url := (env "HITBTC_WS_URL").getD s.streaming.url }
        rest := { s.rest with symbolsUrl := (env "HITBTC_SYMBOLS_URL").getD s.rest.symbolsUrl }
        subscription := s'.subscription } ∧
      (env "HITBTC_PAIRS" = none ∧ env "HITBTC_CHANNELS" = none →
        s'.subscription = s.subscription) ∧
      (env "HITBTC_PAIRS" ≠ none ∨ env "HITBTC_CHANNELS" ≠ none →
        ∀ c x, (c, x) ∈ s'.subscription.pairs ↔ s.MeansChannel env c ∧ s.MeansSymbol env x) ∧
      s'.withEnvironment env = (s', .ok ()) := by
  obtain ⟨channels?, hchannels, hnone, hmem⟩ := s.envChannels_of_known hknown
  by_cases hgiven : env "HITBTC_PAIRS" = none ∧ env "HITBTC_CHANNELS" = none
  · obtain ⟨hpairs, hlist⟩ := hgiven
    rw [hnone.mpr hlist] at hchannels
    refine ⟨s.withAddresses env, s.withEnvironment_of_none hchannels hpairs, rfl, fun _ => rfl,
      fun hsome => by simp [hpairs, hlist] at hsome, ?_⟩
    rw [withEnvironment_of_none _ hchannels hpairs, withAddresses_again]
  · have hsome : channels? ≠ none ∨ (env "HITBTC_PAIRS").map listed ≠ none := by
      rw [not_and_or] at hgiven
      rcases hgiven with hpairs | hlist
      · exact Or.inr (by simpa using hpairs)
      · exact Or.inl (mt hnone.mp hlist)
    refine ⟨_, s.withEnvironment_of_some hchannels hsome, rfl, fun hboth => absurd hboth hgiven,
      fun _ c x => ?_, ?_⟩
    · rw [mem_product, hmem, mem_symbols_iff]
    · rw [withEnvironment_of_some _ hchannels hsome, withAddresses_subscription,
        withAddresses_again]
      simp only [product_again s.subscription channels? _ hsome]

/-- An environment that lists channels as people write them, and nothing else. -/
def listing : Environment := fun name =>
  if name = "HITBTC_CHANNELS" then some " Ticker ,, L2_BOOK" else none

/-- The symbols of trades are now those of order books, and there are no trades any more. -/
theorem environment_applied_listing :
    NamesKnown listing ∧ ∃ s', ({} : Settings).withEnvironment listing = (s', .ok ()) ∧
      (.orderbook, "ETH-BTC") ∈ s'.subscription.pairs ∧
      (∀ x, (.trades, x) ∉ s'.subscription.pairs) ∧
      s'.withEnvironment listing = (s', .ok ()) := by
  have hlisted : ∀ name,
      IsItem " Ticker ,, L2_BOOK" name ↔ name = "Ticker" ∨ name = "L2_BOOK" := by
    intro name
    have hitems : listed " Ticker ,, L2_BOOK" = ["Ticker", "L2_BOOK"] := by cbv
    rw [← mem_listed_iff, hitems, List.mem_pair]
  have hticker : Channel.ofText "Ticker" = .ok .ticker := by cbv
  have hbook : Channel.ofText "L2_BOOK" = .ok .orderbook := by cbv
  have hknown : NamesKnown listing := by
    intro text htext name hname
    cases htext
    rcases (hlisted name).mp hname with rfl | rfl
    · exact ⟨_, hticker⟩
    · exact ⟨_, hbook⟩
  obtain ⟨s', happlied, -, -, hpairs, hagain⟩ := environment_applied {} listing hknown
  have hproduct := hpairs (Or.inr (by decide))
  have hitem : IsItem " Ticker ,, L2_BOOK" "L2_BOOK" := (hlisted "L2_BOOK").mpr (Or.inr rfl)
  have hsymbol : (Channel.trades, "ETH-BTC") ∈ ({} : Settings).subscription.pairs := by
    have hdefault : ({} : Settings).subscription.pairs = [(.ticker, "BTC-USD"),
        (.trades, "BTC-USD"), (.trades, "ETH-BTC"), (.orderbook, "BTC-USD")] := by cbv
    rw [hdefault]
    decide
  refine ⟨hknown, s', happlied, ?_, fun x hx => ?_, hagain⟩
  · exact (hproduct .orderbook "ETH-BTC").mpr ⟨⟨"L2_BOOK", hitem, hbook⟩, .trades, hsymbol⟩
  · obtain ⟨⟨name, hname, hread⟩, -⟩ := (hproduct .trades x).mp hx
    rcases (hlisted name).mp hname with rfl | rfl
    · cases hticker.symm.trans hread
    · cases hbook.symm.trans hread

/-- Settings have the addresses of the environment already if those that it gives are their own. -/
theorem withAddresses_eq_self_iff (s : Settings) (env : Environment) :
    s.withAddresses env = s ↔
      (∀ url ∈ env "HITBTC_WS_URL", url = s.streaming.url) ∧
        ∀ url ∈ env "HITBTC_SYMBOLS_URL", url = s.rest.symbolsUrl := by
  have hgetD : ∀ (given : Option String) (own : String),
      given.getD own = own ↔ ∀ url ∈ given, url = own := by
    intro given own
    cases given <;> simp
  rw [← hgetD, ← hgetD]
  constructor
  · intro h
    exact ⟨congrArg (fun s : Settings => s.streaming.url) h,
      congrArg (fun s : Settings => s.rest.symbolsUrl) h⟩
  · intro ⟨hurl, hsymbols⟩
    rw [withAddresses, hurl, hsymbols]

/-- The message for an item that is no channel has the item in small letters. -/
theorem ofText_item {text name : String} {e : Feed.Error} (hitem : IsItem text name)
    (h : Channel.ofText name = .error e) :
    e = .configuration
      ("Unknown feed channel: " ++ String.ofList (name.toList.map Char.toLower)) := by
  obtain ⟨-, part, -, htrims⟩ := hitem
  have hself : Text.Blank.trim name.toList = name.toList := by
    rw [Text.Blank.trim_eq_iff]
    exact ⟨⟨[], [], by simp, by simp, by simp⟩, htrims.first, htrims.last⟩
  unfold Channel.ofText at h
  simp only [hself] at h
  split at h
  · cases h
  · exact (Except.error.inj h).symm

/-- The list of channels is refused at the first of its items that is no channel. -/
theorem envChannels_eq_error_iff (env : Environment) (e : Feed.Error) :
    envChannels env = .error e ↔
      ∃ text known name rest, env "HITBTC_CHANNELS" = some text ∧
        listed text = known ++ name :: rest ∧
        (∀ earlier ∈ known, ∃ c, Channel.ofText earlier = .ok c) ∧
        Channel.ofText name = .error e := by
  unfold envChannels
  cases env "HITBTC_CHANNELS" with
  | none => simp
  | some text =>
    have hmap : ((listed text).mapM Channel.ofText).map some = .error e ↔
        (listed text).mapM Channel.ofText = .error e := by
      cases (listed text).mapM Channel.ofText with
      | error e' => simp [Except.map]
      | ok channels => simp [Except.map]
    refine hmap.trans (mapM_eq_error_iff.trans ?_)
    constructor
    · intro ⟨known, name, rest, hsplit, hknown, hname⟩
      exact ⟨text, known, name, rest, rfl, hsplit, hknown, hname⟩
    · intro ⟨text', known, name, rest, htext, hsplit, hknown, hname⟩
      cases htext
      exact ⟨known, name, rest, hsplit, hknown, hname⟩

/-- A refused list leaves settings that have the addresses of the environment. -/
theorem withEnvironment_of_error (s : Settings) {env : Environment} {e : Feed.Error}
    (h : envChannels env = .error e) : s.withEnvironment env = (s.withAddresses env, .error e) := by
  simp only [withEnvironment, h]

theorem withEnvironment_error_iff (s : Settings) (env : Environment) (e : Feed.Error) :
    (s.withEnvironment env).2 = .error e ↔ envChannels env = .error e := by
  cases h : envChannels env with
  | error e' =>
    simp only [withEnvironment_of_error s h, Except.error.injEq]
  | ok channels? =>
    have hok : (s.withEnvironment env).2 = .ok () := by
      simp only [withEnvironment, h]
      split <;> rfl
    simp [hok]

theorem namesKnown_of_ok {env : Environment} {channels? : Option (List Channel)}
    (h : envChannels env = .ok channels?) : NamesKnown env := by
  intro text htext name hname
  unfold envChannels at h
  rw [htext] at h
  have hread : ∃ channels, (listed text).mapM Channel.ofText = .ok channels := by
    cases hchannels : (listed text).mapM Channel.ofText with
    | error e => simp [hchannels, Except.map] at h
    | ok channels => exact ⟨channels, rfl⟩
  exact exists_mapM_eq_ok_iff.mp hread name ((mem_listed_iff text name).mpr hname)

/-- An environment is refused exactly if it lists a channel that is not known. -/
theorem exists_withEnvironment_error_iff (s : Settings) (env : Environment) :
    (∃ e, (s.withEnvironment env).2 = .error e) ↔ ¬ NamesKnown env := by
  simp only [withEnvironment_error_iff]
  constructor
  · intro ⟨e, he⟩ hknown
    obtain ⟨channels?, hok, -⟩ := s.envChannels_of_known hknown
    cases he.symm.trans hok
  · intro hunknown
    cases h : envChannels env with
    | error e => exact ⟨e, rfl⟩
    | ok channels? => exact absurd (namesKnown_of_ok h) hunknown

/-- An environment is refused exactly if it lists a channel that is not known, and the error is about
the first such item. The settings then have the addresses that the environment gives and are
otherwise as before, the subscription too; so they are as before if and only if it gives no other
address. -/
theorem refused_keeps_all_but_addresses (s : Settings) (env : Environment) :
    ((∃ e, (s.withEnvironment env).2 = .error e) ↔ ¬ NamesKnown env) ∧
    ∀ e, (s.withEnvironment env).2 = .error e →
      (∃ text known name rest, env "HITBTC_CHANNELS" = some text ∧
        listed text = known ++ name :: rest ∧
        (∀ earlier ∈ known, ∃ c, Channel.ofText earlier = .ok c) ∧
        (∀ c, Channel.ofText name ≠ .ok c) ∧
        e = .configuration
          ("Unknown feed channel: " ++ String.ofList (name.toList.map Char.toLower))) ∧
      (s.withEnvironment env).1 = { s with
        streaming := { s.streaming with url := (env "HITBTC_WS_URL").getD s.streaming.url }
        rest := { s.rest with symbolsUrl := (env "HITBTC_SYMBOLS_URL").getD s.rest.symbolsUrl } } ∧
      ((s.withEnvironment env).1 = s ↔
        (∀ url ∈ env "HITBTC_WS_URL", url = s.streaming.url) ∧
          ∀ url ∈ env "HITBTC_SYMBOLS_URL", url = s.rest.symbolsUrl) := by
  refine ⟨s.exists_withEnvironment_error_iff env, fun e hrefused => ?_⟩
  have hchannels := (withEnvironment_error_iff s env e).mp hrefused
  obtain ⟨text, known, name, rest, htext, hsplit, hknown, hname⟩ :=
    (envChannels_eq_error_iff env e).mp hchannels
  have hitem : IsItem text name := by
    rw [← mem_listed_iff, hsplit]
    exact List.mem_append_right known List.mem_cons_self
  have hunknown : ∀ c, Channel.ofText name ≠ .ok c := by
    intro c hc
    cases hc.symm.trans hname
  rw [withEnvironment_of_error s hchannels]
  exact ⟨⟨text, known, name, rest, htext, hsplit, hknown, hunknown, ofText_item hitem hname⟩, rfl,
    withAddresses_eq_self_iff s env⟩

/-- An environment that gives an address, and lists a channel that is not known. -/
def misspelt : Environment := fun name =>
  if name = "HITBTC_WS_URL" then some "wss://example.test/ws"
  else if name = "HITBTC_PAIRS" then some "ETH-USD"
  else if name = "HITBTC_CHANNELS" then some "trades, Candles"
  else none

theorem withEnvironment_misspelt :
    (({} : Settings).withEnvironment misspelt).2 =
      .error (.configuration "Unknown feed channel: candles") := by
  cbv

/-- The pairs that it lists are left alone, and its address is not. -/
theorem refused_keeps_all_but_addresses_misspelt :
    (({} : Settings).withEnvironment misspelt).2 =
        .error (.configuration "Unknown feed channel: candles") ∧
      (({} : Settings).withEnvironment misspelt).1 =
        { streaming := { url := "wss://example.test/ws" } } := by
  have hkept := ((refused_keeps_all_but_addresses {} misspelt).2 _ withEnvironment_misspelt).2.1
  exact ⟨withEnvironment_misspelt, hkept⟩

/-- A refused environment may have changed an address. -/
theorem refused_changes_address :
    ¬ ∀ (s : Settings) (env : Environment) (e : Feed.Error),
      (s.withEnvironment env).2 = .error e → (s.withEnvironment env).1 = s := by
  intro h
  have hsame := h {} misspelt _ withEnvironment_misspelt
  have hchannels := (withEnvironment_error_iff {} misspelt _).mp withEnvironment_misspelt
  rw [withEnvironment_of_error _ hchannels, withAddresses_eq_self_iff] at hsame
  have hurl : "wss://example.test/ws" = "wss://api.hitbtc.com/api/2/ws" := hsame.1 _ rfl
  exact absurd hurl (by decide)

end MarketFeed.Settings
