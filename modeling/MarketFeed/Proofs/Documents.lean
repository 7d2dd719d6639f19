import Mathlib
import MarketFeed.Proofs.Enlisting

/-!
Settings from a document. Each setting that the document gives has the given value, and each other
one the value that it has without a document, whatever else the document says. A subscription is
taken as a whole. A document in which a setting is not of its kind or out of range, or in which the
subscription names a channel that is not known, is refused altogether. Groups of settings are
tables; an array gives the settings of a group by their places, and a date gives none.
-/
namespace MarketFeed

namespace Toml

variable {α : Type}

/-- What a table has under a name. -/
def entry? (name : String) : Toml → Option Toml
  | table entries => entries.lookup name
  | _ => none

/-- What a group called `names` says under one of them: a table under the name itself, an array at
the place of the name, and a date nothing. -/
def member? (names : List String) (name : String) : Toml → Option Toml
  | table entries => entries.lookup name
  | array items => items[names.idxOf name]?
  | _ => none

theorem bind_member? (o : Option Toml) (names : List String) (name : String) :
    o.bind (member? names name) = (o.getD date).member? names name := by
  cases o <;> rfl

/-- Whether a value can stand for a group of settings. -/
def IsGroup : Toml → Prop
  | table _ | array _ | date => True
  | _ => False

theorem lookup_zip {names : List String} {name : String} (h : name ∈ names) (items : List Toml) :
    (names.zip items).lookup name = items[names.idxOf name]? := by
  induction names generalizing items with
  | nil => cases h
  | cons first rest ih =>
    cases items with
    | nil => simp
    | cons item items =>
      by_cases heq : name = first
      · simp [heq]
      · have hrest : name ∈ rest := (List.mem_cons.mp h).resolve_left heq
        have hne : first ≠ name := fun h => heq h.symm
        simp [List.lookup_cons, beq_false_of_ne heq, List.idxOf_cons_ne _ hne, ih hrest]

/-- A group is read as it is said: each of its names has what the group says under it. -/
theorem exists_group?_iff {names : List String} {v : Toml} {p : List (String × Toml) → Prop}
    {q : Prop} (h : ∀ group, (∀ name ∈ names, group.lookup name = v.member? names name) →
      (p group ↔ q)) : (∃ group, group? names v = some group ∧ p group) ↔ v.IsGroup ∧ q := by
  have hread : ∀ group, (∀ name ∈ names, group.lookup name = v.member? names name) →
      ((∃ found, some group = some found ∧ p found) ↔ True ∧ q) := by
    intro group hsame
    simp [h group hsame]
  cases v with
  | table entries => exact hread entries fun _ _ => rfl
  | array items => exact hread (names.zip items) fun _ hname => lookup_zip hname items
  | date => exact hread [] fun _ _ => rfl
  | _ => simp [group?, IsGroup]

/-- Whether a reader takes those values in which something is shown, each as that. -/
def Reads (read : Toml → Option α) (shown : α → Toml) : Prop :=
  ∀ v a, read v = some a ↔ v = shown a

theorem reads_text : Reads asText? text := by
  intro v a
  cases v <;> simp [asText?]

theorem reads_bool : Reads asBool? bool := by
  intro v a
  cases v <;> simp [asBool?]

theorem asNat?_eq_some_iff {bits n : Nat} (v : Toml) :
    v.asNat? bits = some n ↔ v = int n ∧ n < 1 <<< bits := by
  cases v with
  | int m =>
    rw [asNat?]
    constructor
    · intro h
      split at h
      · next hm =>
        cases h
        exact ⟨by rw [Int.toNat_of_nonneg hm.1], by omega⟩
      · cases h
    · rintro ⟨hm, hn⟩
      cases hm
      rw [if_pos ⟨by omega, by omega⟩, Int.toNat_natCast]
  | _ => simp [asNat?]

theorem setting?_eq_some_iff {read : Toml → Option α} {shown : α → Toml} (h : Reads read shown)
    (group : List (String × Toml)) (name : String) (default a : α) :
    setting? group name default read = some a ↔
      shown a = (group.lookup name).getD (shown default) := by
  rw [setting?]
  cases group.lookup name with
  | none =>
    constructor
    · intro hsame
      rw [Option.some.inj hsame]
      rfl
    · intro hsame
      have hread := (h (shown default) a).mpr hsame.symm
      rwa [(h (shown default) default).mpr rfl] at hread
  | some v => exact (h v a).trans eq_comm

/-- Where a date is read as what stands for nothing given, it stands for it. -/
theorem setting?_of_date {read : Toml → Option α} {default : α} (h : read date = some default)
    (group : List (String × Toml)) (name : String) :
    setting? group name default read = read ((group.lookup name).getD date) := by
  rw [setting?]
  cases group.lookup name with
  | none => exact h.symm
  | some v => rfl

end Toml

namespace Feed.Subscription

/-- Lists of symbols under names of channels, as a table. -/
def listing (lists : List (String × List String)) : Toml :=
  .table (lists.map fun e => (e.1, .array (e.2.map .text)))

theorem listing_injective : Function.Injective listing := by
  have harray : Function.Injective fun l : List String => Toml.array (l.map .text) := fun _ _ h =>
    List.map_injective_iff.mpr (fun _ _ => Toml.text.inj) (Toml.array.inj h)
  intro l m h
  refine List.map_injective_iff.mpr ?_ (Toml.table.inj h)
  rintro ⟨name, l⟩ ⟨name', l'⟩ h
  obtain ⟨hname, hl⟩ := Prod.mk.inj h
  exact Prod.ext hname (harray hl)

/-- The last list under a name of a channel, if there is one. -/
def lastList (c : Channel) (lists : List (String × List String)) : Option (List String) :=
  (lists.reverse.find? fun e => Channel.ofName? e.1 = some c).map Prod.snd

/-- Whether every list stands under the name of a channel. -/
def ChannelsKnown (lists : List (String × List String)) : Prop :=
  ∀ e ∈ lists, ∃ c, Channel.ofName? e.1 = some c

theorem lastList_cons (c : Channel) (e : String × List String)
    (rest : List (String × List String)) :
    lastList c (e :: rest) =
      (lastList c rest).or (if Channel.ofName? e.1 = some c then some e.2 else none) := by
  rw [lastList, List.reverse_cons, List.find?_append, lastList]
  by_cases h : Channel.ofName? e.1 = some c
  · cases List.find? _ rest.reverse <;> simp [h]
  · cases List.find? _ rest.reverse <;> simp [h]

/-- Lists one after another: all their channels are known, and of each channel the last list counts.
-/
theorem foldlM_listEntry_eq_some_iff (lists : List (String × List String)) (s t : Subscription) :
    lists.foldlM listEntry s = some t ↔
      ChannelsKnown lists ∧
        ∀ c, t.listed c = ((lastList c lists).map SymbolSet.ofList).or (s.listed c) := by
  induction lists generalizing s with
  | nil =>
    constructor
    · intro h
      cases h
      exact ⟨by simp [ChannelsKnown], fun c => rfl⟩
    · rintro ⟨-, hlisted⟩
      exact congrArg some (eq_of_listed fun c => (hlisted c).symm)
  | cons e rest ih =>
    rw [List.foldlM_cons, listEntry]
    cases hname : Channel.ofName? e.1 with
    | none => simp [ChannelsKnown, hname]
    | some d =>
      have hknown : ChannelsKnown (e :: rest) ↔ ChannelsKnown rest := by
        simp [ChannelsKnown, hname]
      rw [hknown, Option.map_some, Option.bind_eq_bind, Option.bind_some, ih]
      refine and_congr_right fun _ => forall_congr' fun c => ?_
      rw [lastList_cons, listed_list, hname]
      cases hlast : lastList c rest with
      | some l => simp
      | none =>
        by_cases hc : d = c
        · simp [hc]
        · simp [hc, Ne.symm hc]

theorem reads_list : Toml.Reads (Toml.list? Toml.asText?) fun l => .array (l.map .text) := by
  intro v l
  cases v with
  | array items => rw [Toml.list?, mapM_eq_some_iff_eq_map Toml.reads_text, Toml.array.injEq]
  | _ => simp [Toml.list?]

theorem ofToml?_eq_some_iff (v : Toml) (t : Subscription) :
    ofToml? v = some t ↔ ∃ lists, v = listing lists ∧ ChannelsKnown lists ∧
      ∀ c, t.listed c = (lastList c lists).map SymbolSet.ofList := by
  have hnone : ∀ c, ({} : Subscription).listed c = none := by
    intro c
    cases c <;> rfl
  have hentry : ∀ (e : String × Toml) (l : String × List String),
      (do some (e.1, ← Toml.list? Toml.asText? e.2)) = some l ↔
        e = (l.1, .array (l.2.map .text)) := by
    rintro ⟨name, v⟩ ⟨name', l⟩
    simp only [Option.bind_eq_bind, Option.bind_eq_some_iff, reads_list v _, Option.some.injEq,
      Prod.mk.injEq]
    constructor
    · rintro ⟨l', hlist, hname, rfl⟩
      exact ⟨hname, hlist⟩
    · rintro ⟨hname, hlist⟩
      exact ⟨l, hlist, hname, rfl⟩
  cases v with
  | table entries =>
    rw [ofToml?, Option.bind_eq_bind, Option.bind_eq_some_iff]
    simp only [mapM_eq_some_iff_eq_map hentry, ofEntries?_eq, foldlM_listEntry_eq_some_iff, hnone,
      Option.or_none, listing, Toml.table.injEq]
  | _ => simp [ofToml?, listing]

end Feed.Subscription

namespace Settings

open Toml (setting? setting?_eq_some_iff setting?_of_date exists_group?_iff reads_text reads_bool
  bind_member?)
open Feed (Subscription SymbolSet)
open Feed.Subscription (listing listing_injective lastList ChannelsKnown)

theorem reads_word : Toml.Reads word? fun w => .int w.toNat := by
  intro v w
  rw [word?, Option.map_eq_some_iff]
  simp only [Toml.asNat?_eq_some_iff]
  constructor
  · rintro ⟨n, ⟨rfl, hn⟩, rfl⟩
    rw [UInt64.toNat_ofNat_of_lt' hn]
  · rintro rfl
    exact ⟨w.toNat, ⟨rfl, w.toNat_lt⟩, UInt64.ofNat_toNat⟩

theorem reads_count : Toml.Reads count? fun w => .int w.toNat := by
  intro v w
  rw [count?, Option.map_eq_some_iff]
  simp only [Toml.asNat?_eq_some_iff]
  constructor
  · rintro ⟨n, ⟨rfl, hn⟩, rfl⟩
    rw [UInt32.toNat_ofNat_of_lt' hn]
  · rintro rfl
    exact ⟨w.toNat, ⟨rfl, w.toNat_lt⟩, UInt32.ofNat_toNat⟩

/-- The groups of settings. -/
inductive Group where
  | streaming
  | rest
  | naming
  | reconnect

namespace Group

def name : Group → String
  | streaming => "websocket"
  | rest => "rest"
  | naming => "symbols"
  | reconnect => "reconnect"

/-- The names of the settings of a group, in the order of an array. -/
def names : Group → List String
  | streaming => ["url", "connect_timeout_ms", "connection_id_base"]
  | rest => ["symbols_url", "throttle_limit", "throttle_interval_secs", "request_timeout_ms"]
  | naming => ["allow_missing", "separator"]
  | reconnect => ["base_backoff_ms", "max_backoff_ms", "max_attempts"]

end Group

theorem Streaming.ofToml?_eq_some_iff (v : Toml) (x : Streaming) :
    Streaming.ofToml? v = some x ↔ v.IsGroup ∧
      .text x.url = (v.member? Group.streaming.names "url").getD (.text ({} : Streaming).url) ∧
      .int x.connectTimeout.toNat = (v.member? Group.streaming.names "connect_timeout_ms").getD
        (.int ({} : Streaming).connectTimeout.toNat) ∧
      .text x.idBase = (v.member? Group.streaming.names "connection_id_base").getD
        (.text ({} : Streaming).idBase) := by
  simp only [Streaming.ofToml?, Option.bind_eq_bind, Option.bind_eq_some_iff,
    setting?_eq_some_iff reads_text, setting?_eq_some_iff reads_word, Group.names]
  refine exists_group?_iff fun group hsame => ?_
  simp only [hsame "url" (by decide), hsame "connect_timeout_ms" (by decide),
    hsame "connection_id_base" (by decide)]
  constructor
  · rintro ⟨url, hurl, connectTimeout, hconnectTimeout, idBase, hidBase, hx⟩
    cases hx
    exact ⟨hurl, hconnectTimeout, hidBase⟩
  · rintro ⟨hurl, hconnectTimeout, hidBase⟩
    exact ⟨_, hurl, _, hconnectTimeout, _, hidBase, rfl⟩

theorem Rest.ofToml?_eq_some_iff (v : Toml) (x : Rest) :
    Rest.ofToml? v = some x ↔ v.IsGroup ∧
      .text x.symbolsUrl =
        (v.member? Group.rest.names "symbols_url").getD (.text ({} : Rest).symbolsUrl) ∧
      .int x.limit.toNat =
        (v.member? Group.rest.names "throttle_limit").getD (.int ({} : Rest).limit.toNat) ∧
      .int x.interval.toNat = (v.member? Group.rest.names "throttle_interval_secs").getD
        (.int ({} : Rest).interval.toNat) ∧
      .int x.timeout.toNat = (v.member? Group.rest.names "request_timeout_ms").getD
        (.int ({} : Rest).timeout.toNat) := by
  simp only [Rest.ofToml?, Option.bind_eq_bind, Option.bind_eq_some_iff,
    setting?_eq_some_iff reads_text, setting?_eq_some_iff reads_word,
    setting?_eq_some_iff reads_count, Group.names]
  refine exists_group?_iff fun group hsame => ?_
  simp only [hsame "symbols_url" (by decide), hsame "throttle_limit" (by decide),
    hsame "throttle_interval_secs" (by decide), hsame "request_timeout_ms" (by decide)]
  constructor
  · rintro ⟨symbolsUrl, hsymbolsUrl, limit, hlimit, interval, hinterval, timeout, htimeout, hx⟩
    cases hx
    exact ⟨hsymbolsUrl, hlimit, hinterval, htimeout⟩
  · rintro ⟨hsymbolsUrl, hlimit, hinterval, htimeout⟩
    exact ⟨_, hsymbolsUrl, _, hlimit, _, hinterval, _, htimeout, rfl⟩

theorem Naming.ofToml?_eq_some_iff (v : Toml) (x : Naming) :
    Naming.ofToml? v = some x ↔ v.IsGroup ∧
      .bool x.allowMissing =
        (v.member? Group.naming.names "allow_missing").getD (.bool ({} : Naming).allowMissing) ∧
      .text x.separator =
        (v.member? Group.naming.names "separator").getD (.text ({} : Naming).separator) := by
  simp only [Naming.ofToml?, Option.bind_eq_bind, Option.bind_eq_some_iff,
    setting?_eq_some_iff reads_text, setting?_eq_some_iff reads_bool, Group.names]
  refine exists_group?_iff fun group hsame => ?_
  simp only [hsame "allow_missing" (by decide), hsame "separator" (by decide)]
  constructor
  · rintro ⟨allowMissing, hallowMissing, separator, hseparator, hx⟩
    cases hx
    exact ⟨hallowMissing, hseparator⟩
  · rintro ⟨hallowMissing, hseparator⟩
    exact ⟨_, hallowMissing, _, hseparator, rfl⟩

theorem Reconnect.ofToml?_eq_some_iff (v : Toml) (x : Reconnect) :
    Reconnect.ofToml? v = some x ↔ v.IsGroup ∧
      .int x.base.toNat = (v.member? Group.reconnect.names "base_backoff_ms").getD
        (.int ({} : Reconnect).base.toNat) ∧
      .int x.max.toNat = (v.member? Group.reconnect.names "max_backoff_ms").getD
        (.int ({} : Reconnect).max.toNat) ∧
      .int x.attempts.toNat = (v.member? Group.reconnect.names "max_attempts").getD
        (.int ({} : Reconnect).attempts.toNat) := by
  simp only [Reconnect.ofToml?, Option.bind_eq_bind, Option.bind_eq_some_iff,
    setting?_eq_some_iff reads_word, setting?_eq_some_iff reads_count, Group.names]
  refine exists_group?_iff fun group hsame => ?_
  simp only [hsame "base_backoff_ms" (by decide), hsame "max_backoff_ms" (by decide),
    hsame "max_attempts" (by decide)]
  constructor
  · rintro ⟨base, hbase, max, hmax, attempts, hattempts, hx⟩
    cases hx
    exact ⟨hbase, hmax, hattempts⟩
  · rintro ⟨hbase, hmax, hattempts⟩
    exact ⟨_, hbase, _, hmax, _, hattempts, rfl⟩

/-- The settings one by one. -/
inductive Key where
  | rawCapture
  | url
  | connectTimeout
  | idBase
  | symbolsUrl
  | limit
  | interval
  | timeout
  | allowMissing
  | separator
  | base
  | max
  | attempts

/-- What a setting may be. Numbers have so many bits. -/
inductive Kind where
  | text
  | flag
  | number (bits : Nat)

/-- Whether a value is of a kind and in its range. -/
def Kind.Fits : Kind → Toml → Prop
  | text, v => ∃ s, v = .text s
  | flag, v => ∃ b, v = .bool b
  | number bits, v => ∃ n : Nat, n < 1 <<< bits ∧ v = .int n

namespace Key

/-- The group in which a setting stands, if it is in one, and its name there. -/
def place : Key → Option Group × String
  | rawCapture => (none, "raw_capture")
  | url => (some .streaming, "url")
  | connectTimeout => (some .streaming, "connect_timeout_ms")
  | idBase => (some .streaming, "connection_id_base")
  | symbolsUrl => (some .rest, "symbols_url")
  | limit => (some .rest, "throttle_limit")
  | interval => (some .rest, "throttle_interval_secs")
  | timeout => (some .rest, "request_timeout_ms")
  | allowMissing => (some .naming, "allow_missing")
  | separator => (some .naming, "separator")
  | base => (some .reconnect, "base_backoff_ms")
  | max => (some .reconnect, "max_backoff_ms")
  | attempts => (some .reconnect, "max_attempts")

def kind : Key → Kind
  | rawCapture | allowMissing => .flag
  | url | idBase | symbolsUrl | separator => .text
  | connectTimeout | interval | timeout | base | max => .number 64
  | limit | attempts => .number 32

/-- The value of a setting as a document has it. -/
def shown (s : Settings) : Key → Toml
  | rawCapture => .bool s.rawCapture
  | url => .text s.streaming.url
  | connectTimeout => .int s.streaming.connectTimeout.toNat
  | idBase => .text s.streaming.idBase
  | symbolsUrl => .text s.rest.symbolsUrl
  | limit => .int s.rest.limit.toNat
  | interval => .int s.rest.interval.toNat
  | timeout => .int s.rest.timeout.toNat
  | allowMissing => .bool s.naming.allowMissing
  | separator => .text s.naming.separator
  | base => .int s.reconnect.base.toNat
  | max => .int s.reconnect.max.toNat
  | attempts => .int s.reconnect.attempts.toNat

/-- What a document gives for a setting, if it gives something. -/
def given (doc : Toml) (key : Key) : Option Toml :=
  match key.place with
  | (none, name) => doc.entry? name
  | (some g, name) => (doc.entry? g.name).bind (Toml.member? g.names name)

theorem fits_shown (key : Key) (s : Settings) : key.kind.Fits (key.shown s) := by
  cases key with
  | rawCapture => exact ⟨_, rfl⟩
  | url => exact ⟨_, rfl⟩
  | connectTimeout => exact ⟨_, UInt64.toNat_lt _, rfl⟩
  | idBase => exact ⟨_, rfl⟩
  | symbolsUrl => exact ⟨_, rfl⟩
  | limit => exact ⟨_, UInt32.toNat_lt _, rfl⟩
  | interval => exact ⟨_, UInt64.toNat_lt _, rfl⟩
  | timeout => exact ⟨_, UInt64.toNat_lt _, rfl⟩
  | allowMissing => exact ⟨_, rfl⟩
  | separator => exact ⟨_, rfl⟩
  | base => exact ⟨_, UInt64.toNat_lt _, rfl⟩
  | max => exact ⟨_, UInt64.toNat_lt _, rfl⟩
  | attempts => exact ⟨_, UInt32.toNat_lt _, rfl⟩

end Key

theorem ofToml?_table (entries : List (String × Toml)) (s : Settings) :
    ofToml? (.table entries) = some s ↔
      (∀ g : Group, ((entries.lookup g.name).getD .date).IsGroup) ∧
      (∀ key : Key, key.shown s = (key.given (.table entries)).getD (key.shown {})) ∧
      setting? entries "subscription" defaultSubscription Subscription.ofToml? =
        some s.subscription := by
  have hstreaming : Streaming.ofToml? .date = some {} := rfl
  have hrest : Rest.ofToml? .date = some {} := rfl
  have hnaming : Naming.ofToml? .date = some {} := rfl
  have hreconnect : Reconnect.ofToml? .date = some {} := rfl
  simp only [ofToml?, Toml.group?, Option.bind_eq_bind, Option.bind_some, Option.bind_eq_some_iff,
    setting?_eq_some_iff reads_bool, setting?_of_date hstreaming, setting?_of_date hrest,
    setting?_of_date hnaming, setting?_of_date hreconnect,
    Streaming.ofToml?_eq_some_iff, Rest.ofToml?_eq_some_iff, Naming.ofToml?_eq_some_iff,
    Reconnect.ofToml?_eq_some_iff, ← bind_member?]
  constructor
  · rintro ⟨rawCapture, hrawCapture, streaming, ⟨hstreaming, hurl, hconnectTimeout, hidBase⟩, rest,
      ⟨hrest, hsymbolsUrl, hlimit, hinterval, htimeout⟩, subscription, hsubscription, naming,
      ⟨hnaming, hallowMissing, hseparator⟩, reconnect, ⟨hreconnect, hbase, hmax, hattempts⟩, hs⟩
    cases hs
    refine ⟨fun g => ?_, fun key => ?_, hsubscription⟩
    · cases g with
      | streaming => exact hstreaming
      | rest => exact hrest
      | naming => exact hnaming
      | reconnect => exact hreconnect
    · cases key with
      | rawCapture => exact hrawCapture
      | url => exact hurl
      | connectTimeout => exact hconnectTimeout
      | idBase => exact hidBase
      | symbolsUrl => exact hsymbolsUrl
      | limit => exact hlimit
      | interval => exact hinterval
      | timeout => exact htimeout
      | allowMissing => exact hallowMissing
      | separator => exact hseparator
      | base => exact hbase
      | max => exact hmax
      | attempts => exact hattempts
  · rintro ⟨hgroups, hkeys, hsubscription⟩
    exact ⟨_, hkeys .rawCapture, _,
      ⟨hgroups .streaming, hkeys .url, hkeys .connectTimeout, hkeys .idBase⟩, _,
      ⟨hgroups .rest, hkeys .symbolsUrl, hkeys .limit, hkeys .interval, hkeys .timeout⟩, _,
      hsubscription, _, ⟨hgroups .naming, hkeys .allowMissing, hkeys .separator⟩, _,
      ⟨hgroups .reconnect, hkeys .base, hkeys .max, hkeys .attempts⟩, rfl⟩

theorem setting?_subscription (entries : List (String × Toml)) (default t : Subscription) :
    setting? entries "subscription" default Subscription.ofToml? = some t ↔
      (entries.lookup "subscription" = none → t = default) ∧
      ∀ v, entries.lookup "subscription" = some v → ∃ lists, v = listing lists ∧
        ChannelsKnown lists ∧
        ∀ c, t.listed c = (lastList c lists).map SymbolSet.ofList := by
  rw [setting?]
  cases entries.lookup "subscription" with
  | none => simp [eq_comm]
  | some v => simp [Subscription.ofToml?_eq_some_iff]

theorem Kind.Fits.exists_text {v : Toml} (h : Kind.text.Fits v) : ∃ s : String, .text s = v := by
  obtain ⟨s, rfl⟩ := h
  exact ⟨s, rfl⟩

theorem Kind.Fits.exists_flag {v : Toml} (h : Kind.flag.Fits v) : ∃ b : Bool, .bool b = v := by
  obtain ⟨b, rfl⟩ := h
  exact ⟨b, rfl⟩

theorem Kind.Fits.exists_word {v : Toml} (h : (Kind.number 64).Fits v) :
    ∃ w : UInt64, .int w.toNat = v := by
  obtain ⟨n, hn, rfl⟩ := h
  exact ⟨UInt64.ofNat n, by rw [UInt64.toNat_ofNat_of_lt' hn]⟩

theorem Kind.Fits.exists_count {v : Toml} (h : (Kind.number 32).Fits v) :
    ∃ w : UInt32, .int w.toNat = v := by
  obtain ⟨n, hn, rfl⟩ := h
  exact ⟨UInt32.ofNat n, by rw [UInt32.toNat_ofNat_of_lt' hn]⟩

/-- There are settings for any values that fit, each of them shown in its place. -/
theorem exists_shown {f : Key → Toml} (h : ∀ key : Key, key.kind.Fits (f key))
    (subscription : Subscription) :
    ∃ s : Settings, s.subscription = subscription ∧ ∀ key : Key, key.shown s = f key := by
  obtain ⟨rawCapture, hrawCapture⟩ := (h .rawCapture).exists_flag
  obtain ⟨url, hurl⟩ := (h .url).exists_text
  obtain ⟨connectTimeout, hconnectTimeout⟩ := (h .connectTimeout).exists_word
  obtain ⟨idBase, hidBase⟩ := (h .idBase).exists_text
  obtain ⟨symbolsUrl, hsymbolsUrl⟩ := (h .symbolsUrl).exists_text
  obtain ⟨limit, hlimit⟩ := (h .limit).exists_count
  obtain ⟨interval, hinterval⟩ := (h .interval).exists_word
  obtain ⟨timeout, htimeout⟩ := (h .timeout).exists_word
  obtain ⟨allowMissing, hallowMissing⟩ := (h .allowMissing).exists_flag
  obtain ⟨separator, hseparator⟩ := (h .separator).exists_text
  obtain ⟨base, hbase⟩ := (h .base).exists_word
  obtain ⟨max, hmax⟩ := (h .max).exists_word
  obtain ⟨attempts, hattempts⟩ := (h .attempts).exists_count
  refine ⟨{ rawCapture, subscription, streaming := { url, connectTimeout, idBase },
            rest := { symbolsUrl, limit, interval, timeout }, naming := { allowMissing, separator },
            reconnect := { base, max, attempts } }, rfl, fun key => ?_⟩
  cases key <;> assumption

/-- Whether a document says nothing that is out of place: each group is one, each setting given is
of its kind and in range, and the subscription lists symbols under names of channels. -/
structure Readable (doc : Toml) : Prop where
  groups : ∀ g : Group, ∀ v ∈ doc.entry? g.name, v.IsGroup
  keys : ∀ key : Key, ∀ v ∈ key.given doc, key.kind.Fits v
  subscription : ∀ v ∈ doc.entry? "subscription",
    ∃ lists, v = listing lists ∧ ChannelsKnown lists

/-- Whether settings are those of a document: each setting that the document gives, and otherwise
that without a document; and of a subscription that the document gives, what it lists and nothing
else. -/
structure Merges (doc : Toml) (s : Settings) : Prop where
  keys : ∀ key : Key, key.shown s = (key.given doc).getD (key.shown {})
  unlisted : doc.entry? "subscription" = none → s.subscription = defaultSubscription
  listed : ∀ lists, doc.entry? "subscription" = some (listing lists) →
    ∀ c, s.subscription.listed c =
      (lastList c lists).map SymbolSet.ofList

theorem ofText?_table {text : String} {doc : Toml} (h : Toml.ofText? text = some doc) :
    ∃ entries, doc = .table entries := by
  obtain ⟨lines, -, h⟩ := Option.bind_eq_some_iff.mp h
  obtain ⟨draft, -, h⟩ := Option.bind_eq_some_iff.mp h
  exact ⟨_, (Option.some.inj h).symm⟩

/-- A document is read if everything in it is in place, as settings that are its own. -/
theorem ofToml?_eq_some_iff (entries : List (String × Toml)) (s : Settings) :
    ofToml? (.table entries) = some s ↔
      Readable (.table entries) ∧ Merges (.table entries) s := by
  rw [ofToml?_table, setting?_subscription]
  constructor
  · rintro ⟨hgroups, hkeys, hunlisted, hlisted⟩
    refine ⟨⟨fun g v hv => ?_, fun key v hv => ?_, fun v hv => ?_⟩, ⟨hkeys, hunlisted, ?_⟩⟩
    · have hgroup := hgroups g
      rwa [show entries.lookup g.name = some v from hv] at hgroup
    · have hshown := hkeys key
      rw [show key.given (.table entries) = some v from hv] at hshown
      have hfits := key.fits_shown s
      rwa [hshown] at hfits
    · obtain ⟨lists, hlists, hknown, -⟩ := hlisted v hv
      exact ⟨lists, hlists, hknown⟩
    · intro lists hlists c
      obtain ⟨lists', hsame, -, hc⟩ := hlisted _ hlists
      rw [listing_injective hsame]
      exact hc c
  · rintro ⟨⟨hgroups, -, hsubscription⟩, ⟨hkeys, hunlisted, hlisted⟩⟩
    refine ⟨fun g => ?_, hkeys, hunlisted, fun v hv => ?_⟩
    · cases hv : entries.lookup g.name with
      | none => trivial
      | some v => exact hgroups g v hv
    · obtain ⟨lists, rfl, hknown⟩ := hsubscription v hv
      exact ⟨lists, rfl, hknown, hlisted lists hv⟩

theorem Readable.exists_merges {doc : Toml} (h : Readable doc) : ∃ s, Merges doc s := by
  have hfits : ∀ key : Key, key.kind.Fits ((key.given doc).getD (key.shown {})) := by
    intro key
    cases hgiven : key.given doc with
    | none => exact key.fits_shown {}
    | some v => exact h.keys key v hgiven
  cases hsubscription : doc.entry? "subscription" with
  | none =>
    obtain ⟨s, hs, hkeys⟩ := exists_shown hfits defaultSubscription
    exact ⟨s, hkeys, fun _ => hs, fun lists hlists => by simp [hsubscription] at hlists⟩
  | some v =>
    obtain ⟨lists, rfl, -⟩ := h.subscription v hsubscription
    obtain ⟨s, hs, hkeys⟩ := exists_shown hfits
      { ticker := (lastList .ticker lists).map SymbolSet.ofList
        trades := (lastList .trades lists).map SymbolSet.ofList
        orderbook := (lastList .orderbook lists).map SymbolSet.ofList }
    refine ⟨s, hkeys, fun hnone => by simp [hsubscription] at hnone, fun lists' hlists c => ?_⟩
    rw [hsubscription, Option.some.injEq] at hlists
    rw [hs, ← listing_injective hlists]
    cases c <;> rfl

/-- A document in which everything is in place is read as the settings that are its own, and there
are no others. Any other document is refused. -/
theorem document_merged {text : String} {doc : Toml} (hdoc : Toml.ofText? text = some doc) :
    (Readable doc → ∃ s, ofText text = .ok s ∧ Merges doc s ∧ ∀ t, Merges doc t → t = s) ∧
    (¬ Readable doc →
      ofText text = .error (.configuration "Failed to parse TOML configuration")) := by
  obtain ⟨entries, rfl⟩ := ofText?_table hdoc
  rw [ofText, hdoc, Option.bind_some]
  constructor
  · intro hreadable
    obtain ⟨s, hs⟩ := hreadable.exists_merges
    have hread := (ofToml?_eq_some_iff entries s).mpr ⟨hreadable, hs⟩
    rw [hread]
    refine ⟨s, rfl, hs, fun t ht => ?_⟩
    have hread' := (ofToml?_eq_some_iff entries t).mpr ⟨hreadable, ht⟩
    exact Option.some.inj (hread'.symm.trans hread)
  · intro hunreadable
    cases hread : ofToml? (.table entries) with
    | none => rfl
    | some s => exact absurd ((ofToml?_eq_some_iff entries s).mp hread).1 hunreadable

/-- Some of the settings, one name that is none, and another name of a channel. -/
def scant : Toml :=
  .table [("raw_capture", .bool true),
    ("rest", .table [("throttle_limit", .int 20), ("planet", .date)]),
    ("subscription", .table [("l2_book", .array [.text "A"])])]

/-- A number of one bit too many. -/
def excessive : Toml :=
  .table [("raw_capture", .bool true), ("rest", .table [("throttle_limit", .int 4294967296)])]

/-- What is given counts beside the rest of its group, and one number out of range counts for all.
-/
theorem document_merged_scant :
    (∃ text s, Toml.ofText? text = some scant ∧ Readable scant ∧ ofText text = .ok s ∧
      Key.shown s .limit = .int 20 ∧ Key.shown s .timeout = .int 10000 ∧
      s.subscription.listed .orderbook = some (.ofList ["A"]) ∧
      s.subscription.listed .ticker = none) ∧
    ∃ text, Toml.ofText? text = some excessive ∧ ¬ Readable excessive ∧
      ofText text = .error (.configuration "Failed to parse TOML configuration") := by
  have hscant : Toml.ofText? ("raw_capture = true\n[rest]\nthrottle_limit = 20\n" ++
      "planet = 1979-05-27\n[subscription]\nl2_book = ['A']") = some scant := by cbv
  have hexcessive : Toml.ofText? "raw_capture = true\nrest.throttle_limit = 4294967296" =
      some excessive := by cbv
  obtain ⟨t, hread⟩ : ∃ t, ofToml? scant = some t := ⟨_, rfl⟩
  have hreadable : Readable scant := ((ofToml?_eq_some_iff _ t).mp hread).1
  obtain ⟨s, hs, hmerges, -⟩ := (document_merged hscant).1 hreadable
  have hlisted := hmerges.listed [("l2_book", ["A"])] rfl
  have hunreadable : ¬ Readable excessive := by
    intro h
    obtain ⟨n, hn, hnumber⟩ := h.keys .limit (.int 4294967296) rfl
    cases hnumber
    exact absurd hn (by decide)
  exact ⟨⟨_, s, hscant, hreadable, hs, hmerges.keys .limit, hmerges.keys .timeout,
    hlisted .orderbook, hlisted .ticker⟩, _, hexcessive, hunreadable,
    (document_merged hexcessive).2 hunreadable⟩

/-- A group need not be a table: an array is read too, by the places in it. -/
theorem group_by_position :
    (∃ s, ofText "rest = ['https://mirror.test/symbols', 7]" = .ok s ∧ s.rest.limit = 7) ∧
    ¬ ∀ (text : String) (doc v : Toml) (g : Group), Toml.ofText? text = some doc →
      doc.entry? g.name = some v → (∀ entries, v ≠ .table entries) →
      ofText text = .error (.configuration "Failed to parse TOML configuration") := by
  have hdoc : Toml.ofText? "rest = ['https://mirror.test/symbols', 7]" =
      some (.table [("rest", .array [.text "https://mirror.test/symbols", .int 7])]) := by cbv
  have hread : ∃ s, ofText "rest = ['https://mirror.test/symbols', 7]" = .ok s ∧
      s.rest.limit = 7 := by
    rw [ofText, hdoc]
    exact ⟨_, rfl, rfl⟩
  refine ⟨hread, fun h => ?_⟩
  obtain ⟨s, hs, -⟩ := hread
  rw [h _ _ _ .rest hdoc rfl (fun _ hv => by cases hv)] at hs
  cases hs

end Settings

end MarketFeed
