import Mathlib
import MarketFeed.Proofs.Accounting
import MarketFeed.Proofs.Turns

/-!
Lawful turns one after the other. The law of turns leaves nothing open but the times that are noted,
so forms of a channel that keep to it do the same on any calls, whatever their clocks say. And a
channel on which all turns are lawful is open, and has counted and captured, as its turns say: the
counters are those since it was last opened, and every body that arrived in full is captured.
-/
namespace MarketFeed.Transport

/-- An identity without the time of the last message. -/
def Identity.timeless (i : Identity) : Identity := { i with lastReceipt := 0 }

/-- A record without its time. -/
def Record.timeless (r : Record) : Record := { r with time := 0 }

namespace Http

variable {η σ τ : Type}

/-- A channel without the times that it has noted. -/
def View.timeless (v : View η) : View η :=
  { v with
    identity := v.identity.timeless
    records := v.records.map (·.map Record.timeless) }

/-- A turn without times. -/
def Turn.timeless (t : Turn η) : Turn η :=
  { t with before := t.before.timeless, after := t.after.timeless }

/-- What a call does on a network has nothing to do with times. -/
theorem Course.of_timeless (net : Network η) (v : View η) (c : Call) :
    Course.of net v.timeless c = Course.of net v c := rfl

/-- A call that sends a request gets a body, or it fails before one has arrived. -/
theorem Course.delivery_or_failure (net : Network η) (v : View η) {c : Call} {outgoing : Outgoing}
    (h : c.outgoing? = some outgoing) :
    (∃ d, (Course.of net v c).delivery? = some d) ∨
      ∃ transient, (Course.of net v c).failure? = some transient := by
  have hsends : ∀ (network : η) (agent : Agent) (built? : Option Bool), built? ≠ some false →
      (∃ d, (sending net built? network agent c).delivery? = some d) ∨
        ∃ transient, (sending net built? network agent c).failure? = some transient := by
    intro network agent built? hbuilt
    simp only [sending, h]
    cases (net.send network agent outgoing).1 with
    | error transient => exact Or.inr ⟨transient, by simp [failure?, hbuilt]⟩
    | ok response =>
      cases hbody : response.body with
      | error transient => exact Or.inr ⟨transient, by simp [failure?, hbuilt, hbody]⟩
      | ok body => exact Or.inl ⟨_, delivery?_of_ok hbody⟩
  cases hagent : v.agent with
  | some agent =>
    have hof : Course.of net v c = sending net none v.network agent c := by
      cases c with
      | close => cases h
      | connect | read | write => simp [Course.of, hagent]
    rw [hof]
    exact hsends _ _ none (by simp)
  | none =>
    cases hbuild : net.build v.network { timeout := v.timeout } with
    | mk built network =>
      have hof : Course.of net v c =
          if built then sending net (some true) network { timeout := v.timeout } c
          else { built? := some false, network } := by
        cases c with
        | close => cases h
        | connect | read | write => cases built <;> simp [Course.of, hagent, hbuild]
      rw [hof]
      cases built with
      | true => exact hsends _ _ (some true) (by simp)
      | false => exact Or.inr ⟨false, by simp [failure?]⟩

namespace Turn

variable {net other : Network η} {id : String} {t u : Turn η}

/-- A channel stays open until it is closed. -/
theorem Settled.isOpen_iff (h : t.Settled) (hopens : t.opens = false) :
    t.after.isOpen = true ↔ t.before.isOpen = true ∧ t.closes = false := by
  constructor
  · intro hopen
    constructor
    · by_contra hclosed
      rw [h.opens_iff.mpr ⟨Bool.eq_false_iff.mpr hclosed, hopen⟩] at hopens
      cases hopens
    · by_contra hcloses
      rw [h.isOpen_eq, h.agent_of_close (Bool.not_eq_false _ ▸ hcloses)] at hopen
      cases hopen
  · rintro ⟨hopen, hkeeps⟩
    have hbuilt : t.course.built? = none := by
      by_contra hsome
      have hclosed := (h.builds_iff.mp (Option.isSome_iff_ne_none.mpr hsome)).2
      rw [hopen] at hclosed
      cases hclosed
    rw [h.isOpen_eq, h.agent_of_other hkeeps hbuilt, ← h.wasOpen_eq, hopen]

theorem record?_timeless (hcall : t.call = u.call) (hcourse : t.course = u.course) :
    (t.record? net id).map Record.timeless = (u.record? other id).map Record.timeless := by
  rw [record?, record?, hcall, hcourse]
  cases u.course.delivery? with
  | none => rfl
  | some d => cases hcontext : u.call.context? d <;> simp [hcontext, Record.timeless]

/-- What comes of a call settles the answer. -/
theorem Answered.unique (ht : t.Answered id) (hu : u.Answered id) (hcall : t.call = u.call)
    (hcourse : t.course = u.course)
    (hends : ∀ outgoing, t.call.outgoing? = some outgoing →
      (∃ d, t.course.delivery? = some d) ∨ ∃ transient, t.course.failure? = some transient) :
    t.answer = u.answer := by
  cases hc : t.call with
  | connect => rw [ht.connect_eq hc, hu.connect_eq (hcall ▸ hc), hcourse]
  | close => rw [ht.close_eq hc, hu.close_eq (hcall ▸ hc)]
  | read request =>
    have hc' : u.call = .read request := hcall ▸ hc
    rcases hends _ (by rw [hc]; rfl) with ⟨d, hd⟩ | ⟨transient, hfails⟩
    · have hd' : u.course.delivery? = some d := hcourse ▸ hd
      by_cases hgood : d.IsGood
      · rw [(ht.read_ok request hc _).mpr ⟨d, hd, hgood, rfl⟩,
          (hu.read_ok request hc' _).mpr ⟨d, hd', hgood, rfl⟩]
      · rw [(ht.read_status request hc _ _ _).mpr ⟨rfl, rfl, d, hd, hgood, rfl⟩,
          (hu.read_status request hc' _ _ _).mpr ⟨rfl, rfl, d, hd', hgood, rfl⟩]
    · rw [(ht.read_http request hc _).mpr hfails,
        (hu.read_http request hc' _).mpr (hcourse ▸ hfails)]
  | write address body headers =>
    have hc' : u.call = .write address body headers := hcall ▸ hc
    rcases hends _ (by rw [hc]; rfl) with ⟨d, hd⟩ | ⟨transient, hfails⟩
    · have hd' : u.course.delivery? = some d := hcourse ▸ hd
      by_cases hgood : d.IsGood
      · rw [(ht.write_ok _ _ _ hc _).mpr ⟨d, hd, hgood, rfl⟩,
          (hu.write_ok _ _ _ hc' _).mpr ⟨d, hd', hgood, rfl⟩]
      · rw [(ht.write_status _ _ _ hc _ _ _).mpr ⟨rfl, rfl, d, hd, hgood, rfl⟩,
          (hu.write_status _ _ _ hc' _ _ _).mpr ⟨rfl, rfl, d, hd', hgood, rfl⟩]
    · rw [(ht.write_http _ _ _ hc _).mpr hfails,
        (hu.write_http _ _ _ hc' _).mpr (hcourse ▸ hfails)]

theorem Settled.agent_unique (ht : t.Settled) (hu : u.Settled) (hcall : t.call = u.call)
    (hcourse : t.course = u.course) (hagent : t.before.agent = u.before.agent)
    (htimeout : t.before.timeout = u.before.timeout) : t.after.agent = u.after.agent := by
  cases hcloses : t.call.isClose with
  | true => rw [ht.agent_of_close hcloses, hu.agent_of_close (hcall ▸ hcloses)]
  | false =>
    have hcloses' : u.call.isClose = false := hcall ▸ hcloses
    cases hbuilt : t.course.built? with
    | none =>
      have hbuilt' : u.course.built? = none := hcourse ▸ hbuilt
      rw [ht.agent_of_other hcloses hbuilt, hu.agent_of_other hcloses' hbuilt', hagent]
    | some built =>
      have hbuilt' : u.course.built? = some built := hcourse ▸ hbuilt
      cases built with
      | true => rw [ht.agent_of_built hbuilt, hu.agent_of_built hbuilt', htimeout]
      | false => rw [ht.agent_of_unbuilt hbuilt, hu.agent_of_unbuilt hbuilt']

theorem Counted.identity_unique (ht : t.Counted net id) (hu : u.Counted other id)
    (hcall : t.call = u.call) (hcourse : t.course = u.course)
    (hidentity : t.before.identity.timeless = u.before.identity.timeless) :
    t.after.identity.timeless = u.after.identity.timeless := by
  have hopens : t.opens = u.opens := by rw [opens, opens, hcourse]
  have hreceived : t.isReceived = u.isReceived := by rw [isReceived, isReceived, hcall, hcourse]
  have hsent : t.isSent = u.isSent := by rw [isSent, isSent, hcall, hcourse]
  simp only [Identity.timeless, Identity.mk.injEq] at hidentity ⊢
  obtain ⟨hid, hkind, hsentBefore, hreceivedBefore, -, hsessions⟩ := hidentity
  refine ⟨?_, ?_, ?_, ?_, trivial, ?_⟩
  · rw [ht.id_eq, hu.id_eq, hid]
  · rw [ht.kind_eq, hu.kind_eq, hkind]
  · rw [ht.sent_eq, hu.sent_eq, hopens, hsent, hsentBefore]
  · rw [ht.received_eq, hu.received_eq, hopens, hreceived, hreceivedBefore]
  · rw [ht.sessions_eq, hu.sessions_eq, hopens, hsessions]

theorem Counted.records_unique (ht : t.Counted net id) (hu : u.Counted other id)
    (hcall : t.call = u.call) (hcourse : t.course = u.course)
    (hrecords : t.before.records.map (·.map Record.timeless) =
      u.before.records.map (·.map Record.timeless)) :
    t.after.records.map (·.map Record.timeless) =
      u.after.records.map (·.map Record.timeless) := by
  have hmapped : ∀ (records : Option (List Record)) (r : Option Record),
      (records.map (· ++ r.toList)).map (·.map Record.timeless) =
        (records.map (·.map Record.timeless)).map (· ++ (r.map Record.timeless).toList) := by
    intro records r
    cases records <;> cases r <;> simp
  rw [ht.records_eq, hu.records_eq, hmapped, hmapped, hrecords,
    record?_timeless hcall hcourse]

/-- The law of turns leaves nothing open but the times. -/
theorem Lawful.unique (ht : t.Lawful net id) (hu : u.Lawful other id) (hcall : t.call = u.call)
    (hcourse : t.course = u.course) (hbefore : t.before.timeless = u.before.timeless)
    (hends : ∀ outgoing, t.call.outgoing? = some outgoing →
      (∃ d, t.course.delivery? = some d) ∨ ∃ transient, t.course.failure? = some transient) :
    t.timeless = u.timeless := by
  have hparts := hbefore
  simp only [View.timeless, View.mk.injEq] at hparts
  obtain ⟨hidentity, -, hagent, htimeout, hrecords, -⟩ := hparts
  have hagentAfter := ht.agent_unique hu.toSettled hcall hcourse hagent htimeout
  have hafter : t.after.timeless = u.after.timeless := by
    simp only [View.timeless, View.mk.injEq]
    exact ⟨ht.identity_unique hu.toCounted hcall hcourse hidentity,
      by rw [ht.isOpen_eq, hu.isOpen_eq, hagentAfter], hagentAfter,
      by rw [ht.timeout_eq, hu.timeout_eq, htimeout],
      ht.records_unique hu.toCounted hcall hcourse hrecords,
      by rw [ht.network_eq, hu.network_eq, hcourse]⟩
  have hanswer := ht.toAnswered.unique hu.toAnswered hcall hcourse hends
  simp only [timeless, Turn.mk.injEq]
  exact ⟨hbefore, hcall, hcourse, hafter, hanswer⟩

end Turn

/-- Whether every turn on a form of channel is lawful. -/
def Form.IsLawful (net : Network η) (f : Form σ η) : Prop :=
  ∀ s c, (turn net f s c).Lawful net (f.view s).identity.id

section Agreement

variable {net : Network η} {clock : η → UInt64} {f : Form σ η} {g : Form τ η}

/-- Channels that are lawful and in the same state do the same, whatever the clocks say. -/
theorem turns_agree (h : f.IsLawful net)
    (h' : g.IsLawful { net with now := clock }) (calls : List Call) {s : σ} {t : τ}
    (hsame : (f.view s).timeless = (g.view t).timeless) :
    (turns net f s calls).map Turn.timeless =
        (turns { net with now := clock } g t calls).map Turn.timeless ∧
      (f.view (performAll f s calls)).timeless =
        (g.view (performAll g t calls)).timeless := by
  induction calls generalizing s t with
  | nil => exact ⟨rfl, hsame⟩
  | cons c rest ih =>
    have hid : (f.view s).timeless.identity.id = (g.view t).timeless.identity.id := by rw [hsame]
    have hid' : (f.view s).identity.id = (g.view t).identity.id := hid
    have hcourse : Course.of net (f.view s) c = Course.of { net with now := clock } (g.view t) c :=
      calc Course.of net (f.view s) c = Course.of net (f.view s).timeless c := by
            rw [Course.of_timeless]
        _ = Course.of net (g.view t).timeless c := by rw [hsame]
        _ = Course.of { net with now := clock } (g.view t) c := rfl
    have hlawful := h' t c
    rw [← hid'] at hlawful
    have hturn := (h s c).unique hlawful rfl hcourse hsame fun outgoing houtgoing =>
      Course.delivery_or_failure net (f.view s) houtgoing
    obtain ⟨hturns, hlast⟩ := ih (congrArg Turn.after hturn)
    refine ⟨?_, hlast⟩
    rw [turns, turns, List.map_cons, List.map_cons, hturn, hturns]

end Agreement

/-- A channel whose state, counters and records are what the turns on it say. Messages are counted
from the turn on that opened the channel last, in 64 bits. -/
structure Accounted (net : Network η) (id : String) (captures : Bool) (log : List (Turn η))
    (v : View η) : Prop where
  id_eq : v.identity.id = id
  isOpen_iff : v.isOpen = true ↔ Lasts Turn.opens Turn.closes log
  sessions_eq : v.identity.sessions = .ofNat (log.countP Turn.opens)
  received_eq : v.identity.received = .ofNat ((latest Turn.opens log).countP Turn.isReceived)
  sent_eq : v.identity.sent = .ofNat ((latest Turn.opens log).countP Turn.isSent)
  lastReceipt_eq : v.identity.lastReceipt =
    ((latest Turn.opens log).filterMap (Turn.receipt? net)).getLast?.getD 0
  records_eq : v.records = if captures then some (log.filterMap (Turn.record? net id)) else none

section Accounts

variable {net : Network η} {id : String} {captures : Bool} {log : List (Turn η)}
  {f : Form σ η}

/-- One more turn is accounted for. -/
theorem Accounted.turn {t : Turn η} (h : Accounted net id captures log t.before)
    (ht : t.Lawful net id) : Accounted net id captures (log ++ [t]) t.after where
  id_eq := ht.id_eq.trans h.id_eq
  isOpen_iff := by
    cases hopens : t.opens with
    | true => simp [(ht.opens_iff.mp hopens).2, lasts_snoc_of_begins Turn.closes hopens]
    | false => rw [ht.isOpen_iff hopens, h.isOpen_iff, lasts_snoc Turn.closes hopens]
  sessions_eq := by rw [ht.sessions_eq, h.sessions_eq, count_snoc]
  received_eq := by rw [ht.received_eq, h.received_eq, count_latest_snoc]
  sent_eq := by rw [ht.sent_eq, h.sent_eq, count_latest_snoc]
  lastReceipt_eq := by rw [ht.lastReceipt_eq, h.lastReceipt_eq, getLast?_latest_snoc]
  records_eq := by rw [ht.records_eq, h.records_eq, captured_snoc]

theorem Accounted.run (hlawful : f.IsLawful net) {s : σ}
    (h : Accounted net id captures log (f.view s)) (calls : List Call) :
    Accounted net id captures (log ++ turns net f s calls)
      (f.view (performAll f s calls)) := by
  induction calls generalizing log s with
  | nil => simpa [turns, performAll] using h
  | cons c rest ih =>
    have hturn := hlawful s c
    rw [h.id_eq] at hturn
    have hnext : Accounted net id captures (log ++ [Http.turn net f s c])
        (f.view (perform f s c).1) := Accounted.turn h hturn
    simpa [turns, performAll] using ih hnext

theorem lawful_turns (hlawful : f.IsLawful net) {s : σ}
    (hid : (f.view s).identity.id = id) (calls : List Call) :
    ∀ t ∈ turns net f s calls, t.Lawful net id := by
  induction calls generalizing s with
  | nil => simp [turns]
  | cons c rest ih =>
    have hturn := hlawful s c
    rw [hid] at hturn
    intro t ht
    rcases List.mem_cons.mp ht with rfl | ht
    · exact hturn
    · exact ih (hturn.id_eq.trans hid) t ht

end Accounts

end Http

end MarketFeed.Transport
