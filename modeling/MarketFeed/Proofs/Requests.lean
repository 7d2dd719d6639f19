import Mathlib
import MarketFeed.Proofs.Forms
import MarketFeed.Proofs.Runs

/-!
The requests of an HTTP channel. Every turn on a channel that is waited on is lawful: a call on an
open channel by what comes of its request, one on a closed channel because it first opens it, and is
then the same as on the open one. A blocking channel does the same, so its turns are lawful too, and
both forms come to the same on any calls.
-/
namespace MarketFeed.Transport

namespace AsyncHttp

open Http (Course Form Turn perform turn)

variable {η : Type} {net : Network η} {s : AsyncHttp η} {agent : Agent} {network : η}

def form (net : Network η) : Form (AsyncHttp η) η :=
  { client := client net, agent := AsyncHttp.agent, timeout := AsyncHttp.timeout
    records := AsyncHttp.records, network := AsyncHttp.network }

theorem view_eq (s : AsyncHttp η) : (form net).view s =
    { identity := s.identity, isOpen := s.agent.isSome, agent := s.agent, timeout := s.timeout
      records := s.records, network := s.network } := rfl

section Performing

variable (net) (s)

theorem perform_connect : perform (form net) s .connect =
    (((connect net).on s).1, .done ((connect net).on s).2) := rfl

theorem perform_close : perform (form net) s .close = (s.close, .done (.ok ())) := rfl

theorem perform_read (request : Request) : perform (form net) s (.read request) =
    (((read net request).on s).1, .read ((read net request).on s).2) := rfl

theorem perform_write (address : String) (body : Octets) (headers : Headers) :
    perform (form net) s (.write address body headers) =
      (((write net address body headers).on s).1,
        .written ((write net address body headers).on s).2) := rfl

end Performing

/-- The channel once an agent has been built for it. -/
def opened (s : AsyncHttp η) (network : η) : AsyncHttp η :=
  { s with network, agent := some { timeout := s.timeout }, identity := s.identity.beginSession }

theorem session_of_agent (h : s.agent = some agent) : (session net).on s = (s, .ok agent) := by
  simp [session, h]

theorem session_of_built (h : s.agent = none)
    (hbuild : net.build s.network { timeout := s.timeout } = (true, network)) :
    (session net).on s = (s.opened network, .ok { timeout := s.timeout }) := by
  simp [session, connect, h, hbuild, opened]

theorem session_of_unbuilt (h : s.agent = none)
    (hbuild : net.build s.network { timeout := s.timeout } = (false, network)) :
    (session net).on s = ({ s with network }, .error (.http false)) := by
  simp [session, connect, h, hbuild]

/-- On a closed channel for which an agent can be built, an operation that needs one is the same as
on the channel that has been opened. -/
theorem on_of_built {α : Type} (f : Agent → Operation (AsyncHttp η) α) (h : s.agent = none)
    (hbuild : net.build s.network { timeout := s.timeout } = (true, network)) :
    (session net >>= f).on s = (session net >>= f).on (s.opened network) := by
  have hopened : (s.opened network).agent = some { timeout := s.timeout } := rfl
  rw [Operation.on_bind, Operation.on_bind, session_of_built h hbuild, session_of_agent hopened]

theorem on_of_unbuilt {α : Type} (f : Agent → Operation (AsyncHttp η) α) (h : s.agent = none)
    (hbuild : net.build s.network { timeout := s.timeout } = (false, network)) :
    (session net >>= f).on s = ({ s with network }, .error (.http false)) := by
  rw [Operation.on_bind, session_of_unbuilt h hbuild]

section Opening

variable (h : s.agent = none)
  (hbuild : net.build s.network { timeout := s.timeout } = (true, network)) {c : Http.Call}
  (hkeeps : c.isClose = false)

include h hbuild hkeeps

theorem perform_of_built :
    perform (form net) s c = perform (form net) (s.opened network) c := by
  cases c with
  | connect => simp [perform_connect, connect, h, hbuild, opened]
  | close => cases hkeeps
  | read request => simp only [perform_read, read, on_of_built _ h hbuild]
  | write address body headers => simp only [perform_write, write, on_of_built _ h hbuild]

theorem turn_of_built :
    turn net (form net) s c =
      (turn net (form net) (s.opened network) c).openingFrom ((form net).view s) := by
  have hcourse : Course.of net ((form net).view s) c =
      { Course.of net ((form net).view (s.opened network)) c with built? := some true } := by
    cases c with
    | connect | read | write =>
      simp [Course.of, view_eq, h, hbuild, opened, Course.sending, Http.Call.outgoing?]
    | close => cases hkeeps
  simp only [turn, Turn.openingFrom, perform_of_built h hbuild hkeeps, hcourse]

end Opening

section Sending

variable {request : Request} {response : Response} {transient : Bool} {body : Octets}
  (h : s.agent = some agent)
include h

/-- The course of a call that sends a request over an open channel. -/
theorem course_of_send {c : Http.Call} {outgoing : Outgoing} {outcome : Except Bool Response}
    (houtgoing : c.outgoing? = some outgoing)
    (hsend : net.send s.network agent outgoing = (outcome, network)) :
    Course.of net ((form net).view s) c = { outcome? := some outcome, network } := by
  cases c with
  | connect | close => cases houtgoing
  | read | write =>
    cases houtgoing
    simp [Course.of, view_eq, h, Course.sending, Http.Call.outgoing?, hsend]

theorem read_of_failed (hsend : net.send s.network agent
      { method := .get, address := request.address, headers := request.headers } =
        (.error transient, network)) :
    (read net request).on s = ({ s with network }, .error (.http transient)) := by
  simp [read, session_of_agent h, send, hsend]

theorem read_of_cut (hsend : net.send s.network agent
      { method := .get, address := request.address, headers := request.headers } =
        (.ok response, network)) (hbody : response.body = .error transient) :
    (read net request).on s = ({ s with network }, .error (.http transient)) := by
  simp [read, session_of_agent h, send, hsend, Response.bytes, hbody]

theorem read_of_delivered (hsend : net.send s.network agent
      { method := .get, address := request.address, headers := request.headers } =
        (.ok response, network)) (hbody : response.body = .ok body) :
    (read net request).on s =
      ({ s with
          network
          identity := s.identity.markReceived (net.now network)
          records := s.records.map (· ++ [{
            payload := some body, time := net.now network, connection := s.identity.id
            context := .endpoint request.address
              (if request.returnHeaders then some (Header.visible response.headers)
                else none) }]) },
        if isSuccess response.status then
          .ok { status := response.status, body
                headers :=
                  if request.returnHeaders then some (Header.visible response.headers) else none }
        else .error (.status s.identity.id request.address response.status)) := by
  cases hgood : isSuccess response.status <;>
    simp [read, session_of_agent h, send, hsend, Response.bytes, hbody, capture, checkStatus,
      hgood, Identity.markReceived]

theorem view_isOpen : ((form net).view s).isOpen = true := by simp [view_eq, h]

theorem lawful_read (request : Request) :
    (turn net (form net) s (.read request)).Lawful net s.identity.id := by
  obtain ⟨outcome, network, hsend⟩ : ∃ outcome network, net.send s.network agent
      { method := .get, address := request.address, headers := request.headers } =
        (outcome, network) := ⟨_, _, rfl⟩
  have hcourse := course_of_send h (c := .read request) rfl hsend
  have hopen : ((form net).view s).isOpen = true := view_isOpen h
  cases outcome with
  | error transient =>
    simp only [turn, hcourse, perform_read, read_of_failed h hsend]
    exact ⟨Turn.settled_of_agent h hopen rfl rfl rfl hopen rfl rfl,
      Turn.counted_of_undelivered rfl rfl rfl rfl, Turn.answered_of_read_failed rfl rfl rfl rfl⟩
  | ok response =>
    cases hbody : response.body with
    | error transient =>
      simp only [turn, hcourse, perform_read, read_of_cut h hsend hbody]
      have hnone : ({ outcome? := some (.ok response), network } : Course η).delivery? = none :=
        Course.delivery?_of_cut hbody
      exact ⟨Turn.settled_of_agent h hopen rfl rfl rfl hopen rfl rfl,
        Turn.counted_of_undelivered rfl hnone rfl rfl,
        Turn.answered_of_read_failed rfl hnone (Course.failure?_of_cut hbody) rfl⟩
    | ok body =>
      simp only [turn, hcourse, perform_read, read_of_delivered h hsend hbody]
      have hdelivery : ({ outcome? := some (.ok response), network } : Course η).delivery? =
          some { status := response.status, headers := response.headers, body } :=
        Course.delivery?_of_ok hbody
      refine ⟨Turn.settled_of_agent h hopen rfl rfl rfl hopen rfl rfl, ?_,
        Turn.answered_of_read rfl hdelivery (Course.failure?_of_ok hbody) rfl⟩
      constructor <;> simp [Turn.opens, Turn.isReceived, Turn.isSent, Turn.receipt?, Turn.record?,
        hdelivery, view_eq, Http.Call.isRead, Http.Call.isWrite, Http.Call.context?,
        Identity.markReceived]

variable {address : String} {payload : Octets} {headers : Headers}

theorem write_of_failed
    (hsend : net.send s.network agent { method := .post, address, headers, body := payload } =
      (.error transient, network)) :
    (write net address payload headers).on s = ({ s with network }, .error (.http transient)) := by
  simp [write, session_of_agent h, send, hsend]

theorem write_of_cut
    (hsend : net.send s.network agent { method := .post, address, headers, body := payload } =
      (.ok response, network)) (hbody : response.body = .error transient) :
    (write net address payload headers).on s =
      ({ s with network, identity := s.identity.markSent }, .error (.http transient)) := by
  simp [write, session_of_agent h, send, hsend, Response.bytes, hbody]

theorem write_of_delivered
    (hsend : net.send s.network agent { method := .post, address, headers, body := payload } =
      (.ok response, network)) (hbody : response.body = .ok body) :
    (write net address payload headers).on s =
      ({ s with
          network
          identity := s.identity.markSent
          records := s.records.map (· ++ [{
            payload := some body, time := net.now network, connection := s.identity.id
            context := .send address }]) },
        if isSuccess response.status then .ok body
        else .error (.status s.identity.id address response.status)) := by
  cases hgood : isSuccess response.status <;>
    simp [write, session_of_agent h, send, hsend, Response.bytes, hbody, capture, checkStatus,
      hgood, Identity.markSent]

theorem lawful_write (address : String) (payload : Octets) (headers : Headers) :
    (turn net (form net) s (.write address payload headers)).Lawful net s.identity.id := by
  obtain ⟨outcome, network, hsend⟩ : ∃ outcome network, net.send s.network agent
      { method := .post, address, headers, body := payload } = (outcome, network) := ⟨_, _, rfl⟩
  have hcourse := course_of_send h (c := .write address payload headers) rfl hsend
  have hopen : ((form net).view s).isOpen = true := view_isOpen h
  cases outcome with
  | error transient =>
    simp only [turn, hcourse, perform_write, write_of_failed h hsend]
    exact ⟨Turn.settled_of_agent h hopen rfl rfl rfl hopen rfl rfl,
      Turn.counted_of_undelivered rfl rfl rfl rfl, Turn.answered_of_write_failed rfl rfl rfl rfl⟩
  | ok response =>
    cases hbody : response.body with
    | error transient =>
      simp only [turn, hcourse, perform_write, write_of_cut h hsend hbody]
      have hnone : ({ outcome? := some (.ok response), network } : Course η).delivery? = none :=
        Course.delivery?_of_cut hbody
      exact ⟨Turn.settled_of_agent h hopen rfl rfl rfl hopen rfl rfl,
        Turn.counted_of_undelivered rfl hnone rfl rfl,
        Turn.answered_of_write_failed rfl hnone (Course.failure?_of_cut hbody) rfl⟩
    | ok body =>
      simp only [turn, hcourse, perform_write, write_of_delivered h hsend hbody]
      have hdelivery : ({ outcome? := some (.ok response), network } : Course η).delivery? =
          some { status := response.status, headers := response.headers, body } :=
        Course.delivery?_of_ok hbody
      refine ⟨Turn.settled_of_agent h hopen rfl rfl rfl hopen rfl rfl, ?_,
        Turn.answered_of_write rfl hdelivery (Course.failure?_of_ok hbody) rfl⟩
      constructor <;> simp [Turn.opens, Turn.isReceived, Turn.isSent, Turn.receipt?, Turn.record?,
        hdelivery, Course.head?_of_ok, view_eq, Http.Call.isRead, Http.Call.isWrite,
        Http.Call.context?, Identity.markSent]

theorem lawful_connect :
    (turn net (form net) s .connect).Lawful net s.identity.id := by
  have hconnect : (connect net).on s = (s, .ok ()) := by simp [connect, h]
  have hcourse : Course.of net ((form net).view s) .connect = { network := s.network } := by
    simp [Course.of, view_eq, h, Course.sending, Http.Call.outgoing?]
  have hopen : ((form net).view s).isOpen = true := view_isOpen h
  simp only [turn, hcourse, perform_connect, hconnect]
  refine ⟨Turn.settled_of_agent h hopen rfl rfl rfl hopen rfl rfl,
    Turn.counted_of_undelivered rfl rfl rfl rfl, ?_⟩
  constructor <;> simp

end Sending

theorem lawful_close (s : AsyncHttp η) :
    (turn net (form net) s .close).Lawful net s.identity.id := by
  have hcourse : Course.of net ((form net).view s) .close = { network := s.network } := rfl
  simp only [turn, hcourse, perform_close]
  refine ⟨?_, Turn.counted_of_undelivered rfl rfl rfl rfl, ?_⟩
  · constructor <;> simp [close, view_eq, Http.Call.isClose, Turn.opens]
  · constructor <;> simp

/-- Where no agent can be built a call fails, and the channel stays closed. -/
theorem lawful_of_unbuilt (h : s.agent = none)
    (hbuild : net.build s.network { timeout := s.timeout } = (false, network)) {c : Http.Call}
    (hkeeps : c.isClose = false) :
    (turn net (form net) s c).Lawful net s.identity.id := by
  have hcourse : Course.of net ((form net).view s) c = { built? := some false, network } := by
    cases c with
    | connect | read | write => simp [Course.of, view_eq, h, hbuild]
    | close => cases hkeeps
  have hafter : (perform (form net) s c).1 = { s with network } := by
    cases c with
    | connect => simp [perform_connect, connect, h, hbuild]
    | close => cases hkeeps
    | read request => simp only [perform_read, read, on_of_unbuilt _ h hbuild]
    | write address payload headers => simp only [perform_write, write, on_of_unbuilt _ h hbuild]
  have hclosed : ((form net).view s).isOpen = false := by simp [view_eq, h]
  have hsent : (turn net (form net) s c).isSent = false := by
    simp [Turn.isSent, turn, hcourse, Course.head?]
  have hnone : (turn net (form net) s c).course.delivery? = none := by
    simp [turn, hcourse, Course.delivery?, Course.head?]
  have hfailure : (turn net (form net) s c).course.failure? = some false := by
    simp [turn, hcourse, Course.failure?]
  refine ⟨?_, Turn.counted_of_undelivered ?_ hnone ?_ ?_, ?_⟩
  · constructor <;> simp [turn, hcourse, hafter, Turn.opens, hclosed, hkeeps]
    all_goals simp [view_eq, h]
  · simp [Turn.opens, turn, hcourse]
  · rw [hsent]
    simp [turn, hafter, view_eq]
  · simp [turn, hafter, view_eq]
  · cases c with
    | connect => constructor <;> simp [turn, hcourse, perform_connect, connect, h, hbuild]
    | close => cases hkeeps
    | read request =>
      refine Turn.answered_of_read_failed rfl hnone hfailure ?_
      simp only [turn, perform_read, read, on_of_unbuilt _ h hbuild]
    | write address payload headers =>
      refine Turn.answered_of_write_failed rfl hnone hfailure ?_
      simp only [turn, perform_write, write, on_of_unbuilt _ h hbuild]

/-- Every turn on the channel is lawful. -/
theorem lawful (net : Network η) (s : AsyncHttp η) (c : Http.Call) :
    (turn net (form net) s c).Lawful net s.identity.id := by
  cases hcloses : c.isClose with
  | true =>
    cases c with
    | close => exact lawful_close s
    | connect | read _ | write _ _ _ => cases hcloses
  | false =>
    have hknown : ∀ {u : AsyncHttp η} {agent : Agent}, u.agent = some agent →
        (turn net (form net) u c).Lawful net u.identity.id := by
      intro u agent h
      cases c with
      | connect => exact lawful_connect h
      | close => cases hcloses
      | read request => exact lawful_read h request
      | write address payload headers => exact lawful_write h address payload headers
    cases h : s.agent with
    | some agent => exact hknown h
    | none =>
      obtain ⟨built, network, hbuild⟩ :
          ∃ built network, net.build s.network { timeout := s.timeout } = (built, network) :=
        ⟨_, _, rfl⟩
      cases built with
      | false => exact lawful_of_unbuilt h hbuild hcloses
      | true =>
        have hclosed : ((form net).view s).isOpen = false := by simp [view_eq, h]
        have hopened : (s.opened network).agent = some { timeout := s.timeout } := rfl
        have hbuilt : (Course.of net ((form net).view (s.opened network)) c).built? = none := by
          cases c with
          | connect | read | write => rfl
          | close => cases hcloses
        rw [turn_of_built h hbuild hcloses]
        exact (hknown hopened).openingFrom hcloses hbuilt hclosed h rfl

end AsyncHttp

namespace BlockingHttp

open Http (Form perform turn)

variable {η : Type}

def form (net : Network η) : Form (BlockingHttp η) η :=
  { client := client net, agent := BlockingHttp.agent, timeout := BlockingHttp.timeout
    records := BlockingHttp.records, network := BlockingHttp.network }

/-- A call does the same in both forms. -/
theorem perform_blocking (net : Network η) (s : AsyncHttp η) (c : Http.Call) :
    perform (form net) s.blocking c =
      ((perform (AsyncHttp.form net) s c).1.blocking, (perform (AsyncHttp.form net) s c).2) := by
  cases c with
  | connect =>
    simp only [perform, form, client, AsyncHttp.form, AsyncHttp.client, agrees_connect net s]
  | close => rfl
  | read request =>
    simp only [perform, form, client, AsyncHttp.form, AsyncHttp.client, agrees_read net request s]
  | write address payload headers =>
    simp only [perform, form, client, AsyncHttp.form, AsyncHttp.client,
      agrees_write net address payload headers s]

theorem turn_blocking (net : Network η) (s : AsyncHttp η) (c : Http.Call) :
    turn net (form net) s.blocking c =
      turn net (AsyncHttp.form net) s c := by
  have hview : ∀ u : AsyncHttp η, (form net).view u.blocking = (AsyncHttp.form net).view u :=
    fun _ => rfl
  simp only [turn, perform_blocking, hview]

theorem lawful (net : Network η) (s : BlockingHttp η) (c : Http.Call) :
    (turn net (form net) s c).Lawful net s.identity.id := by
  obtain ⟨u, rfl⟩ : ∃ u : AsyncHttp η, u.blocking = s :=
    ⟨{ identity := s.identity, agent := s.agent, timeout := s.timeout, records := s.records
       network := s.network }, rfl⟩
  rw [turn_blocking]
  exact AsyncHttp.lawful net u c

end BlockingHttp

variable {η : Type}

/-- A channel that is new. -/
def AsyncHttp.fresh (id : String) (kind : Kind) (timeout : Option Nat) (captures : Bool)
    (network : η) : AsyncHttp η :=
  { identity := { id, kind }, timeout, records := if captures then some [] else none, network }

/-- A blocking channel that is new. -/
def BlockingHttp.fresh (id : String) (kind : Kind) (timeout : Option Nat) (captures : Bool)
    (network : η) : BlockingHttp η :=
  { identity := { id, kind }, timeout, records := if captures then some [] else none, network }

namespace Http

theorem fresh_accounted (net : Network η) (id : String) (kind : Kind) (timeout : Option Nat)
    (captures : Bool) (network : η) :
    Accounted net id captures []
      ((AsyncHttp.form net).view (.fresh id kind timeout captures network)) where
  id_eq := rfl
  isOpen_iff := by simp [AsyncHttp.view_eq, AsyncHttp.fresh, Lasts]
  sessions_eq := rfl
  received_eq := rfl
  sent_eq := rfl
  lastReceipt_eq := rfl
  records_eq := rfl

/-- The two forms of a channel do the same on any calls over networks that differ only in their
clocks. In each of them every turn is lawful, and the state, the counters and the records are what
the turns say. -/
theorem forms_agree (net : Network η) (clock : η → UInt64) (id : String) (kind : Kind)
    (timeout : Option Nat) (captures : Bool) (network : η) (calls : List Call) :
    let other : Network η := { net with now := clock }
    let new := AsyncHttp.fresh id kind timeout captures network
    let new' := BlockingHttp.fresh id kind timeout captures network
    let form := AsyncHttp.form net
    let form' := BlockingHttp.form other
    let last := form.view (performAll form new calls)
    let last' := form'.view (performAll form' new' calls)
    let log := turns net form new calls
    let log' := turns other form' new' calls
    log.map Turn.timeless = log'.map Turn.timeless ∧ last.timeless = last'.timeless ∧
      Accounted net id captures log last ∧ Accounted other id captures log' last' ∧
      (∀ t ∈ log, t.Lawful net id) ∧ ∀ t ∈ log', t.Lawful other id := by
  intro other new new' form form' last last' log log'
  have hasync : form.IsLawful net := AsyncHttp.lawful net
  have hblocking : form'.IsLawful other := BlockingHttp.lawful other
  have hnew : (form.view new).timeless = (form'.view new').timeless := rfl
  have hfresh : Accounted net id captures [] (form.view new) :=
    fresh_accounted net id kind timeout captures network
  have hfresh' : Accounted other id captures [] (form'.view new') :=
    fresh_accounted other id kind timeout captures network
  obtain ⟨hturns, hlast⟩ := turns_agree hasync hblocking calls hnew
  exact ⟨hturns, hlast, Accounted.run hasync hfresh calls, Accounted.run hblocking hfresh' calls,
    lawful_turns hasync rfl calls, lawful_turns hblocking rfl calls⟩

/-- A network on which it is listed in advance which agents can be built and what comes of
requests. -/
def listed : Network (List Bool × List (Except Bool Response)) where
  build w _ := (w.1.headD false, w.1.tail, w.2)
  send w _ _ := (w.2.headD (.error true), w.1, w.2.tail)
  now w := 10 - .ofNat w.2.length

/-- No agent at first, then one; a reply that reports a failure, one whose body breaks off, and one
that is good and has a header that cannot be shown. -/
def listing : List Bool × List (Except Bool Response) :=
  ([false, true, true], [.ok { status := 404, headers := [], body := .ok [0x78] },
    .ok { status := 200, headers := [], body := .error true },
    .ok { status := 200, headers := [("server", [0x71]), ("odd", [0xFF])], body := .ok [0x79] }])

/-- Calls that open a channel three times, the first time in vain. -/
def visits : List Call :=
  [.connect, .read { address := "a" }, .close, .write "b" [0x7A] [],
    .read { address := "c", returnHeaders := true }]

/-- The records of these calls. -/
def visited (first second : UInt64) : List Record :=
  [{ payload := some [0x78], time := first, connection := "feed.http.0"
     context := .endpoint "a" none },
    { payload := some [0x79], time := second, connection := "feed.http.0"
      context := .endpoint "c" (some [("server", "q")]) }]

theorem forms_agree_listed :
    let s := performAll (AsyncHttp.form listed)
      (.fresh "feed.http.0" .http none true listing) visits
    let s' := performAll (BlockingHttp.form { listed with now := fun _ => 1 })
      (.fresh "feed.http.0" .http none true listing) visits
    (s.isOpen = true ∧ s.identity.sessions = 2 ∧ s.identity.received = 1 ∧ s.identity.sent = 1 ∧
        s.identity.lastReceipt = 10 ∧ s.records = some (visited 8 10)) ∧
      (s'.isOpen = true ∧ s'.identity.sessions = 2 ∧ s'.identity.received = 1 ∧
        s'.identity.sent = 1 ∧ s'.identity.lastReceipt = 1 ∧ s'.records = some (visited 1 1)) := by
  obtain ⟨-, -, h, h', -⟩ :=
    forms_agree listed (fun _ => 1) "feed.http.0" .http none true listing visits
  have hkeeps : ∀ {η : Type} {t : Turn η}, t.closes = false → ∀ u ∈ [t], u.closes = false :=
    fun h => List.forall_mem_singleton.mpr h
  -- The fourth of the five turns is the one that opened the channel last.
  exact ⟨⟨h.isOpen_iff.mpr ⟨[_, _, _], _, [_], rfl, rfl, hkeeps rfl⟩, h.sessions_eq.trans rfl,
      h.received_eq.trans rfl, h.sent_eq.trans rfl, h.lastReceipt_eq.trans rfl,
      h.records_eq.trans rfl⟩,
    h'.isOpen_iff.mpr ⟨[_, _, _], _, [_], rfl, rfl, hkeeps rfl⟩, h'.sessions_eq.trans rfl,
      h'.received_eq.trans rfl, h'.sent_eq.trans rfl, h'.lastReceipt_eq.trans rfl,
      h'.records_eq.trans rfl⟩

end Http

end MarketFeed.Transport
