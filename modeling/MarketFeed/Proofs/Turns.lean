import Mathlib
import MarketFeed.Transport.Http

/-!
Turns on an HTTP channel. What a call does on the network is worked out from the network alone:
whether an agent has to be built and can be, and what comes of the request. The law of turns says
what this makes of the channel and what the call is answered: when the channel is open, which
messages it counts, which bodies it captures.
-/
namespace MarketFeed.Transport

/-- A reply whose body has arrived in full. -/
structure Delivery where
  status : Nat
  headers : List Header.Raw
  body : Octets

/-- Whether a reply reports success. -/
def Delivery.IsGood (d : Delivery) : Prop := 200 ≤ d.status ∧ d.status < 300

def Response.delivery? (r : Response) : Option Delivery :=
  r.body.toOption.map fun body => { status := r.status, headers := r.headers, body }

namespace Http

/-- What can be asked of a channel. -/
inductive Call where
  | connect
  | close
  | read (request : Request)
  | write (address : String) (body : Octets) (headers : Headers)

namespace Call

def isClose : Call → Bool
  | close => true
  | _ => false

def isRead : Call → Bool
  | read _ => true
  | _ => false

def isWrite : Call → Bool
  | write .. => true
  | _ => false

def outgoing? : Call → Option Outgoing
  | read request => some { method := .get, address := request.address, headers := request.headers }
  | write address body headers => some { method := .post, address, headers, body }
  | connect | close => none

/-- How a body that arrives is captured: headers come with it if the request asked for them. -/
def context? : Call → Delivery → Option Context
  | read request, d =>
    some (.endpoint request.address
      (if request.returnHeaders then some (Header.visible d.headers) else none))
  | write address _ _, _ => some (.send address)
  | _, _ => none

end Call

inductive Answer where
  | done (result : Except Error Unit)
  | read (result : Except Error Reply)
  | written (result : Except Error Octets)

/-- What there is to see of a channel, in whichever form. -/
structure View (η : Type) where
  identity : Identity
  isOpen : Bool
  agent : Option Agent
  timeout : Option Nat
  records : Option (List Record)
  network : η

variable {η σ τ : Type}

/-- What a call does on a network: whether it has an agent built and that is possible, what comes of
the request that it sends, and the state in which it leaves the network. -/
structure Course (η : Type) where
  built? : Option Bool := none
  outcome? : Option (Except Bool Response) := none
  network : η

namespace Course

/-- With an agent a call sends its request, if it has one. -/
def sending (net : Network η) (built? : Option Bool) (network : η) (agent : Agent) (c : Call) :
    Course η :=
  match c.outgoing? with
  | some outgoing =>
    let (outcome, network) := net.send network agent outgoing
    { built?, outcome? := some outcome, network }
  | none => { built?, network }

/-- A call has an agent built where there is none, unless it is to close the channel. -/
def of (net : Network η) (v : View η) (c : Call) : Course η :=
  match c, v.agent with
  | .close, _ => { network := v.network }
  | c, some agent => sending net none v.network agent c
  | c, none =>
    let agent : Agent := { timeout := v.timeout }
    match net.build v.network agent with
    | (true, network) => sending net (some true) network agent c
    | (false, network) => { built? := some false, network }

/-- The reply, once its head has arrived. -/
def head? (c : Course η) : Option Response := c.outcome?.bind Except.toOption

def delivery? (c : Course η) : Option Delivery := c.head?.bind Response.delivery?

/-- Whether the failure of a call is transient, if it fails before a body has arrived. That no agent
could be built is not. -/
def failure? (c : Course η) : Option Bool :=
  if c.built? = some false then some false
  else
    match c.outcome? with
    | some (.error transient) => some transient
    | some (.ok response) =>
      match response.body with
      | .error transient => some transient
      | .ok _ => none
    | none => none

section Arriving

variable {built? : Option Bool} {network : η} {response : Response} {body : Octets}
  {transient : Bool}

theorem head?_of_ok :
    ({ built?, outcome? := some (.ok response), network } : Course η).head? = some response := rfl

theorem delivery?_of_cut (h : response.body = .error transient) :
    ({ built?, outcome? := some (.ok response), network } : Course η).delivery? = none := by
  simp [delivery?, head?_of_ok, Response.delivery?, h, Except.toOption]

theorem delivery?_of_ok (h : response.body = .ok body) :
    ({ built?, outcome? := some (.ok response), network } : Course η).delivery? =
      some { status := response.status, headers := response.headers, body } := by
  simp [delivery?, head?_of_ok, Response.delivery?, h, Except.toOption]

theorem failure?_of_cut (h : response.body = .error transient) :
    ({ outcome? := some (.ok response), network } : Course η).failure? = some transient := by
  simp [failure?, h]

theorem failure?_of_ok (h : response.body = .ok body) :
    ({ outcome? := some (.ok response), network } : Course η).failure? = none := by
  simp [failure?, h]

end Arriving

end Course

/-- A call on a channel, with what it does on the network. -/
structure Turn (η : Type) where
  before : View η
  call : Call
  course : Course η
  after : View η
  answer : Answer

/-- A form of channel: what can be done with it, and what there is to see of it. -/
structure Form (σ η : Type) where
  client : Client σ
  agent : σ → Option Agent
  timeout : σ → Option Nat
  records : σ → Option (List Record)
  network : σ → η

def Form.view (f : Form σ η) (s : σ) : View η :=
  { identity := f.client.identity s, isOpen := f.client.isOpen s, agent := f.agent s
    timeout := f.timeout s, records := f.records s, network := f.network s }

section Runs

variable (net : Network η) (f : Form σ η)

/-- A channel after a call, and the answer. -/
def perform (s : σ) : Call → σ × Answer
  | .connect => ((f.client.connect s).1, .done (f.client.connect s).2)
  | .close => (f.client.close s, .done (.ok ()))
  | .read request => ((f.client.read s request).1, .read (f.client.read s request).2)
  | .write address body headers =>
    ((f.client.write s address body headers).1, .written (f.client.write s address body headers).2)

def turn (s : σ) (c : Call) : Turn η :=
  { before := f.view s, call := c, course := .of net (f.view s) c
    after := f.view (perform f s c).1, answer := (perform f s c).2 }

/-- Calls one after the other. -/
def turns : σ → List Call → List (Turn η)
  | _, [] => []
  | s, c :: rest => turn net f s c :: turns (perform f s c).1 rest

/-- A channel after calls one after the other. -/
def performAll (s : σ) (calls : List Call) : σ :=
  calls.foldl (fun s c => (perform f s c).1) s

end Runs

namespace Turn

/-- Whether an agent was built, which opens the channel. -/
def opens (t : Turn η) : Bool := t.course.built? == some true

def closes (t : Turn η) : Bool := t.call.isClose

/-- Whether a body that was to be read has arrived in full. -/
def isReceived (t : Turn η) : Bool := t.call.isRead && t.course.delivery?.isSome

/-- Whether the head of a reply to what was written has arrived. -/
def isSent (t : Turn η) : Bool := t.call.isWrite && t.course.head?.isSome

/-- The time at which a body that was to be read was there. -/
def receipt? (net : Network η) (t : Turn η) : Option UInt64 :=
  if t.isReceived then some (net.now t.course.network) else none

/-- The record of the body that arrived. -/
def record? (net : Network η) (id : String) (t : Turn η) : Option Record :=
  t.course.delivery?.bind fun d => (t.call.context? d).map fun context =>
    { payload := some d.body, time := net.now t.course.network, connection := id, context }

/-- When a channel is open. Any call but to close it opens a closed channel first, unless no agent
can be built. -/
structure Settled (t : Turn η) : Prop where
  network_eq : t.after.network = t.course.network
  timeout_eq : t.after.timeout = t.before.timeout
  wasOpen_eq : t.before.isOpen = t.before.agent.isSome
  isOpen_eq : t.after.isOpen = t.after.agent.isSome
  builds_iff : t.course.built?.isSome = true ↔ t.call.isClose = false ∧ t.before.isOpen = false
  agent_of_close : t.call.isClose = true → t.after.agent = none
  agent_of_built : t.course.built? = some true →
    t.after.agent = some { timeout := t.before.timeout }
  agent_of_unbuilt : t.course.built? = some false → t.after.agent = none
  agent_of_other : t.call.isClose = false → t.course.built? = none →
    t.after.agent = t.before.agent
  opens_iff : t.opens = true ↔ t.before.isOpen = false ∧ t.after.isOpen = true

/-- What is counted and captured in a turn. -/
structure Counted (net : Network η) (id : String) (t : Turn η) : Prop where
  id_eq : t.after.identity.id = t.before.identity.id
  kind_eq : t.after.identity.kind = t.before.identity.kind
  sessions_eq : t.after.identity.sessions =
    t.before.identity.sessions + if t.opens then 1 else 0
  received_eq : t.after.identity.received =
    (if t.opens then 0 else t.before.identity.received) + if t.isReceived then 1 else 0
  sent_eq : t.after.identity.sent =
    (if t.opens then 0 else t.before.identity.sent) + if t.isSent then 1 else 0
  lastReceipt_eq : t.after.identity.lastReceipt =
    (t.receipt? net).getD (if t.opens then 0 else t.before.identity.lastReceipt)
  records_eq : t.after.records = t.before.records.map (· ++ (t.record? net id).toList)

/-- What a call is answered. -/
structure Answered (id : String) (t : Turn η) : Prop where
  connect_eq : t.call = .connect →
    t.answer = .done (if t.course.built? = some false then .error (.http false) else .ok ())
  close_eq : t.call = .close → t.answer = .done (.ok ())
  read_ok : ∀ request, t.call = .read request → ∀ reply, t.answer = .read (.ok reply) ↔
    ∃ d, t.course.delivery? = some d ∧ d.IsGood ∧
      reply = { status := d.status, body := d.body,
                headers := if request.returnHeaders then some (Header.visible d.headers)
                  else none }
  read_status : ∀ request, t.call = .read request → ∀ i address code,
    t.answer = .read (.error (.status i address code)) ↔
      i = id ∧ address = request.address ∧
        ∃ d, t.course.delivery? = some d ∧ ¬ d.IsGood ∧ code = d.status
  read_http : ∀ request, t.call = .read request → ∀ transient,
    t.answer = .read (.error (.http transient)) ↔ t.course.failure? = some transient
  write_ok : ∀ address body headers, t.call = .write address body headers → ∀ answer,
    t.answer = .written (.ok answer) ↔
      ∃ d, t.course.delivery? = some d ∧ d.IsGood ∧ answer = d.body
  write_status : ∀ address body headers, t.call = .write address body headers →
    ∀ i address' code, t.answer = .written (.error (.status i address' code)) ↔
      i = id ∧ address' = address ∧
        ∃ d, t.course.delivery? = some d ∧ ¬ d.IsGood ∧ code = d.status
  write_http : ∀ address body headers, t.call = .write address body headers → ∀ transient,
    t.answer = .written (.error (.http transient)) ↔ t.course.failure? = some transient

/-- The law of turns. -/
structure Lawful (net : Network η) (id : String) (t : Turn η) : Prop
    extends Settled t, Counted net id t, Answered id t

end Turn

namespace Turn

variable {net : Network η} {id : String} {t : Turn η}

/-- In a turn without an agent built and without any of a body, nothing but what is sent is counted,
and nothing is captured. -/
theorem counted_of_undelivered (hopens : t.opens = false) (hnone : t.course.delivery? = none)
    (hidentity : t.after.identity =
      if t.isSent then t.before.identity.markSent else t.before.identity)
    (hrecords : t.after.records = t.before.records) : t.Counted net id := by
  have hreceived : t.isReceived = false := by simp [isReceived, hnone]
  cases hsent : t.isSent <;> constructor <;>
    simp [hopens, hreceived, hsent, hidentity, hrecords, receipt?, record?, hnone,
      Identity.markSent]

theorem checked_ok_iff {α : Type} {status : Nat} {a b : α} {e : Error} :
    (if isSuccess status then .ok a else .error e : Except Error α) = .ok b ↔
      (200 ≤ status ∧ status < 300) ∧ b = a := by
  by_cases hgood : 200 ≤ status ∧ status < 300
  · simpa [isSuccess, hgood] using eq_comm
  · simp [isSuccess, hgood]

theorem checked_error_iff {α : Type} {status : Nat} {a : α} {e e' : Error} :
    (if isSuccess status then .ok a else .error e : Except Error α) = .error e' ↔
      ¬ (200 ≤ status ∧ status < 300) ∧ e' = e := by
  by_cases hgood : 200 ≤ status ∧ status < 300
  · simp [isSuccess, hgood]
  · simpa [isSuccess, hgood] using eq_comm

/-- The delivery that is refused is the one that arrived. -/
theorem refused_iff {d : Delivery} {i address address' : String} {code : Nat} :
    (¬ (200 ≤ d.status ∧ d.status < 300) ∧ i = id ∧ address' = address ∧ code = d.status) ↔
      i = id ∧ address' = address ∧
        ∃ d', some d = some d' ∧ ¬ (200 ≤ d'.status ∧ d'.status < 300) ∧ code = d'.status := by
  constructor
  · rintro ⟨hbad, hi, haddress, hcode⟩
    exact ⟨hi, haddress, d, rfl, hbad, hcode⟩
  · rintro ⟨hi, haddress, _, hsame, hbad, hcode⟩
    cases hsame
    exact ⟨hbad, hi, haddress, hcode⟩

section Answers

variable {request : Request} {address : String} {payload : Octets} {headers : Headers}
  {transient : Bool} {d : Delivery}

theorem answered_of_read_failed (hcall : t.call = .read request)
    (hnone : t.course.delivery? = none) (hfailure : t.course.failure? = some transient)
    (hanswer : t.answer = .read (.error (.http transient))) : t.Answered id := by
  constructor <;> simp [hcall, hnone, hfailure, hanswer]

theorem answered_of_write_failed (hcall : t.call = .write address payload headers)
    (hnone : t.course.delivery? = none) (hfailure : t.course.failure? = some transient)
    (hanswer : t.answer = .written (.error (.http transient))) : t.Answered id := by
  constructor <;> simp [hcall, hnone, hfailure, hanswer]

theorem answered_of_read (hcall : t.call = .read request) (hdelivery : t.course.delivery? = some d)
    (hfailure : t.course.failure? = none)
    (hanswer : t.answer = .read (if isSuccess d.status then
      .ok { status := d.status, body := d.body
            headers := if request.returnHeaders then some (Header.visible d.headers) else none }
      else .error (.status id request.address d.status))) : t.Answered id := by
  constructor
  case read_status =>
    simp only [hcall, hanswer, hdelivery, Http.Call.read.injEq, Answer.read.injEq,
      checked_error_iff, Error.status.injEq, Delivery.IsGood]
    rintro _ rfl i a code
    exact refused_iff
  all_goals simp [hcall, hanswer, hdelivery, hfailure, checked_ok_iff, checked_error_iff,
    Delivery.IsGood]

theorem answered_of_write (hcall : t.call = .write address payload headers)
    (hdelivery : t.course.delivery? = some d) (hfailure : t.course.failure? = none)
    (hanswer : t.answer = .written (if isSuccess d.status then .ok d.body
      else .error (.status id address d.status))) : t.Answered id := by
  constructor
  case write_status =>
    simp only [hcall, hanswer, hdelivery, Http.Call.write.injEq, Answer.written.injEq,
      checked_error_iff, Error.status.injEq, Delivery.IsGood]
    rintro _ _ _ ⟨rfl, rfl, rfl⟩ i a code
    exact refused_iff
  all_goals simp [hcall, hanswer, hdelivery, hfailure, checked_ok_iff, checked_error_iff,
    Delivery.IsGood]

end Answers

/-- A turn that builds no agent and goes on with the one that is there. -/
theorem settled_of_agent {agent : Agent} (hagent : t.before.agent = some agent)
    (hopen : t.before.isOpen = true) (hkeeps : t.call.isClose = false)
    (hbuilt : t.course.built? = none) (hsame : t.after.agent = t.before.agent)
    (hstays : t.after.isOpen = true) (htimeout : t.after.timeout = t.before.timeout)
    (hnetwork : t.after.network = t.course.network) : t.Settled where
  network_eq := hnetwork
  timeout_eq := htimeout
  wasOpen_eq := by simp [hopen, hagent]
  isOpen_eq := by simp [hstays, hsame, hagent]
  builds_iff := by simp [hbuilt, hopen]
  agent_of_close hcloses := absurd (hkeeps.symm.trans hcloses) Bool.false_ne_true
  agent_of_built h := by simp [hbuilt] at h
  agent_of_unbuilt h := by simp [hbuilt] at h
  agent_of_other _ _ := hsame
  opens_iff := by simp [opens, hbuilt, hopen]

/-- The turn that opens a channel first and then does the same. -/
def openingFrom (t : Turn η) (v : View η) : Turn η :=
  { t with before := v, course := { t.course with built? := some true } }

/-- Opening a channel comes before the rest of a turn. -/
theorem Lawful.openingFrom (h : t.Lawful net id) (hkeeps : t.call.isClose = false)
    (hbuilt : t.course.built? = none) {v : View η} {network : η} (hclosed : v.isOpen = false)
    (hnone : v.agent = none) (hbefore : t.before = { v with
      network, isOpen := true, agent := some { timeout := v.timeout }
      identity := v.identity.beginSession }) : (t.openingFrom v).Lawful net id := by
  have hopens : t.opens = false := by simp [opens, hbuilt]
  have hopened : (t.openingFrom v).opens = true := rfl
  have hagent : t.after.agent = some { timeout := v.timeout } := by
    rw [h.agent_of_other hkeeps hbuilt, hbefore]
  have hopen : t.after.isOpen = true := h.isOpen_eq.trans (by simp [hagent])
  have hfailure : (t.openingFrom v).course.failure? = t.course.failure? := by
    simp [Turn.openingFrom, Course.failure?, hbuilt]
  have hsessions : t.after.identity.sessions = v.identity.sessions + 1 := by
    simp [h.sessions_eq, hopens, hbefore, Identity.beginSession]
  have hreceived : t.after.identity.received = 0 + if t.isReceived then 1 else 0 := by
    rw [h.received_eq, hopens, hbefore]
    rfl
  have hsent : t.after.identity.sent = 0 + if t.isSent then 1 else 0 := by
    rw [h.sent_eq, hopens, hbefore]
    rfl
  have hreceipt : t.after.identity.lastReceipt = (t.receipt? net).getD 0 := by
    rw [h.lastReceipt_eq, hopens, hbefore]
    rfl
  exact {
    network_eq := h.network_eq
    timeout_eq := h.timeout_eq.trans (by rw [hbefore]; rfl)
    wasOpen_eq := by simp [Turn.openingFrom, hclosed, hnone]
    isOpen_eq := h.isOpen_eq
    builds_iff := by simp [Turn.openingFrom, hkeeps, hclosed]
    agent_of_close := fun hcloses => absurd (hkeeps.symm.trans hcloses) Bool.false_ne_true
    agent_of_built := fun _ => hagent
    agent_of_unbuilt := fun hunbuilt => by cases hunbuilt
    agent_of_other := fun _ hnone => by cases hnone
    opens_iff := ⟨fun _ => ⟨hclosed, hopen⟩, fun _ => hopened⟩
    id_eq := h.id_eq.trans (by rw [hbefore]; rfl)
    kind_eq := h.kind_eq.trans (by rw [hbefore]; rfl)
    sessions_eq := by rw [hopened]; exact hsessions
    received_eq := by rw [hopened]; exact hreceived
    sent_eq := by rw [hopened]; exact hsent
    lastReceipt_eq := by rw [hopened]; exact hreceipt
    records_eq := h.records_eq.trans (by rw [hbefore]; rfl)
    connect_eq := fun hcall => (h.connect_eq hcall).trans (by simp [hbuilt, Turn.openingFrom])
    close_eq := h.close_eq
    read_ok := h.read_ok
    read_status := h.read_status
    read_http := by rw [hfailure]; exact h.read_http
    write_ok := h.write_ok
    write_status := h.write_status
    write_http := by rw [hfailure]; exact h.write_http }

end Turn

end Http

end MarketFeed.Transport
