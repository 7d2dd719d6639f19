import Mathlib
import MarketFeed.Transport.Socket

/-!
What happens on the wire of a socket, in order: handshakes, texts sent, what was waited for, and the
wire being let go. A tapped wire keeps a log of this and otherwise is the wire it taps, so that a
socket does the same over it. All that changes about a socket is up to what happens on its wire:
`bear` says what each happening does to it.
-/
namespace MarketFeed.Transport

/-- A happening on a wire. Handshakes and sends come with the time at which they began, and what was
waited for with the time at which it was there. -/
inductive Traffic where
  | handshake (outcome : Handshake) (began : UInt64)
  | send (text : String) (sent : Bool) (began : UInt64)
  | receive (inbound : Inbound) (time : UInt64)
  | close
deriving DecidableEq

variable {ω : Type}

/-- A wire with a log of all that happens on it. -/
def Wire.tapped (wire : Wire ω) : Wire (ω × List Traffic) where
  handshake w address timeout :=
    let (outcome, next) := wire.handshake w.1 address timeout
    (outcome, next, w.2 ++ [.handshake outcome (wire.now w.1)])
  send w text :=
    let (sent, next) := wire.send w.1 text
    (sent, next, w.2 ++ [.send text sent (wire.now w.1)])
  receive w :=
    let (inbound, next) := wire.receive w.1
    (inbound, next, w.2 ++ [.receive inbound (wire.now next)])
  close w := (wire.close w.1, w.2 ++ [.close])
  now w := wire.now w.1
  pending w := wire.pending w.1
  pending_lt w m h := wire.pending_lt w.1 m h

namespace Inbound

/-- The payload of a message of data. -/
def data? : Inbound → Option Octets
  | .message (.text text) => some (Text.Utf8.encode text.toList)
  | .message (.binary octets) => some octets
  | _ => none

/-- Whether a connection is over with it. -/
def ends : Inbound → Bool
  | .message .close | .failed | .ended => true
  | _ => false

/-- What is handed on of it; pings, pongs, raw frames and data that are no text are passed over. -/
def answer? (time : UInt64) : Inbound → Option Received
  | .message (.text text) => some (.frame text time)
  | .message (.binary octets) =>
    (Text.Utf8.decode? octets).map fun text => .frame (String.ofList text) time
  | .message (.ping _) | .message (.pong _) | .message (.raw _) => none
  | .message .close | .ended => some .ended
  | .failed => some (.failed .webSocket)
  | .interrupted => some .interrupted

/-- What happens on a wire when this comes: with what ends a connection, the wire is let go. -/
def traffic (inbound : Inbound) (time : UInt64) : List Traffic :=
  .receive inbound time :: if inbound.ends then [.close] else []

end Inbound

namespace Traffic

def isHandshake : Traffic → Bool
  | handshake _ _ => true
  | _ => false

def isAccepted : Traffic → Bool
  | handshake .accepted _ => true
  | _ => false

def isSent : Traffic → Bool
  | send _ sent _ => sent
  | _ => false

/-- The time of a message of data. -/
def dataTime? : Traffic → Option UInt64
  | receive inbound time => inbound.data?.map fun _ => time
  | _ => none

def isData (t : Traffic) : Bool := t.dataTime?.isSome

/-- Whether a connection is over with it. -/
def ends : Traffic → Bool
  | receive inbound _ => inbound.ends
  | close => true
  | _ => false

/-- The record that is captured of it. -/
def record? (connection address : String) : Traffic → Option Record
  | handshake _ began =>
    some { payload := none, time := began, connection, context := .connect address }
  | send text _ began =>
    some { payload := some (Text.Utf8.encode text.toList), time := began, connection,
           context := .send address }
  | receive inbound time =>
    inbound.data?.map fun octets =>
      { payload := some octets, time, connection, context := .endpoint address none }
  | close => none

/-- The counters after it. -/
def count (i : Identity) (t : Traffic) : Identity :=
  let i := if t.isAccepted then i.beginSession else i
  let i := if t.isSent then i.markSent else i
  match t.dataTime? with
  | some time => i.markReceived time
  | none => i

end Traffic

namespace Socket

/-- A socket apart from its wire. -/
def bare (s : Socket ω) : Socket Unit := { s with wire := () }

/-- A socket over a tapped wire with a log. -/
def tapped (s : Socket ω) (log : List Traffic) : Socket (ω × List Traffic) :=
  { s with wire := (s.wire, log) }

/-- A socket after a happening on its wire. -/
def bear (s : Socket Unit) (t : Traffic) : Socket Unit :=
  { s with
    isOpen := (s.isOpen || t.isAccepted) && !t.ends
    identity := t.count s.identity
    records := s.records.map (· ++ (t.record? s.identity.id s.address).toList) }

/-- Whether a socket became another by nothing but what happened on its wire. -/
def Bears (s : Socket ω) (traffic : List Traffic) (s' : Socket ω) : Prop :=
  s'.bare = traffic.foldl bear s.bare

theorem Bears.trans {s s' s'' : Socket ω} {l m : List Traffic} (hl : s.Bears l s')
    (hm : s'.Bears m s'') : s.Bears (l ++ m) s'' := by
  rw [Bears, List.foldl_append, ← hl]
  exact hm

variable {wire : Wire ω}

/-- A socket after something has come over its wire. -/
def met (wire : Wire ω) (s : Socket ω) (inbound : Inbound) (w : ω) : Socket ω :=
  { (inbound.traffic (wire.now w)).foldl bear s.bare with
    wire := if inbound.ends then wire.close w else w }

variable {s : Socket ω} {inbound : Inbound} {w : ω}

theorem met_of_data {octets : Octets} (hopen : s.isOpen = true)
    (hdata : inbound.data? = some octets) :
    s.met wire inbound w = accept wire { s with wire := w } octets := by
  have hgoes : inbound.ends = false := by
    cases inbound with
    | message m =>
      cases m with
      | close => cases hdata
      | text _ | binary _ | ping _ | pong _ | raw _ => rfl
    | failed | ended => cases hdata
    | interrupted => rfl
  simp [met, Inbound.traffic, hgoes, bear, bare, accept, note, Traffic.isAccepted,
    Traffic.isSent, Traffic.dataTime?, Traffic.ends, Traffic.count, Traffic.record?, hdata, hopen,
    Identity.markReceived]

theorem met_of_goes (hopen : s.isOpen = true) (hdata : inbound.data? = none)
    (hgoes : inbound.ends = false) : s.met wire inbound w = { s with wire := w } := by
  simp [met, Inbound.traffic, hgoes, bear, bare, Traffic.isAccepted, Traffic.isSent,
    Traffic.dataTime?, Traffic.ends, Traffic.count, Traffic.record?, hdata, hopen]

theorem met_of_ends (hopen : s.isOpen = true) (hdata : inbound.data? = none)
    (hends : inbound.ends = true) :
    s.met wire inbound w = close wire { s with wire := w } := by
  simp [met, Inbound.traffic, hends, bear, bare, close, Traffic.isAccepted, Traffic.isSent,
    Traffic.dataTime?, Traffic.ends, Traffic.count, Traffic.record?, hdata, hopen]

/-- Waiting, as a function of what comes next. -/
theorem await_eq (hopen : s.isOpen = true) (hreceive : wire.receive s.wire = (inbound, w)) :
    s.await wire =
      match inbound.answer? (wire.now w) with
      | some a => (a, s.met wire inbound w)
      | none => (s.met wire inbound w).await wire := by
  rw [await]
  split
  · next text w' h =>
    cases hreceive.symm.trans h
    rw [met_of_data hopen rfl]
    rfl
  · next octets w' h =>
    cases hreceive.symm.trans h
    rw [met_of_data hopen rfl, Inbound.answer?]
    cases Text.Utf8.decode? octets with
    | none => rfl
    | some text => rfl
  -- Nothing else that comes holds data: it ends the connection or is passed over.
  all_goals
    next h =>
      cases hreceive.symm.trans h
      first
        | rw [met_of_goes hopen rfl rfl]; rfl
        | rw [met_of_ends hopen rfl rfl]; rfl

/-- Waiting on an open socket: what comes is handed on, or it is passed over and waiting goes on. -/
inductive Awaits (wire : Wire ω) : Socket ω → List Traffic → Received × Socket ω → Prop
  | answered (s : Socket ω) (inbound : Inbound) (w : ω) (a : Received)
      (hreceive : wire.receive s.wire = (inbound, w))
      (hanswer : inbound.answer? (wire.now w) = some a) :
      Awaits wire s (inbound.traffic (wire.now w)) (a, s.met wire inbound w)
  | passed (s : Socket ω) (inbound : Inbound) (w : ω) (rest : List Traffic)
      (r : Received × Socket ω) (hreceive : wire.receive s.wire = (inbound, w))
      (hpassed : inbound.answer? (wire.now w) = none)
      (hrest : Awaits wire (s.met wire inbound w) rest r) :
      Awaits wire s (inbound.traffic (wire.now w) ++ rest) r

theorem answer?_of_ends {time : UInt64} (h : inbound.answer? time = none) :
    inbound.ends = false := by
  cases inbound with
  | message m =>
    cases m with
    | close => cases h
    | text _ | binary _ | ping _ | pong _ | raw _ => rfl
  | failed | ended => cases h
  | interrupted => rfl

/-- What is passed over leaves a socket open, with the rest of the wire before it. -/
theorem met_of_passed (hopen : s.isOpen = true) (h : inbound.answer? (wire.now w) = none) :
    (s.met wire inbound w).isOpen = true ∧ (s.met wire inbound w).wire = w := by
  have hgoes := answer?_of_ends h
  simp [met, Inbound.traffic, hgoes, bear, bare, hopen, Traffic.ends]

theorem await_awaits (wire : Wire ω) (s : Socket ω) (hopen : s.isOpen = true) :
    ∃ traffic, Awaits wire s traffic (s.await wire) := by
  -- The messages that are still pending become fewer with each that is passed over.
  induction hpending : wire.pending s.wire using Nat.strong_induction_on generalizing s with
  | h n ih =>
    cases hreceive : wire.receive s.wire with
    | mk inbound w =>
      rw [await_eq hopen hreceive]
      cases hanswer : inbound.answer? (wire.now w) with
      | some a => exact ⟨_, .answered s inbound w a hreceive hanswer⟩
      | none =>
        obtain ⟨hstays, hwire⟩ := met_of_passed hopen hanswer
        have hless : wire.pending (s.met wire inbound w).wire < n := by
          rw [hwire, ← hpending]
          cases inbound with
          | message m => exact wire.pending_of_receive hreceive
          | failed | ended | interrupted => cases hanswer
        obtain ⟨rest, hrest⟩ := ih _ hless _ hstays rfl
        exact ⟨_, .passed s inbound w rest _ hreceive hanswer hrest⟩

theorem Awaits.bears {traffic : List Traffic} {r : Received × Socket ω}
    (h : Awaits wire s traffic r) : s.Bears traffic r.2 := by
  induction h with
  | answered s inbound w a hreceive hanswer => rfl
  | passed s inbound w rest r hreceive hpassed hrest ih =>
    have hmet : s.Bears (inbound.traffic (wire.now w)) (s.met wire inbound w) := rfl
    exact hmet.trans ih

theorem met_tapped (wire : Wire ω) (s : Socket ω) (inbound : Inbound) (w : ω)
    (log : List Traffic) :
    (s.tapped log).met wire.tapped inbound (w, log ++ [.receive inbound (wire.now w)]) =
      (s.met wire inbound w).tapped (log ++ inbound.traffic (wire.now w)) := by
  cases hends : inbound.ends with
  | true => simp [met, Inbound.traffic, hends, tapped, bare, Wire.tapped]
  | false => simp [met, Inbound.traffic, hends, tapped, bare, Wire.tapped]

/-- Over a tapped wire waiting is the same, and the log tells what happened. -/
theorem Awaits.await_tapped {traffic : List Traffic} {r : Received × Socket ω}
    (h : Awaits wire s traffic r) (hopen : s.isOpen = true) (log : List Traffic) :
    (s.tapped log).await wire.tapped = (r.1, r.2.tapped (log ++ traffic)) := by
  have hreceives : ∀ (s : Socket ω) (log : List Traffic) (inbound : Inbound) (w : ω),
      wire.receive s.wire = (inbound, w) → wire.tapped.receive (s.tapped log).wire =
        (inbound, w, log ++ [.receive inbound (wire.now w)]) := by
    intro s log inbound w hreceive
    simp [Wire.tapped, tapped, hreceive]
  induction h generalizing log with
  | answered s inbound w a hreceive hanswer =>
    have hopen' : (s.tapped log).isOpen = true := hopen
    have hanswer' : inbound.answer?
        (wire.tapped.now (w, log ++ [.receive inbound (wire.now w)])) = some a := hanswer
    rw [await_eq hopen' (hreceives s log inbound w hreceive), hanswer', met_tapped]
  | passed s inbound w rest r hreceive hpassed hrest ih =>
    have hopen' : (s.tapped log).isOpen = true := hopen
    have hpassed' : inbound.answer?
        (wire.tapped.now (w, log ++ [.receive inbound (wire.now w)])) = none := hpassed
    rw [await_eq hopen' (hreceives s log inbound w hreceive), hpassed', met_tapped]
    simp only
    rw [ih (met_of_passed hopen hpassed).1, List.append_assoc]

/-- What can be asked of a socket. -/
inductive Call where
  | connect
  | close
  | write (text : String)
  | receive
deriving DecidableEq

/-- The answer to a call: success or failure, or what was received. -/
inductive Answer where
  | done (result : Except Error Unit)
  | received (r : Received)

/-- A socket after a call, and the answer. -/
def perform (wire : Wire ω) (s : Socket ω) : Call → Socket ω × Answer
  | .connect => ((s.connect wire).1, .done (s.connect wire).2)
  | .close => (s.close wire, .done (.ok ()))
  | .write text => ((s.write wire text).1, .done (s.write wire text).2)
  | .receive => ((s.receive wire).2, .received (s.receive wire).1)

/-- The answer to an attempt to connect that may take so long. -/
def connected (timeout : Nat) : Handshake → Except Error Unit
  | .accepted => .ok ()
  | .refused => .error .webSocket
  | .timedOut => .error (.timeout "websocket connect" timeout)

/-- What a call does: what happens on the wire, and the answer. A closed socket tries one handshake
to connect and fails to do anything else, without a trace on the wire. -/
inductive Does (s : Socket ω) : Call → List Traffic → Answer → Prop
  | connect (hclosed : s.isOpen = false) (outcome : Handshake) (began : UInt64) :
      Does s .connect [.handshake outcome began] (.done (connected s.timeout outcome))
  | connectOpen (hopen : s.isOpen = true) : Does s .connect [] (.done (.ok ()))
  | close (hopen : s.isOpen = true) : Does s .close [.close] (.done (.ok ()))
  | closeClosed (hclosed : s.isOpen = false) : Does s .close [] (.done (.ok ()))
  | write (hopen : s.isOpen = true) (text : String) (sent : Bool) (began : UInt64) :
      Does s (.write text) [.send text sent began]
        (.done (if sent then .ok () else .error .webSocket))
  | writeClosed (hclosed : s.isOpen = false) (text : String) :
      Does s (.write text) [] (.done (.error s.closedError))
  | receive (hopen : s.isOpen = true) (passed : List (Inbound × UInt64)) (last : Inbound)
      (time : UInt64) (r : Received) (hpassed : ∀ p ∈ passed, p.1.answer? p.2 = none)
      (hlast : last.answer? time = some r) :
      Does s .receive ((passed.map fun p => Traffic.receive p.1 p.2) ++ last.traffic time)
        (.received r)
  | receiveClosed (hclosed : s.isOpen = false) :
      Does s .receive [] (.received (.failed s.closedError))

theorem Awaits.passed_last {traffic : List Traffic} {r : Received × Socket ω}
    (h : Awaits wire s traffic r) :
    ∃ (passed : List (Inbound × UInt64)) (last : Inbound) (time : UInt64),
      (∀ p ∈ passed, p.1.answer? p.2 = none) ∧ last.answer? time = some r.1 ∧
      traffic = (passed.map fun p => Traffic.receive p.1 p.2) ++ last.traffic time := by
  induction h with
  | answered s inbound w a hreceive hanswer => exact ⟨[], inbound, _, by simp, hanswer, rfl⟩
  | passed s inbound w rest r hreceive hpassed hrest ih =>
    obtain ⟨passed, last, time, hbefore, hlast, heq⟩ := ih
    refine ⟨(inbound, wire.now w) :: passed, last, time, ?_, hlast, ?_⟩
    · intro p hp
      rcases List.mem_cons.mp hp with rfl | hp
      · exact hpassed
      · exact hbefore p hp
    · simp [heq, Inbound.traffic, answer?_of_ends hpassed]

/-- What happens on the wire during a call. -/
def traffic (wire : Wire ω) (s : Socket ω) (c : Call) : List Traffic :=
  ((s.tapped []).perform wire.tapped c).1.wire.2

/-- A call leads from one socket to another by what happens on the wire, and does the same over a
tapped wire, whose log then tells what happened. -/
structure Logs (wire : Wire ω) (s : Socket ω) (c : Call) (l : List Traffic) : Prop where
  does : s.Does c l (s.perform wire c).2
  bears : s.Bears l (s.perform wire c).1
  tapped : ∀ log, (s.tapped log).perform wire.tapped c =
    ((s.perform wire c).1.tapped (log ++ l), (s.perform wire c).2)

theorem Logs.traffic_eq {c : Call} {l : List Traffic} (h : s.Logs wire c l) :
    s.traffic wire c = l := by
  rw [traffic, h.tapped]
  rfl

theorem logs_connect (wire : Wire ω) (s : Socket ω) : ∃ l, s.Logs wire .connect l := by
  cases hopen : s.isOpen with
  | true =>
    have hsame : ∀ {α : Type} (wire : Wire α) (s : Socket α), s.isOpen = true →
        s.perform wire .connect = (s, .done (.ok ())) := by
      intro α wire s hopen
      simp [perform, Socket.connect, hopen]
    refine ⟨[], ?_, ?_, fun log => ?_⟩
    · rw [hsame wire s hopen]
      exact .connectOpen hopen
    · rw [hsame wire s hopen]
      rfl
    · rw [hsame wire s hopen, hsame wire.tapped (s.tapped log) hopen, List.append_nil]
  | false =>
    obtain ⟨outcome, w, hshake⟩ :
        ∃ outcome w, wire.handshake s.wire s.address s.timeout = (outcome, w) := ⟨_, _, rfl⟩
    refine ⟨[.handshake outcome (wire.now s.wire)], ?_, ?_, fun log => ?_⟩
    · have hanswer : (s.perform wire .connect).2 = .done (connected s.timeout outcome) := by
        cases outcome <;> simp [perform, Socket.connect, note, hopen, hshake, connected]
      rw [hanswer]
      exact .connect hopen outcome _
    · cases outcome <;>
        simp [Bears, perform, Socket.connect, note, hopen, hshake, bare, bear,
          Traffic.isAccepted, Traffic.isSent, Traffic.dataTime?, Traffic.ends, Traffic.count,
          Traffic.record?]
    · cases outcome <;>
        simp [perform, Socket.connect, note, hopen, hshake, Socket.tapped, Wire.tapped]

theorem logs_close (wire : Wire ω) (s : Socket ω) : ∃ l, s.Logs wire .close l := by
  cases hopen : s.isOpen with
  | true =>
    refine ⟨[.close], .close hopen, ?_, fun log => ?_⟩
    · simp [Bears, perform, Socket.close, hopen, bare, bear, Traffic.isAccepted,
        Traffic.isSent, Traffic.dataTime?, Traffic.ends, Traffic.count, Traffic.record?]
    · simp [perform, Socket.close, hopen, Socket.tapped, Wire.tapped]
  | false =>
    refine ⟨[], .closeClosed hopen, ?_, fun log => ?_⟩
    · simp [Bears, perform, Socket.close, hopen]
    · simp [perform, Socket.close, hopen, Socket.tapped]

theorem logs_write (wire : Wire ω) (s : Socket ω) (text : String) :
    ∃ l, s.Logs wire (.write text) l := by
  cases hopen : s.isOpen with
  | true =>
    obtain ⟨sent, w, hsend⟩ : ∃ sent w, wire.send s.wire text = (sent, w) := ⟨_, _, rfl⟩
    refine ⟨[.send text sent (wire.now s.wire)], ?_, ?_, fun log => ?_⟩
    · have hanswer : (s.perform wire (.write text)).2 =
          .done (if sent then .ok () else .error .webSocket) := by
        cases sent <;> simp [perform, Socket.write, note, hopen, hsend]
      rw [hanswer]
      exact .write hopen text sent _
    · cases sent <;>
        simp [Bears, perform, Socket.write, note, hopen, hsend, bare, bear,
          Traffic.isAccepted, Traffic.isSent, Traffic.dataTime?, Traffic.ends, Traffic.count,
          Traffic.record?]
    · cases sent <;> simp [perform, Socket.write, note, hopen, hsend, Socket.tapped, Wire.tapped]
  | false =>
    refine ⟨[], ?_, ?_, fun log => ?_⟩
    · have hanswer : (s.perform wire (.write text)).2 = .done (.error s.closedError) := by
        simp [perform, Socket.write, hopen]
      rw [hanswer]
      exact .writeClosed hopen text
    · simp [Bears, perform, Socket.write, hopen]
    · simp [perform, Socket.write, hopen, Socket.tapped, closedError]

theorem logs_receive (wire : Wire ω) (s : Socket ω) : ∃ l, s.Logs wire .receive l := by
  cases hopen : s.isOpen with
  | true =>
    obtain ⟨l, hawaits⟩ := await_awaits wire s hopen
    have hwaits : ∀ {α : Type} (wire : Wire α) (s : Socket α), s.isOpen = true →
        s.perform wire .receive = ((s.await wire).2, .received (s.await wire).1) := by
      intro α wire s hopen
      simp [perform, Socket.receive, hopen]
    obtain ⟨passed, last, time, hpassed, hlast, rfl⟩ := hawaits.passed_last
    refine ⟨(passed.map fun p => Traffic.receive p.1 p.2) ++ last.traffic time, ?_, ?_,
      fun log => ?_⟩
    · rw [hwaits wire s hopen]
      exact .receive hopen passed last time _ hpassed hlast
    · rw [hwaits wire s hopen]
      exact hawaits.bears
    · rw [hwaits wire s hopen, hwaits wire.tapped (s.tapped log) hopen,
        hawaits.await_tapped hopen log]
  | false =>
    refine ⟨[], ?_, ?_, fun log => ?_⟩
    · have hanswer : (s.perform wire .receive).2 = .received (.failed s.closedError) := by
        simp [perform, Socket.receive, hopen]
      rw [hanswer]
      exact .receiveClosed hopen
    · simp [Bears, perform, Socket.receive, hopen]
    · simp [perform, Socket.receive, hopen, Socket.tapped, closedError]

/-- Every call is accounted for by what happens on the wire. -/
theorem logs (wire : Wire ω) (s : Socket ω) (c : Call) : s.Logs wire c (s.traffic wire c) := by
  have hsome : ∃ l, s.Logs wire c l := by
    cases c with
    | connect => exact logs_connect wire s
    | close => exact logs_close wire s
    | write text => exact logs_write wire s text
    | receive => exact logs_receive wire s
  obtain ⟨l, hlogs⟩ := hsome
  rwa [hlogs.traffic_eq]

end Socket

end MarketFeed.Transport
