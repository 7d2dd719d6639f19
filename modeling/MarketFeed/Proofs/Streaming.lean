import Mathlib
import MarketFeed.Proofs.Traffic
import MarketFeed.Transport.Peer

/-!
A socket that is read to its end, as a stream or one text after the other. Both give the same items
and leave the same socket behind. The items are told by what is on its way on the wire: the texts
before the first thing that ends the connection, and a failure if that is what ends it.
-/
namespace MarketFeed.Transport

variable {ω : Type}

/-- What is on its way: the messages that come one after the other, and what comes when there are no
more of them. -/
def Wire.inbound (wire : Wire ω) (w : ω) : List Inbound :=
  match _h : wire.receive w with
  | (.message m, next) => .message m :: wire.inbound next
  | (last, _) => [last]
termination_by wire.pending w
decreasing_by exact wire.pending_of_receive (by assumption)

/-- The kinds of messages that are passed over: those without data, and data that is no text. -/
def Message.isPassed : Message → Bool
  | .ping _ | .pong _ | .raw _ => true
  | .binary octets => (Text.Utf8.decode? octets).isNone
  | .text _ | .close => false

namespace Inbound

/-- The text of a message, if it is one of text or its data is. -/
def text? : Inbound → Option String
  | .message (.text text) => some text
  | .message (.binary octets) => (Text.Utf8.decode? octets).map String.ofList
  | _ => none

/-- The texts before the first thing that ends the connection. -/
def texts (script : List Inbound) : List String :=
  (script.takeWhile fun i => !i.ends).filterMap text?

/-- The failure that ends the connection, if it is ended by one. -/
def failure? (script : List Inbound) : Option Error :=
  match script.find? ends with
  | some .failed => some .webSocket
  | _ => none

/-- All that a reader gets: texts, and the failure after them. -/
def items (script : List Inbound) : List (Except Error String) :=
  (texts script).map .ok ++ (failure? script).toList.map .error

/-- Whether nothing that comes ends the connection. -/
def lasts (script : List Inbound) : Bool := script.all fun i => !i.ends

variable {i : Inbound} {script : List Inbound}

theorem items_cons_of_text {text : String} (htext : i.text? = some text) :
    items (i :: script) = .ok text :: items script := by
  have hgoes : i.ends = false := by
    cases i with
    | message m =>
      cases m with
      | close => cases htext
      | text _ | binary _ | ping _ | pong _ | raw _ => rfl
    | failed | ended => cases htext
    | interrupted => rfl
  simp [items, texts, failure?, hgoes, htext]

theorem items_cons_of_passed (hgoes : i.ends = false) (hpassed : i.text? = none) :
    items (i :: script) = items script := by
  simp [items, texts, failure?, hgoes, hpassed]

theorem items_cons_of_ends (hends : i.ends = true) :
    items (i :: script) = if i = .failed then [.error .webSocket] else [] := by
  cases i with
  | message m => simp [items, texts, failure?, hends]
  | failed => simp [items, texts, failure?, hends]
  | ended => simp [items, texts, failure?, hends]
  | interrupted => cases hends

theorem goes_of_isPassed {m : Message} (h : m.isPassed = true) :
    (message m).ends = false ∧ (message m).text? = none := by
  cases m with
  | ping _ | pong _ | raw _ => exact ⟨rfl, rfl⟩
  | binary octets =>
    have hnone : Text.Utf8.decode? octets = none := Option.isNone_iff_eq_none.mp h
    exact ⟨rfl, by simp [text?, hnone]⟩
  | text _ | close => cases h

/-- What is passed over makes no difference to a reader, wherever it comes. -/
theorem items_insert {m : Message} (h : m.isPassed = true) (front back : List Inbound) :
    items (front ++ .message m :: back) = items (front ++ back) := by
  obtain ⟨hgoes, hpassed⟩ := goes_of_isPassed h
  induction front with
  | nil => exact items_cons_of_passed hgoes hpassed
  | cons i rest ih =>
    rw [List.cons_append, List.cons_append]
    cases hends : i.ends with
    | true => rw [items_cons_of_ends hends, items_cons_of_ends hends]
    | false =>
      cases htext : i.text? with
      | some text => rw [items_cons_of_text htext, items_cons_of_text htext, ih]
      | none => rw [items_cons_of_passed hends htext, items_cons_of_passed hends htext, ih]

/-- What is handed on is a text, or what a connection ends with. -/
theorem text?_of_answer? (i : Inbound) (time : UInt64) :
    i.text? = match i.answer? time with
      | some (.frame text _) => some text
      | _ => none := by
  cases i with
  | message m =>
    cases m with
    | binary octets => cases h : Text.Utf8.decode? octets <;> simp [text?, answer?, h]
    | text _ | ping _ | pong _ | raw _ | close => rfl
  | failed | ended | interrupted => rfl

end Inbound

theorem Wire.inbound_of_message (wire : Wire ω) {w next : ω} {m : Message}
    (h : wire.receive w = (.message m, next)) :
    wire.inbound w = .message m :: wire.inbound next := by
  rw [inbound]
  split
  · next h' =>
    cases h.symm.trans h'
    rfl
  · next last w' hlast h' =>
    cases h.symm.trans h'
    exact absurd rfl (hlast m)

theorem Wire.inbound_of_last (wire : Wire ω) {w next : ω} {last : Inbound}
    (h : wire.receive w = (last, next)) (hlast : ∀ m, last ≠ .message m) :
    wire.inbound w = [last] := by
  rw [inbound]
  split
  · next m w' h' =>
    cases h.symm.trans h'
    exact absurd rfl (hlast m)
  · next last' w' hlast' h' =>
    cases h.symm.trans h'
    rfl

namespace Socket

variable {wire : Wire ω} {s : Socket ω}

theorem isOpen_met (wire : Wire ω) (inbound : Inbound) (w : ω) (hopen : s.isOpen = true) :
    (s.met wire inbound w).isOpen = !inbound.ends := by
  cases hends : inbound.ends with
  | true => simp [met, Inbound.traffic, hends, bear, Traffic.ends]
  | false => simp [met, Inbound.traffic, hends, bear, bare, hopen, Traffic.ends]

theorem wire_met {inbound : Inbound} {w : ω} (hgoes : inbound.ends = false) :
    (s.met wire inbound w).wire = w := by
  simp [met, hgoes]

/-- What one wait on an open socket takes away from what is on its way. -/
inductive Brings (wire : Wire ω) (s : Socket ω) : Received × Socket ω → Prop
  | frame (text : String) (receipt : UInt64) (next : Socket ω) (hopen : next.isOpen = true)
      (hitems : Inbound.items (wire.inbound s.wire) =
        .ok text :: Inbound.items (wire.inbound next.wire))
      (hlasts : Inbound.lasts (wire.inbound s.wire) = Inbound.lasts (wire.inbound next.wire)) :
      Brings wire s (.frame text receipt, next)
  | failed (next : Socket ω)
      (hitems : Inbound.items (wire.inbound s.wire) = [.error .webSocket])
      (hlasts : Inbound.lasts (wire.inbound s.wire) = next.isOpen) :
      Brings wire s (.failed .webSocket, next)
  | ended (next : Socket ω) (hitems : Inbound.items (wire.inbound s.wire) = [])
      (hlasts : Inbound.lasts (wire.inbound s.wire) = next.isOpen) :
      Brings wire s (.ended, next)
  | interrupted (next : Socket ω) (hitems : Inbound.items (wire.inbound s.wire) = [])
      (hlasts : Inbound.lasts (wire.inbound s.wire) = next.isOpen) :
      Brings wire s (.interrupted, next)

theorem Brings.of_text {inbound : Inbound} {w : ω} {text : String} {receipt : UInt64}
    (hopen : s.isOpen = true)
    (hscript : wire.inbound s.wire = inbound :: wire.inbound w) (hgoes : inbound.ends = false)
    (htext : inbound.text? = some text) :
    Brings wire s (.frame text receipt, s.met wire inbound w) := by
  refine .frame text receipt _ ?_ ?_ ?_
  · rw [isOpen_met wire inbound w hopen, hgoes]
    rfl
  · rw [hscript, wire_met hgoes, Inbound.items_cons_of_text htext]
  · rw [hscript, wire_met hgoes, Inbound.lasts, List.all_cons, hgoes]
    rfl

/-- What is handed on is what it takes away. -/
theorem Brings.of_answer {inbound : Inbound} {w : ω} {a : Received} (hopen : s.isOpen = true)
    (hreceive : wire.receive s.wire = (inbound, w))
    (hanswer : inbound.answer? (wire.now w) = some a) :
    Brings wire s (a, s.met wire inbound w) := by
  have hmet := isOpen_met wire inbound w hopen
  cases inbound with
  | message m =>
    have hscript := wire.inbound_of_message hreceive
    cases m with
    | text text =>
      cases hanswer
      exact .of_text hopen hscript rfl rfl
    | binary octets =>
      obtain ⟨text, hdecode, rfl⟩ := Option.map_eq_some_iff.mp hanswer
      exact .of_text hopen hscript rfl (by rw [Inbound.text?, hdecode, Option.map_some])
    | ping _ | pong _ | raw _ => cases hanswer
    | close =>
      cases hanswer
      refine .ended _ ?_ ?_
      · rw [hscript, Inbound.items_cons_of_ends rfl, if_neg (by simp)]
      · rw [hscript, hmet]
        rfl
  | failed =>
    have hscript := wire.inbound_of_last hreceive (by simp)
    cases hanswer
    refine .failed _ ?_ ?_
    · rw [hscript]
      rfl
    · rw [hscript, hmet]
      rfl
  | ended =>
    have hscript := wire.inbound_of_last hreceive (by simp)
    cases hanswer
    refine .ended _ ?_ ?_
    · rw [hscript]
      rfl
    · rw [hscript, hmet]
      rfl
  | interrupted =>
    have hscript := wire.inbound_of_last hreceive (by simp)
    cases hanswer
    refine .interrupted _ ?_ ?_
    · rw [hscript]
      rfl
    · rw [hscript, hmet]
      rfl

/-- What is passed over adds nothing to what the rest of the wait brings. -/
theorem Brings.of_passed {inbound : Inbound} {w : ω} {r : Received × Socket ω}
    (hopen : s.isOpen = true) (hreceive : wire.receive s.wire = (inbound, w))
    (hpassed : inbound.answer? (wire.now w) = none)
    (hrest : Brings wire (s.met wire inbound w) r) : Brings wire s r := by
  obtain ⟨-, hwire⟩ := met_of_passed hopen hpassed
  have hscript : wire.inbound s.wire = inbound :: wire.inbound (s.met wire inbound w).wire := by
    rw [hwire]
    cases inbound with
    | message m => exact wire.inbound_of_message hreceive
    | failed | ended | interrupted => cases hpassed
  have hgoes := answer?_of_ends hpassed
  have htext : inbound.text? = none := by rw [inbound.text?_of_answer? (wire.now w), hpassed]
  have hitems : Inbound.items (wire.inbound s.wire) =
      Inbound.items (wire.inbound (s.met wire inbound w).wire) := by
    rw [hscript, Inbound.items_cons_of_passed hgoes htext]
  have hlasts : Inbound.lasts (wire.inbound s.wire) =
      Inbound.lasts (wire.inbound (s.met wire inbound w).wire) := by
    rw [hscript, Inbound.lasts, List.all_cons, hgoes]
    rfl
  cases hrest with
  | frame text receipt next hnext hrestItems hrestLasts =>
    exact .frame text receipt next hnext (hitems.trans hrestItems) (hlasts.trans hrestLasts)
  | failed next hrestItems hrestLasts =>
    exact .failed next (hitems.trans hrestItems) (hlasts.trans hrestLasts)
  | ended next hrestItems hrestLasts =>
    exact .ended next (hitems.trans hrestItems) (hlasts.trans hrestLasts)
  | interrupted next hrestItems hrestLasts =>
    exact .interrupted next (hitems.trans hrestItems) (hlasts.trans hrestLasts)

theorem Awaits.brings {traffic : List Traffic} {r : Received × Socket ω}
    (h : Awaits wire s traffic r) (hopen : s.isOpen = true) : Brings wire s r := by
  induction h with
  | answered s inbound w a hreceive hanswer => exact .of_answer hopen hreceive hanswer
  | passed s inbound w rest r hreceive hpassed hrest ih =>
    obtain ⟨hstays, -⟩ := met_of_passed hopen hpassed
    exact .of_passed hopen hreceive hpassed (ih hstays)

theorem brings (wire : Wire ω) (s : Socket ω) (hopen : s.isOpen = true) :
    Brings wire s (s.await wire) := by
  obtain ⟨traffic, hawaits⟩ := await_awaits wire s hopen
  exact hawaits.brings hopen

/-- Receives one text after the other, at most so many, up to the first time that there is none or
that receiving fails. -/
def receiveAll (wire : Wire ω) : Nat → Socket ω → List (Except Error String) × Socket ω
  | 0, s => ([], s)
  | n + 1, s =>
    match s.receive wire with
    | (.frame text _, next) =>
      let (items, last) := receiveAll wire n next
      (.ok text :: items, last)
    | (.failed e, next) => ([.error e], next)
    | (.ended, next) | (.interrupted, next) => ([], next)

theorem take_finished (r : Reading ω) (h : r.finished = true) (n : Nat) :
    r.take wire n = ([], r) := by
  cases n with
  | zero => rfl
  | succ n => simp [Reading.take, Reading.next, h]

theorem take_eq_receiveAll (wire : Wire ω) (n : Nat) (s : Socket ω) (hopen : s.isOpen = true) :
    (Reading.take wire n { socket := s }).1 = (receiveAll wire n s).1 ∧
      (Reading.take wire n { socket := s }).2.socket = (receiveAll wire n s).2 := by
  induction n generalizing s with
  | zero => exact ⟨rfl, rfl⟩
  | succ n ih =>
    have hbrings := brings wire s hopen
    generalize hawait : s.await wire = r at hbrings
    have hreceive : s.receive wire = r := by rw [receive, if_pos hopen, hawait]
    simp only [Reading.take, Reading.next, receiveAll, hawait, hreceive]
    cases hbrings with
    | frame text receipt next hnext =>
      obtain ⟨hitems, hlast⟩ := ih next hnext
      exact ⟨congrArg (Except.ok text :: ·) hitems, hlast⟩
    | failed next =>
      simp only [if_neg Bool.false_ne_true, take_finished]
      trivial
    | ended next => exact ⟨rfl, rfl⟩
    | interrupted next => exact ⟨rfl, rfl⟩

theorem receiveAll_items (wire : Wire ω) (n : Nat) (s : Socket ω) (hopen : s.isOpen = true) :
    (receiveAll wire n s).1 = (Inbound.items (wire.inbound s.wire)).take n := by
  induction n generalizing s with
  | zero => rfl
  | succ n ih =>
    have hbrings := brings wire s hopen
    generalize hawait : s.await wire = r at hbrings
    have hreceive : s.receive wire = r := by rw [receive, if_pos hopen, hawait]
    simp only [receiveAll, hreceive]
    cases hbrings with
    | frame text receipt next hnext hitems =>
      rw [hitems, List.take_succ_cons, ← ih next hnext]
    | failed next hitems =>
      rw [hitems]
      simp
    | ended next hitems => rw [hitems, List.take_nil]
    | interrupted next hitems => rw [hitems, List.take_nil]

/-- More reads than there are messages on their way read a socket to its end. -/
theorem take_ends (wire : Wire ω) (n : Nat) (s : Socket ω) (hopen : s.isOpen = true)
    (hn : wire.pending s.wire < n) :
    (Reading.take wire n { socket := s }).1 = Inbound.items (wire.inbound s.wire) ∧
      (Reading.take wire n { socket := s }).2.finished = true ∧
      (Reading.take wire n { socket := s }).2.socket.isOpen =
        Inbound.lasts (wire.inbound s.wire) := by
  induction n generalizing s with
  | zero => exact absurd hn (Nat.not_lt_zero _)
  | succ n ih =>
    have hless := s.pending_await_lt wire
    have hbrings := brings wire s hopen
    generalize hawait : s.await wire = r at hbrings hless
    simp only [Reading.take, Reading.next, hawait]
    cases hbrings with
    | frame text receipt next hnext hitems hlasts =>
      have hpending : wire.pending next.wire < n := by
        have := hless text receipt rfl
        simp only at this
        omega
      obtain ⟨htaken, hend⟩ := ih next hnext hpending
      rw [hitems, hlasts]
      exact ⟨congrArg (Except.ok text :: ·) htaken, hend⟩
    | failed next hitems hlasts =>
      rw [hitems, hlasts]
      simp only [if_neg Bool.false_ne_true, take_finished]
      trivial
    | ended next hitems hlasts => exact ⟨hitems.symm, rfl, hlasts.symm⟩
    | interrupted next hitems hlasts => exact ⟨hitems.symm, rfl, hlasts.symm⟩

/-- Whatever is on its way on the wire of an open socket, reading it as a stream and receiving one
text after the other give the same items and leave the same socket. The items are the texts before
the first thing that ends the connection, in order, and a failure if that ends it. What is passed
over makes no difference, and the connection is over unless nothing came that ends it. -/
theorem stream_eq_receipts (wire : Wire ω) (s : Socket ω) (hopen : s.isOpen = true) :
    ∃ r, s.read = .ok r ∧
      (∀ n, (r.take wire n).1 = (s.receiveAll wire n).1 ∧
        (r.take wire n).2.socket = (s.receiveAll wire n).2 ∧
        (r.take wire n).1 = (Inbound.items (wire.inbound s.wire)).take n) ∧
      (∀ n, wire.pending s.wire < n →
        (r.take wire n).1 = Inbound.items (wire.inbound s.wire) ∧
        (r.take wire n).2.finished = true ∧
        (r.take wire n).2.socket.isOpen = Inbound.lasts (wire.inbound s.wire)) ∧
      ∀ front m back, wire.inbound s.wire = front ++ .message m :: back → m.isPassed = true →
        Inbound.items (wire.inbound s.wire) = Inbound.items (front ++ back) := by
  refine ⟨{ socket := s }, by rw [read, if_pos hopen], ?_, ?_, ?_⟩
  · intro n
    obtain ⟨hitems, hlast⟩ := take_eq_receiveAll wire n s hopen
    exact ⟨hitems, hlast, hitems.trans (receiveAll_items wire n s hopen)⟩
  · intro n hn
    exact take_ends wire n s hopen hn
  · intro front m back hscript hpassed
    rw [hscript, Inbound.items_insert hpassed]

/-- An open socket on which a ping, data that is no text, a text, data that is one and the end are
on their way, and a text after the end. -/
def mixed : Socket Peer where
  identity := { id := "hitbtc.ws.0", kind := .ws }
  address := "wss://server/ws"
  isOpen := true
  records := some []
  wire :=
    { meetings := []
      ahead := [.message (.ping [1]), .message (.binary [0xFF]), .message (.text "a"),
        .message (.binary [0x62]), .message .close, .message (.text "c")] }

theorem stream_eq_receipts_mixed :
    mixed.isOpen = true ∧ ∃ r, mixed.read = .ok r ∧
      (r.take Peer.wire 7).1 = [.ok "a", .ok "b"] ∧
      (r.take Peer.wire 7).2.socket = (mixed.receiveAll Peer.wire 7).2 ∧
      (r.take Peer.wire 7).2.socket.isOpen = false := by
  obtain ⟨r, hread, hsame, hall, -⟩ := stream_eq_receipts Peer.wire mixed rfl
  obtain ⟨hitems, -, hclosed⟩ := hall 7 (by decide)
  have hscript : Peer.wire.inbound mixed.wire = [.message (.ping [1]), .message (.binary [0xFF]),
      .message (.text "a"), .message (.binary [0x62]), .message .close, .message (.text "c"),
      .failed] := by cbv
  rw [hscript] at hitems hclosed
  refine ⟨rfl, r, hread, ?_, (hsame 7).2.1, ?_⟩
  · rw [hitems]
    cbv
  · rw [hclosed]
    rfl

end Socket

end MarketFeed.Transport
