import MarketFeed.Text.Characters
import MarketFeed.Transport.Identity
import MarketFeed.Transport.Stream
import MarketFeed.Transport.Wire
import MarketFeed.Url.Basic

/-!
Sockets: text streams over a wire, with counters and raw capture. Messages that carry no text are
passed over, though one that was meant to carry some is counted and captured all the same. A socket
is closed by either end or by a failure, and never opens itself.
-/
namespace MarketFeed.Transport

/-- `timeout` is the longest a handshake may take, in milliseconds; `records` is `none` where
nothing is captured. -/
structure Socket (ω : Type) where
  identity : Identity
  address : String
  timeout : Nat := 10000
  isOpen : Bool := false
  records : Option (List Record) := none
  wire : ω

namespace Socket

variable {ω : Type}

/-- Accepts only addresses of encrypted sockets. -/
def checkAddress (address : String) : Except Error Unit :=
  match Url.ofText? address with
  | none => .error (.construction ("Invalid address " ++ Text.Quoted.quote address))
  | some url =>
    if url.scheme = "wss" then .ok ()
    else
      .error (.construction ("Invalid address, must be a wss address. Provided address is: " ++
        Text.Quoted.quote address))

/-- A closed socket for an address. -/
def make (address : String) (identity : Identity) (wire : ω) : Except Error (Socket ω) :=
  (checkAddress address).map fun () => { identity, address, wire }

def closedError (s : Socket ω) : Error := .closed s.identity.id

/-- Captures a payload, stamped with the time on the wire. -/
def note (wire : Wire ω) (s : Socket ω) (payload : Option Octets) (context : Context) :
    Socket ω :=
  { s with
    records := s.records.map
      (· ++ [{ payload, time := wire.now s.wire, connection := s.identity.id, context }]) }

/-- Lets go of the wire. -/
def close (wire : Wire ω) (s : Socket ω) : Socket ω :=
  if s.isOpen then { s with isOpen := false, wire := wire.close s.wire } else s

/-- Begins a session, unless one is open. The attempt is captured before its outcome is known. -/
def connect (wire : Wire ω) (s : Socket ω) : Socket ω × Except Error Unit :=
  if s.isOpen then (s, .ok ())
  else
    let s := s.note wire none (.connect s.address)
    match wire.handshake s.wire s.address s.timeout with
    | (.accepted, w) =>
      ({ s with wire := w, isOpen := true, identity := s.identity.beginSession }, .ok ())
    | (.refused, w) => ({ s with wire := w }, .error .webSocket)
    | (.timedOut, w) => ({ s with wire := w }, .error (.timeout "websocket connect" s.timeout))

/-- Sends a text. It is captured before it is known whether it was sent. -/
def write (wire : Wire ω) (s : Socket ω) (text : String) : Socket ω × Except Error Unit :=
  if !s.isOpen then (s, .error s.closedError)
  else
    let s := s.note wire (some (Text.Utf8.encode text.toList)) (.send s.address)
    match wire.send s.wire text with
    | (true, w) => ({ s with wire := w, identity := s.identity.markSent }, .ok ())
    | (false, w) => ({ s with wire := w }, .error .webSocket)

/-- Counts and captures a payload that has arrived. -/
def accept (wire : Wire ω) (s : Socket ω) (payload : Octets) : Socket ω :=
  let s := { s with identity := s.identity.markReceived (wire.now s.wire) }
  s.note wire (some payload) (.endpoint s.address none)

/-- A text as it is handed on, with the time of its receipt. -/
def frame (wire : Wire ω) (s : Socket ω) (text : String) : Received :=
  .frame text (wire.now s.wire)

/-- The next text that arrives, or what came in its place. -/
def await (wire : Wire ω) (s : Socket ω) : Received × Socket ω :=
  match _h : wire.receive s.wire with
  | (.message (.text text), w) =>
    let s := accept wire { s with wire := w } (Text.Utf8.encode text.toList)
    (s.frame wire text, s)
  | (.message (.binary octets), w) =>
    let s := accept wire { s with wire := w } octets
    match Text.Utf8.decode? octets with
    | some text => (s.frame wire (String.ofList text), s)
    | none => await wire s
  | (.message (.ping _), w) => await wire { s with wire := w }
  | (.message (.pong _), w) => await wire { s with wire := w }
  | (.message (.raw _), w) => await wire { s with wire := w }
  | (.message .close, w) => (.ended, close wire { s with wire := w })
  | (.failed, w) => (.failed .webSocket, close wire { s with wire := w })
  | (.ended, w) => (.ended, close wire { s with wire := w })
  | (.interrupted, w) => (.interrupted, { s with wire := w })
termination_by wire.pending s.wire
decreasing_by all_goals exact wire.pending_of_receive (by assumption)

/-- The next text on an open socket. -/
def receive (wire : Wire ω) (s : Socket ω) : Received × Socket ω :=
  if s.isOpen then s.await wire else (.failed s.closedError, s)

/-- A text that has been handed on used up some of what was pending. -/
theorem pending_await_lt (wire : Wire ω) (s : Socket ω) (text : String) (receipt : UInt64)
    (h : (s.await wire).1 = .frame text receipt) :
    wire.pending (s.await wire).2.wire < wire.pending s.wire := by
  fun_induction await wire s with
  | case1 s sent w hw => exact wire.pending_of_receive hw
  | case2 s octets w hw s' sent hd => exact wire.pending_of_receive hw
  | case3 s octets w hw s' hd ih => exact Nat.lt_trans (ih h) (wire.pending_of_receive hw)
  | case4 s octets w hw ih => exact Nat.lt_trans (ih h) (wire.pending_of_receive hw)
  | case5 s octets w hw ih => exact Nat.lt_trans (ih h) (wire.pending_of_receive hw)
  | case6 s octets w hw ih => exact Nat.lt_trans (ih h) (wire.pending_of_receive hw)
  | case7 => contradiction
  | case8 => contradiction
  | case9 => contradiction
  | case10 => contradiction

theorem pending_receive_lt (wire : Wire ω) (s : Socket ω) (text : String) (receipt : UInt64)
    (h : (s.receive wire).1 = .frame text receipt) :
    wire.pending (s.receive wire).2.wire < wire.pending s.wire := by
  unfold receive at h ⊢
  split
  · simp_all only [↓reduceIte]
    exact s.pending_await_lt wire text receipt h
  · simp_all

/-- A socket as a stream. -/
def stream (wire : Wire ω) : Stream (Socket ω) where
  id s := s.identity.id
  isOpen := Socket.isOpen
  connect := connect wire
  close := close wire
  write := write wire
  receive := receive wire
  pending s := wire.pending s.wire
  pending_lt := pending_receive_lt wire

/-- A socket that is being read to its end. -/
structure Reading (ω : Type) where
  socket : Socket ω
  finished : Bool := false

/-- Begins to read an open socket to its end. -/
def read (s : Socket ω) : Except Error (Reading ω) :=
  if s.isOpen then .ok { socket := s } else .error s.closedError

namespace Reading

/-- The next item: a text, or the failure that ends the reading. -/
def next (wire : Wire ω) (r : Reading ω) : Option (Except Error String) × Reading ω :=
  if r.finished then (none, r)
  else
    match r.socket.await wire with
    | (.frame text _, socket) => (some (.ok text), { socket })
    | (.failed e, socket) => (some (.error e), { socket, finished := true })
    | (.ended, socket) | (.interrupted, socket) => (none, { socket, finished := true })

/-- At most so many items. -/
def take (wire : Wire ω) : Nat → Reading ω → List (Except Error String) × Reading ω
  | 0, r => ([], r)
  | n + 1, r =>
    match r.next wire with
    | (none, r) => ([], r)
    | (some item, r) =>
      let (items, last) := take wire n r
      (item :: items, last)

end Reading

end Socket

end MarketFeed.Transport
