import MarketFeed.Transport.Framing
import MarketFeed.Transport.Wire
import MarketFeed.Url.Basic

/-!
A scripted server at the other end of a wire. Each connection to it plays the next session of its
script, and connections beyond the last are refused. Useful for dry runs.
-/
namespace MarketFeed.Transport

/-- One thing that the server does. `echo` sends back the next text of the client, `expect` reads
some of them, and `interrupt` makes the client give up waiting. -/
inductive Action where
  | send (octets : Octets)
  | echo
  | expect (count : Nat)
  | interrupt
  | drop
deriving DecidableEq

/-- What a session comes to at the client's end. -/
inductive Happening where
  | message (m : Message)
  | failure
  | echo
  | expect (count : Nat)
  | interrupt
deriving DecidableEq

/-- What a connection to the server comes to. If it is not accepted, the rest still happens, as far
as a client without a session can notice. -/
inductive Meeting where
  | refuse (rest : List Happening)
  | stall (rest : List Happening)
  | play (happenings : List Happening)
deriving DecidableEq

namespace Happening

/-- Actions as they appear to the client, which reads their octets with a decoder. -/
def ofActions : Framing.Decoder → List Action → List Happening
  | _, [] => []
  | d, .send octets :: rest =>
    match d.read octets with
    | (messages, some d) => messages.map message ++ ofActions d rest
    | (messages, none) => messages.map message ++ failure :: ofActions {} rest
  | d, .echo :: rest => echo :: ofActions d rest
  | d, .expect count :: rest => expect count :: ofActions d rest
  | d, .interrupt :: rest => interrupt :: ofActions d rest
  | d, .drop :: rest => failure :: ofActions d rest

end Happening

/-- `ahead` holds what is left of the present session and `inbox` the texts that the client has sent
and the server not read. `taken` holds the texts that were expected and read, by connection, the
latest first. -/
structure Peer where
  meetings : List Meeting
  clock : UInt64 := 0
  ahead : List Happening := []
  inbox : List String := []
  taken : List (List String) := []
  /-- Whether the client is told to give up while it is between sessions. -/
  isInterrupting : Bool := false

namespace Peer

/-- The host that the server answers for. -/
def host : Url.Host := .domain "server"

/-- Whether an address leads to the server. The scheme has to be spelt in lower case here. -/
def reaches (address : String) : Bool :=
  address.startsWith "wss://" &&
    match Url.ofText? address with
    | some url => url.host == some host && url.port == none
    | none => false

/-- Reads texts that the client has sent. -/
def expect (p : Peer) (count : Nat) : Peer :=
  { p with
    inbox := p.inbox.drop count
    taken :=
      match p.taken with
      | [] => []
      | latest :: earlier => (latest ++ p.inbox.take count) :: earlier }

/-- Waits for what the client notices next. A session that is over fails. -/
def play (p : Peer) : List Happening → Inbound × Peer
  | [] => (.failed, { p with ahead := [] })
  | .message m :: rest => (.message m, { p with ahead := rest })
  | .failure :: rest => (.failed, { p with ahead := rest })
  | .interrupt :: rest => (.interrupted, { p with ahead := rest })
  | .expect count :: rest => (p.expect count).play rest
  | .echo :: rest =>
    match p.inbox with
    | [] => (.failed, { p with ahead := rest })
    | text :: inbox => (.message (.text text), { p with ahead := rest, inbox })

def receive (p : Peer) : Inbound × Peer := p.play p.ahead

/-- Ends the present session. What the client has sent is still read. -/
def close (p : Peer) : Peer :=
  let p := p.ahead.foldl (fun p h =>
    match h with
    | .expect count => p.expect count
    | .echo => { p with inbox := p.inbox.tail }
    | .interrupt => { p with isInterrupting := true }
    | .message _ | .failure => p) p
  { p with ahead := [], inbox := [] }

/-- A connection begins the next session. -/
def handshake (p : Peer) (address : String) : Handshake × Peer :=
  if reaches address then
    let next := { p with
      meetings := p.meetings.tail, taken := [] :: p.taken, ahead := [], inbox := [] }
    match p.meetings with
    | [] => (.refused, next)
    | .refuse rest :: _ => (.refused, { next with ahead := rest }.close)
    | .stall rest :: _ => (.timedOut, { next with ahead := rest }.close)
    | .play happenings :: _ => (.accepted, { next with ahead := happenings })
  else (.refused, p)

theorem length_play_lt (p : Peer) (happenings : List Happening) (m : Message)
    (h : (p.play happenings).1 = .message m) :
    (p.play happenings).2.ahead.length < happenings.length := by
  induction happenings generalizing p with
  | nil => simp [play] at h
  | cons happening rest ih =>
    cases happening with
    | message => simp [play]
    | failure => simp [play] at h
    | interrupt => simp [play] at h
    | expect count =>
      simp only [play] at h ⊢
      exact Nat.lt_succ_of_lt (ih _ h)
    | echo =>
      simp only [play] at h ⊢
      split
      · simp_all
      · simp

def wire : Wire Peer where
  handshake p address _ := p.handshake address
  send p text := (true, { p with inbox := p.inbox ++ [text] })
  receive := receive
  close := close
  now := Peer.clock
  pending p := p.ahead.length
  pending_lt p m h := p.length_play_lt p.ahead m h

end Peer

end MarketFeed.Transport
