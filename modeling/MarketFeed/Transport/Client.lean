import MarketFeed.Text.Utf8
import MarketFeed.Transport.Capture
import MarketFeed.Transport.Error
import MarketFeed.Transport.Identity

/-!
Clients: connections on which each request is answered by one reply. Like a stream, a client is
described by what it does to a state of its own.

A replay is a client that plays back replies listed in advance and notes each call. When the list is
used up, a request to read is answered with its own address. Useful for dry runs.
-/
namespace MarketFeed.Transport

/-- A request to read an address. Its weight is what it costs against a rate limit. -/
structure Request where
  address : String
  headers : Headers := []
  returnHeaders : Bool := false
  weight : UInt32 := 1
deriving DecidableEq

def Request.withHeader (r : Request) (name value : String) : Request :=
  { r with headers := r.headers ++ [(name, value)] }

/-- A reply; headers come with it if the request asked for them. -/
structure Reply where
  status : Nat
  body : Octets
  headers : Option Headers
deriving DecidableEq

/-- The body as text, U+FFFD in place of what is not UTF-8. -/
def Reply.text (r : Reply) : String := String.ofList (Text.Utf8.decodeLossy r.body)

structure Client (σ : Type) where
  identity : σ → Identity
  isOpen : σ → Bool
  connect : σ → σ × Except Error Unit
  close : σ → σ
  read : σ → Request → σ × Except Error Reply
  write : σ → String → Octets → Headers → σ × Except Error Octets

/-- The failure of a request on a connection that is not open. -/
def Client.closedError {σ : Type} (client : Client σ) (s : σ) : Error :=
  .closed (client.identity s).id

inductive Call where
  | read (request : Request)
  | write (address : String) (body : Octets) (headers : Headers)
deriving DecidableEq

structure Replay where
  id : String
  replies : List (Except Error Octets) := []
  isOpen : Bool := false
  /-- How many more requests to read are answered before the connection is found closed. -/
  closesAfter : Option Nat := none
  calls : List Call := []

namespace Replay

def connect (s : Replay) : Replay × Except Error Unit := ({ s with isOpen := true }, .ok ())

def close (s : Replay) : Replay := { s with isOpen := false }

/-- The next reply in the list. -/
def reply (s : Replay) (request : Request) : Except Error Reply :=
  (s.replies.headD (.ok (Text.Utf8.encode request.address.toList))).map fun body =>
    { status := 200, body, headers := none }

def read (s : Replay) (request : Request) : Replay × Except Error Reply :=
  ({ s with
      replies := s.replies.tail
      calls := s.calls ++ [.read request]
      closesAfter := s.closesAfter.map (· - 1)
      isOpen := s.isOpen && s.closesAfter != some 1 },
    s.reply request)

def write (s : Replay) (address : String) (body : Octets) (headers : Headers) :
    Replay × Except Error Octets :=
  ({ s with calls := s.calls ++ [.write address body headers] }, .ok body)

def client : Client Replay where
  identity s := { id := s.id, kind := .http }
  isOpen := Replay.isOpen
  connect := Replay.connect
  close := Replay.close
  read := Replay.read
  write := Replay.write

end Replay

end MarketFeed.Transport
