import MarketFeed.Transport.Stream

/-!
A stream played from a script: what arrives is listed in advance, and opening and writing can be
told to fail. Useful for dry runs.
-/
namespace MarketFeed.Transport

/-- One thing that happens on the way in. -/
inductive Arrival where
  | frame (text : String)
  | failure (e : Error)
  | ended
deriving DecidableEq

structure Script where
  id : String
  arrivals : List Arrival := []
  isOpen : Bool := false
  /-- With what opening fails, if it does. -/
  openFailure : Option Error := none
  /-- How many more texts can be written, and with what the next one fails, if one does. -/
  writeFailure : Option (Nat × Error) := none
  written : List String := []
  sent : Nat := 0
  received : Nat := 0
  sessions : Nat := 0
  /-- The time of the next receipt, and how much later each one is than the one before. -/
  clock : Nat := 0
  clockStep : Nat := 0

namespace Script

def connect (s : Script) : Script × Except Error Unit :=
  if s.isOpen then (s, .ok ())
  else
    match s.openFailure with
    | some e => (s, .error e)
    | none => ({ s with isOpen := true, sessions := s.sessions + 1 }, .ok ())

def close (s : Script) : Script := { s with isOpen := false }

def write (s : Script) (text : String) : Script × Except Error Unit :=
  if !s.isOpen then (s, .error (.closed s.id))
  else
    match s.writeFailure with
    | some (0, e) => (s, .error e)
    | left =>
      ({ s with written := s.written ++ [text], sent := s.sent + 1,
                writeFailure := left.map fun (n, e) => (n - 1, e) }, .ok ())

def receive (s : Script) : Received × Script :=
  if !s.isOpen then (.failed (.closed s.id), s)
  else
    match s.arrivals with
    | [] => (.ended, s)
    | .ended :: rest => (.ended, { s with arrivals := rest })
    | .failure e :: rest => (.failed e, { s with arrivals := rest })
    | .frame text :: rest =>
      (.frame text (UInt64.ofNat s.clock),
        { s with arrivals := rest, received := s.received + 1, clock := s.clock + s.clockStep })

theorem length_arrivals_lt (s : Script) (text : String) (receipt : UInt64)
    (h : s.receive.1 = .frame text receipt) :
    s.receive.2.arrivals.length < s.arrivals.length := by
  unfold receive at h ⊢
  split at h <;> try contradiction
  split at h <;> try contradiction
  rename_i hopen _ _ _ harrivals
  simp [hopen, harrivals]

def stream : Stream Script where
  id := Script.id
  isOpen := Script.isOpen
  connect := Script.connect
  close := Script.close
  write := Script.write
  receive := Script.receive
  pending s := s.arrivals.length
  pending_lt := length_arrivals_lt

end Script

end MarketFeed.Transport
