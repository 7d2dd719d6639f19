import MarketFeed.Transport.Client

/-!
Requests over HTTP: headers on the wire, the network that requests are sent over, and how what is
done with a channel is written down.

A name of a header is a token and is compared in lower case; a value is octets without controls.
Headers of one name stand together, where the first of them stood.
-/
namespace MarketFeed.Transport

namespace Header

/-- A name in lower case and the octets of a value. -/
abbrev Raw := String × Octets

def isTokenChar (c : Char) : Bool := c.isAlphanum || "!#$%&'*+-.^_|~\x60".contains c

def isName (name : String) : Bool := !name.isEmpty && name.all isTokenChar

def isValue (octets : Octets) : Bool := octets.all fun b => b == 9 || (32 ≤ b && b != 127)

/-- Whether a value can be shown as text. -/
def isVisible (octets : Octets) : Bool := octets.all fun b => b == 9 || (32 ≤ b && b < 127)

def isBlank (b : UInt8) : Bool := b == 9 || b == 32

/-- A value without the blanks around it. -/
def trim (octets : Octets) : Octets :=
  ((octets.dropWhile isBlank).reverse.dropWhile isBlank).reverse

/-- Puts headers of one name together. -/
def group {α : Type} (headers : List (String × α)) : List (String × α) :=
  (headers.map Prod.fst).eraseDups.flatMap fun name => headers.filter (·.1 == name)

/-- Headers as they are handed on: those whose values can be shown as text. -/
def visible (headers : List Raw) : Headers :=
  (headers.filter (isVisible ·.2)).map fun (name, octets) =>
    (name, String.ofList (octets.map fun b => Char.ofNat b.toNat))

end Header

inductive Method where
  | get
  | post
deriving DecidableEq

def Method.name : Method → String
  | get => "GET"
  | post => "POST"

/-- What is sent to a service. -/
structure Outgoing where
  method : Method
  address : String
  headers : Headers
  body : Octets := []
deriving DecidableEq

/-- What sends requests, and waits for at most so many milliseconds for each reply. -/
structure Agent where
  timeout : Option Nat
deriving DecidableEq

/-- The head of a reply, and its body unless that does not come in full. Of a failure it is known
whether it is transient. -/
structure Response where
  status : Nat
  headers : List Header.Raw
  body : Except Bool Octets

/-- What requests are sent over, described by what it does to a state of its own. -/
structure Network (η : Type) where
  /-- Builds an agent, and says whether that was possible. -/
  build : η → Agent → Bool × η
  send : η → Agent → Outgoing → Except Bool Response × η
  now : η → UInt64

/-- Whether a status is one of success. -/
def isSuccess (status : Nat) : Bool := 200 ≤ status && status < 300

/-- Something done with a channel, up to the first failure. -/
abbrev Operation (σ α : Type) := ExceptT Error (StateM σ) α

namespace Operation

variable {σ α β : Type}

/-- What an operation does to a channel, and what comes of it. -/
def on (m : Operation σ α) (s : σ) : σ × Except Error α := (m.run.run s).swap

@[simp]
theorem on_pure (a : α) (s : σ) : (pure a : Operation σ α).on s = (s, .ok a) := rfl

@[simp]
theorem on_throw (e : Error) (s : σ) : (throw e : Operation σ α).on s = (s, .error e) := rfl

@[simp]
theorem on_get (s : σ) : (get : Operation σ σ).on s = (s, .ok s) := rfl

@[simp]
theorem on_set (t s : σ) : (set t : Operation σ PUnit).on s = (t, .ok ⟨⟩) := rfl

@[simp]
theorem on_modify (f : σ → σ) (s : σ) : (modify f : Operation σ PUnit).on s = (f s, .ok ⟨⟩) := rfl

@[simp]
theorem on_bind (m : Operation σ α) (f : α → Operation σ β) (s : σ) :
    (m >>= f).on s =
      match m.on s with
      | (s, .ok a) => (f a).on s
      | (s, .error e) => (s, .error e) := by
  cases h : m.run.run s with
  | mk answer t =>
    have hbind : (m >>= f).run.run s = ExceptT.bindCont f answer t := by
      rw [ExceptT.run_bind, StateT.run_bind, h]
      rfl
    cases answer <;> simp only [on, h, hbind] <;> rfl

@[simp]
theorem on_map (f : α → β) (m : Operation σ α) (s : σ) :
    (f <$> m).on s =
      match m.on s with
      | (s, .ok a) => (s, .ok (f a))
      | (s, .error e) => (s, .error e) := by
  rw [← bind_pure_comp, on_bind]
  rfl

end Operation

/-- Waits for the body of a reply. -/
def Response.bytes {σ : Type} (r : Response) : Operation σ Octets :=
  match r.body with
  | .ok body => return body
  | .error transient => throw (.http transient)

end MarketFeed.Transport
