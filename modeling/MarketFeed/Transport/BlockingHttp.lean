import MarketFeed.Transport.Http

/-!
HTTP channels that block until they are answered, for single requests before anything else runs.
They keep to the same contract as those that are waited on: a channel opens itself for a request, and
what a service answers is counted and captured before its status is looked at.
-/
namespace MarketFeed.Transport

/-- The channel is open while it has an agent. `timeout` is for agents that are built from now on,
in milliseconds; `records` is `none` where nothing is captured. -/
structure BlockingHttp (η : Type) where
  identity : Identity
  agent : Option Agent := none
  timeout : Option Nat := none
  records : Option (List Record) := none
  network : η

namespace BlockingHttp

variable {η : Type}

def isOpen (s : BlockingHttp η) : Bool := s.agent.isSome

def connect (net : Network η) : Operation (BlockingHttp η) Unit := do
  let s ← get
  if s.agent.isSome then return
  let agent : Agent := { timeout := s.timeout }
  match net.build s.network agent with
  | (true, network) =>
    set { s with network, agent := some agent, identity := s.identity.beginSession }
  | (false, network) =>
    set { s with network }
    throw (.http false)

def close (s : BlockingHttp η) : BlockingHttp η := { s with agent := none }

/-- The agent of a channel, which is opened first if need be. -/
def session (net : Network η) : Operation (BlockingHttp η) Agent := do
  if (← get).agent.isNone then
    connect net
  let s ← get
  match s.agent with
  | some agent => return agent
  | none => throw (.closed s.identity.id)

/-- Captures a body. -/
def capture (payload : Octets) (time : UInt64) (context : Context) :
    Operation (BlockingHttp η) Unit :=
  modify fun s =>
    { s with
      records := s.records.map
        (· ++ [{ payload := some payload, time, connection := s.identity.id, context }]) }

def checkStatus (address : String) (status : Nat) : Operation (BlockingHttp η) Unit := do
  if isSuccess status then
    return
  throw (.status (← get).identity.id address status)

/-- Sends a request, and blocks until the head of the reply is there. -/
def send (net : Network η) (agent : Agent) (outgoing : Outgoing) :
    Operation (BlockingHttp η) Response := do
  let s ← get
  let (answer, network) := net.send s.network agent outgoing
  set { s with network }
  match answer with
  | .ok response => return response
  | .error transient => throw (.http transient)

/-- Reads an address. -/
def read (net : Network η) (request : Request) : Operation (BlockingHttp η) Reply := do
  let agent ← session net
  let response ←
    send net agent { method := .get, address := request.address, headers := request.headers }
  let headers := Header.visible response.headers
  let body ← response.bytes
  let now := net.now (← get).network
  modify fun s => { s with identity := s.identity.markReceived now }
  let headers := if request.returnHeaders then some headers else none
  capture body now (.endpoint request.address headers)
  checkStatus request.address response.status
  return { status := response.status, body, headers }

/-- Writes to an address. The request counts as sent when the head of the reply is there. -/
def write (net : Network η) (address : String) (body : Octets) (headers : Headers) :
    Operation (BlockingHttp η) Octets := do
  let agent ← session net
  let response ← send net agent { method := .post, address, headers, body }
  modify fun s => { s with identity := s.identity.markSent }
  let data ← response.bytes
  capture data (net.now (← get).network) (.send address)
  checkStatus address response.status
  return data

/-- A blocking channel as a client. -/
def client (net : Network η) : Client (BlockingHttp η) where
  identity := BlockingHttp.identity
  isOpen := isOpen
  connect := (connect net).on
  close := close
  read s request := (read net request).on s
  write s address body headers := (write net address body headers).on s

end BlockingHttp

end MarketFeed.Transport
