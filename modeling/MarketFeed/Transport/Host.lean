import MarketFeed.Transport.Http
import MarketFeed.Url.Basic

/-!
A scripted service behind a network. Each request that arrives takes the next reply of the script,
and one that finds none left is cut off. Useful for dry runs.
-/
namespace MarketFeed.Transport

/-- `missing` octets of the body are announced and never come. -/
inductive HostReply where
  | answer (status : Nat) (headers : List Header.Raw) (body : Octets) (missing : Nat)
  | drop
  | stall

/-- A request as the service sees it. -/
structure Arrived where
  method : Method
  target : String
  headers : Headers
  body : Octets
deriving DecidableEq

/-- The service answers on one scheme only; requests to any other address find nobody. -/
structure Host where
  scheme : String
  replies : List HostReply
  clock : UInt64 := 0
  arrived : List Arrived := []
  /-- Whether agents can be built at all. -/
  builds : Bool := true

namespace Host

/-- The host that the service answers for. -/
def name : Url.Host := .domain "server"

/-- Headers as they are sent, unless one of them cannot be. -/
def sendable? (headers : Headers) : Option Headers :=
  let octets (value : String) := Text.Utf8.encode value.toList
  if headers.all fun (name, value) => Header.isName name && Header.isValue (octets value) then
    some (Header.group (headers.map fun (name, value) =>
      (name.toLower, String.ofList (Text.Utf8.decodeLossy (Header.trim (octets value))))))
  else none

/-- Headers of a reply as the client reads them. -/
def readable (headers : List Header.Raw) : List Header.Raw :=
  Header.group (headers.map fun (name, value) => (name.toLower, Header.trim value))

/-- Some replies carry no body. -/
def isBodiless (status : Nat) : Bool := status == 204 || status == 304

/-- What becomes of a request. -/
def outcome : HostReply → Except Bool Response
  | .answer status headers body missing =>
    .ok
      { status, headers := readable headers
        body :=
          if isBodiless status then .ok [] else if missing = 0 then .ok body else .error false }
  | .drop => .error false
  | .stall => .error true

def send (h : Host) (outgoing : Outgoing) : Except Bool Response × Host :=
  match Url.ofText? outgoing.address, sendable? outgoing.headers with
  | some url, some headers =>
    if (url.scheme != "http" && url.scheme != "https") || url.host.isNone then (.error false, h)
    else if url.scheme == h.scheme && url.host == some name && url.port.isNone then
      let arrived : Arrived :=
        { method := outgoing.method, target := url.target, headers, body := outgoing.body }
      ((h.replies.head?.map outcome).getD (.error false),
        { h with replies := h.replies.tail, arrived := h.arrived ++ [arrived] })
    else (.error true, h)
  | _, _ => (.error false, h)

def network : Network Host where
  build h _ := (h.builds, h)
  send h _ := h.send
  now := Host.clock

end Host

end MarketFeed.Transport
