import MarketFeed.Text.Characters
import MarketFeed.Text.Utf8
import MarketFeed.Url.Domain

/-!
URLs. Blanks and controls around a URL and line breaks and tabs inside it do not count. Schemes of
the web have a host, and any slashes before it may also be backslashes; of other schemes little is
asked. A path is kept with its dots resolved and what cannot stand in it encoded.
-/
namespace MarketFeed

open Number

inductive Url.Host where
  | domain (name : String)
  | ipv4 (address : Nat)
  | ipv6 (pieces : List Nat)
deriving DecidableEq

structure Url where
  scheme : String
  host : Option Url.Host := none
  port : Option Nat := none
  path : String := ""
  query : Option String := none
deriving DecidableEq

namespace Url

def isBlank (c : Char) : Bool := c.toNat ≤ 0x20

/-- A text without what does not count in it. -/
def clean (s : List Char) : List Char :=
  let s := ((s.dropWhile isBlank).reverse.dropWhile isBlank).reverse
  s.filter fun c => !(c == '\t' || c == '\n' || c == '\r')

def isSchemeChar (c : Char) : Bool := c.isAlphanum || c == '+' || c == '-' || c == '.'

/-- A letter and more letters, digits or `+`, `-`, `.`, up to a colon. -/
def readScheme (s : List Char) : Option (String × List Char) :=
  match s.dropWhile isSchemeChar with
  | ':' :: rest =>
    if (s.head?.map Char.isAlpha).getD false then
      some (String.ofList ((s.takeWhile isSchemeChar).map Char.toLower), rest)
    else none
  | _ => none

/-- Schemes of the web. -/
def isSpecial (scheme : String) : Bool := ["http", "https", "ws", "wss", "ftp"].contains scheme

def isSlash (c : Char) : Bool := c == '/' || c == '\\'

/-- Whether a character ends the part of a URL that holds the host. -/
def endsAuthority (special : Bool) (c : Char) : Bool :=
  c == '/' || c == '?' || c == '#' || (special && c == '\\')

/-- Octets in place of their codes in a text. -/
def decodePercent : List Char → List UInt8
  | [] => []
  | '%' :: a :: b :: rest =>
    match hexDigit? a, hexDigit? b with
    | some a, some b => UInt8.ofNat (a * 16 + b) :: decodePercent rest
    | _, _ => UInt8.ofNat 0x25 :: decodePercent (a :: b :: rest)
  | c :: rest => Text.Utf8.encodeChar c ++ decodePercent rest
termination_by s => s.length

/-- A host in brackets. -/
def bracketed? (s : List Char) : Option Host :=
  if s.getLast? = some ']' then (Ipv6.ofText? ((s.drop 1).dropLast)).map .ipv6 else none

/-- The host of a web scheme. -/
def host? (s : List Char) : Option Host :=
  if s.head? = some '[' then bracketed? s
  else do
    let name ← Domain.ofText? (← Text.Utf8.decode? (decodePercent s))
    if Ipv4.isMeant name then (Ipv4.ofText? name).map .ipv4
    else some (.domain (String.ofList name))

/-- The host of another scheme, which is left as it is. -/
def otherHost? (s : List Char) : Option Host :=
  if s.head? = some '[' then bracketed? s
  else if s.any fun c =>
      ['\x00', ' ', '#', '/', ':', '<', '>', '?', '@', '[', '\\', ']', '^', '|'].contains c then
    none
  else some (.domain (String.ofList s))

/-- Cuts at a colon outside brackets. -/
def cutPort : (inside : Bool) → List Char → List Char × Option (List Char)
  | _, [] => ([], none)
  | inside, c :: rest =>
    if c = ':' ∧ !inside then ([], some rest)
    else
      let (host, port) := cutPort (if c = '[' then true else if c = ']' then false else inside) rest
      (c :: host, port)

/-- Digits of a port; there may be none. -/
def port? (s : List Char) : Option (Option Nat) :=
  if s = [] then some none
  else (Digits.value? s).bind fun n => if n ≤ 65535 then some (some n) else none

/-- The user before the last `@`, if there is one, and the rest. -/
def cutUser (s : List Char) : Option (List Char) × List Char :=
  if s.contains '@' then
    (some ((s.reverse.dropWhile (· ≠ '@')).drop 1).reverse, (s.reverse.takeWhile (· ≠ '@')).reverse)
  else (none, s)

/-- The host and port in an authority. Other schemes than those of the web may have no host, but not
after a user. -/
def authority? (special : Bool) (s : List Char) (isLast : Bool) :
    Option (Option Host × Option Nat) := do
  let (user, rest) := cutUser s
  let (host, port) := cutPort false rest
  let port ← port? (port.getD [])
  if host = [] then
    let isNamed := user.any fun user => user ≠ [':'] ∧ (user ≠ [] ∨ !isLast)
    if special ∨ isNamed then none else some (none, port)
  else
    let host ← if special then host? host else otherHost? host
    some (some host, port)

/-! Paths and queries -/

/-- A character, or the codes of its octets if it cannot stand where it is. -/
def encodeUnless (stays : Char → Bool) (c : Char) : List Char :=
  if 0x20 < c.toNat ∧ c.toNat < 0x7F ∧ stays c then [c]
  else (Text.Utf8.encodeChar c).flatMap fun b =>
    ['%', (Text.Quoted.hexDigit (b.toNat / 16)).toUpper,
      (Text.Quoted.hexDigit (b.toNat % 16)).toUpper]

def staysInPath (c : Char) : Bool :=
  !(['"', '#', '<', '>', '?', '\x60', '\x7b', '\x7d']).contains c

def staysInQuery (special : Bool) (c : Char) : Bool :=
  !(['"', '#', '<', '>']).contains c && !(special && c == '\'')

/-- A segment that names its own directory. -/
def isDot (s : List Char) : Bool :=
  let s := s.map Char.toLower
  s == ['.'] || s == ['%', '2', 'e']

/-- A segment that names the directory above. -/
def isDoubleDot (s : List Char) : Bool :=
  let dot := ['.']
  let code := ['%', '2', 'e']
  let s := s.map Char.toLower
  s == dot ++ dot || s == dot ++ code || s == code ++ dot || s == code ++ code

/-- The segments of a path, with dots resolved. A path that ends in dots ends in a slash. -/
def resolve : (done : List (List Char)) → List (List Char) → List (List Char)
  | done, [] => done
  | done, [last] =>
    if isDot last then done ++ [[]]
    else if isDoubleDot last then done.dropLast ++ [[]]
    else done ++ [last]
  | done, segment :: rest =>
    if isDot segment then resolve done rest
    else if isDoubleDot segment then resolve done.dropLast rest
    else resolve (done ++ [segment]) rest

/-- The path of a web scheme. -/
def pathText (s : List Char) : String :=
  let s := s.map fun c => if c = '\\' then '/' else c
  let segments := splitOn '/' (if s.head? = some '/' then s.drop 1 else s)
  String.ofList ((resolve [] segments).flatMap fun segment =>
    '/' :: segment.flatMap (encodeUnless staysInPath))

/-- The path and query at the end of a URL, without a fragment. -/
def withPath (u : Url) (special : Bool) (s : List Char) : Url :=
  let s := s.takeWhile (· ≠ '#')
  let path := s.takeWhile (· ≠ '?')
  { u with
    path :=
      if special then pathText path else String.ofList (path.flatMap (encodeUnless fun _ => true))
    query :=
      match s.dropWhile (· ≠ '?') with
      | _ :: query => some (String.ofList (query.flatMap (encodeUnless (staysInQuery special))))
      | [] => none }

/-- What follows two slashes. -/
def withAuthority? (scheme : String) (special : Bool) (s : List Char) : Option Url := do
  let front := s.takeWhile (!endsAuthority special ·)
  let rest := s.dropWhile (!endsAuthority special ·)
  let (host, port) ← authority? special front (rest = [])
  some ({ scheme, host, port : Url }.withPath special rest)

/-- A letter and a colon or bar, which name a drive and no host. -/
def isDrive : List Char → Bool
  | [c, mark] => c.isAlpha && (mark == ':' || mark == '|')
  | _ => false

/-- A file, whose host may be left out. -/
def file? (s : List Char) : Option Url :=
  match s with
  | a :: b :: rest =>
    if isSlash a ∧ isSlash b then
      let host := rest.takeWhile (!endsAuthority true ·)
      let after := rest.dropWhile (!endsAuthority true ·)
      if host = [] then some ({ scheme := "file" : Url }.withPath true after)
      else if isDrive host then some ({ scheme := "file" : Url }.withPath true rest)
      else do some ({ scheme := "file", host := some (← host? host) : Url }.withPath true after)
    else some ({ scheme := "file" : Url }.withPath true s)
  | s => some ({ scheme := "file" : Url }.withPath true s)

def ofText? (text : String) : Option Url := do
  let (scheme, rest) ← readScheme (clean text.toList)
  if scheme = "file" then file? rest
  else if isSpecial scheme then withAuthority? scheme true (rest.dropWhile isSlash)
  else
    match rest with
    | '/' :: '/' :: rest => withAuthority? scheme false rest
    | rest => some ({ scheme : Url }.withPath false rest)

/-- What a request asks a server for. -/
def target (u : Url) : String :=
  (if u.path = "" then "/" else u.path) ++ ((u.query.map ("?" ++ ·)).getD "")

end Url

end MarketFeed
