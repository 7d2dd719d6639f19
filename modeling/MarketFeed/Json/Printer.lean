import MarketFeed.Json.Basic
import MarketFeed.Text.Characters

/-!
JSON text without blanks. Text escapes quotes, backslashes and control characters and writes every
other character as it is.
-/
namespace MarketFeed.Json

open Number

def escape (c : Char) : List Char :=
  if c = '"' ∨ c = '\\' then ['\\', c]
  else if c = '\x08' then ['\\', 'b']
  else if c = '\x0c' then ['\\', 'f']
  else if c = '\n' then ['\\', 'n']
  else if c = '\r' then ['\\', 'r']
  else if c = '\t' then ['\\', 't']
  else if c.toNat < 0x20 then
    ['\\', 'u', '0', '0', Text.Quoted.hexDigit (c.toNat / 16), Text.Quoted.hexDigit (c.toNat % 16)]
  else [c]

def encodeText (s : List Char) : List Char := '"' :: s.flatMap escape ++ ['"']

/-- Parts with commas between them. -/
def separated : List (List Char) → List Char
  | [] => []
  | [part] => part
  | part :: rest => part ++ ',' :: separated rest

mutual

def encode : Json → List Char
  | null | unreadable => ['n', 'u', 'l', 'l']
  | bool true => ['t', 'r', 'u', 'e']
  | bool false => ['f', 'a', 'l', 's', 'e']
  | int n => Digits.ofInt n
  | double x => x.text
  | text s => encodeText s.toList
  | array items => '[' :: separated (encodeItems items) ++ [']']
  | object fields => '\x7b' :: separated (encodeFields fields) ++ ['\x7d']

def encodeItems : List Json → List (List Char)
  | [] => []
  | item :: rest => encode item :: encodeItems rest

def encodeFields : List (String × Json) → List (List Char)
  | [] => []
  | (name, value) :: rest => (encodeText name.toList ++ ':' :: encode value) :: encodeFields rest

end

def render (j : Json) : String := String.ofList j.encode

end MarketFeed.Json
