import MarketFeed.Text.Utf8
import MarketFeed.Transport.Wire

/-!
Framing: how messages from a server lie on the wire as octets. A frame has a header that names its
kind and length; a text or binary message may be cut into several frames, between which others that
carry no data may stand. A decoder reads octets as they come and refuses what breaks the rules.
-/
namespace MarketFeed.Transport.Framing

/-- A number as so many octets, the highest first. -/
def octetsOf : (width : Nat) → Nat → Octets
  | 0, _ => []
  | width + 1, n => octetsOf width (n / 256) ++ [UInt8.ofNat n]

def ofOctets (octets : Octets) : Nat := octets.foldl (fun n b => n * 256 + b.toNat) 0

/-- The last frame of a message, with its kind in four bits. -/
def encodeFrame (kind : Nat) (payload : Octets) : Octets :=
  let size := payload.length
  let length :=
    if size < 126 then [UInt8.ofNat size]
    else if size < 65536 then 126 :: octetsOf 2 size
    else 127 :: octetsOf 8 size
  UInt8.ofNat (128 + kind) :: length ++ payload

/-- A message in one frame. -/
def encode : Message → Octets
  | .text s => encodeFrame 1 (Text.Utf8.encode s.toList)
  | .binary octets => encodeFrame 2 octets
  | .close => encodeFrame 8 []
  | .ping octets => encodeFrame 9 octets
  | .pong octets => encodeFrame 10 octets
  | .raw octets => octets

/-- A frame, with the header that it came with. -/
structure Frame where
  isLast : Bool
  hasReservedBits : Bool
  isMasked : Bool
  kind : Nat
  payload : Octets
deriving DecidableEq

/-- What stands at the front of the octets read so far. -/
inductive Front where
  | incomplete
  | refused
  | frame (f : Frame) (rest : Octets)

def isKnown (kind : Nat) : Bool := kind < 3 || (8 ≤ kind && kind < 11)

/-- The longest payload that a frame may carry. -/
def maxLength : Nat := 1 <<< 24

/-- The first frame. An unknown kind or too great a length is refused as soon as the header is
there. -/
def front : Octets → Front
  | first :: second :: rest =>
    let isMasked := second.toNat / 128 = 1
    let short := second.toNat % 128
    let width := if short = 126 then 2 else if short = 127 then 8 else 0
    let header := width + if isMasked then 4 else 0
    if rest.length < header then .incomplete
    else
      let length := if width = 0 then short else ofOctets (rest.take width)
      let kind := first.toNat % 16
      let rest := rest.drop header
      if !isKnown kind || maxLength < length then .refused
      else if rest.length < length then .incomplete
      else
        .frame
          { isLast := first.toNat / 128 = 1
            hasReservedBits := first.toNat / 16 % 8 ≠ 0
            isMasked, kind, payload := rest.take length }
          (rest.drop length)
  | _ => .incomplete

/-- What has been read of a message that is not complete. -/
structure Partial where
  isText : Bool
  payload : Octets
deriving DecidableEq

structure Decoder where
  unread : Octets := []
  begun : Option Partial := none
deriving DecidableEq

/-- A message that is complete. Text has to be UTF-8. -/
def Partial.message? (p : Partial) : Option Message :=
  if p.isText then (Text.Utf8.decode? p.payload).map fun s => .text (String.ofList s)
  else some (.binary p.payload)

/-- Adds a part of a message to what has been read of it. Text has to be the start of some UTF-8. -/
def Partial.add? (p : Partial) (payload : Octets) (isLast : Bool) :
    Option (Option Message × Option Partial) :=
  let p := { p with payload := p.payload ++ payload }
  if isLast then p.message?.map fun m => (some m, none)
  else if !p.isText || Text.Utf8.isStart p.payload then some (none, some p)
  else none

/-- A close frame holds nothing, or a code of two octets and a reason in UTF-8. -/
def isClosePayload : Octets → Bool
  | [] => true
  | [_] => false
  | _ :: _ :: reason => (Text.Utf8.decode? reason).isSome

/-- What a frame adds: perhaps a message, and what has been begun after it; `none` if the frame
breaks the rules. -/
def accept? (begun : Option Partial) (f : Frame) : Option (Option Message × Option Partial) :=
  if f.hasReservedBits || f.isMasked then none
  else if 8 ≤ f.kind then
    if !f.isLast || 125 < f.payload.length then none
    else if f.kind = 8 then
      if isClosePayload f.payload then some (some .close, begun) else none
    else if f.kind = 9 then some (some (.ping f.payload), begun)
    else some (some (.pong f.payload), begun)
  else
    match begun with
    | some p => if f.kind = 0 then p.add? f.payload f.isLast else none
    | none =>
      if f.kind = 0 then none
      else Partial.add? { isText := f.kind = 1, payload := [] } f.payload f.isLast

/-- Reads frames off the front, at most so many. -/
def readAll : (fuel : Nat) → Decoder → List Message × Option Decoder
  | 0, d => ([], some d)
  | fuel + 1, d =>
    match front d.unread with
    | .incomplete => ([], some d)
    | .refused => ([], none)
    | .frame f rest =>
      match accept? d.begun f with
      | none => ([], none)
      | some (m, begun) =>
        let (messages, last) := readAll fuel { unread := rest, begun }
        (m.toList ++ messages, last)

/-- The messages that more octets complete, and the decoder after them, or `none` if the octets
break the rules. A frame has two octets at least. -/
def Decoder.read (d : Decoder) (octets : Octets) : List Message × Option Decoder :=
  let d := { d with unread := d.unread ++ octets }
  readAll d.unread.length d

end MarketFeed.Transport.Framing
