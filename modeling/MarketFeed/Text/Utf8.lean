/-!
UTF-8 over octet lists. `pieces` cuts a list into characters and ill-formed pieces, an ill-formed
piece being the longest run that begins some character but cannot be completed, or one octet that
begins none. `decode?` refuses ill-formed pieces and `decodeLossy` puts U+FFFD in place of each.
-/
namespace MarketFeed.Text.Utf8

/-- What a leading octet says: its share of the code point, how many octets follow, and the range
the first of those has to lie in. -/
structure Lead where
  bits : Nat
  owed : Nat
  low : Nat := 0x80
  high : Nat := 0xBF

def lead? (b : UInt8) : Option Lead :=
  let n := b.toNat
  if n ≤ 0x7F then some { bits := n, owed := 0 }
  else if n < 0xC2 then none
  else if n ≤ 0xDF then some { bits := n % 32, owed := 1 }
  else if n = 0xE0 then some { bits := 0, owed := 2, low := 0xA0 }
  else if n = 0xED then some { bits := 0xD, owed := 2, high := 0x9F }
  else if n ≤ 0xEF then some { bits := n % 16, owed := 2 }
  else if n = 0xF0 then some { bits := 0, owed := 3, low := 0x90 }
  else if n ≤ 0xF3 then some { bits := n % 8, owed := 3 }
  else if n = 0xF4 then some { bits := 4, owed := 3, high := 0x8F }
  else none

/-- Takes the octets a leading octet owes, with the code point as far as known. Stops before the
first octet that does not fit. -/
def follow (bits : Nat) : (owed low high : Nat) → List UInt8 → Option Nat × List UInt8
  | 0, _, _, rest => (some bits, rest)
  | _ + 1, _, _, [] => (none, [])
  | owed + 1, low, high, b :: rest =>
    if low ≤ b.toNat ∧ b.toNat ≤ high then
      follow (bits * 64 + b.toNat % 64) owed 0x80 0xBF rest
    else (none, b :: rest)

theorem length_follow_le (bits owed low high : Nat) (rest : List UInt8) :
    (follow bits owed low high rest).2.length ≤ rest.length := by
  induction rest generalizing bits owed low high with
  | nil => cases owed <;> simp [follow]
  | cons b rest ih =>
    cases owed with
    | zero => simp [follow]
    | succ owed =>
      simp only [follow]
      split
      · exact Nat.le_succ_of_le (ih ..)
      · exact Nat.le_refl _

/-- The characters of an octet list, `none` for each ill-formed piece. -/
def pieces : List UInt8 → List (Option Char)
  | [] => []
  | b :: rest =>
    match lead? b with
    | none => none :: pieces rest
    | some lead =>
      let taken := follow lead.bits lead.owed lead.low lead.high rest
      taken.1.map Char.ofNat :: pieces taken.2
termination_by octets => octets.length
decreasing_by
  · simp
  · have := length_follow_le lead.bits lead.owed lead.low lead.high rest
    simp only [List.length_cons]
    omega

/-- Whether more octets could make this well formed. -/
def isStart : List UInt8 → Bool
  | [] => true
  | b :: rest =>
    match lead? b with
    | none => false
    | some lead =>
      let taken := follow lead.bits lead.owed lead.low lead.high rest
      if taken.1.isSome then isStart taken.2 else taken.2.isEmpty
termination_by octets => octets.length
decreasing_by
  have := length_follow_le lead.bits lead.owed lead.low lead.high rest
  simp only [List.length_cons]
  omega

def decode? (octets : List UInt8) : Option (List Char) := (pieces octets).mapM id

def decodeLossy (octets : List UInt8) : List Char :=
  (pieces octets).map fun piece => piece.getD '\uFFFD'

/-- The octets of a character, by the size of its code point. -/
def encodeChar (c : Char) : List UInt8 :=
  let n := c.toNat
  if n < 0x80 then [UInt8.ofNat n]
  else if n < 0x800 then [UInt8.ofNat (0xC0 + n / 64), UInt8.ofNat (0x80 + n % 64)]
  else if n < 0x10000 then
    [UInt8.ofNat (0xE0 + n / 4096), UInt8.ofNat (0x80 + n / 64 % 64), UInt8.ofNat (0x80 + n % 64)]
  else
    [UInt8.ofNat (0xF0 + n / 262144), UInt8.ofNat (0x80 + n / 4096 % 64),
      UInt8.ofNat (0x80 + n / 64 % 64), UInt8.ofNat (0x80 + n % 64)]

def encode (s : List Char) : List UInt8 := s.flatMap encodeChar

end MarketFeed.Text.Utf8
