/-!
# UTF-8

Texts travel as octets in UTF-8. A machine reads one octet at a time and tells the
scalar values of a sequence of octets, with `none` for each maximal part that
begins none: `decode?` refuses such parts and `decodeLossy` puts the replacement
character in their place.
-/

namespace DebugLink

/-- A sequence of octets. -/
abbrev Bytes := List UInt8

namespace Text.Utf8

/-- The octets of one scalar value. -/
def encodeChar (c : Char) : Bytes :=
  let n := c.toNat
  if n < 0x80 then [n.toUInt8]
  else if n < 0x800 then [(0xC0 + n / 64).toUInt8, (0x80 + n % 64).toUInt8]
  else if n < 0x10000 then
    [(0xE0 + n / 4096).toUInt8, (0x80 + n / 64 % 64).toUInt8, (0x80 + n % 64).toUInt8]
  else
    [(0xF0 + n / 262144).toUInt8, (0x80 + n / 4096 % 64).toUInt8,
      (0x80 + n / 64 % 64).toUInt8, (0x80 + n % 64).toUInt8]

/-- The octets of a list of characters. -/
def encodeChars (cs : List Char) : Bytes := cs.flatMap encodeChar

/-- The octets of a text. -/
def encode (s : String) : Bytes := encodeChars s.toList

/-- Where the machine stands between two octets. -/
inductive State where
  /-- Between scalar values. -/
  | between
  /-- Inside a scalar value: `tails + 1` octets are due, the next one from `low` to `high`,
  and `value` holds the bits read so far. -/
  | inside (tails low high value : Nat)
  deriving DecidableEq

/-- What the machine tells at one octet, and where it goes. -/
abbrev Move := List (Option Char) × State

/-- The move at an octet between scalar values. The bounds on the second octet exclude
overlong forms, surrogates and values above U+10FFFF. -/
def begin (b : Nat) : Move :=
  if b < 0x80 then ([some (Char.ofNat b)], .between)
  else if b < 0xC2 then ([none], .between)
  else if b < 0xE0 then ([], .inside 0 0x80 0xBF (b - 0xC0))
  else if b = 0xE0 then ([], .inside 1 0xA0 0xBF 0)
  else if b = 0xED then ([], .inside 1 0x80 0x9F 0xD)
  else if b < 0xF0 then ([], .inside 1 0x80 0xBF (b - 0xE0))
  else if b = 0xF0 then ([], .inside 2 0x90 0xBF 0)
  else if b < 0xF4 then ([], .inside 2 0x80 0xBF (b - 0xF0))
  else if b = 0xF4 then ([], .inside 2 0x80 0x8F 4)
  else ([none], .between)

/-- The move at any octet. One that does not fit ends the part read so far, which then begins
no scalar value, and is looked at afresh. -/
def move (state : State) (b : UInt8) : Move :=
  match state with
  | .between => begin b.toNat
  | .inside tails low high value =>
    if low ≤ b.toNat ∧ b.toNat ≤ high then
      let value := value * 64 + (b.toNat - 0x80)
      match tails with
      | 0 => ([some (Char.ofNat value)], .between)
      | tails + 1 => ([], .inside tails 0x80 0xBF value)
    else
      let (told, state) := begin b.toNat
      (none :: told, state)

/-- What the end of the octets tells. -/
def State.finish : State → List (Option Char)
  | .between => []
  | .inside .. => [none]

/-- Run the machine over octets; `told` holds what it has told before, reversed. -/
def run (told : List (Option Char)) (state : State) : Bytes → List (Option Char)
  | [] => told.reverse ++ state.finish
  | b :: rest => run ((move state b).1.reverse ++ told) (move state b).2 rest

/-- The scalar values of a sequence of octets, with `none` for each part that begins none. -/
def scalars (bytes : Bytes) : List (Option Char) := run [] .between bytes

/-- The characters of a list of scalar values, if it has no `none`. -/
def present? (done : List Char) : List (Option Char) → Option (List Char)
  | [] => some done.reverse
  | none :: _ => none
  | some c :: rest => present? (c :: done) rest

/-- The text of octets that are valid throughout. -/
def decode? (bytes : Bytes) : Option String := (present? [] (scalars bytes)).map String.ofList

/-- The text of any octets, with U+FFFD for each part that begins no scalar value. -/
def decodeLossy (bytes : Bytes) : String :=
  String.ofList ((scalars bytes).map (·.getD (Char.ofNat 0xFFFD)))

end Text.Utf8

end DebugLink
