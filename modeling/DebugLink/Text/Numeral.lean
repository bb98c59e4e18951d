/-!
# Decimal numerals

A numeral is an optional sign and one or more ASCII digits; leading zeros are
allowed. It is read from the left into a bounded range, and the first character
that is no digit, or the first digit that leaves the range, decides the fault.
Numbers are written with the fewest digits and without a plus sign.
-/

namespace DebugLink.Text.Numeral

/-- Why a text is not the numeral of a number in range. -/
inductive Fault where
  /-- There is no character at all. -/
  | empty
  /-- A character is no digit, or a sign stands alone. -/
  | invalidDigit
  /-- The number lies above the range. -/
  | tooLarge
  /-- The number lies below the range. -/
  | tooSmall
  deriving DecidableEq, Repr

/-- The wording of a fault. -/
def Fault.message : Fault → String
  | .empty => "cannot parse integer from empty string"
  | .invalidDigit => "invalid digit found in string"
  | .tooLarge => "number too large to fit in target type"
  | .tooSmall => "number too small to fit in target type"

/-- The value of an ASCII digit. -/
def digit? (c : Char) : Option Nat :=
  if '0' ≤ c ∧ c ≤ '9' then some (c.toNat - '0'.toNat) else none

/-- The value of a hexadecimal digit of either case. -/
def hexDigit? (c : Char) : Option Nat :=
  if '0' ≤ c ∧ c ≤ '9' then some (c.toNat - '0'.toNat)
  else if 'a' ≤ c ∧ c ≤ 'f' then some (c.toNat - 'a'.toNat + 10)
  else if 'A' ≤ c ∧ c ≤ 'F' then some (c.toNat - 'A'.toNat + 10)
  else none

/-- Read digits behind the value read so far, up to and including `bound`. -/
def readDigits (bound : Nat) (onOverflow : Fault) : Nat → List Char → Except Fault Nat
  | value, [] => .ok value
  | value, c :: rest =>
    match digit? c with
    | none => .error .invalidDigit
    | some d =>
      if value * 10 + d ≤ bound then readDigits bound onOverflow (value * 10 + d) rest
      else .error onOverflow

/-- At least one digit, up to `bound`. -/
def readMagnitude (bound : Nat) (onOverflow : Fault) (cs : List Char) : Except Fault Nat :=
  if cs.isEmpty then .error .invalidDigit else readDigits bound onOverflow 0 cs

/-- Read an unsigned numeral of at most `bound`; a minus sign is no digit. -/
def readNat (bound : Nat) : List Char → Except Fault Nat
  | [] => .error .empty
  | '+' :: rest => readMagnitude bound .tooLarge rest
  | cs => readDigits bound .tooLarge 0 cs

/-- Read a signed numeral from `-low` to `high`. -/
def readInt (low high : Nat) : List Char → Except Fault Int
  | [] => .error .empty
  | '+' :: rest => (readMagnitude high .tooLarge rest).map Int.ofNat
  | '-' :: rest => (readMagnitude low .tooSmall rest).map (fun n => -Int.ofNat n)
  | cs => (readDigits high .tooLarge 0 cs).map Int.ofNat

/-- Read an unsigned numeral of 32 bits. -/
def readUInt32 (cs : List Char) : Except Fault UInt32 :=
  (readNat 0xFFFFFFFF cs).map UInt32.ofNat

/-- Read a signed numeral of 8 bits. -/
def readInt8 (cs : List Char) : Except Fault Int8 :=
  (readInt 0x80 0x7F cs).map Int8.ofInt

/-- Read a signed numeral of 32 bits. -/
def readInt32 (cs : List Char) : Except Fault Int32 :=
  (readInt 0x80000000 0x7FFFFFFF cs).map Int32.ofInt

/-- Read a signed numeral of 64 bits. -/
def readInt64 (cs : List Char) : Except Fault Int64 :=
  (readInt 0x8000000000000000 0x7FFFFFFFFFFFFFFF cs).map Int64.ofInt

/-- The digits of a natural number, without leading zeros. -/
def render (n : Nat) : List Char := Nat.toDigits 10 n

/-- The numeral of an integer: a minus sign for a negative one, then the digits. -/
def renderInt (n : Int) : List Char :=
  if n < 0 then '-' :: render n.natAbs else render n.natAbs

/-- The numeral of a 32 bit number as a text. -/
def ofUInt32 (n : UInt32) : String := String.ofList (render n.toNat)

/-- A signed number as a text. -/
def ofInt (n : Int) : String := String.ofList (renderInt n)

end DebugLink.Text.Numeral
