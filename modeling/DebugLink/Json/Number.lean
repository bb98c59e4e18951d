import DebugLink.Json.Token

/-!
# Values of JSON numbers

A number that is no integer in range is read as one of 64 bits. Its leading digits count
as long as they make up an integer of 64 bits; each one behind them only counts as a
place. The integer is then multiplied or divided by a power of ten, and each of these
steps is rounded.
-/

namespace DebugLink.Json.Number

/-- Put digits behind a number, as long as the result does not exceed a bound; tells the result
and the digits that are left. -/
def append (bound n : Nat) : List Char → Nat × List Char
  | [] => (n, [])
  | c :: rest =>
    let next := n * 10 + (c.toNat - '0'.toNat)
    if next ≤ bound then append bound next rest else (n, c :: rest)

/-- The largest integer of 64 bits. -/
def largest : Nat := 0xFFFFFFFFFFFFFFFF

/-- The largest exponent that is read to its end. -/
def largestExponent : Nat := 0x7FFFFFFF

/-- The parts of a number as it is written. -/
structure Parts where
  /-- Whether a minus sign stands before it. -/
  negative : Bool
  /-- The digits before the point. -/
  whole : List Char
  /-- The digits behind the point. -/
  fraction : List Char
  /-- Whether a minus sign stands before the exponent. -/
  smaller : Bool
  /-- The digits of the exponent. -/
  exponent : List Char
  deriving DecidableEq, Repr

/-- The parts of a number. -/
def parts (text : List Char) : Parts :=
  let unsigned := if text.head? = some '-' then text.drop 1 else text
  let tail := unsigned.dropWhile Token.isDigit
  let fraction := if tail.head? = some '.' then (tail.drop 1).takeWhile Token.isDigit else []
  let scale := if tail.head? = some '.' then (tail.drop 1).dropWhile Token.isDigit else tail
  { negative := text.head? = some '-'
    whole := unsigned.takeWhile Token.isDigit
    fraction
    smaller := (scale.drop 1).head? = some '-'
    exponent := (scale.drop 1).dropWhile (!Token.isDigit ·) }

/-- A power of ten as a number of 64 bits. -/
def power (n : Nat) : Float := Float.ofScientific 1 false n

/-- Multiply a number by a power of ten, or divide it by one, in at most so many steps; there is
no result out of range. -/
def scale (x : Float) (exponent : Int) : (steps : Nat) → Option Float
  | 0 => some x
  | steps + 1 =>
    if exponent.natAbs ≤ 308 then
      if exponent < 0 then some (x / power exponent.natAbs)
      else
        let y := x * power exponent.natAbs
        if y.isInf then none else some y
    else if x == 0 then some x
    else if exponent < 0 then scale (x / power 308) (exponent + 308) steps
    else none

/-- The value of a number, if it is in range. Whatever the exponent, three steps lead to zero. -/
def value? (text : List Char) : Option Float :=
  let p := parts text
  let (n, skipped) := append largest 0 p.whole
  let (n, ignored) := append largest n p.fraction
  let places : Int := skipped.length - (p.fraction.length - ignored.length : Nat)
  let exponent : Int := (append largest 0 p.exponent).1
  (scale n.toUInt64.toFloat (places + if p.smaller then -exponent else exponent) 4).map fun x =>
    if p.negative then -x else x

/-- How many characters of a number that is out of range show that it is: all of them, unless
the exponent alone is too large. -/
def decidingLength (text : List Char) : Nat :=
  text.length - ((append largestExponent 0 (parts text).exponent).2.length - 1)

end DebugLink.Json.Number
