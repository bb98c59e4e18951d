import DebugLink.Text.Numeral

/-!
# Numbers of 64 bits as texts

A number is shown with the fewest digits that read back as the same number. Of several
such decimals the nearest one is taken, and of two equally near ones the even one. The
text is positional from 0.00001 up to sixteen digits before the point, and has an exponent
otherwise.
-/

namespace DebugLink.Text

/-- The number `digits * 10 ^ exponent`. -/
structure Decimal where
  /-- All digits, read as one numeral. -/
  digits : Nat
  /-- The power of ten that the last digit counts. -/
  exponent : Int
  deriving DecidableEq, Repr

namespace Decimal

/-- The nearest number of 64 bits. -/
def toFloat (d : Decimal) : Float :=
  Float.ofScientific d.digits (d.exponent < 0) d.exponent.natAbs

/-- How many digits stand before the point; none or less for a number below one tenth. -/
def magnitude (d : Decimal) : Int := (Numeral.render d.digits).length + d.exponent

/-- The digits, without zeros at the end. -/
def significant (d : Decimal) : List Char :=
  ((Numeral.render d.digits).reverse.dropWhile (· = '0')).reverse

/-- A fraction that is not negative. -/
structure Fraction where
  /-- What is divided. -/
  numerator : Nat
  /-- What it is divided by. -/
  denominator : Nat
  deriving DecidableEq, Repr

namespace Fraction

/-- The value of a finite number of 64 bits, without its sign. -/
def ofFloat (x : Float) : Fraction :=
  let bits := x.toBits.toNat % 0x8000000000000000
  let mantissa := bits % 0x10000000000000
  let scale := bits / 0x10000000000000
  if scale = 0 then ⟨mantissa, Nat.pow 2 1074⟩
  else if scale ≤ 1075 then ⟨mantissa + 0x10000000000000, Nat.pow 2 (1075 - scale)⟩
  else ⟨(mantissa + 0x10000000000000) * Nat.pow 2 (scale - 1075), 1⟩

/-- A fraction divided by a power of ten. -/
def shift (f : Fraction) (exponent : Int) : Fraction :=
  if exponent < 0 then { f with numerator := f.numerator * Nat.pow 10 exponent.natAbs }
  else { f with denominator := f.denominator * Nat.pow 10 exponent.natAbs }

/-- How many digits stand before the point. No number of 64 bits has more than 400 zeros
behind the point. -/
def magnitude (f : Fraction) : Int :=
  let shifted := f.shift (-400)
  (Numeral.render (shifted.numerator / shifted.denominator)).length - 400

/-- The decimals with `n` digits next to a fraction, the nearer one first. -/
def neighbours (f : Fraction) (n : Nat) : List Decimal :=
  let exponent := f.magnitude - n
  let shifted := f.shift exponent
  let low : Decimal := ⟨shifted.numerator / shifted.denominator, exponent⟩
  let high : Decimal := ⟨low.digits + 1, exponent⟩
  match compare (2 * (shifted.numerator % shifted.denominator)) shifted.denominator with
  | .lt => [low, high]
  | .gt => [high, low]
  | .eq => if low.digits % 2 = 0 then [low, high] else [high, low]

end Fraction

/-- The decimal with the fewest digits, from `n` on, that reads back as the number `x`. -/
def shortestFrom (x : Float) (n : Nat) : (more : Nat) → Decimal
  | 0 => ((Fraction.ofFloat x).neighbours n).headD ⟨0, 0⟩
  | more + 1 =>
    match ((Fraction.ofFloat x).neighbours n).find? fun d => d.toFloat == x with
    | some d => d
    | none => shortestFrom x (n + 1) more

/-- The decimal with the fewest digits that reads back as a positive number. The nearest one
with seventeen digits always does. -/
def shortest (x : Float) : Decimal := shortestFrom x 1 16

/-- The text of a number with the given digits, of which `before` stand before the point. -/
def layOut (digits : List Char) (before : Int) : List Char :=
  let zeros (n : Int) : List Char := List.replicate n.toNat '0'
  if digits.length ≤ before ∧ before ≤ 16 then
    digits ++ zeros (before - digits.length) ++ ['.', '0']
  else if 0 < before ∧ before ≤ 16 then
    digits.take before.toNat ++ '.' :: digits.drop before.toNat
  else if -5 < before ∧ before ≤ 0 then '0' :: '.' :: (zeros (-before) ++ digits)
  else
    let fraction := if digits.length ≤ 1 then [] else '.' :: digits.drop 1
    digits.take 1 ++ fraction ++ 'e' :: Numeral.renderInt (before - 1)

/-- The text of a finite number. -/
def text (x : Float) : String :=
  let sign := if x.toBits < 0x8000000000000000 then [] else ['-']
  if x == 0 then String.ofList (sign ++ ['0', '.', '0'])
  else
    let d := shortest x.abs
    String.ofList (sign ++ layOut d.significant d.magnitude)

end Decimal

end DebugLink.Text
