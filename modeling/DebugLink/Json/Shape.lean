import DebugLink.Json.Value

/-!
# Reading typed data from JSON values

Each reader accepts the values of one shape. A record is an object with its fields
in any order, where other members are ignored and a field may come once only, or an
array of its leading fields in their declared order. An integer is written without a
fraction and without an exponent, and has no negative zero.
-/

namespace DebugLink.Json.Shape

open Value

/-- The text of a string content without gaps. -/
def textOf? (content : Content) : Option String :=
  (Text.Utf8.present? [] content).map String.ofList

/-- A string. -/
def text? : Value → Option String
  | .string content => textOf? content
  | _ => none

/-- A truth value. -/
def bool? : Value → Option Bool
  | .bool value => some value
  | _ => none

/-- A number with more digits than these is out of every range. -/
def integerDigits : Nat := 20

/-- The integer that a number without fraction and exponent denotes, if it is not out of every
range. -/
def integerOf? : List Char → Option Int
  | ['-', '0'] => none
  | '-' :: digits => (magnitude? digits).map fun n => -(n : Int)
  | digits => (magnitude? digits).map Int.ofNat
where
  /-- The value of decimal digits. -/
  magnitude? (digits : List Char) : Option Nat :=
    if Token.isDigits digits && digits.length ≤ integerDigits then
      some (digits.foldl (fun n c => n * 10 + (c.toNat - '0'.toNat)) 0)
    else none

/-- An integer from `low` to `high`. -/
def integer? (low high : Int) : Value → Option Int
  | .number text => (integerOf? text).filter fun n => low ≤ n ∧ n ≤ high
  | _ => none

/-- An unsigned integer of 32 bits. -/
def uint32? (value : Value) : Option UInt32 :=
  (integer? 0 0xFFFFFFFF value).map fun n => UInt32.ofNat n.toNat

/-- A signed integer of 8 bits. -/
def int8? (value : Value) : Option Int8 :=
  (integer? (-0x80) 0x7F value).map Int8.ofInt

/-- A signed integer of 64 bits. -/
def int64? (value : Value) : Option Int64 :=
  (integer? (-0x8000000000000000) 0x7FFFFFFFFFFFFFFF value).map Int64.ofInt

/-- The items that a reader accepts, all of them. -/
def all? {α : Type} (item? : Value → Option α) : List Value → Option (List α)
  | [] => some []
  | value :: rest => do
    let item ← item? value
    let items ← all? item? rest
    some (item :: items)

/-- An array of items of one shape. -/
def list? {α : Type} (item? : Value → Option α) : Value → Option (List α)
  | .array items => all? item? items
  | _ => none

/-- Null, or a value of the given shape. -/
def optional? {α : Type} (shape? : Value → Option α) : Value → Option (Option α)
  | .null => some none
  | value => (shape? value).map some

/-- The value under a key of an object, if it comes at most once. The outer option tells
whether the members are in order. -/
def lookup? (name : String) : List (String × Value) → Option (Option Value)
  | [] => some none
  | (key, value) :: rest =>
    if key = name then
      if rest.any (fun member => member.1 = name) then none else some (some value)
    else lookup? name rest

/-- Members whose keys are texts. -/
def namedMembers? : List (Content × Value) → Option (List (String × Value))
  | [] => some []
  | (key, value) :: rest => do
    let key ← textOf? key
    let members ← namedMembers? rest
    some ((key, value) :: members)

/-- The given values for the fields of a record in their declared order, with `none` for
each one that is missing. -/
def fields? (names : List String) : Value → Option (List (Option Value))
  | .object members => do
    let members ← namedMembers? members
    names.mapM (lookup? · members)
  | .array items =>
    if items.length ≤ names.length then
      some (items.map some ++ List.replicate (names.length - items.length) none)
    else none
  | _ => none

/-- A field that has to be given. -/
def required? {α : Type} (shape? : Value → Option α) (field : Option Value) : Option α :=
  field.bind shape?

/-- A field that has a value of its own when it is missing. -/
def defaulted? {α : Type} (default : α) (shape? : Value → Option α) : Option Value → Option α
  | none => some default
  | some value => shape? value

end DebugLink.Json.Shape
