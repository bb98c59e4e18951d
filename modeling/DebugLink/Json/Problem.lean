import DebugLink.Text.Quoted

/-!
# Problems of JSON texts

What is wrong with a JSON text that is read for data of a given shape, where in the
text, and how a message says it.
-/

namespace DebugLink.Json

/-- A place in a text: a line, counted from one, and the octets passed in it. -/
structure Place where
  /-- The number of the line. -/
  line : Nat := 1
  /-- How many octets of the line lie before the place. -/
  column : Nat := 0
  deriving DecidableEq, Repr

namespace Place

/-- The place behind one octet, given as the character of its number. -/
def past (place : Place) (octet : Char) : Place :=
  if octet = '\n' then ⟨place.line + 1, 0⟩ else ⟨place.line, place.column + 1⟩

/-- The place behind some octets. -/
def through (place : Place) (octets : List Char) : Place := octets.foldl past place

end Place

/-- A value as a message names it. -/
inductive Kind where
  /-- The null value. -/
  | null
  /-- A truth value. -/
  | bool (value : Bool)
  /-- An integer. -/
  | integer (value : Int)
  /-- A number with a fraction or an exponent, as a message shows it. -/
  | decimal (text : String)
  /-- A string. -/
  | string (text : String)
  /-- An array. -/
  | array
  /-- An object. -/
  | object
  deriving DecidableEq, Repr

/-- The wording for a value. -/
def Kind.message : Kind → String
  | null => "null"
  | bool value => "boolean `" ++ (if value then "true" else "false") ++ "`"
  | integer value => "integer `" ++ toString value ++ "`"
  | decimal text => "floating point `" ++ text ++ "`"
  | string text => "string " ++ Text.Quoted.quote text
  | array => "sequence"
  | object => "map"

/-- What is wrong. -/
inductive Mistake where
  /-- The text ends inside an array. -/
  | endInArray
  /-- The text ends inside an object. -/
  | endInObject
  /-- The text ends inside a string. -/
  | endInString
  /-- The text ends where a value is due or unfinished. -/
  | endInValue
  /-- A colon is due. -/
  | colonDue
  /-- A comma or the end of an array is due. -/
  | itemEndDue
  /-- A comma or the end of an object is due. -/
  | memberEndDue
  /-- A word is not `null`, `true` or `false`. -/
  | wordDue
  /-- A value is due. -/
  | valueDue
  /-- An escape has no meaning. -/
  | escape
  /-- A number is malformed. -/
  | number
  /-- A number is too large. -/
  | outOfRange
  /-- A control character stands in a string. -/
  | control
  /-- A key is due. -/
  | keyDue
  /-- A surrogate stands alone. -/
  | loneSurrogate
  /-- The second half of a surrogate pair is due. -/
  | surrogateDue
  /-- A comma stands before a closing bracket. -/
  | trailingComma
  /-- Something follows the value. -/
  | trailing
  /-- A value is of another sort than expected. -/
  | wrongKind (found : Kind) (expected : String)
  /-- A value is of the expected sort, but out of its range. -/
  | wrongValue (found : Kind) (expected : String)
  /-- A record given as an array has too few items. -/
  | wrongLength (found : Nat) (expected : String)
  /-- A record lacks a field. -/
  | missingField (name : String)
  /-- A record has a field twice. -/
  | repeatedField (name : String)
  /-- A word is none of the expected ones. -/
  | unknownWord (word : String) (expected : List String)
  /-- A number denotes no scope. -/
  | invalidScope (code : Int)
  deriving DecidableEq, Repr

namespace Mistake

/-- A word between backquotes. -/
def ticked (word : String) : String := "`" ++ word ++ "`"

/-- The wording of a mistake. -/
def message : Mistake → String
  | endInArray => "EOF while parsing a list"
  | endInObject => "EOF while parsing an object"
  | endInString => "EOF while parsing a string"
  | endInValue => "EOF while parsing a value"
  | colonDue => "expected `:`"
  | itemEndDue => "expected `,` or `]`"
  | memberEndDue => "expected `,` or `\x7d`"
  | wordDue => "expected ident"
  | valueDue => "expected value"
  | escape => "invalid escape"
  | number => "invalid number"
  | outOfRange => "number out of range"
  | control => "control character (\\u0000-\\u001F) found while parsing a string"
  | keyDue => "key must be a string"
  | loneSurrogate => "lone leading surrogate in hex escape"
  | surrogateDue => "unexpected end of hex escape"
  | trailingComma => "trailing comma"
  | trailing => "trailing characters"
  | wrongKind found expected => "invalid type: " ++ found.message ++ ", expected " ++ expected
  | wrongValue found expected => "invalid value: " ++ found.message ++ ", expected " ++ expected
  | wrongLength found expected =>
    "invalid length " ++ toString found ++ ", expected " ++ expected
  | missingField name => "missing field " ++ ticked name
  | repeatedField name => "duplicate field " ++ ticked name
  | unknownWord word expected =>
    "unknown variant " ++ ticked word ++ ", expected " ++
      String.intercalate " or " (expected.map ticked)
  | invalidScope code => "invalid scope " ++ toString code

end Mistake

/-- A mistake and where the reader of a text found it. -/
structure Problem where
  /-- What is wrong. -/
  mistake : Mistake
  /-- Where the reader stood. -/
  place : Place
  deriving DecidableEq, Repr

/-- The wording of a problem. -/
def Problem.message (problem : Problem) : String :=
  problem.mistake.message ++ " at line " ++ toString problem.place.line ++ " column " ++
    toString problem.place.column

end DebugLink.Json
