import DebugLink.Json.Token
import DebugLink.Text.Numeral
import DebugLink.Text.Utf8

/-!
# JSON values

A value is read from tokens by a machine that keeps the open arrays and objects on
a stack, and written as tokens without space or laid out over lines. Writing over
lines ends in front of a string that is no text. Members keep their order, and a key
may come twice.
-/

namespace DebugLink.Json

/-- A JSON value. -/
inductive Value where
  /-- The null value. -/
  | null
  /-- A truth value. -/
  | bool (value : Bool)
  /-- A number, as it is written. -/
  | number (text : List Char)
  /-- A string. -/
  | string (content : Content)
  /-- An array. -/
  | array (items : List Value)
  /-- An object. -/
  | object (members : List (Content × Value))
  deriving Inhabited

namespace Value

mutual

/-- The tokens of a value. -/
def tokens : Value → List Token
  | null => [.null]
  | bool value => [.bool value]
  | number text => [.number text]
  | string content => [.string content]
  | array items => .beginArray :: itemTokens true items
  | object members => .beginObject :: memberTokens true members

/-- The tokens of the items from one on, up to the closing bracket. -/
def itemTokens : (first : Bool) → List Value → List Token
  | _, [] => [.endArray]
  | true, item :: rest => item.tokens ++ itemTokens false rest
  | false, item :: rest => .comma :: (item.tokens ++ itemTokens false rest)

/-- The tokens of the members from one on, up to the closing brace. -/
def memberTokens : (first : Bool) → List (Content × Value) → List Token
  | _, [] => [.endObject]
  | true, (key, value) :: rest =>
    .string key :: .colon :: (value.tokens ++ memberTokens false rest)
  | false, (key, value) :: rest =>
    .comma :: .string key :: .colon :: (value.tokens ++ memberTokens false rest)

end

/-- An array or an object that is being read. What is complete comes reversed. -/
inductive Open where
  /-- An array with the items read so far. -/
  | array (items : List Value)
  /-- An object with the members read so far, and the key whose value is due. -/
  | object (members : List (Content × Value)) (key : Content)

/-- What the machine waits for, inside the open arrays and objects `outer`. -/
inductive Due where
  /-- A value. -/
  | value (outer : List Open)
  /-- The first item of an array, or its end. -/
  | item (outer : List Open)
  /-- A key of an object with the given members; only the first may be missing. -/
  | key (first : Bool) (members : List (Content × Value)) (outer : List Open)
  /-- The colon behind a key. -/
  | colon (members : List (Content × Value)) (key : Content) (outer : List Open)
  /-- What may follow a complete value. -/
  | after (value : Value) (outer : List Open)

/-- The step at a token where a value is due. -/
def beginValue (outer : List Open) : Token → Option Due
  | .beginArray => some (.item outer)
  | .beginObject => some (.key true [] outer)
  | .null => some (.after null outer)
  | .bool value => some (.after (bool value) outer)
  | .number text => some (.after (number text) outer)
  | .string content => some (.after (string content) outer)
  | _ => none

/-- The step at any token. -/
def step : Due → Token → Option Due
  | .value outer, token => beginValue outer token
  | .item outer, .endArray => some (.after (array []) outer)
  | .item outer, token => beginValue (.array [] :: outer) token
  | .key true members outer, .endObject => some (.after (object members.reverse) outer)
  | .key _ members outer, .string key => some (.colon members key outer)
  | .colon members key outer, .colon => some (.value (.object members key :: outer))
  | .after value (.array items :: outer), .comma => some (.value (.array (value :: items) :: outer))
  | .after value (.array items :: outer), .endArray =>
    some (.after (array (value :: items).reverse) outer)
  | .after value (.object members key :: outer), .comma =>
    some (.key false ((key, value) :: members) outer)
  | .after value (.object members key :: outer), .endObject =>
    some (.after (object ((key, value) :: members).reverse) outer)
  | _, _ => none

/-- Read tokens from a state on. -/
def read (due : Due) : List Token → Option Due
  | [] => some due
  | token :: rest =>
    match step due token with
    | none => none
    | some due => read due rest

/-- The value that a sequence of tokens denotes. -/
def ofTokens? (tokens : List Token) : Option Value :=
  match read (.value []) tokens with
  | some (.after value []) => some value
  | _ => none

/-- The value that a text denotes. -/
def ofScalars? (text : List (Option Char)) : Option Value :=
  (Token.ofText? text).bind ofTokens?

/-- The value that a text of characters denotes. -/
def ofText? (text : String) : Option Value := ofScalars? (text.toList.map some)

/-- The value that octets denote. Parts that are not UTF-8 may stand inside strings. -/
def ofBytes? (bytes : Bytes) : Option Value := ofScalars? (Text.Utf8.scalars bytes)

/-- The written form without space. -/
def compact (value : Value) : String := String.ofList (value.tokens.flatMap Token.text)

/-- A new line with two spaces for each open array or object. -/
def newLine (depth : Nat) : List Char := '\n' :: List.replicate (2 * depth) ' '

/-- The depth behind a token. -/
def depthAfter (depth : Nat) : Token → Nat
  | .beginArray | .beginObject => depth + 1
  | .endArray | .endObject => depth - 1
  | _ => depth

/-- The space between two tokens, at the depth behind the first one. Empty arrays and objects
stay on one line. -/
def gap (depth : Nat) : Token → Token → List Char
  | .beginArray, .endArray => []
  | .beginObject, .endObject => []
  | .beginArray, _ => newLine depth
  | .beginObject, _ => newLine depth
  | .comma, _ => newLine depth
  | .colon, _ => [' ']
  | _, .endArray => newLine (depth - 1)
  | _, .endObject => newLine (depth - 1)
  | _, _ => []

/-- Whether a token can be written over lines: a string has to be a text. -/
def isWritable : Token → Bool
  | .string content => content.all Option.isSome
  | _ => true

/-- Write tokens over lines, from a depth on, up to the first one that cannot be written; the
answer tells whether there was none. -/
def writeTokens : (depth : Nat) → List Token → List Char × Bool
  | _, [] => ([], true)
  | depth, token :: rest =>
    if isWritable token then
      let depth := depthAfter depth token
      let space := rest.head?.elim [] (gap depth token)
      let (more, isWhole) := writeTokens depth rest
      (token.text ++ space ++ more, isWhole)
    else ([], false)

/-- Write a value over several lines, without a final newline. The answer holds what is written,
and tells whether that is all of the value. -/
def write (value : Value) : String × Bool :=
  let (text, isWhole) := writeTokens 0 value.tokens
  (String.ofList text, isWhole)

/-- The string value of a text. -/
def ofString (s : String) : Value := string (s.toList.map some)

/-- The number value of an integer. -/
def ofInt (n : Int) : Value := number (Text.Numeral.renderInt n)

/-- The number value of a 32 bit number. -/
def ofUInt32 (n : UInt32) : Value := ofInt n.toNat

/-- The object with the given members. -/
def ofMembers (members : List (String × Value)) : Value :=
  object (members.map fun (key, value) => (key.toList.map some, value))

end Value

end DebugLink.Json
