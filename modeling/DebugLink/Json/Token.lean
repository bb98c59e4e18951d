import DebugLink.Text.Numeral

/-!
# Lexical units of JSON

A JSON text is a sequence of tokens with space between them. The text comes as a
list of scalar values in which `none` stands for octets that are not UTF-8: such a
part may stand inside a string, whose content then has no text. A surrogate escape
without its partner counts as `none` too.
-/

namespace DebugLink.Json

/-- The content of a string, with `none` for each part that denotes no character. -/
abbrev Content := List (Option Char)

/-- A lexical unit. -/
inductive Token where
  /-- An opening square bracket. -/
  | beginArray
  /-- A closing square bracket. -/
  | endArray
  /-- An opening brace. -/
  | beginObject
  /-- A closing brace. -/
  | endObject
  /-- The mark between elements. -/
  | comma
  /-- The mark between a key and its value. -/
  | colon
  /-- The word `null`. -/
  | null
  /-- A truth value. -/
  | bool (value : Bool)
  /-- A number, as it is written. -/
  | number (text : List Char)
  /-- A string. -/
  | string (content : Content)
  deriving DecidableEq

namespace Token

/-- A lower case hexadecimal digit. -/
def hexDigit (n : Nat) : Char := Nat.digitChar n

/-- An escape with four hexadecimal digits. -/
def unitEscape (n : Nat) : List Char :=
  ['\\', 'u', hexDigit (n / 4096 % 16), hexDigit (n / 256 % 16), hexDigit (n / 16 % 16),
    hexDigit (n % 16)]

/-- The written form of one part of a string. A part that denotes no character is written as
a surrogate without its partner. -/
def escape : Option Char → List Char
  | none => unitEscape 0xD800
  | some '"' => ['\\', '"']
  | some '\\' => ['\\', '\\']
  | some '\x08' => ['\\', 'b']
  | some '\x0c' => ['\\', 'f']
  | some '\n' => ['\\', 'n']
  | some '\r' => ['\\', 'r']
  | some '\t' => ['\\', 't']
  | some c => if c.toNat < 0x20 then unitEscape c.toNat else [c]

/-- The written form of a token. -/
def text : Token → List Char
  | beginArray => ['[']
  | endArray => [']']
  | beginObject => ['\x7b']
  | endObject => ['\x7d']
  | comma => [',']
  | colon => [':']
  | null => ['n', 'u', 'l', 'l']
  | bool true => ['t', 'r', 'u', 'e']
  | bool false => ['f', 'a', 'l', 's', 'e']
  | number text => text
  | string content => '"' :: content.flatMap escape ++ ['"']

/-- The space that JSON allows between tokens. -/
def isSpace (c : Char) : Bool := c == ' ' || c == '\t' || c == '\n' || c == '\r'

/-- An ASCII digit. -/
def isDigit (c : Char) : Bool := '0' ≤ c && c ≤ '9'

/-- The characters of words and numbers. -/
def isWordChar (c : Char) : Bool :=
  ('a' ≤ c && c ≤ 'z') || ('A' ≤ c && c ≤ 'Z') || isDigit c || c == '+' || c == '-' || c == '.'

/-- One digit at least, and nothing else. -/
def isDigits (cs : List Char) : Bool := !cs.isEmpty && cs.all isDigit

/-- An exponent behind its letter: an optional sign and digits. -/
def isExponent : List Char → Bool
  | '+' :: cs => isDigits cs
  | '-' :: cs => isDigits cs
  | cs => isDigits cs

/-- What may follow the integral digits: a fraction, an exponent, or both. -/
def isNumberTail : List Char → Bool
  | [] => true
  | '.' :: cs =>
    !(cs.takeWhile isDigit).isEmpty &&
      match cs.dropWhile isDigit with
      | [] => true
      | c :: rest => (c == 'e' || c == 'E') && isExponent rest
  | c :: cs => (c == 'e' || c == 'E') && isExponent cs

/-- A number without a sign: its integral part has no leading zero. -/
def isUnsignedNumber : List Char → Bool
  | '0' :: cs => isNumberTail cs
  | c :: cs => isDigit c && isNumberTail (cs.dropWhile isDigit)
  | [] => false

/-- The form of a number. -/
def isNumber : List Char → Bool
  | '-' :: cs => isUnsignedNumber cs
  | cs => isUnsignedNumber cs

/-- The token that a run of word characters denotes. -/
def ofWord? (word : List Char) : Option Token :=
  if word = ['n', 'u', 'l', 'l'] then some null
  else if word = ['t', 'r', 'u', 'e'] then some (bool true)
  else if word = ['f', 'a', 'l', 's', 'e'] then some (bool false)
  else if isNumber word then some (number word)
  else none

/-- A part of a string as it is read: a scalar value, or a 16 bit unit from an escape. -/
inductive Part where
  /-- A character, or octets that denote none. -/
  | scalar (c : Option Char)
  /-- A unit from an escape with four digits. -/
  | unit (n : Nat)
  deriving DecidableEq

/-- The first half of a surrogate pair. -/
def isHighSurrogate (n : Nat) : Bool := 0xD800 ≤ n && n < 0xDC00

/-- The second half of a surrogate pair. -/
def isLowSurrogate (n : Nat) : Bool := 0xDC00 ≤ n && n < 0xE000

/-- The character of a surrogate pair. -/
def pairChar (high low : Nat) : Char :=
  Char.ofNat (0x10000 + (high - 0xD800) * 0x400 + (low - 0xDC00))

/-- The character of a unit that stands alone; surrogates have none. -/
def unitChar? (n : Nat) : Option Char :=
  if isHighSurrogate n || isLowSurrogate n then none else some (Char.ofNat n)

/-- Put surrogate pairs together; `done` holds what came before, reversed. -/
def joinParts (done : Content) : List Part → Content
  | [] => done.reverse
  | .scalar c :: rest => joinParts (c :: done) rest
  | .unit high :: .unit low :: rest =>
    if isHighSurrogate high && isLowSurrogate low then
      joinParts (some (pairChar high low) :: done) rest
    else joinParts (unitChar? high :: done) (.unit low :: rest)
  | .unit n :: rest => joinParts (unitChar? n :: done) rest

/-- Where the reader of a text stands. Collected parts are reversed. -/
inductive Mode where
  /-- Between tokens. -/
  | between
  /-- Inside a word or a number. -/
  | word (seen : List Char)
  /-- Inside a string. -/
  | inside (seen : List Part)
  /-- Behind a backslash in a string. -/
  | escape (seen : List Part)
  /-- Inside an escape, with `due + 1` digits to come. -/
  | unit (seen : List Part) (due value : Nat)
  deriving DecidableEq

/-- A step of the reader: the tokens it completes, and where it stands then. -/
abbrev Step := List Token × Mode

/-- The step at a character between tokens. -/
def stepBetween (c : Char) : Option Step :=
  if isSpace c then some ([], .between)
  else if c = '"' then some ([], .inside [])
  else if c = '[' then some ([beginArray], .between)
  else if c = ']' then some ([endArray], .between)
  else if c = '\x7b' then some ([beginObject], .between)
  else if c = '\x7d' then some ([endObject], .between)
  else if c = ',' then some ([comma], .between)
  else if c = ':' then some ([colon], .between)
  else if isWordChar c then some ([], .word [c])
  else none

/-- The character that a short escape denotes. -/
def shortEscape? (c : Char) : Option Char :=
  if c = '"' ∨ c = '\\' ∨ c = '/' then some c
  else if c = 'b' then some '\x08'
  else if c = 'f' then some '\x0c'
  else if c = 'n' then some '\n'
  else if c = 'r' then some '\r'
  else if c = 't' then some '\t'
  else none

/-- The step at any scalar value. Raw control characters have no place in a string, and octets
that are not UTF-8 have no place outside one. -/
def step : Mode → Option Char → Option Step
  | .between, none => none
  | .between, some c => stepBetween c
  | .word _, none => none
  | .word seen, some c =>
    if isWordChar c then some ([], .word (c :: seen))
    else do
      let token ← ofWord? seen.reverse
      let (tokens, mode) ← stepBetween c
      some (token :: tokens, mode)
  | .inside seen, none => some ([], .inside (.scalar none :: seen))
  | .inside seen, some c =>
    if c = '"' then some ([string (joinParts [] seen.reverse)], .between)
    else if c = '\\' then some ([], .escape seen)
    else if c.toNat < 0x20 then none
    else some ([], .inside (.scalar (some c) :: seen))
  | .escape _, none => none
  | .escape seen, some c =>
    if c = 'u' then some ([], .unit seen 3 0)
    else (shortEscape? c).map fun c => ([], .inside (.scalar (some c) :: seen))
  | .unit .., none => none
  | .unit seen due value, some c => do
    let digit ← Text.Numeral.hexDigit? c
    let value := value * 16 + digit
    match due with
    | 0 => some ([], .inside (.unit value :: seen))
    | due + 1 => some ([], .unit seen due value)

/-- The tokens that the end of the text completes. -/
def finish : Mode → Option (List Token)
  | .between => some []
  | .word seen => (ofWord? seen.reverse).map ([·])
  | _ => none

/-- Read a text from a mode on; `done` holds the tokens before, reversed. -/
def read (done : List Token) (mode : Mode) : List (Option Char) → Option (List Token)
  | [] => (finish mode).map (done.reverse ++ ·)
  | c :: rest =>
    match step mode c with
    | none => none
    | some (tokens, mode) => read (tokens.reverse ++ done) mode rest

/-- The tokens of a text. -/
def ofText? (text : List (Option Char)) : Option (List Token) := read [] .between text

end Token

end DebugLink.Json
