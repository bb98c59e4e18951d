import DebugLink.Settings.Token

/-!
# Entries of a settings file

An entry gives a value to a key: a number, or a list of texts. Numbers are written in
decimal, hexadecimal, octal or binary form, with underscores between digits where one
likes.
-/

namespace DebugLink.Settings

open DebugLink.Text

/-- The value of a setting. -/
inductive Value where
  /-- A number. -/
  | number (n : Nat)
  /-- A list of texts. -/
  | texts (items : List String)
  deriving DecidableEq, Repr

/-- A key with its value. -/
structure Entry where
  /-- The key. -/
  key : String
  /-- The value. -/
  value : Value
  deriving DecidableEq, Repr

namespace Value

/-- The largest number that a settings file can hold. -/
def largest : Nat := 0x7FFFFFFFFFFFFFFF

/-- Read digits with single underscores between them, behind the value read so far; `due` tells
whether a digit has to come. A value beyond the largest number stays just beyond it. -/
def digits? (base value : Nat) (due : Bool) : List Char → Option Nat
  | [] => if due then none else some value
  | c :: rest =>
    if c = '_' then if due then none else digits? base value true rest
    else do
      let digit ← Numeral.hexDigit? c
      if digit < base then digits? base (min (value * base + digit) (largest + 1)) false rest
      else none

/-- A decimal number, which has no leading zero. -/
def decimal? : List Char → Option Nat
  | '0' :: rest => if rest.isEmpty then some 0 else none
  | cs => digits? 10 0 true cs

/-- The number of a word. A sign belongs to decimal numbers only, and of the negative ones
only zero is a number a setting can have. -/
def number? (word : List Char) : Option Nat := do
  let n ← match word with
    | '0' :: 'x' :: rest => digits? 16 0 true rest
    | '0' :: 'o' :: rest => digits? 8 0 true rest
    | '0' :: 'b' :: rest => digits? 2 0 true rest
    | '+' :: rest => decimal? rest
    | '-' :: rest => if decimal? rest = some 0 then some 0 else none
    | cs => decimal? cs
  if n ≤ largest then some n else none

end Value

namespace Entry

/-- Where the reader of tokens stands. -/
inductive Place where
  /-- At the start of a line. -/
  | start
  /-- Behind a key. -/
  | key (key : String)
  /-- Behind an equals sign. -/
  | equals (key : String)
  /-- Inside a list; the items are reversed, and `due` tells that none has come since the last
  comma. -/
  | items (key : String) (due : Bool) (seen : List String)
  /-- Behind a value. -/
  | value
  deriving DecidableEq

/-- A step of the reader: the entry it completes, if any, and where it stands then. -/
abbrev Step := Option Entry × Place

/-- The step at an item of a list. -/
def stepItem (key : String) (due : Bool) (seen : List String) (item : String) : Option Step :=
  if due then some (none, .items key false (item :: seen)) else none

/-- The step at a token. -/
def step : Place → Token → Option Step
  | .start, .lineEnd => some (none, .start)
  | .start, .word text =>
    if text.all Token.isKeyChar then some (none, .key (String.ofList text)) else none
  | .start, .text content => some (none, .key content)
  | .key key, .equals => some (none, .equals key)
  | .equals key, .word text =>
    (Value.number? text).map fun n => (some ⟨key, .number n⟩, .value)
  | .equals key, .opening => some (none, .items key true [])
  | .items key due seen, .lineEnd => some (none, .items key due seen)
  | .items key due seen, .text content => stepItem key due seen content
  | .items key due seen, .block content => stepItem key due seen content
  | .items key false seen, .comma => some (none, .items key true seen)
  | .items key _ seen, .closing => some (some ⟨key, .texts seen.reverse⟩, .value)
  | .value, .lineEnd => some (none, .start)
  | _, _ => none

/-- Read tokens from a place on; `done` holds the entries before, reversed. -/
def read (done : List Entry) (place : Place) : List Token → Option (List Entry)
  | [] => if place = .start ∨ place = .value then some done.reverse else none
  | token :: rest =>
    match step place token with
    | none => none
    | some (entry, place) => read (entry.toList ++ done) place rest

/-- The entries of a text, no two of which have the same key. -/
def ofText? (text : List Char) : Option (List Entry) := do
  let tokens ← Token.ofText? text
  let entries ← read [] .start tokens
  if (entries.map Entry.key).Nodup then some entries else none

end Entry

end DebugLink.Settings
