import DebugLink.Text.Numeral

/-!
# Tokens of a settings file

A settings file consists of lines with a key, an equals sign and a value. A number sign
begins a comment. Texts stand between quotes, or between three quotes if they hold line
ends; with double quotes a backslash begins an escape, with single quotes nothing does. A
reader goes through the characters one at a time and tells the tokens.
-/

namespace DebugLink.Settings

open DebugLink.Text

/-- A token of a settings file. -/
inductive Token where
  /-- A key without quotes, or a number. -/
  | word (text : List Char)
  /-- A text between quotes. -/
  | text (content : String)
  /-- A text between three quotes. -/
  | block (content : String)
  /-- An equals sign. -/
  | equals
  /-- A comma. -/
  | comma
  /-- The bracket that begins a list. -/
  | opening
  /-- The bracket that ends a list. -/
  | closing
  /-- The end of a line. -/
  | lineEnd
  deriving DecidableEq, Repr

namespace Token

/-- A line ends with a line feed, which a carriage return may precede. A carriage return that
stands alone has no place in the file. -/
def joinLineEnds? : List Char → Option (List Char)
  | [] => some []
  | '\r' :: '\n' :: rest => (joinLineEnds? rest).map ('\n' :: ·)
  | c :: rest => if c = '\r' then none else (joinLineEnds? rest).map (c :: ·)

/-- The space within a line. -/
def isSpace (c : Char) : Bool := c == ' ' || c == '\t'

/-- The characters of comments and of texts in one line: no control character but the tab. -/
def isPlain (c : Char) : Bool := c == '\t' || (0x20 ≤ c.toNat && c.toNat != 0x7F)

/-- The characters of a key without quotes. -/
def isKeyChar (c : Char) : Bool :=
  ('a' ≤ c && c ≤ 'z') || ('A' ≤ c && c ≤ 'Z') || ('0' ≤ c && c ≤ '9') || c == '_' || c == '-'

/-- The characters of keys without quotes and of numbers. -/
def isWordChar (c : Char) : Bool := isKeyChar c || c == '+'

/-- The two quotes. -/
inductive Quote where
  /-- The quote of texts with escapes. -/
  | double
  /-- The quote of texts without escapes. -/
  | single
  deriving DecidableEq, Repr

/-- The character of a quote. -/
def Quote.char : Quote → Char
  | double => '"'
  | single => '\''

/-- Where the reader stands. Collected characters are reversed; `inBlock` tells whether the text
is one between three quotes. -/
inductive Mode where
  /-- Between tokens. -/
  | between
  /-- Inside a word. -/
  | word (seen : List Char)
  /-- Inside a comment. -/
  | comment
  /-- Behind the first quote of a text. -/
  | opened (quote : Quote)
  /-- Behind two quotes, which are an empty text unless a third one follows. -/
  | openedTwice (quote : Quote)
  /-- Inside a text in one line. -/
  | line (quote : Quote) (seen : List Char)
  /-- Behind the three quotes that begin a text; a line end here does not count. -/
  | blockStart (quote : Quote)
  /-- Inside a text between three quotes. -/
  | block (quote : Quote) (seen : List Char)
  /-- Behind so many quotes inside a text between three quotes. -/
  | blockQuotes (quote : Quote) (seen : List Char) (count : Nat)
  /-- Behind a backslash. -/
  | escape (inBlock : Bool) (seen : List Char)
  /-- Inside an escape, with `due + 1` digits to come. -/
  | scalar (inBlock : Bool) (seen : List Char) (due value : Nat)
  /-- Behind a backslash at the end of a line: space and line ends do not count. As long as
  `due` holds, the line has not ended yet. -/
  | trim (due : Bool) (seen : List Char)
  deriving DecidableEq

/-- A step of the reader: the tokens it completes, and where it stands then. -/
abbrev Step := List Token × Mode

/-- The text of collected characters. -/
def collect (seen : List Char) : String := String.ofList seen.reverse

/-- The mode inside a text with escapes. -/
def inside (inBlock : Bool) (seen : List Char) : Mode :=
  if inBlock then .block .double seen else .line .double seen

/-- The step at a character between tokens. -/
def stepBetween (c : Char) : Option Step :=
  if isSpace c then some ([], .between)
  else if c = '\n' then some ([lineEnd], .between)
  else if c = '#' then some ([], .comment)
  else if c = '"' then some ([], .opened .double)
  else if c = '\'' then some ([], .opened .single)
  else if c = '=' then some ([equals], .between)
  else if c = ',' then some ([comma], .between)
  else if c = '[' then some ([opening], .between)
  else if c = ']' then some ([closing], .between)
  else if isWordChar c then some ([], .word [c])
  else none

/-- The step at a character inside a text in one line. -/
def stepLine (quote : Quote) (seen : List Char) (c : Char) : Option Step :=
  if c = quote.char then some ([text (collect seen)], .between)
  else if quote = .double ∧ c = '\\' then some ([], .escape false seen)
  else if isPlain c then some ([], .line quote (c :: seen))
  else none

/-- The step at a character inside a text between three quotes. -/
def stepBlock (quote : Quote) (seen : List Char) (c : Char) : Option Step :=
  if c = quote.char then some ([], .blockQuotes quote seen 1)
  else if quote = .double ∧ c = '\\' then some ([], .escape true seen)
  else if isPlain c ∨ c = '\n' then some ([], .block quote (c :: seen))
  else none

/-- Characters with so many quotes behind them. -/
def withQuotes (quote : Quote) (count : Nat) (seen : List Char) : List Char :=
  List.replicate count quote.char ++ seen

/-- The text that `count` quotes end, the last three of which do not belong to it. -/
def closeBlock (quote : Quote) (seen : List Char) (count : Nat) : Token :=
  block (collect (withQuotes quote (count - 3) seen))

/-- The step behind some quotes inside a text between three quotes: fewer than three belong to
the text, and of at most five the last three end it. -/
def stepQuotes (quote : Quote) (seen : List Char) (count : Nat) (c : Char) : Option Step :=
  if c = quote.char then
    if count < 4 then some ([], .blockQuotes quote seen (count + 1))
    else some ([closeBlock quote seen (count + 1)], .between)
  else if count < 3 then stepBlock quote (withQuotes quote count seen) c
  else (stepBetween c).map fun (tokens, mode) => (closeBlock quote seen count :: tokens, mode)

/-- The character that a short escape denotes. -/
def shortEscape? (c : Char) : Option Char :=
  if c = '"' ∨ c = '\\' then some c
  else if c = 'b' then some '\x08'
  else if c = 't' then some '\t'
  else if c = 'n' then some '\n'
  else if c = 'f' then some '\x0c'
  else if c = 'r' then some '\r'
  else none

/-- The step behind a backslash. -/
def stepEscape (inBlock : Bool) (seen : List Char) (c : Char) : Option Step :=
  if c = 'u' then some ([], .scalar inBlock seen 3 0)
  else if c = 'U' then some ([], .scalar inBlock seen 7 0)
  else if inBlock ∧ isSpace c then some ([], .trim true seen)
  else if inBlock ∧ c = '\n' then some ([], .trim false seen)
  else (shortEscape? c).map fun c => ([], inside inBlock (c :: seen))

/-- The scalar value of a number. -/
def scalar? (n : Nat) : Option Char := if n.isValidChar then some (Char.ofNat n) else none

/-- The step inside an escape with digits. -/
def stepScalar (inBlock : Bool) (seen : List Char) (due value : Nat) (c : Char) :
    Option Step := do
  let digit ← Numeral.hexDigit? c
  let value := value * 16 + digit
  match due with
  | 0 => do
    let c ← scalar? value
    some ([], inside inBlock (c :: seen))
  | due + 1 => some ([], .scalar inBlock seen due value)

/-- The step at any character. -/
def step (mode : Mode) (c : Char) : Option Step :=
  match mode with
  | .between => stepBetween c
  | .word seen =>
    if isWordChar c then some ([], .word (c :: seen))
    else (stepBetween c).map fun (tokens, mode) => (word seen.reverse :: tokens, mode)
  | .comment =>
    if c = '\n' then some ([lineEnd], .between)
    else if isPlain c then some ([], .comment)
    else none
  | .opened quote =>
    if c = quote.char then some ([], .openedTwice quote) else stepLine quote [] c
  | .openedTwice quote =>
    if c = quote.char then some ([], .blockStart quote)
    else (stepBetween c).map fun (tokens, mode) => (text "" :: tokens, mode)
  | .line quote seen => stepLine quote seen c
  | .blockStart quote =>
    if c = '\n' then some ([], .block quote []) else stepBlock quote [] c
  | .block quote seen => stepBlock quote seen c
  | .blockQuotes quote seen count => stepQuotes quote seen count c
  | .escape inBlock seen => stepEscape inBlock seen c
  | .scalar inBlock seen due value => stepScalar inBlock seen due value c
  | .trim due seen =>
    if isSpace c then some ([], .trim due seen)
    else if c = '\n' then some ([], .trim false seen)
    else if due then none
    else stepBlock .double seen c

/-- The tokens that the end of the file completes. -/
def finish : Mode → Option (List Token)
  | .between | .comment => some []
  | .word seen => some [word seen.reverse]
  | .openedTwice _ => some [text ""]
  | .blockQuotes quote seen count => if count < 3 then none else some [closeBlock quote seen count]
  | _ => none

/-- Read characters from a mode on; `done` holds the tokens before, reversed. -/
def read (done : List Token) (mode : Mode) : List Char → Option (List Token)
  | [] => (finish mode).map (done.reverse ++ ·)
  | c :: rest =>
    match step mode c with
    | none => none
    | some (tokens, mode) => read (tokens.reverse ++ done) mode rest

/-- The tokens of a text. -/
def ofText? (text : List Char) : Option (List Token) :=
  joinLineEnds? text >>= read [] .between

end Token

end DebugLink.Settings
