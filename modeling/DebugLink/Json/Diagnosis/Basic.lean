import DebugLink.Json.Problem
import DebugLink.Json.Shape

/-!
# Walking through a JSON text

A walk goes over the octets of a text and stops at the first mistake. The walks here
pass space, words, strings, numbers and whole values of any shape. An octet is given
as the character of its number, so that a place counts octets.
-/

namespace DebugLink.Json.Diagnosis

/-- What is left of a text, and where it begins. -/
structure Cursor where
  /-- The octets to come. -/
  rest : List Char
  /-- How many they are. -/
  count : Nat := rest.length
  /-- The place of the first one. -/
  place : Place := {}

namespace Cursor

/-- The cursor at the beginning of a text. -/
def ofText (text : String) : Cursor :=
  { rest := (Text.Utf8.encode text).map fun octet => Char.ofNat octet.toNat }

/-- The cursor behind the next `n` octets, or at the end. -/
def drop (cursor : Cursor) (n : Nat) : Cursor :=
  ⟨cursor.rest.drop n, cursor.count - n, cursor.place.through (cursor.rest.take n)⟩

/-- The cursor at the first octet that does not belong to a class. -/
def skip (cursor : Cursor) (belongs : Char → Bool) : Cursor :=
  let passed := cursor.rest.takeWhile belongs
  ⟨cursor.rest.dropWhile belongs, cursor.count - passed.length, cursor.place.through passed⟩

/-- The octets from one cursor to a later one. -/
def upTo (start finish : Cursor) : List Char :=
  start.rest.take (start.count - finish.count)

end Cursor

/-- A walk over a text. -/
abbrev Walk := StateT Cursor (Except Problem)

namespace Walk

variable {α : Type}

/-- Stop where the cursor stands. -/
def stop (mistake : Mistake) : Walk α := fun cursor => .error ⟨mistake, cursor.place⟩

/-- Stop behind the octet at the cursor, which is the one that is wrong. -/
def stopPast (mistake : Mistake) : Walk α := fun cursor => .error ⟨mistake, (cursor.drop 1).place⟩

/-- The octet at the cursor. -/
def peek : Walk (Option Char) := do return (← get).rest.head?

/-- Pass octets. -/
def pass (n : Nat := 1) : Walk Unit := modify (·.drop n)

/-- Pass space, and look at what follows. -/
def passSpace : Walk (Option Char) := do
  modify (·.skip Token.isSpace)
  peek

/-- Pass the digits at the cursor, and look at what follows. -/
def passDigits : Walk (Option Char) := do
  modify (·.skip Token.isDigit)
  peek

/-- Pass the given octets of a word. -/
def word : List Char → Walk Unit
  | [] => pure ()
  | c :: rest => do
    let some found ← peek | stop .endInValue
    if found = c then
      pass
      word rest
    else stopPast .wordDue

/-- Pass the four digits of an escape. -/
def unit : Walk Nat := do
  let digits := (← get).rest.take 4
  pass 4
  if digits.length < 4 then stop .endInString
  match digits.mapM Text.Numeral.hexDigit? with
  | some values => return values.foldl (fun n digit => n * 16 + digit) 0
  | none => stop .escape

/-- Pass the given octet, which has to come behind the first half of a surrogate pair. -/
def pairMark (mark : Char) : Walk Unit := do
  let some found ← peek | stop .endInString
  if found = mark then pass else stopPast .surrogateDue

/-- Pass an escape behind its backslash. Where the text of the string matters, surrogates have
to come in pairs. -/
def escape (textMatters : Bool) : Walk Unit := do
  let some c ← peek | stop .endInString
  if c = 'u' then
    pass
    let n ← unit
    if textMatters then
      if Token.isLowSurrogate n then stop .loneSurrogate
      if Token.isHighSurrogate n then
        pairMark '\\'
        pairMark 'u'
        let low ← unit
        if !Token.isLowSurrogate low then stop .loneSurrogate
  else if (Token.shortEscape? c).isSome then pass
  else stopPast .escape

/-- Pass a string from behind its opening quote, in at most `fuel` parts. -/
def stringTail (textMatters : Bool) : (fuel : Nat) → Walk Unit
  | 0 => stop .endInString
  | fuel + 1 => do
    let some c ← peek | stop .endInString
    if c = '"' then pass
    else if c = '\\' then
      pass
      escape textMatters
      stringTail textMatters fuel
    else if c.toNat < 0x20 then
      if textMatters then stopPast .control else stop .control
    else
      pass
      stringTail textMatters fuel

/-- Pass a string. Each part is one octet at least, and one more turn finds the end. -/
def string (textMatters : Bool) : Walk Unit := do
  pass
  stringTail textMatters ((← get).count + 1)

/-- Pass a string, and tell its text. -/
def text : Walk String := do
  let start ← get
  string true
  let octets := (start.upTo (← get)).map fun c => c.toNat.toUInt8
  match Token.ofText? (Text.Utf8.scalars octets) with
  | some [.string content] => return (Shape.textOf? content).getD ""
  | _ => return ""

/-- Stop because a number is unfinished or goes on wrongly. Where the value of the number
matters, a text that ends is told apart. -/
def stopInNumber (valueMatters : Bool) : Walk α := do
  match ← peek with
  | none => stop (if valueMatters then .endInValue else .number)
  | some _ => stopPast .number

/-- Pass one digit at least. -/
def someDigits (valueMatters : Bool) : Walk (Option Char) := do
  if (← peek).any Token.isDigit then passDigits else stopInNumber valueMatters

/-- Pass an exponent, if one follows. -/
def exponent (valueMatters : Bool) (next : Option Char) : Walk Unit := do
  if next = some 'e' ∨ next = some 'E' then
    pass
    let sign ← peek
    if sign = some '+' ∨ sign = some '-' then pass
    let _ ← someDigits valueMatters

/-- Pass a number. -/
def number (valueMatters : Bool) : Walk Unit := do
  if (← peek) = some '-' then pass
  let first ← peek
  let next ← someDigitsOrZero first
  if next = some '.' then
    pass
    exponent valueMatters (← someDigits valueMatters)
  else exponent valueMatters next
where
  /-- Pass the digits before a fraction; a zero stands alone. -/
  someDigitsOrZero (first : Option Char) : Walk (Option Char) := do
    if first = some '0' then
      pass
      let next ← peek
      if next.any Token.isDigit then stopPast .number
      return next
    else someDigits valueMatters

/-- Where a walk over a value of any shape stands. -/
inductive Turn where
  /-- A value is due. -/
  | value
  /-- A value is complete, or an array or an object has been opened. -/
  | after (complete : Bool)

/-- Pass a value up to its end or, for an array or an object, its opening bracket; `enclosing`
holds the brackets that are open around it, innermost first. -/
def openValue (enclosing : List Char) : Walk (Turn × List Char) := do
  match ← passSpace with
  | none => stop .endInValue
  | some 'n' => do
    word ['n', 'u', 'l', 'l']
    return (.after true, enclosing)
  | some 't' => do
    word ['t', 'r', 'u', 'e']
    return (.after true, enclosing)
  | some 'f' => do
    word ['f', 'a', 'l', 's', 'e']
    return (.after true, enclosing)
  | some '"' => do
    string false
    return (.after true, enclosing)
  | some c =>
    if c = '-' ∨ Token.isDigit c then
      number false
      return (.after true, enclosing)
    else if c = '[' ∨ c = '\x7b' then
      pass
      return (.after false, c :: enclosing)
    else stopPast .valueDue

/-- Pass a key whose text does not matter, and its colon. -/
def anyKey : Walk Unit := do
  match ← passSpace with
  | none => stop .endInObject
  | some '"' => string false
  | some _ => stopPast .keyDue
  match ← passSpace with
  | none => stop .endInObject
  | some ':' => pass
  | some _ => stopPast .colonDue

/-- Go on behind a value or an opening bracket, inside the innermost open bracket: to the next
value, or behind the closing bracket. -/
def goOn (complete : Bool) (bracket : Char) (enclosing : List Char) :
    Walk (Turn × List Char) := do
  let isArray := bracket = '['
  let next : Walk (Turn × List Char) := do
    if !isArray then anyKey
    return (.value, bracket :: enclosing)
  match ← passSpace with
  | none => stop (if isArray then .endInArray else .endInObject)
  | some c =>
    if c = ',' ∧ complete then
      pass
      next
    else if c = (if isArray then ']' else '\x7d') then
      pass
      return (.after true, enclosing)
    else if complete then stopPast (if isArray then .itemEndDue else .memberEndDue)
    else next

/-- Walk on until no bracket is open, in at most `fuel` turns. -/
def anyValueFrom : (fuel : Nat) → Turn → List Char → Walk Unit
  | 0, _, _ => stop .endInValue
  | _, .after true, [] => pure ()
  | fuel + 1, .value, enclosing => do
    let (turn, enclosing) ← openValue enclosing
    anyValueFrom fuel turn enclosing
  | fuel + 1, .after complete, bracket :: enclosing => do
    let (turn, enclosing) ← goOn complete bracket enclosing
    anyValueFrom fuel turn enclosing
  | _, .after false, [] => pure ()

/-- Pass a value of any shape. Each octet begins two turns at most. -/
def anyValue : Walk Unit := do anyValueFrom (2 * (← get).count + 2) .value []

end Walk

end DebugLink.Json.Diagnosis
