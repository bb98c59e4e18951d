import DebugLink.Json.Diagnosis.Basic
import DebugLink.Json.Number
import DebugLink.Text.Decimal

/-!
# What is wrong with a JSON text

Whether a text has a shape is for `Json.Shape` to say. For a text that has not, the
checks here tell the first problem that a reader comes upon, from left to right. A
mistake of a value as a whole, such as a missing field, is found at the end of the
value or, if that cannot be reached, where it was noticed.
-/

namespace DebugLink.Json.Diagnosis

open Walk

/-- A walk over a value of one shape. It may leave a mistake that the record or the array around
the value reports. -/
abbrev Check := Walk (Option Mistake)

/-- Whether an integer is one of 64 bits, signed or not. -/
def isInteger (n : Int) : Bool := -0x8000000000000000 ≤ n && n ≤ 0xFFFFFFFFFFFFFFFF

/-- A number as a message names it, if it is in range. -/
def numberKind? (text : List Char) : Option Kind :=
  match (Shape.integerOf? text).filter isInteger with
  | some n => some (.integer n)
  | none => (Number.value? text).map fun x => .decimal (Text.Decimal.text x)

/-- Pass a number, and tell how a message names it. -/
def numberKind : Walk Kind := do
  let start ← get
  number true
  let text := start.upTo (← get)
  match numberKind? text with
  | some kind => return kind
  | none => do
    set (start.drop (Number.decidingLength text))
    stop .outOfRange

/-- Stop at a value of another sort than expected. -/
def wrongKind {α : Type} (expected : String) : Walk α := do
  let blame (found : Kind) : Walk α := stop (.wrongKind found expected)
  match ← peek with
  | some 'n' => do
    word ['n', 'u', 'l', 'l']
    blame .null
  | some 't' => do
    word ['t', 'r', 'u', 'e']
    blame (.bool true)
  | some 'f' => do
    word ['f', 'a', 'l', 's', 'e']
    blame (.bool false)
  | some '"' => do blame (.string (← text))
  | some '[' => blame .array
  | some '\x7b' => blame .object
  | some c =>
    if c = '-' ∨ Token.isDigit c then do blame (← numberKind)
    else stopPast .valueDue
  | none => stop .endInValue

/-- Pass a string, and tell its text. -/
def textOr (expected : String) : Walk String := do
  if (← passSpace) = some '"' then text else wrongKind expected

/-- Check for a string. -/
def textCheck : Check := do
  let _ ← textOr "a string"
  return none

/-- Check for a truth value. -/
def boolCheck : Check := do
  match ← passSpace with
  | some 't' => word ['t', 'r', 'u', 'e']
  | some 'f' => word ['f', 'a', 'l', 's', 'e']
  | _ => wrongKind "a boolean"
  return none

/-- Pass an integer from `low` to `high`, and tell its value. -/
def integer (name : String) (low high : Int) : Walk Int := do
  if (← passSpace).any fun c => c = '-' ∨ Token.isDigit c then
    match ← numberKind with
    | .integer n => if low ≤ n ∧ n ≤ high then return n else stop (.wrongValue (.integer n) name)
    | kind => stop (.wrongKind kind name)
  else wrongKind name

/-- Check for an integer from `low` to `high`. -/
def integerCheck (name : String) (low high : Int) : Check := do
  let _ ← integer name low high
  return none

/-- Check for an unsigned integer of 32 bits. -/
def uint32Check : Check := integerCheck "u32" 0 0xFFFFFFFF

/-- Check for a signed integer of 64 bits. -/
def int64Check : Check := integerCheck "i64" (-0x8000000000000000) 0x7FFFFFFFFFFFFFFF

/-- Pass a signed integer of 8 bits, and tell its value. -/
def int8 : Walk Int := integer "i8" (-0x80) 0x7F

/-- Check for a signed integer of 8 bits. -/
def int8Check : Check := do
  let _ ← int8
  return none

/-- Check for null, or a value of a shape. -/
def optionalCheck (check : Check) : Check := do
  if (← passSpace) = some 'n' then
    word ['n', 'u', 'l', 'l']
    return none
  else check

/-- Pass the colon behind a key. -/
def colon : Walk Unit := do
  match ← passSpace with
  | some ':' => pass
  | some _ => stopPast .colonDue
  | none => stop .endInObject

/-- Pass one of the given words. -/
def oneOf (words : List String) (expected : String) : Walk Unit := do
  let word ← textOr expected
  if !words.contains word then stop (.unknownWord word words)

/-- Check for one of the given words, or an object with the word as its only key and null. -/
def wordCheck (words : List String) : Check := do
  match ← passSpace with
  | some '"' => oneOf words "variant identifier"
  | some '\x7b' =>
    pass
    oneOf words "variant identifier"
    colon
    if (← passSpace) = some 'n' then word ['n', 'u', 'l', 'l'] else wrongKind "unit"
    match ← passSpace with
    | some '\x7d' => pass
    | some _ => stop .valueDue
    | none => stop .endInObject
  | some _ => stopPast .valueDue
  | none => stop .endInValue
  return none

/-- Stop for a mistake of an array or an object as a whole. Its closing bracket is passed if it
comes next, and so is a comma in an array. -/
def blameWhole {α : Type} (isArray : Bool) (mistake : Mistake) : Walk α := do
  let next ← passSpace
  if next = some (if isArray then ']' else '\x7d') then pass
  else if isArray ∧ next = some ',' then
    pass
    let _ ← passSpace
  stop mistake

/-- Go to the next item of an array, or to its closing bracket; tells whether there is an item. -/
def nextItem (first : Bool) : Walk Bool := do
  match ← passSpace with
  | none => stop .endInArray
  | some ']' => return false
  | some c =>
    if first then return true
    else if c = ',' then
      pass
      match ← passSpace with
      | none => stop .endInValue
      | some ']' => stopPast .trailingComma
      | some _ => return true
    else stopPast .itemEndDue

/-- Check the items of an array from one on, at most `fuel` of them. -/
def itemsCheck (item : Check) : (fuel : Nat) → (first : Bool) → Walk Unit
  | 0, _ => stop .endInArray
  | fuel + 1, first => do
    if ← nextItem first then
      match ← item with
      | some mistake => blameWhole true mistake
      | none => itemsCheck item fuel false
    else pass

/-- Check for an array of items of one shape. -/
def listCheck (item : Check) : Check := do
  if (← passSpace) = some '[' then
    pass
    itemsCheck item ((← get).count + 1) true
    return none
  else wrongKind "a sequence"

/-- A field of a record. -/
structure Field where
  /-- Its key. -/
  name : String
  /-- The check of its value. -/
  check : Check
  /-- Whether it has to be given. -/
  isRequired : Bool := true

/-- Check the items of an array that stand for the given fields. `expected` names the whole, and
`index` counts the items before. -/
def fieldItemsCheck (expected : String) : (index : Nat) → List Field → Check
  | _, [] => return none
  | index, field :: rest => do
    if ← nextItem (index == 0) then
      match ← field.check with
      | some mistake => return some mistake
      | none => fieldItemsCheck expected (index + 1) rest
    else if field.isRequired then return some (.wrongLength index expected)
    else fieldItemsCheck expected index rest

/-- Pass the end of an array that must have no more items. -/
def endOfItems : Walk Unit := do
  match ← passSpace with
  | none => stop .endInArray
  | some ']' => pass
  | some ',' =>
    pass
    if (← passSpace) = some ']' then stopPast .trailingComma else stopPast .trailing
  | some _ => stopPast .trailing

/-- Check for an array whose items stand for the given fields. -/
def arrayOfFields (expected : String) (fields : List Field) : Check := do
  pass
  match ← fieldItemsCheck expected 0 fields with
  | some mistake => blameWhole true mistake
  | none => endOfItems
  return none

/-- Go to the next key of an object, or to its closing brace; tells whether there is a key. -/
def nextKey (first : Bool) : Walk Bool := do
  match ← passSpace with
  | none => stop .endInObject
  | some '\x7d' => return false
  | some c =>
    if first then if c = '"' then return true else stopPast .keyDue
    else if c = ',' then
      pass
      match ← passSpace with
      | none => stop .endInValue
      | some '"' => return true
      | some '\x7d' => stopPast .trailingComma
      | some _ => stopPast .keyDue
    else stopPast .memberEndDue

/-- Check the members of an object from one on, at most `fuel` of them; `seen` holds the names of
the fields that have come. -/
def membersCheck (fields : List Field) :
    (fuel : Nat) → (first : Bool) → (seen : List String) → Walk Unit
  | 0, _, _ => stop .endInObject
  | fuel + 1, first, seen => do
    if ← nextKey first then
      let key ← text
      match fields.find? fun field => field.name = key with
      | none =>
        colon
        anyValue
        membersCheck fields fuel false seen
      | some field =>
        if seen.contains key then blameWhole false (.repeatedField key)
        colon
        match ← field.check with
        | some mistake => blameWhole false mistake
        | none => membersCheck fields fuel false (key :: seen)
    else
      pass
      match fields.find? fun field => field.isRequired && !seen.contains field.name with
      | some field => stop (.missingField field.name)
      | none => pure ()

/-- Check for a record of the given name. -/
def recordCheck (name : String) (fields : List Field) : Check := do
  match ← passSpace with
  | some '[' =>
    let count := toString fields.length ++ (if fields.length = 1 then " element" else " elements")
    arrayOfFields ("struct " ++ name ++ " with " ++ count) fields
  | some '\x7b' =>
    pass
    membersCheck fields ((← get).count + 1) true []
    return none
  | _ => wrongKind ("struct " ++ name)

/-- Check for an array of values of the given shapes. -/
def tupleCheck (checks : List Check) : Check := do
  let expected := "a tuple of size " ++ toString checks.length
  if (← passSpace) = some '[' then
    arrayOfFields expected (checks.map fun check => ⟨"", check, true⟩)
  else wrongKind expected

/-- Check a whole text. -/
def wholeText (check : Check) : Walk Unit := do
  if let some mistake := ← check then stop mistake
  if (← passSpace).isSome then stopPast .trailing

/-- The first problem of a text that is read for a shape. -/
def problem? (check : Check) (text : String) : Option Problem :=
  match (wholeText check).run (Cursor.ofText text) with
  | .error problem => some problem
  | .ok _ => none

/-- The first problem of a text that does not have a shape. One that has none is blamed at its
beginning. -/
def problem (check : Check) (text : String) : Problem :=
  (problem? check text).getD ⟨.valueDue, {}⟩

end DebugLink.Json.Diagnosis
