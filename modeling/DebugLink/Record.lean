import DebugLink.Text.Blank
import DebugLink.Text.Numeral
import DebugLink.Text.Quoted
import DebugLink.Text.Split

/-!
# Flat records

Older state files hold one point a line, with its fields joined by three colons. Truth
values are the words `True` and `False`, and a value that there is not is `None`.
-/

namespace DebugLink.Record

open Text

/-- Why a record cannot be read. -/
inductive Fault where
  /-- The record does not have the right number of fields. -/
  | fieldCount (expected found : Nat)
  /-- The file has no name. -/
  | emptyFile
  /-- The line is no numeral. -/
  | badLine (field : String) (fault : Numeral.Fault)
  /-- A truth value is neither true nor false. -/
  | notBoolean (field : String)
  /-- A count is no numeral. -/
  | badCount (field : String) (fault : Numeral.Fault)
  /-- The number of fields is that of no kind of point. -/
  | noKind (found : Nat)
  deriving DecidableEq, Repr

/-- The wording of a fault. -/
def Fault.message : Fault → String
  | fieldCount expected found =>
    "expected " ++ toString expected ++ " fields, found " ++ toString found
  | emptyFile => "empty file name"
  | badLine field fault => "bad line " ++ Quoted.quote field ++ ": " ++ fault.message
  | notBoolean field => Quoted.quote field ++ " is not a boolean"
  | badCount field fault => "bad count " ++ Quoted.quote field ++ ": " ++ fault.message
  | noKind found => toString found ++ " fields is neither a breakpoint nor a watchpoint"

/-- The text between two fields. -/
def separator : List Char := [':', ':', ':']

/-- The characters that end a line. -/
def isLineBreak (c : Char) : Bool := c == '\r' || c == '\n'

/-- The text without line breaks at its end. -/
def dropLineBreaks (cs : List Char) : List Char := (cs.reverse.dropWhile isLineBreak).reverse

/-- The fields of a record. -/
def fields (record : String) : List (List Char) :=
  Split.fields separator (dropLineBreaks record.toList)

/-- Whether a field would not be the same field when it is read back. -/
def isUnwritable (field : List Char) : Bool :=
  (Split.atFirst separator field).isSome || field.any isLineBreak

/-- The record with the given fields, or the first field that cannot be written. -/
def join (fields : List String) : Except String String :=
  match fields.find? fun field => isUnwritable field.toList with
  | some field => .error field
  | none => .ok (String.ofList (Split.join separator (fields.map String.toList)))

/-- The word for a truth value. -/
def ofBool (value : Bool) : String := if value then "True" else "False"

/-- The field for a value that there may not be. -/
def ofOptional (value : Option String) : String := value.getD "None"

/-- Read a truth value. -/
def readBool (field : List Char) : Except Fault Bool :=
  let word := String.ofList (Blank.trim field)
  if word = "True" ∨ word = "1" then .ok true
  else if word = "False" ∨ word = "0" then .ok false
  else .error (.notBoolean word)

/-- Read a value that there may not be. -/
def readOptional (field : List Char) : Option String :=
  let text := String.ofList field
  if text = "" ∨ text = "None" then none else some text

/-- Read a count; one that there is not is zero. -/
def readCount (field : List Char) : Except Fault UInt32 :=
  let digits := Blank.trim field
  if String.ofList digits = "None" then .ok 0
  else
    match Numeral.readUInt32 digits with
    | .ok count => .ok count
    | .error fault => .error (.badCount (String.ofList digits) fault)

/-- Read a line; the wording of a fault shows the field with its blanks. -/
def readLine (field : List Char) : Except Fault UInt32 :=
  match Numeral.readUInt32 (Blank.trim field) with
  | .ok line => .ok line
  | .error fault => .error (.badLine (String.ofList field) fault)

end DebugLink.Record
