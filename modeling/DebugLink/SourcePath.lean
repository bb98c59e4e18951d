import DebugLink.Json.Shape
import DebugLink.Text.Split

/-!
# Source paths

A path is kept as the octets it was given as, which need not be a text: it is shown and sent
with the replacement character for what is none, so that different paths can look alike.
It means the sequence of its components: repeated slashes, a slash at the end and `.`
components behind the first one do not count. Paths are the same when their components are,
and are ordered component by component, names in the order of their octets.
-/

namespace DebugLink

open Text

/-- A path, as the octets it was given as. -/
structure SourcePath where
  /-- The octets. -/
  octets : Bytes
  deriving DecidableEq, Repr

namespace SourcePath

/-- The path of a text. -/
def ofText (text : String) : SourcePath := ⟨Utf8.encode text⟩

instance : Coe String SourcePath := ⟨ofText⟩

/-- Whether a path is a text. -/
def isText (path : SourcePath) : Bool := (Utf8.scalars path.octets).all Option.isSome

/-- The text that shows a path, with the replacement character for each part that is none. -/
def display (path : SourcePath) : String := Utf8.decodeLossy path.octets

/-- The JSON form. It cannot be written if the path is no text. -/
def toJson (path : SourcePath) : Json.Value := .string (Utf8.scalars path.octets)

/-- Read the JSON form. -/
def ofJson? (value : Json.Value) : Option SourcePath := (Json.Shape.text? value).map ofText

/-! ## What a path means -/

/-- The slash. -/
def slash : UInt8 := 0x2F

/-- The dot. -/
def dot : UInt8 := 0x2E

/-- One component of a path. -/
inductive Component where
  /-- The root, at the front of a path that starts with a slash. -/
  | root
  /-- The current directory, at the front of a path that starts with a dot. -/
  | current
  /-- The directory above. -/
  | parent
  /-- A name. -/
  | name (octets : Bytes)
  deriving DecidableEq

/-- The component that octets between two slashes denote, if any. -/
def Component.ofSegment? (segment : Bytes) : Option Component :=
  if segment = [] ∨ segment = [dot] then none
  else if segment = [dot, dot] then some .parent
  else some (.name segment)

/-- The place of a component in the order: the root first, then the current directory, the
directory above, and the names. -/
def Component.code : Component → List Nat
  | .root => [0]
  | .current => [1]
  | .parent => [2]
  | .name octets => 3 :: octets.map UInt8.toNat

/-- The components of a path. -/
def components (path : SourcePath) : List Component :=
  let segments := Split.fields [slash] path.octets
  let names := segments.filterMap Component.ofSegment?
  match segments with
  | [] :: _ :: _ => .root :: names
  | first :: _ => if first = [dot] then .current :: names else names
  | [] => names

/-- What a path means, in a form that can be compared. -/
abbrev Key := List (List Nat)

/-- The meaning of a path. -/
def key (path : SourcePath) : Key := (components path).map Component.code

/-- Whether two paths mean the same. -/
def same (a b : SourcePath) : Bool := key a == key b

/-- It does not matter which of two paths comes first. -/
theorem same_comm (a b : SourcePath) : same a b = same b a := Bool.beq_comm

/-- Paths that mean the same are the same as others. -/
theorem same_congr_right {a b : SourcePath} (h : same a b) (other : SourcePath) :
    same other a = same other b := by
  rw [same, same, beq_iff_eq.mp h]

end SourcePath

end DebugLink
