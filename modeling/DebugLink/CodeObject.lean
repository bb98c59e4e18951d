import DebugLink.SourcePath

/-!
# Breakable lines

The program can stop only at lines that start a run of bytecode. They are found in the
line tables of a compiled unit and of all units inside it. A table entry advances the
byte offset and the line; a line is breakable when bytecode is emitted for it, which is
so for the first line, for the last line reached, and for each line behind which the
next entry advances the offset.
-/

namespace DebugLink

/-- A compiled unit of code. -/
inductive CodeObject where
  /-- A unit with its first line, its line table, and the units defined inside it. -/
  | unit (firstLine : UInt32) (lineTable : List (UInt8 × Int8)) (children : List CodeObject)

/-- A strictly ascending list of lines. -/
abbrev Lines := List UInt32

/-- Put a line into its place. -/
def Lines.insert (line : UInt32) : Lines → Lines
  | [] => [line]
  | other :: rest =>
    if line < other then line :: other :: rest
    else if line = other then other :: rest
    else other :: Lines.insert line rest

/-- Put lines into their places, one after the other. -/
def Lines.insertAll (lines : Lines) (new : List UInt32) : Lines :=
  new.foldl (fun lines line => insert line lines) lines

namespace CodeObject

/-- The line of a number, if it is in range. -/
def line? (n : Int) : Option UInt32 :=
  if 0 ≤ n ∧ n ≤ 0xFFFFFFFF then some (UInt32.ofNat n.toNat) else none

/-- Whether bytecode is emitted for the line that an entry reaches: the next entry advances
the offset, or there is none. -/
def ownsBytecode : List (UInt8 × Int8) → Bool
  | [] => true
  | (bytes, _) :: _ => bytes != 0

/-- The lines that the entries of a table reach and that own bytecode. The line counter may
leave the range of lines on the way. -/
def tableLines (line : Int) : List (UInt8 × Int8) → List UInt32
  | [] => []
  | (_, delta) :: rest =>
    let line := line + delta.toInt
    let lines := tableLines line rest
    if ownsBytecode rest then (line? line).toList ++ lines else lines

/-- The first line of a unit. -/
def firstLine : CodeObject → UInt32
  | unit firstLine _ _ => firstLine

/-- The line table of a unit. -/
def lineTable : CodeObject → List (UInt8 × Int8)
  | unit _ lineTable _ => lineTable

/-- The breakable lines of a unit without those of the units inside it. -/
def ownLines (code : CodeObject) : List UInt32 :=
  code.firstLine :: tableLines code.firstLine.toNat code.lineTable

/-- The units in the order of their first lines; those with the same first line stay as they are. -/
def inOrder (codes : List CodeObject) : List CodeObject :=
  codes.mergeSort fun code other => code.firstLine ≤ other.firstLine

mutual

/-- How many units there are in a unit, with itself. -/
def count : CodeObject → Nat
  | unit _ _ children => countAll children + 1

/-- How many units there are in several units. -/
def countAll : List CodeObject → Nat
  | [] => 0
  | code :: rest => code.count + countAll rest

end

/-- Units that stand behind others are counted with them. -/
theorem countAll_append (codes others : List CodeObject) :
    countAll (codes ++ others) = countAll codes + countAll others := by
  induction codes with
  | nil => exact (Nat.zero_add _).symm
  | cons code rest ih => rw [List.cons_append, countAll, ih, countAll, Nat.add_assoc]

/-- It does not matter in which order units are counted. -/
theorem countAll_inOrder (codes : List CodeObject) : countAll (inOrder codes) = countAll codes := by
  have hperm : ∀ {codes others : List CodeObject}, codes.Perm others →
      countAll codes = countAll others := by
    intro codes others h
    induction h with
    | nil => rfl
    | cons code _ ih => rw [countAll, countAll, ih]
    | swap code other rest => rw [countAll, countAll, countAll, countAll, Nat.add_left_comm]
    | trans _ _ ih ih' => exact ih.trans ih'
  exact hperm (List.mergeSort_perm codes _)

/-- Go through a queue of units and put their lines to those found before. The unit in front leaves
the queue, and the units defined inside it join at the end. -/
def collect (lines : Lines) : (queue : List CodeObject) → Lines
  | [] => lines
  | unit firstLine lineTable children :: queue =>
    collect (lines.insertAll (unit firstLine lineTable children).ownLines)
      (queue ++ inOrder children)
termination_by queue => countAll queue
decreasing_by
  rw [countAll_append, countAll_inOrder, countAll, count]
  omega

/-- The breakable lines of a unit and of all units inside it. -/
def breakableLines (code : CodeObject) : Lines := collect [] [code]

end CodeObject

/-- Compiles source files: the code of a path, if there is any. -/
abbrev CodeProvider := SourcePath → Option CodeObject

end DebugLink
