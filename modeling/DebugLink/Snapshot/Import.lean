import DebugLink.Snapshot.Keeper
import DebugLink.Wire.Reader

/-!
# Reading flat records from a source

A source of flat records is read line by line, and no more of it is read once it has failed or a
line is not UTF-8. What was read until then is given up with the failure.
-/

namespace DebugLink

open Text Wire

namespace FlatFile

/-- The bytes up to the next newline and with it, or up to the end of the stream, and what is left
to read. A read that was interrupted is made again. -/
def nextLine (seen : Bytes) : List Arrival → Except IoFault (Bytes × List Arrival)
  | [] => .ok (seen, [])
  | .data [] :: _ => .ok (seen, [])
  | .data (b :: bytes) :: source =>
    match splitLine? (b :: bytes) with
    | some (line, _) =>
      .ok (seen ++ line ++ [newline], Arrival.afterRead (line.length + 1) (b :: bytes) source)
    | none => nextLine (seen ++ b :: bytes) source
  | .fault fault :: source =>
    if fault.kind = .interrupted then nextLine seen source else .error fault

/-- Behind a line there is no more to read than in front of it. -/
theorem totalSize_le_of_nextLine {seen line : Bytes} {source rest : List Arrival}
    (h : nextLine seen source = .ok (line, rest)) :
    Arrival.totalSize rest ≤ Arrival.totalSize source := by
  fun_induction nextLine seen source with
  | case1 | case2 =>
    obtain ⟨-, rfl⟩ := Prod.mk.inj (Except.ok.inj h)
    exact Nat.zero_le _
  | case3 seen b bytes source line _ =>
    obtain ⟨-, rfl⟩ := Prod.mk.inj (Except.ok.inj h)
    exact Nat.le_of_lt (Arrival.totalSize_afterRead_lt (Nat.succ_pos _) ..)
  | case4 seen b bytes source _ ih => exact Nat.le_trans (ih h) (Nat.le_add_left ..)
  | case5 seen fault source _ ih => exact Nat.le_trans (ih h) (Nat.le_add_left ..)
  | case6 => cases h

/-- Behind a line that has bytes there is less to read. -/
theorem totalSize_lt_of_nextLine {b : UInt8} {line : Bytes} {source rest : List Arrival}
    (h : nextLine [] source = .ok (b :: line, rest)) :
    Arrival.totalSize rest < Arrival.totalSize source := by
  have hpos : ∀ arrival : Arrival, 0 < arrival.size := by
    rintro (bytes | fault) <;> exact Nat.succ_pos _
  match source with
  | [] | .data [] :: source => cases h
  | .fault fault :: source =>
    rw [nextLine] at h
    split at h
    · exact Nat.lt_of_le_of_lt (totalSize_le_of_nextLine h) (Nat.lt_add_of_pos_left (hpos _))
    · cases h
  | .data (c :: bytes) :: source =>
    rw [nextLine] at h
    split at h
    · obtain ⟨-, rfl⟩ := Prod.mk.inj (Except.ok.inj h)
      exact Arrival.totalSize_afterRead_lt (Nat.succ_pos _) ..
    · exact Nat.lt_of_le_of_lt (totalSize_le_of_nextLine h) (Nat.lt_add_of_pos_left (hpos _))

/-- A line without the newline at its end, and without a carriage return in front of that. -/
def chop (line : List Char) : List Char :=
  if line.getLast? = some '\n' then
    if line.dropLast.getLast? = some '\r' then line.dropLast.dropLast else line.dropLast
  else line

/-- Put an entry behind those of its kind. -/
def add (file : FlatFile) : Entry → FlatFile
  | .breakpoint breakpoint => { file with breakpoints := file.breakpoints ++ [breakpoint] }
  | .watchpoint watchpoint => { file with watchpoints := file.watchpoints ++ [watchpoint] }
  | .refused error => { file with errors := file.errors ++ [error] }

/-- Read the lines of a source, with the content of those in front of them. Blank lines do not
count. -/
def readFrom (file : FlatFile) (source : List Arrival) : Except SnapshotError FlatFile :=
  match _h : nextLine [] source with
  | .error _ => .error .flatFile
  | .ok ([], _) => .ok file
  | .ok (b :: bytes, rest) =>
    match Utf8.decode? (b :: bytes) with
    | none => .error .flatFile
    | some text =>
      let line := chop text.toList
      readFrom (if Blank.isAllBlank line then file else file.add (.ofLine line)) rest
termination_by Arrival.totalSize source
decreasing_by exact totalSize_lt_of_nextLine _h

end FlatFile

/-- Add the points of flat records that are read from a source; the answer holds the errors of the
lines that were skipped. -/
def Keeper.addFrom (keeper : Keeper) (source : List Arrival) :
    Except SnapshotError (List RegistryError) × Keeper :=
  match FlatFile.readFrom {} source with
  | .ok file => (.ok file.errors, keeper.modify (·.addFlatFile file))
  | .error _ => (.error .keeperFlatFile, keeper)

end DebugLink
