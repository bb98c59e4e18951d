import DebugLink.Snapshot.FlatFile

/-!
# State files

A keeper holds a snapshot together with the file it comes from and goes to. A file that
is not there is made from the empty snapshot when the keeper is made, and an unreadable
file is never overwritten at that time. Saving replaces the file, also if it fails on the way.
-/

namespace DebugLink

/-- What failed while a snapshot was read or written. -/
inductive SnapshotError where
  /-- Reading a snapshot. -/
  | snapshot
  /-- Reading flat records. -/
  | flatFile
  /-- Reading the state file when the keeper is made. -/
  | keeper
  /-- Reading the state file again. -/
  | reload
  /-- Reading flat records into the snapshot of a keeper. -/
  | keeperFlatFile
  /-- Writing a snapshot. -/
  | unwritten
  /-- Writing the snapshot of a keeper to the state file. -/
  | keeperUnwritten
  deriving DecidableEq, Repr

/-- The wording of an error. -/
def SnapshotError.message : SnapshotError → String
  | snapshot => "reading debugger state"
  | flatFile => "reading legacy record"
  | keeper => "loading state file"
  | reload => "loading state"
  | keeperFlatFile => "reading legacy records"
  | unwritten => "saving debugger state"
  | keeperUnwritten => "saving state"

/-- Read a snapshot. -/
def Snapshot.read (bytes : Bytes) : Except SnapshotError Snapshot :=
  (ofBytes? bytes).elim (.error .snapshot) .ok

/-- Write a snapshot; the octets are those that have been written, also if it fails. -/
def Snapshot.save (snapshot : Snapshot) : Except SnapshotError Unit × Bytes :=
  (if snapshot.isWhole then .ok () else .error .unwritten, Text.Utf8.encode snapshot.toText)

/-- Read flat records. -/
def FlatFile.read (bytes : Bytes) : Except SnapshotError FlatFile :=
  (ofBytes? bytes).elim (.error .flatFile) .ok

/-- A snapshot with its file. -/
structure Keeper where
  /-- What the file holds, if there is one. -/
  file : Option Bytes
  /-- The snapshot. -/
  current : Snapshot
  deriving DecidableEq

namespace Keeper

/-- Write the snapshot to the file, which holds the front of it if that fails. -/
def save (keeper : Keeper) : Except SnapshotError Unit × Keeper :=
  let (result, bytes) := keeper.current.save
  (result.mapError fun _ => .keeperUnwritten, { keeper with file := some bytes })

/-- The keeper of a file, which is made if it is not there. -/
def ofFile : Option Bytes → Except SnapshotError Keeper
  | none => .ok (save { file := none, current := {} }).2
  | some bytes =>
    match Snapshot.ofBytes? bytes with
    | some current => .ok { file := some bytes, current }
    | none => .error .keeper

/-- Replace the snapshot by what the file holds. -/
def reload (keeper : Keeper) : Except SnapshotError Keeper :=
  match keeper.file >>= Snapshot.ofBytes? with
  | some current => .ok { keeper with current }
  | none => .error .reload

/-- Change the snapshot. -/
def modify (keeper : Keeper) (change : Snapshot → Snapshot) : Keeper :=
  { keeper with current := change keeper.current }

/-- Add the points of flat records; the answer holds the errors of the lines that were
skipped. -/
def addRecords (keeper : Keeper) (bytes : Bytes) :
    Except SnapshotError (List RegistryError) × Keeper :=
  match FlatFile.ofBytes? bytes with
  | some file => (.ok file.errors, keeper.modify (·.addFlatFile file))
  | none => (.error .keeperFlatFile, keeper)

end Keeper

end DebugLink
