import DebugLink.Snapshot.Keeper
import DebugLink.Proofs.Json.Layout
import DebugLink.Proofs.Path.Display

/-!
# Snapshots are read back

Every field of a point is written, but for a condition that there is not, so that no default stands
in for another value: a disabled breakpoint is not read as an enabled one. A snapshot can be written
to the end if its paths are texts, and is then read back from its file whatever it holds, be it the
points of a registry or not. A keeper that saves its snapshot therefore loads that snapshot again,
and so does a keeper that is made of its file.
-/

namespace DebugLink

open Json (ReadsBack)
open Json.Shape (fields?_given list?_array)
open Json.Value (given isWritten_array isWritten_given)

/-! ## Breakpoints -/

namespace Breakpoint

/-- The names of the fields, in their order. -/
def fieldNames : List String :=
  ["file", "line", "condition", "temporary", "enabled", "ignore_count"]

/-- The fields as they are written, where there may be no condition. -/
def fieldValues (breakpoint : Breakpoint) : List (Option Json.Value) :=
  [some breakpoint.file.toJson, some (.ofUInt32 breakpoint.line),
    breakpoint.condition.map .ofString, some (.bool breakpoint.temporary),
    some (.bool breakpoint.enabled), some (.ofUInt32 breakpoint.ignoreCount)]

/-- A breakpoint is written as a record. -/
theorem toJson_eq (breakpoint : Breakpoint) :
    breakpoint.toJson = .ofMembers (given (fieldNames.zip breakpoint.fieldValues)) := by
  rw [toJson, fieldValues]
  cases breakpoint.condition <;> rfl

/-- The numbers of a breakpoint are integers. -/
theorem isWritten_toJson (breakpoint : Breakpoint) : breakpoint.toJson.IsWritten := by
  rw [toJson_eq]
  refine isWritten_given fun field hfield value hvalue => ?_
  have hmem := (List.of_mem_zip hfield).2
  rw [hvalue] at hmem
  simp only [fieldValues, List.mem_cons, Option.some.injEq, List.not_mem_nil, or_false] at hmem
  rcases hmem with rfl | rfl | hcondition | rfl | rfl | rfl
  · exact breakpoint.file.isWritten_toJson
  · exact ReadsBack.uint32.written breakpoint.line
  · exact ReadsBack.text.written_optional hcondition
  · exact ReadsBack.bool.written breakpoint.temporary
  · exact ReadsBack.bool.written breakpoint.enabled
  · exact ReadsBack.uint32.written breakpoint.ignoreCount

/-- A breakpoint is written to the end if its file is a text. -/
@[simp] theorem isWhole_toJson_iff {breakpoint : Breakpoint} :
    breakpoint.toJson.IsWhole ↔ breakpoint.file.isText = true := by
  rw [toJson]
  cases breakpoint.condition <;> simp

/-- A breakpoint whose file is a text is read back, with its condition or without. -/
theorem ofJson?_toJson {breakpoint : Breakpoint} (h : breakpoint.file.isText = true) :
    ofJson? breakpoint.toJson = some breakpoint := by
  have hfields : Json.Shape.fields? fieldNames breakpoint.toJson = some breakpoint.fieldValues := by
    rw [toJson_eq]
    exact fields?_given (by decide) rfl
  rw [fieldNames, fieldValues] at hfields
  rw [ofJson?, hfields]
  simp [SourcePath.ofJson?_toJson h, ReadsBack.uint32.read, ReadsBack.bool.read,
    ReadsBack.text.read_optional nofun]

end Breakpoint

/-! ## Watchpoints -/

namespace Watchpoint

/-- A watchpoint is read back. -/
theorem readsBack : ReadsBack toJson ofJson? :=
  .record ["condition", "special", "temporary", "enabled", "ignore_count"] (by decide)
    (fun watchpoint => [some (.ofString watchpoint.condition), some (.bool watchpoint.special),
      some (.bool watchpoint.temporary), some (.bool watchpoint.enabled),
      some (.ofUInt32 watchpoint.ignoreCount)])
    (fun _ => rfl) (fun _ => rfl) (fun _ => rfl)
    (by simp [ReadsBack.text.written, ReadsBack.bool.written, ReadsBack.uint32.written])
    (by simp [ReadsBack.text.read, ReadsBack.bool.read, ReadsBack.uint32.read])

/-- A watchpoint is written to the end. -/
@[simp] theorem isWhole_toJson (watchpoint : Watchpoint) : watchpoint.toJson.IsWhole := by
  simp [toJson]

end Watchpoint

/-! ## Projects -/

namespace Project

/-- The paths of a project: its own one, and the files of its breakpoints. -/
def paths (project : Project) : List SourcePath :=
  project.path :: project.breakpoints.map Breakpoint.file

/-- The names of the fields, in their order. -/
def fieldNames : List String := ["path", "breakpoints"]

/-- The fields as they are written. -/
def fieldValues (project : Project) : List (Option Json.Value) :=
  [some project.path.toJson, some (.array (project.breakpoints.map Breakpoint.toJson))]

/-- A project is written as a record. -/
theorem toJson_eq (project : Project) :
    project.toJson = .ofMembers (given (fieldNames.zip project.fieldValues)) := rfl

/-- The numbers of a project are integers. -/
theorem isWritten_toJson (project : Project) : project.toJson.IsWritten := by
  refine Json.Value.isWritten_ofMembers fun member hmember => ?_
  simp only [List.mem_cons, List.not_mem_nil, or_false] at hmember
  rcases hmember with rfl | rfl
  · exact project.path.isWritten_toJson
  · exact isWritten_array (List.forall_mem_map.mpr fun breakpoint _ => breakpoint.isWritten_toJson)

/-- A project is written to the end if its paths are texts. -/
@[simp] theorem isWhole_toJson_iff {project : Project} :
    project.toJson.IsWhole ↔ ∀ path ∈ project.paths, path.isText = true := by
  simp [toJson, paths]

/-- A project whose paths are texts is read back, whatever files its breakpoints are of. -/
theorem ofJson?_toJson {project : Project} (h : ∀ path ∈ project.paths, path.isText = true) :
    ofJson? project.toJson = some project := by
  obtain ⟨hpath, hfiles⟩ := List.forall_mem_cons.mp h
  have hbreakpoints : Json.Shape.list? Breakpoint.ofJson?
      (.array (project.breakpoints.map Breakpoint.toJson)) = some project.breakpoints :=
    list?_array fun breakpoint hm =>
      Breakpoint.ofJson?_toJson (hfiles _ (List.mem_map_of_mem hm))
  have hfields : Json.Shape.fields? fieldNames project.toJson = some project.fieldValues := by
    rw [toJson_eq]
    exact fields?_given (by decide) rfl
  rw [fieldNames, fieldValues] at hfields
  rw [ofJson?, hfields]
  simp [SourcePath.ofJson?_toJson hpath, hbreakpoints]

end Project

/-! ## Snapshots -/

namespace Snapshot

/-- The paths of a snapshot, project by project. -/
def paths (snapshot : Snapshot) : List SourcePath := snapshot.projects.flatMap Project.paths

/-- The names of the fields, in their order. -/
def fieldNames : List String := ["version", "projects", "watchpoints", "ignored_exceptions"]

/-- The fields as they are written. -/
def fieldValues (snapshot : Snapshot) : List (Option Json.Value) :=
  [some (.ofString snapshot.version), some (.array (snapshot.projects.map Project.toJson)),
    some (.array (snapshot.watchpoints.map Watchpoint.toJson)),
    some (.array (snapshot.ignoredExceptions.map Json.Value.ofString))]

/-- A snapshot is written as a record. -/
theorem toJson_eq (snapshot : Snapshot) :
    snapshot.toJson = .ofMembers (given (fieldNames.zip snapshot.fieldValues)) := rfl

/-- The numbers of a snapshot are integers. -/
theorem isWritten_toJson (snapshot : Snapshot) : snapshot.toJson.IsWritten := by
  refine Json.Value.isWritten_ofMembers fun member hmember => ?_
  simp only [List.mem_cons, List.not_mem_nil, or_false] at hmember
  rcases hmember with rfl | rfl | rfl | rfl
  · exact ReadsBack.text.written snapshot.version
  · exact isWritten_array (List.forall_mem_map.mpr fun project _ => project.isWritten_toJson)
  · exact Watchpoint.readsBack.list.written snapshot.watchpoints
  · exact ReadsBack.text.list.written snapshot.ignoredExceptions

/-- A snapshot is written to the end if its paths are texts. -/
theorem isWhole_iff {snapshot : Snapshot} :
    snapshot.isWhole = true ↔ ∀ path ∈ snapshot.paths, path.isText = true := by
  rw [isWhole, Json.Value.isWhole_write_iff, toJson, paths, List.forall_mem_flatMap]
  simp

/-- A snapshot whose paths are texts is read back from its JSON form. -/
theorem ofJson?_toJson {snapshot : Snapshot} (h : ∀ path ∈ snapshot.paths, path.isText = true) :
    ofJson? snapshot.toJson = some snapshot := by
  rw [paths, List.forall_mem_flatMap] at h
  have hprojects : Json.Shape.list? Project.ofJson?
      (.array (snapshot.projects.map Project.toJson)) = some snapshot.projects :=
    list?_array fun project hm => Project.ofJson?_toJson (h project hm)
  have hwatchpoints := Watchpoint.readsBack.list.read snapshot.watchpoints
  have hignored := ReadsBack.text.list.read snapshot.ignoredExceptions
  have hfields : Json.Shape.fields? fieldNames snapshot.toJson = some snapshot.fieldValues := by
    rw [toJson_eq]
    exact fields?_given (by decide) rfl
  rw [fieldNames, fieldValues] at hfields
  rw [ofJson?, hfields]
  simp [ReadsBack.text.read, hprojects, hwatchpoints, hignored]

/-- A snapshot that is written to the end is read back from the octets that are written. -/
theorem ofBytes?_encode_toText {snapshot : Snapshot} (h : snapshot.isWhole = true) :
    ofBytes? (Text.Utf8.encode snapshot.toText) = some snapshot := by
  have hwhole := (Json.Value.isWhole_write_iff snapshot.toJson).mp h
  have hread := Json.Value.ofBytes?_encode_write snapshot.isWritten_toJson hwhole
  rw [ofBytes?, toText, hread]
  exact ofJson?_toJson (isWhole_iff.mp h)

/-- A snapshot that is written to the end is saved without an error, and read from the octets that
are written. -/
theorem save_of_isWhole {snapshot : Snapshot} (h : snapshot.isWhole = true) :
    snapshot.save = (.ok (), Text.Utf8.encode snapshot.toText) ∧
      read (Text.Utf8.encode snapshot.toText) = .ok snapshot := by
  rw [save, if_pos h, read, ofBytes?_encode_toText h]
  exact ⟨rfl, rfl⟩

/-- A snapshot that is not written to the end is saved with an error. -/
theorem save_of_not_isWhole {snapshot : Snapshot} (h : snapshot.isWhole ≠ true) :
    snapshot.save.1 = .error .unwritten := by
  rw [save, if_neg h]

/-- Every snapshot whose paths are texts is saved without an error and read back from the octets
that are written. No other one is saved without an error. -/
theorem read_save_iff (snapshot : Snapshot) :
    (∃ bytes, snapshot.save = (.ok (), bytes) ∧ read bytes = .ok snapshot) ↔
      ∀ path ∈ snapshot.paths, path.isText = true := by
  rw [← isWhole_iff]
  refine ⟨fun ⟨bytes, hsave, _⟩ => ?_, fun hwhole => ⟨_, save_of_isWhole hwhole⟩⟩
  by_contra hnot
  have herror := save_of_not_isWhole hnot
  rw [hsave] at herror
  cases herror

end Snapshot

namespace Keeper

/-- A keeper whose snapshot has paths that are texts saves it without an error and reads it again
from its file, and so does a keeper that is made of the file. -/
theorem reload_save {keeper : Keeper} (h : ∀ path ∈ keeper.current.paths, path.isText = true) :
    keeper.save.1 = .ok () ∧ keeper.save.2.reload = .ok keeper.save.2 ∧
      ofFile keeper.save.2.file = .ok keeper.save.2 := by
  have hwhole := Snapshot.isWhole_iff.mpr h
  have hread := Snapshot.ofBytes?_encode_toText hwhole
  rw [save, (Snapshot.save_of_isWhole hwhole).1]
  refine ⟨rfl, ?_, ?_⟩
  · rw [reload, Option.bind_eq_bind, Option.bind_some, hread]
  · rw [ofFile, hread]

end Keeper

end DebugLink
