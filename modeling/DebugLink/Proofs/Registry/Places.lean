import DebugLink.Proofs.Lines.Remembered
import DebugLink.Proofs.Registry.Operation
import Mathlib.Data.List.Find

/-!
# Breakpoints by place

Breakpoints are kept in a map. What a breakpoint is found by is a file, as it was spelled when
something was first put at its place, and a line; a breakpoint that is put at a place that is taken
keeps what is there to find it by, and is stored with its own spelling. The map that follows a
registry through its operations has its breakpoints as values, each at its own place.

A breakpoint is only taken for a line that its provider's code has, if there is code. What is
remembered of the code may be dropped at any time, and is what the provider would answer.
-/

namespace DebugLink

/-- A provider gives the same code for all spellings of a path. -/
def CodeProvider.IsConsistent (provider : CodeProvider) : Prop :=
  ∀ a b, SourcePath.same a b → provider a = provider b

/-! ## The map of breakpoints -/

/-- A breakpoint in the map, with what it is found by. -/
structure BreakpointEntry where
  /-- The file, as it was spelled when the entry was made. -/
  file : SourcePath
  /-- The line. -/
  line : UInt32
  /-- The breakpoint. -/
  breakpoint : Breakpoint
  deriving DecidableEq, Repr

/-- The place that an entry is found at. -/
def BreakpointEntry.place (entry : BreakpointEntry) : Place := .ofLine entry.file entry.line

/-- A map of breakpoints, in the order of their places. -/
abbrev BreakpointMap := List BreakpointEntry

namespace BreakpointMap

/-- The breakpoint at a line of a file. -/
def get? (map : BreakpointMap) (file : SourcePath) (line : UInt32) : Option Breakpoint :=
  (map.find? (·.place == .ofLine file line)).map BreakpointEntry.breakpoint

/-- Put a breakpoint at its place. An entry that is there is found as before. -/
def insert (breakpoint : Breakpoint) : BreakpointMap → BreakpointMap
  | [] => [⟨breakpoint.file, breakpoint.line, breakpoint⟩]
  | entry :: rest =>
    match breakpoint.place.order entry.place with
    | .lt => ⟨breakpoint.file, breakpoint.line, breakpoint⟩ :: entry :: rest
    | .eq => { entry with breakpoint } :: rest
    | .gt => entry :: insert breakpoint rest

/-- Take the breakpoint at a line of a file out. -/
def remove (map : BreakpointMap) (file : SourcePath) (line : UInt32) : BreakpointMap :=
  map.filter (·.place != .ofLine file line)

/-- Change the breakpoint at a line of a file. -/
def modify (map : BreakpointMap) (file : SourcePath) (line : UInt32)
    (change : Breakpoint → Breakpoint) : BreakpointMap :=
  map.map fun entry =>
    if entry.place == .ofLine file line then { entry with breakpoint := change entry.breakpoint }
    else entry

/-- Put a breakpoint that a registry has taken at its place. -/
def accept (map : BreakpointMap) : Except RegistryError Breakpoint → BreakpointMap
  | .ok breakpoint => map.insert breakpoint
  | .error _ => map

/-- Put the breakpoints that a registry takes, one after the other, at their places. -/
def acceptAll (map : BreakpointMap) (registry : Registry) : List Breakpoint → BreakpointMap
  | [] => map
  | breakpoint :: rest =>
    acceptAll (map.accept (registry.insertBreakpoint breakpoint).1)
      (registry.insertBreakpoint breakpoint).2 rest

/-- Let the breakpoint at a line of a file count, or take it out, as a hit has come out. -/
def afterHit (map : BreakpointMap) (file : SourcePath) (line : UInt32) : HitOutcome → BreakpointMap
  | .ignored remaining => map.modify file line ({ · with ignoreCount := remaining })
  | .stop true => map.remove file line
  | _ => map

/-- A hit that comes out otherwise leaves the map alone. -/
theorem afterHit_of_ne {outcome : HitOutcome} (map : BreakpointMap) (file : SourcePath)
    (line : UInt32) (hi : ∀ remaining, outcome ≠ .ignored remaining) (hs : outcome ≠ .stop true) :
    map.afterHit file line outcome = map := by
  cases outcome with
  | pass => rfl
  | ignored remaining => exact absurd rfl (hi remaining)
  | conditionError message report => rfl
  | stop temporary =>
    cases temporary with
    | false => rfl
    | true => exact absurd rfl hs

/-- The map behind an operation on a registry. -/
def follow {σ : Type} (map : BreakpointMap) (registry : Registry) :
    RegistryOperation σ → BreakpointMap
  | .insertBreakpoint breakpoint => map.accept (registry.insertBreakpoint breakpoint).1
  | .addBreakpoint file line condition temporary =>
    map.accept (registry.addBreakpoint file line condition temporary).1
  | .addBreakpointRecord record => map.accept (registry.addBreakpointRecord record).1
  | .removeBreakpoint file line => map.remove file line
  | .enableBreakpoint file line enabled => map.modify file line ({ · with enabled })
  | .ignoreBreakpoint file line count => map.modify file line ({ · with ignoreCount := count })
  | .hit file line evaluate memory =>
    map.afterHit file line (registry.hit file line evaluate memory).1
  | .restore snapshot => map.acceptAll registry snapshot.breakpoints
  | .clear => []
  | _ => map

/-- The map behind operations on a registry, one after the other. -/
def followAll {σ : Type} (map : BreakpointMap) (registry : Registry) :
    List (RegistryOperation σ) → BreakpointMap
  | [] => map
  | operation :: rest =>
    followAll (map.follow registry operation) (registry.perform operation) rest

end BreakpointMap

/-- A map has breakpoints as its values, each at its own place. -/
structure Places (map : BreakpointMap) (breakpoints : List Breakpoint) : Prop where
  /-- The breakpoints are the values of the map, in order. -/
  values : map.map BreakpointEntry.breakpoint = breakpoints
  /-- Each breakpoint is found at its own place. -/
  own : ∀ entry ∈ map, entry.place = entry.breakpoint.place

namespace Places

variable {map : BreakpointMap} {breakpoints : List Breakpoint}

/-- A breakpoint is put among the others at its place. -/
theorem insert (h : Places map breakpoints) (breakpoint : Breakpoint) :
    Places (map.insert breakpoint) (breakpoint.insertInto breakpoints) := by
  obtain ⟨rfl, hown⟩ := h
  induction map with
  | nil => exact ⟨rfl, List.forall_mem_singleton.mpr rfl⟩
  | cons entry rest ih =>
    obtain ⟨hentry, hrest⟩ := List.forall_mem_cons.mp hown
    have ih := ih hrest
    -- Both walks compare with the same place, so they stop at the same breakpoint.
    rw [BreakpointMap.insert, List.map_cons, Breakpoint.insertInto, ← hentry]
    cases horder : breakpoint.place.order entry.place with
    | lt => exact ⟨rfl, List.forall_mem_cons.mpr ⟨rfl, hown⟩⟩
    | eq => exact ⟨rfl, List.forall_mem_cons.mpr ⟨(Place.eq_of_order horder).symm, hrest⟩⟩
    | gt =>
      exact ⟨congrArg (entry.breakpoint :: ·) ih.values, List.forall_mem_cons.mpr ⟨hentry, ih.own⟩⟩

/-- The breakpoint of a place is taken out. -/
theorem remove (h : Places map breakpoints) (file : SourcePath) (line : UInt32) :
    Places (map.remove file line) (breakpoints.filter (·.place != .ofLine file line)) where
  values := by
    rw [← h.values, BreakpointMap.remove, List.filter_map]
    refine congrArg _ (List.filter_congr fun entry hentry => ?_)
    rw [Function.comp_apply, h.own entry hentry]
  own entry hentry := h.own entry (List.mem_of_mem_filter hentry)

/-- The breakpoint of a place is changed where it is. -/
theorem modify (h : Places map breakpoints) (file : SourcePath) (line : UInt32)
    (change : Breakpoint → Breakpoint)
    (hc : ∀ breakpoint, (change breakpoint).place = breakpoint.place) :
    Places (map.modify file line change) (breakpoints.map fun other =>
      if other.place == .ofLine file line then change other else other) where
  values := by
    rw [← h.values, BreakpointMap.modify, List.map_map, List.map_map]
    refine List.map_congr_left fun entry hentry => ?_
    rw [Function.comp_apply, Function.comp_apply, ← h.own entry hentry]
    split <;> rfl
  own entry hentry := by
    obtain ⟨old, hold, rfl⟩ := List.mem_map.mp hentry
    split
    · exact (h.own old hold).trans (hc old.breakpoint).symm
    · exact h.own old hold

/-- A breakpoint of the map is found at its place in the registry. -/
theorem get?_eq (h : Places map breakpoints) (file : SourcePath) (line : UInt32) :
    map.get? file line = breakpoints.find? (·.place == .ofLine file line) := by
  rw [← h.values, BreakpointMap.get?, List.find?_map]
  have hsame : ∀ entry ∈ map, (entry.place == .ofLine file line) =
      ((fun breakpoint : Breakpoint => breakpoint.place == .ofLine file line) ∘
        BreakpointEntry.breakpoint) entry := fun entry hentry => by
    rw [Function.comp_apply, h.own entry hentry]
  rw [List.find?_congr hsame]

/-- What a registry takes is put into the map. -/
theorem accept {registry : Registry} (h : Places map registry.breakpoints)
    (breakpoint : Breakpoint) :
    Places (map.accept (registry.insertBreakpoint breakpoint).1)
      (registry.insertBreakpoint breakpoint).2.breakpoints := by
  rcases registry.insertBreakpoint_cases breakpoint with ⟨error, changed, heq, hb, -⟩ |
    ⟨changed, heq, hb, -⟩
  · rw [heq, hb]
    exact h
  · rw [heq, hb]
    exact h.insert breakpoint

/-- What a registry takes of several breakpoints is put into the map. -/
theorem acceptAll {registry : Registry} (h : Places map registry.breakpoints)
    (list : List Breakpoint) :
    Places (map.acceptAll registry list) (list.foldl
      (fun registry breakpoint => (registry.insertBreakpoint breakpoint).2) registry).breakpoints := by
  induction list generalizing map registry with
  | nil => exact h
  | cons breakpoint list ih => exact ih (h.accept breakpoint)

end Places

namespace Registry

variable {σ : Type} {registry changed : Registry} {map : BreakpointMap}

/-- A watchpoint that is added leaves the breakpoints alone. -/
theorem sameBreakpoints_addWatchpoint (registry : Registry) (watchpoint : Watchpoint) :
    registry.SameBreakpoints (registry.addWatchpoint watchpoint).2 := by
  rw [addWatchpoint]
  split
  · exact ⟨rfl, rfl, rfl⟩
  · split <;> exact ⟨rfl, rfl, rfl⟩

/-- Watchpoints that are added one after the other leave the breakpoints alone. -/
theorem sameBreakpoints_foldl (registry : Registry) (list : List Watchpoint) :
    registry.SameBreakpoints (list.foldl
      (fun registry watchpoint => (registry.addWatchpoint watchpoint).2) registry) := by
  induction list generalizing registry with
  | nil => exact ⟨rfl, rfl, rfl⟩
  | cons watchpoint list ih =>
    exact (registry.sameBreakpoints_addWatchpoint watchpoint).trans (ih _)

/-- A watchpoint that is removed leaves the breakpoints alone. -/
theorem sameBreakpoints_removeWatchpoint (registry : Registry) (condition : String) :
    registry.SameBreakpoints (registry.removeWatchpoint condition).2 := by
  rw [removeWatchpoint]
  split <;> exact ⟨rfl, rfl, rfl⟩

/-- A watchpoint that is modified leaves the breakpoints alone. -/
theorem sameBreakpoints_modifyWatchpoint (registry : Registry) (condition : String)
    (change : Watchpoint → Watchpoint) :
    registry.SameBreakpoints (registry.modifyWatchpoint condition change).2 := by
  rw [modifyWatchpoint]
  split <;> exact ⟨rfl, rfl, rfl⟩

/-- The map that follows an operation has the breakpoints behind it as values. -/
theorem places_perform (h : Places map registry.breakpoints) (operation : RegistryOperation σ) :
    Places (map.follow registry operation) (registry.perform operation).breakpoints := by
  cases operation with
  | insertBreakpoint breakpoint => exact h.accept breakpoint
  | addBreakpoint file line condition temporary => exact h.accept _
  | addBreakpointRecord record =>
    rw [BreakpointMap.follow, perform, addBreakpointRecord]
    split
    · exact h.accept _
    · exact h
  | removeBreakpoint file line => exact h.remove file line
  | enableBreakpoint file line enabled =>
    rw [perform, enableBreakpoint, modifyBreakpoint_snd]
    exact h.modify file line ({ · with enabled }) fun _ => rfl
  | ignoreBreakpoint file line count =>
    rw [perform, ignoreBreakpoint, modifyBreakpoint_snd]
    exact h.modify file line ({ · with ignoreCount := count }) fun _ => rfl
  | hit file line evaluate memory =>
    rw [BreakpointMap.follow, perform]
    rcases registry.hit_cases file line evaluate memory with ⟨remaining, ho, hr⟩ | ⟨ho, hr⟩ |
      ⟨hi, hs, hr, -⟩
    · rw [ho, hr, ignoreBreakpoint, modifyBreakpoint_snd]
      exact h.modify file line ({ · with ignoreCount := remaining }) fun _ => rfl
    · rw [ho, hr]
      exact h.remove file line
    · rw [hr.breakpoints, BreakpointMap.afterHit_of_ne map file line hi hs]
      exact h
  | addWatchpoint watchpoint =>
    exact (registry.sameBreakpoints_addWatchpoint watchpoint).breakpoints ▸ h
  | addWatchpointRecord record =>
    rw [perform, addWatchpointRecord]
    split
    · next watchpoint _ =>
      exact (registry.sameBreakpoints_addWatchpoint watchpoint).breakpoints ▸ h
    · exact h
  | removeWatchpoint condition =>
    exact (registry.sameBreakpoints_removeWatchpoint condition).breakpoints ▸ h
  | enableWatchpoint condition enabled =>
    exact (registry.sameBreakpoints_modifyWatchpoint condition _).breakpoints ▸ h
  | ignoreWatchpoint condition count =>
    exact (registry.sameBreakpoints_modifyWatchpoint condition _).breakpoints ▸ h
  | checkWatchpoints event evaluate memory =>
    exact (checkFrom_spec event evaluate memory registry {} [] _).1.breakpoints ▸ h
  | noteError key => exact (registry.sameBreakpoints_noteError key).1.breakpoints ▸ h
  | restore snapshot =>
    rw [perform, restoreInto_snd, (sameBreakpoints_foldl _ _).breakpoints]
    exact h.acceptAll snapshot.breakpoints
  | clear => exact ⟨rfl, nofun⟩
  | invalidate file => exact h
  | forgetLines => exact h
  | setProvider provider => exact h
  | editProvider provider => exact h

/-- The map that follows a run has the breakpoints behind it as values. -/
theorem places_run (h : Places map registry.breakpoints)
    (operations : List (RegistryOperation σ)) :
    Places (map.followAll registry operations) (registry.run operations).breakpoints := by
  induction operations generalizing map registry with
  | nil => exact h
  | cons operation operations ih => exact ih (places_perform h operation)

end Registry

/-! ## Lines that can stop the program -/

namespace LineCache

variable {cache : LineCache} {provider : CodeProvider}

/-- What is remembered of a path is what the provider would answer. -/
def Agrees (cache : LineCache) (provider : CodeProvider) : Prop :=
  ∀ path lines, cache.get? path = some lines →
    (provider path).map CodeObject.breakableLines = some lines

/-- What is left to remember agrees with the provider. -/
theorem Agrees.invalidate (h : cache.Agrees provider) (path : SourcePath) :
    (cache.invalidate path).Agrees provider := by
  intro other lines hget
  rw [get?_invalidate] at hget
  split at hget
  · cases hget
  · exact h other lines hget

/-- To ask for the lines of a path gives those of the code, and what is remembered behind it agrees
with the provider, if that is consistent. -/
theorem Agrees.lines (h : cache.Agrees provider) (hc : provider.IsConsistent) (path : SourcePath) :
    (cache.lines provider path).1 = (provider path).map CodeObject.breakableLines ∧
      (cache.lines provider path).2.Agrees provider := by
  rw [LineCache.lines]
  cases hget : cache.get? path with
  | some lines => exact ⟨(h path lines hget).symm, h⟩
  | none =>
    dsimp only
    cases hcode : provider path with
    | none => exact ⟨rfl, h⟩
    | some code =>
      refine ⟨rfl, fun other lines hother => ?_⟩
      rw [get?, List.lookup_cons] at hother
      split at hother
      · next hsame =>
        rw [hc other path hsame, hcode, ← hother]
        rfl
      · exact h other lines hother

end LineCache

namespace Registry

variable {σ : Type} {registry changed : Registry} {provider : Option CodeProvider}

/-- The breakpoints are in order, and each is at a line that the provider's code has, if there is
code. What is remembered of the code agrees with the provider. -/
structure IsChecked (provider : Option CodeProvider) (registry : Registry) : Prop where
  /-- The provider is still there. -/
  kept : registry.provider = provider
  /-- What is remembered is what the provider would answer. -/
  remembered : ∀ code ∈ provider, registry.lineCache.Agrees code
  /-- The breakpoints are in strict order. -/
  sorted : Breakpoint.IsSorted registry.breakpoints
  /-- Each breakpoint is at a line that the code has. -/
  breakable : ∀ breakpoint ∈ registry.breakpoints, ∀ source ∈ provider,
    ∀ code ∈ source breakpoint.file, breakpoint.line ∈ code.breakableLines

namespace IsChecked

/-- What a registry knows about its breakpoints does not depend on anything else. -/
theorem of_sameBreakpoints (h : registry.IsChecked provider)
    (hs : registry.SameBreakpoints changed) : changed.IsChecked provider where
  kept := hs.provider.trans h.kept
  remembered := by rw [hs.lineCache]; exact h.remembered
  sorted := by rw [hs.breakpoints]; exact h.sorted
  breakable := by rw [hs.breakpoints]; exact h.breakable

/-- A line that can stop the program is one that the code has, if there is code. -/
theorem isBreakable (h : registry.IsChecked provider)
    (hc : ∀ source ∈ provider, source.IsConsistent) (file : SourcePath) (line : UInt32) :
    ((registry.isBreakable file line).1 = true → ∀ source ∈ provider, ∀ code ∈ source file,
        line ∈ code.breakableLines) ∧
      (registry.isBreakable file line).2.IsChecked provider := by
  rw [Registry.isBreakable, h.kept]
  cases provider with
  | none => exact ⟨nofun, h⟩
  | some source =>
    obtain ⟨hlines, hagrees⟩ := (h.remembered source rfl).lines (hc source rfl) file
    dsimp only
    rw [hlines]
    refine ⟨fun hall other hother code hcode => ?_, rfl, fun other hother => ?_, h.sorted,
      h.breakable⟩
    · obtain rfl := Option.some.inj hother
      rw [hcode] at hall
      simpa using hall
    · obtain rfl := Option.some.inj hother
      exact hagrees

/-- A breakpoint is taken for a line that the code has. -/
theorem insertBreakpoint (h : registry.IsChecked provider)
    (hc : ∀ source ∈ provider, source.IsConsistent) (breakpoint : Breakpoint) :
    (registry.insertBreakpoint breakpoint).2.IsChecked provider := by
  obtain ⟨hline, hasked⟩ := h.isBreakable hc breakpoint.file breakpoint.line
  rw [Registry.insertBreakpoint]
  cases hb : registry.isBreakable breakpoint.file breakpoint.line with
  | mk breakable asked =>
    rw [hb] at hline hasked
    cases breakable with
    | false => exact hasked
    | true =>
      refine ⟨hasked.kept, hasked.remembered, Breakpoint.isSorted_insertInto hasked.sorted _, ?_⟩
      intro other hother
      rcases ((Breakpoint.replaces_insertInto hasked.sorted breakpoint).mem other).mp hother with
        hnew | ⟨hold, -⟩
      · obtain rfl := Option.some.inj hnew
        exact hline rfl
      · exact hasked.breakable other hold

/-- Of breakpoints that are added one after the other, each is taken for a line that the code
has. -/
theorem foldl (h : registry.IsChecked provider)
    (hc : ∀ source ∈ provider, source.IsConsistent) (list : List Breakpoint) :
    (list.foldl (fun registry breakpoint => (registry.insertBreakpoint breakpoint).2)
      registry).IsChecked provider := by
  induction list generalizing registry with
  | nil => exact h
  | cons breakpoint list ih => exact ih (h.insertBreakpoint hc breakpoint)

/-- A breakpoint that is removed leaves the others where they are. -/
theorem removeBreakpoint (h : registry.IsChecked provider) (file : SourcePath) (line : UInt32) :
    (registry.removeBreakpoint file line).2.IsChecked provider where
  kept := h.kept
  remembered := h.remembered
  sorted := List.Pairwise.filter _ h.sorted
  breakable other hother := h.breakable other (List.mem_of_mem_filter hother)

/-- A breakpoint that is modified stays where it is. -/
theorem modifyBreakpoint (h : registry.IsChecked provider) (file : SourcePath) (line : UInt32)
    (change : Breakpoint → Breakpoint) (hfile : ∀ b, (change b).file = b.file)
    (hline : ∀ b, (change b).line = b.line) :
    (registry.modifyBreakpoint file line change).2.IsChecked provider := by
  have hplace : ∀ b, (change b).place = b.place := fun b => by
    rw [Breakpoint.place, hfile, hline, ← Breakpoint.place]
  rw [modifyBreakpoint_snd]
  refine ⟨h.kept, h.remembered,
    Breakpoint.isSorted_map h.sorted fun other => Breakpoint.apply_change_if hplace _ other,
    fun other hother => ?_⟩
  · obtain ⟨old, hold, rfl⟩ := List.mem_map.mp hother
    have hbreakable := h.breakable old hold
    split
    · rwa [hfile, hline]
    · exact hbreakable

/-- An operation that keeps the provider keeps all breakpoints at lines that the code has. -/
theorem perform (h : registry.IsChecked provider)
    (hc : ∀ source ∈ provider, source.IsConsistent) {operation : RegistryOperation σ}
    (hkeeps : operation.KeepsProvider) : (registry.perform operation).IsChecked provider := by
  cases operation with
  | insertBreakpoint breakpoint => exact h.insertBreakpoint hc breakpoint
  | addBreakpoint file line condition temporary => exact h.insertBreakpoint hc _
  | addBreakpointRecord record =>
    rw [Registry.perform, addBreakpointRecord]
    split
    · exact h.insertBreakpoint hc _
    · exact h
  | removeBreakpoint file line => exact h.removeBreakpoint file line
  | enableBreakpoint file line enabled =>
    exact h.modifyBreakpoint file line _ (fun _ => rfl) fun _ => rfl
  | ignoreBreakpoint file line count =>
    exact h.modifyBreakpoint file line _ (fun _ => rfl) fun _ => rfl
  | hit file line evaluate memory =>
    rw [Registry.perform]
    rcases registry.hit_cases file line evaluate memory with ⟨remaining, -, hr⟩ | ⟨-, hr⟩ |
      ⟨-, -, hr, -⟩
    · rw [hr]
      exact h.modifyBreakpoint file line _ (fun _ => rfl) fun _ => rfl
    · rw [hr]
      exact h.removeBreakpoint file line
    · exact h.of_sameBreakpoints hr
  | addWatchpoint watchpoint =>
    exact h.of_sameBreakpoints (registry.sameBreakpoints_addWatchpoint watchpoint)
  | addWatchpointRecord record =>
    rw [Registry.perform, addWatchpointRecord]
    split
    · exact h.of_sameBreakpoints (registry.sameBreakpoints_addWatchpoint _)
    · exact h
  | removeWatchpoint condition =>
    exact h.of_sameBreakpoints (registry.sameBreakpoints_removeWatchpoint condition)
  | enableWatchpoint condition enabled =>
    exact h.of_sameBreakpoints (registry.sameBreakpoints_modifyWatchpoint condition _)
  | ignoreWatchpoint condition count =>
    exact h.of_sameBreakpoints (registry.sameBreakpoints_modifyWatchpoint condition _)
  | checkWatchpoints event evaluate memory =>
    exact h.of_sameBreakpoints (checkFrom_spec event evaluate memory registry {} [] _).1
  | noteError key => exact h.of_sameBreakpoints (registry.sameBreakpoints_noteError key).1
  | restore snapshot =>
    rw [Registry.perform, restoreInto_snd]
    exact (h.foldl hc snapshot.breakpoints).of_sameBreakpoints (sameBreakpoints_foldl _ _)
  | clear => exact ⟨h.kept, h.remembered, List.Pairwise.nil, nofun⟩
  | invalidate file =>
    exact ⟨h.kept, fun source hs => (h.remembered source hs).invalidate file, h.sorted,
      h.breakable⟩
  | forgetLines => exact ⟨h.kept, fun _ _ _ _ hget => (nomatch hget), h.sorted, h.breakable⟩
  | setProvider provider => exact hkeeps.elim
  | editProvider provider => exact hkeeps.elim

/-- Operations that keep the provider keep all breakpoints at lines that the code has. -/
theorem run (h : registry.IsChecked provider) (hc : ∀ source ∈ provider, source.IsConsistent)
    {operations : List (RegistryOperation σ)}
    (hkeeps : ∀ operation ∈ operations, operation.KeepsProvider) :
    (registry.run operations).IsChecked provider := by
  induction operations generalizing registry with
  | nil => exact h
  | cons operation operations ih =>
    obtain ⟨hfirst, hrest⟩ := List.forall_mem_cons.mp hkeeps
    exact ih (h.perform hc hfirst) hrest

end IsChecked

/-- On each run of operations that keep a consistent provider, the map has the breakpoints as its
values, each at its own path and line. They are in the order of paths and lines, with one at a place,
and each is at a line that the code of its file has, if there is code. -/
theorem breakpoints_run (hc : ∀ source ∈ provider, source.IsConsistent)
    (operations : List (RegistryOperation σ))
    (hkeeps : ∀ operation ∈ operations, operation.KeepsProvider) :
    (BreakpointMap.followAll [] { provider } operations).map BreakpointEntry.breakpoint =
        (run { provider } operations).breakpoints ∧
      (∀ entry ∈ BreakpointMap.followAll [] { provider } operations,
        SourcePath.same entry.file entry.breakpoint.file ∧ entry.line = entry.breakpoint.line) ∧
      (∀ file line, (BreakpointMap.followAll [] { provider } operations).get? file line =
        (run { provider } operations).breakpoint? file line) ∧
      (run { provider } operations).breakpoints.Pairwise (fun a b =>
        (compare (SourcePath.key a.file) (SourcePath.key b.file)).then (compare a.line b.line) =
          .lt) ∧
      (run { provider } operations).breakpoints.Pairwise (fun a b =>
        ¬ (SourcePath.same a.file b.file ∧ a.line = b.line)) ∧
      ∀ breakpoint ∈ (run { provider } operations).breakpoints, ∀ source ∈ provider,
        ∀ code ∈ source breakpoint.file, breakpoint.line ∈ code.breakableLines := by
  have hempty : Places [] (Registry.breakpoints { provider }) := ⟨rfl, nofun⟩
  have hplaces := places_run hempty operations
  have hstart : IsChecked provider { provider } :=
    ⟨rfl, fun _ _ _ _ hget => (nomatch hget), List.Pairwise.nil, nofun⟩
  have hchecked := hstart.run hc hkeeps
  refine ⟨hplaces.values, fun entry hentry => ?_, fun file line => hplaces.get?_eq file line,
    hchecked.sorted, ?_, hchecked.breakable⟩
  · have hplace := hplaces.own entry hentry
    rw [BreakpointEntry.place, Breakpoint.place, Place.ofLine, Place.ofLine, Place.mk.injEq]
      at hplace
    exact ⟨beq_iff_eq.mpr hplace.1, hplace.2⟩
  · have hdiffer : ∀ {a b : Breakpoint}, a.place.order b.place = .lt →
        ¬ (SourcePath.same a.file b.file ∧ a.line = b.line) := by
      intro a b hab hsame
      refine Place.ne_of_order hab ?_
      rw [Breakpoint.place, Breakpoint.place, Place.ofLine, Place.ofLine,
        beq_iff_eq.mp hsame.1, hsame.2]
    exact hchecked.sorted.imp hdiffer

/-- The code of a file whose first two lines can stop the program, however it is spelled. -/
def twoLines : CodeProvider := fun path =>
  if SourcePath.same path "src/main.py" then some (.unit 1 [(2, 1)] []) else none

/-- Operations that put two breakpoints at one place, and try one at a line without code. -/
def spelledTwice : List (RegistryOperation Unit) :=
  [.insertBreakpoint ⟨"src//main.py", 2, none, false, true, 0⟩, .invalidate "src/main.py",
    .addBreakpoint "src/main.py" 7 none false, .addBreakpoint "src/main.py" 2 none true]

/-- Two spellings of a path are one place. What is found there keeps the first spelling to be found
by, and has its own. A line without code is refused. -/
theorem breakpoints_run_spelledTwice :
    BreakpointMap.followAll [] { provider := some twoLines } spelledTwice =
        [⟨"src//main.py", 2, ⟨"src/main.py", 2, none, true, true, 0⟩⟩] ∧
      (run { provider := some twoLines } spelledTwice).breakpoints =
        [⟨"src/main.py", 2, none, true, true, 0⟩] ∧
      SourcePath.same "src//main.py" "src/main.py" ∧
      ∀ code ∈ twoLines "src/main.py", 2 ∈ code.breakableLines := by
  have hc : ∀ source ∈ some twoLines, source.IsConsistent := by
    intro source hsource a b hab
    obtain rfl := Option.some.inj hsource
    rw [twoLines, twoLines, SourcePath.same, SourcePath.same, beq_iff_eq.mp hab]
  have hmap : BreakpointMap.followAll [] { provider := some twoLines } spelledTwice =
      [⟨"src//main.py", 2, ⟨"src/main.py", 2, none, true, true, 0⟩⟩] := by decide +kernel
  obtain ⟨hvalues, hown, -, -, -, hbreakable⟩ := breakpoints_run hc spelledTwice
    (by simp [spelledTwice, RegistryOperation.KeepsProvider])
  rw [hmap] at hvalues hown
  rw [← hvalues] at hbreakable
  exact ⟨hmap, hvalues.symm, (hown _ List.mem_cons_self).1,
    hbreakable _ List.mem_cons_self twoLines rfl⟩

end Registry

end DebugLink
