import DebugLink.Snapshot
import DebugLink.Proofs.Registry.Change

/-!
# Runs of registry operations

All that can be done to a registry, one operation after the other. Each operation is told by what it
does to the breakpoints, with the code they are checked against, and to the conditions of the
watchpoints. A hit lowers an ignore count or removes a breakpoint, as these operations do, or it
leaves the points alone; to check the watchpoints leaves their conditions in order.
-/

namespace DebugLink

/-- An operation on a registry. Conditions are evaluated with a memory. -/
inductive RegistryOperation (σ : Type) where
  /-- Add a breakpoint, in place of one at the same place. -/
  | insertBreakpoint (breakpoint : Breakpoint)
  /-- Add an enabled breakpoint. -/
  | addBreakpoint (file : SourcePath) (line : UInt32) (condition : Option String) (temporary : Bool)
  /-- Add the breakpoint of a flat record. -/
  | addBreakpointRecord (record : String)
  /-- Remove the breakpoint at a line of a file. -/
  | removeBreakpoint (file : SourcePath) (line : UInt32)
  /-- Enable or disable a breakpoint. -/
  | enableBreakpoint (file : SourcePath) (line : UInt32) (enabled : Bool)
  /-- Let a breakpoint only count so many times. -/
  | ignoreBreakpoint (file : SourcePath) (line count : UInt32)
  /-- Reach a line of a file. -/
  | hit (file : SourcePath) (line : UInt32) (evaluate : Evaluator σ) (memory : σ)
  /-- Add a watchpoint. -/
  | addWatchpoint (watchpoint : Watchpoint)
  /-- Add the watchpoint of a flat record. -/
  | addWatchpointRecord (record : String)
  /-- Remove the watchpoint of a condition. -/
  | removeWatchpoint (condition : String)
  /-- Enable or disable a watchpoint. -/
  | enableWatchpoint (condition : String) (enabled : Bool)
  /-- Let a watchpoint only count so many times. -/
  | ignoreWatchpoint (condition : String) (count : UInt32)
  /-- Check the watchpoints on an event. -/
  | checkWatchpoints (event : TraceEvent) (evaluate : Evaluator σ) (memory : σ)
  /-- Note a condition error of a point. -/
  | noteError (key : PointKey)
  /-- Add all points of a snapshot. -/
  | restore (snapshot : Snapshot)
  /-- Remove all points. -/
  | clear
  /-- Forget the remembered lines of a file. -/
  | invalidate (file : SourcePath)
  /-- Forget all remembered lines. -/
  | forgetLines
  /-- Install a provider. -/
  | setProvider (provider : CodeProvider)
  /-- Let the installed provider answer differently. -/
  | editProvider (provider : CodeProvider)

namespace RegistryOperation

variable {σ : Type}

/-- The provider is the same behind the operation, and answers as it did. -/
def KeepsProvider : RegistryOperation σ → Prop
  | setProvider _ | editProvider _ => False
  | _ => True

/-- The conditions of the watchpoints that an operation offers to the registry. -/
def offered : RegistryOperation σ → List String
  | addWatchpoint watchpoint => [watchpoint.condition]
  | addWatchpointRecord record =>
    match Watchpoint.ofRecord record with
    | .ok watchpoint => [watchpoint.condition]
    | .error _ => []
  | restore snapshot => snapshot.watchpoints.map Watchpoint.condition
  | _ => []

end RegistryOperation

namespace Registry

variable {σ : Type} {registry changed other : Registry}

/-- The registry behind an operation. -/
def perform (registry : Registry) : RegistryOperation σ → Registry
  | .insertBreakpoint breakpoint => (registry.insertBreakpoint breakpoint).2
  | .addBreakpoint file line condition temporary =>
    (registry.addBreakpoint file line condition temporary).2
  | .addBreakpointRecord record => (registry.addBreakpointRecord record).2
  | .removeBreakpoint file line => (registry.removeBreakpoint file line).2
  | .enableBreakpoint file line enabled => (registry.enableBreakpoint file line enabled).2
  | .ignoreBreakpoint file line count => (registry.ignoreBreakpoint file line count).2
  | .hit file line evaluate memory => (registry.hit file line evaluate memory).2.1
  | .addWatchpoint watchpoint => (registry.addWatchpoint watchpoint).2
  | .addWatchpointRecord record => (registry.addWatchpointRecord record).2
  | .removeWatchpoint condition => (registry.removeWatchpoint condition).2
  | .enableWatchpoint condition enabled => (registry.enableWatchpoint condition enabled).2
  | .ignoreWatchpoint condition count => (registry.ignoreWatchpoint condition count).2
  | .checkWatchpoints event evaluate memory => (registry.checkWatchpoints event evaluate memory).2.1
  | .noteError key => (registry.noteError key).2
  | .restore snapshot => (snapshot.restoreInto registry).2
  | .clear => registry.clear
  | .invalidate file => registry.invalidate file
  | .forgetLines => { registry with lineCache := registry.lineCache.clear }
  | .setProvider provider => registry.setProvider provider
  | .editProvider provider => registry.editProvider provider

/-- The registry behind operations, one after the other. -/
def run (registry : Registry) (operations : List (RegistryOperation σ)) : Registry :=
  operations.foldl perform registry

/-- The conditions of the watchpoints, in the order they were added. -/
def conditions (registry : Registry) : List String :=
  registry.watchpoints.map Watchpoint.condition

/-- Registries with the same breakpoints, and with the same code to check them against. -/
structure SameBreakpoints (registry changed : Registry) : Prop where
  /-- The breakpoints are the same. -/
  breakpoints : changed.breakpoints = registry.breakpoints
  /-- The provider is the same. -/
  provider : changed.provider = registry.provider
  /-- The same lines are remembered. -/
  lineCache : changed.lineCache = registry.lineCache

/-- Nothing about the breakpoints changes in two steps of which neither changes it. -/
theorem SameBreakpoints.trans (h : registry.SameBreakpoints changed)
    (h' : changed.SameBreakpoints other) : registry.SameBreakpoints other where
  breakpoints := h'.breakpoints.trans h.breakpoints
  provider := h'.provider.trans h.provider
  lineCache := h'.lineCache.trans h.lineCache

/-! ## What single operations do -/

/-- To note an error changes no point. -/
theorem sameBreakpoints_noteError (registry : Registry) (key : PointKey) :
    registry.SameBreakpoints (registry.noteError key).2 ∧
      (registry.noteError key).2.watchpoints = registry.watchpoints := by
  rw [noteError]
  split <;> exact ⟨⟨rfl, rfl, rfl⟩, rfl⟩

/-- A breakpoint that is added leaves the watchpoints alone. -/
theorem watchpoints_insertBreakpoint (registry : Registry) (breakpoint : Breakpoint) :
    (registry.insertBreakpoint breakpoint).2.watchpoints = registry.watchpoints := by
  rcases registry.insertBreakpoint_cases breakpoint with ⟨_, changed, h, -, hw⟩ |
    ⟨changed, h, -, hw, -⟩ <;> rw [h, hw]

/-- A hit lowers an ignore count or removes a breakpoint, as its outcome says, or it leaves the
points alone. -/
theorem hit_cases (registry : Registry) (file : SourcePath) (line : UInt32) (evaluate : Evaluator σ)
    (memory : σ) :
    (∃ remaining, (registry.hit file line evaluate memory).1 = .ignored remaining ∧
      (registry.hit file line evaluate memory).2.1 =
        (registry.ignoreBreakpoint file line remaining).2) ∨
    ((registry.hit file line evaluate memory).1 = .stop true ∧
      (registry.hit file line evaluate memory).2.1 = (registry.removeBreakpoint file line).2) ∨
    ((∀ remaining, (registry.hit file line evaluate memory).1 ≠ .ignored remaining) ∧
      (registry.hit file line evaluate memory).1 ≠ .stop true ∧
      registry.SameBreakpoints (registry.hit file line evaluate memory).2.1 ∧
      (registry.hit file line evaluate memory).2.1.watchpoints = registry.watchpoints) := by
  have hsame : registry.SameBreakpoints registry := ⟨rfl, rfl, rfl⟩
  rw [hit]
  cases hfound : registry.breakpoint? file line with
  | none => exact .inr (.inr ⟨nofun, nofun, hsame, rfl⟩)
  | some breakpoint =>
    dsimp only
    split
    · exact .inr (.inr ⟨nofun, nofun, hsame, rfl⟩)
    · split
      · exact .inr (.inr ⟨nofun, nofun, hsame, rfl⟩)
      · have hnoted := registry.sameBreakpoints_noteError (.breakpoint (.ofLine file line))
        exact .inr (.inr ⟨nofun, nofun, hnoted.1, hnoted.2⟩)
      · split
        · exact .inl ⟨_, rfl, rfl⟩
        · split
          · exact .inr (.inl ⟨rfl, rfl⟩)
          · exact .inr (.inr ⟨nofun, by simp, hsame, rfl⟩)

/-- To remove a breakpoint leaves the watchpoints, and the code, alone. -/
theorem removeBreakpoint_snd (registry : Registry) (file : SourcePath) (line : UInt32) :
    (registry.removeBreakpoint file line).2 =
      { registry with
        breakpoints := registry.breakpoints.filter (·.place != .ofLine file line)
        reported := (registry.forgetError (.breakpoint (.ofLine file line))).reported } := rfl

/-- A breakpoint that is not there is not changed. -/
theorem modifyBreakpoint_snd (registry : Registry) (file : SourcePath) (line : UInt32)
    (change : Breakpoint → Breakpoint) :
    (registry.modifyBreakpoint file line change).2 =
      { registry with
        breakpoints := registry.breakpoints.map fun other =>
          if other.place == .ofLine file line then change other else other } := by
  rw [modifyBreakpoint]
  cases hfound : registry.breakpoint? file line with
  | none =>
    rw [breakpoint?, List.find?_eq_none] at hfound
    have hsame : (registry.breakpoints.map fun other =>
        if other.place == .ofLine file line then change other else other) =
          registry.breakpoints := by
      refine (List.map_congr_left fun other hm => ?_).trans (List.map_id _)
      exact if_neg (hfound other hm)
    rw [hsame]
  | some breakpoint => rfl

/-- To check the watchpoints leaves the breakpoints alone, and the conditions in their order: those of
the watchpoints that have been checked, and of those that are left. -/
theorem checkFrom_spec (event : TraceEvent) (evaluate : Evaluator σ) (memory : σ)
    (registry : Registry) (outcome : WatchOutcome) (checked list : List Watchpoint) :
    registry.SameBreakpoints
        (checkFrom event evaluate memory registry outcome checked list).2.1 ∧
      (checkFrom event evaluate memory registry outcome checked list).2.1.conditions.Sublist
        ((checked.reverse ++ list).map Watchpoint.condition) := by
  induction list generalizing memory registry outcome checked with
  | nil =>
    rw [checkFrom, List.append_nil]
    exact ⟨⟨rfl, rfl, rfl⟩, List.Sublist.refl _⟩
  | cons watchpoint rest ih =>
    -- Behind a watchpoint that stays, those checked and those left are what they were.
    have hnext : ∀ kept : Watchpoint, kept.condition = watchpoint.condition →
        ((kept :: checked).reverse ++ rest).map Watchpoint.condition =
          (checked.reverse ++ watchpoint :: rest).map Watchpoint.condition := fun kept hkept => by
      simp [hkept]
    rw [checkFrom]
    split
    · rw [← hnext watchpoint rfl]
      exact ih memory registry outcome (watchpoint :: checked)
    · dsimp only
      split
      · rw [← hnext watchpoint rfl]
        exact ih _ registry outcome (watchpoint :: checked)
      · rw [← hnext watchpoint rfl]
        have hnoted := (registry.sameBreakpoints_noteError (.watchpoint watchpoint.condition)).1
        have hrest := ih (evaluate watchpoint.condition memory).2
          (registry.noteError (.watchpoint watchpoint.condition)).2
        exact ⟨hnoted.trans (hrest _ _).1, (hrest _ _).2⟩
      · split
        · rw [← hnext { watchpoint with ignoreCount := watchpoint.ignoreCount - 1 } rfl]
          exact ih _ registry outcome _
        · refine ⟨⟨rfl, rfl, rfl⟩, List.Sublist.map _ ?_⟩
          refine (List.Sublist.refl _).append ?_
          split
          · exact List.sublist_cons_self _ _
          · exact List.Sublist.refl _

/-- Points are added one after the other. -/
theorem addAll_snd {α : Type} (add : Registry → α → Except RegistryError α × Registry)
    (registry : Registry) (points : List α) :
    (Snapshot.addAll add registry points).2 =
      points.foldl (fun registry point => (add registry point).2) registry := by
  induction points generalizing registry with
  | nil => rfl
  | cons point points ih =>
    rw [List.foldl_cons, ← ih, Snapshot.addAll]
    dsimp only
    split <;> rfl

/-- A snapshot adds its breakpoints one after the other, and then its watchpoints. -/
theorem restoreInto_snd (snapshot : Snapshot) (registry : Registry) :
    (snapshot.restoreInto registry).2 =
      snapshot.watchpoints.foldl (fun registry watchpoint => (registry.addWatchpoint watchpoint).2)
        (snapshot.breakpoints.foldl
          (fun registry breakpoint => (registry.insertBreakpoint breakpoint).2) registry) := by
  rw [← addAll_snd, ← addAll_snd]
  rfl

end Registry

end DebugLink
