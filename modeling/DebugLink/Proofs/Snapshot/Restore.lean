import DebugLink.Proofs.Registry.Listing
import DebugLink.Proofs.Snapshot.ReadBack

/-!
# Registries are restored from what is recorded

A snapshot groups the breakpoints of a registry by file, and a registry lists them by path and
line, so that the groups, one after the other, are the list again. The watchpoints are recorded as
they are listed. A registry takes a watchpoint only if none of those it has is found by its
condition, and what it has later on is what is left of those it took, in their order; so an empty
registry takes them all again. Hence whatever was done to a registry, its points are restored
without an error.
-/

namespace DebugLink

open SourcePath (key)
open Text.Blank (isAllBlank)
open Watchpoint (conditionOfWire)

/-! ## Breakpoints by file -/

namespace Project

variable {list projects : List Project} {breakpoints : List Breakpoint} {breakpoint : Breakpoint}

/-- Projects in the order of their paths. -/
def AreOrdered (projects : List Project) : Prop :=
  (projects.map path).Pairwise fun a b => compare (key a) (key b) = .lt

/-- A breakpoint that belongs in front of no project comes behind all projects, in a new one, or
behind the breakpoints of the last one. -/
theorem groupInto_cases (ho : AreOrdered projects)
    (hb : ∀ name ∈ projects.map path, compare (key breakpoint.file) (key name) ≠ .lt) :
    (groupInto breakpoint projects = projects ++ [⟨breakpoint.file, [breakpoint]⟩] ∧
      ∀ name ∈ projects.map path, compare (key name) (key breakpoint.file) = .lt) ∨
    ∃ front last, projects = front ++ [last] ∧ groupInto breakpoint projects =
      front ++ [{ last with breakpoints := last.breakpoints ++ [breakpoint] }] := by
  induction projects with
  | nil => exact .inl ⟨rfl, nofun⟩
  | cons project rest ih =>
    obtain ⟨hproject, hrest⟩ := List.pairwise_cons.mp ho
    obtain ⟨hfirst, hothers⟩ := List.forall_mem_cons.mp hb
    rw [groupInto]
    cases hc : compare (key breakpoint.file) (key project.path) with
    | lt => exact absurd hc hfirst
    | eq =>
      cases rest with
      | nil => exact .inr ⟨[], project, rfl, rfl⟩
      | cons next rest =>
        have hlt := Std.TransCmp.lt_of_eq_of_lt hc (hproject next.path List.mem_cons_self)
        exact absurd hlt (hothers next.path List.mem_cons_self)
    | gt =>
      rcases ih hrest hothers with ⟨hnew, hpaths⟩ | ⟨front, last, hprojects, hlast⟩
      · refine .inl ⟨by rw [hnew]; rfl, List.forall_mem_cons.mpr ⟨?_, hpaths⟩⟩
        exact Std.OrientedCmp.gt_iff_lt.mp hc
      · exact .inr ⟨project :: front, last, by rw [hprojects]; rfl, by rw [hlast]; rfl⟩

/-- Projects hold breakpoints in their order, grouped by file. -/
structure Group (breakpoints : List Breakpoint) (projects : List Project) : Prop where
  /-- The projects are in the order of their paths. -/
  ordered : AreOrdered projects
  /-- Project by project, the breakpoints are in their order. -/
  breakpoints_eq : projects.flatMap Project.breakpoints = breakpoints
  /-- A path is spelled as the file of a breakpoint is. -/
  spelled : ∀ name ∈ projects.map path, ∃ breakpoint ∈ breakpoints, breakpoint.file = name

/-- A breakpoint behind all others is grouped behind them. -/
theorem Group.groupInto (h : Group breakpoints projects)
    (hb : ∀ other ∈ breakpoints, other.place.order breakpoint.place = .lt) :
    Group (breakpoints ++ [breakpoint]) (Project.groupInto breakpoint projects) := by
  have hnot : ∀ name ∈ projects.map path,
      compare (key breakpoint.file) (key name) ≠ .lt := by
    intro name hname hlt
    obtain ⟨other, hother, hfile⟩ := h.spelled name hname
    rw [← hfile, ← Std.OrientedCmp.gt_iff_lt] at hlt
    have horder : other.place.order breakpoint.place = .gt :=
      Ordering.then_eq_gt.mpr (.inl hlt)
    rw [hb other hother] at horder
    cases horder
  -- The file of a breakpoint that was there is still the file of one.
  have hspelled : ∀ name ∈ projects.map path,
      ∃ other ∈ breakpoints ++ [breakpoint], other.file = name := by
    intro name hname
    obtain ⟨other, hother, hfile⟩ := h.spelled name hname
    exact ⟨other, List.mem_append_left _ hother, hfile⟩
  rcases groupInto_cases h.ordered hnot with ⟨hnew, hpaths⟩ | ⟨front, last, hprojects, hlast⟩
  · rw [hnew]
    refine ⟨?_, by rw [List.flatMap_append, h.breakpoints_eq]; rfl, ?_⟩
    · rw [AreOrdered, List.map_append]
      refine List.pairwise_append.mpr ⟨h.ordered, List.pairwise_singleton _ _, ?_⟩
      exact fun name hname => List.forall_mem_singleton.mpr (hpaths name hname)
    · rw [List.map_append]
      refine List.forall_mem_append.mpr ⟨hspelled, List.forall_mem_singleton.mpr ?_⟩
      exact ⟨breakpoint, List.mem_append_right _ List.mem_cons_self, rfl⟩
  · have hmap : (Project.groupInto breakpoint projects).map path = projects.map path := by
      rw [hlast, hprojects, List.map_append, List.map_append]
      rfl
    refine ⟨by rw [AreOrdered, hmap]; exact h.ordered, ?_, by rw [hmap]; exact hspelled⟩
    rw [hlast, ← h.breakpoints_eq, hprojects]
    simp

/-- Sorted breakpoints are grouped one behind the other. -/
theorem Group.foldl (h : Group breakpoints projects) {more : List Breakpoint}
    (hs : Breakpoint.IsSorted (breakpoints ++ more)) :
    Group (breakpoints ++ more)
      (more.foldl (fun projects breakpoint => Project.groupInto breakpoint projects) projects) := by
  induction more generalizing breakpoints projects with
  | nil => rwa [List.append_nil]
  | cons breakpoint more ih =>
    obtain ⟨-, -, hlt⟩ := List.pairwise_append.mp hs
    rw [List.append_cons] at hs ⊢
    have hnext := h.groupInto fun other hother => hlt other hother breakpoint List.mem_cons_self
    exact ih hnext hs

end Project

namespace Snapshot

variable {breakpoints : List Breakpoint}

/-- Breakpoints that were sorted are recorded by file. -/
theorem group_record (snapshot : Snapshot) (hs : Breakpoint.IsSorted breakpoints)
    (watchpoints : List Watchpoint) (ignoredExceptions : List String) :
    Project.Group breakpoints
      (snapshot.record breakpoints watchpoints ignoredExceptions).projects := by
  have hnone : Project.Group [] [] := ⟨List.Pairwise.nil, rfl, nofun⟩
  exact hnone.foldl hs

/-- Recorded breakpoints are listed as they were, if they were sorted. -/
theorem breakpoints_record (snapshot : Snapshot) (hs : Breakpoint.IsSorted breakpoints)
    (watchpoints : List Watchpoint) (ignoredExceptions : List String) :
    (snapshot.record breakpoints watchpoints ignoredExceptions).breakpoints = breakpoints :=
  (snapshot.group_record hs watchpoints ignoredExceptions).breakpoints_eq

/-- What is recorded of sorted breakpoints is written to the end if their files are texts. -/
theorem isWhole_record_iff (snapshot : Snapshot) (hs : Breakpoint.IsSorted breakpoints)
    (watchpoints : List Watchpoint) (ignoredExceptions : List String) :
    (snapshot.record breakpoints watchpoints ignoredExceptions).isWhole = true ↔
      ∀ breakpoint ∈ breakpoints, breakpoint.file.isText = true := by
  have hgroup := snapshot.group_record hs watchpoints ignoredExceptions
  rw [isWhole_iff, paths, List.forall_mem_flatMap]
  constructor
  · intro h breakpoint hm
    rw [← hgroup.breakpoints_eq] at hm
    obtain ⟨project, hproject, hmem⟩ := List.mem_flatMap.mp hm
    exact h project hproject _ (List.mem_cons_of_mem _ (List.mem_map_of_mem hmem))
  · intro h project hproject
    refine List.forall_mem_cons.mpr ⟨?_, List.forall_mem_map.mpr fun breakpoint hm => ?_⟩
    · obtain ⟨breakpoint, hm, hfile⟩ := hgroup.spelled _ (List.mem_map_of_mem hproject)
      rw [← hfile]
      exact h breakpoint hm
    · refine h breakpoint ?_
      rw [← hgroup.breakpoints_eq]
      exact List.mem_flatMap.mpr ⟨project, hproject, hm⟩

end Snapshot

/-- A breakpoint behind all others is put behind them. -/
theorem Breakpoint.insertInto_of_forall {breakpoint : Breakpoint} {list : List Breakpoint}
    (h : ∀ other ∈ list, other.place.order breakpoint.place = .lt) :
    breakpoint.insertInto list = list ++ [breakpoint] := by
  induction list with
  | nil => rfl
  | cons other rest ih =>
    obtain ⟨hother, hrest⟩ := List.forall_mem_cons.mp h
    have horder : breakpoint.place.order other.place = .gt := Std.OrientedCmp.gt_iff_lt.mpr hother
    rw [insertInto, horder]
    dsimp only
    rw [ih hrest]
    rfl

namespace Registry

variable {watchpoints : List Watchpoint}

/-- A registry without a provider takes sorted breakpoints as they are. -/
theorem addAll_insertBreakpoint {breakpoints more : List Breakpoint}
    (hs : Breakpoint.IsSorted (breakpoints ++ more)) :
    Snapshot.addAll insertBreakpoint { breakpoints, watchpoints } more =
      ([], { breakpoints := breakpoints ++ more, watchpoints }) := by
  induction more generalizing breakpoints with
  | nil => rw [List.append_nil, Snapshot.addAll]
  | cons breakpoint more ih =>
    obtain ⟨-, -, hlt⟩ := List.pairwise_append.mp hs
    have hinsert : insertBreakpoint { breakpoints, watchpoints } breakpoint =
        (.ok breakpoint, { breakpoints := breakpoints ++ [breakpoint], watchpoints }) := by
      rw [← Breakpoint.insertInto_of_forall fun other hother =>
        hlt other hother breakpoint List.mem_cons_self]
      rfl
    rw [List.append_cons] at hs ⊢
    rw [Snapshot.addAll, hinsert]
    dsimp only
    rw [ih hs]

end Registry

/-! ## Watchpoints in their order -/

/-- Conditions that a registry takes one after the other: none is blank, and none is found by one
behind it. -/
structure Watchpoint.AreTaken (conditions : List String) : Prop where
  /-- No condition is blank. -/
  filled : ∀ condition ∈ conditions, isAllBlank condition.toList = false
  /-- No condition is found by one behind it. -/
  isNew : conditions.Pairwise fun earlier later => earlier ≠ conditionOfWire later

namespace Watchpoint.AreTaken

variable {conditions fewer : List String} {condition : String}

/-- Conditions may be dropped. -/
theorem sublist (h : AreTaken conditions) (hs : fewer.Sublist conditions) : AreTaken fewer where
  filled condition hm := h.filled condition (hs.subset hm)
  isNew := h.isNew.sublist hs

/-- A condition that none is found by is taken behind the others. -/
theorem concat (h : AreTaken conditions) (hf : isAllBlank condition.toList = false)
    (hn : conditionOfWire condition ∉ conditions) : AreTaken (conditions ++ [condition]) where
  filled := List.forall_mem_append.mpr ⟨h.filled, List.forall_mem_singleton.mpr hf⟩
  isNew := by
    refine List.pairwise_append.mpr ⟨h.isNew, List.pairwise_singleton _ _, ?_⟩
    exact fun earlier hm => List.forall_mem_singleton.mpr fun heq => hn (heq ▸ hm)

end Watchpoint.AreTaken

namespace Registry

open Watchpoint (AreTaken)

variable {σ : Type} {registry : Registry}

/-- A watchpoint is found by a condition if there is one that the condition names. -/
theorem isSome_watchpoint?_iff (registry : Registry) (condition : String) :
    (registry.watchpoint? condition).isSome = true ↔
      conditionOfWire condition ∈ registry.conditions := by
  simp [watchpoint?, conditions, List.find?_isSome]

/-- A watchpoint is taken behind the others if it has a condition by which none of them is found. -/
theorem addWatchpoint_of_notMem {watchpoint : Watchpoint}
    (hf : isAllBlank watchpoint.condition.toList = false)
    (hn : conditionOfWire watchpoint.condition ∉ registry.conditions) :
    registry.addWatchpoint watchpoint = (.ok watchpoint,
      { registry.forgetError (.watchpoint watchpoint.condition) with
        watchpoints := registry.watchpoints ++ [watchpoint] }) := by
  rw [← isSome_watchpoint?_iff] at hn
  rw [addWatchpoint, Watchpoint.isValid, hf, if_neg (by decide), if_neg hn]
  rfl

/-- Whether a watchpoint is taken or refused, conditions that are taken stay so. -/
theorem areTaken_addWatchpoint (h : AreTaken registry.conditions) (watchpoint : Watchpoint) :
    AreTaken (registry.addWatchpoint watchpoint).2.conditions := by
  rw [addWatchpoint]
  split
  · exact h
  · next hvalid =>
    split
    · exact h
    · next hfound =>
      rw [isSome_watchpoint?_iff] at hfound
      rw [Watchpoint.isValid, Bool.not_not, Bool.not_eq_true] at hvalid
      have hconcat := h.concat hvalid hfound
      rwa [conditions, ← List.map_singleton, ← List.map_append] at hconcat

/-- An operation that offers no condition leaves conditions that are taken. -/
theorem areTaken_of_offered_eq_nil (h : AreTaken registry.conditions)
    {operation : RegistryOperation σ} (hn : operation.offered = []) :
    AreTaken (registry.perform operation).conditions := by
  have hfollows := (registry.follows_perform operation).sublist
  rw [hn, List.append_nil] at hfollows
  exact h.sublist hfollows

/-- Conditions stay ones that are taken in several steps if they do so in each. -/
theorem areTaken_foldl {α : Type} {step : Registry → α → Registry}
    (hstep : ∀ {registry : Registry}, AreTaken registry.conditions →
      ∀ a, AreTaken (step registry a).conditions)
    (h : AreTaken registry.conditions) (list : List α) :
    AreTaken (list.foldl step registry).conditions := by
  induction list generalizing registry with
  | nil => exact h
  | cons a list ih => exact ih (hstep h a)

/-- Behind an operation, the conditions are taken if they were in front of it. -/
theorem areTaken_perform (h : AreTaken registry.conditions) (operation : RegistryOperation σ) :
    AreTaken (registry.perform operation).conditions := by
  cases operation with
  | addWatchpoint watchpoint => exact areTaken_addWatchpoint h watchpoint
  | addWatchpointRecord record =>
    rw [perform, addWatchpointRecord]
    split
    · exact areTaken_addWatchpoint h _
    · exact h
  | restore snapshot =>
    rw [perform, restoreInto_snd]
    refine areTaken_foldl areTaken_addWatchpoint (areTaken_foldl ?_ h _) _
    intro registry h breakpoint
    rwa [conditions, watchpoints_insertBreakpoint]
  | _ => exact areTaken_of_offered_eq_nil h rfl

/-- Behind operations on an empty registry, an empty registry would take the conditions again. -/
theorem areTaken_run (provider : Option CodeProvider) (operations : List (RegistryOperation σ)) :
    AreTaken (run { provider } operations).conditions := by
  have hnone : AreTaken [] := ⟨fun _ hm => absurd hm List.not_mem_nil, List.Pairwise.nil⟩
  have hempty : AreTaken (conditions { provider }) := hnone
  exact areTaken_foldl areTaken_perform hempty operations

/-- Behind operations on an empty registry, the breakpoints are sorted. -/
theorem isSorted_run (provider : Option CodeProvider) (operations : List (RegistryOperation σ)) :
    Breakpoint.IsSorted (run { provider } operations).breakpoints :=
  (edits_run { provider } operations).isSorted List.Pairwise.nil

/-- A registry in which no error is reported takes watchpoints as they are, if their conditions are
taken one after the other. -/
theorem addAll_addWatchpoint {breakpoints : List Breakpoint} {watchpoints more : List Watchpoint}
    (h : AreTaken ((watchpoints ++ more).map Watchpoint.condition)) :
    Snapshot.addAll addWatchpoint { breakpoints, watchpoints } more =
      ([], { breakpoints, watchpoints := watchpoints ++ more }) := by
  induction more generalizing watchpoints with
  | nil => rw [List.append_nil, Snapshot.addAll]
  | cons watchpoint more ih =>
    have hadd : addWatchpoint { breakpoints, watchpoints } watchpoint =
        (.ok watchpoint, { breakpoints, watchpoints := watchpoints ++ [watchpoint] }) := by
      rw [List.map_append, List.map_cons] at h
      obtain ⟨-, -, hnew⟩ := List.pairwise_append.mp h.isNew
      refine addWatchpoint_of_notMem ?_ fun hmem => ?_
      · exact h.filled _ (List.mem_append_right _ List.mem_cons_self)
      · exact hnew _ hmem _ List.mem_cons_self rfl
    rw [List.append_cons] at h ⊢
    rw [Snapshot.addAll, hadd]
    dsimp only
    rw [ih h]

/-! ## All points -/

/-- An empty registry takes all points of a snapshot in which sorted breakpoints are recorded, and
watchpoints in an order in which they are taken. -/
theorem restoreInto_record {breakpoints : List Breakpoint} {watchpoints : List Watchpoint}
    (hs : Breakpoint.IsSorted breakpoints)
    (ht : AreTaken (watchpoints.map Watchpoint.condition)) (snapshot : Snapshot)
    (ignoredExceptions : List String) :
    (snapshot.record breakpoints watchpoints ignoredExceptions).restoreInto {} =
      ([], { breakpoints, watchpoints }) := by
  have hbreakpoints : Snapshot.addAll insertBreakpoint {} breakpoints = ([], { breakpoints }) :=
    addAll_insertBreakpoint hs
  have hwatchpoints : Snapshot.addAll addWatchpoint { breakpoints } watchpoints =
      ([], { breakpoints, watchpoints }) := addAll_addWatchpoint ht
  rw [Snapshot.restoreInto, Snapshot.breakpoints_record _ hs, hbreakpoints, Snapshot.record]
  dsimp only
  rw [hwatchpoints]
  rfl

/-- Whatever was done to a registry, its points are restored if the files of its breakpoints are
texts: what is recorded of them is saved and can be read, with the types to ignore, and an empty
registry takes all of it without an error and has the same breakpoints and watchpoints, in their
order. If a file is no text, saving fails. -/
theorem restored_run (provider : Option CodeProvider)
    (operations : List (RegistryOperation σ)) (snapshot : Snapshot)
    (ignoredExceptions : List String) :
    ((∃ bytes loaded,
        (snapshot.record (run { provider } operations).breakpoints
          (run { provider } operations).watchpoints ignoredExceptions).save = (.ok (), bytes) ∧
        Snapshot.read bytes = .ok loaded ∧ loaded.ignoredExceptions = ignoredExceptions ∧
        loaded.restoreInto {} = ([],
          { breakpoints := (run { provider } operations).breakpoints
            watchpoints := (run { provider } operations).watchpoints })) ↔
      ∀ breakpoint ∈ (run { provider } operations).breakpoints,
        breakpoint.file.isText = true) ∧
    ((∃ breakpoint ∈ (run { provider } operations).breakpoints,
        breakpoint.file.isText = false) →
      (snapshot.record (run { provider } operations).breakpoints
        (run { provider } operations).watchpoints ignoredExceptions).save.1 =
          .error .unwritten) := by
  have hsorted := isSorted_run provider operations
  have hwhole := snapshot.isWhole_record_iff hsorted (run { provider } operations).watchpoints
    ignoredExceptions
  refine ⟨⟨fun ⟨bytes, loaded, hsave, _⟩ => ?_, fun htexts => ?_⟩, ?_⟩
  · rw [← hwhole]
    by_contra hnot
    have herror := Snapshot.save_of_not_isWhole hnot
    rw [hsave] at herror
    cases herror
  · obtain ⟨hsave, hread⟩ := Snapshot.save_of_isWhole (hwhole.mpr htexts)
    exact ⟨_, _, hsave, hread, rfl, restoreInto_record hsorted (areTaken_run provider operations)
      snapshot ignoredExceptions⟩
  · rintro ⟨breakpoint, hm, hfile⟩
    refine Snapshot.save_of_not_isWhole fun h => ?_
    rw [hwhole.mp h breakpoint hm] at hfile
    cases hfile

/-- A breakpoint in a file that is no text. -/
def stray : List (RegistryOperation Unit) := [.addBreakpoint ⟨[0xFF]⟩ 3 none false]

/-- A breakpoint in a file that is no text is taken, and what is recorded of it cannot be saved. -/
theorem not_restored_stray :
    (run {} stray).breakpoints = [{ file := ⟨[0xFF]⟩, line := 3 }] ∧
      (Snapshot.record {} (run {} stray).breakpoints (run {} stray).watchpoints []).save.1 =
        .error .unwritten := by
  decide +kernel

end Registry

end DebugLink
