import DebugLink.Proofs.Registry.Refusals

/-!
# What a registry refuses of a snapshot

To restore a snapshot comes to adding the points that the registry takes: the others leave an error
each, in the order of the snapshot, and no other trace than the lines of their files, which are
remembered. To restore only the points that were taken gives the same points, provided that the
provider gives the same lines for all spellings of a path that the snapshot has. Without that, a
refused breakpoint may decide which lines its file has.
-/

namespace DebugLink

namespace Registry

variable {registry changed full only : Registry}

/-! ## Registries that differ in the lines they remember -/

/-- The file whose line is refused. -/
def refusedFile? : RegistryError → Option SourcePath
  | .invalidLine file _ => some file
  | _ => none

/-- The code of a file, if a registry can tell. -/
def linesOf (registry : Registry) (file : SourcePath) : Option Lines :=
  registry.provider.bind fun provider => (provider file).map CodeObject.breakableLines

/-- Registries that are the same, except that one may also remember the lines of some files. -/
structure Remembers (files : List SourcePath) (full only : Registry) : Prop where
  /-- The breakpoints are the same. -/
  breakpoints : full.breakpoints = only.breakpoints
  /-- The watchpoints are the same. -/
  watchpoints : full.watchpoints = only.watchpoints
  /-- The same errors have been reported. -/
  reported : full.reported = only.reported
  /-- The provider is the same. -/
  provider : full.provider = only.provider
  /-- The same lines are remembered of each path, or those of one of the files. -/
  lineCache : ∀ path, full.lineCache.get? path = only.lineCache.get? path ∨
    (only.lineCache.get? path = none ∧ ∃ file ∈ files, SourcePath.same file path ∧
      full.lineCache.get? path = full.linesOf file)

/-- Without a provider, every line can stop the program. -/
theorem isBreakable_of_none (h : registry.provider = none) (file : SourcePath) (line : UInt32) :
    registry.isBreakable file line = (true, registry) := by
  rw [isBreakable, h]

/-- With a provider, a line can stop the program if the lines of its file say so, which are
remembered from then on. -/
theorem isBreakable_of_some {source : CodeProvider} (h : registry.provider = some source)
    (file : SourcePath) (line : UInt32) :
    (registry.isBreakable file line).1 =
        ((registry.lineCache.get? file).or (registry.linesOf file)).all (·.contains line) ∧
      ∀ path, (registry.isBreakable file line).2.lineCache.get? path =
        (registry.lineCache.get? path).or
          (if SourcePath.same file path then registry.linesOf file else none) := by
  obtain ⟨hlines, -, hget⟩ := registry.lineCache.lines_eq source file
  have hcode : registry.linesOf file = (source file).map CodeObject.breakableLines := by
    rw [linesOf, h, Option.bind_some]
  rw [isBreakable, h]
  dsimp only
  rw [hlines, hcode]
  exact ⟨rfl, hget⟩

namespace Remembers

variable {files : List SourcePath} {file : SourcePath}

/-- Registries that are the same remember the same. -/
theorem refl (registry : Registry) : Remembers [] registry registry :=
  ⟨rfl, rfl, rfl, rfl, fun _ => .inl rfl⟩

/-- More files may be named. -/
theorem append (h : Remembers files full only) (more : List SourcePath) :
    Remembers (files ++ more) full only where
  breakpoints := h.breakpoints
  watchpoints := h.watchpoints
  reported := h.reported
  provider := h.provider
  lineCache path := (h.lineCache path).imp_right fun ⟨hnone, file, hfile, hsame⟩ =>
    ⟨hnone, file, List.mem_append_left _ hfile, hsame⟩

/-- What is remembered may change, if it does so in a way that fits. -/
theorem of_lineCache {more : List SourcePath} (h : Remembers files full only)
    {cache cache' : LineCache}
    (hc : ∀ path, cache.get? path = cache'.get? path ∨
      (cache'.get? path = none ∧ ∃ file ∈ more, SourcePath.same file path ∧
        cache.get? path = full.linesOf file)) :
    Remembers more { full with lineCache := cache } { only with lineCache := cache' } :=
  ⟨h.breakpoints, h.watchpoints, h.reported, h.provider, hc⟩

/-- Both registries take the same lines, if the files that are remembered by one of them have the
same lines in all spellings. -/
theorem isBreakable (h : Remembers files full only)
    (hf : ∀ other ∈ files, SourcePath.same other file → full.linesOf other = full.linesOf file)
    (line : UInt32) :
    (full.isBreakable file line).1 = (only.isBreakable file line).1 ∧
      Remembers files (full.isBreakable file line).2 (only.isBreakable file line).2 := by
  cases hprovider : full.provider with
  | none =>
    rw [isBreakable_of_none hprovider, isBreakable_of_none (h.provider ▸ hprovider)]
    exact ⟨rfl, h⟩
  | some source =>
    have hlines : only.linesOf file = full.linesOf file := by rw [linesOf, linesOf, h.provider]
    obtain ⟨hfull, hget⟩ := isBreakable_of_some hprovider file line
    obtain ⟨honly, hget'⟩ := isBreakable_of_some (h.provider ▸ hprovider) file line
    obtain ⟨cache, hcache⟩ := full.isBreakable_snd file line
    obtain ⟨cache', hcache'⟩ := only.isBreakable_snd file line
    rw [hcache] at hget
    rw [hcache', hlines] at hget'
    rw [hfull, honly, hcache, hcache', hlines]
    constructor
    · rcases h.lineCache file with heq | ⟨hnone, other, hother, hsame, hsome⟩
      · rw [heq]
      · rw [hsome, hnone, hf other hother hsame, Option.or_self, Option.none_or]
    · refine h.of_lineCache fun path => ?_
      rw [hget path, hget' path]
      rcases h.lineCache path with heq | ⟨hnone, other, hother, hsame, hsome⟩
      · exact .inl (by rw [heq])
      · rw [hnone, hsome]
        by_cases hpath : SourcePath.same file path
        · -- Both remember the lines of the path now.
          have hboth : SourcePath.same other file :=
            (SourcePath.same_congr_right hpath other).trans hsame
          exact .inl (by rw [if_pos hpath, hf other hother hboth, Option.or_self, Option.none_or])
        · rw [if_neg hpath, Option.or_none, Option.or_none]
          exact .inr ⟨rfl, other, hother, hsame, rfl⟩

/-- If only one registry is asked for a line, it may remember the lines of the file. -/
theorem asked (h : Remembers files full only)
    (hf : ∀ other ∈ files, SourcePath.same other file → full.linesOf other = full.linesOf file)
    (line : UInt32) : Remembers (files ++ [file]) (full.isBreakable file line).2 only := by
  cases hprovider : full.provider with
  | none =>
    rw [isBreakable_of_none hprovider]
    exact h.append [file]
  | some source =>
    obtain ⟨-, hget⟩ := isBreakable_of_some hprovider file line
    obtain ⟨cache, hcache⟩ := full.isBreakable_snd file line
    rw [hcache] at hget ⊢
    refine h.of_lineCache fun path => ?_
    by_cases hpath : SourcePath.same file path
    · rw [hget path, if_pos hpath]
      rcases h.lineCache path with heq | ⟨hnone, other, hother, hsame, hsome⟩
      · cases honly : only.lineCache.get? path with
        | some lines => exact .inl (by rw [heq, honly, Option.some_or])
        | none =>
          refine .inr ⟨rfl, file, List.mem_append_right _ List.mem_cons_self, hpath, ?_⟩
          rw [heq, honly, Option.none_or]
      · have hboth : SourcePath.same other file :=
          (SourcePath.same_congr_right hpath other).trans hsame
        refine .inr ⟨hnone, file, List.mem_append_right _ List.mem_cons_self, hpath, ?_⟩
        rw [hsome, hf other hother hboth, Option.or_self]
    · rw [hget path, if_neg hpath, Option.or_none]
      exact (h.append [file]).lineCache path

/-- A breakpoint that is taken is taken by both registries. -/
theorem insertBreakpoint (h : Remembers files full only) {breakpoint value : Breakpoint}
    (hf : ∀ other ∈ files, SourcePath.same other breakpoint.file →
      full.linesOf other = full.linesOf breakpoint.file)
    (hadd : full.insertBreakpoint breakpoint = (.ok value, changed)) :
    ∃ value' changed', only.insertBreakpoint breakpoint = (.ok value', changed') ∧
      Remembers files changed changed' := by
  obtain ⟨hsame, hasked⟩ := h.isBreakable hf breakpoint.line
  rw [Registry.insertBreakpoint] at hadd ⊢
  cases hfull : full.isBreakable breakpoint.file breakpoint.line with
  | mk breakable asked =>
    cases honly : only.isBreakable breakpoint.file breakpoint.line with
    | mk breakable' asked' =>
      rw [hfull, honly] at hsame hasked
      obtain rfl : breakable = breakable' := hsame
      rw [hfull] at hadd
      cases breakable with
      | false => cases hadd
      | true =>
        cases hadd
        refine ⟨_, _, rfl, ?_, hasked.watchpoints, ?_, hasked.provider, hasked.lineCache⟩
        · exact congrArg breakpoint.insertInto hasked.breakpoints
        · exact congrArg (List.filter (· != .breakpoint breakpoint.place)) hasked.reported

/-- A watchpoint that is taken is taken by both registries. -/
theorem addWatchpoint (h : Remembers files full only) {watchpoint value : Watchpoint}
    (hadd : full.addWatchpoint watchpoint = (.ok value, changed)) :
    ∃ value' changed', only.addWatchpoint watchpoint = (.ok value', changed') ∧
      Remembers files changed changed' := by
  have hfound : only.watchpoint? watchpoint.condition = full.watchpoint? watchpoint.condition := by
    rw [watchpoint?, watchpoint?, h.watchpoints]
  rw [Registry.addWatchpoint] at hadd ⊢
  rw [hfound]
  split at hadd
  · cases hadd
  · split at hadd
    · cases hadd
    · next hvalid hnew =>
      cases hadd
      rw [if_neg hvalid, if_neg hnew]
      refine ⟨_, _, rfl, h.breakpoints, ?_, ?_, h.provider, h.lineCache⟩
      · exact congrArg (· ++ [watchpoint]) h.watchpoints
      · exact congrArg (List.filter (· != .watchpoint watchpoint.condition)) h.reported

end Remembers

/-- The provider stays what it was when a breakpoint is added. -/
theorem provider_insertBreakpoint (registry : Registry) (breakpoint : Breakpoint) :
    (registry.insertBreakpoint breakpoint).2.provider = registry.provider := by
  obtain ⟨cache, hcache⟩ := registry.isBreakable_snd breakpoint.file breakpoint.line
  rw [insertBreakpoint]
  cases hb : registry.isBreakable breakpoint.file breakpoint.line with
  | mk breakable asked =>
    obtain rfl : asked = { registry with lineCache := cache } := by rw [← hcache, hb]
    cases breakable <;> rfl

/-- The breakable lines of a list of breakpoints do not depend on how the files are spelled. -/
def SpellingsAgree (registry : Registry) (breakpoints : List Breakpoint) : Prop :=
  ∀ a ∈ breakpoints, ∀ b ∈ breakpoints, SourcePath.same a.file b.file →
    registry.linesOf a.file = registry.linesOf b.file

/-- While breakpoints are added to one registry, and only those that it takes to another one, they
differ at most in the lines they remember of the breakpoints that were refused. -/
structure Accompanies (registry : Registry) (breakpoints : List Breakpoint)
    (errors : List RegistryError) (full only : Registry) : Prop where
  /-- The registries differ in the lines that they remember of refused files. -/
  remembers : Remembers (errors.filterMap refusedFile?) full only
  /-- The provider is still the one that it was. -/
  provider : full.provider = registry.provider
  /-- A refused file is that of a breakpoint. -/
  files : ∀ file ∈ errors.filterMap refusedFile?,
    ∃ breakpoint ∈ breakpoints, breakpoint.file = file

namespace Accompanies

variable {breakpoints : List Breakpoint} {breakpoint value : Breakpoint}
  {errors : List RegistryError} {error : RegistryError}

/-- The lines of a refused file are those of a breakpoint of the same path. -/
theorem linesOf_eq (h : Accompanies registry breakpoints errors full only)
    (hs : registry.SpellingsAgree breakpoints) (hm : breakpoint ∈ breakpoints) :
    ∀ other ∈ errors.filterMap refusedFile?, SourcePath.same other breakpoint.file →
      full.linesOf other = full.linesOf breakpoint.file := by
  intro other hother hsame
  obtain ⟨refused, hrefused, rfl⟩ := h.files other hother
  have hlines := hs refused hrefused breakpoint hm hsame
  rwa [linesOf, linesOf, ← h.provider] at hlines

/-- A breakpoint that is taken is added to both registries. -/
theorem taken (h : Accompanies registry breakpoints errors full only)
    (hs : registry.SpellingsAgree breakpoints) (hm : breakpoint ∈ breakpoints)
    (hadd : full.insertBreakpoint breakpoint = (.ok value, changed)) :
    ∃ value' changed', only.insertBreakpoint breakpoint = (.ok value', changed') ∧
      Accompanies registry breakpoints errors changed changed' := by
  obtain ⟨value', changed', hadd', hremembers⟩ :=
    h.remembers.insertBreakpoint (h.linesOf_eq hs hm) hadd
  refine ⟨value', changed', hadd', hremembers, ?_, h.files⟩
  rw [← h.provider, ← full.provider_insertBreakpoint breakpoint, hadd]

/-- A breakpoint that is refused has its file remembered by one registry. -/
theorem refused (h : Accompanies registry breakpoints errors full only)
    (hs : registry.SpellingsAgree breakpoints) (hm : breakpoint ∈ breakpoints)
    (hadd : full.insertBreakpoint breakpoint = (.error error, changed)) :
    Accompanies registry breakpoints (errors ++ [error]) changed only := by
  obtain ⟨hblames, hasked⟩ := insertBreakpoint_eq_error hadd
  have hfiles : (errors ++ [error]).filterMap refusedFile? =
      errors.filterMap refusedFile? ++ [breakpoint.file] := by
    rw [List.filterMap_append, hblames]
    rfl
  have hremembers := h.remembers.asked (h.linesOf_eq hs hm) breakpoint.line
  rw [hasked] at hremembers
  refine ⟨hfiles ▸ hremembers, ?_, ?_⟩
  · rw [← h.provider, ← full.provider_insertBreakpoint breakpoint, hadd]
  · rw [hfiles]
    refine List.forall_mem_append.mpr ⟨h.files, List.forall_mem_singleton.mpr ?_⟩
    exact ⟨breakpoint, hm, rfl⟩

end Accompanies

/-- Without the breakpoints that it refuses, a registry comes to the same, up to the lines of their
files that it remembers. -/
theorem addAll_taken_insertBreakpoint {breakpoints : List Breakpoint}
    (hs : registry.SpellingsAgree breakpoints) :
    (Snapshot.addAll insertBreakpoint registry (taken insertBreakpoint registry breakpoints)).1 =
        [] ∧
      Remembers ((Snapshot.addAll insertBreakpoint registry breakpoints).1.filterMap refusedFile?)
        (Snapshot.addAll insertBreakpoint registry breakpoints).2
        (Snapshot.addAll insertBreakpoint registry
          (taken insertBreakpoint registry breakpoints)).2 := by
  have hstart : Accompanies registry breakpoints [] registry registry :=
    ⟨.refl registry, rfl, nofun⟩
  obtain ⟨herrors, hend⟩ := addAll_taken (Accompanies registry breakpoints)
    (fun h hm hadd => h.taken hs hm hadd) (fun h hm hadd => h.refused hs hm hadd) [] hstart
  exact ⟨herrors, hend.remembers⟩

/-- Without the watchpoints that are refused, registries that are the same stay so. -/
theorem addAll_taken_addWatchpoint {files : List SourcePath} (h : Remembers files full only)
    (watchpoints : List Watchpoint) :
    (Snapshot.addAll addWatchpoint only (taken addWatchpoint full watchpoints)).1 = [] ∧
      Remembers files (Snapshot.addAll addWatchpoint full watchpoints).2
        (Snapshot.addAll addWatchpoint only (taken addWatchpoint full watchpoints)).2 := by
  refine addAll_taken (fun _ => Remembers files)
    (fun halike _ hadd => halike.addWatchpoint hadd) (fun halike _ hadd => ?_) [] h
  rwa [(addWatchpoint_eq_error hadd).2]

end Registry

/-! ## Snapshots -/

namespace Snapshot

open Registry (taken)

variable {registry : Registry}

/-- Projects with only the breakpoints that a registry takes when all are added. -/
def takenProjects (registry : Registry) : List Project → List Project
  | [] => []
  | project :: rest =>
    { project with breakpoints := taken Registry.insertBreakpoint registry project.breakpoints } ::
      takenProjects (addAll Registry.insertBreakpoint registry project.breakpoints).2 rest

/-- The snapshot with only the points that a registry takes when all are restored. -/
def takenBy (snapshot : Snapshot) (registry : Registry) : Snapshot :=
  { snapshot with
    projects := takenProjects registry snapshot.projects
    watchpoints := taken Registry.addWatchpoint
      (addAll Registry.insertBreakpoint registry snapshot.breakpoints).2 snapshot.watchpoints }

/-- The breakpoints of the projects are those that are taken. -/
theorem breakpoints_takenProjects (registry : Registry) (projects : List Project) :
    (takenProjects registry projects).flatMap Project.breakpoints =
      taken Registry.insertBreakpoint registry (projects.flatMap Project.breakpoints) := by
  induction projects generalizing registry with
  | nil => rfl
  | cons project rest ih =>
    rw [takenProjects, List.flatMap_cons, List.flatMap_cons, Registry.taken_append, ih]

/-- The breakpoints of the projects are those that are taken, in their order. -/
theorem breakpoints_takenBy (snapshot : Snapshot) (registry : Registry) :
    (snapshot.takenBy registry).breakpoints =
      taken Registry.insertBreakpoint registry snapshot.breakpoints :=
  breakpoints_takenProjects registry snapshot.projects

/-- What a snapshot comes to when it is restored: what is refused leaves an error and nothing else.
-/
structure LeavesNoTrace (snapshot : Snapshot) (registry : Registry) : Prop where
  /-- Each point is taken, or has one error that is about it, in the order of the snapshot. -/
  errors : ∃ lineErrors conditionErrors,
    (snapshot.restoreInto registry).1 = lineErrors ++ conditionErrors ∧
      Registry.Sifted Registry.BlamesLine snapshot.breakpoints
        (snapshot.takenBy registry).breakpoints lineErrors ∧
      Registry.Sifted Registry.BlamesCondition snapshot.watchpoints
        (snapshot.takenBy registry).watchpoints conditionErrors
  /-- The breakpoints that are taken are put in one after the other. -/
  breakpoints : (snapshot.restoreInto registry).2.breakpoints =
    (snapshot.takenBy registry).breakpoints.foldl
      (fun list breakpoint => breakpoint.insertInto list) registry.breakpoints
  /-- The watchpoints that are taken come behind those that were there. -/
  watchpoints : (snapshot.restoreInto registry).2.watchpoints =
    registry.watchpoints ++ (snapshot.takenBy registry).watchpoints
  /-- The points that are taken are taken without the others too, and the registry is the same, up
  to the lines that it remembers of the files of refused breakpoints. -/
  alone : registry.SpellingsAgree snapshot.breakpoints →
    ((snapshot.takenBy registry).restoreInto registry).1 = [] ∧
      Registry.Remembers ((snapshot.restoreInto registry).1.filterMap Registry.refusedFile?)
        (snapshot.restoreInto registry).2 ((snapshot.takenBy registry).restoreInto registry).2

/-- What a registry refuses of a snapshot leaves no trace. -/
theorem leavesNoTrace (snapshot : Snapshot) (registry : Registry) :
    snapshot.LeavesNoTrace registry where
  errors := by
    have hlines := Registry.sifted_insertBreakpoint registry snapshot.breakpoints
    rw [← breakpoints_takenBy] at hlines
    exact ⟨_, _, rfl, hlines, Registry.sifted_addWatchpoint _ snapshot.watchpoints⟩
  breakpoints := by
    have hsame := Registry.sameBreakpoints_foldl
      (addAll Registry.insertBreakpoint registry snapshot.breakpoints).2 snapshot.watchpoints
    rw [← Registry.addAll_snd] at hsame
    rw [breakpoints_takenBy, ← Registry.breakpoints_addAll]
    exact hsame.breakpoints
  watchpoints := by
    rw [← Registry.watchpoints_addAll_insertBreakpoint registry snapshot.breakpoints]
    exact Registry.watchpoints_addAll _ _
  alone hs := by
    obtain ⟨hnone, hremembers⟩ := Registry.addAll_taken_insertBreakpoint hs
    obtain ⟨hnone', hremembers'⟩ :=
      Registry.addAll_taken_addWatchpoint hremembers snapshot.watchpoints
    rw [restoreInto, restoreInto, breakpoints_takenBy, takenBy]
    dsimp only
    rw [hnone, hnone', List.filterMap_append]
    exact ⟨rfl, hremembers'.append _⟩

end Snapshot

namespace Registry

variable {σ : Type}

/-- Whatever a registry refuses leaves no trace: an operation that fails leaves all points as they
were, and all errors that have been reported, and at most the lines of the file that it asks for are
remembered. Of a snapshot that is restored, the points that are refused leave one error each, and
the registry comes to what it would come to without them, if the spellings of each path in the
snapshot have the same lines. -/
theorem leavesNoTrace_of_refusal (registry : Registry) :
    (∀ (operation : RegistryOperation σ) error, registry.refusal? operation = some error →
      registry.OnlyAsks operation.file? (registry.perform operation)) ∧
      ∀ snapshot : Snapshot, snapshot.LeavesNoTrace registry :=
  ⟨fun _ _ => onlyAsks_of_refusal?, fun snapshot => snapshot.leavesNoTrace registry⟩

/-- A registry whose provider has code with two lines for one path. -/
def withTwoLines : Registry where
  provider := some fun path =>
    if SourcePath.same path "src/a.py" then some (.unit 1 [(2, 1)] []) else none

/-- A snapshot of points some of which are refused. -/
def partlyRefused : Snapshot where
  projects := [⟨"src/a.py", [⟨"src//a.py", 7, none, false, true, 0⟩,
    ⟨"src/a.py", 2, none, false, true, 0⟩]⟩, ⟨"b.py", [⟨"b.py", 4, none, false, true, 0⟩]⟩]
  watchpoints := [{ condition := "x" }, { condition := " " }, { condition := "x", special := true }]

/-- A breakpoint that is refused leaves the registry empty, with the lines of its file. The points
of a snapshot that are taken are taken alone too. -/
theorem leavesNoTrace_of_refusal_partlyRefused :
    withTwoLines.refusal? (.addBreakpoint "src//a.py" 7 none true : RegistryOperation Unit) =
        some (.invalidLine "src//a.py" 7) ∧
      (withTwoLines.perform
        (.addBreakpoint "src//a.py" 7 none true : RegistryOperation Unit)).breakpoints = [] ∧
      (partlyRefused.restoreInto withTwoLines).1 = [.invalidLine "src//a.py" 7, .invalidWatchpoint,
        .duplicateWatchpoint "x"] ∧
      ((partlyRefused.takenBy withTwoLines).restoreInto withTwoLines).1 = [] ∧
      ((partlyRefused.takenBy withTwoLines).restoreInto withTwoLines).2.breakpoints =
        [⟨"b.py", 4, none, false, true, 0⟩, ⟨"src/a.py", 2, none, false, true, 0⟩] := by
  have hrefused : withTwoLines.refusal?
      (.addBreakpoint "src//a.py" 7 none true : RegistryOperation Unit) =
        some (.invalidLine "src//a.py" 7) := by decide +kernel
  have hagree : withTwoLines.SpellingsAgree partlyRefused.breakpoints := by
    unfold SpellingsAgree
    decide +kernel
  obtain ⟨hoperation, hsnapshot⟩ := @leavesNoTrace_of_refusal Unit withTwoLines
  obtain ⟨hnone, hremembers⟩ := (hsnapshot partlyRefused).alone hagree
  refine ⟨hrefused, (hoperation _ _ hrefused).breakpoints, by decide +kernel, hnone, ?_⟩
  rw [← hremembers.breakpoints]
  decide +kernel

/-- A registry whose provider has other code for another spelling of a path. -/
def withTwoSpellings : Registry where
  provider := some fun path =>
    if path = "src//a.py" then some (.unit 1 [(2, 1)] [])
    else if path = "src/a.py" then some (.unit 1 [] []) else none

/-- A snapshot of a breakpoint that is refused, and one in another spelling of its path. -/
def spelledDifferently : Snapshot where
  projects := [⟨"src//a.py", [⟨"src//a.py", 7, none, false, true, 0⟩,
    ⟨"src/a.py", 2, none, false, true, 0⟩]⟩]

/-- Where the spellings of a path have different lines, a breakpoint that is refused may decide that
another one is taken, which is refused alone. -/
theorem not_leavesNoTrace_spelledDifferently :
    (spelledDifferently.restoreInto withTwoSpellings).1 = [.invalidLine "src//a.py" 7] ∧
      (spelledDifferently.restoreInto withTwoSpellings).2.breakpoints =
        [⟨"src/a.py", 2, none, false, true, 0⟩] ∧
      (spelledDifferently.takenBy withTwoSpellings).breakpoints =
        [⟨"src/a.py", 2, none, false, true, 0⟩] ∧
      ((spelledDifferently.takenBy withTwoSpellings).restoreInto withTwoSpellings).1 =
        [.invalidLine "src/a.py" 2] ∧
      ((spelledDifferently.takenBy withTwoSpellings).restoreInto withTwoSpellings).2.breakpoints ≠
        (spelledDifferently.restoreInto withTwoSpellings).2.breakpoints := by
  decide +kernel

end Registry

end DebugLink
