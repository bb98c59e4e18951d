import DebugLink.Proofs.Registry.Places

/-!
# Refused operations

An operation that fails leaves all points as they were, and all errors that have been reported. It
may have asked for the breakable lines of a file, which are remembered then. Of points that are
added one after the other, each is taken or leaves an error that is about it, and the registry has
the points that it takes, put in one after the other.
-/

namespace DebugLink

variable {σ : Type}

/-- The file whose breakable lines an operation asks for. -/
def RegistryOperation.file? : RegistryOperation σ → Option SourcePath
  | insertBreakpoint breakpoint => some breakpoint.file
  | addBreakpoint file _ _ _ => some file
  | addBreakpointRecord record => (Breakpoint.ofRecord record).toOption.map Breakpoint.file
  | _ => none

namespace Registry

variable {registry changed full only : Registry}

/-! ## Single operations -/

/-- The error of a result. -/
def error? {α : Type} : Except RegistryError α → Option RegistryError
  | .ok _ => none
  | .error error => some error

/-- The error that an operation fails with. -/
def refusal? (registry : Registry) : RegistryOperation σ → Option RegistryError
  | .insertBreakpoint breakpoint => error? (registry.insertBreakpoint breakpoint).1
  | .addBreakpoint file line condition temporary =>
    error? (registry.addBreakpoint file line condition temporary).1
  | .addBreakpointRecord record => error? (registry.addBreakpointRecord record).1
  | .enableBreakpoint file line enabled => error? (registry.enableBreakpoint file line enabled).1
  | .ignoreBreakpoint file line count => error? (registry.ignoreBreakpoint file line count).1
  | .addWatchpoint watchpoint => error? (registry.addWatchpoint watchpoint).1
  | .addWatchpointRecord record => error? (registry.addWatchpointRecord record).1
  | .enableWatchpoint condition enabled =>
    error? (registry.enableWatchpoint condition enabled).1
  | .ignoreWatchpoint condition count => error? (registry.ignoreWatchpoint condition count).1
  | _ => none

/-- Nothing has changed, except that the lines of a file may be remembered that were not. -/
structure OnlyAsks (registry : Registry) (file? : Option SourcePath) (changed : Registry) :
    Prop where
  /-- The breakpoints are the same. -/
  breakpoints : changed.breakpoints = registry.breakpoints
  /-- The watchpoints are the same, in the same order. -/
  watchpoints : changed.watchpoints = registry.watchpoints
  /-- The same errors have been reported. -/
  reported : changed.reported = registry.reported
  /-- The provider is the same. -/
  provider : changed.provider = registry.provider
  /-- The same lines are remembered, and perhaps those of the file. -/
  lineCache : changed.lineCache = registry.lineCache ∨ ∃ file ∈ file?,
    registry.lineCache.get? file = none ∧ ∃ lines,
      changed.lineCache.files = (SourcePath.key file, lines) :: registry.lineCache.files

/-- Nothing has changed at all. -/
theorem OnlyAsks.refl (registry : Registry) (file? : Option SourcePath) :
    registry.OnlyAsks file? registry := ⟨rfl, rfl, rfl, rfl, .inl rfl⟩

/-- If a line cannot stop the program, at most the lines of its file have come to be remembered. -/
theorem onlyAsks_isBreakable {file : SourcePath} {line : UInt32}
    (h : (registry.isBreakable file line).1 = false) :
    registry.OnlyAsks (some file) (registry.isBreakable file line).2 := by
  rw [isBreakable] at h ⊢
  cases hprovider : registry.provider with
  | none =>
    rw [hprovider] at h
    exact absurd h.symm Bool.false_ne_true
  | some provider =>
    rw [hprovider] at h
    dsimp only at h ⊢
    refine ⟨rfl, rfl, rfl, hprovider.symm, ?_⟩
    rw [LineCache.lines] at h ⊢
    cases hget : registry.lineCache.get? file with
    | some lines => exact .inl rfl
    | none =>
      rw [hget] at h
      dsimp only at h ⊢
      cases hcode : provider file with
      | none =>
        rw [hcode] at h
        exact absurd h.symm Bool.false_ne_true
      | some code => exact .inr ⟨file, rfl, hget, _, rfl⟩

/-- The error about a breakpoint that is not at a line that can stop the program. -/
def BlamesLine (breakpoint : Breakpoint) (error : RegistryError) : Prop :=
  error = .invalidLine breakpoint.file breakpoint.line

/-- The error about a watchpoint that has no condition, or whose condition there is. -/
def BlamesCondition (watchpoint : Watchpoint) (error : RegistryError) : Prop :=
  if watchpoint.isValid then error = .duplicateWatchpoint watchpoint.condition
  else error = .invalidWatchpoint

/-- A breakpoint is refused for its line. -/
theorem insertBreakpoint_eq_error {breakpoint : Breakpoint} {error : RegistryError}
    (h : registry.insertBreakpoint breakpoint = (.error error, changed)) :
    BlamesLine breakpoint error ∧
      (registry.isBreakable breakpoint.file breakpoint.line) = (false, changed) := by
  rw [insertBreakpoint] at h
  cases hb : registry.isBreakable breakpoint.file breakpoint.line with
  | mk breakable asked =>
    rw [hb] at h
    cases breakable with
    | false =>
      cases h
      exact ⟨rfl, rfl⟩
    | true => cases h

/-- A breakpoint that is refused has at most made the lines of its file remembered. -/
theorem onlyAsks_insertBreakpoint {breakpoint : Breakpoint} {error : RegistryError}
    (h : registry.insertBreakpoint breakpoint = (.error error, changed)) :
    registry.OnlyAsks (some breakpoint.file) changed := by
  have hb := (insertBreakpoint_eq_error h).2
  have hasks := onlyAsks_isBreakable (congrArg Prod.fst hb)
  rwa [hb] at hasks

/-- A watchpoint is refused for its condition, and nothing changes. -/
theorem addWatchpoint_eq_error {watchpoint : Watchpoint} {error : RegistryError}
    (h : registry.addWatchpoint watchpoint = (.error error, changed)) :
    BlamesCondition watchpoint error ∧ changed = registry := by
  rw [addWatchpoint] at h
  rw [BlamesCondition]
  cases hvalid : watchpoint.isValid with
  | false =>
    rw [hvalid] at h
    cases h
    exact ⟨rfl, rfl⟩
  | true =>
    rw [hvalid] at h
    split at h
    · next hnot => exact absurd hnot (by decide)
    · split at h
      · cases h
        exact ⟨rfl, rfl⟩
      · cases h

/-- Nothing changes if there is no breakpoint to be changed. -/
theorem modifyBreakpoint_eq_error {file : SourcePath} {line : UInt32}
    {change : Breakpoint → Breakpoint} {error : RegistryError}
    (h : registry.modifyBreakpoint file line change = (.error error, changed)) :
    changed = registry := by
  rw [modifyBreakpoint] at h
  split at h <;> cases h
  rfl

/-- Nothing changes if there is no watchpoint to be changed. -/
theorem modifyWatchpoint_eq_error {condition : String} {change : Watchpoint → Watchpoint}
    {error : RegistryError}
    (h : registry.modifyWatchpoint condition change = (.error error, changed)) :
    changed = registry := by
  rw [modifyWatchpoint] at h
  split at h <;> cases h
  rfl

/-- A result with an error is that of a failed operation. -/
theorem eq_error_of_error? {α : Type} {result : Except RegistryError α × Registry}
    {error : RegistryError} (h : error? result.1 = some error) :
    result = (.error error, result.2) := by
  obtain ⟨outcome, changed⟩ := result
  cases outcome with
  | ok value => cases h
  | error other =>
    cases h
    rfl

/-- An operation that fails leaves all points as they were. -/
theorem onlyAsks_of_refusal? {operation : RegistryOperation σ} {error : RegistryError}
    (h : registry.refusal? operation = some error) :
    registry.OnlyAsks operation.file? (registry.perform operation) := by
  cases operation with
  | insertBreakpoint breakpoint => exact onlyAsks_insertBreakpoint (eq_error_of_error? h)
  | addBreakpoint file line condition temporary =>
    have hasks := onlyAsks_insertBreakpoint (eq_error_of_error? h)
    cases condition <;> exact hasks
  | addBreakpointRecord record =>
    rw [refusal?, addBreakpointRecord] at h
    rw [perform, addBreakpointRecord, RegistryOperation.file?]
    cases hrecord : Breakpoint.ofRecord record with
    | ok breakpoint =>
      rw [hrecord] at h
      exact onlyAsks_insertBreakpoint (eq_error_of_error? h)
    | error reason => exact .refl _ _
  | enableBreakpoint file line enabled =>
    rw [perform, enableBreakpoint, modifyBreakpoint_eq_error (eq_error_of_error? h)]
    exact .refl _ _
  | ignoreBreakpoint file line count =>
    rw [perform, ignoreBreakpoint, modifyBreakpoint_eq_error (eq_error_of_error? h)]
    exact .refl _ _
  | addWatchpoint watchpoint =>
    rw [perform, (addWatchpoint_eq_error (eq_error_of_error? h)).2]
    exact .refl _ _
  | addWatchpointRecord record =>
    rw [refusal?, addWatchpointRecord] at h
    rw [perform, addWatchpointRecord]
    cases hrecord : Watchpoint.ofRecord record with
    | ok watchpoint =>
      rw [hrecord] at h
      dsimp only at h ⊢
      rw [(addWatchpoint_eq_error (eq_error_of_error? h)).2]
      exact .refl _ _
    | error reason => exact .refl _ _
  | enableWatchpoint condition enabled =>
    rw [perform, enableWatchpoint, modifyWatchpoint_eq_error (eq_error_of_error? h)]
    exact .refl _ _
  | ignoreWatchpoint condition count =>
    rw [perform, ignoreWatchpoint, modifyWatchpoint_eq_error (eq_error_of_error? h)]
    exact .refl _ _
  | _ => cases h

/-! ## Points that are added one after the other -/

section Points

variable {α : Type} {add : Registry → α → Except RegistryError α × Registry} {points : List α}

/-- The points of a list that a registry takes when they are added one after the other. -/
def taken (add : Registry → α → Except RegistryError α × Registry) (registry : Registry) :
    List α → List α
  | [] => []
  | point :: rest =>
    match add registry point with
    | (.ok _, registry) => point :: taken add registry rest
    | (.error _, registry) => taken add registry rest

/-- Points in their order, of which each is taken, or has an error that is about it. -/
inductive Sifted (blames : α → RegistryError → Prop) : List α → List α → List RegistryError → Prop
  /-- There is no point. -/
  | nil : Sifted blames [] [] []
  /-- The first point is taken. -/
  | taken {rest kept : List α} {errors : List RegistryError} (point : α)
      (h : Sifted blames rest kept errors) : Sifted blames (point :: rest) (point :: kept) errors
  /-- The first point is refused. -/
  | refused {rest kept : List α} {errors : List RegistryError} {point : α} {error : RegistryError}
      (hb : blames point error) (h : Sifted blames rest kept errors) :
      Sifted blames (point :: rest) kept (error :: errors)

/-- The points that are added are sifted, if each error is about the point. -/
theorem sifted_addAll {blames : α → RegistryError → Prop}
    (hb : ∀ registry point error changed, add registry point = (.error error, changed) →
      blames point error) (registry : Registry) (points : List α) :
    Sifted blames points (taken add registry points)
      (Snapshot.addAll add registry points).1 := by
  induction points generalizing registry with
  | nil => exact .nil
  | cons point rest ih =>
    rw [taken, Snapshot.addAll]
    cases hadd : add registry point with
    | mk result changed =>
      cases result with
      | ok value => exact .taken point (ih changed)
      | error error => exact .refused (hb registry point error changed hadd) (ih changed)

/-- The points that are taken of two lists, one behind the other. -/
theorem taken_append (registry : Registry) (front back : List α) :
    taken add registry (front ++ back) = taken add registry front ++
      taken add (Snapshot.addAll add registry front).2 back := by
  induction front generalizing registry with
  | nil => rfl
  | cons point rest ih =>
    rw [List.cons_append, taken, taken, Snapshot.addAll]
    cases hadd : add registry point with
    | mk result changed =>
      cases result with
      | ok value => exact congrArg (point :: ·) (ih changed)
      | error error => exact ih changed

/-- A registry to which only the points are added that another one takes takes them too, and stays
as the other one, if it does so with each point. What they have in common may depend on the errors
so far. -/
theorem addAll_taken (alike : List RegistryError → Registry → Registry → Prop)
    (ht : ∀ {errors full only changed point value}, alike errors full only → point ∈ points →
      add full point = (.ok value, changed) →
      ∃ value' changed', add only point = (.ok value', changed') ∧ alike errors changed changed')
    (hr : ∀ {errors full only changed point error}, alike errors full only → point ∈ points →
      add full point = (.error error, changed) → alike (errors ++ [error]) changed only)
    (errors : List RegistryError) (h : alike errors full only) :
    (Snapshot.addAll add only (taken add full points)).1 = [] ∧
      alike (errors ++ (Snapshot.addAll add full points).1) (Snapshot.addAll add full points).2
        (Snapshot.addAll add only (taken add full points)).2 := by
  induction points generalizing errors full only with
  | nil => exact ⟨rfl, (List.append_nil errors).symm ▸ h⟩
  | cons point rest ih =>
    have hrest := fun full only => @ih full only
      (fun h hm => ht h (List.mem_cons_of_mem _ hm)) (fun h hm => hr h (List.mem_cons_of_mem _ hm))
    rw [taken, Snapshot.addAll]
    cases hadd : add full point with
    | mk result changed =>
      cases result with
      | ok value =>
        obtain ⟨value', changed', hadd', halike⟩ := ht h List.mem_cons_self hadd
        dsimp only
        rw [Snapshot.addAll, hadd']
        exact hrest _ _ _ halike
      | error error =>
        have halike := hrest _ _ _ (hr h List.mem_cons_self hadd)
        rwa [List.append_assoc, List.singleton_append] at halike

end Points

/-- Breakpoints that are added are sifted by their lines. -/
theorem sifted_insertBreakpoint (registry : Registry) (breakpoints : List Breakpoint) :
    Sifted BlamesLine breakpoints (taken insertBreakpoint registry breakpoints)
      (Snapshot.addAll insertBreakpoint registry breakpoints).1 := by
  refine sifted_addAll (fun registry breakpoint error changed hadd => ?_) registry breakpoints
  exact (insertBreakpoint_eq_error hadd).1

/-- Watchpoints that are added are sifted by their conditions. -/
theorem sifted_addWatchpoint (registry : Registry) (watchpoints : List Watchpoint) :
    Sifted BlamesCondition watchpoints (taken addWatchpoint registry watchpoints)
      (Snapshot.addAll addWatchpoint registry watchpoints).1 := by
  refine sifted_addAll (fun registry watchpoint error changed hadd => ?_) registry watchpoints
  exact (addWatchpoint_eq_error hadd).1

/-- A registry has the breakpoints that it takes, put in one after the other. -/
theorem breakpoints_addAll (registry : Registry) (breakpoints : List Breakpoint) :
    (Snapshot.addAll insertBreakpoint registry breakpoints).2.breakpoints =
      (taken insertBreakpoint registry breakpoints).foldl
        (fun list breakpoint => breakpoint.insertInto list) registry.breakpoints := by
  induction breakpoints generalizing registry with
  | nil => rfl
  | cons breakpoint rest ih =>
    rw [taken, Snapshot.addAll]
    rcases registry.insertBreakpoint_cases breakpoint with ⟨error, changed, hadd, hsame, -⟩ |
      ⟨changed, hadd, hput, -⟩
    · rw [hadd, ← hsame]
      exact ih changed
    · rw [hadd, List.foldl_cons, ← hput]
      exact ih changed

/-- Breakpoints that are added leave the watchpoints alone. -/
theorem watchpoints_addAll_insertBreakpoint (registry : Registry) (breakpoints : List Breakpoint) :
    (Snapshot.addAll insertBreakpoint registry breakpoints).2.watchpoints =
      registry.watchpoints := by
  rw [addAll_snd]
  induction breakpoints generalizing registry with
  | nil => rfl
  | cons breakpoint rest ih =>
    rw [List.foldl_cons, ih, watchpoints_insertBreakpoint]

/-- A registry has the watchpoints that it takes behind those that it had. -/
theorem watchpoints_addAll (registry : Registry) (watchpoints : List Watchpoint) :
    (Snapshot.addAll addWatchpoint registry watchpoints).2.watchpoints =
      registry.watchpoints ++ taken addWatchpoint registry watchpoints := by
  induction watchpoints generalizing registry with
  | nil => exact (List.append_nil _).symm
  | cons watchpoint rest ih =>
    rw [taken, Snapshot.addAll]
    cases hadd : registry.addWatchpoint watchpoint with
    | mk result changed =>
      cases result with
      | ok value =>
        have hput : changed.watchpoints = registry.watchpoints ++ [watchpoint] := by
          rw [addWatchpoint] at hadd
          split at hadd
          · cases hadd
          · split at hadd <;> cases hadd
            rfl
        have hrest := ih changed
        rw [hput, List.append_assoc] at hrest
        exact hrest
      | error error =>
        rw [← (addWatchpoint_eq_error hadd).2]
        exact ih changed

end Registry

end DebugLink
