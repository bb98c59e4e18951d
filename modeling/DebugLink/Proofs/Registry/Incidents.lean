import DebugLink.Proofs.Registry.Hits
import DebugLink.Proofs.Registry.Watching

/-!
# Which condition errors are reported

Each operation on a registry is told by its incidents: points that are put in or removed, and
conditions that could not be evaluated. A registry remembers the points with errors since they were
last put in or removed. So on every run an error of a point is reported if it is the first one since
then, and only if it is.
-/

namespace DebugLink

variable {σ : Type}

/-- Something that happens to a point. -/
inductive Incident where
  /-- The point is put in or removed. -/
  | reset (key : PointKey)
  /-- All points are removed. -/
  | resetAll
  /-- The condition of the point could not be evaluated; `reported` tells whether that was told as
  news. -/
  | failure (key : PointKey) (reported : Bool)
  deriving DecidableEq

namespace Incident

/-- Whether a point is put in or removed. -/
def Resets (key : PointKey) : Incident → Prop
  | reset other => other = key
  | resetAll => True
  | failure _ _ => False

/-- Whether the condition of a point could not be evaluated. -/
def Fails (key : PointKey) : Incident → Prop
  | failure other _ => other = key
  | _ => False

end Incident

/-- Incidents are told as they should, if `noted` tells whether the point has had an error since it
was last put in or removed. The last value tells this behind the incidents. -/
inductive Noted (key : PointKey) : (noted : Bool) → List Incident → Bool → Prop
  /-- Nothing happens. -/
  | nil (noted : Bool) : Noted key noted [] noted
  /-- The point is put in or removed. -/
  | reset {noted after : Bool} {incident : Incident} {rest : List Incident}
      (h : incident.Resets key) (hrest : Noted key false rest after) :
      Noted key noted (incident :: rest) after
  /-- An error of the point is told if there was none. -/
  | failure {noted after : Bool} {rest : List Incident} (hrest : Noted key true rest after) :
      Noted key noted (.failure key (!noted) :: rest) after
  /-- Something happens to another point. -/
  | other {noted after : Bool} {incident : Incident} {rest : List Incident}
      (hresets : ¬ incident.Resets key) (hfails : ¬ incident.Fails key)
      (hrest : Noted key noted rest after) : Noted key noted (incident :: rest) after

namespace Noted

variable {key : PointKey} {noted between after : Bool} {front back incidents : List Incident}

/-- Incidents may follow each other. -/
theorem append (h : Noted key noted front between) (h' : Noted key between back after) :
    Noted key noted (front ++ back) after := by
  induction h with
  | nil => exact h'
  | reset hresets _ ih => exact .reset hresets (ih h')
  | failure _ ih => exact .failure (ih h')
  | other hresets hfails _ ih => exact .other hresets hfails (ih h')

/-- Incidents that are told as they should are so in front of a place, and behind it. -/
theorem exists_between (h : Noted key noted (front ++ back) after) :
    ∃ between, Noted key noted front between ∧ Noted key between back after := by
  induction front generalizing noted with
  | nil => exact ⟨noted, .nil noted, h⟩
  | cons incident front ih =>
    cases h with
    | reset hresets hrest =>
      obtain ⟨between, hfront, hback⟩ := ih hrest
      exact ⟨between, .reset hresets hfront, hback⟩
    | failure hrest =>
      obtain ⟨between, hfront, hback⟩ := ih hrest
      exact ⟨between, .failure hfront, hback⟩
    | other hresets hfails hrest =>
      obtain ⟨between, hfront, hback⟩ := ih hrest
      exact ⟨between, .other hresets hfails hfront, hback⟩

/-- An error is told if the point had none, and then it had one. -/
theorem of_failure {reported : Bool} (h : Noted key noted (.failure key reported :: back) after) :
    reported = !noted ∧ Noted key true back after := by
  cases h with
  | reset hresets _ => exact hresets.elim
  | failure hrest => exact ⟨rfl, hrest⟩
  | other _ hfails _ => exact absurd rfl hfails

/-- A point that was put in or removed has had no error since. -/
theorem of_reset {incident : Incident} (hresets : incident.Resets key)
    (h : Noted key noted [incident] after) : after = false := by
  cases h with
  | reset _ hrest =>
    cases hrest
    rfl
  | failure _ => exact hresets.elim
  | other hother _ _ => exact absurd hresets hother

/-- An error stays noted until the point is put in or removed. -/
theorem eq_true_of_no_reset (h : Noted key noted incidents after) (hnoted : noted = true)
    (hno : ∀ incident ∈ incidents, ¬ incident.Resets key) : after = true := by
  induction h with
  | nil => exact hnoted
  | reset hresets _ _ => exact absurd hresets (hno _ List.mem_cons_self)
  | failure _ ih => exact ih rfl fun i hi => hno i (List.mem_cons_of_mem _ hi)
  | other _ _ _ ih => exact ih hnoted fun i hi => hno i (List.mem_cons_of_mem _ hi)

/-- Without an error nothing is noted. -/
theorem eq_false_of_no_failure (h : Noted key noted incidents after) (hnoted : noted = false)
    (hno : ∀ incident ∈ incidents, ¬ incident.Fails key) : after = false := by
  induction h with
  | nil => exact hnoted
  | reset _ _ ih => exact ih rfl fun i hi => hno i (List.mem_cons_of_mem _ hi)
  | failure _ _ => exact absurd rfl (hno _ List.mem_cons_self)
  | other _ _ _ ih => exact ih hnoted fun i hi => hno i (List.mem_cons_of_mem _ hi)

/-- Different points that had no errors are told of. -/
theorem map_reported {keys : List PointKey} (hn : keys.Nodup) (h : key ∈ keys → noted = false) :
    Noted key noted (keys.map (.failure · true)) (keys.contains key || noted) := by
  induction keys generalizing noted with
  | nil => exact .nil noted
  | cons other keys ih =>
    obtain ⟨hnot, hn⟩ := List.nodup_cons.mp hn
    by_cases heq : other = key
    · subst heq
      obtain rfl := h List.mem_cons_self
      have hrest : Noted other true (keys.map (.failure · true)) (keys.contains other || true) :=
        ih hn fun hmem => absurd hmem hnot
      have hfirst : Noted other false (.failure other true :: keys.map (.failure · true))
        (keys.contains other || true) := .failure hrest
      simpa using hfirst
    · have hrest := ih hn fun hmem => h (List.mem_cons_of_mem _ hmem)
      have hcontains : (other :: keys).contains key = keys.contains key := by
        simp [Ne.symm heq]
      rw [hcontains]
      exact .other (fun hr => hr.elim) heq hrest

/-- Points that have had errors are not told of again. -/
theorem map_repeated {keys : List PointKey} (h : key ∈ keys → noted = true) :
    Noted key noted (keys.map (.failure · false)) noted := by
  induction keys with
  | nil => exact .nil noted
  | cons other keys ih =>
    have hrest := ih fun hmem => h (List.mem_cons_of_mem _ hmem)
    by_cases heq : other = key
    · subst heq
      obtain rfl := h List.mem_cons_self
      exact .failure hrest
    · exact .other (fun hr => hr.elim) heq hrest

end Noted

/-! ## The incidents of an operation -/

namespace Registry

variable {registry changed : Registry} {key : PointKey}

/-- The incidents of steps, one after the other. -/
def incidentsAlong {α : Type} (step : Registry → α → Registry)
    (incidents : Registry → α → List Incident) (registry : Registry) : List α → List Incident
  | [] => []
  | a :: rest => incidents registry a ++ incidentsAlong step incidents (step registry a) rest

/-- A breakpoint is put in if it is taken. -/
def breakpointIncidents : Except RegistryError Breakpoint → List Incident
  | .ok breakpoint => [.reset (.breakpoint breakpoint.place)]
  | .error _ => []

/-- A watchpoint is put in if it is taken. -/
def watchpointIncidents : Except RegistryError Watchpoint → List Incident
  | .ok watchpoint => [.reset (.watchpoint watchpoint.condition)]
  | .error _ => []

/-- The incidents of a hit follow from its outcome. -/
def hitIncidents (place : Place) : HitOutcome → List Incident
  | .conditionError _ report => [.failure (.breakpoint place) report]
  | .stop true => [.reset (.breakpoint place)]
  | _ => []

/-- The incidents of a check of the watchpoints: the errors that it tells, and the other conditions
that were asked for and could not be evaluated. -/
def checkIncidents (errors failures : List (String × String)) : List Incident :=
  (errors.map fun error => PointKey.watchpoint error.1).map (.failure · true) ++
    ((failures.filter fun failure => !(errors.map Prod.fst).contains failure.1).map
      fun failure => PointKey.watchpoint failure.1).map (.failure · false)

/-- The incidents of an operation, in their order. -/
def incidents (registry : Registry) : RegistryOperation σ → List Incident
  | .insertBreakpoint breakpoint => breakpointIncidents (registry.insertBreakpoint breakpoint).1
  | .addBreakpoint file line condition temporary =>
    breakpointIncidents (registry.addBreakpoint file line condition temporary).1
  | .addBreakpointRecord record => breakpointIncidents (registry.addBreakpointRecord record).1
  | .removeBreakpoint file line => [.reset (.breakpoint (.ofLine file line))]
  | .hit file line evaluate memory =>
    hitIncidents (.ofLine file line) (registry.hit file line evaluate memory).1
  | .addWatchpoint watchpoint => watchpointIncidents (registry.addWatchpoint watchpoint).1
  | .addWatchpointRecord record => watchpointIncidents (registry.addWatchpointRecord record).1
  | .removeWatchpoint condition =>
    (registry.removeWatchpoint condition).1.toList.map
      fun watchpoint => .reset (.watchpoint watchpoint.condition)
  | .checkWatchpoints event evaluate memory =>
    checkIncidents (registry.checkWatchpoints event evaluate memory).1.errors
      ((verdicts event evaluate memory registry.watchpoints).1.filterMap Verdict.failure?)
  | .noteError key => [.failure key (registry.noteError key).1]
  | .restore snapshot =>
    incidentsAlong (fun registry breakpoint => (registry.insertBreakpoint breakpoint).2)
        (fun registry breakpoint =>
          breakpointIncidents (registry.insertBreakpoint breakpoint).1) registry
          snapshot.breakpoints ++
      incidentsAlong (fun registry watchpoint => (registry.addWatchpoint watchpoint).2)
        (fun registry watchpoint => watchpointIncidents (registry.addWatchpoint watchpoint).1)
        (snapshot.breakpoints.foldl
          (fun registry breakpoint => (registry.insertBreakpoint breakpoint).2) registry)
        snapshot.watchpoints
  | .clear => [.resetAll]
  | _ => []

/-- The incidents between two registries are told as they should. -/
def Tracks (key : PointKey) (registry : Registry) (incidents : List Incident)
    (changed : Registry) : Prop :=
  Noted key (registry.reported.contains key) incidents (changed.reported.contains key)

/-- Nothing happens where the same errors have been reported. -/
theorem tracks_of_eq (h : changed.reported = registry.reported) :
    Tracks key registry [] changed := by
  rw [Tracks, h]
  exact .nil _

/-- The errors of a point that is put in or removed are forgotten. -/
theorem tracks_of_filter {other : PointKey}
    (h : changed.reported = registry.reported.filter (· != other)) :
    Tracks key registry [.reset other] changed := by
  rw [Tracks, h]
  by_cases heq : other = key
  · have hgone : (registry.reported.filter (· != other)).contains key = false := by
      simp [heq]
    rw [hgone]
    exact .reset heq (.nil false)
  · have hkept : (registry.reported.filter (· != other)).contains key =
        registry.reported.contains key := by
      rw [Bool.eq_iff_iff]
      simp [Ne.symm heq]
    rw [hkept]
    exact .other heq id (.nil _)

/-- An error of a point is noted. -/
theorem tracks_noteError (registry : Registry) (other : PointKey) :
    Tracks key registry [.failure other (registry.noteError other).1]
      (registry.noteError other).2 := by
  rw [Tracks, noteError]
  by_cases heq : other = key
  · subst heq
    split
    · next hold =>
      rw [hold]
      exact .failure (.nil true)
    · next hnew =>
      rw [Bool.not_eq_true] at hnew
      have hnoted : (other :: registry.reported).contains other = true := by simp
      rw [hnew, hnoted]
      exact .failure (.nil true)
  · split
    · exact .other id heq (.nil _)
    · have hother : (other :: registry.reported).contains key = registry.reported.contains key := by
        simp [Ne.symm heq]
      rw [hother]
      exact .other id heq (.nil _)

/-- Incidents of steps are told as they should if those of each step are. -/
theorem tracks_along {α : Type} {step : Registry → α → Registry}
    {incidents : Registry → α → List Incident}
    (h : ∀ registry a, Tracks key registry (incidents registry a) (step registry a))
    (registry : Registry) (list : List α) :
    Tracks key registry (incidentsAlong step incidents registry list)
      (list.foldl step registry) := by
  induction list generalizing registry with
  | nil => exact .nil _
  | cons a list ih => exact (h registry a).append (ih (step registry a))

/-- A breakpoint that is added is put in, or nothing happens. -/
theorem tracks_insertBreakpoint (registry : Registry) (breakpoint : Breakpoint) :
    Tracks key registry (breakpointIncidents (registry.insertBreakpoint breakpoint).1)
      (registry.insertBreakpoint breakpoint).2 := by
  obtain ⟨lineCache, hcache⟩ := registry.isBreakable_snd breakpoint.file breakpoint.line
  rw [insertBreakpoint]
  cases hb : registry.isBreakable breakpoint.file breakpoint.line with
  | mk breakable asked =>
    obtain rfl : asked = { registry with lineCache } := by rw [← hcache, hb]
    cases breakable with
    | false => exact tracks_of_eq rfl
    | true => exact tracks_of_filter rfl

/-- A watchpoint that is added is put in, or nothing happens. -/
theorem tracks_addWatchpoint (registry : Registry) (watchpoint : Watchpoint) :
    Tracks key registry (watchpointIncidents (registry.addWatchpoint watchpoint).1)
      (registry.addWatchpoint watchpoint).2 := by
  rw [addWatchpoint]
  split
  · exact tracks_of_eq rfl
  · split
    · exact tracks_of_eq rfl
    · exact tracks_of_filter rfl

/-- A watchpoint that is removed is removed, or nothing happens. -/
theorem tracks_removeWatchpoint (registry : Registry) (condition : String) :
    Tracks key registry ((registry.removeWatchpoint condition).1.toList.map
        fun watchpoint => .reset (.watchpoint watchpoint.condition))
      (registry.removeWatchpoint condition).2 := by
  rw [removeWatchpoint]
  split
  · exact tracks_of_eq rfl
  · exact tracks_of_filter rfl

/-- A breakpoint that is modified is neither put in nor removed. -/
theorem reported_modifyBreakpoint (registry : Registry) (file : SourcePath) (line : UInt32)
    (change : Breakpoint → Breakpoint) :
    (registry.modifyBreakpoint file line change).2.reported = registry.reported := by
  rw [modifyBreakpoint_snd]

/-- A watchpoint that is modified is neither put in nor removed. -/
theorem reported_modifyWatchpoint (registry : Registry) (condition : String)
    (change : Watchpoint → Watchpoint) :
    (registry.modifyWatchpoint condition change).2.reported = registry.reported := by
  rw [modifyWatchpoint]
  split <;> rfl

/-- A hit tells of an error, removes a temporary breakpoint, or leaves the reports alone. -/
theorem tracks_hit (registry : Registry) (file : SourcePath) (line : UInt32)
    (evaluate : Evaluator σ) (memory : σ) :
    Tracks key registry
      (hitIncidents (.ofLine file line) (registry.hit file line evaluate memory).1)
      (registry.hit file line evaluate memory).2.1 := by
  cases hfound : registry.at? (.ofLine file line) with
  | none =>
    rw [hit_of_none hfound]
    exact tracks_of_eq rfl
  | some breakpoint =>
    cases henabled : breakpoint.enabled with
    | false =>
      rw [hit_of_disabled hfound henabled]
      exact tracks_of_eq rfl
    | true =>
      rw [hit_of_enabled hfound henabled]
      cases (breakpoint.ask evaluate memory).1 with
      | error message => exact registry.tracks_noteError _
      | ok holds =>
        cases holds with
        | false => exact tracks_of_eq rfl
        | true =>
          dsimp only
          split
          · exact tracks_of_eq (registry.reported_modifyBreakpoint file line _)
          · split
            · exact tracks_of_filter rfl
            · exact tracks_of_eq rfl

/-- The errors that a check tells, and what is reported behind it. -/
theorem checkWatchpoints_news (registry : Registry) (event : TraceEvent) (evaluate : Evaluator σ)
    (memory : σ) :
    (registry.checkWatchpoints event evaluate memory).1.errors = news registry.reported
        ((verdicts event evaluate memory registry.watchpoints).1.filterMap Verdict.failure?) ∧
      (registry.checkWatchpoints event evaluate memory).2.1.reported =
        ((registry.checkWatchpoints event evaluate memory).1.errors.map
          fun error => .watchpoint error.1).reverse ++ registry.reported := by
  rw [checkWatchpoints, checkFrom_eq]
  exact ⟨rfl, rfl⟩

/-- A check tells of the conditions that have failed and had not been reported, and reports them. -/
theorem tracks_checkIncidents {failures : List (String × String)}
    (h : changed.reported = ((news registry.reported failures).map
      fun error => PointKey.watchpoint error.1).reverse ++ registry.reported) :
    Tracks key registry (checkIncidents (news registry.reported failures) failures) changed := by
  have hmap : ∀ list : List (String × String), (list.map fun error => PointKey.watchpoint error.1) =
      (list.map Prod.fst).map PointKey.watchpoint := fun list => by rw [List.map_map]; rfl
  rw [Tracks, h, List.contains_append, List.contains_reverse, checkIncidents]
  refine (Noted.map_reported ?_ fun hmem => ?_).append (Noted.map_repeated fun hmem => ?_)
  · rw [hmap]
    exact (nodup_news _ _).map fun _ _ => PointKey.watchpoint.inj
  · rw [hmap] at hmem
    obtain ⟨condition, hnews, rfl⟩ := List.mem_map.mp hmem
    simpa using (mem_news_iff.mp hnews).2
  -- What has failed and is not told had been reported.
  · obtain ⟨failure, hfailure, rfl⟩ := List.mem_map.mp hmem
    obtain ⟨hfailed, hquiet⟩ := List.mem_filter.mp hfailure
    rw [Bool.not_eq_true', ← Bool.not_eq_true, List.contains_iff_mem, mem_news_iff, not_and,
      not_not] at hquiet
    have hold := hquiet (List.mem_map_of_mem hfailed)
    rw [List.contains_iff_mem.mpr hold, Bool.or_true]

/-- The incidents of an operation are told as they should. -/
theorem tracks_perform (registry : Registry) (operation : RegistryOperation σ) :
    Tracks key registry (registry.incidents operation) (registry.perform operation) := by
  cases operation with
  | insertBreakpoint breakpoint => exact registry.tracks_insertBreakpoint breakpoint
  | addBreakpoint file line condition temporary => exact registry.tracks_insertBreakpoint _
  | addBreakpointRecord record =>
    rw [incidents, perform, addBreakpointRecord]
    split
    · exact registry.tracks_insertBreakpoint _
    · exact tracks_of_eq rfl
  | removeBreakpoint file line => exact tracks_of_filter rfl
  | enableBreakpoint file line enabled =>
    exact tracks_of_eq (registry.reported_modifyBreakpoint file line _)
  | ignoreBreakpoint file line count =>
    exact tracks_of_eq (registry.reported_modifyBreakpoint file line _)
  | hit file line evaluate memory => exact registry.tracks_hit file line evaluate memory
  | addWatchpoint watchpoint => exact registry.tracks_addWatchpoint watchpoint
  | addWatchpointRecord record =>
    rw [incidents, perform, addWatchpointRecord]
    split
    · exact registry.tracks_addWatchpoint _
    · exact tracks_of_eq rfl
  | removeWatchpoint condition => exact registry.tracks_removeWatchpoint condition
  | enableWatchpoint condition enabled =>
    exact tracks_of_eq (registry.reported_modifyWatchpoint condition _)
  | ignoreWatchpoint condition count =>
    exact tracks_of_eq (registry.reported_modifyWatchpoint condition _)
  | checkWatchpoints event evaluate memory =>
    obtain ⟨herrors, hreported⟩ := registry.checkWatchpoints_news event evaluate memory
    rw [herrors] at hreported
    rw [incidents, herrors]
    exact tracks_checkIncidents hreported
  | noteError other => exact registry.tracks_noteError other
  | restore snapshot =>
    rw [perform, restoreInto_snd, incidents]
    exact (tracks_along tracks_insertBreakpoint registry snapshot.breakpoints).append
      (tracks_along tracks_addWatchpoint _ snapshot.watchpoints)
  | clear => exact .reset trivial (.nil false)
  | invalidate file => exact tracks_of_eq rfl
  | forgetLines => exact tracks_of_eq rfl
  | setProvider provider => exact tracks_of_eq rfl
  | editProvider provider => exact tracks_of_eq rfl

/-- On each run from an empty registry, a point that is reported twice has been put in or removed in
between, and the first error of a point since it was last put in or removed is reported. -/
theorem incidents_run (provider : Option CodeProvider) (operations : List (RegistryOperation σ))
    (key : PointKey) :
    (∀ front between back, incidentsAlong perform incidents { provider } operations =
        front ++ .failure key true :: (between ++ .failure key true :: back) →
      ∃ incident ∈ between, incident.Resets key) ∧
    ∀ before since reported back, incidentsAlong perform incidents { provider } operations =
        before ++ (since ++ .failure key reported :: back) →
      (before = [] ∨ ∃ earlier incident, before = earlier ++ [incident] ∧ incident.Resets key) →
        (∀ incident ∈ since, ¬ incident.Fails key) → reported = true := by
  have htracks : Noted key false (incidentsAlong perform incidents { provider } operations)
      ((run { provider } operations).reported.contains key) :=
    tracks_along tracks_perform { provider } operations
  constructor
  · intro front between back hall
    rw [hall] at htracks
    obtain ⟨_, -, hbehind⟩ := htracks.exists_between
    obtain ⟨_, hbetween, hlast⟩ := hbehind.of_failure.2.exists_between
    by_contra hno
    rw [hbetween.eq_true_of_no_reset rfl fun incident hi hr => hno ⟨incident, hi, hr⟩] at hlast
    exact Bool.false_ne_true hlast.of_failure.1.symm
  · intro before since reported back hall hstart hno
    rw [hall] at htracks
    obtain ⟨noted, hbefore, hbehind⟩ := htracks.exists_between
    have hforgotten : noted = false := by
      rcases hstart with rfl | ⟨earlier, incident, rfl, hresets⟩
      · cases hbefore
        rfl
      · obtain ⟨_, -, hreset⟩ := hbefore.exists_between
        exact hreset.of_reset hresets
    obtain ⟨_, hsince, hlast⟩ := hbehind.exists_between
    rw [hsince.eq_false_of_no_failure hforgotten hno] at hlast
    exact hlast.of_failure.1

/-- The place of a breakpoint whose condition names what there is not. -/
def unnamed : PointKey := .breakpoint (.ofLine "src/a.py" 5)

/-- Operations on a breakpoint whose condition fails before it is removed, and once more behind that. -/
def failedAgain : List (RegistryOperation Unit) :=
  [.insertBreakpoint ⟨"src/a.py", 5, some "x", false, true, 0⟩,
    .hit "src/a.py" 5 (fun _ memory => (.error "NameError", memory)) (),
    .hit "src//a.py" 5 (fun _ memory => (.error "NameError", memory)) (),
    .removeBreakpoint "src/a.py" 5, .noteError unnamed]

/-- An error is reported again behind the removal of the breakpoint, and not in front of it. -/
theorem incidents_run_failedAgain :
    incidentsAlong perform incidents {} failedAgain =
        [.reset unnamed, .failure unnamed true, .failure unnamed false, .reset unnamed,
          .failure unnamed true] ∧
      (∃ incident ∈ [Incident.failure unnamed false, .reset unnamed], incident.Resets unnamed) ∧
      ∀ reported, incidentsAlong perform incidents {} failedAgain =
          [.reset unnamed] ++ ([] ++ .failure unnamed reported ::
            [.failure unnamed false, .reset unnamed, .failure unnamed true]) →
        reported = true := by
  have hall : incidentsAlong perform incidents {} failedAgain =
      [.reset unnamed, .failure unnamed true, .failure unnamed false, .reset unnamed,
        .failure unnamed true] := by decide +kernel
  obtain ⟨honce, hfirst⟩ := incidents_run none failedAgain unnamed
  refine ⟨hall, honce [.reset unnamed] _ [] hall, fun reported h => ?_⟩
  exact hfirst [.reset unnamed] [] reported _ h (.inr ⟨[], .reset unnamed, rfl, rfl⟩) nofun

end Registry

end DebugLink
