import DebugLink.Proofs.Registry.Operation

/-!
# Watchpoints by condition

A watchpoint is looked up without the mark of a special watchpoint, and it is stored with what it was
given. So conditions that do not carry the mark are the keys of a map in the order of insertion, on
every run: they stay different, and what a text names is found at its place and nowhere else. A
condition that carries the mark is never found by itself, not even by the look for a duplicate.
-/

namespace DebugLink

namespace Watchpoint

/-- A condition does not carry the mark of a special watchpoint. -/
def isPlain (condition : String) : Bool := conditionOfWire condition == condition

end Watchpoint

open Watchpoint (isPlain conditionOfWire)

/-- What may become of the conditions of a registry when more are offered: those that stay keep
their order, new ones are put behind them, and plain ones stay different. -/
structure Follows (before offered after : List String) : Prop where
  /-- The conditions are in the order they were offered in. -/
  sublist : after.Sublist (before ++ offered)
  /-- No plain condition is there twice. -/
  nodup : (before.filter isPlain).Nodup → (after.filter isPlain).Nodup

namespace Follows

variable {before between after offered more : List String}

/-- Conditions may be dropped, and what is offered need not be taken. -/
theorem of_sublist (h : after.Sublist before) (offered : List String) :
    Follows before offered after where
  sublist := h.trans (List.sublist_append_left _ _)
  nodup hn := hn.sublist (h.filter _)

/-- What is offered in two steps is offered. -/
theorem trans (h : Follows before offered between) (h' : Follows between more after) :
    Follows before (offered ++ more) after where
  sublist := by
    rw [← List.append_assoc]
    exact h'.sublist.trans (h.sublist.append_right more)
  nodup hn := h'.nodup (h.nodup hn)

/-- A condition is put behind the others if there is none that it names. -/
theorem of_notMem {condition : String} (h : conditionOfWire condition ∉ before) :
    Follows before [condition] (before ++ [condition]) where
  sublist := List.Sublist.refl _
  nodup hn := by
    rw [List.filter_append, List.nodup_append]
    refine ⟨hn, (List.nodup_singleton _).filter _, fun a ha b hb heq => ?_⟩
    obtain ⟨hmem, hplain⟩ := List.mem_filter.mp hb
    rw [List.mem_singleton] at hmem
    rw [heq, hmem] at ha
    rw [hmem, isPlain, beq_iff_eq] at hplain
    rw [hplain] at h
    exact h (List.mem_of_mem_filter ha)

/-- What is offered one after the other is offered. -/
theorem foldl {α : Type} {add : Registry → α → Registry} (condition : α → List String)
    (h : ∀ registry a, Follows (registry.conditions) (condition a) (add registry a).conditions)
    (registry : Registry) (list : List α) :
    Follows registry.conditions (list.flatMap condition) (list.foldl add registry).conditions := by
  induction list generalizing registry with
  | nil => exact of_sublist (List.Sublist.refl _) _
  | cons a list ih =>
    rw [List.flatMap_cons]
    exact (h registry a).trans (ih (add registry a))

end Follows

namespace Registry

variable {σ : Type} {registry changed : Registry}

/-- No operation on breakpoints touches a condition. -/
theorem follows_of_eq (h : changed.watchpoints = registry.watchpoints) (offered : List String) :
    Follows registry.conditions offered changed.conditions := by
  rw [conditions, conditions, h]
  exact Follows.of_sublist (List.Sublist.refl _) offered

/-- A watchpoint that is added is put behind the others, if none is found by its condition. -/
theorem follows_addWatchpoint (registry : Registry) (watchpoint : Watchpoint) :
    Follows registry.conditions [watchpoint.condition]
      (registry.addWatchpoint watchpoint).2.conditions := by
  rw [addWatchpoint]
  split
  · exact follows_of_eq rfl _
  · split
    · exact follows_of_eq rfl _
    · next hnew =>
      have hconditions : conditions { registry.forgetError (.watchpoint watchpoint.condition) with
          watchpoints := registry.watchpoints ++ [watchpoint] } =
            registry.conditions ++ [watchpoint.condition] := by simp [conditions]
      have hnot : conditionOfWire watchpoint.condition ∉ registry.conditions := fun hmem => by
        obtain ⟨other, hother, heq⟩ := List.mem_map.mp hmem
        exact hnew (List.find?_isSome.mpr ⟨other, hother, beq_iff_eq.mpr heq⟩)
      exact hconditions ▸ Follows.of_notMem hnot

/-- A watchpoint that is removed leaves the others in their order. -/
theorem follows_removeWatchpoint (registry : Registry) (condition : String) :
    Follows registry.conditions [] (registry.removeWatchpoint condition).2.conditions := by
  rw [removeWatchpoint]
  split
  · exact follows_of_eq rfl _
  · exact Follows.of_sublist (List.eraseP_sublist.map _) _

/-- A watchpoint that is modified keeps its condition. -/
theorem follows_modifyWatchpoint (registry : Registry) (condition : String)
    {change : Watchpoint → Watchpoint}
    (hc : ∀ watchpoint, (change watchpoint).condition = watchpoint.condition) :
    Follows registry.conditions [] (registry.modifyWatchpoint condition change).2.conditions := by
  rw [modifyWatchpoint]
  cases hfound : registry.watchpoint? condition with
  | none => exact follows_of_eq rfl _
  | some watchpoint =>
    obtain ⟨front, back, hw, -, hmodify⟩ := watchpoint?_eq_some hfound
    have hsame : (modifyFirst watchpoint.condition change registry.watchpoints).map
        Watchpoint.condition = registry.conditions := by
      rw [conditions, hmodify, hw]
      simp [hc]
    exact Follows.of_sublist (hsame ▸ List.Sublist.refl _) _

/-- What an operation may do to the conditions. -/
theorem follows_perform (registry : Registry) (operation : RegistryOperation σ) :
    Follows registry.conditions operation.offered (registry.perform operation).conditions := by
  cases operation with
  | insertBreakpoint breakpoint => exact follows_of_eq (watchpoints_insertBreakpoint _ _) _
  | addBreakpoint file line condition temporary =>
    exact follows_of_eq (watchpoints_insertBreakpoint _ _) _
  | addBreakpointRecord record =>
    rw [perform, addBreakpointRecord]
    split
    · exact follows_of_eq (watchpoints_insertBreakpoint _ _) _
    · exact follows_of_eq rfl _
  | removeBreakpoint file line => exact follows_of_eq rfl _
  | enableBreakpoint file line enabled =>
    exact follows_of_eq (by rw [perform, enableBreakpoint, modifyBreakpoint_snd]) _
  | ignoreBreakpoint file line count =>
    exact follows_of_eq (by rw [perform, ignoreBreakpoint, modifyBreakpoint_snd]) _
  | hit file line evaluate memory =>
    refine follows_of_eq ?_ _
    rw [perform]
    rcases registry.hit_cases file line evaluate memory with ⟨remaining, -, h⟩ | ⟨-, h⟩ |
      ⟨-, -, -, h⟩
    · rw [h, ignoreBreakpoint, modifyBreakpoint_snd]
    · rw [h, removeBreakpoint_snd]
    · exact h
  | addWatchpoint watchpoint => exact registry.follows_addWatchpoint watchpoint
  | addWatchpointRecord record =>
    rw [perform, addWatchpointRecord, RegistryOperation.offered]
    cases Watchpoint.ofRecord record with
    | ok watchpoint => exact registry.follows_addWatchpoint watchpoint
    | error reason => exact follows_of_eq rfl _
  | removeWatchpoint condition => exact registry.follows_removeWatchpoint condition
  | enableWatchpoint condition enabled => exact registry.follows_modifyWatchpoint condition fun _ => rfl
  | ignoreWatchpoint condition count => exact registry.follows_modifyWatchpoint condition fun _ => rfl
  | checkWatchpoints event evaluate memory =>
    exact .of_sublist (checkFrom_spec event evaluate memory registry {} [] _).2 _
  | noteError key => exact follows_of_eq (registry.sameBreakpoints_noteError key).2 _
  | restore snapshot =>
    rw [perform, restoreInto_snd, RegistryOperation.offered]
    have hbreakpoints := Follows.foldl (fun _ => []) (fun registry breakpoint =>
      follows_of_eq (registry.watchpoints_insertBreakpoint breakpoint) []) registry
        snapshot.breakpoints
    have hwatchpoints := Follows.foldl (fun watchpoint => [watchpoint.condition])
      follows_addWatchpoint (snapshot.breakpoints.foldl
        (fun registry breakpoint => (registry.insertBreakpoint breakpoint).2) registry)
          snapshot.watchpoints
    have hnone : snapshot.breakpoints.flatMap (fun _ => ([] : List String)) = [] :=
      List.flatMap_eq_nil_iff.mpr fun _ _ => rfl
    have hboth := hbreakpoints.trans hwatchpoints
    rwa [hnone, List.nil_append, ← List.map_eq_flatMap] at hboth
  | clear => exact .of_sublist (List.nil_sublist _) _
  | invalidate file => exact follows_of_eq rfl _
  | forgetLines => exact follows_of_eq rfl _
  | setProvider provider => exact follows_of_eq rfl _
  | editProvider provider => exact follows_of_eq rfl _

/-- What operations may do to the conditions, one after the other. -/
theorem follows_run (registry : Registry) (operations : List (RegistryOperation σ)) :
    Follows registry.conditions (operations.flatMap RegistryOperation.offered)
      (registry.run operations).conditions :=
  Follows.foldl RegistryOperation.offered follows_perform registry operations

/-! ## What a text names -/

/-- The operations on the watchpoint of a text find the watchpoint between the given ones, and
they change it, or take it out, and nothing else. -/
structure ActsAt (registry : Registry) (text : String) (front : List Watchpoint)
    (watchpoint : Watchpoint) (back : List Watchpoint) : Prop where
  /-- The watchpoint is the one that is found. -/
  found : registry.watchpoint? text = some watchpoint
  /-- It is the one that is enabled or disabled. -/
  enabled : ∀ enabled, registry.enableWatchpoint text enabled =
    (.ok { watchpoint with enabled },
      { registry with watchpoints := front ++ { watchpoint with enabled } :: back })
  /-- It is the one that only counts. -/
  ignored : ∀ count, registry.ignoreWatchpoint text count =
    (.ok { watchpoint with ignoreCount := count },
      { registry with watchpoints := front ++ { watchpoint with ignoreCount := count } :: back })
  /-- It is the one that is removed, and its errors are news again. -/
  removed : registry.removeWatchpoint text =
    (some watchpoint, { registry with
      watchpoints := front ++ back
      reported := registry.reported.filter (· != .watchpoint watchpoint.condition) })

/-- A text names the first watchpoint with its condition. -/
theorem actsAt_of_front {text : String} {front back : List Watchpoint} {watchpoint : Watchpoint}
    (hw : registry.watchpoints = front ++ watchpoint :: back)
    (hfront : ∀ other ∈ front, other.condition ≠ watchpoint.condition)
    (htext : conditionOfWire text = watchpoint.condition) :
    registry.ActsAt text front watchpoint back := by
  have hfound : registry.watchpoint? text = some watchpoint := by
    refine List.find?_eq_some_iff_append.mpr ⟨beq_iff_eq.mpr htext.symm, front, back, hw, ?_⟩
    simpa [htext] using hfront
  refine ⟨hfound, fun enabled => ?_, fun count => ?_, ?_⟩
  · rw [enableWatchpoint, modifyWatchpoint, hfound, hw]
    dsimp only
    rw [modifyFirst_of_front _ hfront]
  · rw [ignoreWatchpoint, modifyWatchpoint, hfound, hw]
    dsimp only
    rw [modifyFirst_of_front _ hfront]
  · rw [removeWatchpoint, hfound]
    dsimp only
    rw [forgetError, hw, eraseP_of_front hfront]

/-- A watchpoint that a text names has the condition of the text. -/
theorem ActsAt.conditionOfWire_eq {text : String} {front back : List Watchpoint}
    {watchpoint : Watchpoint} (h : registry.ActsAt text front watchpoint back) :
    conditionOfWire text = watchpoint.condition := by
  have hcondition := List.find?_some h.found
  exact (beq_iff_eq.mp hcondition).symm

/-- The condition of a watchpoint is found behind its text for the debuggee, if it is plain. -/
theorem conditionOfWire_wireCondition {watchpoint : Watchpoint}
    (h : conditionOfWire watchpoint.condition = watchpoint.condition) :
    conditionOfWire watchpoint.wireCondition = watchpoint.condition := by
  rw [Watchpoint.wireCondition]
  split
  · exact Watchpoint.conditionOfWire_append _
  · exact h

/-- On each run from an empty registry, the conditions are in the order they were offered in, and
those that do not carry the mark of a special watchpoint are different. A watchpoint is found,
changed and removed by its condition exactly if that does not carry the mark, and then it is so by
its text for the debuggee. -/
theorem watchpoints_run (provider : Option CodeProvider)
    (operations : List (RegistryOperation σ)) :
    (run { provider } operations).conditions.Sublist
        (operations.flatMap RegistryOperation.offered) ∧
      ((run { provider } operations).conditions.filter isPlain).Nodup ∧
      ∀ front watchpoint back,
        (run { provider } operations).watchpoints = front ++ watchpoint :: back →
          ((run { provider } operations).ActsAt watchpoint.condition front watchpoint back ↔
            isPlain watchpoint.condition) ∧
          (isPlain watchpoint.condition →
            (run { provider } operations).ActsAt watchpoint.wireCondition front watchpoint back) := by
  have hfollows := follows_run { provider } operations
  have hnodup := hfollows.nodup List.nodup_nil
  refine ⟨hfollows.sublist, hnodup, fun front watchpoint back hw => ?_⟩
  -- A plain condition is there once, so the watchpoint is the first one that has it.
  have hfront : isPlain watchpoint.condition → ∀ other ∈ front,
      other.condition ≠ watchpoint.condition := by
    intro hplain other hother heq
    rw [conditions, hw, List.map_append, List.map_cons, List.filter_append,
      List.filter_cons_of_pos hplain, List.nodup_append] at hnodup
    refine hnodup.2.2 watchpoint.condition ?_ watchpoint.condition List.mem_cons_self rfl
    exact List.mem_filter.mpr ⟨List.mem_map.mpr ⟨other, hother, heq⟩, hplain⟩
  refine ⟨⟨fun h => beq_iff_eq.mpr h.conditionOfWire_eq, fun hplain => ?_⟩, fun hplain => ?_⟩
  · exact actsAt_of_front hw (hfront hplain) (beq_iff_eq.mp hplain)
  · exact actsAt_of_front hw (hfront hplain)
      (conditionOfWire_wireCondition (beq_iff_eq.mp hplain))

/-- A special watchpoint in front of another one is found by its condition, and by that with the
mark. -/
theorem watchpoints_run_special :
    ActsAt { watchpoints := [⟨"x", true, false, true, 0⟩, ⟨"y", false, false, true, 0⟩] } "x" []
        ⟨"x", true, false, true, 0⟩ [⟨"y", false, false, true, 0⟩] ∧
      ActsAt { watchpoints := [⟨"x", true, false, true, 0⟩, ⟨"y", false, false, true, 0⟩] }
        "x ??changed??" [] ⟨"x", true, false, true, 0⟩ [⟨"y", false, false, true, 0⟩] := by
  have hacts := (watchpoints_run (σ := Unit) none
    [.addWatchpoint ⟨"x", true, false, true, 0⟩, .addWatchpoint ⟨"y", false, false, true, 0⟩]).2.2
      [] ⟨"x", true, false, true, 0⟩ [⟨"y", false, false, true, 0⟩] rfl
  exact ⟨hacts.1.mpr (by decide), hacts.2 (by decide)⟩

/-- A condition that carries the mark is taken twice, and not found by itself. -/
theorem not_watchpoints_run_marked :
    ¬ ∀ operations : List (RegistryOperation Unit), (run {} operations).conditions.Nodup ∧
      ∀ watchpoint ∈ (run {} operations).watchpoints,
        (run {} operations).watchpoint? watchpoint.condition = some watchpoint := by
  intro h
  have htwice := h [.addWatchpoint ⟨"x ??changed??", false, false, true, 0⟩,
    .addWatchpoint ⟨"x ??changed??", false, false, true, 0⟩]
  exact absurd htwice.1 (by decide)

end Registry

end DebugLink
