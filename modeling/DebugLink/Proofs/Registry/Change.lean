import DebugLink.Proofs.Registry.Points
import DebugLink.Proofs.Text.Split

/-!
# Changes of points

The user changes points in eight ways. A change updates the registry and asks for requests that
tell a debuggee about it. A table that mirrors the registry in front of the change mirrors the
registry behind it once it has seen the requests. The one condition is about points that are
added: a breakpoint has to be written as the one at its place is, if there is one, and a point must
not be written as another one is.
-/

namespace DebugLink

/-- A change of a point that the user can make. -/
inductive PointChange where
  /-- Add a breakpoint, in place of one at the same place. -/
  | addBreakpoint (breakpoint : Breakpoint)
  /-- Remove the breakpoint at a line of a file. -/
  | removeBreakpoint (file : SourcePath) (line : UInt32)
  /-- Enable or disable a breakpoint. -/
  | enableBreakpoint (file : SourcePath) (line : UInt32) (enabled : Bool)
  /-- Let a breakpoint only count so many times. -/
  | ignoreBreakpoint (file : SourcePath) (line count : UInt32)
  /-- Add a watchpoint. -/
  | addWatchpoint (watchpoint : Watchpoint)
  /-- Remove the watchpoint of a condition. -/
  | removeWatchpoint (condition : String)
  /-- Enable or disable a watchpoint. -/
  | enableWatchpoint (condition : String) (enabled : Bool)
  /-- Let a watchpoint only count so many times. -/
  | ignoreWatchpoint (condition : String) (count : UInt32)
  deriving DecidableEq, Repr

/-- The requests about the point that a registry operation results in, with the registry; an
operation that fails asks for nothing. -/
def Registry.tell {α : Type} (requests : α → List Request) :
    Except RegistryError α × Registry → List Request × Registry
  | (.ok point, registry) => (requests point, registry)
  | (.error _, registry) => ([], registry)

/-- The requests about the point that was removed, if one was, with the registry. -/
def Registry.tellRemoved {α : Type} (request : α → Request) :
    Option α × Registry → List Request × Registry
  | (removed, registry) => (removed.toList.map request, registry)

/-- The requests that tell a debuggee about a change, and the registry behind the change. -/
def PointChange.apply (registry : Registry) : PointChange → List Request × Registry
  | addBreakpoint breakpoint =>
    Registry.tell Breakpoint.syncRequests (registry.insertBreakpoint breakpoint)
  | removeBreakpoint file line =>
    Registry.tellRemoved (Breakpoint.setRequest · false) (registry.removeBreakpoint file line)
  | enableBreakpoint file line enabled =>
    Registry.tell ([·.enableRequest]) (registry.enableBreakpoint file line enabled)
  | ignoreBreakpoint file line count =>
    Registry.tell ([·.ignoreRequest]) (registry.ignoreBreakpoint file line count)
  | addWatchpoint watchpoint =>
    Registry.tell Watchpoint.syncRequests (registry.addWatchpoint watchpoint)
  | removeWatchpoint condition =>
    Registry.tellRemoved (Watchpoint.setRequest · false) (registry.removeWatchpoint condition)
  | enableWatchpoint condition enabled =>
    Registry.tell ([·.enableRequest]) (registry.enableWatchpoint condition enabled)
  | ignoreWatchpoint condition count =>
    Registry.tell ([·.ignoreRequest]) (registry.ignoreWatchpoint condition count)

/-- A point that a change adds is written differently from the others, unless the registry refuses
it: a breakpoint at a line that cannot stop the program, and a watchpoint whose condition there is
already. A breakpoint that replaces one is written as that one is. -/
def PointChange.IsFresh (registry : Registry) : PointChange → Prop
  | addBreakpoint breakpoint =>
    (registry.isBreakable breakpoint.file breakpoint.line).1 = false ∨
      ∀ other ∈ registry.breakpoints,
        other.place = breakpoint.place ↔ other.key = breakpoint.key
  | addWatchpoint watchpoint =>
    (registry.watchpoint? watchpoint.condition).isSome = true ∨
      ∀ other ∈ registry.watchpoints, other.key ≠ watchpoint.key
  | _ => True

instance (registry : Registry) : DecidablePred (PointChange.IsFresh registry)
  | .addBreakpoint breakpoint => inferInstanceAs (Decidable
    ((registry.isBreakable breakpoint.file breakpoint.line).1 = false ∨
      ∀ other ∈ registry.breakpoints,
        other.place = breakpoint.place ↔ other.key = breakpoint.key))
  | .addWatchpoint watchpoint => inferInstanceAs (Decidable
    ((registry.watchpoint? watchpoint.condition).isSome = true ∨
      ∀ other ∈ registry.watchpoints, other.key ≠ watchpoint.key))
  | .removeBreakpoint .. | .enableBreakpoint .. | .ignoreBreakpoint .. | .removeWatchpoint _
  | .enableWatchpoint .. | .ignoreWatchpoint .. => isTrue trivial

/-- Requests tell a debuggee what has changed in a registry. -/
structure Registry.Tells (registry : Registry) (told : List Request × Registry) : Prop where
  /-- The changed registry is proper. -/
  proper : told.2.IsProper
  /-- All requests are about points. -/
  points : ∀ request ∈ told.1, request.point? ≠ none
  /-- A table that mirrors the registry mirrors the changed one behind the requests. -/
  mirrors : ∀ table, Mirrors table registry → Mirrors (table.replay told.1) told.2

namespace Registry

variable {registry changed : Registry}

/-- A change that leaves the points alone and asks for nothing. -/
theorem tells_of_same (hp : registry.IsProper) (hs : registry.SamePoints changed) :
    registry.Tells ([], changed) where
  proper := hp.of_samePoints hs
  points _ hm := absurd hm List.not_mem_nil
  mirrors _ h := h.of_samePoints hs

/-- A change of a breakpoint whose requests do to the table what it does to the registry. -/
theorem tells_of_breakpoint (hp : registry.IsProper) {breakpoint : Breakpoint}
    {new : Option Breakpoint} {requests : List Request}
    (hr : Replaces Breakpoint.key breakpoint.key new registry.breakpoints changed.breakpoints)
    (hs : Breakpoint.IsSorted changed.breakpoints)
    (hd : (changed.breakpoints.map Breakpoint.key).Nodup)
    (hw : changed.watchpoints = registry.watchpoints)
    (hm : ∀ request ∈ requests, request.point? = some breakpoint.key)
    (ht : ∀ table, Mirrors table registry → table.replay requests =
      Function.update table breakpoint.key (new.map Breakpoint.entry)) :
    registry.Tells (requests, changed) := by
  have hproper : changed.IsProper := ⟨hs, hd, by rw [hw]; exact hp.watchpoints⟩
  refine ⟨hproper, fun request h => by rw [hm request h]; simp, fun table h => ?_⟩
  rw [ht table h]
  exact h.revise_breakpoint hproper hr hw

/-- A change of a watchpoint whose requests do to the table what it does to the registry. -/
theorem tells_of_watchpoint (hp : registry.IsProper) {watchpoint : Watchpoint}
    {new : Option Watchpoint} {requests : List Request}
    (hr : Replaces Watchpoint.key watchpoint.key new registry.watchpoints changed.watchpoints)
    (hd : (changed.watchpoints.map Watchpoint.key).Nodup)
    (hb : changed.breakpoints = registry.breakpoints)
    (hm : ∀ request ∈ requests, request.point? = some watchpoint.key)
    (ht : ∀ table, Mirrors table registry → table.replay requests =
      Function.update table watchpoint.key (new.map Watchpoint.entry)) :
    registry.Tells (requests, changed) := by
  have hproper : changed.IsProper :=
    ⟨by rw [hb]; exact hp.sorted, by rw [hb]; exact hp.breakpoints, hd⟩
  refine ⟨hproper, fun request h => by rw [hm request h]; simp, fun table h => ?_⟩
  rw [ht table h]
  exact h.revise_watchpoint hproper hr hb

/-! ## Breakpoints -/

/-- To ask whether a line can stop the program leaves the points alone. -/
theorem isBreakable_snd (registry : Registry) (file : SourcePath) (line : UInt32) :
    ∃ lineCache, (registry.isBreakable file line).2 = { registry with lineCache } := by
  unfold isBreakable
  split
  · exact ⟨registry.lineCache, rfl⟩
  · exact ⟨_, rfl⟩

/-- A breakpoint that is added is refused, or put among the others. -/
theorem insertBreakpoint_cases (registry : Registry) (breakpoint : Breakpoint) :
    (∃ error changed, registry.insertBreakpoint breakpoint = (.error error, changed) ∧
      changed.breakpoints = registry.breakpoints ∧
        changed.watchpoints = registry.watchpoints) ∨
    ∃ changed, registry.insertBreakpoint breakpoint = (.ok breakpoint, changed) ∧
      changed.breakpoints = breakpoint.insertInto registry.breakpoints ∧
        changed.watchpoints = registry.watchpoints ∧
          (registry.isBreakable breakpoint.file breakpoint.line).1 = true := by
  obtain ⟨lineCache, hcache⟩ := registry.isBreakable_snd breakpoint.file breakpoint.line
  rw [insertBreakpoint]
  cases hb : registry.isBreakable breakpoint.file breakpoint.line with
  | mk breakable asked =>
    obtain rfl : asked = { registry with lineCache } := by rw [← hcache, hb]
    cases breakable with
    | false => exact .inl ⟨_, _, rfl, rfl, rfl⟩
    | true => exact .inr ⟨_, rfl, rfl, rfl, rfl⟩

/-- Sorted breakpoints are written differently if those that are written in one way are at one
place. -/
theorem nodup_key {list : List Breakpoint} (hs : Breakpoint.IsSorted list)
    (h : ∀ a ∈ list, ∀ b ∈ list, a.key = b.key → a.place = b.place) :
    (list.map Breakpoint.key).Nodup := by
  have hplaces := Breakpoint.nodup_of_isSorted hs
  exact hplaces.of_map.map_on fun a ha b hb heq =>
    List.inj_on_of_nodup_map hplaces ha hb (h a ha b hb heq)

/-- The requests of a breakpoint that is added tell of it, if it is fresh. -/
theorem tells_insertBreakpoint (hp : registry.IsProper) (breakpoint : Breakpoint)
    (hf : PointChange.IsFresh registry (.addBreakpoint breakpoint)) :
    registry.Tells (tell Breakpoint.syncRequests (registry.insertBreakpoint breakpoint)) := by
  rcases registry.insertBreakpoint_cases breakpoint with ⟨error, changed, h, hb, hw⟩ |
    ⟨changed, h, hb, hw, hbreakable⟩
  · rw [h]
    exact tells_of_same hp ⟨hb, hw⟩
  · have hfresh : ∀ other ∈ registry.breakpoints,
        other.place = breakpoint.place ↔ other.key = breakpoint.key :=
      hf.resolve_left (by rw [hbreakable]; exact Bool.noConfusion)
    have hr := Breakpoint.replaces_insertInto hp.sorted breakpoint
    have hs := Breakpoint.isSorted_insertInto hp.sorted breakpoint
    rw [← hb] at hr hs
    have hkeys : (changed.breakpoints.map Breakpoint.key).Nodup := by
      refine nodup_key hs fun a ha b hb heq => ?_
      rcases (hr.mem a).mp ha with ha | ⟨ha, -⟩ <;> rcases (hr.mem b).mp hb with hb | ⟨hb, -⟩
      · rw [← Option.some.inj ha, ← Option.some.inj hb]
      · rw [← Option.some.inj ha] at heq ⊢
        exact ((hfresh b hb).mpr heq.symm).symm
      · rw [← Option.some.inj hb] at heq ⊢
        exact (hfresh a ha).mpr heq
      · exact (hp.place_eq_iff ha hb).mpr heq
    rw [h]
    exact tells_of_breakpoint hp (hr.of_key (fun a ha => by rw [Option.some.inj ha]) hfresh) hs
      hkeys hw breakpoint.point?_of_mem_syncRequests
      fun table _ => table.replay_breakpoint breakpoint

/-- The request about a breakpoint that is removed tells of it. -/
theorem tells_removeBreakpoint (hp : registry.IsProper) (file : SourcePath) (line : UInt32) :
    registry.Tells
      (tellRemoved (Breakpoint.setRequest · false) (registry.removeBreakpoint file line)) := by
  rw [removeBreakpoint]
  cases hf : registry.breakpoint? file line with
  | none =>
    rw [breakpoint?, List.find?_eq_none] at hf
    refine tells_of_same hp ⟨List.filter_eq_self.mpr fun breakpoint hm => ?_, rfl⟩
    simpa using hf breakpoint hm
  | some breakpoint =>
    have hplace : breakpoint.place = .ofLine file line := by simpa using List.find?_some hf
    have hmem : breakpoint ∈ registry.breakpoints := List.mem_of_find?_eq_some hf
    rw [← hplace]
    have hr : Replaces Breakpoint.place breakpoint.place none registry.breakpoints
        (registry.breakpoints.filter (·.place != breakpoint.place)) := ⟨nofun, by simp⟩
    have hsub : (registry.breakpoints.filter (·.place != breakpoint.place)).Sublist
        registry.breakpoints := List.filter_sublist
    exact tells_of_breakpoint hp (hr.of_key nofun fun other ho => hp.place_eq_iff ho hmem)
      (List.Pairwise.sublist hsub hp.sorted) (hp.breakpoints.sublist (hsub.map _)) rfl
      (List.forall_mem_singleton.mpr rfl) fun table _ => rfl

/-- The request about a breakpoint that is modified tells of it. -/
theorem tells_modifyBreakpoint (hp : registry.IsProper) (file : SourcePath) (line : UInt32)
    {change : Breakpoint → Breakpoint} {request : Breakpoint → Request}
    (hc : ∀ breakpoint, (change breakpoint).place = breakpoint.place)
    (hw : ∀ breakpoint, (change breakpoint).key = breakpoint.key)
    (hk : ∀ breakpoint, (request breakpoint).point? = some breakpoint.key)
    (hr : ∀ breakpoint, (request (change breakpoint)).revise (some breakpoint.entry) =
      some (change breakpoint).entry) :
    registry.Tells (tell ([request ·]) (registry.modifyBreakpoint file line change)) := by
  rw [modifyBreakpoint]
  cases hf : registry.breakpoint? file line with
  | none => exact tells_of_same hp ⟨rfl, rfl⟩
  | some breakpoint =>
    have hplace : breakpoint.place = .ofLine file line := by simpa using List.find?_some hf
    have hmem : breakpoint ∈ registry.breakpoints := List.mem_of_find?_eq_some hf
    have hcase : ∀ other : Breakpoint, (other.place == .ofLine file line) = true ↔
        other.place = breakpoint.place := fun other => by rw [hplace, beq_iff_eq]
    have hs : Breakpoint.IsSorted (registry.breakpoints.map fun other =>
        if other.place == .ofLine file line then change other else other) :=
      Breakpoint.isSorted_map hp.sorted fun other => Breakpoint.apply_change_if hc _ other
    have hkeys : (registry.breakpoints.map fun other =>
        if other.place == .ofLine file line then change other else other).map Breakpoint.key =
          registry.breakpoints.map Breakpoint.key := by
      rw [List.map_map]
      exact List.map_congr_left fun other _ => Breakpoint.apply_change_if hw _ other
    have hreplaces := replaces_map (Breakpoint.nodup_of_isSorted hp.sorted) hmem hcase
      (hc breakpoint)
    refine tells_of_breakpoint hp
      (hreplaces.of_key (fun a ha => by rw [← Option.some.inj ha, hw])
        fun other ho => hp.place_eq_iff ho hmem) hs (by rw [hkeys]; exact hp.breakpoints) rfl
      (List.forall_mem_singleton.mpr ?_) fun table h => ?_
    · rw [hk, hw]
    · rw [PointTable.replay_cons, PointTable.replay_nil, PointTable.apply_of_point (hk _),
        hw, h.entry_breakpoint hmem, hr]
      rfl

/-! ## Watchpoints -/

/-- The requests of a watchpoint that is added tell of it, if it is fresh. -/
theorem tells_addWatchpoint (hp : registry.IsProper) (watchpoint : Watchpoint)
    (hf : PointChange.IsFresh registry (.addWatchpoint watchpoint)) :
    registry.Tells (tell Watchpoint.syncRequests (registry.addWatchpoint watchpoint)) := by
  rw [addWatchpoint]
  split
  · exact tells_of_same hp ⟨rfl, rfl⟩
  · split
    · exact tells_of_same hp ⟨rfl, rfl⟩
    · next hnew =>
      have hother : ∀ other ∈ registry.watchpoints, other.key ≠ watchpoint.key :=
        hf.resolve_left hnew
      have hr : Replaces Watchpoint.key watchpoint.key (some watchpoint)
          registry.watchpoints (registry.watchpoints ++ [watchpoint]) := by
        refine ⟨fun a ha => by rw [Option.some.inj ha], fun a => ?_⟩
        rw [List.mem_append, List.mem_singleton, Option.some.injEq, eq_comm (a := a), or_comm]
        exact or_congr_right ⟨fun ha => ⟨ha, hother a ha⟩, And.left⟩
      have hd : ((registry.watchpoints ++ [watchpoint]).map Watchpoint.key).Nodup := by
        rw [List.map_append, List.nodup_append]
        refine ⟨hp.watchpoints, List.nodup_singleton _, fun a ha b hb => ?_⟩
        obtain ⟨other, ho, rfl⟩ := List.mem_map.mp ha
        rw [List.mem_singleton.mp hb]
        exact hother other ho
      exact tells_of_watchpoint hp hr hd rfl
        watchpoint.point?_of_mem_syncRequests fun table _ => table.replay_watchpoint watchpoint

/-- The first watchpoint of a condition is erased. -/
theorem eraseP_of_front {front back : List Watchpoint} {watchpoint : Watchpoint}
    (h : ∀ other ∈ front, other.condition ≠ watchpoint.condition) :
    (front ++ watchpoint :: back).eraseP (·.condition == watchpoint.condition) = front ++ back := by
  rw [List.eraseP_append_right _ (by simpa using h), List.eraseP_cons_of_pos (by simp)]

/-- The first watchpoint of a condition is modified. -/
theorem modifyFirst_of_front {front back : List Watchpoint} {watchpoint : Watchpoint}
    (change : Watchpoint → Watchpoint)
    (h : ∀ other ∈ front, other.condition ≠ watchpoint.condition) :
    modifyFirst watchpoint.condition change (front ++ watchpoint :: back) =
      front ++ change watchpoint :: back := by
  induction front with
  | nil => rw [List.nil_append, modifyFirst, if_pos rfl, List.nil_append]
  | cons other front ih =>
    obtain ⟨hfirst, hrest⟩ := List.forall_mem_cons.mp h
    rw [List.cons_append, modifyFirst, if_neg hfirst, ih hrest, List.cons_append]

/-- Where a watchpoint of a condition is found, the ones in front have other conditions, and it
is the one that is erased or modified. -/
theorem watchpoint?_eq_some {condition : String} {watchpoint : Watchpoint}
    (h : registry.watchpoint? condition = some watchpoint) :
    ∃ front back, registry.watchpoints = front ++ watchpoint :: back ∧
      registry.watchpoints.eraseP (·.condition == watchpoint.condition) = front ++ back ∧
        ∀ change, modifyFirst watchpoint.condition change registry.watchpoints =
          front ++ change watchpoint :: back := by
  obtain ⟨hc, front, back, hw, hfront⟩ := List.find?_eq_some_iff_append.mp h
  rw [← eq_of_beq hc] at hfront
  have hne : ∀ other ∈ front, other.condition ≠ watchpoint.condition := by simpa using hfront
  rw [hw]
  exact ⟨front, back, rfl, eraseP_of_front hne, fun change => modifyFirst_of_front change hne⟩

/-- The request about a watchpoint that is removed tells of it. -/
theorem tells_removeWatchpoint (hp : registry.IsProper) (condition : String) :
    registry.Tells
      (tellRemoved (Watchpoint.setRequest · false) (registry.removeWatchpoint condition)) := by
  rw [removeWatchpoint]
  cases hf : registry.watchpoint? condition with
  | none => exact tells_of_same hp ⟨rfl, rfl⟩
  | some watchpoint =>
    obtain ⟨front, back, hw, herase, -⟩ := watchpoint?_eq_some hf
    have hn := hp.watchpoints
    rw [hw] at hn
    have hr : Replaces Watchpoint.key watchpoint.key none
        registry.watchpoints
        (registry.watchpoints.eraseP (·.condition == watchpoint.condition)) := by
      have hsplit : Replaces Watchpoint.key watchpoint.key none
          (front ++ watchpoint :: back) (front ++ [] ++ back) := replaces_split hn nofun
      rw [List.append_nil] at hsplit
      rwa [herase, hw]
    have hd : ((registry.watchpoints.eraseP (·.condition == watchpoint.condition)).map
        Watchpoint.key).Nodup :=
      hp.watchpoints.sublist (List.eraseP_sublist.map _)
    exact tells_of_watchpoint hp hr hd rfl
      (List.forall_mem_singleton.mpr rfl) fun table _ => rfl

/-- The request about a watchpoint that is modified tells of it. -/
theorem tells_modifyWatchpoint (hp : registry.IsProper) (condition : String)
    {change : Watchpoint → Watchpoint} {request : Watchpoint → Request}
    (hc : ∀ watchpoint, (change watchpoint).key = watchpoint.key)
    (hk : ∀ watchpoint, (request watchpoint).point? = some watchpoint.key)
    (hr : ∀ watchpoint, (request (change watchpoint)).revise (some watchpoint.entry) =
      some (change watchpoint).entry) :
    registry.Tells (tell ([request ·]) (registry.modifyWatchpoint condition change)) := by
  rw [modifyWatchpoint]
  cases hf : registry.watchpoint? condition with
  | none => exact tells_of_same hp ⟨rfl, rfl⟩
  | some watchpoint =>
    obtain ⟨front, back, hw, -, hmodify⟩ := watchpoint?_eq_some hf
    have hn := hp.watchpoints
    rw [hw] at hn
    have hmem : watchpoint ∈ registry.watchpoints := List.mem_of_find?_eq_some hf
    have hreplaces : Replaces Watchpoint.key watchpoint.key
        (some (change watchpoint)) registry.watchpoints
        (modifyFirst watchpoint.condition change registry.watchpoints) := by
      have hsplit : Replaces Watchpoint.key watchpoint.key
          (some (change watchpoint)) (front ++ watchpoint :: back)
          (front ++ [change watchpoint] ++ back) :=
        replaces_split hn fun a ha => by rw [← Option.some.inj ha, hc]
      rw [List.append_assoc] at hsplit
      rwa [hmodify, hw]
    have hd : ((modifyFirst watchpoint.condition change registry.watchpoints).map
        Watchpoint.key).Nodup := by
      rw [hmodify, List.map_append, List.map_cons, hc, ← List.map_cons, ← List.map_append]
      exact hn
    refine tells_of_watchpoint hp hreplaces hd rfl
      (List.forall_mem_singleton.mpr ?_)
      fun table h => ?_
    · rw [hk, hc]
    · rw [PointTable.replay_cons, PointTable.replay_nil, PointTable.apply_of_point (hk _),
        hc, h.entry_watchpoint hmem, hr]
      rfl

end Registry

/-! ## All changes -/

/-- The requests of a fresh change tell of it. -/
theorem PointChange.tells_apply {registry : Registry} (hp : registry.IsProper)
    {change : PointChange} (hf : change.IsFresh registry) :
    registry.Tells (change.apply registry) := by
  cases change with
  | addBreakpoint breakpoint => exact Registry.tells_insertBreakpoint hp breakpoint hf
  | removeBreakpoint file line => exact Registry.tells_removeBreakpoint hp file line
  | enableBreakpoint file line enabled =>
    exact Registry.tells_modifyBreakpoint hp file line (fun _ => rfl) (fun _ => rfl)
      (fun _ => rfl) fun _ => rfl
  | ignoreBreakpoint file line count =>
    exact Registry.tells_modifyBreakpoint hp file line (fun _ => rfl) (fun _ => rfl)
      (fun _ => rfl) fun _ => rfl
  | addWatchpoint watchpoint => exact Registry.tells_addWatchpoint hp watchpoint hf
  | removeWatchpoint condition => exact Registry.tells_removeWatchpoint hp condition
  | enableWatchpoint condition enabled =>
    exact Registry.tells_modifyWatchpoint hp condition (fun _ => rfl) (fun _ => rfl) fun _ => rfl
  | ignoreWatchpoint condition count =>
    exact Registry.tells_modifyWatchpoint hp condition (fun _ => rfl) (fun _ => rfl) fun _ => rfl

/-! ## Texts that carry the mark of a special watchpoint -/

namespace Watchpoint

/-- The mark is taken off a condition that it was put behind. -/
theorem conditionOfWire_append (condition : String) :
    conditionOfWire (condition ++ specialMark) = condition := by
  rw [conditionOfWire, String.toList_append, List.reverse_append, Text.Split.after?_append]
  dsimp only
  rw [List.reverse_reverse, String.ofList_toList]

/-- Watchpoints whose conditions do not carry the mark have the same condition if they are
written in the same way. -/
theorem condition_eq_of_wireCondition_eq {a b : Watchpoint}
    (ha : conditionOfWire a.condition = a.condition)
    (hb : conditionOfWire b.condition = b.condition)
    (h : a.wireCondition = b.wireCondition) : a.condition = b.condition := by
  -- A condition without the mark is not another one with it.
  have hmark : ∀ {c d : String}, conditionOfWire c = c → c = d ++ specialMark → False := by
    intro c d hc heq
    rw [heq, conditionOfWire_append] at hc
    have hlength := congrArg String.length hc
    rw [String.length_append] at hlength
    have hpositive : specialMark.length = 12 := by decide
    omega
  rw [wireCondition, wireCondition] at h
  split at h <;> split at h
  · have htext := congrArg conditionOfWire h
    rwa [conditionOfWire_append, conditionOfWire_append] at htext
  · exact (hmark hb h.symm).elim
  · exact (hmark ha h).elim
  · exact h

end Watchpoint

end DebugLink
