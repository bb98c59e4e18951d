import DebugLink.Proofs.Registry.Conditions
import DebugLink.Proofs.Registry.Places
import DebugLink.Proofs.Registry.Record
import DebugLink.Proofs.Text.Split

/-!
# What a debuggee makes of all points

A debuggee keeps a row for each point that it was told of. A request to set a point makes a row, or
renews the one that is there, and the other requests change a row where it stands. A registry keeps
breakpoints at different places, and watchpoints with different conditions. They are written
differently as well, unless a condition carries the mark of a special watchpoint, or two files that
are no texts look alike. So the requests that make all points make one row for each of them, in
their order, from which each point can be read back as it is, in the file that is shown.
-/

namespace DebugLink

/-- A row of the table of a debuggee. -/
structure PointRow where
  /-- What the point is found by. -/
  key : WireKey
  /-- What is kept about it. -/
  entry : PointEntry
  deriving DecidableEq, Repr

/-- The rows of a debuggee, in the order in which they were made. -/
abbrev PointRows := List PointRow

namespace PointRows

/-- Revise what is kept under a key, in its row if there is one, and else behind all rows. -/
def reviseAt (key : WireKey) (revise : Option PointEntry → Option PointEntry) :
    PointRows → PointRows
  | [] => (revise none).toList.map (⟨key, ·⟩)
  | row :: rest =>
    if row.key = key then (revise row.entry).toList.map (⟨key, ·⟩) ++ rest
    else row :: reviseAt key revise rest

/-- The rows behind a request. -/
def apply (rows : PointRows) (request : Request) : PointRows :=
  match request.point? with
  | some key => reviseAt key request.revise rows
  | none => rows

/-- The rows behind requests, in their order. -/
def replay (rows : PointRows) (requests : List Request) : PointRows := requests.foldl apply rows

/-- The keys of the rows. -/
def keys (rows : PointRows) : List WireKey := rows.map PointRow.key

variable {rows : PointRows} {request : Request} {key : WireKey}

/-- The first request acts first. -/
theorem replay_cons (rows : PointRows) (request : Request) (requests : List Request) :
    rows.replay (request :: requests) = (rows.apply request).replay requests := rfl

/-- Requests act one after the other. -/
theorem replay_append (rows : PointRows) (front back : List Request) :
    rows.replay (front ++ back) = (rows.replay front).replay back := List.foldl_append

/-- A request revises what is kept under its key. -/
theorem apply_of_point (h : request.point? = some key) :
    rows.apply request = reviseAt key request.revise rows := by
  rw [apply, h]

/-- What has no row gets one behind the others. -/
theorem reviseAt_of_notMem (h : key ∉ rows.keys)
    (revise : Option PointEntry → Option PointEntry) :
    reviseAt key revise rows = rows ++ (revise none).toList.map (⟨key, ·⟩) := by
  induction rows with
  | nil => rfl
  | cons row rest ih =>
    have hne : key ≠ row.key := List.ne_of_not_mem_cons h
    rw [reviseAt, if_neg hne.symm, ih (List.not_mem_of_not_mem_cons h), List.cons_append]

/-- The row that was made last is revised where it stands. -/
theorem reviseAt_last (h : key ∉ rows.keys) (revise : Option PointEntry → Option PointEntry)
    (entry : PointEntry) :
    reviseAt key revise (rows ++ [⟨key, entry⟩]) =
      rows ++ (revise entry).toList.map (⟨key, ·⟩) := by
  induction rows with
  | nil => simp [reviseAt]
  | cons row rest ih =>
    have hne : key ≠ row.key := List.ne_of_not_mem_cons h
    rw [List.cons_append, reviseAt, if_neg hne.symm, ih (List.not_mem_of_not_mem_cons h),
      List.cons_append]

/-- To set a point that has no row, disable it if it is not enabled and let it count if it is to count
makes its row. -/
theorem replay_syncRequests {set enable ignore : Request} (entry : PointEntry)
    (hset : set.point? = some key) (henable : enable.point? = some key)
    (hignore : ignore.point? = some key)
    (hs : ∀ old, set.revise old = some { entry with enabled := true, ignoreCount := 0 })
    (he : ∀ old, enable.revise old = old.map ({ · with enabled := entry.enabled }))
    (hi : ∀ old, ignore.revise old = old.map ({ · with ignoreCount := entry.ignoreCount }))
    (hnew : key ∉ rows.keys) :
    rows.replay ([set] ++ (if entry.enabled then [] else [enable]) ++
      (if entry.ignoreCount > 0 then [ignore] else [])) = rows ++ [⟨key, entry⟩] := by
  have hfirst : rows.replay [set] =
      rows ++ [⟨key, { entry with enabled := true, ignoreCount := 0 }⟩] := by
    rw [replay_cons, apply_of_point hset, reviseAt_of_notMem hnew, hs]
    rfl
  have hsecond : (rows.replay [set]).replay (if entry.enabled then [] else [enable]) =
      rows ++ [⟨key, { entry with ignoreCount := 0 }⟩] := by
    rw [hfirst]
    cases hcase : entry.enabled with
    | true =>
      rw [if_pos rfl, ← hcase]
      rfl
    | false =>
      rw [if_neg Bool.false_ne_true, replay_cons, apply_of_point henable, reviseAt_last hnew, he,
        hcase]
      rfl
  rw [replay_append, replay_append, hsecond]
  split
  · rw [replay_cons, apply_of_point hignore, reviseAt_last hnew, hi]
    rfl
  · next hzero =>
    have hcount : entry.ignoreCount = 0 := by simpa using hzero
    rw [← hcount]
    rfl

/-- Requests that make points one after the other make their rows, if their keys differ from each
other and from those that are there. -/
theorem replay_flatMap {α : Type} {requests : α → List Request} {row : α → PointRow}
    (h : ∀ a (rows : PointRows), (row a).key ∉ rows.keys →
      rows.replay (requests a) = rows ++ [row a])
    {list : List α} {rows : PointRows} (hn : (keys (rows ++ list.map row)).Nodup) :
    rows.replay (list.flatMap requests) = rows ++ list.map row := by
  induction list generalizing rows with
  | nil => exact (List.append_nil rows).symm
  | cons a list ih =>
    have hnew : (row a).key ∉ rows.keys := by
      rw [List.map_cons, keys, List.map_append, List.map_cons, List.nodup_middle] at hn
      exact fun hm => (List.nodup_cons.mp hn).1 (List.mem_append_left _ hm)
    have hsplit : rows ++ (a :: list).map row = rows ++ [row a] ++ list.map row := by
      rw [List.map_cons, List.append_assoc]
      rfl
    rw [hsplit] at hn ⊢
    rw [List.flatMap_cons, replay_append, h a rows hnew, ih hn]

end PointRows

/-! ## The rows of a registry -/

/-- The row of a breakpoint. -/
def Breakpoint.row (breakpoint : Breakpoint) : PointRow :=
  ⟨breakpoint.key, breakpoint.entry⟩

/-- The row of a watchpoint. -/
def Watchpoint.row (watchpoint : Watchpoint) : PointRow :=
  ⟨watchpoint.key, watchpoint.entry⟩

/-- The rows of all points. -/
def Registry.rows (registry : Registry) : PointRows :=
  registry.breakpoints.map Breakpoint.row ++ registry.watchpoints.map Watchpoint.row

namespace PointRow

/-- The breakpoint of a row. -/
def breakpoint? (row : PointRow) : Option Breakpoint :=
  match row.key with
  | .breakpoint file line => some {
      file := .ofText file, line, condition := row.entry.condition, temporary := row.entry.temporary,
      enabled := row.entry.enabled, ignoreCount := row.entry.ignoreCount }
  | .watchpoint _ => none

/-- The watchpoint of a row: it is special if its text carries the mark. -/
def watchpoint? (row : PointRow) : Option Watchpoint :=
  match row.key with
  | .breakpoint _ _ => none
  | .watchpoint text => some {
      condition := Watchpoint.conditionOfWire text, special := !Watchpoint.isPlain text,
      temporary := row.entry.temporary, enabled := row.entry.enabled,
      ignoreCount := row.entry.ignoreCount }

end PointRow

namespace Watchpoint

/-- A condition carries the mark if it ends with it. -/
theorem isPlain_iff {condition : String} :
    isPlain condition = true ↔ ¬ specialMark.toList <:+ condition.toList := by
  rw [isPlain, beq_iff_eq, conditionOfWire]
  split
  · next rest hrest =>
    have htext : condition.toList = rest.reverse ++ specialMark.toList := by
      have hreverse := congrArg List.reverse (Text.Split.after?_eq_some_iff.mp hrest)
      rwa [List.reverse_reverse, List.reverse_append, List.reverse_reverse] at hreverse
    refine iff_of_false (fun heq => ?_) (not_not.mpr ⟨rest.reverse, htext.symm⟩)
    have hlength := congrArg List.length htext
    rw [← heq, String.toList_ofList, List.length_append] at hlength
    have hpositive : specialMark.toList.length = 12 := by decide
    omega
  · next hnone =>
    refine iff_of_true rfl ?_
    rintro ⟨front, htext⟩
    have hsome := Text.Split.after?_append specialMark.toList.reverse front.reverse
    rw [← List.reverse_append, htext, hnone] at hsome
    cases hsome

/-- The text of a watchpoint carries the mark if the watchpoint is special, unless its condition
carries it. -/
theorem isPlain_wireCondition {watchpoint : Watchpoint} (h : isPlain watchpoint.condition = true) :
    isPlain watchpoint.wireCondition = !watchpoint.special := by
  rw [wireCondition]
  cases watchpoint.special with
  | false => exact h
  | true =>
    rw [if_pos rfl, Bool.not_true, ← Bool.not_eq_true, isPlain_iff, not_not, String.toList_append]
    exact List.suffix_append _ _

/-- A watchpoint is read back from its row, unless its condition carries the mark. -/
theorem watchpoint?_row {watchpoint : Watchpoint} (h : isPlain watchpoint.condition = true) :
    watchpoint.row.watchpoint? = some watchpoint := by
  have htext := Registry.conditionOfWire_wireCondition (beq_iff_eq.mp h)
  simp only [row, key, PointRow.watchpoint?, htext, isPlain_wireCondition h, Bool.not_not, entry]

end Watchpoint

namespace Registry

variable {registry : Registry}

/-- The rows have the keys of the points. -/
theorem keys_rows (registry : Registry) :
    registry.rows.keys = registry.points.map Prod.fst := by
  rw [rows, points, PointRows.keys, List.map_append, List.map_append, List.map_map, List.map_map,
    List.map_map, List.map_map]
  rfl

/-- Watchpoints with different conditions that do not carry the mark are written differently. -/
theorem nodup_key_watchpoints (hn : registry.conditions.Nodup)
    (hp : ∀ watchpoint ∈ registry.watchpoints, Watchpoint.isPlain watchpoint.condition = true) :
    (registry.watchpoints.map Watchpoint.key).Nodup := by
  refine List.pairwise_map.mpr (List.Pairwise.imp_of_mem (fun ha hb hab heq => hab ?_)
    (List.pairwise_map.mp hn))
  exact Watchpoint.condition_eq_of_wireCondition_eq (beq_iff_eq.mp (hp _ ha))
    (beq_iff_eq.mp (hp _ hb)) (WireKey.watchpoint.inj heq)

/-- The requests that make all points make their rows, if these have different keys. -/
theorem replay_syncRequests (hn : registry.rows.keys.Nodup) :
    PointRows.replay [] registry.syncRequests = registry.rows := by
  have hb : ∀ (breakpoint : Breakpoint) (rows : PointRows), breakpoint.row.key ∉ rows.keys →
      rows.replay breakpoint.syncRequests = rows ++ [breakpoint.row] :=
    fun breakpoint rows hnew => PointRows.replay_syncRequests breakpoint.entry rfl rfl rfl
      (fun _ => rfl) (fun _ => rfl) (fun _ => rfl) hnew
  have hw : ∀ (watchpoint : Watchpoint) (rows : PointRows), watchpoint.row.key ∉ rows.keys →
      rows.replay watchpoint.syncRequests = rows ++ [watchpoint.row] :=
    fun watchpoint rows hnew => PointRows.replay_syncRequests watchpoint.entry rfl rfl rfl
      (fun _ => rfl) (fun _ => rfl) (fun _ => rfl) hnew
  have hfront : (PointRows.keys ([] ++ registry.breakpoints.map Breakpoint.row)).Nodup := by
    rw [rows, PointRows.keys, List.map_append] at hn
    exact (List.nodup_append.mp hn).1
  rw [syncRequests, PointRows.replay_append, PointRows.replay_flatMap hb hfront, List.nil_append,
    PointRows.replay_flatMap hw hn]
  rfl

/-- The breakpoints are read back from the rows, in the files that are shown. -/
theorem filterMap_breakpoint?_rows (registry : Registry) :
    registry.rows.filterMap PointRow.breakpoint? =
      registry.breakpoints.map Breakpoint.shown := by
  have hrow : PointRow.breakpoint? ∘ Breakpoint.row = some ∘ Breakpoint.shown := rfl
  have hother : registry.watchpoints.filterMap (PointRow.breakpoint? ∘ Watchpoint.row) = [] :=
    List.filterMap_eq_nil_iff.mpr fun _ _ => rfl
  rw [rows, List.filterMap_append, List.filterMap_map, List.filterMap_map, hrow, hother,
    List.filterMap_eq_map, List.append_nil]

/-- The watchpoints are read back from the rows, if no condition carries the mark. -/
theorem filterMap_watchpoint?_rows
    (hp : ∀ watchpoint ∈ registry.watchpoints, Watchpoint.isPlain watchpoint.condition = true) :
    registry.rows.filterMap PointRow.watchpoint? = registry.watchpoints := by
  have hrow : ∀ watchpoint ∈ registry.watchpoints,
      (PointRow.watchpoint? ∘ Watchpoint.row) watchpoint = some watchpoint :=
    fun watchpoint hm => Watchpoint.watchpoint?_row (hp watchpoint hm)
  have hother : registry.breakpoints.filterMap (PointRow.watchpoint? ∘ Breakpoint.row) = [] :=
    List.filterMap_eq_nil_iff.mpr fun _ _ => rfl
  rw [rows, List.filterMap_append, List.filterMap_map, List.filterMap_map, hother,
    List.filterMap_congr hrow, List.filterMap_some, List.nil_append]

end Registry

/-! ## Runs of operations -/

/-- What operations make of breakpoints: some are put in, some are dropped, and some are changed where
they are. -/
inductive Breakpoint.Edits : List Breakpoint → List Breakpoint → Prop
  /-- Nothing is done. -/
  | refl (list : List Breakpoint) : Edits list list
  /-- A breakpoint is put in at its place. -/
  | insert {before after : List Breakpoint} (h : Edits before after) (breakpoint : Breakpoint) :
      Edits before (breakpoint.insertInto after)
  /-- Breakpoints are dropped. -/
  | drop {before between after : List Breakpoint} (h : Edits before between)
      (hs : after.Sublist between) : Edits before after
  /-- Breakpoints are changed, but not their places. -/
  | change {before after : List Breakpoint} (h : Edits before after)
      {change : Breakpoint → Breakpoint}
      (hc : ∀ breakpoint, (change breakpoint).place = breakpoint.place) :
      Edits before (after.map change)

namespace Breakpoint.Edits

variable {before between after : List Breakpoint}

/-- Edits may follow each other. -/
theorem trans (h : Edits before between) (h' : Edits between after) : Edits before after := by
  induction h' with
  | refl => exact h
  | insert _ breakpoint ih => exact ih.insert breakpoint
  | drop _ hs ih => exact ih.drop hs
  | change _ hc ih => exact ih.change hc

/-- Sorted breakpoints stay sorted. -/
theorem isSorted (h : Edits before after) (hs : IsSorted before) : IsSorted after := by
  induction h with
  | refl => exact hs
  | insert _ breakpoint ih => exact isSorted_insertInto ih breakpoint
  | drop _ hsub ih => exact List.Pairwise.sublist hsub ih
  | change _ hc ih => exact isSorted_map ih hc

/-- Edits that are made one after the other are edits. -/
theorem foldl {α : Type} {step : Registry → α → Registry}
    (h : ∀ registry a, Edits registry.breakpoints (step registry a).breakpoints)
    (registry : Registry) (list : List α) :
    Edits registry.breakpoints (list.foldl step registry).breakpoints := by
  induction list generalizing registry with
  | nil => exact .refl _
  | cons a list ih => exact (h registry a).trans (ih (step registry a))

end Breakpoint.Edits

namespace Registry

open Breakpoint (Edits)

variable {σ : Type} {registry changed : Registry}

/-- Breakpoints that are the same are not edited. -/
theorem SameBreakpoints.edits (h : registry.SameBreakpoints changed) :
    Edits registry.breakpoints changed.breakpoints := by
  rw [h.breakpoints]
  exact .refl _

/-- A breakpoint that is added is put in, or nothing is done. -/
theorem edits_insertBreakpoint (registry : Registry) (breakpoint : Breakpoint) :
    Edits registry.breakpoints (registry.insertBreakpoint breakpoint).2.breakpoints := by
  rcases registry.insertBreakpoint_cases breakpoint with ⟨_, changed, h, hb, -⟩ |
    ⟨changed, h, hb, -⟩ <;> rw [h, hb]
  · exact .refl _
  · exact .insert (.refl _) breakpoint

/-- A breakpoint that is modified is changed where it is. -/
theorem edits_modifyBreakpoint (registry : Registry) (file : SourcePath) (line : UInt32)
    {change : Breakpoint → Breakpoint}
    (hc : ∀ breakpoint, (change breakpoint).place = breakpoint.place) :
    Edits registry.breakpoints (registry.modifyBreakpoint file line change).2.breakpoints := by
  rw [modifyBreakpoint_snd]
  exact .change (.refl _) fun breakpoint => Breakpoint.apply_change_if hc _ breakpoint

/-- A breakpoint that is removed is dropped. -/
theorem edits_removeBreakpoint (registry : Registry) (file : SourcePath) (line : UInt32) :
    Edits registry.breakpoints (registry.removeBreakpoint file line).2.breakpoints :=
  .drop (.refl _) List.filter_sublist

/-- What an operation makes of the breakpoints. -/
theorem edits_perform (registry : Registry) (operation : RegistryOperation σ) :
    Edits registry.breakpoints (registry.perform operation).breakpoints := by
  cases operation with
  | insertBreakpoint breakpoint => exact registry.edits_insertBreakpoint breakpoint
  | addBreakpoint file line condition temporary => exact registry.edits_insertBreakpoint _
  | addBreakpointRecord record =>
    rw [perform, addBreakpointRecord]
    split
    · exact registry.edits_insertBreakpoint _
    · exact .refl _
  | removeBreakpoint file line => exact registry.edits_removeBreakpoint file line
  | enableBreakpoint file line enabled =>
    exact registry.edits_modifyBreakpoint file line fun _ => rfl
  | ignoreBreakpoint file line count =>
    exact registry.edits_modifyBreakpoint file line fun _ => rfl
  | hit file line evaluate memory =>
    rw [perform]
    rcases registry.hit_cases file line evaluate memory with ⟨remaining, -, hr⟩ | ⟨-, hr⟩ |
      ⟨-, -, hr, -⟩
    · rw [hr]
      exact registry.edits_modifyBreakpoint file line fun _ => rfl
    · rw [hr]
      exact registry.edits_removeBreakpoint file line
    · exact hr.edits
  | addWatchpoint watchpoint => exact (registry.sameBreakpoints_addWatchpoint watchpoint).edits
  | addWatchpointRecord record =>
    rw [perform, addWatchpointRecord]
    split
    · exact (registry.sameBreakpoints_addWatchpoint _).edits
    · exact .refl _
  | removeWatchpoint condition => exact (registry.sameBreakpoints_removeWatchpoint condition).edits
  | enableWatchpoint condition enabled =>
    exact (registry.sameBreakpoints_modifyWatchpoint condition _).edits
  | ignoreWatchpoint condition count =>
    exact (registry.sameBreakpoints_modifyWatchpoint condition _).edits
  | checkWatchpoints event evaluate memory =>
    exact (checkFrom_spec event evaluate memory registry {} [] _).1.edits
  | noteError key => exact (registry.sameBreakpoints_noteError key).1.edits
  | restore snapshot =>
    rw [perform, restoreInto_snd]
    exact (Edits.foldl edits_insertBreakpoint registry snapshot.breakpoints).trans
      (sameBreakpoints_foldl _ snapshot.watchpoints).edits
  | clear => exact .drop (.refl _) (List.nil_sublist _)
  | invalidate file => exact .refl _
  | forgetLines => exact .refl _
  | setProvider provider => exact .refl _
  | editProvider provider => exact .refl _

/-- What operations make of the breakpoints, one after the other. -/
theorem edits_run (registry : Registry) (operations : List (RegistryOperation σ)) :
    Edits registry.breakpoints (registry.run operations).breakpoints :=
  Edits.foldl edits_perform registry operations

/-- A debuggee that knew nothing has exactly the points of a registry, once it was told all of
them. -/
structure IsResynced (registry : Registry) : Prop where
  /-- The requests make the rows of the points, in their order, and no other row. -/
  rows : PointRows.replay [] registry.syncRequests = registry.rows
  /-- No two rows have one key. -/
  distinct : (PointRows.replay [] registry.syncRequests).keys.Nodup
  /-- The breakpoints can be read back from the rows, in the files that are shown. -/
  breakpoints : (PointRows.replay [] registry.syncRequests).filterMap PointRow.breakpoint? =
    registry.breakpoints.map Breakpoint.shown
  /-- The watchpoints can be read back from the rows. -/
  watchpoints : (PointRows.replay [] registry.syncRequests).filterMap PointRow.watchpoint? =
    registry.watchpoints

/-- Breakpoints of a resynced registry are written differently. -/
theorem IsResynced.eq_of_key (h : registry.IsResynced) {a b : Breakpoint}
    (ha : a ∈ registry.breakpoints) (hb : b ∈ registry.breakpoints) (heq : a.key = b.key) :
    a = b := by
  have hkeys := h.distinct
  rw [h.rows, keys_rows, points, List.map_append, List.map_map] at hkeys
  exact List.inj_on_of_nodup_map (List.nodup_append.mp hkeys).1 ha hb heq

/-- A debuggee that knew nothing has the points of a registry that is proper once it was told all of
them, if no watchpoint has a condition that carries the mark. -/
theorem isResynced_of_isProper (h : registry.IsProper)
    (hp : ∀ watchpoint ∈ registry.watchpoints, Watchpoint.isPlain watchpoint.condition = true) :
    registry.IsResynced := by
  have hkeys : registry.rows.keys.Nodup := by
    rw [keys_rows]
    exact h.nodup
  have hrows := replay_syncRequests hkeys
  exact ⟨hrows, by rwa [hrows], by rw [hrows, filterMap_breakpoint?_rows],
    by rw [hrows, filterMap_watchpoint?_rows hp]⟩

/-- Breakpoints whose files are texts are at one place if they are written in one way. -/
theorem place_eq_of_key {a b : Breakpoint} (ha : a.file.isText = true) (hb : b.file.isText = true)
    (h : a.key = b.key) : a.place = b.place := by
  obtain ⟨hfile, hline⟩ := WireKey.breakpoint.inj h
  rw [Breakpoint.place, Breakpoint.place, SourcePath.display_injective ha hb hfile, hline]

/-- Behind any run of which no watchpoint has a condition that carries the mark, a debuggee that
knew nothing has exactly the points of the registry, once it was told all of them, if and only if
no two breakpoints at one line have files that look alike. That is so if the files are texts, and
then the breakpoints are read back as they are. -/
theorem isResynced_run (provider : Option CodeProvider) (operations : List (RegistryOperation σ))
    (h : ∀ watchpoint ∈ (run { provider } operations).watchpoints,
      ¬ Watchpoint.specialMark.toList <:+ watchpoint.condition.toList) :
    ((run { provider } operations).IsResynced ↔
      ∀ a ∈ (run { provider } operations).breakpoints,
        ∀ b ∈ (run { provider } operations).breakpoints,
          a.wireFile = b.wireFile → a.line = b.line → a = b) ∧
      ((∀ breakpoint ∈ (run { provider } operations).breakpoints,
          breakpoint.file.isText = true) →
        (run { provider } operations).IsResynced ∧
          (PointRows.replay [] (run { provider } operations).syncRequests).filterMap
            PointRow.breakpoint? = (run { provider } operations).breakpoints) := by
  have hplain : ∀ watchpoint ∈ (run { provider } operations).watchpoints,
      Watchpoint.isPlain watchpoint.condition = true :=
    fun watchpoint hm => Watchpoint.isPlain_iff.mpr (h watchpoint hm)
  have hsorted := (edits_run { provider } operations).isSorted List.Pairwise.nil
  have hconditions : (run { provider } operations).conditions.Nodup := by
    have hnodup := (follows_run { provider } operations).nodup List.nodup_nil
    have hall : (run { provider } operations).conditions.filter Watchpoint.isPlain =
        (run { provider } operations).conditions :=
      List.filter_eq_self.mpr (List.forall_mem_map.mpr hplain)
    rwa [hall] at hnodup
  have hresynced : (∀ a ∈ (run { provider } operations).breakpoints,
      ∀ b ∈ (run { provider } operations).breakpoints, a.key = b.key → a.place = b.place) →
        (run { provider } operations).IsResynced := fun hplaces =>
    isResynced_of_isProper
      ⟨hsorted, nodup_key hsorted hplaces, nodup_key_watchpoints hconditions hplain⟩ hplain
  refine ⟨⟨fun hr a ha b hb hfile hline => ?_, fun hdistinct => ?_⟩, fun htexts => ?_⟩
  · refine hr.eq_of_key ha hb ?_
    rw [Breakpoint.key, Breakpoint.key, hfile, hline]
  · refine hresynced fun a ha b hb heq => ?_
    obtain ⟨hfile, hline⟩ := WireKey.breakpoint.inj heq
    rw [hdistinct a ha b hb hfile hline]
  · have hr := hresynced fun a ha b hb => place_eq_of_key (htexts a ha) (htexts b hb)
    have hshown : (run { provider } operations).breakpoints.map Breakpoint.shown =
        (run { provider } operations).breakpoints :=
      (List.map_congr_left fun breakpoint hm =>
        Breakpoint.shown_eq_iff.mpr (htexts breakpoint hm)).trans (List.map_id _)
    exact ⟨hr, hr.breakpoints.trans hshown⟩

/-- Two breakpoints in one file, one of which is disabled, has a condition and counts, a special
watchpoint that counts, and another one that is disabled. -/
def mixedPoints : List (RegistryOperation Unit) :=
  [.addBreakpoint "a.py" 7 (some "i > 7") true, .addBreakpoint "a.py" 3 none false,
    .enableBreakpoint "a.py" 7 false, .ignoreBreakpoint "a.py" 7 2,
    .addWatchpoint { condition := "x", special := true }, .addWatchpoint { condition := "y" },
    .ignoreWatchpoint "x" 4, .enableWatchpoint "y" false]

/-- A debuggee has these points as they are, each in its row. -/
theorem isResynced_run_mixedPoints :
    (∀ watchpoint ∈ (run {} mixedPoints).watchpoints,
      ¬ Watchpoint.specialMark.toList <:+ watchpoint.condition.toList) ∧
      (∀ breakpoint ∈ (run {} mixedPoints).breakpoints, breakpoint.file.isText = true) ∧
      (run {} mixedPoints).IsResynced ∧
        PointRows.replay [] (run {} mixedPoints).syncRequests =
          [⟨.breakpoint "a.py" 3, { temporary := false }⟩,
            ⟨.breakpoint "a.py" 7,
              { temporary := true, condition := some "i > 7", enabled := false, ignoreCount := 2 }⟩,
            ⟨.watchpoint "x ??changed??", { temporary := false, ignoreCount := 4 }⟩,
            ⟨.watchpoint "y", { temporary := false, enabled := false }⟩] := by
  have hplain : ∀ watchpoint ∈ (run {} mixedPoints).watchpoints,
      ¬ Watchpoint.specialMark.toList <:+ watchpoint.condition.toList := by decide +kernel
  have htexts : ∀ breakpoint ∈ (run {} mixedPoints).breakpoints,
      breakpoint.file.isText = true := by decide +kernel
  exact ⟨hplain, htexts, ((isResynced_run none mixedPoints hplain).2 htexts).1, by decide +kernel⟩

/-- Breakpoints at one line of two files that are no texts. -/
def lookalikes : List (RegistryOperation Unit) :=
  [.addBreakpoint ⟨[0xFF]⟩ 3 none false, .addBreakpoint ⟨[0xFE]⟩ 3 none false]

/-- A debuggee has one row for two breakpoints whose files look alike. -/
theorem not_isResynced_lookalikes :
    (∀ watchpoint ∈ (run {} lookalikes).watchpoints,
      ¬ Watchpoint.specialMark.toList <:+ watchpoint.condition.toList) ∧
      (run {} lookalikes).breakpoints.length = 2 ∧
        (PointRows.replay [] (run {} lookalikes).syncRequests).length = 1 ∧
          ¬ (run {} lookalikes).IsResynced := by
  have hkeys : ∃ a ∈ (run {} lookalikes).breakpoints, ∃ b ∈ (run {} lookalikes).breakpoints,
      a.key = b.key ∧ a ≠ b := by decide +kernel
  refine ⟨by decide +kernel, by decide +kernel, by decide +kernel, fun h => ?_⟩
  obtain ⟨a, ha, b, hb, heq, hne⟩ := hkeys
  exact hne (h.eq_of_key ha hb heq)

end Registry

end DebugLink
