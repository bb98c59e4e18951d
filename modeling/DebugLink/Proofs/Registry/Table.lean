import DebugLink.Registry
import Mathlib.Logic.Function.Basic

/-!
# The points of a debuggee

A debuggee keeps a table of its points, and a request changes the entry of one point at most.
It finds a breakpoint by its file, as it is spelled, and its line, and a watchpoint by its
condition, as it is written. To set a point makes an entry that is enabled and counts nothing,
whatever was there; the other requests only change an entry that is there. So the order of two
requests does not matter when they are about different points.
-/

namespace DebugLink

/-- What a debuggee finds a point by. -/
inductive WireKey where
  /-- A breakpoint, by its file as it is spelled, and its line. -/
  | breakpoint (file : String) (line : UInt32)
  /-- A watchpoint, by its condition as it is written. -/
  | watchpoint (condition : String)
  deriving DecidableEq, Repr

/-- What a debuggee keeps about a point. -/
structure PointEntry where
  /-- Whether the point is removed when it stops the program. -/
  temporary : Bool
  /-- What has to hold for a breakpoint to stop the program. -/
  condition : Option String := none
  /-- Whether the point is looked at. -/
  enabled : Bool := true
  /-- How many more times the point only counts. -/
  ignoreCount : UInt32 := 0
  deriving DecidableEq, Repr

namespace Request

/-- The point that a request is about, as it spells it. -/
def point? : Request → Option WireKey
  | setBreak file line _ _ _ | enableBreak file line _ | ignoreBreak file line _ =>
    some (.breakpoint file line)
  | setWatch condition _ _ | enableWatch condition _ | ignoreWatch condition _ =>
    some (.watchpoint condition)
  | _ => none

/-- What a request makes of the entry of the point that it is about. -/
def revise : Request → Option PointEntry → Option PointEntry
  | setBreak _ _ temporary set condition, _ => if set then some { temporary, condition } else none
  | setWatch _ temporary set, _ => if set then some { temporary } else none
  | enableBreak _ _ enabled, entry => entry.map ({ · with enabled })
  | enableWatch _ enabled, entry => entry.map ({ · with enabled })
  | ignoreBreak _ _ ignoreCount, entry => entry.map ({ · with ignoreCount })
  | ignoreWatch _ ignoreCount, entry => entry.map ({ · with ignoreCount })
  | _, entry => entry

/-- What is about a point is not a request that makes the program run or needs it stopped. -/
theorem word_of_point? {request : Request} (h : request.point? ≠ none) :
    request.word ≠ .load ∧ request.word.requiresStopped = false ∧
      request.word.resumes = false := by
  cases request <;> first | exact absurd rfl h | exact ⟨nofun, rfl, rfl⟩

end Request

/-- The points of a debuggee. -/
abbrev PointTable := WireKey → Option PointEntry

namespace PointTable

/-- The table of a debuggee that was told nothing. -/
def empty : PointTable := fun _ => none

/-- The table behind a request. -/
def apply (table : PointTable) (request : Request) : PointTable :=
  match request.point? with
  | some key => Function.update table key (request.revise (table key))
  | none => table

/-- The table behind requests, in their order. -/
def replay (table : PointTable) (requests : List Request) : PointTable :=
  requests.foldl apply table

variable {table : PointTable} {request other : Request} {requests : List Request}

/-- A request that is about no point changes nothing. -/
theorem apply_of_no_point (h : request.point? = none) : table.apply request = table := by
  rw [apply, h]

/-- A request changes the entry of its point. -/
theorem apply_of_point {key : WireKey} (h : request.point? = some key) :
    table.apply request = Function.update table key (request.revise (table key)) := by
  rw [apply, h]

/-- Requests about different points can change places. -/
theorem apply_comm (h : request.point? ≠ none → request.point? ≠ other.point?) :
    (table.apply request).apply other = (table.apply other).apply request := by
  cases hr : request.point? with
  | none => rw [apply_of_no_point hr, apply_of_no_point hr]
  | some key =>
    cases ho : other.point? with
    | none => rw [apply_of_no_point ho, apply_of_no_point ho]
    | some key' =>
      have hne : key ≠ key' := fun heq => by
        refine h (by simp [hr]) ?_
        rw [hr, ho, heq]
      rw [apply_of_point hr, apply_of_point ho, apply_of_point ho, apply_of_point hr,
        Function.update_of_ne hne.symm, Function.update_of_ne hne,
        Function.update_comm hne.symm]

/-- No request changes nothing. -/
@[simp] theorem replay_nil (table : PointTable) : table.replay [] = table := rfl

/-- The first request acts first. -/
@[simp] theorem replay_cons (table : PointTable) (request : Request) (requests : List Request) :
    table.replay (request :: requests) = (table.apply request).replay requests := rfl

/-- Requests act one after the other. -/
@[simp] theorem replay_append (table : PointTable) (front back : List Request) :
    table.replay (front ++ back) = (table.replay front).replay back := List.foldl_append

/-- Requests that are about no point change nothing. -/
theorem replay_of_no_point (h : ∀ request ∈ requests, request.point? = none) :
    table.replay requests = table := by
  induction requests with
  | nil => rfl
  | cons request requests ih =>
    obtain ⟨hfirst, hrest⟩ := List.forall_mem_cons.mp h
    rw [replay_cons, apply_of_no_point hfirst, ih hrest]

/-- A request may overtake requests that are about other points. -/
theorem replay_overtake
    (h : ∀ other ∈ requests, request.point? ≠ none → request.point? ≠ other.point?) :
    (table.apply request).replay requests = (table.replay requests).apply request := by
  induction requests generalizing table with
  | nil => rfl
  | cons other requests ih =>
    obtain ⟨hfirst, hrest⟩ := List.forall_mem_cons.mp h
    rw [replay_cons, replay_cons, apply_comm hfirst, ih hrest]

/-- Requests that do to every table what other requests do, and of which those about points are
among the others. -/
structure Alike (before after : List Request) : Prop where
  /-- They do the same to every table. -/
  replay (table : PointTable) : table.replay after = table.replay before
  /-- No request about a point is new. -/
  points : ∀ request ∈ after, request ∈ before ∨ request.point? = none

/-- Requests about no point may come in anywhere. -/
theorem alike_insert {told followUps asked unsent wrote more added : List Request}
    (hw : ∀ request ∈ wrote, request.point? = none)
    (hm : ∀ request ∈ more, request.point? = none)
    (ha : ∀ request ∈ added, request.point? = none) :
    Alike (told ++ (followUps ++ asked ++ unsent))
      (told ++ wrote ++ (followUps ++ more ++ (asked ++ added) ++ unsent)) where
  replay table := by
    simp only [replay_append, replay_of_no_point hw, replay_of_no_point hm, replay_of_no_point ha]
  points request hr := by
    simp only [List.mem_append] at hr ⊢
    rcases hr with (hr | hr) | ((hr | hr) | hr | hr) | hr
    · exact .inl (.inl hr)
    · exact .inr (hw request hr)
    · exact .inl (.inr (.inl (.inl hr)))
    · exact .inr (hm request hr)
    · exact .inl (.inr (.inl (.inr hr)))
    · exact .inr (ha request hr)
    · exact .inl (.inr (.inr hr))

/-- A request may be written before those in front of it if they are about other points, and may
be dropped if it is about no point. -/
theorem alike_take {told front back wrote : List Request}
    (hw : wrote = [request] ∨ wrote = [] ∧ request.point? = none)
    (ho : ∀ other ∈ front, request.point? ≠ none → request.point? ≠ other.point?) :
    Alike (told ++ (front ++ request :: back)) (told ++ wrote ++ (front ++ back)) where
  replay table := by
    rcases hw with rfl | ⟨rfl, hnone⟩
    · simp only [replay_append, replay_cons, replay_nil, replay_overtake ho]
    · simp only [replay_append, replay_cons, replay_nil, apply_of_no_point hnone]
  points other hr := by
    have hrequest : ∀ other ∈ wrote, other = request := by
      rcases hw with rfl | ⟨rfl, -⟩
      · exact fun other ho => List.mem_singleton.mp ho
      · exact fun other ho => absurd ho List.not_mem_nil
    simp only [List.mem_append, List.mem_cons] at hr ⊢
    rcases hr with (hr | hr) | hr | hr
    · exact .inl (.inl hr)
    · exact .inl (.inr (.inr (.inl (hrequest other hr))))
    · exact .inl (.inr (.inl hr))
    · exact .inl (.inr (.inr (.inr hr)))

end PointTable

/-! ## The requests of a point -/

/-- What a debuggee keeps about a breakpoint. -/
def Breakpoint.entry (breakpoint : Breakpoint) : PointEntry where
  temporary := breakpoint.temporary
  condition := breakpoint.condition
  enabled := breakpoint.enabled
  ignoreCount := breakpoint.ignoreCount

/-- What a debuggee keeps about a watchpoint. -/
def Watchpoint.entry (watchpoint : Watchpoint) : PointEntry where
  temporary := watchpoint.temporary
  enabled := watchpoint.enabled
  ignoreCount := watchpoint.ignoreCount

/-- What a debuggee finds a breakpoint by. -/
def Breakpoint.key (breakpoint : Breakpoint) : WireKey :=
  .breakpoint breakpoint.wireFile breakpoint.line

/-- What a debuggee finds a watchpoint by. -/
def Watchpoint.key (watchpoint : Watchpoint) : WireKey := .watchpoint watchpoint.wireCondition

/-- The requests that make a breakpoint are about it. -/
theorem Breakpoint.point?_of_mem_syncRequests (breakpoint : Breakpoint) :
    ∀ request ∈ breakpoint.syncRequests, request.point? = some breakpoint.key := by
  intro request hm
  simp only [syncRequests, List.mem_append, List.mem_ite_nil_left, List.mem_ite_nil_right,
    List.mem_singleton] at hm
  rcases hm with (rfl | ⟨-, rfl⟩) | ⟨-, rfl⟩ <;> rfl

/-- The requests that make a watchpoint are about it. -/
theorem Watchpoint.point?_of_mem_syncRequests (watchpoint : Watchpoint) :
    ∀ request ∈ watchpoint.syncRequests, request.point? = some watchpoint.key := by
  intro request hm
  simp only [syncRequests, List.mem_append, List.mem_ite_nil_left, List.mem_ite_nil_right,
    List.mem_singleton] at hm
  rcases hm with (rfl | ⟨-, rfl⟩) | ⟨-, rfl⟩ <;> rfl

/-- The requests that make all points are about points. -/
theorem Registry.point?_of_mem_syncRequests {registry : Registry} {request : Request}
    (h : request ∈ registry.syncRequests) : request.point? ≠ none := by
  rcases List.mem_append.mp h with h | h
  · obtain ⟨breakpoint, -, hm⟩ := List.mem_flatMap.mp h
    rw [breakpoint.point?_of_mem_syncRequests request hm]
    exact nofun
  · obtain ⟨watchpoint, -, hm⟩ := List.mem_flatMap.mp h
    rw [watchpoint.point?_of_mem_syncRequests request hm]
    exact nofun

namespace PointTable

/-- To set a point, disable it if it is not enabled and let it count if it is to count makes its
entry, whatever was there before. -/
theorem replay_syncRequests {set enable ignore : Request} {key : WireKey} (entry : PointEntry)
    (hset : set.point? = some key) (henable : enable.point? = some key)
    (hignore : ignore.point? = some key)
    (hs : ∀ old, set.revise old = some { entry with enabled := true, ignoreCount := 0 })
    (he : ∀ old, enable.revise old = old.map ({ · with enabled := entry.enabled }))
    (hi : ∀ old, ignore.revise old = old.map ({ · with ignoreCount := entry.ignoreCount }))
    (table : PointTable) :
    table.replay ([set] ++ (if entry.enabled then [] else [enable]) ++
      (if entry.ignoreCount > 0 then [ignore] else [])) =
      Function.update table key (some entry) := by
  have hfirst : table.replay [set] =
      Function.update table key (some { entry with enabled := true, ignoreCount := 0 }) := by
    rw [replay_cons, replay_nil, apply_of_point hset, hs]
  have hsecond : (table.replay [set]).replay (if entry.enabled then [] else [enable]) =
      Function.update table key (some { entry with ignoreCount := 0 }) := by
    rw [hfirst]
    cases hcase : entry.enabled with
    | true => rw [if_pos rfl, replay_nil, ← hcase]
    | false =>
      rw [if_neg Bool.false_ne_true, replay_cons, replay_nil, apply_of_point henable,
        Function.update_self, Function.update_idem, he, hcase]
      rfl
  rw [replay_append, replay_append, hsecond]
  split
  · rw [replay_cons, replay_nil, apply_of_point hignore, Function.update_self,
      Function.update_idem, hi]
    rfl
  · next hzero =>
    have hcount : entry.ignoreCount = 0 := by simpa using hzero
    rw [replay_nil, ← hcount]

/-- The requests that make a breakpoint make its entry. -/
theorem replay_breakpoint (table : PointTable) (breakpoint : Breakpoint) :
    table.replay breakpoint.syncRequests =
      Function.update table breakpoint.key (some breakpoint.entry) :=
  replay_syncRequests breakpoint.entry rfl rfl rfl (fun _ => rfl) (fun _ => rfl) (fun _ => rfl)
    table

/-- The requests that make a watchpoint make its entry. -/
theorem replay_watchpoint (table : PointTable) (watchpoint : Watchpoint) :
    table.replay watchpoint.syncRequests =
      Function.update table watchpoint.key (some watchpoint.entry) :=
  replay_syncRequests watchpoint.entry rfl rfl rfl (fun _ => rfl) (fun _ => rfl) (fun _ => rfl)
    table

end PointTable

end DebugLink
