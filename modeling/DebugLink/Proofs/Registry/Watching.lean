import DebugLink.Proofs.Registry.Operation

/-!
# What checking the watchpoints does to each of them

On an event, the watchpoints that are looked at are asked for in their order, up to the first one that
stops the program. What becomes of each watchpoint is told by what was answered for it: it counts, it
stops the program and goes if it is temporary, or it stays as it is. What is told of the conditions
that cannot be evaluated is the first error of each that had not been reported before.
-/

namespace DebugLink

variable {σ : Type}

/-- A watchpoint, with what was answered if it was asked for. -/
structure Verdict where
  /-- The watchpoint, as it was before. -/
  watchpoint : Watchpoint
  /-- What was answered, if anything was asked. -/
  answer : Option (Except String Bool)

namespace Verdict

/-- Whether the watchpoint stops the program: its condition holds, and it does not only count. -/
def stops (verdict : Verdict) : Bool :=
  match verdict.answer with
  | some (.ok true) => verdict.watchpoint.ignoreCount == 0
  | _ => false

/-- What is left of the watchpoint. -/
def kept? (verdict : Verdict) : Option Watchpoint :=
  match verdict.answer with
  | some (.ok true) =>
    if verdict.watchpoint.ignoreCount > 0 then
      some { verdict.watchpoint with ignoreCount := verdict.watchpoint.ignoreCount - 1 }
    else if verdict.watchpoint.temporary then none
    else some verdict.watchpoint
  | _ => some verdict.watchpoint

/-- The condition that was asked for, with its answer. -/
def asked? (verdict : Verdict) : Option (String × Except String Bool) :=
  verdict.answer.map (verdict.watchpoint.condition, ·)

/-- The condition that could not be evaluated, with its error. -/
def failure? (verdict : Verdict) : Option (String × String) :=
  match verdict.answer with
  | some (.error message) => some (verdict.watchpoint.condition, message)
  | _ => none

/-- A watchpoint that is not asked for stays as it is. -/
def unasked (watchpoint : Watchpoint) : Verdict := ⟨watchpoint, none⟩

/-- Nothing comes of watchpoints that are not asked for. -/
theorem filterMap_map_unasked {α : Type} {f : Verdict → Option α} (h : ∀ w, f (unasked w) = none)
    (list : List Watchpoint) : (list.map unasked).filterMap f = [] :=
  List.filterMap_eq_nil_iff.mpr (List.forall_mem_map.mpr fun watchpoint _ => h watchpoint)

end Verdict

/-- Ask for conditions one after the other. -/
def Evaluator.askAll (evaluate : Evaluator σ) (memory : σ) :
    List String → List (Except String Bool) × σ
  | [] => ([], memory)
  | condition :: rest =>
    ((evaluate condition memory).1 :: (askAll evaluate (evaluate condition memory).2 rest).1,
      (askAll evaluate (evaluate condition memory).2 rest).2)

/-- The first error of each condition that has not been reported. -/
def news (reported : List PointKey) (failures : List (String × String)) :
    List (String × String) :=
  (failures.filter fun failure => !reported.contains (.watchpoint failure.1)).eraseDupsBy
    fun a b => a.1 == b.1

/-- The error of a condition is news if that has not been reported, and later errors of it are not
news then. -/
theorem news_cons (reported : List PointKey) (condition message : String)
    (failures : List (String × String)) :
    news reported ((condition, message) :: failures) =
      if reported.contains (.watchpoint condition) then news reported failures
      else (condition, message) :: news (.watchpoint condition :: reported) failures := by
  rw [news, List.filter_cons]
  split
  · next hnew =>
    rw [if_neg (by simpa using hnew), List.eraseDupsBy_cons, List.filter_filter, news]
    refine congrArg (fun list => _ :: List.eraseDupsBy _ list) (List.filter_congr fun failure _ => ?_)
    simp
  · next hold =>
    rw [if_pos (by simpa using hold), news]

/-- There is news of a condition if it has failed and has not been reported. -/
theorem mem_news_iff {reported : List PointKey} {failures : List (String × String)}
    {condition : String} :
    condition ∈ (news reported failures).map Prod.fst ↔
      condition ∈ failures.map Prod.fst ∧ .watchpoint condition ∉ reported := by
  induction failures generalizing reported with
  | nil => simp [news]
  | cons failure failures ih =>
    obtain ⟨other, message⟩ := failure
    rw [news_cons]
    by_cases heq : condition = other
    · subst heq
      split
      · next hold => simp [ih, List.contains_iff_mem.mp hold]
      · next hnew => simpa using hnew
    · split
      · simp [ih, heq]
      · simp [ih, heq]

/-- There is news of a condition once. -/
theorem nodup_news (reported : List PointKey) (failures : List (String × String)) :
    ((news reported failures).map Prod.fst).Nodup := by
  induction failures generalizing reported with
  | nil => exact List.nodup_nil
  | cons failure failures ih =>
    obtain ⟨condition, message⟩ := failure
    rw [news_cons]
    split
    · exact ih reported
    · refine List.nodup_cons.mpr ⟨fun hmem => ?_, ih _⟩
      exact (mem_news_iff.mp hmem).2 List.mem_cons_self

namespace Registry

/-- The verdicts on watchpoints, in their order. Nothing is asked behind the first one that stops
the program. -/
def verdicts (event : TraceEvent) (evaluate : Evaluator σ) (memory : σ) :
    List Watchpoint → List Verdict × σ
  | [] => ([], memory)
  | watchpoint :: rest =>
    if !applies event watchpoint then
      (.unasked watchpoint :: (verdicts event evaluate memory rest).1,
        (verdicts event evaluate memory rest).2)
    else
      let verdict : Verdict := ⟨watchpoint, some (evaluate watchpoint.condition memory).1⟩
      let memory := (evaluate watchpoint.condition memory).2
      if verdict.stops then (verdict :: rest.map .unasked, memory)
      else (verdict :: (verdicts event evaluate memory rest).1,
        (verdicts event evaluate memory rest).2)

/-- What verdicts come to, behind watchpoints that have been checked and errors that are news, both
reversed. -/
def conclude (registry : Registry) (errors : List (String × String)) (checked : List Watchpoint)
    (verdicts : List Verdict) : WatchOutcome × Registry :=
  let errors' := news registry.reported (verdicts.filterMap Verdict.failure?)
  ({ stop := (verdicts.find? Verdict.stops).map Verdict.watchpoint
     errors := errors.reverse ++ errors' },
    { registry with
      watchpoints := checked.reverse ++ verdicts.filterMap Verdict.kept?
      reported := (errors'.map fun error => .watchpoint error.1).reverse ++ registry.reported })

section Conclude

variable {registry : Registry} {errors : List (String × String)} {checked rest : List Watchpoint}
  {verdict : Verdict} {verdicts : List Verdict}

/-- A watchpoint that neither stops the program nor fails is put behind those that were checked. -/
theorem conclude_of_kept {kept : Watchpoint} (hstops : verdict.stops = false)
    (hkept : verdict.kept? = some kept) (hfailure : verdict.failure? = none) :
    conclude registry errors checked (verdict :: verdicts) =
      conclude registry errors (kept :: checked) verdicts := by
  rw [conclude, conclude, List.find?_cons_of_neg (by simp [hstops]),
    List.filterMap_cons_none hfailure, List.filterMap_cons_some hkept, List.reverse_cons,
    List.append_assoc, List.singleton_append]

/-- The error of a watchpoint is told if it is news, and then it is not news any more. -/
theorem conclude_of_failure {watchpoint : Watchpoint} {message : String} :
    conclude registry errors checked (⟨watchpoint, some (.error message)⟩ :: verdicts) =
      conclude (registry.noteError (.watchpoint watchpoint.condition)).2
        (if (registry.noteError (.watchpoint watchpoint.condition)).1 then
          (watchpoint.condition, message) :: errors else errors) (watchpoint :: checked) verdicts := by
  have hfailure : Verdict.failure? ⟨watchpoint, some (.error message)⟩ =
      some (watchpoint.condition, message) := rfl
  have hkept : Verdict.kept? ⟨watchpoint, some (.error message)⟩ = some watchpoint := rfl
  rw [conclude, conclude, List.find?_cons_of_neg (by simp [Verdict.stops]),
    List.filterMap_cons_some hfailure, List.filterMap_cons_some hkept, news_cons, noteError]
  split <;> simp

/-- Behind a watchpoint that stops the program nothing is asked. -/
theorem conclude_of_stops (hstops : verdict.stops) :
    conclude registry errors checked (verdict :: rest.map .unasked) =
      ({ stop := some verdict.watchpoint, errors := errors.reverse },
        { registry with
          watchpoints := checked.reverse ++
            if verdict.watchpoint.temporary then rest else verdict.watchpoint :: rest }) := by
  obtain ⟨watchpoint, answer⟩ := verdict
  have hrest : (rest.map Verdict.unasked).filterMap Verdict.failure? = [] :=
    Verdict.filterMap_map_unasked (fun _ => rfl) rest
  have hkept : (rest.map Verdict.unasked).filterMap Verdict.kept? = rest := by
    rw [List.filterMap_map]
    exact List.filterMap_some
  rw [conclude, List.find?_cons_of_pos hstops]
  rw [Verdict.stops] at hstops
  split at hstops
  · next hanswer =>
    dsimp only at hanswer hstops
    subst hanswer
    have hzero : ¬ watchpoint.ignoreCount > 0 := by
      rw [beq_iff_eq.mp hstops]
      decide
    have hnone : Verdict.failure? ⟨watchpoint, some (.ok true)⟩ = none := rfl
    have hstopped : Verdict.kept? ⟨watchpoint, some (.ok true)⟩ =
        if watchpoint.temporary then none else some watchpoint := if_neg hzero
    rw [List.filterMap_cons_none hnone, hrest, List.filterMap_cons, hstopped, hkept]
    cases watchpoint.temporary <;> simp [news]
  · cases hstops

end Conclude

/-- The walk over the watchpoints follows the verdicts on them. -/
theorem checkFrom_eq (event : TraceEvent) (evaluate : Evaluator σ) (memory : σ)
    (registry : Registry) (errors : List (String × String)) (checked list : List Watchpoint) :
    checkFrom event evaluate memory registry { errors } checked list =
      ((conclude registry errors checked (verdicts event evaluate memory list).1).1,
        (conclude registry errors checked (verdicts event evaluate memory list).1).2,
        (verdicts event evaluate memory list).2) := by
  induction list generalizing memory registry errors checked with
  | nil => simp [checkFrom, verdicts, conclude, news]
  | cons watchpoint rest ih =>
    rw [checkFrom, verdicts]
    by_cases happlies : applies event watchpoint
    · rw [happlies]
      simp only [Bool.not_true, Bool.false_eq_true, if_false]
      cases hanswer : (evaluate watchpoint.condition memory).1 with
      | error message =>
        have hstops : Verdict.stops ⟨watchpoint, some (.error message)⟩ = false := rfl
        rw [hstops, if_neg Bool.false_ne_true, conclude_of_failure]
        exact ih _ _ _ _
      | ok holds =>
        cases holds with
        | false =>
          have hstops : Verdict.stops ⟨watchpoint, some (.ok false)⟩ = false := rfl
          rw [hstops, if_neg Bool.false_ne_true, conclude_of_kept hstops rfl rfl]
          exact ih _ _ _ _
        | true =>
          dsimp only
          by_cases hcounts : watchpoint.ignoreCount > 0
          · have hstops : Verdict.stops ⟨watchpoint, some (.ok true)⟩ = false := by
              rw [Verdict.stops, beq_eq_false_iff_ne]
              rintro hzero
              rw [hzero] at hcounts
              exact absurd hcounts (by decide)
            rw [if_pos hcounts, hstops, if_neg Bool.false_ne_true,
              conclude_of_kept hstops (if_pos hcounts) rfl]
            exact ih _ _ _ _
          · have hstops : Verdict.stops ⟨watchpoint, some (.ok true)⟩ = true := by
              rw [Verdict.stops, beq_iff_eq]
              simpa using hcounts
            rw [if_neg hcounts, if_pos hstops, conclude_of_stops hstops]
    · rw [Bool.not_eq_true] at happlies
      rw [happlies]
      simp only [Bool.not_false, if_true]
      rw [ih, conclude_of_kept rfl rfl rfl, Verdict.unasked]

/-! ## Who is asked, and for what -/

/-- On a statement all enabled watchpoints are looked at, and on a line the special ones. -/
theorem applies_iff {event : TraceEvent} {watchpoint : Watchpoint} :
    applies event watchpoint = true ↔
      watchpoint.enabled = true ∧ (event = .line → watchpoint.special = true) := by
  cases event <;> simp [applies]

/-- There is one verdict on each watchpoint, in their order. -/
theorem map_watchpoint_verdicts (event : TraceEvent) (evaluate : Evaluator σ) (memory : σ)
    (list : List Watchpoint) :
    (verdicts event evaluate memory list).1.map Verdict.watchpoint = list := by
  induction list generalizing memory with
  | nil => rfl
  | cons watchpoint rest ih =>
    rw [verdicts]
    split
    · rw [List.map_cons, ih, Verdict.unasked]
    · dsimp only
      split
      · rw [List.map_cons, List.map_map]
        exact congrArg (watchpoint :: ·) (List.map_id rest)
      · rw [List.map_cons, ih]

/-- A watchpoint is asked for if it is looked at on the event, and none in front of it stops the
program. -/
def AreAsked (event : TraceEvent) (verdicts : List Verdict) : Prop :=
  ∀ front verdict back, verdicts = front ++ verdict :: back →
    (verdict.answer.isSome = true ↔
      applies event verdict.watchpoint = true ∧ ∀ other ∈ front, other.stops = false)

/-- A watchpoint in front of others is asked for if it is looked at. If it stops the program, none
of the others is asked for. -/
theorem AreAsked.cons {event : TraceEvent} {first : Verdict} {rest : List Verdict}
    (hfirst : first.answer.isSome = applies event first.watchpoint)
    (hstops : first.stops = true → ∀ verdict ∈ rest, verdict.answer = none)
    (hrest : first.stops = false → AreAsked event rest) : AreAsked event (first :: rest) := by
  intro front verdict back h
  cases front with
  | nil =>
    obtain ⟨rfl, -⟩ := List.cons.inj h
    rw [hfirst, and_iff_left (List.forall_mem_nil _)]
  | cons other front =>
    obtain ⟨rfl, rfl⟩ := List.cons.inj h
    rw [List.forall_mem_cons]
    cases hcase : first.stops with
    | true =>
      have hnone : verdict.answer = none := hstops hcase verdict (by simp)
      simp [hnone]
    | false => rw [hrest hcase front verdict back rfl, and_iff_right rfl]

/-- The watchpoints that are looked at on the event are asked for, up to the first one that stops
the program. -/
theorem areAsked_verdicts (event : TraceEvent) (evaluate : Evaluator σ) (memory : σ)
    (list : List Watchpoint) : AreAsked event (verdicts event evaluate memory list).1 := by
  induction list generalizing memory with
  | nil =>
    intro front verdict back h
    simp [verdicts] at h
  | cons watchpoint rest ih =>
    rw [verdicts]
    split
    · next happlies =>
      rw [Bool.not_eq_true'] at happlies
      exact .cons happlies.symm nofun fun _ => ih memory
    · next happlies =>
      rw [Bool.not_eq_true', Bool.not_eq_false] at happlies
      dsimp only
      split
      · next hstops =>
        exact .cons happlies.symm (fun _ => List.forall_mem_map.mpr fun _ _ => rfl)
          fun hgoes => absurd hstops (Bool.eq_false_iff.mp hgoes)
      · next hgoes => exact .cons happlies.symm (fun hstops => absurd hstops hgoes) fun _ => ih _

/-- The answers are those of the evaluator, asked for the conditions one after the other. -/
theorem askAll_verdicts (event : TraceEvent) (evaluate : Evaluator σ) (memory : σ)
    (list : List Watchpoint) :
    evaluate.askAll memory
        (((verdicts event evaluate memory list).1.filterMap Verdict.asked?).map Prod.fst) =
      (((verdicts event evaluate memory list).1.filterMap Verdict.asked?).map Prod.snd,
        (verdicts event evaluate memory list).2) := by
  induction list generalizing memory with
  | nil => rfl
  | cons watchpoint rest ih =>
    have hasked : ∀ answer, Verdict.asked? ⟨watchpoint, some answer⟩ =
        some (watchpoint.condition, answer) := fun _ => rfl
    rw [verdicts]
    split
    · have hnone : (Verdict.unasked watchpoint).asked? = none := rfl
      rw [List.filterMap_cons_none hnone, ih]
    · dsimp only
      split
      · have hrest : (rest.map Verdict.unasked).filterMap Verdict.asked? = [] :=
          Verdict.filterMap_map_unasked (fun _ => rfl) rest
        rw [List.filterMap_cons_some (hasked _), hrest]
        rfl
      · rw [List.filterMap_cons_some (hasked _), List.map_cons, List.map_cons, Evaluator.askAll, ih]

/-- What verdicts say of a check of the watchpoints. -/
structure Checks (registry : Registry) (event : TraceEvent) (evaluate : Evaluator σ) (memory : σ)
    (verdicts : List Verdict) (result : WatchOutcome × Registry × σ) : Prop where
  /-- There is a verdict on each watchpoint, in their order. -/
  whole : verdicts.map Verdict.watchpoint = registry.watchpoints
  /-- A watchpoint is asked for if it is enabled and looked at on the event, and none in front of it
  stops the program. -/
  asked : ∀ front verdict back, verdicts = front ++ verdict :: back →
    (verdict.answer.isSome = true ↔
      (verdict.watchpoint.enabled = true ∧
        (event = .line → verdict.watchpoint.special = true)) ∧
      ∀ other ∈ front, other.stops = false)
  /-- The answers are those of the evaluator to these conditions, one after the other, and nothing
  else was asked. -/
  answers : evaluate.askAll memory ((verdicts.filterMap Verdict.asked?).map Prod.fst) =
    ((verdicts.filterMap Verdict.asked?).map Prod.snd, result.2.2)
  /-- The watchpoint that stops the program is told. -/
  stop : result.1.stop = (verdicts.find? Verdict.stops).map Verdict.watchpoint
  /-- What is left of the watchpoints is left in their order. -/
  kept : result.2.1.watchpoints = verdicts.filterMap Verdict.kept?
  /-- The errors that are news are told, in their order. -/
  errors : result.1.errors = ((verdicts.filterMap Verdict.failure?).filter
    fun failure => !registry.reported.contains (.watchpoint failure.1)).eraseDupsBy
      fun a b => a.1 == b.1
  /-- They are the ones that have been reported then. -/
  reported : result.2.1.reported =
    (result.1.errors.map fun error => .watchpoint error.1).reverse ++ registry.reported
  /-- The breakpoints are the same. -/
  breakpoints : registry.SameBreakpoints result.2.1

/-- To check the watchpoints asks for those that are looked at on the event, up to the first one that
stops the program, and does to each what its verdict says. -/
theorem checks_checkWatchpoints (registry : Registry) (event : TraceEvent)
    (evaluate : Evaluator σ) (memory : σ) :
    registry.Checks event evaluate memory
      (verdicts event evaluate memory registry.watchpoints).1
      (registry.checkWatchpoints event evaluate memory) := by
  rw [checkWatchpoints, checkFrom_eq]
  exact {
    whole := map_watchpoint_verdicts event evaluate memory registry.watchpoints
    asked := fun front verdict back h => by
      rw [areAsked_verdicts event evaluate memory registry.watchpoints front verdict back h, applies_iff]
    answers := askAll_verdicts event evaluate memory registry.watchpoints
    stop := rfl
    kept := rfl
    errors := rfl
    reported := rfl
    breakpoints := ⟨rfl, rfl, rfl⟩ }

end Registry

end DebugLink
