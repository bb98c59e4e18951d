import DebugLink.Proofs.Registry.Places

/-!
# What hits make of a breakpoint

An enabled breakpoint with an ignore count lets as many hits pass at which its condition holds, and
stops the program at the next one. A temporary breakpoint is gone behind that hit, and another one
stops the program at each further hit at which its condition holds. Hits at which the condition does
not hold, or cannot be evaluated, do not count. What is left of the breakpoint is told by the number
of hits that count, whatever is done elsewhere in between.
-/

namespace DebugLink

variable {σ : Type}

namespace RegistryOperation

end RegistryOperation

namespace Breakpoint

/-- What comes of asking for the condition of a breakpoint. Without a condition, the breakpoint is
always meant. -/
def ask (breakpoint : Breakpoint) (evaluate : Evaluator σ) (memory : σ) : Except String Bool × σ :=
  match breakpoint.condition with
  | some condition => evaluate condition memory
  | none => (.ok true, memory)

/-- A breakpoint that has counted so many hits. -/
def counted (breakpoint : Breakpoint) (triggered : Nat) : Breakpoint :=
  { breakpoint with ignoreCount := .ofNat (breakpoint.ignoreCount.toNat - triggered) }

/-- What is left of a breakpoint behind so many hits at which its condition holds. -/
def behind (breakpoint : Breakpoint) (triggered : Nat) : Option Breakpoint :=
  if breakpoint.temporary ∧ breakpoint.ignoreCount.toNat < triggered then none
  else some (breakpoint.counted triggered)

/-- What comes of the next hit of a breakpoint, behind so many hits at which its condition holds. -/
structure ComesTo (breakpoint : Breakpoint) (triggered : Nat) (answer : Except String Bool)
    (outcome : HitOutcome) : Prop where
  /-- A temporary breakpoint is gone behind the hit at which it stops the program. -/
  gone : breakpoint.temporary → breakpoint.ignoreCount.toNat < triggered → outcome = .pass
  /-- A hit passes if the condition does not hold. -/
  passed : answer = .ok false → outcome = .pass
  /-- A condition that cannot be evaluated is told of, while there is a breakpoint. -/
  failed : (breakpoint.temporary → triggered ≤ breakpoint.ignoreCount.toNat) →
    ∀ message, answer = .error message → ∃ report, outcome = .conditionError message report
  /-- While the count is not used up, a hit only counts. -/
  counts : answer = .ok true → triggered < breakpoint.ignoreCount.toNat →
    ∃ remaining, outcome = .ignored remaining ∧
      remaining.toNat = breakpoint.ignoreCount.toNat - (triggered + 1)
  /-- The next hit stops the program. -/
  stops : answer = .ok true → triggered = breakpoint.ignoreCount.toNat →
    outcome = .stop breakpoint.temporary
  /-- Each further one does so too, if the breakpoint is not temporary. -/
  stopsAgain : answer = .ok true → breakpoint.ignoreCount.toNat < triggered →
    breakpoint.temporary = false → outcome = .stop false

/-- How a hit comes out, if `report` tells whether an error is news. -/
def outcome (breakpoint : Breakpoint) (triggered : Nat) (answer : Except String Bool)
    (report : Bool) : HitOutcome :=
  if breakpoint.temporary ∧ breakpoint.ignoreCount.toNat < triggered then .pass
  else
    match answer with
    | .ok false => .pass
    | .error message => .conditionError message report
    | .ok true =>
      if triggered < breakpoint.ignoreCount.toNat then
        .ignored (breakpoint.counted (triggered + 1)).ignoreCount
      else .stop breakpoint.temporary

variable {breakpoint : Breakpoint} {triggered : Nat}

end Breakpoint

namespace Registry

variable {registry changed other : Registry} {place : Place}

/-- The breakpoint at a place. -/
def at? (registry : Registry) (place : Place) : Option Breakpoint :=
  registry.breakpoints.find? (·.place == place)

section Hit

variable {file : SourcePath} {line : UInt32} {breakpoint : Breakpoint} {evaluate : Evaluator σ}
  {memory : σ}

/-- Where there is no breakpoint, a hit passes. -/
theorem hit_of_none (h : registry.at? (.ofLine file line) = none) :
    registry.hit file line evaluate memory = (.pass, registry, memory) := by
  rw [hit, breakpoint?, ← at?, h]

/-- A hit of a breakpoint that is not enabled passes. -/
theorem hit_of_disabled (h : registry.at? (.ofLine file line) = some breakpoint)
    (hdisabled : breakpoint.enabled = false) :
    registry.hit file line evaluate memory = (.pass, registry, memory) := by
  rw [hit, breakpoint?, ← at?, h]
  simp only [hdisabled, Bool.not_false, if_true]

/-- A hit of an enabled breakpoint asks for its condition. It passes where that does not hold, tells
where it cannot be evaluated, and else it counts, or stops the program. -/
theorem hit_of_enabled (h : registry.at? (.ofLine file line) = some breakpoint)
    (henabled : breakpoint.enabled) :
    registry.hit file line evaluate memory =
      match (breakpoint.ask evaluate memory).1 with
      | .ok false => (.pass, registry, (breakpoint.ask evaluate memory).2)
      | .error message =>
        (.conditionError message (registry.noteError (.breakpoint (.ofLine file line))).1,
          (registry.noteError (.breakpoint (.ofLine file line))).2,
          (breakpoint.ask evaluate memory).2)
      | .ok true =>
        if breakpoint.ignoreCount > 0 then
          (.ignored (breakpoint.ignoreCount - 1),
            (registry.ignoreBreakpoint file line (breakpoint.ignoreCount - 1)).2,
            (breakpoint.ask evaluate memory).2)
        else if breakpoint.temporary then
          (.stop true, (registry.removeBreakpoint file line).2, (breakpoint.ask evaluate memory).2)
        else (.stop false, registry, (breakpoint.ask evaluate memory).2) := by
  rw [hit, breakpoint?, ← at?, h]
  simp only [henabled, Bool.not_true, Bool.false_eq_true, if_false]
  rfl

end Hit

/-! ## Hits one after the other -/

/-- An evaluator that answers what it remembers. -/
def remembered : Evaluator (Except String Bool) := fun _ memory => (memory, memory)

end Registry

end DebugLink
