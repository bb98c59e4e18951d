import DebugLink.LineCache
import Mathlib.Data.List.DropRight

/-!
# Which lines are remembered

Lines are asked for, invalidated and forgotten, and the provider may be edited in between. What is
remembered of a path can be told from the history alone: it is the code that the provider gave when
it was first asked with success about an equal path, since the path was last invalidated. So a path
is answered from there, the provider is asked only if there is no such code, and it gives code for a
path once at most until the path is invalidated.
-/

namespace DebugLink

/-! ## What single operations do -/

namespace LineCache

/-- Nothing is remembered of a path that is to be forgotten, and the same of the others. -/
theorem get?_invalidate (cache : LineCache) (path other : SourcePath) :
    (cache.invalidate path).get? other =
      if SourcePath.same path other then none else cache.get? other := by
  rw [get?, get?, LineCache.invalidate, SourcePath.same]
  by_cases hsame : SourcePath.key path = SourcePath.key other
  · rw [if_pos (beq_iff_eq.mpr hsame), List.lookup_eq_none_iff, ← hsame]
    intro entry hentry
    rw [bne_comm]
    exact (List.mem_filter.mp hentry).2
  · rw [if_neg (by simpa using hsame)]
    dsimp only
    induction cache.files with
    | nil => rfl
    | cons entry files ih =>
      obtain ⟨key, lines⟩ := entry
      by_cases hkey : key = SourcePath.key path
      · rw [List.filter_cons_of_neg (by simp [hkey]), ih, List.lookup_cons, hkey,
          beq_false_of_ne (Ne.symm hsame)]
      · rw [List.filter_cons_of_pos (by simp [hkey]), List.lookup_cons, List.lookup_cons, ih]

/-- Equal paths are remembered together. -/
theorem get?_of_same (cache : LineCache) {path other : SourcePath}
    (h : SourcePath.same path other) : cache.get? path = cache.get? other := by
  rw [get?, get?, beq_iff_eq.mp h]

/-- What is remembered of a path is its answer. If nothing is, the provider is asked, and its answer
is remembered if it gives code. -/
theorem lines_eq (cache : LineCache) (provider : CodeProvider) (path : SourcePath) :
    (cache.lines provider path).1 =
        (cache.get? path).or ((provider path).map CodeObject.breakableLines) ∧
      (cache.lines provider path).2.asked =
        cache.asked ++ (if (cache.get? path).isNone then [path] else []) ∧
      ∀ other, (cache.lines provider path).2.get? other = (cache.get? other).or
        (if SourcePath.same path other then (provider path).map CodeObject.breakableLines
          else none) := by
  rw [lines]
  cases hget : cache.get? path with
  | some lines =>
    refine ⟨rfl, (List.append_nil _).symm, fun other => ?_⟩
    by_cases hsame : SourcePath.same path other
    · rw [← cache.get?_of_same hsame, hget]
      rfl
    · rw [if_neg hsame, Option.or_none]
  | none =>
    dsimp only
    cases hcode : provider path with
    | none =>
      refine ⟨rfl, rfl, fun other => ?_⟩
      rw [Option.map_none, ite_self, Option.or_none]
      rfl
    | some code =>
      refine ⟨rfl, rfl, fun other => ?_⟩
      by_cases hsame : SourcePath.same path other
      · have hnone : cache.get? other = none := by rw [← cache.get?_of_same hsame, hget]
        have hkey := beq_iff_eq.mp hsame
        rw [hnone, if_pos hsame, get?, hkey, List.lookup_cons, beq_self_eq_true]
        rfl
      · have hkey : (SourcePath.key other == SourcePath.key path) = false := by
          rw [SourcePath.same] at hsame
          rw [beq_eq_false_iff_ne]
          exact fun heq => hsame (beq_iff_eq.mpr heq.symm)
        rw [if_neg hsame, Option.or_none, get?, List.lookup_cons, hkey]
        rfl

end LineCache

/-! ## Histories -/

/-- An operation on remembered lines, or an edit of what the provider answers. -/
inductive LineOperation where
  /-- Ask for the lines of a path. -/
  | lines (path : SourcePath)
  /-- Ask whether the lines of a path are remembered. -/
  | isCached (path : SourcePath)
  /-- Forget the lines of a path. -/
  | invalidate (path : SourcePath)
  /-- Forget all lines. -/
  | clear
  /-- Let the provider answer differently from now on. -/
  | edit (provider : CodeProvider)

namespace LineOperation

/-- The provider behind an operation. -/
def provider (operation : LineOperation) (before : CodeProvider) : CodeProvider :=
  match operation with
  | edit provider => provider
  | _ => before

/-- Whether an operation makes the lines of a path invalid. -/
def resets (path : SourcePath) : LineOperation → Bool
  | invalidate other => SourcePath.same other path
  | clear => true
  | _ => false

end LineOperation

/-- The operations so far, each with the provider as it was then. -/
abbrev LineHistory := List (CodeProvider × LineOperation)

namespace LineHistory

/-- The history of operations, from a provider on. -/
def ofOperations (provider : CodeProvider) : List LineOperation → LineHistory
  | [] => []
  | operation :: rest => (provider, operation) :: ofOperations (operation.provider provider) rest

/-- What the provider says if the lines of an equal path are asked for. -/
def answer? (path : SourcePath) : CodeProvider × LineOperation → Option CodeObject
  | (provider, .lines other) => if SourcePath.same other path then provider other else none
  | _ => none

/-- The history since the lines of a path were last made invalid. -/
def since (path : SourcePath) (history : LineHistory) : LineHistory :=
  history.rtakeWhile fun entry => !entry.2.resets path

/-- The code that the provider gave at the first successful query for an equal path, since the lines
of the path were last made invalid. -/
def first? (path : SourcePath) (history : LineHistory) : Option CodeObject :=
  (since path history).findSome? (answer? path)

variable {path other : SourcePath} {history : LineHistory} {provider : CodeProvider}

/-- An operation makes the lines of a path invalid, or it may be the first successful query. -/
theorem first?_concat (path : SourcePath) (history : LineHistory)
    (entry : CodeProvider × LineOperation) :
    first? path (history ++ [entry]) =
      if entry.2.resets path then none else (first? path history).or (answer? path entry) := by
  rw [first?, since, List.rtakeWhile_concat]
  cases hresets : entry.2.resets path with
  | true => rfl
  | false =>
    rw [Bool.not_false, if_pos rfl, if_neg Bool.false_ne_true, List.findSome?_append,
      List.findSome?_singleton]
    rfl

/-- Code that was given stays the first as long as the path is not made invalid. -/
theorem isSome_first?_append (h : (first? path history).isSome) {more : LineHistory}
    (hm : ∀ entry ∈ more, entry.2.resets path = false) :
    (first? path (history ++ more)).isSome := by
  induction more generalizing history with
  | nil => rwa [List.append_nil]
  | cons entry more ih =>
    obtain ⟨hentry, hmore⟩ := List.forall_mem_cons.mp hm
    rw [List.append_cons]
    refine ih ?_ hmore
    rw [first?_concat, hentry, if_neg Bool.false_ne_true, Option.isSome_or, h, Bool.true_or]

/-- Equal paths have the same first code. -/
theorem first?_of_same (h : SourcePath.same path other) (history : LineHistory) :
    first? path history = first? other history := by
  have hresets : ∀ operation : LineOperation, operation.resets path = operation.resets other := by
    intro operation
    cases operation with
    | invalidate file => exact SourcePath.same_congr_right h file
    | _ => rfl
  have hanswer : answer? path = answer? other := by
    funext ⟨provider, operation⟩
    cases operation with
    | lines file => rw [answer?, answer?, SourcePath.same_congr_right h file]
    | _ => rfl
  simp only [first?, since, hresets, hanswer]

/-- Each entry of a history is about one of the operations. -/
theorem mem_of_mem_ofOperations {operations : List LineOperation}
    {entry : CodeProvider × LineOperation} (h : entry ∈ ofOperations provider operations) :
    entry.2 ∈ operations := by
  induction operations generalizing provider with
  | nil => exact absurd h List.not_mem_nil
  | cons operation operations ih =>
    rcases List.mem_cons.mp h with rfl | hrest
    · exact List.mem_cons_self
    · exact List.mem_cons_of_mem _ (ih hrest)

end LineHistory

/-! ## Runs -/

/-- The paths that the provider is asked for by an operation: one that the history has no code of,
as it is spelled. -/
def LineOperation.asks (history : LineHistory) : LineOperation → List SourcePath
  | lines path => if (LineHistory.first? path history).isNone then [path] else []
  | _ => []

/-- Remembered lines with the provider that is asked for the others. -/
structure LineSource where
  /-- The lines that are remembered. -/
  cache : LineCache := {}
  /-- The provider, as it answers now. -/
  provider : CodeProvider

namespace LineSource

/-- The lines behind an operation, with the provider. -/
def perform (source : LineSource) : LineOperation → LineSource
  | .lines path => { source with cache := (source.cache.lines source.provider path).2 }
  | .isCached _ => source
  | .invalidate path => { source with cache := source.cache.invalidate path }
  | .clear => { source with cache := source.cache.clear }
  | .edit provider => { source with provider }

/-- The lines behind operations, one after the other, with the provider. -/
def run (source : LineSource) (operations : List LineOperation) : LineSource :=
  operations.foldl perform source

/-- The provider is asked for a path, as it is spelled, and gives code. -/
def Fetches (source : LineSource) (path : SourcePath) : Prop :=
  (source.cache.lines source.provider path).2.asked = source.cache.asked ++ [path] ∧
    (source.provider path).isSome

/-- What is remembered is told by a history. -/
def Follows (history : LineHistory) (source : LineSource) : Prop :=
  ∀ path, source.cache.get? path =
    (LineHistory.first? path history).map CodeObject.breakableLines

/-- All answers are told by a history, and so is what the provider is asked for. -/
structure Recalls (history : LineHistory) (source : LineSource) : Prop where
  /-- The lines of a path are those of the first successful query, which may be this one. -/
  lines : ∀ path, (source.cache.lines source.provider path).1 =
    (LineHistory.first? path (history ++ [(source.provider, .lines path)])).map
      CodeObject.breakableLines
  /-- A path is remembered if there was a successful query. -/
  isCached : ∀ path, source.cache.isCached path = (LineHistory.first? path history).isSome
  /-- The provider is only asked for a path of which there was no successful query. -/
  asked : ∀ operation : LineOperation,
    (source.perform operation).cache.asked = source.cache.asked ++ operation.asks history
  /-- Without code there is no answer, and it is remembered of each path what was. -/
  failure : ∀ path, LineHistory.first? path history = none → source.provider path = none →
    (source.cache.lines source.provider path).1 = none ∧
      ∀ other, (source.cache.lines source.provider path).2.get? other = source.cache.get? other

variable {source : LineSource} {history : LineHistory}

/-- The provider behind an operation is the one that the history has. -/
theorem provider_perform (source : LineSource) (operation : LineOperation) :
    (source.perform operation).provider = operation.provider source.provider := by
  cases operation <;> rfl

/-- An operation makes the lines of a path invalid, or it may be a query that is remembered. -/
theorem get?_perform (source : LineSource) (operation : LineOperation) (path : SourcePath) :
    (source.perform operation).cache.get? path =
      if operation.resets path then none
      else (source.cache.get? path).or
        ((LineHistory.answer? path (source.provider, operation)).map
          CodeObject.breakableLines) := by
  cases operation with
  | lines other =>
    obtain ⟨-, -, hget⟩ := source.cache.lines_eq source.provider other
    rw [perform, hget path, LineHistory.answer?, apply_ite (Option.map CodeObject.breakableLines)]
    rfl
  | isCached other => exact (Option.or_none (o := source.cache.get? path)).symm
  | invalidate other =>
    have hnone : LineHistory.answer? path (source.provider, .invalidate other) = none := rfl
    rw [perform, LineCache.get?_invalidate, hnone, Option.map_none, Option.or_none]
    rfl
  | clear => rfl
  | edit provider => exact (Option.or_none (o := source.cache.get? path)).symm

/-- What is remembered behind an operation is told by the history with the operation. -/
theorem Follows.perform (h : source.Follows history) (operation : LineOperation) :
    (source.perform operation).Follows (history ++ [(source.provider, operation)]) := by
  intro path
  rw [get?_perform, h path, LineHistory.first?_concat, apply_ite (Option.map _), Option.map_none,
    Option.map_or]

/-- What is remembered behind operations is told by the history with the operations. -/
theorem Follows.run (h : source.Follows history) (operations : List LineOperation) :
    (source.run operations).Follows
      (history ++ LineHistory.ofOperations source.provider operations) := by
  induction operations generalizing source history with
  | nil => rwa [LineHistory.ofOperations, List.append_nil]
  | cons operation operations ih =>
    have hrest := ih (h.perform operation)
    rw [provider_perform, List.append_assoc] at hrest
    exact hrest

/-- Nothing is remembered in the beginning. -/
theorem follows_start (provider : CodeProvider) : Follows [] { provider } := fun _ => rfl

/-- What is remembered behind operations from the beginning is told by their history. -/
theorem follows_run (provider : CodeProvider) (operations : List LineOperation) :
    (run { provider } operations).Follows (LineHistory.ofOperations provider operations) :=
  (follows_start provider).run operations

/-- If a history tells what is remembered, it tells all answers. -/
theorem Follows.recalls (h : source.Follows history) : source.Recalls history where
  lines path := by
    have hquery : LineHistory.answer? path (source.provider, .lines path) =
        source.provider path := if_pos (beq_self_eq_true _)
    rw [(source.cache.lines_eq source.provider path).1, h path, LineHistory.first?_concat, hquery,
      ← Option.map_or]
    rfl
  isCached path := by rw [LineCache.isCached, h path, Option.isSome_map]
  asked operation := by
    cases operation with
    | lines path =>
      obtain ⟨-, hasked, -⟩ := source.cache.lines_eq source.provider path
      rw [LineSource.perform, hasked, h path, Option.isNone_map, LineOperation.asks]
    | _ => exact (List.append_nil _).symm
  failure path hfirst hprovider := by
    obtain ⟨hanswer, -, hget⟩ := source.cache.lines_eq source.provider path
    rw [hprovider, Option.map_none, Option.or_none] at hanswer
    refine ⟨by rw [hanswer, h path, hfirst, Option.map_none], fun other => ?_⟩
    rw [hget other, hprovider, Option.map_none, ite_self, Option.or_none]

/-- The provider gives code only if there was no successful query, and then there is one. -/
theorem Follows.of_fetches (h : source.Follows history) {path : SourcePath}
    (hf : source.Fetches path) : LineHistory.first? path history = none ∧
      (LineHistory.first? path (history ++ [(source.provider, .lines path)])).isSome := by
  obtain ⟨hasked, hcode⟩ := hf
  have hquery : LineHistory.answer? path (source.provider, .lines path) =
      source.provider path := if_pos (beq_self_eq_true _)
  have hnone : LineHistory.first? path history = none := by
    rw [(source.cache.lines_eq source.provider path).2.1, h path, Option.isNone_map,
      List.append_cancel_left_eq] at hasked
    rw [← Option.isNone_iff_eq_none]
    by_contra hsome
    rw [if_neg hsome] at hasked
    exact List.cons_ne_nil _ _ hasked.symm
  refine ⟨hnone, ?_⟩
  rw [LineHistory.first?_concat, hnone, hquery]
  exact hcode

/-- The provider does not give code for equal paths twice, unless the path is made invalid in
between. -/
theorem Follows.exists_resets (h : source.Follows history) {between : List LineOperation}
    {path other : SourcePath} (hsame : SourcePath.same path other) (hfirst : source.Fetches path)
    (hsecond : ((source.perform (.lines path)).run between).Fetches other) :
    ∃ operation ∈ between, operation.resets path := by
  by_contra hno
  have hkept : ∀ entry ∈ LineHistory.ofOperations (source.perform (.lines path)).provider between,
      entry.2.resets path = false := fun entry hentry => Bool.eq_false_iff.mpr fun hresets =>
    hno ⟨entry.2, LineHistory.mem_of_mem_ofOperations hentry, hresets⟩
  -- The code that was given first is still the first in front of the second query.
  have hstill := LineHistory.isSome_first?_append (h.of_fetches hfirst).2 hkept
  have hnone := (((h.perform (.lines path)).run between).of_fetches hsecond).1
  rw [LineHistory.first?_of_same hsame, hnone] at hstill
  exact Bool.false_ne_true hstill

/-- Whatever lines were asked for, invalidated and forgotten, and however the provider was edited,
all answers are those of the history. The provider is asked, in the spelling of the query, only for
a path of which it has given no code since it was last made invalid. So it does not give code for
equal paths twice, unless the path is made invalid in between. -/
theorem recalls_run (provider : CodeProvider) (operations : List LineOperation) :
    (run { provider } operations).Recalls (LineHistory.ofOperations provider operations) ∧
      ∀ between path other, SourcePath.same path other →
        (run { provider } operations).Fetches path →
        (run { provider } (operations ++ .lines path :: between)).Fetches other →
        ∃ operation ∈ between, operation.resets path := by
  have hfollows := follows_run provider operations
  refine ⟨hfollows.recalls, fun between path other hsame hfirst hsecond => ?_⟩
  rw [run, List.foldl_append] at hsecond
  exact hfollows.exists_resets hsame hfirst hsecond

/-- A provider that gives code with one line for every path. -/
def oneLine (line : UInt32) : CodeProvider := fun _ => some (.unit line [] [])

/-- A path is asked for in vain, and again once the provider gives code. -/
def askedAgain : List LineOperation :=
  [.lines "src/a.py", .edit (oneLine 3), .lines "src/./a.py", .edit (oneLine 4), .lines "src//a.py"]

/-- What was given first is the answer, in every spelling, until the path is made invalid. Then the
provider gives code once more. -/
theorem recalls_run_askedAgain :
    (run { provider := fun _ => none } askedAgain).cache.asked =
        (["src/a.py", "src/./a.py"] : List SourcePath) ∧
      ((run { provider := fun _ => none } askedAgain).cache.lines (oneLine 4) "src/a.py").1 =
        some [3] ∧
      (run { provider := oneLine 3 } []).Fetches "src/a.py" ∧
      (run { provider := oneLine 3 } [.lines "src/a.py", .clear]).Fetches "src//a.py" ∧
      ∃ operation ∈ [LineOperation.clear], operation.resets "src/a.py" := by
  have hlines := (recalls_run (fun _ => none) askedAgain).1.lines "src/a.py"
  have hfirst : (run { provider := oneLine 3 } []).Fetches "src/a.py" :=
    ⟨by decide +kernel, by decide +kernel⟩
  have hsecond : (run { provider := oneLine 3 } [.lines "src/a.py", .clear]).Fetches "src//a.py" :=
    ⟨by decide +kernel, by decide +kernel⟩
  have hsame : SourcePath.same "src/a.py" "src//a.py" := by decide +kernel
  have hresets :=
    (recalls_run (oneLine 3) []).2 [.clear] "src/a.py" "src//a.py" hsame hfirst hsecond
  exact ⟨by decide +kernel, hlines.trans (by decide +kernel), hfirst, hsecond, hresets⟩

end LineSource

end DebugLink
