import DebugLink.Snapshot.Keeper

/-!
# Merging flat records into a snapshot

The breakpoints of a file of flat records go to the first project of their path, or to a new one. A
project keeps its breakpoints on other lines in front, and has the last one of the file on each line
of the file behind them. A watchpoint is only added if there is none with its condition. So to merge
the same file once more changes nothing.
-/

namespace DebugLink

/-! ## One project -/

namespace Project

variable {breakpoint : Breakpoint} {imported : List Breakpoint} {project : Project}

/-- Whether a list has a breakpoint on the line of another one. -/
def hasLineOf (breakpoints : List Breakpoint) (breakpoint : Breakpoint) : Bool :=
  breakpoints.any (·.line == breakpoint.line)

/-- The last breakpoint on each line, in the order of the list. -/
def lasts : List Breakpoint → List Breakpoint
  | [] => []
  | breakpoint :: rest => if hasLineOf rest breakpoint then lasts rest else breakpoint :: lasts rest

/-- Add breakpoints one after the other. -/
def addAll (project : Project) (breakpoints : List Breakpoint) : Project :=
  breakpoints.foldl add project

/-- What is the last on its line was in the list. -/
theorem mem_of_mem_lasts (h : breakpoint ∈ lasts imported) : breakpoint ∈ imported := by
  induction imported with
  | nil => exact h
  | cons first rest ih =>
    rw [lasts] at h
    split at h
    · exact List.mem_cons_of_mem _ (ih h)
    · exact List.mem_cons.mpr ((List.mem_cons.mp h).imp_right ih)

/-- No breakpoint of a list is on the line of another one if none is left of those that are. -/
theorem hasLineOf_eq_false_iff (breakpoints : List Breakpoint) (breakpoint : Breakpoint) :
    hasLineOf breakpoints breakpoint = false ↔
      breakpoints.filter (·.line == breakpoint.line) = [] := by
  rw [hasLineOf, List.any_eq_false, List.filter_eq_nil_iff]

/-- On each line there is only the last breakpoint. -/
theorem filter_lasts (imported : List Breakpoint) (line : UInt32) :
    (lasts imported).filter (·.line == line) =
      (imported.filter (·.line == line)).getLast?.toList := by
  induction imported with
  | nil => rfl
  | cons first rest ih =>
    rw [lasts]
    by_cases hline : first.line = line
    · subst hline
      have hfirst : (first.line == first.line) = true := beq_self_eq_true _
      have hfilter : (first :: rest).filter (·.line == first.line) =
          first :: rest.filter (·.line == first.line) := List.filter_cons_of_pos hfirst
      rw [hfilter]
      cases hrest : rest.filter (·.line == first.line) with
      | nil =>
        have hlast := (hasLineOf_eq_false_iff rest first).mpr hrest
        have hcons : (first :: lasts rest).filter (·.line == first.line) =
            first :: (lasts rest).filter (·.line == first.line) := List.filter_cons_of_pos hfirst
        rw [hlast, if_neg Bool.false_ne_true, hcons, ih, hrest]
        rfl
      | cons next others =>
        have hmore : hasLineOf rest first = true := by
          rw [← Bool.not_eq_false, hasLineOf_eq_false_iff, hrest]
          exact List.cons_ne_nil _ _
        rw [hmore, if_pos rfl, ih, hrest, List.getLast?_cons_cons]
    · have hother : ∀ list : List Breakpoint, (first :: list).filter (·.line == line) =
          list.filter (·.line == line) := fun list => List.filter_cons_of_neg (by simpa using hline)
      rw [hother rest, ← ih]
      split
      · rfl
      · exact hother _

/-- The breakpoints on other lines stay in front, and on each line that is added there is the last
one. -/
theorem addAll_eq (project : Project) (imported : List Breakpoint) :
    project.addAll imported = { project with
      breakpoints := project.breakpoints.filter (!hasLineOf imported ·) ++ lasts imported } := by
  induction imported generalizing project with
  | nil =>
    have hall : project.breakpoints.filter (!hasLineOf [] ·) = project.breakpoints :=
      List.filter_eq_self.mpr fun _ _ => rfl
    rw [hall, lasts, List.append_nil]
    rfl
  | cons first rest ih =>
    have hrest : project.addAll (first :: rest) = (project.add first).addAll rest := rfl
    have hline : ∀ other : Breakpoint, (!hasLineOf (first :: rest) other) =
        (!hasLineOf rest other && other.line != first.line) := fun other => by
      rw [hasLineOf, List.any_cons, Bool.not_or, Bool.and_comm, Bool.beq_comm]
      rfl
    have hkept : project.breakpoints.filter (!hasLineOf (first :: rest) ·) =
        (project.breakpoints.filter (·.line != first.line)).filter (!hasLineOf rest ·) := by
      rw [List.filter_filter]
      exact List.filter_congr fun other _ => hline other
    have hlast : [first].filter (!hasLineOf rest ·) ++ lasts rest = lasts (first :: rest) := by
      rw [lasts]
      cases hmore : hasLineOf rest first <;> simp [hmore]
    rw [hrest, ih, add, hkept, List.filter_append, List.append_assoc, hlast]

/-- To add the same breakpoints again changes nothing. -/
theorem addAll_addAll (project : Project) (imported : List Breakpoint) :
    (project.addAll imported).addAll imported = project.addAll imported := by
  have hkept : (project.breakpoints.filter (!hasLineOf imported ·)).filter
      (!hasLineOf imported ·) = project.breakpoints.filter (!hasLineOf imported ·) :=
    List.filter_eq_self.mpr fun other hother => (List.mem_filter.mp hother).2
  have hnone : (lasts imported).filter (!hasLineOf imported ·) = [] := by
    refine List.filter_eq_nil_iff.mpr fun breakpoint hlast => ?_
    have hline : hasLineOf imported breakpoint = true :=
      List.any_eq_true.mpr ⟨breakpoint, mem_of_mem_lasts hlast, beq_self_eq_true _⟩
    rw [hline]
    exact Bool.false_ne_true
  rw [addAll_eq, addAll_eq]
  dsimp only
  rw [List.filter_append, hkept, hnone, List.append_nil]

/-! ## Several projects -/

/-- Add breakpoints one after the other to the projects of their files. -/
def addAllTo (projects : List Project) (breakpoints : List Breakpoint) : List Project :=
  breakpoints.foldl (fun projects breakpoint => addTo breakpoint projects) projects

/-- The breakpoints of a list that belong to a path. -/
def own (path : SourcePath) (breakpoints : List Breakpoint) : List Breakpoint :=
  breakpoints.filter fun breakpoint => SourcePath.same path breakpoint.file

/-- The breakpoints of a list that belong to other paths. -/
def others (path : SourcePath) (breakpoints : List Breakpoint) : List Breakpoint :=
  breakpoints.filter fun breakpoint => !SourcePath.same path breakpoint.file

/-- A breakpoint in front belongs to a path, or it does not. -/
theorem own_cons (path : SourcePath) (breakpoint : Breakpoint) (breakpoints : List Breakpoint) :
    own path (breakpoint :: breakpoints) =
      if SourcePath.same path breakpoint.file then breakpoint :: own path breakpoints
      else own path breakpoints := List.filter_cons

/-- A breakpoint in front belongs to another path, or it does not. -/
theorem others_cons (path : SourcePath) (breakpoint : Breakpoint) (breakpoints : List Breakpoint) :
    others path (breakpoint :: breakpoints) =
      if SourcePath.same path breakpoint.file then others path breakpoints
      else breakpoint :: others path breakpoints := by
  rw [others, List.filter_cons]
  cases SourcePath.same path breakpoint.file <;> rfl

/-- The first project takes its breakpoints, and those behind it take the others. -/
theorem addAllTo_cons (project : Project) (rest : List Project) (breakpoints : List Breakpoint) :
    addAllTo (project :: rest) breakpoints =
      project.addAll (own project.path breakpoints) ::
        addAllTo rest (others project.path breakpoints) := by
  induction breakpoints generalizing project rest with
  | nil => rfl
  | cons breakpoint breakpoints ih =>
    have hstep : addAllTo (project :: rest) (breakpoint :: breakpoints) =
        addAllTo (addTo breakpoint (project :: rest)) breakpoints := rfl
    rw [hstep, addTo, isOf, own_cons, others_cons]
    split
    · rw [ih]
      rfl
    · rw [ih]
      rfl

/-- A new project is one that had no breakpoints. -/
theorem addAllTo_nil_cons (breakpoint : Breakpoint) (breakpoints : List Breakpoint) :
    addAllTo [] (breakpoint :: breakpoints) =
      addAllTo [⟨breakpoint.file, []⟩] (breakpoint :: breakpoints) := by
  have hsame : isOf ⟨breakpoint.file, []⟩ breakpoint.file = true := beq_self_eq_true _
  have hadded : addTo breakpoint [⟨breakpoint.file, []⟩] = addTo breakpoint [] := if_pos hsame
  rw [addAllTo, addAllTo, List.foldl_cons, List.foldl_cons, hadded]

/-- To add the same breakpoints again changes no project, if it does not change those behind the
first one. -/
theorem addAllTo_addAllTo_cons (project : Project) {rest : List Project}
    {breakpoints : List Breakpoint}
    (h : addAllTo (addAllTo rest (others project.path breakpoints))
        (others project.path breakpoints) = addAllTo rest (others project.path breakpoints)) :
    addAllTo (addAllTo (project :: rest) breakpoints) breakpoints =
      addAllTo (project :: rest) breakpoints := by
  have hpath : (project.addAll (own project.path breakpoints)).path = project.path := by
    rw [addAll_eq]
  rw [addAllTo_cons, addAllTo_cons, hpath, addAll_addAll, h]

/-- To add the same breakpoints again changes no project. -/
theorem addAllTo_addAllTo (projects : List Project) (breakpoints : List Breakpoint) :
    addAllTo (addAllTo projects breakpoints) breakpoints = addAllTo projects breakpoints := by
  match projects, breakpoints with
  | [], [] => rfl
  | project :: rest, breakpoints =>
    have hlength : (others project.path breakpoints).length ≤ breakpoints.length :=
      List.length_filter_le _ _
    exact addAllTo_addAllTo_cons project (addAllTo_addAllTo rest (others project.path breakpoints))
  | [], breakpoint :: breakpoints =>
    -- The new project takes the first breakpoint at least.
    have hothers : others breakpoint.file (breakpoint :: breakpoints) =
        others breakpoint.file breakpoints := by
      rw [others_cons]
      exact if_pos (beq_self_eq_true _)
    have hlength : (others breakpoint.file breakpoints).length ≤ breakpoints.length :=
      List.length_filter_le _ _
    have hrest := addAllTo_addAllTo [] (others breakpoint.file breakpoints)
    rw [addAllTo_nil_cons]
    rw [← hothers] at hrest
    exact addAllTo_addAllTo_cons ⟨breakpoint.file, []⟩ hrest
  termination_by breakpoints.length + projects.length
  decreasing_by all_goals (simp only [List.length_cons, List.length_nil]; omega)

/-- A breakpoint is added to the first project of its path, or to a new one. -/
theorem find?_addTo (breakpoint : Breakpoint) (projects : List Project) (path : SourcePath) :
    (addTo breakpoint projects).find? (·.isOf path) =
      if SourcePath.same path breakpoint.file then
        some (((projects.find? (·.isOf path)).getD ⟨breakpoint.file, []⟩).add breakpoint)
      else projects.find? (·.isOf path) := by
  induction projects with
  | nil =>
    have hnew : isOf ⟨breakpoint.file, [breakpoint]⟩ path = SourcePath.same path breakpoint.file :=
      SourcePath.same_comm _ _
    rw [addTo, List.find?_cons, hnew]
    cases SourcePath.same path breakpoint.file <;> rfl
  | cons project rest ih =>
    -- The project is one of both spellings, or of none, if they mean the same path.
    have hboth : SourcePath.same path breakpoint.file →
        project.isOf breakpoint.file = project.isOf path := fun hsame =>
      (SourcePath.same_congr_right hsame project.path).symm
    have hsame : project.isOf breakpoint.file → project.isOf path →
        SourcePath.same path breakpoint.file := fun hfile hpath => by
      rw [SourcePath.same_comm, ← SourcePath.same_congr_right hpath, SourcePath.same_comm]
      exact hfile
    have hadded : (project.add breakpoint).isOf path = project.isOf path := rfl
    rw [addTo]
    cases hfile : project.isOf breakpoint.file with
    | true =>
      rw [if_pos rfl, List.find?_cons, List.find?_cons, hadded]
      cases hpath : project.isOf path with
      | true => rw [if_pos (hsame hfile hpath), Option.getD_some]
      | false =>
        rw [if_neg fun h => Bool.false_ne_true (by rw [← hpath, ← hboth h, hfile])]
    | false =>
      rw [if_neg Bool.false_ne_true, List.find?_cons, List.find?_cons]
      cases hpath : project.isOf path with
      | true => rw [if_neg fun h => Bool.false_ne_true (by rw [← hpath, ← hboth h, hfile])]
      | false => exact ih

/-- The first project of a path takes all breakpoints of the path. -/
theorem find?_addAllTo (projects : List Project) (breakpoints : List Breakpoint)
    (path : SourcePath) :
    (addAllTo projects breakpoints).find? (·.isOf path) =
      ((projects.find? (·.isOf path)).or
        ((own path breakpoints).head?.map fun first => ⟨first.file, []⟩)).map
          (·.addAll (own path breakpoints)) := by
  induction breakpoints generalizing projects with
  | nil =>
    rw [addAllTo, List.foldl_nil, own, List.filter_nil]
    cases projects.find? (·.isOf path) <;> rfl
  | cons breakpoint breakpoints ih =>
    have hstep : addAllTo projects (breakpoint :: breakpoints) =
        addAllTo (addTo breakpoint projects) breakpoints := rfl
    rw [hstep, ih, find?_addTo, own_cons]
    split
    · cases projects.find? (·.isOf path) <;> rfl
    · rfl

/-- How the breakpoints of a project change when some are merged into it. -/
structure Merges (imported before after : List Breakpoint) : Prop where
  /-- The breakpoints on other lines stay, in their order and in front of all that are merged. -/
  kept : ∃ merged, after = before.filter (!hasLineOf imported ·) ++ merged ∧
    ∀ breakpoint ∈ merged, breakpoint ∈ imported
  /-- On each line there is exactly the last of the breakpoints that are merged. -/
  last : ∀ breakpoint ∈ imported, ∃ last,
    (imported.filter (·.line == breakpoint.line)).getLast? = some last ∧
      after.filter (·.line == breakpoint.line) = [last]

/-- Breakpoints are merged into a project if they are added one after the other. -/
theorem merges_addAll (project : Project) (imported : List Breakpoint) :
    Merges imported project.breakpoints (project.addAll imported).breakpoints := by
  rw [addAll_eq]
  refine ⟨⟨_, rfl, fun breakpoint => mem_of_mem_lasts⟩, fun breakpoint hmem => ?_⟩
  -- What stays is on other lines.
  have hother : (project.breakpoints.filter (!hasLineOf imported ·)).filter
      (·.line == breakpoint.line) = [] := by
    refine List.filter_eq_nil_iff.mpr fun other hkept hline => ?_
    have hnone := (List.mem_filter.mp hkept).2
    have hsome : hasLineOf imported other = true := by
      rw [hasLineOf, beq_iff_eq.mp hline]
      exact List.any_eq_true.mpr ⟨breakpoint, hmem, beq_self_eq_true _⟩
    rw [hsome] at hnone
    exact Bool.false_ne_true hnone
  rw [List.filter_append, hother, List.nil_append, filter_lasts]
  cases hlast : (imported.filter (·.line == breakpoint.line)).getLast? with
  | none =>
    rw [List.getLast?_eq_none_iff, List.filter_eq_nil_iff] at hlast
    exact absurd (beq_self_eq_true _) (hlast breakpoint hmem)
  | some last => exact ⟨last, rfl, rfl⟩

/-- The first project of the path of a breakpoint that is added has all breakpoints of that path
merged into it. -/
theorem merges_addAllTo (projects : List Project) {breakpoints : List Breakpoint}
    (hm : breakpoint ∈ breakpoints) :
    ∃ project, (addAllTo projects breakpoints).find? (·.isOf breakpoint.file) = some project ∧
      Merges (own breakpoint.file breakpoints)
        ((projects.find? (·.isOf breakpoint.file)).elim [] Project.breakpoints)
        project.breakpoints := by
  have hown : breakpoint ∈ own breakpoint.file breakpoints :=
    List.mem_filter.mpr ⟨hm, beq_self_eq_true _⟩
  rw [find?_addAllTo]
  cases projects.find? (·.isOf breakpoint.file) with
  | some project => exact ⟨_, rfl, project.merges_addAll _⟩
  | none =>
    cases hfirst : (own breakpoint.file breakpoints).head? with
    | none => exact absurd (List.head?_eq_none_iff.mp hfirst ▸ hown) List.not_mem_nil
    | some first => exact ⟨_, rfl, merges_addAll ⟨first.file, []⟩ _⟩

end Project

/-! ## Watchpoints -/

namespace Watchpoint

variable {watchpoint : Watchpoint} {watchpoints imported : List Watchpoint}

/-- Put a watchpoint behind the others, unless there is one with its condition. -/
def addTo (watchpoint : Watchpoint) (watchpoints : List Watchpoint) : List Watchpoint :=
  if watchpoints.any (·.condition == watchpoint.condition) then watchpoints
  else watchpoints ++ [watchpoint]

/-- Add watchpoints one after the other. -/
def addAllTo (watchpoints imported : List Watchpoint) : List Watchpoint :=
  imported.foldl (fun watchpoints watchpoint => addTo watchpoint watchpoints) watchpoints

/-- The watchpoints that were there stay where they are, and there is one with each condition. -/
theorem addAllTo_spec (watchpoints imported : List Watchpoint) :
    (∃ more, more.Sublist imported ∧ addAllTo watchpoints imported = watchpoints ++ more) ∧
      ∀ watchpoint ∈ imported,
        (addAllTo watchpoints imported).any (·.condition == watchpoint.condition) = true := by
  induction imported generalizing watchpoints with
  | nil => exact ⟨⟨[], List.Sublist.refl _, (List.append_nil _).symm⟩, nofun⟩
  | cons first rest ih =>
    have hstep : addAllTo watchpoints (first :: rest) = addAllTo (addTo first watchpoints) rest :=
      rfl
    obtain ⟨⟨more, hmore, hrest⟩, hall⟩ := ih (addTo first watchpoints)
    rw [hstep]
    rw [hrest] at hall ⊢
    rw [addTo] at hall ⊢
    split
    · next hfound =>
      rw [if_pos hfound] at hall
      refine ⟨⟨more, hmore.cons first, rfl⟩, List.forall_mem_cons.mpr ⟨?_, hall⟩⟩
      rw [List.any_append, hfound, Bool.true_or]
    · next hnew =>
      rw [if_neg hnew] at hall
      refine ⟨⟨first :: more, hmore.cons_cons first, by simp⟩, List.forall_mem_cons.mpr ⟨?_, hall⟩⟩
      simp

/-- Watchpoints whose conditions are there are not added. -/
theorem addAllTo_of_any
    (h : ∀ watchpoint ∈ imported, watchpoints.any (·.condition == watchpoint.condition) = true) :
    addAllTo watchpoints imported = watchpoints := by
  induction imported with
  | nil => rfl
  | cons first rest ih =>
    obtain ⟨hfirst, hrest⟩ := List.forall_mem_cons.mp h
    have hadded : addTo first watchpoints = watchpoints := if_pos hfirst
    rw [addAllTo, List.foldl_cons, hadded]
    exact ih hrest

end Watchpoint

/-! ## Whole files -/

namespace Snapshot

/-- A file is merged by adding its breakpoints and its watchpoints. -/
theorem addFlatFile_eq (snapshot : Snapshot) (file : FlatFile) :
    snapshot.addFlatFile file = { snapshot with
      projects := Project.addAllTo snapshot.projects file.breakpoints
      watchpoints := Watchpoint.addAllTo snapshot.watchpoints file.watchpoints } := by
  have hbreakpoints : ∀ (list : List Breakpoint) (snapshot : Snapshot),
      list.foldl addBreakpoint snapshot =
        { snapshot with projects := Project.addAllTo snapshot.projects list } := fun list => by
    induction list with
    | nil => exact fun _ => rfl
    | cons breakpoint rest ih => exact fun snapshot => ih (snapshot.addBreakpoint breakpoint)
  have hwatchpoints : ∀ (list : List Watchpoint) (snapshot : Snapshot),
      list.foldl addWatchpoint snapshot =
        { snapshot with watchpoints := Watchpoint.addAllTo snapshot.watchpoints list } :=
    fun list => by
      induction list with
      | nil => exact fun _ => rfl
      | cons watchpoint rest ih =>
        intro snapshot
        have hadd : snapshot.addWatchpoint watchpoint =
            { snapshot with watchpoints := watchpoint.addTo snapshot.watchpoints } := by
          rw [addWatchpoint, Watchpoint.addTo]
          split <;> rfl
        rw [List.foldl_cons, ih, hadd]
        rfl
  rw [addFlatFile, hbreakpoints, hwatchpoints]

/-- To merge a file once more changes nothing. -/
theorem addFlatFile_addFlatFile (snapshot : Snapshot) (file : FlatFile) :
    (snapshot.addFlatFile file).addFlatFile file = snapshot.addFlatFile file := by
  have hthere := (Watchpoint.addAllTo_spec snapshot.watchpoints file.watchpoints).2
  rw [addFlatFile_eq, addFlatFile_eq]
  dsimp only
  rw [Project.addAllTo_addAllTo, Watchpoint.addAllTo_of_any hthere]

end Snapshot

namespace Keeper

/-- To read the same flat records once more leaves the snapshot as it is, with the same errors. For
each breakpoint that is read, the first project of its path has exactly the last one that is read on
that line, behind the breakpoints on lines that are not read. The watchpoints that were there stay
where they are. -/
theorem merges_addRecords {bytes : Bytes} {file : FlatFile}
    (h : FlatFile.ofBytes? bytes = some file) (keeper : Keeper) :
    (keeper.addRecords bytes).1 = .ok file.errors ∧
      (keeper.addRecords bytes).2.addRecords bytes = keeper.addRecords bytes ∧
      (∀ breakpoint ∈ file.breakpoints, ∃ project,
        (keeper.addRecords bytes).2.current.projects.find? (·.isOf breakpoint.file) =
            some project ∧
          Project.Merges (Project.own breakpoint.file file.breakpoints)
            ((keeper.current.projects.find? (·.isOf breakpoint.file)).elim [] Project.breakpoints)
            project.breakpoints) ∧
      ∃ more, more.Sublist file.watchpoints ∧
        (keeper.addRecords bytes).2.current.watchpoints = keeper.current.watchpoints ++ more := by
  have hadd : ∀ keeper : Keeper, keeper.addRecords bytes =
      (.ok file.errors, { keeper with current := keeper.current.addFlatFile file }) :=
    fun keeper => by rw [addRecords, h]; rfl
  rw [hadd, hadd, Snapshot.addFlatFile_addFlatFile]
  refine ⟨rfl, rfl, fun breakpoint hmem => ?_, ?_⟩
  · rw [Snapshot.addFlatFile_eq]
    exact Project.merges_addAllTo _ hmem
  · rw [Snapshot.addFlatFile_eq]
    exact (Watchpoint.addAllTo_spec _ _).1

/-- A keeper of two breakpoints and a watchpoint. -/
def keptPoints : Keeper where
  file := none
  current :=
    { projects := [⟨"src//a.py", [⟨"src//a.py", 5, none, false, true, 0⟩,
        ⟨"src//a.py", 3, none, false, true, 0⟩]⟩]
      watchpoints := [{ condition := "x", ignoreCount := 7 }] }

/-- Flat records with two breakpoints on one line, a watchpoint that is kept, and a line that cannot
be read. -/
def twiceOnOneLine : String :=
  "src/a.py:::5:::None:::False:::True:::0\n\nx:::False:::False:::True:::2\n" ++
    "broken\r\nsrc/./a.py:::5:::y:::False:::True:::0"

/-- The last breakpoint of the line is behind the one that is kept, and the watchpoint that was
there stays. -/
theorem merges_addRecords_twiceOnOneLine :
    (keptPoints.addRecords (Text.Utf8.encode twiceOnOneLine)).1 =
        .ok [.malformedRecord "broken" (.noKind 1)] ∧
      (keptPoints.addRecords (Text.Utf8.encode twiceOnOneLine)).2.current =
        { projects := [⟨"src//a.py", [⟨"src//a.py", 3, none, false, true, 0⟩,
            ⟨"src/./a.py", 5, some "y", false, true, 0⟩]⟩]
          watchpoints := [{ condition := "x", ignoreCount := 7 }] } ∧
      (keptPoints.addRecords (Text.Utf8.encode twiceOnOneLine)).2.addRecords
          (Text.Utf8.encode twiceOnOneLine) =
        keptPoints.addRecords (Text.Utf8.encode twiceOnOneLine) := by
  have hread : FlatFile.ofBytes? (Text.Utf8.encode twiceOnOneLine) =
      some ⟨[⟨"src/a.py", 5, none, false, true, 0⟩, ⟨"src/./a.py", 5, some "y", false, true, 0⟩],
        [{ condition := "x", ignoreCount := 2 }],
        [.malformedRecord "broken" (.noKind 1)]⟩ := by decide +kernel
  obtain ⟨herrors, hagain, -, -⟩ := merges_addRecords hread keptPoints
  refine ⟨herrors, ?_, hagain⟩
  rw [addRecords, hread]
  decide +kernel

end Keeper

end DebugLink
