import DebugLink.CodeObject

/-!
# Walks of a line table

A walk of a line table keeps a byte offset and a line. It reports its line in front of each entry
that advances the offset, and where it ends. The breakable lines of a unit are the first lines of
all units in it, together with the lines that the walks of their tables report, as far as these are
in range: at each step of the queue, what is still to be found is in the units that wait there. So
it does not matter in which order the units inside a unit are listed.
-/

namespace DebugLink

/-! ## Ascending lines -/

namespace Lines

variable {lines others : List UInt32}

/-- A line that is put in is there, with those that were there. -/
theorem mem_insert (line other : UInt32) (lines : Lines) :
    other ∈ insert line lines ↔ other = line ∨ other ∈ lines := by
  induction lines with
  | nil => rw [insert, List.mem_singleton, List.mem_nil_iff, or_false]
  | cons first rest ih =>
    rw [insert]
    split
    · rw [List.mem_cons]
    · split
      · next heq => rw [List.mem_cons, heq, ← or_assoc, or_self]
      · rw [List.mem_cons, ih, List.mem_cons, or_left_comm]

/-- A line is put into its place. -/
theorem pairwise_insert (line : UInt32) {lines : Lines} (h : lines.Pairwise (· < ·)) :
    (insert line lines).Pairwise (· < ·) := by
  induction lines with
  | nil => exact List.pairwise_singleton _ _
  | cons first rest ih =>
    obtain ⟨hfirst, hrest⟩ := List.pairwise_cons.mp h
    rw [insert]
    split
    · next hlt =>
      refine List.pairwise_cons.mpr ⟨List.forall_mem_cons.mpr ⟨hlt, fun other hother => ?_⟩, h⟩
      exact UInt32.lt_trans hlt (hfirst other hother)
    · next hle =>
      split
      · exact h
      · next hne =>
        have hlt : first < line := by
          rw [UInt32.lt_iff_toNat_lt] at hle ⊢
          rw [← UInt32.toNat_inj] at hne
          omega
        refine List.pairwise_cons.mpr ⟨fun other hother => ?_, ih hrest⟩
        rcases (mem_insert line other rest).mp hother with rfl | hold
        · exact hlt
        · exact hfirst other hold

/-- Lines that are put in are there, with those that were there. -/
theorem mem_insertAll (line : UInt32) (lines : Lines) (new : List UInt32) :
    line ∈ insertAll lines new ↔ line ∈ lines ∨ line ∈ new := by
  rw [insertAll]
  induction new generalizing lines with
  | nil => rw [List.foldl_nil, List.mem_nil_iff, or_false]
  | cons first rest ih =>
    rw [List.foldl_cons, ih, mem_insert, List.mem_cons, or_assoc, or_left_comm]

/-- Lines are put into their places. -/
theorem pairwise_insertAll {lines : Lines} (h : lines.Pairwise (· < ·)) (new : List UInt32) :
    (insertAll lines new).Pairwise (· < ·) := by
  rw [insertAll]
  induction new generalizing lines with
  | nil => exact h
  | cons first rest ih => exact ih (pairwise_insert first h)

/-- Lines in ascending order are the same if the same lines are among them. -/
theorem eq_of_mem_iff (hlines : lines.Pairwise (· < ·)) (hothers : others.Pairwise (· < ·))
    (h : ∀ line, line ∈ lines ↔ line ∈ others) : lines = others := by
  have hperm : lines.Perm others :=
    (List.perm_ext_iff_of_nodup (hlines.imp UInt32.ne_of_lt) (hothers.imp UInt32.ne_of_lt)).mpr h
  refine hperm.eq_of_pairwise (fun a b _ _ hab hba => ?_) hlines hothers
  exact absurd (UInt32.lt_trans hab hba) (UInt32.lt_irrefl a)

end Lines

/-! ## Walks -/

/-- Where a walk of a line table is. -/
structure LineWalk where
  /-- The byte offset. -/
  offset : Nat
  /-- The line, which may be out of range. -/
  line : Int

namespace LineWalk

/-- Go on behind an entry of the table. -/
def advance (walk : LineWalk) (entry : UInt8 × Int8) : LineWalk :=
  ⟨walk.offset + entry.1.toNat, walk.line + entry.2.toInt⟩

/-- The lines that a walk reports: that in front of each entry that advances the offset, and that
where the walk ends. -/
def reports (walk : LineWalk) : List (UInt8 × Int8) → List Int
  | [] => [walk.line]
  | entry :: rest =>
    if walk.offset < (walk.advance entry).offset then
      walk.line :: (walk.advance entry).reports rest
    else (walk.advance entry).reports rest

end LineWalk

namespace CodeObject

variable {code other : CodeObject}

/-- A number is that of a line if it is in range. -/
theorem mem_line?_iff (line : UInt32) (n : Int) : line ∈ line? n ↔ (line.toNat : Int) = n := by
  have hbound := line.toNat_lt
  rw [line?, Option.mem_def]
  split
  · next hrange =>
    rw [Option.some.injEq, ← UInt32.toNat_inj, UInt32.toNat_ofNat']
    omega
  · next hrange =>
    have hne : (line.toNat : Int) ≠ n := by omega
    simp [hne]

/-- An entry owns the line that it reaches if a walk reports its line in front of the next one. -/
theorem ownsBytecode_cons (entry : UInt8 × Int8) (rest : List (UInt8 × Int8)) (walk : LineWalk) :
    ownsBytecode (entry :: rest) = true ↔ walk.offset < (walk.advance entry).offset := by
  have hzero : entry.1 = 0 ↔ entry.1.toNat = 0 := UInt8.toNat_inj.symm
  rw [ownsBytecode, LineWalk.advance, bne_iff_ne, Ne, hzero]
  dsimp only
  omega

/-- From an entry on, the lines that own bytecode are those that a walk reports. The walk also
reports the line that it starts from, if that owns bytecode. -/
theorem mem_reports_iff (line : UInt32) (walk : LineWalk) (table : List (UInt8 × Int8)) :
    (line.toNat : Int) ∈ walk.reports table ↔
      (ownsBytecode table = true ∧ (line.toNat : Int) = walk.line) ∨
        line ∈ tableLines walk.line table := by
  induction table generalizing walk with
  | nil => simp [LineWalk.reports, ownsBytecode, tableLines]
  | cons entry rest ih =>
    -- What the table reaches behind the entry, in the words of the walk.
    have htable : line ∈ tableLines walk.line (entry :: rest) ↔
        (ownsBytecode rest = true ∧ (line.toNat : Int) = (walk.advance entry).line) ∨
          line ∈ tableLines (walk.advance entry).line rest := by
      rw [tableLines]
      dsimp only [LineWalk.advance]
      split
      · next howns =>
        rw [List.mem_append, Option.mem_toList, ← Option.mem_def, mem_line?_iff]
        simp [howns]
      · next howns => simp [howns]
    rw [LineWalk.reports, htable, ← ih]
    split
    · next hadvances =>
      have howns := (ownsBytecode_cons entry rest walk).mpr hadvances
      rw [List.mem_cons]
      simp [howns]
    · next hstays =>
      have howns := mt (ownsBytecode_cons entry rest walk).mp hstays
      simp [howns]

/-! ## Units inside a unit -/

mutual

/-- The breakable lines of a unit, followed by those of each unit inside it. -/
def allLines : CodeObject → List UInt32
  | unit firstLine lineTable children =>
    (unit firstLine lineTable children).ownLines ++ allLinesOf children

/-- The breakable lines of several units. -/
def allLinesOf : List CodeObject → List UInt32
  | [] => []
  | code :: rest => code.allLines ++ allLinesOf rest

end

/-- A unit is in itself and in those that it is defined inside of. -/
inductive Contains : CodeObject → CodeObject → Prop
  /-- The unit itself. -/
  | self (code : CodeObject) : Contains code code
  /-- A unit in one of those that are defined inside. -/
  | inside {firstLine : UInt32} {lineTable : List (UInt8 × Int8)} {children : List CodeObject}
      {child code : CodeObject} (hm : child ∈ children) (h : Contains child code) :
      Contains (unit firstLine lineTable children) code

/-- The same units, where those inside a unit may be listed in another order. -/
inductive Rearranged : CodeObject → CodeObject → Prop
  /-- Everything is where it was. -/
  | refl (code : CodeObject) : Rearranged code code
  /-- The units inside a unit are listed in another order. -/
  | order {firstLine : UInt32} {lineTable : List (UInt8 × Int8)} {children others : List CodeObject}
      (h : children.Perm others) :
      Rearranged (unit firstLine lineTable children) (unit firstLine lineTable others)
  /-- One of the units inside a unit is rearranged. -/
  | inside {firstLine : UInt32} {lineTable : List (UInt8 × Int8)} {front back : List CodeObject}
      {child other : CodeObject} (h : Rearranged child other) :
      Rearranged (unit firstLine lineTable (front ++ child :: back))
        (unit firstLine lineTable (front ++ other :: back))
  /-- One rearrangement after the other. -/
  | trans {code other last : CodeObject} (h : Rearranged code other) (h' : Rearranged other last) :
      Rearranged code last

/-- The lines of several units are those of each. -/
theorem allLinesOf_eq (codes : List CodeObject) : allLinesOf codes = codes.flatMap allLines := by
  induction codes with
  | nil => rw [allLinesOf, List.flatMap_nil]
  | cons code rest ih => rw [allLinesOf, ih, List.flatMap_cons]

/-- A unit has its first line, the lines that a walk of its table reports, and those of the units
that are defined inside. -/
theorem mem_allLines_unit {firstLine line : UInt32} {lineTable : List (UInt8 × Int8)}
    {children : List CodeObject} :
    line ∈ (unit firstLine lineTable children).allLines ↔
      (line = firstLine ∨
        (line.toNat : Int) ∈ LineWalk.reports ⟨0, firstLine.toNat⟩ lineTable) ∨
      ∃ child ∈ children, line ∈ child.allLines := by
  have hstart : (line.toNat : Int) = (firstLine.toNat : Int) ↔ line = firstLine := by
    rw [Int.natCast_inj, UInt32.toNat_inj]
  have hown : line = firstLine ∨ line ∈ tableLines firstLine.toNat lineTable ↔
      line = firstLine ∨
        (line.toNat : Int) ∈ LineWalk.reports ⟨0, firstLine.toNat⟩ lineTable := by
    rw [mem_reports_iff, hstart]
    constructor
    · exact Or.imp_right .inr
    · rintro (hfirst | ⟨-, hfirst⟩ | htable)
      · exact .inl hfirst
      · exact .inl hfirst
      · exact .inr htable
  rw [allLines, ownLines, CodeObject.firstLine, CodeObject.lineTable, List.mem_append,
    List.mem_cons, allLinesOf_eq, List.mem_flatMap, hown]

/-- What holds of a unit if it does of those that are defined inside holds of all units. -/
@[elab_as_elim]
theorem forall_of_children {motive : CodeObject → Prop}
    (unit : ∀ firstLine lineTable children, (∀ child ∈ children, motive child) →
      motive (unit firstLine lineTable children)) (code : CodeObject) : motive code :=
  @CodeObject.rec motive (fun children => ∀ child ∈ children, motive child)
    unit nofun (fun _ _ hchild hrest => List.forall_mem_cons.mpr ⟨hchild, hrest⟩) code

/-- The lines of a unit are those of all units in it. -/
theorem mem_allLines_iff {line : UInt32} :
    line ∈ code.allLines ↔ ∃ part, code.Contains part ∧ (line = part.firstLine ∨
      (line.toNat : Int) ∈ LineWalk.reports ⟨0, part.firstLine.toNat⟩ part.lineTable) := by
  constructor
  · induction code using forall_of_children with
    | unit firstLine lineTable children ih =>
      intro hline
      rcases mem_allLines_unit.mp hline with hown | ⟨child, hchild, hinside⟩
      · exact ⟨_, .self _, hown⟩
      · obtain ⟨part, hpart, hreports⟩ := ih child hchild hinside
        exact ⟨part, .inside hchild hpart, hreports⟩
  · rintro ⟨part, hpart, hreports⟩
    induction hpart with
    | self code =>
      cases code with
      | unit firstLine lineTable children => exact mem_allLines_unit.mpr (.inl hreports)
    | inside hchild _ ih => exact mem_allLines_unit.mpr (.inr ⟨_, hchild, ih hreports⟩)

/-- A rearranged unit has the same lines. -/
theorem Rearranged.mem_allLines_iff (h : code.Rearranged other) (line : UInt32) :
    line ∈ code.allLines ↔ line ∈ other.allLines := by
  induction h with
  | refl => rfl
  | order hperm =>
    rw [mem_allLines_unit, mem_allLines_unit]
    refine or_congr_right (exists_congr fun child => and_congr_left fun _ => ?_)
    exact hperm.mem_iff
  | inside _ ih =>
    rw [mem_allLines_unit, mem_allLines_unit]
    refine or_congr_right ?_
    simp [or_and_right, exists_or, ih]
  | trans _ _ ih ih' => exact ih.trans ih'

/-! ## The queue -/

/-- What is found is what was found before and the lines of the units in the queue, with all units
inside them: a unit that leaves the queue hands on the units inside it. -/
theorem mem_collect_iff (line : UInt32) (lines : Lines) (queue : List CodeObject) :
    line ∈ collect lines queue ↔ line ∈ lines ∨ line ∈ allLinesOf queue := by
  fun_induction collect lines queue with
  | case1 lines => rw [allLinesOf, List.mem_nil_iff, or_false]
  | case2 lines firstLine lineTable children queue ih =>
    have hqueue : line ∈ allLinesOf (queue ++ inOrder children) ↔
        line ∈ allLinesOf children ∨ line ∈ allLinesOf queue := by
      simp only [allLinesOf_eq, inOrder, List.mem_flatMap, List.mem_append, List.mem_mergeSort,
        or_and_right, exists_or]
      exact or_comm
    rw [ih, Lines.mem_insertAll, hqueue, allLinesOf, allLines, List.mem_append, List.mem_append,
      or_assoc, or_assoc]

/-- What is found is in ascending order if what was found before is. -/
theorem pairwise_collect {lines : Lines} (h : lines.Pairwise (· < ·)) (queue : List CodeObject) :
    (collect lines queue).Pairwise (· < ·) := by
  fun_induction collect lines queue with
  | case1 => exact h
  | case2 lines firstLine lineTable children queue ih => exact ih (Lines.pairwise_insertAll h _)

/-- The queue finds the lines of a unit and of all units inside it. -/
theorem mem_breakableLines_iff {line : UInt32} :
    line ∈ code.breakableLines ↔ line ∈ code.allLines := by
  rw [breakableLines, mem_collect_iff, allLinesOf, allLinesOf, List.append_nil, List.mem_nil_iff,
    false_or]

/-- The breakable lines of a unit are, in ascending order, the first lines of all units in it and
the lines in range that the walks of their tables report. They do not depend on the order in which
the units inside a unit are listed. -/
theorem breakableLines_eq_walks (code : CodeObject) :
    code.breakableLines.Pairwise (· < ·) ∧
      (∀ line, line ∈ code.breakableLines ↔ ∃ part, code.Contains part ∧ (line = part.firstLine ∨
        (line.toNat : Int) ∈ LineWalk.reports ⟨0, part.firstLine.toNat⟩ part.lineTable)) ∧
      ∀ other, code.Rearranged other → other.breakableLines = code.breakableLines := by
  have hascending : ∀ code : CodeObject, code.breakableLines.Pairwise (· < ·) := fun code =>
    pairwise_collect .nil [code]
  refine ⟨hascending code, fun line => ?_, fun other h => ?_⟩
  · rw [mem_breakableLines_iff, mem_allLines_iff]
  · refine Lines.eq_of_mem_iff (hascending other) (hascending code) fun line => ?_
    rw [mem_breakableLines_iff, mem_breakableLines_iff, h.mem_allLines_iff]

/-- A unit whose walk leaves the range of lines and comes back, with two units inside. The second
entry does not advance the offset. -/
def leavesRange : CodeObject :=
  .unit 1 [(0, -3), (0, 4), (2, 5)] [.unit 9 [(2, 1), (2, -128)] [], .unit 4 [] [.unit 3 [] []]]

/-- The same unit with the units inside in the other order. -/
def leavesRangeSwapped : CodeObject :=
  .unit 1 [(0, -3), (0, 4), (2, 5)] [.unit 4 [] [.unit 3 [] []], .unit 9 [(2, 1), (2, -128)] []]

/-- Lines out of range, and those that own no bytecode, are left out, in either order. -/
theorem breakableLines_eq_walks_leavesRange :
    leavesRange.breakableLines = [1, 2, 3, 4, 7, 9, 10] ∧
      leavesRangeSwapped.breakableLines = [1, 2, 3, 4, 7, 9, 10] := by
  have hsorted : inOrder [.unit 9 [(2, 1), (2, -128)] [], .unit 4 [] [.unit 3 [] []]] =
      [.unit 4 [] [.unit 3 [] []], .unit 9 [(2, 1), (2, -128)] []] := by
    simp [inOrder, List.mergeSort, List.MergeSort.Internal.splitInTwo, firstLine]
  have hlines : leavesRange.breakableLines = [1, 2, 3, 4, 7, 9, 10] := by
    simp only [breakableLines, leavesRange, collect, List.nil_append, hsorted]
    simp only [inOrder, List.cons_append, List.nil_append, List.append_nil,
      List.mergeSort_singleton, List.mergeSort_nil, collect]
    decide
  have hswapped : leavesRange.Rearranged leavesRangeSwapped := .order (.swap _ _ [])
  refine ⟨hlines, ?_⟩
  rw [(breakableLines_eq_walks leavesRange).2.2 _ hswapped, hlines]

end CodeObject

end DebugLink
