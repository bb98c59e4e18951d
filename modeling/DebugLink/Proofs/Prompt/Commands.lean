import DebugLink.Proofs.Prompt.Spelling

/-!
# Commands about breakpoints

A line is cut into a word and an argument, and the blanks around them and between them do not
count, whichever they are. Behind the words that set and clear breakpoints the argument is a
breakpoint as it is typed: each one that can be spelled is read, and nothing else is accepted.
-/

namespace DebugLink.Prompt

open Text

/-! ## Lines -/

/-- The blanks of a line with an argument. -/
structure Spacing where
  /-- The blanks in front of the word. -/
  before : List Char
  /-- The blanks behind the word, in front of the argument. -/
  between : List Char
  /-- The blanks behind the argument. -/
  after : List Char
  /-- There are blanks only in front of the word. -/
  before_blank : Blank.isAllBlank before = true
  /-- There are blanks only between the word and the argument. -/
  between_blank : Blank.isAllBlank between = true
  /-- There are blanks only behind the argument. -/
  after_blank : Blank.isAllBlank after = true
  /-- There is a blank at least between the word and the argument. -/
  between_ne_nil : between ≠ []

/-- The line with these blanks, a word and an argument. -/
def Spacing.layOut (spacing : Spacing) (word argument : List Char) : List Char :=
  spacing.before ++ (word ++ spacing.between ++ argument) ++ spacing.after

/-- A line is cut into a word and an argument. -/
inductive IsCut : (line word argument : List Char) → Prop
  /-- There is no argument, and perhaps no word either. -/
  | alone {before word after : List Char} (hbefore : Blank.isAllBlank before = true)
      (hword : ∀ c ∈ word, Blank.isBlank c = false) (hafter : Blank.isAllBlank after = true) :
      IsCut (before ++ word ++ after) word []
  /-- There is an argument behind the word. -/
  | argument (spacing : Spacing) {word argument : List Char} (hne : word ≠ [])
      (hword : ∀ c ∈ word, Blank.isBlank c = false) (hargument : argument ≠ [])
      (htrim : Blank.trim argument = argument) :
      IsCut (spacing.layOut word argument) word argument

/-- The word ends where the first blank of the trimmed line stands. -/
theorem cut_of_trim {line word rest : List Char} (h : Blank.trim line = word ++ rest)
    (hword : ∀ c ∈ word, Blank.isBlank c = false)
    (hrest : ∀ c, rest.head? = some c → Blank.isBlank c = true) :
    Command.cut line = (word, Blank.trim rest) := by
  have hinside : ∀ c ∈ word, (!Blank.isBlank c) = true := fun c hc => by rw [hword c hc]; rfl
  rw [Command.cut, h, List.takeWhile_append_of_pos hinside,
    List.dropWhile_append_of_pos hinside]
  cases rest with
  | nil => rw [List.takeWhile_nil, List.dropWhile_nil, List.append_nil]
  | cons c rest =>
    have hc : Blank.isBlank c = true := hrest c rfl
    simp [hc]

/-- A trimmed line with an argument begins with its word. -/
theorem Spacing.trim_layOut (spacing : Spacing) {word argument : List Char} (hne : word ≠ [])
    (hword : ∀ c ∈ word, Blank.isBlank c = false) (hargument : argument ≠ [])
    (htrim : Blank.trim argument = argument) :
    Blank.trim (spacing.layOut word argument) = word ++ (spacing.between ++ argument) := by
  have hfront : word ++ spacing.between ≠ [] := fun hnil => hne (List.append_eq_nil_iff.mp hnil).1
  have hbegins : ∀ c, (word ++ spacing.between).head? = some c → Blank.isBlank c = false := by
    intro c hc
    rw [List.head?_append_of_ne_nil _ hne] at hc
    exact hword c (List.mem_of_head? hc)
  rw [layOut, Blank.trim_append spacing.before_blank _ spacing.after_blank,
    Blank.trim_append_of_trim hfront hbegins hargument htrim, List.append_assoc]

/-- A line is cut as it is laid out. -/
theorem IsCut.cut_eq {line word argument : List Char} (h : IsCut line word argument) :
    Command.cut line = (word, argument) := by
  cases h with
  | @alone before word after hbefore hword hafter =>
    have htrim : Blank.trim (before ++ word ++ after) = word ++ [] := by
      rw [Blank.trim_append hbefore word hafter, Blank.trim_of_forall hword, List.append_nil]
    exact cut_of_trim htrim hword nofun
  | argument spacing hne hword hargument htrim =>
    have hrest : ∀ c, (spacing.between ++ argument).head? = some c → Blank.isBlank c = true := by
      intro c hc
      rw [List.head?_append_of_ne_nil _ spacing.between_ne_nil] at hc
      exact Blank.isAllBlank_iff.mp spacing.between_blank c (List.mem_of_head? hc)
    have hbehind : Blank.trim (spacing.between ++ argument ++ []) = Blank.trim argument :=
      Blank.trim_append spacing.between_blank argument rfl
    rw [List.append_nil, htrim] at hbehind
    rw [cut_of_trim (spacing.trim_layOut hne hword hargument htrim) hword hrest, hbehind]

/-- A text begins with the characters in front of its first blank. -/
theorem exists_word (cs : List Char) :
    ∃ word rest, cs = word ++ rest ∧ (∀ c ∈ word, Blank.isBlank c = false) ∧
      ∀ c, rest.head? = some c → Blank.isBlank c = true := by
  refine ⟨cs.takeWhile fun c => !Blank.isBlank c, cs.dropWhile fun c => !Blank.isBlank c,
    List.takeWhile_append_dropWhile.symm, fun c hc => ?_, fun c hc => ?_⟩
  · simpa using List.all_eq_true.mp List.all_takeWhile c hc
  · have hnot := List.head?_dropWhile_not (fun c => !Blank.isBlank c) cs
    rw [hc] at hnot
    simpa using hnot

/-- Every line is laid out as it is cut. -/
theorem isCut_cut (line : List Char) :
    IsCut line (Command.cut line).1 (Command.cut line).2 := by
  obtain ⟨before, after, hbefore, hafter, hline⟩ := Blank.exists_append_trim line
  obtain ⟨word, rest, htrim, hword, hrest⟩ := exists_word (Blank.trim line)
  have hbegins : ∀ c, (word ++ rest).head? = some c → Blank.isBlank c = false := by
    rw [← htrim]
    exact (Blank.trim_eq_self_iff.mp (Blank.trim_trim line)).1
  rw [htrim] at hline
  rw [cut_of_trim htrim hword hrest]
  dsimp only
  by_cases hnil : Blank.trim rest = []
  · rw [hnil, hline, List.append_assoc, List.append_assoc, ← List.append_assoc before]
    exact .alone hbefore hword (Blank.isAllBlank_append.mpr ⟨Blank.trim_eq_nil_iff.mp hnil, hafter⟩)
  · obtain ⟨between, behind, hne, hbetween, hbehind, hargument⟩ :=
      Blank.exists_ne_nil_append_trim hnil hrest
    -- The rest begins with a blank, but the trimmed line does not.
    have hwordNe : word ≠ [] := by
      rintro rfl
      have hrestNe : rest ≠ [] := fun hrest => hnil (by rw [hrest, Blank.trim_nil])
      obtain ⟨c, hc⟩ := Option.isSome_iff_exists.mp (List.isSome_head?.mpr hrestNe)
      exact Bool.false_ne_true ((hbegins c hc).symm.trans (hrest c hc))
    let spacing : Spacing := ⟨before, between, behind ++ after, hbefore, hbetween,
      Blank.isAllBlank_append.mpr ⟨hbehind, hafter⟩, hne⟩
    have hlayout : line = spacing.layOut word (Blank.trim rest) := by
      rw [hargument] at hline
      rw [hline, Spacing.layOut]
      simp only [spacing, List.append_assoc]
    rw [hlayout]
    exact .argument spacing hwordNe hword hnil (Blank.trim_trim rest)

/-- A line with an argument is laid out with it. -/
theorem IsCut.exists_spacing {line word argument : List Char} (h : IsCut line word argument)
    (hne : argument ≠ []) : ∃ spacing : Spacing,
      line = spacing.layOut word argument ∧ Blank.trim argument = argument := by
  cases h with
  | alone => exact absurd rfl hne
  | argument spacing _ _ _ htrim => exact ⟨spacing, rfl, htrim⟩

/-- A line has the word that it is cut into, whatever its argument is. -/
def HasWord (line word : String) : Prop := ∃ argument, IsCut line.toList word.toList argument

/-- A line is read by its word and its argument. -/
theorem ofLine_of_isCut {line word : String} {argument : List Char}
    (h : IsCut line.toList word.toList argument) :
    Command.ofLine line = Command.ofParts word argument := by
  rw [Command.ofLine, h.cut_eq]
  dsimp only
  rw [String.ofList_toList]

/-! ## Words -/

/-- The word of a command. -/
def Command.word : Command → String
  | .empty => ""
  | .resume => "c"
  | .step => "s"
  | .stepOver => "n"
  | .stepOut => "o"
  | .quit => "q"
  | .stack => "stack"
  | .threads => "threads"
  | .variableList _ => "vars"
  | .eval _ => "eval"
  | .exec _ => "exec"
  | .setBreak _ => "break"
  | .clear .. => "clear"
  | .ignore _ => "ignore"
  | .exit => "exit"

/-- A command that is made of what was read has the word of those that are made so. -/
theorem Command.word_of_map {α : Type} {result : Except CommandError α} {make : α → Command}
    {command : Command} {word : String} (hw : ∀ a, (make a).word = word)
    (h : result.map make = .ok command) : command.word = word := by
  cases result with
  | error error => cases h
  | ok a =>
    cases h
    exact hw a

/-- A command is given by its word only. -/
theorem Command.word_of_ofParts {word : String} {argument : List Char} {command : Command}
    (h : ofParts word argument = .ok command) : command.word = word := by
  unfold ofParts at h
  split at h
  -- Six commands are made of what is read from the argument.
  case h_9 | h_10 | h_11 | h_12 | h_13 | h_14 => exact word_of_map (fun _ => rfl) h
  all_goals cases h
  all_goals rfl

/-- A line that is read as a command has its word. -/
theorem hasWord_of_ofLine {line : String} {command : Command}
    (h : Command.ofLine line = .ok command) : HasWord line command.word := by
  have hword := Command.word_of_ofParts h
  refine ⟨(Command.cut line.toList).2, ?_⟩
  rw [hword, String.toList_ofList]
  exact isCut_cut line.toList

/-- The two commands that are about a breakpoint. -/
inductive PointCommand where
  /-- Add the breakpoint. -/
  | set
  /-- Remove the breakpoint. -/
  | clear

namespace PointCommand

/-- The word of such a command. -/
def word : PointCommand → String
  | set => "break"
  | clear => "clear"

/-- The command about a breakpoint. -/
def command : PointCommand → BreakpointSpec → Command
  | set, spec => .setBreak spec
  | clear, spec => .clear spec.file spec.line

/-- The command has the word, whatever the breakpoint is. -/
theorem word_command (kind : PointCommand) (spec : BreakpointSpec) :
    (kind.command spec).word = kind.word := by
  cases kind <;> rfl

/-- The word is not empty. -/
theorem word_ne_nil (kind : PointCommand) : kind.word.toList ≠ [] := by
  cases kind <;> decide

/-- The word has no blank. -/
theorem isBlank_of_mem_word (kind : PointCommand) :
    ∀ c ∈ kind.word.toList, Blank.isBlank c = false := by
  have hall : kind.word.toList.all (fun c => !Blank.isBlank c) = true := by
    cases kind <;> decide
  simpa using List.all_eq_true.mp hall

/-- Behind the word the argument has to spell a breakpoint. -/
theorem ofParts_eq_ok_iff (kind : PointCommand) {argument : List Char} {command : Command} :
    Command.ofParts kind.word argument = .ok command ↔
      ∃ spec, BreakpointSpec.Spells argument spec ∧ command = kind.command spec := by
  have hparts : Command.ofParts kind.word argument =
      (Command.readSpec argument).map kind.command := by
    cases kind <;> rfl
  rw [hparts, Command.readSpec]
  simp only [← BreakpointSpec.ofText_eq_ok_iff]
  cases BreakpointSpec.ofText argument with
  | error error => exact iff_of_false nofun fun ⟨_, hspec, _⟩ => nomatch hspec
  | ok spec =>
    constructor
    · rintro ⟨⟩
      exact ⟨spec, rfl, rfl⟩
    · rintro ⟨_, ⟨⟩, rfl⟩
      rfl

/-- A line is cut as it is laid out with the word. -/
theorem isCut_of_layOut (kind : PointCommand) {line : String} {spacing : Spacing}
    {argument : List Char} (h : line.toList = spacing.layOut kind.word.toList argument)
    (hne : argument ≠ []) (htrim : Blank.trim argument = argument) :
    IsCut line.toList kind.word.toList argument := by
  rw [h]
  exact .argument spacing kind.word_ne_nil kind.isBlank_of_mem_word hne htrim

end PointCommand

/-! ## Commands -/

/-- What is read in the lines with the word of a command about breakpoints. -/
structure ReadsPoints (kind : PointCommand) : Prop where
  /-- A breakpoint that can be spelled is read from what is written for it, whatever blanks stand
  around that. It is enabled and not temporary, and stops at once. -/
  reads : ∀ (line : String) (spacing : Spacing) (spec : BreakpointSpec), spec.IsTypable →
    line.toList = spacing.layOut kind.word.toList spec.text →
      Command.ofLine line = .ok (kind.command spec) ∧
        spec.toBreakpoint = {
          file := spec.file
          line := spec.line
          condition := spec.condition
          temporary := false
          enabled := true
          ignoreCount := 0 }
  /-- A line with the word is accepted if and only if the argument spells a breakpoint, and each
  breakpoint that is read so can be spelled. -/
  accepts_iff : ∀ (line : String) (command : Command),
    HasWord line kind.word ∧ Command.ofLine line = .ok command ↔
      ∃ (spacing : Spacing) (argument : List Char) (spec : BreakpointSpec),
        line.toList = spacing.layOut kind.word.toList argument ∧
          Blank.trim argument = argument ∧ BreakpointSpec.Spells argument spec ∧
            spec.IsTypable ∧ command = kind.command spec
  /-- No line with another word is read as such a command. -/
  hasWord : ∀ (line : String) (spec : BreakpointSpec),
    Command.ofLine line = .ok (kind.command spec) → HasWord line kind.word

/-- The prompt reads each breakpoint that can be spelled, to set it or to clear it, and accepts
nothing else in such a line. -/
theorem readsPoints (kind : PointCommand) : ReadsPoints kind where
  reads line spacing spec h hline := by
    have hcut := kind.isCut_of_layOut hline h.spells_text.ne_nil h.trim_text
    refine ⟨?_, h.toBreakpoint_eq⟩
    rw [ofLine_of_isCut hcut, kind.ofParts_eq_ok_iff]
    exact ⟨spec, h.spells_text, rfl⟩
  accepts_iff line command := by
    constructor
    · rintro ⟨⟨argument, hcut⟩, h⟩
      rw [ofLine_of_isCut hcut, kind.ofParts_eq_ok_iff] at h
      obtain ⟨spec, hspec, hcommand⟩ := h
      obtain ⟨spacing, hline, htrim⟩ := hcut.exists_spacing hspec.ne_nil
      exact ⟨spacing, argument, spec, hline, htrim, hspec, hspec.isTypable htrim, hcommand⟩
    · rintro ⟨spacing, argument, spec, hline, htrim, hspec, -, hcommand⟩
      have hcut := kind.isCut_of_layOut hline hspec.ne_nil htrim
      refine ⟨⟨argument, hcut⟩, ?_⟩
      rw [ofLine_of_isCut hcut, kind.ofParts_eq_ok_iff]
      exact ⟨spec, hspec, hcommand⟩
  hasWord line spec h := by
    have hword := hasWord_of_ofLine h
    rwa [kind.word_command] at hword

/-- A condition with a colon of its own, in a line with several kinds of blanks. -/
theorem readsPoints_slice :
    Command.ofLine "\u3000break\t a b.py:7:x[1:2] \u2003" =
      .ok (.setBreak { file := "a b.py", line := 7, condition := some "x[1:2]" }) := by
  have htypable : BreakpointSpec.IsTypable
      { file := "a b.py", line := 7, condition := some "x[1:2]" } := {
    file_isText := SourcePath.isText_ofText _
    file_ne_nil := by decide +kernel
    colon_notMem_file := by decide +kernel
    file_begins := by rintro _ ⟨⟩; decide
    condition_trimmed := by rintro _ ⟨⟩; decide }
  exact ((readsPoints .set).reads _
    ⟨['\u3000'], ['\t', ' '], [' ', '\u2003'], by decide, by decide, by decide, by decide⟩ _
    htypable (by decide)).1

end DebugLink.Prompt
