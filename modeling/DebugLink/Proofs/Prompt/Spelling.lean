import DebugLink.Prompt.Command
import DebugLink.Proofs.Path.Display
import DebugLink.Proofs.Text.Numeral
import DebugLink.Proofs.Text.Split

/-!
# Breakpoints as they are typed

A breakpoint is typed as a file and a line with a colon between them, and a condition comes behind
another colon. The first two colons decide: the file has none, and the condition may have as many
as it likes. A text is read as the breakpoint that it spells, and no other text is read. What is
written for a breakpoint spells it if the file is a text with no colon and no blank at its
beginning, and if the condition is not empty and has nothing to trim.
-/

namespace DebugLink.Prompt

open Text

namespace BreakpointSpec

/-- A text spells a breakpoint. -/
inductive Spells : List Char → BreakpointSpec → Prop
  /-- There is a file and a line. -/
  | place {file numeral : List Char} {line : UInt32} (hfile : file ≠ []) (hcolon : ':' ∉ file)
      (hline : Numeral.Denotes (Blank.trim numeral) line.toNat) :
      Spells (file ++ ':' :: numeral) { file := .ofText (String.ofList file), line }
  /-- There is a condition as well, unless it is blank. -/
  | conditional {file numeral : List Char} {line : UInt32} (text : List Char) (hfile : file ≠ [])
      (hcolon : ':' ∉ file) (hline : Numeral.Denotes (Blank.trim numeral) line.toNat) :
      Spells (file ++ ':' :: (numeral ++ ':' :: text)) {
        file := .ofText (String.ofList file)
        line
        condition :=
          if Blank.isAllBlank text = true then none else some (String.ofList (Blank.trim text)) }

/-- A breakpoint can be spelled. -/
structure IsTypable (spec : BreakpointSpec) : Prop where
  /-- The file is a text. -/
  file_isText : spec.file.isText
  /-- There is a file. -/
  file_ne_nil : spec.file.display.toList ≠ []
  /-- The file has no colon. -/
  colon_notMem_file : ':' ∉ spec.file.display.toList
  /-- The file does not begin with a blank. -/
  file_begins : ∀ c, spec.file.display.toList.head? = some c → Blank.isBlank c = false
  /-- The condition is not empty, and there is nothing to trim from it. -/
  condition_trimmed : ∀ condition, spec.condition = some condition →
    condition.toList ≠ [] ∧ Blank.trim condition.toList = condition.toList

/-- Write a breakpoint. -/
def text (spec : BreakpointSpec) : List Char :=
  spec.file.display.toList ++ ':' :: (Numeral.render spec.line.toNat ++
    match spec.condition with
    | none => []
    | some condition => ':' :: condition.toList)

/-! ## Reading -/

/-- A text that spells a breakpoint is not empty. -/
theorem Spells.ne_nil {text : List Char} {spec : BreakpointSpec} (h : Spells text spec) :
    text ≠ [] := by
  cases h <;> exact List.append_ne_nil_of_right_ne_nil _ (List.cons_ne_nil _ _)

/-- There is no colon in what is a numeral when it is trimmed. -/
theorem colon_notMem_of_denotes {numeral : List Char} {n : Nat}
    (h : Numeral.Denotes (Blank.trim numeral) n) : ':' ∉ numeral := fun hcolon =>
  absurd (h.of_mem (Blank.mem_trim hcolon (by decide))) (by decide)

/-- A condition is trimmed, and a blank one is none. -/
theorem condition?_eq (text : List Char) :
    condition? text =
      if Blank.isAllBlank text = true then none else some (String.ofList (Blank.trim text)) := by
  rw [condition?]
  simp only [List.isEmpty_iff, Blank.trim_eq_nil_iff]

/-- A text with two fields at least gives a breakpoint if the first one is not empty and the second
one is a line. -/
theorem ofText_eq_ok_iff_of_fields {text file numeral : List Char} {others : List (List Char)}
    {spec : BreakpointSpec} (h : Split.fieldsFirst [':'] 2 text = file :: numeral :: others) :
    ofText text = .ok spec ↔ file ≠ [] ∧ ∃ line : UInt32,
      Numeral.Denotes (Blank.trim numeral) line.toNat ∧
        spec = {
          file := .ofText (String.ofList file)
          line
          condition := others.head?.bind condition? } := by
  rw [ofText, h]
  dsimp only
  split
  · next hempty => exact iff_of_false nofun fun hs => hs.1 (List.isEmpty_iff.mp hempty)
  · next hne =>
    rw [and_iff_right fun hnil => hne (List.isEmpty_iff.mpr hnil)]
    cases hread : Numeral.readUInt32 (Blank.trim numeral) with
    | error fault =>
      refine iff_of_false nofun ?_
      rintro ⟨line, hline, -⟩
      rw [Numeral.readUInt32_eq_ok_iff.mpr hline] at hread
      cases hread
    | ok line =>
      constructor
      · rintro ⟨⟩
        exact ⟨line, Numeral.readUInt32_eq_ok_iff.mp hread, rfl⟩
      · rintro ⟨other, hother, rfl⟩
        rw [Numeral.readUInt32_eq_ok_iff.mpr hother] at hread
        cases hread
        rfl

/-- A text gives a breakpoint if and only if it spells it. -/
theorem ofText_eq_ok_iff {text : List Char} {spec : BreakpointSpec} :
    ofText text = .ok spec ↔ Spells text spec := by
  constructor
  · intro h
    cases hcut : Split.atFirst [':'] text with
    | none =>
      rw [ofText, Split.fieldsFirst, hcut] at h
      cases h
    | some parts =>
      obtain ⟨file, rest⟩ := parts
      obtain ⟨hcolon, rfl⟩ := Split.atFirst_singleton_eq_some_iff.mp hcut
      have hfields := Split.fieldsFirst_append_cons hcolon 1 rest
      cases hmore : Split.atFirst [':'] rest with
      | none =>
        have hrest := Split.atFirst_singleton_eq_none_iff.mp hmore
        rw [Split.fieldsFirst_of_notMem hrest] at hfields
        obtain ⟨hfile, line, hline, rfl⟩ := (ofText_eq_ok_iff_of_fields hfields).mp h
        exact .place hfile hcolon hline
      | some parts =>
        obtain ⟨numeral, condition⟩ := parts
        obtain ⟨hnumeral, rfl⟩ := Split.atFirst_singleton_eq_some_iff.mp hmore
        rw [Split.fieldsFirst_append_cons hnumeral, Split.fieldsFirst] at hfields
        obtain ⟨hfile, line, hline, rfl⟩ := (ofText_eq_ok_iff_of_fields hfields).mp h
        rw [List.head?_cons, Option.bind_some, condition?_eq]
        exact .conditional condition hfile hcolon hline
  · intro h
    cases h with
    | @place file numeral line hfile hcolon hline =>
      have hfields := Split.fieldsFirst_append_cons hcolon 1 numeral
      rw [Split.fieldsFirst_of_notMem (colon_notMem_of_denotes hline)] at hfields
      exact (ofText_eq_ok_iff_of_fields hfields).mpr ⟨hfile, line, hline, rfl⟩
    | @conditional file numeral line condition hfile hcolon hline =>
      have hfields := Split.fieldsFirst_append_cons hcolon 1 (numeral ++ ':' :: condition)
      rw [Split.fieldsFirst_append_cons (colon_notMem_of_denotes hline), Split.fieldsFirst]
        at hfields
      refine (ofText_eq_ok_iff_of_fields hfields).mpr ⟨hfile, line, hline, ?_⟩
      rw [List.head?_cons, Option.bind_some, condition?_eq]

/-! ## Writing -/

/-- A breakpoint without a condition is written as its place. -/
theorem text_place (file : SourcePath) (line : UInt32) :
    text { file, line } = file.display.toList ++ ':' :: Numeral.render line.toNat := by
  rw [text, List.append_nil]

/-- A condition is written behind the place. -/
theorem text_conditional (file : SourcePath) (line : UInt32) (condition : String) :
    text { file, line, condition := some condition } =
      file.display.toList ++ ':' :: (Numeral.render line.toNat ++ ':' :: condition.toList) := rfl

/-- A condition that can be spelled is not blank. -/
theorem IsTypable.isAllBlank_eq_false {spec : BreakpointSpec} (h : spec.IsTypable)
    {condition : String} (hc : spec.condition = some condition) :
    Blank.isAllBlank condition.toList = false := by
  obtain ⟨hne, htrim⟩ := h.condition_trimmed condition hc
  rw [← Bool.not_eq_true, ← Blank.trim_eq_nil_iff, htrim]
  exact hne

/-- A breakpoint that can be spelled is spelled by what is written for it. -/
theorem IsTypable.spells_text {spec : BreakpointSpec} (h : spec.IsTypable) :
    Spells spec.text spec := by
  obtain ⟨file, line, condition⟩ := spec
  have hline : Numeral.Denotes (Blank.trim (Numeral.render line.toNat)) line.toNat := by
    rw [Numeral.trim_render]
    exact .inl (Numeral.areDigits_render line.toNat)
  cases condition with
  | none =>
    have hplace := Spells.place h.file_ne_nil h.colon_notMem_file hline
    rw [String.ofList_toList, SourcePath.ofText_display h.file_isText] at hplace
    rw [text_place]
    exact hplace
  | some condition =>
    have hplace :=
      Spells.conditional condition.toList h.file_ne_nil h.colon_notMem_file hline
    rw [h.isAllBlank_eq_false rfl, if_neg Bool.false_ne_true, (h.condition_trimmed condition rfl).2,
      String.ofList_toList, String.ofList_toList, SourcePath.ofText_display h.file_isText] at hplace
    rw [text_conditional]
    exact hplace

/-- Nothing has to be trimmed from what is written for it. -/
theorem IsTypable.trim_text {spec : BreakpointSpec} (h : spec.IsTypable) :
    Blank.trim spec.text = spec.text := by
  have hfront : ∀ more, spec.file.display.toList ++ more ≠ [] := fun more hnil =>
    h.file_ne_nil (List.append_eq_nil_iff.mp hnil).1
  have hbegins : ∀ more c, (spec.file.display.toList ++ more).head? = some c →
      Blank.isBlank c = false := by
    intro more c hc
    rw [List.head?_append_of_ne_nil _ h.file_ne_nil] at hc
    exact h.file_begins c hc
  obtain ⟨file, line, condition⟩ := spec
  cases condition with
  | none =>
    rw [text_place, List.append_cons]
    exact Blank.trim_append_of_trim (hfront _) (hbegins _) (Numeral.render_ne_nil _)
      (Numeral.trim_render _)
  | some condition =>
    obtain ⟨hne, htrim⟩ := h.condition_trimmed condition rfl
    rw [text_conditional, ← List.cons_append, ← List.append_assoc, List.append_cons,
      List.append_assoc file.display.toList]
    exact Blank.trim_append_of_trim (hfront _) (hbegins _) hne htrim

/-- Where nothing has to be trimmed from a text, the breakpoint that it spells can be spelled. -/
theorem Spells.isTypable {text : List Char} {spec : BreakpointSpec} (h : Spells text spec)
    (htrim : Blank.trim text = text) : spec.IsTypable := by
  have hbegins := (Blank.trim_eq_self_iff.mp htrim).1
  have hshown : ∀ file : List Char,
      (SourcePath.ofText (String.ofList file)).display.toList = file := fun file => by
    rw [SourcePath.display_ofText, String.toList_ofList]
  cases h with
  | @place file numeral line hfile hcolon hline =>
    rw [List.head?_append_of_ne_nil _ hfile, ← hshown file] at hbegins
    rw [← hshown file] at hfile hcolon
    exact ⟨SourcePath.isText_ofText _, hfile, hcolon, hbegins, nofun⟩
  | @conditional file numeral line condition hfile hcolon hline =>
    rw [List.head?_append_of_ne_nil _ hfile, ← hshown file] at hbegins
    rw [← hshown file] at hfile hcolon
    refine ⟨SourcePath.isText_ofText _, hfile, hcolon, hbegins, fun given hgiven => ?_⟩
    dsimp only at hgiven
    split at hgiven
    · cases hgiven
    · next hblank =>
      cases hgiven
      rw [String.toList_ofList, Blank.trim_trim]
      exact ⟨fun hnil => hblank (Blank.trim_eq_nil_iff.mp hnil), rfl⟩

/-- The breakpoint is enabled and not temporary, and stops at once. -/
theorem IsTypable.toBreakpoint_eq {spec : BreakpointSpec} (h : spec.IsTypable) :
    spec.toBreakpoint = {
      file := spec.file
      line := spec.line
      condition := spec.condition
      temporary := false
      enabled := true
      ignoreCount := 0 } := by
  obtain ⟨file, line, condition⟩ := spec
  cases condition with
  | none => rfl
  | some condition =>
    rw [toBreakpoint]
    dsimp only
    rw [Breakpoint.withCondition, h.isAllBlank_eq_false rfl, if_neg Bool.false_ne_true]

end BreakpointSpec

end DebugLink.Prompt
