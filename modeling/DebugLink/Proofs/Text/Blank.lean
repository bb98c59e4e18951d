import DebugLink.Text.Blank
import Mathlib.Data.List.Basic

/-!
# What trimming leaves

Trimming takes the blanks off both ends of a text, and nothing else: every text is what trimming
leaves, with blanks around it. A text that neither begins nor ends with a blank is found again,
whatever blanks are put around it.
-/

namespace DebugLink.Text.Blank

/-! ## One end -/

/-- A text is blank if its characters are. -/
theorem isAllBlank_iff {cs : List Char} :
    isAllBlank cs = true ↔ ∀ c ∈ cs, isBlank c = true := List.all_eq_true

/-- Two texts are blank together if both are. -/
theorem isAllBlank_append {cs ds : List Char} :
    isAllBlank (cs ++ ds) = true ↔ isAllBlank cs = true ∧ isAllBlank ds = true := by
  rw [isAllBlank, List.all_append, Bool.and_eq_true, isAllBlank, isAllBlank]

/-- A text that does not begin with a blank keeps its beginning. -/
theorem trimStart_eq_self_iff {cs : List Char} :
    trimStart cs = cs ↔ ∀ c, cs.head? = some c → isBlank c = false := by
  cases cs with
  | nil => simp [trimStart]
  | cons c cs =>
    rw [trimStart, List.head?_cons]
    by_cases hc : isBlank c = true
    · rw [List.dropWhile_cons_of_pos hc]
      constructor
      · intro h
        have hlength := congrArg List.length h
        have hle := (List.dropWhile_sublist isBlank (l := cs)).length_le
        rw [List.length_cons] at hlength
        omega
      · intro h
        rw [h c rfl] at hc
        cases hc
    · rw [List.dropWhile_cons_of_neg hc]
      simpa using hc

/-- The end is trimmed as the beginning of the reversed text is. -/
theorem trimEnd_eq (cs : List Char) : trimEnd cs = (trimStart cs.reverse).reverse := rfl

/-- A text that does not end with a blank keeps its end. -/
theorem trimEnd_eq_self_iff {cs : List Char} :
    trimEnd cs = cs ↔ ∀ c, cs.getLast? = some c → isBlank c = false := by
  rw [trimEnd_eq, List.reverse_eq_iff, trimStart_eq_self_iff, List.head?_reverse]

/-- Blanks in front of a text are trimmed. -/
theorem trimStart_append {before : List Char} (h : isAllBlank before = true) (cs : List Char) :
    trimStart (before ++ cs) = trimStart cs := List.dropWhile_append_of_pos (isAllBlank_iff.mp h)

/-- A blank text is trimmed away. -/
theorem trimStart_of_isAllBlank {cs : List Char} (h : isAllBlank cs = true) :
    trimStart cs = [] := by
  rw [← List.append_nil cs, trimStart_append h]
  rfl

/-- Blanks behind a text are trimmed. -/
theorem trimEnd_append {after : List Char} (cs : List Char) (h : isAllBlank after = true) :
    trimEnd (cs ++ after) = trimEnd cs := by
  have hreverse : isAllBlank after.reverse = true := List.all_reverse.trans h
  rw [trimEnd_eq, trimEnd_eq, List.reverse_append, trimStart_append hreverse]

/-- Only blanks are trimmed at the beginning. -/
theorem exists_append_trimStart (cs : List Char) :
    ∃ before, isAllBlank before = true ∧ cs = before ++ trimStart cs :=
  ⟨cs.takeWhile isBlank, List.all_takeWhile, List.takeWhile_append_dropWhile.symm⟩

/-- Only blanks are trimmed at the end. -/
theorem exists_trimEnd_append (cs : List Char) :
    ∃ after, isAllBlank after = true ∧ cs = trimEnd cs ++ after := by
  obtain ⟨before, hbefore, hcs⟩ := exists_append_trimStart cs.reverse
  refine ⟨before.reverse, List.all_reverse.trans hbefore, ?_⟩
  rw [trimEnd_eq, ← List.reverse_append, ← hcs, List.reverse_reverse]

/-! ## Both ends -/

/-- Every text is what trimming leaves, with blanks around it. -/
theorem exists_append_trim (cs : List Char) :
    ∃ before after, isAllBlank before = true ∧ isAllBlank after = true ∧
      cs = before ++ trim cs ++ after := by
  obtain ⟨before, hbefore, hstart⟩ := exists_append_trimStart cs
  obtain ⟨after, hafter, hend⟩ := exists_trimEnd_append (trimStart cs)
  refine ⟨before, after, hbefore, hafter, ?_⟩
  rw [trim, List.append_assoc, ← hend, ← hstart]

/-- Nothing is left of a blank text, and of no other one. -/
theorem trim_eq_nil_iff {cs : List Char} : trim cs = [] ↔ isAllBlank cs = true := by
  constructor
  · intro h
    obtain ⟨before, after, hbefore, hafter, hcs⟩ := exists_append_trim cs
    rw [h, List.append_nil] at hcs
    rw [hcs]
    exact isAllBlank_append.mpr ⟨hbefore, hafter⟩
  · intro h
    rw [trim, trimStart_of_isAllBlank h]
    rfl

/-- Blanks around a text are trimmed. -/
theorem trim_append {before after : List Char} (hbefore : isAllBlank before = true)
    (cs : List Char) (hafter : isAllBlank after = true) :
    trim (before ++ cs ++ after) = trim cs := by
  rw [List.append_assoc, trim, trimStart_append hbefore, trimStart, List.dropWhile_append]
  -- If the text is blank itself, the blanks behind it are trimmed at the beginning.
  split
  · next hempty =>
    have hcs : trimStart cs = [] := List.isEmpty_iff.mp hempty
    rw [← trimStart, trimStart_of_isAllBlank hafter, trim, hcs]
  · exact trimEnd_append _ hafter

/-- A text has nothing to trim if it neither begins nor ends with a blank. -/
theorem trim_eq_self_iff {cs : List Char} :
    trim cs = cs ↔ (∀ c, cs.head? = some c → isBlank c = false) ∧
      ∀ c, cs.getLast? = some c → isBlank c = false := by
  rw [← trimStart_eq_self_iff, ← trimEnd_eq_self_iff]
  constructor
  · intro h
    obtain ⟨after, -, hend⟩ := exists_trimEnd_append (trimStart cs)
    have hsuffix : trimStart cs <:+ cs := List.dropWhile_suffix isBlank
    have hlength := congrArg List.length hend
    rw [← trim, h, List.length_append] at hlength
    have hle := hsuffix.length_le
    have hstart : trimStart cs = cs := hsuffix.eq_of_length (by omega)
    exact ⟨hstart, by rwa [trim, hstart] at h⟩
  · rintro ⟨hstart, hend⟩
    rw [trim, hstart, hend]

/-- A text has nothing to trim if it does not begin with a blank, and has nothing to trim at its
end. -/
theorem trim_append_of_trim {front back : List Char} (hfront : front ≠ [])
    (hbegins : ∀ c, front.head? = some c → isBlank c = false) (hback : back ≠ [])
    (h : trim back = back) : trim (front ++ back) = front ++ back := by
  refine trim_eq_self_iff.mpr ⟨fun c hc => ?_, fun c hc => ?_⟩
  · rw [List.head?_append_of_ne_nil _ hfront] at hc
    exact hbegins c hc
  · rw [List.getLast?_append_of_ne_nil _ hback] at hc
    exact (trim_eq_self_iff.mp h).2 c hc

/-- A trimmed text has nothing to trim. -/
theorem trim_trim (cs : List Char) : trim (trim cs) = trim cs := by
  obtain ⟨before, after, hbefore, hafter, hcs⟩ := exists_append_trim cs
  have htrim := trim_append hbefore (trim cs) hafter
  rw [← hcs] at htrim
  exact htrim.symm

/-- If a text begins with a blank, a blank stands in front of what trimming leaves. -/
theorem exists_ne_nil_append_trim {cs : List Char} (hne : trim cs ≠ [])
    (h : ∀ c, cs.head? = some c → isBlank c = true) :
    ∃ before after, before ≠ [] ∧ isAllBlank before = true ∧ isAllBlank after = true ∧
      cs = before ++ trim cs ++ after := by
  obtain ⟨before, after, hbefore, hafter, hcs⟩ := exists_append_trim cs
  refine ⟨before, after, ?_, hbefore, hafter, hcs⟩
  rintro rfl
  rw [List.nil_append] at hcs
  obtain ⟨c, hc⟩ := Option.isSome_iff_exists.mp (List.isSome_head?.mpr hne)
  have hbegins : isBlank c = false := (trim_eq_self_iff.mp (trim_trim cs)).1 c hc
  have hblank : isBlank c = true := h c (by rwa [hcs, List.head?_append_of_ne_nil _ hne])
  exact Bool.false_ne_true (hbegins.symm.trans hblank)

/-- A text without blanks has nothing to trim. -/
theorem trim_of_forall {cs : List Char} (h : ∀ c ∈ cs, isBlank c = false) : trim cs = cs :=
  trim_eq_self_iff.mpr
    ⟨fun c hc => h c (List.mem_of_head? hc), fun c hc => h c (List.mem_of_getLast? hc)⟩

/-- No other character is trimmed. -/
theorem mem_trim {cs : List Char} {c : Char} (h : c ∈ cs) (hc : isBlank c = false) :
    c ∈ trim cs := by
  have hblank : ∀ {blanks : List Char}, isAllBlank blanks = true → c ∉ blanks := by
    intro blanks hall hm
    rw [isAllBlank_iff.mp hall c hm] at hc
    cases hc
  obtain ⟨before, after, hbefore, hafter, hcs⟩ := exists_append_trim cs
  rw [hcs] at h
  rcases List.mem_append.mp h with h | h
  · exact (List.mem_append.mp h).resolve_left (hblank hbefore)
  · exact absurd h (hblank hafter)

end DebugLink.Text.Blank
