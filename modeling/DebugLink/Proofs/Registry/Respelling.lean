import DebugLink.Proofs.Registry.Record

/-!
# Records that are written again

A record can spell a point in several ways: a truth value may be a digit, numbers may be padded, and
a count or a condition may be left out. What is read from a record can be written again. A field in
front of another one was cut at the first separator, so it holds none, and it does not end with a
colon that could be taken for a part of the separator behind it. So the record that is written is
read as the same point, and is written in the same way again.
-/

namespace DebugLink

open Text

namespace Record

/-- A record has line breaks at its end only. -/
def IsOneLine (record : String) : Prop :=
  ∃ text ending, record.toList = text ++ ending ∧ (∀ c ∈ text, isLineBreak c = false) ∧
    ∀ c ∈ ending, isLineBreak c = true

/-- What is left without the line breaks at its end has none. -/
theorem IsOneLine.isLineBreak_eq_false {record : String} (h : IsOneLine record) :
    ∀ c ∈ dropLineBreaks record.toList, isLineBreak c = false := by
  obtain ⟨text, ending, hrecord, htext, hending⟩ := h
  have hdrop : (text ++ ending).reverse.dropWhile isLineBreak =
      text.reverse.dropWhile isLineBreak := by
    rw [List.reverse_append, List.dropWhile_append_of_pos (by simpa using hending)]
  intro c hc
  rw [hrecord, dropLineBreaks, hdrop, List.mem_reverse] at hc
  exact htext c (List.mem_reverse.mp ((List.dropWhile_suffix isLineBreak).subset hc))

/-- A field that is cut off in front of another one holds no separator, and does not end with a
colon. -/
theorem of_fields_eq_append {cs field next : List Char} {front back : List (List Char)}
    (h : Split.fields separator cs = front ++ field :: next :: back) :
    ¬ separator <:+: field ∧ EndsPlain field ∧ field <:+: cs := by
  induction front generalizing cs with
  | nil =>
    obtain ⟨behind, hfirst, -⟩ := Split.exists_cut_of_fields (by decide) h
    obtain ⟨hwhole, hplain⟩ := isFirst_separator_iff.mp (hfirst.whole ▸ hfirst)
    exact ⟨hwhole, hplain, (prefix_of_fields h).isInfix⟩
  | cons first front ih =>
    obtain ⟨second, others, hothers⟩ :=
      List.exists_cons_of_ne_nil (List.append_ne_nil_of_right_ne_nil front
        (List.cons_ne_nil field (next :: back)))
    rw [List.cons_append, hothers] at h
    obtain ⟨behind, hfirst, hbehind⟩ := Split.exists_cut_of_fields (by decide) h
    rw [← hothers] at hbehind
    obtain ⟨hwhole, hplain, hin⟩ := ih hbehind
    exact ⟨hwhole, hplain, hin.trans ⟨first ++ separator, [], by rw [hfirst.whole]; simp⟩⟩

/-- A field of a record that has another one behind it can be written again. -/
theorem holds_of_fields {record text : String} (front : List (List Char)) {next : List Char}
    {back : List (List Char)} (hline : IsOneLine record)
    (h : fields record = front ++ text.toList :: next :: back) :
    Holds text ∧ EndsPlain text.toList := by
  obtain ⟨hwhole, hplain, hin⟩ := of_fields_eq_append h
  exact ⟨⟨hwhole, fun c hc => hline.isLineBreak_eq_false c (hin.subset hc)⟩, hplain⟩

/-- A text that is read as a value is that value, and does not stand for none. -/
theorem eq_of_readOptional {field : List Char} {text : String}
    (h : readOptional field = some text) : field = text.toList ∧ text ≠ "" ∧ text ≠ "None" := by
  obtain ⟨hnone, -⟩ | ⟨hsome, hempty, hword⟩ := readOptional_toList (String.ofList field)
  · rw [String.toList_ofList, h] at hnone
    cases hnone
  · rw [String.toList_ofList, h, Option.some.injEq] at hsome
    rw [← hsome] at hempty hword
    exact ⟨by rw [hsome, String.toList_ofList], hempty, hword⟩

end Record

open Record

/-- A breakpoint that is read from a record can be written, and is kept. -/
theorem Breakpoint.of_ofRecord {record : String} {breakpoint : Breakpoint}
    (hline : IsOneLine record) (h : ofRecord record = .ok breakpoint) :
    (∃ normal, breakpoint.toRecord = .ok normal) ∧ breakpoint.IsKept := by
  obtain ⟨⟨hisText, hname⟩, line, condition, temporary, enabled, ignoreCount, hfields, -,
    hcondition, -⟩ := ofRecord_eq_ok_iff_fields.mp h
  obtain ⟨hfile, hfilePlain⟩ := holds_of_fields [] hline hfields
  have htext : ∀ text, breakpoint.condition = some text →
      Holds text ∧ EndsPlain text.toList ∧ text ≠ "" ∧ text ≠ "None" := by
    intro text hsome
    obtain ⟨rfl, hread⟩ := eq_of_readOptional (hcondition.trans hsome)
    obtain ⟨hholds, hplain⟩ := holds_of_fields [_, _] hline hfields
    exact ⟨hholds, hplain, hread⟩
  exact ⟨exists_toRecord_iff.mpr ⟨hfile, fun text hsome => (htext text hsome).1⟩, hisText, hname,
    hfilePlain, fun text hsome => (htext text hsome).2⟩

/-- A watchpoint with a condition that is read from a record can be written, and is kept. -/
theorem Watchpoint.of_ofRecord {record : String} {watchpoint : Watchpoint}
    (hline : IsOneLine record) (h : ofRecord record = .ok watchpoint)
    (hvalid : watchpoint.isValid) :
    (∃ normal, watchpoint.toRecord = .ok normal) ∧ watchpoint.IsKept := by
  obtain ⟨condition, special, temporary, enabled, ignoreCount, hfields, hcondition, -⟩ :=
    ofRecord_eq_ok_iff_fields.mp h
  have hsome : readOptional condition = some watchpoint.condition := by
    cases hread : readOptional condition with
    | some text => rw [← hcondition, hread, Option.getD_some]
    | none =>
      rw [hread, Option.getD_none] at hcondition
      rw [isValid, ← hcondition] at hvalid
      cases hvalid
  obtain ⟨rfl, -, hword⟩ := eq_of_readOptional hsome
  obtain ⟨hholds, hplain⟩ := holds_of_fields [] hline hfields
  refine ⟨exists_toRecord_iff.mpr fun _ => hholds, fun _ => ⟨hplain, hword⟩, fun hblank => ?_⟩
  rw [hvalid] at hblank
  cases hblank

/-- What is read from a record, and is not a watchpoint without a condition, can be written to a
record that is read as the same point. So this record is written in the same way again. -/
theorem Record.isSettled_ofRecord {record : String} (hline : IsOneLine record) :
    (∀ breakpoint, Breakpoint.ofRecord record = .ok breakpoint →
      ∃ normal, breakpoint.toRecord = .ok normal ∧ Breakpoint.ofRecord normal = .ok breakpoint) ∧
    ∀ watchpoint, Watchpoint.ofRecord record = .ok watchpoint → watchpoint.isValid →
      ∃ normal, watchpoint.toRecord = .ok normal ∧ Watchpoint.ofRecord normal = .ok watchpoint := by
  constructor
  · intro breakpoint hread
    obtain ⟨⟨normal, hnormal⟩, hkept⟩ := Breakpoint.of_ofRecord hline hread
    exact ⟨normal, hnormal, (Breakpoint.ofRecord_toRecord_iff hnormal).mpr hkept⟩
  · intro watchpoint hread hvalid
    obtain ⟨⟨normal, hnormal⟩, hkept⟩ := Watchpoint.of_ofRecord hline hread hvalid
    exact ⟨normal, hnormal, (Watchpoint.ofRecord_toRecord_iff hnormal).mpr hkept⟩

/-- Records with padded numbers, digits for truth values, colons at the borders of their fields and
line breaks at their ends are read, and written again. -/
theorem Record.isSettled_ofRecord_padded :
    IsOneLine ":a.py::: 007 ::::b:::1:::0 :::None\r\n" ∧
    Breakpoint.ofRecord ":a.py::: 007 ::::b:::1:::0 :::None\r\n" =
      .ok ⟨":a.py", 7, some ":b", true, false, 0⟩ ∧
    (∃ normal, Breakpoint.toRecord ⟨":a.py", 7, some ":b", true, false, 0⟩ = .ok normal ∧
      Breakpoint.ofRecord normal = .ok ⟨":a.py", 7, some ":b", true, false, 0⟩) ∧
    IsOneLine "xs[::2]:::0:::False::: 1:::+03\n" ∧
    Watchpoint.ofRecord "xs[::2]:::0:::False::: 1:::+03\n" =
      .ok ⟨"xs[::2]", false, false, true, 3⟩ ∧
    ∃ normal, Watchpoint.toRecord ⟨"xs[::2]", false, false, true, 3⟩ = .ok normal ∧
      Watchpoint.ofRecord normal = .ok ⟨"xs[::2]", false, false, true, 3⟩ := by
  have hfirst : IsOneLine ":a.py::: 007 ::::b:::1:::0 :::None\r\n" :=
    ⟨":a.py::: 007 ::::b:::1:::0 :::None".toList, ['\r', '\n'], by decide,
      by simp [isLineBreak], by simp [isLineBreak]⟩
  have hsecond : IsOneLine "xs[::2]:::0:::False::: 1:::+03\n" :=
    ⟨"xs[::2]:::0:::False::: 1:::+03".toList, ['\n'], by decide, by simp [isLineBreak],
      by simp [isLineBreak]⟩
  have hbreakpoint : Breakpoint.ofRecord ":a.py::: 007 ::::b:::1:::0 :::None\r\n" =
      .ok ⟨":a.py", 7, some ":b", true, false, 0⟩ := by decide +kernel
  have hwatchpoint : Watchpoint.ofRecord "xs[::2]:::0:::False::: 1:::+03\n" =
      .ok ⟨"xs[::2]", false, false, true, 3⟩ := by decide
  exact ⟨hfirst, hbreakpoint, (Record.isSettled_ofRecord hfirst).1 _ hbreakpoint, hsecond,
    hwatchpoint, (Record.isSettled_ofRecord hsecond).2 _ hwatchpoint (by decide)⟩

end DebugLink
