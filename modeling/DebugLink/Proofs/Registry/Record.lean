import DebugLink.Breakpoint
import DebugLink.Watchpoint
import DebugLink.Proofs.Path.Display
import DebugLink.Proofs.Text.Numeral
import DebugLink.Proofs.Text.Split

/-!
# Which points survive a flat record

Nothing escapes a separator in a field, so a field that holds one is refused. A field that ends with
a colon is not: its last colons are taken for the first ones of the separator behind it, and the
record cannot be read. A condition that is the word for a condition that there is not is read as
none, and a file that is no text is written as it is shown. All other points that are not refused
are read back.
-/

namespace DebugLink

open Text

namespace Record

/-! ## Fields -/

/-- A text can stand in a record if it holds no separator and no line break. -/
structure Holds (text : String) : Prop where
  /-- The text would not be cut into two fields. -/
  whole : ¬ separator <:+: text.toList
  /-- The text is on one line. -/
  line : ∀ c ∈ text.toList, isLineBreak c = false

/-- The fields that are refused are those that cannot stand in a record. -/
theorem isUnwritable_eq_false_iff {text : String} :
    isUnwritable text.toList = false ↔ Holds text := by
  rw [isUnwritable, Bool.or_eq_false_iff, Option.isSome_eq_false_iff, Option.isNone_iff_eq_none,
    Split.atFirst_eq_none_iff, List.any_eq_false]
  simp only [Bool.not_eq_true]
  exact ⟨fun h => ⟨h.1, h.2⟩, fun h => ⟨h.1, h.2⟩⟩

instance : DecidablePred Holds := fun _ => decidable_of_iff _ isUnwritable_eq_false_iff

/-- No digit ends a line. -/
theorem isLineBreak_of_mem_render {n : Nat} {c : Char} (h : c ∈ Numeral.render n) :
    isLineBreak c = false := by
  rw [isLineBreak, Bool.or_eq_false_iff, beq_eq_false_iff_ne, beq_eq_false_iff_ne]
  constructor <;> rintro rfl <;> exact Numeral.notMem_render (by decide) n h

/-- A number can stand in a record. -/
theorem holds_ofUInt32 (n : UInt32) : Holds (Numeral.ofUInt32 n) := by
  rw [Numeral.ofUInt32]
  constructor <;> rw [String.toList_ofList]
  · exact fun h => Numeral.notMem_render (by decide) _ (h.subset List.mem_cons_self)
  · exact fun c => isLineBreak_of_mem_render

/-- A word for a truth value can stand in a record. -/
theorem holds_ofBool (value : Bool) : Holds (ofBool value) := by
  cases value <;> decide

/-- A value that there may not be can stand in a record if its text can. -/
theorem holds_ofOptional_iff {value : Option String} :
    Holds (ofOptional value) ↔ ∀ text, value = some text → Holds text := by
  cases value with
  | none => exact iff_of_true (by decide) nofun
  | some text => simp [ofOptional]

/-- There is a record if each field can stand in it. It joins them. -/
theorem join_eq_ok_iff {fields : List String} {record : String} :
    join fields = .ok record ↔
      (∀ field ∈ fields, Holds field) ∧
        record = String.ofList (Split.join separator (fields.map String.toList)) := by
  simp only [← isUnwritable_eq_false_iff]
  rw [join]
  split
  · next field hfind =>
    refine iff_of_false nofun fun h => ?_
    have hunwritable := List.find?_some hfind
    rw [h.1 field (List.mem_of_find?_eq_some hfind)] at hunwritable
    cases hunwritable
  · next hfind =>
    rw [Except.ok.injEq, eq_comm, and_iff_right]
    simpa using hfind

/-- The text of a record. -/
theorem toList_of_join {fields : List String} {record : String} (h : join fields = .ok record) :
    record.toList = Split.join separator (fields.map String.toList) := by
  rw [(join_eq_ok_iff.mp h).2, String.toList_ofList]

/-- A record that ends with a number has no line breaks at its end. -/
theorem dropLineBreaks_render (front : List Char) (n : Nat) :
    dropLineBreaks (front ++ Numeral.render n) = front ++ Numeral.render n := by
  obtain ⟨digits, last, hlast⟩ := (List.eq_nil_or_concat (Numeral.render n)).resolve_left
    (Numeral.render_ne_nil n)
  have hbreak : isLineBreak last = false := isLineBreak_of_mem_render (n := n) (by simp [hlast])
  rw [hlast]
  simp [dropLineBreaks, hbreak]

/-- The fields of a record that ends with a number are those of its text. -/
theorem fields_of_join {front : List String} {n : UInt32} {record : String}
    (h : join (front ++ [Numeral.ofUInt32 n]) = .ok record) :
    fields record = Split.fields separator record.toList := by
  have htext := toList_of_join h
  rw [List.map_append, List.map_singleton, Numeral.ofUInt32, String.toList_ofList] at htext
  obtain ⟨others, hothers⟩ := Split.suffix_join separator (Numeral.render n.toNat)
    (front.map String.toList)
  rw [fields, htext, ← hothers, dropLineBreaks_render]

/-- The first field stands at the beginning of the text. -/
theorem prefix_of_fields {cs front : List Char} {others : List (List Char)}
    (h : Split.fields separator cs = front :: others) : front <+: cs := by
  cases hcut : Split.atFirst separator cs with
  | none =>
    rw [Split.fields_of_not_infix (Split.atFirst_eq_none_iff.mp hcut)] at h
    rw [(List.cons.inj h).1]
  | some parts =>
    obtain ⟨first, back⟩ := parts
    rw [Split.fields_of_cut (by decide) hcut] at h
    obtain rfl := (List.cons.inj h).1
    exact ⟨separator ++ back, by
      rw [(Split.atFirst_eq_some_iff.mp hcut).whole, List.append_assoc]⟩

/-- A field does not end with a colon, which would be taken for one of a separator. -/
def EndsPlain (field : List Char) : Prop := field.getLast? ≠ some ':'

instance (field : List Char) : Decidable (EndsPlain field) :=
  inferInstanceAs (Decidable (field.getLast? ≠ some ':'))

/-- A text is cut behind a field that can be written if that does not end with a colon. -/
theorem isFirst_separator_iff {field behind : List Char} :
    Split.IsFirst separator (field ++ separator ++ behind) field behind ↔
      ¬ separator <:+: field ∧ EndsPlain field := @Split.isFirst_replicate_iff ':' 2 field behind

/-- A field that can be written and does not end with a colon is cut off. -/
theorem fields_of_endsPlain {field : List Char} (h : ¬ separator <:+: field)
    (hlast : EndsPlain field) (behind : List Char) :
    Split.fields separator (field ++ separator ++ behind) =
      field :: Split.fields separator behind :=
  Split.fields_of_cut (by decide)
    (Split.atFirst_eq_some_iff.mpr (isFirst_separator_iff.mpr ⟨h, hlast⟩))

/-- A field without colons is cut off. -/
theorem fields_of_notMem {field : List Char} (h : ':' ∉ field) (behind : List Char) :
    Split.fields separator (field ++ separator ++ behind) =
      field :: Split.fields separator behind :=
  Split.fields_of_cut (by decide) (Split.atFirst_of_notMem h)

/-- If a field can be written, and the next one that is read has no colon, then the field has been
read as it was written, and it does not end with a colon. -/
theorem eq_of_fields {field behind front next : List Char} {others : List (List Char)}
    (hfield : ¬ separator <:+: field)
    (h : Split.fields separator (field ++ separator ++ behind) = front :: next :: others)
    (hne : next ≠ []) (hcolon : ':' ∉ next) :
    front = field ∧ EndsPlain field ∧ Split.fields separator behind = next :: others := by
  obtain ⟨back, hfirst, hback⟩ := Split.exists_cut_of_fields (by decide) h
  rcases @Split.IsFirst.of_not_infix ':' 2 field behind front back hfield hfirst with
    ⟨rfl, rfl⟩ | ⟨more, rfl⟩
  · exact ⟨rfl, (isFirst_separator_iff.mp hfirst).2, hback⟩
  -- Otherwise a colon of the separator is left, and the next field begins with it.
  · obtain ⟨c, next, rfl⟩ := List.exists_cons_of_ne_nil hne
    obtain ⟨rest, hrest⟩ := prefix_of_fields hback
    rw [(List.cons.inj hrest).1] at hcolon
    exact absurd List.mem_cons_self hcolon

/-! ## Values -/

/-- A line is read back. -/
theorem readLine_render (n : UInt32) : readLine (Numeral.render n.toNat) = .ok n := by
  rw [readLine, Numeral.trim_render, Numeral.readUInt32_render]

/-- A count is read back. -/
theorem readCount_render (n : UInt32) : readCount (Numeral.render n.toNat) = .ok n := by
  have hword : String.ofList (Numeral.render n.toNat) ≠ "None" := fun h => by
    have hdigit : 'N' ∈ Numeral.render n.toNat := by
      rw [← String.toList_ofList (l := Numeral.render n.toNat), h]
      decide
    exact absurd (Numeral.toNat_of_mem_render hdigit).2 (by decide)
  rw [readCount, Numeral.trim_render, if_neg hword, Numeral.readUInt32_render]

/-- A truth value is read back. -/
theorem readBool_ofBool (value : Bool) : readBool (ofBool value).toList = .ok value := by
  cases value <;> decide

/-- A text that is read as a line has no colon. -/
theorem of_readLine {field : List Char} {n : UInt32} (h : readLine field = .ok n) :
    field ≠ [] ∧ ':' ∉ field := by
  rw [readLine] at h
  split at h
  · next hread =>
    refine ⟨?_, fun hcolon => ?_⟩
    · rintro rfl
      cases hread
    · have hdenotes := Numeral.readUInt32_eq_ok_iff.mp hread
      exact absurd (hdenotes.of_mem (Blank.mem_trim hcolon (by decide))) (by decide)
  · cases h

/-- A text that is read as a truth value has no colon. -/
theorem of_readBool {field : List Char} {value : Bool} (h : readBool field = .ok value) :
    field ≠ [] ∧ ':' ∉ field := by
  refine ⟨?_, fun hcolon => ?_⟩
  · rintro rfl
    cases value <;> cases h
  · have htrim : ':' ∈ (String.ofList (Blank.trim field)).toList := by
      rw [String.toList_ofList]
      exact Blank.mem_trim hcolon (by decide)
    rw [readBool] at h
    split at h
    · next hword => rcases hword with heq | heq <;> rw [heq] at htrim <;> simp at htrim
    · split at h
      · next hword => rcases hword with heq | heq <;> rw [heq] at htrim <;> simp at htrim
      · cases h

/-- No truth value is written with a colon. -/
theorem notMem_ofBool (value : Bool) : ':' ∉ (ofBool value).toList := by
  cases value <;> decide

/-- A text that is read as a value is read as it stands. -/
theorem readOptional_toList (text : String) :
    readOptional text.toList = none ∧ (text = "" ∨ text = "None") ∨
      readOptional text.toList = some text ∧ text ≠ "" ∧ text ≠ "None" := by
  rw [readOptional, String.ofList_toList]
  by_cases hnone : text = "" ∨ text = "None"
  · exact .inl ⟨if_pos hnone, hnone⟩
  · exact .inr ⟨if_neg hnone, not_or.mp hnone⟩

/-- A text is read as it stands, or as the empty one if it stands for none. -/
theorem getD_readOptional {text : String} (h : text ≠ "None") :
    (readOptional text.toList).getD "" = text := by
  obtain ⟨hread, hnone⟩ | ⟨hread, -⟩ := readOptional_toList text
  · rw [hread, hnone.resolve_right h, Option.getD_none]
  · rw [hread, Option.getD_some]

/-- What is read of a record is read field by field. -/
theorem bind_eq_ok {α β : Type} {field : Except Fault α} {next : α → Except Fault β} {b : β}
    (h : (field >>= next) = .ok b) : ∃ a, field = .ok a ∧ next a = .ok b := by
  cases field with
  | error fault => cases h
  | ok a => exact ⟨a, rfl, h⟩

/-- The last fields of a record are read as they were written. -/
theorem fields_behind (temporary enabled : Bool) (count : Nat) :
    Split.fields separator ((ofBool temporary).toList ++ separator ++
        ((ofBool enabled).toList ++ separator ++ Numeral.render count)) =
      [(ofBool temporary).toList, (ofBool enabled).toList, Numeral.render count] := by
  have hcount : ¬ separator <:+: Numeral.render count := fun h =>
    Numeral.notMem_render (by decide) count (h.subset List.mem_cons_self)
  rw [fields_of_notMem (notMem_ofBool temporary), fields_of_notMem (notMem_ofBool enabled),
    Split.fields_of_not_infix hcount]

end Record

/-! ## Breakpoints -/

namespace Breakpoint

open Record

/-- The breakpoint in the file that is shown. -/
def shown (breakpoint : Breakpoint) : Breakpoint :=
  { breakpoint with file := .ofText breakpoint.wireFile }

/-- The file that is shown is the file if that is a text. -/
theorem shown_eq_iff {breakpoint : Breakpoint} :
    breakpoint.shown = breakpoint ↔ breakpoint.file.isText = true := by
  rw [← SourcePath.ofText_display_eq_iff]
  exact ⟨congrArg file, fun h => by rw [shown, wireFile, h]⟩

/-- What is read of a record is what its fields are read as. -/
theorem ofRecord_eq_ok_iff_fields {record : String} {read : Breakpoint} :
    ofRecord record = .ok read ↔
      (read.file.isText ∧ read.wireFile ≠ "") ∧ ∃ line condition temporary enabled ignoreCount,
        fields record =
          [read.wireFile.toList, line, condition, temporary, enabled, ignoreCount] ∧
        readLine line = .ok read.line ∧ readOptional condition = read.condition ∧
        readBool temporary = .ok read.temporary ∧ readBool enabled = .ok read.enabled ∧
        readCount ignoreCount = .ok read.ignoreCount := by
  constructor
  · intro h
    rw [ofRecord] at h
    split at h
    · next file line condition temporary enabled ignoreCount hfields =>
      split at h
      · cases h
      · next hname =>
        obtain ⟨_, hline, h⟩ := bind_eq_ok h
        obtain ⟨_, htemporary, h⟩ := bind_eq_ok h
        obtain ⟨_, henabled, h⟩ := bind_eq_ok h
        obtain ⟨_, hcount, h⟩ := bind_eq_ok h
        obtain rfl := Except.ok.inj h
        have hshown : (SourcePath.ofText (String.ofList file)).display = String.ofList file :=
          SourcePath.display_ofText _
        have hfile : (String.ofList file).toList = file := String.toList_ofList
        have hne : String.ofList file ≠ "" := fun hempty => hname (by rw [← hfile, hempty]; rfl)
        rw [wireFile, hshown]
        exact ⟨⟨SourcePath.isText_ofText _, hne⟩, line, condition, temporary, enabled, ignoreCount,
          by rw [hfields, hfile], hline, rfl, htemporary, henabled, hcount⟩
    · cases h
  · rintro ⟨⟨hisText, hname⟩, line, condition, temporary, enabled, ignoreCount, hfields, hline,
      hcondition, htemporary, henabled, hcount⟩
    rw [ofRecord, hfields]
    simp only [hline, hcondition, htemporary, henabled, hcount]
    rw [if_neg (by simpa using hname), String.ofList_toList, wireFile,
      SourcePath.ofText_display hisText]
    rfl

/-- The condition of a breakpoint as it stands in a record. -/
def recordCondition (breakpoint : Breakpoint) : String := ofOptional breakpoint.condition

/-- The record of a breakpoint can be read if no field ends with a colon. It gives the breakpoint in
the file that is shown, with the condition that its text stands for. -/
theorem ofRecord_eq_ok_iff {breakpoint read : Breakpoint} {record : String}
    (h : breakpoint.toRecord = .ok record) :
    ofRecord record = .ok read ↔
      breakpoint.wireFile ≠ "" ∧ EndsPlain breakpoint.wireFile.toList ∧
        EndsPlain breakpoint.recordCondition.toList ∧
          read = { breakpoint.shown with
            condition := readOptional breakpoint.recordCondition.toList } := by
  have hwritable := (join_eq_ok_iff.mp h).1
  have htext := toList_of_join h
  simp only [List.map_cons, List.map_nil, Split.join, List.intercalate_cons_cons,
    List.intercalate_singleton, Numeral.ofUInt32, String.toList_ofList] at htext
  rw [← recordCondition] at htext
  have hfile : ¬ separator <:+: breakpoint.wireFile.toList :=
    (hwritable _ (by simp)).whole
  have hcondition : ¬ separator <:+: breakpoint.recordCondition.toList :=
    (hwritable _ (by simp [recordCondition])).whole
  have hline : ':' ∉ Numeral.render breakpoint.line.toNat := Numeral.notMem_render (by decide) _
  rw [ofRecord_eq_ok_iff_fields, @fields_of_join [_, _, _, _, _] _ _ h, htext]
  constructor
  · rintro ⟨⟨hisText, hname⟩, line, condition, temporary, enabled, ignoreCount, hread, hreadLine,
      hreadCondition, hreadTemporary, hreadEnabled, hreadCount⟩
    -- What is read behind the file and behind the condition has no colon, so both are whole.
    obtain ⟨hsame, hplain, hbehind⟩ :=
      eq_of_fields hfile hread (of_readLine hreadLine).1 (of_readLine hreadLine).2
    rw [fields_of_notMem hline, List.cons.injEq] at hbehind
    obtain ⟨hsame', hplain', hlast⟩ := eq_of_fields hcondition hbehind.2
      (of_readBool hreadTemporary).1 (of_readBool hreadTemporary).2
    rw [fields_behind] at hlast
    simp only [List.cons.injEq, and_true] at hlast
    rw [← hbehind.1, readLine_render, Except.ok.injEq] at hreadLine
    rw [hsame'] at hreadCondition
    rw [← hlast.1, readBool_ofBool, Except.ok.injEq] at hreadTemporary
    rw [← hlast.2.1, readBool_ofBool, Except.ok.injEq] at hreadEnabled
    rw [← hlast.2.2, readCount_render, Except.ok.injEq] at hreadCount
    rw [String.toList_inj] at hsame
    refine ⟨hsame ▸ hname, hplain, hplain', ?_⟩
    rw [shown, ← hsame, hreadLine, hreadCondition, hreadTemporary, hreadEnabled, hreadCount,
      wireFile, SourcePath.ofText_display hisText]
  · rintro ⟨hname, hplain, hplain', rfl⟩
    have hshown : breakpoint.shown.wireFile = breakpoint.wireFile := SourcePath.display_ofText _
    rw [wireFile] at hshown
    rw [wireFile, hshown, fields_of_endsPlain hfile hplain, fields_of_notMem hline,
      fields_of_endsPlain hcondition hplain', fields_behind]
    dsimp only
    refine ⟨⟨SourcePath.isText_ofText _, hname⟩, _, _, _, _, _, rfl, ?_, rfl, ?_, ?_, ?_⟩
    · exact readLine_render breakpoint.line
    · exact readBool_ofBool breakpoint.temporary
    · exact readBool_ofBool breakpoint.enabled
    · exact readCount_render breakpoint.ignoreCount

/-- A breakpoint has a record if its file and its condition can stand in it. -/
theorem exists_toRecord_iff {breakpoint : Breakpoint} :
    (∃ record, breakpoint.toRecord = .ok record) ↔
      Holds breakpoint.wireFile ∧ ∀ text, breakpoint.condition = some text → Holds text := by
  simp only [toRecord, join_eq_ok_iff, exists_and_left, exists_eq, and_true, List.forall_mem_cons,
    holds_ofUInt32, holds_ofBool, holds_ofOptional_iff, true_and, List.not_mem_nil]
  simp

/-- A breakpoint is kept by its record if it has a file that is a text, and if neither the file nor
the condition ends with a colon; the condition may not be one that stands for none either. -/
structure IsKept (breakpoint : Breakpoint) : Prop where
  /-- The file is a text. -/
  isText : breakpoint.file.isText
  /-- The breakpoint has a file. -/
  named : breakpoint.wireFile ≠ ""
  /-- The file does not end with a colon. -/
  file : EndsPlain breakpoint.wireFile.toList
  /-- The condition does not end with a colon, and it is read as a condition. -/
  condition : ∀ text, breakpoint.condition = some text →
    EndsPlain text.toList ∧ text ≠ "" ∧ text ≠ "None"

/-- The condition is read back if it is not a text that stands for none. -/
theorem readOptional_recordCondition_iff {breakpoint : Breakpoint} :
    readOptional breakpoint.recordCondition.toList = breakpoint.condition ↔
      ∀ text, breakpoint.condition = some text → text ≠ "" ∧ text ≠ "None" := by
  rw [recordCondition]
  cases breakpoint.condition with
  | none => exact iff_of_true (by decide) nofun
  | some text => simp [ofOptional, readOptional]

/-- The breakpoint is read back from its record if it is kept. -/
theorem ofRecord_toRecord_iff {breakpoint : Breakpoint} {record : String}
    (h : breakpoint.toRecord = .ok record) :
    ofRecord record = .ok breakpoint ↔ breakpoint.IsKept := by
  rw [ofRecord_eq_ok_iff h]
  constructor
  · rintro ⟨hname, hfile, hcondition, hsame⟩
    have hread := readOptional_recordCondition_iff.mp (congrArg condition hsame).symm
    have hisText := SourcePath.ofText_display_eq_iff.mp (congrArg Breakpoint.file hsame).symm
    refine ⟨hisText, hname, hfile, fun text htext => ⟨?_, hread text htext⟩⟩
    rw [recordCondition, htext] at hcondition
    exact hcondition
  · intro hkept
    refine ⟨hkept.named, hkept.file, ?_, ?_⟩
    · rw [recordCondition]
      cases hcondition : breakpoint.condition with
      | none => decide
      | some text => exact (hkept.condition text hcondition).1
    · rw [readOptional_recordCondition_iff.mpr fun text htext => (hkept.condition text htext).2,
        shown_eq_iff.mpr hkept.isText]

/-- A breakpoint that is read from the record of another one is that, in the file that is shown, or
differs from it in having no condition. -/
theorem eq_or_of_ofRecord {breakpoint read : Breakpoint} {record : String}
    (h : breakpoint.toRecord = .ok record) (hread : ofRecord record = .ok read) :
    read = breakpoint.shown ∨ read = { breakpoint.shown with condition := none } := by
  obtain ⟨-, -, -, rfl⟩ := (ofRecord_eq_ok_iff h).mp hread
  rw [recordCondition]
  cases hcondition : breakpoint.condition with
  | none => exact .inr rfl
  | some text =>
    obtain ⟨hnone, -⟩ | ⟨hsame, -⟩ := readOptional_toList text
    · exact .inr (by rw [ofOptional, Option.getD_some, hnone])
    · exact .inl (by rw [ofOptional, Option.getD_some, hsame, ← hcondition]; rfl)

end Breakpoint

/-! ## Watchpoints -/

namespace Watchpoint

open Record

/-- What is read of a record is what its fields are read as. -/
theorem ofRecord_eq_ok_iff_fields {record : String} {read : Watchpoint} :
    ofRecord record = .ok read ↔
      ∃ condition special temporary enabled ignoreCount,
        fields record = [condition, special, temporary, enabled, ignoreCount] ∧
        (readOptional condition).getD "" = read.condition ∧
        readBool special = .ok read.special ∧ readBool temporary = .ok read.temporary ∧
        readBool enabled = .ok read.enabled ∧ readCount ignoreCount = .ok read.ignoreCount := by
  constructor
  · intro h
    rw [ofRecord] at h
    split at h
    · next condition special temporary enabled ignoreCount hfields =>
      obtain ⟨_, hspecial, h⟩ := bind_eq_ok h
      obtain ⟨_, htemporary, h⟩ := bind_eq_ok h
      obtain ⟨_, henabled, h⟩ := bind_eq_ok h
      obtain ⟨_, hcount, h⟩ := bind_eq_ok h
      obtain rfl := Except.ok.inj h
      exact ⟨condition, special, temporary, enabled, ignoreCount, hfields, rfl, hspecial,
        htemporary, henabled, hcount⟩
    · cases h
  · rintro ⟨condition, special, temporary, enabled, ignoreCount, hfields, hcondition, hspecial,
      htemporary, henabled, hcount⟩
    rw [ofRecord, hfields]
    simp only [hcondition, hspecial, htemporary, henabled, hcount]
    rfl

/-- The condition of a watchpoint as it stands in a record. -/
def recordCondition (watchpoint : Watchpoint) : String :=
  ofOptional (if watchpoint.isValid then some watchpoint.condition else none)

/-- The record of a watchpoint can be read if its condition does not end with a colon. It gives the
watchpoint, with the condition that its text stands for. -/
theorem ofRecord_eq_ok_iff {watchpoint read : Watchpoint} {record : String}
    (h : watchpoint.toRecord = .ok record) :
    ofRecord record = .ok read ↔
      EndsPlain watchpoint.recordCondition.toList ∧
        read = { watchpoint with
          condition := (readOptional watchpoint.recordCondition.toList).getD "" } := by
  have hwritable := (join_eq_ok_iff.mp h).1
  have htext := toList_of_join h
  simp only [List.map_cons, List.map_nil, Split.join, List.intercalate_cons_cons,
    List.intercalate_singleton, Numeral.ofUInt32, String.toList_ofList] at htext
  rw [← recordCondition] at htext
  have hcondition : ¬ separator <:+: watchpoint.recordCondition.toList :=
    (hwritable _ (by simp [recordCondition])).whole
  rw [ofRecord_eq_ok_iff_fields, @fields_of_join [_, _, _, _] _ _ h, htext]
  constructor
  · rintro ⟨condition, special, temporary, enabled, ignoreCount, hread, hreadCondition,
      hreadSpecial, hreadTemporary, hreadEnabled, hreadCount⟩
    obtain ⟨hsame, hplain, hlast⟩ := eq_of_fields hcondition hread
      (of_readBool hreadSpecial).1 (of_readBool hreadSpecial).2
    rw [fields_of_notMem (notMem_ofBool _), fields_behind] at hlast
    simp only [List.cons.injEq, and_true] at hlast
    rw [hsame] at hreadCondition
    rw [← hlast.1, readBool_ofBool, Except.ok.injEq] at hreadSpecial
    rw [← hlast.2.1, readBool_ofBool, Except.ok.injEq] at hreadTemporary
    rw [← hlast.2.2.1, readBool_ofBool, Except.ok.injEq] at hreadEnabled
    rw [← hlast.2.2.2, readCount_render, Except.ok.injEq] at hreadCount
    refine ⟨hplain, ?_⟩
    rw [hreadCondition, hreadSpecial, hreadTemporary, hreadEnabled, hreadCount]
  · rintro ⟨hplain, rfl⟩
    rw [fields_of_endsPlain hcondition hplain, fields_of_notMem (notMem_ofBool _), fields_behind]
    dsimp only
    refine ⟨_, _, _, _, _, rfl, rfl, ?_, ?_, ?_, ?_⟩
    · exact readBool_ofBool watchpoint.special
    · exact readBool_ofBool watchpoint.temporary
    · exact readBool_ofBool watchpoint.enabled
    · exact readCount_render watchpoint.ignoreCount

/-- A watchpoint has a record if its condition can stand in it, or if it has none. -/
theorem exists_toRecord_iff {watchpoint : Watchpoint} :
    (∃ record, watchpoint.toRecord = .ok record) ↔
      (watchpoint.isValid → Holds watchpoint.condition) := by
  simp only [toRecord, join_eq_ok_iff, exists_and_left, exists_eq, and_true, List.forall_mem_cons,
    holds_ofUInt32, holds_ofBool, holds_ofOptional_iff, true_and, List.not_mem_nil]
  simp

/-- A watchpoint is kept by its record if its condition does not end with a colon, and is not one
that stands for none. A blank condition, which makes the watchpoint invalid, is kept if it is
empty. -/
structure IsKept (watchpoint : Watchpoint) : Prop where
  /-- The condition of a valid watchpoint is read as it is. -/
  condition : watchpoint.isValid →
    EndsPlain watchpoint.condition.toList ∧ watchpoint.condition ≠ "None"
  /-- The condition of another one is empty. -/
  blank : watchpoint.isValid = false → watchpoint.condition = ""

/-- The watchpoint is read back from its record if it is kept. -/
theorem ofRecord_toRecord_iff {watchpoint : Watchpoint} {record : String}
    (h : watchpoint.toRecord = .ok record) :
    ofRecord record = .ok watchpoint ↔ watchpoint.IsKept := by
  rw [ofRecord_eq_ok_iff h, recordCondition]
  cases hvalid : watchpoint.isValid with
  | true =>
    rw [if_pos rfl, ofOptional, Option.getD_some]
    constructor
    · rintro ⟨hplain, hsame⟩
      refine ⟨fun _ => ⟨hplain, fun hnone => ?_⟩, fun hblank => ?_⟩
      · have hread : watchpoint.condition = (readOptional watchpoint.condition.toList).getD "" :=
          congrArg condition hsame
        rw [hnone] at hread
        exact absurd hread (by decide)
      · rw [hvalid] at hblank
        cases hblank
    · intro hkept
      obtain ⟨hplain, hnone⟩ := hkept.condition hvalid
      rw [getD_readOptional hnone]
      exact ⟨hplain, rfl⟩
  | false =>
    have hread : (readOptional (ofOptional none).toList).getD "" = "" := by decide
    rw [if_neg Bool.false_ne_true, hread]
    constructor
    · rintro ⟨-, hsame⟩
      refine ⟨fun htrue => ?_, fun _ => congrArg condition hsame⟩
      rw [hvalid] at htrue
      cases htrue
    · intro hkept
      rw [← hkept.blank hvalid]
      exact ⟨by decide, rfl⟩

/-- A watchpoint that is read from the record of another one differs from that at most in having an
empty condition. -/
theorem eq_or_of_ofRecord {watchpoint read : Watchpoint} {record : String}
    (h : watchpoint.toRecord = .ok record) (hread : ofRecord record = .ok read) :
    read = watchpoint ∨ read = { watchpoint with condition := "" } := by
  obtain ⟨-, rfl⟩ := (ofRecord_eq_ok_iff h).mp hread
  rw [recordCondition]
  by_cases hvalid : watchpoint.isValid
  · obtain ⟨hnone, -⟩ | ⟨hsame, -⟩ := readOptional_toList watchpoint.condition
    · exact .inr (by rw [if_pos hvalid, ofOptional, Option.getD_some, hnone, Option.getD_none])
    · exact .inl (by rw [if_pos hvalid, ofOptional, Option.getD_some, hsame, Option.getD_some])
  · rw [if_neg hvalid]
    exact .inr rfl

end Watchpoint

/-- A record is refused if its texts cannot stand in it. A point that has a record is read back from
it if it is kept, and if another point is read, then that has no condition instead; in any case, its
file is the one that is shown, which is the file of the point if that is a text. -/
theorem Record.reads_iff (breakpoint : Breakpoint) (watchpoint : Watchpoint) :
    (((∃ record, breakpoint.toRecord = .ok record) ↔
        Record.Holds breakpoint.wireFile ∧
          ∀ text, breakpoint.condition = some text → Record.Holds text) ∧
      (breakpoint.shown = breakpoint ↔ breakpoint.file.isText) ∧
      ∀ record, breakpoint.toRecord = .ok record →
        (Breakpoint.ofRecord record = .ok breakpoint ↔ breakpoint.IsKept) ∧
        ∀ read, Breakpoint.ofRecord record = .ok read →
          read = breakpoint.shown ∨ read = { breakpoint.shown with condition := none }) ∧
    ((∃ record, watchpoint.toRecord = .ok record) ↔
        (watchpoint.isValid → Record.Holds watchpoint.condition)) ∧
      ∀ record, watchpoint.toRecord = .ok record →
        (Watchpoint.ofRecord record = .ok watchpoint ↔ watchpoint.IsKept) ∧
        ∀ read, Watchpoint.ofRecord record = .ok read →
          read = watchpoint ∨ read = { watchpoint with condition := "" } := by
  constructor
  · refine ⟨Breakpoint.exists_toRecord_iff, Breakpoint.shown_eq_iff, fun record hrecord => ?_⟩
    exact ⟨Breakpoint.ofRecord_toRecord_iff hrecord,
      fun read => Breakpoint.eq_or_of_ofRecord hrecord⟩
  · refine ⟨Watchpoint.exists_toRecord_iff, fun record hrecord => ?_⟩
    exact ⟨Watchpoint.ofRecord_toRecord_iff hrecord,
      fun read => Watchpoint.eq_or_of_ofRecord hrecord⟩

/-- A point whose texts have colons in the middle, and one that is looked at on every line, are read
back. -/
theorem Record.reads_scoped :
    (∃ record, Breakpoint.toRecord ⟨"a.py", 3, some "A::b", false, false, 2⟩ = .ok record ∧
      Breakpoint.ofRecord record = .ok ⟨"a.py", 3, some "A::b", false, false, 2⟩) ∧
    ∃ record, Watchpoint.toRecord ⟨"xs[1:2]", true, true, true, 0⟩ = .ok record ∧
      Watchpoint.ofRecord record = .ok ⟨"xs[1:2]", true, true, true, 0⟩ := by
  obtain ⟨hbreakpoint, hwatchpoint⟩ := Record.reads_iff
    ⟨"a.py", 3, some "A::b", false, false, 2⟩ ⟨"xs[1:2]", true, true, true, 0⟩
  constructor
  · obtain ⟨record, hrecord⟩ := hbreakpoint.1.mpr
      ⟨by decide +kernel, fun text htext => Option.some.inj htext ▸ by decide⟩
    refine ⟨record, hrecord, (hbreakpoint.2.2 record hrecord).1.mpr
      ⟨SourcePath.isText_ofText _, by decide +kernel, by decide +kernel, ?_⟩⟩
    exact fun text htext => Option.some.inj htext ▸ by decide
  · obtain ⟨record, hrecord⟩ := hwatchpoint.1.mpr fun _ => by decide
    exact ⟨record, hrecord, (hwatchpoint.2 record hrecord).1.mpr
      ⟨fun _ => by decide, fun hblank => absurd hblank (by decide)⟩⟩

/-- A record of a breakpoint with a file, and with a condition that is not blank, need not give the
breakpoint: the condition may be the word for a condition that there is not. -/
theorem Record.not_reads_none :
    ¬ ∀ (breakpoint : Breakpoint) (record : String), breakpoint.file ≠ "" →
      (∀ text, breakpoint.condition = some text → Blank.isAllBlank text.toList = false) →
        breakpoint.toRecord = .ok record → Breakpoint.ofRecord record = .ok breakpoint := by
  intro h
  have hread := h ⟨"a.py", 3, some "None", false, true, 0⟩
    "a.py:::3:::None:::False:::True:::0" (by decide +kernel)
    (fun text htext => Option.some.inj htext ▸ by decide) (by decide +kernel)
  exact absurd hread (by decide +kernel)

end DebugLink
