import DebugLink.Proofs.Registry.Record
import DebugLink.Proofs.Snapshot.Lines

/-!
# An import loses no line

What a source of flat records holds is told by its text alone. Every line of it that is not blank
comes to one entry: a breakpoint or a watchpoint if the line is the record of one, and else an error
that names the line. The number of fields is counted twice, of the line and of the record without
the line breaks at its end, and both counts agree, so a line that is a record is never turned away.
-/

namespace DebugLink

open Text Wire

/-! ## Counting fields -/

namespace Text.Split

/-- A character that is part of no separator makes no separator. -/
theorem infix_concat_iff {sep cs : List Char} {c : Char} (hsep : sep ≠ []) (hc : c ∉ sep) :
    sep <:+: cs ++ [c] ↔ sep <:+: cs := by
  rw [List.infix_concat_iff, or_iff_right]
  intro hsuffix
  have hlast := hsuffix.getLast hsep
  rw [List.getLast_concat] at hlast
  exact hc (hlast ▸ List.getLast_mem hsep)

/-- A character that is part of no separator does not move the first cut. -/
theorem IsFirst.concat {sep cs front back : List Char} {c : Char}
    (h : IsFirst sep cs front back) (hsep : sep ≠ []) (hc : c ∉ sep) :
    IsFirst sep (cs ++ [c]) front (back ++ [c]) := by
  refine ⟨by rw [h.whole, List.append_assoc], fun others more ho => ?_⟩
  rcases List.eq_nil_or_concat more with rfl | ⟨before, last, rfl⟩
  · have hlast := congrArg List.getLast? ho
    rw [List.append_nil, List.getLast?_concat, List.getLast?_append_of_ne_nil _ hsep] at hlast
    exact absurd (List.mem_of_getLast? hlast.symm) hc
  · rw [List.concat_eq_append, ← List.append_assoc] at ho
    exact h.first others before (List.append_inj' ho rfl).1

/-- A character that is part of no separator makes no field. -/
theorem length_fields_concat {sep : List Char} {c : Char} (hsep : sep ≠ []) (hc : c ∉ sep)
    (cs : List Char) : (fields sep (cs ++ [c])).length = (fields sep cs).length := by
  induction hlength : cs.length using Nat.strongRecOn generalizing cs with
  | ind length ih =>
    cases hcut : atFirst sep cs with
    | none =>
      rw [atFirst_eq_none_iff] at hcut
      have hone := fields_of_not_infix hcut
      have hmore := fields_of_not_infix (mt (infix_concat_iff hsep hc).mp hcut)
      rw [hone, hmore]
      rfl
    | some parts =>
      obtain ⟨front, back⟩ := parts
      have hfirst := atFirst_eq_some_iff.mp hcut
      have hlt : back.length < length := by
        have hpos := List.length_pos_iff.mpr hsep
        rw [← hlength, hfirst.whole, List.length_append, List.length_append]
        omega
      rw [fields_of_cut hsep hcut,
        fields_of_cut hsep (atFirst_eq_some_iff.mpr (hfirst.concat hsep hc)), List.length_cons,
        List.length_cons, ih back.length hlt back rfl]

end Text.Split

/-- Line breaks at the end of a record are part of its last field. -/
theorem Record.length_fields (record : String) :
    (fields record).length = (Split.fields separator record.toList).length := by
  have hbreak : ∀ c, isLineBreak c = true → c ∉ separator := by
    intro c hb hc
    obtain rfl : c = ':' := by simpa [separator] using hc
    exact absurd hb (by decide)
  have hall : ∀ cs : List Char, (Split.fields separator (cs.dropWhile isLineBreak).reverse).length =
      (Split.fields separator cs.reverse).length := by
    intro cs
    induction cs with
    | nil => rfl
    | cons c cs ih =>
      rw [List.dropWhile_cons]
      split
      · next hc =>
        rw [ih, List.reverse_cons, Split.length_fields_concat (by decide) (hbreak c hc)]
      · rfl
  rw [fields, dropLineBreaks, hall, List.reverse_reverse]

namespace FlatFile

/-! ## Entries -/

/-- A line is read as the record of one kind of point, or of neither one. -/
theorem ofLine_cases (line : List Char) :
    (∃ breakpoint, Breakpoint.ofRecord (String.ofList line) = .ok breakpoint ∧
      (∀ watchpoint, Watchpoint.ofRecord (String.ofList line) ≠ .ok watchpoint) ∧
        Entry.ofLine line = .breakpoint breakpoint) ∨
    (∃ watchpoint, Watchpoint.ofRecord (String.ofList line) = .ok watchpoint ∧
      (∀ breakpoint, Breakpoint.ofRecord (String.ofList line) ≠ .ok breakpoint) ∧
        Entry.ofLine line = .watchpoint watchpoint) ∨
    (∃ reason, (∀ breakpoint, Breakpoint.ofRecord (String.ofList line) ≠ .ok breakpoint) ∧
      (∀ watchpoint, Watchpoint.ofRecord (String.ofList line) ≠ .ok watchpoint) ∧
        Entry.ofLine line = .refused (.malformedRecord (String.ofList line) reason)) := by
  have hcount := Record.length_fields (String.ofList line)
  rw [String.toList_ofList] at hcount
  have hbreakpoint : ∀ breakpoint, Breakpoint.ofRecord (String.ofList line) = .ok breakpoint →
      (Split.fields Record.separator line).length = Breakpoint.recordFields := by
    intro breakpoint h
    obtain ⟨-, _, _, _, _, _, hf, -⟩ := Breakpoint.ofRecord_eq_ok_iff_fields.mp h
    rw [← hcount, hf]
    rfl
  have hwatchpoint : ∀ watchpoint, Watchpoint.ofRecord (String.ofList line) = .ok watchpoint →
      (Split.fields Record.separator line).length = Watchpoint.recordFields := by
    intro watchpoint h
    obtain ⟨_, _, _, _, _, hf, -⟩ := Watchpoint.ofRecord_eq_ok_iff_fields.mp h
    rw [← hcount, hf]
    rfl
  have hkinds : Breakpoint.recordFields ≠ Watchpoint.recordFields := by decide
  rw [Entry.ofLine]
  by_cases hb : (Split.fields Record.separator line).length = Breakpoint.recordFields
  · have hw : ∀ watchpoint, Watchpoint.ofRecord (String.ofList line) ≠ .ok watchpoint :=
      fun watchpoint h => hkinds (hb.symm.trans (hwatchpoint watchpoint h))
    simp only [hb, if_true]
    cases hr : Breakpoint.ofRecord (String.ofList line) with
    | ok breakpoint => exact .inl ⟨breakpoint, rfl, hw, rfl⟩
    | error reason => exact .inr (.inr ⟨reason, nofun, hw, rfl⟩)
  · have hb' : ∀ breakpoint, Breakpoint.ofRecord (String.ofList line) ≠ .ok breakpoint :=
      fun breakpoint h => hb (hbreakpoint breakpoint h)
    simp only [hb, if_false]
    by_cases hw : (Split.fields Record.separator line).length = Watchpoint.recordFields
    · simp only [hw, if_true]
      cases hr : Watchpoint.ofRecord (String.ofList line) with
      | ok watchpoint => exact .inr (.inl ⟨watchpoint, rfl, hb', rfl⟩)
      | error reason => exact .inr (.inr ⟨reason, hb', nofun, rfl⟩)
    · simp only [hw, if_false]
      exact .inr (.inr ⟨_, hb', fun watchpoint h => hw (hwatchpoint watchpoint h), rfl⟩)

/-- The breakpoint of a line is that of its record. -/
theorem breakpoint?_ofLine (line : List Char) :
    (Entry.ofLine line).breakpoint? = (Breakpoint.ofRecord (String.ofList line)).toOption := by
  rcases ofLine_cases line with ⟨b, hb, -, he⟩ | ⟨w, -, hb, he⟩ | ⟨reason, hb, -, he⟩ <;> rw [he]
  · rw [hb]
    rfl
  all_goals
    cases hr : Breakpoint.ofRecord (String.ofList line) with
    | ok b => exact absurd hr (hb b)
    | error reason => rfl

/-- The watchpoint of a line is that of its record. -/
theorem watchpoint?_ofLine (line : List Char) :
    (Entry.ofLine line).watchpoint? = (Watchpoint.ofRecord (String.ofList line)).toOption := by
  rcases ofLine_cases line with ⟨b, -, hw, he⟩ | ⟨w, hw, -, he⟩ | ⟨reason, -, hw, he⟩ <;> rw [he]
  rotate_left
  · rw [hw]
    rfl
  all_goals
    cases hr : Watchpoint.ofRecord (String.ofList line) with
    | ok w => exact absurd hr (hw w)
    | error reason => rfl

/-- Whether a text is the record of no point. -/
def isRefused (record : String) : Bool :=
  (Breakpoint.ofRecord record).toOption.isNone && (Watchpoint.ofRecord record).toOption.isNone

/-- A line comes to an error that names it if it is the record of no point, and else to none. -/
theorem error?_ofLine (line : List Char) :
    if isRefused (String.ofList line) then
      ∃ reason, (Entry.ofLine line).error? = some (.malformedRecord (String.ofList line) reason)
    else (Entry.ofLine line).error? = none := by
  have hb := breakpoint?_ofLine line
  have hw := watchpoint?_ofLine line
  rw [isRefused, ← hb, ← hw]
  rcases ofLine_cases line with ⟨b, -, -, he⟩ | ⟨w, -, -, he⟩ | ⟨reason, -, -, he⟩ <;> rw [he]
  · exact rfl
  · exact rfl
  · exact ⟨reason, rfl⟩

/-- The lines of a text that are not blank. -/
def records (text : List Char) : List String :=
  ((lines text).filter (!Blank.isAllBlank ·)).map String.ofList

/-- How the lines of a text are sorted into a file of flat records. -/
structure Sorts (text : List Char) (file : FlatFile) : Prop where
  /-- The breakpoints are those of the lines that are records of one, in order. -/
  breakpoints : file.breakpoints =
    (records text).filterMap fun record => (Breakpoint.ofRecord record).toOption
  /-- The watchpoints are those of the lines that are records of one, in order. -/
  watchpoints : file.watchpoints =
    (records text).filterMap fun record => (Watchpoint.ofRecord record).toOption
  /-- There is an error for each other line, in order, and it names the line. -/
  errors : List.Forall₂ (fun record error => ∃ reason, error = .malformedRecord record reason)
    ((records text).filter isRefused) file.errors
  /-- No line is the record of both kinds of points. -/
  once : ∀ record ∈ records text,
    (Breakpoint.ofRecord record).toOption = none ∨ (Watchpoint.ofRecord record).toOption = none

/-- The errors of lines are those of the lines that are records of no point. -/
theorem forall₂_error? (lines : List (List Char)) :
    List.Forall₂ (fun record error => ∃ reason, error = .malformedRecord record reason)
      ((lines.map String.ofList).filter isRefused)
      ((lines.map Entry.ofLine).filterMap Entry.error?) := by
  induction lines with
  | nil => exact .nil
  | cons line lines ih =>
    have herror := error?_ofLine line
    rw [List.map_cons, List.map_cons, List.filter_cons, List.filterMap_cons]
    split at herror
    · next hrefused =>
      obtain ⟨reason, he⟩ := herror
      rw [if_pos hrefused, he]
      exact .cons ⟨reason, rfl⟩ ih
    · next hrefused =>
      rw [if_neg hrefused, herror]
      exact ih

/-- Each line of a text that is not blank comes to one entry of its kind. -/
theorem sorts_ofText (text : List Char) : Sorts text (ofText text) where
  breakpoints := by
    simp only [ofText, ofEntries, entries, records, List.filterMap_map]
    exact List.filterMap_congr fun line _ => breakpoint?_ofLine line
  watchpoints := by
    simp only [ofText, ofEntries, entries, records, List.filterMap_map]
    exact List.filterMap_congr fun line _ => watchpoint?_ofLine line
  errors := forall₂_error? _
  once := by
    intro record hr
    obtain ⟨line, -, rfl⟩ := List.mem_map.mp hr
    rw [← breakpoint?_ofLine, ← watchpoint?_ofLine]
    cases Entry.ofLine line with
    | breakpoint b => exact .inr rfl
    | watchpoint w => exact .inl rfl
    | refused error => exact .inl rfl

/-! ## Reading from a source -/

/-- Put the content of one file behind that of another one, kind by kind. -/
def append (first second : FlatFile) : FlatFile where
  breakpoints := first.breakpoints ++ second.breakpoints
  watchpoints := first.watchpoints ++ second.watchpoints
  errors := first.errors ++ second.errors

/-- An entry is put behind those in front of it. -/
theorem add_append_ofEntries (file : FlatFile) (entry : Entry) (entries : List Entry) :
    (file.add entry).append (ofEntries entries) = file.append (ofEntries (entry :: entries)) := by
  cases entry <;> simp [add, append, ofEntries, List.filterMap_cons, Entry.breakpoint?,
    Entry.watchpoint?, Entry.error?]

/-- A source from which a line cannot be read has no content. -/
theorem content?_of_nextLine_error {source : List Arrival} {fault : IoFault}
    (h : nextLine [] source = .error fault) : content? source = none := by
  rcases nextLine_spec [] source with ⟨_, -, hc⟩ | ⟨line, rest, hl, -⟩
  · exact hc
  · rw [hl] at h
    cases h

/-- The content of a source is its next line and the content behind that. -/
theorem content?_of_nextLine {source rest : List Arrival} {line : Bytes}
    (h : nextLine [] source = .ok (line, rest)) :
    content? source = (content? rest).map (line ++ ·) ∧ IsLine line (content? rest) := by
  rcases nextLine_spec [] source with ⟨_, he, -⟩ | ⟨line', rest', hn, hc⟩
  · rw [he] at h
    cases h
  · rw [hn] at h
    obtain ⟨rfl, rfl⟩ := Prod.mk.inj (Except.ok.inj h)
    exact hc

/-- The text of a source is that of its next line and the text behind that. -/
theorem decode?_of_nextLine {source rest : List Arrival} {line : Bytes}
    (h : nextLine [] source = .ok (line, rest)) :
    (content? source).bind Utf8.decode? = (Utf8.decode? line).bind fun text =>
      ((content? rest).bind Utf8.decode?).map (text ++ ·) := by
  obtain ⟨hc, hl⟩ := content?_of_nextLine h
  rw [hc]
  cases hr : content? rest with
  | none => cases Utf8.decode? line <;> rfl
  | some left => exact decode?_of_isLine (hr ▸ hl)

/-- The first line of a text is read in front of the others. -/
theorem append_ofText {line : List Char} {text rest : List Char} (file : FlatFile)
    (h : lines text = line :: lines rest) :
    file.append (ofText text) =
      (if Blank.isAllBlank line then file else file.add (.ofLine line)).append (ofText rest) := by
  rw [ofText, ofText, entries, entries, h, List.filter_cons]
  cases Blank.isAllBlank line with
  | true => rfl
  | false => exact (add_append_ofEntries file (.ofLine line) _).symm

/-- What is read from a source is told by the text that it holds. -/
theorem readFrom_eq (file : FlatFile) (source : List Arrival) :
    readFrom file source =
      match (content? source).bind Utf8.decode? with
      | some text => .ok (file.append (ofText text.toList))
      | none => .error .flatFile := by
  fun_induction readFrom file source with
  | case1 file source fault hline =>
    rw [content?_of_nextLine_error hline]
    rfl
  | case2 file source rest hline =>
    obtain ⟨hc, hl⟩ := content?_of_nextLine hline
    rcases hl with ⟨front, -, hf⟩ | ⟨-, hr⟩
    · simp at hf
    · rw [hc, hr]
      simp [append, ofText, ofEntries, entries, lines, show Utf8.decode? [] = some "" from rfl]
  | case3 file source b bytes rest hline hnone =>
    rw [decode?_of_nextLine hline, hnone]
    rfl
  | case4 file source b bytes rest hline text hsome line ih =>
    simp only [dite_eq_ite] at ih
    rw [ih, decode?_of_nextLine hline, hsome, Option.bind_some]
    cases hm : (content? rest).bind Utf8.decode? with
    | none => rfl
    | some more =>
      obtain ⟨left, hleft, hmore⟩ := Option.bind_eq_some_iff.mp hm
      have hl := (content?_of_nextLine hline).2
      rw [hleft, Utf8.decode?_eq_some_iff.mp hmore, Utf8.decode?_eq_some_iff.mp hsome] at hl
      have hne : Utf8.encode text ≠ [] := by
        rw [← Utf8.decode?_eq_some_iff.mp hsome]
        exact List.cons_ne_nil b bytes
      exact congrArg Except.ok (append_ofText file (lines_of_isLine hl hne)).symm

/-- The entries of a text that ends with a newline have those of what follows behind them. -/
theorem ofText_append {front : List Char} (h : front = [] ∨ front.getLast? = some '\n')
    (back : List Char) : ofText (front ++ back) = (ofText front).append (ofText back) := by
  rw [ofText, entries, lines_append h, List.filter_append, List.map_append]
  simp [ofText, ofEntries, entries, append]

/-- Flat records are read like those of a source that has all octets ready. -/
theorem read_eq_readFrom (bytes : Bytes) : read bytes = readFrom {} [.data bytes] := by
  have hc : content? [.data bytes] = some bytes := by
    cases bytes with
    | nil => rfl
    | cons b bytes => simp [content?]
  rw [readFrom_eq, hc, Option.bind_some, read, ofBytes?]
  cases Utf8.decode? bytes <;> rfl

end FlatFile

namespace Keeper

/-- Flat records are added like those of a source that has all octets ready. -/
theorem addRecords_eq_addFrom (keeper : Keeper) (bytes : Bytes) :
    keeper.addRecords bytes = keeper.addFrom [.data bytes] := by
  rw [addFrom, ← FlatFile.read_eq_readFrom, addRecords, FlatFile.read]
  cases FlatFile.ofBytes? bytes <;> rfl

open FlatFile

/-- What an import does with a source. -/
structure Imports (keeper : Keeper) (source : List Arrival) : Prop where
  /-- Where a read fails or the octets are not UTF-8, the answer is an error, and nothing changes. -/
  unreadable : (∀ text, content? source ≠ some (Utf8.encode text)) →
    keeper.addFrom source = (.error .keeperFlatFile, keeper)
  /-- Else all lines of the text are sorted, and the points are added. -/
  readable : ∀ text, content? source = some (Utf8.encode text) →
    ∃ file, readFrom {} source = .ok file ∧ Sorts text.toList file ∧
      keeper.addFrom source =
        (.ok file.errors, { keeper with current := keeper.current.addFlatFile file })
  /-- What is read of a text in two parts, the first of which ends with a newline, is what is read
  of each part. -/
  apart : ∀ front back, content? source = some (Utf8.encode (front ++ back)) →
    front = "" ∨ front.toList.getLast? = some '\n' →
    ∀ ahead behind, content? ahead = some (Utf8.encode front) →
      content? behind = some (Utf8.encode back) →
      ∃ first second, readFrom {} ahead = .ok first ∧ readFrom {} behind = .ok second ∧
        readFrom {} source = .ok (first.append second)

/-- Whatever a source holds, and however it is cut into reads, an import loses no line of it. -/
theorem imports (keeper : Keeper) (source : List Arrival) : keeper.Imports source := by
  have hread : ∀ {source : List Arrival} {text : String},
      content? source = some (Utf8.encode text) → readFrom {} source = .ok (ofText text.toList) := by
    intro source text hc
    rw [readFrom_eq, hc, Option.bind_some, Utf8.decode?_encode]
    rfl
  refine ⟨fun h => ?_, fun text hc => ?_, fun front back hc hend ahead behind ha hb => ?_⟩
  · have hnone : (content? source).bind Utf8.decode? = none := by
      rw [Option.bind_eq_none_iff]
      intro bytes hc
      by_contra hd
      obtain ⟨text, hd⟩ := Option.ne_none_iff_exists'.mp hd
      exact h text (by rw [hc, Utf8.decode?_eq_some_iff.mp hd])
    rw [addFrom, readFrom_eq, hnone]
  · refine ⟨_, hread hc, sorts_ofText _, ?_⟩
    rw [addFrom, hread hc]
    rfl
  · refine ⟨_, _, hread ha, hread hb, ?_⟩
    rw [hread hc, String.toList_append, ofText_append]
    exact hend.imp (fun h => by rw [h]; rfl) id

end Keeper

end DebugLink
