import DebugLink.Request
import DebugLink.Proofs.Path.Display
import DebugLink.Proofs.Text.Split

/-!
# Which requests are read back

A request is written as fields between separators, and nothing in a field is escaped but what JSON
escapes. A text with separators of its own is read back where the cuts leave it alone: in front of
the last cuts, behind the first ones, or inside JSON that is no field among others. A path is read
back if it is a text, since it is sent as it is shown. The exact conditions are those of
`Request.Survives`.
-/

namespace DebugLink.Request

open Text
open Text.Numeral (notMem_render)
open Wire (PayloadFault)

-- How a request is written is unfolded in each layout below.
attribute [local simp] payload

/-- What the paths and texts of a request must be like for it to be read back. -/
def Survives : Request → Prop
  | load workingDirectory program args _ =>
    (workingDirectory.isText ∧ program.isText) ∧ '|' ∉ workingDirectory.display.toList ∧
      '|' ∉ program.display.toList ∧ ∀ arg ∈ args, '|' ∉ arg.toList
  | setBreak file _ _ _ condition =>
    (¬ ['@', '@'] <:+: file.toList ∧ file.toList.getLast? ≠ some '@') ∧
      condition ≠ some "" ∧ condition ≠ some "None"
  | eval _ text | exec _ text => ∀ c, text.toList.head? = some c → Blank.isBlank c = false
  | _ => True

/-- A request is read from a message where it is read from the payload. -/
theorem ofMessage_eq_ok_iff {message : Message} {request : Request} :
    ofMessage message = .ok request ↔ ofPayload message.word message.payload = .ok request := by
  rw [ofMessage]
  cases ofPayload message.word message.payload with
  | ok read => exact ⟨fun h => by rw [Except.ok.inj h], fun h => by rw [Except.ok.inj h]⟩
  | error reason => exact ⟨nofun, nofun⟩

/-! ## Fields -/

/-- A field that can be read is passed on. -/
theorem ok_bind {α β : Type} (a : α) (next : α → Except PayloadFault β) :
    (Except.ok a >>= next) = next a := rfl

/-- A field that is needed can be read. -/
theorem orBad_bind_eq_ok {α β : Type} {field : String} {value : Option α}
    {next : α → Except PayloadFault β} {b : β} (h : (orBad field value >>= next) = .ok b) :
    ∃ a, value = some a ∧ next a = .ok b := by
  cases value with
  | none => cases h
  | some a => exact ⟨a, rfl, h⟩

/-- A truth value is read back. -/
theorem readFlag?_flag (value : Bool) : readFlag? (flag value).toList = some value := by
  cases value <;> decide

/-- A number is read back. -/
theorem readNumber?_render (n : UInt32) : readNumber? (Numeral.render n.toNat) = some n := by
  rw [readNumber?, Numeral.trim_render, Numeral.readUInt32_render]
  rfl

/-- The number of a thread is read back. -/
theorem readThread?_renderInt (n : Int64) : readThread? (Numeral.renderInt n.toInt) = some n := by
  rw [readThread?, Numeral.trim_renderInt, Numeral.readInt64_renderInt]
  rfl

/-- A scope is read back. -/
theorem readScope?_renderInt (scope : Scope) :
    readScope? (Numeral.renderInt scope.code) = some scope := by
  cases scope <;> decide

/-- A separator does not stand in a truth value. -/
theorem notMem_flag {s : Char} (h : s.toNat < 48 ∨ 57 < s.toNat) (value : Bool) :
    s ∉ (flag value).toList := by
  intro hs
  have hdigit : 48 ≤ s.toNat ∧ s.toNat ≤ 57 := by
    cases value with
    | false =>
      obtain rfl := List.mem_singleton.mp hs
      decide
    | true =>
      obtain rfl := List.mem_singleton.mp hs
      decide
  omega

/-- A field that is a truth value has no bar in it. -/
theorem notMem_of_readFlag? {field : List Char} {value : Bool} (h : readFlag? field = some value) :
    '|' ∉ field := by
  intro hbar
  have htrim : '|' ∈ Blank.trim field := Blank.mem_trim hbar (by decide)
  rw [readFlag?] at h
  split at h
  · next hword => rcases hword with heq | heq | heq <;> rw [heq] at htrim <;> simp at htrim
  · split at h
    · next hword => rcases hword with heq | heq | heq <;> rw [heq] at htrim <;> simp at htrim
    · cases h

/-! ## Fields in front of the last cuts -/

/-- A file, a line and a last field are read, if the last field has no comma. -/
theorem readPlaceAnd_eq (file : String) (line : UInt32) {last : List Char} (h : ',' ∉ last) :
    readPlaceAnd (file.toList ++ [','] ++ Numeral.render line.toNat ++ [','] ++ last) =
      .ok (file, line, last) := by
  have hfields : Split.fieldsLast [','] 2 (file.toList ++ [','] ++ Numeral.render line.toNat ++
      [','] ++ last) = [file.toList, Numeral.render line.toNat, last] :=
    Split.fieldsLast_three [] (notMem_render (by decide) _) h
  rw [readPlaceAnd, hfields]
  dsimp only
  rw [readNumber?_render, String.ofList_toList]
  rfl

/-- A request to enable a breakpoint is read back, whatever the file is. -/
theorem ofPayload_enableBreak (file : String) (line : UInt32) (enable : Bool) :
    ofPayload .enableBreak (enableBreak file line enable).payload =
      .ok (enableBreak file line enable) := by
  have hpayload : (enableBreak file line enable).payload.toList = file.toList ++ [','] ++
      Numeral.render line.toNat ++ [','] ++ (flag enable).toList := by
    simp [Numeral.ofUInt32]
  rw [ofPayload, hpayload, readPlaceAnd_eq file line (notMem_flag (by decide) enable), ok_bind]
  dsimp only
  rw [readFlag?_flag]
  rfl

/-- A request to ignore a breakpoint is read back, whatever the file is. -/
theorem ofPayload_ignoreBreak (file : String) (line count : UInt32) :
    ofPayload .ignoreBreak (ignoreBreak file line count).payload =
      .ok (ignoreBreak file line count) := by
  have hpayload : (ignoreBreak file line count).payload.toList = file.toList ++ [','] ++
      Numeral.render line.toNat ++ [','] ++ Numeral.render count.toNat := by
    simp [Numeral.ofUInt32]
  rw [ofPayload, hpayload, readPlaceAnd_eq file line (notMem_render (by decide) count.toNat),
    ok_bind]
  dsimp only
  rw [readNumber?_render]
  rfl

/-- A condition and a last field are read, if the last field has no comma. -/
theorem readConditionAnd_eq (condition : String) {last : List Char} (h : ',' ∉ last) :
    readConditionAnd (condition.toList ++ [','] ++ last) = .ok (condition, last) := by
  have hlast : Split.atLast [','] (condition.toList ++ [','] ++ last) =
      some (condition.toList, last) := Split.atLast_of_notMem [] h
  rw [readConditionAnd, hlast]
  dsimp only
  rw [String.ofList_toList]

/-- A request to enable a watchpoint is read back, whatever the condition is. -/
theorem ofPayload_enableWatch (condition : String) (enable : Bool) :
    ofPayload .enableWatch (enableWatch condition enable).payload =
      .ok (enableWatch condition enable) := by
  have hpayload : (enableWatch condition enable).payload.toList =
      condition.toList ++ [','] ++ (flag enable).toList := by
    simp
  rw [ofPayload, hpayload, readConditionAnd_eq condition (notMem_flag (by decide) enable), ok_bind]
  dsimp only
  rw [readFlag?_flag]
  rfl

/-- A request to ignore a watchpoint is read back, whatever the condition is. -/
theorem ofPayload_ignoreWatch (condition : String) (count : UInt32) :
    ofPayload .ignoreWatch (ignoreWatch condition count).payload =
      .ok (ignoreWatch condition count) := by
  have hpayload : (ignoreWatch condition count).payload.toList =
      condition.toList ++ [','] ++ Numeral.render count.toNat := by
    simp [Numeral.ofUInt32]
  rw [ofPayload, hpayload, readConditionAnd_eq condition (notMem_render (by decide) count.toNat),
    ok_bind]
  dsimp only
  rw [readNumber?_render]
  rfl

/-- A request for a watchpoint is read back, whatever the condition is. -/
theorem readSetWatch_eq (condition : String) (temporary set : Bool) :
    readSetWatch (setWatch condition temporary set).payload.toList =
      .ok (setWatch condition temporary set) := by
  have hpayload : (setWatch condition temporary set).payload.toList = condition.toList ++
      ['@', '@'] ++ (flag temporary).toList ++ ['@', '@'] ++ (flag set).toList := by
    simp
  have hfields : Split.fieldsLast ['@', '@'] 2 (condition.toList ++ ['@', '@'] ++
      (flag temporary).toList ++ ['@', '@'] ++ (flag set).toList) =
      [condition.toList, (flag temporary).toList, (flag set).toList] :=
    Split.fieldsLast_three ['@'] (notMem_flag (by decide) _) (notMem_flag (by decide) _)
  rw [hpayload, readSetWatch, hfields]
  dsimp only
  rw [readFlag?_flag, readFlag?_flag, String.ofList_toList]
  rfl

/-! ## Fields behind the first cuts -/

/-- A scope and a frame are read back. -/
theorem readVariables_eq (frame : UInt32) (scope : Scope) :
    readVariables (variableList frame scope).payload.toList = .ok (variableList frame scope) := by
  have hpayload : (variableList frame scope).payload.toList =
      Numeral.render frame.toNat ++ [','] ++ Numeral.renderInt scope.code := by
    simp [Numeral.ofUInt32, Numeral.ofInt]
  have hframe : Split.atFirst [','] (Numeral.render frame.toNat ++ [','] ++
      Numeral.renderInt scope.code) =
      some (Numeral.render frame.toNat, Numeral.renderInt scope.code) :=
    Split.atFirst_of_notMem (notMem_render (by decide) _)
  rw [hpayload, readVariables, hframe]
  dsimp only
  rw [readNumber?_render, readScope?_renderInt]
  rfl

/-- A frame and a text are read, without the leading blanks of the text. -/
theorem readFrameAnd_eq (frame : UInt32) (text : List Char) :
    readFrameAnd (Numeral.render frame.toNat ++ [','] ++ text) =
      .ok (frame, String.ofList (Blank.trimStart text)) := by
  have hframe : Split.atFirst [','] (Numeral.render frame.toNat ++ [','] ++ text) =
      some (Numeral.render frame.toNat, text) :=
    Split.atFirst_of_notMem (notMem_render (by decide) _)
  rw [readFrameAnd, hframe]
  dsimp only
  rw [readNumber?_render]
  rfl

/-- The payload of a request to evaluate an expression. -/
theorem payload_eval (frame : UInt32) (text : String) :
    (eval frame text).payload.toList =
      Numeral.render frame.toNat ++ [','] ++ text.toList := by
  simp [Numeral.ofUInt32]

/-- A statement is asked for like an expression. -/
theorem payload_exec (frame : UInt32) (text : String) :
    (exec frame text).payload.toList =
      Numeral.render frame.toNat ++ [','] ++ text.toList := payload_eval frame text

/-- A text is what is read of it if it does not begin with a blank. -/
theorem ofList_trimStart_iff {text : String} :
    String.ofList (Blank.trimStart text.toList) = text ↔
      ∀ c, text.toList.head? = some c → Blank.isBlank c = false := by
  rw [← Blank.trimStart_eq_self_iff, ← String.toList_inj, String.toList_ofList]

/-! ## Breakpoints -/

/-- What stands behind the file in a request for a breakpoint. -/
def behindFile (line : UInt32) (temporary set : Bool) (condition : String) : List Char :=
  Numeral.render line.toNat ++ ['@', '@'] ++ ((flag temporary).toList ++ ['@', '@'] ++
    ((flag set).toList ++ ['@', '@'] ++ condition.toList))

/-- The payload of a request for a breakpoint. -/
theorem payload_setBreak (file : String) (line : UInt32) (temporary set : Bool)
    (condition : Option String) :
    (setBreak file line temporary set condition).payload.toList =
      file.toList ++ ['@', '@'] ++ behindFile line temporary set (condition.getD "None") := by
  simp [behindFile, Numeral.ofUInt32]

/-- The fields behind the file are cut apart, whatever the condition is. -/
theorem fieldsFirst_behindFile (line : UInt32) (temporary set : Bool) (condition : String) :
    Split.fieldsFirst ['@', '@'] 3 (behindFile line temporary set condition) =
      [Numeral.render line.toNat, (flag temporary).toList, (flag set).toList,
        condition.toList] := by
  rw [behindFile, Split.fieldsFirst_of_cut (Split.atFirst_of_notMem (notMem_render (by decide) _)),
    Split.fieldsFirst_of_cut (Split.atFirst_of_notMem (notMem_flag (by decide) _)),
    Split.fieldsFirst_of_cut (Split.atFirst_of_notMem (notMem_flag (by decide) _)),
    Split.fieldsFirst]

/-- A request for a breakpoint is read where the text is cut behind the file. -/
theorem readSetBreak_of_cut {cs : List Char} {file condition : String} {line : UInt32}
    {temporary set : Bool} (h : Split.atFirst ['@', '@'] cs =
      some (file.toList, behindFile line temporary set condition)) :
    readSetBreak cs = .ok (setBreak file line temporary set
      (if condition = "None" ∨ condition = "" then none else some condition)) := by
  rw [readSetBreak, Split.fieldsFirst_of_cut h, fieldsFirst_behindFile]
  dsimp only
  rw [readNumber?_render, readFlag?_flag, readFlag?_flag, String.ofList_toList,
    String.ofList_toList]
  rfl

/-- The file of a request for a breakpoint is what stands in front of the first cut. -/
theorem exists_cut_of_readSetBreak {cs : List Char} {file : String} {line : UInt32}
    {temporary set : Bool} {condition : Option String}
    (h : readSetBreak cs = .ok (setBreak file line temporary set condition)) :
    ∃ back, Split.atFirst ['@', '@'] cs = some (file.toList, back) := by
  unfold readSetBreak at h
  split at h
  · next fields front _ _ _ _ hfields =>
    obtain ⟨_, -, h⟩ := orBad_bind_eq_ok h
    obtain ⟨_, -, h⟩ := orBad_bind_eq_ok h
    obtain ⟨_, -, h⟩ := orBad_bind_eq_ok h
    injection h with hrequest
    injection hrequest with hfile
    obtain ⟨back, hcut⟩ := Split.exists_cut_of_fieldsFirst hfields
    exact ⟨back, by rw [hcut, ← hfile, String.toList_ofList]⟩
  · cases h

/-- A condition is read back unless it is written like one that is missing. -/
theorem readCondition_iff (condition : Option String) :
    (if condition.getD "None" = "None" ∨ condition.getD "None" = "" then none
      else some (condition.getD "None")) = condition ↔
      condition ≠ some "" ∧ condition ≠ some "None" := by
  cases condition with
  | none => simp
  | some text =>
    rw [Option.getD_some]
    split
    · next h => rcases h with rfl | rfl <;> simp
    · next h =>
      rw [not_or] at h
      simp [h]

/-- Which requests for breakpoints are read back. -/
theorem readSetBreak_eq_ok_iff (file : String) (line : UInt32) (temporary set : Bool)
    (condition : Option String) :
    readSetBreak (setBreak file line temporary set condition).payload.toList =
        .ok (setBreak file line temporary set condition) ↔
      (setBreak file line temporary set condition).Survives := by
  have hcut : Split.atFirst ['@', '@'] (setBreak file line temporary set condition).payload.toList =
      some (file.toList, behindFile line temporary set (condition.getD "None")) ↔
      ¬ ['@', '@'] <:+: file.toList ∧ file.toList.getLast? ≠ some '@' := by
    rw [payload_setBreak, Split.atFirst_eq_some_iff, Split.isFirst_pair_iff]
  rw [Survives, ← hcut, ← readCondition_iff]
  constructor
  · intro h
    obtain ⟨back, hfile⟩ := exists_cut_of_readSetBreak h
    obtain rfl : behindFile line temporary set (condition.getD "None") = back := by
      have hwhole := (Split.atFirst_eq_some_iff.mp hfile).whole
      rw [payload_setBreak] at hwhole
      exact List.append_cancel_left hwhole
    rw [readSetBreak_of_cut hfile] at h
    injection h with hrequest
    injection hrequest with _ _ _ _ hcondition
    exact ⟨hfile, hcondition⟩
  · rintro ⟨hfile, hcondition⟩
    rw [readSetBreak_of_cut hfile, hcondition]

/-! ## Programs -/

/-- A bar is written as itself, and no other part of a string is written with one. -/
theorem bar_mem_escape_iff {c : Option Char} : '|' ∈ Json.Token.escape c ↔ c = some '|' := by
  have hdigit : ∀ n < 16, '|' ≠ Json.Token.hexDigit n := by decide
  have hunit : ∀ n, '|' ∉ Json.Token.unitEscape n := fun n hbar => by
    simp only [Json.Token.unitEscape, List.mem_cons, List.not_mem_nil, or_false] at hbar
    rcases hbar with h | h | h | h | h | h
    · exact absurd h (by decide)
    · exact absurd h (by decide)
    all_goals exact absurd h (hdigit _ (Nat.mod_lt _ (by decide)))
  unfold Json.Token.escape
  split
  case h_1 => simp [hunit]
  case h_9 d _ _ _ _ _ _ _ =>
    split
    · next hcontrol =>
      refine ⟨fun h => absurd h (hunit _), fun h => ?_⟩
      obtain rfl := Option.some.inj h
      exact absurd hcontrol (by decide)
    · simp [eq_comm]
  all_goals simp

/-- A bar stands in the text of an array of texts where it stands in one of them. -/
theorem bar_mem_compact_iff {args : List String} :
    '|' ∈ (Json.Value.array (args.map .ofString)).compact.toList ↔
      ∃ arg ∈ args, '|' ∈ arg.toList := by
  have hstring : ∀ arg : String,
      '|' ∈ (Json.Token.string (arg.toList.map some)).text ↔ '|' ∈ arg.toList := fun arg => by
    simp [Json.Token.text, bar_mem_escape_iff]
  rw [Json.Value.compact, String.toList_ofList, List.mem_flatMap]
  constructor
  · rintro ⟨token, htoken, hbar⟩
    rcases List.mem_cons.mp htoken with rfl | hitems
    · exact absurd hbar (by decide)
    rcases Json.Value.of_mem_itemTokens hitems with rfl | rfl | ⟨item, hitem, htoken⟩
    · exact absurd hbar (by decide)
    · exact absurd hbar (by decide)
    · obtain ⟨arg, harg, rfl⟩ := List.mem_map.mp hitem
      obtain rfl := List.mem_singleton.mp htoken
      exact ⟨arg, harg, (hstring arg).mp hbar⟩
  · rintro ⟨arg, harg, hbar⟩
    have hitem : Json.Value.ofString arg ∈ args.map .ofString := List.mem_map_of_mem harg
    have htoken : Json.Token.string (arg.toList.map some) ∈
        Json.Value.itemTokens true (args.map .ofString) :=
      Json.Value.mem_itemTokens hitem (List.mem_singleton.mpr rfl)
    exact ⟨_, List.mem_cons_of_mem _ htoken, (hstring arg).mpr hbar⟩

/-- The arguments of a program are read back. -/
theorem list?_args (args : List String) :
    (Json.Value.ofScalars? ((Json.Value.array (args.map .ofString)).compact.toList.map some)).bind
      (Json.Shape.list? Json.Shape.text?) = some args := by
  have hwritten : (Json.Value.array (args.map .ofString)).IsWritten :=
    Json.Value.isWritten_array fun item hitem => by
      obtain ⟨arg, -, rfl⟩ := List.mem_map.mp hitem
      exact Json.Value.isWritten_ofString arg
  rw [Json.Value.ofScalars?_compact hwritten]
  exact Json.Shape.list?_array fun arg _ => Json.Shape.text?_ofString arg

section Load

variable {workingDirectory program : SourcePath} {args : List String} {traceLibrary : Bool}

/-- The payload of a request to load a program. -/
theorem payload_load :
    (load workingDirectory program args traceLibrary).payload.toList =
      workingDirectory.display.toList ++ ['|'] ++ (program.display.toList ++ ['|'] ++
        ((Json.Value.array (args.map .ofString)).compact.toList ++ ['|'] ++
          (flag traceLibrary).toList)) := by
  simp

/-- A program is read from four fields, of which the last one has no bar. -/
theorem exists_fields_of_readLoad {cs : List Char} {request : Request}
    (h : readLoad cs = .ok request) :
    ∃ fields last, Split.fieldsFirst ['|'] 3 cs = fields ++ [last] ∧ fields.length = 3 ∧
      '|' ∉ last := by
  unfold readLoad at h
  split at h
  · next fields workingDirectory program args last hfields =>
    split at h
    · obtain ⟨_, hflag, -⟩ := orBad_bind_eq_ok h
      exact ⟨[workingDirectory, program, args], last, hfields, rfl, notMem_of_readFlag? hflag⟩
    · cases h
  · cases h

/-- The arguments of a program have no bar where their text has none. -/
theorem bar_notMem_args_iff :
    (∀ arg ∈ args, '|' ∉ arg.toList) ↔
      '|' ∉ (Json.Value.array (args.map .ofString)).compact.toList := by
  rw [bar_mem_compact_iff]
  simp

/-- A request to load a program has no bar if anything is read from it, so that no path can be read
as another spelling of itself. -/
theorem bar_notMem_of_readLoad {request : Request}
    (h : readLoad (load workingDirectory program args traceLibrary).payload.toList = .ok request) :
    '|' ∉ workingDirectory.display.toList ∧ '|' ∉ program.display.toList ∧
      ∀ arg ∈ args, '|' ∉ arg.toList := by
  obtain ⟨fields, last, hfields, hlength, hlast⟩ := exists_fields_of_readLoad h
  have hcount := Split.count_of_fieldsFirst hfields hlength
  have hflag : '|' ∉ (flag traceLibrary).toList := notMem_flag (by decide) _
  -- Behind three cuts there is no bar left, so the text has no other than the three of its own.
  rw [payload_load] at hcount
  simp only [List.count_append, List.count_singleton_self, List.count_eq_zero_of_not_mem hlast,
    List.count_eq_zero_of_not_mem hflag] at hcount
  rw [bar_notMem_args_iff]
  refine ⟨?_, ?_, ?_⟩ <;> rw [← List.count_eq_zero] <;> omega

/-- From a request to load a program that has no bar, the paths are read that are shown. -/
theorem readLoad_eq (hdirectory : '|' ∉ workingDirectory.display.toList)
    (hprogram : '|' ∉ program.display.toList) (hargs : ∀ arg ∈ args, '|' ∉ arg.toList) :
    readLoad (load workingDirectory program args traceLibrary).payload.toList =
      .ok (load (.ofText workingDirectory.display) (.ofText program.display) args
        traceLibrary) := by
  rw [payload_load, readLoad, Split.fieldsFirst_of_cut (Split.atFirst_of_notMem hdirectory),
    Split.fieldsFirst_of_cut (Split.atFirst_of_notMem hprogram),
    Split.fieldsFirst_of_cut (Split.atFirst_of_notMem (bar_notMem_args_iff.mp hargs)),
    Split.fieldsFirst]
  dsimp only
  rw [list?_args, readFlag?_flag, String.ofList_toList, String.ofList_toList]
  rfl

/-- A request to load a program is read back exactly if its paths are texts and it has no bar. -/
theorem readLoad_eq_ok_iff :
    readLoad (load workingDirectory program args traceLibrary).payload.toList =
        .ok (load workingDirectory program args traceLibrary) ↔
      (load workingDirectory program args traceLibrary).Survives := by
  rw [Survives, ← SourcePath.ofText_display_eq_iff, ← SourcePath.ofText_display_eq_iff]
  constructor
  · intro h
    obtain ⟨hdirectory, hprogram, hargs⟩ := bar_notMem_of_readLoad h
    rw [readLoad_eq hdirectory hprogram hargs, Except.ok.injEq, load.injEq] at h
    exact ⟨⟨h.1, h.2.1⟩, hdirectory, hprogram, hargs⟩
  · rintro ⟨⟨hdirectory, hprogram⟩, hbars⟩
    rw [readLoad_eq hbars.1 hbars.2.1 hbars.2.2, hdirectory, hprogram]

end Load

/-! ## Members of variables -/

/-- A request for the members of a variable is read back. -/
theorem readExpand_eq (name : String) (frame : UInt32) (scope : Scope) :
    readExpand (expand name frame scope).payload.toList = .ok (expand name frame scope) := by
  have hwritten : (Json.Value.array [.ofString name, .ofUInt32 frame, scope.toJson]).IsWritten :=
    Json.Value.isWritten_array fun item hitem => by
      simp only [List.mem_cons, List.not_mem_nil, or_false] at hitem
      rcases hitem with rfl | rfl | rfl
      · exact Json.Value.isWritten_ofString name
      · exact Json.Value.isWritten_ofInt frame.toNat
      · exact Json.Value.isWritten_ofInt scope.code
  have hscope : ∃ code, Json.Shape.int8? scope.toJson = some code ∧
      Scope.ofCode? code = some scope := by
    cases scope
    · exact ⟨0, by decide, rfl⟩
    · exact ⟨1, by decide, rfl⟩
    · exact ⟨-1, by decide, rfl⟩
  obtain ⟨code, hcode, hofCode⟩ := hscope
  rw [payload, readExpand, Json.Value.ofScalars?_compact hwritten, Option.bind_some, expandFields?,
    Json.Shape.text?_ofString, Json.Shape.uint32?_ofUInt32, hcode]
  dsimp only [Option.bind_eq_bind, Option.bind_some]
  rw [hofCode]

/-! ## Requests -/

/-- A request is read back from its message where its paths are texts, its texts have no separators
in the places where they would be cut, a condition is not written like one that is missing, and a
text to evaluate or to execute does not begin with a blank. -/
theorem ofMessage_toMessage_iff (request : Request) :
    ofMessage request.toMessage = .ok request ↔ request.Survives := by
  rw [ofMessage_eq_ok_iff]
  cases request with
  | load workingDirectory program args traceLibrary =>
    exact readLoad_eq_ok_iff
  | setBreak file line temporary set condition =>
    exact readSetBreak_eq_ok_iff file line temporary set condition
  | eval frame text =>
    rw [Survives, ← ofList_trimStart_iff, toMessage, word, ofPayload, payload_eval, readFrameAnd_eq]
    simp [Except.map]
  | exec frame text =>
    rw [Survives, ← ofList_trimStart_iff, toMessage, word, ofPayload, payload_exec, readFrameAnd_eq]
    simp [Except.map]
  | enableBreak file line enable =>
    exact iff_of_true (ofPayload_enableBreak file line enable) trivial
  | ignoreBreak file line count => exact iff_of_true (ofPayload_ignoreBreak file line count) trivial
  | setWatch condition temporary set =>
    exact iff_of_true (readSetWatch_eq condition temporary set) trivial
  | enableWatch condition enable =>
    exact iff_of_true (ofPayload_enableWatch condition enable) trivial
  | ignoreWatch condition count => exact iff_of_true (ofPayload_ignoreWatch condition count) trivial
  | variableList frame scope => exact iff_of_true (readVariables_eq frame scope) trivial
  | expand name frame scope => exact iff_of_true (readExpand_eq name frame scope) trivial
  | threadSet thread =>
    have hread : readThread? (threadSet thread).payload.toList = some thread := by
      rw [payload, Numeral.ofInt, String.toList_ofList, readThread?_renderInt]
    refine iff_of_true ?_ trivial
    rw [toMessage, word, ofPayload, hread]
    rfl
  | resume special =>
    have hread : readFlag? (resume special).payload.toList = some special := readFlag?_flag special
    refine iff_of_true ?_ trivial
    rw [toMessage, word, ofPayload, hread]
    rfl
  | forkTo target => cases target <;> exact iff_of_true (by decide) trivial
  | step | stepOver | stepOut | stepQuit | threadList | shutdown | currentStack | ping =>
    exact iff_of_true rfl trivial

/-- A request to load a program in a directory whose name is no text. -/
def loadStray : Request := load ⟨[0x2F, 0xFF]⟩ "a.py" [] false

/-- A request that has no bar is not read back if a path is no text: the directory that is read is
the one that is shown. -/
theorem not_ofMessage_loadStray :
    '|' ∉ (SourcePath.display ⟨[0x2F, 0xFF]⟩).toList ∧
      '|' ∉ (SourcePath.display "a.py").toList ∧
        ofMessage loadStray.toMessage = .ok (load "/\uFFFD" "a.py" [] false) ∧
          ofMessage loadStray.toMessage ≠ .ok loadStray := by
  have hdirectory : SourcePath.display ⟨[0x2F, 0xFF]⟩ = "/\uFFFD" := by decide +kernel
  have hbars : '|' ∉ (SourcePath.display ⟨[0x2F, 0xFF]⟩).toList ∧
      '|' ∉ (SourcePath.display "a.py").toList := by
    rw [hdirectory, SourcePath.display_ofText]
    decide
  have hload : readLoad loadStray.payload.toList = .ok
      (load (.ofText (SourcePath.display ⟨[0x2F, 0xFF]⟩)) (.ofText (SourcePath.display "a.py")) []
        false) :=
    readLoad_eq hbars.1 hbars.2 (List.forall_mem_nil _)
  rw [hdirectory, SourcePath.display_ofText] at hload
  have hread : ofMessage loadStray.toMessage = .ok (load "/\uFFFD" "a.py" [] false) :=
    ofMessage_eq_ok_iff.mpr hload
  refine ⟨hbars.1, hbars.2, hread, fun h => ?_⟩
  rw [hread, loadStray, Except.ok.injEq, load.injEq] at h
  exact absurd h.1 (by decide)

end DebugLink.Request
