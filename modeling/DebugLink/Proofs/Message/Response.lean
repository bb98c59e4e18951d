import DebugLink.Response
import DebugLink.Proofs.Json.Record
import DebugLink.Proofs.Message.Request

/-!
# Which responses are read back

Structured payloads are JSON and are read back whatever texts and numbers they hold, and places are
cut from the right, so that a file may have commas. Only a debuggee without a process number can be
mistaken: a bar in the name of its file stands where the number would be cut off. What is read from
a message never has such a file, so whatever spelling it came in, it is read back.
-/

namespace DebugLink

open Text
open Json (ReadsBack)
open Wire (PayloadFault)

/-! ## Structured payloads -/

/-- A stack frame is read back. -/
theorem StackFrame.readsBack : ReadsBack toJson ofJson? :=
  .record ["file", "line", "function", "arguments"] (by decide)
    (fun frame => [some (.ofString frame.file), some (.ofUInt32 frame.line),
      some (.ofString frame.function), some (.ofString frame.arguments)])
    (fun _ => rfl) (fun _ => rfl) (fun _ => rfl)
    (by simp [ReadsBack.text.written, ReadsBack.uint32.written])
    (by simp [ReadsBack.text.read, ReadsBack.uint32.read])

/-- A stack is read back. -/
theorem Stack.readsBack : ReadsBack toJson ofJson? := StackFrame.readsBack.list

/-- An exception report is read back. -/
theorem ExceptionReport.readsBack : ReadsBack toJson ofJson? :=
  .record ["type", "message", "stack"] (by decide)
    (fun report => [some (.ofString report.type), some (.ofString report.message),
      some (Stack.toJson report.stack)])
    (fun _ => rfl) (fun _ => rfl) (fun _ => rfl)
    (by simp [ReadsBack.text.written, Stack.readsBack.written])
    (by simp [ReadsBack.text.read, Stack.readsBack.read])

/-- A syntax error is read back. -/
theorem SyntaxErrorInfo.readsBack : ReadsBack toJson ofJson? :=
  .record ["message", "filename", "line", "characternumber"] (by decide)
    (fun info => [some (.ofString info.message), some (.ofString info.file),
      some (.ofUInt32 info.line), some (.ofUInt32 info.column)])
    (fun _ => rfl) (fun _ => rfl) (fun _ => rfl)
    (by simp [ReadsBack.text.written, ReadsBack.uint32.written])
    (by simp [ReadsBack.text.read, ReadsBack.uint32.read])

/-- A thread state is read back. -/
theorem ThreadState.readsBack : ReadsBack toJson ofJson? where
  written state := ReadsBack.text.written state.word
  read state := by cases state <;> rfl

/-- A thread is read back. -/
theorem ThreadInfo.readsBack : ReadsBack toJson ofJson? :=
  .record ["id", "name", "state"] (by decide)
    (fun info => [some (.ofInt info.id.toInt), some (.ofString info.name),
      some info.state.toJson])
    (fun _ => rfl) (fun _ => rfl) (fun _ => rfl)
    (by simp [ReadsBack.int64.written, ReadsBack.text.written, ThreadState.readsBack.written])
    (by simp [ReadsBack.int64.read, ReadsBack.text.read, ThreadState.readsBack.read])

/-- A list of threads is read back. -/
theorem ThreadList.readsBack : ReadsBack toJson ofJson? :=
  .record ["current", "threads"] (by decide)
    (fun list => [some (.ofInt list.current.toInt),
      some (.array (list.threads.map ThreadInfo.toJson))])
    (fun _ => rfl) (fun _ => rfl) (fun _ => rfl)
    (by simp [ReadsBack.int64.written, ThreadInfo.readsBack.list.written])
    (by simp [ReadsBack.int64.read, ThreadInfo.readsBack.list.read])

/-- A variable is read back. -/
theorem VariableInfo.readsBack : ReadsBack toJson ofJson? :=
  .record ["name", "type", "value"] (by decide)
    (fun info => [some (.ofString info.name), some (.ofString info.type),
      some (.ofString info.value)])
    (fun _ => rfl) (fun _ => rfl) (fun _ => rfl)
    (by simp [ReadsBack.text.written])
    (by simp [ReadsBack.text.read])

/-- A scope is read back. -/
theorem Scope.readsBack : ReadsBack toJson ofJson? where
  written scope := Json.Value.isWritten_ofInt scope.code
  read scope := by cases scope <;> decide

/-- A list of variables is read back, with the variable whose members they are or without. -/
theorem VariableList.readsBack : ReadsBack toJson ofJson? :=
  .record ["scope", "variable", "variables"] (by decide)
    (fun list => [some list.scope.toJson, list.parent.map .ofString,
      some (.array (list.items.map VariableInfo.toJson))])
    (fun _ => rfl)
    (fun list => by
      rw [toJson]
      cases list.parent <;> rfl)
    (fun _ => rfl)
    (fun list value hvalue => by
      simp only [List.mem_cons, Option.some.injEq, List.not_mem_nil, or_false] at hvalue
      rcases hvalue with rfl | hparent | rfl
      · exact Scope.readsBack.written list.scope
      · exact ReadsBack.text.written_optional hparent
      · exact VariableInfo.readsBack.list.written list.items)
    (by simp [Scope.readsBack.read, ReadsBack.text.read_optional nofun,
      VariableInfo.readsBack.list.read])

/-- A request for input is read back. -/
theorem RawInput.readsBack : ReadsBack toJson ofJson? :=
  .record ["prompt", "echo"] (by decide)
    (fun input => [some (.ofString input.prompt), some (.bool input.echo)])
    (fun _ => rfl) (fun _ => rfl) (fun _ => rfl)
    (by simp [ReadsBack.text.written, ReadsBack.bool.written])
    (by simp [ReadsBack.text.read, ReadsBack.bool.read])

namespace Response

/-! ## Words -/

/-- A response that is made of what was read has the word of those that are made so. -/
theorem word_of_map {α : Type} {result : Except PayloadFault α} {make : α → Response}
    {response : Response} {word : Word} (hw : ∀ value, (make value).word = word)
    (h : result.map make = .ok response) : response.word = word := by
  cases result with
  | error fault => cases h
  | ok value =>
    cases h
    exact hw value

/-- What is read as the end of the program has its word. -/
theorem word_of_readExit {cs : List Char} {response : Response}
    (h : readExit cs = .ok response) : response.word = .exit := by
  unfold readExit at h
  dsimp only at h
  split at h
  · cases h
    rfl
  · split at h <;> cases h
    rfl

/-- What is read as the start of a program has its word. -/
theorem word_of_readPassiveStartup {payload : String} {response : Response}
    (h : readPassiveStartup payload = .ok response) : response.word = .passiveStartup := by
  unfold readPassiveStartup at h
  split at h
  · obtain ⟨pid, -, hread⟩ := Request.orBad_bind_eq_ok h
    cases hread
    rfl
  · cases h
    rfl

/-- What is read from a payload has the word that it is read for. -/
theorem word_of_ofPayload {word : Word} {payload : String} {response : Response}
    (h : ofPayload word payload = .ok response) : response.word = word := by
  cases word with
  | exit => exact word_of_readExit h
  | passiveStartup => exact word_of_readPassiveStartup h
  | line | currentStack | exception | syntaxError | raw | clearBreak | breakConditionError
  | threadList | variableList | expand => exact word_of_map (fun _ => rfl) h
  | _ => cases h <;> rfl

/-- The response that a message carries has the word of the message. -/
theorem word_of_ofMessage {message : Message} {response : Response}
    (h : ofMessage message = .ok response) : response.word = message.word := by
  unfold ofMessage at h
  split at h
  · next hp =>
    cases h
    exact word_of_ofPayload hp
  · cases h

/-! ## Payloads -/

/-- A structured payload is read back. -/
theorem readJson_compact {α : Type} {toJson : α → Json.Value} {ofJson? : Json.Value → Option α}
    (h : ReadsBack toJson ofJson?) (check : Json.Diagnosis.Check) (a : α) :
    readJson ofJson? check (toJson a).compact = .ok a := by
  rw [readJson, h.ofText?]

/-- An exit code is read back. -/
theorem readExit_renderInt (code : Int32) :
    readExit (Numeral.renderInt code.toInt) = .ok (exit code) := by
  have hne : (Numeral.renderInt code.toInt).isEmpty = false := by
    rw [Numeral.renderInt]
    split <;> simp [Numeral.render_ne_nil]
  rw [readExit, Numeral.trim_renderInt, hne, if_neg Bool.false_ne_true,
    Numeral.readInt32_renderInt]

/-- A place is read back, whatever the file is. -/
theorem readPlace_place (file : String) (line : UInt32) :
    readPlace (place file line).toList = .ok (file, line) := by
  have hcut : Split.atLast [','] (place file line).toList =
      some (file.toList, Numeral.render line.toNat) := by
    have hcomma : ',' ∉ Numeral.render line.toNat := Numeral.notMem_render (by decide) _
    have htext : (place file line).toList = file.toList ++ [','] ++ Numeral.render line.toNat := by
      simp [place, Numeral.ofUInt32]
    rw [htext]
    exact Split.atLast_of_notMem [] hcomma
  rw [readPlace, hcut]
  dsimp only
  rw [Request.readNumber?_render, String.ofList_toList]
  rfl

/-- A debuggee with a process number is read back, whatever the file is. -/
theorem readPassiveStartup_some (file : String) (pid : UInt32) :
    readPassiveStartup (passiveStartup file (some pid)).payload =
      .ok (passiveStartup file (some pid)) := by
  have hcut : Split.atLast ['|'] (passiveStartup file (some pid)).payload.toList =
      some (file.toList, Numeral.render pid.toNat) := by
    have hbar : '|' ∉ Numeral.render pid.toNat := Numeral.notMem_render (by decide) _
    have htext : (passiveStartup file (some pid)).payload.toList =
        file.toList ++ ['|'] ++ Numeral.render pid.toNat := by
      simp [payload, Numeral.ofUInt32]
    rw [htext]
    exact Split.atLast_of_notMem [] hbar
  rw [readPassiveStartup, hcut]
  dsimp only
  rw [Request.readNumber?_render, String.ofList_toList]
  rfl

/-- A debuggee without a process number is read from the name of its file, which has no bar. -/
theorem readPassiveStartup_eq_none_iff (payload file : String) :
    readPassiveStartup payload = .ok (passiveStartup file none) ↔
      payload = file ∧ '|' ∉ file.toList := by
  rw [readPassiveStartup]
  cases hcut : Split.atLast ['|'] payload.toList with
  | none =>
    rw [Split.atLast_eq_none_iff, List.singleton_infix_iff] at hcut
    dsimp only
    rw [Except.ok.injEq, passiveStartup.injEq, and_iff_left rfl]
    exact ⟨fun heq => ⟨heq, heq ▸ hcut⟩, And.left⟩
  | some parts =>
    have hbar : '|' ∈ payload.toList := by
      by_contra hbar
      rw [← List.singleton_infix_iff, ← Split.atLast_eq_none_iff, hcut] at hbar
      cases hbar
    refine iff_of_false (fun h => ?_) fun h => h.2 (h.1 ▸ hbar)
    obtain ⟨pid, -, hread⟩ := Request.orBad_bind_eq_ok h
    cases hread

/-! ## Responses -/

/-- A response is read from a message where it is read from the payload. -/
theorem ofMessage_eq_ok_iff {message : Message} {response : Response} :
    ofMessage message = .ok response ↔ ofPayload message.word message.payload = .ok response := by
  rw [ofMessage]
  cases ofPayload message.word message.payload with
  | ok read => exact ⟨fun h => by rw [Except.ok.inj h], fun h => by rw [Except.ok.inj h]⟩
  | error reason => exact ⟨nofun, nofun⟩

/-- A response is read back from its message, unless it is from a debuggee without a process number
whose file has a bar in its name. -/
theorem ofMessage_toMessage_of {response : Response}
    (h : ∀ file, response = passiveStartup file none → '|' ∉ file.toList) :
    ofMessage response.toMessage = .ok response := by
  rw [ofMessage_eq_ok_iff]
  cases response with
  | stopped stack | currentStack stack =>
    rw [toMessage, word, payload, ofPayload, readJson_compact Stack.readsBack]
    rfl
  | exception report =>
    rw [toMessage, word, payload, ofPayload, readJson_compact ExceptionReport.readsBack]
    rfl
  | syntaxError info =>
    rw [toMessage, word, payload, ofPayload, readJson_compact SyntaxErrorInfo.readsBack]
    rfl
  | raw input =>
    rw [toMessage, word, payload, ofPayload, readJson_compact RawInput.readsBack]
    rfl
  | threadList list =>
    rw [toMessage, word, payload, ofPayload, readJson_compact ThreadList.readsBack]
    rfl
  | variableList list | expand list =>
    rw [toMessage, word, payload, ofPayload, readJson_compact VariableList.readsBack]
    rfl
  | exit code =>
    rw [toMessage, word, payload, ofPayload, Numeral.ofInt, String.toList_ofList,
      readExit_renderInt]
  | clearBreak file line | breakConditionError file line =>
    rw [toMessage, word, payload, ofPayload, readPlace_place]
    rfl
  | passiveStartup file pid =>
    cases pid with
    | some pid => exact readPassiveStartup_some file pid
    | none => exact (readPassiveStartup_eq_none_iff file file).mpr ⟨rfl, h file rfl⟩
  | ok | clearWatch _ | watchConditionError _ | eval | evalOk _ | evalError _ | exec | execError _
  | threadSet | forkTo | endOfTransmission => rfl

/-- A response that is read from a message has no file with a bar where a process number would
stand. -/
theorem bar_notMem_of_ofMessage {message : Message} {file : String}
    (h : ofMessage message = .ok (passiveStartup file none)) : '|' ∉ file.toList := by
  have hword : .passiveStartup = message.word := word_of_ofMessage h
  rw [ofMessage_eq_ok_iff, ← hword] at h
  exact ((readPassiveStartup_eq_none_iff message.payload file).mp h).2

/-- Every response is read back from its message, but for one: that of a debuggee without a process
number whose file has a bar in its name. No such response is read from a message, so that what is
read from a message is also read back. -/
theorem isReadBack_iff (response : Response) :
    (ofMessage response.toMessage = .ok response ↔
        ¬ ∃ file, response = passiveStartup file none ∧ '|' ∈ file.toList) ∧
      ∀ message, ofMessage message = .ok response →
        ofMessage response.toMessage = .ok response := by
  refine ⟨⟨?_, fun h => ?_⟩, fun message h => ?_⟩
  · rintro h ⟨file, rfl, hbar⟩
    exact bar_notMem_of_ofMessage h hbar
  · exact ofMessage_toMessage_of fun file heq hbar => h ⟨file, heq, hbar⟩
  · refine ofMessage_toMessage_of fun file heq => ?_
    rw [heq] at h
    exact bar_notMem_of_ofMessage h

/-- A list of variables in another spelling than the written one: with a member that nothing asks
for, a null for what may be missing, and space. -/
def respelled : Message :=
  ⟨.variableList, "\x7b\"x\": 0.5, \"scope\": -1, \"variable\": null\x7d"⟩

/-- What is read from another spelling is read back from its own. -/
theorem isReadBack_iff_respelled :
    ofMessage respelled = .ok (variableList { scope := .shared }) ∧
      ofMessage (variableList { scope := .shared }).toMessage =
        .ok (variableList { scope := .shared }) := by
  have h : ofMessage respelled = .ok (variableList { scope := .shared }) := by decide +kernel
  exact ⟨h, (isReadBack_iff _).2 respelled h⟩

end Response

end DebugLink
