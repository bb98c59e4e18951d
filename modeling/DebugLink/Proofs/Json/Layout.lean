import DebugLink.Proofs.Json.Record

/-!
# A value laid out over lines is read back

A layout puts nothing but space between two tokens: a new line with the indent of what follows, one
space behind a colon, or none at all. The reader passes over space, and where there is none no two
words meet. So the tokens are read from the layout as from the text without space, whatever depth
the layout begins at, if all of them have been written.
-/

namespace DebugLink.Json

namespace Token

variable {done : List Token} {space more : List Char}

/-- Space between tokens is passed over. -/
theorem read_space (h : ∀ c ∈ space, isSpace c = true) (rest : List (Option Char)) :
    read done .between (space.map some ++ rest) = read done .between rest := by
  induction space with
  | nil => rfl
  | cons c space ih =>
    obtain ⟨hc, hspace⟩ := List.forall_mem_cons.mp h
    have hstep : step .between (some c) = some ([], .between) := if_pos hc
    rw [List.map_cons, List.cons_append, read_of_silent hstep, ih hspace]

/-- Space is no character of a word. -/
theorem isWordChar_of_isSpace {c : Char} (h : isSpace c = true) : isWordChar c = false := by
  simp only [isSpace, Bool.or_eq_true, beq_iff_eq] at h
  rcases h with ((rfl | rfl) | rfl) | rfl <;> rfl

/-- A word that does not go on with a text does not go on with space in front of it. -/
theorem Stops.behind_space (h : ∀ c ∈ space, isSpace c = true) (hm : Stops more) :
    Stops (space ++ more) := by
  cases space with
  | nil => exact hm
  | cons first space =>
    intro c hc
    obtain rfl := Option.some.inj hc
    exact isWordChar_of_isSpace (h first List.mem_cons_self)

end Token

namespace Value

open Token (Apart Stops)

/-- Between two tokens stands nothing, one space, or a new line with its indent. -/
theorem gap_cases (depth : Nat) (first second : Token) :
    gap depth first second = [] ∨ gap depth first second = [' '] ∨
      ∃ inner, gap depth first second = newLine inner := by
  unfold gap
  split
  case h_1 | h_2 | h_9 => exact .inl rfl
  case h_6 => exact .inr (.inl rfl)
  case h_3 | h_4 | h_5 | h_7 | h_8 => exact .inr (.inr ⟨_, rfl⟩)

/-- What stands between two tokens is space. -/
theorem isSpace_of_mem_gap {depth : Nat} {first second : Token} {c : Char}
    (h : c ∈ gap depth first second) : Token.isSpace c = true := by
  rcases gap_cases depth first second with hg | hg | ⟨inner, hg⟩ <;> rw [hg] at h
  · cases h
  · rw [List.mem_singleton.mp h]
    rfl
  · rcases List.mem_cons.mp h with rfl | hc
    · rfl
    · rw [(List.mem_replicate.mp hc).2]
      rfl

/-- A token that can be written is written in front of the others. -/
theorem writeTokens_cons (depth : Nat) {token : Token} (h : isWritable token = true)
    (rest : List Token) :
    writeTokens depth (token :: rest) =
      (token.text ++ rest.head?.elim [] (gap (depthAfter depth token) token) ++
          (writeTokens (depthAfter depth token) rest).1,
        (writeTokens (depthAfter depth token) rest).2) := by
  rw [writeTokens, if_pos h]

/-- Tokens are written to the end if each of them can be. -/
theorem isWhole_writeTokens_iff (depth : Nat) (tokens : List Token) :
    (writeTokens depth tokens).2 = true ↔ ∀ token ∈ tokens, isWritable token = true := by
  induction tokens generalizing depth with
  | nil => exact iff_of_true rfl nofun
  | cons token rest ih =>
    rw [writeTokens, List.forall_mem_cons]
    split
    · next hwritable => rw [ih, and_iff_right hwritable]
    · next hnot => exact iff_of_false Bool.false_ne_true fun h => hnot h.1

/-- What is written of tokens begins with the text of the first one, if it can be written. -/
theorem exists_writeTokens (depth : Nat) {token : Token} (h : isWritable token = true)
    (rest : List Token) :
    ∃ more, (writeTokens depth (token :: rest)).1 = token.text ++ more :=
  ⟨_, by rw [writeTokens_cons depth h, List.append_assoc]⟩

/-- Tokens that do not run into each other are read from their layout. -/
theorem ofText?_writeTokens {tokens : List Token} (h : ∀ token ∈ tokens, token.IsWritten)
    (hapart : tokens.IsChain Apart) {depth : Nat} (hwhole : (writeTokens depth tokens).2 = true) :
    Token.ofText? ((writeTokens depth tokens).1.map some) = some tokens := by
  suffices hread : ∀ done, Token.read done .between ((writeTokens depth tokens).1.map some) =
      some (done.reverse ++ tokens) from hread []
  rw [isWhole_writeTokens_iff] at hwhole
  induction tokens generalizing depth with
  | nil => exact fun done => rfl
  | cons token rest ih =>
    intro done
    obtain ⟨htoken, hrest⟩ := List.forall_mem_cons.mp h
    obtain ⟨hnext, hchain⟩ := List.isChain_cons.mp hapart
    obtain ⟨hwritable, hothers⟩ := List.forall_mem_cons.mp hwhole
    rw [writeTokens_cons depth hwritable]
    cases rest with
    | nil =>
      have hread : Token.read done .between (token.text.map some ++ [].map some) =
          Token.read (token :: done) .between [] := Token.read_text htoken fun _ => nofun
      rw [List.head?_nil, Option.elim_none, List.append_nil, writeTokens, List.append_nil,
        ← List.append_nil (token.text.map some)]
      refine hread.trans ?_
      simp [Token.read, Token.finish]
    | cons next rest =>
      -- The token ends at the space behind it, or else at the next token, which is no word.
      have hstops : token.isWord = true → Stops
          (gap (depthAfter depth token) token next ++
            (writeTokens (depthAfter depth token) (next :: rest)).1) := by
        intro hword
        obtain ⟨more, hlayout⟩ := exists_writeTokens (depthAfter depth token)
          (hothers next List.mem_cons_self) rest
        refine .behind_space (fun _ => isSpace_of_mem_gap) ?_
        rw [hlayout]
        exact Token.stops_text (hnext next rfl hword) more
      rw [List.head?_cons, Option.elim_some, List.append_assoc, List.map_append,
        Token.read_text htoken hstops, List.map_append,
        Token.read_space fun _ => isSpace_of_mem_gap, ih hrest hchain hothers]
      simp

/-! ## Values that are written to the end -/

/-- All strings of a value are texts. -/
def IsWhole (value : Value) : Prop := ∀ token ∈ value.tokens, isWritable token = true

/-- A value is written to the end if its strings are texts. -/
theorem isWhole_write_iff (value : Value) : value.write.2 = true ↔ value.IsWhole :=
  isWhole_writeTokens_iff 0 value.tokens

/-- A string is written if it is a text. -/
theorem isWhole_string_iff {content : Content} :
    (string content).IsWhole ↔ content.all Option.isSome = true :=
  List.forall_mem_singleton

/-- A text is written. -/
@[simp] theorem isWhole_ofString (s : String) : (ofString s).IsWhole :=
  isWhole_string_iff.mpr (by simp)

/-- A truth value is written. -/
@[simp] theorem isWhole_bool (value : Bool) : (bool value).IsWhole :=
  List.forall_mem_singleton.mpr rfl

/-- A number is written. -/
@[simp] theorem isWhole_ofUInt32 (n : UInt32) : (ofUInt32 n).IsWhole :=
  List.forall_mem_singleton.mpr rfl

/-- An array is written to the end if its items are. -/
@[simp] theorem isWhole_array_iff {items : List Value} :
    (array items).IsWhole ↔ ∀ item ∈ items, item.IsWhole := by
  refine ⟨fun h item hitem token htoken => ?_, fun h token htoken => ?_⟩
  · exact h token (List.mem_cons_of_mem _ (mem_itemTokens hitem htoken))
  · rcases List.mem_cons.mp htoken with rfl | hitems
    · rfl
    · rcases of_mem_itemTokens hitems with rfl | rfl | ⟨item, hitem, htoken⟩
      · rfl
      · rfl
      · exact h item hitem token htoken

/-- An object whose keys are texts is written to the end if its values are. -/
@[simp] theorem isWhole_ofMembers_iff {members : List (String × Value)} :
    (ofMembers members).IsWhole ↔ ∀ member ∈ members, member.2.IsWhole := by
  refine ⟨fun h member hmember token htoken => ?_, fun h token htoken => ?_⟩
  · have hmap : (member.1.toList.map some, member.2) ∈
        members.map fun member => (member.1.toList.map some, member.2) :=
      List.mem_map_of_mem hmember
    exact h token (List.mem_cons_of_mem _ (mem_memberTokens hmap htoken))
  · rcases List.mem_cons.mp htoken with rfl | hmembers
    · rfl
    · rcases of_mem_memberTokens hmembers with rfl | rfl | rfl | ⟨member, hmember, htoken⟩
      · rfl
      · rfl
      · rfl
      · obtain ⟨given, hgiven, rfl⟩ := List.mem_map.mp hmember
        rcases htoken with rfl | htoken
        · exact isWhole_ofString given.1 _ List.mem_cons_self
        · exact h given hgiven token htoken

/-- A value that is written to the end is read back from the octets of its layout. -/
theorem ofBytes?_encode_write {value : Value} (h : value.IsWritten) (hwhole : value.IsWhole) :
    ofBytes? (Text.Utf8.encode value.write.1) = some value := by
  rw [ofBytes?, Text.Utf8.encode, Text.Utf8.scalars_encodeChars, write, String.toList_ofList,
    ofScalars?, ofText?_writeTokens h (isChain_tokens value) ((isWhole_write_iff value).mpr hwhole)]
  exact ofTokens?_tokens value

end Value

end DebugLink.Json
